/-
RdEngine/Platform/BitrateRuns.lean

What holds of the bitrate controller over every sequence of unit sizes, with its
ratios and its steps taken as exact rationals.

The two windows count the same frames, and they are reset by different events: a
decision empties both, a long window that fills without one empties itself alone.  So
each of them holds a stretch of the run that ends with the latest frame, and begins
behind the last decision.  From this the spacing of the decisions follows, and that no
frame counts towards two of them (`bitrate_lawful`).

A step up or down is a whole number of bits a second, rounded down: a lowering may
pass its factor by less than one bit (`lowering_rounds`).
-/
import RdEngine.Platform.BitrateEvidence
import Mathlib.Order.Interval.Finset.Nat

namespace RdEngine

namespace WindowsBitrate

open BitrateController

/-! ### Verdicts -/

/-- What the controller makes of a frame. -/
inductive Verdict where
  | raise | lower | restart | wait
  deriving DecidableEq, Repr

/-- The rate is decided on, whether or not it can move. -/
def Verdict.decides : Verdict → Bool
  | .raise | .lower => true
  | .restart | .wait => false

instance (c : BitrateController) (w : Window) : Decidable (c.Enough w) :=
  inferInstanceAs (Decidable (_ ∧ _))

namespace BitrateController

/-- What the controller makes of one more picture, with exact quotients. -/
def verdict (c : BitrateController) (bytes : Nat) : Verdict :=
  if c.Enough (c.short.add bytes) then .raise
  else if lowerAfterFrames ≤ (c.long.add bytes).frames then
    if Exact.ratio (c.long.add bytes) c.current c.fps ≤ Exact.lowWater then .lower else .restart
  else .wait

/-- What follows from a verdict. -/
def carryOut (c : BitrateController) (bytes : Nat) : Verdict → BitrateController × Decision
  | .raise => apply { c with short := {}, long := {} } (Exact.arithmetic.raised c.current)
  | .lower => apply { c with short := {}, long := {} } (Exact.arithmetic.lowered c.current)
  | .restart => ({ c with short := c.short.add bytes, long := {} }, .hold)
  | .wait => ({ c with short := c.short.add bytes, long := c.long.add bytes }, .hold)

/-- The controller carries its verdict out. -/
theorem observeExact_eq (c : BitrateController) (bytes : Nat) :
    c.observeExact bytes = c.carryOut bytes (c.verdict bytes) := by
  unfold verdict
  rcases observeExact_cases c bytes with
    ⟨henough, heq⟩ | ⟨hnot, ⟨hlong, hslack, heq⟩ | ⟨hlong, hslack, heq⟩ | ⟨hlong, heq⟩⟩
  · rw [heq, if_pos henough]
    rfl
  · rw [heq, if_neg hnot, if_pos hlong, if_pos hslack]
    rfl
  · rw [heq, if_neg hnot, if_pos hlong, if_neg hslack]
    rfl
  · rw [heq, if_neg hnot, if_neg (by omega)]
    rfl

/-- The answers to the frames of a run. -/
def answers : BitrateController → List Nat → List Decision
  | _, [] => []
  | c, bytes :: frames => (c.observeExact bytes).2 :: answers (c.observeExact bytes).1 frames

/-- The verdict on one frame of a run. -/
def verdictAt (c : BitrateController) (frames : List Nat) (i : Nat) : Option Verdict :=
  frames[i]?.map (c.after (frames.take i)).verdict

end BitrateController

/-- A decision for a rate. -/
def Decision.rate? : Decision → Option Int
  | .hold => none
  | .change rate => some rate

/-! ### Where the windows begin -/

/-- The numbers of the first frames that the windows hold. -/
structure Marks where
  short : Nat := 0
  long : Nat := 0
  deriving DecidableEq, Repr

/-- Behind frame `i`. -/
def Marks.next (marks : Marks) (i : Nat) : Verdict → Marks
  | .raise | .lower => ⟨i + 1, i + 1⟩
  | .restart => { marks with long := i + 1 }
  | .wait => marks

namespace BitrateController

/-- Where the windows begin, before frame `i` of a run. -/
def marksAt (c : BitrateController) (frames : List Nat) : Nat → Marks
  | 0 => {}
  | i + 1 =>
    match c.verdictAt frames i with
    | some verdict => (c.marksAt frames i).next i verdict
    | none => c.marksAt frames i

/-- The frames whose bytes count towards the decision on frame `i`: those of the
window it is made by. -/
def counted (c : BitrateController) (frames : List Nat) (i : Nat) : Finset Nat :=
  match c.verdictAt frames i with
  | some .raise => Finset.Ico (c.marksAt frames i).short (i + 1)
  | some .lower => Finset.Ico (c.marksAt frames i).long (i + 1)
  | _ => ∅

/-- The window over the frames of a run from `first` on, before `next`. -/
def windowOf (frames : List Nat) (first next : Nat) : Window :=
  ((frames.take next).drop first).foldl Window.add {}

end BitrateController

/-- What holds of a controller and of every sequence of unit sizes. -/
structure Lawful (c : BitrateController) (initial : Int) (frames : List Nat) : Prop where
  min_le : minBitrate ≤ (c.after frames).current
  le_max : (c.after frames).current ≤ maxBitrate
  /-- the rate is the last that was returned -/
  current : (c.after frames).current =
    ((c.answers frames).filterMap Decision.rate?).getLast?.getD (clamp initial)
  /-- a change goes up by a raise and down by a lowering, by their factors at most -/
  change : ∀ bytes rate, ((c.after frames).observeExact bytes).2 = .change rate →
    ((c.after frames).verdict bytes = .raise ∧ (c.after frames).current < rate ∧
      (rate : ℚ) ≤ (c.after frames).current * (1 + 25 / 100)) ∨
    ((c.after frames).verdict bytes = .lower ∧ rate < (c.after frames).current ∧
      ⌊((c.after frames).current : ℚ) * (1 - 12 / 100)⌋ ≤ rate)
  raise_apart : ∀ i j, i < j → (c.verdictAt frames i).any Verdict.decides = true →
    c.verdictAt frames j = some .raise → i + raiseAfterFrames ≤ j
  lower_apart : ∀ i j, i < j → (c.verdictAt frames i).any Verdict.decides = true →
    c.verdictAt frames j = some .lower → i + lowerAfterFrames ≤ j
  /-- the frames that count are those that the controller's windows sum up -/
  windows : ∀ i ≤ frames.length,
    (c.after (frames.take i)).short = windowOf frames (c.marksAt frames i).short i ∧
      (c.after (frames.take i)).long = windowOf frames (c.marksAt frames i).long i
  /-- no frame counts twice -/
  once : ∀ i j, i < j → Disjoint (c.counted frames i) (c.counted frames j)
  /-- of what came before a decision, only the rate is left -/
  fresh : ∀ bytes, ((c.after frames).verdict bytes).decides = true →
    ((c.after frames).observeExact bytes).1 =
      .new (c.after frames).fps ((c.after frames).observeExact bytes).1.current

section

variable {c : BitrateController} {frames : List Nat} {i j bytes : Nat} {v : Verdict}

/-! ### Runs, one frame more -/

theorem after_append (c : BitrateController) (frames rest : List Nat) :
    c.after (frames ++ rest) = (c.after frames).after rest := by
  simp [BitrateController.after]

theorem answers_append (c : BitrateController) (frames rest : List Nat) :
    c.answers (frames ++ rest) = c.answers frames ++ (c.after frames).answers rest := by
  induction frames generalizing c with
  | nil => rfl
  | cons bytes frames ih =>
    show _ :: answers _ (frames ++ rest) = _ :: (answers _ frames ++ _)
    rw [ih]
    rfl

theorem verdictAt_eq_some : c.verdictAt frames i = some v ↔
    ∃ h : i < frames.length, (c.after (frames.take i)).verdict frames[i] = v := by
  simp [BitrateController.verdictAt, List.getElem?_eq_some_iff]

theorem after_take_succ (h : i < frames.length) :
    c.after (frames.take (i + 1)) =
      ((c.after (frames.take i)).carryOut frames[i]
        ((c.after (frames.take i)).verdict frames[i])).1 := by
  rw [List.take_succ_eq_append_getElem h, after_append, ← observeExact_eq]
  rfl

theorem windowOf_succ (hfrom : i ≤ j) (h : j < frames.length) :
    windowOf frames i (j + 1) = (windowOf frames i j).add frames[j] := by
  have hlen : i ≤ (frames.take j).length := by
    rw [List.length_take]
    omega
  unfold windowOf
  rw [List.take_succ_eq_append_getElem h, List.drop_append_of_le_length hlen, List.foldl_append]
  rfl

theorem windowOf_self (frames : List Nat) (i : Nat) : windowOf frames i i = {} := by
  have hnil : (frames.take i).drop i = [] := by simp
  unfold windowOf
  rw [hnil]
  rfl

theorem marksAt_succ (h : c.verdictAt frames i = some v) :
    c.marksAt frames (i + 1) = (c.marksAt frames i).next i v := by
  show (match c.verdictAt frames i with
    | some verdict => (c.marksAt frames i).next i verdict
    | none => c.marksAt frames i) = _
  rw [h]

/-! ### What the windows hold -/

/-- Before frame `i`, the windows hold the frames behind their marks, and these lie
behind every decision. -/
structure Marked (c : BitrateController) (frames : List Nat) (i : Nat) : Prop where
  short_le : (c.marksAt frames i).short ≤ i
  long_le : (c.marksAt frames i).long ≤ i
  short : (c.after (frames.take i)).short = windowOf frames (c.marksAt frames i).short i
  long : (c.after (frames.take i)).long = windowOf frames (c.marksAt frames i).long i
  behind : ∀ k < i, (c.verdictAt frames k).any Verdict.decides = true →
    k < (c.marksAt frames i).short ∧ k < (c.marksAt frames i).long

/-- A decision on frame `i` empties both windows. -/
theorem Marked.decided (hmarks : c.marksAt frames (i + 1) = ⟨i + 1, i + 1⟩)
    (hshort : (c.after (frames.take (i + 1))).short = {})
    (hlong : (c.after (frames.take (i + 1))).long = {}) : Marked c frames (i + 1) where
  short_le := by rw [hmarks]
  long_le := by rw [hmarks]
  short := by rw [hmarks, hshort, windowOf_self]
  long := by rw [hmarks, hlong, windowOf_self]
  behind k hk _ := by
    rw [hmarks]
    exact ⟨hk, hk⟩

/-- A frame that is not decided on leaves the decisions where they were. -/
theorem Marked.undecided (hm : Marked c frames i) (hverdict : c.verdictAt frames i = some v)
    (hv : v.decides = false) :
    ∀ k < i + 1, (c.verdictAt frames k).any Verdict.decides = true →
      k < (c.marksAt frames i).short ∧ k < (c.marksAt frames i).long := by
  intro k hk hdecides
  rcases Nat.lt_succ_iff_lt_or_eq.mp hk with hlt | rfl
  · exact hm.behind k hlt hdecides
  · rw [hverdict, Option.any_some, hv] at hdecides
    cases hdecides

theorem Marked.step (hm : Marked c frames i) (h : i < frames.length) : Marked c frames (i + 1) := by
  have hafter := @after_take_succ c frames i h
  have hverdict : c.verdictAt frames i =
      some ((c.after (frames.take i)).verdict frames[i]) := verdictAt_eq_some.mpr ⟨h, rfl⟩
  have hmarks := marksAt_succ hverdict
  have hshort := windowOf_succ hm.short_le h
  have hlong := windowOf_succ hm.long_le h
  rw [← hm.short] at hshort
  rw [← hm.long] at hlong
  generalize (c.after (frames.take i)).verdict frames[i] = v at hafter hverdict hmarks
  -- the marks move with the verdict: both, the long one, or neither
  cases v with
  | raise | lower =>
    refine Marked.decided hmarks ?_ ?_
    · rw [hafter, carryOut, apply_eq]
    · rw [hafter, carryOut, apply_eq]
  | restart =>
    have hbehind := hm.undecided hverdict rfl
    refine ⟨?_, ?_, ?_, ?_, fun k hk hdecides => ?_⟩
    · rw [hmarks]
      exact hm.short_le.trans (Nat.le_succ i)
    · rw [hmarks]
      exact le_rfl
    · rw [hmarks, hafter]
      exact hshort.symm
    · rw [hmarks, hafter]
      exact (windowOf_self frames (i + 1)).symm
    · rw [hmarks]
      exact ⟨(hbehind k hk hdecides).1, hk⟩
  | wait =>
    have hbehind := hm.undecided hverdict rfl
    refine ⟨?_, ?_, ?_, ?_, fun k hk hdecides => ?_⟩
    · rw [hmarks]
      exact hm.short_le.trans (Nat.le_succ i)
    · rw [hmarks]
      exact hm.long_le.trans (Nat.le_succ i)
    · rw [hmarks, hafter]
      exact hshort.symm
    · rw [hmarks, hafter]
      exact hlong.symm
    · rw [hmarks]
      exact hbehind k hk hdecides

theorem marked (fps : Nat) (initial : Int) (h : i ≤ frames.length) :
    Marked (.new fps initial) frames i := by
  induction i with
  | zero => exact ⟨le_rfl, le_rfl, rfl, rfl, fun k hk => absurd hk (Nat.not_lt_zero k)⟩
  | succ i ih => exact (ih (by omega)).step h

/-- A window has no more frames than it began ago. -/
theorem frames_windowOf_le (hto : j ≤ frames.length) : (windowOf frames i j).frames ≤ j - i := by
  have hframes := frames_foldl fits_empty ((frames.take j).drop i)
  rw [List.length_drop, List.length_take, min_eq_left hto] at hframes
  unfold windowOf
  rw [← hframes]
  show min (0 + (j - i)) (2 ^ 32 - 1) ≤ j - i
  omega

/-! ### Spacing -/

theorem verdict_raise (h : c.verdict bytes = .raise) : c.Enough (c.short.add bytes) := by
  unfold BitrateController.verdict at h
  split_ifs at h with henough
  exact henough

theorem verdict_lower (h : c.verdict bytes = .lower) :
    lowerAfterFrames ≤ (c.long.add bytes).frames := by
  unfold BitrateController.verdict at h
  split_ifs at h with _ hlong
  exact hlong

/-- A raise is made by 24 frames behind its mark. -/
theorem Marked.raise_le (hm : Marked c frames j) (h : c.verdictAt frames j = some .raise) :
    (c.marksAt frames j).short + raiseAfterFrames ≤ j + 1 := by
  obtain ⟨hj, hverdict⟩ := verdictAt_eq_some.mp h
  have henough := (verdict_raise hverdict).1
  rw [hm.short, ← windowOf_succ hm.short_le hj] at henough
  have hle := @frames_windowOf_le frames (c.marksAt frames j).short (j + 1) hj
  have hmark := hm.short_le
  omega

/-- A lowering is made by 240 frames behind its mark. -/
theorem Marked.lower_le (hm : Marked c frames j) (h : c.verdictAt frames j = some .lower) :
    (c.marksAt frames j).long + lowerAfterFrames ≤ j + 1 := by
  obtain ⟨hj, hverdict⟩ := verdictAt_eq_some.mp h
  have henough := verdict_lower hverdict
  rw [hm.long, ← windowOf_succ hm.long_le hj] at henough
  have hle := @frames_windowOf_le frames (c.marksAt frames j).long (j + 1) hj
  have hmark := hm.long_le
  omega

/-! ### Steps -/

theorem change_raise {rate : Int} (hmin : minBitrate ≤ c.current)
    (h : (c.carryOut bytes .raise).2 = .change rate) (hmax : c.current ≤ maxBitrate) :
    c.current < rate ∧ (rate : ℚ) ≤ c.current * (1 + 25 / 100) := by
  rw [carryOut, apply_eq] at h
  dsimp only at h
  split_ifs at h with hsame
  cases h
  have hzero : (2000000 : ℚ) ≤ c.current := by exact_mod_cast hmin
  have hup : c.current ≤ Exact.arithmetic.raised c.current := by
    apply Int.le_floor.mpr
    linarith
  have hclamp : clamp (Exact.arithmetic.raised c.current) ≤ Exact.arithmetic.raised c.current ∧
      c.current ≤ clamp (Exact.arithmetic.raised c.current) := by
    unfold clamp
    omega
  refine ⟨lt_of_le_of_ne hclamp.2 (Ne.symm hsame), ?_⟩
  calc ((clamp (Exact.arithmetic.raised c.current) : Int) : ℚ)
      ≤ (Exact.arithmetic.raised c.current : Int) := by exact_mod_cast hclamp.1
    _ ≤ c.current * (1 + 25 / 100) := Int.floor_le _

theorem change_lower {rate : Int} (hmin : minBitrate ≤ c.current)
    (h : (c.carryOut bytes .lower).2 = .change rate) (hmax : c.current ≤ maxBitrate) :
    rate < c.current ∧ ⌊(c.current : ℚ) * (1 - 12 / 100)⌋ ≤ rate := by
  rw [carryOut, apply_eq] at h
  dsimp only at h
  split_ifs at h with hsame
  cases h
  have hdown := lowered_le hmin hmax
  refine ⟨lt_of_le_of_ne hdown hsame, ?_⟩
  show Exact.arithmetic.lowered c.current ≤ clamp (Exact.arithmetic.lowered c.current)
  have hzero : (2000000 : ℚ) ≤ c.current := by exact_mod_cast hmin
  have hfloor : Exact.arithmetic.lowered c.current ≤ c.current := by
    apply Int.floor_le_iff.mpr
    linarith
  unfold clamp
  omega

/-- A change comes from a decision that goes its way. -/
theorem change_cases {rate : Int} (h : Tracks c) (hchange : (c.observeExact bytes).2 = .change rate) :
    (c.verdict bytes = .raise ∧ c.current < rate ∧ (rate : ℚ) ≤ c.current * (1 + 25 / 100)) ∨
      (c.verdict bytes = .lower ∧ rate < c.current ∧
        ⌊(c.current : ℚ) * (1 - 12 / 100)⌋ ≤ rate) := by
  rw [observeExact_eq] at hchange
  cases hverdict : c.verdict bytes with
  | raise =>
    rw [hverdict] at hchange
    exact .inl ⟨rfl, change_raise h.min_le hchange h.le_max⟩
  | lower =>
    rw [hverdict] at hchange
    exact .inr ⟨rfl, change_lower h.min_le hchange h.le_max⟩
  | restart | wait =>
    rw [hverdict] at hchange
    cases hchange

theorem clamp_clamp (rate : Int) : clamp (clamp rate) = clamp rate := by
  unfold clamp minBitrate maxBitrate
  omega

theorem decided_fresh (h : (c.verdict bytes).decides = true) :
    (c.observeExact bytes).1 = .new c.fps (c.observeExact bytes).1.current := by
  rw [observeExact_eq]
  cases hverdict : c.verdict bytes with
  | raise | lower =>
    rw [carryOut, apply_eq]
    simp only [BitrateController.new, clamp_clamp]
  | restart | wait =>
    rw [hverdict] at h
    cases h

/-- A frame leaves the rate that it answers, or the one before. -/
theorem current_observe (c : BitrateController) (bytes : Nat) :
    (c.observeExact bytes).1.current = (c.observeExact bytes).2.rate?.getD c.current := by
  rw [observeExact_eq]
  cases c.verdict bytes with
  | raise | lower =>
    rw [carryOut, apply_eq]
    dsimp only
    split
    · next hsame => simpa [Decision.rate?] using hsame
    · rfl
  | restart | wait => rfl

theorem current_after (c : BitrateController) (frames : List Nat) :
    (c.after frames).current =
      ((c.answers frames).filterMap Decision.rate?).getLast?.getD c.current := by
  induction frames using List.reverseRecOn with
  | nil => rfl
  | append_singleton frames bytes ih =>
    rw [after_append, answers_append, List.filterMap_append, List.getLast?_append]
    show ((c.after frames).observeExact bytes).1.current = _
    rw [current_observe, ih]
    show _ = ((([((c.after frames).observeExact bytes).2].filterMap Decision.rate?).getLast?).or
      ((c.answers frames).filterMap Decision.rate?).getLast?).getD c.current
    cases ((c.after frames).observeExact bytes).2 with
    | hold => rfl
    | change rate => rfl

/-! ### All runs -/

/-- What counts towards a decision lies behind every mark before it. -/
theorem Marked.counted_ge (hm : Marked c frames j) {k number : Nat} (hk : k < j)
    (hdecides : (c.verdictAt frames k).any Verdict.decides = true)
    (hmem : number ∈ c.counted frames j) : k < number := by
  obtain ⟨hshort, hlong⟩ := hm.behind k hk hdecides
  unfold counted at hmem
  split at hmem
  · exact hshort.trans_le (Finset.mem_Ico.mp hmem).1
  · exact hlong.trans_le (Finset.mem_Ico.mp hmem).1
  · exact absurd hmem (Finset.notMem_empty _)

/-- Only a decision counts frames, and none behind it. -/
theorem counted_cases {number : Nat} (hmem : number ∈ c.counted frames i) :
    number ≤ i ∧ (c.verdictAt frames i).any Verdict.decides = true ∧ i < frames.length := by
  unfold counted at hmem
  split at hmem
  · next hverdict =>
    obtain ⟨hi, -⟩ := verdictAt_eq_some.mp hverdict
    rw [hverdict]
    exact ⟨Nat.lt_succ_iff.mp (Finset.mem_Ico.mp hmem).2, rfl, hi⟩
  · next hverdict =>
    obtain ⟨hi, -⟩ := verdictAt_eq_some.mp hverdict
    rw [hverdict]
    exact ⟨Nat.lt_succ_iff.mp (Finset.mem_Ico.mp hmem).2, rfl, hi⟩
  · exact absurd hmem (Finset.notMem_empty _)

end

/-- **The controller is lawful in every run**: its rate stays within bounds and is the
last it returned, it moves by one step at a time, decisions are a window apart, and no
frame counts towards two of them. -/
theorem bitrate_lawful (fps : Nat) (initial : Int) (frames : List Nat) :
    Lawful (.new fps initial) initial frames := by
  have htracks : Tracks ((BitrateController.new fps initial).after frames) :=
    tracks_of_reachable ⟨fps, initial, frames, rfl⟩
  refine {
    min_le := htracks.min_le
    le_max := htracks.le_max
    current := current_after _ frames
    change := fun bytes rate hchange => change_cases htracks hchange
    raise_apart := ?_
    lower_apart := ?_
    windows := fun i hi => ⟨(marked fps initial hi).short, (marked fps initial hi).long⟩
    once := ?_
    fresh := fun bytes hdecides => decided_fresh hdecides }
  · intro i j hij hdecides hraise
    obtain ⟨hj, -⟩ := verdictAt_eq_some.mp hraise
    have hm : Marked (.new fps initial) frames j := marked fps initial hj.le
    have hmark := (hm.behind i hij hdecides).1
    have hle := hm.raise_le hraise
    omega
  · intro i j hij hdecides hlower
    obtain ⟨hj, -⟩ := verdictAt_eq_some.mp hlower
    have hm : Marked (.new fps initial) frames j := marked fps initial hj.le
    have hmark := (hm.behind i hij hdecides).2
    have hle := hm.lower_le hlower
    omega
  · intro i j hij
    rw [Finset.disjoint_left]
    intro number hi hj
    obtain ⟨hle, hdecides, -⟩ := counted_cases hi
    obtain ⟨-, -, hlen⟩ := counted_cases hj
    have hlt := (marked fps initial hlen.le).counted_ge hij hdecides hj
    omega

/-- 240 empty frames lower a rate of 20000001 to 17600000, by more than 12 percent. -/
theorem lowering_rounds :
    ¬ ∀ fps initial frames bytes rate,
      (((BitrateController.new fps initial).after frames).observeExact bytes).2 = .change rate →
      (((BitrateController.new fps initial).after frames).current : ℚ) * (1 - 12 / 100) ≤ rate := by
  intro h
  have hchange : (((BitrateController.new 60 20000001).after
      (List.replicate 239 0)).observeExact 0).2 = .change 17600000 := by decide +kernel
  have hle := h 60 20000001 (List.replicate 239 0) 0 17600000 hchange
  revert hle
  decide +kernel

end WindowsBitrate

end RdEngine
