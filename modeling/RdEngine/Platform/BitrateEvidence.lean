/-
RdEngine/Platform/BitrateEvidence.lean

When the bitrate controller raises its rate, with its ratios taken as exact rationals.

The short window is there so that a busy scene raises the rate within 24 frames.  But it
does not slide: what it holds stays in it until the rate is decided on, and a quiet
history weighs against the busy frames after it.  So a run of 24 busy frames raises the
rate if and only if the window that began before it averages enough at its end, or where
the long window fills during the run and is slack, at that frame
(`busy_run_raises`).

The arithmetic of the controller is a parameter, of which the floats of the source and
the rationals are instances.
-/
import RdEngine.Platform.WindowsBitrate
import Mathlib.Data.Rat.Floor
import Mathlib.Algebra.Order.Field.Rat
import Mathlib.Tactic.Linarith
import Mathlib.Tactic.Positivity

namespace RdEngine

namespace WindowsBitrate

/-! ### The controller over any arithmetic -/

/-- What the controller computes of a window and of a rate. -/
structure Arithmetic where
  /-- the ratio of a window is at least `HIGH_WATER` -/
  busy : Window → Int → Nat → Bool
  /-- it is at most `LOW_WATER` -/
  slack : Window → Int → Nat → Bool
  raised : Int → Int
  lowered : Int → Int

/-- The arithmetic of the source. -/
def Arithmetic.float : Arithmetic where
  busy w current fps := w.ratio current fps ≥ WindowsBitrate.highWater
  slack w current fps := w.ratio current fps ≤ WindowsBitrate.lowWater
  raised current := asI64 (asF64 current * (1 + raiseStep))
  lowered current := asI64 (asF64 current * (1 - lowerStep))

namespace BitrateController

/-- `observe`, over an arithmetic. -/
def observeBy (a : Arithmetic) (c : BitrateController) (bytes : Nat) :
    BitrateController × Decision :=
  let c := { c with short := c.short.add bytes, long := c.long.add bytes }
  if c.short.frames ≥ raiseAfterFrames ∧ a.busy c.short c.current c.fps then
    { c with short := {}, long := {} }.apply (a.raised c.current)
  else if c.long.frames ≥ lowerAfterFrames then
    if a.slack c.long c.current c.fps then
      { c with short := {}, long := {} }.apply (a.lowered c.current)
    else ({ c with long := {} }, .hold)
  else (c, .hold)

/-- The controller of the source is the one over floats. -/
theorem observeBy_float (c : BitrateController) (bytes : Nat) :
    c.observeBy .float bytes = c.observe bytes := by
  simp only [observeBy, observe, Arithmetic.float, decide_eq_true_eq]
  rfl

end BitrateController

/-! ### Exact ratios -/

namespace Exact

/-- The shares of their budget above which the pictures ask for more, and below which for less.
-/
def highWater : ℚ := 85 / 100
def lowWater : ℚ := 55 / 100

/-- The bytes that a frame may spend. -/
def budget (current : Int) (fps : Nat) : ℚ := current / (max fps 1 : Nat) / 8

/-- The share of its budget that a picture of the window takes. -/
def ratio (w : Window) (current : Int) (fps : Nat) : ℚ :=
  if w.frames = 0 then 0
  else if budget current fps ≤ 0 then 0
  else w.bytes / w.frames / budget current fps

/-- The rates are positive, so that the cast of the source rounds down. -/
def arithmetic : Arithmetic where
  busy w current fps := ratio w current fps ≥ highWater
  slack w current fps := ratio w current fps ≤ lowWater
  raised current := ⌊(current : ℚ) * (1 + 25 / 100)⌋
  lowered current := ⌊(current : ℚ) * (1 - 12 / 100)⌋

end Exact

/-- A picture is observed, with exact quotients. -/
abbrev BitrateController.observeExact (c : BitrateController) (bytes : Nat) :
    BitrateController × Decision :=
  c.observeBy Exact.arithmetic bytes

/-- The controller after some frames. -/
def BitrateController.after (c : BitrateController) (frames : List Nat) : BitrateController :=
  frames.foldl (fun c bytes => (c.observeExact bytes).1) c

/-- A controller that has seen some pictures since it was made. -/
def Reachable (c : BitrateController) : Prop :=
  ∃ fps initial history, c = (BitrateController.new fps initial).after history

/-- The rate goes up at this frame. -/
def RaisesAt (c : BitrateController) (bytes : Nat) : Prop :=
  ∃ rate, (c.observeExact bytes).2 = .change rate ∧ c.current < rate

/-- The rate is raised somewhere in this run. -/
def Raises (c : BitrateController) (run : List Nat) : Prop :=
  ∃ before bytes rest, run = before ++ bytes :: rest ∧ RaisesAt (c.after before) bytes

/-- Every frame spends its share of the budget of the rate at that time; after a raise
within the run, that of the rate at its start will do. -/
def Busy (start : Int) : BitrateController → List Nat → Prop
  | _, [] => True
  | c, bytes :: run =>
    Exact.highWater * Exact.budget (min start c.current) c.fps ≤ bytes ∧
      Busy start (c.observeExact bytes).1 run

instance decidableBusy (start : Int) :
    (c : BitrateController) → (run : List Nat) → Decidable (Busy start c run)
  | _, [] => isTrue trivial
  | c, bytes :: run =>
    have := decidableBusy start (c.observeExact bytes).1 run
    inferInstanceAs (Decidable (_ ∧ _))

namespace BitrateController

/-- The frames after which the long window is full. -/
def fills (c : BitrateController) : Nat := lowerAfterFrames - c.long.frames

/-- The long window fills during the run, and is slack. -/
def Slackens (c : BitrateController) (run : List Nat) : Prop :=
  c.fills ≤ run.length ∧
    Exact.ratio ((run.take c.fills).foldl Window.add c.long) c.current c.fps ≤ Exact.lowWater

instance (c : BitrateController) (run : List Nat) : Decidable (c.Slackens run) :=
  inferInstanceAs (Decidable (_ ∧ _))

/-- The frames that count towards a raise. -/
def evidence (c : BitrateController) (run : List Nat) : List Nat :=
  if c.Slackens run then run.take c.fills else run

/-- What is asked of the short window for a raise. -/
def Enough (c : BitrateController) (w : Window) : Prop :=
  raiseAfterFrames ≤ w.frames ∧ Exact.highWater ≤ Exact.ratio w c.current c.fps

end BitrateController

/-! ### Windows -/

open BitrateController

/-- The window fits into the counters of the source. -/
def Window.Fits (w : Window) : Prop := w.frames < 2 ^ 32 ∧ 0 ≤ w.bytes ∧ w.bytes < 2 ^ 63

section

variable {c : BitrateController} {w : Window} {bytes : Nat} {run : List Nat} {current : Int}
  {fps : Nat}

theorem Window.Fits.add (h : w.Fits) (bytes : Nat) : (w.add bytes).Fits := by
  unfold Window.Fits Window.add at *
  dsimp only
  omega

theorem frames_add (h : w.Fits) (bytes : Nat) :
    w.frames ≤ (w.add bytes).frames ∧ (w.add bytes).frames ≤ w.frames + 1 := by
  unfold Window.Fits Window.add at *
  dsimp only
  omega

theorem budget_pos (hcurrent : 0 < current) : 0 < Exact.budget current fps := by
  have hfps : 0 < max fps 1 := by omega
  unfold Exact.budget
  positivity

/-- A window that is not empty is busy if its bytes are what its frames may spend. -/
theorem highWater_le_ratio (hcurrent : 0 < current) (hframes : 0 < w.frames) :
    Exact.highWater ≤ Exact.ratio w current fps ↔
      Exact.highWater * Exact.budget current fps * w.frames ≤ w.bytes := by
  have hbudget := @budget_pos current fps hcurrent
  have hpos : (0 : ℚ) < w.frames := by exact_mod_cast hframes
  unfold Exact.ratio
  rw [if_neg (by omega), if_neg (not_le.mpr hbudget), le_div_iff₀ hbudget, le_div_iff₀ hpos]

/-- The budget of a rate within bounds is far from overflowing. -/
theorem share_le (hmax : current ≤ maxBitrate) (hcurrent : 0 < current) :
    Exact.highWater * Exact.budget current fps ≤ 12750000 := by
  have hfps : (1 : ℚ) ≤ (max fps 1 : Nat) := by exact_mod_cast le_max_right fps 1
  have hrate : (current : ℚ) ≤ 120000000 := by exact_mod_cast hmax
  have hzero : (0 : ℚ) < current := by exact_mod_cast hcurrent
  have hdiv : (current : ℚ) / (max fps 1 : Nat) ≤ current := div_le_self hzero.le hfps
  unfold Exact.highWater Exact.budget
  linarith

/-- A busy frame leaves a busy window busy. -/
theorem Enough.add (hmin : minBitrate ≤ c.current) (hmax : c.current ≤ maxBitrate) (hfits : w.Fits)
    (hbytes : Exact.highWater * Exact.budget c.current c.fps ≤ bytes) (h : c.Enough w) :
    c.Enough (w.add bytes) := by
  have hpos : 0 < c.current := lt_of_lt_of_le (by decide) hmin
  obtain ⟨hframes, hratio⟩ := h
  obtain ⟨hmore, hstep⟩ := frames_add hfits bytes
  have hfew : (w.add bytes).frames < 2 ^ 32 := (hfits.add bytes).1
  have henough : 0 < w.frames := lt_of_lt_of_le (by decide) hframes
  refine ⟨hframes.trans hmore, ?_⟩
  rw [highWater_le_ratio hpos (by omega)]
  rw [highWater_le_ratio hpos henough] at hratio
  have hshare := @share_le c.current c.fps hmax hpos
  have hzero : 0 < Exact.highWater * Exact.budget c.current c.fps :=
    mul_pos (by norm_num [Exact.highWater]) (budget_pos hpos)
  set share := Exact.highWater * Exact.budget c.current c.fps
  have hsum : (w.add bytes).bytes = w.bytes + bytes ∨ (w.add bytes).bytes = 2 ^ 63 - 1 := by
    obtain ⟨-, hlow, hhigh⟩ := hfits
    unfold Window.add
    dsimp only
    omega
  rcases hsum with hsum | hsum
  · have hstep' : ((w.add bytes).frames : ℚ) ≤ w.frames + 1 := by exact_mod_cast hstep
    have hsum' : ((w.add bytes).bytes : ℚ) = w.bytes + bytes := by rw [hsum]; push_cast; rfl
    calc share * (w.add bytes).frames
        ≤ share * (w.frames + 1) := mul_le_mul_of_nonneg_left hstep' hzero.le
      _ = share * w.frames + share := by ring
      _ ≤ w.bytes + bytes := add_le_add hratio hbytes
      _ = (w.add bytes).bytes := hsum'.symm
  · have hfew' : ((w.add bytes).frames : ℚ) ≤ 2 ^ 32 := by exact_mod_cast hfew.le
    have hsum' : ((w.add bytes).bytes : ℚ) = 2 ^ 63 - 1 := by rw [hsum]; norm_num
    calc share * (w.add bytes).frames
        ≤ 12750000 * 2 ^ 32 := mul_le_mul hshare hfew' (by positivity) (by norm_num)
      _ ≤ 2 ^ 63 - 1 := by norm_num
      _ = (w.add bytes).bytes := hsum'.symm

/-! ### One frame -/

theorem apply_eq (c : BitrateController) (target : Int) :
    c.apply target =
      ({ c with current := clamp target },
        if clamp target = c.current then .hold else .change (clamp target)) := by
  unfold BitrateController.apply
  split
  · next h => rw [h]
  · rfl

theorem raised_gt (hmin : minBitrate ≤ current) (hmax : current < maxBitrate) :
    current < clamp (Exact.arithmetic.raised current) := by
  have hrate : (2000000 : ℚ) ≤ current := by exact_mod_cast hmin
  have hfloor : current + 1 ≤ Exact.arithmetic.raised current := by
    refine Int.le_floor.mpr ?_
    push_cast
    linarith
  unfold clamp minBitrate maxBitrate at *
  omega

theorem lowered_le (hmin : minBitrate ≤ current) (hmax : current ≤ maxBitrate) :
    clamp (Exact.arithmetic.lowered current) ≤ current := by
  have hrate : (2000000 : ℚ) ≤ current := by exact_mod_cast hmin
  have hfloor : Exact.arithmetic.lowered current ≤ current := by
    refine Int.floor_le_iff.mpr ?_
    linarith
  unfold clamp minBitrate maxBitrate at *
  omega

/-- What a frame can do: raise the rate, lower it, or leave it and restart the long window
or not. -/
theorem observeExact_cases (c : BitrateController) (bytes : Nat) :
    (c.Enough (c.short.add bytes) ∧
      c.observeExact bytes = BitrateController.apply { c with short := {}, long := {} }
        (Exact.arithmetic.raised c.current)) ∨
    ¬ c.Enough (c.short.add bytes) ∧
      ((lowerAfterFrames ≤ (c.long.add bytes).frames ∧
        Exact.ratio (c.long.add bytes) c.current c.fps ≤ Exact.lowWater ∧
        c.observeExact bytes = BitrateController.apply { c with short := {}, long := {} }
          (Exact.arithmetic.lowered c.current)) ∨
      (lowerAfterFrames ≤ (c.long.add bytes).frames ∧
        ¬ Exact.ratio (c.long.add bytes) c.current c.fps ≤ Exact.lowWater ∧
        c.observeExact bytes = ({ c with short := c.short.add bytes, long := {} }, .hold)) ∨
      ((c.long.add bytes).frames < lowerAfterFrames ∧
        c.observeExact bytes =
          ({ c with short := c.short.add bytes, long := c.long.add bytes }, .hold))) := by
  by_cases henough : c.Enough (c.short.add bytes)
  · refine .inl ⟨henough, ?_⟩
    rw [observeExact, observeBy]
    exact if_pos ⟨henough.1, decide_eq_true henough.2⟩
  · refine .inr ⟨henough, ?_⟩
    have hnot : ¬ ((c.short.add bytes).frames ≥ raiseAfterFrames ∧
        Exact.arithmetic.busy (c.short.add bytes) c.current c.fps = true) :=
      fun h => henough ⟨h.1, of_decide_eq_true h.2⟩
    rw [observeExact, observeBy]
    dsimp only
    rw [if_neg hnot]
    by_cases hlong : lowerAfterFrames ≤ (c.long.add bytes).frames
    · rw [if_pos hlong]
      by_cases hslack : Exact.ratio (c.long.add bytes) c.current c.fps ≤ Exact.lowWater
      · exact .inl ⟨hlong, hslack, if_pos (decide_eq_true hslack)⟩
      · exact .inr (.inl ⟨hlong, hslack, if_neg fun h => hslack (of_decide_eq_true h)⟩)
    · exact .inr (.inr ⟨by omega, if_neg hlong⟩)

/-! ### Runs -/

/-- What holds of every controller that is reached. -/
structure Tracks (c : BitrateController) : Prop where
  min_le : minBitrate ≤ c.current
  le_max : c.current ≤ maxBitrate
  short : c.short.Fits
  long : c.long.Fits
  long_lt : c.long.frames < lowerAfterFrames
  long_le : c.long.frames ≤ c.short.frames
  /-- a raise that is due has been made -/
  undecided : ¬ c.Enough c.short

theorem fits_empty : ({} : Window).Fits := by
  unfold Window.Fits
  decide

theorem empty_lt : ({} : Window).frames < lowerAfterFrames := by decide

theorem not_enough_empty (c : BitrateController) : ¬ c.Enough {} :=
  fun h => absurd h.1 (by decide)

theorem clamp_bounds (rate : Int) : minBitrate ≤ clamp rate ∧ clamp rate ≤ maxBitrate := by
  unfold clamp minBitrate maxBitrate
  omega

theorem tracks_decided (c : BitrateController) (target : Int) :
    Tracks (BitrateController.apply { c with short := {}, long := {} } target).1 := by
  rw [apply_eq]
  exact {
    min_le := (clamp_bounds target).1
    le_max := (clamp_bounds target).2
    short := fits_empty
    long := fits_empty
    long_lt := empty_lt
    long_le := le_rfl
    undecided := not_enough_empty _ }

theorem Tracks.observe (h : Tracks c) (bytes : Nat) : Tracks (c.observeExact bytes).1 := by
  rcases observeExact_cases c bytes with ⟨-, heq⟩ | ⟨hnot, ⟨-, -, heq⟩ | ⟨-, -, heq⟩ | ⟨hlong, heq⟩⟩
  · rw [heq]
    exact tracks_decided c _
  · rw [heq]
    exact tracks_decided c _
  · rw [heq]
    exact { h with
      short := h.short.add bytes
      long := fits_empty
      long_lt := empty_lt
      long_le := Nat.zero_le _
      undecided := hnot }
  · rw [heq]
    refine { h with
      short := h.short.add bytes
      long := h.long.add bytes
      long_lt := hlong
      long_le := ?_
      undecided := hnot }
    have hle := h.long_le
    show min (c.long.frames + 1) (2 ^ 32 - 1) ≤ min (c.short.frames + 1) (2 ^ 32 - 1)
    omega

theorem tracks_of_reachable (h : Reachable c) : Tracks c := by
  obtain ⟨fps, initial, history, rfl⟩ := h
  have hnew : Tracks (BitrateController.new fps initial) := {
    min_le := (clamp_bounds initial).1
    le_max := (clamp_bounds initial).2
    short := fits_empty
    long := fits_empty
    long_lt := empty_lt
    long_le := le_rfl
    undecided := not_enough_empty _ }
  exact Lts.foldl_invariant hnew (fun _ bytes h => h.observe bytes) history

/-- A raise is made only for enough evidence, and always for it below the maximum. -/
theorem raisesAt_iff (h : Tracks c) :
    RaisesAt c bytes ↔ c.current < maxBitrate ∧ c.Enough (c.short.add bytes) := by
  have hlowered := lowered_le h.min_le h.le_max
  constructor
  · rintro ⟨rate, hchange, hlt⟩
    rcases observeExact_cases c bytes with
      ⟨henough, heq⟩ | ⟨-, ⟨-, -, heq⟩ | ⟨-, -, heq⟩ | ⟨-, heq⟩⟩
    · refine ⟨?_, henough⟩
      rw [heq, apply_eq] at hchange
      dsimp only at hchange
      split_ifs at hchange
      cases hchange
      exact hlt.trans_le (clamp_bounds _).2
    · rw [heq, apply_eq] at hchange
      dsimp only at hchange
      split_ifs at hchange
      cases hchange
      exact absurd hlt (not_lt.mpr hlowered)
    · rw [heq] at hchange
      cases hchange
    · rw [heq] at hchange
      cases hchange
  · rintro ⟨hmax, henough⟩
    have hraised := raised_gt h.min_le hmax
    rcases observeExact_cases c bytes with ⟨-, heq⟩ | ⟨hnot, -⟩
    · refine ⟨_, ?_, hraised⟩
      rw [heq, apply_eq]
      exact if_neg hraised.ne'
    · exact absurd henough hnot

theorem raises_nil (c : BitrateController) : ¬ Raises c [] := by
  rintro ⟨before, bytes, rest, h, -⟩
  cases before <;> cases h

theorem raises_cons : Raises c (bytes :: run) ↔
    RaisesAt c bytes ∨ Raises (c.observeExact bytes).1 run := by
  constructor
  · rintro ⟨before, b, rest, heq, hraises⟩
    cases before with
    | nil =>
      cases heq
      exact .inl hraises
    | cons first before =>
      cases heq
      exact .inr ⟨before, b, rest, rfl, hraises⟩
  · rintro (hraises | ⟨before, b, rest, rfl, hraises⟩)
    · exact ⟨[], bytes, run, rfl, hraises⟩
    · exact ⟨bytes :: before, b, rest, rfl, hraises⟩

/-- A controller with fresh windows decides on nothing for a while. -/
theorem fresh_holds (h : Tracks c) (hshort : c.short.frames + run.length < raiseAfterFrames)
    {start : Int} (hbusy : Busy start c run) :
    ¬ Raises c run ∧
      ∀ bytes ∈ run, Exact.highWater * Exact.budget (min start c.current) c.fps ≤ bytes := by
  induction run generalizing c with
  | nil => exact ⟨raises_nil c, fun _ hmem => absurd hmem (List.not_mem_nil)⟩
  | cons bytes run ih =>
    rw [List.length_cons] at hshort
    have hshort' := (frames_add h.short bytes).2
    have hlong' := (frames_add h.long bytes).2
    have hle := h.long_le
    have hraise : raiseAfterFrames < lowerAfterFrames := by decide
    have hnot : ¬ c.Enough (c.short.add bytes) := fun henough => by
      have hframes := henough.1
      omega
    obtain ⟨hfirst, hrest⟩ := hbusy
    have hnext := h.observe bytes
    rcases observeExact_cases c bytes with
      ⟨henough, -⟩ | ⟨-, ⟨hlong, -⟩ | ⟨hlong, -⟩ | ⟨-, heq⟩⟩
    · exact absurd henough hnot
    · omega
    · omega
    · rw [heq] at hnext hrest
      obtain ⟨hquiet, hall⟩ := ih hnext (show (c.short.add bytes).frames + run.length <
        raiseAfterFrames by omega) hrest
      refine ⟨fun hraises => ?_, List.forall_mem_cons.mpr ⟨hfirst, hall⟩⟩
      rcases raises_cons.mp hraises with hat | hlater
      · exact hnot ((raisesAt_iff h).mp hat).2
      · rw [heq] at hlater
        exact hquiet hlater

/-- Busy frames leave enough evidence enough. -/
theorem Enough.foldl (hmin : minBitrate ≤ c.current) (hmax : c.current ≤ maxBitrate)
    (hfits : w.Fits) (h : c.Enough w)
    (hrun : ∀ bytes ∈ run, Exact.highWater * Exact.budget c.current c.fps ≤ (bytes : ℚ)) :
    c.Enough (run.foldl Window.add w) := by
  induction run generalizing w with
  | nil => exact h
  | cons bytes run ih =>
    rw [List.forall_mem_cons] at hrun
    exact ih (hfits.add bytes) (Enough.add hmin hmax hfits hrun.1 h) hrun.2

/-! ### The evidence of a run -/

theorem fills_pos (h : Tracks c) : 0 < c.fills := by
  have hlt := h.long_lt
  unfold fills
  omega

/-- While the long window is not full, a frame moves from the run into the windows. -/
theorem evidence_counts (h : Tracks c) (hlong : (c.long.add bytes).frames < lowerAfterFrames) :
    c.evidence (bytes :: run) = bytes ::
      BitrateController.evidence
        { c with short := c.short.add bytes, long := c.long.add bytes } run := by
  have hadd : (c.long.add bytes).frames = c.long.frames + 1 := by
    have hlt := h.long_lt
    show min (c.long.frames + 1) (2 ^ 32 - 1) = c.long.frames + 1
    unfold lowerAfterFrames at hlt
    omega
  have hfills : c.fills =
      BitrateController.fills { c with short := c.short.add bytes, long := c.long.add bytes } + 1 := by
    unfold fills
    dsimp only
    omega
  have hslackens : c.Slackens (bytes :: run) ↔ BitrateController.Slackens
      { c with short := c.short.add bytes, long := c.long.add bytes } run := by
    unfold Slackens
    rw [hfills, List.take_succ_cons, List.foldl_cons, List.length_cons, Nat.add_le_add_iff_right]
  unfold evidence
  by_cases hslack : c.Slackens (bytes :: run)
  · rw [if_pos hslack, if_pos (hslackens.mp hslack), hfills, List.take_succ_cons]
  · rw [if_neg hslack, if_neg fun h => hslack (hslackens.mpr h)]

/-- A frame that fills the long window ends the evidence if the window is slack. -/
theorem evidence_fills (h : Tracks c) (hlong : lowerAfterFrames ≤ (c.long.add bytes).frames)
    (hrun : run.length < lowerAfterFrames) :
    (Exact.ratio (c.long.add bytes) c.current c.fps ≤ Exact.lowWater →
      c.evidence (bytes :: run) = [bytes]) ∧
    (¬ Exact.ratio (c.long.add bytes) c.current c.fps ≤ Exact.lowWater →
      c.evidence (bytes :: run) = bytes ::
        BitrateController.evidence { c with short := c.short.add bytes, long := {} } run) := by
  have hfills : c.fills = 1 := by
    have hlt := h.long_lt
    have hadd := (frames_add h.long bytes).2
    unfold fills
    omega
  have hslackens : c.Slackens (bytes :: run) ↔
      Exact.ratio (c.long.add bytes) c.current c.fps ≤ Exact.lowWater := by
    unfold Slackens
    rw [hfills, List.take_succ_cons, List.take_zero, List.foldl_cons, List.foldl_nil]
    exact and_iff_right (by simp)
  unfold evidence
  refine ⟨fun hslack => ?_, fun hslack => ?_⟩
  · rw [if_pos (hslackens.mpr hslack), hfills, List.take_succ_cons, List.take_zero]
  · rw [if_neg fun h => hslack (hslackens.mp h), if_neg]
    rintro ⟨hlen, -⟩
    have hlater : BitrateController.fills { c with short := c.short.add bytes, long := {} } =
        lowerAfterFrames := rfl
    omega

/-- The first frame counts, and then frames of the run. -/
theorem evidence_cons (h : Tracks c) :
    ∃ tail, c.evidence (bytes :: run) = bytes :: tail ∧ ∀ b ∈ tail, b ∈ run := by
  obtain ⟨n, hn⟩ := Nat.exists_eq_succ_of_ne_zero (fills_pos h).ne'
  unfold evidence
  split
  · rw [hn, List.take_succ_cons]
    exact ⟨_, rfl, fun _ => List.mem_of_mem_take⟩
  · exact ⟨run, rfl, fun _ hmem => hmem⟩

theorem frames_foldl (hfits : w.Fits) (frames : List Nat) :
    min (w.frames + frames.length) (2 ^ 32 - 1) = (frames.foldl Window.add w).frames := by
  induction frames generalizing w with
  | nil =>
    have hlt := hfits.1
    show min (w.frames + 0) (2 ^ 32 - 1) = w.frames
    omega
  | cons bytes frames ih =>
    rw [List.foldl_cons, ← ih (hfits.add bytes), List.length_cons]
    show _ = min (min (w.frames + 1) (2 ^ 32 - 1) + frames.length) (2 ^ 32 - 1)
    omega

/-- Of a run of 24 frames there are always enough. -/
theorem evidence_frames (h : Tracks c) (hlen : run.length = raiseAfterFrames) :
    raiseAfterFrames ≤ ((c.evidence run).foldl Window.add c.short).frames := by
  rw [← frames_foldl h.short]
  have hle := h.long_le
  have hlt := h.long_lt
  unfold evidence
  split
  · next hslackens =>
    have hfills : (run.take c.fills).length = c.fills := by
      rw [List.length_take]
      exact min_eq_left hslackens.1
    rw [hfills]
    unfold fills raiseAfterFrames lowerAfterFrames at *
    omega
  · rw [hlen]
    unfold raiseAfterFrames
    omega

/-- The rate goes up during a busy run if and only if its evidence is enough. -/
theorem raises_iff (h : Tracks c) (hmax : c.current < maxBitrate)
    (hlen : run.length ≤ raiseAfterFrames) (hbusy : Busy c.current c run) :
    Raises c run ↔ c.Enough ((c.evidence run).foldl Window.add c.short) := by
  induction run generalizing c with
  | nil =>
    have hempty : c.evidence [] = [] := by
      unfold evidence
      split <;> simp
    rw [hempty]
    exact iff_of_false (raises_nil c) h.undecided
  | cons bytes run ih =>
    rw [List.length_cons] at hlen
    have hrunShort : run.length < raiseAfterFrames := by omega
    have hrunLong : run.length < lowerAfterFrames :=
      hrunShort.trans (by decide)
    obtain ⟨hfirst, hrest⟩ := hbusy
    rw [min_self] at hfirst
    have hnext := h.observe bytes
    rw [raises_cons, raisesAt_iff h]
    rcases observeExact_cases c bytes with
      ⟨henough, heq⟩ | ⟨hnot, ⟨hlong, hslack, heq⟩ | ⟨hlong, hslack, heq⟩ | ⟨hlong, heq⟩⟩
    · -- the rate goes up at once, and what follows only adds to the evidence
      rw [heq, apply_eq] at hnext hrest
      have hraised := raised_gt h.min_le hmax
      obtain ⟨-, hall⟩ := fresh_holds hnext (show 0 + run.length < raiseAfterFrames by omega) hrest
      rw [min_eq_left (show c.current ≤ clamp _ from hraised.le)] at hall
      obtain ⟨tail, htail, hmem⟩ := @evidence_cons c bytes run h
      rw [htail, List.foldl_cons]
      exact iff_of_true (.inl ⟨hmax, henough⟩)
        (Enough.foldl h.min_le h.le_max (h.short.add bytes) henough fun b hb => hall b (hmem b hb))
    · -- it goes down, and too few frames are left
      rw [heq, apply_eq] at hnext hrest
      obtain ⟨hquiet, -⟩ := fresh_holds hnext (show 0 + run.length < raiseAfterFrames by omega) hrest
      rw [(evidence_fills h hlong hrunLong).1 hslack, heq, apply_eq]
      exact iff_of_false (fun hraises => hraises.elim (fun hat => hnot hat.2) hquiet) hnot
    -- the long window starts again
    · rw [heq] at hnext hrest
      rw [(evidence_fills h hlong hrunLong).2 hslack, heq, List.foldl_cons]
      exact (or_iff_right fun hat => hnot hat.2).trans (ih hnext hmax hrunShort.le hrest)
    -- both windows grow
    · rw [heq] at hnext hrest
      rw [evidence_counts h hlong, heq, List.foldl_cons]
      exact (or_iff_right fun hat => hnot hat.2).trans (ih hnext hmax hrunShort.le hrest)

/-- **A raise in 24 busy frames.**  From any state that is reached below the maximal
rate, a run of 24 busy frames raises the rate if and only if the short window is busy at
its end, or at the frame at which the long window fills and is slack. -/
theorem busy_run_raises (hreachable : Reachable c) (hmax : c.current < maxBitrate)
    (hlen : run.length = raiseAfterFrames) (hbusy : Busy c.current c run) :
    Raises c run ↔
      Exact.highWater ≤
        Exact.ratio ((c.evidence run).foldl Window.add c.short) c.current c.fps := by
  have h := tracks_of_reachable hreachable
  rw [raises_iff h hmax hlen.le hbusy]
  exact and_iff_right (evidence_frames h hlen)

end

/-- 24 frames that spend 85 percent of twenty megabits at sixty pictures a second. -/
def busyRun : List Nat := List.replicate 24 35417

/-- A fresh controller raises its rate. -/
theorem busy_run_raises_fresh : Raises (.new 60 20000000) busyRun :=
  (busy_run_raises ⟨60, 20000000, [], rfl⟩ (by decide) rfl (by decide +kernel)).mpr
    (by decide +kernel)

/-- One that has seen a still desktop for less than half a second does not. -/
theorem busy_run_after_quiet :
    ¬ ∀ c run, Reachable c → c.current < maxBitrate → run.length = raiseAfterFrames →
      Busy c.current c run → Raises c run := by
  intro h
  have hreachable : Reachable ⟨60, 20000000, ⟨24, 0⟩, ⟨24, 0⟩⟩ :=
    ⟨60, 20000000, List.replicate 24 0, by decide +kernel⟩
  have hbusy : Busy 20000000 ⟨60, 20000000, ⟨24, 0⟩, ⟨24, 0⟩⟩ busyRun := by decide +kernel
  have hraises := h _ busyRun hreachable (by decide) rfl hbusy
  have henough := ((raises_iff (tracks_of_reachable hreachable) (by decide) le_rfl hbusy).mp
    hraises).2
  revert henough
  decide +kernel

end WindowsBitrate

end RdEngine
