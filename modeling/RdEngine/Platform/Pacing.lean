/-
RdEngine/Platform/Pacing.lean

The pace of the Windows producer: which captured frames are encoded.

The frames of a capture come at any times.  The first picture that was forced sets a
grid of intervals, and from then on a frame is skipped as long as it lies before the
next time to encode.  That time is the point of the grid that follows the last picture,
whatever has been missed in between (`Paced`), until the next forced picture sets a new
grid.
-/
import RdEngine.Lib.Grid
import RdEngine.Platform.WindowsPublisher

namespace RdEngine

namespace WindowsPublisher

open Lts

/-! ### Runs of the producer -/

/-- What a call of the producer comes to. -/
inductive Turn where
  | requests
  | emits (pts : Int) (forced : Bool) (unit : QueuedUnit)
  | skips (pts : Int)
  /-- there is no frame -/
  | rests
  | fails (error : ProducerError)
deriving DecidableEq

/-- The calls of `request_keyframe` and of `next_unit`, with any answers; a call that
fails changes nothing. -/
inductive Turns (config : ProducerConfig) : Producer → Turn → Producer → Prop
  | requests {p : Producer} : Turns config p .requests p.requestKeyframe
  | emits {p p' : Producer} {sdk : Answers} {pts : Int} {unit : QueuedUnit}
      (htexture : sdk.texture = .ok (some pts))
      (hnext : p.nextUnit config sdk = .ok (p', some unit)) :
      Turns config p (.emits pts p.forceKeyframe unit) p'
  | skips {p p' : Producer} {sdk : Answers} {pts : Int}
      (htexture : sdk.texture = .ok (some pts))
      (hnext : p.nextUnit config sdk = .ok (p', none)) : Turns config p (.skips pts) p'
  | rests {p p' : Producer} {sdk : Answers} (htexture : sdk.texture = .ok none)
      (hnext : p.nextUnit config sdk = .ok (p', none)) : Turns config p .rests p'
  | fails {p : Producer} {sdk : Answers} {error : ProducerError}
      (hnext : p.nextUnit config sdk = .error error) : Turns config p (.fails error) p

/-- The time of the frame that was captured. -/
def Turn.captured : Turn → Option Int
  | .emits pts _ _ | .skips pts => some pts
  | _ => none

/-- The next time to encode cannot leave 64 bits. -/
def Timely (config : ProducerConfig) (turn : Turn) : Prop :=
  ∀ pts, turn.captured = some pts → pts < 2 ^ 63 - 1 - Producer.interval config

def Turn.forcedAt : Turn → Option Int
  | .emits pts true _ => some pts
  | _ => none

def Turn.emittedAt : Turn → Option Int
  | .emits pts _ _ => some pts
  | _ => none

def Turn.givesKey : Turn → Bool
  | .emits _ _ unit => unit.key
  | _ => false

/-- Where the grid in effect begins: at the last forced picture. -/
def anchor (turns : List Turn) : Option Int := (turns.filterMap Turn.forcedAt).getLast?

def lastEmitted (turns : List Turn) : Option Int := (turns.filterMap Turn.emittedAt).getLast?

/-! ### One call -/

section

variable {config : ProducerConfig} {p p' : Producer} {turn : Turn} {turns : List Turn} {pts : Int}

theorem interval_pos : 0 < Producer.interval config := by
  unfold Producer.interval
  omega

theorem saturate_of_fits {n : Int} (hlow : 0 ≤ n) (hhigh : n < 2 ^ 63) : saturate n = n := by
  unfold saturate
  omega

/-- A frame that is not too early moves the time to encode to the point after it. -/
theorem following_paced {next : Int} (hnext : p.nextEncodePtsUs = some next)
    (hforce : p.forceKeyframe = false) (hzero : 0 ≤ next) (hle : next ≤ pts)
    (hpts : pts < 2 ^ 63 - 1 - Producer.interval config) :
    p.following config pts = Grid.following next (Producer.interval config) pts := by
  have hpos := @interval_pos config
  have hcell := Grid.cell_nonneg hpos hle
  have hmul : Grid.cell next (Producer.interval config) pts * Producer.interval config ≤
      pts - next := Int.ediv_mul_le (pts - next) hpos.ne'
  have hself : Grid.cell next (Producer.interval config) pts ≤
      Grid.cell next (Producer.interval config) pts * Producer.interval config :=
    le_mul_of_one_le_right hcell hpos
  have hsucc : (Grid.cell next (Producer.interval config) pts + 1) * Producer.interval config =
      Grid.cell next (Producer.interval config) pts * Producer.interval config +
        Producer.interval config := by ring
  have helapsed : saturate (saturate (pts - next) / Producer.interval config + 1) =
      Grid.cell next (Producer.interval config) pts + 1 := by
    rw [saturate_of_fits (n := pts - next) (by omega) (by omega)]
    exact saturate_of_fits (n := Grid.cell next (Producer.interval config) pts + 1)
      (by omega) (by omega)
  unfold Producer.following
  rw [hnext, hforce]
  dsimp only
  rw [if_pos ⟨rfl, hle⟩, helapsed]
  have hmoved : saturate ((Grid.cell next (Producer.interval config) pts + 1) *
      Producer.interval config) =
      (Grid.cell next (Producer.interval config) pts + 1) * Producer.interval config :=
    saturate_of_fits (by omega) (by omega)
  rw [hmoved]
  exact saturate_of_fits (by omega) (by omega)

/-- A forced picture begins a grid. -/
theorem following_forced (hforce : p.forceKeyframe = true) (hzero : 0 ≤ pts)
    (hpts : pts < 2 ^ 63 - 1 - Producer.interval config) :
    p.following config pts = Grid.following pts (Producer.interval config) pts := by
  have hpos := @interval_pos config
  have hpoint : Grid.following pts (Producer.interval config) pts =
      pts + Producer.interval config := by
    unfold Grid.following
    rw [Grid.cell_anchor, zero_add, one_mul]
  have hfits : saturate (pts + Producer.interval config) = pts + Producer.interval config :=
    saturate_of_fits (by omega) (by omega)
  unfold Producer.following
  rw [hforce, hpoint]
  cases p.nextEncodePtsUs with
  | none => exact hfits
  | some next =>
    dsimp only
    rw [if_neg (by simp), hfits]

/-- What is known of the producer at any time of a run: at the start a key picture is
awaited, and afterwards the next time to encode follows the last picture on the grid. -/
structure OnGrid (config : ProducerConfig) (turns : List Turn) (p : Producer) : Prop where
  start : anchor turns = none → p.forceKeyframe = true ∧ lastEmitted turns = none
  running : ∀ first, anchor turns = some first → ∃ last, lastEmitted turns = some last ∧
    first ≤ last ∧ 0 ≤ first ∧
      p.nextEncodePtsUs = some (Grid.following first (Producer.interval config) last)

/-- What a call can do: give no picture and leave the time to encode alone, or give one
for a frame that is forced or not too early. -/
theorem turns_cases (h : Turns config p turn p') :
    (turn.emittedAt = none ∧ p'.nextEncodePtsUs = p.nextEncodePtsUs ∧
      (p.forceKeyframe = true → p'.forceKeyframe = true)) ∨
    ∃ pts unit, turn = .emits pts p.forceKeyframe unit ∧ 0 ≤ pts ∧
      (p.forceKeyframe = false → ∀ next, p.nextEncodePtsUs = some next → next ≤ pts) ∧
      (p.forceKeyframe = true → unit.key = true) ∧
      p' = { forceKeyframe := false, nextEncodePtsUs := some (p.following config pts) } := by
  have hquiet : ∀ {q : Producer} {sdk : Answers}, p.nextUnit config sdk = .ok (q, none) → q = p := by
    intro q sdk hnext
    obtain ⟨-, hsame, -⟩ | ⟨_, _, -, -, -, -, hsame, -⟩ | ⟨_, _, -, -, -, -, hunit, -⟩ :=
      Producer.nextUnit_cases hnext
    · exact hsame
    · exact hsame
    · cases hunit
  cases h with
  | requests => exact .inl ⟨rfl, rfl, fun _ => rfl⟩
  | fails => exact .inl ⟨rfl, rfl, id⟩
  | rests htexture hnext =>
    rw [hquiet hnext]
    exact .inl ⟨rfl, rfl, id⟩
  | skips htexture hnext =>
    rw [hquiet hnext]
    exact .inl ⟨rfl, rfl, id⟩
  | emits htexture hnext =>
    obtain ⟨-, -, hunit⟩ | ⟨_, _, -, -, -, -, -, hunit⟩ |
      ⟨pts, u, hsome, hzero, hlate, hkey, hunit, hafter⟩ := Producer.nextUnit_cases hnext
    · cases hunit
    · cases hunit
    cases htexture.symm.trans hsome
    cases hunit
    exact .inr ⟨_, _, rfl, hzero, hlate, hkey, hafter⟩

/-- A frame is skipped only if no key picture is awaited and it comes too early. -/
theorem turns_skips (h : Turns config p (.skips pts) p') :
    p.forceKeyframe = false ∧ ∃ next, p.nextEncodePtsUs = some next ∧ pts < next := by
  cases h with
  | skips htexture hnext =>
    obtain ⟨hnone, -, -⟩ | ⟨_, next, hsome, hforce, hnext, hlt, -, -⟩ |
      ⟨_, _, -, -, -, -, hunit, -⟩ := Producer.nextUnit_cases hnext
    · cases htexture.symm.trans hnone
    · cases htexture.symm.trans hsome
      exact ⟨hforce, next, hnext, hlt⟩
    · cases hunit

/-- A turn that emits nothing leaves the grid where it is. -/
theorem history_snoc_quiet (h : turn.emittedAt = none) :
    anchor (turns ++ [turn]) = anchor turns ∧
      lastEmitted (turns ++ [turn]) = lastEmitted turns := by
  have hforced : turn.forcedAt = none := by
    cases turn with
    | emits pts forced unit => cases h
    | _ => rfl
  unfold anchor lastEmitted
  rw [filterMap_snoc, filterMap_snoc, h, hforced, Option.toList_none, List.append_nil,
    List.append_nil]
  exact ⟨rfl, rfl⟩

theorem history_snoc_emits {forced : Bool} {unit : QueuedUnit} :
    anchor (turns ++ [.emits pts forced unit]) = (if forced then some pts else anchor turns) ∧
      lastEmitted (turns ++ [.emits pts forced unit]) = some pts := by
  unfold anchor lastEmitted
  rw [filterMap_snoc, filterMap_snoc]
  cases forced <;> simp [Turn.forcedAt, Turn.emittedAt]

theorem OnGrid.step (h : OnGrid config turns p) (hturn : Turns config p turn p')
    (htimely : Timely config turn) : OnGrid config (turns ++ [turn]) p' := by
  have hpos := @interval_pos config
  rcases turns_cases hturn with ⟨hquiet, hnext, hforce⟩ |
    ⟨pts, unit, rfl, hzero, hlate, -, rfl⟩
  · obtain ⟨hanchor, hlast⟩ := @history_snoc_quiet turn turns hquiet
    refine ⟨?_, ?_⟩
    · rw [hanchor, hlast]
      exact fun hnone => ⟨hforce (h.start hnone).1, (h.start hnone).2⟩
    · rw [hanchor, hlast, hnext]
      exact h.running
  · have hpts := htimely pts rfl
    obtain ⟨hanchor, hlast⟩ := @history_snoc_emits turns pts p.forceKeyframe unit
    cases hforce : p.forceKeyframe with
    | true =>
      rw [hforce] at hanchor hlast
      refine ⟨fun hnone => by simp [hanchor] at hnone, fun first hfirst => ?_⟩
      rw [hanchor, if_pos rfl] at hfirst
      cases hfirst
      exact ⟨pts, hlast, le_rfl, hzero, congrArg some (following_forced hforce hzero hpts)⟩
    | false =>
      rw [hforce] at hanchor hlast
      rw [if_neg (by simp)] at hanchor
      refine ⟨fun hnone => ?_, fun first hfirst => ?_⟩
      · have hstart := (h.start (hanchor.symm.trans hnone)).1
        simp [hforce] at hstart
      · obtain ⟨last, -, hle, hfirst, hrunning⟩ := h.running first (hanchor.symm.trans hfirst)
        have hdue := hlate hforce _ hrunning
        have hafterLast := @Grid.lt_following first _ last hpos
        refine ⟨pts, hlast, by omega, hfirst, congrArg some ?_⟩
        rw [following_paced hrunning hforce (by omega) hdue hpts]
        exact Grid.following_rebase hpos _

/-- Between forced pictures the time to encode moves forward only. -/
theorem next_mono {bound : Int} (hzero : 0 ≤ bound)
    (h : ∃ next, p.nextEncodePtsUs = some next ∧ bound ≤ next)
    (hturn : Turns config p turn p') (hforced : turn.forcedAt = none)
    (htimely : Timely config turn) : ∃ next, p'.nextEncodePtsUs = some next ∧ bound ≤ next := by
  rcases turns_cases hturn with ⟨-, hsame, -⟩ | ⟨pts, unit, rfl, -, hlate, -, rfl⟩
  · rw [hsame]
    exact h
  · obtain ⟨next, hnext, hbound⟩ := h
    have hforce : p.forceKeyframe = false := by
      cases hforce : p.forceKeyframe with
      | true => simp [Turn.forcedAt, hforce] at hforced
      | false => rfl
    have hdue := hlate hforce next hnext
    have hlater := @Grid.lt_following next _ pts (@interval_pos config)
    refine ⟨_, congrArg some (following_paced hnext hforce (by omega) hdue (htimely pts rfl)), ?_⟩
    omega

/-- A key picture that was asked for is awaited until a key picture is there. -/
theorem pending_step (h : p.forceKeyframe = true) (hturn : Turns config p turn p')
    (hkey : turn.givesKey = false) : p'.forceKeyframe = true := by
  rcases turns_cases hturn with ⟨-, -, hforce⟩ | ⟨pts, unit, rfl, -, -, hforced, -⟩
  · exact hforce h
  · cases (hforced h).symm.trans hkey

/-! ### Runs -/

/-- The frames that are encoded in a run. -/
structure Paced (config : ProducerConfig) (turns : List Turn) (p : Producer) : Prop where
  /-- an unforced picture never shares its cell of the grid with a picture before it -/
  once : ∀ before pts forced unit between pts' unit' rest first,
    turns = before ++ .emits pts forced unit :: (between ++ .emits pts' false unit' :: rest) →
    (∀ turn ∈ between, turn.forcedAt = none) →
    anchor (before ++ [.emits pts forced unit]) = some first →
    Grid.cell first (Producer.interval config) pts < Grid.cell first (Producer.interval config) pts'
  /-- the next time to encode is later than the last picture -/
  later : ∀ last, lastEmitted turns = some last →
    ∃ next, p.nextEncodePtsUs = some next ∧ last < next
  /-- it lies on the grid of the last forced picture -/
  onGrid : ∀ first, anchor turns = some first →
    ∃ k : Int, 1 ≤ k ∧ p.nextEncodePtsUs = some (first + k * Producer.interval config)
  /-- a skipped frame was too early, and no key picture was awaited -/
  skipped : ∀ before pts rest, turns = before ++ .skips pts :: rest →
    ∃ q next, Run (Turns config) {} before q ∧ q.forceKeyframe = false ∧
      q.nextEncodePtsUs = some next ∧ pts < next
  /-- a request for a key picture is pending until a key picture is there -/
  pending : ∀ before rest, turns = before ++ .requests :: rest →
    (∀ turn ∈ rest, turn.givesKey = false) → p.forceKeyframe = true

theorem onGrid_run (hrun : Run (Turns config) {} turns p)
    (htimely : ∀ turn ∈ turns, Timely config turn) : OnGrid config turns p :=
  (hrun.restrict htimely).history (P := OnGrid config)
    (fun _ _ _ _ h hturn => h.step hturn.2 hturn.1)
    ⟨fun _ => ⟨rfl, rfl⟩, fun _ hnone => by cases hnone⟩

/-- After a picture the next unforced one lies in a later cell. -/
theorem once_run {before between rest : List Turn} {forced : Bool} {unit unit' : QueuedUnit}
    {pts' first : Int} (hrun : Run (Turns config) {} turns p)
    (htimely : ∀ turn ∈ turns, Timely config turn)
    (hturns : turns = before ++ .emits pts forced unit :: (between ++ .emits pts' false unit' :: rest))
    (hbetween : ∀ turn ∈ between, turn.forcedAt = none)
    (hfirst : anchor (before ++ [.emits pts forced unit]) = some first) :
    Grid.cell first (Producer.interval config) pts <
      Grid.cell first (Producer.interval config) pts' := by
  have hpos := @interval_pos config
  rw [List.append_cons before] at hturns
  subst hturns
  obtain ⟨hbefore, hafter⟩ := List.forall_mem_append.mp htimely
  obtain ⟨hbetween', hlast⟩ := List.forall_mem_append.mp hafter
  obtain ⟨q, hfirstRun, hrest⟩ := hrun.split
  obtain ⟨r, hbetweenRun, hlastRun⟩ := hrest.split
  obtain ⟨last, hemitted, hle, hzero, hnext⟩ := (onGrid_run hfirstRun hbefore).running first hfirst
  rw [history_snoc_emits.2] at hemitted
  cases hemitted
  have hfollows := @Grid.lt_following first _ pts hpos
  obtain ⟨next, hnext', hbound⟩ := hbetweenRun.keeps
    (I := fun q => ∃ next, q.nextEncodePtsUs = some next ∧
      Grid.following first (Producer.interval config) pts ≤ next)
    (C := fun turn => turn.forcedAt = none ∧ Timely config turn)
    (fun _ _ _ h hturn hstep => next_mono (by omega) h hstep hturn.1 hturn.2)
    (fun turn hmem => ⟨hbetween turn hmem, hbetween' turn hmem⟩) ⟨_, hnext, le_rfl⟩
  cases hlastRun with
  | cons hstep _ =>
    rcases turns_cases hstep with ⟨hquiet, -⟩ | ⟨_, _, heq, -, hlate, -⟩
    · cases hquiet
    · injection heq with hpts hforced _
      have hdue := hlate hforced.symm next hnext'
      exact Grid.cell_lt hpos (by omega)

/-- **Capture pacing.**  In every run of the producer, whatever its rate, whatever the
times of the frames, what the encoder answers and when key pictures are asked for: at
most one unforced picture is encoded in each cell of the grid, the next time to encode is
later than the last picture and stays on the grid of the last forced one, only frames
that are too early are skipped, and a request is pending until a key picture is there. -/
theorem capture_pacing (config : ProducerConfig) (turns : List Turn) (p : Producer)
    (hrun : Run (Turns config) {} turns p) (htimely : ∀ turn ∈ turns, Timely config turn) :
    Paced config turns p := by
  -- every due time is a point of the grid that the first frame sets
  have hgrid := onGrid_run hrun htimely
  have hpos := @interval_pos config
  exact {
    once := fun _ _ _ _ _ _ _ _ _ hturns hbetween hfirst =>
      once_run hrun htimely hturns hbetween hfirst
    later := by
      intro last hlast
      rcases hanchor : anchor turns with - | first
      · cases (hgrid.start hanchor).2.symm.trans hlast
      · obtain ⟨last', hlast', -, -, hnext⟩ := hgrid.running first hanchor
        cases hlast'.symm.trans hlast
        exact ⟨_, hnext, Grid.lt_following hpos⟩
    onGrid := by
      intro first hanchor
      obtain ⟨last, -, hle, -, hnext⟩ := hgrid.running first hanchor
      obtain ⟨k, hk, hpoint⟩ := @Grid.following_point first _ last hpos hle
      exact ⟨k, hk, hnext.trans (congrArg some hpoint)⟩
    skipped := by
      intro before pts rest hturns
      subst hturns
      obtain ⟨q, hbefore, hrest⟩ := hrun.split
      cases hrest with
      | cons hstep _ =>
        obtain ⟨hforce, next, hnext, hlt⟩ := turns_skips hstep
        exact ⟨q, next, hbefore, hforce, hnext, hlt⟩
    pending := by
      intro before rest hturns hkeys
      subst hturns
      obtain ⟨q, -, hrest⟩ := hrun.split
      cases hrest with
      | cons hstep hrest =>
        cases hstep
        exact hrest.keeps (I := fun q => q.forceKeyframe = true)
          (C := fun turn => turn.givesKey = false)
          (fun _ _ _ h hturn hstep => pending_step h hstep hturn) hkeys rfl }

end

/-- Sixty pictures a second. -/
def sixtyHertz : ProducerConfig := ⟨60, 1, by decide, Nat.one_pos⟩

/-- A frame at some time, and an encoder that makes a key picture of it. -/
def frameAt (pts : Int) : Answers where
  texture := .ok (some pts)
  textureValid := .ok ()
  encode _ := .ok ⟨[1], pts, true⟩
  unitValid _ := .ok ()

/-- The first picture, a frame that comes too early, and one after a gap. -/
theorem capture_pacing_gap : ∃ p,
    Paced sixtyHertz [.emits 0 true ⟨[1], 0, true⟩, .skips 100, .emits 70000 false ⟨[1], 70000, true⟩]
      p ∧ p.nextEncodePtsUs = some (5 * 16666) := by
  have hfirst : Turns sixtyHertz {} (.emits 0 true ⟨[1], 0, true⟩) ⟨false, some 16666⟩ :=
    @Turns.emits _ _ _ (frameAt 0) _ _ rfl rfl
  have hearly : Turns sixtyHertz ⟨false, some 16666⟩ (.skips 100) ⟨false, some 16666⟩ :=
    @Turns.skips _ _ _ (frameAt 100) _ rfl rfl
  have hlate : Turns sixtyHertz ⟨false, some 16666⟩ (.emits 70000 false ⟨[1], 70000, true⟩)
      ⟨false, some (5 * 16666)⟩ := @Turns.emits _ _ _ (frameAt 70000) _ _ rfl rfl
  refine ⟨_, capture_pacing sixtyHertz _ _
    (((Run.single hfirst).snoc hearly).snoc hlate) ?_, rfl⟩
  intro turn hmem pts hpts
  have hinterval : Producer.interval sixtyHertz = 16666 := rfl
  rw [hinterval]
  simp only [List.mem_cons, List.not_mem_nil, or_false] at hmem
  rcases hmem with rfl | rfl | rfl <;> cases hpts <;> decide

end WindowsPublisher

end RdEngine
