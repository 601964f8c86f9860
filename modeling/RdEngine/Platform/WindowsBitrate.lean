/-
RdEngine/Platform/WindowsBitrate.lean

The adaptive bitrate of the Windows publisher: the controller
(`platform/windows_bitrate.rs`), the encoder's own rate, and the worker that passes
the decisions of the one on to the other.

The controller takes a rate over when it decides on it, and the encoder when it
accepts it.  They agree in a run that starts within the controller's bounds and whose
changes are all accepted, and part with the first that is not (`bitrate_agrees`).
-/
import RdEngine.Platform.WindowsOpen

namespace RdEngine

namespace WindowsBitrate

open WindowsPublisher (ProducerError)
open WindowsHost (NvStatus NonZeroU32 nonZeroU32 validateConfig)
open Lts

/-! ### The controller -/

/-- The bounds of the rate, the shares of their budget between which pictures keep it, and how
long and how far it is moved. -/
def minBitrate : Int := 2000000
def maxBitrate : Int := 120000000
def highWater : Float := 0.85
def lowWater : Float := 0.55
def raiseAfterFrames : Nat := 24
def lowerAfterFrames : Nat := 240
def raiseStep : Float := 0.25
def lowerStep : Float := 0.12

def clamp (rate : Int) : Int := max minBitrate (min rate maxBitrate)

/-- `as f64`, of an `i64`. -/
def asF64 (n : Int) : Float :=
  if n < 0 then -(UInt64.ofNat n.natAbs).toFloat else (UInt64.ofNat n.natAbs).toFloat

/-- `as i64`, of an `f64`: rounded towards zero, and within the bounds of the type. -/
def asI64 (x : Float) : Int :=
  if x < 0 then max (-((-x).toUInt64.toNat : Int)) (-2 ^ 63) else min x.toUInt64.toNat (2 ^ 63 - 1)

/-- What the controller makes of a frame: its rate stays, or it moves to another. -/
inductive Decision where
  | hold
  | change (rate : Int)
deriving Repr, DecidableEq

/-- The pictures of a while: how many, and how large together. -/
structure Window where
  frames : Nat := 0
  bytes : Int := 0
deriving Repr, DecidableEq

namespace Window

/-- Both sums saturate. -/
def add (w : Window) (bytes : Nat) : Window where
  frames := min (w.frames + 1) (2 ^ 32 - 1)
  bytes := min (w.bytes + min bytes (2 ^ 63 - 1)) (2 ^ 63 - 1)

/-- The share of its budget that a picture of the window takes. -/
def ratio (w : Window) (current : Int) (fps : Nat) : Float :=
  if w.frames = 0 then 0
  else
    let budget := asF64 current / (UInt32.ofNat (max fps 1)).toFloat / 8
    if budget ≤ 0 then 0
    else asF64 w.bytes / (UInt32.ofNat w.frames).toFloat / budget

end Window

/-- `BitrateController`: the rate, and what was seen under it. -/
structure BitrateController where
  fps : Nat
  current : Int
  short : Window := {}
  long : Window := {}
deriving Repr, DecidableEq

namespace BitrateController

def new (fps : Nat) (initial : Int) : BitrateController := { fps, current := clamp initial }

/-- A decision is taken over before anybody has heard of it. -/
def apply (c : BitrateController) (target : Int) : BitrateController × Decision :=
  if clamp target = c.current then (c, .hold)
  else ({ c with current := clamp target }, .change (clamp target))

/-- The current rate, times a factor. -/
def scaled (c : BitrateController) (factor : Float) : Int := asI64 (asF64 c.current * factor)

/-- `observe`: one more picture, and what follows for the rate. -/
def observe (c : BitrateController) (bytes : Nat) : BitrateController × Decision :=
  let c := { c with short := c.short.add bytes, long := c.long.add bytes }
  let shortRatio := c.short.ratio c.current c.fps
  let longRatio := c.long.ratio c.current c.fps
  if c.short.frames ≥ raiseAfterFrames ∧ shortRatio ≥ highWater then
    { c with short := {}, long := {} }.apply (c.scaled (1 + raiseStep))
  else if c.long.frames ≥ lowerAfterFrames then
    if longRatio ≤ lowWater then
      { c with short := {}, long := {} }.apply (c.scaled (1 - lowerStep))
    else ({ c with long := {} }, .hold)
  else (c, .hold)

end BitrateController

/-! ### The encoder -/

/-- What a running encoder meets when its rate is to change. -/
structure Answer where
  /-- an output or a frame is still held -/
  held : Bool := false
  /-- `rd_nvenc_set_bitrate` -/
  status : NvStatus := .ok
deriving Repr, DecidableEq

/-- `set_bitrate`, of an encoder that runs at some rate; the driver takes the new one
over when it accepts it. -/
def setBitrate (rate : Int) (bitrate : Int) (answer : Answer) : Int × Except ProducerError Unit :=
  if bitrate = 0 then (rate, .error .invalidConfig)
  else if answer.held then (rate, .error .reclamationUnconfirmed)
  else if answer.status ≠ .ok then (rate, .error .encoderFailed)
  else (bitrate, .ok ())

/-! ### The worker -/

/-- The publisher with its controller, and the rate its encoder runs at. -/
structure State where
  publisher : WindowsPublisher.Publisher
  controller : BitrateController
  encoderRate : Int

/-- What the queue and the producer read of the configuration. -/
def publisherConfig (config : WindowsHost.PublisherConfig) (hfps : 0 < config.fps) :
    WindowsPublisher.PublisherConfig where
  maxQueuedUnits := config.maxQueuedUnits
  maxQueuedBytes := config.maxQueuedBytes
  producer := ⟨config.fps, 1, hfps, Nat.one_pos⟩

/-- The rate an encoder is created with. -/
def createdRate (config : WindowsHost.PublisherConfig) : Int :=
  match nonZeroU32 config.bitrate with
  | some bitrate => bitrate.val
  | none => 0

/-- The worker has opened its producer. -/
def start (config : WindowsHost.PublisherConfig) : State where
  publisher := .opened
  controller := .new config.fps config.bitrate
  encoderRate := createdRate config

/-- A decision of the controller; a rate that is refused is not tried again. -/
def adapt (config : WindowsHost.PublisherConfig) (s : State) (bytes : Nat) (answer : Answer) :
    State :=
  if config.autoBitrate then
    match s.controller.observe bytes with
    | (controller, .hold) => { s with controller }
    | (controller, .change target) =>
      { s with controller, encoderRate := (setBitrate s.encoderRate target answer).1 }
  else s

/-- A step of the publisher, with what the encoder answers if it is a unit that the
worker has queued. -/
structure Label where
  label : WindowsPublisher.Label
  answer : Answer

/-- What a step of the worker does to the rate. -/
def after (config : WindowsHost.PublisherConfig) (s : State) (l : Label)
    (publisher : WindowsPublisher.Publisher) : State :=
  match l.label with
  | .queues unit => adapt config { s with publisher } unit.size l.answer
  | _ => { s with publisher }

/-- A step of the publisher, and what the worker makes of it. -/
def Step (config : WindowsHost.PublisherConfig) (hfps : 0 < config.fps) (s : State) (l : Label)
    (s' : State) : Prop :=
  ∃ publisher,
    WindowsPublisher.Step (publisherConfig config hfps) s.publisher l.label publisher ∧
      s' = after config s l publisher

/-! ### Agreement -/

/-- The rate by which the spending is judged is that of the encoder. -/
def Agree (s : State) : Prop := s.controller.current = s.encoderRate

/-- The encoder accepts the change, if it is asked for one. -/
def Accepts (config : WindowsHost.PublisherConfig) (s : State) (l : Label) : Prop :=
  ∀ unit target, l.label = .queues unit → config.autoBitrate = true →
    (s.controller.observe unit.size).2 = .change target →
    (setBitrate s.encoderRate target l.answer).2 = .ok ()

section

variable {config : WindowsHost.PublisherConfig} {hfps : 0 < config.fps} {s s' : State} {l : Label}

theorem apply_cases (c : BitrateController) (target : Int) :
    c.apply target = (c, .hold) ∨
      ∃ rate, rate ≠ c.current ∧ c.apply target = ({ c with current := rate }, .change rate) := by
  unfold BitrateController.apply
  split
  · exact .inl rfl
  · next h => exact .inr ⟨clamp target, h, rfl⟩

/-- The controller holds its rate, or moves to the one it asks for. -/
theorem observe_cases (c : BitrateController) (bytes : Nat) :
    (∃ c', c.observe bytes = (c', .hold) ∧ c'.current = c.current) ∨
      ∃ c' rate, rate ≠ c.current ∧ c.observe bytes = (c', .change rate) ∧ c'.current = rate := by
  have happly : ∀ (c' : BitrateController) (target : Int), c'.current = c.current →
      (∃ c'', c'.apply target = (c'', .hold) ∧ c''.current = c.current) ∨
        ∃ c'' rate, rate ≠ c.current ∧ c'.apply target = (c'', .change rate) ∧
          c''.current = rate := by
    intro c' target hsame
    rcases apply_cases c' target with hhold | ⟨rate, hne, hchange⟩
    · exact .inl ⟨c', hhold, hsame⟩
    · exact .inr ⟨_, rate, hsame ▸ hne, hchange, rfl⟩
  unfold BitrateController.observe
  dsimp only
  split
  · exact happly _ _ rfl
  split
  · split
    · exact happly _ _ rfl
    · exact .inl ⟨_, rfl, rfl⟩
  · exact .inl ⟨_, rfl, rfl⟩

/-- The rate of an encoder that refuses does not change. -/
theorem setBitrate_cases (rate bitrate : Int) (answer : Answer) :
    setBitrate rate bitrate answer = (bitrate, .ok ()) ∨
      (setBitrate rate bitrate answer).1 = rate ∧
        (setBitrate rate bitrate answer).2 ≠ .ok () := by
  unfold setBitrate
  split
  · exact .inr ⟨rfl, fun h => (by cases h)⟩
  split
  · exact .inr ⟨rfl, fun h => (by cases h)⟩
  split
  · exact .inr ⟨rfl, fun h => (by cases h)⟩
  · exact .inl rfl

/-- **A step keeps the agreement if and only if its change is accepted.** -/
theorem agree_step (h : Agree s) (hstep : Step config hfps s l s') :
    Agree s' ↔ Accepts config s l := by
  obtain ⟨publisher, -, rfl⟩ := hstep
  unfold after
  split
  · next unit hlabel =>
    unfold adapt
    split
    · next hauto =>
      rcases observe_cases s.controller unit.size with ⟨c, hhold, hsame⟩ | ⟨c, rate, hne, hchange, hcurrent⟩
      · rw [hhold]
        refine ⟨fun _ unit' target hunit _ htarget => ?_, fun _ => hsame.trans h⟩
        have hsameUnit := hlabel.symm.trans hunit
        cases hsameUnit
        rw [hhold] at htarget
        cases htarget
      · rw [hchange]
        show c.current = (setBitrate s.encoderRate rate l.answer).1 ↔ _
        rcases setBitrate_cases s.encoderRate rate l.answer with hok | ⟨hrate, hrefused⟩
        · refine ⟨fun _ unit' target hunit _ htarget => ?_, fun _ => ?_⟩
          · have hsameUnit := hlabel.symm.trans hunit
            cases hsameUnit
            rw [hchange] at htarget
            cases htarget
            rw [hok]
          · rw [hok]
            exact hcurrent
        · refine ⟨fun hagree => ?_, fun haccepts => ?_⟩
          · rw [hrate, hcurrent] at hagree
            exact absurd (hagree.trans h.symm) hne
          · exact absurd (haccepts unit rate hlabel hauto (by rw [hchange])) hrefused
    · next hauto =>
      exact ⟨fun _ _ _ _ hon => absurd hon hauto, fun _ => h⟩
  · next hlabel =>
    exact ⟨fun _ unit _ hunit => absurd hunit (hlabel unit), fun _ => h⟩

/-- **At the start they agree if and only if the rate is within the controller's bounds.** -/
theorem agree_start (hvalid : validateConfig config = .ok ()) :
    Agree (start config) ↔ minBitrate ≤ config.bitrate ∧ config.bitrate ≤ maxBitrate := by
  have hbounds : 0 < config.bitrate ∧ config.bitrate ≤ 200000000 := by
    unfold validateConfig at hvalid
    split at hvalid
    · cases hvalid
    · omega
  have hrate : createdRate config = config.bitrate := by
    have hmod : config.bitrate % 2 ^ 32 = config.bitrate := Int.emod_eq_of_lt (by omega) (by omega)
    unfold createdRate nonZeroU32
    rw [hmod]
    dsimp only
    rw [dif_pos ⟨by omega, by omega⟩]
    exact Int.toNat_of_nonneg (by omega)
  show clamp config.bitrate = createdRate config ↔ _
  rw [hrate]
  unfold clamp minBitrate maxBitrate
  omega

/-- **The controller judges by the encoder's rate** in every run that starts within its
bounds and whose changes are all accepted.  With another start they disagree at once,
and at the first change that is refused they part. -/
theorem bitrate_agrees (hvalid : validateConfig config = .ok ()) :
    (∀ ls s, minBitrate ≤ config.bitrate → config.bitrate ≤ maxBitrate →
        Run (Where (Step config hfps) (Accepts config)) (start config) ls s → Agree s) ∧
      (Agree (start config) ↔ minBitrate ≤ config.bitrate ∧ config.bitrate ≤ maxBitrate) ∧
      ∀ s l s', Step config hfps s l s' → Agree s → (Agree s' ↔ Accepts config s l) := by
  refine ⟨fun ls s hmin hmax hrun => ?_, agree_start hvalid, fun s l s' hstep h => agree_step h hstep⟩
  exact hrun.invariant (I := Agree) (fun _ _ _ h hstep => (agree_step h hstep.2).mpr hstep.1)
    ((agree_start hvalid).mpr ⟨hmin, hmax⟩)

end

/-! ### Runs -/

/-- A publisher whose rate the controller adapts. -/
def adaptiveConfig (bitrate : Int) : WindowsHost.PublisherConfig where
  codec := .h264
  width := 2
  height := 2
  fps := 60
  bitrate := bitrate
  autoBitrate := true
  maxQueuedUnits := 2
  maxQueuedBytes := 1024
  backend := .auto
  outputIndex := 0

/-- 24 units of 900 bytes are more than the least rate has for as many frames. -/
def busyConfig : WindowsHost.PublisherConfig :=
  { adaptiveConfig 2000000 with fps := 240, maxQueuedUnits := 64, maxQueuedBytes := 65536 }

/-- A picture that takes most of its budget. -/
def busyUnit : WindowsPublisher.QueuedUnit := ⟨List.replicate 900 1, 0, true⟩

theorem size_busyUnit : busyUnit.data.length = 900 := List.length_replicate

/-- A capture and an encoder that give this unit. -/
def busyAnswers : WindowsPublisher.Answers where
  texture := .ok (some 0)
  textureValid := .ok ()
  encode _ := .ok busyUnit
  unitValid _ := .ok ()

/-- A key picture is requested, encoded and queued, and a change of the rate is accepted. -/
def busyRound : List Label :=
  [⟨.requestKeyframe (.ok ()), {}⟩, ⟨.reads (some true), {}⟩, ⟨.produces busyUnit, {}⟩,
    ⟨.queues busyUnit, {}⟩]

/-- The controller after so many of these units. -/
def observed : Nat → BitrateController
  | 0 => .new busyConfig.fps busyConfig.bitrate
  | n + 1 => ((observed n).observe 900).1

/-- The worker in its loop, with so many of these units queued. -/
def queued (queue : List WindowsPublisher.QueuedUnit) (n : Nat) (keyframe : Bool)
    (worker : WindowsPublisher.Worker) (producer : WindowsPublisher.Producer) (rate : Int) : State :=
  ⟨⟨{ queue, chargedUnits := n, queuedBytes := 900 * n, keyframeRequested := keyframe },
    worker, producer, []⟩, observed n, rate⟩

/-- The controller asks for no rate below its bounds. -/
theorem change_bounds {c : BitrateController} {bytes : Nat} {rate : Int}
    (h : (c.observe bytes).2 = .change rate) : minBitrate ≤ rate := by
  have happly : ∀ (c' : BitrateController) (target : Int),
      (c'.apply target).2 = .change rate → minBitrate ≤ rate := by
    intro c' target hchange
    unfold BitrateController.apply at hchange
    split at hchange
    · cases hchange
    · obtain rfl := Decision.change.inj hchange
      exact le_max_left _ _
  unfold BitrateController.observe at h
  dsimp only at h
  split at h
  · exact happly _ _ h
  split at h
  · split at h
    · exact happly _ _ h
    · cases h
  · cases h

/-- An encoder that accepts every rate accepts what the controller asks for. -/
theorem accepts_all {config : WindowsHost.PublisherConfig} {s : State} {l : Label}
    (h : l.answer = {}) : Accepts config s l := by
  intro unit target _ _ hchange
  have hbounds := change_bounds hchange
  have hpos : target ≠ 0 := by
    unfold minBitrate at hbounds
    omega
  rw [h, setBitrate, if_neg hpos]
  rfl

/-- So it does at every step of the publisher. -/
theorem accepted_step {config : WindowsHost.PublisherConfig} {hfps : 0 < config.fps} {s : State}
    {l : WindowsPublisher.Label} {p : WindowsPublisher.Publisher}
    (h : WindowsPublisher.Step (publisherConfig config hfps) s.publisher l p) :
    Where (Step config hfps) (Accepts config) s ⟨l, {}⟩ (after config s ⟨l, {}⟩ p) :=
  ⟨accepts_all rfl, p, h, rfl⟩

/-- Whatever the controller decides, it has observed the unit. -/
theorem adapt_queued (s : State) : ∃ rate,
    adapt busyConfig s 900 {} =
      { s with controller := (s.controller.observe 900).1, encoderRate := rate } := by
  unfold adapt
  rw [if_pos (show busyConfig.autoBitrate = true from rfl)]
  rcases hdecision : s.controller.observe 900 with ⟨controller, hold | target⟩
  · exact ⟨_, rfl⟩
  · exact ⟨_, rfl⟩

/-- One round queues one more of them. -/
theorem run_busyRound {n : Nat} (hn : n < 64) (queue : List WindowsPublisher.QueuedUnit)
    (keyframe : Bool) (producer : WindowsPublisher.Producer) (rate : Int) :
    ∃ queue' producer' rate', Run (Where (Step busyConfig (by decide)) (Accepts busyConfig))
      (queued queue n keyframe .looping producer rate) busyRound
      (queued queue' (n + 1) false .looping producer' rate') := by
  obtain ⟨producer', hnext⟩ : ∃ producer', (producer.asked true).nextUnit
      (publisherConfig busyConfig (by decide)).producer busyAnswers
        = .ok (producer', some busyUnit) := ⟨_, rfl⟩
  have hroom : (queued queue n false (.waiting busyUnit) producer' rate).publisher.shared.full
      (publisherConfig busyConfig (by decide)) busyUnit.data.length = false := by
    rw [size_busyUnit]
    simp [queued, WindowsPublisher.State.full, publisherConfig, busyConfig]
    omega
  have hproduced : WindowsPublisher.Worker.produced (publisherConfig busyConfig (by decide))
      busyUnit = .waiting busyUnit := by
    rw [WindowsPublisher.Worker.produced, size_busyUnit]
    exact if_neg (by decide)
  -- a round: a keyframe is asked for, read, produced and queued
  have hrequest : Where (Step busyConfig (by decide)) (Accepts busyConfig)
      (queued queue n keyframe .looping producer rate) ⟨.requestKeyframe (.ok ()), {}⟩
      (queued queue n true .looping producer rate) := accepted_step .requestKeyframe
  have hread : Where (Step busyConfig (by decide)) (Accepts busyConfig)
      (queued queue n true .looping producer rate) ⟨.reads (some true), {}⟩
      (queued queue n false (.encoding true) producer rate) := accepted_step (.reads rfl rfl)
  have hproduce : Where (Step busyConfig (by decide)) (Accepts busyConfig)
      (queued queue n false (.encoding true) producer rate) ⟨.produces busyUnit, {}⟩
      (queued queue n false (.waiting busyUnit) producer' rate) :=
    ⟨accepts_all rfl, _, hproduced ▸ .produces rfl hnext, rfl⟩
  have hpush : (queued queue n false (.waiting busyUnit) producer' rate).publisher.shared.push
      busyUnit =
        (queued (queue ++ [busyUnit]) (n + 1) false .looping producer' rate).publisher.shared := by
    rw [WindowsPublisher.State.push, size_busyUnit]
    rfl
  have hqueues : WindowsPublisher.Step (publisherConfig busyConfig (by decide))
      (queued queue n false (.waiting busyUnit) producer' rate).publisher (.queues busyUnit)
      (queued (queue ++ [busyUnit]) (n + 1) false .looping producer' rate).publisher := by
    have hstep := @WindowsPublisher.Step.queues (publisherConfig busyConfig (by decide))
      (queued queue n false (.waiting busyUnit) producer' rate).publisher busyUnit rfl rfl hroom
    rw [hpush] at hstep
    exact hstep
  obtain ⟨rate', hrate⟩ := adapt_queued
    { queued queue n false .looping producer' rate with
      publisher := (queued (queue ++ [busyUnit]) (n + 1) false .looping producer' rate).publisher }
  have hafter : after busyConfig (queued queue n false (.waiting busyUnit) producer' rate)
      ⟨.queues busyUnit, {}⟩
      (queued (queue ++ [busyUnit]) (n + 1) false .looping producer' rate).publisher =
        queued (queue ++ [busyUnit]) (n + 1) false .looping producer' rate' := by
    show adapt busyConfig _ busyUnit.size {} = _
    rw [WindowsPublisher.QueuedUnit.size, size_busyUnit]
    exact hrate
  have hqueue := accepted_step hqueues
  rw [hafter] at hqueue
  exact ⟨_, _, rate', .cons hrequest (.cons hread (.cons hproduce (.single hqueue)))⟩

/-- Up to 64 of them are queued, since nobody takes one. -/
theorem run_rounds {n : Nat} (hn : n ≤ 64) :
    ∃ ls queue keyframe producer rate,
      Run (Where (Step busyConfig (by decide)) (Accepts busyConfig)) (start busyConfig) ls
        (queued queue n keyframe .looping producer rate) := by
  induction n with
  | zero =>
    have hopened : Where (Step busyConfig (by decide)) (Accepts busyConfig) (start busyConfig)
        ⟨.opens, {}⟩ (queued [] 0 false .looping {} 2000000) := accepted_step (.opens rfl)
    exact ⟨_, _, _, _, _, .single hopened⟩
  | succ n ih =>
    obtain ⟨ls, queue, keyframe, producer, rate, hrun⟩ := ih (by omega)
    obtain ⟨queue', producer', rate', hround⟩ := @run_busyRound n (by omega) queue keyframe producer rate
    exact ⟨_, _, _, _, _, hrun.append hround⟩

/-- The controller asks for a higher rate with the last of these units, and the encoder has it. -/
theorem bitrate_agrees_raised :
    ∃ ls s, Run (Step busyConfig (by decide)) (start busyConfig) ls s ∧
      (start busyConfig).encoderRate = 2000000 ∧ s.encoderRate = 2500000 ∧ Agree s := by
  obtain ⟨ls, queue, keyframe, producer, rate, hrun⟩ := @run_rounds 24 (by decide)
  have hagree := (bitrate_agrees rfl).1 _ _ (by decide) (by decide) hrun
  refine ⟨ls, _, hrun.mono fun _ _ _ h => h.2, rfl, ?_, hagree⟩
  exact hagree.symm.trans (show (observed 24).current = 2500000 by decide +kernel)

/-- A rate that the configuration accepts, and the controller raises on its own. -/
theorem slow_disagrees :
    validateConfig (adaptiveConfig 1000000) = .ok () ∧
      Run (Step (adaptiveConfig 1000000) (by decide)) (start (adaptiveConfig 1000000)) []
        (start (adaptiveConfig 1000000)) ∧
      ¬ Agree (start (adaptiveConfig 1000000)) := by
  refine ⟨rfl, .nil _, fun h => ?_⟩
  have hrate : (2000000 : Int) = 1000000 := h
  omega

end WindowsBitrate

end RdEngine
