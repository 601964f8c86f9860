/-
RdEngine/Platform/WindowsPublisher.lean

The screen publisher of the Windows platform: the producer
(`platform/windows_publisher.rs`) and its adapter for the host
(`platform/windows_host_publisher.rs`).

One worker thread reads and clears the request for a key picture, has the
producer capture and encode one unit, waits for room and queues it.  The
consumer receives units as guards, whose drop gives their credit back with
saturating counters.  `Step` is the interleaving of the worker, the consumer,
the guards and whoever asks for a key picture or closes the publisher; what the
capture and the encoder answer is arbitrary.
-/
import RdEngine.Message
import RdEngine.Lib.Runs

namespace RdEngine

namespace WindowsPublisher

open Lts

/-! ### The producer -/

inductive ProducerError where
  | unsupportedPlatform | invalidConfig | backendUnavailable | nullD3dResource | adapterMismatch
  | sourceResolutionChanged | sourceFormatChanged | colorContractChanged
  | unsupportedDirectInput | unsupportedBitDepth | unsupportedHdrMetadata | capabilityExceeded
  | invalidTimestamp | invalidAnnexB | emptyAccessUnit | encoderChangedResolution
  | encoderChangedColorContract | captureAccessLost | captureFailed | encoderFailed
  | reclamationUnconfirmed | closed
deriving Repr, DecidableEq

/-- A unit of the encoder, without its declared format. -/
structure QueuedUnit where
  data : Bytes
  ptsUs : Int
  key : Bool
deriving Repr, DecidableEq

/-- The bytes a unit counts for. -/
def QueuedUnit.size (unit : QueuedUnit) : Nat := unit.data.length

/-- The rate of the stream; neither part is zero. -/
structure ProducerConfig where
  fpsNumerator : Nat
  fpsDenominator : Nat
  numerator_pos : 0 < fpsNumerator
  denominator_pos : 0 < fpsDenominator

/-- What the capture and the encoder answer during one `next_unit`. -/
structure Answers where
  /-- `next_texture`: the time of the frame, if there is one -/
  texture : Except ProducerError (Option Int)
  /-- `validate_texture` -/
  textureValid : Except ProducerError Unit
  /-- `encode_texture`, asked for a key picture or not -/
  encode : Bool → Except ProducerError QueuedUnit
  /-- `validate_unit` -/
  unitValid : QueuedUnit → Except ProducerError Unit

/-- The state of the producer. -/
structure Producer where
  forceKeyframe : Bool := true
  nextEncodePtsUs : Option Int := none
deriving Repr, DecidableEq

/-- A sum of times, within 64 bits. -/
def saturate (n : Int) : Int := max (-2 ^ 63) (min n (2 ^ 63 - 1))

namespace Producer

def requestKeyframe (p : Producer) : Producer := { p with forceKeyframe := true }

/-- The time between two pictures. -/
def interval (config : ProducerConfig) : Int :=
  max (1000000 * config.fpsDenominator / config.fpsNumerator : Nat) 1

/-- The time of the next picture to encode. -/
def following (p : Producer) (config : ProducerConfig) (pts : Int) : Int :=
  match p.nextEncodePtsUs with
  | some next =>
    if !p.forceKeyframe ∧ pts ≥ next then
      let elapsed := saturate (saturate (pts - next) / interval config + 1)
      saturate (next + saturate (elapsed * interval config))
    else saturate (pts + interval config)
  | none => saturate (pts + interval config)

/-- `next_unit`. -/
def nextUnit (config : ProducerConfig) (p : Producer) (sdk : Answers) :
    Except ProducerError (Producer × Option QueuedUnit) := do
  let some pts ← sdk.texture | return (p, none)
  sdk.textureValid
  if pts < 0 then throw .invalidTimestamp
  if !p.forceKeyframe ∧ p.nextEncodePtsUs.any (fun next => pts < next) then return (p, none)
  let unit ← sdk.encode p.forceKeyframe
  sdk.unitValid unit
  if p.forceKeyframe && !unit.key then throw .encoderFailed
  return ({ forceKeyframe := false, nextEncodePtsUs := some (p.following config pts) }, some unit)

/-- What `nextUnit` gives: nothing, where there is no frame or it comes too early, or a
unit, which is a key picture if one was asked for. -/
theorem nextUnit_cases {config : ProducerConfig} {p p' : Producer} {sdk : Answers}
    {unit : Option QueuedUnit} (h : p.nextUnit config sdk = .ok (p', unit)) :
    (sdk.texture = .ok none ∧ p' = p ∧ unit = none) ∨
    (∃ pts next, sdk.texture = .ok (some pts) ∧ p.forceKeyframe = false ∧
      p.nextEncodePtsUs = some next ∧ pts < next ∧ p' = p ∧ unit = none) ∨
    ∃ pts u, sdk.texture = .ok (some pts) ∧ 0 ≤ pts ∧
      (p.forceKeyframe = false → ∀ next, p.nextEncodePtsUs = some next → next ≤ pts) ∧
      (p.forceKeyframe = true → u.key = true) ∧ unit = some u ∧
      p' = { forceKeyframe := false, nextEncodePtsUs := some (p.following config pts) } := by
  unfold nextUnit at h
  cases htexture : sdk.texture with
  | error error =>
    rw [htexture] at h
    cases h
  | ok texture =>
    cases texture with
    | none =>
      rw [htexture] at h
      cases h
      exact .inl ⟨rfl, rfl, rfl⟩
    | some pts =>
      simp only [htexture, bind, Except.bind, pure, Except.pure, throw, throwThe,
        MonadExceptOf.throw] at h
      -- from here on every answer but one fails the call
      cases htextureValid : sdk.textureValid with
      | error error =>
        rw [htextureValid] at h
        cases h
      | ok done =>
        simp only [htextureValid] at h
        split_ifs at h with htime hearly
        · cases h
          obtain ⟨hforce, hnext⟩ := hearly
          obtain ⟨next, hsome, hlt⟩ := (Option.any_eq_true _ _).mp hnext
          exact .inr (.inl ⟨pts, next, rfl, by simpa using hforce, hsome, by simpa using hlt, rfl,
            rfl⟩)
        cases hencode : sdk.encode p.forceKeyframe with
        | error error =>
          rw [hencode] at h
          cases h
        | ok u =>
          simp only [hencode] at h
          cases hvalid : sdk.unitValid u with
          | error error =>
            rw [hvalid] at h
            cases h
          | ok done =>
            simp only [hvalid] at h
            split_ifs at h with hkey
            cases h
            refine .inr (.inr ⟨pts, u, rfl, by omega, ?_, ?_, rfl, rfl⟩)
            · intro hforce next hnext
              rw [hforce, hnext] at hearly
              simpa using hearly
            · intro hforce
              simpa [hforce] using hkey

end Producer

/-! ### The adapter -/

inductive PublisherError where
  | unsupportedPlatform | invalidConfig | backendUnavailable | outputNotFound | captureFailed
  | encoderFailed | invalidAccessUnit | closed | workerStartFailed | workerFailed
  | reclamationUnconfirmed
deriving Repr, DecidableEq

def mapProducer : ProducerError → PublisherError
  | .reclamationUnconfirmed => .reclamationUnconfirmed
  | .closed => .closed
  | .invalidAnnexB | .emptyAccessUnit => .invalidAccessUnit
  | .encoderFailed => .encoderFailed
  | _ => .captureFailed

/-- The limits of the queue, and the rate. -/
structure PublisherConfig where
  maxQueuedUnits : Nat
  maxQueuedBytes : Nat
  producer : ProducerConfig

/-- What `Shared` keeps under its mutex. -/
structure State where
  queue : List QueuedUnit := []
  chargedUnits : Nat := 0
  queuedBytes : Nat := 0
  closing : Bool := false
  closed : Bool := false
  keyframeRequested : Bool := false
  failure : Option PublisherError := none
deriving Repr, DecidableEq

/-- A unit received: its credit is given back when it is dropped. -/
structure EncodedUnit where
  unit : QueuedUnit
  chargedBytes : Nat
  charged : chargedBytes = unit.data.length

namespace State

/-- `EncodedUnit::drop`. -/
def release (s : State) (guard : EncodedUnit) : State :=
  { s with
    chargedUnits := s.chargedUnits - 1
    queuedBytes := s.queuedBytes - guard.chargedBytes }

/-- What `recv` finds. -/
inductive Received where
  | failed (error : PublisherError)
  | unit (guard : EncodedUnit)
  | ended
  | waits

/-- The critical section of `recv`. -/
def recv (s : State) : State × Received :=
  match s.failure with
  | some error => (s, .failed error)
  | none =>
    match s.queue with
    | unit :: queue => ({ s with queue }, .unit ⟨unit, unit.data.length, rfl⟩)
    | [] => (s, if s.closed then .ended else .waits)

/-- `request_keyframe`; a publisher that has failed or is closing refuses. -/
def requestKeyframe (s : State) : State × Except PublisherError Unit :=
  if s.closing ∨ s.closed then (s, .error .closed)
  else match s.failure with
  | some error => (s, .error error)
  | none => ({ s with keyframeRequested := true }, .ok ())

def requestClose (s : State) : State := { s with closing := true }

/-- The worker reads and clears the request; `none` if it has to stop. -/
def readRequest (s : State) : State × Option Bool :=
  if s.closing then (s, none)
  else ({ s with keyframeRequested := false }, some s.keyframeRequested)

/-- There is no room for a unit of so many bytes. -/
def full (config : PublisherConfig) (s : State) (bytes : Nat) : Bool :=
  s.chargedUnits ≥ config.maxQueuedUnits || s.queuedBytes + bytes > config.maxQueuedBytes

/-- A unit is queued, and charged. -/
def push (s : State) (unit : QueuedUnit) : State :=
  { s with
    chargedUnits := s.chargedUnits + 1
    queuedBytes := s.queuedBytes + unit.data.length
    queue := s.queue ++ [unit] }

/-- The end of the worker. -/
def finish (s : State) (failure : Option PublisherError) : State :=
  { s with failure, closed := true }

end State

/-- Where the worker is. -/
inductive Worker where
  | opening
  /-- at the top of its loop -/
  | looping
  /-- with what it has read of the request -/
  | encoding (requested : Bool)
  /-- with a unit, about to queue it -/
  | waiting (unit : QueuedUnit)
  /-- out of its loop -/
  | stopping (error : Option PublisherError)
  | ended
deriving Repr, DecidableEq

/-- The publisher: what is shared, the worker with its producer, and the units that are out. -/
structure Publisher where
  shared : State
  worker : Worker
  producer : Producer
  guards : List EncodedUnit

/-- The worker is about to open its producer. -/
def Publisher.opened : Publisher := ⟨{}, .opening, {}, []⟩

/-- What the worker makes of a unit: it is not empty, and not too large. -/
def Worker.produced (config : PublisherConfig) (unit : QueuedUnit) : Worker :=
  if unit.data.length = 0 ∨ unit.data.length > config.maxQueuedBytes then
    .stopping (some .invalidAccessUnit)
  else .waiting unit

/-- The producer, after the worker has passed the request on. -/
def Producer.asked (p : Producer) (requested : Bool) : Producer :=
  if requested then p.requestKeyframe else p

/-- What happens to the publisher. -/
inductive Label where
  | requestKeyframe (result : Except PublisherError Unit)
  | requestClose
  | recv (received : State.Received)
  | drops (guard : EncodedUnit)
  /-- of the worker -/
  | opens
  | reads (requested : Option Bool)
  | produces (unit : QueuedUnit)
  | skips
  | queues (unit : QueuedUnit)
  | stops
  | ends

/-- One critical section of the worker or of the consumer. -/
inductive Step (config : PublisherConfig) : Publisher → Label → Publisher → Prop
  | requestKeyframe {p : Publisher} :
      Step config p (.requestKeyframe p.shared.requestKeyframe.2)
        { p with shared := p.shared.requestKeyframe.1 }
  | requestClose {p : Publisher} :
      Step config p .requestClose { p with shared := p.shared.requestClose }
  | recv {p : Publisher} (hwaits : ∀ guard, p.shared.recv.2 ≠ .unit guard) :
      Step config p (.recv p.shared.recv.2) p
  | receives {p : Publisher} {guard : EncodedUnit} (hunit : p.shared.recv.2 = .unit guard) :
      Step config p (.recv (.unit guard))
        { p with shared := p.shared.recv.1, guards := p.guards ++ [guard] }
  | drops {p : Publisher} {guard : EncodedUnit} {before after : List EncodedUnit}
      (hguards : p.guards = before ++ guard :: after) :
      Step config p (.drops guard)
        { p with shared := p.shared.release guard, guards := before ++ after }
  /- the worker -/
  | opens {p : Publisher} (hworker : p.worker = .opening) :
      Step config p .opens { p with worker := .looping }
  | openFails {p : Publisher} {error : PublisherError} (hworker : p.worker = .opening) :
      Step config p .ends { p with shared := p.shared.finish (some error), worker := .ended }
  | reads {p : Publisher} {requested : Bool} (hworker : p.worker = .looping)
      (hread : p.shared.readRequest.2 = some requested) :
      Step config p (.reads (some requested))
        { p with shared := p.shared.readRequest.1, worker := .encoding requested }
  | readsClose {p : Publisher} (hworker : p.worker = .looping)
      (hread : p.shared.readRequest.2 = none) :
      Step config p (.reads none) { p with worker := .stopping none }
  | produces {p : Publisher} {requested : Bool} {sdk : Answers} {producer : Producer}
      {unit : QueuedUnit} (hworker : p.worker = .encoding requested)
      (hnext : (p.producer.asked requested).nextUnit config.producer sdk
        = .ok (producer, some unit)) :
      Step config p (.produces unit) { p with producer, worker := .produced config unit }
  | skips {p : Publisher} {requested : Bool} {sdk : Answers} {producer : Producer}
      (hworker : p.worker = .encoding requested)
      (hnext : (p.producer.asked requested).nextUnit config.producer sdk = .ok (producer, none)) :
      Step config p .skips { p with producer, worker := .looping }
  | nextFails {p : Publisher} {requested : Bool} {sdk : Answers} {error : ProducerError}
      (hworker : p.worker = .encoding requested)
      (hnext : (p.producer.asked requested).nextUnit config.producer sdk = .error error) :
      Step config p .stops { p with worker := .stopping (some (mapProducer error)) }
  | queues {p : Publisher} {unit : QueuedUnit} (hworker : p.worker = .waiting unit)
      (hclosing : p.shared.closing = false)
      (hroom : p.shared.full config unit.data.length = false) :
      Step config p (.queues unit) { p with shared := p.shared.push unit, worker := .looping }
  | closes {p : Publisher} {unit : QueuedUnit} (hworker : p.worker = .waiting unit)
      (hclosing : p.shared.closing = true) :
      Step config p .stops { p with worker := .stopping none }
  /- a producer that cannot be closed is an error before the worker's own -/
  | ends {p : Publisher} {error close : Option PublisherError}
      (hworker : p.worker = .stopping error)
      (hclose : close = none ∨ close = some .reclamationUnconfirmed) :
      Step config p .ends { p with shared := p.shared.finish (close <|> error), worker := .ended }

end WindowsPublisher

end RdEngine
