/-
RdEngine/Platform/OhosPublisher.lean

The screen publisher of the OHOS platform (`platform/ohos_publisher.rs`).

The encoder's callback posts output buffers.  The pump, one worker thread,
takes them in order, puts the parameter sets before a key picture, waits for
credit, copies the picture, frees the buffer and queues a packet.  The consumer
receives packets as guards (`EncodedUnit`), and dropping a guard gives its
credit back.  Every critical section of the source is one function on `State`.

`Step` is the interleaving of the pump, the callbacks, the consumer, the guards
and whoever closes, fails or clears the publisher; what the SDK answers is
arbitrary.
-/
import RdEngine.Message
import RdEngine.Lib.Runs
import Mathlib.Data.Finset.Card

namespace RdEngine

namespace OhosPublisher

open Lts

/-! ### Configuration and errors -/

inductive Codec where
  | h264 | h265
deriving Repr, DecidableEq

structure PublisherConfig where
  codec : Codec
  width : Int
  height : Int
  fps : Nat
  bitrate : Int
  maxQueuedUnits : Nat
  maxQueuedBytes : Nat
deriving Repr, DecidableEq

inductive PublisherError where
  | unsupportedPlatform | invalidConfig | screenSourceLimitedTo60 | noHardwareEncoder
  | surfaceInputUnsupported
  | native (api : String) (code : Int)
  | nativeNull (api : String)
  | invalidBuffer | invalidAnnexB | missingParameterSets | outputTooLarge | unexpectedDiscard
  | callbackOverflow | duplicateOutput
  | consentEnded (state : Int)
  | contentUnavailable | geometryChanged | closed | workerStartFailed | workerFailed
  | ownerLimit | quarantinePresent | reclamationUnconfirmed | backendUnavailable | outputNotFound
deriving Repr, DecidableEq

/-! ### The shared state -/

/-- The callbacks that may wait for the pump. -/
def maxEvents : Nat := 64

/-- The most metadata that is kept for a picture. -/
def maxHeader : Nat := 256 * 1024

/-- `Packet`: what the consumer receives. -/
structure Packet where
  data : Bytes
  ptsUs : Int
  key : Bool
deriving Repr, DecidableEq

/-- The bytes a packet counts for. -/
def Packet.size (packet : Packet) : Nat := packet.data.length

/-- A buffer of the native encoder: its index, and where it is. -/
structure Buffer where
  index : UInt32
  address : Nat
deriving Repr, DecidableEq

/-- What `Shared` keeps under its mutex. -/
structure State where
  queue : List Packet := []
  outputs : List Buffer := []
  owned : Finset UInt32 := ∅
  units : Nat := 0
  bytes : Nat := 0
  consent : Bool := false
  captureState : Int := -1
  rateSet : Bool := false
  keyframeRequested : Bool := false
  closing : Bool := false
  closed : Bool := false
  quarantined : Bool := false
  failure : Option PublisherError := none
  encodedFrames : Nat := 0
  encodedBytes : Nat := 0
deriving DecidableEq

/-- A packet received: its credit is given back when it is dropped. -/
structure EncodedUnit where
  data : Bytes
  ptsUs : Int
  key : Bool
  chargedBytes : Nat
  charged : chargedBytes = data.length

def EncodedUnit.packet (unit : EncodedUnit) : Packet := ⟨unit.data, unit.ptsUs, unit.key⟩

namespace State

/-- The pump has to stop. -/
def stopped (s : State) : Bool := s.closing || s.failure.isSome

/-- The first failure is kept. -/
def fail (s : State) (error : PublisherError) : State :=
  { s with failure := s.failure <|> some error }

def requestClose (s : State) : State := { s with closing := true }

/-- Credit is given back; `none` is an underflow. -/
def release (s : State) (length : Nat) : Option State :=
  if 1 ≤ s.units ∧ length ≤ s.bytes then
    some { s with units := s.units - 1, bytes := s.bytes - length }
  else none

/-- The loop of `Shared::clear`: the queue is drained, each packet with its credit. -/
def drain (s : State) : List Packet → Option State
  | [] => some { s with queue := [] }
  | packet :: queue => do
    let s ← s.release packet.data.length
    s.drain queue

/-- `Shared::clear`. -/
def clear (s : State) (quarantined : Bool) : Option State := do
  let s ← { s with closing := true, quarantined, closed := !quarantined }.drain s.queue
  return { s with outputs := [], owned := ∅ }

/-- What `recv` finds. -/
inductive Received where
  | failed (error : PublisherError)
  | ended
  | unit (unit : EncodedUnit)
  | waits

/-- The critical section of `Publisher::recv`. -/
def recv (s : State) : State × Received :=
  match s.failure with
  | some error => (s, .failed error)
  | none =>
    if s.closing then (s, .ended)
    else match s.queue with
    | packet :: queue =>
      ({ s with queue }, .unit ⟨packet.data, packet.ptsUs, packet.key, packet.data.length, rfl⟩)
    | [] => (s, .waits)

/-- `request_keyframe`; a publisher that has failed or is closing refuses. -/
def requestKeyframe (s : State) : State × Except PublisherError Unit :=
  if s.closing then (s, .error .closed)
  else match s.failure with
  | some error => (s, .error error)
  | none => ({ s with keyframeRequested := true }, .ok ())

/-- The callback `output`, and whether the buffer was queued. -/
def output (s : State) (buffer : Buffer) : State × Bool :=
  if s.stopped then (s, false)
  else if s.owned.card ≥ maxEvents then ({ s with failure := some .callbackOverflow }, false)
  else if buffer.index ∈ s.owned then ({ s with failure := some .duplicateOutput }, false)
  else ({ s with owned := insert buffer.index s.owned, outputs := s.outputs ++ [buffer] }, true)

/-- The callback `capture_state`. -/
def onCaptureState (s : State) (code : Int) : State :=
  let ends := (1 ≤ code ∧ code ≤ 4) ∨ code = 10
  { s with
    captureState := code
    consent := if ends then false else if code = 0 ∧ !s.closing then true else s.consent
    failure :=
      if ends ∧ !s.closing then s.failure <|> some (.consentEnded code) else s.failure }

end State

/-! ### Parameter sets -/

/-- The length of the start code at the beginning of some bytes, or 0. -/
def startCode : Bytes → Nat
  | 0 :: 0 :: 0 :: 1 :: _ => 4
  | 0 :: 0 :: 1 :: _ => 3
  | _ => 0

/-- How many bytes come before the next start code. -/
def untilStart : Bytes → Nat
  | [] => 0
  | byte :: data => if startCode (byte :: data) = 0 then untilStart data + 1 else 0

/-- There are three slots for parameter sets: video, sequence, picture. -/
scoped instance three_slots : NeZero 3 := ⟨by decide⟩

/-- The parameter sets that were seen last. -/
structure Parameters where
  sets : Fin 3 → Option Bytes
  /-- metadata kept for the next picture -/
  pending : Bytes

namespace Parameters

def empty : Parameters := ⟨fun _ => none, []⟩

/-- What one unit of the bitstream is. -/
structure Nal where
  valid : Bool
  vcl : Bool
  key : Bool
  slot : Option (Fin 3)

/-- `header` is the first byte of the unit, `next` the second. -/
def nal (codec : Codec) (header : UInt8) (next : Option UInt8) : Nal :=
  match codec with
  | .h264 =>
    let kind := (header &&& 31).toNat
    { valid := header &&& 0x80 = 0 ∧ kind ≠ 0
      vcl := 1 ≤ kind ∧ kind ≤ 5
      key := kind = 5
      slot := if kind = 7 then some 1 else if kind = 8 then some 2 else none }
  | .h265 =>
    let kind := ((header >>> 1) &&& 63).toNat
    { valid := header &&& 0x80 = 0 ∧ next.any fun byte => byte &&& 7 ≠ 0
      vcl := kind ≤ 31
      key := 16 ≤ kind ∧ kind ≤ 23
      slot :=
        if kind = 32 then some 0 else if kind = 33 then some 1
        else if kind = 34 then some 2 else none }

/-- The loop of `inspect` over the rest of the data. -/
def inspectFrom (codec : Codec) (p : Parameters) (vcl key : Bool) (rest : Bytes) :
    Except PublisherError (Parameters × Bool × Bool) :=
  if _hrest : rest = [] then .ok (p, vcl, key)
  else
    let skip := startCode rest
    if skip = 0 ∨ rest.length ≤ skip then .error .invalidAnnexB
    else
      let length := skip + 1 + untilStart (rest.drop (skip + 1))
      let unit := nal codec (rest.getD skip 0) (if skip + 1 < length then rest[skip + 1]? else none)
      if !unit.valid then .error .invalidAnnexB
      else
        let vcl := vcl || unit.vcl
        let key := key || unit.key
        match unit.slot with
        | none => inspectFrom codec p vcl key (rest.drop length)
        | some slot =>
          if length > maxHeader / 3 then .error .outputTooLarge
          else
            inspectFrom codec { p with sets := Function.update p.sets slot (rest.take length) }
              vcl key (rest.drop length)
  termination_by rest.length
  decreasing_by all_goals
    have := List.length_pos_of_ne_nil _hrest
    simp only [List.length_drop]
    omega

/-- `Parameters::inspect`: is there a picture, is it a key picture? -/
def inspect (codec : Codec) (p : Parameters) (data : Bytes) :
    Except PublisherError (Parameters × Bool × Bool) :=
  if startCode data = 0 then .error .invalidAnnexB
  else inspectFrom codec p false false data

/-- `Parameters::length`: the length of the sets a key picture needs. -/
def length (codec : Codec) (p : Parameters) : Except PublisherError Nat :=
  let slots : List (Fin 3) := if codec = .h264 then [1, 2] else [0, 1, 2]
  slots.foldlM (fun n slot =>
    match p.sets slot with
    | some set => .ok (n + set.length)
    | none => .error .missingParameterSets) 0

/-- What `Parameters::prepend` writes. -/
def prepend (p : Parameters) : Bytes := [0, 1, 2].flatMap fun slot => (p.sets slot).getD []

/-- The first slot is of the newer codec only. -/
def Fits (codec : Codec) (p : Parameters) : Prop := codec = .h264 → p.sets 0 = none

end Parameters

/-! ### The pump -/

/-- The answers of the SDK about an output buffer. -/
structure OutputAnswers where
  getBufferAttr : Int
  ptsUs : Int
  size : Int
  offset : Int
  flags : UInt32
  capacity : Int
  /-- the buffer's address; 0 is a null pointer -/
  address : Nat
  /-- what is read there -/
  data : Bytes
  read : data.length = size.toNat

/-- A picture to be queued: its bytes, and the credit it takes. -/
structure Picture where
  buffer : Buffer
  owned : Bytes
  length : Nat
  ptsUs : Int
  key : Bool
  /-- the last one of the stream -/
  eos : Bool

def Picture.packet (picture : Picture) : Packet := ⟨picture.owned, picture.ptsUs, picture.key⟩

/-- A native call that fails is an error with its code. -/
def check (api : String) (code : Int) : Except PublisherError Unit :=
  if code = 0 then .ok () else .error (.native api code)

/-- What the pump makes of an output buffer. -/
inductive Found where
  | failed (error : PublisherError)
  /-- no picture: the buffer is freed, then the pump ends, goes on or fails -/
  | metadata (parameters : Parameters) (next : Except PublisherError Bool)
  | picture (parameters : Parameters) (picture : Picture)

/-- The part of `pump` between taking an output buffer and asking for credit. -/
def examine (config : PublisherConfig) (p : Parameters) (buffer : Buffer) (sdk : OutputAnswers) :
    Found :=
  let eos := sdk.flags &&& 1 != 0
  if buffer.address = 0 then .failed .invalidBuffer
  else match check "OH_AVBuffer_GetBufferAttr" sdk.getBufferAttr with
  | .error error => .failed error
  | .ok () =>
    if sdk.offset < 0 ∨ sdk.size < 0 then .failed .invalidBuffer
    else if sdk.size = 0 then
      .metadata p
        (if eos then .ok true else if sdk.flags &&& 8 != 0 then .ok false else .error .invalidBuffer)
    else if sdk.size > config.maxQueuedBytes then .failed .outputTooLarge
    else if sdk.capacity < 0 ∨ sdk.offset + sdk.size > sdk.capacity then .failed .invalidBuffer
    else if sdk.address = 0 then .failed .invalidBuffer
    else match p.inspect config.codec sdk.data with
    | .error error => .failed error
    | .ok (p, vcl, key) =>
      if !vcl then
        if eos then .metadata p (.ok true)
        else if sdk.size > (maxHeader - p.pending.length : Nat) then .failed .outputTooLarge
        else .metadata { p with pending := p.pending ++ sdk.data } (.ok false)
      else if sdk.flags &&& (4 ||| 16) != 0 then .failed .unexpectedDiscard
      else match (if key then p.length config.codec else .ok 0) with
      | .error error => .failed error
      | .ok header =>
        let length := sdk.size.toNat + (header + p.pending.length)
        if length > config.maxQueuedBytes then .failed .outputTooLarge
        else
          .picture p
            { buffer
              owned := p.pending ++ (if key then p.prepend else []) ++ sdk.data
              length
              ptsUs := sdk.ptsUs
              key
              eos }

/-- Where the pump is. -/
inductive Pump where
  /-- about to look for a buffer -/
  | selecting
  /-- about to set the rate of the capture -/
  | settingRate
  /-- about to ask the encoder for a key picture -/
  | askingKeyframe (waiting : Option Picture)
  /-- with a buffer taken -/
  | holding (buffer : Buffer)
  /-- about to free a buffer without a picture -/
  | freeing (buffer : Buffer) (next : Except PublisherError Bool)
  /-- about to ask for credit -/
  | waiting (picture : Picture)
  /-- with credit, before and after the buffer is freed -/
  | copying (picture : Picture)
  | copied (picture : Picture) (freed : Except PublisherError Unit)
  | done (result : Except PublisherError Unit)

namespace State

/-- What the pump finds when it looks for a buffer. -/
inductive Selected where
  | stop | setRate | askKeyframe | waits
  | buffer (buffer : Buffer)

/-- The end of the critical section: after a key picture was asked for. -/
def selectBuffer (s : State) : State × Selected :=
  if s.stopped then (s, .stop)
  else if s.consent && s.rateSet then
    match s.outputs with
    | buffer :: outputs => ({ s with outputs }, .buffer buffer)
    | [] => (s, .waits)
  else (s, .waits)

/-- The same after the rate was set. -/
def selectRated (s : State) : State × Selected :=
  if s.stopped then (s, .stop)
  else if s.consent && s.rateSet && s.keyframeRequested then
    ({ s with keyframeRequested := false }, .askKeyframe)
  else s.selectBuffer

/-- The whole of it. -/
def select (s : State) : State × Selected :=
  if s.stopped then (s, .stop)
  else if s.consent && !s.rateSet then (s, .setRate)
  else s.selectRated

/-- What the pump finds when it asks for credit. -/
inductive Credit where
  | stop | askKeyframe | waits | charged

/-- The critical section that charges a picture. -/
def charge (config : PublisherConfig) (s : State) (picture : Picture) : State × Credit :=
  if s.units ≥ config.maxQueuedUnits ∨ picture.length > config.maxQueuedBytes - s.bytes then
    if s.stopped then (s, .stop)
    else if s.keyframeRequested && s.consent && s.rateSet then
      ({ s with keyframeRequested := false }, .askKeyframe)
    else (s, .waits)
  else if s.stopped then (s, .stop)
  else ({ s with units := s.units + 1, bytes := s.bytes + picture.length }, .charged)

/-- `free` drops the ownership of the index before it calls the SDK. -/
def freeing (s : State) (index : UInt32) : State := { s with owned := s.owned.erase index }

/-- The pump gives up what it has copied. -/
def givesUp (s : State) (freed : Except PublisherError Unit) : Bool :=
  !freed.isOk || s.stopped

/-- The packet is queued. -/
def push (s : State) (picture : Picture) : State :=
  { s with
    queue := s.queue ++ [picture.packet]
    encodedFrames := s.encodedFrames + 1
    encodedBytes := s.encodedBytes + picture.length }

end State

/-- Where the pump goes after a look for a buffer. -/
def Pump.selected : State.Selected → Pump
  | .stop => .done (.ok ())
  | .setRate => .settingRate
  | .askKeyframe => .askingKeyframe none
  | .waits => .selecting
  | .buffer buffer => .holding buffer

/-- Where the pump goes after it has asked for credit. -/
def Pump.credited (picture : Picture) : State.Credit → Pump
  | .stop => .done (.ok ())
  | .askKeyframe => .askingKeyframe (some picture)
  | .waits => .waiting picture
  | .charged => .copying picture

/-- Where the pump goes with an examined buffer. -/
def Pump.found (buffer : Buffer) : Found → Pump
  | .failed error => .done (.error error)
  | .metadata _ next => .freeing buffer next
  | .picture _ picture => .waiting picture

/-- Where the pump goes after a buffer without a picture was freed. -/
def Pump.freed (freed : Except PublisherError Unit) (next : Except PublisherError Bool) : Pump :=
  match freed, next with
  | .error error, _ => .done (.error error)
  | .ok (), .error error => .done (.error error)
  | .ok (), .ok eos => if eos then .done (.ok ()) else .selecting

def Found.parameters (p : Parameters) : Found → Parameters
  | .failed _ => p
  | .metadata p _ | .picture p _ => p

/-- A publisher: its shared state, its pump and the guards that live. -/
structure Publisher where
  shared : State
  pump : Pump
  parameters : Parameters
  guards : List EncodedUnit

/-- After `setup`: nothing is queued. -/
def Publisher.opened : Publisher := ⟨{}, .selecting, .empty, []⟩

/-- What is seen of a step. -/
inductive Label where
  | output (buffer : Buffer) (queued : Bool)
  | captureState (code : Int)
  | fail (error : PublisherError)
  | requestClose
  | requestKeyframe
  | clear (quarantined : Bool)
  | recv (received : State.Received)
  | drops (unit : EncodedUnit)
  /-- of the pump -/
  | selects (selected : State.Selected)
  | asks
  | examines
  | frees
  | charges
  | queues (picture : Picture)
  | givesUp

/-- One critical section of a callback, of the pump or of the consumer. -/
inductive Step (config : PublisherConfig) : Publisher → Label → Publisher → Prop
  /- the callbacks, and whoever may close, fail or clear -/
  | output {p : Publisher} {buffer : Buffer} :
      Step config p (.output buffer (p.shared.output buffer).2)
        { p with shared := (p.shared.output buffer).1 }
  | captureState {p : Publisher} {code : Int} :
      Step config p (.captureState code) { p with shared := p.shared.onCaptureState code }
  | fail {p : Publisher} {error : PublisherError} :
      Step config p (.fail error) { p with shared := p.shared.fail error }
  | requestClose {p : Publisher} :
      Step config p .requestClose { p with shared := p.shared.requestClose }
  | requestKeyframe {p : Publisher} :
      Step config p .requestKeyframe { p with shared := p.shared.requestKeyframe.1 }
  | clear {p : Publisher} {quarantined : Bool} {shared : State}
      (hclear : p.shared.clear quarantined = some shared) :
      Step config p (.clear quarantined) { p with shared }
  /- the consumer, and its guards -/
  | recv {p : Publisher} (hwaits : ∀ unit, p.shared.recv.2 ≠ .unit unit) :
      Step config p (.recv p.shared.recv.2) p
  | receives {p : Publisher} {unit : EncodedUnit} (hunit : p.shared.recv.2 = .unit unit) :
      Step config p (.recv (.unit unit))
        { p with shared := p.shared.recv.1, guards := p.guards ++ [unit] }
  | drops {p : Publisher} {unit : EncodedUnit} {before after : List EncodedUnit} {shared : State}
      (hguards : p.guards = before ++ unit :: after)
      (hrelease : p.shared.release unit.chargedBytes = some shared) :
      Step config p (.drops unit) { p with shared, guards := before ++ after }
  /- the pump looks for a buffer -/
  | selects {p : Publisher} (hpump : p.pump = .selecting) :
      Step config p (.selects p.shared.select.2)
        { p with shared := p.shared.select.1, pump := .selected p.shared.select.2 }
  | setsRate {p : Publisher} (hpump : p.pump = .settingRate) :
      Step config p (.selects { p.shared with rateSet := true }.selectRated.2)
        { p with
          shared := { p.shared with rateSet := true }.selectRated.1
          pump := .selected { p.shared with rateSet := true }.selectRated.2 }
  | setRateFails {p : Publisher} {error : PublisherError} (hpump : p.pump = .settingRate) :
      Step config p .asks { p with pump := .done (.error error) }
  | asked {p : Publisher} (hpump : p.pump = .askingKeyframe none) :
      Step config p (.selects p.shared.selectBuffer.2)
        { p with shared := p.shared.selectBuffer.1, pump := .selected p.shared.selectBuffer.2 }
  | askedWaiting {p : Publisher} {picture : Picture}
      (hpump : p.pump = .askingKeyframe (some picture)) :
      Step config p .asks { p with pump := .waiting picture }
  | askFails {p : Publisher} {waiting : Option Picture} {error : PublisherError}
      (hpump : p.pump = .askingKeyframe waiting) :
      Step config p .asks { p with pump := .done (.error error) }
  /- the pump with a buffer -/
  | examines {p : Publisher} {buffer : Buffer} {sdk : OutputAnswers}
      (hpump : p.pump = .holding buffer) :
      Step config p .examines
        { p with
          pump := .found buffer (examine config p.parameters buffer sdk)
          parameters := (examine config p.parameters buffer sdk).parameters p.parameters }
  | frees {p : Publisher} {buffer : Buffer} {next : Except PublisherError Bool} {code : Int}
      (hpump : p.pump = .freeing buffer next) :
      Step config p .frees
        { p with
          shared := p.shared.freeing buffer.index
          pump := .freed (check "OH_VideoEncoder_FreeOutputBuffer" code) next }
  | charges {p : Publisher} {picture : Picture} (hpump : p.pump = .waiting picture) :
      Step config p .charges
        { p with
          shared := (p.shared.charge config picture).1
          pump := .credited picture (p.shared.charge config picture).2 }
  | copies {p : Publisher} {picture : Picture} {code : Int} (hpump : p.pump = .copying picture) :
      Step config p .frees
        { p with
          shared := p.shared.freeing picture.buffer.index
          pump := .copied picture (check "OH_VideoEncoder_FreeOutputBuffer" code) }
  | givesUp {p : Publisher} {picture : Picture} {freed : Except PublisherError Unit}
      {shared : State} (hpump : p.pump = .copied picture freed)
      (hgives : p.shared.givesUp freed = true)
      (hrelease : p.shared.release picture.length = some shared) :
      Step config p .givesUp { p with shared, pump := .done freed }
  | queues {p : Publisher} {picture : Picture} {freed : Except PublisherError Unit}
      (hpump : p.pump = .copied picture freed) (hgives : p.shared.givesUp freed = false) :
      Step config p (.queues picture)
        { p with
          shared := p.shared.push picture
          pump := if picture.eos then .done (.ok ()) else .selecting
          parameters := { p.parameters with pending := [] } }

end OhosPublisher

end RdEngine
