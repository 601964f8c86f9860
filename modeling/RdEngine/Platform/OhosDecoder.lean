/-
RdEngine/Platform/OhosDecoder.lean

The surface decoder of the OHOS platform (`platform/ohos_decoder.rs`).

A feeder submits access units, the callbacks of the SDK post events, and one
worker thread serves both under one mutex (`engine::Shared`, here `State`).
Every method of `Shared` is one critical section and one function on `State`.

The worker thread is the machine `Worker`: it sets the codec up, runs its loop,
tears the codec down and returns.  It may also panic anywhere.  `Step` is the
interleaving of its steps with those of the feeder and of the callbacks; what
the SDK answers is arbitrary.
-/
import RdEngine.Message
import RdEngine.Lib.Runs
import Mathlib.Data.Finset.Card

namespace RdEngine

namespace OhosDecoder

open Lts

/-! ### Access units and errors -/

inductive VideoCodec where
  | h264 | h265
deriving Repr, DecidableEq

inductive AccessUnitKind where
  | codecConfig
  | frame (key : Bool)
  | endOfStream
deriving Repr, DecidableEq

/-- `AccessUnit`: what the feeder submits. -/
structure AccessUnit where
  bytes : Bytes
  ptsUs : Int
  kind : AccessUnitKind
deriving Repr, DecidableEq

/-- The bytes a unit counts for. -/
def AccessUnit.size (unit : AccessUnit) : Nat := unit.bytes.length

structure DecoderConfig where
  codec : VideoCodec
  width : Int
  height : Int
  maxQueuedUnits : Nat
  maxQueuedBytes : Nat
deriving Repr, DecidableEq

inductive DecoderError where
  | unsupportedPlatform | invalidConfig | invalidAccessUnit | backpressure
  | accessUnitExceedsQueueLimit (size limit : Nat)
  | closed | endOfStreamAlreadySubmitted | noHardwareDecoder
  | nativeReturnedNull (api : String)
  | invalidNativeBuffer
  | inputTooLarge (size : Nat) (capacity : Int)
  | native (api : String) (code : Int)
  | callbackOverflow | duplicateBufferIndex | ownerLimit | quarantinePresent
  | destroyFailed (code : Int)
  | workerStartFailed | workerPanicked
deriving Repr, DecidableEq

/-- `DecoderStats`.  Its counters are `u64` in the source; they are numbers here, for no
decoder is handed 2^64 units. -/
structure DecoderStats where
  acceptedUnits : Nat := 0
  pushedUnits : Nat := 0
  renderSubmissions : Nat := 0
  nonFrameOutputs : Nat := 0
  formatChangeNotifications : Nat := 0
  cancelledUnits : Nat := 0
  endOfStreamOutput : Bool := false
  /-- the native decoder could not be destroyed, and is kept -/
  quarantined : Bool := false
  closed : Bool := false
  failure : Option DecoderError := none
deriving Repr, DecidableEq

/-- A rejection returns the unit. -/
structure RejectedSubmission where
  reason : DecoderError
  unit : AccessUnit
deriving Repr, DecidableEq

/-! ### The shared state -/

/-- The callbacks that may wait for the worker. -/
def maxCallbacks : Nat := 256

/-- Which outputs are frames, and which end the stream. -/
def outputFlags (flags : UInt32) : Bool × Bool :=
  (flags &&& (1 ||| 8 ||| 16) == 0, flags &&& 1 != 0)

/-- A buffer of the native decoder: its index, and where it is. -/
structure Buffer where
  index : UInt32
  address : Nat
deriving Repr, DecidableEq

/-- What the native decoder calls back with. -/
inductive Event where
  | input (buffer : Buffer)
  | output (buffer : Buffer)
  | streamChanged
deriving Repr, DecidableEq

/-- What the worker finds to do. -/
inductive Action where
  | event (event : Event)
  | submit (buffer : Buffer) (unit : AccessUnit)
  | stop
deriving Repr, DecidableEq

/-- What `engine::Shared` keeps under its mutex. -/
structure State where
  packets : List AccessUnit := []
  events : List Event := []
  inputs : List Buffer := []
  inputIndices : Finset UInt32 := ∅
  outputIndices : Finset UInt32 := ∅
  /-- includes the unit removed by the worker until the push returns -/
  reservedUnits : Nat := 0
  reservedBytes : Nat := 0
  eosAccepted : Bool := false
  closing : Bool := false
  stats : DecoderStats := {}
deriving DecidableEq

/-- `Shared::new`. -/
def Shared.new (limits : DecoderConfig) : Except DecoderError State :=
  if limits.width ≤ 0 ∨ limits.height ≤ 0
      ∨ limits.maxQueuedUnits = 0 ∨ limits.maxQueuedUnits > 64
      ∨ limits.maxQueuedBytes = 0 ∨ limits.maxQueuedBytes > 64 * 1024 * 1024 then
    .error .invalidConfig
  else .ok {}

namespace State

/-- A unit that is not of its kind's form. -/
def invalid (unit : AccessUnit) : Bool :=
  match unit.kind with
  | .endOfStream => !unit.bytes.isEmpty
  | _ => unit.bytes.isEmpty || decide (unit.bytes.length > 2 ^ 31 - 1)

/-- Why `submit` rejects a unit, if it does. -/
def rejection (limits : DecoderConfig) (s : State) (unit : AccessUnit) : Option DecoderError :=
  if s.closing ∨ s.stats.closed then some .closed
  else match s.stats.failure with
  | some error => some error
  | none =>
    if s.eosAccepted then some .endOfStreamAlreadySubmitted
    else if invalid unit then some .invalidAccessUnit
    else if unit.bytes.length > limits.maxQueuedBytes then
      some (.accessUnitExceedsQueueLimit unit.bytes.length limits.maxQueuedBytes)
    else if s.reservedUnits ≥ limits.maxQueuedUnits
        ∨ unit.bytes.length > limits.maxQueuedBytes - s.reservedBytes then
      some .backpressure
    else none

/-- `Shared::submit`. -/
def submit (limits : DecoderConfig) (s : State) (unit : AccessUnit) :
    State × Except RejectedSubmission Unit :=
  match s.rejection limits unit with
  | some reason => (s, .error { reason, unit })
  | none =>
    ({ s with
      eosAccepted := unit.kind = .endOfStream
      reservedUnits := s.reservedUnits + 1
      reservedBytes := s.reservedBytes + unit.bytes.length
      stats := { s.stats with acceptedUnits := s.stats.acceptedUnits + 1 }
      packets := s.packets ++ [unit] }, .ok ())

/-- The index of a posted buffer is put down; `none` if it is there already. -/
def insertIndex (s : State) : Event → Option State
  | .input b =>
    if b.index ∈ s.inputIndices then none
    else some { s with inputIndices := insert b.index s.inputIndices }
  | .output b =>
    if b.index ∈ s.outputIndices then none
    else some { s with outputIndices := insert b.index s.outputIndices }
  | .streamChanged => some s

/-- `Shared::post`, and whether the event was queued. -/
def post (s : State) (event : Event) : State × Bool :=
  if s.closing ∨ s.stats.closed ∨ s.stats.failure.isSome then (s, false)
  else if s.events.length ≥ maxCallbacks
      ∨ s.inputIndices.card + s.outputIndices.card ≥ maxCallbacks then
    ({ s with stats := { s.stats with failure := some .callbackOverflow } }, false)
  else match s.insertIndex event with
  | none => ({ s with stats := { s.stats with failure := some .duplicateBufferIndex } }, false)
  | some s => ({ s with events := s.events ++ [event] }, true)

/-- `Shared::fail`: the first failure is kept. -/
def fail (s : State) (error : DecoderError) : State :=
  { s with stats := { s.stats with failure := s.stats.failure <|> some error } }

/-- `Shared::next`; `none` while the worker waits. -/
def next (s : State) : Option (State × Action) :=
  if s.closing ∨ s.stats.failure.isSome then some (s, .stop)
  else match s.events with
  | event :: events => some ({ s with events }, .event event)
  | [] =>
    match s.inputs, s.packets with
    | buffer :: inputs, unit :: packets => some ({ s with inputs, packets }, .submit buffer unit)
    | _, _ => none

/-- An input buffer waits for a unit. -/
def inputAvailable (s : State) (buffer : Buffer) : State :=
  { s with inputs := s.inputs ++ [buffer] }

/-- An index is given up before the SDK is called, as the call may recycle it. -/
def returningInput (s : State) (index : UInt32) : State :=
  { s with inputIndices := s.inputIndices.erase index }

/-- An output buffer is on its way back to the native decoder. -/
def returningOutput (s : State) (index : UInt32) : State :=
  { s with outputIndices := s.outputIndices.erase index }

/-- `Shared::submitted`; `none` is an underflow of one of the two counters. -/
def submitted (s : State) (bytes : Nat) (success : Bool) : Option State :=
  if 1 ≤ s.reservedUnits ∧ bytes ≤ s.reservedBytes then
    some { s with
      reservedUnits := s.reservedUnits - 1
      reservedBytes := s.reservedBytes - bytes
      stats :=
        if success then { s.stats with pushedUnits := s.stats.pushedUnits + 1 }
        else { s.stats with cancelledUnits := s.stats.cancelledUnits + 1 } }
  else none

/-- `Shared::output`. -/
def output (s : State) (frame eos : Bool) : State :=
  { s with
    stats :=
      let stats :=
        if frame then { s.stats with renderSubmissions := s.stats.renderSubmissions + 1 }
        else { s.stats with nonFrameOutputs := s.stats.nonFrameOutputs + 1 }
      { stats with endOfStreamOutput := eos || stats.endOfStreamOutput }
    closing := eos || s.closing }

/-- The native decoder has told of another format. -/
def streamChanged (s : State) : State :=
  { s with
    stats := { s.stats with formatChangeNotifications := s.stats.formatChangeNotifications + 1 } }

def requestClose (s : State) : State := { s with closing := true }

/-- `Shared::quarantine`. -/
def quarantine (s : State) : State :=
  { s with
    stats := { s.stats with
      quarantined := true
      cancelledUnits := s.stats.cancelledUnits + s.reservedUnits }
    closing := true
    reservedUnits := 0
    reservedBytes := 0
    packets := []
    events := []
    inputs := []
    inputIndices := ∅
    outputIndices := ∅ }

/-- `Shared::closed`. -/
def closed (s : State) : State :=
  { s with
    closing := true
    stats := { s.stats with
      cancelledUnits := s.stats.cancelledUnits + s.packets.length
      closed := true }
    packets := []
    inputs := []
    events := []
    inputIndices := ∅
    outputIndices := ∅
    reservedUnits := 0
    reservedBytes := 0 }

end State

/-! ### What the worker asks the SDK -/

/-- A native call that fails is an error with its code. -/
def check (api : String) (code : Int) : Except DecoderError Unit :=
  if code = 0 then .ok () else .error (.native api code)

/-- The answers of the SDK during `setup`, in the order of the calls. -/
structure SetupAnswers where
  /-- a capability was found, and is of hardware -/
  capability : Bool
  /-- the codec's name; `none` is a null pointer -/
  name : Option Bytes
  createWindow : Int
  window : Bool
  registerCallback : Int
  format : Bool
  lowLatency : Bool
  configure : Int
  setSurface : Int
  prepare : Int
  start : Int

/-- `setup` up to the creation of the codec. -/
def setup.find (sdk : SetupAnswers) : Except DecoderError Bytes := do
  if !sdk.capability then throw .noHardwareDecoder
  let some name := sdk.name | throw (.nativeReturnedNull "OH_AVCapability_GetName")
  if name.isEmpty then throw .noHardwareDecoder
  return name

/-- `setup` after the creation of the codec. -/
def setup.configure (sdk : SetupAnswers) : Except DecoderError Unit := do
  check "OH_NativeWindow_CreateNativeWindowFromSurfaceId" sdk.createWindow
  if !sdk.window then
    throw (.nativeReturnedNull "OH_NativeWindow_CreateNativeWindowFromSurfaceId")
  check "OH_VideoDecoder_RegisterCallback" sdk.registerCallback
  if !sdk.format then throw (.nativeReturnedNull "OH_AVFormat_CreateVideoFormat")
  if !sdk.lowLatency then throw (.native "OH_AVFormat_SetIntValue(low_latency)" (-1))
  check "OH_VideoDecoder_Configure" sdk.configure
  check "OH_VideoDecoder_SetSurface" sdk.setSurface
  check "OH_VideoDecoder_Prepare" sdk.prepare
  check "OH_VideoDecoder_Start" sdk.start

/-- The answers of the SDK about an input buffer. -/
structure InputAnswers where
  capacity : Int
  /-- the buffer's address; 0 is a null pointer -/
  address : Nat
  setBufferAttr : Int

/-- `push` up to the return of the index. -/
def push.prepare (buffer : Buffer) (unit : AccessUnit) (sdk : InputAnswers) :
    Except DecoderError Unit := do
  if buffer.address = 0 then throw .invalidNativeBuffer
  if !unit.bytes.isEmpty then
    if sdk.capacity < 0 ∨ unit.bytes.length > sdk.capacity.toNat then
      throw (.inputTooLarge unit.bytes.length sdk.capacity)
    if sdk.address = 0 then throw .invalidNativeBuffer
  check "OH_AVBuffer_SetBufferAttr" sdk.setBufferAttr

/-- The answers of the SDK about an output buffer. -/
structure OutputAnswers where
  getBufferAttr : Int
  size : Int
  offset : Int
  flags : UInt32

/-- `render` up to the return of the index: is it a frame, is it the end? -/
def render.classify (buffer : Buffer) (sdk : OutputAnswers) : Except DecoderError (Bool × Bool) := do
  if buffer.address = 0 then throw .invalidNativeBuffer
  check "OH_AVBuffer_GetBufferAttr" sdk.getBufferAttr
  if sdk.size < 0 ∨ sdk.offset < 0 then throw .invalidNativeBuffer
  return outputFlags sdk.flags

/-- `render` after the return of the index.  `clock` is the monotonic time. -/
def render.consume (frame : Bool) (clock : Except DecoderError Int) (code : Int) :
    Except DecoderError Unit := do
  if frame then
    let _ ← clock
    check "OH_VideoDecoder_RenderOutputBufferAtTime" code
  else
    check "OH_VideoDecoder_FreeOutputBuffer" code

/-! ### The worker -/

/-- The native decoder. -/
inductive Codec where
  | absent
  | live
  | destroyed
  /-- its destruction failed or is unknown, and its allocation is kept -/
  | retained
deriving Repr, DecidableEq

/-- Where the worker thread is. -/
inductive Worker where
  /-- in `setup`, up to the creation of the codec -/
  | starting
  /-- in `setup`, with a codec -/
  | configuring
  /-- at the top of its loop -/
  | looping
  /-- with an event in hand -/
  | handling (event : Event)
  /-- in `render`, after the return of the index -/
  | rendering (frame eos : Bool)
  /-- with a unit in hand -/
  | pushing (buffer : Buffer) (unit : AccessUnit)
  /-- in `push`, after the return of the index -/
  | pushed (buffer : Buffer) (unit : AccessUnit)
  /-- about to report an error of an action -/
  | failing (error : DecoderError)
  /-- out of the loop, or after a failed setup -/
  | stopping (setup : Option DecoderError)
  /-- in `shutdown`, after the request to close -/
  | destroying (setup : Option DecoderError)
  /-- after `shutdown`: what it returned, and whether that was reported -/
  | tornDown (teardown : Except DecoderError Unit) (reported : Bool)
  /-- after `closed` -/
  | leaving (teardown : Except DecoderError Unit)
  /-- joined: the result of the thread -/
  | ended (result : Except DecoderError DecoderStats)
  | panicked

namespace Worker

/-- The unit the worker has in hand. -/
def inFlight : Worker → Option AccessUnit
  | .pushing _ unit | .pushed _ unit => some unit
  | _ => none

/-- After an action: an error is reported, then the loop goes on. -/
def after : Except DecoderError Unit → Worker
  | .ok () => .looping
  | .error error => .failing error

/-- What `run` makes of the result of `shutdown`: after a failed setup, its own
error if there is one, else the error of the setup. -/
def teardown (setup : Option DecoderError) (result : Except DecoderError Unit) :
    Except DecoderError Unit :=
  match setup, result with
  | some error, .ok () => .error error
  | _, result => result

/-- The worker's `Owner` has the allocation. -/
def ownsAllocation : Worker → Bool
  | .starting | .configuring | .looping | .handling _ | .rendering _ _ | .pushing _ _
  | .pushed _ _ | .failing _ | .stopping _ => true
  | .destroying _ | .tornDown _ _ | .leaving _ | .ended _ | .panicked => false

/-- `shutdown` has returned, and the thread has not. -/
def isShutDown : Worker → Bool
  | .tornDown _ _ | .leaving _ => true
  | _ => false

end Worker

/-- A decoder: its shared state, its worker thread and the native decoder. -/
structure Decoder where
  shared : State
  worker : Worker
  codec : Codec

/-- What is seen of a step. -/
inductive Label where
  /-- of the feeder -/
  | submit (unit : AccessUnit) (result : Except RejectedSubmission Unit)
  /-- of the callbacks -/
  | post (event : Event) (queued : Bool)
  | fail (error : DecoderError)
  | requestClose
  /-- of the worker -/
  | creates
  | starts
  | setupFails (error : DecoderError)
  | next (action : Action)
  | inputAvailable (buffer : Buffer)
  | streamChanged
  | returningInput (index : UInt32)
  | returningOutput (index : UInt32)
  | output (frame eos : Bool)
  | actionFails (error : DecoderError)
  | submitted (unit : AccessUnit) (success : Bool)
  | reports (error : DecoderError)
  | shutdown
  | destroys
  | quarantine (code : Int)
  | closed
  | returns
  | panics

/-- The worker's thread is started with the shared state of `Shared::new`. -/
def Decoder.start (limits : DecoderConfig) : Except DecoderError Decoder := do
  return { shared := ← Shared.new limits, worker := .starting, codec := .absent }

/-- What the worker does with an action. -/
def Worker.take : Action → Worker
  | .stop => .stopping none
  | .event event => .handling event
  | .submit buffer unit => .pushing buffer unit

/-- One critical section of the feeder, of a callback or of the worker. -/
inductive Step (limits : DecoderConfig) : Decoder → Label → Decoder → Prop
  /- the feeder -/
  | submit {d : Decoder} {unit : AccessUnit} :
      Step limits d (.submit unit (d.shared.submit limits unit).2)
        { d with shared := (d.shared.submit limits unit).1 }
  /- the callbacks, and whoever may close -/
  | post {d : Decoder} {event : Event} :
      Step limits d (.post event (d.shared.post event).2)
        { d with shared := (d.shared.post event).1 }
  | fail {d : Decoder} {error : DecoderError} :
      Step limits d (.fail error) { d with shared := d.shared.fail error }
  | requestClose {d : Decoder} :
      Step limits d .requestClose { d with shared := d.shared.requestClose }
  /- the worker: setup -/
  | findFails {d : Decoder} {sdk : SetupAnswers} {error : DecoderError}
      (hworker : d.worker = .starting) (hfind : setup.find sdk = .error error) :
      Step limits d (.setupFails error)
        { d with shared := d.shared.fail error, worker := .stopping (some error) }
  | createFails {d : Decoder} {sdk : SetupAnswers} {name : Bytes}
      (hworker : d.worker = .starting) (hfind : setup.find sdk = .ok name) :
      Step limits d (.setupFails (.nativeReturnedNull "OH_VideoDecoder_CreateByName"))
        { d with
          shared := d.shared.fail (.nativeReturnedNull "OH_VideoDecoder_CreateByName")
          worker := .stopping (some (.nativeReturnedNull "OH_VideoDecoder_CreateByName")) }
  | creates {d : Decoder} {sdk : SetupAnswers} {name : Bytes}
      (hworker : d.worker = .starting) (hfind : setup.find sdk = .ok name) :
      Step limits d .creates { d with worker := .configuring, codec := .live }
  | configureFails {d : Decoder} {sdk : SetupAnswers} {error : DecoderError}
      (hworker : d.worker = .configuring) (hconfigure : setup.configure sdk = .error error) :
      Step limits d (.setupFails error)
        { d with shared := d.shared.fail error, worker := .stopping (some error) }
  | failedMeanwhile {d : Decoder} {sdk : SetupAnswers} {error : DecoderError}
      (hworker : d.worker = .configuring) (hconfigure : setup.configure sdk = .ok ())
      (hfailure : d.shared.stats.failure = some error) :
      Step limits d (.setupFails error)
        { d with shared := d.shared.fail error, worker := .stopping (some error) }
  | starts {d : Decoder} {sdk : SetupAnswers}
      (hworker : d.worker = .configuring) (hconfigure : setup.configure sdk = .ok ())
      (hfailure : d.shared.stats.failure = none) :
      Step limits d .starts { d with worker := .looping }
  /- the worker: its loop -/
  | next {d : Decoder} {shared : State} {action : Action}
      (hworker : d.worker = .looping) (hnext : d.shared.next = some (shared, action)) :
      Step limits d (.next action) { d with shared, worker := .take action }
  | inputAvailable {d : Decoder} {buffer : Buffer}
      (hworker : d.worker = .handling (.input buffer)) :
      Step limits d (.inputAvailable buffer)
        { d with shared := d.shared.inputAvailable buffer, worker := .looping }
  | streamChanged {d : Decoder} (hworker : d.worker = .handling .streamChanged) :
      Step limits d .streamChanged
        { d with shared := d.shared.streamChanged, worker := .looping }
  | classifyFails {d : Decoder} {buffer : Buffer} {sdk : OutputAnswers} {error : DecoderError}
      (hworker : d.worker = .handling (.output buffer))
      (hrender : render.classify buffer sdk = .error error) :
      Step limits d (.actionFails error) { d with worker := .failing error }
  | returningOutput {d : Decoder} {buffer : Buffer} {sdk : OutputAnswers} {frame eos : Bool}
      (hworker : d.worker = .handling (.output buffer))
      (hrender : render.classify buffer sdk = .ok (frame, eos)) :
      Step limits d (.returningOutput buffer.index)
        { d with
          shared := d.shared.returningOutput buffer.index, worker := .rendering frame eos }
  | consumeFails {d : Decoder} {frame eos : Bool} {clock : Except DecoderError Int}
      {code : Int} {error : DecoderError} (hworker : d.worker = .rendering frame eos)
      (hconsume : render.consume frame clock code = .error error) :
      Step limits d (.actionFails error) { d with worker := .failing error }
  | output {d : Decoder} {frame eos : Bool} {clock : Except DecoderError Int} {code : Int}
      (hworker : d.worker = .rendering frame eos)
      (hconsume : render.consume frame clock code = .ok ()) :
      Step limits d (.output frame eos)
        { d with shared := d.shared.output frame eos, worker := .looping }
  | pushRejected {d : Decoder} {buffer : Buffer} {unit : AccessUnit} {sdk : InputAnswers}
      {error : DecoderError} {shared : State} (hworker : d.worker = .pushing buffer unit)
      (hpush : push.prepare buffer unit sdk = .error error)
      (hsubmitted : d.shared.submitted unit.bytes.length false = some shared) :
      Step limits d (.submitted unit false) { d with shared, worker := .failing error }
  | returningInput {d : Decoder} {buffer : Buffer} {unit : AccessUnit} {sdk : InputAnswers}
      (hworker : d.worker = .pushing buffer unit)
      (hpush : push.prepare buffer unit sdk = .ok ()) :
      Step limits d (.returningInput buffer.index)
        { d with
          shared := d.shared.returningInput buffer.index, worker := .pushed buffer unit }
  | submitted {d : Decoder} {buffer : Buffer} {unit : AccessUnit} {code : Int} {shared : State}
      (hworker : d.worker = .pushed buffer unit)
      (hsubmitted : d.shared.submitted unit.bytes.length (code = 0) = some shared) :
      Step limits d (.submitted unit (code = 0))
        { d with shared, worker := .after (check "OH_VideoDecoder_PushInputBuffer" code) }
  | reportsAction {d : Decoder} {error : DecoderError} (hworker : d.worker = .failing error) :
      Step limits d (.reports error) { d with shared := d.shared.fail error, worker := .looping }
  /- the worker: teardown -/
  | shutdown {d : Decoder} {setup : Option DecoderError}
      (hworker : d.worker = .stopping setup) :
      Step limits d .shutdown
        { d with shared := d.shared.requestClose, worker := .destroying setup }
  | noCodec {d : Decoder} {setup : Option DecoderError}
      (hworker : d.worker = .destroying setup) (hcodec : d.codec = .absent) :
      Step limits d .destroys { d with worker := .tornDown (Worker.teardown setup (.ok ())) false }
  | destroys {d : Decoder} {setup : Option DecoderError} {stop : Int}
      (hworker : d.worker = .destroying setup) (hcodec : d.codec = .live) :
      -- `stop` is 0 if the codec was never started
      Step limits d .destroys
        { d with
          worker := .tornDown (Worker.teardown setup (check "OH_VideoDecoder_Stop" stop)) false
          codec := .destroyed }
  | quarantine {d : Decoder} {setup : Option DecoderError} {code : Int}
      (hworker : d.worker = .destroying setup) (hcodec : d.codec = .live) (hcode : code ≠ 0) :
      Step limits d (.quarantine code)
        { shared := d.shared.quarantine
          worker := .tornDown (.error (.destroyFailed code)) false, codec := .retained }
  | reportsTeardown {d : Decoder} {error : DecoderError}
      (hworker : d.worker = .tornDown (.error error) false) :
      Step limits d (.reports error)
        { d with shared := d.shared.fail error, worker := .tornDown (.error error) true }
  | closed {d : Decoder} {teardown : Except DecoderError Unit} {reported : Bool}
      (hworker : d.worker = .tornDown teardown reported)
      (hreported : reported = true ∨ teardown = .ok ()) :
      Step limits d .closed { d with shared := d.shared.closed, worker := .leaving teardown }
  | returns {d : Decoder} {teardown : Except DecoderError Unit}
      (hworker : d.worker = .leaving teardown) :
      Step limits d .returns
        { d with
          worker := .ended (do
            teardown
            match d.shared.stats.failure with
            | some error => throw error
            | none => return d.shared.stats) }
  /- a panic drops the `Owner`, which keeps the allocation -/
  | panics {d : Decoder} (howner : d.worker.ownsAllocation = true) :
      Step limits d .panics
        { shared := d.shared.quarantine, worker := .panicked
          codec := if d.codec = .live then .retained else d.codec }
  /- after `shutdown` there is no allocation left to keep -/
  | panicsLate {d : Decoder} (hshutdown : d.worker.isShutDown = true) :
      Step limits d .panics { d with worker := .panicked }

end OhosDecoder

end RdEngine
