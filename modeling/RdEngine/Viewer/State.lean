/-
RdEngine/Viewer/State.lean

The viewer engine of `viewer.rs`: what its tasks and its callers share, and the
accesses they make to it.

Every access is one atomic operation of the source: an atomic's load or store, a
critical section, one poll or one `try_send` of a channel, one step of the
connection or of the platform's decoder.  `allowed` says which answers it can
give, `effect` what it does with its answer.  What only a snapshot reports (phases, counters, the codec) is left
out.
-/
import RdEngine.Lib.Threads
import RdEngine.Session

namespace RdEngine

namespace Viewer

/-! ### Limits and local policy -/

def videoRecords : Nat := 2

def videoBytes : Nat := 32 * 1024 * 1024

def maxUnitsPerRecord : Nat := 256

/-- Capacity of the control queue and of the mouse queue. -/
def commands : Nat := 128

/-- What this build of the viewer allows. -/
def localMouseEnabled : Bool := true

/-- Keys go with the mouse. -/
def localKeyboardEnabled : Bool := localMouseEnabled

def localClipboardEnabled : Bool := true

def maxClipboardText : Nat := 1024 * 1024

/-- The longest text that is taken from the peer. -/
def maxInboundClipboardText : Nat := 4 * 1024 * 1024

/-- The texts that may wait for the frontend. -/
def clipboardQueue : Nat := 4

/-! ### Values -/

inductive ViewerImageQuality where
  | low | balanced | best
  | custom (value : Int)
  deriving DecidableEq, Repr

namespace ViewerImageQuality

/-- The preset of a quality; a custom one goes with the balanced preset. -/
def protoQuality : ViewerImageQuality → ImageQuality
  | .low => .low
  | .balanced => .balanced
  | .best => .best
  | .custom _ => .balanced

/-- The number of a custom quality, within its bounds. -/
def customQuality : ViewerImageQuality → Option Int
  | .custom value => if 10 ≤ value ∧ value ≤ 2000 then some value else none
  | _ => none

end ViewerImageQuality

/-- A key: a character, or one of the keys without. -/
inductive ViewerKey where
  | character (code : Nat)
  | control (key : ControlKey)
  deriving DecidableEq, Repr

inductive DecoderError where
  | closed
  | workerPanicked
  | destroyFailed (code : Int)
  | other (text : String)
  deriving DecidableEq, Repr

inductive ViewerError where
  | invalidOptions | connectFailed | authenticationFailed | transportFailed | remoteClosed
  | invalidPeerGeometry | unsupportedCodec | invalidVideoRecord | videoRecordTooLarge
  | timestampOverflow | inputNotAllowed | invalidMouse | notAuthenticated | backpressure
  | closed | unsupportedPlatform | noHardwareCodec
  | decoder (error : DecoderError)
  deriving DecidableEq, Repr

/-- `Geometry`: the display that is shown, and its place. -/
structure Geometry where
  display : Int
  x : Int
  y : Int
  width : Int
  height : Int
  deriving DecidableEq, Repr

inductive VideoCodec where
  | h264 | h265
  deriving DecidableEq, Repr

/-- The codecs the platform can decode. -/
structure Decoders where
  h264 : Bool
  h265 : Bool
  deriving DecidableEq, Repr

/-- One record on its way to the decoder; `bytes` is the part of the byte budget
it holds. -/
structure VideoRecord where
  codec : VideoCodec
  geometry : Geometry
  frames : List EncodedVideoFrame
  bytes : Nat
  deriving DecidableEq, Repr

/-- What the user answers during the login. -/
inductive AuthCommand where
  | password (password : Bytes)
  | secondFactor (code : Bytes)
  | continueInsecure (allow : Bool)
  deriving DecidableEq, Repr

/-- What the engine takes over from an authenticated session. -/
structure Context where
  peerInfo : Option PeerInfo
  keyboard : Bool
  clipboard : Bool
  deriving DecidableEq, Repr

/-- The peer's permissions the engine keeps. -/
inductive Remote where
  | keyboard | clipboard
  deriving DecidableEq, Repr

/-! ### Shared state -/

/-- The engine's tasks, and the threads that call the viewer. -/
inductive Task where
  | run | receive | write | feed
  | caller (n : Nat)
  deriving DecidableEq, Repr

/-- The two queues of messages. -/
inductive Queue where
  | control | mouse
  deriving DecidableEq, Repr

/-- A queued message, with who queued it and how many were queued before it. -/
structure Envelope where
  sender : Task
  queue : Queue
  number : Nat
  message : Message
  deriving DecidableEq, Repr

/-- The state the source shares between tasks, its channels, the feeder's
`contract` and the set of spawned tasks.  The last four fields are history variables: how many messages were
queued, those taken from a queue that were written, all messages written, and
the geometry that `run` or the receive task set last. -/
structure State where
  geometry : Option Geometry
  clipboard : List String
  cancelled : Bool
  authenticated : Bool
  remoteKeyboard : Bool
  remoteClipboard : Bool
  requestedFps : Nat
  imageQuality : ViewerImageQuality
  control : Bool
  controlQueue : List Envelope
  mouseQueue : List Envelope
  queuesOpen : Bool
  slots : Nat
  bytes : Nat
  video : List VideoRecord
  videoOpen : Bool
  contract : Option (VideoCodec × Geometry)
  spawned : Option (Decoders × Geometry)
  running : Nat
  ended : List (Except ViewerError Unit)
  accepted : Nat
  written : List Envelope
  wire : List Message
  authoritative : Option Geometry

namespace State

/-- What the peer has reported of a permission. -/
def remote (s : State) : Remote → Bool
  | .keyboard => s.remoteKeyboard
  | .clipboard => s.remoteClipboard

def setRemote (s : State) (value : Bool) : Remote → State
  | .keyboard => { s with remoteKeyboard := value }
  | .clipboard => { s with remoteClipboard := value }

def queue (s : State) : Queue → List Envelope
  | .control => s.controlQueue
  | .mouse => s.mouseQueue

/-- The state with other messages in a queue. -/
def setQueue (s : State) (envelopes : List Envelope) : Queue → State
  | .control => { s with controlQueue := envelopes }
  | .mouse => { s with mouseQueue := envelopes }

/-- `State::geometry`; the feeder's own calls leave the history alone. -/
def setGeometry (s : State) (task : Task) (geometry : Geometry) : State :=
  { s with
    geometry := some geometry
    authoritative := if task = .feed then s.authoritative else some geometry }

/-- The oldest text gives way once the queue is full. -/
def storeClipboard (s : State) (text : String) : State :=
  let kept := if s.clipboard.length ≥ clipboardQueue then s.clipboard.drop 1 else s.clipboard
  { s with clipboard := kept ++ [text] }

/-- A message is queued, and numbered. -/
def push (s : State) (task : Task) (queue : Queue) (message : Message) : State :=
  { s.setQueue (s.queue queue ++ [⟨task, queue, s.accepted, message⟩]) queue with
    accepted := s.accepted + 1 }

end State

/-! ### Accesses -/

/-- Why a queue does not take a message. -/
inductive TrySendError where
  | full | closed
  deriving DecidableEq, Repr

/-- One poll of a channel. -/
inductive Received (α : Type) where
  | message (value : α)
  | empty
  | closed

/-- What the receive task's `select!` ends with. -/
inductive Arrival where
  | message (message : Message)
  | ended | failed | cancelled

/-- What the feeder's `select!` ends with. -/
inductive VideoArrival where
  | record (record : VideoRecord)
  | stopped (error : DecoderError)
  | closed | cancelled

/-- What becomes of a video record that is handed on. -/
inductive VideoSent where
  | sent | closed | cancelled

/-- How the login request goes out, with the challenge's response in it. -/
inductive LoginSent where
  | sent (response : Bytes)
  | failed | dropped

/-- An access to what the tasks share, to the session or to the decoder. -/
inductive Access where
  | authenticated
  | setAuthenticated (value : Bool)
  | isCancelled
  | cancel
  | remote (kind : Remote)
  | setRemote (kind : Remote) (value : Bool)
  | geometry
  | setGeometry (geometry : Geometry)
  | setRequestedFps (fps : Nat)
  | setImageQuality (quality : ViewerImageQuality)
  | storeClipboard (text : String)
  | control
  | setControl (published : Bool)
  | trySend (queue : Queue) (message : Message)
  | recv (queue : Queue)
  | closeQueues
  | acquireSlot
  | acquireBytes (count : Nat)
  | release (count : Nat)
  | sendVideo (record : VideoRecord)
  | recvVideo
  | closeVideo
  | contract
  | setContract (contract : VideoCodec × Geometry)
  -- the connection
  | connect
  | sessionRecv
  | login (request : LoginRequest) (password : Option Bytes)
  | sendSecondFactor (code : String)
  | intoParts
  | incoming
  | send (envelope : Envelope)
  -- the user and the platform
  | capabilities
  | randomSessionId
  | selectCommand
  | recvCommand
  | openDecoder (codec : VideoCodec) (width height : Int)
  | closeDecoder
  | submit (frame : EncodedVideoFrame)
  -- tasks
  | spawn (decoders : Decoders) (source : Geometry)
  | exit (result : Except ViewerError Unit)
  | awaitFirst
  | joinNext

/-- What an access answers. -/
@[reducible]
def Access.Answer : Access → Type
  | .authenticated | .isCancelled | .remote _ | .control | .acquireSlot | .acquireBytes _
  | .selectCommand => Bool
  | .geometry => Option Geometry
  | .trySend _ _ => Except TrySendError Unit
  | .recv _ => Received Envelope
  | .sendVideo _ => VideoSent
  | .recvVideo => VideoArrival
  | .contract => Option (VideoCodec × Geometry)
  | .connect => Except ViewerError Unit
  | .sessionRecv => Except ViewerError ViewerEvent
  | .login _ _ => LoginSent
  | .sendSecondFactor _ | .send _ => SendAnswer
  | .intoParts => Except ViewerError Context
  | .incoming => Arrival
  | .capabilities => Except ViewerError Decoders
  | .randomSessionId => Nat
  | .recvCommand => Received AuthCommand
  | .openDecoder _ _ _ | .closeDecoder => Except DecoderError Unit
  | .submit _ => Except DecoderError Unit
  | .awaitFirst | .joinNext => Option (Except ViewerError Unit)
  | .setAuthenticated _ | .cancel | .setRemote _ _ | .setGeometry _ | .setRequestedFps _
  | .setImageQuality _ | .storeClipboard _ | .setControl _ | .closeQueues | .release _
  | .closeVideo | .setContract _ | .spawn _ _ | .exit _ => Unit

def isLogin (message : Message) : Bool :=
  match message.union with
  | some (.loginRequest _) => true
  | _ => false

/-- Which answers an access can give in a state.  What the connection, the
platform, the user or the peer decides is left open; a biased `select!` answers
`cancelled` exactly when the token is cancelled. -/
def allowed (s : State) : (a : Access) → a.Answer → Prop
  | .authenticated, answer => answer = s.authenticated
  | .isCancelled, answer => answer = s.cancelled
  | .remote kind, answer => answer = s.remote kind
  | .geometry, answer => answer = s.geometry
  | .control, answer => answer = s.control
  | .contract, answer => answer = s.contract
  | .trySend queue _, .ok () => s.queuesOpen = true ∧ (s.queue queue).length < commands
  | .trySend queue _, .error .full => s.queuesOpen = true ∧ commands ≤ (s.queue queue).length
  | .trySend _ _, .error .closed => s.queuesOpen = false
  | .recv queue, .message envelope => (s.queue queue).head? = some envelope
  -- a channel is closed once its last sender is dropped, which the owner decides
  | .recv queue, .empty => s.queue queue = []
  | .recv queue, .closed => s.queue queue = []
  | .acquireSlot, true => s.cancelled = false ∧ 0 < s.slots
  | .acquireSlot, false => s.cancelled = true
  | .acquireBytes count, true => s.cancelled = false ∧ count ≤ s.bytes
  | .acquireBytes _, false => s.cancelled = true
  | .sendVideo _, .sent =>
    s.cancelled = false ∧ s.videoOpen = true ∧ s.video.length < videoRecords
  | .sendVideo _, .closed => s.cancelled = false ∧ s.videoOpen = false
  | .sendVideo _, .cancelled => s.cancelled = true
  | .recvVideo, .record record => s.cancelled = false ∧ s.video.head? = some record
  | .recvVideo, .stopped _ => s.cancelled = false ∧ s.contract.isSome = true
  | .recvVideo, .closed => s.cancelled = false ∧ s.video = []
  | .recvVideo, .cancelled => s.cancelled = true
  | .incoming, .cancelled => s.cancelled = true
  | .incoming, _ => s.cancelled = false
  | .login _ _, .dropped => s.cancelled = true
  | .sendSecondFactor _, .dropped => s.cancelled = true
  | .send _, .dropped => s.cancelled = true
  -- a session has no parts to give before its login request is out
  | .intoParts, .ok _ => s.wire.any isLogin = true
  | .awaitFirst, none => s.cancelled = true
  | .awaitFirst, some result => s.cancelled = false ∧ s.ended.head? = some result
  | .joinNext, none => s.running = 0 ∧ s.ended = []
  | .joinNext, some result => s.ended.head? = some result
  | _, _ => True

/-- What an access by a task does to the state, given its answer. -/
def effect (task : Task) (s : State) : (a : Access) → a.Answer → State
  | .setAuthenticated value, _ => { s with authenticated := value }
  | .cancel, _ => { s with cancelled := true }
  | .setRemote kind value, _ => s.setRemote value kind
  | .setGeometry geometry, _ => s.setGeometry task geometry
  | .setRequestedFps fps, _ => { s with requestedFps := fps }
  | .setImageQuality quality, _ => { s with imageQuality := quality }
  | .storeClipboard text, _ => s.storeClipboard text
  | .setControl published, _ => { s with control := published }
  | .trySend queue message, .ok () => s.push task queue message
  | .recv queue, .message _ => s.setQueue (s.queue queue).tail queue
  | .closeQueues, _ => { s with queuesOpen := false, controlQueue := [], mouseQueue := [] }
  | .acquireSlot, true => { s with slots := s.slots - 1 }
  | .acquireBytes count, true => { s with bytes := s.bytes - count }
  | .release count, _ => { s with slots := s.slots + 1, bytes := s.bytes + count }
  | .sendVideo record, .sent => { s with video := s.video ++ [record] }
  | .recvVideo, .record _ => { s with video := s.video.tail }
  | .closeVideo, _ => { s with videoOpen := false, video := [] }
  | .setContract contract, _ => { s with contract := some contract }
  | .login request _, .sent response =>
    { s with wire := s.wire ++ [.of (.loginRequest { request with password := response })] }
  | .sendSecondFactor code, .sent =>
    { s with wire := s.wire ++ [.of (.auth2fa { code := code })] }
  | .send envelope, .sent =>
    { s with written := s.written ++ [envelope], wire := s.wire ++ [envelope.message] }
  | .spawn decoders source, _ => { s with spawned := some (decoders, source), running := 3 }
  | .exit result, _ => { s with running := s.running - 1, ended := s.ended ++ [result] }
  | .awaitFirst, some _ => { s with ended := s.ended.tail }
  | .joinNext, some _ => { s with ended := s.ended.tail }
  | _, _ => s

/-- One access of a task, with the answer it gets. -/
def perform (task : Task) (s : State) (a : Access) (answer : a.Answer) (s' : State) : Prop :=
  allowed s a answer ∧ s' = effect task s a answer

/-! ### What an access changes -/

section Changes

variable (task : Task) (s : State) (a : Access) (answer : a.Answer)

theorem queue_push (queue other : Queue) (message : Message) :
    (s.push task queue message).queue other
      = if other = queue then s.queue queue ++ [⟨task, queue, s.accepted, message⟩]
        else s.queue other := by
  cases queue <;> cases other <;> rfl

theorem queue_setQueue (envelopes : List Envelope) (queue other : Queue) :
    (s.setQueue envelopes queue).queue other
      = if other = queue then envelopes else s.queue other := by
  cases queue <;> cases other <;> rfl

/-- A queue is left alone, dropped, pushed to at its end or popped at its
front. -/
theorem queue_effect (queue : Queue) :
    (effect task s a answer).queue queue = s.queue queue ∨
    (effect task s a answer).queue queue = [] ∨
    (∃ message, (⟨a, answer⟩ : Σ a : Access, a.Answer) = ⟨.trySend queue message, .ok ()⟩ ∧
      (effect task s a answer).queue queue
        = s.queue queue ++ [⟨task, queue, s.accepted, message⟩]) ∨
    ∃ e, (⟨a, answer⟩ : Σ a : Access, a.Answer) = ⟨.recv queue, .message e⟩ ∧
      (effect task s a answer).queue queue = (s.queue queue).tail := by
  cases a with
  | trySend q message =>
    match answer with
    | .ok () =>
      by_cases hq : queue = q
      · subst hq
        exact .inr (.inr (.inl ⟨message, rfl, (queue_push ..).trans (if_pos rfl)⟩))
      · exact .inl ((queue_push ..).trans (if_neg hq))
    | .error _ => exact .inl rfl
  | recv q =>
    match answer with
    | .message e =>
      by_cases hq : queue = q
      · subst hq
        exact .inr (.inr (.inr ⟨e, rfl, (queue_setQueue ..).trans (if_pos rfl)⟩))
      · exact .inl ((queue_setQueue ..).trans (if_neg hq))
    | .empty | .closed => exact .inl rfl
  | closeQueues => exact .inr (.inl (by cases queue <;> rfl))
  | setRemote kind value => exact .inl (by cases queue <;> cases kind <;> rfl)
  | acquireSlot | acquireBytes | sendVideo | recvVideo | login | sendSecondFactor | send
  | awaitFirst | joinNext =>
    cases answer <;> exact .inl (by cases queue <;> rfl)
  | _ => exact .inl (by cases queue <;> rfl)

/-- Queueing a message, taking one, writing one, dropping the queues. -/
inductive Traffic : (a : Access) → a.Answer → Prop
  | push (queue : Queue) (message : Message) : Traffic (.trySend queue message) (.ok ())
  | take (queue : Queue) (e : Envelope) : Traffic (.recv queue) (.message e)
  | write (e : Envelope) : Traffic (.send e) .sent
  | close : Traffic .closeQueues ()

/-- The messages of two states are the same: queued, accepted and written. -/
structure SameTraffic (s s' : State) : Prop where
  queue : ∀ queue, s'.queue queue = s.queue queue
  queuesOpen : s'.queuesOpen = s.queuesOpen
  accepted : s'.accepted = s.accepted
  written : s'.written = s.written

/-- Every other access leaves the messages alone. -/
theorem sameTraffic_effect (h : ¬ Traffic a answer) : SameTraffic s (effect task s a answer) := by
  cases a with
  | trySend queue message =>
    match answer, h with
    | .ok (), h => exact absurd (Traffic.push queue message) h
    | .error _, _ => exact ⟨fun _ => rfl, rfl, rfl, rfl⟩
  | recv queue =>
    match answer, h with
    | .message e, h => exact absurd (Traffic.take queue e) h
    | .empty, _ | .closed, _ => exact ⟨fun _ => rfl, rfl, rfl, rfl⟩
  | send e =>
    match answer, h with
    | .sent, h => exact absurd (Traffic.write e) h
    | .failed, _ | .dropped, _ => exact ⟨fun _ => rfl, rfl, rfl, rfl⟩
  | closeQueues => exact absurd Traffic.close h
  | setRemote kind value =>
    cases kind <;> exact ⟨fun queue => (by cases queue <;> rfl), rfl, rfl, rfl⟩
  | acquireSlot | acquireBytes | sendVideo | recvVideo | login | sendSecondFactor
  | awaitFirst | joinNext =>
    cases answer <;> exact ⟨fun queue => (by cases queue <;> rfl), rfl, rfl, rfl⟩
  | _ => exact ⟨fun queue => (by cases queue <;> rfl), rfl, rfl, rfl⟩

end Changes

end Viewer

end RdEngine
