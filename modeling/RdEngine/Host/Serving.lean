/-
RdEngine/Host/Serving.lean

The host that serves the peers it has authenticated (`host.rs`: `Host::start`,
`serve`, `peer`, `publish`, `close`).

A peer is served by two tasks.  The reader (`read_peer`) hears it, and hands what is
to be answered to the sender through a queue of sixteen.  The sender (`publish`) opens
the publisher, that is the screen capture, and writes answers and pictures.  `peer`
waits for the first of the two, cancels the other, and waits for that one too; only
then the next connection is accepted.

What is left of a capture is known from the answers of its publisher alone (`Capture`),
and a doubt about it is one flag, `unreclaimed`.  The connections up to their login are
`HostStep`; a step of this machine is one of those, or leaves their state alone
(`Label.host?`).  The snapshot is shared with the operator: where a change of it follows
another access to the shared state, it is still due, and made by a step of its own.
-/
import RdEngine.Host.Approval
import RdEngine.Host.Video

namespace RdEngine

namespace Host

/-! ### The encoders -/

/-- Which codecs the operator allows. -/
inductive CodecSelection where
  | auto | h264 | h265
  deriving DecidableEq, Repr

/-- `encoders`, given what the probe of the platform answers. -/
def encoders (selection : CodecSelection) (supported : Option Encoders) :
    Except HostError Encoders :=
  match supported with
  | none => .error .noHardwareCodec
  | some supported =>
    let codecs : Encoders := match selection with
      | .auto => supported
      | .h264 => { supported with h265 := false }
      | .h265 => { supported with h264 := false }
    if !codecs.h264 && !codecs.h265 then .error .noHardwareCodec else .ok codecs

/-- The rate of a session: what the viewer asked for, within the operator's. -/
def sessionFps (fps : Nat) (options : Option OptionMessage) : Nat :=
  let requested := (options.map (·.customFps)).getD 0
  if requested > 0 then min fps requested.toNat else fps

/-- The codec, as the snapshot shows it. -/
def Codec.text : Codec → String
  | .h264 => "H264"
  | .h265 => "H265"

/-! ### The snapshot -/

/-- `HostSnapshot`.  Its counters are `u64` in the source; they are numbers here, for no host
sends 2^64 bytes or hears as many messages. -/
structure HostSnapshot where
  phase : String
  error : Option HostError := none
  approvalRequest : String := ""
  approvalOrigin : String := ""
  width : Int
  height : Int
  fps : Nat
  codec : String := ""
  connected : Bool := false
  encrypted : Bool := false
  sentUnits : Nat := 0
  sentBytes : Nat := 0
  injectedInputs : Nat := 0
  refusedInputs : Nat := 0
  droppedChatMessages : Nat := 0
  closed : Bool := false
  deriving DecidableEq, Repr

/-- The text of a token. -/
def requestText (epoch : Nat) : String := .ofList (Nat.toDigits 10 epoch)

/-- A change of the snapshot by the serving task. -/
inductive Update where
  | listening
  | authenticating
  | awaiting (epoch : Nat) (origin : String)
  /-- the second half of `clear_request` -/
  | cleared
  | failed (error : HostError)
  | connected (codec : Codec) (fps : Nat) (encrypted : Bool)
  | ended (error : Option HostError) (safe : Bool)
  deriving DecidableEq, Repr

def HostSnapshot.update (s : HostSnapshot) : Update → HostSnapshot
  | .listening => { s with phase := "listening", connected := false, encrypted := false }
  | .authenticating =>
    { s with phase := "authenticating", error := none, sentUnits := 0, sentBytes := 0 }
  | .awaiting epoch origin =>
    { s with
      phase := "awaiting_approval"
      approvalRequest := requestText epoch
      approvalOrigin := origin }
  | .cleared => { s with approvalRequest := "", approvalOrigin := "" }
  | .failed error => { s with error := some error }
  | .connected codec fps encrypted =>
    { s with
      phase := "awaiting_capture_consent"
      connected := true
      fps := fps
      encrypted := encrypted
      codec := codec.text }
  | .ended error safe =>
    { s with
      error := error <|> s.error
      connected := false
      encrypted := false
      closed := safe
      phase := if safe then "closed" else "reclamation_unconfirmed" }

/-- What a turn of the reader counts. -/
def HostSnapshot.count (s : HostSnapshot) (before after : ReaderState) : HostSnapshot :=
  { s with
    injectedInputs := s.injectedInputs + (after.injectedInputs - before.injectedInputs)
    refusedInputs := s.refusedInputs + (after.refusedInputs - before.refusedInputs)
    droppedChatMessages :=
      s.droppedChatMessages + (after.droppedChatMessages - before.droppedChatMessages) }

/-- A message is written, with its unit. -/
def HostSnapshot.sent (s : HostSnapshot) : Option EncodedUnit → HostSnapshot
  | none => s
  | some unit =>
    { s with
      phase := "streaming"
      sentUnits := s.sentUnits + 1
      sentBytes := s.sentBytes + unit.data.length }

/-! ### A session -/

/-- What the platform holds of the screen for a session, by its publisher's own word. -/
inductive Capture where
  | unopened
  | opening | live | closing
  /-- `open` failed and left nothing -/
  | refused
  /-- `close` confirmed it -/
  | reclaimed
  | unconfirmed
  deriving DecidableEq, Repr

/-- Nothing is held. -/
def Capture.isGone : Capture → Bool
  | .unopened | .refused | .reclaimed => true
  | .opening | .live | .closing | .unconfirmed => false

/-- The task of `publish`. -/
inductive Sender where
  | created | opening | looping
  | sending (message : Message) (unit : Option EncodedUnit)
  /-- out of the loop, in `publisher.close()` -/
  | closing (result : Except HostError Unit)
  | returned (result : Except HostError Unit)
  | panicked

/-- The task has returned, or panicked. -/
def Sender.isOver : Sender → Bool
  | .returned _ | .panicked => true
  | _ => false

/-- The room of the queue between the two tasks. -/
def maxControls : Nat := 16

/-- A peer that is served: its two tasks and what they have done. -/
structure PeerSession where
  codec : Codec
  reader : Reader
  /-- what the reader has met, in its own turns -/
  inputs : List ReaderInput := []
  readerPanicked : Bool := false
  /-- the controls the sender has taken -/
  taken : Nat := 0
  sender : Sender := .created
  capture : Capture := .unopened
  /-- the units the publisher has handed out -/
  units : List EncodedUnit := []
  written : List Message := []
  /-- the token of the session, apart from the host's -/
  cancelled : Bool := false

namespace PeerSession

/-- What the reader has counted and queued. -/
def heard (p : PeerSession) : ReaderState := (p.reader.readPeer {} p.inputs).1

/-- What the reader returns, once it does. -/
def readerResult (p : PeerSession) : Option (Except HostError Unit) :=
  (p.reader.readPeer {} p.inputs).2

/-- The reader has returned, or panicked. -/
def readerIsOver (p : PeerSession) : Bool := p.readerPanicked || p.readerResult.isSome

/-- The controls on their way. -/
def queue (p : PeerSession) : List Control := p.heard.controls.drop p.taken

/-- The queue takes one more, and somebody takes out of it. -/
def room (p : PeerSession) : Bool := decide (p.queue.length < maxControls) && !p.sender.isOver

/-- What `peer` returns once both tasks are over. -/
def outcome (p : PeerSession) (cancelled : Bool) : Except HostError Unit :=
  match p.sender with
  | .returned sent =>
    if sent = .error .reclamationUnconfirmed then sent
    else if cancelled then .ok ()
    else match sent with
    | .error error => .error error
    | .ok () => if p.readerPanicked then .error .transportFailed else p.readerResult.getD (.ok ())
  | _ => .error .reclamationUnconfirmed

/-- What a step of the two tasks shows. -/
inductive Label where
  | reads (input : ReaderInput)
  | opens
  | yields (unit : EncodedUnit)
  | writes (message : Message) (unit : Option EncodedUnit)
  /-- what is left of the capture is in doubt -/
  | doubts
  | panics
  | silent

/-- The steps of the two tasks; `stopped` says whether the host is to close. -/
inductive Step (stopped : Bool) : PeerSession → Label → PeerSession → Prop
  /- the reader -/
  | reads {p : PeerSession} {input : ReaderInput} (hreader : p.readerIsOver = false)
      (hcancelled : input = .cancelled → (stopped || p.cancelled) = true)
      (hroom : ∀ message room, input = .received message room → room = p.room) :
      Step stopped p (.reads input) { p with inputs := p.inputs ++ [input] }
  | readerPanics {p : PeerSession} (hreader : p.readerIsOver = false) :
      Step stopped p .panics { p with readerPanicked := true }
  /- the sender, up to its loop -/
  | skips {p : PeerSession} (hsender : p.sender = .created)
      (hcancelled : (stopped || p.cancelled) = true) :
      Step stopped p .silent { p with sender := .returned (.ok ()) }
  | opens {p : PeerSession} (hsender : p.sender = .created)
      (hcancelled : (stopped || p.cancelled) = false) :
      Step stopped p .opens { p with sender := .opening, capture := .opening }
  | openRefused {p : PeerSession} (hsender : p.sender = .opening) :
      Step stopped p .silent
        { p with sender := .returned (.error .captureFailed), capture := .refused }
  | openUnconfirmed {p : PeerSession} (hsender : p.sender = .opening) :
      Step stopped p .doubts
        { p with sender := .returned (.error .reclamationUnconfirmed), capture := .unconfirmed }
  | opened {p : PeerSession} (hsender : p.sender = .opening) :
      Step stopped p .silent { p with sender := .looping, capture := .live }
  /- its loop -/
  | loopCancelled {p : PeerSession} (hsender : p.sender = .looping)
      (hcancelled : (stopped || p.cancelled) = true) :
      Step stopped p .silent { p with sender := .closing (.ok ()), capture := .closing }
  | takesReply {p : PeerSession} {message : Message} {rest : List Control}
      (hsender : p.sender = .looping) (hqueue : p.queue = .reply message :: rest) :
      Step stopped p .silent { p with taken := p.taken + 1, sender := .sending message none }
  | takesKeyframe {p : PeerSession} {rest : List Control} (hsender : p.sender = .looping)
      (hqueue : p.queue = .keyframe :: rest) :
      Step stopped p .silent { p with taken := p.taken + 1 }
  | keyframeFails {p : PeerSession} {rest : List Control} (hsender : p.sender = .looping)
      (hqueue : p.queue = .keyframe :: rest) :
      Step stopped p .silent
        { p with
          taken := p.taken + 1
          sender := .closing (.error .captureFailed)
          capture := .closing }
  | queueEnds {p : PeerSession} (hsender : p.sender = .looping) (hqueue : p.queue = [])
      (hreader : p.readerIsOver = true) :
      Step stopped p .silent { p with sender := .closing (.ok ()), capture := .closing }
  | yields {p : PeerSession} {unit : EncodedUnit} {message : Message}
      (hsender : p.sender = .looping) (hvideo : video unit p.codec = .ok message) :
      Step stopped p (.yields unit)
        { p with units := p.units ++ [unit], sender := .sending message (some unit) }
  | yieldsInvalid {p : PeerSession} {unit : EncodedUnit} {error : HostError}
      (hsender : p.sender = .looping) (hvideo : video unit p.codec = .error error) :
      Step stopped p (.yields unit)
        { p with
          units := p.units ++ [unit]
          sender := .closing (.error error)
          capture := .closing }
  | publisherEnds {p : PeerSession} (hsender : p.sender = .looping) :
      Step stopped p .silent { p with sender := .closing (.ok ()), capture := .closing }
  | publisherFails {p : PeerSession} (hsender : p.sender = .looping) :
      Step stopped p .silent
        { p with sender := .closing (.error .captureFailed), capture := .closing }
  | writes {p : PeerSession} {message : Message} {unit : Option EncodedUnit}
      (hsender : p.sender = .sending message unit) :
      Step stopped p (.writes message unit)
        { p with sender := .looping, written := p.written ++ [message] }
  | writeCancelled {p : PeerSession} {message : Message} {unit : Option EncodedUnit}
      (hsender : p.sender = .sending message unit)
      (hcancelled : (stopped || p.cancelled) = true) :
      Step stopped p .silent { p with sender := .closing (.ok ()), capture := .closing }
  | writeFails {p : PeerSession} {message : Message} {unit : Option EncodedUnit}
      (hsender : p.sender = .sending message unit) :
      Step stopped p .silent
        { p with sender := .closing (.error .transportFailed), capture := .closing }
  /- its end -/
  | closes {p : PeerSession} {result : Except HostError Unit}
      (hsender : p.sender = .closing result) :
      Step stopped p .silent { p with sender := .returned result, capture := .reclaimed }
  | closeFails {p : PeerSession} {result : Except HostError Unit}
      (hsender : p.sender = .closing result) :
      Step stopped p .doubts
        { p with sender := .returned (.error .reclamationUnconfirmed), capture := .unconfirmed }
  | senderPanics {p : PeerSession} (hsender : p.sender.isOver = false) :
      Step stopped p .panics
        { p with
          sender := .panicked
          capture := if p.capture = .unopened then .unopened else .unconfirmed }

end PeerSession

/-! ### The host -/

/-- Where the host's task is: `serve`, and what follows its return. -/
inductive Stage where
  | probing
  | binding (codecs : Encoders)
  | serving (codecs : Encoders)
  | returned (result : Except HostError Unit)
  | finished
  | panicked

/-- The handle of the task, which the first `close` takes. -/
inductive Handle where
  | held | awaited | taken

/-- The host: the connections up to their login, the peer that is served, and what is shown. -/
structure Server where
  approval : HostState
  stage : Stage := .probing
  /-- the peer that is served -/
  session : Option PeerSession := none
  /-- the captures of the sessions that are over -/
  past : List Capture := []
  unreclaimed : Bool := false
  snapshot : HostSnapshot
  /-- the changes of the snapshot that are still due -/
  due : List Update := []
  /-- the address of the connection -/
  origin : String := ""
  /-- what `peer` has returned, while the connection is left -/
  left : Except HostError Unit := .ok ()
  handle : Handle := .held

/-- The snapshot before the task has begun. -/
def HostSnapshot.initial (options : StartOptions) : HostSnapshot where
  phase := "starting"
  width := options.width
  height := options.height
  fps := options.fps

/-- `Host::start`, with options that were checked. -/
def Server.start (options : StartOptions) (nextRequest : Nat) : Server where
  approval := .initial nextRequest
  snapshot := .initial options

/-- What the serving task has still to show after an event of the login. -/
def shown (epoch : Nat) (origin : String) : Except IoError HostEvent → List Update
  | .ok .awaitApproval => [.awaiting epoch origin]
  | .ok (.authorized _) => [.cleared]
  | _ => []

/-- The error of a login that has ended. -/
def refusal : Except IoError HostEvent → HostError
  | .ok .closed | .ok (.loginRejected _) => .approvalDenied
  | _ => .authenticationFailed

/-- The error of a peer, for the snapshot. -/
def failed : Except HostError Unit → List Update
  | .ok () => []
  | .error error => [.failed error]

def errorOf : Except HostError Unit → Option HostError
  | .ok () => none
  | .error error => some error

/-- `close`, once it has the task's end. -/
def Server.closeResult (s : Server) : Except HostError Unit :=
  if s.unreclaimed || !s.snapshot.closed then .error .reclamationUnconfirmed else .ok ()

/-- A login that ends by itself: the task was told to close, the connection is lost or
its turns are used up. -/
def Abandoned (cancelled : Bool) : Except HostError Unit → Prop
  | .ok () => cancelled = true
  | .error error => error = .transportFailed ∨ error = .authenticationFailed

/-- The operator's calls, and the other hosts of the process. -/
def HostLabel.isForeign : HostLabel → Bool
  | .approve _ _ _ | .notify | .requestClose | .otherRequest => true
  | _ => false

/-- A login goes on, and nothing of it is shown. -/
def HostLabel.isQuiet : HostLabel → Bool
  | .draw | .established | .call => true
  | _ => false

inductive Label where
  /-- of the connections up to their login -/
  | host (label : HostLabel)
  /-- of the two tasks that serve a peer -/
  | peer (label : PeerSession.Label)
  /-- of the host's task -/
  | serves
  | panics
  | closeReturns (result : Except HostError Unit)

/-- What of a label happens to the connections up to their login. -/
def Label.host? : Label → Option HostLabel
  | .host label => some label
  | _ => none

/-- What the two tasks show in the snapshot and the flag. -/
def Server.peerStep (s : Server) (p p' : PeerSession) (l : PeerSession.Label) : Server :=
  let s := { s with session := some p' }
  match l with
  | .reads _ => { s with snapshot := s.snapshot.count p.heard p'.heard }
  | .writes _ unit => { s with snapshot := s.snapshot.sent unit }
  | .doubts => { s with unreclaimed := true }
  | .opens | .yields _ | .panics | .silent => s

section Steps

variable (box : SecretBox) (proto : Protobuf Message) (sha256 : Bytes → Bytes)
  (options : StartOptions) (selection : CodecSelection)

/-- One access to the shared state, one event of a connection or one step of a task. -/
inductive Server.Step : Server → Label → Server → Prop
  -- the operator
  | foreign {s : Server} {l : HostLabel} {t : HostState} (hl : l.isForeign = true)
      (hstep : HostStep box proto sha256 options.toHostOptions s.approval l t) :
      Step s (.host l) { s with approval := t }
  -- before the loop of `serve`
  | probes {s : Server} {supported : Option Encoders} {codecs : Encoders}
      (hstage : s.stage = .probing) (hcodecs : encoders selection supported = .ok codecs) :
      Step s .serves { s with stage := .binding codecs }
  | probeFails {s : Server} {supported : Option Encoders} {error : HostError} {t : HostState}
      (hstage : s.stage = .probing) (hcodecs : encoders selection supported = .error error)
      (hstep : HostStep box proto sha256 options.toHostOptions s.approval .stop t) :
      Step s (.host .stop) { s with approval := t, stage := .returned (.error error) }
  | binds {s : Server} {codecs : Encoders} (hstage : s.stage = .binding codecs) :
      Step s .serves
        { s with stage := .serving codecs, snapshot := s.snapshot.update .listening }
  | bindFails {s : Server} {codecs : Encoders} {t : HostState} (hstage : s.stage = .binding codecs)
      (hstep : HostStep box proto sha256 options.toHostOptions s.approval .stop t) :
      Step s (.host .stop) { s with approval := t, stage := .returned (.error .listenFailed) }
  -- its loop: a connection, up to its login
  | accepts {s : Server} {codecs : Encoders} {t : HostState} (origin : String)
      (hstage : s.stage = .serving codecs) (hdue : s.due = [])
      (hstep : HostStep box proto sha256 options.toHostOptions s.approval .accept t) :
      Step s (.host .accept)
        { s with
          approval := t
          origin := origin
          snapshot := s.snapshot.update .authenticating }
  | acceptFails {s : Server} {codecs : Encoders} {t : HostState}
      (hstage : s.stage = .serving codecs) (hdue : s.due = []) (htask : s.approval.task = .listening)
      (hstep : HostStep box proto sha256 options.toHostOptions s.approval .stop t) :
      Step s (.host .stop)
        { s with approval := t, stage := .returned (.error .transportFailed) }
  | closes {s : Server} {codecs : Encoders} {t : HostState} (hstage : s.stage = .serving codecs)
      (hdue : s.due = []) (htask : s.approval.task = .listening)
      (hcancelled : s.approval.cancelled = true)
      (hstep : HostStep box proto sha256 options.toHostOptions s.approval .stop t) :
      Step s (.host .stop) { s with approval := t, stage := .returned (.ok ()) }
  | authenticates {s : Server} {codecs : Encoders} {l : HostLabel} {t : HostState}
      (hstage : s.stage = .serving codecs) (hdue : s.due = []) (hl : l.isQuiet = true)
      (hstep : HostStep box proto sha256 options.toHostOptions s.approval l t) :
      Step s (.host l) { s with approval := t }
  | clears {s : Server} {codecs : Encoders} {t : HostState} (hstage : s.stage = .serving codecs)
      (hdue : s.due = [])
      (hstep : HostStep box proto sha256 options.toHostOptions s.approval .clear t) :
      Step s (.host .clear) { s with approval := t, due := [.cleared] }
  | hears {s : Server} {codecs : Encoders} {epoch turns : Nat} {turn : HostTurn HostEvent}
      {result : Except IoError HostEvent} (hstage : s.stage = .serving codecs) (hdue : s.due = [])
      (htask : s.approval.task = .returning epoch turn turns)
      (hresult : turn.result = some result) :
      Step s (.host .returned)
        { s with
          approval := s.approval.onReturn epoch turn turns result
          due := shown epoch s.origin result
          left := .error (refusal result) }
  | abandons {s : Server} {codecs : Encoders} {t : HostState} {result : Except HostError Unit}
      (hstage : s.stage = .serving codecs) (hdue : s.due = [])
      (hlogin : ∀ epoch parts, s.approval.task ≠ .serving epoch parts)
      (hresult : Abandoned s.approval.cancelled result)
      (hstep : HostStep box proto sha256 options.toHostOptions s.approval .gone t) :
      Step s (.host .gone) { s with approval := t, left := result }
  -- a peer is served
  | noCodec {s : Server} {codecs : Encoders} {epoch : Nat} {parts : AuthenticatedParts}
      {error : HostError} {t : HostState} (hstage : s.stage = .serving codecs) (hdue : s.due = [])
      (htask : s.approval.task = .serving epoch parts) (hsession : s.session = none)
      (hcodec : chooseCodec codecs parts.context.claims.options = .error error)
      (hstep : HostStep box proto sha256 options.toHostOptions s.approval .gone t) :
      Step s (.host .gone) { s with approval := t, left := .error error }
  | begins {s : Server} {codecs : Encoders} {epoch : Nat} {parts : AuthenticatedParts}
      {codec : Codec} (hstage : s.stage = .serving codecs) (hdue : s.due = [])
      (htask : s.approval.task = .serving epoch parts) (hsession : s.session = none)
      (hcodec : chooseCodec codecs parts.context.claims.options = .ok codec) :
      Step s .serves
        { s with
          snapshot := s.snapshot.update (.connected codec
            (sessionFps options.fps parts.context.claims.options)
            (parts.context.security matches .encrypted _))
          session := some
            { codec := codec
              reader := ⟨options.width, options.height, parts.context.permissions,
                options.inputSink⟩ } }
  | peer {s : Server} {p p' : PeerSession} {l : PeerSession.Label} (hsession : s.session = some p)
      (hstep : PeerSession.Step s.approval.cancelled p l p') :
      Step s (.peer l) (s.peerStep p p' l)
  | cancelsPeer {s : Server} {codecs : Encoders} {p : PeerSession}
      (hstage : s.stage = .serving codecs) (hsession : s.session = some p)
      (hfirst : (s.approval.cancelled || p.readerIsOver || p.sender.isOver) = true) :
      Step s .serves { s with session := some { p with cancelled := true } }
  | peerReturns {s : Server} {codecs : Encoders} {p : PeerSession} {t : HostState}
      (hstage : s.stage = .serving codecs) (hsession : s.session = some p)
      (hcancelled : p.cancelled = true) (hreader : p.readerIsOver = true)
      (hsender : p.sender.isOver = true)
      (hstep : HostStep box proto sha256 options.toHostOptions s.approval .gone t) :
      Step s (.host .gone)
        { s with
          approval := t
          session := none
          past := s.past ++ [p.capture]
          unreclaimed := s.unreclaimed || (p.sender matches .panicked)
          left := p.outcome s.approval.cancelled }
  | leaves {s : Server} {codecs : Encoders} {t : HostState} (hstage : s.stage = .serving codecs)
      (hdue : s.due = []) (htask : s.approval.task = .leaving)
      (hleft : s.left ≠ .error .reclamationUnconfirmed)
      (hstep : HostStep box proto sha256 options.toHostOptions s.approval .leave t) :
      Step s (.host .leave)
        { s with approval := t, due := .cleared :: (failed s.left ++ [.listening]) }
  | givesUp {s : Server} {codecs : Encoders} {t : HostState} (hstage : s.stage = .serving codecs)
      (hdue : s.due = []) (htask : s.approval.task = .leaving)
      (hleft : s.left = .error .reclamationUnconfirmed)
      (hstep : HostStep box proto sha256 options.toHostOptions s.approval .stop t) :
      Step s (.host .stop)
        { s with
          approval := t
          due := [.cleared, .failed .reclamationUnconfirmed]
          stage := .returned s.left }
  -- what is due
  | updates {s : Server} {change : Update} {rest : List Update} (hdue : s.due = change :: rest)
      (hstage : s.stage ≠ .panicked) :
      Step s .serves { s with snapshot := s.snapshot.update change, due := rest }
  -- the end of the task
  | finishes {s : Server} {result : Except HostError Unit} (hstage : s.stage = .returned result)
      (hdue : s.due = []) :
      Step s .serves
        { s with
          stage := .finished
          due := [.cleared, .ended (errorOf result) (!s.unreclaimed)] }
  | panics {s : Server} (hrunning : s.stage = .finished → s.due ≠ []) :
      Step s .panics { s with stage := .panicked }
  -- `close`
  | closeTakes {s : Server} (hcancelled : s.approval.cancelled = true) (hhandle : s.handle = .held) :
      Step s .serves { s with handle := .awaited }
  | closeJoins {s : Server} (hhandle : s.handle = .awaited) (hstage : s.stage = .finished)
      (hdue : s.due = []) : Step s .serves { s with handle := .taken }
  | closeJoinsPanicked {s : Server} (hhandle : s.handle = .awaited) (hstage : s.stage = .panicked) :
      Step s .serves { s with handle := .taken, unreclaimed := true }
  /- the caller of `close` gives up -/
  | closeDropped {s : Server} (hhandle : s.handle = .awaited) :
      Step s .serves { s with handle := .taken }
  | closeReturns {s : Server} (hcancelled : s.approval.cancelled = true)
      (hhandle : s.handle = .taken) : Step s (.closeReturns s.closeResult) s

end Steps

end Host

end RdEngine
