/-
RdEngine/Viewer/Authenticate.lean

`authenticate` of `viewer.rs`, over the session it drives and the queue of the
user's commands.

A turn of its loop is one step: it takes a command off the queue, or a record
from the peer, and may send a record.  Calls come between turns; a turn looks
at the queue once, at its start, so a call during its send is one after it.
-/
import RdEngine.Lib.Monitors
import RdEngine.Viewer.Tasks

namespace RdEngine

namespace Viewer

/-! ### Phases -/

/-- The phases that an engine reports: `connected` only by VNC, which also
streams, closes and fails. -/
inductive Phase where
  | capability | connecting | rendezvous | awaitingInsecureConfirmation | authenticating
  | awaitingApproval | awaitingPassword | awaiting2fa | awaiting2faRetry
  | authenticated | openingDecoder | decoding | connected | streaming
  | closing | closed | failed
deriving DecidableEq, Repr

def Phase.text : Phase → String
  | .capability => "capability"
  | .connecting => "connecting"
  | .rendezvous => "rendezvous"
  | .awaitingInsecureConfirmation => "awaiting_insecure_confirmation"
  | .authenticating => "authenticating"
  | .awaitingApproval => "awaiting_approval"
  | .awaitingPassword => "awaiting_password"
  | .awaiting2fa => "awaiting_2fa"
  | .awaiting2faRetry => "awaiting_2fa_retry"
  | .authenticated => "authenticated"
  | .openingDecoder => "opening_decoder"
  | .decoding => "decoding"
  | .connected => "connected"
  | .streaming => "streaming"
  | .closing => "closing"
  | .closed => "closed"
  | .failed => "failed"

/-! ### The user's commands -/

/-- Capacity of the queue. -/
def authCommands : Nat := 4

/-- A call of the user. -/
inductive UserCall where
  | submitPassword (password : String)
  | submitSecondFactor (code : String)
  | continueInsecure (allow : Bool)
deriving DecidableEq, Repr

/-- What a call puts into the queue, if its argument is acceptable. -/
def UserCall.command : UserCall → Except ViewerError AuthCommand
  | .submitPassword password =>
    if password.isEmpty ∨ password.utf8ByteSize > 4096 then .error .invalidOptions
    else .ok (.password (utf8 password))
  | .submitSecondFactor code =>
    if code.utf8ByteSize ≠ 6 ∨ ¬ (utf8 code).all (fun byte => 48 ≤ byte && byte ≤ 57) then
      .error .invalidOptions
    else .ok (.secondFactor (utf8 code))
  | .continueInsecure allow => .ok (.continueInsecure allow)

/-- A command in the queue.  `awaited` is a history variable: whether such a
command was awaited when it was put there. -/
structure Queued where
  command : AuthCommand
  awaited : Bool
deriving DecidableEq, Repr

/-! ### The state -/

/-- Where `authenticate` is; no result when its future was dropped. -/
inductive Stage where
  | confirming
  | looping (request : Option LoginRequest) (awaiting : Awaiting)
  | ended (result : Option (Except ViewerError AuthenticatedParts))

/-- A login attempt. -/
structure Attempt where
  session : ViewerSession
  stage : Stage
  phase : Phase
  queue : List Queued

/-- What is fixed during an attempt. -/
structure Fixtures where
  box : SecretBox
  proto : Protobuf Message
  sha256 : Bytes → Bytes
  setup : Setup
  decoders : Decoders

/-- What a send of the session meets. -/
structure Sending where
  /-- the deadline of the authentication has passed -/
  expired : Bool := false
  answer : SendAnswer := .sent

/-- What a turn leaves behind. -/
structure Turn where
  attempt : Attempt
  records : List WireRecord

namespace Attempt

/-- The session is established; an unverified peer is confirmed first. -/
def start (env : Fixtures) (wire : Established) : Attempt where
  session := .fromEstablished wire
  stage := if env.setup.confirmInsecure then .confirming else .looping none .network
  phase :=
    if env.setup.confirmInsecure then .awaitingInsecureConfirmation else .authenticating
  queue := []

/-- The loop waits for this kind of command. -/
def awaits (a : Attempt) (command : AuthCommand) : Bool :=
  match a.stage, command with
  | .confirming, .continueInsecure _ => true
  | .looping _ .password, .password _ => true
  | .looping _ .secondFactor, .secondFactor _ => true
  | _, _ => false

/-- `try_send`; the receiver is dropped with `authenticate`. -/
def trySend (a : Attempt) (command : AuthCommand) : Attempt × Except ViewerError Unit :=
  match a.stage with
  | .ended _ => (a, .error .closed)
  | _ =>
    if a.queue.length ≥ authCommands then (a, .error .backpressure)
    else ({ a with queue := a.queue ++ [⟨command, a.awaits command⟩] }, .ok ())

/-- A call of the user: a command for the task, where it is a valid one. -/
def call (a : Attempt) (call : UserCall) : Attempt × Except ViewerError Unit :=
  match call.command with
  | .error error => (a, .error error)
  | .ok command => a.trySend command

/-- The attempt is over. -/
def finish (a : Attempt) (result : Option (Except ViewerError AuthenticatedParts)) : Attempt :=
  { a with stage := .ended result }

/-- The attempt is over, with this error. -/
def fail (a : Attempt) (error : ViewerError) : Attempt := a.finish (some (.error error))

/-- The decision about an insecure peer.  A password or a code cannot bypass it. -/
def confirm (a : Attempt) : AuthCommand → Attempt
  | .continueInsecure true => { a with stage := .looping none .network, phase := .authenticating }
  | .continueInsecure false => a.fail .authenticationFailed
  | .password _ | .secondFactor _ => a

/-! ### Turns of the loop -/

/-- After a send of the session. -/
def afterSend (a : Attempt) (turn : ViewerTurn Unit) (stage : Stage) (phase : Phase) : Turn :=
  let a := { a with session := turn.session }
  match turn.result with
  | none => ⟨a.finish none, turn.records⟩
  | some (.error _) => ⟨a.fail .authenticationFailed, turn.records⟩
  | some (.ok ()) => ⟨{ a with stage, phase }, turn.records⟩

variable (env : Fixtures)

def login (a : Attempt) (request : LoginRequest) (password : Option Bytes) (sending : Sending) :
    ViewerTurn Unit :=
  a.session.login env.box env.proto env.sha256 request password sending.expired sending.answer

def sendSecondFactor (a : Attempt) (code : String) (sending : Sending) : ViewerTurn Unit :=
  a.session.sendSecondFactor env.box env.proto code sending.expired sending.answer

/-- A command taken by the loop: only the awaited kind is used. -/
def onCommand (a : Attempt) (request : Option LoginRequest) (awaiting : Awaiting)
    (command : AuthCommand) (sending : Sending) : Turn :=
  match command, awaiting with
  | .password password, .password =>
    match request with
    | none => ⟨a.fail .authenticationFailed, []⟩
    | some first =>
      a.afterSend (a.login env first (some password) sending) (.looping request .network)
        .authenticating
  | .secondFactor code, .secondFactor =>
    match String.fromUTF8? ⟨code.toArray⟩ with
    | none => ⟨a.fail .invalidOptions, []⟩
    | some code =>
      a.afterSend (a.sendSecondFactor env code sending) (.looping request .network) .authenticating
  | _, _ => ⟨a, []⟩

/-- A record of the peer, as the session reports it. -/
def onEvent (a : Attempt) (request : Option LoginRequest) (awaiting : Awaiting)
    (event : ViewerEvent) (sessionId : Nat) (sending : Sending) : Turn :=
  match event with
  | .challenge =>
    let first := loginRequest env.setup env.decoders sessionId
    let password := if env.setup.password.isEmpty then none else some env.setup.password
    a.afterSend (a.login env first password sending) (.looping (some first) awaiting) a.phase
  | .authorized _ =>
    match a.session.intoAuthenticatedParts with
    | .error _ => ⟨a.fail .authenticationFailed, []⟩
    | .ok parts => ⟨a.finish (some (.ok parts)), []⟩
  | .loginError error =>
    if error = "No Password Access" then
      ⟨{ a with stage := .looping request .network, phase := .awaitingApproval }, []⟩
    else if error = "Wrong Password" then
      ⟨{ a with stage := .looping request .password, phase := .awaitingPassword }, []⟩
    else if error = "2FA Required" ∨ error = "Wrong 2FA Code" then
      ⟨{ a with
          stage := .looping request .secondFactor
          phase := if error = "Wrong 2FA Code" then .awaiting2faRetry else .awaiting2fa }, []⟩
    else ⟨a.fail .authenticationFailed, []⟩
  | .closed => ⟨a.fail .remoteClosed, []⟩
  | .progress | .preAuthControl _ => ⟨a, []⟩
  | .permissionChanged _ | .payload _ => ⟨a.fail .authenticationFailed, []⟩

/-- What a turn on the network meets: what arrives, how the session's own answer
goes out, the session id that is drawn, and how a login goes out. -/
structure Arrives where
  incoming : Incoming
  echo : SendAnswer := .sent
  sessionId : Nat := 0
  sending : Sending := {}

/-- The session takes the next record. -/
def received (a : Attempt) (arrives : Arrives) : ViewerTurn ViewerEvent :=
  a.session.recv env.box env.proto arrives.incoming arrives.echo

/-- What the task does with a record. -/
def onNetwork (a : Attempt) (request : Option LoginRequest) (awaiting : Awaiting)
    (arrives : Arrives) : Turn :=
  let turn := a.received env arrives
  let a := { a with session := turn.session }
  match turn.result with
  | none => ⟨a.finish none, turn.records⟩
  | some (.error _) => ⟨a.fail .authenticationFailed, turn.records⟩
  | some (.ok event) =>
    let next := a.onEvent env request awaiting event arrives.sessionId arrives.sending
    ⟨next.attempt, turn.records ++ next.records⟩

/-! ### Steps -/

/-- The attempt is over. -/
def isEnded (a : Attempt) : Bool :=
  match a.stage with
  | .ended _ => true
  | _ => false

/-- The queue is being polled. -/
def polls (a : Attempt) : Bool :=
  match a.stage with
  | .confirming => true
  | .looping _ awaiting => awaiting ≠ .network
  | .ended _ => false

/-- What happens to an attempt. -/
inductive Label where
  | calls (call : UserCall) (result : Except ViewerError Unit)
  /-- a turn that takes a command off the queue -/
  | takes (queued : Queued) (records : List WireRecord) (ended : Bool)
  /-- a turn that takes a record from the peer -/
  | hears (records : List WireRecord)
  | stops

/-- The records that crossed the wire. -/
def Label.records : Label → List WireRecord
  | .takes _ records _ | .hears records => records
  | .calls _ _ | .stops => []

def Label.isNetwork : Label → Bool
  | .hears _ => true
  | .calls _ _ | .takes _ _ _ | .stops => false

/-- The loop polls the queue only while it awaits the user; it stops when the
viewer is closed, or when nobody is left to send a command. -/
inductive Step : Attempt → Label → Attempt → Prop
  | call {a : Attempt} (call : UserCall) : Step a (.calls call (a.call call).2) (a.call call).1
  | confirm {a : Attempt} {queued : Queued} {rest : List Queued} (hstage : a.stage = .confirming)
      (hqueue : a.queue = queued :: rest) :
      Step a
        (.takes queued [] (Attempt.confirm { a with queue := rest } queued.command).isEnded)
        (Attempt.confirm { a with queue := rest } queued.command)
  | command {a : Attempt} {request : Option LoginRequest} {awaiting : Awaiting} {queued : Queued}
      {rest : List Queued} {turn : Turn} (sending : Sending)
      (hstage : a.stage = .looping request awaiting) (hawaiting : awaiting ≠ .network)
      (hqueue : a.queue = queued :: rest)
      (hturn : turn = Attempt.onCommand env { a with queue := rest } request awaiting
        queued.command sending) :
      Step a (.takes queued turn.records turn.attempt.isEnded) turn.attempt
  | network {a : Attempt} {request : Option LoginRequest} {awaiting : Awaiting} {turn : Turn}
      (arrives : Arrives) (hstage : a.stage = .looping request awaiting)
      (hturn : turn = a.onNetwork env request awaiting arrives) :
      Step a (.hears turn.records) turn.attempt
  | cancel {a : Attempt} (hopen : a.isEnded = false) : Step a .stops (a.finish none)
  | hangUp {a : Attempt} (hpolls : a.polls = true) (hqueue : a.queue = []) :
      Step a .stops (a.fail .closed)

end Attempt

end Viewer

end RdEngine
