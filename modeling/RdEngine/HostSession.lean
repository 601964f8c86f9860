/-
RdEngine/HostSession.lean

The host's session of `session.rs`: it takes an established connection over,
sends the challenge of its authentication machine as its first record, and then
carries the machine's actions out over the wire.

A call is a function of the session and of what it meets: how the wait for a
record ends (`Waited`), what the providers answer, whether the deadline of the
authentication has passed, and how each send ends (a list of `SendAnswer`s,
taken in order; the call is dropped at the send that finds none).  A turn lists
what happened during the call, in order.
-/
import RdEngine.Session
import RdEngine.Text

namespace RdEngine

/-- `HostSession`: a connection whose peer logs in. -/
structure HostSession where
  io : SessionIo
  auth : HostAuthentication
  security : Security
  permissions : Permissions
  ready : Bool

namespace HostSession

variable (box : SecretBox) (proto : Protobuf Message)

/-- The record the session starts with. -/
def hello (auth : HostAuthentication) : Message := .of (.hash auth.hash)

/-- `from_established`, given the characters drawn for the challenge; no
result when its future was dropped. -/
def fromEstablished (wire : Established) (config : HostAuthConfig) (challenge : String)
    (answer : SendAnswer) : Option (Except IoError HostSession) :=
  match HostAuthentication.new config challenge with
  | .error reason => some (.error (failure reason))
  | .ok auth =>
    match (SessionIo.new wire.wire wire.prefetched).send box proto (hello auth) answer with
    | (_, none) => none
    | (_, some (.error e)) => some (.error e)
    | (io, some (.ok ())) =>
      some (.ok { io := io, auth := auth, security := wire.security, permissions := {}, ready := false })

/-- The frame of the challenge, when the session gets to send it. -/
def helloFrame (wire : Established) (auth : HostAuthentication) : Option Bytes :=
  (SessionIo.new wire.wire wire.prefetched).frame box proto (hello auth)

end HostSession

/-! ### Turns -/

/-- What a call of the session tells the host. -/
inductive HostEvent where
  | progress
  | awaitApproval
  | loginRejected (message : String)
  | authorized (permissions : Permissions)
  | unsupported
  | closed
  deriving DecidableEq, Repr

/-- A record that was taken from the wire, sent completely, or not sent
completely, or what the authentication machine asked for. -/
inductive HostRecord where
  | received (message : Message)
  | sent (message : Message)
  | unsent (message : Message)
  | action (action : AuthAction)
  deriving DecidableEq, Repr

/-- What one call leaves behind; no result when its future was dropped. -/
structure HostTurn (α : Type) where
  session : HostSession
  result : Option (Except IoError α)
  records : List HostRecord

namespace HostTurn

variable {α : Type}

/-- The turn, with what happened before it. -/
def after (turn : HostTurn α) (records : List HostRecord) : HostTurn α :=
  { turn with records := records ++ turn.records }

@[simp] theorem after_session (turn : HostTurn α) (records : List HostRecord) :
    (turn.after records).session = turn.session := rfl

@[simp] theorem after_result (turn : HostTurn α) (records : List HostRecord) :
    (turn.after records).result = turn.result := rfl

@[simp] theorem after_records (turn : HostTurn α) (records : List HostRecord) :
    (turn.after records).records = records ++ turn.records := rfl

end HostTurn

/-- How the wait for a record ends: the local approval was notified first,
something came from the connection, or the future was dropped. -/
inductive Waited where
  | notified
  | incoming (incoming : Incoming)
  | dropped

namespace HostSession

def loginError (error : String) : Message := .of (.loginResponse { union := some (.error error) })

/-- The reports of a grant, in the order they are sent. -/
def permissionReports (permissions : Permissions) : List Message :=
  [(Permission.keyboard, permissions.keyboard), (.clipboard, permissions.clipboard),
    (.audio, permissions.audio), (.file, permissions.file)].map fun report =>
      .ofMisc (.permissionInfo { permission := .known report.1, enabled := report.2 })

/-- The peer is told why it waits: peers before 1.2.0 are not. -/
def explainsApproval (auth : HostAuthentication) : Bool :=
  auth.request.any fun request =>
    Text.getVersionNumber request.version.toList ≥ Text.getVersionNumber "1.2.0".toList

section Calls

variable (box : SecretBox) (proto : Protobuf Message) (sha256 : Bytes → Bytes)

/-- A call that ends here with this result. -/
def done {α : Type} (session : HostSession) (result : Except IoError α) : HostTurn α :=
  ⟨session, some result, []⟩

/-- The session with its authentication closed, before it is cleared. -/
def closeAuth (session : HostSession) : HostSession := { session with auth := session.auth.close }

/-- The session with its authentication closed and all else cleared. -/
def clear (session : HostSession) : HostSession :=
  { session with auth := session.auth.close, permissions := {}, io := session.io.terminate }

/-- Send a record and go on; the call ends here when the send does not complete. -/
def sendThen {α : Type} (session : HostSession) (message : Message) (answers : List SendAnswer)
    (next : HostSession → List SendAnswer → HostTurn α) : HostTurn α :=
  match session.io.send box proto message (answers.headD .dropped) with
  | (io, none) => ⟨{ session with io := io }, none, []⟩
  | (io, some (.error e)) => ⟨{ session with io := io }, some (.error e), [.unsent message]⟩
  | (io, some (.ok ())) => (next { session with io := io } answers.tail).after [.sent message]

/-- `if result.is_err() || self.auth.state() == Closed`, behind a call that has
returned. -/
def settle {α : Type} (turn : HostTurn α) : HostTurn α :=
  match turn.result with
  | none => turn
  | some (.error _) => { turn with session := turn.session.clear }
  | some (.ok _) =>
    if turn.session.auth.state = .closed then { turn with session := turn.session.clear }
    else turn

/-! #### Carrying actions out -/

/-- Send the reports of the grant one by one; the session is ready after the last. -/
def sendReports (permissions : Permissions) :
    List Message → HostSession → List SendAnswer → HostTurn HostEvent
  | [], session, _ => { session with ready := true }.done (.ok (.authorized permissions))
  | report :: reports, session, answers =>
    session.sendThen box proto report answers (sendReports permissions reports)

/-- What the session does for an action of the machine. -/
def applyInner (session : HostSession) (action : AuthAction) (answers : List SendAnswer) :
    HostTurn HostEvent :=
  match action with
  | .ignored => session.done (.ok .progress)
  | .pendingApproval =>
    if explainsApproval session.auth then
      session.sendThen box proto (loginError "No Password Access") answers fun session _ =>
        session.done (.ok .awaitApproval)
    else session.done (.ok .awaitApproval)
  | .error message _ =>
    session.sendThen box proto (loginError message) answers fun session _ =>
      session.done (.ok (.loginRejected message))
  | .authorized info permissions =>
    session.sendThen box proto (.of (.loginResponse { union := some (.peerInfo info) })) answers
      fun session answers =>
        sendReports box proto permissions (permissionReports permissions)
          { session with permissions := permissions } answers

/-- An action of the machine; a session that has failed, or is closed, is cleared. -/
def apply (session : HostSession) (action : AuthAction) (answers : List SendAnswer) :
    HostTurn HostEvent :=
  settle (session.applyInner box proto action answers)

/-- Take over what the authentication machine did, and carry its action out. -/
def applyTurn (session : HostSession) (turn : AuthTurn) (answers : List SendAnswer) :
    HostTurn HostEvent :=
  ({ session with auth := turn.auth }.apply box proto turn.action answers).after
    [.action turn.action]

/-- `poll_approval`; `expired` says that the authentication deadline has passed. -/
def pollApproval (session : HostSession) (env : Answers) (expired : Bool)
    (answers : List SendAnswer) : HostTurn HostEvent :=
  if expired ∧ session.auth.state ≠ .authorized then
    { session with auth := session.auth.close, io := session.io.terminate }.done
      (.error (failure "Authentication deadline expired"))
  else session.applyTurn box proto (session.auth.pollApproval env) answers

/-! #### Receiving -/

/-- One record, in the order of the source's cases. -/
def dispatch (session : HostSession) (message : Message) (env : Answers)
    (answers : List SendAnswer) : HostTurn HostEvent :=
  if isClose message then session.closeAuth.done (.ok .closed)
  else
    match message.union with
    | none => session.done (.ok .progress)
    | some (.testDelay probe) =>
      if probe.fromClient then
        session.sendThen box proto (.of (.testDelay probe)) answers fun session _ =>
          session.done (.ok .progress)
      else session.done (.ok .progress)
    | some (.loginRequest request) =>
      session.applyTurn box proto (session.auth.login sha256 env request) answers
    | some (.auth2fa code) =>
      session.applyTurn box proto (session.auth.secondFactor env code) answers
    | _ =>
      if session.auth.state ≠ .authorized then
        session.sendThen box proto (loginError "Connection not allowed") answers fun session _ =>
          session.closeAuth.done (.error (failure "Application payload before authentication"))
      else session.done (.ok .unsupported)

/-- What a turn of the session does, by what it was woken with. -/
def recvInner (session : HostSession) (waited : Waited) (env : Answers) (expired : Bool)
    (answers : List SendAnswer) : HostTurn HostEvent :=
  if session.auth.state = .closed then session.done (.ok .closed)
  else
    match waited with
    | .dropped => ⟨session, none, []⟩
    | .notified => session.pollApproval box proto env expired answers
    | .incoming incoming =>
      let (io, result) := session.io.recv box proto incoming
      let session := { session with io := io }
      match result with
      | some (.ok (some message)) =>
        (session.dispatch box proto sha256 message env answers).after [.received message]
      | some (.ok none) => session.closeAuth.done (.ok .closed)
      | some (.error e) => session.closeAuth.done (.error e)
      | none => session.closeAuth.done (.error ⟨.timedOut, "Session receive timeout"⟩)

/-- `recv_notified`, of which `recv` and `recv_with_approval` are the two uses. -/
def recvNotified (session : HostSession) (waited : Waited) (env : Answers) (expired : Bool)
    (answers : List SendAnswer) : HostTurn HostEvent :=
  settle (session.recvInner box proto sha256 waited env expired answers)

/-- `recv`: no approval is listened to. -/
def recv (session : HostSession) (incoming : Incoming) (env : Answers)
    (answers : List SendAnswer) : HostTurn HostEvent :=
  session.recvNotified box proto sha256 (.incoming incoming) env false answers

def recvWithApproval (session : HostSession) (waited : Waited) (env : Answers) (expired : Bool)
    (answers : List SendAnswer) : HostTurn HostEvent :=
  session.recvNotified box proto sha256 waited env expired answers

/-! #### The caller's side -/

/-- `close`; dropped in the middle of its record it has not yet cleared the wire. -/
def close (session : HostSession) (answers : List SendAnswer) : HostTurn Unit :=
  if session.auth.state = .closed then session.done (.ok ())
  else
    let turn := { session with auth := session.auth.close, permissions := {} }.sendThen box proto
      closeMessage answers fun session _ => session.done (.ok ())
    match turn.result with
    | none => turn
    | some _ => { turn with session := { turn.session with io := turn.session.io.terminate } }

/-- `into_authenticated_parts`: only of a session that is authorized and ready. -/
def intoAuthenticatedParts (session : HostSession) : Except IoError AuthenticatedParts :=
  if session.auth.state ≠ .authorized ∨ !session.ready then
    .error (failure "Session is not authenticated")
  else
    match session.auth.request with
    | none => .error (failure "Missing authenticated request")
    | some request =>
      match session.io.takeParts with
      | .error e => .error e
      | .ok (reader, writer) =>
        .ok {
          reader := reader
          writer := writer
          context := {
            side := .host
            security := session.security
            permissions := session.permissions
            permissionReports := []
            claims := .from request
            peerInfo := none } }

end Calls

end HostSession

end RdEngine
