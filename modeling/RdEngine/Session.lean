/-
RdEngine/Session.lean

The viewer's session of `session.rs`: the unsplit wire it owns (`SessionIo`)
and the login dialogue over it (`ViewerSession`).

Every call is a function of the session and of what the connection does during
the call: what arrives (`Incoming`), how a send ends (`SendAnswer`), and
whether the authentication deadline has passed.  A call whose future is
dropped gives no result.  A turn also lists the records it took from the wire
and the records it sent, in order.
-/
import RdEngine.Handshake
import RdEngine.Transport

namespace RdEngine

def failure (reason : String) : IoError := ⟨.invalidData, reason⟩

def closeMessage : Message := .ofMisc (.closeReason "")

def isClose (message : Message) : Bool :=
  match message.union with
  | some (.misc { union := some (.closeReason _) }) => true
  | _ => false

/-! ### The wire during authentication -/

/-- `SessionIo`: the wire of a session, and the record that came with the handshake. -/
structure SessionIo where
  wire : Option FramedStream
  prefetched : Option Message

/-- What a receive meets: a frame, an error of the framing or the connection,
its end, or the deadline before any of these. -/
inductive Incoming where
  | frame (bytes : Bytes)
  | failed (error : IoError)
  | ended
  | expired

/-- How a send ends: complete, failed, or dropped with its future. -/
inductive SendAnswer where
  | sent | failed | dropped
  deriving DecidableEq, Repr

namespace SessionIo

section Wire

variable (box : SecretBox) (proto : Protobuf Message)

/-- The records of a session are bounded in length. -/
def new (wire : FramedStream) (prefetched : Option Message) : SessionIo where
  wire := some { wire with codec := wire.codec.setMaxPacketLength authMaxRecordBytes }
  prefetched := prefetched

/-- The wire is given up. -/
def terminate (_ : SessionIo) : SessionIo := ⟨none, none⟩

/-- The next record; no result when the deadline came first. -/
def recv (io : SessionIo) (incoming : Incoming) :
    SessionIo × Option (Except IoError (Option Message)) :=
  match io.prefetched with
  | some message => ({ io with prefetched := none }, some (.ok (some message)))
  | none =>
    match io.wire with
    | none => (io, some (.ok none))
    | some wire =>
      match incoming with
      | .expired => (io, none)
      | .ended => (io.terminate, some (.ok none))
      | .failed e => (io.terminate, some (.error e))
      | .frame bytes =>
        match wire.next box bytes with
        | .error e => (io.terminate, some (.error e))
        | .ok (bytes, wire) =>
          match proto.parseFromBytes bytes with
          | .error _ => (io.terminate, some (.error (failure "Invalid authentication message")))
          | .ok message => ({ io with wire := some wire }, some (.ok (some message)))

/-- Send a record.  The wire is owned during the write, so only a complete
write puts it back. -/
def send (io : SessionIo) (message : Message) (answer : SendAnswer) :
    SessionIo × Option (Except IoError Unit) :=
  match io.wire with
  | none => (io, some (.error ⟨.connectionAborted, "Session closed"⟩))
  | some wire =>
    let overhead := if wire.cipher.isSome then macBytes else 0
    if proto.computeSize message > authMaxRecordBytes - overhead then
      (io, some (.error ⟨.invalidInput, "Oversized authentication message"⟩))
    else
      let failed := some (.error ⟨.other, "Authentication write failed"⟩)
      match wire.sealMessage box proto message with
      | none => ({ io with wire := none }, failed)
      | some (_, wire) =>
        match answer with
        | .sent => ({ io with wire := some wire }, some (.ok ()))
        | .failed => ({ io with wire := none }, failed)
        | .dropped => ({ io with wire := none }, none)

/-- The frame a send puts on the wire, when it gets that far. -/
def frame (io : SessionIo) (message : Message) : Option Bytes :=
  match io.wire with
  | none => none
  | some wire =>
    let overhead := if wire.cipher.isSome then macBytes else 0
    if proto.computeSize message > authMaxRecordBytes - overhead then none
    else (wire.sealMessage box proto message).map Prod.fst

/-- `take_parts`: the two halves of the wire, once nothing is left undispatched. -/
def takeParts (io : SessionIo) : Except IoError (WireReader × WireWriter) :=
  if io.prefetched.isSome then .error (failure "Undispatched handshake record")
  else
    match io.wire with
    | none => .error (failure "Session closed")
    | some wire => .ok (split wire)

end Wire

end SessionIo

/-! ### The session -/

/-- Sanitized routing and session claims of a login request. -/
structure SessionClaims where
  target : String
  controllerId : String
  controllerName : String
  controllerPlatform : String
  controllerVersion : String
  sessionId : Nat
  videoAckRequired : Bool
  options : Option OptionMessage
  deriving DecidableEq, Repr

/-- What a login request says of its sender. -/
def SessionClaims.from (request : LoginRequest) : SessionClaims where
  target := request.username
  controllerId := request.myId
  controllerName := request.myName
  controllerPlatform := request.myPlatform
  controllerVersion := request.version
  sessionId := request.sessionId
  videoAckRequired := request.videoAckRequired
  options := request.option

/-- `VIEWER_REMOTE_DEFAULTS`: what a host that reports nothing allows. -/
def viewerRemoteDefaults : Permissions :=
  { keyboard := true, clipboard := true, audio := true, file := true }

inductive AuthenticatedSide where
  | viewer | host
  deriving DecidableEq, Repr

/-- `AuthenticatedContext`: what is known of a session after its login. -/
structure AuthenticatedContext where
  side : AuthenticatedSide
  security : Security
  permissions : Permissions
  permissionReports : List PermissionInfo
  claims : SessionClaims
  peerInfo : Option PeerInfo

/-- `AuthenticatedParts`: the two halves of the wire, and what is known. -/
structure AuthenticatedParts where
  reader : WireReader
  writer : WireWriter
  context : AuthenticatedContext

/-- Where the viewer's side of the login is. -/
inductive ViewerState where
  | awaitHash | awaitLogin | awaitApproval | await2Fa | active | closed
  deriving DecidableEq, Repr

/-- What a call of the session tells the viewer. -/
inductive ViewerEvent where
  | challenge
  | loginError (error : String)
  | authorized (info : PeerInfo)
  | permissionChanged (permissions : Permissions)
  | preAuthControl (message : Message)
  | payload (message : Message)
  | progress
  | closed
  deriving DecidableEq, Repr

/-- `ViewerSession`: a connection on which a viewer logs in. -/
structure ViewerSession where
  io : SessionIo
  security : Security
  state : ViewerState
  hash : Option Hash
  request : Option LoginRequest
  permissions : Permissions
  permissionReports : List PermissionInfo
  peerInfo : Option PeerInfo

/-- A record that crossed the wire. -/
inductive WireRecord where
  | received (message : Message)
  | sent (message : Message)
  deriving DecidableEq, Repr

/-- What one call leaves behind; no result when its future was dropped. -/
structure ViewerTurn (α : Type) where
  session : ViewerSession
  result : Option (Except IoError α)
  records : List WireRecord

/-- The turn, with a record that was received before it. -/
def ViewerTurn.heard {α : Type} (turn : ViewerTurn α) (message : Message) : ViewerTurn α :=
  { turn with records := .received message :: turn.records }

namespace ViewerSession

def fromEstablished (wire : Established) : ViewerSession where
  io := .new wire.wire wire.prefetched
  security := wire.security
  state := .awaitHash
  hash := none
  request := none
  permissions := viewerRemoteDefaults
  permissionReports := []
  peerInfo := none

/-- `permissions()`: none before the session is active. -/
def effectivePermissions (session : ViewerSession) : Permissions :=
  if session.state = .active then session.permissions else {}

/-- `into_authenticated_parts`: only of a session that is active. -/
def intoAuthenticatedParts (session : ViewerSession) : Except IoError AuthenticatedParts :=
  if session.state ≠ .active then .error (failure "Session is not authenticated")
  else
    match session.request with
    | none => .error (failure "Missing authenticated request")
    | some request =>
      match session.io.takeParts with
      | .error e => .error e
      | .ok (reader, writer) =>
        .ok {
          reader := reader
          writer := writer
          context := {
            side := .viewer
            security := session.security
            permissions := session.permissions
            permissionReports := session.permissionReports
            claims := .from request
            peerInfo := session.peerInfo } }

/-- The session is over; nothing it knew is kept. -/
def terminate (session : ViewerSession) : ViewerSession where
  io := session.io.terminate
  security := session.security
  state := .closed
  hash := none
  request := none
  permissions := {}
  permissionReports := []
  peerInfo := none

/-- A known permission takes the reported value. -/
def applyPermission (permissions : Permissions) (permission : Permission) (enabled : Bool) :
    Permissions :=
  match permission with
  | .keyboard => { permissions with keyboard := enabled }
  | .clipboard => { permissions with clipboard := enabled }
  | .audio => { permissions with audio := enabled }
  | .file => { permissions with file := enabled }
  | _ => permissions

/-- The report replaces the first one about the same permission. -/
def putReport (info : PermissionInfo) : List PermissionInfo → List PermissionInfo
  | [] => [info]
  | old :: reports =>
    if old.permission = info.permission then info :: reports
    else old :: putReport info reports

/-- `record_permission`: the host reports a permission. -/
def recordPermission (session : ViewerSession) (info : PermissionInfo) : ViewerSession :=
  match info.permission.enumValue with
  | none => session
  | some permission =>
    { session with
      permissions := applyPermission session.permissions permission info.enabled
      permissionReports := putReport info session.permissionReports }

section Calls

variable (box : SecretBox) (proto : Protobuf Message) (sha256 : Bytes → Bytes)

/-- A call that ends here with this result. -/
def done {α : Type} (session : ViewerSession) (result : Except IoError α) : ViewerTurn α :=
  ⟨session, some result, []⟩

/-- The session with its state set to closed, before it is cleared. -/
def shut (session : ViewerSession) : ViewerSession := { session with state := .closed }

/-- Send a record; on success go on with `next`. -/
def sendThen {α : Type} (session : ViewerSession) (message : Message) (answer : SendAnswer)
    (next : ViewerSession → ViewerSession) (value : α) : ViewerTurn α :=
  match session.io.send box proto message answer with
  | (io, none) => ⟨{ session with io := io }, none, []⟩
  | (io, some (.error e)) => ⟨{ session with io := io }, some (.error e), []⟩
  | (io, some (.ok ())) => ⟨next { session with io := io }, some (.ok value), [.sent message]⟩

/-! #### Receiving -/

/-- A login response before the session is active. -/
def loginResponse (session : ViewerSession) (response : LoginResponse) : ViewerTurn ViewerEvent :=
  match response.union with
  | some (.error error) =>
    if session.request.isNone then session.shut.done (.ok (.loginError error))
    else
      let state : ViewerState :=
        if error = "2FA Required" ∨ error = "Wrong 2FA Code" ∨
            error = "2FA verification unsupported" then .await2Fa
        else if error = "No Password Access" then .awaitApproval
        else .awaitLogin
      { session with state := state }.done (.ok (.loginError error))
  | some (.peerInfo info) =>
    if session.request.isNone then session.done (.error (failure "Unsolicited login success"))
    else { session with state := .active, peerInfo := some info }.done (.ok (.authorized info))
  | none => session.shut.done (.error (failure "Empty login response"))

/-- What is neither login nor handshake: reports and notices at any time,
payload only once active. -/
def admitRecord (session : ViewerSession) (message : Message) : ViewerTurn ViewerEvent :=
  match message.union with
  | some (.misc { union := some (.permissionInfo info) }) =>
    let session := session.recordPermission info
    session.done (.ok (if session.state = .active then .permissionChanged session.permissions
      else .preAuthControl message))
  | some (.messageBox _ _ _ _) | some (.misc { union := some (.chatMessage _) }) =>
    if session.state = .active then session.done (.ok (.payload message))
    else session.done (.ok (.preAuthControl message))
  | _ =>
    if session.state = .active then session.done (.ok (.payload message))
    else session.shut.done (.error (failure "Application payload before authentication"))

/-- One record, in the order of the source's cases. -/
def dispatch (session : ViewerSession) (message : Message) (answer : SendAnswer) :
    ViewerTurn ViewerEvent :=
  if isClose message then session.shut.done (.ok .closed)
  else
    match message.union with
    | some (.testDelay probe) =>
      if session.state = .active then session.done (.ok (.payload message))
      else if !probe.fromClient then session.sendThen box proto message answer id .progress
      else session.done (.ok .progress)
    | none => session.done (.ok .progress)
    | some (.signedId _) =>
      -- a peer without a key may still state its identity before the challenge
      match session.state, session.security with
      | .awaitHash, .legacyPlain _ => session.done (.ok .progress)
      | _, _ => session.admitRecord message
    | some (.hash hash) =>
      if session.state = .awaitHash then
        if hash.challenge = "" then
          session.shut.done (.error (failure "Invalid authentication challenge"))
        else { session with hash := some hash, state := .awaitLogin }.done (.ok .challenge)
      else session.admitRecord message
    | some (.loginResponse response) =>
      if session.state ≠ .active then session.loginResponse response else session.admitRecord message
    | _ => session.admitRecord message

/-- What the session does with the next record. -/
def recvInner (session : ViewerSession) (incoming : Incoming) (answer : SendAnswer) :
    ViewerTurn ViewerEvent :=
  if session.state = .closed then session.done (.ok .closed)
  else
    let (io, result) := session.io.recv box proto incoming
    let session := { session with io := io }
    match result with
    | some (.ok (some message)) => (session.dispatch box proto message answer).heard message
    | some (.ok none) => session.shut.done (.ok .closed)
    | some (.error e) => session.shut.done (.error e)
    | none => session.shut.done (.error ⟨.timedOut, "Session receive timeout"⟩)

/-- `recv`; a session that has failed is closed. -/
def recv (session : ViewerSession) (incoming : Incoming) (answer : SendAnswer) :
    ViewerTurn ViewerEvent :=
  let turn := session.recvInner box proto incoming answer
  match turn.result with
  | some (.error _) => { turn with session := turn.session.terminate }
  | _ => if turn.session.state = .closed then { turn with session := turn.session.terminate }
    else turn

/-! #### The caller's side -/

/-- The response to the challenge, empty when no password is given. -/
def passwordField (hash : Hash) : Option Bytes → Except IoError Bytes
  | none => .ok []
  | some [] => .error (failure "Empty supplied password")
  | some password =>
    .ok (passwordResponse sha256 (saltedPassword sha256 password hash.salt) hash.challenge)

/-- A retry has to keep the identity and the scope of the first request. -/
def sameIdentity (first request : LoginRequest) : Bool :=
  first.username = request.username ∧ first.myId = request.myId ∧
    first.sessionId = request.sessionId

/-- The checks of `login` on the session and its arguments, up to the request
that is sent. -/
def checkLogin (session : ViewerSession) (request : LoginRequest) (password : Option Bytes) :
    Except IoError LoginRequest :=
  if session.state ≠ .awaitLogin ∧ session.state ≠ .awaitApproval ∧ session.state ≠ .await2Fa then
    .error (failure "Login is not allowed in this state")
  else
    match session.hash with
    | none => .error (failure "No peer challenge")
    | some hash =>
      if request.union.isSome ∨ request.username = "" ∨ request.myId = "" then
        .error (failure "This authentication slice supports explicit desktop identity only")
      else if request.osLogin.username ≠ "" ∨ request.osLogin.password ≠ "" then
        .error (failure "OS login unsupported")
      else if session.request.any (fun first => !sameIdentity first request) then
        .error (failure "Login retry cannot change identity/scope")
      else
        match passwordField sha256 hash password with
        | .error e => .error e
        | .ok response => .ok { request with password := response }

/-- A failed send terminates the session before its error is returned. -/
def orTerminate {α : Type} (turn : ViewerTurn α) : ViewerTurn α :=
  match turn.result with
  | some (.error _) => { turn with session := turn.session.terminate }
  | _ => turn

/-- `login`; `expired` says that the authentication deadline has passed. -/
def login (session : ViewerSession) (request : LoginRequest) (password : Option Bytes)
    (expired : Bool) (answer : SendAnswer) : ViewerTurn Unit :=
  if expired then session.terminate.done (.error (failure "Authentication deadline expired"))
  else
    match session.checkLogin sha256 request password with
    | .error e => session.done (.error e)
    | .ok request =>
      orTerminate (session.sendThen box proto (.of (.loginRequest request)) answer
        (fun session =>
          { session with request := some { request with password := [] }, state := .awaitLogin }) ())

def sendSecondFactor (session : ViewerSession) (code : String) (expired : Bool)
    (answer : SendAnswer) : ViewerTurn Unit :=
  if expired then session.terminate.done (.error (failure "Authentication deadline expired"))
  else if session.state ≠ .await2Fa then
    session.done (.error (failure "Not awaiting second factor"))
  else orTerminate (session.sendThen box proto (.of (.auth2fa { code := code })) answer id ())

/-- `close`; dropped in the middle of its record it has not yet terminated. -/
def close (session : ViewerSession) (answer : SendAnswer) : ViewerTurn Unit :=
  if session.state = .closed then session.done (.ok ())
  else
    let turn := session.sendThen box proto closeMessage answer id ()
    match turn.result with
    | none => turn
    | some _ => { turn with session := turn.session.terminate }

end Calls

end ViewerSession

end RdEngine
