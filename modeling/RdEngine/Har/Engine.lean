/-
RdEngine/Har/Engine.lean

What the HarmonyOS archive exports (`ohos_har/src/lib.rs`, `host_bridge.rs`): the
initialization, the modern viewer sessions and the one host.

Every export is a program over accesses to what the exports share, so that any exports
may run at once and come between each other's accesses.  What is done under one lock is
one access: `engineInitialize` holds the initialization's, `registerViewer` and `startHost`
hold their registry's.  An export reaches a session through its `Arc<Entry>`, here the
session's number, which stays its own when the registry forgets the session.

Viewers and hosts are kept in one kind of register (`Tenants`): a viewer excludes
another on its surface, and there is room for four; of hosts there is room for one.
-/
import RdEngine.Lib.Base64
import RdEngine.Lib.Tenants
import RdEngine.Lib.Threads
import RdEngine.Compat.Registry
import RdEngine.Host.Policy
import RdEngine.Rendezvous

namespace RdEngine

namespace Har

open Tenants Threads
open Compat (ViewerOptions)
open Host (HostOptions)

/-! ### Arguments and errors -/

/-- An error of the exported functions: a failure, or an argument that is refused. -/
inductive Error where
  | failed (message : String)
  | invalid (message : String)
  deriving DecidableEq, Repr

/-- A number of JavaScript: a whole one, or any other. -/
inductive Number where
  | whole (n : Int)
  | other
  deriving DecidableEq, Repr

/-- `integer`: a whole number within these bounds. -/
def integer (value : Number) (min max : Int) : Except Error Int :=
  match value with
  | .whole n =>
    if n < min ∨ n > max then .error (.invalid "Expected an integer in the supported range")
    else .ok n
  | .other => .error (.invalid "Expected an integer in the supported range")

/-- The surface a picture is drawn on; zero stands for none, and is refused. -/
def parseSurface (text : String) : Except Error Nat :=
  match (Text.parseU64 text.toList).filter (· ≠ 0) with
  | some surface => .ok surface
  | none => .error (.invalid "Invalid Surface ID")

/-! ### Viewers and hosts -/

/-- The two registers of the engine. -/
inductive Side where
  | viewer | host
  deriving DecidableEq, Repr

/-- How a viewer reaches its peer. -/
inductive Start where
  | direct
  | verified (expectedId : String) (key : SignPublicKey)
  | rendezvous (config : RendezvousConfig)

/-- What a session has for as long as it is not known to be gone. -/
inductive Holding where
  | viewer (surface : Nat) (options : ViewerOptions) (start : Start)
  | host (options : HostOptions) (fps : Int)

/-- The identity a session shows its peers. -/
def Holding.identity : Holding → String
  | .viewer _ options _ => options.localId
  | .host options _ => options.id

/-- The surface of a viewer; a host has none. -/
def Holding.surface? : Holding → Option Nat
  | .viewer surface _ _ => some surface
  | .host _ _ => none

/-- `MAX_SESSIONS`: the viewers there may be at once. -/
def maxSessions : Nat := 4

/-- `format!("{sequence:x}")`. -/
def hexText (n : Nat) : String := .ofList (Nat.toDigits 16 n)

/-- How the two registers are kept: their room, what excludes what, and the names they give. -/
def rules : Side → Rules Holding String
  | .viewer =>
    { room := maxSessions
      conflict := fun x y => x.surface?.isSome && x.surface? == y.surface?
      name := fun n => "modern-" ++ hexText n }
  | .host =>
    { room := 1
      conflict := fun _ _ => false
      name := fun n => "modern-host-" ++ hexText n }

/-! ### What the exports share -/

/-- What the process is initialized with: once, and from one directory. -/
structure Initialization where
  directory : String
  id : Option String
  deriving DecidableEq, Repr

/-- `INITIALIZATION`, the two directories of the configuration, which are always set
together, the two registries and `CAPABILITY_QUERY_RUNNING`. -/
structure Shared where
  initialization : Option Initialization := none
  appDir : Option String := none
  registers : Side → Register Holding String := fun _ => .empty 1
  querying : Bool := false

/-- The id of the process, once it has one. -/
def Shared.localId (s : Shared) : Option String := s.initialization.bind (·.id)

def Shared.setRegister (s : Shared) (side : Side) (r : Register Holding String) : Shared :=
  { s with registers := Function.update s.registers side r }

/-- What a directory is found to be, and what the first initialization finds in it. -/
structure Platform where
  canonical : Option String
  isDir : Bool
  hasParent : Bool
  cryptoInit : Bool
  configId : String
  fileExists : Bool

/-- Absolute, and without a component that is the parent. -/
def isAbsoluteWithin (path : String) : Bool :=
  path.toList.head? = some '/' && !(path.toList.splitOn '/').any (· = ['.', '.'])

/-- `engine_initialize`. -/
def engineInitialize (p : Platform) (appDir : String) (s : Shared) :
    Shared × Except Error String :=
  if !isAbsoluteWithin appDir then
    (s, .error (.invalid "Expected the absolute Ability files directory"))
  else
    match p.canonical with
    | none => (s, .error (.invalid "App directory is unavailable"))
    | some directory =>
      if !p.isDir || !p.hasParent then
        (s, .error (.invalid "Expected an existing private App directory"))
      else
        match s.initialization with
        | some previous =>
          if previous.directory ≠ directory then
            (s, .error (.invalid "Cannot reinitialize with another App directory"))
          else
            match previous.id with
            | some id => (s, .ok id)
            | none => (s, .error (.failed "App initialization previously failed"))
        | none =>
          -- reserved even on failure
          let reserved := { s with initialization := some { directory, id := none } }
          if !p.cryptoInit then (reserved, .error (.failed "Crypto initialization failed"))
          else
            let bound := { reserved with appDir := some appDir }
            if p.configId.isEmpty || !p.fileExists then
              (bound, .error (.failed "Authoritative local identity unavailable"))
            else
              ({ bound with initialization := some { directory, id := some p.configId } },
                .ok p.configId)

/-- How acquiring what a session needs and starting it come out. -/
inductive Outcome where
  | refused (error : Error)
  | started

/-- A number is taken, then the session is started under it or not. -/
def numbered (rules : Rules Holding String) (outcome : Outcome) (x : Holding) (exhausted : Error)
    (r : Register Holding String) : Register Holding String × Except Error String :=
  if r.next ≥ 2 ^ 64 - 1 then (r, .error exhausted)
  else
    match outcome with
    | .refused error => (r.skip, .error error)
    | .started => (r.enrol rules x, .ok (rules.name r.next))

/-- `register_viewer`. -/
def registerViewer (outcome : Outcome) (x : Holding) (r : Register Holding String) :
    Register Holding String × Except Error String :=
  if r.full (rules .viewer) then
    (r, .error (.failed
      "Modern session limit reached; pending/quarantined sessions retain their slots"))
  else if r.taken (rules .viewer) x then
    (r, .error (.failed "Surface is still owned by a modern session"))
  else numbered (rules .viewer) outcome x (.failed "Session identifier space exhausted") r

/-- What `engine_host_start` does under the registry's lock; `keys` is how reading the key
pair of the identity comes out. -/
def startHost (outcome : Outcome) (keys : Except Error Unit) (localId : Option String)
    (width height fps : Int) (r : Register Holding String) :
    Register Holding String × Except Error String :=
  if r.full (rules .host) then
    (r, .error (.failed "A host is still active, closing or quarantined"))
  else
    match localId with
    | none =>
      (r, .error (.failed "Initialize after privacy consent before enabling a host"))
    | some id =>
      match keys with
      | .error error => (r, .error error)
      | .ok () =>
        let options : HostOptions :=
          { id, width, height, platform := "HarmonyOS", inputInjection := false, inputSink := none }
        numbered (rules .host) outcome (.host options fps)
          (.failed "Host identifier space exhausted") r

/-! ### Accesses -/

/-- An access to what the exported functions share. -/
inductive Access where
  | engineInitialize (appDir : String)
  | localId
  | registerViewer (surface : Nat) (options : ViewerOptions) (start : Start)
  | startHost (width height fps : Int)
  | lookup (side : Side) (id : String)
  | isClosing (side : Side) (n : Nat)
  | setClosing (side : Side) (n : Nat)
  | requestClose (side : Side) (n : Nat)
  | swapJoinPending (side : Side) (n : Nat)
  /-- the backend's own `close`, awaited -/
  | close (side : Side) (n : Nat)
  | remove (side : Side) (id : String)
  | sendMouse (n : Nat) (kind button x y : Int)
  | approve (n : Nat) (request : String) (allow : Bool)
  | swapQuerying
  | query
  | endQuery

@[reducible]
def Access.Answer : Access → Type
  | .engineInitialize _ | .registerViewer _ _ _ | .startHost _ _ _ => Except Error String
  | .localId => Option String
  | .lookup _ _ => Option Nat
  | .isClosing _ _ | .swapJoinPending _ _ | .close _ _ | .sendMouse _ _ _ _ _ | .approve _ _ _
  | .swapQuerying => Bool
  | .setClosing _ _ | .requestClose _ _ | .remove _ _ | .endQuery => Unit
  | .query => Except Error String

/-- What an access does and may answer. -/
def perform {ι : Type} (_ : ι) (s : Shared) (a : Access) (answer : a.Answer) (s' : Shared) : Prop :=
  match a, answer with
  | .engineInitialize appDir, answer => ∃ p, engineInitialize p appDir s = (s', answer)
  | .localId, answer => answer = s.localId ∧ s' = s
  | .registerViewer surface options start, answer => ∃ outcome r,
      registerViewer outcome (.viewer surface options start) (s.registers .viewer) = (r, answer) ∧
        s' = s.setRegister .viewer r
  | .startHost width height fps, answer => ∃ outcome keys r,
      startHost outcome keys s.localId width height fps (s.registers .host) = (r, answer) ∧
        s' = s.setRegister .host r
  | .lookup side id, answer => answer = (s.registers side).find? id ∧ s' = s
  | .isClosing side n, answer =>
      (∃ t, (s.registers side).tenants n = some t ∧ answer = t.closing) ∧ s' = s
  | .setClosing side n, () =>
      s' = s.setRegister side ((s.registers side).modify n fun t => { t with closing := true })
  | .requestClose _ _, () => s' = s
  | .swapJoinPending side n, answer =>
      (∃ t, (s.registers side).tenants n = some t ∧ answer = t.joinPending) ∧
        s' = s.setRegister side
          ((s.registers side).modify n fun t => { t with joinPending := true })
  | .close side n, answer =>
      s' = s.setRegister side ((s.registers side).modify n fun t => { t with left := some answer })
  | .remove side id, () => s' = s.setRegister side ((s.registers side).strike id)
  | .sendMouse _ _ _ _ _, _ | .approve _ _ _, _ | .query, _ => s' = s
  | .swapQuerying, answer => answer = s.querying ∧ s' = { s with querying := true }
  | .endQuery, () => s' = { s with querying := false }

/-! ### Exports -/

/-- What an export hands back. -/
inductive Reply where
  | done
  | text (value : String)
  | sent (value : Bool)

/-- An exported function, as the accesses it makes. -/
abbrev Program : Type := Prog Access.Answer (Except Error Reply)

/-- The function ends here, with this error. -/
def refuse (error : Error) : Program := .ret (.error error)

/-- Goes on with a value that has been checked. -/
def checked {α : Type} (value : Except Error α) (k : α → Program) : Program :=
  match value with
  | .ok a => k a
  | .error error => refuse error

/-- `require_local_identity`. -/
def requireLocalIdentity (id : String) (k : Program) : Program :=
  .access .localId fun
    | some authoritative =>
      if authoritative = id then k
      else refuse (.invalid "Local identity does not match initialized configuration")
    | none => refuse (.failed "Initialize after privacy consent before connecting")

/-- The session behind a handle; one that is too long is no handle. -/
def lookup (side : Side) (id : String) (k : Nat → Program) : Program :=
  if id.utf8ByteSize > 64 then
    match side with
    | .viewer => refuse (.invalid "Invalid session ID")
    | .host => refuse (.invalid "Invalid modern host handle")
  else
    .access (.lookup side id) fun
      | some n => k n
      | none =>
        match side with
        | .viewer => refuse (.invalid "Unknown modern session")
        | .host => refuse (.invalid "Unknown modern host")

/-- A text, or the error in its place. -/
def textReply (answer : Except Error String) : Except Error Reply := answer.map .text

/-- What the frontend asks of a connection. -/
structure ConnectRequest where
  surfaceId : String
  address : String
  username : String
  localId : String
  localName : String
  password : String
  fps : Number

/-- `connect`. -/
def connect (r : ConnectRequest) (pin : Option (String × SignPublicKey)) : Program :=
  requireLocalIdentity r.localId <|
  checked (parseSurface r.surfaceId) fun surface =>
    match SocketAddr.parse r.address with
    | none => refuse (.invalid "Use an IP address and port")
    | some address =>
      let username := if r.username.isEmpty then Compat.ipText address.ip else r.username
      if address.port = 0 || username.isEmpty || username.utf8ByteSize > 256 ||
          r.localId.isEmpty || r.localId.utf8ByteSize > 256 || r.localName.utf8ByteSize > 256 ||
          r.password.utf8ByteSize > 4096 then
        refuse (.invalid "Invalid modern connection options")
      else
        checked (integer r.fps 1 240) fun fps =>
          let options : ViewerOptions :=
            { address := some address, username, localId := r.localId, localName := r.localName
              password := r.password, requestedFps := fps.toNat, clipboardEnabled := true
              imageQuality := .balanced }
          let start : Start :=
            match pin with
            | some (expectedId, key) => .verified expectedId key
            | none => .direct
          .access (.registerViewer surface options start) fun answer => .ret (textReply answer)

def engineConnect (r : ConnectRequest) : Program := connect r none

/-- `STANDARD.decode`, then `PublicKey::from_slice`. -/
def parseKey (text : String) : Option SignPublicKey :=
  (Base64.decode Base64.original text.toList).bind fun bytes => FixedBytes.fromSlice 32 bytes

/-- `engine_connect_verified`: the peer has to prove this identity. -/
def engineConnectVerified (r : ConnectRequest) (expectedPeerId peerSigningKey : String) : Program :=
  if expectedPeerId.isEmpty || expectedPeerId.utf8ByteSize > 512 ||
      peerSigningKey.utf8ByteSize ≠ 44 then
    refuse (.invalid "Invalid out-of-band host pin")
  else
    match Base64.decode Base64.original peerSigningKey.toList with
    | none => refuse (.invalid "Expected a base64 Ed25519 peer signing public key")
    | some bytes =>
      match FixedBytes.fromSlice 32 bytes with
      | none => refuse (.invalid "Expected a 32-byte Ed25519 peer signing public key")
      | some key =>
        let username := if r.username.isEmpty then expectedPeerId else r.username
        connect { r with username } (some (expectedPeerId, key))

/-- The key of the public rendezvous server. -/
def rsPubKey : String := "OeVuKk5nlHiXp+APNn0Y3pC1Iwpwn44JGqrQCsWqmBw="

/-- The last two are what `Config` says when it is asked. -/
structure ConnectIdRequest where
  surfaceId : String
  peerId : String
  localId : String
  localName : String
  password : String
  fps : Number
  rendezvousServer : String
  configuredKey : String

/-- `engine_connect_id`: over the rendezvous server. -/
def engineConnectId (r : ConnectIdRequest) : Program :=
  requireLocalIdentity r.localId <|
  checked (parseSurface r.surfaceId) fun surface =>
    let peerId := String.ofList (Compat.trim r.peerId.toList)
    if peerId.isEmpty || peerId.utf8ByteSize > 256 || peerId.toList.any isControl ||
        r.localId.isEmpty || r.localId.utf8ByteSize > 256 || r.localName.utf8ByteSize > 256 ||
        r.password.utf8ByteSize > 4096 then
      refuse (.invalid "Invalid modern ID connection options")
    else
      checked (integer r.fps 1 240) fun fps =>
        let licenceKey := if r.configuredKey.isEmpty then rsPubKey else r.configuredKey
        match parseKey licenceKey with
        | none => refuse (.failed "Configured rendezvous trust anchor is invalid")
        | some serverKey =>
          let options : ViewerOptions :=
            { address := none, username := peerId, localId := r.localId, localName := r.localName
              password := r.password, requestedFps := fps.toNat, clipboardEnabled := true
              imageQuality := .balanced }
          let config : RendezvousConfig :=
            { id := peerId, rendezvousServer := r.rendezvousServer, serverKey, licenceKey
              relayServer := none, connectTimeout := 45 }
          .access (.registerViewer surface options (.rendezvous config)) fun answer =>
            .ret (textReply answer)

def engineMouse (id : String) (kind button x y : Number) : Program :=
  checked (integer kind 0 (2 ^ 32 - 1)) fun kind =>
  checked (integer button 0 (2 ^ 32 - 1)) fun button =>
  checked (integer x (-2 ^ 31) (2 ^ 31 - 1)) fun x =>
  checked (integer y (-2 ^ 31) (2 ^ 31 - 1)) fun y =>
  lookup .viewer id fun n =>
    .access (.isClosing .viewer n) fun closing =>
      if closing then .ret (.ok (.sent false))
      else .access (.sendMouse n kind button x y) fun ok => .ret (.ok (.sent ok))

/-- `engine_request_close` and `engine_host_request_close`. -/
def engineRequestClose (side : Side) (id : String) : Program :=
  lookup side id fun n =>
    .access (.setClosing side n) fun _ =>
    .access (.requestClose side n) fun _ => .ret (.ok .done)

/-- `engine_close` and `engine_host_close`. -/
def engineClose (side : Side) (id : String) (error : Error) : Program :=
  lookup side id fun n =>
    .access (.setClosing side n) fun _ =>
    .access (.requestClose side n) fun _ =>
    .access (.swapJoinPending side n) fun pending =>
      if pending then
        match side with
        | .viewer =>
          refuse (.failed "Close already pending or quarantined; keep the Surface mounted")
        | .host => refuse (.failed "Host close already pending or quarantined")
      else
        .access (.close side n) fun closed =>
          if closed then .access (.remove side id) fun _ => .ret (.ok .done)
          else
            match side with
            | .viewer => refuse (.failed "Decoder teardown not proven; keep the Surface mounted")
            | .host => refuse error

def engineHostStart (width height fps : Number) : Program :=
  checked (integer width 2 3840) fun width =>
  checked (integer height 2 3840) fun height =>
  checked (integer fps 1 60) fun fps =>
    if width % 2 ≠ 0 || height % 2 ≠ 0 || width * height > 3840 * 2160 then
      refuse (.invalid "Host geometry must be even and at most UHD pixel area")
    else .access (.startHost width height fps) fun answer => .ret (textReply answer)

def engineHostApprove (id requestId : String) (allow : Bool) : Program :=
  if requestId.isEmpty || requestId.utf8ByteSize > 256 then
    refuse (.invalid "Invalid local approval request")
  else
    lookup .host id fun n =>
      .access (.isClosing .host n) fun closing =>
        if closing then .ret (.ok (.sent false))
        else .access (.approve n requestId allow) fun ok => .ret (.ok (.sent ok))

/-- `engine_capabilities`: one query at a time. -/
def engineCapabilities : Program :=
  .access .swapQuerying fun running =>
    if running then refuse (.failed "Capability query already pending")
    else
      .access .query fun report =>
      .access .endQuery fun _ => .ret (textReply report)

/-! ### The machine -/

/-- The exports, each with its arguments; `error` is what the host says when it does not
close. -/
inductive Export where
  | engineInitialize (appDir : String)
  | connect (request : ConnectRequest)
  | connectVerified (request : ConnectRequest) (expectedPeerId peerSigningKey : String)
  | connectId (request : ConnectIdRequest)
  | mouse (id : String) (kind button x y : Number)
  | requestClose (side : Side) (id : String)
  | close (side : Side) (id : String) (error : Error)
  | hostStart (width height fps : Number)
  | hostApprove (id requestId : String) (allow : Bool)
  | capabilities

/-- The program of an exported function. -/
def Export.program : Export → Program
  | .engineInitialize appDir => .access (.engineInitialize appDir) fun answer => .ret (textReply answer)
  | .connect request => engineConnect request
  | .connectVerified request id key => engineConnectVerified request id key
  | .connectId request => engineConnectId request
  | .mouse id kind button x y => engineMouse id kind button x y
  | .requestClose side id => engineRequestClose side id
  | .close side id error => engineClose side id error
  | .hostStart width height fps => engineHostStart width height fps
  | .hostApprove id requestId allow => engineHostApprove id requestId allow
  | .capabilities => engineCapabilities

/-- Any caller calls any export when its last call has returned. -/
def machine (ι : Type) : Machine Access.Answer (Except Error Reply) Shared ι where
  perform := perform
  start _ _ _ program := ∃ call : Export, program = call.program

/-- Nobody has called anything. -/
def start (ι : Type) : Config Access.Answer (Except Error Reply) Shared ι where
  shared := {}
  threads _ := .ret (.ok .done)

end Har

end RdEngine
