/-
RdEngine/Compat/Registry.lean

The registry of the session API (`session_compat.rs`): `session_add`,
`session_set_view_only`, `session_start` and `session_close`.

Every call holds the registry's lock, except `session_start`: it lets go of the
lock while its backend opens, and then looks the id up again.  So a start is
two functions here, `begin` and `finish`, and any calls may come between them.
-/
import RdEngine.Net
import RdEngine.Text
import RdEngine.Lib.Monitors
import RdEngine.Viewer.State
import RdEngine.Vnc.Live

namespace RdEngine

namespace Compat

open Lts

/-! ### Text -/

/-- `str::trim`. -/
def trim (text : List Char) : List Char :=
  ((text.dropWhile isWhitespace).reverse.dropWhile isWhitespace).reverse

def toAsciiLowercase (text : List Char) : List Char :=
  text.map fun c => if 'A' ≤ c ∧ c ≤ 'Z' then Char.ofNat (c.toNat + 32) else c

def stripPrefix (start text : List Char) : Option (List Char) :=
  if start.isPrefixOf text then some (text.drop start.length) else none

/-- `rsplit_once(':')`. -/
def rsplitColon (text : List Char) : Option (List Char × List Char) :=
  match text.reverse.dropWhile (· ≠ ':') with
  | [] => none
  | _ :: before => some (before.reverse, (text.reverse.takeWhile (· ≠ ':')).reverse)

/-- `parse::<u16>`.  A plus sign is accepted. -/
def parseU16 (text : List Char) : Option UInt16 :=
  let digits := if text.head? = some '+' then text.tail else text
  if digits = [] ∨ !digits.all Text.isDigit ∨ Text.decimal digits ≥ 65536 then none
  else some (.ofNat (Text.decimal digits))

def ipText : IpAddr → String
  | .v4 ip => ip.toText
  | .v6 ip => ip.toText

/-! ### Routes -/

inductive SessionProtocol where
  | rustDesk | vnc
  /-- understood, and not connectable yet -/
  | rdp
deriving DecidableEq, Repr

/-- `SessionRoute`: what a target stands for. -/
inductive SessionRoute where
  | direct (address : SocketAddr)
  | rendezvous (id : String)
  | scheme (protocol : SessionProtocol) (host : String) (port : UInt16)
deriving DecidableEq, Repr

/-- The port of an address that names none. -/
def defaultDirectPort : UInt16 := 21118

/-- A target with this prefix is one of a VNC server. -/
def vncScheme : List Char := "vnc://".toList

/-- The port of such a target that names none. -/
def vncDefaultPort : UInt16 := 5900

/-- A target with this prefix is one of an RDP server. -/
def rdpScheme : List Char := "rdp://".toList

/-- The port of such a target that names none. -/
def rdpDefaultPort : UInt16 := 3389

/-- The host and the port of a target that names a remote-desktop scheme. -/
def parseSchemeTarget (target : List Char) : Option (SessionProtocol × String × UInt16) := do
  let (protocol, rest, defaultPort) ←
    match stripPrefix vncScheme target with
    | some rest => some (SessionProtocol.vnc, rest, vncDefaultPort)
    | none => (stripPrefix rdpScheme target).map fun rest => (.rdp, rest, rdpDefaultPort)
  guard !(rest.isEmpty || rest.any isControl)
  match SocketAddr.parse (.ofList rest) with
  | some address =>
    guard (address.port ≠ 0)
    return (protocol, ipText address.ip, address.port)
  | none =>
    let (host, port) ←
      match rsplitColon rest with
      | some (host, port) => (parseU16 port).map (host, ·)
      | none => some (rest, defaultPort)
    guard !(host.isEmpty || port == 0)
    return (protocol, .ofList host, port)

/-- `parse_route`: a scheme, an address with or without a port, or an id. -/
def parseRoute (target : List Char) : Option SessionRoute :=
  match parseSchemeTarget target with
  | some (protocol, host, port) => some (.scheme protocol host port)
  | none =>
    match SocketAddr.parse (.ofList target) with
    | some address => if address.port ≠ 0 then some (.direct address) else none
    | none =>
      match IpAddr.parse (.ofList target) with
      | some ip => some (.direct { ip, port := defaultDirectPort })
      | none =>
        let text := String.ofList target
        if !target.isEmpty && text.utf8ByteSize ≤ 256 && !target.any isControl then
          some (.rendezvous text)
        else none

/-! ### Sessions -/

def maxCompatSessions : Nat := 6

/-- A session; `viewer` names a backend by its place among those opened.  The
generation tells the incarnations of an id apart. -/
structure CompatSession where
  id : String
  target : String
  route : SessionRoute
  password : String
  forceRelay : Bool
  viewOnly : Bool
  requestedFps : Nat
  imageQuality : String
  customImageQuality : Int
  clipboardEnabled : Bool
  phase : String
  protocol : SessionProtocol
  viewer : Option Nat
  generation : Nat
deriving DecidableEq

/-- The members of the options that are of their type. -/
structure AddOptions where
  isFileTransfer : Option Bool := none
  isViewCamera : Option Bool := none
  password : Option String := none
  forceRelay : Option Bool := none
  isViewOnly : Option Bool := none
  customFps : Option Nat := none
  imageQuality : Option String := none
  customImageQuality : Option Int := none
  clipboardEnabled : Option Bool := none

/-- What a call tells the frontend. -/
structure ActionResult where
  action : String
  ok : Bool
  message : String
deriving DecidableEq

/-- `normalize_quality_name`; an unknown name is the balanced quality. -/
def normalizeQualityName (value : String) : String :=
  match String.ofList (toAsciiLowercase (trim value.toList)) with
  | "low" => "low"
  | "best" => "best"
  | "custom" => "custom"
  | _ => "balanced"

/-- The quality of a session as the engine takes it. -/
def engineQuality (session : CompatSession) : Viewer.ViewerImageQuality :=
  match session.imageQuality with
  | "low" => .low
  | "best" => .best
  | "custom" =>
    if 10 ≤ session.customImageQuality ∧ session.customImageQuality ≤ 2000 then
      .custom session.customImageQuality
    else .balanced
  | _ => .balanced

/-! ### The registry -/

/-- The sessions, one for an id. -/
abbrev Registry := List CompatSession

namespace Registry

def get (registry : Registry) (id : String) : Option CompatSession :=
  registry.find? (·.id == id)

/-- What `get_mut` is used for. -/
def modify (registry : Registry) (id : String) (f : CompatSession → CompatSession) : Registry :=
  registry.map fun session => if session.id == id then f session else session

def remove (registry : Registry) (id : String) : Registry := registry.filter (·.id != id)

end Registry

/-- `session_add`, up to the registry: the session, of the next generation. -/
def newSession (id : String) (peerTarget : String) (options : Option AddOptions)
    (generation : Nat) : Except String CompatSession := do
  let target := trim peerTarget.toList
  let some options := options | throw "Invalid session options"
  let some route := parseRoute target | throw "Invalid peer target"
  if id.isEmpty || id.utf8ByteSize > 64 || id.toList.any isControl then
    throw "Invalid session ID"
  if options.isFileTransfer.getD false || options.isViewCamera.getD false then
    throw "This compatibility milestone supports desktop viewer sessions only"
  let password := options.password.getD ""
  if password.utf8ByteSize > 4096 then throw "Password is too long"
  return {
    id, target := .ofList target, route, password
    forceRelay := options.forceRelay.getD false
    viewOnly := options.isViewOnly.getD false
    requestedFps := (options.customFps.filter fun fps => 1 ≤ fps ∧ fps ≤ 240).getD 60
    imageQuality := normalizeQualityName (options.imageQuality.getD "balanced")
    customImageQuality :=
      (options.customImageQuality.filter fun quality => 10 ≤ quality ∧ quality ≤ 2000).getD 0
    clipboardEnabled := options.clipboardEnabled.getD false
    phase := "created"
    protocol := .rustDesk
    viewer := none
    generation }

/-- `session_add`. -/
def sessionAdd (id peerTarget : String) (options : Option AddOptions) (generation : Nat)
    (registry : Registry) : Except String CompatSession := do
  let session ← newSession id peerTarget options generation
  if (registry.get id).isSome then throw "Session already exists"
  if registry.length ≥ maxCompatSessions then throw "Session limit reached"
  return session

/-- `session_set_view_only`. -/
def sessionSetViewOnly (id : String) (enabled : Bool) (registry : Registry) :
    Registry × ActionResult :=
  match registry.get id with
  | none => (registry, ⟨"session_set_view_only", false, "Session not found"⟩)
  | some session =>
    if session.viewer.isSome then
      (registry, ⟨"session_set_view_only", false,
        "View-only policy cannot change after session start"⟩)
    else
      (registry.modify id fun session => { session with viewOnly := enabled },
        ⟨"session_set_view_only", true, "Updated local input policy"⟩)

structure ViewerOptions where
  address : Option SocketAddr
  username : String
  localId : String
  localName : String
  password : String
  requestedFps : Nat
  clipboardEnabled : Bool
  imageQuality : Viewer.ViewerImageQuality
deriving DecidableEq

/-- What a start takes from its session.  `generation` is the session's, which
the source does not keep. -/
structure Opening where
  id : String
  generation : Nat
  route : SessionRoute
  options : ViewerOptions
  forceRelay : Bool
  password : String
  viewOnly : Bool
deriving DecidableEq

def viewerOptions (localId : String) (session : CompatSession) : ViewerOptions where
  address :=
    match session.route with
    | .direct address => some address
    | .rendezvous _ | .scheme _ _ _ => none
  username :=
    match session.route with
    | .direct address => ipText address.ip
    | .rendezvous id => id
    | .scheme _ host port => host ++ ":" ++ toString port.toNat
  localId
  localName := "RustDesk HMOS"
  password := ""
  requestedFps := session.requestedFps
  clipboardEnabled := session.clipboardEnabled
  imageQuality := engineQuality session

/-- What a start takes out of the session. -/
def opening (localId : String) (session : CompatSession) : Opening where
  id := session.id
  generation := session.generation
  route := session.route
  options := viewerOptions localId session
  forceRelay := session.forceRelay
  password := session.password
  viewOnly := session.viewOnly

/-- `session_start` up to where it lets go of the lock; the password is moved
out of the session. -/
def sessionStart.begin (id localId : String) (registry : Registry) :
    Registry × (ActionResult ⊕ Opening) :=
  match registry.get id with
  | none => (registry, .inl ⟨"session_start", false, "Session not found"⟩)
  | some session =>
    if session.viewer.isSome then
      (registry, .inl ⟨"session_start", true, "Session already started"⟩)
    else if localId.isEmpty then
      (registry, .inl ⟨"session_start", false, "Runtime identity is unavailable"⟩)
    else
      (registry.modify id fun session => { session with phase := "starting", password := "" },
        .inr (opening localId session))

/-- How the second half of a start ends. -/
inductive Finish where
  /-- the backend is the viewer of a session of this generation -/
  | installed (backend generation : Nat)
  /-- there is no session of the id: the backend is asked to close -/
  | removed (backend : Option Nat)
  | failed
deriving DecidableEq

/-- `session_start` after the open.  `viewer` is the backend, if there is one, and
whether it is one of VNC. -/
def sessionStart.finish (opening : Opening) (viewer : Option (Nat × Bool)) (registry : Registry) :
    Registry × Finish × ActionResult :=
  match registry.get opening.id with
  | none =>
    (registry, .removed (viewer.map (·.1)), ⟨"session_start", false, "Session was removed"⟩)
  | some session =>
    match viewer with
    | some (backend, isVnc) =>
      (registry.modify opening.id fun session =>
          { session with
            protocol := if isVnc then .vnc else .rustDesk
            viewer := some backend },
        .installed backend session.generation,
        ⟨"session_start", true, (if isVnc then "vnc" else "rustdesk") ++ " session started"⟩)
    | none =>
      (registry.modify opening.id fun session => { session with phase := "failed" }, .failed,
        ⟨"session_start", false, "RustDesk Enhanced viewer could not start"⟩)

/-! ### Backends and threads -/

/-- A backend, by its protocol. -/
inductive BackendKind where
  | rustDesk
  /-- a live session, and whether it was opened with input allowed -/
  | vnc (live : Vnc.LiveSession) (keyboardAllowed : Bool)

def BackendKind.isVnc : BackendKind → Bool
  | .rustDesk => false
  | .vnc _ _ => true

/-- A backend that was opened. -/
structure Backend where
  kind : BackendKind
  opening : Opening
  closeRequested : Bool := false
  /-- the messages after the handshake, of a VNC backend -/
  sent : List Bytes := []

/-- What a start opens; the server has answered with `live`.  A route of RDP
opens nothing. -/
def Opening.backend (opening : Opening) (live : Vnc.LiveSession) : Option BackendKind :=
  match opening.route with
  | .scheme .vnc _ _ => some (.vnc live !opening.viewOnly)
  | .scheme _ _ _ => none
  | .direct _ | .rendezvous _ => some .rustDesk

/-- A thread that calls `session_start`. -/
inductive Thread where
  | idle
  | opening (opening : Opening)
  /-- the open is over, with a backend or with an error -/
  | opened (opening : Opening) (backend : Option Nat)

/-- The registry with the backends it has made and the threads that start them. -/
structure State where
  registry : Registry := []
  /-- generations handed out -/
  generations : Nat := 0
  backends : List Backend := []
  /-- generations whose surface is cancelled -/
  cancelled : List Nat := []
  threads : Nat → Thread := fun _ => .idle

def State.start : State := {}

/-- `request_close` of a backend. -/
def State.requestClose (s : State) (backend : Option Nat) : List Backend :=
  match backend with
  | some backend => s.backends.modify backend fun b => { b with closeRequested := true }
  | none => s.backends

/-- A backend that finds no session is asked to close. -/
def State.finished (s : State) : Finish → List Backend
  | .removed backend => s.requestClose backend
  | .installed _ _ | .failed => s.backends

/-- What happens at the registry. -/
inductive Label where
  | adds (session : CompatSession)
  | setsViewOnly (id : String) (enabled : Bool) (result : ActionResult)
  /-- a call that changes nothing -/
  | refuses (action : String)
  /-- a start that ends with its first half -/
  | relayForced (opening : Opening)
  | begins (thread : Nat) (opening : Opening)
  | opens (thread backend : Nat)
  | openFails (thread : Nat)
  | finishes (thread : Nat) (finish : Finish)
  | closes (session : CompatSession)

/-- `viewer` for `finish`. -/
def State.viewer (s : State) (backend : Option Nat) : Option (Nat × Bool) :=
  backend.bind fun b => (s.backends[b]?).map fun backend => (b, backend.kind.isVnc)

/-- One critical section of a call, or a step of a backend. -/
inductive Step : State → Label → State → Prop
  | add {s : State} {id peerTarget : String} {options : Option AddOptions}
      {session : CompatSession}
      (hadd : sessionAdd id peerTarget options (s.generations + 1) s.registry = .ok session) :
      Step s (.adds session)
        { s with registry := session :: s.registry, generations := s.generations + 1 }
  | addRefused {s : State} {id peerTarget : String} {options : Option AddOptions} {error : String}
      (hadd : sessionAdd id peerTarget options (s.generations + 1) s.registry = .error error) :
      Step s (.refuses "session_add") s
  | setViewOnly {s : State} {id : String} {enabled : Bool} :
      Step s (.setsViewOnly id enabled (sessionSetViewOnly id enabled s.registry).2)
        { s with registry := (sessionSetViewOnly id enabled s.registry).1 }
  | startRefused {s : State} {id localId : String} {result : ActionResult}
      (hbegin : (sessionStart.begin id localId s.registry).2 = .inl result) :
      Step s (.refuses "session_start") s
  | forcedRelay {s : State} {id localId : String} {registry : Registry} {opening : Opening}
      (hbegin : sessionStart.begin id localId s.registry = (registry, .inr opening))
      (hforce : opening.forceRelay = true) :
      Step s (.relayForced opening) { s with registry }
  | begin {s : State} {thread : Nat} {id localId : String} {registry : Registry}
      {opening : Opening} (hthread : s.threads thread = .idle)
      (hbegin : sessionStart.begin id localId s.registry = (registry, .inr opening))
      (hforce : opening.forceRelay = false) :
      Step s (.begins thread opening)
        { s with registry, threads := Function.update s.threads thread (.opening opening) }
  /- while the lock is free -/
  | opens {s : State} {thread : Nat} {opening : Opening} {live : Vnc.LiveSession}
      {kind : BackendKind} (hthread : s.threads thread = .opening opening)
      (hopen : opening.backend live = some kind) :
      Step s (.opens thread s.backends.length)
        { s with
          backends := s.backends ++ [{ kind, opening }]
          threads :=
            Function.update s.threads thread (.opened opening (some s.backends.length)) }
  | openFails {s : State} {thread : Nat} {opening : Opening}
      (hthread : s.threads thread = .opening opening) :
      Step s (.openFails thread)
        { s with threads := Function.update s.threads thread (.opened opening none) }
  /- of a rendezvous route, without a usable configuration -/
  | unconfigured {s : State} {thread : Nat} {opening : Opening} {id : String}
      (hthread : s.threads thread = .opening opening) (hroute : opening.route = .rendezvous id) :
      Step s (.refuses "session_start")
        { s with threads := Function.update s.threads thread .idle }
  | finish {s : State} {thread : Nat} {opening : Opening} {backend : Option Nat}
      {registry : Registry} {finish : Finish} {result : ActionResult}
      (hthread : s.threads thread = .opened opening backend)
      (hfinish : sessionStart.finish opening (s.viewer backend) s.registry
        = (registry, finish, result)) :
      Step s (.finishes thread finish)
        { s with
          registry
          backends := s.finished finish
          threads := Function.update s.threads thread .idle }
  | close {s : State} {id : String} {session : CompatSession}
      (hget : s.registry.get id = some session) :
      Step s (.closes session)
        { s with
          registry := s.registry.remove id
          cancelled := session.generation :: s.cancelled
          backends := s.requestClose session.viewer }
  | closeRefused {s : State} {id : String} (hget : s.registry.get id = none) :
      Step s (.refuses "session_close") s

end Compat

end RdEngine
