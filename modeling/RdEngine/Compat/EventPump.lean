/-
RdEngine/Compat/EventPump.lean

The two event pumps: `collect` of the Flutter bridge (`flutter_session.rs`), and
`collect_engine_events` of the session API (`session_compat.rs`).

A pump looks at a snapshot of the engine now and then, and says what has changed
since the last one in events of the user interface.  Both are written here as a
sequence of stages, in the order of the source.  What `serde_json` makes of a
list of displays is the parameter `toText`.
-/
import RdEngine.Compat.Registry
import RdEngine.Viewer.Authenticate

namespace RdEngine

namespace Compat

open Viewer (Phase)

/-! ### Snapshots -/

/-- What the pumps read of a snapshot. -/
structure ViewerSnapshot where
  phase : Phase
  error : Option String := none
  width : Int := 0
  height : Int := 0
  codec : String := ""
  route : String := ""
  keyboardAllowed : Bool := false
  clipboardAllowed : Bool := false
  closed : Bool := false
  encrypted : Bool := false
deriving DecidableEq, Repr

/-- A display of the peer's report; `scale` by the bits of its double. -/
structure DisplayReport extends DisplayInfo where
  cursorEmbedded : Bool := false
  scale : UInt64 := 0
  originalResolution : Option (Int × Int) := none
deriving DecidableEq

/-- What the viewer knows of its peer after the login. -/
structure PeerReport where
  username : String := ""
  hostname : String := ""
  platform : String := ""
  version : String := ""
  currentDisplay : Int := 0
  displays : List DisplayReport := []
deriving DecidableEq

/-! ### Events -/

/-- A member of a display's JSON object. -/
inductive Scalar where
  | int (value : Int)
  | bool (value : Bool)
  | double (bits : UInt64)
  | text (value : String)
deriving DecidableEq

/-- A JSON object, as a list of its members. -/
abbrev JsonObject := List (String × Scalar)

/-- An event for the user interface: an envelope, or a text of its own. -/
inductive UiEvent where
  | envelope (fields : List (String × String))
  | text (value : String)
deriving DecidableEq, Repr

/-- What selects the handler. -/
def UiEvent.name : UiEvent → String
  | .envelope fields => (fields.lookup "name").getD ""
  | .text value => value

def msgbox (kind title text : String) : UiEvent :=
  .envelope [("name", "msgbox"), ("type", kind), ("title", title), ("text", text)]

/-- The prompt of a connection whose peer could not be verified. -/
def insecureConnection : UiEvent :=
  msgbox "insecure-connection" "Insecure Connection"
    ("Direct IP connection could not verify the remote identity. " ++
      "Continue only if you trust this network and endpoint.")

def connectionReady (snapshot : ViewerSnapshot) : UiEvent :=
  .envelope [
    ("name", "connection_ready"),
    ("secure", toString snapshot.encrypted),
    ("direct", toString (snapshot.route == "direct_tcp")),
    ("stream_type", snapshot.route)]

/-- `peer_info`; a host name that the peer does not give is the caller's. -/
def peerInfo (peer : Option PeerReport) (hostname displays : String) : UiEvent :=
  .envelope [
    ("name", "peer_info"),
    ("username", (peer.map (·.username)).getD ""),
    ("hostname", ((peer.map (·.hostname)).filter fun hostname => !hostname.isEmpty).getD hostname),
    ("platform", (peer.map (·.platform)).getD ""),
    ("version", (peer.map (·.version)).getD ""),
    ("current_display", toString ((peer.map (·.currentDisplay)).getD 0)),
    ("displays", displays)]

/-- The event `permission`: what the snapshot allows. -/
def permission (snapshot : ViewerSnapshot) : UiEvent :=
  .envelope [
    ("name", "permission"),
    ("keyboard", toString snapshot.keyboardAllowed),
    ("clipboard", toString snapshot.clipboardAllowed)]

/-- `switch_display`: the size of the stream, for the display that is shown. -/
def switchDisplay (display : Int) (snapshot : ViewerSnapshot) : UiEvent :=
  .envelope [
    ("name", "switch_display"),
    ("display", toString display),
    ("x", "0"),
    ("y", "0"),
    ("width", toString snapshot.width),
    ("height", toString snapshot.height),
    ("cursor_embedded", "0"),
    ("resolutions", "[]"),
    ("original_width", toString snapshot.width),
    ("original_height", toString snapshot.height)]

/-- The event `update_quality_status`; only the codec is known. -/
def qualityStatus (snapshot : ViewerSnapshot) : UiEvent :=
  .envelope [
    ("name", "update_quality_status"),
    ("codec_format", snapshot.codec),
    ("fps", ""),
    ("delay", ""),
    ("speed", ""),
    ("target_bitrate", ""),
    ("chroma", "")]

/-- The stream's own geometry, when the peer reports no display. -/
def streamDisplay (snapshot : ViewerSnapshot) : JsonObject :=
  [("x", .int 0), ("y", .int 0), ("width", .int snapshot.width), ("height", .int snapshot.height),
    ("cursor_embedded", .bool false)]

/-- The second-factor prompt, in the two phases that wait for a code. -/
def factorPrompt (snapshot : ViewerSnapshot) (phaseChanged : Bool) : List UiEvent :=
  if (snapshot.phase = .awaiting2fa ∨ snapshot.phase = .awaiting2faRetry) ∧ phaseChanged then
    [msgbox "input-2fa" "2FA Required"
      (if snapshot.phase = .awaiting2faRetry then "Wrong 2FA Code" else "2FA Required")]
  else []

/-- The error of a session that has one. -/
def errorBox (snapshot : ViewerSnapshot) : List UiEvent :=
  match snapshot.error with
  | some error => [msgbox "error" "Connection Error" error]
  | none => []

/-! ### Stages -/

/-- A part of a pump: it changes what the pump remembers, and says some events. -/
abbrev Stage (σ : Type) := σ → σ × List UiEvent

/-- A stage, and the next one on what it leaves. -/
def Stage.then {σ : Type} (first second : Stage σ) : Stage σ := fun s =>
  let (s, out) := first s
  let (s, out') := second s
  (s, out ++ out')

/-! ### The Flutter pump -/

namespace Flutter

/-- No last phase at first. -/
structure PumpState where
  lastPhase : Option Phase := none
  peerInfoSent : Bool := false
  permissionSent : Bool := false
  closeSent : Bool := false
  lastCodec : String := ""
  lastWidth : Int := 0
  lastHeight : Int := 0
  displaySent : Bool := false
deriving DecidableEq, Repr

/-- The displays of the peer; one that reports none has the display of the stream. -/
def displaysJson (toText : List JsonObject → String) (peer : Option PeerReport)
    (snapshot : ViewerSnapshot) : String :=
  match (peer.map (·.displays)).getD [] with
  | [] => toText [streamDisplay snapshot]
  | displays => toText (displays.map fun display =>
      [("x", .int display.x), ("y", .int display.y), ("width", .int display.width),
        ("height", .int display.height), ("cursor_embedded", .bool display.cursorEmbedded),
        ("name", .text display.name)])

variable (toText : List JsonObject → String) (snapshot : ViewerSnapshot)
  (peer : Option PeerReport)

/-- The peer is announced once, when the login is through. -/
def announce : Stage PumpState := fun pump =>
  if snapshot.phase = .authenticated ∧ !pump.peerInfoSent then
    ({ pump with peerInfoSent := true, displaySent := false },
      [connectionReady snapshot, peerInfo peer "" (displaysJson toText peer snapshot)])
  else (pump, [])

/-- The permissions are told once, behind the peer. -/
def tellPermission : Stage PumpState := fun pump =>
  if pump.peerInfoSent ∧ !pump.permissionSent then
    ({ pump with permissionSent := true }, [permission snapshot])
  else (pump, [])

/-- The display is told with the peer, and again whenever the stream changes its size. -/
def tellDisplay : Stage PumpState := fun pump =>
  if pump.peerInfoSent ∧ snapshot.width > 0 ∧ snapshot.height > 0 ∧
      (!pump.displaySent ∨ snapshot.width ≠ pump.lastWidth ∨ snapshot.height ≠ pump.lastHeight)
  then
    ({ pump with lastWidth := snapshot.width, lastHeight := snapshot.height, displaySent := true },
      [switchDisplay 0 snapshot])
  else (pump, [])

/-- The codec is told whenever it changes. -/
def tellCodec : Stage PumpState := fun pump =>
  if !snapshot.codec.isEmpty ∧ pump.lastCodec ≠ snapshot.codec then
    ({ pump with lastCodec := snapshot.codec }, [qualityStatus snapshot])
  else (pump, [])

/-- A prompt is shown when its phase begins. -/
def prompt : Stage PumpState := fun pump =>
  let phaseChanged := pump.lastPhase ≠ some snapshot.phase
  (pump,
    (if phaseChanged ∧ snapshot.phase = .awaitingInsecureConfirmation then [insecureConnection]
      else []) ++
    (if snapshot.phase = .awaitingPassword ∧ phaseChanged then
      [msgbox "input-password" "Password Required" "Password Required"] else []) ++
    factorPrompt snapshot phaseChanged)

/-- The end is told once, with the error if there is one. -/
def tellClose : Stage PumpState := fun pump =>
  if snapshot.closed ∧ !pump.closeSent then
    ({ pump with closeSent := true }, errorBox snapshot ++ [.text "close"])
  else (pump, [])

/-- The phase is kept for the next look. -/
def remember : Stage PumpState := fun pump => ({ pump with lastPhase := some snapshot.phase }, [])

/-- `collect`. -/
def collect : Stage PumpState :=
  (announce toText snapshot peer).then <| (tellPermission snapshot).then <|
    (tellDisplay snapshot).then <| (tellCodec snapshot).then <| (prompt snapshot).then <|
      (tellClose snapshot).then (remember snapshot)

end Flutter

/-! ### The pump of the session API -/

/-- A session, with what its pump remembers. -/
structure PumpedSession extends CompatSession where
  initialPasswordSupplied : Bool
  pendingEvents : List UiEvent := []
  lastEnginePhase : Option Phase := none
  loginAttempts : UInt64 := 0
  /-- `u64::MAX`: no prompt was answered yet -/
  promptedLoginAttempts : UInt64 := 18446744073709551615
  peerInfoEmitted : Bool := false
  permissionEmitted : Bool := false
  closeEmitted : Bool := false
  lastCodec : String := ""
  activeDisplay : Int := 0
  activeWidth : Int := 0
  activeHeight : Int := 0
  displayReported : Bool := false

namespace PumpedSession

/-- As `session_add` leaves it. -/
def new (session : CompatSession) : PumpedSession where
  toCompatSession := session
  initialPasswordSupplied := !session.password.isEmpty

/-- The count of a submitted password, of `session_login`. -/
def loggedIn (session : PumpedSession) : PumpedSession where
  __ := session
  loginAttempts :=
    if session.loginAttempts = 18446744073709551615 then session.loginAttempts
    else session.loginAttempts + 1
  phase := "authenticating"

/-- A VNC session has no login: it is ready as soon as it is connected. -/
def readyForPeerInfo (protocol : SessionProtocol) (phase : Phase) : Bool :=
  match protocol with
  | .rustDesk => phase == .authenticated
  | .vnc => phase == .connected || phase == .streaming
  | .rdp => false

/-- The displays of the peer, as the other bridge words them. -/
def displaysJson (toText : List JsonObject → String) (peer : Option PeerReport)
    (snapshot : ViewerSnapshot) : String :=
  match (peer.map (·.displays)).getD [] with
  | [] => toText [streamDisplay snapshot]
  | displays => toText (displays.map fun display =>
      [("x", .int display.x), ("y", .int display.y), ("width", .int display.width),
        ("height", .int display.height), ("cursor_embedded", .bool display.cursorEmbedded),
        ("name", .text display.name), ("online", .bool display.online),
        ("scale", .double display.scale),
        ("original_width", .int ((display.originalResolution.map (·.1)).getD 0)),
        ("original_height", .int ((display.originalResolution.map (·.2)).getD 0))])

variable (toText : List JsonObject → String) (snapshot : ViewerSnapshot)
  (peer : Option PeerReport)

/-- The password prompt comes again after each password that was submitted. -/
def prompt : Stage PumpedSession := fun session =>
  let phaseChanged := session.lastEnginePhase ≠ some snapshot.phase
  let insecure := if snapshot.phase = .awaitingInsecureConfirmation ∧ phaseChanged then
    [insecureConnection] else []
  if snapshot.phase = .awaitingPassword ∧
      (phaseChanged ∨ session.promptedLoginAttempts ≠ session.loginAttempts) then
    let retry := session.initialPasswordSupplied || session.loginAttempts > 0
    ({ session with promptedLoginAttempts := session.loginAttempts },
      insecure ++ [msgbox (if retry then "re-input-password" else "input-password")
        "Password Required" (if retry then "Wrong Password" else "Password Required")] ++
      factorPrompt snapshot phaseChanged)
  else (session, insecure ++ factorPrompt snapshot phaseChanged)

/-- The peer is announced once, and the session takes its display and size. -/
def announce : Stage PumpedSession := fun session =>
  if readyForPeerInfo session.protocol snapshot.phase ∧ !session.peerInfoEmitted then
    ({ session with
        activeDisplay := (peer.map (·.currentDisplay)).getD 0
        activeWidth := snapshot.width
        activeHeight := snapshot.height
        displayReported := false
        peerInfoEmitted := true },
      [connectionReady snapshot,
        peerInfo peer session.target (displaysJson toText peer snapshot)])
  else (session, [])

/-- The display is told with the peer, and again whenever the stream changes its size. -/
def tellDisplay : Stage PumpedSession := fun session =>
  let sizeChanged := snapshot.width > 0 ∧ snapshot.height > 0 ∧
    (snapshot.width ≠ session.activeWidth ∨ snapshot.height ≠ session.activeHeight)
  if session.peerInfoEmitted ∧ (sizeChanged ∨ !session.displayReported) then
    ({ session with
        activeWidth := snapshot.width, activeHeight := snapshot.height, displayReported := true },
      [switchDisplay session.activeDisplay snapshot])
  else (session, [])

/-- The permissions are told once, behind the peer. -/
def tellPermission : Stage PumpedSession := fun session =>
  if session.peerInfoEmitted ∧ !session.permissionEmitted then
    ({ session with permissionEmitted := true }, [permission snapshot])
  else (session, [])

/-- The codec is told whenever it changes. -/
def tellCodec : Stage PumpedSession := fun session =>
  if !snapshot.codec.isEmpty ∧ session.lastCodec ≠ snapshot.codec then
    ({ session with lastCodec := snapshot.codec }, [qualityStatus snapshot])
  else (session, [])

/-- The end is told once, in an envelope of its own. -/
def tellClose : Stage PumpedSession := fun session =>
  if snapshot.closed ∧ !session.closeEmitted then
    ({ session with closeEmitted := true },
      errorBox snapshot ++ [.envelope [("name", "close")]])
  else (session, [])

/-- The phase is kept for the next look, and shown as a text. -/
def remember : Stage PumpedSession := fun session =>
  ({ session with lastEnginePhase := some snapshot.phase, phase := snapshot.phase.text }, [])

/-- What one look of the pump does, in the order of the source. -/
def stages : Stage PumpedSession :=
  (prompt snapshot).then <| (announce toText snapshot peer).then <|
    (tellDisplay snapshot).then <| (tellPermission snapshot).then <|
      (tellCodec snapshot).then <| (tellClose snapshot).then (remember snapshot)

/-- `collect_engine_events`: the events wait in the session. -/
def collectEngineEvents (session : PumpedSession) : PumpedSession :=
  let (session, out) := stages toText snapshot peer session
  { session with pendingEvents := session.pendingEvents ++ out }

/-- `session_poll_events`, with a viewer: the events it hands over. -/
def pollEvents (limit : UInt32) (session : PumpedSession) : PumpedSession × List UiEvent :=
  let session := collectEngineEvents toText snapshot peer session
  let count := min limit.toNat 256
  ({ session with pendingEvents := session.pendingEvents.drop count },
    session.pendingEvents.take count)

end PumpedSession

end Compat

end RdEngine
