/-
RdEngine/Compat/Input.lean

Input: from the session API through the session's backend to the messages of the
VNC server (`session_compat.rs`, `session_backend.rs`).

The session API looks at the policy of its session before every input call.  The
backend keeps whether it was opened with input allowed, and never looks at it.
-/
import RdEngine.Compat.Registry
import RdEngine.Vnc.Frontend

namespace RdEngine

namespace Compat

open Viewer (ViewerKey)
open Vnc (VncError LiveSession encodeKeyEvent)

theorem eq_ok_of_toOption {ε α : Type} {result : Except ε α} {value : α}
    (h : result.toOption = some value) : result = .ok value := by
  cases result with
  | error e => cases h
  | ok found => exact congrArg _ (Option.some.inj h)

/-! ### The pointer, the keys -/

/-- The errors of the translation, and those of the live session. -/
inductive InputError where
  | geometry (text : String)
  | protocol (text : String)
  /-- "control key {key:?} has no X11 keysym" -/
  | controlKey (key : ControlKey)
  | vnc (error : VncError)
deriving DecidableEq

/-- The facade's button numbers, by name; RFB has a bit for each. -/
def vncButton (number : Nat) : Except InputError UInt8 :=
  match number with
  | 1 => .ok 1
  | 2 => .ok 4
  | 3 => .ok 2
  | 4 => .ok 8
  | 5 => .ok 16
  | 0 => .ok 0
  | other => .error (.protocol s!"button {other} has no RFB equivalent")

/-- The buttons held and the place. -/
def vncPointer (kind button : Nat) (x y : Int) : Except InputError (UInt8 × UInt16 × UInt16) := do
  if x < 0 ∨ y < 0 then throw (.geometry s!"pointer ({x},{y}) is negative")
  let mask ←
    match kind with
    | 0 => pure 0
    | 1 | 3 | 4 | 5 => vncButton button
    -- a release names the button, and holds none
    | 2 => (vncButton button).map fun _ => 0
    | other => throw (.protocol s!"mouse event kind {other} has no RFB equivalent")
  return (mask, .ofNat x.toNat, .ofNat y.toNat)

/-- The X11 keysyms of the modifiers, in the order they are pressed. -/
def vncModifiers (alt ctrl shift command : Bool) : List UInt32 :=
  (if ctrl then [0xFFE3] else []) ++ (if alt then [0xFFE9] else []) ++
    (if shift then [0xFFE1] else []) ++ if command then [0xFFEB] else []

/-- The X11 keysym of a control key. -/
def controlKeysym : ControlKey → Option UInt32
  | .alt => some 0xFFE9
  | .backspace => some 0xFF08
  | .capsLock => some 0xFFE5
  | .control => some 0xFFE3
  | .delete => some 0xFFFF
  | .downArrow => some 0xFF54
  | .end_ => some 0xFF57
  | .escape => some 0xFF1B
  | .f1 => some 0xFFBE
  | .f2 => some 0xFFBF
  | .f3 => some 0xFFC0
  | .f4 => some 0xFFC1
  | .f5 => some 0xFFC2
  | .f6 => some 0xFFC3
  | .f7 => some 0xFFC4
  | .f8 => some 0xFFC5
  | .f9 => some 0xFFC6
  | .f10 => some 0xFFC7
  | .f11 => some 0xFFC8
  | .f12 => some 0xFFC9
  | .home => some 0xFF50
  | .leftArrow => some 0xFF51
  | .meta_ => some 0xFFEB
  | .pageDown => some 0xFF56
  | .pageUp => some 0xFF55
  | .return_ => some 0xFF0D
  | .rightArrow => some 0xFF53
  | .shift => some 0xFFE1
  | .space => some 0x20
  | .tab => some 0xFF09
  | .upArrow => some 0xFF52
  | .insert => some 0xFF63
  | _ => none

/-- `vnc_keysym`: the keysym of a key, where VNC has one. -/
def vncKeysym : ViewerKey → Except InputError UInt32
  | .character value =>
    if value > 0xFF then .error (.protocol s!"key code {value} has no Latin-1 keysym")
    else .ok (.ofNat value)
  | .control key =>
    match controlKeysym key with
    | some keysym => .ok keysym
    | none => .error (.controlKey key)

/-! ### The backend -/

/-- The calls of a backend that write to its server. -/
inductive BackendCall where
  | sendMouse (kind button : Nat) (x y : Int)
  | sendKey (key : ViewerKey) (down press alt ctrl shift command : Bool)
  | sendText (value : String)
  | sendClipboardText (text : String)
  /-- `switch_display` and `refresh_video` -/
  | refresh (display : Int)

/-- A key between its modifiers. -/
def keyMessages (keysym : UInt32) (modifiers : List UInt32) (down press : Bool) : List Bytes :=
  modifiers.map (encodeKeyEvent true) ++ (if down then [encodeKeyEvent true keysym] else []) ++
    (if !down || press then [encodeKeyEvent false keysym] else []) ++
      modifiers.reverse.map (encodeKeyEvent false)

/-- The messages of a call, in their order; a call that is refused has none. -/
def BackendCall.messages (live : LiveSession) : BackendCall → List Bytes
  | .sendMouse kind button x y =>
    match vncPointer kind button x y with
    | .error _ => []
    | .ok (mask, x, y) => (Vnc.Live.sendMouse live mask x y).toOption.toList
  | .sendKey key down press alt ctrl shift command =>
    match vncKeysym key with
    | .error _ => []
    | .ok keysym => keyMessages keysym (vncModifiers alt ctrl shift command) down press
  -- up to a character without a Latin-1 keysym
  | .sendText value =>
    (value.toList.takeWhile fun c => c.toNat ≤ 0xFF).flatMap fun c =>
      [encodeKeyEvent true (.ofNat c.toNat), encodeKeyEvent false (.ofNat c.toNat)]
  | .sendClipboardText text => (Vnc.Live.sendClipboard text).toOption.toList
  | .refresh display => if display ≠ 0 then [] else [Vnc.Live.refresh live]

/-! ### The session API -/

/-- The calls of the session API that may reach the backend, with the key its name
or its code stands for. -/
inductive FacadeCall where
  | sendMouseEvent (kind button : Nat) (x y : Int)
  | inputKey (key : Option ViewerKey) (down press alt ctrl shift command : Bool)
  | handleFlutterKeyEvent (key : Option ViewerKey) (down : Bool)
  | inputString (value : String)
  | sendClipboard (content : String)
  | switchDisplay (display : Int)
deriving DecidableEq

/-- A call that needs a viewer. -/
def started (session : CompatSession) (call : BackendCall) : Except String BackendCall :=
  if session.viewer.isSome then .ok call else .error "Session is not started"

/-- What a call asks of the session's backend, or why it is refused.  The mouse call
gives no reason. -/
def FacadeCall.forward (session : CompatSession) : FacadeCall → Except String BackendCall
  | .sendMouseEvent kind button x y =>
    if session.viewOnly || session.viewer.isNone then .error ""
    else .ok (.sendMouse kind button x y)
  | .inputKey key down press alt ctrl shift command => do
    let some key := key | throw "Unknown key name"
    if !down && !press then throw "Key event must be a press or a key down"
    if session.viewOnly then throw "Input is disabled for a view-only session"
    started session (.sendKey key down press alt ctrl shift command)
  | .handleFlutterKeyEvent key down => do
    let some key := key | throw "Unsupported USB HID usage code"
    if session.viewOnly then throw "Input is disabled for a view-only session"
    started session (.sendKey key down false false false false false)
  | .inputString value => do
    if session.viewOnly then throw "Input is disabled for a view-only session"
    if value.isEmpty then throw "Text is empty"
    started session (.sendText value)
  | .sendClipboard content => do
    if session.viewOnly then throw "Clipboard is disabled for a view-only session"
    if !session.clipboardEnabled then
      throw "Clipboard synchronization is disabled for this session"
    started session (.sendClipboardText content)
  | .switchDisplay display =>
    if display ≠ 0 then
      .error "Only the peer's primary display can be captured in this milestone"
    else started session (.refresh display)

/-! ### Steps -/

/-- These messages reach the server's socket. -/
def State.send (s : State) (backend : Nat) (messages : List Bytes) : State :=
  { s with
    backends := s.backends.modify backend fun b => { b with sent := b.sent ++ messages } }

/-- A call at the facade, on a backend, or of the session's own. -/
inductive UseLabel where
  | session (label : Label)
  | facade (id : String) (call : FacadeCall)
  /-- a call on a backend itself -/
  | direct (backend : Nat) (call : BackendCall)

/-- A step of the registry, or a call with the messages it could write. -/
inductive UseStep : State → UseLabel → State → Prop
  | session {s s' : State} {label : Label} (hstep : Step s label s') :
      UseStep s (.session label) s'
  | facade {s : State} {id : String} {call : FacadeCall} {session : CompatSession}
      {forwarded : BackendCall} {index : Nat} {backend : Backend} {live : LiveSession}
      {allowed : Bool} {written : List Bytes} (hget : s.registry.get id = some session)
      (hforward : call.forward session = .ok forwarded)
      (hviewer : session.viewer = some index) (hbackend : s.backends[index]? = some backend)
      (hkind : backend.kind = .vnc live allowed)
      (hwritten : written.Sublist (forwarded.messages live)) :
      UseStep s (.facade id call) (s.send index written)
  | facadeRefused {s : State} {id : String} {call : FacadeCall} {session : CompatSession}
      {error : String} (hget : s.registry.get id = some session)
      (hforward : call.forward session = .error error) : UseStep s (.facade id call) s
  | direct {s : State} {index : Nat} {call : BackendCall} {backend : Backend}
      {live : LiveSession} {allowed : Bool} {written : List Bytes}
      (hbackend : s.backends[index]? = some backend) (hkind : backend.kind = .vnc live allowed)
      (hwritten : written.Sublist (call.messages live)) :
      UseStep s (.direct index call) (s.send index written)

end Compat

end RdEngine
