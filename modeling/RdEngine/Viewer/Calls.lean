/-
RdEngine/Viewer/Calls.lean

The calls of `Viewer`, as programs over the engine's accesses, in the order of
the source.  The clock of a call is its accesses: between any two of them the
engine's tasks and other callers may run.
-/
import RdEngine.Viewer.State

namespace RdEngine

namespace Viewer

open Threads

/-- A piece of a task or of a call. -/
abbrev Program (α : Type) := Prog Access.Answer α

/-- What is fixed when a viewer starts: its options, whether its connector asks
the user about an insecure peer, and `hbb_common::compress`. -/
structure Setup where
  username : String
  localId : String
  localName : String
  password : Bytes
  requestedFps : Nat
  imageQuality : ViewerImageQuality
  clipboardEnabled : Bool
  confirmInsecure : Bool
  compress : Bytes → Bytes
  decompressWithLimit : Bytes → Nat → Option Bytes

/-! ### Single accesses -/

/-- A program that makes one access, and gives back its answer. -/
def call (a : Access) : Program a.Answer := Prog.call a

@[simp] theorem call_eq (a : Access) : call a = .access a .ret := rfl

/-- The flags of the engine, each read by an access of its own. -/
def authenticated : Program Bool := call .authenticated

def isCancelled : Program Bool := call .isCancelled

def remote (kind : Remote) : Program Bool := call (.remote kind)

def geometry : Program (Option Geometry) := call .geometry

def control : Program Bool := call .control

/-- What a queue that does not take a message is told as. -/
def sendError : Except TrySendError Unit → Except ViewerError Unit
  | .ok () => .ok ()
  | .error .full => .error .backpressure
  | .error .closed => .error .closed

/-- A message for a queue, without waiting. -/
def trySend (queue : Queue) (message : Message) : Program (Except ViewerError Unit) :=
  (call (.trySend queue message)).bind fun sent => .ret (sendError sent)

/-- `enqueue`: the sender is taken out of its lock, then used. -/
def enqueue (message : Message) : Program (Except ViewerError Unit) := do
  if ← control then trySend .control message else return .error .notAuthenticated

/-- `State::request_close`. -/
def requestClose : Program Unit := do
  call (.setAuthenticated false)
  call .cancel

/-! ### Input -/

/-- `input_allowed`, in the order of its reads. -/
def inputAllowed : Program Bool :=
  (pure localKeyboardEnabled : Program Bool).both
    (authenticated.both ((remote .keyboard).both isCancelled.not))

/-- Alt, shift, control and meta, in this order. -/
def legacyModifiers (alt ctrl shift command : Bool) : List (EnumOrUnknown ControlKey) :=
  (if alt then [EnumOrUnknown.known ControlKey.alt] else []) ++
    (if shift then [EnumOrUnknown.known ControlKey.shift] else []) ++
    (if ctrl then [EnumOrUnknown.known ControlKey.control] else []) ++
    (if command then [EnumOrUnknown.known ControlKey.meta_] else [])

def keyMessage (event : KeyEvent) : Message := .of (.keyEvent event)

def keyUnion : ViewerKey → KeyEventUnion
  | .character code => .chr code
  | .control key => .controlKey (.known key)

def sendKey (key : ViewerKey) (down press alt ctrl shift command : Bool) :
    Program (Except ViewerError Unit) := do
  if ← inputAllowed then
    enqueue (keyMessage {
      down := down
      press := press
      mode := .known .legacy
      union := some (keyUnion key)
      modifiers := legacyModifiers alt ctrl shift command })
  else return .error .inputNotAllowed

/-- `send_text`; a text of no bytes is refused. -/
def sendText (value : String) : Program (Except ViewerError Unit) := do
  if ← inputAllowed then
    if value.utf8ByteSize = 0 ∨ value.utf8ByteSize > maxClipboardText then
      return .error .invalidOptions
    else enqueue (keyMessage { union := some (.seq value) })
  else return .error .inputNotAllowed

/-- The text as it goes out: compressed where that makes it shorter. -/
def clipboardMessage (setup : Setup) (text : String) : Message :=
  let raw := text.toUTF8.toList
  let compressed := setup.compress raw
  let clipboard : Clipboard :=
    if compressed.isEmpty || compressed.length ≥ raw.length then
      { compress := false, content := raw, format := .known .text }
    else { compress := true, content := compressed, format := .known .text }
  .of (.multiClipboards [clipboard])

def sendClipboardText (setup : Setup) (text : String) : Program (Except ViewerError Unit) := do
  if ← (pure (localClipboardEnabled && setup.clipboardEnabled) : Program Bool).both
      (authenticated.both ((remote .clipboard).both isCancelled.not)) then
    if text.utf8ByteSize = 0 ∨ text.utf8ByteSize > maxClipboardText then
      return .error .invalidOptions
    else enqueue (clipboardMessage setup text)
  else return .error .inputNotAllowed

/-- The kinds of a pointer event, and the buttons each may carry. -/
def validMouse (kind button : UInt32) : Bool :=
  if kind = 0 then button ≤ 0x1f
  else if kind = 1 ∨ kind = 2 then
    button = 1 ∨ button = 2 ∨ button = 4 ∨ button = 8 ∨ button = 16
  else if 3 ≤ kind ∧ kind ≤ 5 then button = 0
  else false

/-- `i32::checked_add`. -/
def checkedAdd (a b : Int) : Option Int :=
  if -2 ^ 31 ≤ a + b ∧ a + b < 2 ^ 31 then some (a + b) else none

/-- Display-local coordinates to desktop coordinates. -/
def place (geometry : Option Geometry) (x y : Int) : Except ViewerError (Int × Int) :=
  match geometry with
  | none => .error .inputNotAllowed
  | some geometry =>
    if x < 0 ∨ y < 0 ∨ x ≥ geometry.width ∨ y ≥ geometry.height then .error .invalidMouse
    else
      match checkedAdd x geometry.x, checkedAdd y geometry.y with
      | some x, some y => .ok (x, y)
      | _, _ => .error .invalidMouse

def mouseMessage (kind button : UInt32) (x y : Int) : Message :=
  .of (.mouseEvent { mask := (kind ||| (button <<< 3)).toNat, x := x, y := y })

/-- An absolute event, on the display it is meant for. -/
def sendPlaced (kind button : UInt32) (x y : Int) : Program (Except ViewerError Unit) := do
  match place (← geometry) x y with
  | .ok (x, y) => trySend .mouse (mouseMessage kind button x y)
  | .error error => return .error error

def sendMouse (kind button : UInt32) (x y : Int) : Program (Except ViewerError Unit) := do
  if ← (pure localMouseEnabled : Program Bool).both
      (authenticated.both ((remote .keyboard).both isCancelled.not)) then
    if !validMouse kind button then return .error .invalidMouse
    else if kind ≤ 2 then sendPlaced kind button x y
    else trySend .mouse (mouseMessage kind button x y)
  else return .error .inputNotAllowed

/-! ### Control -/

/-- `send_option_control`. -/
def sendOptionControl (misc : MiscUnion) : Program (Except ViewerError Unit) := do
  if ← authenticated.both isCancelled.not then enqueue (.ofMisc misc)
  else return .error .notAuthenticated

def sendOption (option : OptionMessage) : Program (Except ViewerError Unit) :=
  sendOptionControl (.option option)

/-- Push an option once authenticated, then store it: `set_requested_fps` and
`set_image_quality`. -/
def pushThenStore (option : OptionMessage) (store : Access) :
    Program (Except ViewerError Unit) := do
  let pushed ← (do if ← authenticated then sendOption option else return .ok ())
  match pushed with
  | .error error => return .error error
  | .ok () => .access store fun _ => .ret (.ok ())

/-- `set_requested_fps`: the peer is told, and then the value is stored. -/
def setRequestedFps (fps : Nat) : Program (Except ViewerError Unit) :=
  if 1 ≤ fps ∧ fps ≤ 240 then pushThenStore { customFps := fps } (.setRequestedFps fps)
  else return .error .invalidOptions

def qualityOption (quality : ViewerImageQuality) : OptionMessage :=
  { imageQuality := .known quality.protoQuality
    customImageQuality := quality.customQuality.getD 0 }

/-- A custom quality within its bounds. -/
def validQuality : ViewerImageQuality → Bool
  | .custom value => 10 ≤ value ∧ value ≤ 2000
  | _ => true

/-- `set_image_quality`: the peer is told, and then the value is stored. -/
def setImageQuality (quality : ViewerImageQuality) : Program (Except ViewerError Unit) :=
  if validQuality quality then
    pushThenStore (qualityOption quality) (.setImageQuality quality)
  else return .error .invalidOptions

/-- `switch_display`: two messages, the second only after the first was taken. -/
def switchDisplay (display width height : Int) : Program (Except ViewerError Unit) := do
  if display < 0 ∨ width < 0 ∨ height < 0 then return .error .invalidOptions
  else if ← authenticated.both isCancelled.not then
    match ← enqueue (.ofMisc (.switchDisplay
        { display := display, width := width, height := height })) with
    | .error error => return .error error
    | .ok () => enqueue (.ofMisc (.messageQuery display))
  else return .error .notAuthenticated

def changeResolution (display width height : Int) : Program (Except ViewerError Unit) :=
  if display < 0 ∨ width < 0 ∨ height < 0 then return .error .invalidOptions
  else sendOptionControl (.changeDisplayResolution display width height)

/-- `refresh_video`; a negative display is all of them. -/
def refreshVideo (display : Int) : Program (Except ViewerError Unit) :=
  sendOptionControl (if display < 0 then .refreshVideo true else .refreshVideoDisplay display)

/-- A caller's request. -/
inductive Call where
  | sendKey (key : ViewerKey) (down press alt ctrl shift command : Bool)
  | sendText (value : String)
  | sendClipboardText (text : String)
  | sendMouse (kind button : UInt32) (x y : Int)
  | setRequestedFps (fps : Nat)
  | setImageQuality (quality : ViewerImageQuality)
  | switchDisplay (display width height : Int)
  | changeResolution (display width height : Int)
  | refreshVideo (display : Int)
  | requestClose

/-- The program of a call. -/
def Call.program (setup : Setup) : Call → Program (Except ViewerError Unit)
  | .sendKey key down press alt ctrl shift command =>
    Viewer.sendKey key down press alt ctrl shift command
  | .sendText value => Viewer.sendText value
  | .sendClipboardText text => Viewer.sendClipboardText setup text
  | .sendMouse kind button x y => Viewer.sendMouse kind button x y
  | .setRequestedFps fps => Viewer.setRequestedFps fps
  | .setImageQuality quality => Viewer.setImageQuality quality
  | .switchDisplay display width height => Viewer.switchDisplay display width height
  | .changeResolution display width height => Viewer.changeResolution display width height
  | .refreshVideo display => Viewer.refreshVideo display
  | .requestClose => do
    Viewer.requestClose
    return .ok ()

end Viewer

end RdEngine
