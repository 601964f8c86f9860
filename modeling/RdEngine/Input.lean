/-
RdEngine/Input.lean

The controlled side's reading of pointer and keyboard events (`input.rs`): an
event becomes an action, or none when it is malformed or unsupported.
Coordinates and masks are 32-bit numbers, kept as integers.
-/
import RdEngine.Authentication
import RdEngine.Text

namespace RdEngine

namespace Input

/-- The kinds of a pointer event, in the low bits of its mask. -/
def mouseTypeMove : Int := 0
def mouseTypeDown : Int := 1
def mouseTypeUp : Int := 2
def mouseTypeWheel : Int := 3
def mouseTypeTrackpad : Int := 4
def mouseTypeMoveRelative : Int := 5

/-- The buttons of a pointer event, in the bits above. -/
def mouseButtonLeft : Int := 0x01
def mouseButtonRight : Int := 0x02
def mouseButtonWheel : Int := 0x04
def mouseButtonBack : Int := 0x08
def mouseButtonForward : Int := 0x10

/-- Largest accepted pointer coordinate magnitude. -/
def maxAbsoluteCoordinate : Nat := 2 ^ 20

/-- Largest accepted single wheel or trackpad delta. -/
def maxWheelDelta : Nat := 2 ^ 14

/-- Number of mouse buttons any single event may carry. -/
def maxButtonBits : Int := 0x1f

/-- Bound for a single injected text payload. -/
def maxTextBytes : Nat := 64 * 1024

end Input

inductive MouseButton where
  | left | right | middle | back | forward
  deriving DecidableEq, Repr

/-- What a pointer event asks for. -/
inductive MouseAction where
  | moveAbsolute (x y : Int)
  | moveRelative (dx dy : Int)
  | buttonDown (button : MouseButton)
  | buttonUp (button : MouseButton)
  | wheel (dx dy : Int)
  deriving DecidableEq, Repr

/-- What a keyboard event asks for. -/
inductive KeyAction where
  | text (text : String)
  | character (character : Char) (down : Bool)
  | control (key : ControlKey) (down : Bool)
  deriving DecidableEq, Repr

/-- What a peer asks for with an input event. -/
inductive InputAction where
  | mouse (action : MouseAction)
  | key (action : KeyAction)
  deriving DecidableEq, Repr

namespace Input

/-! ### Pointer -/

/-- Exactly one button per transition. -/
def decodeButton (bits : Int) : Option MouseButton :=
  if bits = mouseButtonLeft then some .left
  else if bits = mouseButtonRight then some .right
  else if bits = mouseButtonWheel then some .middle
  else if bits = mouseButtonBack then some .back
  else if bits = mouseButtonForward then some .forward
  else none

/-- A point within the bounds of a desktop. -/
def checkAbsolute (x y : Int) : Bool :=
  x.natAbs ≤ maxAbsoluteCoordinate ∧ y.natAbs ≤ maxAbsoluteCoordinate

/-- A distance within the bounds of a single event. -/
def checkDelta (value : Int) : Bool := value.natAbs ≤ maxWheelDelta

/-- `i32::checked_neg`. -/
def checkedNeg (value : Int) : Option Int := if value = -2 ^ 31 then none else some (-value)

/-- The low three bits of the mask are the kind, the others the buttons. -/
def decodeMouse (event : MouseEvent) : Option MouseAction :=
  let kind := event.mask % 8
  let buttons := event.mask / 8
  if buttons < 0 ∨ buttons > maxButtonBits then none
  else if kind = mouseTypeMove then
    if checkAbsolute event.x event.y then some (.moveAbsolute event.x event.y) else none
  else if kind = mouseTypeMoveRelative then
    if checkDelta event.x ∧ checkDelta event.y then some (.moveRelative event.x event.y) else none
  else if kind = mouseTypeDown ∨ kind = mouseTypeUp then
    match decodeButton buttons with
    | none => none
    | some button =>
      if checkAbsolute event.x event.y then
        some (if kind = mouseTypeDown then .buttonDown button else .buttonUp button)
      else none
  else if kind = mouseTypeWheel ∨ kind = mouseTypeTrackpad then
    -- a positive x of the protocol is a scroll to the left
    match checkedNeg event.x with
    | none => none
    | some dx =>
      if checkDelta dx ∧ checkDelta event.y then some (.wheel dx event.y) else none
  else none

/-! ### Keyboard -/

/-- `char::from_u32`. -/
def charFromU32 (code : Nat) : Option Char :=
  if code.isValidChar then some (Char.ofNat code) else none

/-- `decode_key`: only the legacy mode, and no chord. -/
def decodeKey (event : KeyEvent) : Option KeyAction :=
  match event.mode.enumValue with
  | some .legacy =>
    let down := event.down || event.press
    match event.union with
    | some (.seq text) =>
      if text = "" ∨ (utf8 text).length > maxTextBytes then none else some (.text text)
    | some (.controlKey key) =>
      match key.enumValue with
      | none | some .unknown => none
      | some key => some (.control key down)
    | some (.chr code) =>
      match charFromU32 code with
      | none => none
      | some character => if isControl character then none else some (.character character down)
    | _ => none
  | _ => none

/-- `decode_message`: none for anything that is not input. -/
def decodeMessage : MessageUnion → Option InputAction
  | .mouseEvent event => (decodeMouse event).map .mouse
  | .keyEvent event => (decodeKey event).map .key
  | _ => none

/-! ### What is decoded -/

/-- A pointer or keyboard event. -/
def isInput : MessageUnion → Bool
  | .mouseEvent _ | .keyEvent _ => true
  | _ => false

theorem isInput_of_decodeMessage {union : MessageUnion} {action : InputAction}
    (h : decodeMessage union = some action) : isInput union = true := by
  cases union with
  | mouseEvent | keyEvent => rfl
  | _ => cases h

end Input

end RdEngine
