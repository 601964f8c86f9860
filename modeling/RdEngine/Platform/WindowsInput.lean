/-
RdEngine/Platform/WindowsInput.lean

The controlled side's key injection on Windows (`platform/windows_input.rs`, with
the virtual keys of `input.rs`): the `SendInput` records of a decoded key action.

The system is taken to accept the records it is given.
-/
import RdEngine.Input
import RdEngine.Lib.Keys

namespace RdEngine

namespace WindowsInput

/-! ### Virtual keys -/

/-- The documented virtual key of a control key.  The secure attention sequences
and the power key have none. -/
def windowsVirtualKey : ControlKey → Option UInt16
  | .unknown | .power | .ctrlAltDel | .lockScreen => none
  | .alt | .option | .menu => some 0x12
  | .backspace => some 0x08
  | .capsLock => some 0x14
  | .control => some 0x11
  | .delete => some 0x2e
  | .downArrow => some 0x28
  | .end_ => some 0x23
  | .escape => some 0x1b
  | .f1 => some 0x70
  | .f2 => some 0x71
  | .f3 => some 0x72
  | .f4 => some 0x73
  | .f5 => some 0x74
  | .f6 => some 0x75
  | .f7 => some 0x76
  | .f8 => some 0x77
  | .f9 => some 0x78
  | .f10 => some 0x79
  | .f11 => some 0x7a
  | .f12 => some 0x7b
  | .home => some 0x24
  | .leftArrow => some 0x25
  | .meta_ => some 0x5b
  | .pageDown => some 0x22
  | .pageUp => some 0x21
  | .return_ | .numpadEnter => some 0x0d
  | .rightArrow => some 0x27
  | .shift => some 0x10
  | .space => some 0x20
  | .tab => some 0x09
  | .upArrow => some 0x26
  | .numpad0 => some 0x60
  | .numpad1 => some 0x61
  | .numpad2 => some 0x62
  | .numpad3 => some 0x63
  | .numpad4 => some 0x64
  | .numpad5 => some 0x65
  | .numpad6 => some 0x66
  | .numpad7 => some 0x67
  | .numpad8 => some 0x68
  | .numpad9 => some 0x69
  | .cancel | .clear => some 0x0c
  | .pause => some 0x13
  | .kana | .convert | .hangul => some 0x15
  | .junja => some 0x17
  | .final => some 0x18
  | .hanja | .kanji => some 0x19
  | .select => some 0x29
  | .print | .snapshot => some 0x2c
  | .execute => some 0x2b
  | .insert => some 0x2d
  | .help => some 0x2f
  | .sleep => some 0x5f
  | .separator => some 0x6c
  | .scroll => some 0x91
  | .numLock => some 0x90
  | .rWin => some 0x5c
  | .apps => some 0x5d
  | .multiply => some 0x6a
  | .add => some 0x6b
  | .subtract => some 0x6d
  | .decimal => some 0x6e
  | .divide => some 0x6f
  | .equals => some 0x92
  | .rShift => some 0xa1
  | .rControl => some 0xa3
  | .rAlt => some 0xa5
  | .volumeMute => some 0xad
  | .volumeUp => some 0xaf
  | .volumeDown => some 0xae

/-! ### Records -/

/-- A keyboard record: its virtual key, its scan code, and the flags
`KEYEVENTF_UNICODE` and `KEYEVENTF_KEYUP`. -/
structure KeyRecord where
  vk : UInt16
  scan : UInt16
  unicode : Bool
  keyUp : Bool
  deriving DecidableEq, Repr

/-- Why an action is not injected. -/
inductive InjectError where
  | notArmed | unsupported | rejected | tooLarge
  deriving DecidableEq, Repr

/-- `encode_utf16`, of one character. -/
def utf16 (c : Char) : List UInt16 :=
  if c.toNat < 0x10000 then [.ofNat c.toNat]
  else [.ofNat (0xD800 + (c.toNat - 0x10000) / 0x400),
    .ofNat (0xDC00 + (c.toNat - 0x10000) % 0x400)]

/-- `inject_text`: every unit goes down and up. -/
def injectText (text : String) : Except InjectError (List KeyRecord) :=
  let units := text.toList.flatMap utf16
  if units.length > Input.maxTextBytes then .error .tooLarge
  else .ok (units.flatMap fun unit => [⟨0, unit, true, false⟩, ⟨0, unit, true, true⟩])

/-- A character outside the basic plane goes through the text path, as it goes down. -/
def injectCharacter (character : Char) (down : Bool) : Except InjectError (List KeyRecord) :=
  if character.toNat > 0xFFFF then
    if down then injectText (String.singleton character) else .ok []
  else .ok [⟨0, .ofNat character.toNat, true, !down⟩]

def injectKey (armed : Bool) (action : KeyAction) : Except InjectError (List KeyRecord) :=
  if !armed then .error .notArmed
  else
    match action with
    | .text text => injectText text
    | .character character down => injectCharacter character down
    | .control key down =>
      match windowsVirtualKey key with
      | none => .error .unsupported
      | some vk => .ok [⟨vk, 0, false, !down⟩]

/-! ### Keys -/

/-- A key of the host: a virtual key, or a unit that is typed. -/
structure HostKey where
  vk : UInt16
  scan : UInt16
  unicode : Bool
  deriving DecidableEq, Repr

/-- What a record does to the host's keyboard. -/
def KeyRecord.transition (record : KeyRecord) : Keys.Transition HostKey :=
  ⟨⟨record.vk, record.scan, record.unicode⟩, !record.keyUp⟩

end WindowsInput

end RdEngine
