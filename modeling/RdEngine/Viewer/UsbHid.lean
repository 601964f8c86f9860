/-
RdEngine/Viewer/UsbHid.lean

The key that a USB HID usage code and the character of its event stand for
(`usb_hid_key` of `viewer.rs`).

A usage code that is a control key is that key.  Otherwise a printable character of the
event is authoritative, and the keys of the US layout are for events without one.  The
test for a single character counts bytes, so a character beyond ASCII is taken for none,
and the layout types another in its place (`typed_character_wins`).
-/
import RdEngine.Viewer.State
import RdEngine.Utf8

namespace RdEngine

namespace Viewer

/-! ### The tables -/

def functionKeys : List ControlKey :=
  [.f1, .f2, .f3, .f4, .f5, .f6, .f7, .f8, .f9, .f10, .f11, .f12]

/-- The keys of the number block, from one to nine. -/
def numpadKeys : List ControlKey :=
  [.numpad1, .numpad2, .numpad3, .numpad4, .numpad5, .numpad6, .numpad7, .numpad8, .numpad9]

/-- The usage codes that are control keys. -/
def usbHidControl (usbHid : UInt32) : Option ControlKey :=
  match usbHid.toNat with
  | 0x28 => some .return_
  | 0x29 => some .escape
  | 0x2a => some .backspace
  | 0x2b => some .tab
  | 0x39 => some .capsLock
  | 0x48 => some .pause
  | 0x49 => some .insert
  | 0x4a => some .home
  | 0x4b => some .pageUp
  | 0x4c => some .delete
  | 0x4d => some .end_
  | 0x4e => some .pageDown
  | 0x4f => some .rightArrow
  | 0x50 => some .leftArrow
  | 0x51 => some .downArrow
  | 0x52 => some .upArrow
  | 0x53 => some .numLock
  | 0x54 => some .divide
  | 0x55 => some .multiply
  | 0x56 => some .subtract
  | 0x57 => some .add
  | 0x58 => some .numpadEnter
  | 0x62 => some .numpad0
  | 0x63 => some .decimal
  | 0x65 => some .apps
  | 0x66 => some .power
  | 0x67 => some .equals
  | 0xe0 => some .control
  | 0xe1 => some .shift
  | 0xe2 => some .alt
  | 0xe3 => some .meta_
  | 0xe4 => some .rControl
  | 0xe5 => some .rShift
  | 0xe6 => some .rAlt
  | 0xe7 => some .rWin
  | code =>
    if 0x3a ≤ code ∧ code ≤ 0x45 then functionKeys[code - 0x3a]?
    else if 0x59 ≤ code ∧ code ≤ 0x61 then numpadKeys[code - 0x59]?
    else none

/-- The characters of the first usages, in their order. -/
def printable : List Char := "abcdefghijklmnopqrstuvwxyz1234567890".toList

/-- The characters of the usages behind them. -/
def punctuation : List (UInt32 × Char) :=
  [(0x2d, '-'), (0x2e, '='), (0x2f, '['), (0x30, ']'), (0x31, '\\'), (0x33, ';'), (0x34, Char.ofNat 0x27),
    (0x35, Char.ofNat 0x60), (0x36, ','), (0x37, '.'), (0x38, '/')]

/-- The US printable usage map. -/
def usLayout (usbHid : UInt32) : Option Char :=
  -- `checked_sub`, and the index filtered by the length
  match (if 0x04 ≤ usbHid.toNat then printable[usbHid.toNat - 0x04]? else none) with
  | some character => some character
  | none => (punctuation.find? fun entry => entry.1 == usbHid).map Prod.snd

/-! ### The key of an event -/

/-- The character of the event where there is one: `character.len()` counts bytes. -/
def eventCharacter (character : String) : Option Char :=
  if character.utf8ByteSize = 1 then character.toList.head?.filter (!isControl ·) else none

/-- `usb_hid_key` with a layout. -/
def usbHidKeyIn (layout : UInt32 → Option Char) (usbHid : UInt32) (character : String) :
    Option ViewerKey :=
  match usbHidControl usbHid with
  | some key => some (.control key)
  | none =>
    match eventCharacter character with
    | some character => some (.character character.toNat)
    | none => (layout usbHid).map fun character => .character character.toNat

/-- `usb_hid_key`, on the layout of the source. -/
def usbHidKey : UInt32 → String → Option ViewerKey := usbHidKeyIn usLayout

/-- The layout is consulted: the key depends on it. -/
def ConsultsLayout (usbHid : UInt32) (character : String) : Prop :=
  ∃ layout layout', usbHidKeyIn layout usbHid character ≠ usbHidKeyIn layout' usbHid character

/-- The text is one character that is none of the control characters. -/
def Types (character : String) (c : Char) : Prop := character.toList = [c] ∧ isControl c = false

instance (character : String) (c : Char) : Decidable (Types character c) :=
  inferInstanceAs (Decidable (_ ∧ _))

section

variable {usbHid : UInt32} {character : String} {c : Char}

theorem eventCharacter_of_types (h : Types character c) :
    eventCharacter character = if c.toNat < 0x80 then some c else none := by
  obtain ⟨hchars, hcontrol⟩ := h
  have hsize : character.utf8ByteSize = c.utf8Size := by
    rw [Text.utf8ByteSize_eq, hchars]
    rfl
  unfold eventCharacter
  rw [hsize, hchars]
  by_cases hc : c.toNat < 0x80
  · rw [if_pos (Text.toNat_lt_iff.mp hc), if_pos hc]
    simp [hcontrol]
  · rw [if_neg (mt Text.toNat_lt_iff.mpr hc), if_neg hc]

/-- The texts taken for a character are the ASCII characters. -/
theorem eventCharacter_eq_some_iff :
    eventCharacter character = some c ↔ Types character c ∧ c.toNat < 0x80 := by
  constructor
  · intro h
    have htypes : Types character c := by
      unfold eventCharacter at h
      split at h
      · next hsize =>
        obtain ⟨hhead, hcontrol⟩ := Option.filter_eq_some_iff.mp h
        refine ⟨?_, by simpa using hcontrol⟩
        rcases hchars : character.toList with - | ⟨first, rest⟩
        · rw [hchars] at hhead
          cases hhead
        · rw [hchars] at hhead
          cases hhead
          -- one byte has room for no second character
          rw [Text.utf8ByteSize_eq, hchars, Text.size_cons] at hsize
          have hpos := c.utf8Size_pos
          rw [Text.size_eq_zero_iff.mp (show Text.size rest = 0 by omega)]
      · cases h
    rw [eventCharacter_of_types htypes] at h
    refine ⟨htypes, ?_⟩
    by_contra hbeyond
    rw [if_neg hbeyond] at h
    cases h
  · rintro ⟨htypes, hc⟩
    rw [eventCharacter_of_types htypes, if_pos hc]

theorem usbHidKeyIn_of_none (layout : UInt32 → Option Char) (hcontrol : usbHidControl usbHid = none) :
    usbHidKeyIn layout usbHid character =
      ((eventCharacter character).or (layout usbHid)).map fun c => .character c.toNat := by
  unfold usbHidKeyIn
  rw [hcontrol]
  cases eventCharacter character with
  | none => rfl
  | some c => rfl

/-- The layout is consulted exactly for events without a character. -/
theorem consultsLayout_iff :
    ConsultsLayout usbHid character ↔
      usbHidControl usbHid = none ∧ eventCharacter character = none := by
  unfold ConsultsLayout
  cases hcontrol : usbHidControl usbHid with
  | some key => simp [usbHidKeyIn, hcontrol]
  | none =>
    cases hcharacter : eventCharacter character with
    | some c => simp [usbHidKeyIn, hcontrol, hcharacter]
    | none =>
      refine ⟨fun _ => ⟨rfl, rfl⟩, fun _ => ⟨fun _ => some 'a', fun _ => none, ?_⟩⟩
      simp [usbHidKeyIn, hcontrol, hcharacter]

/-- Every key of the layout is an ASCII character. -/
theorem usLayout_ascii (h : usLayout usbHid = some c) : c.toNat < 0x80 := by
  have hprintable : ∀ c ∈ printable, c.toNat < 0x80 := by
    have hall : printable.all (fun c => decide (c.toNat < 0x80)) = true := by decide
    exact fun c hc => of_decide_eq_true (List.all_eq_true.mp hall c hc)
  have hpunctuation : ∀ entry ∈ punctuation, entry.2.toNat < 0x80 := by decide
  unfold usLayout at h
  split at h
  · next c' hfound =>
    cases h
    split at hfound
    · exact hprintable _ (List.mem_of_getElem? hfound)
    · cases hfound
  · obtain ⟨entry, hentry, rfl⟩ := Option.map_eq_some_iff.mp h
    exact hpunctuation _ (List.mem_of_find?_eq_some hentry)

end

/-- A typed character is the key of its event, unless the usage code is a control key. -/
def ReturnsTyped (usbHid : UInt32) (character : String) : Prop :=
  usbHidControl usbHid = none → ∀ c, Types character c →
    usbHidKey usbHid character = some (.character c.toNat)

/-- The layout is consulted only for events without a typed character. -/
def LayoutLast (usbHid : UInt32) (character : String) : Prop :=
  ConsultsLayout usbHid character → ∀ c, ¬ Types character c

/-- The usage code is a control key, or a typed character is an ASCII character. -/
def TypesAscii (usbHid : UInt32) (character : String) : Prop :=
  usbHidControl usbHid = none → ∀ c, Types character c → c.toNat < 0x80

/-- **A typed character wins over the layout exactly when it is an ASCII character.** -/
theorem typed_character_wins (usbHid : UInt32) (character : String) :
    (ReturnsTyped usbHid character ↔ TypesAscii usbHid character) ∧
      (LayoutLast usbHid character ↔ TypesAscii usbHid character) := by
  refine ⟨⟨?_, ?_⟩, ?_, ?_⟩
  · intro h hcontrol c hc
    by_contra hbeyond
    have hkey := h hcontrol c hc
    -- the layout is asked in its place, and knows no such character
    unfold usbHidKey at hkey
    rw [usbHidKeyIn_of_none _ hcontrol, eventCharacter_of_types hc, if_neg hbeyond,
      Option.none_or] at hkey
    obtain ⟨c', hlayout, heq⟩ := Option.map_eq_some_iff.mp hkey
    have hascii := usLayout_ascii hlayout
    rw [(ViewerKey.character.inj heq)] at hascii
    exact hbeyond hascii
  · intro h hcontrol c hc
    have hcharacter := eventCharacter_eq_some_iff.mpr ⟨hc, h hcontrol c hc⟩
    unfold usbHidKey
    rw [usbHidKeyIn_of_none _ hcontrol, hcharacter]
    rfl
  · intro h hcontrol c hc
    by_contra hbeyond
    refine h (consultsLayout_iff.mpr ⟨hcontrol, ?_⟩) c hc
    rw [eventCharacter_of_types hc, if_neg hbeyond]
  · intro h hconsults c hc
    obtain ⟨hcontrol, hnone⟩ := consultsLayout_iff.mp hconsults
    rw [eventCharacter_eq_some_iff.mpr ⟨hc, h hcontrol c hc⟩] at hnone
    cases hnone

/-- The key of `q` types a `q` where the event says `é`. -/
theorem typed_character_lost :
    usbHidControl 0x14 = none ∧ Types "é" 'é' ∧
      usbHidKey 0x14 "é" = some (.character 'q'.toNat) := by decide

end Viewer

end RdEngine
