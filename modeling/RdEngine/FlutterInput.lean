/-
RdEngine/FlutterInput.lean

The pointer events of the frontend (`flutter_input.rs`): a JSON payload becomes an event
of the protocol, or none.

A coordinate is a number or a decimal string, and an event is exact or it is dropped:
that is what the source says.  A coordinate that is none of these is taken for 0, though,
so a malformed payload becomes a click at the origin (`pointer_json_exact`).  The mask of
an event is always the kind and the button of the payload (`decodePointer_of_event`).
-/
import RdEngine.Input
import RdEngine.Compat.Registry
import RdEngine.Lib.Json

namespace RdEngine

namespace FlutterInput

open Json Input

/-! ### The source -/

/-- The `MouseButtons` of the frontend. -/
def buttonBits (name : String) : Option Int :=
  match name with
  | "left" => some mouseButtonLeft
  | "right" => some mouseButtonRight
  -- the protocol names the middle button after its scroll role
  | "wheel" => some mouseButtonWheel
  | "back" => some mouseButtonBack
  | "forward" => some mouseButtonForward
  | _ => none

/-- `parse::<i32>`. -/
def parseI32 (text : List Char) : Option Int :=
  let negative := text.head? = some '-'
  let digits := if negative ∨ text.head? = some '+' then text.tail else text
  if digits = [] ∨ !digits.all Text.isDigit then none
  else
    let value : Int := if negative then -Text.decimal digits else Text.decimal digits
    if -2 ^ 31 ≤ value ∧ value < 2 ^ 31 then some value else none

/-- `i32::try_from`. -/
def tryI32 (value : Int64) : Option Int :=
  if -2 ^ 31 ≤ value.toInt ∧ value.toInt < 2 ^ 31 then some value.toInt else none

/-- A coordinate as a string or as a number without a fraction. -/
def coordinate : Option Value → Option Int
  | some (.string text) => parseI32 (Compat.trim text.toList)
  | some (.number n) => if n.isWhole then n.asI64.bind tryI32 else none
  | _ => none

/-- A kind with button bits behind it. -/
def withButton (kind bits : Int) : Int := (Int32.ofInt kind ||| Int32.ofInt bits <<< 3).toInt

/-- The mask of a kind by its name, and of a button where it has one. -/
def pointerMask (kind : String) (button : Option String) : Option Int :=
  match kind with
  | "move" | "mousemove" => some mouseTypeMove
  | "down" | "mousedown" => (button.bind buttonBits).map (withButton mouseTypeDown)
  | "up" | "mouseup" => (button.bind buttonBits).map (withButton mouseTypeUp)
  | "wheel" => some mouseTypeWheel
  | "trackpad" => some mouseTypeTrackpad
  | "move_relative" => some mouseTypeMoveRelative
  | _ => none

/-- `mouse_event_from_json`; a coordinate that cannot be read is zero. -/
def mouseEventFromJson (payload : Value) : Option MouseEvent := do
  let kind ← (payload.get "type").bind Value.asStr
  let button := (payload.get "buttons").bind Value.asStr
  let x := (coordinate (payload.get "x")).getD 0
  let y := (coordinate (payload.get "y")).getD 0
  let mask ← pointerMask kind button
  some { mask, x, y }

/-- The bits of a mask that hold the kind. -/
def mouseTypeMask : Int := 0x7

/-- The kind and the button of a payload. -/
def decodePointer (payload : Value) : Option (UInt32 × UInt32) := do
  let event ← mouseEventFromJson payload
  let kind := Int32.ofInt event.mask &&& Int32.ofInt mouseTypeMask
  let button := Int32.ofInt event.mask >>> 3
  if kind < 0 then none
  else if button < 0 then none
  else some (kind.toUInt32, button.toUInt32)

/-! ### What a payload says -/

/-- The kinds of pointer events by their names. -/
def kindNames : List (String × Int) :=
  [("move", mouseTypeMove), ("mousemove", mouseTypeMove), ("down", mouseTypeDown),
    ("mousedown", mouseTypeDown), ("up", mouseTypeUp), ("mouseup", mouseTypeUp),
    ("wheel", mouseTypeWheel), ("trackpad", mouseTypeTrackpad),
    ("move_relative", mouseTypeMoveRelative)]

/-- The buttons, by the names the frontend uses. -/
def buttonNames : List (String × Int) :=
  [("left", mouseButtonLeft), ("right", mouseButtonRight), ("wheel", mouseButtonWheel),
    ("back", mouseButtonBack), ("forward", mouseButtonForward)]

/-- A button goes down or up. -/
def IsTransition (kind : Int) : Prop := kind = mouseTypeDown ∨ kind = mouseTypeUp

instance (kind : Int) : Decidable (IsTransition kind) := inferInstanceAs (Decidable (_ ∨ _))

/-- The payload is of a known kind, with a known button where a button goes down or up. -/
def Known (payload : Value) (kind button : Int) : Prop :=
  ∃ name, payload.get "type" = some (.string name) ∧ (name, kind) ∈ kindNames ∧
    if IsTransition kind then
      ∃ name, payload.get "buttons" = some (.string name) ∧ (name, button) ∈ buttonNames
    else button = 0

/-- The text is a decimal integer. -/
def Decimal (text : List Char) (z : Int) : Prop :=
  ∃ digits, digits ≠ [] ∧ digits.all Text.isDigit = true ∧
    ((text = digits ∨ text = '+' :: digits) ∧ z = Text.decimal digits ∨
      text = '-' :: digits ∧ z = -Text.decimal digits)

/-- The value is an integer, as a number or as a decimal string. -/
def Denotes : Value → Int → Prop
  | .number n, z => n.toRat = z
  | .string text, z => Decimal (Compat.trim text.toList) z
  | _, _ => False

/-- The integer fits into 32 bits with a sign. -/
def FitsI32 (z : Int) : Prop := -2 ^ 31 ≤ z ∧ z < 2 ^ 31

instance (z : Int) : Decidable (FitsI32 z) := inferInstanceAs (Decidable (_ ∧ _))

/-- A coordinate that is absent is 0, and one that is present is the integer it says. -/
def Carries : Option Value → Int → Prop
  | none, z => z = 0
  | some value, z => Denotes value z ∧ FitsI32 z

/-- An event is exact, or the payload is dropped. -/
def ExactOrDropped (payload : Value) : Prop :=
  ∀ event, mouseEventFromJson payload = some event →
    (∃ kind button, Known payload kind button) ∧
      Carries (payload.get "x") event.x ∧ Carries (payload.get "y") event.y

/-- A coordinate that is read as it is: it is absent, kept as an integer of 32 bits, a decimal
string of one, or a double that is zero. -/
def Readable : Option Value → Prop
  | none => True
  | some (.number (.posInt n)) => n.toNat < 2 ^ 31
  | some (.number (.negInt n)) => FitsI32 n.toInt
  | some (.number (.float x)) => x = 0
  | some (.string text) => ∃ z, Decimal (Compat.trim text.toList) z ∧ FitsI32 z
  | some _ => False

/-! ### Coordinates -/

theorem ite_fits_eq_some_iff {digits : List Char} {value z : Int} :
    (if digits = [] ∨ !digits.all Text.isDigit then none
      else if -2 ^ 31 ≤ value ∧ value < 2 ^ 31 then some value else none) = some z ↔
      digits ≠ [] ∧ digits.all Text.isDigit = true ∧ z = value ∧ FitsI32 z := by
  by_cases hdigits : digits = [] ∨ !digits.all Text.isDigit
  · rw [if_pos hdigits]
    constructor
    · intro h
      cases h
    · rintro ⟨hnil, hall, -⟩
      rcases hdigits with hdigits | hdigits
      · exact absurd hdigits hnil
      · rw [hall] at hdigits
        cases hdigits
  · rw [if_neg hdigits]
    rw [not_or, Bool.not_eq_true, Bool.not_eq_false'] at hdigits
    split
    · next hfits =>
      constructor
      · intro h
        cases h
        exact ⟨hdigits.1, hdigits.2, rfl, hfits⟩
      · rintro ⟨-, -, rfl, -⟩
        rfl
    · next hfits =>
      constructor
      · intro h
        cases h
      · rintro ⟨-, -, rfl, h⟩
        exact absurd h hfits

theorem not_isDigit_of_all {c : Char} {rest : List Char} (h : (c :: rest).all Text.isDigit = true)
    (hc : Text.isDigit c = false) : False := by
  rw [List.all_cons, hc] at h
  cases h

/-- What is parsed is a decimal integer of 32 bits. -/
theorem parseI32_eq_some_iff {text : List Char} {z : Int} :
    parseI32 text = some z ↔ Decimal text z ∧ FitsI32 z := by
  have hminus : Text.isDigit '-' = false := by decide
  have hplus : Text.isDigit '+' = false := by decide
  unfold parseI32
  dsimp only
  rw [ite_fits_eq_some_iff]
  unfold Decimal
  rcases text with - | ⟨c, rest⟩
  · constructor
    · rintro ⟨hnil, -⟩
      exact absurd rfl hnil
    · rintro ⟨⟨digits, hnil, -, ⟨rfl | h, -⟩ | ⟨h, -⟩⟩, -⟩
      · exact absurd rfl hnil
      · cases h
      · cases h
  rw [List.head?_cons, List.tail_cons]
  -- the sign decides which of the three forms the text has
  by_cases hc : c = '-'
  · subst hc
    rw [if_pos (.inl rfl), if_pos rfl]
    constructor
    · rintro ⟨hnil, hall, hz, hfits⟩
      exact ⟨⟨rest, hnil, hall, .inr ⟨rfl, hz⟩⟩, hfits⟩
    · rintro ⟨⟨digits, hnil, hall, ⟨rfl | h, -⟩ | ⟨h, hz⟩⟩, hfits⟩
      · exact (not_isDigit_of_all hall hminus).elim
      · cases h
      · cases h
        exact ⟨hnil, hall, hz, hfits⟩
  by_cases hc' : c = '+'
  · subst hc'
    rw [if_pos (.inr rfl), if_neg (by decide)]
    constructor
    · rintro ⟨hnil, hall, hz, hfits⟩
      exact ⟨⟨rest, hnil, hall, .inl ⟨.inr rfl, hz⟩⟩, hfits⟩
    · rintro ⟨⟨digits, hnil, hall, ⟨rfl | h, hz⟩ | ⟨h, -⟩⟩, hfits⟩
      · exact (not_isDigit_of_all hall hplus).elim
      · cases h
        exact ⟨hnil, hall, hz, hfits⟩
      · cases h
  · rw [if_neg (by simp [hc, hc']), if_neg (by simp [hc])]
    constructor
    · rintro ⟨hnil, hall, hz, hfits⟩
      exact ⟨⟨c :: rest, hnil, hall, .inl ⟨.inl rfl, hz⟩⟩, hfits⟩
    · rintro ⟨⟨digits, hnil, hall, ⟨rfl | h, hz⟩ | ⟨h, -⟩⟩, hfits⟩
      · exact ⟨hnil, hall, hz, hfits⟩
      · exact absurd (List.cons.inj h).1 hc'
      · exact absurd (List.cons.inj h).1 hc

theorem fitsI32_zero : FitsI32 0 := by
  constructor <;> decide

theorem coordinate_posInt (n : UInt64) :
    coordinate (some (.number (.posInt n))) =
      if FitsI32 n.toNat then some (n.toNat : Int) else none := by
  show (Number.asI64 (.posInt n)).bind tryI32 = _
  unfold Number.asI64
  dsimp only
  split
  · next hlt =>
    show tryI32 (Int64.ofNat n.toNat) = _
    have hvalue : (Int64.ofNat n.toNat).toInt = n.toNat := Int64.toInt_ofNat_of_lt hlt
    rw [tryI32, hvalue]
    rfl
  · next hge =>
    rw [if_neg]
    · rfl
    · rintro ⟨-, h⟩
      omega

theorem coordinate_negInt (n : Int64) :
    coordinate (some (.number (.negInt n))) = if FitsI32 n.toInt then some n.toInt else none := rfl

theorem coordinate_float (x : ℚ) : coordinate (some (.number (.float x))) = none := by
  show (if _ then none else none) = none
  exact ite_self none

/-- An integer is exact exactly when it fits: otherwise it is taken for 0, and it is not 0. -/
theorem carries_integer {n : Number} {z : Int} (hvalue : n.toRat = z)
    (hcoordinate : coordinate (some (.number n)) = if FitsI32 z then some z else none) :
    Carries (some (.number n)) ((coordinate (some (.number n))).getD 0) ↔ FitsI32 z := by
  rw [hcoordinate]
  split
  · next hfits => exact ⟨fun _ => hfits, fun _ => ⟨hvalue, hfits⟩⟩
  · next hfits =>
    refine ⟨fun h => ?_, fun h => absurd h hfits⟩
    have hzero : n.toRat = ((0 : Int) : ℚ) := h.1
    have hz : z = 0 := Int.cast_injective (hvalue.symm.trans hzero)
    exact absurd (hz ▸ fitsI32_zero) hfits

/-- A coordinate is exact exactly when it is one of the readable ones. -/
theorem carries_coordinate_iff (value : Option Value) :
    Carries value ((coordinate value).getD 0) ↔ Readable value := by
  rcases value with - | (- | b | (n | n | x) | text | values | members)
  · exact ⟨fun _ => trivial, fun _ => rfl⟩
  · exact ⟨fun h => h.1, fun h => h.elim⟩
  · exact ⟨fun h => h.1, fun h => h.elim⟩
  · have hvalue : (Number.posInt n).toRat = ((n.toNat : Int) : ℚ) := (Int.cast_natCast _).symm
    rw [carries_integer hvalue (coordinate_posInt n)]
    show FitsI32 n.toNat ↔ n.toNat < 2 ^ 31
    unfold FitsI32
    omega
  · exact carries_integer rfl (coordinate_negInt n)
  · -- a double is no coordinate, whatever it is
    rw [coordinate_float]
    have hzero : ((0 : Int) : ℚ) = 0 := Int.cast_zero
    constructor
    · intro h
      exact h.1.trans hzero
    · intro h
      exact ⟨Eq.trans h hzero.symm, fitsI32_zero⟩
  · show Carries (some (.string text)) ((parseI32 (Compat.trim text.toList)).getD 0) ↔ _
    cases hparsed : parseI32 (Compat.trim text.toList) with
    | some z =>
      have hz := parseI32_eq_some_iff.mp hparsed
      exact ⟨fun _ => ⟨z, hz⟩, fun _ => hz⟩
    | none =>
      -- no decimal integer, and so not the integer 0
      have hno : ¬ ∃ z, Decimal (Compat.trim text.toList) z ∧ FitsI32 z := by
        rintro ⟨z, hz⟩
        rw [parseI32_eq_some_iff.mpr hz] at hparsed
        cases hparsed
      exact ⟨fun h => absurd ⟨0, h⟩ hno, fun h => absurd h hno⟩
  · exact ⟨fun h => h.1, fun h => h.elim⟩
  · exact ⟨fun h => h.1, fun h => h.elim⟩

/-! ### The mask -/

theorem bind_asStr_eq_some_iff {value : Option Value} {text : String} :
    value.bind Value.asStr = some text ↔ value = some (.string text) := by
  rcases value with - | (- | b | n | text' | values | members)
  · simp
  · simp [Value.asStr]
  · simp [Value.asStr]
  · simp [Value.asStr]
  · simp [Value.asStr]
  · simp [Value.asStr]
  · simp [Value.asStr]

theorem buttonBits_eq_some_iff {name : String} {bits : Int} :
    buttonBits name = some bits ↔ (name, bits) ∈ buttonNames := by
  unfold buttonBits buttonNames
  split <;> simp_all [eq_comm]

section

variable {payload : Value} {name : String} {kind mask : Int}

/-- A kind without a transition: the mask is the kind. -/
theorem exists_known_iff (hname : payload.get "type" = some (.string name))
    (hkind : ∀ k, (name, k) ∈ kindNames ↔ k = kind) (hplain : ¬ IsTransition kind)
    (hbare : withButton kind 0 = kind) :
    (∃ kind button, Known payload kind button ∧ mask = withButton kind button) ↔
      some kind = some mask := by
  rw [Option.some.injEq]
  constructor
  · rintro ⟨k, button, ⟨name', hname', hmem, hbutton⟩, hmask⟩
    rw [hname] at hname'
    cases hname'
    rw [hkind] at hmem
    subst hmem
    rw [if_neg hplain] at hbutton
    rw [hmask, hbutton, hbare]
  · rintro rfl
    refine ⟨kind, 0, ⟨name, hname, (hkind kind).mpr rfl, ?_⟩, hbare.symm⟩
    rw [if_neg hplain]

/-- A transition: the mask has the bits of its button. -/
theorem exists_known_transition_iff (hname : payload.get "type" = some (.string name))
    (hkind : ∀ k, (name, k) ∈ kindNames ↔ k = kind) (htransition : IsTransition kind) :
    (∃ kind button, Known payload kind button ∧ mask = withButton kind button) ↔
      (((payload.get "buttons").bind Value.asStr).bind buttonBits).map (withButton kind) =
        some mask := by
  rw [Option.map_eq_some_iff]
  constructor
  · rintro ⟨k, button, ⟨name', hname', hmem, hbutton⟩, hmask⟩
    rw [hname] at hname'
    cases hname'
    rw [hkind] at hmem
    subst hmem
    rw [if_pos htransition] at hbutton
    obtain ⟨text, htext, hbits⟩ := hbutton
    refine ⟨button, ?_, hmask.symm⟩
    rw [bind_asStr_eq_some_iff.mpr htext]
    exact buttonBits_eq_some_iff.mpr hbits
  · rintro ⟨bits, hbits, rfl⟩
    obtain ⟨text, htext, hbits⟩ := Option.bind_eq_some_iff.mp hbits
    refine ⟨kind, bits, ⟨name, hname, (hkind kind).mpr rfl, ?_⟩, rfl⟩
    rw [if_pos htransition]
    exact ⟨text, bind_asStr_eq_some_iff.mp htext, buttonBits_eq_some_iff.mp hbits⟩

/-- The mask is that of a known kind with its button. -/
theorem pointerMask_eq_some_iff (hname : payload.get "type" = some (.string name)) :
    pointerMask name ((payload.get "buttons").bind Value.asStr) = some mask ↔
      ∃ kind button, Known payload kind button ∧ mask = withButton kind button := by
  unfold pointerMask
  split
  case h_1 | h_2 | h_7 | h_8 | h_9 =>
    exact (exists_known_iff hname (by simp [kindNames]) (by decide) (by decide)).symm
  case h_3 | h_4 | h_5 | h_6 =>
    exact (exists_known_transition_iff hname (by simp [kindNames]) (by decide)).symm
  case h_10 =>
    -- no other name is that of a kind
    refine ⟨fun h => (by cases h), ?_⟩
    rintro ⟨k, button, ⟨name', hname', hmem, -⟩, -⟩
    rw [hname] at hname'
    cases hname'
    simp only [kindNames, List.mem_cons, Prod.mk.injEq, List.not_mem_nil, or_false] at hmem
    grind

end

/-- The kind and the button of a mask, as the client takes them out of it and as the host does. -/
theorem mask_withButton {name : String} {kind bits : Int} (hkind : (name, kind) ∈ kindNames)
    (hbits : bits = 0 ∨ ∃ name, (name, bits) ∈ buttonNames) :
    let mask := withButton kind bits
    let k := Int32.ofInt mask &&& Int32.ofInt mouseTypeMask
    let b := Int32.ofInt mask >>> 3
    (¬ k < 0 ∧ ¬ b < 0) ∧ (k.toUInt32.toNat : Int) = kind ∧ (b.toUInt32.toNat : Int) = bits ∧
      mask % 8 = kind ∧ mask / 8 = bits := by
  have hall : ∀ entry ∈ kindNames, ∀ bits ∈ 0 :: buttonNames.map Prod.snd,
      let mask := withButton entry.2 bits
      let k := Int32.ofInt mask &&& Int32.ofInt mouseTypeMask
      let b := Int32.ofInt mask >>> 3
      (¬ k < 0 ∧ ¬ b < 0) ∧ (k.toUInt32.toNat : Int) = entry.2 ∧ (b.toUInt32.toNat : Int) = bits ∧
        mask % 8 = entry.2 ∧ mask / 8 = bits := by decide
  apply hall _ hkind
  rcases hbits with rfl | ⟨button, hbutton⟩
  · exact List.mem_cons_self
  · exact List.mem_cons_of_mem _ (List.mem_map.mpr ⟨_, hbutton, rfl⟩)

/-! ### Events -/

/-- The event of a payload: a known kind, and coordinates that are 0 where they are not read. -/
theorem mouseEventFromJson_eq_some_iff {payload : Value} {event : MouseEvent} :
    mouseEventFromJson payload = some event ↔
      ∃ kind button, Known payload kind button ∧ event =
        { mask := withButton kind button
          x := (coordinate (payload.get "x")).getD 0
          y := (coordinate (payload.get "y")).getD 0 } := by
  show ((payload.get "type").bind Value.asStr).bind (fun kind =>
    (pointerMask kind ((payload.get "buttons").bind Value.asStr)).bind fun mask =>
      some ⟨mask, (coordinate (payload.get "x")).getD 0, (coordinate (payload.get "y")).getD 0⟩) =
        some event ↔ _
  constructor
  · intro h
    obtain ⟨name, hname, h⟩ := Option.bind_eq_some_iff.mp h
    obtain ⟨mask, hmask, h⟩ := Option.bind_eq_some_iff.mp h
    cases h
    obtain ⟨kind, button, hknown, rfl⟩ :=
      (pointerMask_eq_some_iff (bind_asStr_eq_some_iff.mp hname)).mp hmask
    exact ⟨kind, button, hknown, rfl⟩
  · rintro ⟨kind, button, hknown, rfl⟩
    have hname := hknown
    obtain ⟨name, hname, -⟩ := hname
    rw [bind_asStr_eq_some_iff.mpr hname, Option.bind_some,
      (pointerMask_eq_some_iff hname).mpr ⟨kind, button, hknown, rfl⟩, Option.bind_some]

/-- **The decoded pointer of an event is the kind and the button of its mask**, and they are
those of the payload. -/
theorem decodePointer_of_event {payload : Value} {event : MouseEvent}
    (h : mouseEventFromJson payload = some event) :
    ∃ kind button : UInt32, decodePointer payload = some (kind, button) ∧
      event.mask % 8 = kind.toNat ∧ event.mask / 8 = button.toNat ∧
      Known payload kind.toNat button.toNat := by
  obtain ⟨kind, button, hknown, rfl⟩ := mouseEventFromJson_eq_some_iff.mp h
  have hbutton : button = 0 ∨ ∃ name, (name, button) ∈ buttonNames := by
    obtain ⟨name, -, -, hbutton⟩ := hknown
    split at hbutton
    · obtain ⟨text, -, hmem⟩ := hbutton
      exact .inr ⟨text, hmem⟩
    · exact .inl hbutton
  obtain ⟨name, hname, hmem, -⟩ := id hknown
  obtain ⟨⟨hk, hb⟩, hkind, hbits, hlow, hhigh⟩ := mask_withButton hmem hbutton
  refine ⟨_, _, ?_, hlow.trans hkind.symm, hhigh.trans hbits.symm, by rwa [hkind, hbits]⟩
  unfold decodePointer
  rw [h]
  show (if _ < 0 then none else if _ < 0 then none else _) = _
  rw [if_neg hk, if_neg hb]

/-- The payloads whose events are exact: those of no known kind, and those whose coordinates are
readable. -/
def ExactWhen (payload : Value) : Prop :=
  (∀ kind button, ¬ Known payload kind button) ∨
    Readable (payload.get "x") ∧ Readable (payload.get "y")

/-- **An event is exact or its payload is dropped, exactly when each coordinate is readable or
the kind is unknown anyway.**  The decoded pointer is always that of the mask. -/
theorem pointer_json_exact (payload : Value) :
    (ExactOrDropped payload ↔ ExactWhen payload) ∧
      ∀ event, mouseEventFromJson payload = some event →
        ∃ kind button : UInt32, decodePointer payload = some (kind, button) ∧
          event.mask % 8 = kind.toNat ∧ event.mask / 8 = button.toNat ∧
          Known payload kind.toNat button.toNat := by
  refine ⟨⟨?_, ?_⟩, fun event => decodePointer_of_event⟩
  · intro h
    by_cases hknown : ∀ kind button, ¬ Known payload kind button
    · exact .inl hknown
    · push Not at hknown
      obtain ⟨kind, button, hknown⟩ := hknown
      obtain ⟨-, hx, hy⟩ := h _ (mouseEventFromJson_eq_some_iff.mpr ⟨kind, button, hknown, rfl⟩)
      exact .inr ⟨(carries_coordinate_iff _).mp hx, (carries_coordinate_iff _).mp hy⟩
  · intro h event hevent
    obtain ⟨kind, button, hknown, rfl⟩ := mouseEventFromJson_eq_some_iff.mp hevent
    rcases h with h | ⟨hx, hy⟩
    · exact absurd hknown (h kind button)
    · exact ⟨⟨kind, button, hknown⟩, (carries_coordinate_iff _).mpr hx,
        (carries_coordinate_iff _).mpr hy⟩

/-- A button goes down at the origin where the payload says half a pixel and no number at all. -/
theorem pointer_json_clicks_origin :
    let payload := Value.object [("type", .string "down"), ("buttons", .string "left"),
      ("x", .number (.float ⟨1, 2, by decide, by decide⟩)), ("y", .null)]
    mouseEventFromJson payload = some ⟨9, 0, 0⟩ ∧ ¬ ExactOrDropped payload := by
  intro payload
  have hevent : mouseEventFromJson payload = some ⟨9, 0, 0⟩ := by decide
  refine ⟨hevent, fun h => ?_⟩
  obtain ⟨-, -, hnull, -⟩ := h _ hevent
  exact hnull

end FlutterInput

end RdEngine
