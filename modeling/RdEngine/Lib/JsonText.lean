/-
RdEngine/Lib/JsonText.lean

The compact JSON text of an object whose values are strings, and a reader of such texts.
Quotes, backslashes and the characters below the space are escaped.  What is printed is
read back (`readObject_printObject`), so two objects of one text are equal.
-/
import Mathlib.Data.List.Basic

namespace JsonText

/-- The characters that end and escape a text. -/
def quote : Char := Char.ofNat 0x22
def backslash : Char := Char.ofNat 0x5c

/-! ### Printing -/

/-- The characters that are escaped by a letter. -/
def letters : List (Char × Char) :=
  [(Char.ofNat 0x08, 'b'), (Char.ofNat 0x09, 't'), (Char.ofNat 0x0a, 'n'), (Char.ofNat 0x0c, 'f'),
    (Char.ofNat 0x0d, 'r'), (quote, quote), (backslash, backslash)]

/-- A digit of the escape of a control character. -/
def hexDigit (n : Nat) : Char := if n < 10 then Char.ofNat (0x30 + n) else Char.ofNat (0x57 + n)

/-- The escape of a character that may not stand for itself. -/
def escape (c : Char) : List Char :=
  match letters.lookup c with
  | some letter => [backslash, letter]
  | none =>
    if c.toNat < 0x20 then [backslash, 'u', '0', '0', hexDigit (c.toNat / 16), hexDigit (c.toNat % 16)]
    else [c]

def printText (text : String) : List Char := quote :: (text.toList.flatMap escape ++ [quote])

def printMember (member : String × String) : List Char :=
  printText member.1 ++ ':' :: printText member.2

/-- The members, and the end of the object. -/
def printMembers : List (String × String) → List Char
  | [] => ['}']
  | [member] => printMember member ++ ['}']
  | member :: members => printMember member ++ ',' :: printMembers members

def printObject (members : List (String × String)) : List Char := '{' :: printMembers members

/-! ### Reading -/

/-- The number of such a digit. -/
def hexValue (c : Char) : Option Nat := (List.range 16).find? fun n => hexDigit n = c

/-- The character of a letter behind a backslash. -/
def unescape (letter : Char) : Option Char :=
  (letters.find? fun entry => entry.2 = letter).map Prod.fst

/-- The text up to its closing quote, and what is behind it. -/
def readChars : List Char → Option (List Char × List Char)
  | [] => none
  | c :: rest =>
    if c = quote then some ([], rest)
    else if c = backslash then
      match rest with
      | [] => none
      | letter :: rest =>
        if letter = 'u' then
          match rest with
          | '0' :: '0' :: high :: low :: rest => do
            let high ← hexValue high
            let low ← hexValue low
            let (text, rest) ← readChars rest
            some (Char.ofNat (16 * high + low) :: text, rest)
          | _ => none
        else do
          let c ← unescape letter
          let (text, rest) ← readChars rest
          some (c :: text, rest)
    else (readChars rest).map fun (text, rest) => (c :: text, rest)

/-- A text in quotes, and what follows it. -/
def readText : List Char → Option (String × List Char)
  | [] => none
  | c :: rest =>
    if c = quote then (readChars rest).map fun (text, rest) => (String.ofList text, rest) else none

/-- The members of an object up to its end.  Every member takes one of the steps. -/
def readMembers : Nat → List Char → Option (List (String × String))
  | 0, _ => none
  | steps + 1, text => do
    let (key, rest) ← readText text
    match rest with
    | ':' :: rest =>
      let (value, rest) ← readText rest
      match rest with
      | ['}'] => some [(key, value)]
      | ',' :: rest => (readMembers steps rest).map ((key, value) :: ·)
      | _ => none
    | _ => none

/-- An object whose members are texts, and nothing behind it. -/
def readObject : List Char → Option (List (String × String))
  | ['{', '}'] => some []
  | '{' :: rest => readMembers rest.length rest
  | _ => none

/-! ### What is printed is read back -/

theorem letters_unescape :
    ∀ entry ∈ letters, entry.2 ≠ 'u' ∧ unescape entry.2 = some entry.1 := by decide

theorem hexValue_hexDigit : ∀ n, n < 16 → hexValue (hexDigit n) = some n := by decide

theorem readChars_letter {c letter : Char} (h : letter ≠ 'u') (hc : unescape letter = some c)
    (rest : List Char) :
    readChars (backslash :: letter :: rest) =
      (readChars rest).map fun (text, rest) => (c :: text, rest) := by
  rw [readChars.eq_def]
  dsimp only
  rw [if_neg (by decide), if_pos rfl, if_neg h, hc]
  cases readChars rest with
  | none => rfl
  | some parts => rfl

theorem readChars_hex {high low : Nat} (hhigh : high < 16) (hlow : low < 16) (rest : List Char) :
    readChars (backslash :: 'u' :: '0' :: '0' :: hexDigit high :: hexDigit low :: rest) =
      (readChars rest).map fun (text, rest) => (Char.ofNat (16 * high + low) :: text, rest) := by
  rw [readChars.eq_def]
  dsimp only
  rw [if_neg (by decide), if_pos rfl, if_pos rfl]
  show (hexValue (hexDigit high)).bind _ = _
  rw [hexValue_hexDigit high hhigh]
  show (hexValue (hexDigit low)).bind _ = _
  rw [hexValue_hexDigit low hlow]
  cases readChars rest with
  | none => rfl
  | some parts => rfl

theorem readChars_escape (c : Char) (rest : List Char) :
    readChars (escape c ++ rest) = (readChars rest).map fun (text, rest) => (c :: text, rest) := by
  unfold escape
  cases hletter : letters.lookup c with
  | some letter =>
    obtain ⟨before, behind, hsplit, -⟩ := List.lookup_eq_some_iff.mp hletter
    have hmem : (c, letter) ∈ letters := by
      rw [hsplit]
      exact List.mem_append_right _ List.mem_cons_self
    obtain ⟨hu, hc⟩ := letters_unescape _ hmem
    exact readChars_letter hu hc rest
  | none =>
    dsimp only
    split
    · next hcontrol =>
      have hvalue : Char.ofNat (16 * (c.toNat / 16) + c.toNat % 16) = c := by
        rw [Nat.div_add_mod, Char.ofNat_toNat]
      have hread := readChars_hex (show c.toNat / 16 < 16 by omega)
        (show c.toNat % 16 < 16 by omega) rest
      rw [hvalue] at hread
      exact hread
    · -- the quote and the backslash have letters
      have hquote : c ≠ quote := by
        rintro rfl
        cases hletter
      have hbackslash : c ≠ backslash := by
        rintro rfl
        cases hletter
      show readChars (c :: rest) = _
      rw [readChars.eq_def]
      dsimp only
      rw [if_neg hquote, if_neg hbackslash]

theorem readChars_flatMap (text rest : List Char) :
    readChars (text.flatMap escape ++ quote :: rest) = some (text, rest) := by
  induction text with
  | nil =>
    show readChars (quote :: rest) = _
    rw [readChars.eq_def]
    exact if_pos rfl
  | cons c text ih =>
    rw [List.flatMap_cons, List.append_assoc, readChars_escape, ih]
    rfl

theorem readText_printText (text : String) (rest : List Char) :
    readText (printText text ++ rest) = some (text, rest) := by
  have happend : printText text ++ rest = quote :: (text.toList.flatMap escape ++ quote :: rest) := by
    simp [printText]
  rw [happend, readText, if_pos rfl, readChars_flatMap]
  show some (String.ofList text.toList, rest) = _
  rw [String.ofList_toList]

theorem readMembers_cons (steps : Nat) (key value : String) (rest : List Char) :
    readMembers (steps + 1) (printMember (key, value) ++ rest) =
      match rest with
      | ['}'] => some [(key, value)]
      | ',' :: rest => (readMembers steps rest).map ((key, value) :: ·)
      | _ => none := by
  have hkey : printMember (key, value) ++ rest =
      printText key ++ (':' :: (printText value ++ rest)) := by
    simp [printMember]
  rw [hkey, readMembers.eq_def]
  dsimp only
  rw [readText_printText]
  show (readText (printText value ++ rest)).bind _ = _
  rw [readText_printText]
  rfl

theorem readMembers_printMembers {members : List (String × String)} (h : members ≠ [])
    {steps : Nat} (hsteps : members.length ≤ steps) :
    readMembers steps (printMembers members) = some members := by
  induction members generalizing steps with
  | nil => exact absurd rfl h
  | cons member members ih =>
    obtain ⟨steps, rfl⟩ : ∃ n, steps = n + 1 := by
      rw [List.length_cons] at hsteps
      exact ⟨steps - 1, by omega⟩
    rw [List.length_cons] at hsteps
    obtain ⟨key, value⟩ := member
    cases members with
    | nil =>
      show readMembers (steps + 1) (printMember (key, value) ++ ['}']) = _
      rw [readMembers_cons]
      rfl
    | cons next members =>
      show readMembers (steps + 1)
        (printMember (key, value) ++ ',' :: printMembers (next :: members)) = _
      rw [readMembers_cons]
      show (readMembers steps (printMembers (next :: members))).map _ = _
      rw [ih (List.cons_ne_nil _ _) (by omega)]
      rfl

/-- Every member has a character of its own. -/
theorem length_le_printMembers (members : List (String × String)) :
    members.length ≤ (printMembers members).length := by
  induction members with
  | nil => exact Nat.zero_le _
  | cons member members ih =>
    cases members with
    | nil => simp [printMembers]
    | cons next members =>
      show (next :: members).length + 1 ≤
        (printMember member ++ ',' :: printMembers (next :: members)).length
      rw [List.length_append, List.length_cons (a := ',')]
      omega

/-- **What is printed is read back.** -/
theorem readObject_printObject (members : List (String × String)) :
    readObject (printObject members) = some members := by
  cases members with
  | nil => rfl
  | cons member members =>
    have hread := readMembers_printMembers (List.cons_ne_nil member members)
      (length_le_printMembers (member :: members))
    unfold printObject readObject
    split
    · next heq =>
      -- a member begins with a quote, and not with the end of the object
      rw [(List.cons.inj heq).2] at hread
      cases hread
    · next heq =>
      cases heq
      exact hread
    · next hno => exact absurd rfl (hno _)

end JsonText
