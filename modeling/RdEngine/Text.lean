/-
RdEngine/Text.lean

The text functions of the standard library that the engine uses, and the
version number `hbb_common` reads out of a text.  A text is the list of its
characters; an index into it counts bytes, and slicing inside a character
panics.
-/
import RdEngine.Message
import Mathlib.Algebra.Order.Ring.Int

namespace RdEngine

/-! ### Characters -/

/-- `char::is_control`. -/
def isControl (c : Char) : Bool := c.toNat < 0x20 ∨ (0x7f ≤ c.toNat ∧ c.toNat < 0xa0)

/-- `char::is_whitespace`. -/
def isWhitespace (c : Char) : Bool :=
  (9 ≤ c.toNat ∧ c.toNat ≤ 13) ∨ (0x2000 ≤ c.toNat ∧ c.toNat ≤ 0x200a) ∨
    c.toNat ∈ [0x20, 0x85, 0xa0, 0x1680, 0x2028, 0x2029, 0x202f, 0x205f, 0x3000]

namespace Text

/-! ### `String::from_utf8_lossy` -/

/-- A continuation byte. -/
def isContinuation (b : UInt8) : Bool := b &&& 0xc0 == 0x80

/-- The second byte a sequence that starts with the first may have. -/
def secondInRange (first second : UInt8) : Bool :=
  match first with
  | 0xe0 => 0xa0 ≤ second ∧ second ≤ 0xbf
  | 0xed => 0x80 ≤ second ∧ second ≤ 0x9f
  | 0xf0 => 0x90 ≤ second ∧ second ≤ 0xbf
  | 0xf4 => 0x80 ≤ second ∧ second ≤ 0x8f
  | _ => isContinuation second

/-- What stands for bytes that are no character. -/
def replacement : Char := Char.ofNat 0xfffd

/-- The first character and the number of its bytes.  An ill-formed sequence
counts as one replacement character, up to where it goes wrong. -/
def lossyChar (b0 : UInt8) (rest : Bytes) : Char × Nat :=
  let b1 := rest.getD 0 0
  let b2 := rest.getD 1 0
  let b3 := rest.getD 2 0
  let low (b : UInt8) : Nat := b.toNat % 64
  if b0 < 0x80 then (Char.ofNat b0.toNat, 1)
  else if 0xc2 ≤ b0 ∧ b0 ≤ 0xdf then
    if isContinuation b1 then (Char.ofNat (b0.toNat % 32 * 64 + low b1), 2) else (replacement, 1)
  else if 0xe0 ≤ b0 ∧ b0 ≤ 0xef then
    if !secondInRange b0 b1 then (replacement, 1)
    else if !isContinuation b2 then (replacement, 2)
    else (Char.ofNat ((b0.toNat % 16 * 64 + low b1) * 64 + low b2), 3)
  else if 0xf0 ≤ b0 ∧ b0 ≤ 0xf4 then
    if !secondInRange b0 b1 then (replacement, 1)
    else if !isContinuation b2 then (replacement, 2)
    else if !isContinuation b3 then (replacement, 3)
    else (Char.ofNat (((b0.toNat % 8 * 64 + low b1) * 64 + low b2) * 64 + low b3), 4)
  else (replacement, 1)

/-- Decode at most so many characters. -/
def lossyAmong : Nat → Bytes → List Char
  | 0, _ => []
  | _, [] => []
  | n + 1, b :: rest =>
    let (c, len) := lossyChar b rest
    c :: lossyAmong n (rest.drop (len - 1))

def fromUtf8Lossy (bytes : Bytes) : List Char := lossyAmong bytes.length bytes

/-- ASCII decodes byte by byte. -/
theorem fromUtf8Lossy_ascii {bytes : Bytes} (h : ∀ b ∈ bytes, b < 0x80) :
    fromUtf8Lossy bytes = bytes.map fun b => Char.ofNat b.toNat := by
  unfold fromUtf8Lossy
  induction bytes with
  | nil => rfl
  | cons b rest ih =>
    have hb : b < 0x80 := h b List.mem_cons_self
    rw [List.length_cons, lossyAmong, lossyChar, if_pos hb]
    simp only [Nat.sub_self, List.drop_zero, List.map_cons]
    rw [ih fun c hc => h c (List.mem_cons_of_mem _ hc)]

/-! ### Slices -/

/-- The parts before and after a byte index, if it is between characters. -/
def splitAtByte : Nat → List Char → Option (List Char × List Char)
  | 0, text => some ([], text)
  | _ + 1, [] => none
  | n + 1, c :: rest =>
    if c.utf8Size ≤ n + 1 then
      (splitAtByte (n + 1 - c.utf8Size) rest).map fun r => (c :: r.1, r.2)
    else none

/-- `&text[start..stop]`, or none where the source panics. -/
def slice (text : List Char) (start stop : Nat) : Option (List Char) :=
  (splitAtByte start text).bind fun r => (splitAtByte (stop - start) r.2).map (·.1)

theorem splitAtByte_ascii (before after : List Char) (h : ∀ c ∈ before, c.utf8Size = 1) : splitAtByte before.length (before ++ after) = some (before, after) := by
  induction before with
  | nil => cases after <;> rfl
  | cons c before ih =>
    have hc : c.utf8Size = 1 := h c List.mem_cons_self
    rw [List.length_cons, List.cons_append, splitAtByte, if_pos (by omega), hc, Nat.add_sub_cancel,
      ih fun d hd => h d (List.mem_cons_of_mem _ hd)]
    rfl

theorem utf8Size_of_all {cs : List Char} (h : cs.all (·.utf8Size == 1) = true) :
    ∀ c ∈ cs, c.utf8Size = 1 :=
  fun c hc => eq_of_beq (List.all_eq_true.mp h c hc)

/-- A slice of characters of one byte each. -/
theorem slice_ascii (before middle after : List Char) (hbefore : ∀ c ∈ before, c.utf8Size = 1)
    (hmiddle : ∀ c ∈ middle, c.utf8Size = 1) :
    slice (before ++ (middle ++ after)) before.length (before.length + middle.length) =
      some middle := by
  rw [slice, splitAtByte_ascii before _ hbefore, Option.bind_some, Nat.add_sub_cancel_left,
    splitAtByte_ascii middle after hmiddle]
  rfl

/-! ### `parse` -/

def isDigit (c : Char) : Bool := '0' ≤ c ∧ c ≤ '9'

/-- The value of decimal digits. -/
def decimal (digits : List Char) : Nat :=
  digits.foldl (fun value c => value * 10 + (c.toNat - '0'.toNat)) 0

/-- `parse::<u32>`.  A plus sign is accepted. -/
def parseU32 (text : List Char) : Option Nat :=
  let digits := if text.head? = some '+' then text.tail else text
  if digits = [] ∨ !digits.all isDigit ∨ decimal digits ≥ 2 ^ 32 then none
  else some (decimal digits)

/-- `parse::<u64>`. -/
def parseU64 (text : List Char) : Option Nat :=
  let digits := if text.head? = some '+' then text.tail else text
  if digits = [] ∨ !digits.all isDigit ∨ decimal digits ≥ 2 ^ 64 then none
  else some (decimal digits)

/-- `parse::<i64>`. -/
def parseI64 (text : List Char) : Option Int64 :=
  let negative := text.head? = some '-'
  let digits := if negative ∨ text.head? = some '+' then text.tail else text
  if digits = [] ∨ !digits.all isDigit then none
  else if negative then
    if decimal digits ≤ 2 ^ 63 then some (Int64.ofInt (-decimal digits)) else none
  else if decimal digits < 2 ^ 63 then some (Int64.ofInt (decimal digits)) else none

/-! ### Version numbers -/

/-- `get_version_number`: the dotted part in base 1000 with its last number
times ten, and the first number behind a dash.  Its sums wrap, as they do in a
release build. -/
def getVersionNumber (version : List Char) : Int64 :=
  match version.splitOn '-' with
  | [] => 0
  | first :: others =>
    let numbers := (first.splitOn '.').map fun part => (parseI64 part).getD 0
    let n := numbers.foldl (fun n last => n * 1000 + last) 0
    let last := numbers.getLast?.getD 0
    let n := n - last + last * 10
    match others with
    | [] => n
    | patch :: _ => n + (parseI64 patch).getD 0

example : getVersionNumber "1.1.10-1".toList = 1001101 := by decide

end Text

end RdEngine
