/-
RdEngine/Lib/WireFormat.lean

The protobuf wire format, as far as the size of a message goes: numbers in groups
of seven bits, fields by number, and messages inside messages.

A field that has its default value is not written.
-/
import Mathlib.Algebra.Order.Ring.Nat

namespace WireFormat

/-! ### Numbers -/

/-- Seven bits a byte, the lowest first; the high bit says that another follows. -/
def varint (n : Nat) : List UInt8 :=
  if n < 128 then [.ofNat n] else .ofNat (n % 128 + 128) :: varint (n / 128)

theorem varint_of_lt {n : Nat} (h : n < 128) : varint n = [.ofNat n] := by
  rw [varint, if_pos h]

theorem varint_length_le {k n : Nat} (h : n < 128 ^ (k + 1)) : (varint n).length ≤ k + 1 := by
  induction k generalizing n with
  | zero =>
    rw [varint_of_lt (by simpa using h)]
    exact le_refl 1
  | succ k ih =>
    rw [varint]
    split
    · exact Nat.succ_le_succ (Nat.zero_le _)
    · have hnext : n / 128 < 128 ^ (k + 1) :=
        Nat.div_lt_of_lt_mul (by rw [← pow_succ']; exact h)
      exact Nat.succ_le_succ (ih hnext)

/-! ### Fields -/

/-- The value of a field, as its wire type has it. -/
inductive Value where
  | number (n : Nat)
  | bytes (content : List UInt8)

/-- A field: its number, and its value. -/
structure Field where
  number : Nat
  value : Value

namespace Field

/-- The low bits of the key of a field. -/
def wireType : Value → Nat
  | .number _ => 0
  | .bytes _ => 2

/-- A field: its key, and its value. -/
def encode (field : Field) : List UInt8 :=
  varint (8 * field.number + wireType field.value) ++
    match field.value with
    | .number n => varint n
    | .bytes content => varint content.length ++ content

end Field

/-- The fields, one after the other. -/
def encode (fields : List Field) : List UInt8 := fields.flatMap Field.encode

/-! ### The fields of a record -/

/-- A field of bytes; the empty one is the default, and is left out. -/
def bytes (number : Nat) (content : List UInt8) : List Field :=
  if content = [] then [] else [⟨number, .bytes content⟩]

/-- A field that is true or false; false is the default, and is left out. -/
def bool (number : Nat) (value : Bool) : List Field :=
  if value then [⟨number, .number 1⟩] else []

/-- Negative numbers are written as the 64-bit words they are. -/
def int64 (number : Nat) (value : Int) : List Field :=
  if value = 0 then [] else [⟨number, .number (value % 2 ^ 64).toNat⟩]

/-- A message is written also when all its fields have their defaults. -/
def message (number : Nat) (fields : List Field) : List Field :=
  [⟨number, .bytes (encode fields)⟩]

/-! ### Sizes -/

theorem length_encode_append (fields others : List Field) :
    (encode (fields ++ others)).length = (encode fields).length + (encode others).length := by
  rw [encode, List.flatMap_append, List.length_append]
  rfl

/-- One byte for the tag, up to four for the length. -/
theorem length_field_bytes_le {number : Nat} {content : List UInt8} (hnumber : number < 15)
    (hcontent : content.length < 128 ^ 4) :
    (encode [⟨number, .bytes content⟩]).length ≤ content.length + 5 := by
  have htag : (varint (8 * number + 2)).length = 1 := by
    rw [varint_of_lt (by omega)]; rfl
  have hlength : (varint content.length).length ≤ 4 := varint_length_le hcontent
  simp only [encode, Field.encode, Field.wireType, List.flatMap_cons, List.flatMap_nil,
    List.append_nil, List.length_append, htag]
  omega

theorem length_bytes_le {number : Nat} {content : List UInt8} (hnumber : number < 15)
    (hcontent : content.length < 128 ^ 4) :
    (encode (bytes number content)).length ≤ content.length + 5 := by
  unfold bytes
  split
  · exact Nat.zero_le _
  · exact length_field_bytes_le hnumber hcontent

theorem length_message_le {number : Nat} {fields : List Field} (hnumber : number < 15)
    (hfields : (encode fields).length < 128 ^ 4) :
    (encode (message number fields)).length ≤ (encode fields).length + 5 :=
  length_field_bytes_le hnumber hfields

theorem length_field_number_le {number n k : Nat} (hnumber : number < 15)
    (hn : n < 128 ^ (k + 1)) : (encode [⟨number, .number n⟩]).length ≤ k + 2 := by
  have htag : (varint (8 * number + 0)).length = 1 := by
    rw [varint_of_lt (by omega)]; rfl
  have hvalue : (varint n).length ≤ k + 1 := varint_length_le hn
  simp only [encode, Field.encode, Field.wireType, List.flatMap_cons, List.flatMap_nil,
    List.append_nil, List.length_append, htag]
  omega

theorem length_bool_le {number : Nat} {value : Bool} (hnumber : number < 15) :
    (encode (bool number value)).length ≤ 2 := by
  unfold bool
  split
  · exact length_field_number_le (k := 0) hnumber (by decide)
  · exact Nat.zero_le _

theorem length_int64_le {number : Nat} {value : Int} (hnumber : number < 15) :
    (encode (int64 number value)).length ≤ 11 := by
  unfold int64
  split
  · exact Nat.zero_le _
  · refine length_field_number_le (k := 9) hnumber ?_
    have hword := Int.emod_lt_of_pos value (show (0 : Int) < 2 ^ 64 by decide)
    have hpower : (2 : Nat) ^ 64 ≤ 128 ^ 10 := by decide
    omega

end WireFormat
