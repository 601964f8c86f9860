/-
RdEngine/Vnc/Auth.lean

DES as VNC authentication uses it (`auth.rs`): the password, with the bits of
each byte reversed, is the key; the challenge is encrypted as two independent
blocks.

A permutation reads the bits of a byte string from the most significant bit of
its first byte, and gathers them at the low end of a 64-bit word.
-/
import RdEngine.Sodium

namespace RdEngine

namespace Vnc.Auth

/-! ### Tables -/

/-- Initial permutation; positions count from one. -/
def ip : List Nat :=
  [58, 50, 42, 34, 26, 18, 10, 2, 60, 52, 44, 36, 28, 20, 12, 4, 62, 54, 46, 38, 30, 22, 14, 6,
   64, 56, 48, 40, 32, 24, 16, 8, 57, 49, 41, 33, 25, 17, 9, 1, 59, 51, 43, 35, 27, 19, 11, 3,
   61, 53, 45, 37, 29, 21, 13, 5, 63, 55, 47, 39, 31, 23, 15, 7]

/-- Final permutation, the inverse of the initial one. -/
def fp : List Nat :=
  [40, 8, 48, 16, 56, 24, 64, 32, 39, 7, 47, 15, 55, 23, 63, 31, 38, 6, 46, 14, 54, 22, 62, 30,
   37, 5, 45, 13, 53, 21, 61, 29, 36, 4, 44, 12, 52, 20, 60, 28, 35, 3, 43, 11, 51, 19, 59, 27,
   34, 2, 42, 10, 50, 18, 58, 26, 33, 1, 41, 9, 49, 17, 57, 25]

/-- Permuted choice 1: 56 bits of key material, no parity bits. -/
def pc1 : List Nat :=
  [57, 49, 41, 33, 25, 17, 9, 1, 58, 50, 42, 34, 26, 18, 10, 2, 59, 51, 43, 35, 27, 19, 11, 3,
   60, 52, 44, 36, 63, 55, 47, 39, 31, 23, 15, 7, 62, 54, 46, 38, 30, 22, 14, 6, 61, 53, 45, 37,
   29, 21, 13, 5, 28, 20, 12, 4]

/-- Permuted choice 2: a 48-bit round subkey. -/
def pc2 : List Nat :=
  [14, 17, 11, 24, 1, 5, 3, 28, 15, 6, 21, 10, 23, 19, 12, 4, 26, 8, 16, 7, 27, 20, 13, 2, 41,
   52, 31, 37, 47, 55, 30, 40, 51, 45, 33, 48, 44, 49, 39, 56, 34, 53, 46, 42, 50, 36, 29, 32]

/-- Left rotations per round. -/
def shifts : List UInt32 := [1, 1, 2, 2, 2, 2, 2, 2, 1, 2, 2, 2, 2, 2, 2, 1]

/-- Expansion from 32 bits to 48. -/
def e : List Nat :=
  [32, 1, 2, 3, 4, 5, 4, 5, 6, 7, 8, 9, 8, 9, 10, 11, 12, 13, 12, 13, 14, 15, 16, 17, 16, 17, 18,
   19, 20, 21, 20, 21, 22, 23, 24, 25, 24, 25, 26, 27, 28, 29, 28, 29, 30, 31, 32, 1]

/-- Permutation of the output of the S-boxes. -/
def p : List Nat :=
  [16, 7, 20, 21, 29, 12, 28, 17, 1, 15, 23, 26, 5, 18, 31, 10, 2, 8, 24, 14, 32, 27, 3, 9, 19,
   13, 30, 6, 22, 11, 4, 25]

/-- The eight substitution boxes. -/
def s : List (List (List UInt32)) :=
  [
    [[14, 4, 13, 1, 2, 15, 11, 8, 3, 10, 6, 12, 5, 9, 0, 7],
     [0, 15, 7, 4, 14, 2, 13, 1, 10, 6, 12, 11, 9, 5, 3, 8],
     [4, 1, 14, 8, 13, 6, 2, 11, 15, 12, 9, 7, 3, 10, 5, 0],
     [15, 12, 8, 2, 4, 9, 1, 7, 5, 11, 3, 14, 10, 0, 6, 13]],
    [[15, 1, 8, 14, 6, 11, 3, 4, 9, 7, 2, 13, 12, 0, 5, 10],
     [3, 13, 4, 7, 15, 2, 8, 14, 12, 0, 1, 10, 6, 9, 11, 5],
     [0, 14, 7, 11, 10, 4, 13, 1, 5, 8, 12, 6, 9, 3, 2, 15],
     [13, 8, 10, 1, 3, 15, 4, 2, 11, 6, 7, 12, 0, 5, 14, 9]],
    [[10, 0, 9, 14, 6, 3, 15, 5, 1, 13, 12, 7, 11, 4, 2, 8],
     [13, 7, 0, 9, 3, 4, 6, 10, 2, 8, 5, 14, 12, 11, 15, 1],
     [13, 6, 4, 9, 8, 15, 3, 0, 11, 1, 2, 12, 5, 10, 14, 7],
     [1, 10, 13, 0, 6, 9, 8, 7, 4, 15, 14, 3, 11, 5, 2, 12]],
    [[7, 13, 14, 3, 0, 6, 9, 10, 1, 2, 8, 5, 11, 12, 4, 15],
     [13, 8, 11, 5, 6, 15, 0, 3, 4, 7, 2, 12, 1, 10, 14, 9],
     [10, 6, 9, 0, 12, 11, 7, 13, 15, 1, 3, 14, 5, 2, 8, 4],
     [3, 15, 0, 6, 10, 1, 13, 8, 9, 4, 5, 11, 12, 7, 2, 14]],
    [[2, 12, 4, 1, 7, 10, 11, 6, 8, 5, 3, 15, 13, 0, 14, 9],
     [14, 11, 2, 12, 4, 7, 13, 1, 5, 0, 15, 10, 3, 9, 8, 6],
     [4, 2, 1, 11, 10, 13, 7, 8, 15, 9, 12, 5, 6, 3, 0, 14],
     [11, 8, 12, 7, 1, 14, 2, 13, 6, 15, 0, 9, 10, 4, 5, 3]],
    [[12, 1, 10, 15, 9, 2, 6, 8, 0, 13, 3, 4, 14, 7, 5, 11],
     [10, 15, 4, 2, 7, 12, 9, 5, 6, 1, 13, 14, 0, 11, 3, 8],
     [9, 14, 15, 5, 2, 8, 12, 3, 7, 0, 4, 10, 1, 13, 11, 6],
     [4, 3, 2, 12, 9, 5, 15, 10, 11, 14, 1, 7, 6, 0, 8, 13]],
    [[4, 11, 2, 14, 15, 0, 8, 13, 3, 12, 9, 7, 5, 10, 6, 1],
     [13, 0, 11, 7, 4, 9, 1, 10, 14, 3, 5, 12, 2, 15, 8, 6],
     [1, 4, 11, 13, 12, 3, 7, 14, 10, 15, 6, 8, 0, 5, 9, 2],
     [6, 11, 13, 8, 1, 4, 10, 7, 9, 5, 0, 15, 14, 2, 3, 12]],
    [[13, 2, 8, 4, 6, 15, 11, 1, 10, 9, 3, 14, 5, 0, 12, 7],
     [1, 15, 13, 8, 10, 3, 7, 4, 12, 5, 6, 11, 0, 14, 9, 2],
     [7, 11, 4, 1, 9, 12, 14, 2, 0, 6, 10, 13, 15, 3, 5, 8],
     [2, 1, 14, 7, 4, 10, 8, 13, 15, 12, 9, 0, 3, 5, 6, 11]]]

/-! ### Bits -/

/-- Big-endian bytes of a word. -/
def beBytes (word : UInt64) : Bytes :=
  (List.range 8).map fun i => (word >>> (56 - 8 * i).toUInt64).toUInt8

/-- Bit `position`, counted from one at the most significant bit. -/
def bit (bytes : Bytes) (position : Nat) : UInt64 :=
  let index := position - 1
  ((bytes.getD (index / 8) 0 >>> (7 - index % 8).toUInt8) &&& 1).toUInt64

/-- Gather the bits the table names; the result is right-aligned. -/
def permute (source : Bytes) (table : List Nat) : UInt64 :=
  table.foldl (fun out position => (out <<< 1) ||| bit source position) 0

/-- The low `width` bits in the top bits of a byte string. -/
def leftAligned (value : UInt64) (width : Nat) : Bytes := beBytes (value <<< (64 - width).toUInt64)

/-! ### The cipher -/

/-- `u8::reverse_bits`. -/
def reverseBits (byte : UInt8) : UInt8 :=
  (List.range 8).foldl (fun out i => (out <<< 1) ||| ((byte >>> i.toUInt8) &&& 1)) 0

/-- Eight bytes, with zeros behind a short password. -/
def vncKeyFromPassword (password : Bytes) : Bytes :=
  (List.range 8).map fun index => reverseBits (password.getD index 0)

/-- One left rotation of a 28-bit half. -/
def rotate28 (half shift : UInt32) : UInt32 :=
  ((half <<< shift) ||| (half >>> (28 - shift))) &&& 0x0fffffff

/-- The subkey of a round, six bytes as the low 48 bits of a word. -/
def subkey (left right : UInt32) : UInt64 :=
  permute (beBytes ((left.toUInt64 <<< 36) ||| (right.toUInt64 <<< 8))) pc2

/-- The subkeys of the rounds left to go, from the halves of the key. -/
def subkeysFrom (left right : UInt32) : List UInt32 → List UInt64
  | [] => []
  | shift :: rest =>
    let left := rotate28 left shift
    let right := rotate28 right shift
    subkey left right :: subkeysFrom left right rest

/-- The key schedule. -/
def desKeySchedule (key : Bytes) : List UInt64 :=
  let selected := permute key pc1
  subkeysFrom ((selected >>> 28) &&& 0x0fffffff).toUInt32 (selected &&& 0x0fffffff).toUInt32 shifts

/-- The four bits a box puts for its six. -/
def substitute (box : Nat) (six : UInt64) : UInt32 :=
  let row := ((six &&& 0x20) >>> 4) ||| (six &&& 1)
  let column := (six >>> 1) &&& 0x0f
  ((s.getD box []).getD row.toNat []).getD column.toNat 0

/-- The round function: expand, mix with the subkey, substitute, permute. -/
def feistel (right : UInt32) (subkey : UInt64) : UInt32 :=
  -- only the first four bytes are read
  let expanded := permute (leftAligned right.toUInt64 32) e
  let mixed := expanded ^^^ subkey
  let substituted : UInt32 := (List.range 8).foldl (fun out box =>
    (out <<< 4) ||| substitute box ((mixed >>> (42 - box * 6).toUInt64) &&& 0x3f)) 0
  (permute (leftAligned substituted.toUInt64 32) p).toUInt32

/-- One round: the new right half comes from the old left half. -/
def round (halves : UInt32 × UInt32) (subkey : UInt64) : UInt32 × UInt32 :=
  (halves.2, halves.1 ^^^ feistel halves.2 subkey)

def encryptBlock (subkeys : List UInt64) (block : Bytes) : Bytes :=
  let permuted := permute block ip
  let (left, right) := subkeys.foldl round ((permuted >>> 32).toUInt32, permuted.toUInt32)
  -- the halves are crossed before the final permutation
  beBytes (permute (beBytes ((right.toUInt64 <<< 32) ||| left.toUInt64)) fp)

/-- Encrypt the whole blocks of eight bytes; a rest stays as it is. -/
def encryptEcb (key data : Bytes) : Bytes :=
  let subkeys := desKeySchedule key
  let blocks := (List.range (data.length / 8)).map fun i => (data.drop (8 * i)).take 8
  blocks.flatMap (encryptBlock subkeys) ++ data.drop (8 * (data.length / 8))

/-- Answer an authentication challenge. -/
def answerChallenge (password : Bytes) (challenge : FixedBytes 16) : Bytes :=
  encryptEcb (vncKeyFromPassword password) challenge.1

theorem length_encryptBlock (subkeys : List UInt64) (block : Bytes) :
    (encryptBlock subkeys block).length = 8 := by
  simp [encryptBlock, beBytes]

/-- The published vector the source tests against. -/
example : encryptBlock (desKeySchedule [0x13, 0x34, 0x57, 0x79, 0x9b, 0xbc, 0xdf, 0xf1])
    [0x01, 0x23, 0x45, 0x67, 0x89, 0xab, 0xcd, 0xef] =
      [0x85, 0xe8, 0x13, 0x54, 0x0f, 0x0a, 0xb4, 0x05] := by decide +kernel

/-- A challenge of two blocks has an answer of two blocks. -/
theorem length_answerChallenge (password : Bytes) (challenge : FixedBytes 16) :
    (answerChallenge password challenge).length = 16 := by
  have hrest : (challenge.1.drop 16).length = 0 := by rw [List.length_drop, challenge.2]
  simp only [answerChallenge, encryptEcb, challenge.2, List.length_append, List.length_flatMap,
    length_encryptBlock, List.map_map]
  rw [hrest]
  rfl

end Vnc.Auth

end RdEngine
