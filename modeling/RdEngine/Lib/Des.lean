/-
RdEngine/Lib/Des.lean

The Data Encryption Standard, on bit vectors.

The bits of a block are numbered from one, from the left, and a table names the
bits a selection takes.  A key of 64 bits, of which every eighth is left out, is
turned into sixteen keys of 48 bits by rotating its two halves; each is used in
one round of a Feistel network between the initial permutation and its inverse.

The cipher with its keys in the opposite order is its inverse
(`cipher_reverse`).
-/
import RdEngine.Lib.Bits
import RdEngine.Lib.Feistel

namespace Des

open Bits

/-! ### Tables

The permutations that follow a rule are given by it; `row` and `column` count
from zero in a table of eight columns. -/

/-- The initial permutation: the even positions of each byte, then the odd ones,
each from the last byte to the first. -/
def ip : List Nat :=
  (List.range 64).map fun i =>
    let row := i / 8
    let column := i % 8
    (if row < 4 then 58 + 2 * row else 57 + 2 * (row - 4)) - 8 * column

/-- Its inverse. -/
def ipInverse : List Nat :=
  (List.range 64).map fun i =>
    let row := i / 8
    let column := i % 8
    (if column % 2 = 0 then 40 + 4 * column else 4 + 4 * column) - row

/-- The expansion: four bits with their neighbours on both sides. -/
def e : List Nat := (List.range 48).map fun i => (4 * (i / 6) + i % 6 + 31) % 32 + 1

/-- The permutation behind the boxes. -/
def p : List Nat :=
  [16, 7, 20, 21,
   29, 12, 28, 17,
   1, 15, 23, 26,
   5, 18, 31, 10,
   2, 8, 24, 14,
   32, 27, 3, 9,
   19, 13, 30, 6,
   22, 11, 4, 25]

/-- The bits of a key that are used: not the last of each byte. -/
def pc1 : List Nat :=
  [57, 49, 41, 33, 25, 17, 9,
   1, 58, 50, 42, 34, 26, 18,
   10, 2, 59, 51, 43, 35, 27,
   19, 11, 3, 60, 52, 44, 36,
   63, 55, 47, 39, 31, 23, 15,
   7, 62, 54, 46, 38, 30, 22,
   14, 6, 61, 53, 45, 37, 29,
   21, 13, 5, 28, 20, 12, 4]

/-- The choice of the key's bits for a round. -/
def pc2 : List Nat :=
  [14, 17, 11, 24, 1, 5,
   3, 28, 15, 6, 21, 10,
   23, 19, 12, 4, 26, 8,
   16, 7, 27, 20, 13, 2,
   41, 52, 31, 37, 47, 55,
   30, 40, 51, 45, 33, 48,
   44, 49, 39, 56, 34, 53,
   46, 42, 50, 36, 29, 32]

/-- The rotations before each key: by two, but for the first, second, ninth and last. -/
def rotations : List Nat :=
  (List.range 16).map fun i => if i = 0 ∨ i = 1 ∨ i = 8 ∨ i = 15 then 1 else 2

/-- The eight boxes, each with four rows of sixteen numbers. -/
def boxes : List (List (List Nat)) :=
  [[[14, 4, 13, 1, 2, 15, 11, 8, 3, 10, 6, 12, 5, 9, 0, 7],
    [0, 15, 7, 4, 14, 2, 13, 1, 10, 6, 12, 11, 9, 5, 3, 8],
    [4, 1, 14, 8, 13, 6, 2, 11, 15, 12, 9, 7, 3, 10, 5, 0],
    [15, 12, 8, 2, 4, 9, 1, 7, 5, 11, 3, 14, 10, 0, 6, 13]],
   [[15, 1, 8, 14, 6, 11, 3, 4, 9, 7, 2, 13, 12, 0, 5, 10],
    [3, 13, 4, 7, 15, 2, 8, 14, 12, 0, 1, 10, 6, 9, 11, 5],
    [0, 14, 7, 11, 10, 4, 13, 1, 5, 8, 12, 6, 9, 3, 2, 15],
    [13, 8, 10, 1, 3, 15, 4, 2, 11, 6, 7, 12, 0, 5, 14, 9]],
   [[10, 0, 9, 14, 6, 3, 15, 5, 1, 13, 12, 7, 11, 4, 2, 8],
    [13, 7, 0, 9, 3, 4, 6, 10, 2, 8, 5, 14, 12, 11, 15, 1],
    [13, 6, 4, 9, 8, 15, 3, 0, 11, 1, 2, 12, 5, 10, 14, 7],
    [1, 10, 13, 0, 6, 9, 8, 7, 4, 15, 14, 3, 11, 5, 2, 12]],
   [[7, 13, 14, 3, 0, 6, 9, 10, 1, 2, 8, 5, 11, 12, 4, 15],
    [13, 8, 11, 5, 6, 15, 0, 3, 4, 7, 2, 12, 1, 10, 14, 9],
    [10, 6, 9, 0, 12, 11, 7, 13, 15, 1, 3, 14, 5, 2, 8, 4],
    [3, 15, 0, 6, 10, 1, 13, 8, 9, 4, 5, 11, 12, 7, 2, 14]],
   [[2, 12, 4, 1, 7, 10, 11, 6, 8, 5, 3, 15, 13, 0, 14, 9],
    [14, 11, 2, 12, 4, 7, 13, 1, 5, 0, 15, 10, 3, 9, 8, 6],
    [4, 2, 1, 11, 10, 13, 7, 8, 15, 9, 12, 5, 6, 3, 0, 14],
    [11, 8, 12, 7, 1, 14, 2, 13, 6, 15, 0, 9, 10, 4, 5, 3]],
   [[12, 1, 10, 15, 9, 2, 6, 8, 0, 13, 3, 4, 14, 7, 5, 11],
    [10, 15, 4, 2, 7, 12, 9, 5, 6, 1, 13, 14, 0, 11, 3, 8],
    [9, 14, 15, 5, 2, 8, 12, 3, 7, 0, 4, 10, 1, 13, 11, 6],
    [4, 3, 2, 12, 9, 5, 15, 10, 11, 14, 1, 7, 6, 0, 8, 13]],
   [[4, 11, 2, 14, 15, 0, 8, 13, 3, 12, 9, 7, 5, 10, 6, 1],
    [13, 0, 11, 7, 4, 9, 1, 10, 14, 3, 5, 12, 2, 15, 8, 6],
    [1, 4, 11, 13, 12, 3, 7, 14, 10, 15, 6, 8, 0, 5, 9, 2],
    [6, 11, 13, 8, 1, 4, 10, 7, 9, 5, 0, 15, 14, 2, 3, 12]],
   [[13, 2, 8, 4, 6, 15, 11, 1, 10, 9, 3, 14, 5, 0, 12, 7],
    [1, 15, 13, 8, 10, 3, 7, 4, 12, 5, 6, 11, 0, 14, 9, 2],
    [7, 11, 4, 1, 9, 12, 14, 2, 0, 6, 10, 13, 15, 3, 5, 8],
    [2, 1, 14, 7, 4, 10, 8, 13, 15, 12, 9, 0, 3, 5, 6, 11]]]

/-! ### The key schedule -/

/-- The keys of the rounds to come, from the two halves. -/
def keysFrom (c d : Bits 28) : List Nat → List (Bits 48)
  | [] => []
  | k :: ks =>
    let c := rotate k c
    let d := rotate k d
    select 48 pc2 (append c d) :: keysFrom c d ks

/-- The keys of the sixteen rounds. -/
def schedule (key : Bits 64) : List (Bits 48) :=
  keysFrom (first (n := 28) 28 (select 56 pc1 key)) (second 28 (select 56 pc1 key)) rotations

/-! ### The cipher -/

/-- Six bits choose a number in a box: the outer two its row, the inner four its
column. -/
def substitute (box : Nat) (b : Bits 6) : Bits 4 :=
  let row := 2 * (b 0).toNat + (b 5).toNat
  let column := 8 * (b 1).toNat + 4 * (b 2).toNat + 2 * (b 3).toNat + (b 4).toNat
  ofNat 4 (((boxes.getD box []).getD row []).getD column 0)

/-- Each box takes six bits and gives four. -/
def substituteAll (b : Bits 48) : Bits 32 := fun i =>
  substitute (i / 4) (fun j => b ⟨6 * (i / 4) + j, by omega⟩) ⟨i % 4, Nat.mod_lt _ (by decide)⟩

/-- The function of a round. -/
def f (key : Bits 48) (right : Bits 32) : Bits 32 :=
  select 32 p (substituteAll (Bits.xor (select 48 e right) key))

/-- The network with these keys; its halves are exchanged at the end. -/
def cipher (keys : List (Bits 48)) (block : Bits 64) : Bits 64 :=
  let permuted : Bits (32 + 32) := select 64 ip block
  let halves := Feistel.network Bits.xor f keys (first 32 permuted, second 32 permuted)
  select 64 ipInverse (append halves.2 halves.1)

def encrypt (key block : Bits 64) : Bits 64 := cipher (schedule key) block

/-! ### Decryption -/

theorem select_ipInverse_ip (b : Bits 64) : select 64 ipInverse (select 64 ip b) = b :=
  select_select (by decide) b

theorem select_ip_ipInverse (b : Bits 64) : select 64 ip (select 64 ipInverse b) = b :=
  select_select (by decide) b

/-- **The keys in the opposite order undo the cipher.** -/
theorem cipher_reverse (keys : List (Bits 48)) (block : Bits 64) :
    cipher keys.reverse (cipher keys block) = block := by
  unfold cipher
  dsimp only
  generalize hpermuted : select 64 ip block = permuted
  generalize hhalves : Feistel.network Bits.xor f keys (first (n := 32) 32 permuted, second (n := 32) 32 permuted) = halves
  have hundo : Feistel.network Bits.xor f keys.reverse (halves.2, halves.1)
      = (second (n := 32) 32 permuted, first (n := 32) 32 permuted) := by
    have hreverse := Feistel.network_reverse (f := f) xor_xor keys
      (first (n := 32) 32 permuted, second (n := 32) 32 permuted)
    rw [hhalves] at hreverse
    exact hreverse
  have hpreoutput : select 64 ip (select 64 ipInverse (append halves.2 halves.1))
      = append halves.2 halves.1 := select_ip_ipInverse _
  rw [hpreoutput, first_append, second_append, hundo, append_first_second, ← hpermuted]
  exact select_ipInverse_ip block

end Des
