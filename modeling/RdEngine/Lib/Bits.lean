/-
RdEngine/Lib/Bits.lean

Bit vectors, the leftmost bit first.

Standards number the bits of a block from one, from the left, and give
permutations and selections as tables of such numbers (`select`).  Code packs
bits into words from the right.  `ofNat` reads a word's low bits from the left;
`pack` is what a loop makes that shifts a word and puts the next digit at its
right end, and `ofNat_pack_one`, `testBit_pack` say which bits it has then.
-/
import Mathlib.Data.List.Induction
import Mathlib.Data.Nat.Bitwise

/-- `n` bits, the leftmost first. -/
abbrev Bits (n : Nat) := Fin n → Bool

namespace Bits

variable {m n : Nat}

/-! ### Operations -/

/-- The bit at a position; positions count from one. -/
def nth (b : Bits n) (position : Nat) : Bool :=
  if h : position - 1 < n then b ⟨position - 1, h⟩ else false

/-- The bits at the positions of a table. -/
def select (m : Nat) (table : List Nat) (b : Bits n) : Bits m := fun i => b.nth (table.getD i 0)

/-- Bit by bit. -/
def xor (a b : Bits n) : Bits n := fun i => a i ^^ b i

/-- One behind the other. -/
def append (a : Bits m) (b : Bits n) : Bits (m + n) := fun i =>
  if h : i.val < m then a ⟨i, h⟩ else b ⟨i - m, by omega⟩

/-- The first `m` bits. -/
def first (m : Nat) (b : Bits (m + n)) : Bits m := fun i => b ⟨i, by omega⟩

/-- The bits behind them. -/
def second (m : Nat) (b : Bits (m + n)) : Bits n := fun i => b ⟨m + i, by omega⟩

/-- To the left; what leaves there comes back at the right. -/
def rotate (k : Nat) (b : Bits n) : Bits n := fun i => b ⟨(i + k) % n, Nat.mod_lt _ i.pos⟩

/-- The low bits of a number. -/
def ofNat (n w : Nat) : Bits n := fun i => w.testBit (n - 1 - i)

@[simp] theorem xor_xor (a b : Bits n) : xor (xor a b) b = a := by
  funext i
  unfold xor
  rw [Bool.xor_assoc, Bool.xor_self, Bool.xor_false]

@[simp] theorem first_append (a : Bits m) (b : Bits n) : first m (append a b) = a := by
  funext i
  unfold first append
  rw [dif_pos i.isLt]

@[simp] theorem second_append (a : Bits m) (b : Bits n) : second m (append a b) = b := by
  funext i
  unfold second append
  rw [dif_neg (by simp)]
  congr 1
  exact Fin.ext (Nat.add_sub_cancel_left m i)

@[simp] theorem append_first_second (b : Bits (m + n)) : append (first m b) (second m b) = b := by
  funext i
  unfold append first second
  split
  · rfl
  · rename_i hle
    congr 1
    exact Fin.ext (Nat.add_sub_of_le (Nat.not_lt.mp hle))

theorem nth_succ (b : Bits n) {i : Nat} (h : i < n) : b.nth (i + 1) = b ⟨i, h⟩ := by
  rw [nth, dif_pos (by simpa using h)]
  rfl

theorem nth_of_lt (b : Bits n) {position : Nat} (h : position - 1 < n) :
    b.nth position = b ⟨position - 1, h⟩ := dif_pos h

/-- A table undoes another if each position is where the other has put it. -/
theorem select_select {there back : List Nat}
    (h : ∀ i < n, 1 ≤ back.getD i 0 ∧ back.getD i 0 ≤ n ∧ there.getD (back.getD i 0 - 1) 0 = i + 1)
    (b : Bits n) : select n back (select n there b) = b := by
  funext i
  obtain ⟨hpos, hle, hthere⟩ := h i i.isLt
  unfold select
  rw [nth_of_lt _ (show back.getD i 0 - 1 < n by omega)]
  dsimp only
  rw [hthere, nth_succ b i.isLt]

theorem ofNat_xor (v w : Nat) : ofNat n (v ^^^ w) = xor (ofNat n v) (ofNat n w) := by
  funext i
  unfold ofNat xor
  rw [Nat.testBit_xor]

/-- A number is its low bits, if it has no others. -/
theorem ofNat_inj {v w : Nat} (hv : v < 2 ^ n) (hw : w < 2 ^ n) (h : ofNat n v = ofNat n w) :
    v = w := by
  refine Nat.eq_of_testBit_eq fun i => ?_
  by_cases hi : i < n
  · have hat := congrFun h ⟨n - 1 - i, by omega⟩
    unfold ofNat at hat
    dsimp only at hat
    have hback : n - 1 - (n - 1 - i) = i := by omega
    rw [hback] at hat
    exact hat
  · have hpow : 2 ^ n ≤ 2 ^ i := Nat.pow_le_pow_right (by decide) (Nat.not_lt.mp hi)
    rw [Nat.testBit_lt_two_pow (hv.trans_le hpow), Nat.testBit_lt_two_pow (hw.trans_le hpow)]

/-! ### Packing digits -/

/-- The number with these digits of `w` bits, the most significant first. -/
def pack (w : Nat) (digits : List Nat) : Nat := digits.foldl (fun n digit => n * 2 ^ w + digit) 0

variable {w : Nat} {digits : List Nat}

theorem pack_snoc (digits : List Nat) (digit : Nat) :
    pack w (digits ++ [digit]) = pack w digits * 2 ^ w + digit := by
  unfold pack
  rw [List.foldl_append]
  rfl

theorem pack_lt (h : ∀ digit ∈ digits, digit < 2 ^ w) :
    pack w digits < 2 ^ (w * digits.length) := by
  induction digits using List.reverseRecOn with
  | nil => exact Nat.two_pow_pos _
  | append_singleton digits digit ih =>
    rw [List.forall_mem_append, List.forall_mem_singleton] at h
    have hlt := ih h.1
    rw [pack_snoc, List.length_append, List.length_singleton, Nat.mul_add_one, Nat.pow_add]
    calc pack w digits * 2 ^ w + digit < pack w digits * 2 ^ w + 2 ^ w := by
          exact Nat.add_lt_add_left h.2 _
      _ = (pack w digits + 1) * 2 ^ w := (Nat.succ_mul _ _).symm
      _ ≤ 2 ^ (w * digits.length) * 2 ^ w := Nat.mul_le_mul_right _ hlt

theorem testBit_pack (h : ∀ digit ∈ digits, digit < 2 ^ w) {i j : Nat} (hi : i < digits.length)
    (hj : j < w) : (pack w digits).testBit (w * (digits.length - 1 - i) + j)
      = (digits.getD i 0).testBit j := by
  induction digits using List.reverseRecOn with
  | nil => exact absurd hi (Nat.not_lt_zero i)
  | append_singleton digits digit ih =>
    rw [List.forall_mem_append, List.forall_mem_singleton] at h
    rw [List.length_append, List.length_singleton] at hi ⊢
    rw [pack_snoc, Nat.mul_comm (pack w digits), Nat.testBit_two_pow_mul_add _ h.2]
    by_cases hlast : i = digits.length
    · subst hlast
      have hzero : digits.length + 1 - 1 - digits.length = 0 := by omega
      rw [hzero, Nat.mul_zero, Nat.zero_add, if_pos hj, List.getD_append_right _ _ _ _ le_rfl,
        Nat.sub_self]
      rfl
    · have hlt : i < digits.length := by omega
      have hplace : w * (digits.length + 1 - 1 - i) = w * (digits.length - 1 - i) + w := by
        rw [← Nat.mul_add_one]
        congr 1
        omega
      rw [hplace, if_neg (by omega), List.getD_append _ _ _ _ hlt, ← ih h.1 hlt]
      congr 1
      omega

/-- A loop that shifts a word and puts a digit at its right end packs the digits, as long
as they fit. -/
theorem foldl_pack {τ α : Type*} {val : τ → Nat} {step : τ → α → τ} {digit : α → Nat} {size : Nat}
    {start : τ} (h₀ : val start = 0) (hdigit : ∀ x, digit x < 2 ^ w)
    (hstep : ∀ t x, val t * 2 ^ w < 2 ^ size → val (step t x) = val t * 2 ^ w + digit x)
    {xs : List α} (hsize : w * xs.length ≤ size) :
    val (xs.foldl step start) = pack w (xs.map digit) := by
  induction xs using List.reverseRecOn with
  | nil => exact h₀
  | append_singleton xs x ih =>
    rw [List.length_append, List.length_singleton, Nat.mul_add_one] at hsize
    have hpacked := ih (by omega)
    have hlt : pack w (xs.map digit) < 2 ^ (w * xs.length) := by
      have hsmall := @pack_lt w (xs.map digit) (by simp [hdigit])
      rw [List.length_map] at hsmall
      exact hsmall
    have hroom : pack w (xs.map digit) * 2 ^ w < 2 ^ size :=
      calc pack w (xs.map digit) * 2 ^ w < 2 ^ (w * xs.length) * 2 ^ w :=
            Nat.mul_lt_mul_of_pos_right hlt (Nat.two_pow_pos w)
        _ = 2 ^ (w * xs.length + w) := (Nat.pow_add ..).symm
        _ ≤ 2 ^ size := Nat.pow_le_pow_right (by decide) hsize
    rw [List.foldl_append, List.map_append, List.map_singleton, pack_snoc, List.foldl_cons,
      List.foldl_nil, hstep _ _ (by rw [hpacked]; exact hroom), hpacked]

/-- A number packed of single bits has these bits. -/
theorem ofNat_pack_one {bits : List Bool} (h : bits.length = n) (i : Fin n) :
    ofNat n (pack 1 (bits.map Bool.toNat)) i = bits.getD i false := by
  subst h
  have hsmall : ∀ digit ∈ bits.map Bool.toNat, digit < 2 ^ 1 := by
    intro digit hdigit
    obtain ⟨bit, -, rfl⟩ := List.mem_map.mp hdigit
    exact bit.toNat_lt
  have hi : i.val < (bits.map Bool.toNat).length := by
    rw [List.length_map]
    exact i.isLt
  have hbit := testBit_pack hsmall hi Nat.one_pos
  rw [List.length_map, Nat.one_mul, Nat.add_zero] at hbit
  have hget : (bits.map Bool.toNat).getD i (Bool.toNat false) = (bits.getD i false).toNat :=
    List.getD_map ..
  refine hbit.trans ?_
  rw [show (0 : Nat) = Bool.toNat false from rfl, hget]
  cases bits.getD i false <;> rfl

end Bits
