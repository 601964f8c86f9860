/-
RdEngine/Lib/Words.lean

Numbers as byte strings of a fixed width, least significant byte first
(`le`, `ofLe`) or most significant byte first (`be`, `ofBe`).  A width and a
number determine the bytes, and the bytes determine the number up to the width
(`ofLe_le`), so two numbers below `256 ^ k` with the same `k` bytes are equal
(`le_inj`).
-/
import Mathlib.Data.Nat.Basic
import Mathlib.Algebra.Order.Ring.Nat
import Mathlib.Tactic.Ring

namespace Words

/-- The `k` low bytes of `n`, least significant first. -/
def le : Nat → Nat → List UInt8
  | 0, _ => []
  | k + 1, n => UInt8.ofNat n :: le k (n / 256)

/-- The number whose bytes, least significant first, are given. -/
def ofLe : List UInt8 → Nat
  | [] => 0
  | b :: bs => b.toNat + 256 * ofLe bs

@[simp] theorem le_length (k n : Nat) : (le k n).length = k := by
  induction k generalizing n with
  | zero => rfl
  | succ k ih => simp [le, ih]

theorem ofLe_le (k n : Nat) : ofLe (le k n) = n % 256 ^ k := by
  induction k generalizing n with
  | zero => simp [le, ofLe, Nat.mod_one]
  | succ k ih =>
    have hbyte : (UInt8.ofNat n).toNat = n % 256 := by simp
    rw [le, ofLe, ih, hbyte, pow_succ, mul_comm (256 ^ k) 256, Nat.mod_mul]

theorem ofLe_lt (bytes : List UInt8) : ofLe bytes < 256 ^ bytes.length := by
  induction bytes with
  | nil => exact Nat.one_pos
  | cons b bytes ih =>
    have hb : b.toNat < 256 := b.toNat_lt
    rw [ofLe, List.length_cons, pow_succ]
    omega

/-- Bytes are the number they are, at their own width. -/
theorem le_ofLe (bytes : List UInt8) : le bytes.length (ofLe bytes) = bytes := by
  induction bytes with
  | nil => rfl
  | cons b bytes ih =>
    have hb : b.toNat < 256 := b.toNat_lt
    have hlow : UInt8.ofNat (b.toNat + 256 * ofLe bytes) = b := by
      apply UInt8.toNat_inj.mp
      rw [UInt8.toNat_ofNat']
      omega
    have hhigh : (b.toNat + 256 * ofLe bytes) / 256 = ofLe bytes := by omega
    rw [List.length_cons, le, ofLe, hlow, hhigh, ih]

theorem le_inj {k m n : Nat} (hm : m < 256 ^ k) (hn : n < 256 ^ k) :
    le k m = le k n ↔ m = n := by
  constructor
  · intro h
    have h' := congrArg ofLe h
    rwa [ofLe_le, ofLe_le, Nat.mod_eq_of_lt hm, Nat.mod_eq_of_lt hn] at h'
  · exact fun h => h ▸ rfl

theorem le_append (j k n : Nat) : le j n ++ le k (n / 256 ^ j) = le (j + k) n := by
  induction j generalizing n with
  | zero => simp [le]
  | succ j ih =>
    have hdiv : n / 256 ^ (j + 1) = n / 256 / 256 ^ j := by
      rw [Nat.div_div_eq_div_mul, pow_succ, mul_comm]
    rw [show j + 1 + k = (j + k) + 1 by omega, le, le, List.cons_append, hdiv, ih]

theorem le_mod (k n : Nat) : le k (n % 256 ^ k) = le k n := by
  induction k generalizing n with
  | zero => rfl
  | succ k ih =>
    have hbyte : UInt8.ofNat (n % 256 ^ (k + 1)) = UInt8.ofNat n := by
      apply UInt8.toNat_inj.mp
      rw [UInt8.toNat_ofNat', UInt8.toNat_ofNat']
      exact Nat.mod_mod_of_dvd _ ⟨256 ^ k, by rw [pow_succ]; ring⟩
    have hrest : n % 256 ^ (k + 1) / 256 = n / 256 % 256 ^ k := by
      rw [pow_succ, mul_comm, Nat.mod_mul_right_div_self]
    rw [le, le, hbyte, hrest, ih]

/-! ### Most significant byte first -/

/-- The `k` low bytes of `n`, most significant first. -/
def be (k n : Nat) : List UInt8 := (le k n).reverse

/-- The number whose bytes, most significant first, are given. -/
def ofBe (bytes : List UInt8) : Nat := ofLe bytes.reverse

@[simp] theorem be_length (k n : Nat) : (be k n).length = k := by
  rw [be, List.length_reverse, le_length]

theorem ofBe_be (k n : Nat) : ofBe (be k n) = n % 256 ^ k := by
  rw [ofBe, be, List.reverse_reverse, ofLe_le]

theorem ofBe_be_of_lt {k n : Nat} (h : n < 256 ^ k) : ofBe (be k n) = n := by
  rw [ofBe_be, Nat.mod_eq_of_lt h]

end Words
