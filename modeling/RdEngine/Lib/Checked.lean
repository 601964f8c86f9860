/-
RdEngine/Lib/Checked.lean

Signed machine arithmetic whose results are checked: a result that does not fit its
word is none, as where the source would panic or wrap.

Checks along a computation that only grows are one check of its end: a numeral that
is read digit by digit (`horner`) fits all along if and only if its value fits
(`horner_eq`).
-/
import Mathlib.Algebra.Order.Ring.Int
import Mathlib.Tactic.Linarith

namespace Checked

/-- A signed word of `w` bits holds the value. -/
def Fits (w : Nat) (value : Int) : Prop := -2 ^ (w - 1) ≤ value ∧ value < 2 ^ (w - 1)

instance (w : Nat) (value : Int) : Decidable (Fits w value) :=
  inferInstanceAs (Decidable (_ ∧ _))

/-- The value, where it fits. -/
def signed (w : Nat) (value : Int) : Option Int := if Fits w value then some value else none

variable {w : Nat} {value result base n : Int} {digits : List Int}

@[simp] theorem signed_of_fits (h : Fits w value) : signed w value = some value := if_pos h

theorem signed_of_not_fits (h : ¬ Fits w value) : signed w value = none := if_neg h

theorem isSome_signed : (signed w value).isSome = true ↔ Fits w value := by
  by_cases h : Fits w value
  · simp [h]
  · simp [signed_of_not_fits h, h]

theorem Fits.mono (h : Fits w value) (hzero : 0 ≤ result) (hle : result ≤ value) :
    Fits w result := by
  obtain ⟨-, hhigh⟩ := h
  have hword : (0 : Int) < 2 ^ (w - 1) := by positivity
  exact ⟨by linarith, by linarith⟩

/-! ### Numerals -/

/-- Read digits behind a number, with both operations of each step checked. -/
def horner (w : Nat) (base : Int) : Int → List Int → Option Int
  | n, [] => some n
  | n, digit :: digits => do
    let shifted ← signed w (n * base)
    let n ← signed w (shifted + digit)
    horner w base n digits

/-- The number that the digits make behind `n`. -/
def numeral (base n : Int) (digits : List Int) : Int :=
  digits.foldl (fun n digit => n * base + digit) n

@[simp] theorem numeral_nil (base n : Int) : numeral base n [] = n := rfl

@[simp] theorem numeral_cons (base n digit : Int) (digits : List Int) :
    numeral base n (digit :: digits) = numeral base (n * base + digit) digits := rfl

/-- Digits make a number larger. -/
theorem le_numeral (hbase : 1 ≤ base) (hn : 0 ≤ n) (hdigits : ∀ d ∈ digits, 0 ≤ d) :
    n ≤ numeral base n digits := by
  induction digits generalizing n with
  | nil => exact le_rfl
  | cons digit digits ih =>
    rw [List.forall_mem_cons] at hdigits
    have hmul : n ≤ n * base := le_mul_of_one_le_right hn hbase
    have hstep : n ≤ n * base + digit := by linarith [hdigits.1]
    rw [numeral_cons]
    exact hstep.trans (ih (hn.trans hstep) hdigits.2)

/-- **The steps fit if and only if the number does.** -/
theorem horner_eq (hbase : 1 ≤ base) (hn : 0 ≤ n) (hfits : Fits w n)
    (hdigits : ∀ d ∈ digits, 0 ≤ d) :
    horner w base n digits = signed w (numeral base n digits) := by
  induction digits generalizing n with
  | nil => exact (signed_of_fits hfits).symm
  | cons digit digits ih =>
    rw [List.forall_mem_cons] at hdigits
    obtain ⟨hdigit, hrest⟩ := hdigits
    have hmul : 0 ≤ n * base := mul_nonneg hn (by linarith)
    have hnext : 0 ≤ n * base + digit := by linarith
    have hle := le_numeral hbase hnext hrest
    rw [numeral_cons, horner]
    by_cases hstep : Fits w (n * base + digit)
    · have hshift : Fits w (n * base) := hstep.mono hmul (by linarith)
      rw [signed_of_fits hshift]
      show (signed w (n * base + digit)).bind _ = _
      rw [signed_of_fits hstep]
      exact ih hnext hstep hrest
    · -- whichever operation fails, what comes behind it is no smaller
      have hend : ¬ Fits w (numeral base (n * base + digit) digits) :=
        fun h => hstep (h.mono hnext hle)
      rw [signed_of_not_fits hend]
      by_cases hshift : Fits w (n * base)
      · rw [signed_of_fits hshift]
        show (signed w (n * base + digit)).bind _ = none
        rw [signed_of_not_fits hstep]
        rfl
      · rw [signed_of_not_fits hshift]
        rfl

end Checked
