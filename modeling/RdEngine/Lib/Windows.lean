/-
RdEngine/Lib/Windows.lean

Lists with windows overwritten, one after the other.

`Pasted start row before n after` says what `after` holds once window `0` to
window `n - 1` have been written into `before`, window `i` at `start i` by the
list `row i`: a place holds what the last window over it put there, and a place
no window is over holds what it held.
-/
import Mathlib.Data.List.Basic
import Mathlib.Data.Nat.Find

namespace Windows

variable {α : Type*}

/-- `l` with what stands from `start` on replaced by `new`. -/
def put (l : List α) (start : ℕ) (new : List α) : List α :=
  l.take start ++ new ++ l.drop (start + new.length)

theorem length_put {l new : List α} {start : ℕ} (h : start + new.length ≤ l.length) :
    (put l start new).length = l.length := by
  simp only [put, List.length_append, List.length_take, List.length_drop]
  omega

theorem getElem?_put {l new : List α} {start : ℕ} (h : start + new.length ≤ l.length) (k : ℕ) :
    (put l start new)[k]? =
      if start ≤ k ∧ k < start + new.length then new[k - start]? else l[k]? := by
  have htake : (l.take start).length = start := by
    rw [List.length_take]
    omega
  unfold put
  rw [List.append_assoc]
  by_cases hlow : k < start
  · rw [List.getElem?_append_left (by omega), List.getElem?_take_of_lt hlow, if_neg (by omega)]
  · rw [List.getElem?_append_right (by omega), htake]
    by_cases hhigh : k < start + new.length
    · rw [List.getElem?_append_left (by omega), if_pos (by omega)]
    · rw [List.getElem?_append_right (by omega), List.getElem?_drop, if_neg (by omega)]
      congr 1
      omega

/-- Window `i` is over place `k`. -/
def Over (start : ℕ → ℕ) (row : ℕ → List α) (i k : ℕ) : Prop :=
  start i ≤ k ∧ k < start i + (row i).length

/-- Of the indices with a property one is the last. -/
theorem exists_last {P : ℕ → Prop} {n : ℕ} (h : ∃ i < n, P i) :
    ∃ i < n, P i ∧ ∀ j, i < j → j < n → ¬ P j := by
  classical
  obtain ⟨i, hi, hP⟩ := h
  obtain ⟨hj, hPj⟩ :=
    Nat.findGreatest_spec (P := fun j => j < n ∧ P j) (Nat.le_of_lt hi) (And.intro hi hP)
  refine ⟨_, hj, hPj, fun j hlt hjn hPj' => ?_⟩
  exact Nat.findGreatest_is_greatest hlt (Nat.le_of_lt hjn) ⟨hjn, hPj'⟩

/-- Windows were written over a sequence, one after the other: the last one counts. -/
structure Pasted (start : ℕ → ℕ) (row : ℕ → List α) (before : List α) (n : ℕ)
    (after : List α) : Prop where
  length : after.length = before.length
  last : ∀ i < n, ∀ k, Over start row i k → (∀ j, i < j → j < n → ¬ Over start row j k) →
    after[k]? = (row i)[k - start i]?
  kept : ∀ k, (∀ i < n, ¬ Over start row i k) → after[k]? = before[k]?

namespace Pasted

variable {start : ℕ → ℕ} {row : ℕ → List α} {before after : List α} {n : ℕ}

theorem zero : Pasted start row before 0 before where
  length := rfl
  last := fun _ hi => absurd hi (Nat.not_lt_zero _)
  kept := fun _ _ => rfl

theorem succ (h : Pasted start row before n after)
    (hfit : start n + (row n).length ≤ before.length) :
    Pasted start row before (n + 1) (put after (start n) (row n)) := by
  have hfit' : start n + (row n).length ≤ after.length := by rw [h.length]; exact hfit
  refine ⟨by rw [length_put hfit', h.length], fun i hi k hover hlater => ?_, fun k hnone => ?_⟩
  · rw [getElem?_put hfit']
    by_cases hin : i = n
    · subst hin
      exact if_pos hover
    · have hnot : ¬ Over start row n k := hlater n (by omega) (Nat.lt_succ_self n)
      rw [if_neg (by exact hnot)]
      exact h.last i (by omega) k hover fun j hij hjn => hlater j hij (by omega)
  · rw [getElem?_put hfit', if_neg (by exact hnone n (Nat.lt_succ_self n))]
    exact h.kept k fun i hi => hnone i (by omega)

end Pasted

end Windows
