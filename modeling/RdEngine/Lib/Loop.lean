/-
RdEngine/Lib/Loop.lean

Counted loops whose body may leave early.

A body answers with the state for the next iteration or with the state it
leaves the loop in.  Leaving is visible to an enclosing loop, so that one kind
of exit models both a `break` (the loop is the outermost one, or nothing follows
it) and a `return` out of nested loops.

Two loops whose bodies are related by a function on states are related by it as
a whole (`loop_map`): the body's decisions are all that could come between.  A
property of states that the body keeps is kept by the loop (`loop_keeps`), and a
loop that leaves at the first index that fails a test is as many iterations as
pass it (`loop_while`).
-/
import Mathlib.Data.List.Basic

namespace Loops

variable {σ τ : Type*}

/-- How one iteration ends. -/
inductive Flow (σ : Type*) where
  | next (state : σ)
  | leave (state : σ)

namespace Flow

/-- The state, wherever the loop stands. -/
def value : Flow σ → σ
  | next s | leave s => s

def map (g : σ → τ) : Flow σ → Flow τ
  | next s => next (g s)
  | leave s => leave (g s)

@[simp] theorem map_next (g : σ → τ) (s : σ) : (next s).map g = next (g s) := rfl

@[simp] theorem map_leave (g : σ → τ) (s : σ) : (leave s).map g = leave (g s) := rfl

@[simp] theorem value_map (g : σ → τ) (r : Flow σ) : (r.map g).value = g r.value := by
  cases r <;> rfl

end Flow

/-- `count` iterations from index `i` on. -/
def loopFrom (body : ℕ → σ → Flow σ) : ℕ → ℕ → σ → Flow σ
  | _, 0, s => .next s
  | i, count + 1, s =>
    match body i s with
    | .next s' => loopFrom body (i + 1) count s'
    | .leave s' => .leave s'

/-- `for i in 0..count`. -/
def loop (body : ℕ → σ → Flow σ) (count : ℕ) (s : σ) : Flow σ := loopFrom body 0 count s

theorem loopFrom_map {body : ℕ → σ → Flow σ} {body' : ℕ → τ → Flow τ} {g : σ → τ}
    (h : ∀ i s, (body i s).map g = body' i (g s)) (i count : ℕ) (s : σ) :
    (loopFrom body i count s).map g = loopFrom body' i count (g s) := by
  induction count generalizing i s with
  | zero => rfl
  | succ count ih =>
    rw [loopFrom, loopFrom, ← h i s]
    cases body i s with
    | next s' => exact ih (i + 1) s'
    | leave s' => rfl

/-- Related bodies make related loops. -/
theorem loop_map {body : ℕ → σ → Flow σ} {body' : ℕ → τ → Flow τ} {g : σ → τ}
    (h : ∀ i s, (body i s).map g = body' i (g s)) (count : ℕ) (s : σ) :
    (loop body count s).map g = loop body' count (g s) :=
  loopFrom_map h 0 count s

theorem loop_value_map {body : ℕ → σ → Flow σ} {body' : ℕ → τ → Flow τ} {g : σ → τ}
    (h : ∀ i s, (body i s).map g = body' i (g s)) (count : ℕ) (s : σ) :
    g (loop body count s).value = (loop body' count (g s)).value := by
  rw [← loop_map h, Flow.value_map]

/-! ### What a body keeps -/

theorem loopFrom_keeps {body : ℕ → σ → Flow σ} {I : σ → Prop}
    (h : ∀ i s, I s → I (body i s).value) (i count : ℕ) {s : σ} (hs : I s) :
    I (loopFrom body i count s).value := by
  induction count generalizing i s with
  | zero => exact hs
  | succ count ih =>
    have hbody := h i s hs
    rw [loopFrom]
    cases hflow : body i s with
    | next s' =>
      rw [hflow] at hbody
      exact ih (i + 1) hbody
    | leave s' =>
      rw [hflow] at hbody
      exact hbody

/-- What one iteration keeps, however it ends, the loop keeps. -/
theorem loop_keeps {body : ℕ → σ → Flow σ} {I : σ → Prop}
    (h : ∀ i s, I s → I (body i s).value) (count : ℕ) {s : σ} (hs : I s) :
    I (loop body count s).value :=
  loopFrom_keeps h 0 count hs

/-! ### What holds after a loop -/

/-- `P` of a state handed on, `Q` of a state left in. -/
def Flow.Holds (P Q : σ → Prop) : Flow σ → Prop
  | .next s => P s
  | .leave s => Q s

theorem loopFrom_holds {body : ℕ → σ → Flow σ} {I : ℕ → σ → Prop} {Q : σ → Prop} {bound : ℕ}
    (h : ∀ i < bound, ∀ s, I i s → (body i s).Holds (I (i + 1)) Q) (count : ℕ) :
    ∀ (i : ℕ) {s : σ}, i + count = bound → I i s →
      (loopFrom body i count s).Holds (I bound) Q := by
  induction count with
  | zero =>
    intro i s hbound hs
    rw [Nat.add_zero] at hbound
    exact hbound ▸ hs
  | succ count ih =>
    intro i s hbound hs
    have hbody := h i (by omega) s hs
    rw [loopFrom]
    cases hflow : body i s with
    | next t =>
      rw [hflow] at hbody
      exact ih (i + 1) (by omega) hbody
    | leave t =>
      rw [hflow] at hbody
      exact hbody

/-- The rule of counted loops: each iteration takes the invariant of its index to
that of the next, or leaves in a state of `Q`. -/
theorem loop_holds {body : ℕ → σ → Flow σ} {I : ℕ → σ → Prop} {Q : σ → Prop} {count : ℕ} {s : σ}
    (h : ∀ i < count, ∀ s, I i s → (body i s).Holds (I (i + 1)) Q) (hs : I 0 s) :
    (loop body count s).Holds (I count) Q :=
  loopFrom_holds h count 0 (Nat.zero_add count) hs

theorem Flow.Holds.value {P : σ → Prop} {r : Flow σ} (h : r.Holds P P) : P r.value := by
  cases r <;> exact h

theorem Flow.Holds.imp {P P' Q Q' : σ → Prop} {r : Flow σ} (h : r.Holds P Q)
    (hP : ∀ s, P s → P' s) (hQ : ∀ s, Q s → Q' s) : r.Holds P' Q' := by
  cases r with
  | next s => exact hP s h
  | leave s => exact hQ s h

/-! ### Loops that leave at the first index to fail a test -/

theorem loopFrom_while {body : ℕ → σ → Flow σ} {G : ℕ → Prop} {I : ℕ → σ → Prop} {bound : ℕ}
    (hnext : ∀ i < bound, ∀ s, G i → I i s → ∃ t, body i s = .next t ∧ I (i + 1) t)
    (hleave : ∀ i < bound, ∀ s, ¬ G i → I i s → body i s = .leave s) (count : ℕ) :
    ∀ (i : ℕ) {s : σ}, i + count = bound → I i s →
      ∃ n, i ≤ n ∧ n ≤ bound ∧ (∀ j, i ≤ j → j < n → G j) ∧ (n < bound → ¬ G n) ∧
        I n (loopFrom body i count s).value := by
  induction count with
  | zero =>
    intro i s hbound hs
    exact ⟨i, Nat.le_refl i, by omega, fun j hij hji => absurd hij (by omega), fun h =>
      absurd h (by omega), hs⟩
  | succ count ih =>
    intro i s hbound hs
    by_cases hG : G i
    · obtain ⟨t, hbody, ht⟩ := hnext i (by omega) s hG hs
      obtain ⟨n, hin, hn, hall, hstop, hres⟩ := ih (i + 1) (by omega) ht
      refine ⟨n, by omega, hn, fun j hij hjn => ?_, hstop, ?_⟩
      · by_cases hj : j = i
        · exact hj ▸ hG
        · exact hall j (by omega) hjn
      · rw [loopFrom, hbody]
        exact hres
    · refine ⟨i, Nat.le_refl i, by omega, fun j hij hji => absurd hij (by omega), fun _ => hG, ?_⟩
      rw [loopFrom, hleave i (by omega) s hG hs]
      exact hs

/-- The iterations of a loop are those before the first index that fails the test. -/
theorem loop_while {body : ℕ → σ → Flow σ} {G : ℕ → Prop} {I : ℕ → σ → Prop} {count : ℕ} {s : σ}
    (hnext : ∀ i < count, ∀ s, G i → I i s → ∃ t, body i s = .next t ∧ I (i + 1) t)
    (hleave : ∀ i < count, ∀ s, ¬ G i → I i s → body i s = .leave s) (hs : I 0 s) :
    ∃ n ≤ count, (∀ i < n, G i) ∧ (n < count → ¬ G n) ∧ I n (loop body count s).value := by
  obtain ⟨n, -, hn, hall, hstop, hres⟩ :=
    loopFrom_while hnext hleave count 0 (by omega) hs
  exact ⟨n, hn, fun i hi => hall i (Nat.zero_le i) hi, hstop, hres⟩

end Loops
