/-
RdEngine/Lib/Observers.lean

What callers can tell of a state: the answers to their calls.

States are related in a way that nobody can tell if every call answers the same
on both, and leads to related states (`Respects`); then so does every sequence of
calls (`Respects.run`).
-/
import Mathlib.Data.List.Forall2

namespace Observers

variable {σ κ ρ : Type*}

/-- The calls in turn, with their answers. -/
def run (call : κ → σ → σ × ρ) : List κ → σ → σ × List ρ
  | [], s => (s, [])
  | c :: cs, s =>
    ((run call cs (call c s).1).1, (call c s).2 :: (run call cs (call c s).1).2)

/-- No call can tell related states apart, and none makes them unrelated. -/
def Respects (call : κ → σ → σ × ρ) (R : σ → σ → Prop) : Prop :=
  ∀ c s t, R s t → (call c s).2 = (call c t).2 ∧ R (call c s).1 (call c t).1

theorem Respects.run {call : κ → σ → σ × ρ} {R : σ → σ → Prop} (h : Respects call R)
    (cs : List κ) {s t : σ} (hst : R s t) :
    (Observers.run call cs s).2 = (Observers.run call cs t).2 ∧
      R (Observers.run call cs s).1 (Observers.run call cs t).1 := by
  induction cs generalizing s t with
  | nil => exact ⟨rfl, hst⟩
  | cons c cs ih =>
    obtain ⟨hanswer, hnext⟩ := h c s t hst
    obtain ⟨hanswers, hend⟩ := ih hnext
    exact ⟨congrArg₂ List.cons hanswer hanswers, hend⟩

/-! ### Tables with related entries -/

variable {α : Type*} {R : α → α → Prop}

/-- The first entries that meet a test, if there are any. -/
theorem find?_rel {p : α → Bool} (hp : ∀ a b, R a b → p a = p b) {as bs : List α}
    (h : List.Forall₂ R as bs) :
    (as.find? p = none ∧ bs.find? p = none) ∨
      ∃ a b, as.find? p = some a ∧ bs.find? p = some b ∧ R a b := by
  induction h with
  | nil => exact .inl ⟨rfl, rfl⟩
  | @cons a b as bs hab h ih =>
    cases hpa : p a with
    | true =>
      refine .inr ⟨a, b, List.find?_cons_of_pos hpa, List.find?_cons_of_pos ?_, hab⟩
      rw [← hp a b hab, hpa]
    | false =>
      have hpb : p b = false := by rw [← hp a b hab, hpa]
      rw [List.find?_cons_of_neg (ne_true_of_eq_false hpa),
        List.find?_cons_of_neg (ne_true_of_eq_false hpb)]
      exact ih

end Observers
