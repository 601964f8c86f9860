/-
RdEngine/Lib/Runs.lean

Runs of labelled transition systems, with the two induction rules every
safety theorem of the development is an instance of:

* `Run.invariant` — what holds at the start and is preserved by one step
  holds after every run;
* `Run.history` — the same for a predicate that also sees the labels taken
  so far, which is how a state is tied to the history that led to it.

A machine given by a function has the same two rules for its folds
(`foldl_invariant`, `foldl_history`, and `foldlM_invariant` where it is partial).  A restriction of a run to steps that
meet a condition is the run of the restricted relation (`Where`).
-/
import Mathlib.Data.List.Induction

namespace Lts

variable {σ α : Type*}

/-- `Run step s as t`: the labels `as`, taken in order, lead from `s` to `t`. -/
inductive Run (step : σ → α → σ → Prop) : σ → List α → σ → Prop
  | nil (s : σ) : Run step s [] s
  | cons {s t u : σ} {a : α} {as : List α} :
      step s a t → Run step t as u → Run step s (a :: as) u

/-- The steps of a relation that meet a condition on the state before them
and on their label. -/
def Where (step : σ → α → σ → Prop) (C : σ → α → Prop) (s : σ) (a : α) (t : σ) : Prop :=
  C s a ∧ step s a t

variable {step : σ → α → σ → Prop}

/-! ### Composing and cutting runs -/

theorem Run.single {s t : σ} {a : α} (h : step s a t) : Run step s [a] t :=
  .cons h (.nil t)

theorem Run.append {s t u : σ} {as bs : List α} (h₁ : Run step s as t)
    (h₂ : Run step t bs u) : Run step s (as ++ bs) u := by
  induction h₁ with
  | nil => exact h₂
  | cons hstep _ ih => exact .cons hstep (ih h₂)

theorem Run.snoc {s t u : σ} {as : List α} {a : α} (h : Run step s as t)
    (hstep : step t a u) : Run step s (as ++ [a]) u :=
  h.append (.single hstep)

theorem Run.split {s u : σ} {as bs : List α} (h : Run step s (as ++ bs) u) :
    ∃ t, Run step s as t ∧ Run step t bs u := by
  induction as generalizing s with
  | nil => exact ⟨s, .nil s, h⟩
  | cons a as ih =>
    cases h with
    | cons hstep hrest =>
      obtain ⟨t, h₁, h₂⟩ := ih hrest
      exact ⟨t, .cons hstep h₁, h₂⟩

theorem Run.mono {step' : σ → α → σ → Prop} (hsub : ∀ s a t, step s a t → step' s a t)
    {s t : σ} {as : List α} (h : Run step s as t) : Run step' s as t := by
  induction h with
  | nil s => exact .nil s
  | cons hstep _ ih => exact .cons (hsub _ _ _ hstep) ih

theorem Run.restrict {C : α → Prop} {s t : σ} {as : List α} (h : Run step s as t)
    (hall : ∀ a ∈ as, C a) : Run (Where step fun _ a => C a) s as t := by
  induction h with
  | nil s => exact .nil s
  | cons hs _ ih =>
    rw [List.forall_mem_cons] at hall
    exact .cons ⟨hall.1, hs⟩ (ih hall.2)

/-! ### Invariants -/

/-- What one step preserves, a run preserves. -/
theorem Run.invariant {I : σ → Prop} (hstep : ∀ s a t, I s → step s a t → I t)
    {s t : σ} {as : List α} (h : Run step s as t) (h₀ : I s) : I t := by
  induction h with
  | nil => exact h₀
  | cons hs _ ih => exact ih (hstep _ _ _ h₀ hs)

/-- The same where only the steps with some labels preserve it, and the run takes
no others. -/
theorem Run.keeps {I : σ → Prop} {C : α → Prop} (hstep : ∀ s a t, I s → C a → step s a t → I t)
    {s t : σ} {as : List α} (h : Run step s as t) (hall : ∀ a ∈ as, C a) (h₀ : I s) : I t := by
  induction h with
  | nil => exact h₀
  | cons hs _ ih =>
    rw [List.forall_mem_cons] at hall
    exact ih hall.2 (hstep _ _ _ h₀ hall.1 hs)

/-- The same for a predicate on the labels taken so far and the state they
led to. -/
theorem Run.history {P : List α → σ → Prop}
    (hstep : ∀ as s a t, P as s → step s a t → P (as ++ [a]) t)
    {s t : σ} {as : List α} (h : Run step s as t) (h₀ : P [] s) : P as t := by
  have key : ∀ pre, P pre s → P (pre ++ as) t := by
    clear h₀
    induction h with
    | nil => intro pre hpre; simpa using hpre
    | cons hs _ ih =>
      intro pre hpre
      simpa using ih _ (hstep _ _ _ _ hpre hs)
  simpa using key [] h₀

/-- A run seen through `f`, where every step is one of the other machine or changes
nothing there. -/
theorem Run.project {τ β : Type*} {step' : τ → β → τ → Prop} (f : σ → τ) (g : α → Option β)
    (hnone : ∀ s a t, step s a t → g a = none → f t = f s)
    (hsome : ∀ s a t b, step s a t → g a = some b → step' (f s) b (f t))
    {s t : σ} {as : List α} (h : Run step s as t) : Run step' (f s) (as.filterMap g) (f t) := by
  induction h with
  | nil s => exact .nil _
  | @cons s t u a as hs _ ih =>
    cases hg : g a with
    | none =>
      rw [List.filterMap_cons_none hg, ← hnone s a t hs hg]
      exact ih
    | some b =>
      rw [List.filterMap_cons_some hg]
      exact .cons (hsome s a t b hs hg) ih

/-- What a run shows, one more label at a time. -/
theorem filterMap_snoc {β : Type*} (f : α → Option β) (as : List α) (a : α) :
    (as ++ [a]).filterMap f = as.filterMap f ++ (f a).toList := by
  rw [List.filterMap_append]
  cases h : f a <;> simp [h]

theorem filterMap_quiet {β : Type*} {f : α → Option β} {as : List α} {a : α} (h : f a = none) :
    (as ++ [a]).filterMap f = as.filterMap f := by
  rw [filterMap_snoc, h, Option.toList_none, List.append_nil]

/-! ### Machines given by a function -/

theorem foldl_history {f : σ → α → σ} {P : List α → σ → Prop} {s : σ} (h₀ : P [] s)
    (hstep : ∀ as t a, P as t → P (as ++ [a]) (f t a)) (as : List α) :
    P as (as.foldl f s) := by
  induction as using List.reverseRecOn with
  | nil => exact h₀
  | append_singleton as a ih =>
    rw [List.foldl_append]
    exact hstep as _ a ih

theorem foldl_invariant {f : σ → α → σ} {I : σ → Prop} {s : σ} (h₀ : I s)
    (hstep : ∀ t a, I t → I (f t a)) (as : List α) : I (as.foldl f s) :=
  foldl_history (P := fun _ => I) h₀ (fun _ t a => hstep t a) as

/-- A machine that may be undefined is defined all along, where every step that finds
the invariant is defined and keeps it. -/
theorem foldlM_invariant {f : σ → α → Option σ} {I : σ → Prop}
    (hstep : ∀ s a, I s → ∃ t, f s a = some t ∧ I t) {s : σ} (h₀ : I s) (as : List α) :
    ∃ t, as.foldlM f s = some t ∧ I t := by
  induction as generalizing s with
  | nil => exact ⟨s, rfl, h₀⟩
  | cons a as ih =>
    obtain ⟨t, ht, hI⟩ := hstep s a h₀
    rw [List.foldlM_cons, ht]
    exact ih hI

end Lts
