/-
RdEngine/Lib/Turns.lean

Threads whose turns are counted.

A thread that does one piece of work in each of its turns has done `k` pieces
after `k` turns, in whatever order the threads of the machine are run.  The
count is not a part of the shared state but a property of the run: the number
of times the thread began a program (`turns`).  `TurnCounted` is the rule for an
invariant that may mention it, and `TurnCounted.run` says what holds after a run.

A ghost state that remembers two things is the product of two ghost states
(`Ghost.prod`), each followed on its own.
-/
import RdEngine.Lib.Threads

namespace Threads

open Lts

variable {A : Type*} {Answer : A → Type*} {ρ σ ι γ δ : Type*}

/-! ### Two ghost states of one program -/

/-- Two accounts of a program, side by side. -/
def Ghost.prod (G : Ghost Answer γ) (H : Ghost Answer δ) : Ghost Answer (γ × δ) where
  next g a answer := (G.next g.1 a answer, H.next g.2 a answer)
  admits g a := G.admits g.1 a ∧ H.admits g.2 a

/-- A ghost state that nothing changes. -/
def Ghost.idle : Ghost Answer δ where
  next g _ _ := g
  admits _ _ := True

section Products

variable {G : Ghost Answer γ} {H : Ghost Answer δ} {Q : γ → ρ → Prop} {R : δ → ρ → Prop}

/-- A program that can be followed with each of two ghost states can be followed
with both. -/
theorem Follows.prod {g : γ} {h : δ} {p : Prog Answer ρ} (hp : Follows G Q g p)
    (hq : Follows H R h p) :
    Follows (G.prod H) (fun g result => Q g.1 result ∧ R g.2 result) (g, h) p := by
  induction p generalizing g h with
  | ret result => exact ⟨hp, hq⟩
  | access a rest ih => exact ⟨⟨hp.1, hq.1⟩, fun answer => ih answer (hp.2 answer) (hq.2 answer)⟩

/-- The first of two ghost states alone. -/
theorem Follows.fst {g : γ × δ} {p : Prog Answer ρ}
    (h : Follows (G.prod H) (fun g result => Q g.1 result ∧ R g.2 result) g p) :
    Follows G Q g.1 p := by
  induction p generalizing g with
  | ret result => exact h.1
  | access a rest ih => exact ⟨h.1.1, fun answer => ih answer (h.2 answer)⟩

theorem follows_idle (h : δ) (p : Prog Answer ρ) :
    Follows Ghost.idle (fun _ _ => True) h p := by
  induction p with
  | ret result => exact trivial
  | access a rest ih => exact ⟨trivial, ih⟩

end Products

/-! ### Counting the turns of a thread -/

variable [DecidableEq ι]

/-- How many programs thread `w` begins. -/
def turns (w : ι) : List (Label Answer ι) → Nat
  | [] => 0
  | .access _ _ _ :: labels => turns w labels
  | .start i :: labels => (if i = w then 1 else 0) + turns w labels

variable {M : Machine Answer ρ σ ι} {C : Config Answer ρ σ ι → Label Answer ι → Prop}
  {G : ι → Ghost Answer γ} {Q : ι → γ → ρ → Prop} {w : ι} {I : Nat → (ι → γ) → σ → Prop}

/-- What keeps a machine followed where `I` also mentions how many turns thread
`w` has begun. -/
structure TurnCounted (M : Machine Answer ρ σ ι) (C : Config Answer ρ σ ι → Label Answer ι → Prop)
    (G : ι → Ghost Answer γ) (Q : ι → γ → ρ → Prop) (w : ι) (I : Nat → (ι → γ) → σ → Prop) :
    Prop where
  access : ∀ {c : Config Answer ρ σ ι} {g : ι → γ} {i : ι} {a : A} {rest : Answer a → Prog Answer ρ}
      {answer : Answer a} {s' : σ} {k : Nat},
    C c (.access i a answer) → c.threads i = .access a rest →
    (∀ j, Follows (G j) (Q j) (g j) (c.threads j)) → I k g c.shared → (G i).admits (g i) a →
    M.perform i c.shared a answer s' →
    I k (Function.update g i ((G i).next (g i) a answer)) s'
  start : ∀ {c : Config Answer ρ σ ι} {g : ι → γ} {i : ι} {result : ρ} {program : Prog Answer ρ}
      {k : Nat},
    C c (.start i) → I k g c.shared → Q i (g i) result → M.start c.shared i result program →
    ∃ g', Follows (G i) (Q i) g' program ∧
      I ((if i = w then 1 else 0) + k) (Function.update g i g') c.shared

theorem TurnCounted.run (hM : TurnCounted M C G Q w I) {c d : Config Answer ρ σ ι}
    {ls : List (Label Answer ι)} {k : Nat} (hrun : Run (Where (Step M) C) c ls d)
    (hc : Followed G Q (I k) c) : Followed G Q (I (turns w ls + k)) d := by
  induction hrun generalizing k with
  | nil s =>
    rw [turns, Nat.zero_add]
    exact hc
  | @cons c b d l ls hstep _ ih =>
    obtain ⟨hC, hstep⟩ := hstep
    obtain ⟨g, hfollows, hI⟩ := hc
    cases hstep with
    | @access i a rest answer s' hi hperform =>
      have hi' := hfollows i
      rw [hi, follows_access] at hi'
      exact ih ⟨_, follows_set hfollows (hi'.2 answer),
        hM.access hC hi hfollows hI hi'.1 hperform⟩
    | @start i result program hi hstart =>
      have hi' := hfollows i
      rw [hi, follows_ret] at hi'
      obtain ⟨g', hprogram, hI'⟩ := hM.start hC hI hi' hstart
      have hlater := ih ⟨_, follows_set hfollows hprogram, hI'⟩
      -- the turn that begins here comes before those of the rest of the run
      have hcount : turns w (.start i :: ls) + k = turns w ls + ((if i = w then 1 else 0) + k) := by
        rw [turns]
        omega
      rw [hcount]
      exact hlater

end Threads
