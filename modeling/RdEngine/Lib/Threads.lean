/-
RdEngine/Lib/Threads.lean

Threads over shared state, interleaved between any two accesses to it.

A program ends with a result or makes one access and goes on with the answer
(`Prog`); it is written in `do` notation, in the order of the code it models.  A
machine (`Machine`) says what an access does to the shared state and which
program a thread may begin when its last one has ended, so that a loop is a
program begun again and a caller is a thread that may begin any call.

A proof follows a program with a ghost state (`Follows`): what the program has
learnt or holds.  The last part is about programs that check before they act
(`Checks`).  A flag
that every program checks before an act, and that goes down only when nothing
that has passed its check is on its way, is down at no act (`guarded_run`).
-/
import Mathlib.Logic.Function.Basic
import RdEngine.Lib.Runs

namespace Threads

open Lts

universe u

/-! ### Programs -/

/-- A program over accesses `A`, each with its type of answers. -/
inductive Prog {A : Type*} (Answer : A → Type*) (ρ : Type*) where
  | ret (result : ρ)
  | access (a : A) (rest : Answer a → Prog Answer ρ)

namespace Prog

variable {A : Type*} {Answer : A → Type*} {ρ τ : Type*}

/-- One program, and then the other on its result. -/
def bind : Prog Answer ρ → (ρ → Prog Answer τ) → Prog Answer τ
  | ret result, f => f result
  | access a rest, f => access a fun answer => (rest answer).bind f

/-- One access and nothing else. -/
def call (a : A) : Prog Answer (Answer a) := access a ret

@[simp] theorem ret_bind (result : ρ) (f : ρ → Prog Answer τ) :
    (ret result : Prog Answer ρ).bind f = f result := rfl

@[simp] theorem access_bind (a : A) (rest : Answer a → Prog Answer ρ) (f : ρ → Prog Answer τ) :
    (access a rest).bind f = access a fun answer => (rest answer).bind f := rfl

@[simp] theorem call_bind (a : A) (f : Answer a → Prog Answer τ) :
    (call a).bind f = access a f := rfl

instance : Monad (Prog Answer) where
  pure := ret
  bind := bind

@[simp] theorem pure_eq (result : ρ) : (pure result : Prog Answer ρ) = ret result := rfl

@[simp] theorem bind_eq {ρ τ : Type u} (p : Prog Answer ρ) (f : ρ → Prog Answer τ) :
    p >>= f = p.bind f := rfl

theorem ite_bind {c : Prop} [Decidable c] (p q : Prog Answer ρ) (f : ρ → Prog Answer τ) :
    (if c then p else q).bind f = if c then p.bind f else q.bind f := by
  split <;> rfl

/-- `p && q`: the second program is run only after the first has said `true`. -/
def both (p q : Prog Answer Bool) : Prog Answer Bool :=
  p.bind fun answer => if answer then q else ret false

/-- `!p`. -/
def not (p : Prog Answer Bool) : Prog Answer Bool := p.bind fun answer => ret !answer

end Prog

/-! ### Machines -/

/-- Accesses to a shared state, and the programs a thread may begin. -/
structure Machine {A : Type*} (Answer : A → Type*) (ρ σ ι : Type*) where
  perform : ι → σ → (a : A) → Answer a → σ → Prop
  start : σ → ι → ρ → Prog Answer ρ → Prop

variable {A : Type*} {Answer : A → Type*} {ρ σ ι : Type*}

/-- The shared state, and what each thread has still to do. -/
structure Config {A : Type*} (Answer : A → Type*) (ρ σ ι : Type*) where
  shared : σ
  threads : ι → Prog Answer ρ

/-- An access of a thread, with its answer, or the start of one. -/
inductive Label {A : Type*} (Answer : A → Type*) (ι : Type*) where
  | access (i : ι) (a : A) (answer : Answer a)
  | start (i : ι)

/-- The thread it belongs to. -/
def Label.thread : Label Answer ι → ι
  | .access i _ _ | .start i => i

variable [DecidableEq ι]

/-- The configuration after thread `i` has changed the shared state and goes on
with a program. -/
def Config.set (c : Config Answer ρ σ ι) (i : ι) (shared : σ) (program : Prog Answer ρ) :
    Config Answer ρ σ ι :=
  ⟨shared, Function.update c.threads i program⟩

/-- A thread makes its next access, or is started. -/
inductive Step (M : Machine Answer ρ σ ι) :
    Config Answer ρ σ ι → Label Answer ι → Config Answer ρ σ ι → Prop
  | access {c : Config Answer ρ σ ι} {i : ι} {a : A} {rest : Answer a → Prog Answer ρ}
      {answer : Answer a} {shared : σ} :
      c.threads i = .access a rest → M.perform i c.shared a answer shared →
      Step M c (.access i a answer) (c.set i shared (rest answer))
  | start {c : Config Answer ρ σ ι} {i : ι} {result : ρ} {program : Prog Answer ρ} :
      c.threads i = .ret result → M.start c.shared i result program →
      Step M c (.start i) (c.set i c.shared program)

variable {M : Machine Answer ρ σ ι}

/-! ### One thread at a time -/

variable {P Q : Label Answer ι → Prop}

/-- A thread runs on its own from one point of its program to another, by steps
whose labels satisfy `P`. -/
inductive Alone (M : Machine Answer ρ σ ι) (P : Label Answer ι → Prop) (i : ι) :
    σ → Prog Answer ρ → σ → Prog Answer ρ → Prop
  | refl (s : σ) (p : Prog Answer ρ) : Alone M P i s p s p
  | access {s s' t : σ} {a : A} {rest : Answer a → Prog Answer ρ} {q : Prog Answer ρ}
      (answer : Answer a) : M.perform i s a answer s' → P (.access i a answer) →
      Alone M P i s' (rest answer) t q → Alone M P i s (.access a rest) t q

omit [DecidableEq ι] in
theorem Alone.mono {i : ι} {s t : σ} {p q : Prog Answer ρ} (hPQ : ∀ l, P l → Q l)
    (h : Alone M P i s p t q) : Alone M Q i s p t q := by
  induction h with
  | refl s p => exact .refl s p
  | access answer hperform hP _ ih => exact .access answer hperform (hPQ _ hP) ih

omit [DecidableEq ι] in
theorem Alone.own {i : ι} {s t : σ} {p q : Prog Answer ρ} (h : Alone M P i s p t q) :
    Alone M (fun l => P l ∧ l.thread = i) i s p t q := by
  induction h with
  | refl s p => exact .refl s p
  | access answer hperform hP _ ih => exact .access answer hperform ⟨hP, rfl⟩ ih

theorem Config.set_set (c : Config Answer ρ σ ι) (i : ι) (s t : σ) (p q : Prog Answer ρ) :
    (c.set i s p).set i t q = c.set i t q := by
  simp [Config.set]

theorem Config.set_threads (c : Config Answer ρ σ ι) (i : ι) (s : σ) (p : Prog Answer ρ) :
    (c.set i s p).threads i = p :=
  Function.update_self ..

theorem Config.set_threads_of_ne (c : Config Answer ρ σ ι) {i j : ι} (h : j ≠ i) (s : σ)
    (p : Prog Answer ρ) : (c.set i s p).threads j = c.threads j :=
  Function.update_of_ne h ..

/-- What a thread does on its own is a run of the machine. -/
theorem Alone.run {i : ι} {s t : σ} {p q : Prog Answer ρ} (h : Alone M P i s p t q)
    {c : Config Answer ρ σ ι} (hi : c.threads i = p) (hs : c.shared = s) :
    ∃ labels, Run (Where (Step M) fun _ l => P l) c labels (c.set i t q) := by
  induction h generalizing c with
  | refl s p =>
    refine ⟨[], ?_⟩
    have hc : c.set i s p = c := by
      rw [← hi, ← hs, Config.set, Function.update_eq_self]
    rw [hc]
    exact .nil c
  | @access s s' t a rest q answer hperform hP _ ih =>
    subst hs
    obtain ⟨labels, hrun⟩ := ih (c.set_threads i s' (rest answer)) rfl
    rw [Config.set_set] at hrun
    exact ⟨_, .cons ⟨hP, .access hi hperform⟩ hrun⟩

/-- A thread begins a program and runs it on its own. -/
theorem Alone.turn {i : ι} {c : Config Answer ρ σ ι} {result : ρ} {t : σ} {p q : Prog Answer ρ}
    (hi : c.threads i = .ret result) (hstart : M.start c.shared i result p)
    (hP : P (.start i)) (h : Alone M P i c.shared p t q) :
    ∃ labels, Run (Where (Step M) fun _ l => P l) c labels (c.set i t q) := by
  obtain ⟨labels, hrun⟩ := h.run (c.set_threads i c.shared p) rfl
  rw [Config.set_set] at hrun
  exact ⟨_, .cons ⟨hP, .start hi hstart⟩ hrun⟩

/-- So a run goes on with a turn of a thread. -/
theorem Alone.extend {i : ι} {c d : Config Answer ρ σ ι} {ls : List (Label Answer ι)} {result : ρ}
    {t : σ} {p q : Prog Answer ρ} (h : Alone M P i d.shared p t q) (hrun : Run (Step M) c ls d)
    (hi : d.threads i = .ret result) (hstart : M.start d.shared i result p) :
    ∃ ls, Run (Step M) c ls (d.set i t q) := by
  have hfree : Alone M (fun _ => True) i d.shared p t q := h.mono fun _ _ => trivial
  obtain ⟨labels, hturn⟩ := hfree.turn hi hstart trivial
  exact ⟨ls ++ labels, hrun.append (hturn.mono fun _ _ _ hstep => hstep.2)⟩

/-! ### What a proof remembers along a program -/

/-- A ghost state of a program: how an access and its answer change it, and which
accesses it admits. -/
structure Ghost {A : Type*} (Answer : A → Type*) (γ : Type*) where
  next : γ → (a : A) → Answer a → γ
  admits : γ → A → Prop

section Follows

variable {γ τ : Type*} (G : Ghost Answer γ)

/-- From a ghost state on, every access is admitted by the ghost state it is made
in, and a result satisfies `Q` with the ghost state it is given in. -/
def Follows (Q : γ → ρ → Prop) : γ → Prog Answer ρ → Prop
  | g, .ret result => Q g result
  | g, .access a rest => G.admits g a ∧ ∀ answer, Follows Q (G.next g a answer) (rest answer)

variable {G} {Q Q' : γ → ρ → Prop} {g : γ}

@[simp] theorem follows_ret {result : ρ} : Follows G Q g (.ret result : Prog Answer ρ) ↔ Q g result :=
  Iff.rfl

@[simp] theorem follows_access {a : A} {rest : Answer a → Prog Answer ρ} :
    Follows G Q g (.access a rest) ↔
      G.admits g a ∧ ∀ answer, Follows G Q (G.next g a answer) (rest answer) := Iff.rfl

theorem follows_bind {p : Prog Answer ρ} {f : ρ → Prog Answer τ} {R : γ → τ → Prop} :
    Follows G R g (p.bind f) ↔ Follows G (fun g result => Follows G R g (f result)) g p := by
  induction p generalizing g with
  | ret result => rfl
  | access a rest ih =>
    rw [Prog.access_bind, follows_access, follows_access]
    simp only [ih]

theorem Follows.mono {p : Prog Answer ρ} (h : Follows G Q g p) (hQ : ∀ g r, Q g r → Q' g r) :
    Follows G Q' g p := by
  induction p generalizing g with
  | ret result => exact hQ g result h
  | access a rest ih => exact ⟨h.1, fun answer => ih answer (h.2 answer)⟩

/-- A ghost state that is part of another. -/
theorem Follows.lift {γ' : Type*} {G' : Ghost Answer γ'} {R : γ' → ρ → Prop} (π : γ' → γ)
    (hadmits : ∀ g a, G.admits (π g) a → G'.admits g a)
    (hnext : ∀ g a answer, π (G'.next g a answer) = G.next (π g) a answer)
    (hR : ∀ g r, Q (π g) r → R g r) {g : γ'} {p : Prog Answer ρ} (h : Follows G Q (π g) p) :
    Follows G' R g p := by
  induction p generalizing g with
  | ret result => exact hR g result h
  | access a rest ih =>
    refine ⟨hadmits g a h.1, fun answer => ih answer ?_⟩
    rw [hnext]
    exact h.2 answer

theorem Follows.bind {p : Prog Answer ρ} {f : ρ → Prog Answer τ} {R : γ → τ → Prop}
    (hp : Follows G Q g p) (hf : ∀ g result, Q g result → Follows G R g (f result)) :
    Follows G R g (p.bind f) :=
  follows_bind.mpr (hp.mono hf)

theorem Follows.both {p q : Prog Answer Bool} {R : γ → Bool → Prop}
    (hp : Follows G (fun g answer => if answer then Follows G R g q else R g false) g p) :
    Follows G R g (p.both q) := by
  refine hp.bind fun g answer h => ?_
  cases answer with
  | true => exact h
  | false => exact h

end Follows

/-! ### A ghost state for every thread -/

section Tracked

variable {γ : Type*} {M : Machine Answer ρ σ ι} {G : ι → Ghost Answer γ} {Q : ι → γ → ρ → Prop}
  {I : (ι → γ) → σ → Prop}

/-- Every thread follows its program with a ghost state of its own, and `I` ties
these to the shared state. -/
def Followed (G : ι → Ghost Answer γ) (Q : ι → γ → ρ → Prop) (I : (ι → γ) → σ → Prop)
    (c : Config Answer ρ σ ι) : Prop :=
  ∃ g : ι → γ, (∀ i, Follows (G i) (Q i) (g i) (c.threads i)) ∧ I g c.shared

/-- What keeps a machine followed: an admitted access keeps `I`, and a program
that begins can be followed from some ghost state. -/
structure Tracked (M : Machine Answer ρ σ ι) (C : Config Answer ρ σ ι → Label Answer ι → Prop)
    (G : ι → Ghost Answer γ) (Q : ι → γ → ρ → Prop) (I : (ι → γ) → σ → Prop) : Prop where
  access : ∀ {c : Config Answer ρ σ ι} {g : ι → γ} {i : ι} {a : A} {rest : Answer a → Prog Answer ρ}
      {answer : Answer a} {s' : σ},
    C c (.access i a answer) → c.threads i = .access a rest →
    (∀ j, Follows (G j) (Q j) (g j) (c.threads j)) → I g c.shared → (G i).admits (g i) a → M.perform i c.shared a answer s' →
    I (Function.update g i ((G i).next (g i) a answer)) s'
  start : ∀ {g : ι → γ} {s : σ} {i : ι} {result : ρ} {program : Prog Answer ρ},
    I g s → Q i (g i) result → M.start s i result program →
    ∃ g', Follows (G i) (Q i) g' program ∧ I (Function.update g i g') s

variable {C : Config Answer ρ σ ι → Label Answer ι → Prop}

theorem follows_set {g : ι → γ} {c : Config Answer ρ σ ι} {i : ι} {s : σ} {p : Prog Answer ρ}
    {g' : γ} (h : ∀ j, Follows (G j) (Q j) (g j) (c.threads j)) (hp : Follows (G i) (Q i) g' p)
    (j : ι) : Follows (G j) (Q j) (Function.update g i g' j) ((c.set i s p).threads j) := by
  rcases eq_or_ne j i with rfl | hj
  · rw [Config.set_threads, Function.update_self]
    exact hp
  · rw [Config.set_threads_of_ne c hj, Function.update_of_ne hj]
    exact h j

theorem Tracked.step (hM : Tracked M C G Q I) {c d : Config Answer ρ σ ι} {l : Label Answer ι}
    (h : Followed G Q I c) (hC : C c l) (hstep : Step M c l d) : Followed G Q I d := by
  obtain ⟨g, hfollows, hI⟩ := h
  cases hstep with
  | @access i a rest answer s' hi hperform =>
    have hi' := hfollows i
    rw [hi, follows_access] at hi'
    exact ⟨_, follows_set hfollows (hi'.2 answer), hM.access hC hi hfollows hI hi'.1 hperform⟩
  | @start i result program hi hstart =>
    have hi' := hfollows i
    rw [hi, follows_ret] at hi'
    obtain ⟨g', hprogram, hI'⟩ := hM.start hI hi' hstart
    exact ⟨_, follows_set hfollows hprogram, hI'⟩

theorem Tracked.run (hM : Tracked M C G Q I) {c d : Config Answer ρ σ ι}
    {ls : List (Label Answer ι)} (hrun : Run (Where (Step M) C) c ls d)
    (hc : Followed G Q I c) : Followed G Q I d :=
  hrun.invariant (I := Followed G Q I) (fun _ _ _ h hst => hM.step h hst.1 hst.2) hc

end Tracked

/-! ### Checks before acts -/

section Checks

variable (pass : (a : A) → Answer a → Prop) (act : A → Prop)

/-- The program does not act before it makes an access whose answer passes, and
a result it ends with before that satisfies `Q`. -/
def Checks (Q : ρ → Prop) : Prog Answer ρ → Prop
  | .ret result => Q result
  | .access a rest => ¬ act a ∧ ∀ answer, ¬ pass a answer → Checks Q (rest answer)

/-- The program does not act before an answer passes. -/
abbrev Checked (p : Prog Answer ρ) : Prop := Checks pass act (fun _ => True) p

variable {pass act} {τ : Type*} {Q Q' : ρ → Prop}

@[simp] theorem checks_ret {result : ρ} :
    Checks pass act Q (.ret result : Prog Answer ρ) ↔ Q result := Iff.rfl

@[simp] theorem checks_access {a : A} {rest : Answer a → Prog Answer ρ} :
    Checks pass act Q (.access a rest) ↔
      ¬ act a ∧ ∀ answer, ¬ pass a answer → Checks pass act Q (rest answer) := Iff.rfl

@[simp] theorem checks_bind {p : Prog Answer ρ} {f : ρ → Prog Answer τ} {R : τ → Prop} :
    Checks pass act R (p.bind f) ↔ Checks pass act (fun result => Checks pass act R (f result)) p := by
  induction p with
  | ret result => rfl
  | access a rest ih =>
    rw [Prog.access_bind, checks_access, checks_access]
    simp only [ih]

@[simp] theorem checks_call {a : A} {R : Answer a → Prop} :
    Checks pass act R (Prog.call a) ↔ ¬ act a ∧ ∀ answer, ¬ pass a answer → R answer := Iff.rfl

@[simp] theorem checks_ite {c : Prop} [Decidable c] {p q : Prog Answer ρ} :
    Checks pass act Q (if c then p else q) ↔
      if c then Checks pass act Q p else Checks pass act Q q := by
  split <;> rfl

@[simp] theorem checks_both {p q : Prog Answer Bool} {R : Bool → Prop} :
    Checks pass act R (p.both q) ↔
      Checks pass act (fun answer => if answer then Checks pass act R q else R false) p := by
  rw [Prog.both, checks_bind]
  apply iff_of_eq
  congr 1
  funext answer
  cases answer <;> rfl

@[simp] theorem checks_not {p : Prog Answer Bool} {R : Bool → Prop} :
    Checks pass act R p.not ↔ Checks pass act (fun answer => R !answer) p := checks_bind

theorem Checks.mono {p : Prog Answer ρ} (h : Checks pass act Q p) (hQ : ∀ r, Q r → Q' r) :
    Checks pass act Q' p := by
  induction p with
  | ret result => exact hQ result h
  | access a rest ih => exact ⟨h.1, fun answer hpass => ih answer (h.2 answer hpass)⟩

theorem Checked.bind {p : Prog Answer ρ} {f : ρ → Prog Answer τ} (hp : Checked pass act p)
    (hf : ∀ result, Checked pass act (f result)) : Checked pass act (p.bind f) :=
  checks_bind.mpr (hp.mono fun result _ => hf result)

/-- Every access of the program is one of `P`. -/
def Within (P : A → Bool) : Prog Answer ρ → Prop
  | .ret _ => True
  | .access a rest => P a = true ∧ ∀ answer, Within P (rest answer)

variable {P : A → Bool}

@[simp] theorem within_ret (result : ρ) : Within P (.ret result : Prog Answer ρ) := trivial

@[simp] theorem within_access {a : A} {rest : Answer a → Prog Answer ρ} :
    Within P (.access a rest) ↔ P a = true ∧ ∀ answer, Within P (rest answer) := Iff.rfl

@[simp] theorem within_ite {c : Prop} [Decidable c] {p q : Prog Answer ρ} :
    Within P (if c then p else q) ↔ if c then Within P p else Within P q := by
  split <;> rfl

theorem Within.bind {p : Prog Answer ρ} {f : ρ → Prog Answer τ} (hp : Within P p)
    (hf : ∀ result, Within P (f result)) : Within P (p.bind f) := by
  induction p with
  | ret result => exact hf result
  | access a rest ih => exact ⟨hp.1, fun answer => ih answer (hp.2 answer)⟩

theorem Within.both {p q : Prog Answer Bool} (hp : Within P p) (hq : Within P q) :
    Within P (p.both q) :=
  hp.bind fun answer => by cases answer <;> simp [hq]

theorem Within.checked {p : Prog Answer ρ} (h : Within P p) (hP : ∀ a, act a → P a = false) :
    Checked pass act p := by
  induction p with
  | ret result => exact trivial
  | access a rest ih =>
    refine ⟨fun ha => ?_, fun answer _ => ih answer (h.2 answer)⟩
    have := h.1
    rw [hP a ha] at this
    cases this

theorem Within.mono {P' : A → Bool} {p : Prog Answer ρ} (h : Within P p)
    (hP : ∀ a, P a = true → P' a = true) : Within P' p := by
  induction p with
  | ret result => exact trivial
  | access a rest ih => exact ⟨hP a h.1, fun answer => ih answer (h.2 answer)⟩

/-- What follows a ghost state stays within what ghost states admit. -/
theorem Follows.within {γ : Type*} {G : Ghost Answer γ} {Q : γ → ρ → Prop} {g : γ}
    {p : Prog Answer ρ} (h : Follows G Q g p) (hadmits : ∀ g a, G.admits g a → P a = true) :
    Within P p := by
  induction p generalizing g with
  | ret result => exact trivial
  | access a rest ih => exact ⟨hadmits g a h.1, fun answer => ih answer (h.2 answer)⟩

/-- Accesses that leave the ghost state alone and that it admits. -/
theorem Within.follows {γ : Type*} {G : Ghost Answer γ} {g : γ} {R : γ → ρ → Prop}
    {p : Prog Answer ρ} (h : Within P p) (hadmits : ∀ a, P a = true → G.admits g a)
    (hnext : ∀ a answer, P a = true → G.next g a answer = g) (hR : ∀ result, R g result) :
    Follows G R g p := by
  induction p with
  | ret result => exact hR result
  | access a rest ih =>
    refine ⟨hadmits a h.1, fun answer => ?_⟩
    rw [hnext a answer h.1]
    exact ih answer (h.2 answer)

/-- A thread whose programs all begin within a set of accesses stays within
it. -/
theorem within_run {P : ι → A → Bool}
    (hstart : ∀ {s i result program}, M.start s i result program → Within (P i) program)
    {c d : Config Answer ρ σ ι} {ls : List (Label Answer ι)} (hrun : Run (Step M) c ls d)
    (hc : ∀ i, Within (P i) (c.threads i)) : ∀ i, Within (P i) (d.threads i) := by
  refine hrun.invariant (I := fun c => ∀ i, Within (P i) (c.threads i)) ?_ hc
  intro c l d hc hstep j
  have set : ∀ (i : ι) (s : σ) (p : Prog Answer ρ), Within (P i) p →
      Within (P j) ((c.set i s p).threads j) := by
    intro i s p hp
    rcases eq_or_ne j i with rfl | hj
    · rw [Config.set_threads]
      exact hp
    · rw [Config.set_threads_of_ne c hj]
      exact hc j
  cases hstep with
  | start hi hbegin => exact set _ _ _ (hstart hbegin)
  | @access i a rest answer s' hi hperform =>
    have hi' := hc i
    rw [hi, within_access] at hi'
    exact set _ _ _ (hi'.2 answer)

/-- While no check of a thread can pass, a thread that has passed none does not act. -/
theorem never_acts {I : Config Answer ρ σ ι → Prop} {i : ι}
    (hI : ∀ c l d, I c → Step M c l d → I d)
    (hfails : ∀ (c : Config Answer ρ σ ι) (a : A) (answer : Answer a) (s' : σ), I c →
      M.perform i c.shared a answer s' → ¬ pass a answer)
    (hbegins : ∀ {s result program}, M.start s i result program → Checked pass act program)
    {c d : Config Answer ρ σ ι} {ls : List (Label Answer ι)} (hrun : Run (Step M) c ls d)
    (hc : I c) (hi : Checked pass act (c.threads i)) {a : A} {answer : Answer a}
    (hlabel : .access i a answer ∈ ls) : ¬ act a := by
  have hhistory := hrun.history (P := fun ls d => I d ∧ Checked pass act (d.threads i) ∧
    ∀ (a : A) (answer : Answer a), .access i a answer ∈ ls → ¬ act a) ?_ ⟨hc, hi, fun _ _ h => nomatch h⟩
  · exact hhistory.2.2 a answer hlabel
  · rintro ls c l d ⟨hc, hchecked, hlabels⟩ hstep
    refine ⟨hI c l d hc hstep, ?_⟩
    cases hstep with
    | @start j result program hj hbegin =>
      -- a program that begins is checked from its start
      refine ⟨?_, fun a answer h => ?_⟩
      · by_cases hij : i = j
        · subst hij
          rw [Config.set_threads]
          exact hbegins hbegin
        · rw [Config.set_threads_of_ne c hij]
          exact hchecked
      · rcases List.mem_append.mp h with h | h
        · exact hlabels a answer h
        · cases List.mem_singleton.mp h
    | @access j a' rest answer' s' hj hperform =>
      -- the answer does not pass, so the check forbids the act in what is left
      by_cases hij : i = j
      · subst hij
        have hnext := hchecked
        rw [hj, Checked, checks_access] at hnext
        refine ⟨?_, fun a answer h => ?_⟩
        · rw [Config.set_threads]
          exact hnext.2 answer' (hfails c a' answer' s' hc hperform)
        · rcases List.mem_append.mp h with h | h
          · exact hlabels a answer h
          · cases List.mem_singleton.mp h
            exact hnext.1
      · refine ⟨?_, fun a answer h => ?_⟩
        · rw [Config.set_threads_of_ne c hij]
          exact hchecked
        · rcases List.mem_append.mp h with h | h
          · exact hlabels a answer h
          · cases List.mem_singleton.mp h
            exact absurd rfl hij

/-! ### A flag that is checked before acts -/

/-- No thread can act without passing a check. -/
def AllChecked (pass : (a : A) → Answer a → Prop) (act : A → Prop) (c : Config Answer ρ σ ι) :
    Prop :=
  ∀ i, Checked pass act (c.threads i)

theorem AllChecked.set {c : Config Answer ρ σ ι} (h : AllChecked pass act c) {i : ι} {s : σ}
    {p : Prog Answer ρ} (hp : Checked pass act p) : AllChecked pass act (c.set i s p) := by
  intro j
  rcases eq_or_ne j i with rfl | hj
  · rw [Config.set_threads]
    exact hp
  · rw [Config.set_threads_of_ne c hj]
    exact h j

/-- While the flag is down and the shared state is `Clean` no check passes; only
an act can soil the shared state; lowering the flag is not a check; every program
checks first. -/
structure Guarded (M : Machine Answer ρ σ ι) (pass : (a : A) → Answer a → Prop) (act : A → Prop)
    (Down Clean : σ → Prop) : Prop where
  fails : ∀ {i s a answer s'}, Down s → Clean s → M.perform i s a answer s' → ¬ pass a answer
  clean : ∀ {i s a answer s'}, Clean s → ¬ act a → M.perform i s a answer s' → Clean s'
  lowered : ∀ {i s a answer s'}, ¬ Down s → M.perform i s a answer s' → Down s' →
    ¬ pass a answer
  begins : ∀ {s i result program}, M.start s i result program → Checked pass act program

variable {Down Clean : σ → Prop}

/-- Nothing that has passed its check is on its way. -/
def Quiet (pass : (a : A) → Answer a → Prop) (act : A → Prop) (Clean : σ → Prop)
    (c : Config Answer ρ σ ι) : Prop :=
  Clean c.shared ∧ AllChecked pass act c

/-- A step keeps everything quiet while the flag is down, if it lowers the flag
only when everything is quiet. -/
theorem Guarded.step (hM : Guarded M pass act Down Clean) {c d : Config Answer ρ σ ι}
    {l : Label Answer ι} (h : Down c.shared → Quiet pass act Clean c)
    (hlower : ¬ Down c.shared → Down d.shared → Quiet pass act Clean c)
    (hstep : Step M c l d) : Down d.shared → Quiet pass act Clean d := by
  intro hd
  cases hstep with
  | start hi hstart =>
    obtain ⟨hclean, hchecked⟩ := h hd
    exact ⟨hclean, hchecked.set (hM.begins hstart)⟩
  | @access i a rest answer s' hi hperform =>
    -- either the flag was down already and the check fails, or this step lowers it
    have hbefore : Quiet pass act Clean c ∧ ¬ pass a answer := by
      by_cases hc : Down c.shared
      · exact ⟨h hc, hM.fails hc (h hc).1 hperform⟩
      · exact ⟨hlower hc hd, hM.lowered hc hperform hd⟩
    obtain ⟨⟨hclean, hchecked⟩, hpass⟩ := hbefore
    have hi' := hchecked i
    rw [hi, Checked, checks_access] at hi'
    exact ⟨hM.clean hclean hi'.1 hperform, hchecked.set (hi'.2 answer hpass)⟩

/-- **Nobody acts while the flag is down**, in a run whose steps lower it only
when everything is quiet. -/
theorem guarded_run (hM : Guarded M pass act Down Clean)
    {C : Config Answer ρ σ ι → Label Answer ι → Prop}
    (hC : ∀ c l d, C c l → Step M c l d → ¬ Down c.shared → Down d.shared →
      Quiet pass act Clean c)
    {c d e : Config Answer ρ σ ι} {ls : List (Label Answer ι)} {i : ι} {a : A}
    {answer : Answer a} (hrun : Run (Where (Step M) C) c ls d)
    (hc : Down c.shared → Quiet pass act Clean c) (hstep : Step M d (.access i a answer) e)
    (ha : act a) : ¬ Down d.shared := by
  have hd : Down d.shared → Quiet pass act Clean d :=
    hrun.invariant (I := fun c => Down c.shared → Quiet pass act Clean c)
      (fun s l t hs hst => hM.step hs (hC s l t hst.1 hst.2) hst.2) hc
  intro hdown
  cases hstep with
  | access hi _ =>
    have hi' := (hd hdown).2 i
    rw [hi, Checked, checks_access] at hi'
    exact hi'.1 ha

end Checks

end Threads
