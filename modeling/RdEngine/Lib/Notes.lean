/-
RdEngine/Lib/Notes.lean

Programs that leave notes.

A program whose outputs are `ο ⊕ κ` writes items of type `ο` and leaves notes of
type `κ` in between.  Forgetting the notes gives a program that only talks
(`erase`); a program without notes is one with them (`bare`).

What the notes are good for is a contract: some of them say what the program has
come upon (`fits`), others what it does (`ok`).  `Keeps fits ok Q p` is a property
of the text of `p`: as long as what it comes upon fits, what it does is all right,
and a value it ends with has `Q`.  It goes through sequencing (`Keeps.bind`), and
it holds of every execution, cut off or not (`Keeps.exec`).
-/
import RdEngine.Lib.Dialogue

namespace Dialogue

namespace Prog

variable {ι ο κ ε ε' α β : Type}

/-! ### Notes -/

/-- Leave a note. -/
def note (k : κ) : Prog ι (ο ⊕ κ) ε Unit := .write (.inr k) (.done ())

/-- A program that leaves no notes. -/
def bare : Prog ι ο ε α → Prog ι (ο ⊕ κ) ε α
  | done a => done a
  | fail e => fail e
  | read k => read fun i => (k i).bare
  | write o k => write (.inl o) k.bare

/-- Forget the notes. -/
def erase : Prog ι (ο ⊕ κ) ε α → Prog ι ο ε α
  | done a => done a
  | fail e => fail e
  | read k => read fun i => (k i).erase
  | write (.inl o) k => write o k.erase
  | write (.inr _) k => k.erase

/-- The notes among the outputs. -/
def notes (os : List (ο ⊕ κ)) : List κ := os.filterMap Sum.getRight?

@[simp] theorem erase_done (a : α) : (done a : Prog ι (ο ⊕ κ) ε α).erase = done a := rfl

@[simp] theorem erase_fail (e : ε) : (fail e : Prog ι (ο ⊕ κ) ε α).erase = fail e := rfl

@[simp] theorem erase_bind (p : Prog ι (ο ⊕ κ) ε α) (f : α → Prog ι (ο ⊕ κ) ε β) :
    (p >>= f).erase = p.erase >>= fun a => (f a).erase := by
  induction p with
  | done a => rfl
  | fail e => rfl
  | read k ih => exact congrArg read (funext ih)
  | write o k ih =>
    cases o with
    | inl o => exact congrArg (write o) ih
    | inr n => exact ih

@[simp] theorem erase_bare (p : Prog ι ο ε α) : (p.bare : Prog ι (ο ⊕ κ) ε α).erase = p := by
  induction p with
  | done a => rfl
  | fail e => rfl
  | read k ih => exact congrArg read (funext ih)
  | write o k ih => exact congrArg (write o) ih

theorem bare_bind (p : Prog ι ο ε α) (f : α → Prog ι ο ε β) :
    ((p >>= f).bare : Prog ι (ο ⊕ κ) ε β) = p.bare >>= fun a => (f a).bare := by
  induction p with
  | done a => rfl
  | fail e => rfl
  | read k ih => exact congrArg read (funext ih)
  | write o k ih => exact congrArg (write (.inl o)) ih

@[simp] theorem erase_attempt (p : Prog ι (ο ⊕ κ) ε α) :
    (p.attempt : Prog ι (ο ⊕ κ) ε' (Except ε α)).erase = p.erase.attempt := by
  induction p with
  | done a => rfl
  | fail e => rfl
  | read k ih => exact congrArg read (funext ih)
  | write o k ih =>
    cases o with
    | inl o => exact congrArg (write o) ih
    | inr n => exact ih

@[simp] theorem erase_ite {c : Prop} [Decidable c] (p q : Prog ι (ο ⊕ κ) ε α) :
    (if c then p else q).erase = if c then p.erase else q.erase := by
  split_ifs <;> rfl

/-! ### Contracts -/

section Contract

variable (fits ok : κ → Prop)

/-- As long as the notes fit they are all right, and a value at the end has `Q`. -/
def Keeps (Q : α → Prop) : Prog ι (ο ⊕ κ) ε α → Prop
  | done a => Q a
  | fail _ => True
  | read k => ∀ i, Keeps Q (k i)
  | write (.inl _) k => Keeps Q k
  | write (.inr n) k => ok n ∧ (fits n → Keeps Q k)

end Contract

section Rules

variable {fits ok : κ → Prop} {Q : α → Prop} {R : β → Prop}

theorem Keeps.bind {p : Prog ι (ο ⊕ κ) ε α} {f : α → Prog ι (ο ⊕ κ) ε β}
    (hp : Keeps fits ok Q p) (hf : ∀ a, Q a → Keeps fits ok R (f a)) :
    Keeps fits ok R (p >>= f) := by
  induction p with
  | done a => exact hf a hp
  | fail e => trivial
  | read k ih => exact fun i => ih i (hp i)
  | write o k ih =>
    cases o with
    | inl o => exact ih hp
    | inr n => exact ⟨hp.1, fun hn => ih (hp.2 hn)⟩

/-- A note, and what may be taken for granted behind it. -/
theorem Keeps.note {n : κ} (hn : ok n) :
    Keeps fits ok (fun _ => fits n) (note n : Prog ι (ο ⊕ κ) ε Unit) :=
  ⟨hn, id⟩

theorem Keeps.bare (p : Prog ι ο ε α) :
    Keeps fits ok (fun _ => True) (p.bare : Prog ι (ο ⊕ κ) ε α) := by
  induction p with
  | done a => trivial
  | fail e => trivial
  | read k ih => exact ih
  | write o k ih => exact ih

theorem Keeps.imp {Q' : α → Prop} {p : Prog ι (ο ⊕ κ) ε α} (hp : Keeps fits ok Q p)
    (h : ∀ a, Q a → Q' a) : Keeps fits ok Q' p := by
  have hbind := hp.bind (f := done) (R := Q') h
  rwa [bind_done] at hbind

theorem Keeps.attempt {p : Prog ι (ο ⊕ κ) ε α} (hp : Keeps fits ok Q p) :
    Keeps fits ok (fun _ => True) (p.attempt : Prog ι (ο ⊕ κ) ε' (Except ε α)) := by
  induction p with
  | done a => trivial
  | fail e => trivial
  | read k ih => exact fun i => ih i (hp i)
  | write o k ih =>
    cases o with
    | inl o => exact ih hp
    | inr n => exact ⟨hp.1, fun hn => ih (hp.2 hn)⟩

/-- **Every execution keeps to the contract**, wherever it is cut off. -/
theorem Keeps.exec {p : Prog ι (ο ⊕ κ) ε α} (hp : Keeps fits ok Q p) {is : List ι}
    {os : List (ο ⊕ κ)} {r : Except ε α} (h : Exec p is os r)
    (hfits : ∀ n ∈ notes os, fits n) : ∀ n ∈ notes os, ok n := by
  induction h with
  | done a => exact fun n hn => nomatch hn
  | fail e => exact fun n hn => nomatch hn
  | read _ ih => exact ih (hp _) hfits
  | @write o k is os r _ ih =>
    cases o with
    | inl o => exact ih hp hfits
    | inr n =>
      obtain ⟨hn, hrest⟩ := List.forall_mem_cons.mp hfits
      exact List.forall_mem_cons.mpr ⟨hp.1, ih (hp.2 hn) hrest⟩
  | cutRead e => exact fun n hn => nomatch hn
  | @cutWrite o k e os hos =>
    rcases hos with rfl | rfl
    · exact fun n hn => nomatch hn
    · cases o with
      | inl o => exact fun n hn => nomatch hn
      | inr n => exact List.forall_mem_cons.mpr ⟨hp.1, fun n hn => nomatch hn⟩

end Rules

end Prog

end Dialogue
