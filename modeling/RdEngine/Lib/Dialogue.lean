/-
RdEngine/Lib/Dialogue.lean

Programs that talk over a pair of one-way channels, and what two of them do
when they talk to each other.

A `Prog ι ο ε α` reads items of type `ι`, writes items of type `ο`, and ends
with a value or an error.  It has three semantics:

* `drive` — the program against a finite supply of input, run until it ends
  or has to wait;
* `Exec` — the program against any input, where the connection may also fail
  or a deadline expire at any moment;
* `Duo.Step` — two programs and the two queues between them, interleaved in
  any order.

The interleaving does not matter (`Duo.step_diamond`): the two parties touch
a shared queue at opposite ends.  Hence a run that ends in a stuck pair is
every run (`Duo.reaches_stuck`), and to know what two parties can reach it is
enough to follow one schedule (`Duo.forall_stuck_iff`).
-/
import Mathlib.Logic.Relation
import Mathlib.Data.List.Basic

namespace Dialogue

/-- A program over an input and an output channel. -/
inductive Prog (ι ο ε α : Type) : Type where
  | done (a : α)
  | fail (e : ε)
  | read (k : ι → Prog ι ο ε α)
  | write (o : ο) (k : Prog ι ο ε α)

variable {ι ο ε α β γ : Type}

namespace Prog

/-! ### Sequencing -/

/-- One program, and then the other on its result. -/
def bind (p : Prog ι ο ε α) (f : α → Prog ι ο ε β) : Prog ι ο ε β :=
  match p with
  | done a => f a
  | fail e => fail e
  | read k => read fun i => (k i).bind f
  | write o k => write o (k.bind f)

instance : Monad (Prog ι ο ε) where
  pure := done
  bind := bind

@[simp] theorem pure_eq (a : α) : (pure a : Prog ι ο ε α) = done a := rfl

@[simp] theorem done_bind (a : α) (f : α → Prog ι ο ε β) : (done a >>= f) = f a := rfl

@[simp] theorem fail_bind (e : ε) (f : α → Prog ι ο ε β) :
    ((fail e : Prog ι ο ε α) >>= f) = fail e := rfl

@[simp] theorem read_bind (k : ι → Prog ι ο ε α) (f : α → Prog ι ο ε β) :
    (read k >>= f) = read fun i => k i >>= f := rfl

@[simp] theorem write_bind (o : ο) (k : Prog ι ο ε α) (f : α → Prog ι ο ε β) :
    (write o k >>= f) = write o (k >>= f) := rfl

theorem bind_done (p : Prog ι ο ε α) : (p >>= done) = p := by
  induction p with
  | done | fail => rfl
  | read k ih => simp [ih]
  | write o k ih => simp [ih]

theorem bind_assoc (p : Prog ι ο ε α) (f : α → Prog ι ο ε β) (g : β → Prog ι ο ε γ) :
    ((p >>= f) >>= g) = (p >>= fun a => f a >>= g) := by
  induction p with
  | done | fail => rfl
  | read k ih => simp [ih]
  | write o k ih => simp [ih]

instance : LawfulMonad (Prog ι ο ε) :=
  LawfulMonad.mk' _ bind_done (fun _ _ => rfl) bind_assoc

/-- Write a list of items, in order. -/
def writeAll (os : List ο) (k : Prog ι ο ε α) : Prog ι ο ε α :=
  match os with
  | [] => k
  | o :: os => write o (writeAll os k)

@[simp] theorem writeAll_bind (os : List ο) (k : Prog ι ο ε α) (f : α → Prog ι ο ε β) :
    (writeAll os k >>= f) = writeAll os (k >>= f) := by
  induction os with
  | nil => rfl
  | cons o os ih => simp [writeAll, ih]

/-- Read so many items. -/
def readN : Nat → Prog ι ο ε (List ι)
  | 0 => done []
  | n + 1 => read fun i => readN n >>= fun is => done (i :: is)

/-- Run a program for its outcome: its error becomes a value. -/
def attempt {ε' : Type} : Prog ι ο ε α → Prog ι ο ε' (Except ε α)
  | done a => done (.ok a)
  | fail e => done (.error e)
  | read k => read fun i => (k i).attempt
  | write o k => write o k.attempt

/-- The program, on a value that may be an error. -/
def orFail {δ : Type} (value : Except ε δ) (k : δ → Prog ι ο ε α) : Prog ι ο ε α :=
  match value with
  | .ok d => k d
  | .error e => fail e

/-- The program over other channels, of which only some items are for it. -/
def translate {ι' ο' : Type} (inp : ι' → Except ε ι) (out : ο → ο') :
    Prog ι ο ε α → Prog ι' ο' ε α
  | done a => done a
  | fail e => fail e
  | read k => read fun i => orFail (inp i) fun i => (k i).translate inp out
  | write o k => write (out o) (k.translate inp out)

/-! ### Against a supply of input -/

/-- A program stopped for lack of input, or at its end. -/
structure Stop (ι ο ε α : Type) where
  prog : Prog ι ο ε α
  rest : List ι
  sent : List ο

/-- The stop, after something was sent before. -/
def Stop.after (s : Stop ι ο ε α) (os : List ο) : Stop ι ο ε α :=
  { s with sent := os ++ s.sent }

@[simp] theorem Stop.after_mk (p : Prog ι ο ε α) (is : List ι) (os os' : List ο) :
    (Stop.mk p is os').after os = ⟨p, is, os ++ os'⟩ := rfl

theorem Stop.after_after (s : Stop ι ο ε α) (os os' : List ο) :
    (s.after os).after os' = s.after (os' ++ os) := by
  simp [Stop.after]

@[simp] theorem Stop.after_nil (s : Stop ι ο ε α) : s.after [] = s := rfl

/-- Run a program as far as its input goes. -/
def drive : Prog ι ο ε α → List ι → Stop ι ο ε α
  | done a, is => ⟨done a, is, []⟩
  | fail e, is => ⟨fail e, is, []⟩
  | read k, [] => ⟨read k, [], []⟩
  | read k, i :: is => drive (k i) is
  | write o k, is => (drive k is).after [o]

@[simp] theorem drive_done (a : α) (is : List ι) :
    drive (done a : Prog ι ο ε α) is = ⟨done a, is, []⟩ := by cases is <;> rfl

@[simp] theorem drive_fail (e : ε) (is : List ι) :
    drive (fail e : Prog ι ο ε α) is = ⟨fail e, is, []⟩ := by cases is <;> rfl

@[simp] theorem drive_read_cons (k : ι → Prog ι ο ε α) (i : ι) (is : List ι) :
    drive (read k) (i :: is) = drive (k i) is := rfl

@[simp] theorem drive_write (o : ο) (k : Prog ι ο ε α) (is : List ι) :
    drive (write o k) is = (drive k is).after [o] := by cases is <;> rfl

@[simp] theorem drive_writeAll (os : List ο) (k : Prog ι ο ε α) (is : List ι) :
    drive (writeAll os k) is = (drive k is).after os := by
  induction os with
  | nil => rfl
  | cons o os ih => simp [writeAll, ih, Stop.after_after]

/-! ### Against an unreliable connection -/

/-- `Exec p is os r`: reading `is` and writing `os`, the program ends with
`r`.  At any moment it may be cut off with an error of the connection's
choice, also in the middle of a write, which then counts as sent. -/
inductive Exec : Prog ι ο ε α → List ι → List ο → Except ε α → Prop
  | done (a : α) : Exec (.done a) [] [] (.ok a)
  | fail (e : ε) : Exec (.fail e) [] [] (.error e)
  | read {k : ι → Prog ι ο ε α} {i : ι} {is : List ι} {os : List ο} {r : Except ε α} :
      Exec (k i) is os r → Exec (.read k) (i :: is) os r
  | write {o : ο} {k : Prog ι ο ε α} {is : List ι} {os : List ο} {r : Except ε α} :
      Exec k is os r → Exec (.write o k) is (o :: os) r
  | cutRead {k : ι → Prog ι ο ε α} (e : ε) : Exec (.read k) [] [] (.error e)
  | cutWrite {o : ο} {k : Prog ι ο ε α} (e : ε) (os : List ο) :
      os = [] ∨ os = [o] → Exec (.write o k) [] os (.error e)

/-- What a program that ends well does, its first part does first. -/
theorem Exec.bind_ok {p : Prog ι ο ε α} {f : α → Prog ι ο ε β} {is : List ι} {os : List ο}
    {b : β} (h : Exec (p >>= f) is os (.ok b)) :
    ∃ is₁ os₁ is₂ os₂ a, Exec p is₁ os₁ (.ok a) ∧ Exec (f a) is₂ os₂ (.ok b) ∧
      is = is₁ ++ is₂ ∧ os = os₁ ++ os₂ := by
  induction p generalizing is os with
  | done a => exact ⟨[], [], is, os, a, .done a, h, rfl, rfl⟩
  | fail e => cases h
  | read k ih =>
    cases h with
    | @read _ i is' _ _ h =>
      obtain ⟨is₁, os₁, is₂, os₂, a, h₁, h₂, rfl, rfl⟩ := ih i h
      exact ⟨i :: is₁, os₁, is₂, os₂, a, .read h₁, h₂, rfl, rfl⟩
  | write o k ih =>
    cases h with
    | write h =>
      obtain ⟨is₁, os₁, is₂, os₂, a, h₁, h₂, rfl, rfl⟩ := ih h
      exact ⟨is₁, o :: os₁, is₂, os₂, a, .write h₁, h₂, rfl, rfl⟩

/-- A run to the end of the program and of its input is an execution. -/
theorem exec_of_drive {p : Prog ι ο ε α} {is : List ι} {os : List ο} {a : α}
    (h : p.drive is = ⟨done a, [], os⟩) : Exec p is os (.ok a) := by
  induction p generalizing is os with
  | done b =>
    rw [drive_done] at h
    obtain ⟨h₁, rfl, rfl⟩ := Stop.mk.inj h
    cases h₁
    exact .done a
  | fail e =>
    rw [drive_fail] at h
    cases (Stop.mk.inj h).1
  | read k ih =>
    cases is with
    | nil => cases (Stop.mk.inj h).1
    | cons i is => exact .read (ih i h)
  | write o k ih =>
    rw [drive_write] at h
    rcases hk : k.drive is with ⟨p', rest, sent⟩
    rw [hk, Stop.after_mk] at h
    obtain ⟨rfl, rfl, rfl⟩ := Stop.mk.inj h
    exact .write (ih hk)

/-- A program that ends well over other channels has had its own items. -/
theorem exec_translate {ι' ο' : Type} {inp : ι' → Except ε ι} {out : ο → ο'} {emb : ι → ι'}
    {p : Prog ι ο ε α} {is' : List ι'} {os' : List ο'} {a : α}
    (hemb : ∀ i' i, inp i' = .ok i → i' = emb i)
    (h : Exec (p.translate inp out) is' os' (.ok a)) :
    ∃ is os, is' = is.map emb ∧ os' = os.map out ∧ Exec p is os (.ok a) := by
  induction p generalizing is' os' with
  | done b =>
    cases h
    exact ⟨[], [], rfl, rfl, .done _⟩
  | fail e => cases h
  | read k ih =>
    cases h with
    | @read _ i' is' _ _ h =>
      rcases hi : inp i' with e | i
      · simp only [hi] at h
        cases h
      · simp only [hi] at h
        obtain ⟨is, os, rfl, rfl, hexec⟩ := ih i h
        exact ⟨i :: is, os, by rw [hemb i' i hi, List.map_cons], rfl, .read hexec⟩
  | write o k ih =>
    cases h with
    | write h =>
      obtain ⟨is, os, rfl, rfl, hexec⟩ := ih h
      exact ⟨is, o :: os, rfl, rfl, .write hexec⟩

end Prog

/-! ### Two programs -/

/-- Two programs and the queues between them. -/
structure Duo (ι ο ε α ε' β : Type) where
  left : Prog ι ο ε α
  right : Prog ο ι ε' β
  toLeft : List ι
  toRight : List ο

namespace Duo

variable {ε' : Type}

/-- One step of one of the parties. -/
inductive Step : Duo ι ο ε α ε' β → Duo ι ο ε α ε' β → Prop
  | leftRead {k : ι → Prog ι ο ε α} {r : Prog ο ι ε' β} {i : ι} {is : List ι} {os : List ο} :
      Step ⟨.read k, r, i :: is, os⟩ ⟨k i, r, is, os⟩
  | leftWrite {o : ο} {k : Prog ι ο ε α} {r : Prog ο ι ε' β} {is : List ι} {os : List ο} :
      Step ⟨.write o k, r, is, os⟩ ⟨k, r, is, os ++ [o]⟩
  | rightRead {k : ο → Prog ο ι ε' β} {l : Prog ι ο ε α} {o : ο} {is : List ι} {os : List ο} :
      Step ⟨l, .read k, is, o :: os⟩ ⟨l, k o, is, os⟩
  | rightWrite {i : ι} {k : Prog ο ι ε' β} {l : Prog ι ο ε α} {is : List ι} {os : List ο} :
      Step ⟨l, .write i k, is, os⟩ ⟨l, k, is ++ [i], os⟩

/-- Any number of steps of the two. -/
def Reaches : Duo ι ο ε α ε' β → Duo ι ο ε α ε' β → Prop := Relation.ReflTransGen Step

theorem Reaches.rfl {c : Duo ι ο ε α ε' β} : Reaches c c := .refl

theorem Reaches.trans {a b c : Duo ι ο ε α ε' β} (hab : Reaches a b) (hbc : Reaches b c) :
    Reaches a c := Relation.ReflTransGen.trans hab hbc

theorem Reaches.head {a b c : Duo ι ο ε α ε' β} (hab : Step a b) (hbc : Reaches b c) :
    Reaches a c := Relation.ReflTransGen.head hab hbc

/-- Neither party of the pair can move. -/
def Stuck (c : Duo ι ο ε α ε' β) : Prop := ∀ d, ¬ Step c d

/-- Two different steps of one pair are steps of different parties, and
commute. -/
theorem step_diamond {c a b : Duo ι ο ε α ε' β} (ha : Step c a) (hb : Step c b) :
    a = b ∨ ∃ d, Step a d ∧ Step b d := by
  cases ha with
  | leftRead =>
    cases hb with
    | leftRead => exact .inl rfl
    | rightRead => exact .inr ⟨_, .rightRead, .leftRead⟩
    | rightWrite => exact .inr ⟨_, .rightWrite, .leftRead⟩
  | leftWrite =>
    cases hb with
    | leftWrite => exact .inl rfl
    | rightRead => exact .inr ⟨_, .rightRead, .leftWrite⟩
    | rightWrite => exact .inr ⟨_, .rightWrite, .leftWrite⟩
  | rightRead =>
    cases hb with
    | leftRead => exact .inr ⟨_, .leftRead, .rightRead⟩
    | leftWrite => exact .inr ⟨_, .leftWrite, .rightRead⟩
    | rightRead => exact .inl rfl
  | rightWrite =>
    cases hb with
    | leftRead => exact .inr ⟨_, .leftRead, .rightWrite⟩
    | leftWrite => exact .inr ⟨_, .leftWrite, .rightWrite⟩
    | rightWrite => exact .inl rfl

/-- **One schedule is all schedules**: if some run ends in a stuck pair, every
run can still be continued to that pair. -/
theorem reaches_stuck {c t d : Duo ι ο ε α ε' β} (ht : Reaches c t) (hstuck : Stuck t)
    (hd : Reaches c d) : Reaches d t := by
  have hlocal : ∀ a b c : Duo ι ο ε α ε' β, Step a b → Step a c →
      ∃ d, Relation.ReflGen Step b d ∧ Relation.ReflTransGen Step c d := by
    intro a b c hb hc
    rcases step_diamond hb hc with rfl | ⟨d, h₁, h₂⟩
    · exact ⟨b, .refl, .refl⟩
    · exact ⟨d, .single h₁, .single h₂⟩
  obtain ⟨e, hte, hde⟩ := Relation.church_rosser hlocal ht hd
  rcases Relation.ReflTransGen.cases_head hte with rfl | ⟨f, hf, -⟩
  · exact hde
  · exact absurd hf (hstuck f)

/-- In a stuck pair nothing more happens. -/
theorem Reaches.eq_of_stuck {c d : Duo ι ο ε α ε' β} (h : Reaches c d) (hstuck : Stuck c) :
    d = c := by
  rcases Relation.ReflTransGen.cases_head h with rfl | ⟨f, hf, -⟩
  · rfl
  · exact absurd hf (hstuck f)

/-- What holds at one end holds at every end. -/
theorem forall_stuck_iff {c t : Duo ι ο ε α ε' β} (ht : Reaches c t) (hstuck : Stuck t)
    (P : Duo ι ο ε α ε' β → Prop) : (∀ d, Reaches c d → Stuck d → P d) ↔ P t := by
  constructor
  · intro h
    exact h t ht hstuck
  · intro h d hd hd'
    rw [← (reaches_stuck ht hstuck hd).eq_of_stuck hd']
    exact h

/-! #### Where a pair stops -/

/-- A program that has ended. -/
def Ended : Prog ι ο ε α → Prop
  | .done _ => True
  | .fail _ => True
  | .read _ => False
  | .write _ _ => False

/-- A program that has ended, or has nothing to read. -/
def Idle : Prog ι ο ε α → List ι → Prop
  | .done _, _ => True
  | .fail _, _ => True
  | .read _, is => is = []
  | .write _ _, _ => False

theorem stuck_of_idle {l : Prog ι ο ε α} {r : Prog ο ι ε' β} {is : List ι} {os : List ο}
    (hl : Idle l is) (hr : Idle r os) : Stuck ⟨l, r, is, os⟩ := by
  intro d h
  cases h with
  | leftRead => exact List.cons_ne_nil _ _ hl
  | leftWrite => exact hl
  | rightRead => exact List.cons_ne_nil _ _ hr
  | rightWrite => exact hr

/-- The right party is finite: if the left one comes to an end whenever it can
move, the pair does. -/
theorem exists_end_of_left {l : Prog ι ο ε α}
    (hmove : ∀ (r : Prog ο ι ε' β) (is : List ι) (os : List ο), ¬ Idle l is →
      ∃ t, Reaches ⟨l, r, is, os⟩ t ∧ Stuck t)
    (r : Prog ο ι ε' β) (is : List ι) (os : List ο) : ∃ t, Reaches ⟨l, r, is, os⟩ t ∧ Stuck t := by
  induction r generalizing is os with
  | done b =>
    by_cases hidle : Idle l is
    · exact ⟨_, .rfl, stuck_of_idle hidle trivial⟩
    · exact hmove _ is os hidle
  | fail e =>
    by_cases hidle : Idle l is
    · exact ⟨_, .rfl, stuck_of_idle hidle trivial⟩
    · exact hmove _ is os hidle
  | read k ih =>
    cases os with
    | nil =>
      by_cases hidle : Idle l is
      · exact ⟨_, .rfl, stuck_of_idle hidle rfl⟩
      · exact hmove _ is [] hidle
    | cons o os =>
      obtain ⟨t, ht, hstuck⟩ := ih o is os
      exact ⟨t, .head .rightRead ht, hstuck⟩
  | write i k ih =>
    obtain ⟨t, ht, hstuck⟩ := ih (is ++ [i]) os
    exact ⟨t, .head .rightWrite ht, hstuck⟩

/-- Every pair comes to an end: programs are finite. -/
theorem exists_end (l : Prog ι ο ε α) (r : Prog ο ι ε' β) (is : List ι) (os : List ο) :
    ∃ t, Reaches ⟨l, r, is, os⟩ t ∧ Stuck t := by
  induction l generalizing r is os with
  | done a | fail e =>
    refine exists_end_of_left (fun r is os hidle => ?_) r is os
    exact absurd trivial hidle
  | read k ih =>
    refine exists_end_of_left (fun r is os hidle => ?_) r is os
    cases is with
    | nil => exact absurd rfl hidle
    | cons i is =>
      obtain ⟨t, ht, hstuck⟩ := ih i r is os
      exact ⟨t, .head .leftRead ht, hstuck⟩
  | write o k ih =>
    obtain ⟨t, ht, hstuck⟩ := ih r is (os ++ [o])
    exact ⟨t, .head .leftWrite ht, hstuck⟩

/-- A party that has failed has failed for good. -/
theorem Reaches.left_fail {c d : Duo ι ο ε α ε' β} (h : Reaches c d) {e : ε}
    (hc : c.left = .fail e) : d.left = .fail e := by
  induction h with
  | refl => exact hc
  | tail _ hstep ih =>
    cases hstep with
    | leftRead | leftWrite => cases ih
    | rightRead | rightWrite => exact ih

/-- If the left party fails in some run, it fails in every run. -/
theorem forall_stuck_of_left_fail {c d : Duo ι ο ε α ε' β} (hd : Reaches c d) {e : ε}
    (hfail : d.left = .fail e) (t : Duo ι ο ε α ε' β) (ht : Reaches c t) (hstuck : Stuck t) :
    t.left = .fail e := by
  obtain ⟨u, hu, hustuck⟩ := exists_end d.left d.right d.toLeft d.toRight
  rw [← (reaches_stuck (hd.trans hu) hustuck ht).eq_of_stuck hstuck]
  exact Reaches.left_fail hu hfail

/-! #### Inside a larger program -/

theorem Step.bind {l l' : Prog ι ο ε α} {r r' : Prog ο ι ε' β} {is is' : List ι} {os os' : List ο}
    (h : Step ⟨l, r, is, os⟩ ⟨l', r', is', os'⟩) (f : α → Prog ι ο ε γ) :
    Step ⟨l >>= f, r, is, os⟩ ⟨l' >>= f, r', is', os'⟩ := by
  cases h with
  | leftRead => exact .leftRead
  | leftWrite => exact .leftWrite
  | rightRead => exact .rightRead
  | rightWrite => exact .rightWrite

theorem Step.attempt {ε'' : Type} {l l' : Prog ι ο ε α} {r r' : Prog ο ι ε' β} {is is' : List ι}
    {os os' : List ο} (h : Step ⟨l, r, is, os⟩ ⟨l', r', is', os'⟩) :
    Step ⟨(l.attempt : Prog ι ο ε'' _), r, is, os⟩ ⟨l'.attempt, r', is', os'⟩ := by
  cases h with
  | leftRead => exact .leftRead
  | leftWrite => exact .leftWrite
  | rightRead => exact .rightRead
  | rightWrite => exact .rightWrite

theorem Reaches.bind {l l' : Prog ι ο ε α} {r r' : Prog ο ι ε' β} {is is' : List ι}
    {os os' : List ο} (h : Reaches ⟨l, r, is, os⟩ ⟨l', r', is', os'⟩) (f : α → Prog ι ο ε γ) :
    Reaches ⟨l >>= f, r, is, os⟩ ⟨l' >>= f, r', is', os'⟩ :=
  Relation.ReflTransGen.lift
    (fun c : Duo ι ο ε α ε' β =>
      (⟨c.left >>= f, c.right, c.toLeft, c.toRight⟩ : Duo ι ο ε γ ε' β))
    (fun _ _ hstep => Step.bind hstep f) _ _ h

theorem Reaches.attempt {ε'' : Type} {l l' : Prog ι ο ε α} {r r' : Prog ο ι ε' β}
    {is is' : List ι} {os os' : List ο} (h : Reaches ⟨l, r, is, os⟩ ⟨l', r', is', os'⟩) :
    Reaches ⟨(l.attempt : Prog ι ο ε'' _), r, is, os⟩ ⟨l'.attempt, r', is', os'⟩ :=
  Relation.ReflTransGen.lift
    (fun c : Duo ι ο ε α ε' β =>
      (⟨c.left.attempt, c.right, c.toLeft, c.toRight⟩ : Duo ι ο ε'' (Except ε α) ε' β))
    (fun _ _ hstep => Step.attempt hstep) _ _ h

/-! #### Following one schedule -/

theorem reaches_writeAll_left (os' : List ο) (l : Prog ι ο ε α) (r : Prog ο ι ε' β) (is : List ι)
    (os : List ο) : Reaches ⟨.writeAll os' l, r, is, os⟩ ⟨l, r, is, os ++ os'⟩ := by
  induction os' generalizing os with
  | nil =>
    rw [List.append_nil]
    exact .rfl
  | cons o os' ih =>
    refine .head .leftWrite ?_
    rw [List.append_cons os o os']
    exact ih _

theorem reaches_writeAll_right (is' : List ι) (l : Prog ι ο ε α) (r : Prog ο ι ε' β) (is : List ι)
    (os : List ο) : Reaches ⟨l, .writeAll is' r, is, os⟩ ⟨l, r, is ++ is', os⟩ := by
  induction is' generalizing is with
  | nil =>
    rw [List.append_nil]
    exact .rfl
  | cons i is' ih =>
    refine .head .rightWrite ?_
    rw [List.append_cons is i is']
    exact ih _

theorem reaches_readN_right (os' : List ο) (f : List ο → Prog ο ι ε' β) (l : Prog ι ο ε α)
    (is : List ι) (os : List ο) :
    Reaches ⟨l, .readN os'.length >>= f, is, os' ++ os⟩ ⟨l, f os', is, os⟩ := by
  induction os' generalizing f with
  | nil => exact .rfl
  | cons o os' ih =>
    rw [List.length_cons, Prog.readN, Prog.read_bind]
    simp only [Prog.bind_assoc]
    exact .head .rightRead (ih fun os' => f (o :: os'))

end Duo

namespace Prog

/-! ### A supply that goes on -/

/-- A program that has stopped goes on where it stopped. -/
theorem drive_resume {p q : Prog ι ο ε α} {is rest : List ι} {os : List ο}
    (h : p.drive is = ⟨q, rest, os⟩) (is' : List ι) :
    p.drive (is ++ is') = (q.drive (rest ++ is')).after os := by
  induction p generalizing is os with
  | done a =>
    rw [drive_done] at h ⊢
    obtain ⟨rfl, rfl, rfl⟩ := Stop.mk.inj h
    rw [drive_done, Stop.after_nil]
  | fail e =>
    rw [drive_fail] at h ⊢
    obtain ⟨rfl, rfl, rfl⟩ := Stop.mk.inj h
    rw [drive_fail, Stop.after_nil]
  | read k ih =>
    cases is with
    | nil =>
      obtain ⟨rfl, rfl, rfl⟩ := Stop.mk.inj h
      rw [Stop.after_nil]
    | cons i is => exact ih i h
  | write o k ih =>
    rw [drive_write] at h ⊢
    rcases hk : k.drive is with ⟨p', rest', sent⟩
    rw [hk, Stop.after_mk] at h
    obtain ⟨rfl, rfl, rfl⟩ := Stop.mk.inj h
    rw [ih hk, Stop.after_after]

/-- A program stops at its end, or to read what is not there. -/
theorem drive_idle (p : Prog ι ο ε α) (is : List ι) :
    Duo.Idle (p.drive is).prog (p.drive is).rest := by
  induction p generalizing is with
  | done a =>
    rw [drive_done]
    trivial
  | fail e =>
    rw [drive_fail]
    trivial
  | read k ih =>
    cases is with
    | nil => rfl
    | cons i is => exact ih i is
  | write o k ih =>
    rw [drive_write]
    exact ih is

/-- With less input than it took, a program waits for more. -/
theorem drive_waits {p q : Prog ι ο ε α} {is is' : List ι} {os : List ο}
    (h : p.drive (is ++ is') = ⟨q, [], os⟩) (hmore : is' ≠ []) :
    ∃ k sent, p.drive is = ⟨.read k, [], sent⟩ := by
  rcases hstop : p.drive is with ⟨q', rest, sent⟩
  have hidle := drive_idle p is
  have hagain := drive_resume hstop is'
  rw [hstop] at hidle
  rw [h] at hagain
  cases q' with
  | done a =>
    rw [drive_done, Stop.after_mk] at hagain
    exact absurd (List.append_eq_nil_iff.mp (Stop.mk.inj hagain).2.1.symm).2 hmore
  | fail e =>
    rw [drive_fail, Stop.after_mk] at hagain
    exact absurd (List.append_eq_nil_iff.mp (Stop.mk.inj hagain).2.1.symm).2 hmore
  | read k => exact ⟨k, sent, by rw [show rest = [] from hidle]⟩
  | write o k => exact absurd hidle id

/-- What a program did until it stopped is an execution: it may be cut off
there. -/
theorem exec_drive (p : Prog ι ο ε α) (is : List ι) (e : ε) :
    ∃ is' r, Exec p is' (p.drive is).sent r := by
  induction p generalizing is with
  | done a =>
    rw [drive_done]
    exact ⟨[], .ok a, .done a⟩
  | fail e =>
    rw [drive_fail]
    exact ⟨[], .error e, .fail e⟩
  | read k ih =>
    cases is with
    | nil => exact ⟨[], .error e, .cutRead e⟩
    | cons i is =>
      obtain ⟨is', r, h⟩ := ih i is
      exact ⟨i :: is', r, .read h⟩
  | write o k ih =>
    rw [drive_write]
    obtain ⟨is', r, h⟩ := ih is
    exact ⟨is', r, .write h⟩

/-- However it is cut off, a program writes what it would have written on the input
it has read, up to some point. -/
theorem Exec.sent_drive {p : Prog ι ο ε α} {is : List ι} {os : List ο} {r : Except ε α}
    (h : Exec p is os r) : ∃ more, (p.drive is).sent = os ++ more := by
  induction h with
  | done a =>
    rw [drive_done]
    exact ⟨[], rfl⟩
  | fail e =>
    rw [drive_fail]
    exact ⟨[], rfl⟩
  | read _ ih => exact ih
  | write _ ih =>
    obtain ⟨more, hmore⟩ := ih
    rw [drive_write]
    exact ⟨more, congrArg (List.cons _) hmore⟩
  | cutRead => exact ⟨[], rfl⟩
  | cutWrite e os hos =>
    rw [drive_write]
    rcases hos with rfl | rfl
    · exact ⟨_, rfl⟩
    · exact ⟨_, rfl⟩

/-- A program that waits for input may be cut off there. -/
theorem exec_of_drive_read {p : Prog ι ο ε α} {k : ι → Prog ι ο ε α} {is : List ι} {os : List ο}
    (h : p.drive is = ⟨read k, [], os⟩) (e : ε) : Exec p is os (.error e) := by
  induction p generalizing is os with
  | done a =>
    rw [drive_done] at h
    cases (Stop.mk.inj h).1
  | fail e =>
    rw [drive_fail] at h
    cases (Stop.mk.inj h).1
  | read k ih =>
    cases is with
    | nil =>
      obtain ⟨-, -, rfl⟩ := Stop.mk.inj h
      exact .cutRead e
    | cons i is => exact .read (ih i h)
  | write o k ih =>
    rw [drive_write] at h
    rcases hk : k.drive is with ⟨p', rest, sent⟩
    rw [hk, Stop.after_mk] at h
    obtain ⟨rfl, rfl, rfl⟩ := Stop.mk.inj h
    exact .write (ih hk)

end Prog

end Dialogue
