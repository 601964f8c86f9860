/-
RdEngine/Lib/Displacing.lean

Bounded queues that lose their oldest entry.

A queue of capacity `n` takes every entry that is put into it: where it is full, the
oldest one is displaced.  After every run of puts and takes, what was put is what has
left the queue, each entry taken or displaced, followed by what is queued, all in the
order in which it was put (`Account`).  An entry was displaced only while it was the
oldest of `n` (`OldestOfFull`).

* `account_put`, `account_take` — what one operation keeps;
* `account_run` — what a run shows;
* `Shows` — a system that holds such a queue, whose runs are runs of it
  (`Shows.run`), and in which the moment an entry was displaced at can be pointed out
  (`Shows.oldestOfFull`).
-/
import RdEngine.Lib.Runs

namespace Displacing

open Lts

variable {α : Type*} {n : Nat}

/-! ### Operations -/

/-- An entry is put or taken. -/
inductive Op (α : Type*) where
  | put (entry : α)
  | take (entry : α)

/-- The oldest entry gives way where there are `n` already. -/
def put (n : Nat) (queue : List α) (entry : α) : List α :=
  (if queue.length ≥ n then queue.drop 1 else queue) ++ [entry]

/-- One operation on the queue; a put may displace. -/
inductive Step (n : Nat) : List α → Op α → List α → Prop
  | put (queue : List α) (entry : α) : Step n queue (.put entry) (put n queue entry)
  | take (entry : α) (queue : List α) : Step n (entry :: queue) (.take entry) queue

theorem put_of_lt {queue : List α} (h : queue.length < n) (entry : α) :
    put n queue entry = queue ++ [entry] := by
  rw [put, if_neg (by omega)]

theorem put_of_full {oldest : α} {queue : List α} (h : (oldest :: queue).length = n) (entry : α) :
    put n (oldest :: queue) entry = queue ++ [entry] := by
  rw [put, if_pos (by omega)]
  rfl

/-- An operation leads from a queue to one queue only. -/
theorem Step.unique {queue queue₁ queue₂ : List α} {op : Op α} (h₁ : Step n queue op queue₁)
    (h₂ : Step n queue op queue₂) : queue₁ = queue₂ := by
  cases h₁ with
  | put => cases h₂; rfl
  | take => cases h₂; rfl

theorem run_unique {queue queue₁ queue₂ : List α} {ops : List (Op α)}
    (h₁ : Run (Step n) queue ops queue₁) (h₂ : Run (Step n) queue ops queue₂) :
    queue₁ = queue₂ := by
  induction h₁ with
  | nil => cases h₂; rfl
  | cons hstep _ ih =>
    cases h₂ with
    | cons hstep' hrun =>
      obtain rfl := hstep.unique hstep'
      exact ih hrun

/-! ### Histories -/

def Op.entryPut : Op α → Option α
  | put entry => some entry
  | take _ => none

def Op.entryTaken : Op α → Option α
  | put _ => none
  | take entry => some entry

/-- Everything that was put, in order. -/
def puts (ops : List (Op α)) : List α := ops.filterMap Op.entryPut

/-- Everything that was taken, in order. -/
def takes (ops : List (Op α)) : List α := ops.filterMap Op.entryTaken

/-- How an entry has left the queue. -/
inductive Departure (α : Type*) where
  | taken (entry : α)
  | displaced (entry : α)

namespace Departure

/-- The entry that leaves. -/
def entry : Departure α → α
  | taken entry | displaced entry => entry

/-- The entry, where it leaves by being taken. -/
def entryTaken : Departure α → Option α
  | taken entry => some entry
  | displaced _ => none

end Departure

/-- After `left` had left the queue, `entry` was the oldest of `n` entries, and one more
was put. -/
def OldestOfFull (n : Nat) (ops : List (Op α)) (left : List (Departure α)) (entry : α) : Prop :=
  ∃ before newer after queue, ops = before ++ .put newer :: after ∧
    Run (Step n) [] before (entry :: queue) ∧ (entry :: queue).length = n ∧
    puts before = left.map Departure.entry ++ entry :: queue

/-- The history of a queue: what has left it is `gone`. -/
structure Account (n : Nat) (ops : List (Op α)) (gone : List (Departure α)) (queue : List α) :
    Prop where
  puts : puts ops = gone.map Departure.entry ++ queue
  takes : takes ops = gone.filterMap Departure.entryTaken
  displaced : ∀ left entry later, gone = left ++ .displaced entry :: later →
    OldestOfFull n ops left entry

theorem account_nil : Account n ([] : List (Op α)) [] [] where
  puts := rfl
  takes := rfl
  displaced left entry later h := by simp at h

section Steps

variable {ops : List (Op α)} {gone : List (Departure α)} {queue : List α}

theorem puts_snoc (ops : List (Op α)) (op : Op α) :
    puts (ops ++ [op]) = puts ops ++ op.entryPut.toList :=
  filterMap_snoc ..

theorem takes_snoc (ops : List (Op α)) (op : Op α) :
    takes (ops ++ [op]) = takes ops ++ op.entryTaken.toList :=
  filterMap_snoc ..

theorem OldestOfFull.snoc {left : List (Departure α)} {entry : α}
    (h : OldestOfFull n ops left entry) (op : Op α) : OldestOfFull n (ops ++ [op]) left entry := by
  obtain ⟨before, newer, after, queue, rfl, hrest⟩ := h
  refine ⟨before, newer, after ++ [op], queue, ?_, hrest⟩
  rw [List.append_assoc, List.cons_append]

/-- What has left once more has left: the last of it, or what had left before. -/
theorem eq_of_snoc_eq {left later gone : List (Departure α)} {d last : Departure α}
    (h : gone ++ [last] = left ++ d :: later) :
    (gone = left ∧ last = d) ∨ ∃ later', gone = left ++ d :: later' := by
  rcases List.eq_nil_or_concat later with rfl | ⟨later', x, rfl⟩
  · obtain ⟨hgone, hlast⟩ := List.append_inj' h rfl
    exact .inl ⟨hgone, List.singleton_inj.mp hlast⟩
  · rw [List.concat_eq_append, ← List.cons_append, ← List.append_assoc] at h
    exact .inr ⟨later', (List.append_inj' h rfl).1⟩

/-- A put displaces the oldest entry of a full queue, and nothing else. -/
theorem account_put (h : Account n ops gone queue) (hn : 0 < n) (hrun : Run (Step n) [] ops queue)
    (hlength : queue.length ≤ n) (entry : α) :
    (put n queue entry).length ≤ n ∧
      ∃ gone', Account n (ops ++ [.put entry]) gone' (put n queue entry) := by
  by_cases hroom : queue.length < n
  · rw [put_of_lt hroom]
    refine ⟨by rw [List.length_append]; exact hroom, gone, ?_, ?_, ?_⟩
    · rw [puts_snoc, h.puts, List.append_assoc]
      rfl
    · rw [takes_snoc, h.takes]
      exact List.append_nil _
    · intro left entry' later hgone
      exact (h.displaced left entry' later hgone).snoc _
  · cases queue with
    | nil =>
      rw [List.length_nil] at hroom
      omega
    | cons oldest queue =>
      have hfull : (oldest :: queue).length = n := by omega
      rw [put_of_full hfull]
      -- the oldest entry is the next one to have left
      refine ⟨by rw [List.length_append]; exact hlength, gone ++ [.displaced oldest], ?_, ?_, ?_⟩
      · rw [puts_snoc, h.puts, List.map_append]
        simp [Op.entryPut, Departure.entry]
      · rw [takes_snoc, h.takes, List.filterMap_append]
        rfl
      · intro left entry' later hgone
        rcases eq_of_snoc_eq hgone with ⟨rfl, hlast⟩ | ⟨later', hbefore⟩
        · -- it was the oldest of a full queue just now
          cases hlast
          exact ⟨ops, entry, [], queue, rfl, hrun, hfull, h.puts⟩
        · exact (h.displaced left entry' later' hbefore).snoc _

/-- A take is the oldest entry's. -/
theorem account_take {entry : α} (h : Account n ops gone (entry :: queue)) :
    ∃ gone', Account n (ops ++ [.take entry]) gone' queue := by
  refine ⟨gone ++ [.taken entry], ?_, ?_, ?_⟩
  · rw [puts_snoc, h.puts, List.map_append]
    simp [Op.entryPut, Departure.entry]
  · rw [takes_snoc, h.takes, List.filterMap_append]
    rfl
  · intro left entry' later hgone
    rcases eq_of_snoc_eq hgone with ⟨-, hlast⟩ | ⟨later', hbefore⟩
    · cases hlast
    · exact (h.displaced left entry' later' hbefore).snoc _

end Steps

/-- **A bounded queue that displaces its oldest entry loses nothing else**: after every
run what was put has been taken, displaced while it was the oldest of a full queue, or is
queued. -/
theorem account_run (hn : 0 < n) {ops : List (Op α)} {queue : List α}
    (hrun : Run (Step n) [] ops queue) :
    queue.length ≤ n ∧ ∃ gone, Account n ops gone queue := by
  have hall : Run (Step n) [] ops queue ∧ queue.length ≤ n ∧ ∃ gone, Account n ops gone queue := by
    refine hrun.history (P := fun ops queue => Run (Step n) [] ops queue ∧ queue.length ≤ n ∧
      ∃ gone, Account n ops gone queue) ?_ ⟨.nil _, Nat.zero_le n, [], account_nil⟩
    rintro ops queue op queue' ⟨hbefore, hlength, gone, haccount⟩ hstep
    refine ⟨hbefore.snoc hstep, ?_⟩
    cases hstep with
    | put _ entry => exact account_put haccount hn hbefore hlength entry
    | take entry => exact ⟨Nat.le_of_succ_le hlength, account_take haccount⟩
  exact hall.2

/-! ### Systems that hold a queue -/

/-- A system holds the queue `view`: a step is the operation that its label shows, or
leaves the queue alone. -/
def Shows {σ ε : Type*} (n : Nat) (step : σ → ε → σ → Prop) (op : ε → Option (Op α))
    (view : σ → List α) : Prop :=
  ∀ s e t, step s e t →
    (op e = none ∧ view t = view s) ∨ ∃ o, op e = some o ∧ Step n (view s) o (view t)

section Systems

variable {σ ε : Type*} {step : σ → ε → σ → Prop} {op : ε → Option (Op α)} {view : σ → List α}
  {s t : σ} {es : List ε}

theorem Shows.run (h : Shows n step op view) (hrun : Run step s es t) :
    Run (Step n) (view s) (es.filterMap op) (view t) := by
  induction hrun with
  | nil s => exact .nil (view s)
  | @cons s u t e es hstep _ ih =>
    rcases h s e u hstep with ⟨hnone, hview⟩ | ⟨o, hsome, hop⟩
    · rw [List.filterMap_cons_none hnone, ← hview]
      exact ih
    · rw [List.filterMap_cons_some hsome]
      exact .cons hop ih

/-- The run had come to a full queue, and goes on with a put. -/
theorem Shows.oldestOfFull (h : Shows n step op view) (hrun : Run step s es t) (hs : view s = [])
    {left : List (Departure α)} {entry : α} (hfull : OldestOfFull n (es.filterMap op) left entry) :
    ∃ before e after newer u queue, es = before ++ e :: after ∧ op e = some (.put newer) ∧
      Run step s before u ∧ Run step u (e :: after) t ∧ view u = entry :: queue ∧
      (view u).length = n ∧ puts (before.filterMap op) = left.map Departure.entry ++ view u := by
  obtain ⟨ops, newer, ops', queue, hops, hbefore, hlength, hputs⟩ := hfull
  obtain ⟨before, rest, rfl, rfl, hrest⟩ := List.filterMap_eq_append_iff.mp hops
  obtain ⟨silent, e, after, rfl, hsilent, he, -⟩ := List.filterMap_eq_cons_iff.mp hrest
  -- the labels in between show nothing
  have hshown : (before ++ silent).filterMap op = before.filterMap op := by
    rw [List.filterMap_append, List.filterMap_eq_nil_iff.mpr hsilent, List.append_nil]
  rw [← List.append_assoc] at hrun
  obtain ⟨u, hleads, hgoesOn⟩ := hrun.split
  have hview : view u = entry :: queue := by
    have hu := h.run hleads
    rw [hshown, hs] at hu
    exact run_unique hu hbefore
  refine ⟨before ++ silent, e, after, newer, u, queue, (List.append_assoc ..).symm, he, hleads,
    hgoesOn, hview, ?_, ?_⟩
  · rw [hview, hlength]
  · rw [hshown, hputs, hview]

end Systems

end Displacing
