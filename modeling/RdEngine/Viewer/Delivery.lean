/-
RdEngine/Viewer/Delivery.lean

What becomes of the messages a call has queued.

An access of any thread leaves the messages on their way alone, queues one, lets
the write task write the first of a queue, or drops them with the queues
(`Flow`).  So what was queued for the write task stays, in its order, until the
session ends (`Sent`), and every turn of the write task brings it nearer to the
wire (`Due`): after a queue's length of turns and two more it is written
(`AfterCall.written`).
-/
import RdEngine.Lib.Turns
import RdEngine.Viewer.InputOrder

namespace RdEngine

namespace Viewer

open Lts Threads

/-! ### What an access does to the messages on their way -/

/-- What was accepted for a queue and is neither written nor dropped. -/
def unwritten (queue : Queue) (h : Hand) (s : State) : List Envelope :=
  (h.held.map (·.2)).toList.filter (fun e => decide (e.queue = queue)) ++ s.queue queue

theorem ledger_eq (queue : Queue) (h : Hand) (s : State) :
    ledger queue h s
      = s.written.filter (fun e => decide (e.queue = queue)) ++ unwritten queue h s := by
  rw [ledger, unwritten, List.filter_append, List.append_assoc]

/-- Nothing happens to the messages, one is queued, the first of a queue is
written, or those that are not in hand are dropped. -/
inductive Flow (task : Task) (h h' : Hand) (s s' : State) : Prop
  | still : (∀ queue, unwritten queue h' s' = unwritten queue h s) → s'.written = s.written →
      s'.accepted = s.accepted → s'.queuesOpen = s.queuesOpen → Flow task h h' s s'
  | pushed (queue : Queue) (message : Message) : s.queuesOpen = true → h' = h →
      s' = s.push task queue message → Flow task h h' s s'
  | wrote (queue : Queue) (e : Envelope) : e.queue = queue → h.held = some (queue, e) →
      unwritten queue h s = e :: unwritten queue h' s' →
      (∀ other, other ≠ queue → unwritten other h' s' = unwritten other h s) →
      s'.written = s.written ++ [e] → s'.accepted = s.accepted → s'.queuesOpen = s.queuesOpen →
      Flow task h h' s s'
  | dropped : (∀ queue, unwritten queue h' s' <+: unwritten queue h s) → s'.written = s.written →
      s'.accepted = s.accepted → s'.queuesOpen = false → Flow task h h' s s'

variable {h h' : Hand} {s s' : State} {task : Task} {queue : Queue} {e : Envelope}

theorem Flow.same (hheld : h'.held = h.held) (hs : SameTraffic s s') : Flow task h h' s s' := by
  refine .still (fun queue => ?_) hs.written hs.accepted hs.queuesOpen
  rw [unwritten, unwritten, hheld, hs.queue]

theorem Flow.close (task : Task) (h : Hand) (s : State) :
    Flow task h h s (effect task s .closeQueues ()) := by
  refine .dropped (fun queue => ?_) rfl rfl rfl
  have hqueue : (effect task s .closeQueues ()).queue queue = [] := by cases queue <;> rfl
  rw [unwritten, unwritten, hqueue, List.append_nil]
  exact List.prefix_append _ _

/-- A message that is taken stays unwritten. -/
theorem Flow.take (hnone : h.held = none) (hhead : (s.queue queue).head? = some e)
    (he : e.queue = queue) :
    Flow task h { h with held := some (queue, e) } s
      (s.setQueue (s.queue queue).tail queue) := by
  obtain ⟨rest, hrest⟩ := List.head?_eq_some_iff.mp hhead
  refine .still (fun other => ?_) (by cases queue <;> rfl) (by cases queue <;> rfl)
    (by cases queue <;> rfl)
  rw [unwritten, unwritten, queue_setQueue, hnone]
  by_cases hq : other = queue
  · subst hq
    rw [if_pos rfl, hrest]
    simp [he]
  · rw [if_neg hq]
    simp [he, Ne.symm hq]

theorem Flow.write (hheld : h.held = some (queue, e)) (he : e.queue = queue) :
    Flow .write h { h with held := none } s (effect .write s (.send e) .sent) := by
  have hqueue : ∀ other, (effect .write s (.send e) .sent).queue other = s.queue other := by
    intro other
    cases other <;> rfl
  refine .wrote queue e he hheld ?_ (fun other hother => ?_) rfl rfl rfl
  · rw [unwritten, unwritten, hqueue, hheld]
    simp [he]
  · rw [unwritten, unwritten, hqueue, hheld]
    simp [he, Ne.symm hother]

theorem flow_own {a : Access} {answer : a.Answer} (hI : InOrder h s)
    (hadmits : writerGhost.admits h a) (hallowed : allowed s a answer) :
    Flow .write h (writerGhost.next h a answer) s (effect .write s a answer) := by
  by_cases htraffic : Traffic a answer
  · cases htraffic with
    | push queue message => cases hadmits
    | take queue e =>
      have hnext : writerGhost.next h (.recv queue) (.message e)
          = { h with held := some (queue, e) } := by cases queue <;> rfl
      have he : e.queue = queue := hI.queued queue e (List.mem_of_mem_head? hallowed)
      rw [hnext]
      exact .take (held_of_admits hadmits) hallowed he
    | write e =>
      obtain ⟨queue, hheld⟩ := hadmits
      exact .write hheld (hI.held queue e hheld)
    | close => exact .close .write h s
  · exact .same (held_next htraffic) (sameTraffic_effect .write s a answer htraffic)

theorem flow_others {a : Access} {answer : a.Answer} (htask : task ≠ .write)
    (ha : task.access a = true) (hallowed : allowed s a answer) :
    Flow task h h s (effect task s a answer) := by
  by_cases htraffic : Traffic a answer
  · rcases others_traffic htask ha htraffic with ⟨queue, message, heq⟩ | rfl
    · obtain ⟨rfl, hanswer⟩ := Sigma.mk.inj heq
      obtain rfl := eq_of_heq hanswer
      exact .pushed queue message hallowed.1 rfl rfl
    · exact .close task h s
  · exact .same rfl (sameTraffic_effect task s a answer htraffic)

/-- What becomes of the ledgers: nothing, one grows by a message, or they are cut
off with the queues. -/
inductive LedgerStep (task : Task) (h h' : Hand) (s s' : State) : Prop
  | same : (∀ queue, ledger queue h' s' = ledger queue h s) → s'.accepted = s.accepted →
      s'.queuesOpen = s.queuesOpen → LedgerStep task h h' s s'
  | grown (queue : Queue) (message : Message) : s.queuesOpen = true →
      (∀ other, ledger other h' s' = ledger other h s
        ++ if other = queue then [⟨task, queue, s.accepted, message⟩] else []) →
      s'.accepted = s.accepted + 1 → LedgerStep task h h' s s'
  | cut : (∀ queue, ledger queue h' s' <+: ledger queue h s) → s'.accepted = s.accepted →
      s'.queuesOpen = false → LedgerStep task h h' s s'

theorem Flow.ledgers (hflow : Flow task h h' s s') : LedgerStep task h h' s s' := by
  cases hflow with
  | still hunwritten hwritten haccepted hopen =>
    refine .same (fun queue => ?_) haccepted hopen
    rw [ledger_eq, hwritten, hunwritten, ← ledger_eq]
  | pushed queue message hopen hh hs' =>
    subst hh hs'
    exact .grown queue message hopen (fun other => ledger_push ..) (by cases queue <;> rfl)
  | wrote queue e he _ hunwritten hothers hwritten haccepted hopen =>
    refine .same (fun other => ?_) haccepted hopen
    rw [ledger_eq, ledger_eq, hwritten, List.filter_append, List.append_assoc]
    by_cases hq : other = queue
    · subst hq
      simp [hunwritten, he]
    · simp [hothers other hq, he, Ne.symm hq]
  | dropped hunwritten hwritten haccepted hclosed =>
    refine .cut (fun queue => ?_) haccepted hclosed
    rw [ledger_eq, ledger_eq, hwritten]
    exact (List.prefix_append_right_inj _).mpr (hunwritten queue)

/-- The number of accepted messages only grows. -/
theorem LedgerStep.accepted_le (hstep : LedgerStep task h h' s s') : s.accepted ≤ s'.accepted := by
  cases hstep with
  | same _ haccepted | cut _ haccepted => exact haccepted.ge
  | grown _ _ _ _ haccepted => omega

/-- No ledger gains a message but the one that was queued. -/
theorem LedgerStep.mem (hstep : LedgerStep task h h' s s') (he : e ∈ ledger queue h' s') :
    e ∈ ledger queue h s ∨ ∃ message, e = ⟨task, queue, s.accepted, message⟩ := by
  cases hstep with
  | same hledger =>
    rw [hledger] at he
    exact .inl he
  | cut hcut => exact .inl ((hcut queue).subset he)
  | grown other message _ hledger =>
    rw [hledger, List.mem_append] at he
    refine he.imp id fun he => ?_
    split at he
    · rename_i hq
      subst hq
      exact ⟨message, List.mem_singleton.mp he⟩
    · cases he

/-- Nor does one lose a message while the queues are open. -/
theorem LedgerStep.keeps (hstep : LedgerStep task h h' s s') (hopen : s'.queuesOpen = true) :
    s.queuesOpen = true ∧ ledger queue h s ⊆ ledger queue h' s' := by
  cases hstep with
  | same hledger _ hsame =>
    refine ⟨hsame.symm.trans hopen, ?_⟩
    rw [hledger]
    exact List.Subset.refl _
  | grown other message hbefore hledger =>
    refine ⟨hbefore, ?_⟩
    rw [hledger]
    exact List.subset_append_left _ _
  | cut _ _ hclosed =>
    rw [hclosed] at hopen
    cases hopen

/-- Of two messages of a ledger the later one is not left alone. -/
theorem LedgerStep.before (hstep : LedgerStep task h h' s s') (hI : InOrder h s) {f : Envelope}
    (he : e ∈ ledger queue h s) (hlt : e.number < f.number) (hf : f ∈ ledger queue h' s') :
    e ∈ ledger queue h' s' := by
  cases hstep with
  | same hledger =>
    rw [hledger]
    exact he
  | grown other message _ hledger =>
    rw [hledger]
    exact List.mem_append_left _ he
  | cut hcut =>
    obtain ⟨rest, hrest⟩ := hcut queue
    have hordered := hI.ordered queue
    rw [← hrest, List.mem_append] at he
    rw [← hrest, List.pairwise_append] at hordered
    -- otherwise `e` would be in the part that is cut off, behind `f`
    exact he.resolve_right fun he => absurd (hordered.2.2 f hf e he) (by omega)

/-! ### What one call has queued -/

/-- The messages that satisfy `mine` and are written, in hand or waiting are among
`sent`; and those of `sent` are there, in this order, as long as the queues are
open. -/
structure Sent (mine : Envelope → Prop) (sent : List Envelope) (h : Hand) (s : State) : Prop where
  inOrder : InOrder h s
  only : ∀ queue, ∀ e ∈ ledger queue h s, mine e → e ∈ sent
  older : ∀ e ∈ sent, e.number < s.accepted
  kept : s.queuesOpen = true → ∀ e ∈ sent, e ∈ ledger .control h s
  before : ∀ e ∈ sent, ∀ f ∈ sent, e.number < f.number → f ∈ ledger .control h s →
    e ∈ ledger .control h s

variable {mine mine' : Envelope → Prop} {sent : List Envelope}

theorem Sent.mono (hS : Sent mine sent h s) (hmine : ∀ e, mine' e → mine e) : Sent mine' sent h s :=
  ⟨hS.inOrder, fun queue e he ho => hS.only queue e he (hmine e ho), hS.older, hS.kept, hS.before⟩

/-- An access keeps what the call has queued, where it queues no message of the
call. -/
theorem Sent.step (hS : Sent mine sent h s) (hstep : LedgerStep task h h' s s')
    (hI : InOrder h' s') (hother : ∀ queue message, ¬ mine ⟨task, queue, s.accepted, message⟩) :
    Sent mine sent h' s' where
  inOrder := hI
  only queue e he ho := by
    rcases hstep.mem he with hbefore | ⟨message, rfl⟩
    · exact hS.only queue e hbefore ho
    · exact absurd ho (hother queue message)
  older e he := (hS.older e he).trans_le hstep.accepted_le
  kept hopen e he :=
    have hkeeps := hstep.keeps hopen
    hkeeps.2 (hS.kept hkeeps.1 e he)
  before e he f hf hlt hmem := by
    have hbefore : f ∈ ledger .control h s := by
      rcases hstep.mem hmem with hbefore | ⟨message, rfl⟩
      · exact hbefore
      · exact absurd (hS.older _ hf) (lt_irrefl _)
    exact hstep.before hS.inOrder (hS.before e he f hf hlt hbefore) hlt hmem

/-- A message of the call is queued. -/
theorem Sent.push (hS : Sent mine sent h s) (task : Task) (message : Message)
    (hopen : s.queuesOpen = true) :
    Sent mine (sent ++ [⟨task, .control, s.accepted, message⟩]) h
      (s.push task .control message) := by
  have hledger := fun other => ledger_push h s task .control other message
  refine ⟨hS.inOrder.push task .control message, fun queue e he ho => ?_, fun e he => ?_,
    fun _ e he => ?_, fun e he f hf hlt _ => ?_⟩
  · rw [hledger, List.mem_append] at he
    rcases he with he | he
    · exact List.mem_append_left _ (hS.only queue e he ho)
    · split at he
      · exact List.mem_append_right _ he
      · cases he
  · rcases List.mem_append.mp he with he | he
    · exact Nat.lt_succ_of_lt (hS.older e he)
    · rw [List.mem_singleton.mp he]
      exact Nat.lt_succ_self _
  · rw [hledger, if_pos rfl]
    exact List.mem_append.mpr ((List.mem_append.mp he).imp (hS.kept hopen e) id)
  · rw [hledger, if_pos rfl]
    rcases List.mem_append.mp he with he | he
    · exact List.mem_append_left _ (hS.kept hopen e he)
    · exact List.mem_append_right _ he

/-- Between two turns the write task has no control message in hand. -/
theorem unwritten_turn (hnone : ∀ e, h.held ≠ some (.control, e)) (hI : InOrder h s) :
    unwritten .control emptyHand s = unwritten .control h s := by
  rw [unwritten, unwritten, emptyHand]
  cases hheld : h.held with
  | none => rfl
  | some held =>
    obtain ⟨queue, e⟩ := held
    cases queue with
    | control => exact absurd hheld (hnone e)
    | mouse => simp [hI.held .mouse e hheld]

theorem Sent.turn (hS : Sent mine sent h s) (hnone : ∀ e, h.held ≠ some (.control, e)) :
    Sent mine sent emptyHand s := by
  have hledger : ledger .control emptyHand s = ledger .control h s := by
    rw [ledger_eq, ledger_eq, unwritten_turn hnone hS.inOrder]
  refine ⟨hS.inOrder.turn, fun queue e he ho => hS.only queue e ?_ ho, hS.older, ?_, ?_⟩
  · exact (ledger_emptyHand queue h s).subset he
  · rw [hledger]
    exact hS.kept
  · rw [hledger]
    exact hS.before

/-! ### Turns of the write task -/

/-- Whether the write task has looked at the control queue in this turn. -/
def lookGhost : Ghost Access.Answer Bool where
  next
    | _, .recv .control, _ => true
    | looked, _, _ => looked
  admits _ _ := True

/-- The task has looked at its flag, or returned. -/
def HasLooked (looked : Bool) (outcome : Outcome) : Prop :=
  (∃ result, outcome = .returned result) ∨ looked = true

theorem follows_looked (program : Program Outcome) :
    Follows lookGhost HasLooked true program := by
  induction program with
  | ret outcome => exact .inr rfl
  | access a rest ih =>
    refine ⟨trivial, fun answer => ?_⟩
    have hnext : lookGhost.next true a answer = true := by
      cases a with
      | recv queue => cases queue <;> rfl
      | _ => rfl
    rw [hnext]
    exact ih answer

/-- A turn that is not the last looks at the control queue. -/
theorem follows_writeTurn_looked : Follows lookGhost HasLooked false writeTurn := by
  refine ⟨trivial, fun cancelled => ?_⟩
  cases cancelled with
  | true => exact ⟨trivial, fun _ => ⟨trivial, fun _ => .inl ⟨_, rfl⟩⟩⟩
  | false => exact ⟨trivial, fun received => follows_looked _⟩

/-- How many unwritten control messages were accepted no later than message
`number`. -/
def upTo (number : Nat) (h : Hand) (s : State) : Nat :=
  ((unwritten .control h s).filter (fun e => decide (e.number ≤ number))).length

section Due

variable {number k : Nat} {looked : Bool}

theorem upTo_le (hflow : Flow task h h' s s') (hnumber : number < s.accepted) :
    upTo number h' s' ≤ upTo number h s := by
  cases hflow with
  | still hunwritten =>
    rw [upTo, hunwritten]
    exact le_rfl
  | pushed queue message _ hh hs' =>
    subst hh hs'
    rw [upTo, upTo, unwritten, queue_push]
    split
    · rename_i hq
      subst hq
      rw [← List.append_assoc, List.filter_append]
      -- the new message is a later one
      simp [unwritten, Nat.not_le.mpr hnumber]
    · exact le_rfl
  | wrote queue e he _ hunwritten hothers =>
    by_cases hq : Queue.control = queue
    · subst hq
      rw [upTo, upTo, hunwritten]
      exact ((List.sublist_cons_self _ _).filter _).length_le
    · rw [upTo, hothers .control hq]
      exact le_rfl
  | dropped hcut =>
    exact ((hcut .control).sublist.filter _).length_le

/-- Writing the message in hand makes the way shorter. -/
theorem upTo_write (number : Nat) (hI : InOrder h s) (hheld : h.held = some (.control, e)) :
    upTo number { h with held := none } (effect .write s (.send e) .sent) = 0 ∨
      upTo number { h with held := none } (effect .write s (.send e) .sent) + 1
        ≤ upTo number h s := by
  have he : e.queue = .control := hI.held .control e hheld
  have hunwritten : unwritten .control h s
      = e :: unwritten .control { h with held := none } (effect .write s (.send e) .sent) := by
    have hqueue : (effect .write s (.send e) .sent).queue .control = s.queue .control := rfl
    rw [unwritten, unwritten, hqueue, hheld]
    simp [he]
  rw [upTo, upTo, hunwritten]
  by_cases hle : e.number ≤ number
  · refine .inr ?_
    rw [List.filter_cons_of_pos (by simpa using hle), List.length_cons]
  · refine .inl ?_
    -- everything behind `e` was accepted after it
    have hordered := hI.ordered .control
    rw [ledger_eq, hunwritten, List.pairwise_append, List.pairwise_cons] at hordered
    rw [List.length_eq_zero_iff, List.filter_eq_nil_iff]
    intro f hf
    have := hordered.2.1.1 f hf
    simp only [decide_eq_true_eq]
    omega

/-- The message is written, or its turn comes: with `k` turns begun, fewer than
`commands + 2 - k` messages are left up to it. -/
def Due (number k : Nat) (looked : Bool) (h : Hand) (s : State) : Prop :=
  upTo number h s = 0 ∨
    k + upTo number h s ≤ commands + 1 ∧
      (looked = true → (∀ e, h.held ≠ some (.control, e)) → k + upTo number h s ≤ commands)

theorem Due.others (hD : Due number k looked h s) (hflow : Flow task h h s s')
    (hnumber : number < s.accepted) : Due number k looked h s' := by
  have hle := upTo_le hflow hnumber
  rcases hD with hzero | ⟨hbound, hlooked⟩
  · exact .inl (by omega)
  · exact .inr ⟨by omega, fun hl hnone => le_trans (by omega) (hlooked hl hnone)⟩

theorem Due.own {a : Access} {answer : a.Answer} (hD : Due number k looked h s)
    (hI : InOrder h s) (hadmits : writerGhost.admits h a) (hallowed : allowed s a answer)
    (hnumber : number < s.accepted) :
    Due number k (lookGhost.next looked a answer) (writerGhost.next h a answer)
      (effect .write s a answer) := by
  have hle := upTo_le (flow_own hI hadmits hallowed) hnumber
  rcases hD with hzero | ⟨hbound, hlooked⟩
  · exact .inl (by omega)
  cases a with
  | recv queue =>
    -- a message taken from the control queue comes one step nearer
    cases queue with
    | control =>
      have hnone : h.held = none := hadmits
      have hempty : s.controlQueue = [] → upTo number h s = 0 := by
        intro hqueue
        rw [upTo, unwritten, hnone, State.queue, hqueue]
        rfl
      cases answer with
      | message e => exact .inr ⟨by omega, fun _ hnone => absurd rfl (hnone e)⟩
      | empty | closed => exact .inl (by have := hempty hallowed; omega)
    | mouse =>
      refine .inr ⟨by omega, fun hl _ => le_trans (by omega) (hlooked hl ?_)⟩
      intro e he
      rw [hadmits.1] at he
      cases he
  | send e =>
    obtain ⟨queue, hheld⟩ := hadmits
    cases answer with
    | sent =>
      cases queue with
      | control =>
        show Due number k looked { h with held := none } (effect .write s (.send e) .sent)
        rcases upTo_write number hI hheld with hzero | hless
        · exact .inl hzero
        · exact .inr ⟨by omega, fun _ _ => by omega⟩
      | mouse =>
        refine .inr ⟨by omega, fun hl _ => le_trans (by omega) (hlooked hl ?_)⟩
        intro f hf
        rw [hheld] at hf
        cases hf
    | failed | dropped =>
      exact .inr ⟨by omega, fun hl hnone => le_trans (by omega) (hlooked hl hnone)⟩
  | _ => exact .inr ⟨by omega, fun hl hnone => le_trans (by omega) (hlooked hl hnone)⟩

/-- A turn begins when the last one has looked at the queue and written what it
took. -/
theorem Due.turn (hD : Due number k looked h s) (hI : InOrder h s)
    (hnone : ∀ e, h.held ≠ some (.control, e)) (hlooked : looked = true) :
    Due number (1 + k) false emptyHand s := by
  have hsame : upTo number emptyHand s = upTo number h s := by
    rw [upTo, upTo, unwritten_turn hnone hI]
  rcases hD with hzero | ⟨-, hbound⟩
  · exact .inl (hsame.trans hzero)
  · have := hbound hlooked hnone
    exact .inr ⟨by omega, fun h => nomatch h⟩

end Due

section After

variable {mine : Envelope → Prop} {sent : List Envelope} {last k : Nat}

/-- What a task knows, with whether it has looked. -/
def afterGhost (task : Task) : Ghost Access.Answer (Hand × Bool) :=
  (ghost task).prod (if task = .write then lookGhost else Ghost.idle)

def AfterResult (task : Task) (g : Hand × Bool) (outcome : Outcome) : Prop :=
  Result task g.1 outcome ∧ (task = .write → HasLooked g.2 outcome)

/-- What the call has queued stays as it is, and comes nearer to the wire with
every turn of the write task; `last` messages had been accepted when the call
returned. -/
def AfterCall (mine : Envelope → Prop) (sent : List Envelope) (last k : Nat)
    (g : Task → Hand × Bool) (s : State) : Prop :=
  last ≤ s.accepted ∧ Sent mine sent (g .write).1 s ∧
    ∀ number < last, Due number k (g .write).2 (g .write).1 s

theorem counted_after (setup : Setup) (sent : List Envelope)
    (hmine : ∀ e, mine e → e.number < last) :
    TurnCounted (engine setup) (fun _ _ => True) afterGhost AfterResult .write
      (AfterCall mine sent last) where
  access := by
    rintro c g task a rest answer s' k - - - ⟨hlast, hS, hD⟩ hadmits ⟨hallowed, rfl⟩
    -- what is queued from now on was accepted after the call
    have hother : ∀ queue message, ¬ mine ⟨task, queue, c.shared.accepted, message⟩ := by
      intro queue message h
      have := hmine _ h
      dsimp only at this
      omega
    by_cases hwrite : task = .write
    · subst hwrite
      have hflow := flow_own hS.inOrder hadmits.1 hallowed
      have hI := hS.inOrder.own hadmits.1 hallowed
      rw [AfterCall, Function.update_self]
      refine ⟨hlast.trans hflow.ledgers.accepted_le, hS.step hflow.ledgers hI hother, ?_⟩
      intro number hnumber
      exact (hD number hnumber).own hS.inOrder hadmits.1 hallowed (by omega)
    · have hwithin := access_of_admits hwrite hadmits.1
      have hflow := flow_others (h := (g .write).1) hwrite hwithin hallowed
      have hI : InOrder (g .write).1 (effect task c.shared a answer) :=
        hS.inOrder.others hwrite hwithin
      rw [AfterCall, Function.update_of_ne (Ne.symm hwrite)]
      refine ⟨hlast.trans hflow.ledgers.accepted_le, hS.step hflow.ledgers hI hother, ?_⟩
      intro number hnumber
      exact (hD number hnumber).others hflow (by omega)
  start := by
    rintro c g task outcome program k - ⟨hlast, hS, hD⟩ hresult hstart
    obtain ⟨hand, hprogram, hhand⟩ := follows_start hresult.1 hstart
    rcases hhand with ⟨rfl, rfl, hnone⟩ | ⟨hwrite, rfl⟩
    · have hlooked : (g .write).2 = true := by
        rcases hresult.2 rfl with ⟨result, rfl⟩ | hlooked
        · cases hstart
        · exact hlooked
      refine ⟨(emptyHand, false), ?_, ?_⟩
      · have hlooks : Follows lookGhost HasLooked false program := by
          cases hstart with
          | spawnWrite | write => exact follows_writeTurn_looked
        exact (hprogram.prod hlooks).mono fun g result h => ⟨h.1, fun _ => h.2⟩
      · rw [AfterCall, Function.update_self, if_pos rfl]
        exact ⟨hlast, hS.turn hnone, fun number hnumber =>
          (hD number hnumber).turn hS.inOrder hnone hlooked⟩
    · refine ⟨g task, ?_, ?_⟩
      · rw [afterGhost, if_neg hwrite]
        exact (hprogram.prod (follows_idle _ _)).mono fun g result h =>
          ⟨h.1, fun h => absurd h hwrite⟩
      · rw [Function.update_eq_self, if_neg hwrite, Nat.zero_add]
        exact ⟨hlast, hS, hD⟩

end After

/-! ### In every run -/

/-- The control queue holds no more than it has room for. -/
theorem control_le {setup : Setup} {c : Config Access.Answer Outcome State Task}
    {ls : List (Label Access.Answer Task)}
    (hrun : Run (Step (engine setup)) (initial setup) ls c) :
    c.shared.controlQueue.length ≤ commands := by
  refine hrun.invariant (I := fun c => c.shared.controlQueue.length ≤ commands) ?_
    (Nat.zero_le _)
  intro c l d hle hstep
  cases hstep with
  | start => exact hle
  | @access task a rest answer s' hi hperform =>
    obtain ⟨hallowed, rfl⟩ := hperform
    show ((effect task c.shared a answer).queue .control).length ≤ commands
    rcases queue_effect task c.shared a answer .control with
      hsame | hnil | ⟨message, heq, hpush⟩ | ⟨e, -, htail⟩
    · rw [hsame]
      exact hle
    · rw [hnil]
      exact Nat.zero_le _
    · obtain ⟨rfl, hanswer⟩ := Sigma.mk.inj heq
      obtain rfl := eq_of_heq hanswer
      rw [hpush, List.length_append]
      exact hallowed.2
    · rw [htail, List.length_tail]
      exact (Nat.sub_le _ _).trans hle

/-! ### Written in their order -/

section Written

variable {mine : Envelope → Prop} {sent : List Envelope} {last : Nat}

/-- Two messages of an ordered list stand in it in their order. -/
theorem pair_sublist {l : List Envelope} (hordered : l.Pairwise (fun e f => e.number < f.number))
    {e f : Envelope} (he : e ∈ l) (hf : f ∈ l) (hlt : e.number < f.number) : [e, f].Sublist l := by
  obtain ⟨pre, post, rfl⟩ := List.append_of_mem he
  rw [List.pairwise_append] at hordered
  rcases List.mem_append.mp hf with hf | hf
  · exact absurd (hordered.2.2 f hf e List.mem_cons_self) (by omega)
  · rcases List.mem_cons.mp hf with rfl | hf
    · omega
    · exact ((List.singleton_sublist.mpr hf).cons_cons e).trans (List.sublist_append_right _ _)

/-- What is written is in its ledger. -/
theorem mem_written (he : e.queue = queue) :
    e ∈ s.written.filter (fun e => decide (e.queue = queue)) ↔ e ∈ s.written := by
  rw [List.mem_filter]
  exact and_iff_left (by simpa using he)

/-- No message of a call is written before those it queued earlier. -/
theorem Sent.in_order (hS : Sent mine sent h s) {f : Envelope} (he : e ∈ sent) (hf : f ∈ sent)
    (hqueue : f.queue = .control) (hlt : e.number < f.number) (hwritten : f ∈ s.written) :
    [e, f].Sublist s.written := by
  have hordered := hS.inOrder.ordered .control
  rw [ledger_eq, List.pairwise_append] at hordered
  have hf' := (mem_written hqueue).mpr hwritten
  have hledger : f ∈ ledger .control h s := by
    rw [ledger_eq]
    exact List.mem_append_left _ hf'
  -- the earlier one cannot be waiting behind what is written
  have he' := hS.before e he f hf hlt hledger
  rw [ledger_eq, List.mem_append] at he'
  have he' := he'.resolve_right fun he' => absurd (hordered.2.2 f hf' e he') (by omega)
  exact (pair_sublist hordered.1 he' hf' hlt).trans List.filter_sublist

/-- After a queue's length of turns and two more, what the call has queued is
written. -/
theorem AfterCall.written {g : Task → Hand × Bool} {k : Nat} (hA : AfterCall mine sent last k g s)
    (hopen : s.queuesOpen = true) (hturns : commands + 1 < k) (he : e ∈ sent)
    (hqueue : e.queue = .control) (hlast : e.number < last) : e ∈ s.written := by
  obtain ⟨-, hS, hD⟩ := hA
  have hzero : upTo e.number (g .write).1 s = 0 := by
    rcases hD e.number hlast with hzero | ⟨hbound, -⟩
    · exact hzero
    · omega
  rw [upTo, List.length_eq_zero_iff, List.filter_eq_nil_iff] at hzero
  have hledger := hS.kept hopen e he
  rw [ledger_eq, List.mem_append] at hledger
  refine (mem_written hqueue).mp (hledger.resolve_right fun hwaits => ?_)
  exact hzero e hwaits (by simp)

/-- What is written of a call is among what it has queued. -/
theorem Sent.of_written (hS : Sent mine sent h s) (he : e ∈ s.written) (hmine : mine e) :
    e ∈ sent := by
  refine hS.only e.queue e ?_ hmine
  rw [ledger_eq]
  exact List.mem_append_left _ ((mem_written rfl).mpr he)

end Written

end Viewer

end RdEngine
