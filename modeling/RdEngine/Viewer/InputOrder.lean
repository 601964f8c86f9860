/-
RdEngine/Viewer/InputOrder.lean

In which order accepted input reaches the wire.

Keys and text go through the control queue, the mouse through its own, and the
write task takes what the control queue holds before it looks at the mouse's.
Messages of one queue are therefore written in the order they were accepted in,
and a control message that waits when the write task begins a turn is written
before every mouse message it takes from then on (`input_ordered`).  Between the
two queues there is no other order (`input_disordered`, `key_overtaken`).
-/
import RdEngine.Viewer.Footprint
import RdEngine.Viewer.Progress

namespace RdEngine

namespace Viewer

open Lts Threads

/-! ### What the write task holds -/

/-- The message the write task has taken and not written, with the queue it came
from, and whether it has found the control queue empty in this turn. -/
structure Hand where
  held : Option (Queue × Envelope)
  polled : Bool

/-- The write task holds nothing. -/
def emptyHand : Hand := ⟨none, false⟩

/-- What the write task holds, and what it may do then. -/
def writerGhost : Ghost Access.Answer Hand where
  next
    | h, .recv queue, .message e => { h with held := some (queue, e) }
    | h, .recv .control, .empty => { h with polled := true }
    | h, .send _, .sent => { h with held := none }
    | h, _, _ => h
  admits
    | h, .recv .control => h.held = none
    | h, .recv .mouse => h.held = none ∧ h.polled = true
    | h, .send e => ∃ queue, h.held = some (queue, e)
    | _, a => writeAccess a = true

/-- The other threads stay within their footprints. -/
def ghost : Task → Ghost Access.Answer Hand
  | .write => writerGhost
  | task => ⟨fun h _ _ => h, fun _ a => task.access a = true⟩

theorem access_of_admits {task : Task} {h : Hand} {a : Access} (htask : task ≠ .write)
    (hadmits : (ghost task).admits h a) : task.access a = true := by
  cases task with
  | write => exact absurd rfl htask
  | run | receive | feed | caller => exact hadmits

/-- The write task goes on only when no control message was left unwritten. -/
def LeavesNone (h : Hand) (outcome : Outcome) : Prop :=
  (∃ result, outcome = .returned result) ∨ ∀ e, h.held ≠ some (.control, e)

def Result : Task → Hand → Outcome → Prop
  | .write => LeavesNone
  | _ => fun _ _ => True

theorem follows_exitWrite (h : Hand) (result : Except ViewerError Unit) :
    Follows writerGhost LeavesNone h (exitWrite result) :=
  ⟨rfl, fun _ => ⟨rfl, fun _ => .inl ⟨result, rfl⟩⟩⟩

/-- What was taken is written, or the task ends with it in hand. -/
theorem follows_deliver {h : Hand} {queue : Queue} {e : Envelope}
    (hheld : h.held = some (queue, e)) : Follows writerGhost LeavesNone h (deliver e) := by
  refine ⟨rfl, fun cancelled => ?_⟩
  dsimp only [Prog.bind]
  split
  · exact follows_exitWrite _ _
  · refine ⟨⟨queue, hheld⟩, fun answer => ?_⟩
    cases answer with
    | sent => exact .inr fun e' => by simp [writerGhost]
    | failed => exact follows_exitWrite _ _
    | dropped => exact follows_exitWrite _ _

theorem follows_writeTurn : Follows writerGhost LeavesNone emptyHand writeTurn := by
  refine ⟨rfl, fun cancelled => ?_⟩
  dsimp only [Prog.bind]
  split
  · exact follows_exitWrite _ _
  · refine ⟨rfl, fun received => ?_⟩
    cases received with
    | closed => exact follows_exitWrite _ _
    | message e => exact follows_deliver rfl
    | empty =>
      refine ⟨⟨rfl, rfl⟩, fun received => ?_⟩
      cases received with
      | closed => exact follows_exitWrite _ _
      | empty => exact .inr fun e => by simp [writerGhost, emptyHand]
      | message e =>
        refine ⟨rfl, fun authenticated => ?_⟩
        cases authenticated with
        | false => exact .inr fun e' => by simp [writerGhost, emptyHand]
        | true =>
          refine ⟨rfl, fun allowed => ?_⟩
          cases allowed with
          | false => exact .inr fun e' => by simp [writerGhost, emptyHand]
          | true => exact follows_deliver rfl

/-- A turn of the write task begins with an empty hand, where no control message
is lost; the other threads have none. -/
theorem follows_start {setup : Setup} {s : State} {task : Task} {outcome : Outcome}
    {program : Program Outcome} {h : Hand} (hresult : Result task h outcome)
    (hstart : Start setup s task outcome program) :
    ∃ h', Follows (ghost task) (Result task) h' program ∧
      (task = .write ∧ h' = emptyHand ∧ (∀ e, h.held ≠ some (.control, e)) ∨
        task ≠ .write ∧ h' = h) := by
  by_cases htask : task = .write
  · subst htask
    have hnone : ∀ e, h.held ≠ some (.control, e) := by
      rcases hresult with ⟨result, rfl⟩ | hnone
      · cases hstart
      · exact hnone
    refine ⟨emptyHand, ?_, .inl ⟨rfl, rfl, hnone⟩⟩
    cases hstart with
    | spawnWrite | write => exact follows_writeTurn
  · refine ⟨h, ?_, .inr ⟨htask, rfl⟩⟩
    have hwithin := start_within hstart
    cases task with
    | write => exact absurd rfl htask
    | run | receive | feed | caller =>
      exact hwithin.follows (fun a ha => ha) (fun a answer ha => rfl) fun _ => trivial

/-- A property of the hand and the state that every access keeps, the write
task's under its hand and the others' within their footprints. -/
theorem tracked_write {setup : Setup} {I : Hand → State → Prop}
    (own : ∀ {h s a answer}, I h s → writerGhost.admits h a → allowed s a answer →
      I (writerGhost.next h a answer) (effect .write s a answer))
    (others : ∀ {h s task a answer}, task ≠ Task.write → I h s → task.access a = true →
      allowed s a answer → I h (effect task s a answer))
    (turn : ∀ {h s}, I h s → (∀ e, h.held ≠ some (.control, e)) → I emptyHand s) :
    Tracked (engine setup) (fun _ _ => True) ghost Result (fun g s => I (g .write) s) where
  access := by
    rintro c g task a rest answer s' - - - hI hadmits ⟨hallowed, rfl⟩
    by_cases htask : task = .write
    · subst htask
      rw [Function.update_self]
      exact own hI hadmits hallowed
    · rw [Function.update_of_ne (Ne.symm htask)]
      exact others htask hI (access_of_admits htask hadmits) hallowed
  start := by
    intro g s task outcome program hI hresult hstart
    obtain ⟨h', hfollows, hhand⟩ := follows_start hresult hstart
    refine ⟨h', hfollows, ?_⟩
    rcases hhand with ⟨rfl, rfl, hnone⟩ | ⟨htask, rfl⟩
    · rw [Function.update_self]
      exact turn hI hnone
    · rw [Function.update_eq_self]
      exact hI

/-! ### Messages of one queue -/

/-- What was accepted for a queue and not dropped: written, in hand, waiting. -/
def ledger (queue : Queue) (h : Hand) (s : State) : List Envelope :=
  (s.written ++ (h.held.map (·.2)).toList).filter (fun e => decide (e.queue = queue))
    ++ s.queue queue

/-- Each ledger is in the order of acceptance, and a message is where it belongs. -/
structure InOrder (h : Hand) (s : State) : Prop where
  ordered : ∀ queue, (ledger queue h s).Pairwise (fun e f => e.number < f.number)
  accepted : ∀ queue, ∀ e ∈ ledger queue h s, e.number < s.accepted
  queued : ∀ queue, ∀ e ∈ s.queue queue, e.queue = queue
  held : ∀ queue e, h.held = some (queue, e) → e.queue = queue

/-- A ledger may lose messages. -/
theorem InOrder.sublist {h h' : Hand} {s s' : State} (hI : InOrder h s)
    (hledger : ∀ queue, (ledger queue h' s').Sublist (ledger queue h s))
    (haccepted : s'.accepted = s.accepted) (hqueue : ∀ queue, s'.queue queue ⊆ s.queue queue)
    (hheld : ∀ queue e, h'.held = some (queue, e) → e.queue = queue) : InOrder h' s' where
  ordered queue := (hI.ordered queue).sublist (hledger queue)
  accepted queue e he := by
    rw [haccepted]
    exact hI.accepted queue e ((hledger queue).subset he)
  queued queue e he := hI.queued queue e (hqueue queue he)
  held := hheld

theorem InOrder.same {h h' : Hand} {s s' : State} (hI : InOrder h s) (hh : h'.held = h.held)
    (hs : SameTraffic s s') : InOrder h' s' := by
  refine hI.sublist (fun queue => ?_) hs.accepted (fun queue => ?_) fun queue e he => ?_
  · rw [ledger, ledger, hh, hs.written, hs.queue]
  · rw [hs.queue]
    exact List.Subset.refl _
  · exact hI.held queue e (hh ▸ he)

/-- A queued message ends its own ledger and is no other's. -/
theorem ledger_push (h : Hand) (s : State) (task : Task) (queue other : Queue)
    (message : Message) : ledger other h (s.push task queue message)
      = ledger other h s ++ if other = queue then [⟨task, queue, s.accepted, message⟩] else [] := by
  have hwritten : (s.push task queue message).written = s.written := by cases queue <;> rfl
  rw [ledger, ledger, hwritten, queue_push]
  by_cases hq : other = queue
  · rw [if_pos hq, if_pos hq, hq, List.append_assoc]
  · rw [if_neg hq, if_neg hq, List.append_nil]

theorem InOrder.push {h : Hand} {s : State} (hI : InOrder h s) (task : Task) (queue : Queue)
    (message : Message) : InOrder h (s.push task queue message) := by
  have haccepted : (s.push task queue message).accepted = s.accepted + 1 := by cases queue <;> rfl
  have hledger := fun other => ledger_push h s task queue other message
  refine ⟨fun other => ?_, fun other e he => ?_, fun other e he => ?_, hI.held⟩
  · rw [hledger, List.pairwise_append]
    refine ⟨hI.ordered other, by split <;> simp, fun e he f hf => ?_⟩
    have := hI.accepted other e he
    split at hf
    · rw [List.mem_singleton] at hf
      rw [hf]
      exact this
    · cases hf
  · rw [haccepted]
    rw [hledger, List.mem_append] at he
    rcases he with he | he
    · exact Nat.lt_succ_of_lt (hI.accepted other e he)
    · split at he
      · rw [List.mem_singleton] at he
        rw [he]
        exact Nat.lt_succ_self _
      · cases he
  · rw [queue_push] at he
    split at he
    · rename_i hq
      rw [List.mem_append, List.mem_singleton] at he
      rcases he with he | rfl
      · rw [hq]
        exact hI.queued queue e he
      · exact hq.symm
    · exact hI.queued other e he

theorem InOrder.close {h : Hand} {s : State} (hI : InOrder h s) (task : Task) :
    InOrder h (effect task s .closeQueues ()) := by
  have hqueue : ∀ queue, (effect task s .closeQueues ()).queue queue = [] := by
    intro queue
    cases queue <;> rfl
  refine hI.sublist (fun queue => ?_) rfl (fun queue => ?_) hI.held
  · rw [ledger, hqueue, List.append_nil]
    exact List.sublist_append_left _ _
  · rw [hqueue]
    exact List.nil_subset _

/-- Taking a message moves it from its queue to the hand. -/
theorem InOrder.take {h : Hand} {s : State} {queue : Queue} {e : Envelope} (hI : InOrder h s)
    (hnone : h.held = none) (hhead : (s.queue queue).head? = some e) :
    InOrder { h with held := some (queue, e) } (s.setQueue (s.queue queue).tail queue) := by
  obtain ⟨rest, hrest⟩ : ∃ rest, s.queue queue = e :: rest := by
    cases hqueue : s.queue queue with
    | nil =>
      rw [hqueue] at hhead
      cases hhead
    | cons f rest =>
      rw [hqueue] at hhead
      cases hhead
      exact ⟨rest, rfl⟩
  have he : e.queue = queue := hI.queued queue e (by rw [hrest]; exact List.mem_cons_self)
  have hwritten : (s.setQueue (s.queue queue).tail queue).written = s.written := by
    cases queue <;> rfl
  have haccepted : (s.setQueue (s.queue queue).tail queue).accepted = s.accepted := by
    cases queue <;> rfl
  refine hI.sublist (fun other => ?_) haccepted (fun other => ?_) fun q f hf => ?_
  · rw [ledger, ledger, hwritten, queue_setQueue, hnone]
    by_cases hq : other = queue
    · subst hq
      rw [if_pos rfl, hrest]
      simp [he]
    · rw [if_neg hq]
      simp [he, Ne.symm hq]
  · rw [queue_setQueue]
    split
    · rename_i hq
      rw [hq]
      exact fun _ => List.mem_of_mem_tail
    · exact List.Subset.refl _
  · cases hf
    exact he

/-- Writing the message in hand moves it to the wire. -/
theorem InOrder.write {h : Hand} {s : State} {queue : Queue} {e : Envelope} (hI : InOrder h s)
    (hheld : h.held = some (queue, e)) :
    InOrder { h with held := none } (effect .write s (.send e) .sent) := by
  refine hI.sublist (fun other => ?_) rfl (fun _ => List.Subset.refl _) fun _ _ hf => nomatch hf
  have hledger : ledger other { h with held := none } (effect .write s (.send e) .sent)
      = ledger other h s := by
    have hqueue : (effect .write s (.send e) .sent).queue other = s.queue other := by
      cases other <;> rfl
    have hwritten : (effect .write s (.send e) .sent).written = s.written ++ [e] := rfl
    rw [ledger, ledger, hqueue, hwritten, hheld]
    simp
  rw [hledger]

theorem held_next {h : Hand} {a : Access} {answer : a.Answer} (hsame : ¬ Traffic a answer) :
    (writerGhost.next h a answer).held = h.held := by
  cases a with
  | recv queue =>
    match queue, answer, hsame with
    | queue, .message e, hsame => exact absurd (Traffic.take queue e) hsame
    | .control, .empty, _ | .mouse, .empty, _ | .control, .closed, _ | .mouse, .closed, _ => rfl
  | send e =>
    match answer, hsame with
    | .sent, hsame => exact absurd (Traffic.write e) hsame
    | .failed, _ | .dropped, _ => rfl
  | _ => rfl

/-- Nothing is in the write task's hand while it looks at a queue. -/
theorem held_of_admits {h : Hand} {queue : Queue} (hadmits : writerGhost.admits h (.recv queue)) :
    h.held = none := by
  cases queue with
  | control => exact hadmits
  | mouse => exact hadmits.1

theorem InOrder.own {h : Hand} {s : State} {a : Access} {answer : a.Answer} (hI : InOrder h s)
    (hadmits : writerGhost.admits h a) (hallowed : allowed s a answer) :
    InOrder (writerGhost.next h a answer) (effect .write s a answer) := by
  by_cases htraffic : Traffic a answer
  · cases htraffic with
    | push queue message => cases hadmits
    | take queue e =>
      have hnext : writerGhost.next h (.recv queue) (.message e)
          = { h with held := some (queue, e) } := by cases queue <;> rfl
      rw [hnext]
      exact hI.take (held_of_admits hadmits) hallowed
    | write e =>
      obtain ⟨queue, hheld⟩ := hadmits
      exact hI.write hheld
    | close => exact hI.close .write
  · exact hI.same (held_next htraffic) (sameTraffic_effect .write s a answer htraffic)

/-- The other threads neither take nor write messages. -/
theorem others_traffic {task : Task} {a : Access} {answer : a.Answer} (htask : task ≠ .write)
    (ha : task.access a = true) (h : Traffic a answer) :
    (∃ queue message, (⟨a, answer⟩ : Σ a : Access, a.Answer) = ⟨.trySend queue message, .ok ()⟩) ∨
      a = .closeQueues := by
  cases h with
  | push queue message => exact .inl ⟨queue, message, rfl⟩
  | take | write => cases task <;> first | exact absurd rfl htask | cases ha
  | close => exact .inr rfl

theorem InOrder.others {h : Hand} {s : State} {task : Task} {a : Access} {answer : a.Answer}
    (htask : task ≠ .write) (hI : InOrder h s) (ha : task.access a = true) :
    InOrder h (effect task s a answer) := by
  by_cases htraffic : Traffic a answer
  · rcases others_traffic htask ha htraffic with ⟨queue, message, heq⟩ | rfl
    · obtain ⟨rfl, hanswer⟩ := Sigma.mk.inj heq
      obtain rfl := eq_of_heq hanswer
      exact hI.push task queue message
    · exact hI.close task
  · exact hI.same rfl (sameTraffic_effect task s a answer htraffic)

/-- A message that is not written is lost to its ledger. -/
theorem ledger_emptyHand (queue : Queue) (h : Hand) (s : State) :
    (ledger queue emptyHand s).Sublist (ledger queue h s) := by
  refine List.Sublist.append_right (List.Sublist.filter _ ?_) _
  show (s.written ++ []).Sublist _
  rw [List.append_nil]
  exact List.sublist_append_left _ _

theorem InOrder.turn {h : Hand} {s : State} (hI : InOrder h s) : InOrder emptyHand s :=
  hI.sublist (fun queue => ledger_emptyHand queue h s) rfl (fun _ => List.Subset.refl _)
    fun _ _ hf => nomatch hf

/-! ### Across the two queues -/

/-- Before every mouse message of the list comes `e`. -/
def Precedes (e : Envelope) (messages : List Envelope) : Prop :=
  ∀ pre m post, messages = pre ++ m :: post → m.queue = .mouse → e ∈ pre

theorem Precedes.snoc {e m : Envelope} {messages : List Envelope} (h : Precedes e messages)
    (hm : e ∈ messages ∨ m.queue ≠ .mouse) : Precedes e (messages ++ [m]) := by
  intro pre x post heq hx
  rcases List.eq_nil_or_concat post with rfl | ⟨post', y, rfl⟩
  · obtain ⟨rfl, hlast⟩ := List.append_inj' heq rfl
    cases hlast
    exact hm.resolve_right fun hne => hne hx
  · rw [List.concat_eq_append, ← List.cons_append, ← List.append_assoc] at heq
    exact h pre x post' (List.append_inj' heq rfl).1 hx

/-- A control message that is not written yet, or never will be. -/
inductive Pending (e : Envelope) (h : Hand) (s : State) : Prop
  | queued : e ∈ s.controlQueue → h.polled = false → Pending e h s
  | held : h.held = some (.control, e) → Pending e h s
  | dropped : s.mouseQueue = [] → s.queuesOpen = false → Pending e h s

/-- While the control message `e` is pending the write task does not take a mouse
message; `before` was on the wire when `e` was already waiting. -/
def Behind (before : List Envelope) (e : Envelope) (h : Hand) (s : State) : Prop :=
  ∃ new, s.written = before ++ new ∧ Precedes e new ∧
    (e ∈ new ∨ Pending e h s ∧ ∀ m, h.held ≠ some (.mouse, m))

section Behind

variable {before : List Envelope} {e : Envelope} {h : Hand} {s : State}

/-- What happens to a pending message while nothing is written. -/
theorem Behind.keep (hB : Behind before e h s) {h' : Hand} {s' : State}
    (hwritten : s'.written = s.written)
    (hpending : Pending e h s → (∀ m, h.held ≠ some (.mouse, m)) →
      Pending e h' s' ∧ ∀ m, h'.held ≠ some (.mouse, m)) : Behind before e h' s' := by
  obtain ⟨new, hnew, hprecedes, hwhere⟩ := hB
  refine ⟨new, hwritten.trans hnew, hprecedes, ?_⟩
  rcases hwhere with hmem | ⟨hpend, hhand⟩
  · exact .inl hmem
  · exact .inr (hpending hpend hhand)

theorem Behind.close (hB : Behind before e h s) (task : Task) :
    Behind before e h (effect task s .closeQueues ()) :=
  hB.keep rfl fun _ hhand => ⟨.dropped rfl rfl, hhand⟩

theorem Behind.same (hB : Behind before e h s) {h' : Hand} {s' : State} (hs : SameTraffic s s')
    (hheld : h'.held = h.held) (hpolled : h'.polled = h.polled ∨ s.controlQueue = []) :
    Behind before e h' s' := by
  have hcontrol : s'.controlQueue = s.controlQueue := hs.queue .control
  have hmouse : s'.mouseQueue = s.mouseQueue := hs.queue .mouse
  refine hB.keep hs.written fun hpend hhand => ⟨?_, fun m => hheld ▸ hhand m⟩
  rcases hpend with ⟨hmem, hp⟩ | hh | ⟨hempty, hclosed⟩
  · rcases hpolled with hpolled | hnil
    · exact .queued (hcontrol ▸ hmem) (hpolled.trans hp)
    · rw [hnil] at hmem
      cases hmem
  · exact .held (hheld.trans hh)
  · exact .dropped (hmouse.trans hempty) (hs.queuesOpen.trans hclosed)

theorem Behind.push (hB : Behind before e h s) (task : Task) (queue : Queue) (message : Message)
    (hopen : s.queuesOpen = true) : Behind before e h (s.push task queue message) := by
  have hcontrol : s.controlQueue ⊆ (s.push task queue message).controlQueue := by
    cases queue with
    | control => exact List.subset_append_left _ _
    | mouse => exact List.Subset.refl _
  refine hB.keep (by cases queue <;> rfl) fun hpend hhand => ⟨?_, hhand⟩
  rcases hpend with ⟨hmem, hp⟩ | hh | ⟨-, hclosed⟩
  · exact .queued (hcontrol hmem) hp
  · exact .held hh
  · rw [hopen] at hclosed
    cases hclosed

/-- The queue of the mouse is looked at only after the control queue was empty. -/
theorem Behind.take (hB : Behind before e h s) {queue : Queue} {m : Envelope}
    (hadmits : writerGhost.admits h (.recv queue)) (hhead : (s.queue queue).head? = some m) :
    Behind before e { h with held := some (queue, m) }
      (s.setQueue (s.queue queue).tail queue) := by
  refine hB.keep (by cases queue <;> rfl) fun hpend _ => ?_
  cases queue with
  | control =>
    refine ⟨?_, fun _ hf => nomatch hf⟩
    rcases hpend with ⟨hmem, hp⟩ | hh | ⟨hempty, hclosed⟩
    · obtain ⟨rest, hrest⟩ := List.head?_eq_some_iff.mp hhead
      have hrest : s.controlQueue = m :: rest := hrest
      rw [hrest, List.mem_cons] at hmem
      rcases hmem with rfl | hmem
      · exact .held rfl
      · refine .queued ?_ hp
        show e ∈ s.controlQueue.tail
        rw [hrest]
        exact hmem
    · rw [held_of_admits hadmits] at hh
      cases hh
    · exact .dropped hempty hclosed
  | mouse =>
    exfalso
    rcases hpend with ⟨-, hp⟩ | hh | ⟨hempty, -⟩
    · rw [hadmits.2] at hp
      cases hp
    · rw [hadmits.1] at hh
      cases hh
    · rw [State.queue, hempty] at hhead
      cases hhead

theorem Behind.write (hB : Behind before e h s) {queue : Queue} {m : Envelope}
    (hheld : h.held = some (queue, m)) (hm : m.queue = queue) :
    Behind before e { h with held := none } (effect .write s (.send m) .sent) := by
  obtain ⟨new, hnew, hprecedes, hwhere⟩ := hB
  have hwritten : (effect .write s (.send m) .sent).written = before ++ (new ++ [m]) := by
    show s.written ++ [m] = _
    rw [hnew, List.append_assoc]
  have hlast : e ∈ new ∨ m.queue ≠ .mouse := by
    rcases hwhere with hmem | ⟨-, hhand⟩
    · exact .inl hmem
    · refine .inr fun hmouse => hhand m ?_
      rw [hheld, ← hm, hmouse]
  refine ⟨new ++ [m], hwritten, hprecedes.snoc hlast, ?_⟩
  rcases hwhere with hmem | ⟨hpend, -⟩
  · exact .inl (List.mem_append_left _ hmem)
  · rcases hpend with ⟨hmem, hp⟩ | hh | ⟨hempty, hclosed⟩
    · exact .inr ⟨.queued hmem hp, fun _ hf => nomatch hf⟩
    · rw [hheld] at hh
      cases hh
      exact .inl (List.mem_append_right _ List.mem_cons_self)
    · exact .inr ⟨.dropped hempty hclosed, fun _ hf => nomatch hf⟩

/-- A turn begins with nothing in hand and the control queue to be looked at. -/
theorem Behind.turn (hB : Behind before e h s) (hnone : ∀ e, h.held ≠ some (.control, e)) :
    Behind before e emptyHand s := by
  refine hB.keep rfl fun hpend _ => ⟨?_, fun _ hf => nomatch hf⟩
  rcases hpend with ⟨hmem, -⟩ | hh | ⟨hempty, hclosed⟩
  · exact .queued hmem rfl
  · exact absurd hh (hnone e)
  · exact .dropped hempty hclosed

end Behind

theorem polled_next {h : Hand} {s : State} {a : Access} {answer : a.Answer}
    (hallowed : allowed s a answer) :
    (writerGhost.next h a answer).polled = h.polled ∨ s.controlQueue = [] := by
  cases a with
  | recv queue =>
    match queue, answer, hallowed with
    | .control, .empty, hempty => exact .inr hempty
    | .control, .message e, _ | .mouse, .message e, _ => exact .inl rfl
    | .mouse, .empty, _ | .control, .closed, _ | .mouse, .closed, _ => exact .inl rfl
  | send e => cases answer <;> exact .inl rfl
  | _ => exact .inl rfl

theorem Behind.own {before : List Envelope} {e : Envelope} {h : Hand} {s : State} {a : Access}
    {answer : a.Answer} (hB : Behind before e h s) (hI : InOrder h s)
    (hadmits : writerGhost.admits h a) (hallowed : allowed s a answer) :
    Behind before e (writerGhost.next h a answer) (effect .write s a answer) := by
  by_cases htraffic : Traffic a answer
  · cases htraffic with
    | push queue message => cases hadmits
    | take queue m =>
      have hnext : writerGhost.next h (.recv queue) (.message m)
          = { h with held := some (queue, m) } := by cases queue <;> rfl
      rw [hnext]
      exact hB.take hadmits hallowed
    | write m =>
      obtain ⟨queue, hheld⟩ := hadmits
      exact hB.write hheld (hI.held queue m hheld)
    | close => exact hB.close .write
  · exact hB.same (sameTraffic_effect .write s a answer htraffic) (held_next htraffic)
      (polled_next hallowed)

theorem Behind.others {before : List Envelope} {e : Envelope} {h : Hand} {s : State} {task : Task}
    {a : Access} {answer : a.Answer} (htask : task ≠ .write) (hB : Behind before e h s)
    (ha : task.access a = true) (hallowed : allowed s a answer) :
    Behind before e h (effect task s a answer) := by
  by_cases htraffic : Traffic a answer
  · rcases others_traffic htask ha htraffic with ⟨queue, message, heq⟩ | rfl
    · obtain ⟨rfl, hanswer⟩ := Sigma.mk.inj heq
      obtain rfl := eq_of_heq hanswer
      exact hB.push task queue message hallowed.1
    · exact hB.close task
  · exact hB.same (sameTraffic_effect task s a answer htraffic) rfl (.inl rfl)

/-! ### Every run -/

theorem tracked_inOrder (setup : Setup) :
    Tracked (engine setup) (fun _ _ => True) ghost Result (fun g s => InOrder (g .write) s) :=
  tracked_write (fun hI hadmits hallowed => hI.own hadmits hallowed)
    (fun htask hI ha _ => hI.others htask ha) fun hI _ => hI.turn

theorem tracked_behind (setup : Setup) (before : List Envelope) (e : Envelope) :
    Tracked (engine setup) (fun _ _ => True) ghost Result
      (fun g s => InOrder (g .write) s ∧ Behind before e (g .write) s) :=
  tracked_write
    (I := fun h s => InOrder h s ∧ Behind before e h s)
    (fun hI hadmits hallowed => ⟨hI.1.own hadmits hallowed, hI.2.own hI.1 hadmits hallowed⟩)
    (fun htask hI ha hallowed => ⟨hI.1.others htask ha, hI.2.others htask ha hallowed⟩)
    fun hI hnone => ⟨hI.1.turn, hI.2.turn hnone⟩

theorem followed_initial (setup : Setup) :
    Followed ghost Result (fun g s => InOrder (g .write) s) (initial setup) := by
  refine ⟨fun _ => emptyHand, fun task => ?_, ?_⟩
  · cases task with
    | write => exact .inr fun e he => nomatch he
    | run | receive | feed | caller => exact trivial
  · have hledger : ∀ queue, ledger queue emptyHand (initial setup).shared = [] := by
      intro queue
      cases queue <;> rfl
    refine ⟨fun queue => ?_, fun queue e he => ?_, fun queue e he => ?_, fun _ _ he => nomatch he⟩
    · rw [hledger]
      exact .nil
    · rw [hledger] at he
      cases he
    · cases queue <;> cases he

/-- **Input is written in order, queue by queue**: the messages of one queue in
the order they were accepted in, each at most once; and a message that waits in
the control queue when the write task is between two turns is written before
every mouse message that is written from then on. -/
theorem input_ordered {setup : Setup} {c : Config Access.Answer Outcome State Task}
    {ls : List (Label Access.Answer Task)} (hrun : Run (Step (engine setup)) (initial setup) ls c) :
    (∀ queue, (c.shared.written.filter (fun e => decide (e.queue = queue))).Pairwise
      (fun e f => e.number < f.number)) ∧
    ∀ {d : Config Access.Answer Outcome State Task} {ms : List (Label Access.Answer Task)}
      {outcome : Outcome} {e : Envelope}, Run (Step (engine setup)) c ms d →
      c.threads .write = .ret outcome → e ∈ c.shared.controlQueue →
      ∃ new, d.shared.written = c.shared.written ++ new ∧ Precedes e new := by
  have hfollowed := (tracked_inOrder setup).run
    (hrun.mono fun _ _ _ hstep => ⟨trivial, hstep⟩) (followed_initial setup)
  obtain ⟨g, hfollows, hI⟩ := hfollowed
  refine ⟨fun queue => ?_, fun {d ms outcome e} hlater hwrite he => ?_⟩
  · refine (hI.ordered queue).sublist (List.Sublist.trans ?_ (List.sublist_append_left _ _))
    exact List.Sublist.filter _ (List.sublist_append_left _ _)
  · -- from `c` on, the write task has nothing in hand
    have hstart : Followed ghost Result
        (fun g s => InOrder (g .write) s ∧ Behind c.shared.written e (g .write) s) c := by
      refine ⟨Function.update g .write emptyHand, fun task => ?_, ?_⟩
      · by_cases htask : task = .write
        · subst htask
          rw [Function.update_self, hwrite]
          exact .inr fun e he => nomatch he
        · rw [Function.update_of_ne htask]
          exact hfollows task
      · dsimp only
        rw [Function.update_self]
        refine ⟨hI.turn, [], (List.append_nil _).symm, fun pre m post hnil _ => ?_,
          .inr ⟨.queued he rfl, fun _ hf => nomatch hf⟩⟩
        exact absurd (List.append_eq_nil_iff.mp hnil.symm).2 (List.cons_ne_nil _ _)
    obtain ⟨g', -, -, new, hnew, hprecedes, -⟩ := (tracked_behind setup c.shared.written e).run
      (hlater.mono fun _ _ _ hstep => ⟨trivial, hstep⟩) hstart
    exact ⟨new, hnew, hprecedes⟩

/-- A key is accepted while the write task waits, then a mouse event. -/
theorem input_ordered_press : ∃ (c d : Config Access.Answer Outcome State Task)
    (ls ms : List (Label Access.Answer Task)),
    Run (Step (engine sampleSetup)) (initial sampleSetup) ls c ∧
      Run (Step (engine sampleSetup)) c ms d ∧ pressedA 0 ∈ c.shared.controlQueue ∧
      (c.shared.written.filter (fun e => decide (e.queue = .control))).Pairwise
        (fun e f => e.number < f.number) ∧
      ∃ new, d.shared.written = c.shared.written ++ new ∧ Precedes (pressedA 0) new := by
  obtain ⟨ls, hrun⟩ := leads_pressedSession.run
  have start : Leads Calm sampleSetup pressedSession pressedSession := .refl _
  have moved := start.turn rfl (Start.call _ 0 _ moveCorner) trivial
    (alone_sendMouse ⟨rfl, rfl, rfl, rfl⟩ rfl (by decide) 0 rfl (by decide) rfl)
  have taken := moved.turn rfl (Start.spawnWrite rfl) trivial (alone_takeControl rfl rfl)
  have key := taken.goOn (Config.set_threads ..) (alone_sendOut _)
  have polled := key.turn (Config.set_threads ..) (Start.write _) trivial
    (alone_pollControl rfl rfl)
  have mouse := polled.goOn (Config.set_threads ..) (alone_pollMouse ⟨rfl, rfl, rfl, rfl⟩ rfl rfl)
  obtain ⟨ms, hlater⟩ := mouse.run
  have hordered := input_ordered hrun
  exact ⟨_, _, ls, ms, hrun, hlater, List.mem_cons_self, hordered.1 .control,
    hordered.2 hlater rfl List.mem_cons_self⟩

/-! ### Input that overtakes input -/

/-- Every message one caller queued is written in the order it was accepted in. -/
def CallsInOrder (n : Nat) (s : State) : Prop :=
  (s.written.filter (fun e => decide (e.sender = .caller n))).Pairwise
    (fun e f => e.number < f.number)

/-- The caller moves the pointer and then presses a key; when the write task
wakes up it finds both. -/
theorem leads_overtaken : ∃ c : Config Access.Answer Outcome State Task,
    Leads Calm sampleSetup (initial sampleSetup) c ∧
      c.shared.written = [pressedA 1, movedCorner 0] := by
  have moved := leads_sampleSession.turn rfl (Start.call _ 0 _ moveCorner) trivial
    (alone_sendMouse ready_sampleSession rfl (by decide) 0 rfl (by decide) rfl)
  have pressed := moved.turn (Config.set_threads ..) (Start.call _ 0 _ pressA) trivial
    (alone_sendKey ⟨rfl, rfl, rfl, rfl⟩ rfl (by decide) ..)
  have taken := pressed.turn rfl (Start.spawnWrite rfl) trivial (alone_takeControl rfl rfl)
  have key := taken.goOn (Config.set_threads ..) (alone_sendOut _)
  have polled := key.turn (Config.set_threads ..) (Start.write _) trivial
    (alone_pollControl rfl rfl)
  have mouse := polled.goOn (Config.set_threads ..) (alone_pollMouse ⟨rfl, rfl, rfl, rfl⟩ rfl rfl)
  exact ⟨_, mouse, rfl⟩

/-- The control queue goes first, whenever its message was accepted. -/
theorem input_disordered : ¬ ∀ (setup : Setup) (c : Config Access.Answer Outcome State Task)
    (ls : List (Label Access.Answer Task)) (n : Nat),
    Run (Step (engine setup)) (initial setup) ls c → CallsInOrder n c.shared := by
  intro h
  obtain ⟨c, hleads, hwritten⟩ := leads_overtaken
  obtain ⟨ls, hrun⟩ := hleads.run
  have := h sampleSetup c ls 0 hrun
  rw [CallsInOrder, hwritten] at this
  simp [pressedA, movedCorner] at this

/-- Nor is a key always written before a mouse event accepted after it: both may
be accepted while the write task is between its looks at the two queues. -/
theorem key_overtaken : ∃ c : Config Access.Answer Outcome State Task,
    Leads Calm sampleSetup (initial sampleSetup) c ∧ c.shared.written = [movedCorner 1] ∧
      c.shared.controlQueue = [pressedA 0] := by
  have polled := leads_sampleSession.turn rfl (Start.spawnWrite rfl) trivial
    (alone_pollControl rfl rfl)
  have pressed := polled.turn rfl (Start.call _ 0 _ pressA) trivial
    (alone_sendKey ready_sampleSession rfl (by decide) ..)
  have moved := pressed.turn (Config.set_threads ..) (Start.call _ 0 _ moveCorner) trivial
    (alone_sendMouse ⟨rfl, rfl, rfl, rfl⟩ rfl (by decide) 0 rfl (by decide) rfl)
  have mouse := moved.goOn rfl (alone_pollMouse ⟨rfl, rfl, rfl, rfl⟩ rfl rfl)
  exact ⟨_, mouse, rfl, rfl⟩

end Viewer

end RdEngine
