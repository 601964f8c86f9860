/-
RdEngine/Viewer/SwitchDisplay.lean

What a call of `switch_display` leaves behind.

The call queues two messages for the write task, the switch and the query for
the new display, each with a `try_send` of its own.  Between the two the queue
may have filled up, so the call can fail with the switch already queued
(`switch_display_halved`).  Where the query fits whenever it is about to be
queued, the call is all or nothing (`switch_display_whole`): a failed call has
queued nothing, and the messages of one that succeeded are both written, in
their order, by a bounded number of turns of the write task.

The proof follows the write task by what it holds (`Hand`) and the caller by how
far its request has got (`SwitchStage`).
-/
import RdEngine.Viewer.Delivery

namespace RdEngine

namespace Viewer

open Lts Threads

/-! ### How far the request has got -/

def switchMessage (display width height : Int) : Message :=
  .ofMisc (.switchDisplay { display := display, width := width, height := height })

/-- The second message of a switch asks for the resolutions of the display. -/
def queryMessage (display : Int) : Message := .ofMisc (.messageQuery display)

/-- Where caller `n` is in its call: the request checked, the switch queued and
the sender for the query not yet looked up, or looked up, both queued, or the
query refused. -/
inductive SwitchStage where
  | fresh | switched | sending | whole | halved
  deriving DecidableEq, Repr

/-- What the call may do before its first message. -/
def freshAccess (display width height : Int) : Access → Prop
  | .authenticated | .isCancelled | .control => True
  | .trySend queue message =>
    queue = .control ∧ message = switchMessage display width height
  | _ => False

/-- How far the call has come, and what it may do then. -/
def switchGhost (display width height : Int) : Ghost Access.Answer SwitchStage where
  next
    | .fresh, .trySend _ _, .ok () => .switched
    | .switched, .control, true => .sending
    | .switched, .control, false => .halved
    | .sending, .trySend _ _, .ok () => .whole
    | .sending, .trySend _ _, .error _ => .halved
    | stage, _, _ => stage
  admits
    | .fresh, a => freshAccess display width height a
    | .switched, a => a = .control
    | .sending, a => a = .trySend .control (queryMessage display)
    | .whole, _ | .halved, _ => False

/-- What the call returns, by how far it has come. -/
def SwitchResult : SwitchStage → Outcome → Prop
  | .fresh, outcome | .halved, outcome => ∃ error, outcome = .returned (.error error)
  | .whole, outcome => outcome = .returned (.ok ())
  | .switched, _ | .sending, _ => False

theorem follows_query (display width height : Int) :
    Follows (switchGhost display width height) SwitchResult .switched
      ((enqueue (queryMessage display)).bind fun result => .ret (.returned result)) := by
  refine ⟨rfl, fun published => ?_⟩
  cases published with
  | false => exact ⟨_, rfl⟩
  | true =>
    refine ⟨rfl, fun sent => ?_⟩
    cases sent with
    | ok => exact rfl
    | error error => cases error <;> exact ⟨_, rfl⟩

theorem follows_switchDisplay (setup : Setup) (display width height : Int) :
    Follows (switchGhost display width height) SwitchResult .fresh
      ((Call.switchDisplay display width height).run setup) := by
  rw [Call.run, Call.program, switchDisplay, Prog.bind_eq, Prog.ite_bind]
  split
  · exact ⟨_, rfl⟩
  · refine ⟨trivial, fun authenticated => ?_⟩
    cases authenticated with
    | false => exact ⟨_, rfl⟩
    | true =>
      refine ⟨trivial, fun cancelled => ?_⟩
      cases cancelled with
      | true => exact ⟨_, rfl⟩
      | false =>
        refine ⟨trivial, fun published => ?_⟩
        cases published with
        | false => exact ⟨_, rfl⟩
        | true =>
          refine ⟨⟨rfl, rfl⟩, fun sent => ?_⟩
          cases sent with
          | ok => exact follows_query display width height
          | error error => cases error <;> exact ⟨_, rfl⟩

/-! ### While the call runs -/

/-- The first message, in its queue. -/
def switchEnvelope (n number : Nat) (display width height : Int) : Envelope :=
  ⟨.caller n, .control, number, switchMessage display width height⟩

/-- The second message, in its queue. -/
def queryEnvelope (n number : Nat) (display : Int) : Envelope :=
  ⟨.caller n, .control, number, queryMessage display⟩

/-- Caller `n` queued it when `first` messages had been accepted, or later. -/
def Since (n first : Nat) (e : Envelope) : Prop := e.sender = .caller n ∧ first ≤ e.number

/-- What the call has queued so far. -/
def CallQueued (n first : Nat) (display width height : Int) (stage : SwitchStage) (h : Hand)
    (s : State) : Prop :=
  match stage with
  | .fresh => Sent (Since n first) [] h s
  | .switched | .sending | .halved =>
    ∃ i, first ≤ i ∧ Sent (Since n first) [switchEnvelope n i display width height] h s
  | .whole => ∃ i j, first ≤ i ∧ i < j ∧
      Sent (Since n first) [switchEnvelope n i display width height, queryEnvelope n j display] h s

section Calling

variable {n first : Nat} {display width height : Int} {stage : SwitchStage}

/-- What keeps any messages of the call keeps these. -/
theorem CallQueued.mono (hQ : CallQueued n first display width height stage h s)
    (hkeep : ∀ sent, Sent (Since n first) sent h s → Sent (Since n first) sent h' s') :
    CallQueued n first display width height stage h' s' := by
  cases stage with
  | fresh => exact hkeep _ hQ
  | switched | sending | halved =>
    obtain ⟨i, hi, hS⟩ := hQ
    exact ⟨i, hi, hkeep _ hS⟩
  | whole =>
    obtain ⟨i, j, hi, hj, hS⟩ := hQ
    exact ⟨i, j, hi, hj, hkeep _ hS⟩

theorem CallQueued.inOrder (hQ : CallQueued n first display width height stage h s) :
    InOrder h s := by
  cases stage with
  | fresh => exact hQ.inOrder
  | switched | sending | halved =>
    obtain ⟨i, -, hS⟩ := hQ
    exact hS.inOrder
  | whole =>
    obtain ⟨i, j, -, -, hS⟩ := hQ
    exact hS.inOrder

theorem CallQueued.advance {a : Access} {answer : a.Answer}
    (hQ : CallQueued n first display width height stage h s) (hfirst : first ≤ s.accepted)
    (hadmits : (switchGhost display width height).admits stage a) (hallowed : allowed s a answer) :
    CallQueued n first display width height
      ((switchGhost display width height).next stage a answer) h
      (effect (.caller n) s a answer) := by
  cases stage with
  | fresh =>
    cases a with
    | authenticated | isCancelled | control => exact hQ
    | trySend queue message =>
      obtain ⟨rfl, rfl⟩ := hadmits
      match answer, hallowed with
      | .ok (), hallowed => exact ⟨s.accepted, hfirst, hQ.push (.caller n) _ hallowed.1⟩
      | .error _, _ => exact hQ
    | _ => cases hadmits
  | switched =>
    obtain rfl : a = .control := hadmits
    cases answer <;> exact hQ
  | sending =>
    obtain rfl : a = .trySend .control (queryMessage display) := hadmits
    obtain ⟨i, hi, hS⟩ := hQ
    match answer, hallowed with
    | .ok (), hallowed =>
      exact ⟨i, s.accepted, hi, hS.older _ (List.mem_singleton_self _),
        hS.push (.caller n) _ hallowed.1⟩
    | .error _, _ => exact ⟨i, hi, hS⟩
  | whole | halved => cases hadmits

/-- The write task by what it holds, the caller by its stage. -/
def callGhost (n : Nat) (display width height : Int) (task : Task) :
    Ghost Access.Answer (Hand × SwitchStage) :=
  (ghost task).prod
    (if task = .caller n then switchGhost display width height else Ghost.idle)

def CallResult (n : Nat) (task : Task) (g : Hand × SwitchStage) (outcome : Outcome) : Prop :=
  Result task g.1 outcome ∧ (task = .caller n → SwitchResult g.2 outcome)

/-- The state during the call. -/
def InCall (n first : Nat) (display width height : Int) (g : Task → Hand × SwitchStage)
    (s : State) : Prop :=
  first ≤ s.accepted ∧
    CallQueued n first display width height (g (.caller n)).2 (g .write).1 s

theorem inCall_access {g : Task → Hand × SwitchStage} {a : Access} {answer : a.Answer}
    (hI : InCall n first display width height g s)
    (hadmits : (callGhost n display width height task).admits (g task) a)
    (hallowed : allowed s a answer) :
    InCall n first display width height
      (Function.update g task ((callGhost n display width height task).next (g task) a answer))
      (effect task s a answer) := by
  obtain ⟨hfirst, hQ⟩ := hI
  -- a message of another thread is none of the call's
  have hother : task ≠ .caller n → ∀ queue message,
      ¬ Since n first ⟨task, queue, s.accepted, message⟩ := fun htask _ _ h => htask h.1
  by_cases hwrite : task = .write
  · subst hwrite
    have hne : Task.write ≠ .caller n := Task.noConfusion
    have hflow := flow_own hQ.inOrder hadmits.1 hallowed
    rw [InCall, Function.update_self, Function.update_of_ne hne.symm]
    exact ⟨hfirst.trans hflow.ledgers.accepted_le, hQ.mono fun sent hS =>
      hS.step hflow.ledgers (hS.inOrder.own hadmits.1 hallowed) (hother hne)⟩
  · have hwithin := access_of_admits hwrite hadmits.1
    have hflow := flow_others (h := (g .write).1) hwrite hwithin hallowed
    rw [InCall, Function.update_of_ne (Ne.symm hwrite)]
    refine ⟨hfirst.trans hflow.ledgers.accepted_le, ?_⟩
    by_cases hcaller : task = .caller n
    · subst hcaller
      rw [Function.update_self]
      rw [callGhost, if_pos rfl] at hadmits ⊢
      exact hQ.advance hfirst hadmits.2 hallowed
    · rw [Function.update_of_ne (Ne.symm hcaller)]
      exact hQ.mono fun sent hS =>
        hS.step hflow.ledgers (hS.inOrder.others hwrite hwithin) (hother hcaller)

/-- No program but the call's own is begun by the caller. -/
def NoCall (n : Nat) (_ : Config Access.Answer Outcome State Task)
    (l : Label Access.Answer Task) : Prop := l ≠ .start (.caller n)

theorem inCall_start {setup : Setup} {g : Task → Hand × SwitchStage} {outcome : Outcome}
    {program : Program Outcome} (hI : InCall n first display width height g s)
    (htask : task ≠ .caller n) (hresult : CallResult n task (g task) outcome)
    (hstart : Start setup s task outcome program) :
    ∃ g', Follows (callGhost n display width height task) (CallResult n task) g' program ∧
      InCall n first display width height (Function.update g task g') s := by
  obtain ⟨hfirst, hQ⟩ := hI
  obtain ⟨hand, hprogram, hhand⟩ := follows_start hresult.1 hstart
  refine ⟨(hand, (g task).2), ?_, hfirst, ?_⟩
  · rw [callGhost, if_neg htask]
    exact (hprogram.prod (follows_idle _ _)).mono fun g result h => ⟨h.1, fun h => absurd h htask⟩
  · rw [Function.update_of_ne (Ne.symm htask)]
    rcases hhand with ⟨rfl, rfl, hnone⟩ | ⟨-, rfl⟩
    · rw [Function.update_self]
      exact hQ.mono fun sent hS => hS.turn hnone
    · rw [Function.update_eq_self]
      exact hQ

theorem counted_call (setup : Setup) (n first : Nat) (display width height : Int) :
    TurnCounted (engine setup) (fun c l => NoCall n c l ∧ True) (callGhost n display width height)
      (CallResult n) .write (fun _ g s => InCall n first display width height g s ∧ True) where
  access := by
    rintro c g task a rest answer s' k - - - ⟨hI, -⟩ hadmits ⟨hallowed, rfl⟩
    exact ⟨inCall_access hI hadmits hallowed, trivial⟩
  start := by
    rintro c g task outcome program k ⟨hC, -⟩ ⟨hI, -⟩ hresult hstart
    have htask : task ≠ .caller n := fun h => hC (congrArg _ h)
    obtain ⟨g', hprogram, hI'⟩ := inCall_start hI htask hresult hstart
    exact ⟨g', hprogram, hI', trivial⟩

end Calling

/-! ### Where the query fits -/

/-- The program is about to queue a display query. -/
def Queries (program : Program Outcome) : Prop :=
  ∃ display rest, program = .access (.trySend .control (queryMessage display)) rest

/-- A caller that is about to look up the sender for its query finds it, and one
that is about to queue the query finds the queue open and with room. -/
structure QueryFits (c : Config Access.Answer Outcome State Task) (l : Label Access.Answer Task) :
    Prop where
  published : ∀ n rest, l.thread = .caller n → c.threads (.caller n) = .access .control rest →
    Queries (rest true) → c.shared.control = true
  room : ∀ n, l.thread = .caller n → Queries (c.threads (.caller n)) →
    c.shared.queuesOpen = true ∧ c.shared.controlQueue.length < commands

section Fitting

variable {n first : Nat} {display width height : Int}

/-- After the sender is looked up for it, nothing but the query comes. -/
theorem queries_of_follows {hand : Hand} {program : Program Outcome}
    (h : Follows (callGhost n display width height (.caller n)) (CallResult n (.caller n))
      (hand, .sending) program) : Queries program := by
  cases program with
  | ret outcome => exact (h.2 rfl).elim
  | access a rest =>
    have hadmits := h.1.2
    rw [if_pos rfl] at hadmits
    obtain rfl : a = .trySend .control (queryMessage display) := hadmits
    exact ⟨display, rest, rfl⟩

theorem stage_ne_halved {c : Config Access.Answer Outcome State Task} {g : Hand × SwitchStage}
    {a : Access} {answer : a.Answer} {rest : a.Answer → Program Outcome}
    (hfits : QueryFits c (.access (.caller n) a answer))
    (hi : c.threads (.caller n) = .access a rest)
    (hfollows : Follows (callGhost n display width height (.caller n)) (CallResult n (.caller n)) g
      (.access a rest)) (hallowed : allowed c.shared a answer) (hstage : g.2 ≠ .halved) :
    ((callGhost n display width height (.caller n)).next g a answer).2 ≠ .halved := by
  obtain ⟨⟨hadmits₁, hadmits⟩, hrest⟩ := hfollows
  rw [callGhost, if_pos rfl] at hrest
  rw [if_pos rfl] at hadmits
  rw [callGhost, if_pos rfl]
  obtain ⟨hand, stage⟩ := g
  cases stage with
  | fresh =>
    intro h
    cases a with
    | trySend queue message =>
      match answer, h with
      | .ok (), h => cases h
      | .error _, h => cases h
    | _ => cases h
  | switched =>
    -- the queues are still published, for the second message has room
    obtain rfl : a = .control := hadmits
    cases answer with
    | true => exact SwitchStage.noConfusion
    | false =>
      have hsending : Follows (callGhost n display width height (.caller n))
          (CallResult n (.caller n)) (hand, .sending) (rest true) := by
        rw [callGhost, if_pos rfl]
        exact hrest true
      have hpublished := hfits.published n rest rfl hi (queries_of_follows hsending)
      rw [← show false = c.shared.control from hallowed] at hpublished
      cases hpublished
  | sending =>
    -- the push cannot fail: open, and with room
    obtain rfl : a = .trySend .control (queryMessage display) := hadmits
    obtain ⟨hopen, hroom⟩ := hfits.room n rfl (by rw [hi]; exact ⟨display, rest, rfl⟩)
    match answer, hallowed with
    | .ok (), _ => exact SwitchStage.noConfusion
    | .error .full, hallowed => exact absurd hallowed.2 (Nat.not_le.mpr hroom)
    | .error .closed, hallowed =>
      rw [show c.shared.queuesOpen = false from hallowed] at hopen
      cases hopen
  | whole => cases hadmits
  | halved => exact absurd rfl hstage

theorem counted_fitting (setup : Setup) (n first : Nat) (display width height : Int) :
    TurnCounted (engine setup) (fun c l => NoCall n c l ∧ QueryFits c l)
      (callGhost n display width height) (CallResult n) .write
      (fun _ g s => InCall n first display width height g s ∧ (g (.caller n)).2 ≠ .halved) where
  access := by
    rintro c g task a rest answer s' k ⟨-, hfits⟩ hi hfollows ⟨hI, hstage⟩ hadmits ⟨hallowed, rfl⟩
    refine ⟨inCall_access hI hadmits hallowed, ?_⟩
    by_cases hcaller : task = .caller n
    · subst hcaller
      rw [Function.update_self]
      have hown := hfollows (.caller n)
      rw [hi] at hown
      exact stage_ne_halved hfits hi hown hallowed hstage
    · rw [Function.update_of_ne (Ne.symm hcaller)]
      exact hstage
  start := by
    rintro c g task outcome program k ⟨hC, -⟩ ⟨hI, hstage⟩ hresult hstart
    have htask : task ≠ .caller n := fun h => hC (congrArg _ h)
    obtain ⟨g', hprogram, hI'⟩ := inCall_start hI htask hresult hstart
    refine ⟨g', hprogram, hI', ?_⟩
    rw [Function.update_of_ne (Ne.symm htask)]
    exact hstage

end Fitting

/-! ### A whole call -/

/-- In a run by steps that meet `C`, caller `n` begins a call in `c` and has its
result in `d`. -/
def Returns (setup : Setup)
    (C : Config Access.Answer Outcome State Task → Label Access.Answer Task → Prop) (n : Nat)
    (call : Call) (c d : Config Access.Answer Outcome State Task)
    (result : Except ViewerError Unit) : Prop :=
  ∃ b ls, Step (engine setup) c (.start (.caller n)) b ∧
    b.threads (.caller n) = call.run setup ∧ Run (Where (Step (engine setup)) C) b ls d ∧
    .start (.caller n) ∉ ls ∧ d.threads (.caller n) = .ret (.returned result)

/-- Caller `n` queued it between two numbers of accepted messages. -/
def OfCall (n first last : Nat) (e : Envelope) : Prop :=
  e.sender = .caller n ∧ first ≤ e.number ∧ e.number < last

/-- The messages of a call of caller `n` that began after `first` accepted
messages and returned after `last`, in a state that the write task has reached
with `turned` turns since.  A failed call has none on the wire; one that
succeeded has a switch and a query and no others, the query only behind the
switch, and both after a queue's length of turns and two more unless the session
has ended. -/
structure AllOrNothing (n : Nat) (display width height : Int) (first last : Nat)
    (result : Except ViewerError Unit) (turned : Nat) (s : State) : Prop where
  failed : result ≠ .ok () → ∀ e ∈ s.written, ¬ OfCall n first last e
  succeeded : result = .ok () → ∃ i j, first ≤ i ∧ i < j ∧ j < last ∧
    (∀ e ∈ s.written, OfCall n first last e →
      e = switchEnvelope n i display width height ∨ e = queryEnvelope n j display) ∧
    (queryEnvelope n j display ∈ s.written →
      [switchEnvelope n i display width height, queryEnvelope n j display].Sublist s.written) ∧
    (s.queuesOpen = true → commands + 1 < turned →
      [switchEnvelope n i display width height, queryEnvelope n j display].Sublist s.written)

section Whole

variable {setup : Setup} {n first last : Nat} {display width height : Int}
  {c d : Config Access.Answer Outcome State Task} {mine : Envelope → Prop} {sent : List Envelope}

/-- A call begins with nothing queued. -/
theorem followed_begin (hc : Followed ghost Result (fun g s => InOrder (g .write) s) c)
    (hstep : Step (engine setup) c (.start (.caller n)) d)
    (hprogram : d.threads (.caller n) = (Call.switchDisplay display width height).run setup) :
    Followed (callGhost n display width height) (CallResult n)
      (fun g s => InCall n c.shared.accepted display width height g s ∧
        (g (.caller n)).2 = .fresh) d := by
  obtain ⟨g, hfollows, hI⟩ := hc
  cases hstep with
  | @start i outcome program hi hstart =>
    rw [Config.set_threads] at hprogram
    subst hprogram
    refine ⟨fun task => (g task, .fresh), fun task => ?_, ⟨le_rfl, ?_⟩, rfl⟩
    · by_cases hcaller : task = .caller n
      · subst hcaller
        rw [Config.set_threads, callGhost, if_pos rfl]
        have hown : Follows (ghost (.caller n)) (Result (.caller n)) (g (.caller n)) _ :=
          (start_within hstart).follows (fun a ha => ha) (fun a answer ha => rfl) fun _ => trivial
        exact (hown.prod (follows_switchDisplay setup display width height)).mono
          fun g outcome h => ⟨h.1, fun _ => h.2⟩
      · rw [Config.set_threads_of_ne c hcaller, callGhost, if_neg hcaller]
        exact ((hfollows task).prod (follows_idle _ _)).mono
          fun g outcome h => ⟨h.1, fun h => absurd h hcaller⟩
    · refine ⟨hI, fun queue e he hsince => ?_, fun _ h => (nomatch h), fun _ _ h => (nomatch h),
        fun _ h => (nomatch h)⟩
      -- what is there already was accepted before
      exact absurd (hI.accepted queue e he) (Nat.not_lt.mpr hsince.2)

/-- A call ends with its messages on their way. -/
theorem followed_end {g : Task → Hand × SwitchStage}
    (hfollows : ∀ task, Follows (callGhost n display width height task) (CallResult n task)
      (g task) (c.threads task))
    (hS : Sent (Since n first) sent (g .write).1 c.shared)
    (hroom : c.shared.controlQueue.length ≤ commands) :
    Followed afterGhost AfterResult
      (AfterCall (OfCall n first c.shared.accepted) sent c.shared.accepted 0) c := by
  refine ⟨fun task => ((g task).1, true), fun task => ?_, le_rfl, ?_, fun number _ => ?_⟩
  · have hhand : Follows (ghost task) (Result task) (g task).1 (c.threads task) :=
      Follows.fst (R := fun stage outcome => task = .caller n → SwitchResult stage outcome)
        (hfollows task)
    by_cases hwrite : task = .write
    · rw [afterGhost, if_pos hwrite]
      exact (hhand.prod (follows_looked _)).mono fun g outcome h => ⟨h.1, fun _ => h.2⟩
    · rw [afterGhost, if_neg hwrite]
      exact (hhand.prod (follows_idle _ _)).mono fun g outcome h =>
        ⟨h.1, fun h => absurd h hwrite⟩
  · exact hS.mono fun e he => ⟨he.1, he.2.1⟩
  · have hle : upTo number (g .write).1 c.shared
        ≤ (unwritten .control (g .write).1 c.shared).length := List.length_filter_le ..
    have hheld : (((g .write).1.held.map (·.2)).toList.filter
        (fun e => decide (e.queue = .control))).length ≤ 1 :=
      (List.length_filter_le ..).trans (by cases (g .write).1.held <;> simp)
    show Due number 0 true (g .write).1 c.shared
    refine .inr ⟨?_, fun _ hnone => ?_⟩
    · rw [unwritten, List.length_append, State.queue] at hle
      omega
    · rw [← unwritten_turn hnone hS.inOrder, unwritten, List.length_append, State.queue] at hle
      have hnil : ((emptyHand.held.map (·.2)).toList.filter
          (fun e => decide (e.queue = .control))).length = 0 := rfl
      omega

/-- What the caller has queued when its call returns, with the stage it has
reached, and what becomes of it. -/
theorem call_returns {C : Config Access.Answer Outcome State Task → Label Access.Answer Task → Prop}
    {J : SwitchStage → Prop} {f : Config Access.Answer Outcome State Task}
    {result : Except ViewerError Unit} {before after : List (Label Access.Answer Task)}
    (hcounted : TurnCounted (engine setup) (fun c l => NoCall n c l ∧ C c l)
      (callGhost n display width height) (CallResult n) .write
      (fun _ g s => InCall n c.shared.accepted display width height g s ∧ J (g (.caller n)).2))
    (hfresh : J .fresh) (hbefore : Run (Step (engine setup)) (initial setup) before c)
    (hcall : Returns setup C n (.switchDisplay display width height) c d result)
    (hafter : Run (Step (engine setup)) d after f) :
    ∃ stage hand, SwitchResult stage (.returned result) ∧ J stage ∧
      CallQueued n c.shared.accepted display width height stage hand d.shared ∧
      ∀ sent, Sent (Since n c.shared.accepted) sent hand d.shared →
        ∃ g, AfterCall (OfCall n c.shared.accepted d.shared.accepted) sent d.shared.accepted
          (turns .write after) g f.shared := by
  obtain ⟨b, ls, hstep, hprogram, hduring, hnone, hreturned⟩ := hcall
  have hd : Run (Step (engine setup)) (initial setup) (before ++ .start (.caller n) :: ls) d :=
    hbefore.append (.cons hstep (hduring.mono fun _ _ _ hstep => hstep.2))
  obtain ⟨g₀, hfollows₀, hI₀, hstage₀⟩ := followed_begin ((tracked_inOrder setup).run
    (hbefore.mono fun _ _ _ hstep => ⟨trivial, hstep⟩) (followed_initial setup)) hstep hprogram
  -- the caller begins no other call before it returns from this one
  have hown : Run (Where (Step (engine setup)) fun c l => NoCall n c l ∧ C c l) b ls d :=
    (hduring.restrict fun l hl => ne_of_mem_of_not_mem hl hnone).mono
      fun _ _ _ hstep => ⟨⟨hstep.1, hstep.2.1⟩, hstep.2.2⟩
  obtain ⟨g, hfollows, ⟨hfirst, hQ⟩, hstage⟩ := hcounted.run (k := 0) hown
    ⟨g₀, hfollows₀, hI₀, by rw [hstage₀]; exact hfresh⟩
  have hcaller := hfollows (.caller n)
  rw [hreturned, follows_ret] at hcaller
  refine ⟨_, _, hcaller.2 rfl, hstage, hQ, fun sent hS => ?_⟩
  obtain ⟨g', -, hA⟩ := (counted_after setup sent fun e he => he.2.2).run
    (hafter.mono fun _ _ _ hstep => ⟨trivial, hstep⟩) (followed_end hfollows hS (control_le hd))
  exact ⟨g', hA⟩

/-- A call that queued nothing has failed. -/
theorem allOrNothing_failed {result : Except ViewerError Unit} {turned : Nat}
    (hS : Sent (OfCall n first last) [] h s) (hresult : ∃ error, result = .error error) :
    AllOrNothing n display width height first last result turned s where
  failed _ e he hof := List.not_mem_nil (hS.of_written he hof)
  succeeded hok := by
    obtain ⟨error, rfl⟩ := hresult
    cases hok

/-- A call that queued both messages has succeeded. -/
theorem allOrNothing_succeeded {g : Task → Hand × Bool} {turned i j : Nat} (hi : first ≤ i)
    (hij : i < j) (hj : j < last)
    (hA : AfterCall (OfCall n first last)
      [switchEnvelope n i display width height, queryEnvelope n j display] last turned g s) :
    AllOrNothing n display width height first last (.ok ()) turned s where
  failed herror := absurd rfl herror
  succeeded _ := by
    have hswitch : switchEnvelope n i display width height
        ∈ [switchEnvelope n i display width height, queryEnvelope n j display] :=
      List.mem_cons_self
    have hquery : queryEnvelope n j display
        ∈ [switchEnvelope n i display width height, queryEnvelope n j display] :=
      List.mem_cons_of_mem _ (List.mem_singleton_self _)
    refine ⟨i, j, hi, hij, hj, fun e he hof => ?_, ?_, fun hopen hturned => ?_⟩
    · simpa using hA.2.1.of_written he hof
    · exact hA.2.1.in_order hswitch hquery rfl hij
    · exact hA.2.1.in_order hswitch hquery rfl hij (hA.written hopen hturned hquery rfl hj)

/-- A call that got past its query, or not as far as its switch. -/
theorem allOrNothing_of_stage {stage : SwitchStage} {hand : Hand} {result : Except ViewerError Unit}
    {turned : Nat} (hresult : SwitchResult stage (.returned result)) (hstage : stage ≠ .halved)
    (hQ : CallQueued n first display width height stage hand s)
    (later : ∀ sent, Sent (Since n first) sent hand s →
      ∃ g, AfterCall (OfCall n first s.accepted) sent s.accepted turned g s') :
    AllOrNothing n display width height first s.accepted result turned s' := by
  cases stage with
  | fresh =>
    obtain ⟨g, hA⟩ := later [] hQ
    obtain ⟨error, herror⟩ := hresult
    cases herror
    exact allOrNothing_failed hA.2.1 ⟨error, rfl⟩
  | whole =>
    obtain ⟨i, j, hi, hij, hS⟩ := hQ
    obtain ⟨g, hA⟩ := later _ hS
    cases hresult
    exact allOrNothing_succeeded hi hij
      (hS.older _ (List.mem_cons_of_mem _ (List.mem_singleton_self _))) hA
  | halved => exact absurd rfl hstage
  | switched | sending => exact hresult.elim

end Whole

/-! ### Calls that find room for two messages and for one -/

section Calls

variable {setup : Setup} {n : Nat} {display width height : Int}
  {c : Config Access.Answer Outcome State Task}
  {C : Config Access.Answer Outcome State Task → Label Access.Answer Task → Prop}

theorem step_set {task : Task} (a : Access) (answer : a.Answer) {rest : a.Answer → Program Outcome}
    (hC : C (c.set task s (.access a rest)) (.access task a answer))
    (hperform : perform task s a answer s') :
    Where (Step (engine setup)) C (c.set task s (.access a rest)) (.access task a answer)
      (c.set task s' (rest answer)) := by
  have hstep : Step (engine setup) _ _ _ :=
    .access (c.set_threads task s (.access a rest)) hperform
  rw [Config.set_set] at hstep
  exact ⟨hC, hstep⟩

/-- With room for one message, or two, up to the query. -/
theorem run_switch (setup : Setup) (hready : Ready c.shared)
    (hroom : c.shared.controlQueue.length < commands)
    (hC : ∀ (s : State) (a : Access) (answer : a.Answer) (rest : a.Answer → Program Outcome),
      Ready s → s.controlQueue.length < commands →
      C (c.set (.caller n) s (.access a rest)) (.access (.caller n) a answer))
    (hvalid : ¬ (display < 0 ∨ width < 0 ∨ height < 0)) :
    ∃ ls, .start (.caller n) ∉ ls ∧
      Run (Where (Step (engine setup)) C)
        (c.set (.caller n) c.shared ((Call.switchDisplay display width height).run setup)) ls
        (c.set (.caller n)
          (c.shared.push (.caller n) .control (switchMessage display width height))
          ((enqueue (queryMessage display)).bind fun result => .ret (.returned result))) := by
  rw [Call.run, Call.program, switchDisplay, if_neg hvalid]
  refine ⟨_, ?_, .cons (step_set .authenticated true (hC _ _ _ _ hready hroom)
      ⟨hready.authenticated.symm, rfl⟩)
    (.cons (step_set .isCancelled false (hC _ _ _ _ hready hroom) ⟨hready.cancelled.symm, rfl⟩)
    (.cons (step_set .control true (hC _ _ _ _ hready hroom) ⟨hready.control.symm, rfl⟩)
    (.cons (step_set (.trySend .control _) (.ok ()) (hC _ _ _ _ hready hroom)
      ⟨⟨hready.queuesOpen, hroom⟩, rfl⟩) (.nil _))))⟩
  simp

theorem Ready.push (hready : Ready s) (task : Task) (message : Message) :
    Ready (s.push task .control message) :=
  ⟨hready.authenticated, hready.cancelled, hready.control, hready.queuesOpen⟩

theorem length_push (s : State) (task : Task) (message : Message) :
    (s.push task .control message).controlQueue.length = s.controlQueue.length + 1 :=
  List.length_append

/-- A call that finds room for both messages succeeds. -/
theorem returns_ok {result : Except ViewerError Unit} (hready : Ready c.shared)
    (hroom : c.shared.controlQueue.length + 1 < commands)
    (hcaller : c.threads (.caller n) = .ret (.returned result))
    (hvalid : ¬ (display < 0 ∨ width < 0 ∨ height < 0)) :
    Returns setup QueryFits n (.switchDisplay display width height) c
      (c.set (.caller n)
        ((c.shared.push (.caller n) .control (switchMessage display width height)).push (.caller n)
          .control (queryMessage display)) (.ret (.returned (.ok ())))) (.ok ()) := by
  have fits : ∀ (s : State) (a : Access) (answer : a.Answer) (rest : a.Answer → Program Outcome),
      Ready s → s.controlQueue.length < commands →
      QueryFits (c.set (.caller n) s (.access a rest)) (.access (.caller n) a answer) :=
    fun s a answer rest hready hroom =>
      ⟨fun _ _ _ _ _ => hready.control, fun _ _ _ => ⟨hready.queuesOpen, hroom⟩⟩
  obtain ⟨ls, hnone, hrun⟩ := run_switch setup hready (by omega) fits hvalid
  have hready' := hready.push (.caller n) (switchMessage display width height)
  have hlength := length_push c.shared (.caller n) (switchMessage display width height)
  have hroom' : (c.shared.push (.caller n) .control
      (switchMessage display width height)).controlQueue.length < commands := by omega
  refine ⟨_, _, .start hcaller (Start.call _ n _ _), Config.set_threads .., hrun.append
    (.cons (step_set .control true (fits _ _ _ _ hready' hroom') ⟨hready'.control.symm, rfl⟩)
    (.cons (step_set (.trySend .control _) (.ok ()) (fits _ _ _ _ hready' hroom')
      ⟨⟨hready'.queuesOpen, hroom'⟩, rfl⟩) (.nil _))), ?_, Config.set_threads ..⟩
  simp [hnone]

/-- A call that finds room for one message fails with that one queued. -/
theorem returns_full {result : Except ViewerError Unit} (hready : Ready c.shared)
    (hroom : c.shared.controlQueue.length + 1 = commands)
    (hcaller : c.threads (.caller n) = .ret (.returned result))
    (hvalid : ¬ (display < 0 ∨ width < 0 ∨ height < 0)) :
    Returns setup (fun _ _ => True) n (.switchDisplay display width height) c
      (c.set (.caller n)
        (c.shared.push (.caller n) .control (switchMessage display width height))
        (.ret (.returned (.error .backpressure)))) (.error .backpressure) := by
  obtain ⟨ls, hnone, hrun⟩ := run_switch (C := fun _ _ => True) setup hready (by omega)
    (fun _ _ _ _ _ _ => trivial) hvalid
  have hready' := hready.push (.caller n) (switchMessage display width height)
  have hlength := length_push c.shared (.caller n) (switchMessage display width height)
  have hfull : commands ≤ (c.shared.push (.caller n) .control
      (switchMessage display width height)).controlQueue.length := by omega
  refine ⟨_, _, .start hcaller (Start.call _ n _ _), Config.set_threads .., hrun.append
    (.cons (step_set .control true trivial ⟨hready'.control.symm, rfl⟩)
    (.cons (step_set (.trySend .control _) (.error .full) trivial
      ⟨⟨hready'.queuesOpen, hfull⟩, rfl⟩) (.nil _))), ?_, Config.set_threads ..⟩
  simp [hnone]

end Calls

/-! ### All or nothing -/

section Theorems

variable {setup : Setup} {n : Nat} {display width height : Int}
  {c d f : Config Access.Answer Outcome State Task} {result : Except ViewerError Unit}
  {before after : List (Label Access.Answer Task)}

/-- Any call is all or nothing, or it fails with the switch queued: then the
switch is the one message of it that is written, after a queue's length of turns
and two more unless the session has ended. -/
theorem switch_display_left (hbefore : Run (Step (engine setup)) (initial setup) before c)
    (hcall : Returns setup (fun _ _ => True) n (.switchDisplay display width height) c d result)
    (hafter : Run (Step (engine setup)) d after f) :
    AllOrNothing n display width height c.shared.accepted d.shared.accepted result
        (turns .write after) f.shared ∨
      result ≠ .ok () ∧ ∃ i, OfCall n c.shared.accepted d.shared.accepted
          (switchEnvelope n i display width height) ∧
        (∀ e ∈ f.shared.written, OfCall n c.shared.accepted d.shared.accepted e →
          e = switchEnvelope n i display width height) ∧
        (f.shared.queuesOpen = true → commands + 1 < turns .write after →
          switchEnvelope n i display width height ∈ f.shared.written) := by
  obtain ⟨stage, hand, hresult, -, hQ, later⟩ := call_returns (J := fun _ => True)
    (counted_call setup n c.shared.accepted display width height) trivial hbefore hcall hafter
  by_cases hstage : stage = .halved
  · subst hstage
    obtain ⟨i, hi, hS⟩ := hQ
    obtain ⟨g, hA⟩ := later _ hS
    obtain ⟨error, herror⟩ := hresult
    cases herror
    have hlast := hS.older _ (List.mem_singleton_self _)
    exact .inr ⟨fun h => (nomatch h), i, ⟨rfl, hi, hlast⟩,
      fun e he hof => List.mem_singleton.mp (hA.2.1.of_written he hof),
      fun hopen hturned => hA.written hopen hturned (List.mem_singleton_self _) rfl hlast⟩
  · exact .inl (allOrNothing_of_stage hresult hstage hQ later)

/-- **Where the query fits, a display switch is all or nothing**: in every run,
whatever the queue holds and however the write task and other callers come
between its accesses, a call that fails has none of its messages written then or
later, and one that succeeds has both written, the switch before the query,
unless the session ends. -/
theorem switch_display_whole (hbefore : Run (Step (engine setup)) (initial setup) before c)
    (hcall : Returns setup QueryFits n (.switchDisplay display width height) c d result)
    (hafter : Run (Step (engine setup)) d after f) :
    AllOrNothing n display width height c.shared.accepted d.shared.accepted result
      (turns .write after) f.shared := by
  obtain ⟨stage, hand, hresult, hstage, hQ, later⟩ := call_returns (J := (· ≠ .halved))
    (counted_fitting setup n c.shared.accepted display width height) SwitchStage.noConfusion
    hbefore hcall hafter
  exact allOrNothing_of_stage hresult hstage hQ later

/-- When the write task runs on its own it writes what the control queue
holds. -/
theorem leads_drained {setup : Setup} {outcome : Outcome} (es : List Envelope)
    {c : Config Access.Answer Outcome State Task} (hcancelled : c.shared.cancelled = false)
    (hqueue : c.shared.controlQueue = es) (hwrite : c.threads .write = .ret outcome)
    (hstart : Start setup c.shared .write outcome writeTurn) :
    ∃ d, Leads Calm setup c d ∧ d.shared.written = c.shared.written ++ es ∧
      d.shared.cancelled = false ∧ d.shared.queuesOpen = c.shared.queuesOpen := by
  induction es generalizing c outcome with
  | nil => exact ⟨c, .refl c, (List.append_nil _).symm, hcancelled, rfl⟩
  | cons e es ih =>
    have taken := (Leads.refl c).turn hwrite hstart trivial (alone_takeControl hcancelled hqueue)
    obtain ⟨b, hb, hwrite', hcancelled', hqueue', hwritten', hopen'⟩ :
        ∃ b, Leads Calm setup c b ∧ b.threads .write = .ret .writing ∧
          b.shared.cancelled = false ∧ b.shared.controlQueue = es ∧
          b.shared.written = c.shared.written ++ [e] ∧
          b.shared.queuesOpen = c.shared.queuesOpen :=
      ⟨_, taken.goOn (Config.set_threads ..) (alone_sendOut e), Config.set_threads .., hcancelled,
        rfl, rfl, rfl⟩
    obtain ⟨d, hleads, hwritten, hend, hopen⟩ := ih hcancelled' hqueue' hwrite' (Start.write _)
    refine ⟨d, hb.trans hleads, ?_, hend, hopen.trans hopen'⟩
    rw [hwritten, hwritten', List.append_assoc]
    rfl

/-- The session with the messages of one call queued. -/
def switchedSession : Config Access.Answer Outcome State Task :=
  sampleSession.set (.caller 0)
    ((sampleSession.shared.push (.caller 0) .control (switchMessage 0 0 0)).push (.caller 0)
      .control (queryMessage 0)) (.ret (.returned (.ok ())))

/-- A call in a session with empty queues, whose messages the write task then writes. -/
theorem switch_display_whole_sample :
    ∃ (c d f : Config Access.Answer Outcome State Task)
      (before after : List (Label Access.Answer Task)),
      Run (Step (engine sampleSetup)) (initial sampleSetup) before c ∧
      Returns sampleSetup QueryFits 0 (.switchDisplay 0 0 0) c d (.ok ()) ∧
      Run (Step (engine sampleSetup)) d after f ∧
      f.shared.written = [switchEnvelope 0 0 0 0 0, queryEnvelope 0 1 0] ∧
      AllOrNothing 0 0 0 0 c.shared.accepted d.shared.accepted (.ok ()) (turns .write after)
        f.shared := by
  obtain ⟨before, hbefore⟩ := leads_sampleSession.run
  have hcall : Returns sampleSetup QueryFits 0 (.switchDisplay 0 0 0) sampleSession
      switchedSession (.ok ()) :=
    returns_ok ready_sampleSession (by decide) rfl (by decide)
  have hwrite : switchedSession.threads .write = .ret .waiting := rfl
  obtain ⟨f, hleads, hwritten, -, -⟩ := leads_drained _ rfl rfl hwrite (Start.spawnWrite rfl)
  obtain ⟨after, hafter⟩ := hleads.run
  exact ⟨_, _, f, before, after, hbefore, hcall, hafter, hwritten,
    switch_display_whole hbefore hcall hafter⟩

end Theorems

/-! ### A queue with room for one message -/

/-- The caller presses a key again and again while the write task sleeps. -/
theorem leads_filled (k : Nat) (hk : k ≤ commands) :
    ∃ c, Leads Calm sampleSetup (initial sampleSetup) c ∧ Ready c.shared ∧
      c.shared.remoteKeyboard = true ∧ c.shared.spawned.isSome = true ∧
      c.shared.controlQueue.length = k ∧ c.threads (.caller 0) = .ret (.returned (.ok ())) ∧
      c.threads .write = .ret .waiting := by
  induction k with
  | zero => exact ⟨_, leads_sampleSession, ready_sampleSession, rfl, rfl, rfl, rfl, rfl⟩
  | succ k ih =>
    obtain ⟨c, hleads, hready, hkeyboard, hspawned, hlength, hcaller, hwrite⟩ := ih (by omega)
    refine ⟨_, hleads.turn hcaller (Start.call _ 0 _ pressA) trivial
      (alone_sendKey hready hkeyboard (by omega) 0 ..), hready.push _ _, hkeyboard, hspawned, ?_,
      Config.set_threads .., ?_⟩
    · exact (length_push ..).trans (by rw [hlength])
    · rw [Config.set_threads_of_ne _ (by decide)]
      exact hwrite

/-- The queue has room for the switch and not for the query: the call fails, and
the switch is written, in a session that goes on. -/
theorem switch_display_halved :
    ¬ ∀ (setup : Setup) (n : Nat) (display width height : Int)
      (c d f : Config Access.Answer Outcome State Task) (result : Except ViewerError Unit)
      (before after : List (Label Access.Answer Task)),
      Run (Step (engine setup)) (initial setup) before c →
      Returns setup (fun _ _ => True) n (.switchDisplay display width height) c d result →
      Run (Step (engine setup)) d after f →
      f.shared.cancelled = false → f.shared.queuesOpen = true →
      AllOrNothing n display width height c.shared.accepted d.shared.accepted result
        (turns .write after) f.shared := by
  intro h
  obtain ⟨c, hleads, hready, -, hspawned, hlength, hcaller, hwrite⟩ :=
    leads_filled (commands - 1) (by decide)
  obtain ⟨before, hbefore⟩ := hleads.run
  have hcall : Returns sampleSetup (fun _ _ => True) 0 (.switchDisplay 0 0 0) c _
      (.error .backpressure) := returns_full hready (by rw [hlength]; rfl) hcaller (by decide)
  obtain ⟨f, hdrain, hwritten, hcancelled, hopen⟩ := leads_drained _
    (c := c.set (.caller 0) (c.shared.push (.caller 0) .control (switchMessage 0 0 0))
      (.ret (.returned (.error .backpressure)))) hready.cancelled rfl
    ((Config.set_threads_of_ne _ (by decide) ..).trans hwrite) (Start.spawnWrite hspawned)
  obtain ⟨after, hafter⟩ := hdrain.run
  have hnone := (h _ _ _ _ _ _ _ _ _ _ _ hbefore hcall hafter hcancelled
    (hopen.trans hready.queuesOpen)).failed (fun h => nomatch h)
  -- the switch is the last message of the queue
  refine hnone (switchEnvelope 0 c.shared.accepted 0 0 0) ?_ ⟨rfl, le_rfl, Nat.lt_succ_self _⟩
  rw [hwritten]
  exact List.mem_append_right _ (List.mem_append_right _ (List.mem_singleton_self _))

end Viewer

end RdEngine
