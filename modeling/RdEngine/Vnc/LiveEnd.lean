/-
RdEngine/Vnc/LiveEnd.lean

How a live VNC session ends, and what is seen of it (`vnc/live.rs`: `snapshot`,
`close`, the end of the reader).

One flag is both the frontend's request to close and the reader's mark that it
has left.  So a snapshot cannot tell a session that failed from one that was
closed, and a `close()` after a failure, or beside another one that has not yet
shut the socket down, returns with the socket open.
-/
import RdEngine.Lib.Monitors
import RdEngine.Vnc.Live

namespace RdEngine

namespace Vnc

namespace Live

open Lts

/-! ### Snapshots -/

structure VncSnapshot where
  phase : String
  error : Option VncError
  width : Nat
  height : Nat
  receivedUnits : Nat
  takenFrames : Nat
  keyboardAllowed : Bool
  clipboardAllowed : Bool
  closed : Bool

/-- `snapshot`, which holds the shared lock.  `keyboardAllowed` is what the
session was opened with. -/
def snapshot (session : LiveSession) (keyboardAllowed : Bool) (live : Live) : VncSnapshot where
  phase :=
    if live.closed then "closed"
    else if live.shared.failure.isSome then "failed"
    else if live.shared.frameReady || !live.shared.framebuffer.isEmpty then "streaming"
    else "connected"
  error := live.shared.failure
  width := session.width.toNat
  height := session.height.toNat
  receivedUnits := live.counters.receivedUpdates
  takenFrames := live.counters.takenFrames
  keyboardAllowed := keyboardAllowed
  clipboardAllowed := true
  closed := live.closed

/-! ### The session with its socket and the calls of `close` -/

/-- A thread's call of `close`. -/
inductive Closing where
  | idle
  /-- its swap found the flag down: the socket is to be shut down -/
  | shutting
  /-- about to return -/
  | leaving
deriving DecidableEq

/-- A session, its socket, and the calls of `close` that are under way. -/
structure Attended where
  live : Live
  /-- the socket is shut down, in both directions -/
  shutdown : Bool
  calls : Nat → Closing

/-- The session is open, and nobody closes it. -/
def Attended.opened (session : LiveSession) : Attended where
  live := .opened session
  shutdown := false
  calls := fun _ => .idle

/-- What happens to the session around its end. -/
inductive EndLabel where
  /-- what is no part of the end -/
  | works (event : Event)
  /-- the reader looks at a failed read; `own` if no close was requested -/
  | settles (error : VncError) (own : Bool)
  /-- the reader leaves -/
  | stops
  | snapshot (snapshot : VncSnapshot)
  /-- a call of `close` swaps the flag -/
  | swaps (call : Nat)
  | shutsDown (call : Nat)
  | closeReturns (call : Nat)

/-- The events of `EndStep.works`. -/
def Works (live : Live) : Event → Prop
  | .stops | .close => False
  | .locks => ∀ error, live.reader ≠ .failed error
  | _ => True

/-- A step of the reader, or of a call of `close`. -/
inductive EndStep (session : LiveSession) (keyboardAllowed : Bool) :
    Attended → EndLabel → Attended → Prop
  | works {s : Attended} {event : Event} {live : Live} (hworks : Works s.live event)
      (hstep : Step session s.live event live) :
      EndStep session keyboardAllowed s (.works event) { s with live }
  | settles {s : Attended} {error : VncError} (hreader : s.live.reader = .failed error) :
      EndStep session keyboardAllowed s (.settles error !s.live.closed)
        { s with live := settleFailure error s.live }
  | stops {s : Attended} (hreader : s.live.reader = .stopping) :
      EndStep session keyboardAllowed s .stops { s with live := stop s.live }
  /- while the reader stops it holds the lock -/
  | snapshot {s : Attended} (hreader : s.live.reader ≠ .stopping) :
      EndStep session keyboardAllowed s (.snapshot (snapshot session keyboardAllowed s.live)) s
  | swaps {s : Attended} {call : Nat} (hcall : s.calls call = .idle) :
      EndStep session keyboardAllowed s (.swaps call)
        { s with
          live := close s.live
          calls := Function.update s.calls call (if s.live.closed then .leaving else .shutting) }
  | shutsDown {s : Attended} {call : Nat} (hcall : s.calls call = .shutting) :
      EndStep session keyboardAllowed s (.shutsDown call)
        { s with shutdown := true, calls := Function.update s.calls call .leaving }
  | closeReturns {s : Attended} {call : Nat} (hcall : s.calls call = .leaving) :
      EndStep session keyboardAllowed s (.closeReturns call)
        { s with calls := Function.update s.calls call .idle }

/-! ### What is expected of the end -/

/-- How the session came to its end. -/
inductive Cause where
  | running
  /-- the reader failed, and no close was requested since -/
  | failed (error : VncError)
  | closed
  /-- a close was requested after the reader failed -/
  | closedAfter (error : VncError)
deriving DecidableEq

structure EndAccount where
  cause : Cause
  shutdown : Bool

namespace EndAccount

def start : EndAccount := ⟨.running, false⟩

def after (account : EndAccount) : EndLabel → EndAccount
  | .settles error true =>
    { account with
      cause := match account.cause with
        | .running => .failed error
        | cause => cause }
  | .swaps _ =>
    { account with
      cause := match account.cause with
        | .running => .closed
        | .failed error => .closedAfter error
        | cause => cause }
  | .shutsDown _ => { account with shutdown := true }
  | _ => account

/-- A session that failed says so and why until it is closed; one that was
closed first reports no error; and `close()` returns with the socket shut down. -/
def allows (account : EndAccount) : EndLabel → Prop
  | .snapshot snapshot =>
    match account.cause with
    | .failed error => snapshot.phase = "failed" ∧ snapshot.error = some error
    | .closed => snapshot.error = none
    | .running | .closedAfter _ => True
  | .closeReturns _ => account.shutdown = true
  | _ => True

end EndAccount

/-- The account as a monitor of the events. -/
def endMonitor : Monitor EndLabel EndAccount := ⟨.start, EndAccount.after, EndAccount.allows⟩

/-- The reader does not leave by itself, and a call of `close` finds the flag
down, or the socket shut down already. -/
def Orderly (s : Attended) : EndLabel → Prop
  | .stops => s.live.closed = true
  | .swaps _ => s.live.closed = false ∨ s.shutdown = true
  | _ => True

/-! ### Steps -/

/-- The rest of the session touches neither the flag nor the failure. -/
theorem works_kept {session : LiveSession} {live live' : Live} {event : Event}
    (hworks : Works live event) (h : Step session live event live') :
    live'.closed = live.closed ∧ live'.shared.failure = live.shared.failure
      ∧ live.reader ≠ .stopping ∧ live'.reader ≠ .stopping := by
  cases h with
  | checkClosed hreader =>
    refine ⟨rfl, rfl, by rw [hreader]; exact Reader.noConfusion, ?_⟩
    show (if live.closed then Reader.finished else Reader.reading) ≠ .stopping
    split <;> exact Reader.noConfusion
  | receives message hreader =>
    refine ⟨?_, ?_, by rw [hreader]; exact Reader.noConfusion, ?_⟩ <;>
      cases message <;> first | rfl | exact Reader.noConfusion
  | readFails error hreader =>
    exact ⟨rfl, rfl, by rw [hreader]; exact Reader.noConfusion, Reader.noConfusion⟩
  | publish hreader =>
    exact ⟨rfl, rfl, by rw [hreader]; exact Reader.noConfusion, Reader.noConfusion⟩
  | keepClipboard hreader =>
    exact ⟨rfl, rfl, by rw [hreader]; exact Reader.noConfusion, Reader.noConfusion⟩
  | settleFailure hreader => exact absurd hreader (hworks _)
  | stops hreader => exact hworks.elim
  | takeFrame hreader =>
    unfold takeFrame
    split
    · exact ⟨rfl, rfl, hreader, hreader⟩
    · exact ⟨rfl, rfl, hreader, hreader⟩
  | takeClipboard hreader => exact ⟨rfl, rfl, hreader, hreader⟩
  | close => exact hworks.elim

/-- What the live session is like at each cause of an orderly end. -/
def Cause.Holds : Cause → Live → Prop
  | .running, live =>
    live.closed = false ∧ live.shared.failure = none ∧ live.reader ≠ .stopping
  | .failed _, live => live.closed = false ∧ live.reader = .stopping
  | .closed, live => live.closed = true ∧ live.shared.failure = none
  | .closedAfter _, live => live.closed = true

theorem Cause.Holds.works {cause : Cause} {live live' : Live} {session : LiveSession}
    {event : Event} (h : cause.Holds live) (hworks : Works live event)
    (hstep : Step session live event live') : cause.Holds live' := by
  obtain ⟨hclosed, hfailure, hbefore, hafter⟩ := works_kept hworks hstep
  cases cause with
  | running => exact ⟨hclosed.trans h.1, hfailure.trans h.2.1, hafter⟩
  | failed error => exact absurd h.2 hbefore
  | closed => exact ⟨hclosed.trans h.1, hfailure.trans h.2⟩
  | closedAfter error => exact hclosed.trans h

/-- How the states of an orderly run are tied to the account. -/
structure Linked (account : EndAccount) (s : Attended) : Prop where
  cause : account.cause.Holds s.live
  shutdown : account.shutdown = s.shutdown
  leaving : ∀ call, s.calls call = .leaving → s.shutdown = true

theorem opened_linked (session : LiveSession) : Linked .start (.opened session) where
  cause := ⟨rfl, rfl, Reader.noConfusion⟩
  shutdown := rfl
  leaving := by
    intro call h
    cases h

theorem linked_settles {account : EndAccount} {s : Attended} {error : VncError}
    (hs : Linked account s) (hreader : s.live.reader = .failed error) :
    Linked (account.after (.settles error !s.live.closed))
      { s with live := settleFailure error s.live } := by
  obtain ⟨cause, shutdown⟩ := account
  obtain ⟨hcause, hshutdown, hleaving⟩ := hs
  cases cause with
  | running =>
    obtain ⟨hclosed, -, -⟩ := hcause
    rw [hclosed]
    exact ⟨⟨hclosed, rfl⟩, hshutdown, hleaving⟩
  | failed error =>
    have hstopping : s.live.reader = .stopping := hcause.2
    rw [hreader] at hstopping
    cases hstopping
  | closed =>
    obtain ⟨hclosed, hfailure⟩ := hcause
    rw [hclosed]
    refine ⟨⟨hclosed, ?_⟩, hshutdown, hleaving⟩
    simp only [settleFailure, hclosed, if_true]
    exact hfailure
  | closedAfter error =>
    have hclosed : s.live.closed = true := hcause
    rw [hclosed]
    exact ⟨hclosed, hshutdown, hleaving⟩

theorem linked_swaps {account : EndAccount} {s : Attended} {call : Nat} (hs : Linked account s)
    (horderly : s.live.closed = false ∨ s.shutdown = true) :
    Linked (account.after (.swaps call))
      { s with
        live := close s.live
        calls := Function.update s.calls call (if s.live.closed then .leaving else .shutting) } := by
  obtain ⟨cause, shutdown⟩ := account
  obtain ⟨hcause, hshutdown, hleaving⟩ := hs
  refine ⟨?_, hshutdown, fun other hother => ?_⟩
  · cases cause with
    | running => exact ⟨rfl, hcause.2.1⟩
    | failed error => exact rfl
    | closed => exact ⟨rfl, hcause.2⟩
    | closedAfter error => exact rfl
  · rcases horderly with hclosed | hshut
    · by_cases hsame : other = call
      · subst hsame
        simp [hclosed] at hother
      · exact hleaving other (by simpa [hsame] using hother)
    · exact hshut

theorem linked_step {session : LiveSession} {keyboardAllowed : Bool} {account : EndAccount}
    {s s' : Attended} {l : EndLabel} (hs : Linked account s)
    (h : Where (EndStep session keyboardAllowed) Orderly s l s') :
    account.allows l ∧ Linked (account.after l) s' := by
  obtain ⟨horderly, h⟩ := h
  obtain ⟨hcause, hshutdown, hleaving⟩ := hs
  cases h with
  | works hworks hstep => exact ⟨trivial, hcause.works hworks hstep, hshutdown, hleaving⟩
  | settles hreader => exact ⟨trivial, linked_settles ⟨hcause, hshutdown, hleaving⟩ hreader⟩
  | stops hreader =>
    refine ⟨trivial, ?_, hshutdown, hleaving⟩
    obtain ⟨cause, shutdown⟩ := account
    have hclosed : s.live.closed = true := horderly
    cases cause with
    | running => exact absurd hreader hcause.2.2
    | failed error =>
      rw [hcause.1] at hclosed
      cases hclosed
    | closed => exact ⟨rfl, hcause.2⟩
    | closedAfter error => exact rfl
  | snapshot hreader =>
    refine ⟨?_, hcause, hshutdown, hleaving⟩
    obtain ⟨cause, shutdown⟩ := account
    cases cause with
    | running => trivial
    | failed error => exact absurd hcause.2 hreader
    | closed => exact hcause.2
    | closedAfter error => trivial
  | swaps hcall =>
    exact ⟨trivial, linked_swaps ⟨hcause, hshutdown, hleaving⟩ horderly⟩
  | shutsDown hcall => exact ⟨trivial, hcause, rfl, fun _ _ => rfl⟩
  | @closeReturns call hcall =>
    refine ⟨hshutdown.trans (hleaving call hcall), hcause, hshutdown, fun other hother => ?_⟩
    by_cases hsame : other = call
    · subst hsame
      simp at hother
    · exact hleaving other (by simpa [hsame] using hother)

/-! ### The end of a session -/

/-- What ties the states of any run to the account: until the flag is up all of it. -/
structure Tied (account : EndAccount) (s : Attended) : Prop where
  cause : s.live.closed = false → account.cause.Holds s.live
  shutdown : account.shutdown = s.shutdown

theorem tied_step {session : LiveSession} {keyboardAllowed : Bool} {account : EndAccount}
    {s s' : Attended} {l : EndLabel} (hs : Tied account s)
    (h : EndStep session keyboardAllowed s l s') : Tied (account.after l) s' := by
  obtain ⟨hcause, hshutdown⟩ := hs
  cases h with
  | works hworks hstep =>
    refine ⟨fun hclosed => ?_, hshutdown⟩
    have hsame := (works_kept hworks hstep).1
    exact (hcause (hsame.symm.trans hclosed)).works hworks hstep
  | @settles error hreader =>
    refine ⟨fun hclosed => ?_, ?_⟩
    · have hopen : s.live.closed = false := hclosed
      have hholds := hcause hopen
      obtain ⟨cause, shutdown⟩ := account
      rw [hopen]
      cases cause with
      | running => exact ⟨hclosed, rfl⟩
      | failed e =>
        have hstopping : s.live.reader = .stopping := hholds.2
        rw [hreader] at hstopping
        cases hstopping
      | closed =>
        rw [hholds.1] at hopen
        cases hopen
      | closedAfter e =>
        rw [show s.live.closed = true from hholds] at hopen
        cases hopen
    · cases s.live.closed <;> exact hshutdown
  | stops =>
    refine ⟨fun hclosed => ?_, hshutdown⟩
    cases hclosed
  | snapshot => exact ⟨hcause, hshutdown⟩
  | swaps =>
    refine ⟨fun hclosed => ?_, hshutdown⟩
    cases hclosed
  | shutsDown => exact ⟨hcause, rfl⟩
  | closeReturns => exact ⟨hcause, hshutdown⟩

theorem tied_run {session : LiveSession} {keyboardAllowed : Bool} {s : Attended}
    {ls : List EndLabel} (hrun : Run (EndStep session keyboardAllowed) (.opened session) ls s) :
    Tied (endMonitor.account ls) s := by
  refine Run.history (P := fun ls s => Tied (endMonitor.account ls) s) (fun ls s l s' hs h => ?_)
    hrun ⟨fun _ => (opened_linked session).cause, rfl⟩
  rw [Monitor.account_snoc]
  exact tied_step hs h

/-- A step that is not orderly leads to a report that is not allowed. -/
theorem disorderly_step {session : LiveSession} {keyboardAllowed : Bool} {s s' : Attended}
    {ls : List EndLabel} {l : EndLabel}
    (hrun : Run (EndStep session keyboardAllowed) (.opened session) ls s)
    (hstep : EndStep session keyboardAllowed s l s') (hdisorderly : ¬ Orderly s l) :
    ∃ next s'', EndStep session keyboardAllowed s' next s''
      ∧ ¬ endMonitor.Met (ls ++ [l] ++ [next]) := by
  obtain ⟨hcause, hshutdown⟩ := tied_run hrun
  cases hstep with
  | stops hreader =>
    have hopen : s.live.closed = false := Bool.eq_false_of_not_eq_true hdisorderly
    have hholds := hcause hopen
    refine ⟨_, _, .snapshot Reader.noConfusion, fun hmet => ?_⟩
    have hallows := (endMonitor.met_snoc.mp hmet).2
    rw [Monitor.account_snoc] at hallows
    generalize endMonitor.account ls = account at hholds hallows
    obtain ⟨cause, shutdown⟩ := account
    cases cause with
    | running => exact hholds.2.2 hreader
    | failed error =>
      -- the flag hides the failure
      have hphase : "closed" = "failed" := hallows.1
      simp at hphase
    | closed =>
      rw [hholds.1] at hopen
      cases hopen
    | closedAfter error =>
      rw [show s.live.closed = true from hholds] at hopen
      cases hopen
  | @swaps call hcall =>
    have hdisorderly : ¬ (s.live.closed = false ∨ s.shutdown = true) := hdisorderly
    rw [not_or, Bool.not_eq_false] at hdisorderly
    obtain ⟨hclosed, hopen⟩ := hdisorderly
    refine ⟨.closeReturns call, _, .closeReturns (by simp [hclosed]), fun hmet => hopen ?_⟩
    have hallows := (endMonitor.met_snoc.mp hmet).2
    rw [Monitor.account_snoc] at hallows
    exact hshutdown.symm.trans hallows
  | _ => exact absurd trivial hdisorderly

/-- **How a session ends is reported in the runs whose steps are all orderly**: the
reader leaves only after a close was requested, and no call of `close` finds the
flag up with the socket still open.  A step that is not orderly can be followed by
a report that is wrong. -/
theorem end_reported {session : LiveSession} {keyboardAllowed : Bool} {s : Attended}
    {ls : List EndLabel} (hrun : Run (EndStep session keyboardAllowed) (.opened session) ls s) :
    (Run (Where (EndStep session keyboardAllowed) Orderly) (.opened session) ls s →
        endMonitor.Met ls) ∧
      ∀ l s', EndStep session keyboardAllowed s l s' → ¬ Orderly s l →
        ∃ next s'', EndStep session keyboardAllowed s' next s''
          ∧ ¬ endMonitor.Met (ls ++ [l] ++ [next]) := by
  refine ⟨fun horderly => ?_, fun l s' hstep => disorderly_step hrun hstep⟩
  have hstep : ∀ account s l s', Linked account s →
      Where (EndStep session keyboardAllowed) Orderly s l s' →
      account.allows l ∧ Linked (account.after l) s' := fun _ _ _ _ hs h => linked_step hs h
  exact (endMonitor.met_run hstep horderly (opened_linked session)).1

/-- A session of one pixel. -/
def endedSession : LiveSession := ⟨preferredPixelFormat, 1, 1⟩

/-- The frontend closes the session, and then looks at it. -/
theorem end_reported_closed :
    ∃ ls s, Run (EndStep endedSession true) (.opened endedSession) ls s ∧ ls.length = 4
      ∧ endMonitor.Met ls := by
  have hswaps : Where (EndStep endedSession true) Orderly (.opened endedSession) (.swaps 0) _ :=
    ⟨.inl rfl, .swaps rfl⟩
  have hshut := (Run.single hswaps).snoc
    (show Where _ Orderly _ (.shutsDown 0) _ from ⟨trivial, .shutsDown rfl⟩)
  have hreturned := hshut.snoc
    (show Where _ Orderly _ (.closeReturns 0) _ from ⟨trivial, .closeReturns rfl⟩)
  have hrun := hreturned.snoc
    (show Where _ Orderly _ (.snapshot _) _ from ⟨trivial, .snapshot Reader.noConfusion⟩)
  have hplain := hrun.mono fun _ _ _ h => h.2
  exact ⟨_, _, hplain, rfl, (end_reported hplain).1 hrun⟩

/-- A read fails and the reader leaves: the session looks closed, and a call of
`close` leaves the socket open. -/
theorem end_unreported :
    ∃ ls s, Run (EndStep endedSession true) (.opened endedSession) ls s
      ∧ (∃ v, .snapshot v ∈ ls ∧ v.phase = "closed" ∧ v.error = some (.io "read"))
      ∧ .closeReturns 0 ∈ ls ∧ s.shutdown = false ∧ ¬ endMonitor.Met ls := by
  have hfailed := ((Run.single (@EndStep.works endedSession true (.opened endedSession)
    .checkClosed _ trivial (.checkClosed rfl))).snoc (@EndStep.works _ _ _
    (.readFails (.io "read")) _ trivial (.readFails _ rfl))).snoc (EndStep.settles rfl)
  have hlooked := (hfailed.snoc (EndStep.stops rfl)).snoc (EndStep.snapshot Reader.noConfusion)
  have hrun := (hlooked.snoc (@EndStep.swaps _ _ _ 0 rfl)).snoc
    (@EndStep.closeReturns _ _ _ 0 rfl)
  refine ⟨_, _, hrun, ⟨_, List.mem_append_left _ (List.mem_append_left _
    (List.mem_append_right _ (List.mem_singleton_self _))), rfl, rfl⟩,
    List.mem_append_right _ (List.mem_singleton_self _), rfl, fun hmet => ?_⟩
  have hallows := (endMonitor.met_snoc.mp hmet).2
  cases hallows

end Live

end Vnc

end RdEngine
