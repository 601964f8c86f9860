/-
RdEngine/Viewer/StreamOptions.lean

Whether the peer was told what the viewer stores of a setting.

A setter pushes its value to the peer and then stores it, or only stores it when
it finds the session not authenticated; the login request is made from the
options the viewer was started with.  The invariant (`Agrees`) holds as long as
nothing new is set before the session is authenticated and no two calls of one
setter overlap between push and store with different values.
-/
import RdEngine.Viewer.Setters
import RdEngine.Viewer.Progress

namespace RdEngine

namespace Viewer

open Lts Threads

/-! ### What changes the messages and the session -/

/-- The accesses that change a queue, the wire, or the state of the session. -/
inductive Talk : (a : Access) → a.Answer → Prop
  | login (request : LoginRequest) (password : Option Bytes) (response : Bytes) :
      Talk (.login request password) (.sent response)
  | secondFactor (code : String) : Talk (.sendSecondFactor code) .sent
  | write (e : Envelope) : Talk (.send e) .sent
  | push (queue : Queue) (message : Message) : Talk (.trySend queue message) (.ok ())
  | take (queue : Queue) (e : Envelope) : Talk (.recv queue) (.message e)
  | close : Talk .closeQueues ()
  | setAuthenticated (value : Bool) : Talk (.setAuthenticated value) ()
  | setControl (published : Bool) : Talk (.setControl published) ()
  | spawn (decoders : Decoders) (source : Geometry) : Talk (.spawn decoders source) ()

/-- Two states in which the same was said, and waits to be said. -/
structure SameTalk (s s' : State) : Prop where
  wire : s'.wire = s.wire
  controlQueue : s'.controlQueue = s.controlQueue
  mouseQueue : s'.mouseQueue = s.mouseQueue
  queuesOpen : s'.queuesOpen = s.queuesOpen
  authenticated : s'.authenticated = s.authenticated
  control : s'.control = s.control
  spawned : s'.spawned = s.spawned

theorem sameTalk_effect (task : Task) (s : State) {a : Access} {answer : a.Answer}
    (h : ¬ Talk a answer) : SameTalk s (effect task s a answer) := by
  cases a with
  | login request password =>
    match answer, h with
    | .sent response, h => exact absurd (Talk.login request password response) h
    | .failed, _ | .dropped, _ => exact ⟨rfl, rfl, rfl, rfl, rfl, rfl, rfl⟩
  | sendSecondFactor code =>
    match answer, h with
    | .sent, h => exact absurd (Talk.secondFactor code) h
    | .failed, _ | .dropped, _ => exact ⟨rfl, rfl, rfl, rfl, rfl, rfl, rfl⟩
  | send e =>
    match answer, h with
    | .sent, h => exact absurd (Talk.write e) h
    | .failed, _ | .dropped, _ => exact ⟨rfl, rfl, rfl, rfl, rfl, rfl, rfl⟩
  | trySend queue message =>
    match answer, h with
    | .ok (), h => exact absurd (Talk.push queue message) h
    | .error _, _ => exact ⟨rfl, rfl, rfl, rfl, rfl, rfl, rfl⟩
  | recv queue =>
    match answer, h with
    | .message e, h => exact absurd (Talk.take queue e) h
    | .empty, _ | .closed, _ => exact ⟨rfl, rfl, rfl, rfl, rfl, rfl, rfl⟩
  | closeQueues => exact absurd Talk.close h
  | setAuthenticated value => exact absurd (Talk.setAuthenticated value) h
  | setControl published => exact absurd (Talk.setControl published) h
  | spawn decoders source => exact absurd (Talk.spawn decoders source) h
  | setRemote kind value => cases kind <;> exact ⟨rfl, rfl, rfl, rfl, rfl, rfl, rfl⟩
  | acquireSlot | acquireBytes | sendVideo | recvVideo | awaitFirst | joinNext =>
    cases answer <;> exact ⟨rfl, rfl, rfl, rfl, rfl, rfl, rfl⟩
  | _ => exact ⟨rfl, rfl, rfl, rfl, rfl, rfl, rfl⟩

theorem not_talk_option {a : Access} {answer : a.Answer} (h : optionAccess a = true) :
    ¬ Talk a answer := by
  intro htalk
  cases htalk <;> cases h

/-! ### The invariant -/

section Invariant

variable {V : Type}

/-- Two values agree unless a caller is about to store the first. -/
structure Settled (setters : Nat → Setter V) (current stored : V) : Prop where
  settled : (∀ n v, setters n ≠ .storing v) → current = stored
  storing : ∀ n v, setters n = .storing v → current = v

section Settled

variable {setters : Nat → Setter V} {current stored : V} {n : Nat} {v : V}

/-- A caller has made `v` current and is about to store it; whoever else is about
to store stores the same. -/
theorem Settled.begin (hothers : ∀ m w, m ≠ n → setters m = .storing w → w = v) :
    Settled (Function.update setters n (.storing v)) v stored where
  settled hnone := absurd (Function.update_self ..) (hnone n v)
  storing m w hm := by
    rcases eq_or_ne m n with rfl | hne
    · rw [Function.update_self] at hm
      cases hm
      rfl
    · rw [Function.update_of_ne hne] at hm
      exact (hothers m w hne hm).symm

theorem Settled.store (h : Settled setters current stored) (hn : setters n = .storing v) :
    Settled (Function.update setters n .other) current v where
  settled _ := h.storing n v hn
  storing m w hm := by
    rcases eq_or_ne m n with rfl | hne
    · rw [Function.update_self] at hm
      cases hm
    · rw [Function.update_of_ne hne] at hm
      exact h.storing m w hm

/-- A caller that is not about to store, before and after. -/
theorem Settled.move (h : Settled setters current stored) {setter : Setter V}
    (hbefore : ∀ w, setters n ≠ .storing w) (hafter : ∀ w, setter ≠ .storing w) :
    Settled (Function.update setters n setter) current stored := by
  have hsame : ∀ m w, Function.update setters n setter m = .storing w ↔ setters m = .storing w := by
    intro m w
    rcases eq_or_ne m n with rfl | hne
    · rw [Function.update_self]
      exact ⟨fun hm => absurd hm (hafter w), fun hm => absurd hm (hbefore w)⟩
    · rw [Function.update_of_ne hne]
  exact ⟨fun hnone => h.settled fun m w hm => hnone m w ((hsame m w).mpr hm),
    fun m w hm => h.storing m w ((hsame m w).mp hm)⟩

end Settled

/-- The session is not over: its queues are open, and once its tasks are spawned
it is authenticated. -/
def Live (s : State) : Prop :=
  s.queuesOpen = true ∧ (s.spawned = none ∨ s.authenticated = true)

/-- The message the write task holds. -/
def handed (h : Hand) : List Message := (h.held.map (·.2.message)).toList

/-- What was said to the peer, and what is on its way to it. -/
def pipeline (h : Hand) (s : State) : List Message :=
  s.wire ++ (handed h ++ s.controlQueue.map (·.message))

/-- `run` has not published its queues yet. -/
def RunPhase.early : RunPhase → Bool
  | .login | .entering => true
  | .published | .spawned => false

/-- What the threads know, taken together. -/
structure View (V : Type) where
  phase : RunPhase
  begun : Bool
  asked : Bool
  hand : Hand
  cleared : Nat → Bool
  setters : Nat → Setter V

variable (setting : Setting V) (first : V)

/-- Before the control queue is published nothing but logins was said, and they
told what the viewer was started with; while the session lives, what is said and
on its way agrees with what is stored. -/
structure Agrees (w : View V) (s : State) : Prop where
  unspawned : w.phase ≠ .spawned → s.spawned = none
  begun : w.begun = true → s.spawned ≠ none
  early : w.phase.early = true → s.control = false ∧ s.controlQueue = [] ∧
    ∀ e, w.hand.held ≠ some (.control, e)
  uncleared : w.phase.early = true → ∀ n, w.cleared n = false
  said : w.phase.early = true → ∀ m ∈ s.wire, setting.Silent m ∨ setting.tells m = some first
  loggedIn : w.phase ≠ .login ∨ s.authenticated = true →
    ∃ m ∈ s.wire, ∃ v, setting.tells m = some v
  mouse : ∀ e ∈ s.mouseQueue, setting.Silent e.message
  held : ∀ e, w.hand.held = some (.mouse, e) → setting.Silent e.message
  silent : w.asked = false
  live : Live s →
    Settled w.setters (setting.current first (pipeline w.hand s)) (setting.stored s)

section Steps

variable {setting first} {w : View V} {s : State}

/-- Nothing is said and nobody's session changes; only the values are left. -/
theorem Agrees.carry (h : Agrees setting first w s) {s' : State} (hs : SameTalk s s')
    {setters : Nat → Setter V}
    (hlive : Live s →
      Settled setters (setting.current first (pipeline w.hand s)) (setting.stored s')) :
    Agrees setting first { w with setters := setters } s' where
  unspawned hphase := hs.spawned.trans (h.unspawned hphase)
  begun hbegun := hs.spawned ▸ h.begun hbegun
  early hearly := by
    rw [hs.control, hs.controlQueue]
    exact h.early hearly
  uncleared := h.uncleared
  said hearly := hs.wire ▸ h.said hearly
  loggedIn := by
    rw [hs.authenticated, hs.wire]
    exact h.loggedIn
  mouse := hs.mouseQueue ▸ h.mouse
  held := h.held
  silent := h.silent
  live := by
    rw [Live, hs.queuesOpen, hs.spawned, hs.authenticated, pipeline, hs.wire, hs.controlQueue]
    exact hlive

theorem Agrees.same (h : Agrees setting first w s) {s' : State} (hs : SameTalk s s')
    (hstored : setting.stored s' = setting.stored s) : Agrees setting first w s' :=
  h.carry hs fun hlive => hstored ▸ h.live hlive

/-- Before the control queue is published the first value is in force. -/
theorem Agrees.current_early (h : Agrees setting first w s) (hearly : w.phase.early = true)
    {wire : List Message}
    (hwire : ∀ m ∈ wire, setting.Silent m ∨ setting.tells m = some first) :
    setting.current first (wire ++ (handed w.hand ++ s.controlQueue.map (·.message))) = first := by
  obtain ⟨-, hqueue, hhand⟩ := h.early hearly
  refine Setting.current_first fun m hm => ?_
  rw [hqueue, List.map_nil, List.append_nil, List.mem_append] at hm
  rcases hm with hm | hm
  · exact (hwire m hm).imp_left And.left
  · rw [handed, Option.mem_toList, Option.map_eq_some_iff] at hm
    obtain ⟨⟨queue, e⟩, hheld, rfl⟩ := hm
    cases queue with
    | control => exact absurd hheld (hhand e)
    | mouse => exact .inl (h.held e hheld).1

/-- The session says something of its own, before the control queue is
published. -/
theorem Agrees.say (h : Agrees setting first w s) (hphase : w.phase = .login) {message : Message}
    (htells : setting.Silent message ∨ setting.tells message = some first)
    (hstored : setting.stored { s with wire := s.wire ++ [message] } = setting.stored s) :
    Agrees setting first w { s with wire := s.wire ++ [message] } := by
  have hearly : w.phase.early = true := by rw [hphase]; rfl
  have hsaid : ∀ m ∈ s.wire ++ [message], setting.Silent m ∨ setting.tells m = some first := by
    intro m hm
    rw [List.mem_append, List.mem_singleton] at hm
    rcases hm with hm | rfl
    · exact h.said hearly m hm
    · exact htells
  refine { h with said := fun _ => hsaid, loggedIn := fun hany => ?_, live := fun hlive => ?_ }
  · obtain ⟨m, hm, htell⟩ := h.loggedIn hany
    exact ⟨m, List.mem_append_left _ hm, htell⟩
  · have hbefore := h.live hlive
    rw [pipeline, h.current_early hearly (h.said hearly)] at hbefore
    rw [pipeline, h.current_early hearly hsaid, hstored]
    exact hbefore

theorem Agrees.close (h : Agrees setting first w s) (task : Task) :
    Agrees setting first w (effect task s .closeQueues ()) :=
  { h with
    early := fun hearly => ⟨(h.early hearly).1, rfl, (h.early hearly).2.2⟩
    mouse := fun _ he => nomatch he
    live := fun hlive => nomatch hlive.1 }

theorem Agrees.leave (h : Agrees setting first w s) (task : Task) :
    Agrees setting first w (effect task s (.setAuthenticated false) ()) := by
  have hstored := setting.stored_other task s (.setAuthenticated false) ()
    fun v => ne_store rfl v
  refine { h with loggedIn := fun hany => ?_, live := fun hlive => ?_ }
  · exact h.loggedIn (hany.imp_right fun hfalse => nomatch hfalse)
  · rw [hstored]
    exact h.live ⟨hlive.1, .inl (hlive.2.resolve_right fun hfalse => nomatch hfalse)⟩

/-- A message that tells nothing is queued. -/
theorem Agrees.pushSilent (h : Agrees setting first w s) {task : Task} {queue : Queue}
    {message : Message} (hpublished : queue = .control → w.phase.early = false)
    (hsilent : setting.Silent message) : Agrees setting first w (s.push task queue message) := by
  have hstored : setting.stored (s.push task queue message) = setting.stored s :=
    setting.stored_other task s (.trySend queue message) (.ok ()) fun v => ne_store rfl v
  cases queue with
  | control =>
    have hlate : w.phase.early ≠ true := fun hearly =>
      absurd ((hpublished rfl).symm.trans hearly) (by decide)
    refine { h with early := fun hearly => absurd hearly hlate, live := fun hlive => ?_ }
    have hpipeline : pipeline w.hand (s.push task .control message)
        = pipeline w.hand s ++ [message] := by
      simp [pipeline, State.push, State.setQueue, State.queue]
    rw [hpipeline, Setting.current_silent hsilent.1, List.append_nil, hstored]
    exact h.live hlive
  | mouse =>
    refine { h with mouse := fun e he => ?_, live := fun hlive => ?_ }
    · rcases List.mem_append.mp (show e ∈ s.mouseQueue ++ [_] from he) with he | he
      · exact h.mouse e he
      · rw [List.mem_singleton.mp he]
        exact hsilent
    · rw [hstored]
      exact h.live hlive

/-- A caller pushes its value, while nobody is about to store another. -/
theorem Agrees.pushTelling (h : Agrees setting first w s) {task : Task} {n : Nat}
    {message : Message} {v : V} (hpublished : w.phase.early = false)
    (htell : setting.tells message = some v)
    (hothers : Live s → ∀ m x, m ≠ n → w.setters m = .storing x → x = v) :
    Agrees setting first { w with setters := Function.update w.setters n (.storing v) }
      (s.push task .control message) := by
  have hlate : w.phase.early ≠ true := fun hearly =>
    absurd (hpublished.symm.trans hearly) (by decide)
  refine { h with early := fun hearly => absurd hearly hlate, live := fun hlive => ?_ }
  have hpipeline : pipeline w.hand (s.push task .control message)
      = pipeline w.hand s ++ [message] := by
    simp [pipeline, State.push, State.setQueue, State.queue]
  rw [hpipeline, Setting.current_snoc htell]
  exact Settled.begin (hothers hlive)

/-- A caller finds the session not authenticated, and goes on to store what is
stored already or is about to be. -/
theorem Agrees.beginStore (h : Agrees setting first w s) {n : Nat} {v : V}
    (hcalled : ∀ x, w.setters n ≠ .storing x)
    (hothers : Live s → ∀ m x, m ≠ n → w.setters m = .storing x → x = v)
    (hsame : Live s → (∀ m x, m ≠ n → w.setters m ≠ .storing x) → v = setting.stored s) :
    Agrees setting first { w with setters := Function.update w.setters n (.storing v) } s := by
  refine { h with live := fun hlive => ?_ }
  have hv : setting.current first (pipeline w.hand s) = v := by
    by_cases hnone : ∀ m x, m ≠ n → w.setters m ≠ .storing x
    · rw [hsame hlive hnone]
      refine (h.live hlive).settled fun m x => ?_
      rcases eq_or_ne m n with rfl | hne
      · exact hcalled x
      · exact hnone m x hne
    · push Not at hnone
      obtain ⟨m, x, hne, hm⟩ := hnone
      rw [← hothers hlive m x hne hm]
      exact (h.live hlive).storing m x hm
  show Settled _ (setting.current first (pipeline w.hand s)) _
  rw [hv]
  exact Settled.begin (hothers hlive)

/-- A caller goes on without being about to store. -/
theorem Agrees.move (h : Agrees setting first w s) {n : Nat} {setter : Setter V}
    (hbefore : ∀ x, w.setters n ≠ .storing x) (hafter : ∀ x, setter ≠ .storing x) :
    Agrees setting first { w with setters := Function.update w.setters n setter } s :=
  { h with live := fun hlive => (h.live hlive).move hbefore hafter }

theorem Agrees.store (h : Agrees setting first w s) {task : Task} {n : Nat} {v : V}
    {answer : (setting.store v).Answer} (hn : w.setters n = .storing v) :
    Agrees setting first { w with setters := Function.update w.setters n .other }
      (effect task s (setting.store v) answer) := by
  have htalk : ¬ Talk (setting.store v) answer := not_talk_option (setting.optionAccess_store v)
  refine h.carry (sameTalk_effect task s htalk) fun hlive => ?_
  rw [setting.stored_store]
  exact (h.live hlive).store hn

/-- The write task takes a message: from the control queue it stays in its place,
from the mouse queue it tells nothing. -/
theorem Agrees.take (h : Agrees setting first w s) {task : Task} {queue : Queue} {e : Envelope}
    (hnone : w.hand.held = none) (hhead : (s.queue queue).head? = some e) :
    Agrees setting first { w with hand := { w.hand with held := some (queue, e) } }
      (effect task s (.recv queue) (.message e)) := by
  have hstored := setting.stored_other task s (.recv queue) (.message e) fun v => ne_store rfl v
  obtain ⟨rest, hrest⟩ := List.head?_eq_some_iff.mp hhead
  have hhanded : handed w.hand = [] := by rw [handed, hnone]; rfl
  cases queue with
  | control =>
    -- the message moves from the queue into the hand, and the order stays
    have hrest : s.controlQueue = e :: rest := hrest
    refine { h with early := fun hearly => ?_, held := (fun _ hheld => nomatch hheld),
                    live := fun hlive => ?_ }
    · rw [(h.early hearly).2.1] at hrest
      cases hrest
    · have hbefore := h.live hlive
      rw [pipeline, hhanded, hrest] at hbefore
      rw [pipeline, hstored]
      show Settled _ (setting.current first
        (s.wire ++ ([e.message] ++ s.controlQueue.tail.map (·.message)))) _
      rw [hrest]
      exact hbefore
  | mouse =>
    -- input says nothing of the setting, wherever it stands
    have hrest : s.mouseQueue = e :: rest := hrest
    have hsilent : setting.Silent e.message := h.mouse e (hrest ▸ List.mem_cons_self)
    refine { h with early := fun hearly => ?_, mouse := fun e' he => ?_, held := fun e' he => ?_,
                    live := fun hlive => ?_ }
    · exact ⟨(h.early hearly).1, (h.early hearly).2.1, fun _ hheld => nomatch hheld⟩
    · exact h.mouse e' (List.mem_of_mem_tail he)
    · cases he
      exact hsilent
    · have hbefore := h.live hlive
      rw [pipeline, hhanded, List.nil_append] at hbefore
      rw [hstored]
      show Settled _ (setting.current first
        (s.wire ++ e.message :: s.controlQueue.map (·.message))) _
      rw [Setting.current_silent hsilent.1]
      exact hbefore

/-- What was in hand is now said. -/
theorem Agrees.write (h : Agrees setting first w s) {task : Task} {queue : Queue} {e : Envelope}
    (hheld : w.hand.held = some (queue, e)) :
    Agrees setting first { w with hand := { w.hand with held := none } }
      (effect task s (.send e) .sent) := by
  have hstored := setting.stored_other task s (.send e) .sent fun v => ne_store rfl v
  refine { h with early := fun hearly => ?_, said := fun hearly m hm => ?_,
                  loggedIn := fun hany => ?_,
                  held := (fun _ he => nomatch he), live := fun hlive => ?_ }
  · exact ⟨(h.early hearly).1, (h.early hearly).2.1, fun _ he => nomatch he⟩
  · rcases List.mem_append.mp (show m ∈ s.wire ++ [e.message] from hm) with hm | hm
    · exact h.said hearly m hm
    · rw [List.mem_singleton.mp hm]
      cases queue with
      | control => exact absurd hheld ((h.early hearly).2.2 e)
      | mouse => exact .inl (h.held e hheld)
  · obtain ⟨m, hm, htell⟩ := h.loggedIn hany
    exact ⟨m, List.mem_append_left _ hm, htell⟩
  · have hbefore := h.live hlive
    have hhanded : handed w.hand = [e.message] := by rw [handed, hheld]; rfl
    rw [pipeline, hhanded] at hbefore
    rw [hstored]
    show Settled _ (setting.current first
      (s.wire ++ [e.message] ++ ([] ++ s.controlQueue.map (·.message)))) _
    rw [List.nil_append, List.append_assoc]
    exact hbefore

/-- A turn begins with an empty hand; no control message was in it. -/
theorem Agrees.turn (h : Agrees setting first w s)
    (hnone : ∀ e, w.hand.held ≠ some (.control, e)) :
    Agrees setting first { w with hand := emptyHand } s := by
  refine { h with early := fun hearly => ?_, held := (fun _ he => nomatch he),
                  live := fun hlive => ?_ }
  · exact ⟨(h.early hearly).1, (h.early hearly).2.1, fun _ he => nomatch he⟩
  · have hbefore := h.live hlive
    show Settled _ (setting.current first
      (s.wire ++ ([] ++ s.controlQueue.map (·.message)))) _
    rw [pipeline, handed] at hbefore
    cases hheld : w.hand.held with
    | none =>
      rw [hheld] at hbefore
      exact hbefore
    | some held =>
      obtain ⟨queue, e⟩ := held
      cases queue with
      | control => exact absurd hheld (hnone e)
      | mouse =>
        rw [hheld] at hbefore
        rw [List.nil_append]
        rw [show (Option.map (·.2.message) (some (Queue.mouse, e))).toList = [e.message] from rfl,
          List.singleton_append, Setting.current_silent (h.held e hheld).1] at hbefore
        exact hbefore

/-- A login request is on the wire, so the peer was told the first value. -/
theorem Agrees.told_login (h : Agrees setting first w s) (hphase : w.phase = .login)
    (hlogin : s.wire.any isLogin = true) : ∃ m ∈ s.wire, ∃ v, setting.tells m = some v := by
  obtain ⟨m, hm, hlogin⟩ := List.any_eq_true.mp hlogin
  rcases h.said (by rw [hphase]; rfl) m hm with hsilent | htell
  · rw [hsilent.2] at hlogin
    cases hlogin
  · exact ⟨m, hm, first, htell⟩

theorem Agrees.takeOver (h : Agrees setting first w s) (hphase : w.phase = .login)
    (hlogin : s.wire.any isLogin = true) :
    Agrees setting first { w with phase := .entering } s :=
  { h with
    unspawned := fun _ => h.unspawned (by rw [hphase]; exact nofun)
    early := fun _ => h.early (by rw [hphase]; rfl)
    uncleared := fun _ => h.uncleared (by rw [hphase]; rfl)
    said := fun _ => h.said (by rw [hphase]; rfl)
    loggedIn := fun _ => h.told_login hphase hlogin }

theorem Agrees.enter (h : Agrees setting first w s) (task : Task) (hphase : w.phase = .entering) :
    Agrees setting first w (effect task s (.setAuthenticated true) ()) := by
  have hstored := setting.stored_other task s (.setAuthenticated true) () fun v => ne_store rfl v
  have hspawned := h.unspawned (by rw [hphase]; exact nofun)
  refine { h with loggedIn := fun _ => ?_, live := fun hlive => ?_ }
  · exact h.loggedIn (.inl (by rw [hphase]; exact nofun))
  · rw [hstored]
    exact h.live ⟨hlive.1, .inl hspawned⟩

theorem Agrees.publish (h : Agrees setting first w s) (task : Task) (hphase : w.phase = .entering) :
    Agrees setting first { w with phase := .published } (effect task s (.setControl true) ()) := by
  have hstored := setting.stored_other task s (.setControl true) () fun v => ne_store rfl v
  exact { h with
    unspawned := fun _ => h.unspawned (by rw [hphase]; exact nofun)
    early := fun hearly => nomatch hearly
    uncleared := fun hearly => nomatch hearly
    said := fun hearly => nomatch hearly
    loggedIn := fun _ => h.loggedIn (.inl (by rw [hphase]; exact nofun))
    live := fun hlive => hstored ▸ h.live hlive }

theorem Agrees.withdraw (h : Agrees setting first w s) (task : Task)
    (hphase : w.phase = .spawned) :
    Agrees setting first w (effect task s (.setControl false) ()) := by
  have hstored := setting.stored_other task s (.setControl false) () fun v => ne_store rfl v
  exact { h with
    early := fun hearly => by rw [hphase] at hearly; cases hearly
    live := fun hlive => hstored ▸ h.live hlive }

theorem Agrees.spawn (h : Agrees setting first w s) (task : Task) (hphase : w.phase = .published)
    (decoders : Decoders) (source : Geometry) :
    Agrees setting first { w with phase := .spawned }
      (effect task s (.spawn decoders source) ()) := by
  have hstored := setting.stored_other task s (.spawn decoders source) () fun v => ne_store rfl v
  have hspawned := h.unspawned (by rw [hphase]; exact nofun)
  exact { h with
    unspawned := fun hne => absurd rfl hne
    begun := fun _ => Option.some_ne_none _
    early := fun hearly => nomatch hearly
    uncleared := fun hearly => nomatch hearly
    said := fun hearly => nomatch hearly
    loggedIn := fun _ => h.loggedIn (.inl (by rw [hphase]; exact nofun))
    live := fun hlive => hstored ▸ h.live ⟨hlive.1, .inl hspawned⟩ }

theorem Agrees.clear (h : Agrees setting first w s) (n : Nat) (hcontrol : s.control = true) :
    Agrees setting first { w with cleared := Function.update w.cleared n true } s := by
  refine { h with uncleared := fun hearly => ?_ }
  rw [(h.early hearly).1] at hcontrol
  cases hcontrol

/-- A caller begins a call without having looked at the control queue. -/
theorem Agrees.unclear (h : Agrees setting first w s) (n : Nat) :
    Agrees setting first { w with cleared := Function.update w.cleared n false } s := by
  refine { h with uncleared := fun hearly m => ?_ }
  rcases eq_or_ne m n with rfl | hne
  · exact Function.update_self ..
  · show Function.update w.cleared n false m = false
    rw [Function.update_of_ne hne]
    exact h.uncleared hearly m

theorem Agrees.quiet (h : Agrees setting first w s) (task : Task) {a : Access} {answer : a.Answer}
    (htalk : ¬ Talk a answer) (hstore : ∀ v, a ≠ setting.store v) :
    Agrees setting first w (effect task s a answer) :=
  h.same (sameTalk_effect task s htalk) (setting.stored_other task s a answer hstore)

/-- The receive task's answers to the peer's probes. -/
theorem silent_testDelay {message : Message} (h : isTestDelay message = true) :
    setting.Silent message := by
  rcases message with ⟨_ | union⟩
  · cases h
  · cases union <;> first | exact ⟨rfl, rfl⟩ | cases h

theorem Agrees.runStep {setup : Setup} {g : Knows V} {a : Access} {answer : a.Answer}
    (h : Agrees setting first w s) (hg : g.phase = w.phase)
    (htold : ∀ decoders, setting.told (loginOption setup decoders) = some first)
    (hadmits : (runKnows setup).admits g a) (hallowed : allowed s a answer) :
    Agrees setting first { w with phase := ((runKnows setup).next g a answer).phase }
      (effect .run s a answer) := by
  have hstay : ∀ {s' : State}, Agrees setting first w s' →
      Agrees setting first { w with phase := g.phase } s' := by
    intro s' h'
    rw [hg]
    exact h'
  cases a with
  | login request password =>
    -- the request says the value the viewer was started with
    obtain ⟨hphase, decoders, hoption⟩ := hadmits
    refine hstay ?_
    cases answer with
    | sent response =>
      refine h.say (hg.symm.trans hphase) (.inr ?_)
        (setting.stored_other .run s (.login request password) (.sent response)
          fun v => ne_store rfl v)
      show request.option.bind setting.told = some first
      rw [hoption]
      exact htold decoders
    | failed | dropped => exact h.quiet .run nofun fun v => ne_store rfl v
  | sendSecondFactor code =>
    refine hstay ?_
    cases answer with
    | sent =>
      exact h.say (hg.symm.trans hadmits) (.inl ⟨rfl, rfl⟩)
        (setting.stored_other .run s (.sendSecondFactor code) .sent fun v => ne_store rfl v)
    | failed | dropped => exact h.quiet .run nofun fun v => ne_store rfl v
  | intoParts =>
    -- the handover takes the phase on
    cases answer with
    | ok context => exact h.takeOver (hg.symm.trans hadmits) hallowed
    | error error => exact hstay (h.quiet .run nofun fun v => ne_store rfl v)
  | setAuthenticated value =>
    refine hstay ?_
    cases value with
    | true => exact h.enter .run (hg.symm.trans hadmits)
    | false => exact h.leave .run
  | setControl value =>
    cases value with
    | true => exact h.publish .run (hg.symm.trans hadmits)
    | false => exact hstay (h.withdraw .run (hg.symm.trans hadmits))
  | spawn decoders source => exact h.spawn .run (hg.symm.trans hadmits) decoders source
  | closeQueues => exact hstay (h.close .run)
  | trySend | send | recv | setRequestedFps | setImageQuality => cases hadmits
  | _ => exact hstay (h.quiet .run nofun fun v => ne_store rfl v)

theorem Agrees.receiveStep {g : Knows V} {a : Access} {answer : a.Answer}
    (h : Agrees setting first w s) (hbegun : g.begun = w.begun) (hasked : g.asked = w.asked)
    (hadmits : receiveKnows.admits g a)
    (hpeer : ∀ message, (⟨a, answer⟩ : Σ a : Access, a.Answer)
      = ⟨.incoming, .message message⟩ → isOption message = false) :
    Agrees setting first
      { w with
        begun := (receiveKnows.next g a answer).begun
        asked := (receiveKnows.next g a answer).asked } (effect .receive s a answer) := by
  obtain ⟨hawake, ha, hoption⟩ := hadmits
  -- the receiver stores no option unless the peer sends one
  have hne : ∀ v, a ≠ setting.store v := by
    refine ne_store ?_
    by_contra hasks
    have hasks : optionAccess a = true := Bool.not_eq_false _ ▸ hasks
    rw [hasked, h.silent] at hoption
    exact absurd (hoption hasks) (by decide)
  have hstay : ∀ {s' : State}, Agrees setting first w s' →
      Agrees setting first { w with begun := g.begun, asked := g.asked } s' := by
    intro s' h'
    rw [hbegun, hasked]
    exact h'
  have hlate : w.phase.early = false := by
    by_contra hearly
    refine absurd (h.unspawned fun hphase => ?_) (h.begun (hbegun ▸ hawake))
    rw [hphase] at hearly
    exact hearly rfl
  cases a with
  | incoming =>
    cases answer with
    | message message =>
      have hsilent : isOption message = false := hpeer message rfl
      refine { h with silent := hsilent, begun := fun _ => h.begun (hbegun ▸ hawake) }
    | ended | failed | cancelled => exact hstay (h.quiet .receive nofun hne)
  | trySend queue message =>
    cases queue with
    | mouse => cases ha
    | control =>
      match answer with
      | .ok () => exact hstay (h.pushSilent (fun _ => hlate) (silent_testDelay ha))
      | .error _ => exact hstay (h.quiet .receive nofun hne)
  | setAuthenticated | setControl | closeQueues | spawn | send | recv | login
  | sendSecondFactor => cases ha
  | _ => exact hstay (h.quiet .receive nofun hne)

/-- Only the message in hand counts. -/
theorem Agrees.hold (h : Agrees setting first w s) {hand : Hand} (hheld : hand.held = w.hand.held) :
    Agrees setting first { w with hand := hand } s := by
  refine { h with early := fun hearly => ?_, held := fun e he => h.held e (hheld ▸ he),
                  live := fun hlive => ?_ }
  · exact ⟨(h.early hearly).1, (h.early hearly).2.1, fun e he => (h.early hearly).2.2 e (hheld ▸ he)⟩
  · show Settled _ (setting.current first (pipeline hand s)) _
    rw [pipeline, handed, hheld]
    exact h.live hlive

theorem Talk.of_traffic {a : Access} {answer : a.Answer} (h : Traffic a answer) :
    Talk a answer := by
  cases h with
  | push queue message => exact .push queue message
  | take queue e => exact .take queue e
  | write e => exact .write e
  | close => exact .close

theorem Agrees.writeStep {g : Knows V} {a : Access} {answer : a.Answer}
    (h : Agrees setting first w s) (hhand : g.hand = w.hand)
    (hadmits : writeKnows.admits g a) (hallowed : allowed s a answer) :
    Agrees setting first { w with hand := (writeKnows.next g a answer).hand }
      (effect .write s a answer) := by
  have hadmits : writerGhost.admits w.hand a := hhand ▸ hadmits
  show Agrees setting first { w with hand := writerGhost.next g.hand a answer } _
  rw [hhand]
  by_cases htalk : Talk a answer
  · cases htalk with
    | take queue e =>
      have hnext : writerGhost.next w.hand (.recv queue) (.message e)
          = { w.hand with held := some (queue, e) } := by cases queue <;> rfl
      rw [hnext]
      exact h.take (held_of_admits hadmits) hallowed
    | write e =>
      obtain ⟨queue, hheld⟩ := hadmits
      exact h.write hheld
    | close => exact h.close .write
    | login | secondFactor | push | setAuthenticated | setControl | spawn => cases hadmits
  · have hstore : ∀ v, a ≠ setting.store v := by
      refine ne_store ?_
      cases a with
      | setRequestedFps | setImageQuality => cases hadmits
      | _ => rfl
    exact (h.quiet .write htalk hstore).hold (held_next fun htraffic => htalk (.of_traffic htraffic))

theorem Agrees.feedStep {a : Access} {answer : a.Answer} (h : Agrees setting first w s)
    (ha : feedAccess a = true) : Agrees setting first w (effect .feed s a answer) := by
  cases a with
  | setAuthenticated value =>
    cases value with
    | true => cases ha
    | false => exact h.leave .feed
  | setRequestedFps | setImageQuality | login | sendSecondFactor | send | trySend | recv
  | closeQueues | setControl | spawn => cases ha
  | _ => exact h.quiet .feed nofun fun v => ne_store rfl v

/-- What a caller does between two looks of its setter: loads, and whatever other
calls do. -/
theorem Agrees.callerQuiet {n : Nat} {a : Access} {answer : a.Answer}
    (h : Agrees setting first w s) (ha : callerAccess a = true)
    (hstore : ∀ v, a ≠ setting.store v)
    (hpush : ∀ queue message, (⟨a, answer⟩ : Σ a : Access, a.Answer)
      ≠ ⟨.trySend queue message, .ok ()⟩) :
    Agrees setting first w (effect (.caller n) s a answer) := by
  cases a with
  | setAuthenticated value =>
    cases value with
    | true => cases ha
    | false => exact h.leave _
  | trySend queue message =>
    match answer, hpush with
    | .ok (), hpush => exact absurd rfl (hpush queue message)
    | .error _, _ => exact h.quiet _ nofun hstore
  | login | sendSecondFactor | send | recv | closeQueues | setControl | spawn => cases ha
  | _ => exact h.quiet _ nofun hstore

/-- The view after a caller's ghost state has changed. -/
def View.setCaller (w : View V) (n : Nat) (cleared : Bool) (setter : Setter V) : View V :=
  { w with
    cleared := Function.update w.cleared n cleared
    setters := Function.update w.setters n setter }

/-- A caller that neither queues a message nor finds the control queue. -/
theorem next_quiet {g : Knows V} {a : Access} {answer : a.Answer}
    (hg : g.setter = .other ∨ ∃ v, g.setter = .pushing v)
    (hpush : ∀ queue message, (⟨a, answer⟩ : Σ a : Access, a.Answer)
      ≠ ⟨.trySend queue message, .ok ()⟩)
    (hcontrol : (⟨a, answer⟩ : Σ a : Access, a.Answer) ≠ ⟨.control, true⟩) :
    (callerKnows setting).next g a answer = g := by
  rcases hg with hg | ⟨v, hg⟩ <;> simp only [callerKnows, hg]
  · cases a with
    | control =>
      cases answer with
      | true => exact absurd rfl hcontrol
      | false => rfl
    | _ => rfl
  · cases a with
    | trySend queue message =>
      rcases answer with e | ⟨⟩
      · rfl
      · exact absurd rfl (hpush queue message)
    | control =>
      cases answer with
      | true => exact absurd rfl hcontrol
      | false => rfl
    | _ => rfl

theorem Agrees.callerStep {g : Knows V} {n : Nat} {a : Access} {answer : a.Answer}
    (h : Agrees setting first w s) (hcleared : g.cleared = w.cleared n)
    (hsetter : g.setter = w.setters n) (hadmits : (callerKnows setting).admits g a)
    (hallowed : allowed s a answer)
    (hpushed : ∀ v message, (⟨a, answer⟩ : Σ a : Access, a.Answer)
      = ⟨.trySend .control message, .ok ()⟩ → setting.tells message = some v → Live s →
      ∀ m x, m ≠ n → w.setters m = .storing x → x = v)
    (hfound : ∀ v, g.setter = .called v → (⟨a, answer⟩ : Σ a : Access, a.Answer)
      = ⟨.authenticated, false⟩ → Live s →
      (∀ m x, m ≠ n → w.setters m = .storing x → x = v) ∧
        ((∀ m x, m ≠ n → w.setters m ≠ .storing x) → v = setting.stored s)) :
    Agrees setting first
      (w.setCaller n ((callerKnows setting).next g a answer).cleared
        ((callerKnows setting).next g a answer).setter) (effect (.caller n) s a answer) := by
  -- the two fields of a caller's ghost state, changed one at a time
  have hkeep : ∀ {setter : Setter V} {s' : State},
      Agrees setting first { w with setters := Function.update w.setters n setter } s' →
      Agrees setting first (w.setCaller n g.cleared setter) s' := by
    intro setter s' h'
    rw [View.setCaller, hcleared, Function.update_eq_self]
    exact h'
  have hstay : ∀ {s' : State}, Agrees setting first w s' →
      Agrees setting first (w.setCaller n g.cleared g.setter) s' := by
    intro s' h'
    rw [View.setCaller, hcleared, hsetter, Function.update_eq_self, Function.update_eq_self]
    exact h'
  have hclear : s.control = true → Agrees setting first (w.setCaller n true g.setter) s := by
    intro hcontrol
    rw [View.setCaller, hsetter, Function.update_eq_self]
    exact h.clear n hcontrol
  have hlate : g.cleared = true → w.phase.early = false := by
    intro hg
    by_contra hearly
    have := h.uncleared (Bool.not_eq_false _ ▸ hearly) n
    rw [← hcleared, hg] at this
    cases this
  -- an access that stores nothing and sends nothing, though it may find control
  have hrest : (g.setter = .other ∨ ∃ v, g.setter = .pushing v) → callerAccess a = true →
      (∀ v, a ≠ setting.store v) →
      (∀ queue message, (⟨a, answer⟩ : Σ a : Access, a.Answer)
        ≠ ⟨.trySend queue message, .ok ()⟩) →
      Agrees setting first
        (w.setCaller n ((callerKnows setting).next g a answer).cleared
          ((callerKnows setting).next g a answer).setter) (effect (.caller n) s a answer) := by
    intro hsetter ha hstore hpush
    by_cases hcontrol : (⟨a, answer⟩ : Σ a : Access, a.Answer) = ⟨.control, true⟩
    · cases hcontrol
      rcases hsetter with hphase | ⟨v, hphase⟩
      all_goals
        simp only [callerKnows, hphase]
        exact hphase ▸ hclear hallowed.symm
    · rw [next_quiet hsetter hpush hcontrol]
      exact hstay (h.callerQuiet ha hstore hpush)
  cases hphase : g.setter with
  | called v =>
    simp only [callerKnows, hphase] at hadmits
    subst hadmits
    cases answer with
    | true =>
      simp only [callerKnows, hphase]
      refine hkeep ((h.move ?_ ?_).quiet _ (fun htalk => by cases htalk) fun v => ne_store rfl v)
      · rw [← hsetter, hphase]
        exact fun x heq => by cases heq
      · exact fun x heq => by cases heq
    | false =>
      simp only [callerKnows, hphase]
      have hfound := hfound v hphase rfl
      refine hkeep ((h.beginStore ?_ (fun hlive => (hfound hlive).1)
        fun hlive => (hfound hlive).2).quiet _ (fun htalk => by cases htalk) fun v => ne_store rfl v)
      rw [← hsetter, hphase]
      exact fun x heq => by cases heq
  | storing v =>
    simp only [callerKnows, hphase] at hadmits
    subst hadmits
    simp only [callerKnows, hphase]
    exact hkeep (h.store (hsetter.symm.trans hphase))
  | pushing v =>
    simp only [callerKnows, hphase] at hadmits
    obtain ⟨ha, hstore, hsend⟩ := hadmits
    by_cases hpush : ∃ queue message, (⟨a, answer⟩ : Σ a : Access, a.Answer)
        = ⟨.trySend queue message, .ok ()⟩
    · obtain ⟨queue, message, hpush⟩ := hpush
      cases hpush
      obtain ⟨rfl, hg, htell⟩ := hsend queue message rfl
      simp only [callerKnows, hphase]
      exact hkeep (h.pushTelling (hlate hg) htell (hpushed v message rfl htell))
    · exact hrest (.inr ⟨v, hphase⟩) ha hstore fun queue message heq => hpush ⟨_, _, heq⟩
  | other =>
    simp only [callerKnows, hphase] at hadmits
    obtain ⟨ha, hstore, hsend⟩ := hadmits
    by_cases hpush : ∃ queue message, (⟨a, answer⟩ : Σ a : Access, a.Answer)
        = ⟨.trySend queue message, .ok ()⟩
    · obtain ⟨queue, message, hpush⟩ := hpush
      cases hpush
      obtain ⟨hg, hsilent⟩ := hsend queue message rfl
      have hnext : (callerKnows setting).next g (.trySend queue message) (.ok ()) = g :=
        next_other _ hphase fun ha => by cases ha
      rw [hnext]
      exact hstay (h.pushSilent (fun hqueue => hlate (hg hqueue)) hsilent)
    · exact hrest (.inl hphase) ha hstore fun queue message heq => hpush ⟨_, _, heq⟩

end Steps

end Invariant

end Viewer

end RdEngine
