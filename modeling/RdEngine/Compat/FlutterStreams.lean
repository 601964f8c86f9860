/-
RdEngine/Compat/FlutterStreams.lean

What the event streams of the Flutter bridge can rely on.

A task ends early only where another one is to come (`Tended`), so every stream that was
handed over is served until it is told "close" (`stream_served`).  A stream that is
replaced is told so last, and one that has lost its session nothing more
(`stream_retired`).
-/
import RdEngine.Lib.Runs
import RdEngine.Compat.FlutterSessions

namespace RdEngine

namespace Compat

namespace Flutter

open Lts

/-! ### What a turn closes -/

/-- A stage says "close" when it takes note of it, and does not forget it. -/
def Closes (stage : Stage PumpState) : Prop :=
  ∀ pump, (pump.closeSent = true → (stage pump).1.closeSent = true) ∧
    ((stage pump).1.closeSent = true → pump.closeSent = true ∨ .text "close" ∈ (stage pump).2)

theorem Closes.then {first second : Stage PumpState} (hfirst : Closes first)
    (hsecond : Closes second) : Closes (first.then second) := by
  intro pump
  obtain ⟨hkeeps, htells⟩ := hfirst pump
  obtain ⟨hkeeps', htells'⟩ := hsecond (first pump).1
  refine ⟨fun h => hkeeps' (hkeeps h), fun h => ?_⟩
  rcases htells' h with hbefore | hnow
  · exact (htells hbefore).imp id (List.mem_append_left _)
  · exact .inr (List.mem_append_right _ hnow)

theorem closes_of_same {stage : Stage PumpState}
    (h : ∀ pump, (stage pump).1.closeSent = pump.closeSent) : Closes stage :=
  fun pump => ⟨fun hsent => (h pump).trans hsent, fun hsent => .inl ((h pump).symm.trans hsent)⟩

theorem closes_collect (toText : List JsonObject → String) (snapshot : ViewerSnapshot)
    (peer : Option PeerReport) : Closes (collect toText snapshot peer) := by
  refine .then (closes_of_same fun pump => ?_) <| .then (closes_of_same fun pump => ?_) <|
    .then (closes_of_same fun pump => ?_) <| .then (closes_of_same fun pump => ?_) <|
    .then (closes_of_same fun pump => rfl) <| .then (fun pump => ?_)
      (closes_of_same fun pump => rfl)
  · unfold announce
    split <;> rfl
  · unfold tellPermission
    split <;> rfl
  · unfold tellDisplay
    split <;> rfl
  · unfold tellCodec
    split <;> rfl
  · unfold tellClose
    split
    · exact ⟨fun _ => rfl, fun _ => .inr (List.mem_append_right _ (List.mem_singleton.mpr rfl))⟩
    · exact ⟨id, .inl⟩

/-! ### Tasks that end early -/

/-- Every stream that was handed over has a task, or was told "close". -/
structure Tended (s : Bridge) : Prop where
  distinct : s.sessions.Distinct
  streams : ∀ a ∈ s.sessions, ∀ b ∈ s.sessions, ∀ k, a.events = some k → b.events = some k →
    a.id = b.id
  opened : ∀ a ∈ s.sessions, ∀ k, a.events = some k → k < s.opened
  calls : ∀ call ∈ s.calls, call.sink < s.opened ∧
    ∀ a ∈ s.sessions, a.events = some call.sink → a.id = call.id
  handed : ∀ k ∈ s.handed, k < s.opened
  closed : ∀ a ∈ s.sessions, a.pump.closeSent = true →
    ∃ k, a.events = some k ∧ (k, .text "close") ∈ s.told
  tended : ∀ a ∈ s.sessions, ∀ k, a.events = some k → k ∈ s.handed →
    a.pump.closeSent = true ∨ ∃ task ∈ s.tasks, task.id = a.id

/-- The sessions afterwards are those before, maybe with a new one, each with its stream;
what is closed in between is told. -/
structure Keeps (sessions sessions' : Sessions) (told : List (Nat × UiEvent)) : Prop where
  distinct : sessions.Distinct → sessions'.Distinct
  from' : ∀ b ∈ sessions', (b.events = none ∧ b.pump.closeSent = false) ∨
    ∃ a ∈ sessions, b.id = a.id ∧ b.events = a.events ∧
      (a.pump.closeSent = true → b.pump.closeSent = true) ∧
      (b.pump.closeSent = true → a.pump.closeSent = true ∨
        ∃ k, a.events = some k ∧ (k, .text "close") ∈ told)

theorem Keeps.refl (sessions : Sessions) (told : List (Nat × UiEvent)) :
    Keeps sessions sessions told :=
  ⟨id, fun b hb => .inr ⟨b, hb, rfl, rfl, id, .inl⟩⟩

/-- A change of one session that leaves its stream alone. -/
theorem Keeps.modify {sessions : Sessions} {id : Nat} {told : List (Nat × UiEvent)}
    {f : StreamedSession → StreamedSession}
    (hf : ∀ a ∈ sessions, a.id = id → (f a).id = a.id ∧ (f a).events = a.events ∧
      (a.pump.closeSent = true → (f a).pump.closeSent = true) ∧
      ((f a).pump.closeSent = true → a.pump.closeSent = true ∨
        ∃ k, a.events = some k ∧ (k, .text "close") ∈ told))
    (hid : ∀ a, (f a).id = a.id) : Keeps sessions (sessions.modify id f) told := by
  refine ⟨fun hdistinct => hdistinct.modify hid, fun b hb => .inr ?_⟩
  obtain ⟨a, ha, ⟨hown, rfl⟩ | ⟨-, rfl⟩⟩ := Sessions.mem_modify hb
  · exact ⟨a, ha, hf a ha hown⟩
  · exact ⟨b, ha, rfl, rfl, fun h => h, .inl⟩

theorem Keeps.trans {first second third : Sessions} {told : List (Nat × UiEvent)}
    (h : Keeps first second told) (h' : Keeps second third told) : Keeps first third told := by
  refine ⟨fun hdistinct => h'.distinct (h.distinct hdistinct), fun c hc => ?_⟩
  rcases h'.from' c hc with hnew | ⟨b, hb, hid, hevents, hkept, hclosed⟩
  · exact .inl hnew
  rcases h.from' b hb with ⟨hnone, hopen⟩ | ⟨a, ha, hid', hevents', hkept', hclosed'⟩
  · refine .inl ⟨hevents.trans hnone, ?_⟩
    rw [← Bool.not_eq_true]
    intro hsent
    rcases hclosed hsent with hbefore | ⟨k, hk, -⟩
    · exact nomatch hopen.symm.trans hbefore
    · exact nomatch hnone.symm.trans hk
  · refine .inr ⟨a, ha, hid.trans hid', hevents.trans hevents', fun hsent => hkept (hkept' hsent),
      fun hsent => ?_⟩
    rcases hclosed hsent with hbefore | hnow
    · exact hclosed' hbefore
    · rw [hevents'] at hnow
      exact .inr hnow

theorem keeps_add (id : Nat) (peer : String) (options : AddOptions) (sessions : Sessions)
    (told : List (Nat × UiEvent)) : Keeps sessions (add id peer options sessions).1 told := by
  unfold add
  cases hnew : newSession id peer options with
  | error message => exact .refl sessions told
  | ok session =>
    have hsession : session.id = id ∧ session.events = none ∧ session.pump.closeSent = false := by
      unfold newSession at hnew
      simp only [bind, Except.bind, throw, throwThe, MonadExceptOf.throw, pure, Except.pure] at hnew
      split_ifs at hnew
      split at hnew
      · cases hnew
        exact ⟨rfl, rfl, rfl⟩
      · cases hnew
    dsimp only
    split
    · exact .refl sessions told
    split
    · exact .refl sessions told
    · next hexists _ =>
      have hnone : sessions.get id = none := by
        rw [← Option.not_isSome_iff_eq_none]
        exact hexists
      refine ⟨fun hdistinct => ?_, fun b hb => ?_⟩
      · show (List.map _ (sessions ++ [session])).Nodup
        rw [List.map_append, List.nodup_append']
        refine ⟨hdistinct, List.nodup_singleton _, fun other hother hown => ?_⟩
        obtain ⟨a, ha, rfl⟩ := List.mem_map.mp hother
        exact Sessions.get_none hnone a ha ((List.mem_singleton.mp hown).trans hsession.1)
      · rcases List.mem_append.mp hb with hold | hlast
        · exact .inr ⟨b, hold, rfl, rfl, fun h => h, .inl⟩
        · rw [List.mem_singleton.mp hlast]
          exact .inl hsession.2

theorem keeps_remove (id : Nat) (sessions : Sessions) (told : List (Nat × UiEvent)) :
    Keeps sessions (remove id sessions) told := by
  refine ⟨fun hdistinct => hdistinct.sublist (List.filter_sublist.map _), fun b hb => .inr ?_⟩
  exact ⟨b, List.mem_of_mem_filter hb, rfl, rfl, fun h => h, .inl⟩

theorem keeps_start (runtime : Runtime) (id backend : Nat) (sessions : Sessions)
    (told : List (Nat × UiEvent)) :
    Keeps sessions (startViewer runtime id backend sessions).1 told := by
  have htaken : Keeps sessions (sessions.modify id fun a => { a with password := "" }) told :=
    .modify (fun _ _ _ => ⟨rfl, rfl, fun h => h, .inl⟩) fun _ => rfl
  unfold startViewer
  split
  · exact .refl sessions told
  cases sessions.get id with
  | none => exact .refl sessions told
  | some session =>
    dsimp only
    split
    · exact .refl sessions told
    cases openViewer runtime session.toSession with
    | error message => exact htaken
    | ok =>
      refine htaken.trans (.modify (fun _ _ _ => ⟨rfl, rfl, fun h => h, .inl⟩) fun _ => rfl)

theorem keeps_pump (toText : List JsonObject → String) (snapshot : ViewerSnapshot)
    (peer : Option PeerReport) (id : Nat) {sessions : Sessions} (hdistinct : sessions.Distinct) :
    Keeps sessions (pumpSession toText snapshot peer id sessions).1
      (pumpSession toText snapshot peer id sessions).2 := by
  unfold pumpSession
  cases hget : sessions.get id with
  | none => exact .refl sessions []
  | some session =>
    dsimp only
    split
    · next sink _ hevents hviewer =>
      refine .modify (fun a ha hid => ?_) fun _ => rfl
      obtain rfl : session = a := Option.some.inj <| hget.symm.trans <| by
        rw [← hid]
        exact hdistinct.get ha
      obtain ⟨hkept, htells⟩ := closes_collect toText snapshot peer session.pump
      refine ⟨rfl, rfl, hkept, fun hsent => (htells hsent).imp_right fun hnow => ?_⟩
      exact ⟨sink, hevents, List.mem_map_of_mem hnow⟩
    · exact .refl sessions []

variable {toText : List JsonObject → String} {runtime : Runtime} {s t u : Bridge}
  {l : BridgeLabel} {ls later : List BridgeLabel} {k id : Nat}

theorem Tended.keep (h : Tended s) {more : List (Nat × UiEvent)}
    (hkeeps : Keeps s.sessions t.sessions more) (htold : t.told = s.told ++ more)
    (hopened : s.opened ≤ t.opened) (hhanded : t.handed = s.handed)
    (hcalls : ∀ call ∈ t.calls, ∃ before ∈ s.calls, before.id = call.id ∧ before.sink = call.sink)
    (htasks : ∀ a ∈ s.sessions, a.events.isSome = true → a.pump.closeSent = false →
      (∃ task ∈ s.tasks, task.id = a.id) → ∃ task ∈ t.tasks, task.id = a.id) : Tended t where
  distinct := hkeeps.distinct h.distinct
  streams b hb b' hb' k hk hk' := by
    rcases hkeeps.from' b hb with ⟨hnone, -⟩ | ⟨a, ha, hid, hevents, -⟩
    · exact nomatch hnone.symm.trans hk
    rcases hkeeps.from' b' hb' with ⟨hnone, -⟩ | ⟨a', ha', hid', hevents', -⟩
    · exact nomatch hnone.symm.trans hk'
    rw [hid, hid']
    exact h.streams a ha a' ha' k (hevents ▸ hk) (hevents' ▸ hk')
  opened b hb k hk := by
    rcases hkeeps.from' b hb with ⟨hnone, -⟩ | ⟨a, ha, -, hevents, -⟩
    · exact nomatch hnone.symm.trans hk
    · exact (h.opened a ha k (hevents ▸ hk)).trans_le hopened
  calls call hcall := by
    obtain ⟨before, hbefore, hid, hsink⟩ := hcalls call hcall
    obtain ⟨hlt, hown⟩ := h.calls before hbefore
    refine ⟨hsink ▸ hlt.trans_le hopened, fun b hb hk => ?_⟩
    rcases hkeeps.from' b hb with ⟨hnone, -⟩ | ⟨a, ha, hid', hevents, -⟩
    · exact nomatch hnone.symm.trans hk
    · rw [hid', ← hid]
      exact hown a ha (hevents.symm.trans (hk.trans (congrArg some hsink.symm)))
  handed k hk := (h.handed k (hhanded ▸ hk)).trans_le hopened
  closed b hb hsent := by
    rw [htold]
    -- closed before, or closed now with the last event told
    rcases hkeeps.from' b hb with ⟨-, hopen⟩ | ⟨a, ha, -, hevents, -, hclosed⟩
    · exact nomatch hopen.symm.trans hsent
    rw [hevents]
    rcases hclosed hsent with hbefore | ⟨k, hk, hmem⟩
    · obtain ⟨k, hk, hmem⟩ := h.closed a ha hbefore
      exact ⟨k, hk, List.mem_append_left _ hmem⟩
    · exact ⟨k, hk, List.mem_append_right _ hmem⟩
  tended b hb k hk hk' := by
    rcases hkeeps.from' b hb with ⟨hnone, -⟩ | ⟨a, ha, hid, hevents, hkept, -⟩
    · exact nomatch hnone.symm.trans hk
    -- a stream that is not closed yet has kept its task
    cases hsent : a.pump.closeSent with
    | true => exact .inl (hkept hsent)
    | false =>
      have hstream := hevents.symm.trans hk
      have htask := (h.tended a ha k hstream (hhanded ▸ hk')).resolve_left
        (by rw [hsent]; exact Bool.false_ne_true)
      rw [hid]
      exact .inr (htasks a ha (by rw [hstream]; rfl) hsent htask)

theorem mem_drop {α : Type} {before after : List α} {x z : α} (h : z ∈ before ++ x :: after) :
    z = x ∨ z ∈ before ++ after := by
  rcases List.mem_append.mp h with hbefore | hrest
  · exact .inr (List.mem_append_left _ hbefore)
  · rcases List.mem_cons.mp hrest with rfl | hafter
    · exact .inl rfl
    · exact .inr (List.mem_append_right _ hafter)

theorem mem_more {α : Type} {before after : List α} (x : α) {z : α} (h : z ∈ before ++ after) :
    z ∈ before ++ x :: after := by
  rcases List.mem_append.mp h with hbefore | hafter
  · exact List.mem_append_left _ hbefore
  · exact List.mem_append_right _ (List.mem_cons_of_mem _ hafter)

/-- A task that goes on is still there. -/
theorem task_goes {before after : List PumpTask} {task : PumpTask} (stage : TaskStage)
    (htasks : s.tasks = before ++ task :: after) (h : ∃ task ∈ s.tasks, task.id = id) :
    ∃ task' ∈ before ++ { task with stage } :: after, task'.id = id := by
  obtain ⟨other, hother, hid⟩ := h
  rw [htasks] at hother
  rcases mem_drop hother with rfl | hmem
  · exact ⟨_, List.mem_append_right _ List.mem_cons_self, hid⟩
  · exact ⟨other, mem_more _ hmem, hid⟩

/-- What an attached stream makes of the sessions. -/
theorem attached_cases (hattach : (attachStream id k s.sessions).2.2 = .ok ()) :
    ∃ session, s.sessions.get id = some session ∧
      (attachStream id k s.sessions).1 = s.sessions.modify id (fun session =>
        { session with events := some k, pump := { session.pump with closeSent := false } }) ∧
      (attachStream id k s.sessions).2.1 = session.events.toList.map (·, .text "close") := by
  unfold attachStream at hattach ⊢
  cases hget : s.sessions.get id with
  | none =>
    rw [hget] at hattach
    cases hattach
  | some session => exact ⟨session, rfl, rfl, rfl⟩

/-- A session gets a new stream. -/
theorem Tended.attach (h : Tended s) (id : Nat) (more : List (Nat × UiEvent)) : Tended { s with
    sessions := s.sessions.modify id fun session =>
      { session with events := some s.opened, pump := { session.pump with closeSent := false } }
    calls := s.calls ++ [{ id, sink := s.opened }]
    opened := s.opened + 1
    told := s.told ++ more } := by
  -- the new stream is nobody else's
  have hfresh : ∀ a ∈ s.sessions, a.events ≠ some s.opened := fun a ha hk =>
    absurd (h.opened a ha s.opened hk) (lt_irrefl _)
  have hcases : ∀ b ∈ s.sessions.modify id (fun session => { session with
      events := some s.opened, pump := { session.pump with closeSent := false } }),
      (b.id = id ∧ b.events = some s.opened ∧ b.pump.closeSent = false) ∨ b ∈ s.sessions := by
    intro b hb
    obtain ⟨a, ha, ⟨hid, rfl⟩ | ⟨-, rfl⟩⟩ := Sessions.mem_modify hb
    · exact .inl ⟨hid, rfl, rfl⟩
    · exact .inr ha
  refine ⟨h.distinct.modify fun _ => rfl, fun b hb b' hb' k hk hk' => ?_, fun b hb k hk => ?_,
    fun call hcall => ?_, fun k hk => Nat.lt_succ_of_lt (h.handed k hk), fun b hb hsent => ?_,
    fun b hb k hk hhanded => ?_⟩
  · rcases hcases b hb with ⟨hid, hnew, -⟩ | hold <;>
      rcases hcases b' hb' with ⟨hid', hnew', -⟩ | hold'
    · exact hid.trans hid'.symm
    · exact absurd (hk'.trans (hk.symm.trans hnew)) (hfresh b' hold')
    · exact absurd (hk.trans (hk'.symm.trans hnew')) (hfresh b hold)
    · exact h.streams b hold b' hold' k hk hk'
  · rcases hcases b hb with ⟨-, hnew, -⟩ | hold
    · obtain rfl : k = s.opened := Option.some.inj (hk.symm.trans hnew)
      exact Nat.lt_succ_self _
    · exact Nat.lt_succ_of_lt (h.opened b hold k hk)
  · rcases List.mem_append.mp hcall with hold | hnew
    · obtain ⟨hlt, hown⟩ := h.calls call hold
      refine ⟨Nat.lt_succ_of_lt hlt, fun b hb hk => ?_⟩
      rcases hcases b hb with ⟨-, hnew, -⟩ | hb
      · have hsink : call.sink = s.opened := Option.some.inj (hk.symm.trans hnew)
        exact absurd hsink (Nat.ne_of_lt hlt)
      · exact hown b hb hk
    · rw [List.mem_singleton.mp hnew]
      refine ⟨Nat.lt_succ_self _, fun b hb hk => ?_⟩
      rcases hcases b hb with ⟨hid, -⟩ | hb
      · exact hid
      · exact absurd hk (hfresh b hb)
  · rcases hcases b hb with ⟨-, -, hopen⟩ | hold
    · exact nomatch hopen.symm.trans hsent
    · obtain ⟨k, hk, hmem⟩ := h.closed b hold hsent
      exact ⟨k, hk, List.mem_append_left _ hmem⟩
  · rcases hcases b hb with ⟨-, hnew, -⟩ | hold
    · obtain rfl : k = s.opened := Option.some.inj (hk.symm.trans hnew)
      exact absurd (h.handed s.opened hhanded) (lt_irrefl _)
    · exact h.tended b hold k hk hhanded

/-- A call hands its stream over, with a task. -/
theorem Tended.spawn (h : Tended s) {before after : List StartCall} {call : StartCall}
    (hcalls : s.calls = before ++ call :: after) : Tended { s with
      calls := before ++ after
      tasks := s.tasks ++ [{ id := call.id }]
      handed := s.handed ++ [call.sink] } := by
  have hcall : call ∈ s.calls := hcalls ▸ List.mem_append_right _ List.mem_cons_self
  refine ⟨h.distinct, h.streams, h.opened, fun other hother => ?_, fun k hk => ?_, h.closed,
    fun a ha k hk hhanded => ?_⟩
  · exact h.calls other (hcalls ▸ mem_more call hother)
  · rcases List.mem_append.mp hk with hold | hnew
    · exact h.handed k hold
    · rw [List.mem_singleton.mp hnew]
      exact (h.calls call hcall).1
  · rcases List.mem_append.mp hhanded with hold | hnew
    · refine (h.tended a ha k hk hold).imp_right fun ⟨task, htask, hid⟩ => ?_
      exact ⟨task, List.mem_append_left _ htask, hid⟩
    · -- the stream of the call is that of its session
      rw [List.mem_singleton.mp hnew] at hk
      refine .inr ⟨_, List.mem_append_right _ (List.mem_singleton.mpr rfl), ?_⟩
      exact ((h.calls call hcall).2 a ha hk).symm

/-- **Every step keeps the streams tended.** -/
theorem Tended.step (h : Tended s) (hstep : Bridge.Step toText runtime s l t) : Tended t := by
  have hsame : ∀ call ∈ s.calls, ∃ before ∈ s.calls, before.id = call.id ∧ before.sink = call.sink :=
    fun call hcall => ⟨call, hcall, rfl, rfl⟩
  cases hstep with
  | adds id peer options =>
    exact h.keep (keeps_add id peer options _ []) (List.append_nil _).symm le_rfl rfl hsame
      fun _ _ _ _ htask => htask
  | removes id =>
    exact h.keep (keeps_remove id _ []) (List.append_nil _).symm le_rfl rfl hsame
      fun _ _ _ _ htask => htask
  | attachFails =>
    -- the number of the stream is used up all the same
    exact h.keep (.refl _ []) (List.append_nil _).symm (Nat.le_succ _) rfl hsame
      fun _ _ _ _ htask => htask
  | @starts before after call backend hcalls =>
    refine h.keep (keeps_start runtime call.id backend _ []) (List.append_nil _).symm le_rfl rfl
      (fun other hother => ?_) fun _ _ _ _ htask => htask
    rcases mem_drop hother with rfl | hmem
    · exact ⟨call, hcalls ▸ List.mem_append_right _ List.mem_cons_self, rfl, rfl⟩
    · exact hsame other (hcalls ▸ mem_more call hmem)
  | @startFails before after call message backend hcalls =>
    refine h.keep (keeps_start runtime call.id backend _ []) (List.append_nil _).symm le_rfl rfl
      (fun other hother => ?_) fun _ _ _ _ htask => htask
    exact hsame other (hcalls ▸ mem_more call hother)
  | @spawnFails before after call hcalls =>
    -- the call is over, and nobody tends to its stream
    refine h.keep (.refl _ []) (List.append_nil _).symm le_rfl rfl
      (fun other hother => ?_) fun _ _ _ _ htask => htask
    exact hsame other (hcalls ▸ mem_more call hother)
  | @looks before after task htasks =>
    refine h.keep (.refl _ []) (List.append_nil _).symm le_rfl rfl hsame
      fun _ _ _ _ htask => task_goes _ htasks htask
  | @looksAway before after task htasks hstage hstreams =>
    refine h.keep (.refl _ []) (List.append_nil _).symm le_rfl rfl hsame
      fun a ha hevents _ htask => ?_
    obtain ⟨other, hother, hid⟩ := htask
    rw [htasks] at hother
    rcases mem_drop hother with rfl | hmem
    · -- the task had looked for this very stream
      unfold hasStream at hstreams
      rw [hid, h.distinct.get ha, Option.any_some, hevents] at hstreams
      cases hstreams
    · exact ⟨other, hmem, hid⟩
  | @pumps before after task snapshot peer htasks =>
    refine h.keep (keeps_pump toText snapshot peer task.id h.distinct) rfl le_rfl rfl hsame
      fun _ _ _ _ htask => task_goes _ htasks htask
  | @checks before after task htasks =>
    refine h.keep (.refl _ []) (List.append_nil _).symm le_rfl rfl hsame
      fun _ _ _ _ htask => task_goes _ htasks htask
  | @finishes before after task htasks hstage hfinished =>
    -- the session is closed, so its stream need not be tended
    refine h.keep (.refl _ []) (List.append_nil _).symm le_rfl rfl hsame
      fun a ha _ hopen htask => ?_
    obtain ⟨other, hother, hid⟩ := htask
    rw [htasks] at hother
    rcases mem_drop hother with rfl | hmem
    · unfold finished at hfinished
      rw [hid, h.distinct.get ha] at hfinished
      exact nomatch hopen.symm.trans hfinished
    · exact ⟨other, hmem, hid⟩
  | attaches id hattach =>
    obtain ⟨session, hget, hsessions, htold⟩ := attached_cases hattach
    rw [hsessions, htold]
    exact h.attach id _
  | spawns hcalls => exact h.spawn hcalls

variable (toText runtime) in
/-- A run of the bridge from its start. -/
abbrev BridgeRun (ls : List BridgeLabel) (s : Bridge) : Prop :=
  Run (Bridge.Step toText runtime) {} ls s

theorem BridgeRun.tended (h : BridgeRun toText runtime ls s) : Tended s :=
  Run.invariant (I := Tended) (fun _ _ _ hI hstep => hI.step hstep) h
    ⟨List.nodup_nil, fun _ ha => absurd ha List.not_mem_nil, fun _ ha => absurd ha List.not_mem_nil,
      fun _ ha => absurd ha List.not_mem_nil, fun _ ha => absurd ha List.not_mem_nil,
      fun _ ha => absurd ha List.not_mem_nil, fun _ ha => absurd ha List.not_mem_nil⟩

/-- **A stream that was handed over is served.**  As long as it is the stream of a session,
a task is there that pumps the session, or the stream was told "close"; whatever other
calls, tasks and removals do, for a session of this id or another. -/
theorem stream_served (h : BridgeRun toText runtime ls s) {session : StreamedSession}
    (hget : s.sessions.get id = some session) (hstream : session.events = some k)
    (hhanded : k ∈ s.handed) :
    (∃ task ∈ s.tasks, task.id = id) ∨ (k, .text "close") ∈ s.told := by
  obtain ⟨hmem, rfl⟩ := Sessions.get_some hget
  rcases h.tended.tended session hmem k hstream hhanded with hsent | htask
  · obtain ⟨sink, hsink, htold⟩ := h.tended.closed session hmem hsent
    obtain rfl : sink = k := Option.some.inj (hsink.symm.trans hstream)
    exact .inr htold
  · exact .inl htask

/-- A machine with an executor, whose trust anchor is never needed. -/
def deskRuntime : Runtime := { brokenRuntime with configuredKey := "" }

/-- A session is added and started. -/
def startedRun : List BridgeLabel := [.adds 1, .attaches 1 0, .starts 1, .spawns 1 0]

theorem startedRun_streams : ∃ s session,
    BridgeRun (fun _ => "") deskRuntime startedRun s ∧ s.sessions.get 1 = some session ∧
      session.events = some 0 ∧ 0 ∈ s.handed := by
  have h : BridgeRun (fun _ => "") deskRuntime startedRun _ :=
    .cons (.adds _ 1 "192.168.1.5" {}) <| .cons (.attaches _ 1 rfl) <|
    .cons (@Bridge.Step.starts _ _ _ [] [] ⟨1, 0, false⟩ 0 rfl rfl rfl) <|
    .cons (@Bridge.Step.spawns _ _ _ [] [] ⟨1, 0, true⟩ rfl rfl) <| .nil _
  exact ⟨_, _, h, rfl, rfl, List.mem_singleton.mpr rfl⟩

theorem stream_served_started : ∃ s,
    BridgeRun (fun _ => "") deskRuntime startedRun s ∧
      ((∃ task ∈ s.tasks, task.id = 1) ∨ (0, .text "close") ∈ s.told) := by
  obtain ⟨s, session, h, hget, hstream, hhanded⟩ := startedRun_streams
  exact ⟨s, h, stream_served h hget hstream hhanded⟩

/-! ### Streams that are retired -/

/-- What a stream was told, in order. -/
def Bridge.log (s : Bridge) (k : Nat) : List UiEvent :=
  (s.told.filter fun event => event.1 == k).map (·.2)

/-- The stream belongs to a session that is in the map. -/
def Attached (k : Nat) (s : Bridge) : Prop := ∃ a ∈ s.sessions, a.events = some k

/-- What a stream is told when it is replaced. -/
def BridgeLabel.farewell : BridgeLabel → List UiEvent
  | .attaches _ _ => [.text "close"]
  | _ => []

theorem Bridge.Step.opened_le (h : Bridge.Step toText runtime s l t) : s.opened ≤ t.opened := by
  cases h with
  | attaches | attachFails => exact Nat.le_succ _
  | _ => exact le_rfl

theorem log_append {told more : List (Nat × UiEvent)} (hs : s.told = told)
    (ht : t.told = told ++ more) :
    t.log k = s.log k ++ (more.filter fun event => event.1 == k).map (·.2) := by
  unfold Bridge.log
  rw [hs, ht, List.filter_append, List.map_append]

theorem log_other {more : List (Nat × UiEvent)} (ht : t.told = s.told ++ more)
    (hother : ∀ event ∈ more, event.1 ≠ k) : t.log k = s.log k := by
  have hnone : (more.filter fun event => event.1 == k) = [] :=
    List.filter_eq_nil_iff.mpr fun event hmem => by simpa using hother event hmem
  rw [log_append rfl ht, hnone]
  exact List.append_nil _

/-- A turn of a task tells its events to the stream of its session. -/
theorem pump_told {snapshot : ViewerSnapshot} {peer : Option PeerReport} {event : Nat × UiEvent}
    (hmem : event ∈ (pumpSession toText snapshot peer id s.sessions).2) : Attached event.1 s := by
  unfold pumpSession at hmem
  cases hget : s.sessions.get id with
  | none =>
    rw [hget] at hmem
    exact absurd hmem List.not_mem_nil
  | some session =>
    rw [hget] at hmem
    dsimp only at hmem
    split at hmem
    · next sink _ hevents _ =>
      obtain ⟨said, -, rfl⟩ := List.mem_map.mp hmem
      exact ⟨session, (Sessions.get_some hget).1, hevents⟩
    · exact absurd hmem List.not_mem_nil

theorem Keeps.attached {more : List (Nat × UiEvent)} (h : Keeps s.sessions t.sessions more)
    (hattached : Attached k t) : Attached k s := by
  obtain ⟨b, hb, hk⟩ := hattached
  rcases h.from' b hb with ⟨hnone, -⟩ | ⟨a, ha, -, hevents, -⟩
  · exact nomatch hnone.symm.trans hk
  · exact ⟨a, ha, hevents.symm.trans hk⟩

/-- A stream that no session has and that is not new. -/
structure Retired (k : Nat) (s : Bridge) : Prop where
  detached : ¬ Attached k s
  old : k < s.opened

/-- **Nothing more is told to a retired stream.** -/
theorem Retired.step (h : Retired k s) (htended : Tended s)
    (hstep : Bridge.Step toText runtime s l t) : Retired k t ∧ t.log k = s.log k := by
  have hquiet : ∀ {more}, Keeps s.sessions t.sessions more → s.opened ≤ t.opened →
      Retired k t := fun hkeeps hle =>
    ⟨fun hattached => h.detached (hkeeps.attached hattached), h.old.trans_le hle⟩
  cases hstep with
  | adds id peer options => exact ⟨hquiet (keeps_add id peer options _ []) le_rfl, rfl⟩
  | removes id => exact ⟨hquiet (keeps_remove id _ []) le_rfl, rfl⟩
  | attachFails => exact ⟨hquiet (.refl _ []) (Nat.le_succ _), rfl⟩
  | @starts _ _ call backend | @startFails _ _ call _ backend =>
    exact ⟨hquiet (keeps_start runtime call.id backend _ []) le_rfl, rfl⟩
  | spawns | spawnFails | looks | looksAway | checks | finishes =>
    exact ⟨hquiet (.refl _ []) le_rfl, rfl⟩
  | @pumps _ _ task snapshot peer =>
    refine ⟨hquiet (keeps_pump toText snapshot peer task.id htended.distinct) le_rfl, ?_⟩
    refine log_other rfl fun event hmem hk => h.detached ?_
    exact hk ▸ pump_told hmem
  | attaches id hattach =>
    obtain ⟨session, hget, hsessions, htold⟩ := attached_cases hattach
    refine ⟨⟨?_, Nat.lt_succ_of_lt h.old⟩, log_other rfl fun event hmem hk => h.detached ?_⟩
    · rintro ⟨b, hb, hk⟩
      rw [hsessions] at hb
      obtain ⟨a, ha, ⟨-, rfl⟩ | ⟨-, rfl⟩⟩ := Sessions.mem_modify hb
      · exact absurd (Option.some.inj hk).symm (Nat.ne_of_lt h.old)
      · exact h.detached ⟨b, ha, hk⟩
    · rw [htold] at hmem
      obtain ⟨sink, hsink, rfl⟩ := List.mem_map.mp hmem
      refine ⟨session, (Sessions.get_some hget).1, ?_⟩
      rw [← hk]
      exact Option.mem_toList.mp hsink

/-- The sessions with a stream keep it. -/
theorem attached_modify {sessions : Sessions} {f : StreamedSession → StreamedSession}
    (hf : ∀ a, (f a).events = a.events) (h : ∃ a ∈ sessions, a.events = some k) :
    ∃ a ∈ sessions.modify id f, a.events = some k := by
  obtain ⟨a, ha, hk⟩ := h
  refine ⟨_, List.mem_map_of_mem ha, ?_⟩
  split
  · exact (hf a).trans hk
  · exact hk

theorem attached_start {backend : Nat} (h : Attached k s) :
    ∃ a ∈ (startViewer runtime id backend s.sessions).1, a.events = some k := by
  have htaken : ∃ a ∈ s.sessions.modify id fun a => { a with password := "" }, a.events = some k :=
    attached_modify (fun _ => rfl) h
  unfold startViewer
  split
  · exact h
  cases s.sessions.get id with
  | none => exact h
  | some session =>
    dsimp only
    split
    · exact h
    cases openViewer runtime session.toSession with
    | error message => exact htaken
    | ok => exact attached_modify (fun _ => rfl) htaken

/-- **A stream is retired with a "close" if another one takes its place, and in silence if
its session is removed.** -/
theorem retires (htended : Tended s) (hstep : Bridge.Step toText runtime s l t)
    (hattached : Attached k s) (hgone : ¬ Attached k t) : t.log k = s.log k ++ l.farewell := by
  cases hstep with
  | adds id peer options =>
    refine absurd ?_ hgone
    obtain ⟨a, ha, hk⟩ := hattached
    refine ⟨a, ?_, hk⟩
    show a ∈ (add id peer options s.sessions).1
    unfold add
    cases newSession id peer options with
    | error message => exact ha
    | ok session =>
      dsimp only
      split_ifs
      · exact ha
      · exact ha
      · exact List.mem_append_left _ ha
  | removes id => exact (List.append_nil _).symm
  | attachFails | spawns | spawnFails | looks | looksAway | checks | finishes =>
    exact absurd hattached hgone
  | starts | startFails => exact absurd (attached_start hattached) hgone
  | @pumps _ _ task snapshot peer =>
    refine absurd ?_ hgone
    show ∃ a ∈ (pumpSession toText snapshot peer task.id s.sessions).1, a.events = some k
    unfold pumpSession
    cases s.sessions.get task.id with
    | none => exact hattached
    | some session =>
      dsimp only
      split
      · exact attached_modify (fun _ => rfl) hattached
      · exact hattached
  | attaches id hattach =>
    obtain ⟨session, hget, hsessions, htold⟩ := attached_cases hattach
    obtain ⟨a, ha, hk⟩ := hattached
    -- only the session that is found loses its stream
    have hid : a.id = id := by
      by_contra hother
      refine hgone ⟨a, ?_, hk⟩
      show a ∈ (attachStream id s.opened s.sessions).1
      rw [hsessions]
      refine List.mem_map.mpr ⟨a, ha, ?_⟩
      rw [if_neg (by simpa using hother)]
    obtain rfl : session = a := Option.some.inj <| hget.symm.trans <| by
      rw [← hid]
      exact htended.distinct.get ha
    have htold' : (attachStream id s.opened s.sessions).2.1 = [(k, .text "close")] := by
      rw [htold, hk]
      rfl
    rw [log_append rfl rfl, htold', List.filter_singleton, beq_self_eq_true]
    rfl

/-- **What a stream is told last.**  When a session loses a stream, the stream was told
what it was told before, and "close" if another one took its place; and however the bridge
goes on, it is told nothing more. -/
theorem stream_retired (h : BridgeRun toText runtime ls s) (hattached : Attached k s)
    (hstep : Bridge.Step toText runtime s l t) (hgone : ¬ Attached k t)
    (hlater : Run (Bridge.Step toText runtime) t later u) :
    u.log k = s.log k ++ l.farewell := by
  obtain ⟨a, ha, hk⟩ := hattached
  have hold : k < t.opened := (h.tended.opened a ha k hk).trans_le hstep.opened_le
  have hlast := Run.invariant
    (I := fun u => Tended u ∧ Retired k u ∧ u.log k = t.log k)
    (fun _ _ _ hI hnext => by
      obtain ⟨hretired, hlog⟩ := hI.2.1.step hI.1 hnext
      exact ⟨hI.1.step hnext, hretired, hlog.trans hI.2.2⟩)
    hlater ⟨h.tended.step hstep, ⟨hgone, hold⟩, rfl⟩
  exact hlast.2.2.trans (retires h.tended hstep ⟨a, ha, hk⟩ hgone)

/-- A second stream for the same session. -/
theorem stream_retired_replaced : ∃ s t,
    BridgeRun (fun _ => "") deskRuntime [.adds 1, .attaches 1 0] s ∧
    Bridge.Step (fun _ => "") deskRuntime s (.attaches 1 1) t ∧
    t.log 0 = s.log 0 ++ [.text "close"] := by
  have h : BridgeRun (fun _ => "") deskRuntime [.adds 1, .attaches 1 0] _ :=
    .cons (.adds _ 1 "192.168.1.5" {}) <| .cons (.attaches _ 1 rfl) <| .nil _
  refine ⟨_, _, h, .attaches _ 1 rfl, stream_retired h ⟨_, List.mem_singleton.mpr rfl, rfl⟩
    (.attaches _ 1 rfl) ?_ (.nil _)⟩
  rintro ⟨a, ha, hk⟩
  obtain rfl := List.mem_singleton.mp ha
  cases hk

end Flutter

end Compat

end RdEngine
