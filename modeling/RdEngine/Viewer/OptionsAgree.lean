/-
RdEngine/Viewer/OptionsAgree.lean

Whether the peer was told what the viewer stores of the requested frame rate and
of the image quality, over whole runs.

They agree in every run in which nothing new is set before the session is
authenticated and no two calls of one setter overlap with different values
(`options_agree`).  A frame rate that is set before the session is authenticated
is stored, and never told (`options_disagree`).
-/
import RdEngine.Viewer.StreamOptions

namespace RdEngine

namespace Viewer

open Lts Threads

/-! ### When settings are set apart -/

/-- The peer sends no option of its own. -/
def PeerSilent (l : Label Access.Answer Task) : Prop :=
  ∀ message, l = .access .receive .incoming (.message message) → isOption message = false

section Apart

variable {V : Type} (setting : Setting V)

/-- A caller is about to store a value of the setting. -/
def Storing (c : Config Access.Answer Outcome State Task) (n : Nat) (v : V) : Prop :=
  ∃ rest, c.threads (.caller n) = .access (setting.store v) rest

/-- A caller is about to ask whether the session is authenticated, and to store a
value where it is not. -/
def StoresUntold (c : Config Access.Answer Outcome State Task) (n : Nat) (v : V) : Prop :=
  ∃ rest, c.threads (.caller n) = .access .authenticated rest ∧
    ∃ next, rest false = .access (setting.store v) next

/-- While the session lives, a caller pushes a value only when nobody else is
about to store another; and one that finds the session not authenticated goes on
to store the value that is stored already, or that the others are about to. -/
structure SetsApart (c : Config Access.Answer Outcome State Task)
    (l : Label Access.Answer Task) : Prop where
  pushed : ∀ n message v, l = .access (.caller n) (.trySend .control message) (.ok ()) →
    setting.tells message = some v → Live c.shared →
    ∀ m x, m ≠ n → Storing setting c m x → x = v
  found : ∀ n v, l = .access (.caller n) .authenticated false → StoresUntold setting c n v →
    Live c.shared →
    (∀ m x, m ≠ n → Storing setting c m x → x = v) ∧
      ((∀ m x, m ≠ n → ¬ Storing setting c m x) → v = setting.stored c.shared)

end Apart

/-! ### The threads taken together -/

section Together

variable {V : Type} {setup : Setup} {setting : Setting V} {first : V}

/-- What all the tasks know together. -/
def view (g : Task → Knows V) : View V where
  phase := (g .run).phase
  begun := (g .receive).begun
  asked := (g .receive).asked
  hand := (g .write).hand
  cleared n := (g (.caller n)).cleared
  setters n := (g (.caller n)).setter

variable (g : Task → Knows V) (k : Knows V)

theorem view_run : view (Function.update g .run k) = { view g with phase := k.phase } := by
  simp [view]

theorem view_receive : view (Function.update g .receive k)
    = { view g with begun := k.begun, asked := k.asked } := by
  simp [view]

theorem view_write : view (Function.update g .write k) = { view g with hand := k.hand } := by
  simp [view]

theorem view_feed : view (Function.update g .feed k) = view g := by
  simp [view]

theorem view_caller (n : Nat) : view (Function.update g (.caller n) k)
    = (view g).setCaller n k.cleared k.setter := by
  have hcleared : (fun m => (Function.update g (.caller n) k (.caller m)).cleared)
      = Function.update (view g).cleared n k.cleared := by
    funext m
    rcases eq_or_ne m n with rfl | hne
    · rw [Function.update_self, Function.update_self]
    · rw [Function.update_of_ne hne, Function.update_of_ne (by simpa using hne)]
      rfl
  have hsetters : (fun m => (Function.update g (.caller n) k (.caller m)).setter)
      = Function.update (view g).setters n k.setter := by
    funext m
    rcases eq_or_ne m n with rfl | hne
    · rw [Function.update_self, Function.update_self]
    · rw [Function.update_of_ne hne, Function.update_of_ne (by simpa using hne)]
      rfl
  rw [view, hcleared, hsetters]
  simp [View.setCaller, view]

variable {g k}

/-- A caller that is to store a value has that store before it. -/
theorem exists_store {n : Nat} {p : Program Outcome} {v : V}
    (h : Follows (callerKnows setting) (KnownResult setup (.caller n)) k p)
    (hk : k.setter = .storing v) : ∃ rest, p = .access (setting.store v) rest := by
  cases p with
  | ret outcome => exact absurd hk (h v)
  | access a rest =>
    have hadmits := h.1
    simp only [callerKnows, hk] at hadmits
    subst hadmits
    exact ⟨rest, rfl⟩

theorem storing_of_setter {c : Config Access.Answer Outcome State Task}
    (h : ∀ i, Follows (knows setup setting i) (KnownResult setup i) (g i) (c.threads i)) {n : Nat}
    {v : V} (hn : (view g).setters n = .storing v) : Storing setting c n v :=
  exists_store (h (.caller n)) hn

/-- And nobody else is about to make that access. -/
theorem setter_of_storing {c : Config Access.Answer Outcome State Task}
    (h : ∀ i, Follows (knows setup setting i) (KnownResult setup i) (g i) (c.threads i)) {n : Nat}
    {v : V} (hn : Storing setting c n v) : ∃ w, (view g).setters n = .storing w := by
  obtain ⟨rest, hrest⟩ := hn
  have hn := h (.caller n)
  rw [hrest] at hn
  have hadmits : (callerKnows setting).admits (g (.caller n)) (setting.store v) := hn.1
  show ∃ w, (g (.caller n)).setter = .storing w
  cases hk : (g (.caller n)).setter with
  | storing w => exact ⟨w, rfl⟩
  | called w =>
    simp only [callerKnows, hk] at hadmits
    have hoption := setting.optionAccess_store v
    rw [hadmits] at hoption
    cases hoption
  | pushing w =>
    simp only [callerKnows, hk] at hadmits
    exact absurd rfl (hadmits.2.1 v)
  | other =>
    simp only [callerKnows, hk] at hadmits
    exact absurd rfl (hadmits.2.1 v)

end Together

/-! ### Every run -/

section Runs

variable {V : Type} {setup : Setup} {setting : Setting V} {first : V}

theorem tracked_knows (setting : Setting V)
    (htold : ∀ decoders, setting.told (loginOption setup decoders) = some first) :
    Tracked (engine setup) (fun c l => PeerSilent l ∧ SetsApart setting c l) (knows setup setting)
      (KnownResult setup) (fun g s => Agrees setting first (view g) s) where
  access := by
    rintro c g task a rest answer s' ⟨hpeer, hapart⟩ hthread hfollows hI hadmits ⟨hallowed, rfl⟩
    cases task with
    | run =>
      rw [view_run]
      exact hI.runStep rfl htold hadmits hallowed
    | receive =>
      rw [view_receive]
      refine hI.receiveStep rfl rfl hadmits fun message heq => hpeer message ?_
      cases heq
      rfl
    | write =>
      rw [view_write]
      exact hI.writeStep rfl hadmits hallowed
    | feed =>
      rw [view_feed]
      exact hI.feedStep hadmits
    | caller n =>
      rw [view_caller]
      refine hI.callerStep rfl rfl hadmits hallowed (fun v message heq htell hlive m x hne hm => ?_)
        fun v hcalled heq hlive => ?_
      · cases heq
        exact hapart.pushed n message v rfl htell hlive m x hne (storing_of_setter hfollows hm)
      · cases heq
        have hrest := hfollows (.caller n)
        rw [hthread] at hrest
        have hnext : ((callerKnows setting).next (g (.caller n)) .authenticated false).setter
            = .storing v := by
          simp only [callerKnows, hcalled]
        have huntold : StoresUntold setting c n v :=
          ⟨rest, hthread, exists_store (hrest.2 false) hnext⟩
        obtain ⟨hothers, hsame⟩ := hapart.found n v rfl huntold hlive
        refine ⟨fun m x hne hm => hothers m x hne (storing_of_setter hfollows hm),
          fun hnone => hsame fun m x hne hm => ?_⟩
        obtain ⟨w, hw⟩ := setter_of_storing hfollows hm
        exact hnone m w hne hw
  start := by
    intro g s task outcome program hI hresult hstart
    cases task with
    | run =>
      -- the run task begins a turn only while it logs in
      refine ⟨g .run, ?_, by rwa [Function.update_eq_self]⟩
      cases hstart with
      | run => exact (followsLogin_known setup hresult).runStart
      | confirm => exact (followsLogin_known setup hresult).confirmTurn _
      | authenticate => exact (followsLogin_known setup hresult.1).authTurn _ hresult.2 _
    | receive =>
      have hspawned : s.spawned ≠ none := by
        cases hstart with
        | spawnReceive hspawned =>
          rw [hspawned]
          exact Option.some_ne_none _
        | receive => exact hI.begun (hresult.resolve_right fun hwaiting => by cases hwaiting)
      refine ⟨{ g .receive with begun := true }, ?_, ?_⟩
      · cases hstart with
        | spawnReceive | receive => exact follows_receiveKnown _ _ rfl
      · rw [view_receive]
        exact { hI with begun := fun _ => hspawned }
    | write =>
      have hnone : ∀ e, (g .write).hand.held ≠ some (.control, e) := by
        rcases hresult with ⟨result, rfl⟩ | hnone
        · cases hstart
        · exact hnone
      refine ⟨{ g .write with hand := emptyHand }, ?_, ?_⟩
      · cases hstart with
        | spawnWrite | write => exact follows_writeKnown rfl
      · rw [view_write]
        exact hI.turn hnone
    | feed =>
      refine ⟨g .feed, (start_within hstart).follows (fun _ ha => ha) (fun _ _ _ => rfl)
        fun _ => trivial, ?_⟩
      rwa [Function.update_eq_self]
    | caller n =>
      cases hstart with
      | call _ result made =>
        obtain ⟨setter, hafter, hbegins⟩ := exists_begins setting made
        refine ⟨{ g (.caller n) with cleared := false, setter := setter }, ?_, ?_⟩
        · exact (hbegins setup _ rfl).bind fun _ _ hidle => hidle
        · rw [view_caller]
          exact (hI.move hresult hafter).unclear n

theorem agrees_initial (hstored : setting.stored (.initial setup) = first) :
    Followed (knows setup setting) (KnownResult setup) (fun g s => Agrees setting first (view g) s)
      (initial setup) := by
  refine ⟨fun _ => Knows.start, fun task => ?_, ?_⟩
  · cases task with
    | run => exact rfl
    | receive => exact .inr rfl
    | write => exact .inr fun _ he => nomatch he
    | feed => exact trivial
    | caller => exact nofun
  · exact {
      unspawned := fun _ => rfl
      begun := fun h => nomatch h
      early := fun _ => ⟨rfl, rfl, fun _ he => nomatch he⟩
      uncleared := fun _ _ => rfl
      said := fun _ _ hm => nomatch hm
      loggedIn := fun h => h.elim (absurd rfl) nofun
      mouse := fun _ he => nomatch he
      held := fun _ he => nomatch he
      silent := rfl
      live := fun _ => ⟨fun _ => hstored.symm, fun _ _ h => nomatch h⟩ }

/-- The control queue is open and empty, and the write task is between two turns. -/
structure Drained (c : Config Access.Answer Outcome State Task) : Prop where
  queuesOpen : c.shared.queuesOpen = true
  controlQueue : c.shared.controlQueue = []
  write : c.threads .write = .ret .waiting ∨ c.threads .write = .ret .writing

/-- For one setting, what was told last is what is stored. -/
theorem setting_agrees (htold : ∀ decoders, setting.told (loginOption setup decoders) = some first)
    (hstored : setting.stored (.initial setup) = first)
    {c : Config Access.Answer Outcome State Task} {ls : List (Label Access.Answer Task)}
    (hrun : Run (Where (Step (engine setup)) fun c l => PeerSilent l ∧ SetsApart setting c l)
      (initial setup) ls c)
    (hauth : c.shared.authenticated = true) (hdrained : Drained c)
    (hidle : ∀ n v, ¬ Storing setting c n v) :
    setting.lastTold c.shared.wire = some (setting.stored c.shared) := by
  obtain ⟨g, hfollows, hI⟩ := (tracked_knows setting htold).run hrun (agrees_initial hstored)
  obtain ⟨m, hm, v, htell⟩ := hI.loggedIn (.inr hauth)
  -- between two turns the write task holds no control message
  have hnone : ∀ e, (view g).hand.held ≠ some (.control, e) := by
    have hresult := hfollows .write
    rcases hdrained.write with hwrite | hwrite
    all_goals
      rw [hwrite, follows_ret] at hresult
      rcases hresult with ⟨result, hreturned⟩ | hnone
      · cases hreturned
      · exact hnone
  have hsettled := (hI.turn hnone).live ⟨hdrained.queuesOpen, .inr hauth⟩
  have hpipeline : pipeline emptyHand c.shared = c.shared.wire := by
    simp [pipeline, handed, emptyHand, hdrained.controlQueue]
  rw [← hsettled.settled fun n w hw => hidle n w (storing_of_setter hfollows hw), hpipeline]
  exact Setting.lastTold_eq hm htell

end Runs

/-! ### Both settings -/

/-- The peer is silent and each setting is set apart. -/
def SettingsApart (c : Config Access.Answer Outcome State Task)
    (l : Label Access.Answer Task) : Prop :=
  PeerSilent l ∧ SetsApart fpsSetting c l ∧ SetsApart qualitySetting c l

theorem toldFps_loginOption {setup : Setup} (hfps : 1 ≤ setup.requestedFps) (decoders : Decoders) :
    toldFps (loginOption setup decoders) = some setup.requestedFps := by
  have hpositive : (setup.requestedFps : Int) > 0 := by omega
  show (if (setup.requestedFps : Int) > 0 then some (setup.requestedFps : Int).toNat else none) = _
  rw [if_pos hpositive]
  rfl

theorem toldQuality_loginOption {setup : Setup} (hquality : validQuality setup.imageQuality = true)
    (decoders : Decoders) : toldQuality (loginOption setup decoders) = some setup.imageQuality :=
  toldQuality_qualityOption hquality

/-- **The peer is told what the viewer stores**, in a run whose settings are set
apart: once the session is authenticated and the control queue is drained, each
setting that no caller is about to store is the one the peer was told last. -/
theorem options_agree {setup : Setup} (hfps : 1 ≤ setup.requestedFps)
    (hquality : validQuality setup.imageQuality = true)
    {c : Config Access.Answer Outcome State Task} {ls : List (Label Access.Answer Task)}
    (hrun : Run (Where (Step (engine setup)) SettingsApart) (initial setup) ls c)
    (hauth : c.shared.authenticated = true) (hdrained : Drained c) :
    ((∀ n fps, ¬ Storing fpsSetting c n fps) →
      fpsSetting.lastTold c.shared.wire = some c.shared.requestedFps) ∧
    ((∀ n quality, ¬ Storing qualitySetting c n quality) →
      qualitySetting.lastTold c.shared.wire = some c.shared.imageQuality) := by
  refine ⟨fun hidle => ?_, fun hidle => ?_⟩
  · exact setting_agrees (toldFps_loginOption hfps) rfl
      (hrun.mono fun _ _ _ hst => ⟨⟨hst.1.1, hst.1.2.1⟩, hst.2⟩) hauth hdrained hidle
  · exact setting_agrees (toldQuality_loginOption hquality) rfl
      (hrun.mono fun _ _ _ hst => ⟨⟨hst.1.1, hst.1.2.2⟩, hst.2⟩) hauth hdrained hidle

/-- A label that is no message of the peer and no push of a caller, and by which no caller finds
the session not authenticated. -/
def SetsNothing : Label Access.Answer Task → Prop
  | .access .receive _ _ => False
  | .access (.caller _) (.trySend _ _) _ => False
  | .access (.caller _) .authenticated answer => answer = true
  | _ => True

theorem settingsApart_setsNothing (c : Config Access.Answer Outcome State Task)
    (l : Label Access.Answer Task) (h : SetsNothing l) : SettingsApart c l := by
  have hapart : ∀ {V : Type} (setting : Setting V), SetsApart setting c l := by
    refine fun setting => ⟨fun n message v heq => ?_, fun n v heq => ?_⟩
    · rw [heq] at h
      exact absurd h id
    · rw [heq] at h
      exact absurd h Bool.false_ne_true
  refine ⟨fun message heq => ?_, hapart _, hapart _⟩
  rw [heq] at h
  exact absurd h id

theorem setsNothing_of_thread {l : Label Access.Answer Task} {task : Task} (h : l.thread = task)
    (hreceive : task ≠ .receive) (hcaller : ∀ n, task ≠ .caller n) : SetsNothing l := by
  cases l with
  | start => exact trivial
  | access i a answer =>
    obtain rfl : i = task := h
    cases i with
    | receive => exact absurd rfl hreceive
    | caller n => exact absurd rfl (hcaller n)
    | run | write | feed => exact trivial

/-- A caller tells a frame rate, up to its push, and stores it where the push is accepted. -/
theorem alone_tellFps {setup : Setup} {s : State} (h : Ready s) (n : Nat) {fps : Nat}
    (hfps : 1 ≤ fps ∧ fps ≤ 240) : ∃ rest : Except TrySendError Unit → Program Outcome,
    rest (.ok ()) = .access (.setRequestedFps fps) (fun _ => .ret (.returned (.ok ()))) ∧
      Alone (engine setup) SetsNothing (.caller n) s ((Call.setRequestedFps fps).run setup) s
        (.access (.trySend .control (.ofMisc (.option { customFps := fps }))) rest) := by
  rw [Call.run, Call.program, setRequestedFps, if_pos hfps]
  exact ⟨_, rfl, .access true ⟨h.authenticated.symm, rfl⟩ rfl
    (.access true ⟨h.authenticated.symm, rfl⟩ rfl
    (.access false ⟨h.cancelled.symm, rfl⟩ trivial
    (.access true ⟨h.control.symm, rfl⟩ trivial (.refl _ _))))⟩

/-- While the others are between two calls, a push is set apart. -/
theorem settingsApart_push {c : Config Access.Answer Outcome State Task} {n : Nat}
    {message : Message} (hidle : ∀ m, m ≠ n → ∃ outcome, c.threads (.caller m) = .ret outcome) :
    SettingsApart c (.access (.caller n) (.trySend .control message) (.ok ())) := by
  have hapart : ∀ {V : Type} (setting : Setting V),
      SetsApart setting c (.access (.caller n) (.trySend .control message) (.ok ())) := by
    refine fun setting => ⟨?_, ?_⟩
    · rintro k message' v heq - - m x hm ⟨rest, hthread⟩
      cases heq
      obtain ⟨outcome, hret⟩ := hidle m hm
      rw [hret] at hthread
      cases hthread
    · rintro k v ⟨⟩
  exact ⟨by rintro message' ⟨⟩, hapart _, hapart _⟩

/-- The session in which a caller is about to push 60 frames a second. -/
def tellingSession (rest : Except TrySendError Unit → Program Outcome) :
    Config Access.Answer Outcome State Task :=
  sampleSession.set (.caller 0) sampleSession.shared
    (.access (.trySend .control (.ofMisc (.option { customFps := 60 }))) rest)

/-- The push is accepted, and the caller is about to store the rate. -/
def toldSession : Config Access.Answer Outcome State Task :=
  sampleSession.set (.caller 0)
    (sampleSession.shared.push (.caller 0) .control (.ofMisc (.option { customFps := 60 })))
    (.access (.setRequestedFps 60) fun _ => .ret (.returned (.ok ())))

theorem leads_tellingSession : ∃ rest : Except TrySendError Unit → Program Outcome,
    Leads SetsNothing sampleSetup (initial sampleSetup) (tellingSession rest) ∧
      rest (.ok ()) = .access (.setRequestedFps 60) fun _ => .ret (.returned (.ok ())) := by
  obtain ⟨rest, hrest, halone⟩ := @alone_tellFps sampleSetup _ ready_sampleSession 0 60 (by decide)
  have hlogin := leads_sampleLogin.mono fun _ h => setsNothing_of_thread h.2 nofun nofun
  exact ⟨rest, hlogin.turn rfl (Start.call _ 0 _ (.setRequestedFps 60)) trivial halone, hrest⟩

theorem step_toldSession {rest : Except TrySendError Unit → Program Outcome}
    (hrest : rest (.ok ()) = .access (.setRequestedFps 60) fun _ => .ret (.returned (.ok ()))) :
    Where (Step (engine sampleSetup)) SettingsApart (tellingSession rest)
      (.access (.caller 0) (.trySend .control (.ofMisc (.option { customFps := 60 }))) (.ok ()))
      toldSession := by
  refine ⟨settingsApart_push fun m hm => ?_, ?_⟩
  · exact ⟨.returned (.ok ()), by cases m; exacts [absurd rfl hm, rfl]⟩
  · have hroom : (tellingSession rest).shared.controlQueue.length < commands :=
      show 0 < commands by decide
    have hthread : (tellingSession rest).threads (.caller 0) =
        .access (.trySend .control (.ofMisc (.option { customFps := 60 }))) rest :=
      Config.set_threads ..
    have hset : toldSession =
        (tellingSession rest).set (.caller 0) toldSession.shared (rest (.ok ())) := by
      rw [hrest]
      exact (Config.set_set ..).symm
    rw [hset]
    exact .access hthread ⟨⟨rfl, hroom⟩, rfl⟩

/-- The caller stores the rate and returns, and the write task writes what it pushed. -/
theorem leads_toldSession : ∃ c : Config Access.Answer Outcome State Task,
    Leads SetsNothing sampleSetup toldSession c ∧ c.shared.authenticated = true ∧ Drained c ∧
      (∀ n, ∃ outcome, c.threads (.caller n) = .ret outcome) ∧ c.shared.requestedFps = 60 := by
  have start : Leads SetsNothing sampleSetup toldSession toldSession := .refl _
  have hthread : toldSession.threads (.caller 0) =
      .access (.setRequestedFps 60) fun _ => .ret (.returned (.ok ())) := rfl
  have stored := start.goOn hthread (.access () ⟨trivial, rfl⟩ trivial (.refl _ _))
  have other : ∀ l : Label Access.Answer Task, Calm l ∧ l.thread = .write → SetsNothing l :=
    fun l hl => setsNothing_of_thread hl.2 nofun nofun
  have taken := stored.turn rfl (Start.spawnWrite rfl) trivial
    ((alone_takeControl rfl rfl).own.mono other)
  have written := taken.goOn rfl ((alone_sendOut _).own.mono other)
  refine ⟨_, written, rfl, ⟨rfl, rfl, .inr rfl⟩, fun n => ?_, rfl⟩
  exact ⟨.returned (.ok ()), by cases n <;> rfl⟩

/-- A caller sets 60 frames a second once the session is authenticated, and the write task
writes what it pushed. -/
theorem options_agree_login : ∃ (c : Config Access.Answer Outcome State Task)
    (ls : List (Label Access.Answer Task)),
    Run (Where (Step (engine sampleSetup)) SettingsApart) (initial sampleSetup) ls c ∧
      c.shared.requestedFps = 60 ∧ fpsSetting.lastTold c.shared.wire = some c.shared.requestedFps ∧
      qualitySetting.lastTold c.shared.wire = some c.shared.imageQuality := by
  obtain ⟨rest, htelling, hrest⟩ := leads_tellingSession
  obtain ⟨before, hbefore⟩ := htelling.where settingsApart_setsNothing
  obtain ⟨c, htold, hauth, hdrained, hidle, hstored⟩ := leads_toldSession
  obtain ⟨after, hafter⟩ := htold.where settingsApart_setsNothing
  have hrun := hbefore.append (.cons (step_toldSession hrest) hafter)
  have hagree := options_agree (by decide) rfl hrun hauth hdrained
  have hnone : ∀ {V : Type} (setting : Setting V) n v, ¬ Storing setting c n v := by
    rintro V setting n v ⟨next, hthread⟩
    obtain ⟨outcome, hret⟩ := hidle n
    rw [hret] at hthread
    cases hthread
  exact ⟨c, _, hrun, hstored, hagree.1 (hnone _), hagree.2 (hnone _)⟩

/-- A caller sets 60 frames a second while the login waits for the peer's
answer. -/
theorem leads_untold : ∃ c : Config Access.Answer Outcome State Task,
    Leads (fun l => l.thread ≠ .receive) sampleSetup (initial sampleSetup) c ∧
      c.shared.authenticated = true ∧ Drained c ∧
      (∀ n fps, ¬ Storing fpsSetting c n fps) ∧ c.shared.requestedFps = 60 ∧
      fpsSetting.lastTold c.shared.wire = some 30 := by
  have other : ∀ {P : Label Access.Answer Task → Prop} (task : Task), task ≠ .receive →
      ∀ l : Label Access.Answer Task, P l ∧ l.thread = task → l.thread ≠ .receive := by
    rintro P task htask l ⟨-, hl⟩
    rw [hl]
    exact htask
  have start : Leads (fun l => l.thread ≠ .receive) sampleSetup (initial sampleSetup) _ :=
    (Leads.refl _).turn rfl (Start.run _) nofun
      ((@alone_runStart _ _ sampleDecoders rfl rfl).own.mono (other .run nofun))
  have challenge := start.turn (Config.set_threads ..) (Start.authenticate _ _ _ _) nofun
    ((alone_challenge rfl 1).own.mono (other .run nofun))
  have stored := challenge.turn rfl (Start.call _ 0 _ (.setRequestedFps 60)) nofun
    ((alone_setUntold rfl 0 (by decide)).own.mono (other (.caller 0) nofun))
  have authorized := stored.turn rfl (Start.authenticate _ _ _ _) nofun
    ((@alone_authorized _ _ _ _ sampleContext _ _ rfl rfl rfl rfl rfl rfl).own.mono
      (other .run nofun))
  refine ⟨_, authorized, rfl, ⟨rfl, rfl, .inl rfl⟩, ?_, rfl, rfl⟩
  rintro n fps ⟨rest, hthread⟩
  cases n <;> cases hthread

theorem peerSilent_of_thread {l : Label Access.Answer Task} (h : l.thread ≠ .receive) :
    PeerSilent l := by
  rintro message rfl
  exact absurd rfl h

/-- The login request was made from the options the viewer was started with, and
nothing tells the peer the new value. -/
theorem options_disagree : ¬ ∀ (setup : Setup) (c : Config Access.Answer Outcome State Task)
    (ls : List (Label Access.Answer Task)), 1 ≤ setup.requestedFps →
    validQuality setup.imageQuality = true →
    Run (Where (Step (engine setup)) fun _ l => PeerSilent l) (initial setup) ls c →
    c.shared.authenticated = true → Drained c → (∀ n fps, ¬ Storing fpsSetting c n fps) →
    fpsSetting.lastTold c.shared.wire = some c.shared.requestedFps := by
  intro h
  obtain ⟨c, hleads, hauth, hdrained, hidle, hstored, htold⟩ := leads_untold
  obtain ⟨ls, hrun⟩ := hleads.where fun _ _ => peerSilent_of_thread
  have hagree := h sampleSetup c ls (by decide) rfl hrun hauth hdrained hidle
  rw [hstored, htold] at hagree
  cases hagree

end Viewer

end RdEngine
