/-
RdEngine/Viewer/Setters.lean

The engine's threads followed for one setting: what each knows of it on its way
through its programs.  A setter pushes its value and stores it right after; no
other call tells the peer anything about the setting, and the login request tells
what the viewer was started with.
-/
import RdEngine.Viewer.InputOrder
import RdEngine.Viewer.Settings

namespace RdEngine

namespace Viewer

open Lts Threads

/-! ### What each thread knows -/

/-- Up to where the run task has come: it logs in, has taken the session over, has
published the control queue, has spawned the tasks. -/
inductive RunPhase where
  | login | entering | published | spawned
  deriving DecidableEq

/-- Where a caller is with a setting: in another call, called with a value, about
to push it, about to store it. -/
inductive Setter (V : Type) where
  | other
  | called (v : V)
  | pushing (v : V)
  | storing (v : V)

/-- `phase` is of the run task; `begun` and `asked` are of the receive task, which
was spawned, and has an option of the peer's before it; `hand` is of the write
task; a caller has `cleared` the control queue, which it found published. -/
structure Knows (V : Type) where
  phase : RunPhase
  begun : Bool
  asked : Bool
  hand : Hand
  cleared : Bool
  setter : Setter V

def Knows.start {V : Type} : Knows V := ⟨.login, false, false, emptyHand, false, .other⟩

/-- The login request carries the options the viewer was started with. -/
def Offers (setup : Setup) (request : LoginRequest) : Prop :=
  ∃ decoders, request.option = some (loginOption setup decoders)

section Ghosts

variable {V : Type} (setup : Setup) (setting : Setting V)

def runKnows : Ghost Access.Answer (Knows V) where
  next
    | g, .intoParts, .ok _ => { g with phase := .entering }
    | g, .setControl true, _ => { g with phase := .published }
    | g, .spawn _ _, _ => { g with phase := .spawned }
    | g, _, _ => g
  admits
    | g, .login request _ => g.phase = .login ∧ Offers setup request
    | g, .sendSecondFactor _ => g.phase = .login
    | g, .intoParts => g.phase = .login
    | g, .setAuthenticated true => g.phase = .entering
    | g, .setControl true => g.phase = .entering
    | g, .spawn _ _ => g.phase = .published
    | g, .setControl false => g.phase = .spawned
    | _, a => runAccess a = true

/-- What the receive task knows, and what it may do then. -/
def receiveKnows : Ghost Access.Answer (Knows V) where
  next
    | g, .incoming, .message message => { g with asked := isOption message }
    | g, _, _ => g
  admits g a := g.begun = true ∧ receiveAccess a = true ∧ (optionAccess a = true → g.asked = true)

/-- What the write task knows, and what it may do then. -/
def writeKnows : Ghost Access.Answer (Knows V) where
  next g a answer := { g with hand := writerGhost.next g.hand a answer }
  admits g a := writerGhost.admits g.hand a

/-- A caller's messages tell nothing about the setting, but for what its setter
pushes; and a message goes into the control queue only once that is published. -/
def callerKnows : Ghost Access.Answer (Knows V) where
  next g a answer :=
    match g.setter, a, answer with
    | .called v, .authenticated, true => { g with setter := .pushing v }
    | .called v, .authenticated, false => { g with setter := .storing v }
    | .pushing v, .trySend _ _, .ok () => { g with setter := .storing v }
    | .storing _, _, _ => { g with setter := .other }
    | _, .control, true => { g with cleared := true }
    | _, _, _ => g
  admits g a :=
    match g.setter with
    | .called _ => a = .authenticated
    | .storing v => a = setting.store v
    | .pushing v => callerAccess a = true ∧ (∀ w, a ≠ setting.store w) ∧
        ∀ queue message, a = .trySend queue message →
          queue = .control ∧ g.cleared = true ∧ setting.tells message = some v
    | .other => callerAccess a = true ∧ (∀ w, a ≠ setting.store w) ∧
        ∀ queue message, a = .trySend queue message →
          (queue = .control → g.cleared = true) ∧ setting.Silent message

def knows : Task → Ghost Access.Answer (Knows V)
  | .run => runKnows setup
  | .receive => receiveKnows
  | .write => writeKnows
  | .feed => ⟨fun g _ _ => g, fun _ a => feedAccess a = true⟩
  | .caller _ => callerKnows setting

def KnownResult : Task → Knows V → Outcome → Prop
  | .run => fun g outcome =>
    match outcome with
    | .returned _ => True
    | .authenticating _ request _ => g.phase = .login ∧ ∀ r, request = some r → Offers setup r
    | _ => g.phase = .login
  | .receive => fun g outcome => g.begun = true ∨ outcome = .waiting
  | .write => fun g outcome => LeavesNone g.hand outcome
  | .feed => fun _ _ => True
  | .caller _ => fun g _ => ∀ v, g.setter ≠ .storing v

end Ghosts

/-! ### The tasks' programs -/

section Programs

variable {V : Type} {setup : Setup} {setting : Setting V}

theorem follows_serveKnown (decoders : Decoders) (context : Context) {g : Knows V}
    (hg : g.phase = .entering) :
    Follows (runKnows setup) (KnownResult setup .run) g (serve decoders context) := by
  have hsupervise : ∀ (g : Knows V) (first : Except ViewerError Unit), g.phase = .spawned →
      Follows (runKnows setup) (KnownResult setup .run) g (supervise first) := by
    intro g first hspawned
    refine follows_supervise (fun a ha => ?_) (fun a answer ha => ?_) (fun _ => trivial) first
    · cases a with
      | setControl value =>
        cases value with
        | true => cases ha
        | false => exact hspawned
      | setAuthenticated value =>
        cases value with
        | true => cases ha
        | false => rfl
      | _ => first | rfl | cases ha
    · cases a with
      | setControl value =>
        cases value with
        | true => cases ha
        | false => rfl
      | _ => first | rfl | cases ha
  rw [serve]
  split
  · exact ⟨rfl, fun _ => ⟨rfl, fun _ => trivial⟩⟩
  · exact ⟨rfl, fun _ => ⟨rfl, fun _ => ⟨rfl, fun _ => ⟨hg, fun _ => ⟨hg, fun _ =>
      ⟨rfl, fun _ => ⟨rfl, fun _ => hsupervise _ _ rfl⟩⟩⟩⟩⟩⟩⟩

/-- The login sends the options the viewer was started with, and only before it
takes the session over. -/
theorem followsLogin_known (setup : Setup) {g : Knows V} (hg : g.phase = .login) :
    FollowsLogin setup (runKnows setup) (KnownResult setup .run) (Offers setup) g where
  quiet a ha := by
    cases a with
    | setAuthenticated value =>
      cases value with
      | true => cases ha
      | false => rfl
    | sendSecondFactor code => exact hg
    | _ => first | exact runAccess_of_login ha | cases ha
  still a answer ha := by cases a <;> first | rfl | cases ha
  fresh decoders _ := ⟨decoders, rfl⟩
  login _ _ hrequest := ⟨hg, hrequest⟩
  loggedIn _ _ _ := rfl
  parts := hg
  noParts _ := rfl
  serve decoders context := follows_serveKnown decoders context rfl
  returned _ := trivial
  confirming _ := hg
  authenticating _ _ _ hrequest := ⟨hg, hrequest⟩

/-- The receive task stores an option only when the peer has reported one. -/
theorem follows_receiveKnown (decoders : Decoders) (source : Geometry) {g : Knows V}
    (hg : g.begun = true) :
    Follows receiveKnows (KnownResult setup .receive) g (receiveTurn setup decoders source) := by
  have hexit : ∀ result, Follows receiveKnows (KnownResult setup .receive) g (exit result) :=
    fun result => ⟨⟨hg, rfl, fun h => nomatch h⟩, fun _ => .inl hg⟩
  refine ⟨⟨hg, rfl, fun h => nomatch h⟩, fun arrival => ?_⟩
  cases arrival with
  | cancelled => exact hexit _
  | failed => exact hexit _
  | ended => exact hexit _
  | message message =>
    refine (within_receiveMessage setup decoders source message).follows (fun a ha => ?_)
      (fun a answer ha => ?_) fun _ => .inl hg
    · refine ⟨hg, receiveAccess_of_message ha, fun hoption => ?_⟩
      cases a <;> first | exact ha | cases hoption
    · cases a <;> first | rfl | cases ha

/-- The write task's hand is all that is known of it. -/
theorem follows_writeKnown {g : Knows V} (hg : g.hand = emptyHand) :
    Follows writeKnows (KnownResult setup .write) g writeTurn :=
  Follows.lift (G := writerGhost) (Q := LeavesNone) Knows.hand (fun _ _ h => h)
    (fun _ _ _ => rfl) (fun _ _ h => h) (hg ▸ follows_writeTurn)

/-- A caller between its loads and its messages: in another call, or about to push
its value. -/
inductive Between (setting : Setting V) (g : Knows V) (message : Message) : Setter V → Prop
  | other : g.setter = .other → setting.Silent message → Between setting g message .other
  | pushing {v : V} : g.setter = .pushing v → setting.tells message = some v →
      Between setting g message (.storing v)

theorem ne_store {a : Access} (h : optionAccess a = false) (v : V) : a ≠ setting.store v := by
  rintro rfl
  rw [setting.optionAccess_store] at h
  cases h

theorem optionAccess_gate {a : Access} (h : gateAccess a = true) : optionAccess a = false := by
  cases a <;> first | rfl | cases h

/-- Loads leave it there. -/
theorem follows_gate {g : Knows V} {ρ : Type} {p : Program ρ} (hp : Within gateAccess p)
    (hg : g.setter = .other ∨ ∃ v, g.setter = .pushing v) :
    Follows (callerKnows setting) (fun g' _ => g' = g) g p := by
  refine hp.follows (fun a ha => ?_) (fun a answer ha => ?_) fun _ => rfl
  · have hsend : ∀ queue message, a ≠ .trySend queue message := by
      rintro queue message rfl
      cases ha
    rcases hg with hg | ⟨v, hg⟩ <;> simp only [callerKnows, hg]
    · exact ⟨callerAccess_of_gate ha, ne_store (optionAccess_gate ha), fun _ _ h => absurd h (hsend _ _)⟩
    · exact ⟨callerAccess_of_gate ha, ne_store (optionAccess_gate ha), fun _ _ h => absurd h (hsend _ _)⟩
  · rcases hg with hg | ⟨v, hg⟩ <;> simp only [callerKnows, hg] <;>
      cases a <;> first | rfl | cases ha

/-- A message is queued for a caller that is to queue it. -/
theorem follows_enqueue {g : Knows V} {message : Message} {after : Setter V}
    (h : Between setting g message after) :
    Follows (callerKnows setting)
      (fun g' sent => (sent = .ok () → g'.setter = after) ∧
        (sent ≠ .ok () → g'.setter = g.setter))
      g (enqueue message) := by
  -- the queue is looked up before the push
  have hloads : (callerKnows setting).admits g .control := by
    rcases h with ⟨hg, -⟩ | ⟨hg, -⟩ <;> simp only [callerKnows, hg] <;>
      exact ⟨rfl, ne_store rfl, fun _ _ ha => nomatch ha⟩
  have hnext : ∀ published, (callerKnows setting).next g .control published
      = if published then { g with cleared := true } else g := by
    intro published
    rcases h with ⟨hg, -⟩ | ⟨hg, -⟩ <;> simp only [callerKnows, hg] <;> cases published <;> rfl
  refine ⟨hloads, fun published => ?_⟩
  rw [hnext]
  cases published with
  | false => exact ⟨fun hsent => (nomatch hsent), fun _ => rfl⟩
  | true =>
    rcases h with ⟨hg, htell⟩ | ⟨hg, htell⟩
    · refine ⟨?_, fun sent => ?_⟩
      · simp only [callerKnows, if_true, hg]
        refine ⟨rfl, ne_store rfl, fun queue m hm => ?_⟩
        cases hm
        exact ⟨fun _ => trivial, htell⟩
      · have hstay : (callerKnows setting).next { g with cleared := true }
            (.trySend .control message) sent = { g with cleared := true } := by
          simp only [callerKnows, hg]
        show Follows _ _ ((callerKnows setting).next { g with cleared := true } _ sent) _
        rw [hstay]
        exact ⟨fun _ => hg, fun _ => rfl⟩
    · refine ⟨?_, fun sent => ?_⟩
      · simp only [callerKnows, if_true, hg]
        refine ⟨rfl, ne_store rfl, fun queue m hm => ?_⟩
        cases hm
        exact ⟨rfl, trivial, htell⟩
      · match sent with
        | .ok () =>
          refine ⟨fun _ => ?_, fun hsent => absurd rfl hsent⟩
          simp only [callerKnows, if_true, hg]
        | .error error =>
          refine ⟨fun hsent => (by cases error <;> cases hsent), fun _ => ?_⟩
          simp only [callerKnows, if_true, hg]

/-- A call that queues what tells nothing. -/
theorem follows_gated {g : Knows V} {gate : Program Bool} {p : Program (Except ViewerError Unit)}
    (hg : g.setter = .other) (hgate : Within gateAccess gate)
    (hp : Follows (callerKnows setting) (fun g' _ => g'.setter = .other) g p)
    (error : ViewerError) :
    Follows (callerKnows setting) (fun g' _ => g'.setter = .other) g
      (gate.bind fun allowed => if allowed then p else .ret (.error error)) := by
  refine (follows_gate hgate (.inl hg)).bind fun g' allowed hsame => ?_
  subst hsame
  split
  · exact hp
  · exact hg

theorem follows_enqueueOther {g : Knows V} {message : Message} (hg : g.setter = .other)
    (hsilent : setting.Silent message) :
    Follows (callerKnows setting) (fun g' _ => g'.setter = .other) g (enqueue message) := by
  refine (follows_enqueue (.other hg hsilent)).mono fun g' sent h => ?_
  by_cases hsent : sent = .ok ()
  · exact h.1 hsent
  · rw [h.2 hsent, hg]

theorem follows_trySendMouse {g : Knows V} {message : Message} (hg : g.setter = .other)
    (hsilent : setting.Silent message) :
    Follows (callerKnows setting) (fun g' _ => g'.setter = .other) g (trySend .mouse message) := by
  refine ⟨?_, fun sent => ?_⟩
  · simp only [callerKnows, hg]
    refine ⟨rfl, ne_store rfl, fun queue m hm => ?_⟩
    cases hm
    exact ⟨(fun hqueue => nomatch hqueue), hsilent⟩
  · show ((callerKnows setting).next g (.trySend .mouse message) sent).setter = .other
    simp only [callerKnows, hg]

theorem follows_pushThenStore {g : Knows V} {option : OptionMessage} {v : V}
    (hg : g.setter = .called v) (htold : setting.told option = some v) :
    Follows (callerKnows setting) (fun g' _ => ∀ w, g'.setter ≠ .storing w) g
      (pushThenStore option (setting.store v)) := by
  -- once it is about to store, it stores
  have hstore : ∀ g' : Knows V, g'.setter = .storing v →
      Follows (callerKnows setting) (fun g' _ => ∀ w, g'.setter ≠ .storing w) g'
        (.access (setting.store v) fun _ => .ret (.ok ()) : Program (Except ViewerError Unit)) := by
    intro g' hg'
    refine ⟨by simp only [callerKnows, hg'], fun answer w => ?_⟩
    simp only [callerKnows, hg']
    exact nofun
  refine Follows.bind (Q := fun g' pushed => (pushed = .ok () → g'.setter = .storing v) ∧
    (pushed ≠ .ok () → g'.setter = .pushing v)) ?_ fun g' pushed h => ?_
  · refine ⟨by simp only [callerKnows, hg], fun authenticated => ?_⟩
    cases authenticated with
    | false =>
      refine ⟨fun _ => ?_, fun hsent => absurd rfl hsent⟩
      simp only [callerKnows, hg]
    | true =>
      have hpushing : ((callerKnows setting).next g .authenticated true).setter = .pushing v := by
        simp only [callerKnows, hg]
      show Follows _ _ _ (sendOption option)
      refine (follows_gate within_sessionGate (.inr ⟨v, hpushing⟩)).bind fun g' allowed hsame => ?_
      subst hsame
      split
      · have htell : setting.tells (.ofMisc (.option option)) = some v := htold
        refine (follows_enqueue (.pushing hpushing htell)).mono fun g' sent h => ?_
        exact ⟨h.1, fun hsent => (h.2 hsent).trans hpushing⟩
      · exact ⟨(fun hsent => nomatch hsent), fun _ => hpushing⟩
  · split
    · rename_i error
      intro w
      rw [h.2 (by simp)]
      exact nofun
    · exact hstore g' (h.1 rfl)

theorem next_other {g : Knows V} {a : Access} (answer : a.Answer) (hg : g.setter = .other)
    (ha : a ≠ .control) : (callerKnows setting).next g a answer = g := by
  simp only [callerKnows, hg]
  cases a <;> first | rfl | exact absurd rfl ha

/-- An access of a call that is no setter's. -/
theorem admits_other {g : Knows V} {a : Access} (hg : g.setter = .other)
    (ha : callerAccess a = true) (hstore : ∀ w, a ≠ setting.store w)
    (hsend : ∀ queue message, a ≠ .trySend queue message) : (callerKnows setting).admits g a := by
  simp only [callerKnows, hg]
  exact ⟨ha, hstore, fun queue message hm => absurd hm (hsend queue message)⟩

/-- The other setter tells nothing about this setting. -/
theorem follows_otherSetter {g : Knows V} {option : OptionMessage} {store : Access}
    (hg : g.setter = .other) (hoption : optionAccess store = true)
    (hstore : ∀ w, store ≠ setting.store w) (htold : setting.told option = none) :
    Follows (callerKnows setting) (fun g' _ => g'.setter = .other) g
      (pushThenStore option store) := by
  refine Follows.bind (Q := fun g' _ => g'.setter = .other) ?_ fun g' pushed hg' => ?_
  · refine ⟨admits_other hg rfl (ne_store rfl) (fun _ _ ha => nomatch ha), fun answer => ?_⟩
    rw [next_other answer hg (fun ha => nomatch ha)]
    cases answer with
    | false => exact hg
    | true =>
      have hsilent : setting.Silent (.ofMisc (.option option)) := ⟨htold, rfl⟩
      exact follows_gated hg within_sessionGate (follows_enqueueOther hg hsilent) .notAuthenticated
  · split
    · exact hg'
    · cases store with
      | setRequestedFps | setImageQuality =>
        refine ⟨admits_other hg' rfl hstore (fun _ _ ha => nomatch ha), fun answer => ?_⟩
        rw [next_other answer hg' (fun ha => nomatch ha)]
        exact hg'
      | _ => cases hoption

/-- Where a caller's thread begins a call, for this setting. -/
def Begins (setting : Setting V) (call : Call) (setter : Setter V) : Prop :=
  (∀ w, setter ≠ .storing w) ∧ ∀ setup (g : Knows V), g.setter = setter →
    Follows (callerKnows setting) (fun g' _ => ∀ w, g'.setter ≠ .storing w) g
      (call.program setup)

theorem Begins.of_other {call : Call} (h : ∀ setup (g : Knows V), g.setter = .other →
    Follows (callerKnows setting) (fun g' _ => g'.setter = .other) g (call.program setup)) :
    Begins setting call .other :=
  ⟨nofun, fun setup g hg => (h setup g hg).mono fun _ _ hg' _ => hg' ▸ nofun⟩

theorem begins_setter {option : OptionMessage} {store : Access} {call : Call}
    (hpushes : Pushes option store) (hprogram : ∀ setup, call.program setup
      = pushThenStore option store) : ∃ setter, Begins setting call setter := by
  rcases setting.pushes hpushes with ⟨v, rfl, htold⟩ | ⟨hstore, htold⟩
  · refine ⟨.called v, nofun, fun setup g hg => ?_⟩
    rw [hprogram]
    exact follows_pushThenStore hg htold
  · refine ⟨.other, .of_other fun setup g hg => ?_⟩
    rw [hprogram]
    exact follows_otherSetter hg (optionAccess_of_pushes hpushes) hstore htold

theorem exists_begins (setting : Setting V) (call : Call) :
    ∃ setter, Begins setting call setter := by
  cases call with
  -- only the two setters with an acceptable value count; every other call follows `other`
  | sendKey key down press alt ctrl shift command =>
    exact ⟨.other, .of_other fun setup g hg =>
      follows_gated hg (within_gate _ _) (follows_enqueueOther hg ⟨rfl, rfl⟩) .inputNotAllowed⟩
  | sendText value =>
    refine ⟨.other, .of_other fun setup g hg =>
      follows_gated hg (within_gate _ _) ?_ .inputNotAllowed⟩
    split
    · exact hg
    · exact follows_enqueueOther hg ⟨rfl, rfl⟩
  | sendClipboardText text =>
    refine ⟨.other, .of_other fun setup g hg =>
      follows_gated hg (within_gate _ _) ?_ .inputNotAllowed⟩
    split
    · exact hg
    · exact follows_enqueueOther hg ⟨rfl, rfl⟩
  | sendMouse kind button x y =>
    refine ⟨.other, .of_other fun setup g hg =>
      follows_gated hg (within_gate _ _) ?_ .inputNotAllowed⟩
    split
    · exact hg
    · split
      · refine (follows_gate (p := geometry) ⟨rfl, fun _ => trivial⟩ (.inl hg)).bind
          fun g' geometry hsame => ?_
        subst hsame
        split
        · exact follows_trySendMouse hg ⟨rfl, rfl⟩
        · exact hg
      · exact follows_trySendMouse hg ⟨rfl, rfl⟩
  | setRequestedFps fps =>
    by_cases hfps : 1 ≤ fps ∧ fps ≤ 240
    · refine begins_setter (.fps hfps.1) fun setup => ?_
      rw [Call.program, Viewer.setRequestedFps, if_pos hfps]
    -- refused: nothing is pushed or stored
    · refine ⟨.other, .of_other fun setup g hg => ?_⟩
      rw [Call.program, Viewer.setRequestedFps, if_neg hfps]
      exact hg
  | setImageQuality quality =>
    by_cases hquality : validQuality quality = true
    · refine begins_setter (.quality hquality) fun setup => ?_
      rw [Call.program, Viewer.setImageQuality, if_pos hquality]
    · refine ⟨.other, .of_other fun setup g hg => ?_⟩
      rw [Call.program, Viewer.setImageQuality, if_neg hquality]
      exact hg
  | switchDisplay display width height =>
    refine ⟨.other, .of_other fun setup g hg => ?_⟩
    rw [Call.program, Viewer.switchDisplay]
    split
    · exact hg
    · refine follows_gated hg within_sessionGate ?_ .notAuthenticated
      refine (follows_enqueueOther hg ⟨rfl, rfl⟩).bind fun g' pushed hg' => ?_
      split
      · exact hg'
      · exact follows_enqueueOther hg' ⟨rfl, rfl⟩
  | changeResolution display width height =>
    refine ⟨.other, .of_other fun setup g hg => ?_⟩
    rw [Call.program, Viewer.changeResolution]
    split
    · exact hg
    · exact follows_gated hg within_sessionGate (follows_enqueueOther hg ⟨rfl, rfl⟩) .notAuthenticated
  | refreshVideo display =>
    refine ⟨.other, .of_other fun setup g hg =>
      follows_gated hg within_sessionGate (follows_enqueueOther hg ?_) .notAuthenticated⟩
    split <;> exact ⟨rfl, rfl⟩
  | requestClose =>
    refine ⟨.other, .of_other fun setup g hg => ?_⟩
    refine ⟨admits_other hg rfl (ne_store rfl) (fun _ _ ha => by cases ha), fun answer => ?_⟩
    rw [next_other answer hg (fun ha => by cases ha)]
    refine ⟨admits_other hg rfl (ne_store rfl) (fun _ _ ha => by cases ha), fun answer => ?_⟩
    rw [next_other answer hg (fun ha => by cases ha)]
    exact hg

end Programs

end Viewer

end RdEngine
