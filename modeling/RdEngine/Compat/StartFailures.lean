/-
RdEngine/Compat/StartFailures.lean

Starts that fail: `session_start` of the session API (`session_compat.rs`) and
`start` of the Flutter bridge (`flutter_session.rs`).

Both move the password out of the session before anything can fail, and neither
puts it back.  So a start can be tried again, and no other call can tell that it
failed, exactly if there was no password to lose; and, where `session_start`
ends without another word, if the session was called "starting" already
(`start_retryable`).
-/
import RdEngine.Compat.Incarnations
import RdEngine.Lib.Observers
import RdEngine.Rendezvous

namespace RdEngine

namespace Compat

/-! ### What a start meets -/

/-- `RS_PUB_KEY`. -/
def rsPubKey : String := "OeVuKk5nlHiXp+APNn0Y3pC1Iwpwn44JGqrQCsWqmBw="

/-- The configuration, the executor, and the VNC servers. -/
structure Runtime where
  localId : String
  configuredKey : String
  rendezvousServer : String
  /-- `STANDARD.decode` of base64 -/
  decode : String → Option Bytes
  /-- the executor is there -/
  isAvailable : Bool
  /-- the handshake of `VncLiveSession::open` succeeds -/
  opensVnc : String → UInt16 → Option String → Bool → Bool

/-- `rendezvous_config`, the same in both. -/
def rendezvousConfig (runtime : Runtime) (id : String) : Except String RendezvousConfig :=
  let key := if runtime.configuredKey.isEmpty then rsPubKey else runtime.configuredKey
  match runtime.decode key with
  | none => .error "Configured rendezvous trust anchor is invalid"
  | some bytes =>
    match FixedBytes.fromSlice 32 bytes with
    | none => .error "Configured rendezvous trust anchor is invalid"
    | some serverKey => .ok {
        id
        rendezvousServer := runtime.rendezvousServer
        serverKey
        licenceKey := key
        relayServer := none
        connectTimeout := 45 * 10 ^ 9 }

/-- What a start of a backend may fail with. -/
inductive StartError where
  | invalidOptions | runtimeUnavailable | vnc | rdp
deriving DecidableEq, Repr

/-- `start_with_connector`, up to the spawn. -/
def startWithConnector (runtime : Runtime) (options : ViewerOptions) : Except StartError Unit :=
  if options.username.isEmpty ∨ options.localId.isEmpty ∨ options.username.utf8ByteSize > 512 ∨
      options.localId.utf8ByteSize > 512 ∨ options.localName.utf8ByteSize > 512 ∨
      options.password.utf8ByteSize > 4096 ∨
      ¬ (1 ≤ options.requestedFps ∧ options.requestedFps ≤ 240) then .error .invalidOptions
  else if !runtime.isAvailable then .error .runtimeUnavailable
  else .ok ()

/-- `Viewer::start`. -/
def viewerStart (runtime : Runtime) (options : ViewerOptions) : Except StartError Unit :=
  if options.address.all fun address => address.port == 0 then .error .invalidOptions
  else startWithConnector runtime options

/-- `Viewer::start_rendezvous`. -/
def viewerStartRendezvous (runtime : Runtime) (options : ViewerOptions)
    (config : RendezvousConfig) : Except StartError Unit :=
  if options.address.isSome ∨ options.username ≠ config.id then .error .invalidOptions
  else startWithConnector runtime options

/-! ### `session_start` -/

/-- How the open ends. -/
inductive Opened where
  | backend (isVnc : Bool)
  | failed (error : StartError)
  /-- `session_start` returns at once -/
  | unconfigured (message : String)
  /-- `unreachable!`: no target is parsed to such a route -/
  | panicked
deriving DecidableEq

/-- What `session_start` does while it has let go of the lock. -/
def openBackend (runtime : Runtime) (opening : Opening) : Opened :=
  match opening.route with
  | .scheme .vnc host port =>
    if runtime.opensVnc host port
        (if opening.password.isEmpty then none else some opening.password) (!opening.viewOnly) then
      .backend true
    else .failed .vnc
  | .scheme .rdp _ _ => .failed .rdp
  | .scheme .rustDesk _ _ => .panicked
  | .direct _ =>
    match viewerStart runtime opening.options with
    | .ok () => .backend false
    | .error error => .failed error
  | .rendezvous id =>
    match rendezvousConfig runtime id with
    | .error message => .unconfigured message
    | .ok config =>
      match viewerStartRendezvous runtime opening.options config with
      | .ok () => .backend false
      | .error error => .failed error

/-- A call of another thread, or a part of one, under the registry's lock. -/
inductive Call where
  | adds (id peerTarget : String) (options : Option AddOptions) (generation : Nat)
  | setsViewOnly (id : String) (enabled : Bool)
  | begins (id localId : String)
  | finishes (opening : Opening) (viewer : Option (Nat × Bool))
  /-- `session_poll_events` and `session_login`, of a session with a viewer -/
  | shows (id phase : String)
  | closes (id : String)

/-- What a call at the registry gives back. -/
inductive Answer where
  | added (result : Except String CompatSession)
  | set (result : ActionResult)
  | begun (result : ActionResult ⊕ Opening)
  | finished (finish : Finish) (result : ActionResult)
  | shown (viewer : Option (Option Nat))
  | closed (viewer : Option (Option Nat))

def Call.run (call : Call) (registry : Registry) : Registry × Answer :=
  match call with
  | .adds id peerTarget options generation =>
    let result := sessionAdd id peerTarget options generation registry
    (match result with
      | .ok session => session :: registry
      | .error _ => registry, .added result)
  | .setsViewOnly id enabled =>
    let (registry, result) := sessionSetViewOnly id enabled registry
    (registry, .set result)
  | .begins id localId =>
    let (registry, result) := sessionStart.begin id localId registry
    (registry, .begun result)
  | .finishes opening viewer =>
    let (registry, finish, result) := sessionStart.finish opening viewer registry
    (registry, .finished finish result)
  | .shows id phase =>
    (registry.modify id fun session =>
      if session.viewer.isSome then { session with phase } else session,
      .shown ((registry.get id).map (·.viewer)))
  | .closes id => (registry.remove id, .closed ((registry.get id).map (·.viewer)))

/-- How a start ends, and what the calls of other threads were answered that came
before it took the lock again.  A panic gives no result. -/
structure Ended where
  registry : Registry
  answers : List Answer
  result : Option ActionResult

/-- What `session_start` does once it has let go of the lock.  A backend that was
opened has the number `backend`. -/
def sessionStart.complete (runtime : Runtime) (opening : Opening) (backend : Nat)
    (registry : Registry) : Registry × Option ActionResult :=
  if opening.forceRelay then
    (registry, some ⟨"session_start", false,
      "Forced relay routing is not connected in this milestone"⟩)
  else
    match openBackend runtime opening with
    | .panicked => (registry, none)
    | .unconfigured message => (registry, some ⟨"session_start", false, message⟩)
    | .failed _ =>
      let (registry, _, result) := sessionStart.finish opening none registry
      (registry, some result)
    | .backend isVnc =>
      let (registry, _, result) := sessionStart.finish opening (some (backend, isVnc)) registry
      (registry, some result)

/-- `session_start`, with the calls that come while it has let go of the lock. -/
def sessionStart (runtime : Runtime) (id : String) (backend : Nat) (meanwhile : List Call)
    (registry : Registry) : Ended :=
  let (begun, outcome) := sessionStart.begin id runtime.localId registry
  let (registry, answers) := Observers.run Call.run meanwhile begun
  match outcome with
  | .inl result => ⟨registry, answers, some result⟩
  | .inr opening =>
    let (registry, result) := sessionStart.complete runtime opening backend registry
    ⟨registry, answers, result⟩

/-! ### Sessions that differ in their phase -/

/-- Two sessions that differ at most in their phase, where `allowed` says so. -/
structure Like (allowed : String → String → Prop) (a b : CompatSession) : Prop where
  rest : { a with phase := b.phase } = b
  phase : a.phase = b.phase ∨ allowed b.id a.phase

theorem Like.refl {allowed : String → String → Prop} (a : CompatSession) : Like allowed a a :=
  ⟨rfl, .inl rfl⟩

/-- Nothing but a reported failure. -/
def Reported : CompatSession → CompatSession → Prop := Like fun _ phase => phase = "failed"

namespace Like

variable {allowed : String → String → Prop} {a b : CompatSession}

theorem id_eq (h : Like allowed a b) : a.id = b.id := by
  rw [← h.rest]

theorem viewer_eq (h : Like allowed a b) : a.viewer = b.viewer := by
  rw [← h.rest]

/-- A start takes the same from both. -/
theorem opening_eq (h : Like allowed a b) (localId : String) :
    opening localId a = opening localId b := by
  rw [← h.rest]
  rfl

/-- A change of other members, or one that sets the phase. -/
theorem map (h : Like allowed a b) {f : CompatSession → CompatSession}
    (hrest : { f a with phase := (f b).phase } = f { a with phase := b.phase })
    (hphase : (f a).phase = (f b).phase ∨ ((f a).phase = a.phase ∧ (f b).phase = b.phase))
    (hid : (f b).id = b.id) : Like allowed (f a) (f b) := by
  refine ⟨hrest.trans (congrArg f h.rest), ?_⟩
  rcases hphase with hsame | ⟨ha, hb⟩
  · exact .inl hsame
  · rw [ha, hb, hid]
    exact h.phase

end Like

/-- Two registries that differ in the errors their sessions keep. -/
abbrev RegistryLike (allowed : String → String → Prop) : Registry → Registry → Prop :=
  List.Forall₂ (Like allowed)

variable {allowed : String → String → Prop} {as bs : Registry}

theorem get_like (h : RegistryLike allowed as bs) (id : String) :
    (as.get id = none ∧ bs.get id = none) ∨
      ∃ a b, as.get id = some a ∧ bs.get id = some b ∧ Like allowed a b :=
  Observers.find?_rel (fun a b hab => by rw [hab.id_eq]) h

theorem modify_like {f : CompatSession → CompatSession}
    (hf : ∀ a b, Like allowed a b → Like allowed (f a) (f b)) (h : RegistryLike allowed as bs)
    (id : String) : RegistryLike allowed (as.modify id f) (bs.modify id f) := by
  refine List.rel_map (fun a b hab => ?_) h
  rw [hab.id_eq]
  split
  · exact hf a b hab
  · exact hab

theorem remove_like (h : RegistryLike allowed as bs) (id : String) :
    RegistryLike allowed (as.remove id) (bs.remove id) :=
  List.rel_filter (fun _ _ hab => iff_of_eq (congrArg (fun i => (i != id) = true) hab.id_eq)) h

theorem viewer_like (h : RegistryLike allowed as bs) (id : String) :
    (as.get id).map (·.viewer) = (bs.get id).map (·.viewer) := by
  rcases get_like h id with ⟨ha, hb⟩ | ⟨a, b, ha, hb, hab⟩
  · rw [ha, hb]
  · rw [ha, hb, Option.map_some, Option.map_some, hab.viewer_eq]

theorem sessionAdd_like (h : RegistryLike allowed as bs) (id peerTarget : String)
    (options : Option AddOptions) (generation : Nat) :
    sessionAdd id peerTarget options generation as
      = sessionAdd id peerTarget options generation bs := by
  have hsome : (as.get id).isSome = (bs.get id).isSome := by
    rcases get_like h id with ⟨ha, hb⟩ | ⟨a, b, ha, hb, -⟩
    · rw [ha, hb]
    · rw [ha, hb]
      rfl
  unfold sessionAdd
  rw [hsome, h.length_eq]

theorem sessionSetViewOnly_like (h : RegistryLike allowed as bs) (id : String) (enabled : Bool) :
    (sessionSetViewOnly id enabled as).2 = (sessionSetViewOnly id enabled bs).2 ∧
      RegistryLike allowed (sessionSetViewOnly id enabled as).1
        (sessionSetViewOnly id enabled bs).1 := by
  unfold sessionSetViewOnly
  rcases get_like h id with ⟨ha, hb⟩ | ⟨a, b, ha, hb, hab⟩
  · rw [ha, hb]
    exact ⟨rfl, h⟩
  · rw [ha, hb]
    dsimp only
    rw [hab.viewer_eq]
    split
    · exact ⟨rfl, h⟩
    · exact ⟨rfl, modify_like (fun a b hab => hab.map rfl (.inr ⟨rfl, rfl⟩) rfl) h id⟩

theorem begin_like (h : RegistryLike allowed as bs) (id localId : String) :
    (sessionStart.begin id localId as).2 = (sessionStart.begin id localId bs).2 ∧
      RegistryLike allowed (sessionStart.begin id localId as).1
        (sessionStart.begin id localId bs).1 := by
  unfold sessionStart.begin
  rcases get_like h id with ⟨ha, hb⟩ | ⟨a, b, ha, hb, hab⟩
  · rw [ha, hb]
    exact ⟨rfl, h⟩
  · rw [ha, hb]
    dsimp only
    rw [hab.viewer_eq, hab.opening_eq]
    split
    · exact ⟨rfl, h⟩
    · split
      · exact ⟨rfl, h⟩
      · exact ⟨rfl, modify_like (fun a b hab => hab.map rfl (.inl rfl) rfl) h id⟩

theorem finish_like (h : RegistryLike allowed as bs) (opening : Opening)
    (viewer : Option (Nat × Bool)) :
    (sessionStart.finish opening viewer as).2 = (sessionStart.finish opening viewer bs).2 ∧
      RegistryLike allowed (sessionStart.finish opening viewer as).1
        (sessionStart.finish opening viewer bs).1 := by
  unfold sessionStart.finish
  rcases get_like h opening.id with ⟨ha, hb⟩ | ⟨a, b, ha, hb, hab⟩
  · rw [ha, hb]
    exact ⟨rfl, h⟩
  · rw [ha, hb]
    dsimp only
    split
    · refine ⟨?_, modify_like (fun a b hab => hab.map rfl (.inr ⟨rfl, rfl⟩) rfl) h _⟩
      rw [← hab.rest]
    · exact ⟨rfl, modify_like (fun a b hab => hab.map rfl (.inl rfl) rfl) h _⟩

/-- **No call can tell sessions apart that differ in their phase.** -/
theorem respects_run : Observers.Respects Call.run (RegistryLike allowed) := by
  intro call as bs h
  cases call with
  | adds id peerTarget options generation =>
    have hsame := sessionAdd_like h id peerTarget options generation
    refine ⟨congrArg Answer.added hsame, ?_⟩
    show RegistryLike allowed
      (match sessionAdd id peerTarget options generation as with
        | .ok session => session :: as
        | .error _ => as)
      (match sessionAdd id peerTarget options generation bs with
        | .ok session => session :: bs
        | .error _ => bs)
    rw [hsame]
    split
    · exact .cons (Like.refl _) h
    · exact h
  | setsViewOnly id enabled =>
    obtain ⟨hresult, hlike⟩ := sessionSetViewOnly_like h id enabled
    exact ⟨congrArg Answer.set hresult, hlike⟩
  | begins id localId =>
    obtain ⟨hresult, hlike⟩ := begin_like h id localId
    exact ⟨congrArg Answer.begun hresult, hlike⟩
  | finishes opening viewer =>
    obtain ⟨hresult, hlike⟩ := finish_like h opening viewer
    exact ⟨congrArg (fun r : Finish × ActionResult => Answer.finished r.1 r.2) hresult, hlike⟩
  | shows id phase =>
    -- a phase is shown for a session with a viewer, and both have one or neither
    refine ⟨congrArg Answer.shown (viewer_like h id), modify_like (fun a b hab => ?_) h id⟩
    have hviewer := congrArg Option.isSome hab.viewer_eq
    cases hb : b.viewer.isSome with
    | false =>
      rw [if_neg (by rw [hviewer, hb]; exact Bool.false_ne_true), if_neg Bool.false_ne_true]
      exact hab
    | true =>
      rw [if_pos (hviewer.trans hb), if_pos rfl]
      exact hab.map (f := fun session => { session with phase }) rfl (.inl rfl) rfl
  | closes id => exact ⟨congrArg Answer.closed (viewer_like h id), remove_like h id⟩

/-! ### Starts that can be tried again -/

/-- Once a start has ended with an error, and whatever other calls came meanwhile:
the sessions are as those calls alone would have left them, but for a reported
failure; and neither these calls nor any later ones, a second start among them,
can tell that there was a start. -/
def Retryable (runtime : Runtime) (id : String) (backend : Nat) (registry : Registry) : Prop :=
  ∀ (meanwhile later : List Call) (result : ActionResult),
    (sessionStart runtime id backend meanwhile registry).result = some result →
    result.ok = false →
    List.Forall₂ Reported (sessionStart runtime id backend meanwhile registry).registry
        (Observers.run Call.run meanwhile registry).1 ∧
      (sessionStart runtime id backend meanwhile registry).answers
        = (Observers.run Call.run meanwhile registry).2 ∧
      (Observers.run Call.run later
          (sessionStart runtime id backend meanwhile registry).registry).2
        = (Observers.run Call.run later (Observers.run Call.run meanwhile registry).1).2

/-- The start ends without another look at the session. -/
def EndsSilently (runtime : Runtime) (opening : Opening) : Prop :=
  opening.forceRelay = true ∨ ∃ message, openBackend runtime opening = .unconfigured message

/-- A start that goes beyond its first half finds no password in the session, and
where it ends without another look, a session that is called "starting". -/
def Spared (runtime : Runtime) (id : String) (registry : Registry) : Prop :=
  ∀ session, registry.get id = some session → session.viewer = none →
    runtime.localId.isEmpty = false →
    (session.forceRelay = true ∨
      openBackend runtime (opening runtime.localId session) ≠ .panicked) →
    session.password = "" ∧
      (EndsSilently runtime (opening runtime.localId session) → session.phase = "starting")

/-- The session that the first half of a start leaves behind. -/
def begun (session : CompatSession) : CompatSession :=
  { session with phase := "starting", password := "" }

/-- A start ends with its first half, or takes the password. -/
theorem begin_cases (id localId : String) (registry : Registry) :
    (∃ result, sessionStart.begin id localId registry = (registry, .inl result)) ∨
      ∃ session, registry.get id = some session ∧ session.viewer = none ∧
        localId.isEmpty = false ∧
        sessionStart.begin id localId registry
          = (registry.modify id begun, .inr (opening localId session)) := by
  unfold sessionStart.begin
  split
  · exact .inl ⟨_, rfl⟩
  · rename_i session hget
    split
    · exact .inl ⟨_, rfl⟩
    · split
      · exact .inl ⟨_, rfl⟩
      · rename_i hviewer hlocal
        refine .inr ⟨session, hget, ?_, (Bool.not_eq_true _).mp hlocal, rfl⟩
        simpa using hviewer

theorem begin_eq_of_get {id localId : String} {registry : Registry} {session : CompatSession}
    (hget : registry.get id = some session) (hviewer : session.viewer = none)
    (hlocal : localId.isEmpty = false) :
    sessionStart.begin id localId registry
      = (registry.modify id begun, .inr (opening localId session)) := by
  unfold sessionStart.begin
  rw [hget]
  dsimp only
  rw [if_neg (by rw [hviewer]; exact Bool.false_ne_true), if_neg (ne_true_of_eq_false hlocal)]
  rfl

/-- The sessions have different ids, as in a map. -/
def Distinct (registry : Registry) : Prop := (registry.map (·.id)).Nodup

theorem eq_of_get {registry : Registry} (h : Distinct registry) {id : String}
    {session other : CompatSession} (hget : registry.get id = some session)
    (hother : other ∈ registry) (hid : other.id = id) : other = session := by
  obtain ⟨hmem, hsession⟩ := get_some hget
  exact List.inj_on_of_nodup_map h hother hmem (hid.trans hsession.symm)

/-- Sessions that are related, one of them changed. -/
theorem modify_left {R : CompatSession → CompatSession → Prop} {registry : Registry}
    (h : Distinct registry) {id : String} {session : CompatSession}
    {f : CompatSession → CompatSession} (hget : registry.get id = some session)
    (hrefl : ∀ a, R a a) (hf : R (f session) session) :
    List.Forall₂ R (registry.modify id f) registry := by
  refine List.forall₂_map_left_iff.mpr (List.forall₂_same.mpr fun a ha => ?_)
  split
  · rename_i hid
    rw [eq_of_get h hget ha (eq_of_beq hid)]
    exact hf
  · exact hrefl a

theorem modify_absent {registry : Registry} {id : String} (h : registry.get id = none)
    (f : CompatSession → CompatSession) : registry.modify id f = registry := by
  refine (List.map_congr_left fun session hmem => ?_).trans (List.map_id _)
  rw [if_neg fun hid => get_none h session hmem (eq_of_beq hid)]
  rfl

/-- What is left of a start that is under way: the sessions of this id may show any
phase. -/
def Underway (id : String) : CompatSession → CompatSession → Prop := Like fun i _ => i = id

/-- The end of a start that failed reports it, and that is all. -/
theorem reported_of_underway {id : String} (h : List.Forall₂ (Underway id) as bs) :
    List.Forall₂ Reported
      (as.modify id fun session => { session with phase := "failed" }) bs := by
  refine List.forall₂_map_left_iff.mpr (h.imp fun a b hab => ?_)
  split
  · refine ⟨?_, .inr rfl⟩
    rw [← hab.rest]
  · rename_i hid
    refine ⟨hab.rest, hab.phase.imp_right fun hsame => ?_⟩
    exact absurd (beq_iff_eq.mpr (hab.id_eq.trans hsame)) hid

/-- How a start goes on that has let go of the lock, if it ends with an error. -/
theorem complete_error {runtime : Runtime} {o : Opening} {backend : Nat}
    {registry : Registry} {result : ActionResult}
    (h : (sessionStart.complete runtime o backend registry).2 = some result)
    (herror : result.ok = false) :
    (o.forceRelay = true ∨ openBackend runtime o ≠ .panicked) ∧
      ((EndsSilently runtime o ∧ (sessionStart.complete runtime o backend registry).1 = registry) ∨
        (sessionStart.complete runtime o backend registry).1
          = registry.modify o.id fun session => { session with phase := "failed" }) := by
  unfold sessionStart.complete at h ⊢
  split at h
  · rename_i hforce
    rw [if_pos hforce]
    exact ⟨.inl hforce, .inl ⟨.inl hforce, rfl⟩⟩
  · rename_i hforce
    rw [if_neg hforce]
    -- only an unconfigured backend fails in silence; a panic answers nothing
    cases hopen : openBackend runtime o with
    | panicked =>
      rw [hopen] at h
      cases h
    | unconfigured message =>
      refine ⟨.inr ?_, .inl ⟨.inr ⟨message, hopen⟩, rfl⟩⟩
      exact Opened.noConfusion
    | failed error =>
      refine ⟨.inr Opened.noConfusion, .inr ?_⟩
      unfold sessionStart.finish
      cases hget : registry.get o.id with
      | none => exact (modify_absent hget _).symm
      | some session => rfl
    | backend isVnc =>
      refine ⟨.inr Opened.noConfusion, .inr ?_⟩
      rw [hopen] at h
      unfold sessionStart.finish at h ⊢
      cases hget : registry.get o.id with
      | none => exact (modify_absent hget _).symm
      | some session =>
        rw [hget] at h
        obtain rfl := Option.some.inj h
        cases herror

/-- A start that has let go of the lock, and finds no session, ends with an error. -/
theorem complete_absent {runtime : Runtime} {o : Opening} (backend : Nat) {registry : Registry}
    (hget : registry.get o.id = none)
    (hends : o.forceRelay = true ∨ openBackend runtime o ≠ .panicked) :
    ∃ result, (sessionStart.complete runtime o backend registry).2 = some result ∧
      result.ok = false := by
  unfold sessionStart.complete
  split
  · exact ⟨_, rfl, rfl⟩
  · rename_i hforce
    have hopen := hends.resolve_left hforce
    split
    · rename_i hpanicked
      exact absurd hpanicked hopen
    · exact ⟨_, rfl, rfl⟩
    · unfold sessionStart.finish
      rw [hget]
      exact ⟨_, rfl, rfl⟩
    · unfold sessionStart.finish
      rw [hget]
      exact ⟨_, rfl, rfl⟩

theorem sessionStart_of_inr {runtime : Runtime} {id : String} {registry registry' : Registry}
    {o : Opening} (h : sessionStart.begin id runtime.localId registry = (registry', .inr o))
    (backend : Nat) (meanwhile : List Call) :
    sessionStart runtime id backend meanwhile registry
      = ⟨(sessionStart.complete runtime o backend (Observers.run Call.run meanwhile registry').1).1,
        (Observers.run Call.run meanwhile registry').2,
        (sessionStart.complete runtime o backend
          (Observers.run Call.run meanwhile registry').1).2⟩ := by
  unfold sessionStart
  rw [h]

theorem reported_refl (registry : Registry) : List.Forall₂ Reported registry registry :=
  List.forall₂_same.mpr fun a _ => Like.refl a

/-- **A start that finds no password to lose can be tried again.** -/
theorem retryable_of_spared {runtime : Runtime} {id : String} {registry : Registry}
    (hdistinct : Distinct registry) (h : Spared runtime id registry) (backend : Nat) :
    Retryable runtime id backend registry := by
  intro meanwhile later result hresult herror
  rcases begin_cases id runtime.localId registry with
    ⟨first, hbegin⟩ | ⟨session, hget, hviewer, hlocal, hbegin⟩
  · have hstart : sessionStart runtime id backend meanwhile registry
        = ⟨(Observers.run Call.run meanwhile registry).1,
          (Observers.run Call.run meanwhile registry).2, some first⟩ := by
      unfold sessionStart
      rw [hbegin]
    rw [hstart]
    exact ⟨reported_refl _, rfl, rfl⟩
  rw [sessionStart_of_inr hbegin] at hresult ⊢
  obtain ⟨hends, hcomplete⟩ := complete_error hresult herror
  obtain ⟨hpassword, hphase⟩ := h session hget hviewer hlocal hends
  rcases hcomplete with ⟨hsilent, hsame⟩ | hfailed
  · have hkept : begun session = session := by
      unfold begun
      rw [← hpassword, ← hphase hsilent]
    have hregistry : registry.modify id begun = registry :=
      List.forall₂_eq_eq_eq ▸ modify_left hdistinct hget (fun _ => rfl) hkept
    dsimp only
    rw [hsame, hregistry]
    exact ⟨reported_refl _, rfl, rfl⟩
  · have hunderway : List.Forall₂ (Underway id) (registry.modify id begun) registry := by
      refine modify_left hdistinct hget Like.refl ⟨?_, .inr (get_some hget).2⟩
      unfold begun
      rw [← hpassword]
    obtain ⟨hanswers, hafter⟩ := respects_run.run meanwhile hunderway
    have hid : (opening runtime.localId session).id = id := (get_some hget).2
    dsimp only
    rw [hfailed, hid]
    have hreported := reported_of_underway hafter
    exact ⟨hreported, hanswers, (respects_run.run later hreported).1⟩

/-- A start that can be tried again has found no password to lose. -/
theorem spared_of_retryable {runtime : Runtime} {id : String} {backend : Nat}
    {registry : Registry} (h : Retryable runtime id backend registry) :
    Spared runtime id registry := by
  intro session hget hviewer hlocal hends
  have hbegin := begin_eq_of_get hget hviewer hlocal
  have hbegun : (registry.modify id begun).get id = some (begun session) :=
    get_modify hget fun _ => rfl
  have hid : (opening runtime.localId session).id = id := (get_some hget).2
  refine ⟨?_, fun hsilent => ?_⟩
  · -- another start begins, and the session is closed
    let meanwhile : List Call := [.begins id runtime.localId, .closes id]
    have habsent : (Observers.run Call.run meanwhile (registry.modify id begun)).1.get
        (opening runtime.localId session).id = none := by
      rw [hid]
      exact get_remove _ id
    obtain ⟨result, hresult, herror⟩ := complete_absent backend habsent hends
    have hstart := sessionStart_of_inr hbegin backend meanwhile
    have hanswers := (h meanwhile [] result (by rw [hstart]; exact hresult) herror).2.1
    rw [hstart] at hanswers
    have hfirst : Answer.begun (sessionStart.begin id runtime.localId
        (registry.modify id begun)).2
        = .begun (sessionStart.begin id runtime.localId registry).2 := (List.cons.inj hanswers).1
    rw [begin_eq_of_get hbegun hviewer hlocal, hbegin] at hfirst
    exact (congrArg Opening.password (Sum.inr.inj (Answer.begun.inj hfirst))).symm
  -- nothing happens meanwhile, and the opening fails
  · obtain ⟨result, hresult, herror⟩ : ∃ result,
        (sessionStart.complete runtime (opening runtime.localId session) backend
          (registry.modify id begun)) = (registry.modify id begun, some result) ∧
        result.ok = false := by
      unfold sessionStart.complete
      split
      · exact ⟨_, rfl, rfl⟩
      · rename_i hforce
        obtain ⟨message, hopen⟩ := hsilent.resolve_left hforce
        rw [hopen]
        exact ⟨_, rfl, rfl⟩
    have hstart := sessionStart_of_inr hbegin backend []
    have hreported := (h [] [] result (by
      rw [hstart]
      exact congrArg Prod.snd hresult) herror).1
    rw [hstart] at hreported
    have hregistry : (sessionStart.complete runtime (opening runtime.localId session) backend
        (Observers.run Call.run [] (registry.modify id begun)).1).1 = registry.modify id begun :=
      congrArg Prod.fst hresult
    dsimp only at hreported
    rw [hregistry] at hreported
    rcases get_like hreported id with ⟨hnone, -⟩ | ⟨a, b, ha, hb, hab⟩
    · cases hnone.symm.trans hbegun
    · obtain rfl := Option.some.inj (ha.symm.trans hbegun)
      obtain rfl := Option.some.inj (hb.symm.trans hget)
      rcases hab.phase with hsame | hfailed
      · exact hsame.symm
      · exact absurd (show "starting" = "failed" from hfailed) (by decide)

/-! ### `start` of the Flutter bridge -/

namespace Flutter

/-- Where the other bridge connects to. -/
inductive Route where
  | direct (address : SocketAddr)
  | rendezvous (peer : String)
deriving DecidableEq

/-- A session; the password is that of its options. -/
structure Session where
  id : Nat
  route : Route
  password : String
  viewer : Option Nat
deriving DecidableEq

def viewerOptions (localId : String) (session : Session) : ViewerOptions where
  address :=
    match session.route with
    | .direct address => some address
    | .rendezvous _ => none
  username :=
    match session.route with
    | .direct address => ipText address.ip
    | .rendezvous peer => peer
  localId
  localName := "RustDesk"
  password := session.password
  requestedFps := 60
  clipboardEnabled := true
  imageQuality := .balanced

/-- The viewer is opened, over the route of the session. -/
def openViewer (runtime : Runtime) (session : Session) : Except String Unit :=
  let options := viewerOptions runtime.localId session
  match session.route with
  | .direct _ => (viewerStart runtime options).mapError fun _ => "Viewer could not start"
  | .rendezvous peer =>
    match rendezvousConfig runtime peer with
    | .error message => .error message
    | .ok config =>
      (viewerStartRendezvous runtime options config).mapError fun _ => "Viewer could not start"

/-- `start`, under the lock throughout. -/
def start (runtime : Runtime) (id : Nat) (backend : Nat) (sessions : List Session) :
    List Session × Except String Unit :=
  if runtime.localId.isEmpty then (sessions, .error "Runtime identity is unavailable")
  else
    match sessions.find? (·.id == id) with
    | none => (sessions, .error "Session not found")
    | some session =>
      if session.viewer.isSome then (sessions, .ok ())
      else
        let taken := sessions.map fun session =>
          if session.id == id then { session with password := "" } else session
        match openViewer runtime session with
        | .error message => (taken, .error message)
        | .ok () =>
          (taken.map fun session =>
            if session.id == id then { session with viewer := some backend } else session, .ok ())

/-- Once a start has ended with an error, the sessions are as before, so that a second
one does what the first would have done. -/
def Retryable (runtime : Runtime) (id : Nat) (backend : Nat) (sessions : List Session) : Prop :=
  ∀ message, (start runtime id backend sessions).2 = .error message →
    (start runtime id backend sessions).1 = sessions

/-- A start whose viewer does not start finds no password in the session. -/
def Spared (runtime : Runtime) (id : Nat) (sessions : List Session) : Prop :=
  ∀ session message, sessions.find? (·.id == id) = some session → session.viewer = none →
    runtime.localId.isEmpty = false → openViewer runtime session = .error message →
    session.password = ""

/-- No two sessions have one id. -/
def Distinct (sessions : List Session) : Prop := (sessions.map (·.id)).Nodup

/-- **A start whose viewer does not start can be tried again exactly if there was no
password to lose.** -/
theorem retryable_iff {runtime : Runtime} {id : Nat} {backend : Nat} {sessions : List Session}
    (hdistinct : Distinct sessions) :
    Retryable runtime id backend sessions ↔ Spared runtime id sessions := by
  -- a start that fails in the opening has taken the password
  have hstart : ∀ session message, sessions.find? (·.id == id) = some session →
      session.viewer = none → runtime.localId.isEmpty = false →
      openViewer runtime session = .error message →
      start runtime id backend sessions = (sessions.map fun session =>
        if session.id == id then { session with password := "" } else session,
        .error message) := by
    intro session message hfind hviewer hlocal hopen
    unfold start
    rw [if_neg (ne_true_of_eq_false hlocal), hfind]
    dsimp only
    rw [if_neg (by rw [hviewer]; exact Bool.false_ne_true), hopen]
  constructor
  -- the session with this id is one of those that are not to change
  · intro h session message hfind hviewer hlocal hopen
    have heq := hstart session message hfind hviewer hlocal hopen
    have hsame := h message (congrArg Prod.snd heq)
    rw [heq] at hsame
    have hid := List.find?_some hfind
    have hkept := List.map_inj_left.mp (hsame.trans (List.map_id _).symm) session
      (List.mem_of_find?_eq_some hfind)
    rw [if_pos hid] at hkept
    exact (congrArg Session.password hkept).symm
  -- every other failure comes before the password is taken
  · intro h message herror
    cases hlocal : runtime.localId.isEmpty with
    | true =>
      unfold start
      rw [if_pos hlocal]
    | false =>
      cases hfind : sessions.find? (·.id == id) with
      | none =>
        unfold start
        rw [if_neg (ne_true_of_eq_false hlocal), hfind]
      | some session =>
        cases hviewer : session.viewer with
        | some viewer =>
          unfold start
          rw [if_neg (ne_true_of_eq_false hlocal), hfind]
          dsimp only
          rw [if_pos (by rw [hviewer]; rfl)]
        | none =>
          cases hopen : openViewer runtime session with
          | error text =>
            rw [hstart session text hfind hviewer hlocal hopen]
            refine (List.map_congr_left fun other hmem => ?_).trans (List.map_id _)
            split
            · rename_i hid
              have hfound := List.find?_some hfind
              have hsame : other = session := List.inj_on_of_nodup_map hdistinct hmem
                (List.mem_of_find?_eq_some hfind) ((eq_of_beq hid).trans (eq_of_beq hfound).symm)
              rw [hsame]
              show { session with password := "" } = session
              rw [← h session text hfind hviewer hlocal hopen]
            · rfl
          | ok =>
            unfold start at herror
            rw [if_neg (ne_true_of_eq_false hlocal), hfind] at herror
            dsimp only at herror
            rw [if_neg (by rw [hviewer]; exact Bool.false_ne_true), hopen] at herror
            cases herror

end Flutter

/-! ### Both -/

/-- **A start that fails can be tried again exactly if it has moved no password out
of the session, and, where `session_start` ends silently, the session was called
"starting" before.** -/
theorem start_retryable (runtime : Runtime) (id : String) (backend : Nat) {registry : Registry}
    (hregistry : Distinct registry) (flutterId : Nat) {sessions : List Flutter.Session}
    (hsessions : Flutter.Distinct sessions) :
    (Retryable runtime id backend registry ↔ Spared runtime id registry) ∧
      (Flutter.Retryable runtime flutterId backend sessions ↔
        Flutter.Spared runtime flutterId sessions) :=
  ⟨⟨spared_of_retryable, fun h => retryable_of_spared hregistry h backend⟩,
    Flutter.retryable_iff hsessions⟩

/-- Neither the trust anchor nor a VNC server is usable. -/
def brokenRuntime : Runtime where
  localId := "viewer"
  configuredKey := "?"
  rendezvousServer := "rs"
  decode _ := none
  isAvailable := true
  opensVnc _ _ _ _ := false

/-- A session of the API, with this route and password. -/
def storedSession (route : SessionRoute) (password : String) (forceRelay : Bool) :
    CompatSession where
  id := "s"
  target := "desk"
  route := route
  password := password
  forceRelay := forceRelay
  viewOnly := false
  requestedFps := 60
  imageQuality := "balanced"
  customImageQuality := 0
  clipboardEnabled := false
  phase := "created"
  protocol := .rustDesk
  viewer := none
  generation := 1

theorem distinct_singleton (session : CompatSession) : Distinct [session] :=
  List.nodup_singleton _

theorem Flutter.distinct_singleton (session : Flutter.Session) : Flutter.Distinct [session] :=
  List.nodup_singleton _

/-- A VNC server that refuses, and a peer without a trust anchor, where no password
is stored. -/
theorem start_retryable_unstored :
    Retryable brokenRuntime "s" 0 [storedSession (.scheme .vnc "desk" 5900) "" false] ∧
      Flutter.Retryable brokenRuntime 1 0 [⟨1, .rendezvous "desk", "", none⟩] := by
  have hboth := start_retryable brokenRuntime "s" 0
    (distinct_singleton (storedSession (.scheme .vnc "desk" 5900) "" false)) 1
    (Flutter.distinct_singleton ⟨1, .rendezvous "desk", "", none⟩)
  refine ⟨hboth.1.mpr ?_, hboth.2.mpr ?_⟩
  · intro session hget _ _ _
    obtain rfl := Option.some.inj hget
    refine ⟨rfl, fun hsilent => ?_⟩
    rcases hsilent with hforce | ⟨message, hopen⟩
    · cases hforce
    · cases hopen
  · intro session message hfind _ _ _
    obtain rfl := Option.some.inj hfind
    rfl

/-- A forced relay, a missing trust anchor, a failed handshake; and the same missing
trust anchor for the Flutter bridge: the password is gone. -/
theorem password_lost :
    ¬ Retryable brokenRuntime "s" 0 [storedSession (.rendezvous "desk") "secret" true] ∧
      ¬ Retryable brokenRuntime "s" 0 [storedSession (.rendezvous "desk") "secret" false] ∧
      ¬ Retryable brokenRuntime "s" 0 [storedSession (.scheme .vnc "desk" 5900) "secret" false] ∧
      ¬ Flutter.Retryable brokenRuntime 1 0 [⟨1, .rendezvous "desk", "secret", none⟩] := by
  have hlost : ∀ route forceRelay, (forceRelay = true ∨ openBackend brokenRuntime
        (opening brokenRuntime.localId (storedSession route "secret" forceRelay)) ≠ .panicked) →
      ¬ Retryable brokenRuntime "s" 0 [storedSession route "secret" forceRelay] := by
    intro route forceRelay hends h
    have hpassword : ("secret" : String) = "" := (spared_of_retryable h _ rfl rfl rfl hends).1
    exact absurd hpassword (by decide)
  refine ⟨hlost _ _ (.inl rfl), hlost _ _ (.inr ?_), hlost _ _ (.inr ?_), fun h => ?_⟩
  · exact Opened.noConfusion
  · exact Opened.noConfusion
  · have hspared := (Flutter.retryable_iff (Flutter.distinct_singleton _)).mp h
    exact absurd (hspared _ _ rfl rfl rfl rfl) (by decide)

end Compat

end RdEngine
