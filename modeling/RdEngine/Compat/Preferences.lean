/-
RdEngine/Compat/Preferences.lean

The preferences of a session of the session API (`session_compat.rs`) and those of its
viewer: `session_set_image_quality`, `session_set_custom_image_quality` and
`session_set_custom_fps`.

The viewer pushes a preference to the peer before it keeps it.  The three setters store
it in the session first, so a push that fails leaves the session with a preference that
the viewer has not, and one of the three does not even say so (`preferences_agree`).
Where no push fails the two agree through any sequence of calls (`agreeing_run`).
-/
import RdEngine.Compat.Incarnations
import RdEngine.Viewer.Calls

namespace RdEngine

namespace Compat

open Viewer (ViewerImageQuality)

/-! ### Backends -/

/-- What a viewer keeps of its requests. -/
structure ViewerPreferences where
  requestedFps : Nat
  imageQuality : ViewerImageQuality
deriving DecidableEq

/-- RFB has no such requests, and a VNC session keeps none. -/
inductive BackendPreferences where
  | rustDesk (own : ViewerPreferences)
  | vnc
deriving DecidableEq

/-- `Viewer::set_requested_fps`.  `pushed` is whether the peer could be told, where it has to. -/
def ViewerPreferences.setRequestedFps (own : ViewerPreferences) (fps : Nat) (pushed : Bool) :
    ViewerPreferences × Bool :=
  if (1 ≤ fps ∧ fps ≤ 240) ∧ pushed then ({ own with requestedFps := fps }, true) else (own, false)

/-- `Viewer::set_image_quality`. -/
def ViewerPreferences.setImageQuality (own : ViewerPreferences) (quality : ViewerImageQuality)
    (pushed : Bool) : ViewerPreferences × Bool :=
  if Viewer.validQuality quality ∧ pushed then ({ own with imageQuality := quality }, true)
  else (own, false)

namespace BackendPreferences

/-- `SessionBackend::set_requested_fps`, and whether it is `Ok`. -/
def setRequestedFps (fps : Nat) (pushed : Bool) :
    BackendPreferences → BackendPreferences × Bool
  | rustDesk own => (rustDesk (own.setRequestedFps fps pushed).1, (own.setRequestedFps fps pushed).2)
  | vnc => (vnc, 1 ≤ fps ∧ fps ≤ 240)

/-- `SessionBackend::set_image_quality`: RFB has no image quality. -/
def setImageQuality (quality : ViewerImageQuality) (pushed : Bool) :
    BackendPreferences → BackendPreferences × Bool
  | rustDesk own =>
    (rustDesk (own.setImageQuality quality pushed).1, (own.setImageQuality quality pushed).2)
  | vnc => (vnc, false)

end BackendPreferences

/-! ### The programs of the viewer -/

/-- What the accesses of a program do to the viewer's preferences. -/
def preferencesGhost : Threads.Ghost Viewer.Access.Answer ViewerPreferences where
  next own access _ :=
    match access with
    | .setRequestedFps fps => { own with requestedFps := fps }
    | .setImageQuality quality => { own with imageQuality := quality }
    | _ => own
  admits _ _ := True

theorem follows_pushThenStore (own own' : ViewerPreferences) (option : OptionMessage)
    {store : Viewer.Access}
    (hstore : ∀ answer, preferencesGhost.next own store answer = own') :
    Threads.Follows preferencesGhost
      (fun g result => (g, result.isOk) = (own', true) ∨ (g, result.isOk) = (own, false)) own
      (Viewer.pushThenStore option store) := by
  refine Threads.Follows.bind (Q := fun g _ => g = own) ?_ fun g pushed hg => ?_
  · -- the push asks and sends, and stores nothing
    refine ⟨trivial, fun answer => ?_⟩
    cases answer with
    | false => exact rfl
    | true =>
      refine ⟨trivial, fun answer => ?_⟩
      cases answer with
      | false => exact rfl
      | true =>
        refine ⟨trivial, fun answer => ?_⟩
        cases answer with
        | true => exact rfl
        | false =>
          refine ⟨trivial, fun answer => ?_⟩
          cases answer with
          | false => exact rfl
          | true => exact ⟨trivial, fun answer => rfl⟩
  · subst hg
    cases pushed with
    | error error => exact .inr rfl
    | ok =>
      refine ⟨trivial, fun answer => .inl ?_⟩
      rw [hstore]
      rfl

/-- The program of `set_requested_fps`, whatever is answered, is the setter with some outcome of
the push. -/
theorem follows_setRequestedFps (own : ViewerPreferences) (fps : Nat) :
    Threads.Follows preferencesGhost
      (fun own' result => ∃ pushed, (own', result.isOk) = own.setRequestedFps fps pushed) own
      (Viewer.setRequestedFps fps) := by
  unfold Viewer.setRequestedFps ViewerPreferences.setRequestedFps
  split
  · next hfps =>
    refine (follows_pushThenStore own { own with requestedFps := fps } _
      fun _ => rfl).mono fun g result h => ?_
    rcases h with h | h
    · exact ⟨true, by simp [h, hfps]⟩
    · exact ⟨false, by simp [h]⟩
  · next hfps => exact ⟨true, by simp [hfps]; rfl⟩

theorem follows_setImageQuality (own : ViewerPreferences) (quality : ViewerImageQuality) :
    Threads.Follows preferencesGhost
      (fun own' result => ∃ pushed, (own', result.isOk) = own.setImageQuality quality pushed) own
      (Viewer.setImageQuality quality) := by
  unfold Viewer.setImageQuality ViewerPreferences.setImageQuality
  split
  · next hvalid =>
    refine (follows_pushThenStore own { own with imageQuality := quality } _
      fun _ => rfl).mono fun g result h => ?_
    rcases h with h | h
    · exact ⟨true, by simp [h, hvalid]⟩
    · exact ⟨false, by simp [h]⟩
  · next hvalid => exact ⟨true, by simp [hvalid]; rfl⟩

/-! ### The setters -/

/-- The sessions, the `intent_revision` of each, and their backends. -/
structure Client where
  registry : Registry
  intentRevision : String → Nat
  backends : Nat → BackendPreferences

namespace Client

variable (client : Client)

/-- A field of a session is set. -/
def store (id : String) (f : CompatSession → CompatSession) : Client :=
  { client with registry := client.registry.modify id f }

/-- A setter of a backend is called. -/
def push (backend : Nat) (set : BackendPreferences → BackendPreferences × Bool) : Client × Bool :=
  ({ client with
      backends := Function.update client.backends backend (set (client.backends backend)).1 },
    (set (client.backends backend)).2)

end Client

/-- The qualities the engine takes as a custom one. -/
def InCustomRange (value : Int) : Prop := 10 ≤ value ∧ value ≤ 2000

instance (value : Int) : Decidable (InCustomRange value) := inferInstanceAs (Decidable (_ ∧ _))

/-- `trim` and `eq_ignore_ascii_case("custom")`. -/
def namesCustom (quality : String) : Bool :=
  toAsciiLowercase (trim quality.toList) = "custom".toList

/-- `session_set_image_quality`: the name is stored first, and then pushed. -/
def sessionSetImageQuality (id quality : String) (pushed : Bool) (client : Client) :
    Client × ActionResult :=
  match client.registry.get id with
  | none => (client, ⟨"session_set_image_quality", false, "Session not found"⟩)
  | some session =>
    if namesCustom quality ∧ ¬ InCustomRange session.customImageQuality then
      (client, ⟨"session_set_image_quality", false,
        "A custom quality value between 10 and 2000 is required"⟩)
    else
      let stored := { session with imageQuality := normalizeQualityName quality }
      let client := client.store id fun session =>
        { session with imageQuality := normalizeQualityName quality }
      match session.viewer with
      | some viewer =>
        match client.push viewer
            (BackendPreferences.setImageQuality (engineQuality stored) pushed) with
        | (client, true) =>
          (client, ⟨"session_set_image_quality", true, "Requested remote image quality change"⟩)
        | (client, false) =>
          (client, ⟨"session_set_image_quality", false,
            "Image quality could not be sent to the peer"⟩)
      | none =>
        (client, ⟨"session_set_image_quality", true,
          "Stored quality preference for this session"⟩)

/-- `session_set_custom_image_quality`; a value out of range is refused. -/
def sessionSetCustomImageQuality (id : String) (quality : UInt32) (pushed : Bool)
    (client : Client) : Client × ActionResult :=
  match client.registry.get id with
  | none => (client, ⟨"session_set_custom_image_quality", false, "Session not found"⟩)
  | some session =>
    if InCustomRange quality.toNat then
      let stored := { session with customImageQuality := quality.toNat }
      let client := client.store id fun session =>
        { session with customImageQuality := quality.toNat }
      -- whether the peer could be told is dropped
      let client :=
        if session.imageQuality = "custom" then
          match session.viewer with
          | some viewer =>
            (client.push viewer
              (BackendPreferences.setImageQuality (engineQuality stored) pushed)).1
          | none => client
        else client
      (client, ⟨"session_set_custom_image_quality", true, "Updated custom quality"⟩)
    else
      (client, ⟨"session_set_custom_image_quality", false,
        "Custom quality must be between 10 and 2000"⟩)

/-- `session_set_custom_fps`; a push that fails is not reported. -/
def sessionSetCustomFps (id : String) (fps : UInt32) (pushed : Bool) (client : Client) :
    Client × ActionResult :=
  match client.registry.get id with
  | none => (client, ⟨"session_set_custom_fps", false, "Session not found"⟩)
  | some session =>
    if 1 ≤ fps.toNat ∧ fps.toNat ≤ 240 then
      let client := client.store id fun session => { session with requestedFps := fps.toNat }
      let client := { client with
        intentRevision := Function.update client.intentRevision id
          (min (client.intentRevision id + 1) (2 ^ 64 - 1)) }
      match session.viewer with
      | some viewer =>
        match client.push viewer (BackendPreferences.setRequestedFps fps.toNat pushed) with
        | (client, true) =>
          (client, ⟨"session_set_custom_fps", true, "Requested remote capture rate change"⟩)
        | (client, false) =>
          (client, ⟨"session_set_custom_fps", false, "FPS could not be sent to the peer"⟩)
      | none => (client, ⟨"session_set_custom_fps", true, "Updated requested FPS"⟩)
    else (client, ⟨"session_set_custom_fps", false, "FPS must be within 1..240"⟩)

inductive PreferenceCall where
  | setImageQuality (quality : String)
  | setCustomImageQuality (quality : UInt32)
  | setCustomFps (fps : UInt32)
deriving DecidableEq

/-- The call, on the session with this id. -/
def PreferenceCall.run (call : PreferenceCall) (id : String) (pushed : Bool) :
    Client → Client × ActionResult :=
  match call with
  | .setImageQuality quality => sessionSetImageQuality id quality pushed
  | .setCustomImageQuality quality => sessionSetCustomImageQuality id quality pushed
  | .setCustomFps fps => sessionSetCustomFps id fps pushed

/-! ### Agreement -/

/-- The stored preferences of a session. -/
def CompatSession.preferences (session : CompatSession) : Nat × String × Int :=
  (session.requestedFps, session.imageQuality, session.customImageQuality)

/-- The value of a viewer that a call requests is the stored one. -/
def PreferenceCall.Agrees (call : PreferenceCall) (session : CompatSession)
    (own : ViewerPreferences) : Prop :=
  match call with
  | .setImageQuality _ | .setCustomImageQuality _ => own.imageQuality = engineQuality session
  | .setCustomFps _ => own.requestedFps = session.requestedFps

/-- A call that fails leaves the stored preferences, and behind one that succeeds on a session
with a viewer the viewer's own value is the stored one. -/
structure Consistent (call : PreferenceCall) (id : String) (pushed : Bool) (client : Client) :
    Prop where
  failed : (call.run id pushed client).2.ok = false →
    ((call.run id pushed client).1.registry.get id).map CompatSession.preferences =
      (client.registry.get id).map CompatSession.preferences
  succeeded : (call.run id pushed client).2.ok = true →
    ∀ session, (call.run id pushed client).1.registry.get id = some session →
      ∀ viewer own, session.viewer = some viewer →
        (call.run id pushed client).1.backends viewer = .rustDesk own → call.Agrees session own

/-! ### What a call does -/

/-- The calls that pass their own checks. -/
def PreferenceCall.Passes (session : CompatSession) : PreferenceCall → Prop
  | .setImageQuality quality =>
    namesCustom quality = true → InCustomRange session.customImageQuality
  | .setCustomImageQuality quality => InCustomRange quality.toNat
  | .setCustomFps fps => 1 ≤ fps.toNat ∧ fps.toNat ≤ 240

/-- What a call stores in its session. -/
def PreferenceCall.edit : PreferenceCall → CompatSession → CompatSession
  | .setImageQuality quality, session =>
    { session with imageQuality := normalizeQualityName quality }
  | .setCustomImageQuality quality, session => { session with customImageQuality := quality.toNat }
  | .setCustomFps fps, session => { session with requestedFps := fps.toNat }

@[simp] theorem PreferenceCall.edit_id (call : PreferenceCall) (session : CompatSession) :
    (call.edit session).id = session.id := by
  cases call <;> simp only [edit]

@[simp] theorem PreferenceCall.edit_viewer (call : PreferenceCall) (session : CompatSession) :
    (call.edit session).viewer = session.viewer := by
  cases call <;> simp only [edit]

/-- What a call asks of the viewer of the session as it is stored, and what it says of it. -/
def PreferenceCall.request (call : PreferenceCall) (stored : CompatSession) (pushed : Bool)
    (backend : BackendPreferences) : BackendPreferences × Bool :=
  match call with
  | .setImageQuality _ => backend.setImageQuality (engineQuality stored) pushed
  | .setCustomImageQuality _ =>
    (if stored.imageQuality = "custom" then
      (backend.setImageQuality (engineQuality stored) pushed).1 else backend, true)
  | .setCustomFps fps => backend.setRequestedFps fps.toNat pushed

section

variable {call : PreferenceCall} {id : String} {pushed : Bool} {client : Client}
  {session : CompatSession} {viewer : Nat}

/-- A call without a session, or one that does not pass its checks, stops. -/
theorem run_stops (pushed : Bool)
    (h : ∀ session, client.registry.get id = some session → ¬ call.Passes session) :
    (call.run id pushed client).1 = client ∧ (call.run id pushed client).2.ok = false := by
  cases hget : client.registry.get id with
  | none =>
    cases call with
    | setImageQuality quality => simp [PreferenceCall.run, sessionSetImageQuality, hget]
    | setCustomImageQuality quality =>
      simp [PreferenceCall.run, sessionSetCustomImageQuality, hget]
    | setCustomFps fps => simp [PreferenceCall.run, sessionSetCustomFps, hget]
  | some session =>
    have hpasses := h session hget
    cases call with
    | setImageQuality quality =>
      have hrefused : namesCustom quality = true ∧ ¬ InCustomRange session.customImageQuality := by
        simpa [PreferenceCall.Passes] using hpasses
      simp [PreferenceCall.run, sessionSetImageQuality, hget, hrefused]
    | setCustomImageQuality quality =>
      have hrange : ¬ InCustomRange quality.toNat := hpasses
      simp [PreferenceCall.run, sessionSetCustomImageQuality, hget, hrange]
    | setCustomFps fps =>
      have hrange : ¬ (1 ≤ fps.toNat ∧ fps.toNat ≤ 240) := hpasses
      simp only [PreferenceCall.run, sessionSetCustomFps, hget]
      rw [if_neg hrange]
      exact ⟨rfl, rfl⟩

/-- A call that passes stores its value, and a session without a viewer is told so. -/
theorem run_stores (pushed : Bool) (hget : client.registry.get id = some session)
    (hpasses : call.Passes session) (hviewer : session.viewer = none) :
    (call.run id pushed client).1.registry.get id = some (call.edit session) ∧
      (call.run id pushed client).2.ok = true := by
  have hstored : (client.registry.modify id call.edit).get id = some (call.edit session) :=
    get_modify hget call.edit_id
  cases call with
  | setImageQuality quality =>
    have hgoes : ¬ (namesCustom quality = true ∧ ¬ InCustomRange session.customImageQuality) :=
      fun h => h.2 (hpasses h.1)
    simp only [PreferenceCall.run, sessionSetImageQuality, hget]
    rw [if_neg hgoes]
    split
    · next viewer hsome => exact absurd (hviewer.symm.trans hsome) nofun
    · exact ⟨hstored, rfl⟩
  | setCustomImageQuality quality =>
    have hrange : InCustomRange quality.toNat := hpasses
    simp only [PreferenceCall.run, sessionSetCustomImageQuality, hget]
    rw [if_pos hrange]
    split
    · split
      · next viewer hsome => exact absurd (hviewer.symm.trans hsome) nofun
      · exact ⟨hstored, rfl⟩
    · exact ⟨hstored, rfl⟩
  | setCustomFps fps =>
    have hrange : 1 ≤ fps.toNat ∧ fps.toNat ≤ 240 := hpasses
    simp only [PreferenceCall.run, sessionSetCustomFps, hget]
    rw [if_pos hrange]
    split
    · next viewer hsome => exact absurd (hviewer.symm.trans hsome) nofun
    · exact ⟨hstored, rfl⟩

theorem push_result {client₀ : Client} {set : BackendPreferences → BackendPreferences × Bool}
    {result : Client × ActionResult} {action message message' : String}
    (hresult : result = match client₀.push viewer set with
      | (client, true) => (client, ⟨action, true, message⟩)
      | (client, false) => (client, ⟨action, false, message'⟩)) :
    result.1.registry = client₀.registry ∧
      result.1.backends viewer = (set (client₀.backends viewer)).1 ∧
      result.2.ok = (set (client₀.backends viewer)).2 := by
  have hbackend : (client₀.push viewer set).1.backends viewer = (set (client₀.backends viewer)).1 :=
    Function.update_self ..
  have hpush : client₀.push viewer set =
      ((client₀.push viewer set).1, (set (client₀.backends viewer)).2) := rfl
  rw [hpush] at hresult
  rw [hresult]
  cases (set (client₀.backends viewer)).2 with
  | true => exact ⟨rfl, hbackend, rfl⟩
  | false => exact ⟨rfl, hbackend, rfl⟩

/-- With a viewer it stores its value, asks the viewer, and says what the request says. -/
theorem run_requests (pushed : Bool) (hget : client.registry.get id = some session)
    (hpasses : call.Passes session) (hviewer : session.viewer = some viewer) :
    (call.run id pushed client).1.registry.get id = some (call.edit session) ∧
      (call.run id pushed client).1.backends viewer =
        (call.request (call.edit session) pushed (client.backends viewer)).1 ∧
      (call.run id pushed client).2.ok =
        (call.request (call.edit session) pushed (client.backends viewer)).2 := by
  have hstored : (client.registry.modify id call.edit).get id = some (call.edit session) :=
    get_modify hget call.edit_id
  cases call with
  | setImageQuality quality =>
    have hgoes : ¬ (namesCustom quality = true ∧ ¬ InCustomRange session.customImageQuality) :=
      fun h => h.2 (hpasses h.1)
    simp only [PreferenceCall.run, sessionSetImageQuality, hget]
    rw [if_neg hgoes]
    split
    · next viewer' hsome =>
      cases hviewer.symm.trans hsome
      obtain ⟨hregistry, hrest⟩ := push_result rfl
      exact ⟨(congrArg (Registry.get · id) hregistry).trans hstored, hrest⟩
    · next hnone => exact absurd (hviewer.symm.trans hnone) nofun
  | setCustomImageQuality quality =>
    have hrange : InCustomRange quality.toNat := hpasses
    simp only [PreferenceCall.run, sessionSetCustomImageQuality, hget]
    rw [if_pos hrange]
    -- pushed only while the label says custom
    by_cases hlabel : session.imageQuality = "custom"
    · rw [if_pos hlabel]
      split
      · next viewer' hsome =>
        cases hviewer.symm.trans hsome
        exact ⟨hstored, (Function.update_self ..).trans (if_pos hlabel).symm, rfl⟩
      · next hnone => exact absurd (hviewer.symm.trans hnone) nofun
    · rw [if_neg hlabel]
      refine ⟨hstored, ?_, rfl⟩
      exact (if_neg hlabel).symm
  | setCustomFps fps =>
    have hrange : 1 ≤ fps.toNat ∧ fps.toNat ≤ 240 := hpasses
    simp only [PreferenceCall.run, sessionSetCustomFps, hget]
    rw [if_pos hrange]
    split
    · next viewer' hsome =>
      cases hviewer.symm.trans hsome
      obtain ⟨hregistry, hrest⟩ := push_result rfl
      exact ⟨(congrArg (Registry.get · id) hregistry).trans hstored, hrest⟩
    · next hnone => exact absurd (hviewer.symm.trans hnone) nofun

end

/-! ### One call -/

/-- A call that passes its checks leaves the session and its viewer in step. -/
def PreferenceCall.InStep (session : CompatSession) (pushed : Bool) :
    PreferenceCall → BackendPreferences → Prop
  -- the peer is told, or there is nothing new to tell it
  | .setImageQuality quality, .rustDesk _ =>
    pushed = true ∨ normalizeQualityName quality = session.imageQuality
  | .setImageQuality quality, .vnc => normalizeQualityName quality = session.imageQuality
  -- a preset is not pushed: it has to be the viewer's already
  | .setCustomImageQuality quality, .rustDesk own =>
    if session.imageQuality = "custom" then
      pushed = true ∨ own.imageQuality = .custom quality.toNat
    else own.imageQuality = engineQuality session
  | .setCustomFps fps, .rustDesk _ => pushed = true ∨ session.requestedFps = fps.toNat
  | .setCustomImageQuality _, .vnc | .setCustomFps _, .vnc => True

/-- The states and outcomes in which a call is consistent. -/
def ConsistentWhen (call : PreferenceCall) (id : String) (pushed : Bool) (client : Client) : Prop :=
  ∀ session, client.registry.get id = some session → call.Passes session →
    ∀ viewer, session.viewer = some viewer →
      call.InStep session pushed (client.backends viewer)

section

variable {call : PreferenceCall} {id : String} {pushed : Bool} {client : Client}
  {session : CompatSession} {viewer : Nat}

theorem consistent_of_stops
    (h : ∀ session, client.registry.get id = some session → ¬ call.Passes session) :
    Consistent call id pushed client := by
  obtain ⟨hclient, hok⟩ := run_stops pushed h
  constructor
  · intro _
    rw [hclient]
  · intro htrue
    rw [hok] at htrue
    cases htrue

theorem consistent_of_no_viewer (hget : client.registry.get id = some session)
    (hpasses : call.Passes session) (hviewer : session.viewer = none) :
    Consistent call id pushed client := by
  obtain ⟨hstored, hok⟩ := run_stores pushed hget hpasses hviewer
  have hnone : (call.edit session).viewer = none := (call.edit_viewer session).trans hviewer
  constructor
  · intro hfalse
    rw [hok] at hfalse
    cases hfalse
  · intro _ stored hget' viewer own hsome
    rw [hstored] at hget'
    cases hget'
    exact absurd (hnone.symm.trans hsome) nofun

/-- With a viewer it depends on what the request says. -/
theorem consistent_iff_of_viewer (hget : client.registry.get id = some session)
    (hpasses : call.Passes session) (hviewer : session.viewer = some viewer) :
    Consistent call id pushed client ↔
      if (call.request (call.edit session) pushed (client.backends viewer)).2 then
        ∀ own, (call.request (call.edit session) pushed (client.backends viewer)).1 =
          .rustDesk own → call.Agrees (call.edit session) own
      else (call.edit session).preferences = session.preferences := by
  obtain ⟨hstored, hbackend, hok⟩ := run_requests pushed hget hpasses hviewer
  have hviewer' : (call.edit session).viewer = some viewer :=
    (call.edit_viewer session).trans hviewer
  split
  -- accepted: the viewer and the registry must agree
  · next htrue =>
    constructor
    · intro h own hown
      exact h.succeeded (hok.trans htrue) _ hstored viewer own hviewer' (hbackend.trans hown)
    · intro h
      constructor
      · intro hfalse
        rw [hok, htrue] at hfalse
        cases hfalse
      · intro _ stored hget' other own hother hown
        rw [hstored] at hget'
        cases hget'
        cases hviewer'.symm.trans hother
        exact h own (hbackend.symm.trans hown)
  -- refused: the registry must show what it showed
  · next hfalse =>
    have hfalse' := Bool.eq_false_iff.mpr hfalse
    constructor
    · intro h
      have hfailed := h.failed (hok.trans hfalse')
      rw [hstored, hget] at hfailed
      exact Option.some.inj hfailed
    · intro h
      constructor
      · intro _
        rw [hstored, hget, Option.map_some, Option.map_some, h]
      · intro htrue
        rw [hok, hfalse'] at htrue
        cases htrue

theorem engineQuality_valid (session : CompatSession) :
    Viewer.validQuality (engineQuality session) = true := by
  unfold engineQuality
  split
  · rfl
  · rfl
  · split
    · next h => exact decide_eq_true h
    · rfl
  · rfl

theorem engineQuality_preset (h : session.imageQuality ≠ "custom") (value : Int) :
    engineQuality { session with customImageQuality := value } = engineQuality session := by
  unfold engineQuality
  dsimp only
  split
  · rfl
  · rfl
  · next heq => exact absurd heq h
  · rfl

theorem engineQuality_custom (h : session.imageQuality = "custom")
    (hrange : InCustomRange session.customImageQuality) :
    engineQuality session = .custom session.customImageQuality := by
  unfold engineQuality
  rw [h]
  exact if_pos hrange

theorem setImageQuality_rustDesk (own : ViewerPreferences) {quality : ViewerImageQuality}
    (hvalid : Viewer.validQuality quality = true) (pushed : Bool) :
    BackendPreferences.setImageQuality quality pushed (.rustDesk own) =
      if pushed then (.rustDesk { own with imageQuality := quality }, true)
      else (.rustDesk own, false) := by
  cases pushed with
  | false => simp [BackendPreferences.setImageQuality, ViewerPreferences.setImageQuality]
  | true => simp [BackendPreferences.setImageQuality, ViewerPreferences.setImageQuality, hvalid]

theorem setRequestedFps_rustDesk (own : ViewerPreferences) {fps : Nat} (hfps : 1 ≤ fps ∧ fps ≤ 240)
    (pushed : Bool) :
    BackendPreferences.setRequestedFps fps pushed (.rustDesk own) =
      if pushed then (.rustDesk { own with requestedFps := fps }, true)
      else (.rustDesk own, false) := by
  cases pushed with
  | false => simp [BackendPreferences.setRequestedFps, ViewerPreferences.setRequestedFps]
  | true => simp [BackendPreferences.setRequestedFps, ViewerPreferences.setRequestedFps, hfps]

/-- What the request says is right exactly when the call leaves the two in step. -/
theorem request_iff_inStep (hpasses : call.Passes session) (backend : BackendPreferences) :
    (if (call.request (call.edit session) pushed backend).2 then
      ∀ own, (call.request (call.edit session) pushed backend).1 = .rustDesk own →
        call.Agrees (call.edit session) own
      else (call.edit session).preferences = session.preferences) ↔
        call.InStep session pushed backend := by
  cases call with
  | setImageQuality quality =>
    -- a push that fails is reported, so the quality must have been the same
    have hsame : ((PreferenceCall.setImageQuality quality).edit session).preferences =
        session.preferences ↔ normalizeQualityName quality = session.imageQuality := by
      simp [CompatSession.preferences, PreferenceCall.edit]
    cases backend with
    | vnc => exact hsame
    | rustDesk own =>
      show (if (BackendPreferences.setImageQuality _ pushed (.rustDesk own)).2 then
        ∀ own', (BackendPreferences.setImageQuality _ pushed (.rustDesk own)).1 = _ → _ else _) ↔ _
      rw [setImageQuality_rustDesk own (engineQuality_valid _)]
      cases pushed with
      | false => exact hsame.trans (by simp [PreferenceCall.InStep])
      | true =>
        refine iff_of_true (fun own' h => ?_) (.inl rfl)
        cases h
        dsimp only [PreferenceCall.Agrees]
  | setCustomImageQuality quality =>
    -- whether it is pushed depends on the label, which this call does not touch
    have hrange : InCustomRange quality.toNat := hpasses
    cases backend with
    | vnc =>
      refine iff_of_true (fun own h => ?_) trivial
      change (if session.imageQuality = "custom" then BackendPreferences.vnc else .vnc) = _ at h
      rw [ite_self] at h
      cases h
    | rustDesk own =>
      by_cases hlabel : session.imageQuality = "custom"
      · -- the push is made, and how it went is not said
        have hengine : engineQuality ((PreferenceCall.setCustomImageQuality quality).edit session) =
            .custom quality.toNat :=
          engineQuality_custom (show ((PreferenceCall.setCustomImageQuality quality).edit
            session).imageQuality = "custom" from hlabel) hrange
        have hvalid := engineQuality_valid
          ((PreferenceCall.setCustomImageQuality quality).edit session)
        show (∀ own', (if session.imageQuality = "custom" then
          (BackendPreferences.setImageQuality _ pushed (.rustDesk own)).1 else _) = _ → _) ↔
            if session.imageQuality = "custom" then _ else _
        rw [if_pos hlabel, if_pos hlabel, setImageQuality_rustDesk own hvalid]
        cases pushed with
        | false =>
          constructor
          · intro h
            exact .inr ((h own rfl).trans hengine)
          · rintro (h | h) own' hown
            · cases h
            · cases hown
              exact h.trans hengine.symm
        | true =>
          refine iff_of_true (fun own' h => ?_) (.inl rfl)
          cases h
          dsimp only [PreferenceCall.Agrees]
      · have hengine : engineQuality ((PreferenceCall.setCustomImageQuality quality).edit session) =
            engineQuality session := engineQuality_preset hlabel _
        show (∀ own', (if session.imageQuality = "custom" then _ else
          BackendPreferences.rustDesk own) = _ → _) ↔ if session.imageQuality = "custom" then _ else _
        rw [if_neg hlabel, if_neg hlabel]
        constructor
        · intro h
          exact (h own rfl).trans hengine
        · intro h own' hown
          cases hown
          exact h.trans hengine.symm
  | setCustomFps fps =>
    -- as with the quality
    have hrange : 1 ≤ fps.toNat ∧ fps.toNat ≤ 240 := hpasses
    have hsame : ((PreferenceCall.setCustomFps fps).edit session).preferences =
        session.preferences ↔ session.requestedFps = fps.toNat := by
      simp [CompatSession.preferences, PreferenceCall.edit, eq_comm]
    cases backend with
    | vnc =>
      have hok : ((PreferenceCall.setCustomFps fps).request
          ((PreferenceCall.setCustomFps fps).edit session) pushed .vnc).2 = true :=
        decide_eq_true hrange
      rw [if_pos hok]
      exact iff_of_true (fun own h => nomatch h) trivial
    | rustDesk own =>
      show (if (BackendPreferences.setRequestedFps _ pushed (.rustDesk own)).2 then
        ∀ own', (BackendPreferences.setRequestedFps _ pushed (.rustDesk own)).1 = _ → _ else _) ↔ _
      rw [setRequestedFps_rustDesk own hrange]
      cases pushed with
      | false => exact hsame.trans (by simp [PreferenceCall.InStep])
      | true =>
        refine iff_of_true (fun own' h => ?_) (.inl rfl)
        cases h
        rfl

end

/-- **A setter keeps the session and its viewer in agreement exactly when they are in step.** -/
theorem preferences_agree (call : PreferenceCall) (id : String) (pushed : Bool) (client : Client) :
    Consistent call id pushed client ↔ ConsistentWhen call id pushed client := by
  by_cases hstops : ∀ session, client.registry.get id = some session → ¬ call.Passes session
  · refine iff_of_true (consistent_of_stops hstops) fun session hget hpasses => ?_
    exact absurd hpasses (hstops session hget)
  · push Not at hstops
    obtain ⟨session, hget, hpasses⟩ := hstops
    cases hviewer : session.viewer with
    | none =>
      refine iff_of_true (consistent_of_no_viewer hget hpasses hviewer) ?_
      intro session' hget' _ viewer hsome
      cases hget.symm.trans hget'
      exact absurd (hviewer.symm.trans hsome) nofun
    | some viewer =>
      rw [consistent_iff_of_viewer hget hpasses hviewer, request_iff_inStep hpasses]
      constructor
      · intro h session' hget' _ viewer' hviewer'
        cases hget.symm.trans hget'
        cases hviewer.symm.trans hviewer'
        exact h
      · intro h
        exact h session hget hpasses viewer hviewer

/-! ### Any order of calls -/

/-- The session and its viewer agree on both values. -/
def Agreeing (id : String) (client : Client) : Prop :=
  ∀ session, client.registry.get id = some session →
    ∀ viewer own, session.viewer = some viewer → client.backends viewer = .rustDesk own →
      own.requestedFps = session.requestedFps ∧ own.imageQuality = engineQuality session

section

variable {call : PreferenceCall} {id : String} {client : Client} {session : CompatSession}

/-- A request that can be sent keeps them in agreement. -/
theorem request_agrees {own own' : ViewerPreferences} (hpasses : call.Passes session)
    (hfps : own.requestedFps = session.requestedFps)
    (hquality : own.imageQuality = engineQuality session)
    (hown : (call.request (call.edit session) true (.rustDesk own)).1 = .rustDesk own') :
    own'.requestedFps = (call.edit session).requestedFps ∧
      own'.imageQuality = engineQuality (call.edit session) := by
  have hvalid := engineQuality_valid (call.edit session)
  cases call with
  | setImageQuality quality =>
    change (BackendPreferences.setImageQuality _ true (.rustDesk own)).1 = _ at hown
    rw [setImageQuality_rustDesk own hvalid, if_pos rfl] at hown
    cases hown
    constructor
    · simpa only [PreferenceCall.edit] using hfps
    · dsimp only
  | setCustomImageQuality quality =>
    change (if session.imageQuality = "custom" then
      (BackendPreferences.setImageQuality _ true (.rustDesk own)).1 else _) = _ at hown
    split at hown
    · rw [setImageQuality_rustDesk own hvalid, if_pos rfl] at hown
      cases hown
      constructor
      · simpa only [PreferenceCall.edit] using hfps
      · dsimp only
    · next hlabel =>
      cases hown
      constructor
      · simpa only [PreferenceCall.edit] using hfps
      · exact hquality.trans (engineQuality_preset hlabel _).symm
  | setCustomFps fps =>
    change (BackendPreferences.setRequestedFps _ true (.rustDesk own)).1 = _ at hown
    rw [setRequestedFps_rustDesk own hpasses] at hown
    cases hown
    exact ⟨rfl, hquality⟩

theorem request_vnc (stored : CompatSession) (pushed : Bool) :
    (call.request stored pushed .vnc).1 = .vnc := by
  cases call with
  | setImageQuality quality => rfl
  | setCustomImageQuality quality => exact ite_self _
  | setCustomFps fps => rfl

/-- A call whose request can be sent keeps them in agreement. -/
theorem agreeing_step (call : PreferenceCall) (h : Agreeing id client) :
    Agreeing id (call.run id true client).1 := by
  by_cases hstops : ∀ session, client.registry.get id = some session → ¬ call.Passes session
  · rw [(run_stops true hstops).1]
    exact h
  · push Not at hstops
    obtain ⟨session, hget, hpasses⟩ := hstops
    intro stored hget' viewer own hsome hown
    cases hviewer : session.viewer with
    | none =>
      cases (run_stores true hget hpasses hviewer).1.symm.trans hget'
      rw [call.edit_viewer, hviewer] at hsome
      cases hsome
    | some viewer' =>
      obtain ⟨hstored, hbackend, -⟩ := run_requests true hget hpasses hviewer
      cases hstored.symm.trans hget'
      rw [call.edit_viewer, hviewer] at hsome
      cases hsome
      cases hb : client.backends viewer with
      | vnc =>
        rw [hb, request_vnc, hown] at hbackend
        cases hbackend
      | rustDesk own' =>
        rw [hb, hown] at hbackend
        obtain ⟨hfps, hquality⟩ := h session hget viewer own' hviewer hb
        exact request_agrees hpasses hfps hquality hbackend.symm

/-- **Where every request can be sent the session and its viewer agree, whatever is called in
which order.** -/
theorem agreeing_run (calls : List PreferenceCall) (h : Agreeing id client) :
    Agreeing id (calls.foldl (fun client call => (call.run id true client).1) client) := by
  induction calls generalizing client with
  | nil => exact h
  | cons call calls ih => exact ih (agreeing_step call h)

end

/-- A started session, in agreement with its viewer. -/
def startedClient : Client where
  registry := [{
    id := "a", target := "b", route := .rendezvous "b", password := "", forceRelay := false
    viewOnly := false, requestedFps := 60, imageQuality := "custom", customImageQuality := 50
    clipboardEnabled := false, phase := "starting", protocol := .rustDesk, viewer := some 0
    generation := 1 }]
  intentRevision _ := 1
  backends _ := .rustDesk { requestedFps := 60, imageQuality := .custom 50 }

/-- A rate that could not be sent is stored, and a custom quality that could not be sent is
reported as updated. -/
theorem preferences_disagree :
    Agreeing "a" startedClient ∧ ¬ Consistent (.setCustomFps 30) "a" false startedClient ∧
      ¬ Consistent (.setCustomImageQuality 80) "a" false startedClient := by
  refine ⟨?_, fun h => ?_, fun h => ?_⟩
  · rintro session ⟨⟩ viewer own ⟨⟩ ⟨⟩
    exact ⟨rfl, rfl⟩
  · exact absurd (h.failed rfl) (by decide)
  · have hcustom : ViewerImageQuality.custom 50 = .custom 80 := h.succeeded rfl _ rfl 0 _ rfl rfl
    cases hcustom

end Compat

end RdEngine
