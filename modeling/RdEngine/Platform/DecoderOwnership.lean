/-
RdEngine/Platform/DecoderOwnership.lean

Who owns the native decoder.

The worker thread creates it, and destroys it before it returns: or its
destruction fails, or the thread panics, and then the allocation is kept.  What
the shared state says of this (`quarantined`, `closed`) and what the thread
returns is tied to where the native decoder is, at every place of the worker
(`Placed`, `owned_step`).
-/
import RdEngine.Platform.OhosDecoder

namespace RdEngine

namespace OhosDecoder

open Lts

/-- The error says nothing of a native decoder that is left. -/
def DecoderError.Plain : DecoderError → Prop
  | .destroyFailed _ | .workerPanicked => False
  | _ => True

/-- Nothing is left to destroy. -/
def Codec.Confirmed (codec : Codec) : Prop := codec = .absent ∨ codec = .destroyed

/-- The callbacks report errors of the SDK. -/
def Label.FromCallback (l : Label) : Prop :=
  ∀ error, l = .fail error → ∃ code, error = .native "onError" code

def Label.isFail : Label → Bool
  | .fail _ => true
  | _ => false

theorem Label.fromCallback_of_not_fail {l : Label} (h : l.isFail = false) : l.FromCallback := by
  rintro error rfl
  cases h

/-- A decoder, with its limits; `started` once `open` has returned it. -/
structure Instance where
  config : DecoderConfig
  decoder : Decoder
  started : Bool

def Label.isStart : Label → Bool
  | .starts => true
  | _ => false

/-- A step of the decoder, or of the instance around it. -/
inductive Instance.Step : Instance → Label → Instance → Prop
  | step {i : Instance} {l : Label} {d : Decoder} (hstep : OhosDecoder.Step i.config i.decoder l d)
      (hcallback : l.FromCallback) :
      Instance.Step i l { i with decoder := d, started := l.isStart || i.started }

/-- After `shutdown`: a result that says whether the decoder is kept. -/
def Torn {α : Type} (started : Bool) (codec : Codec) (quarantined : Bool)
    (result : Except DecoderError α) : Prop :=
  (codec = .retained ∧ quarantined = true ∧ ∃ code, result = .error (.destroyFailed code))
    ∨ codec.Confirmed ∧ quarantined = false
      ∧ (started = false → ∃ error, result = .error error ∧ error.Plain)

/-- Where the native decoder is, for every place of the worker. -/
def Placed (started : Bool) (codec : Codec) (quarantined closed : Bool) : Worker → Prop
  | .starting => codec = .absent ∧ started = false ∧ quarantined = false ∧ closed = false
  | .configuring => codec = .live ∧ started = false ∧ quarantined = false ∧ closed = false
  | .looping | .handling _ | .rendering _ _ | .pushing _ _ | .pushed _ _ | .failing _ =>
    codec = .live ∧ started = true ∧ quarantined = false ∧ closed = false
  | .stopping setup | .destroying setup =>
    (codec = .absent ∨ codec = .live) ∧ started = setup.isNone
      ∧ (∀ error, setup = some error → error.Plain) ∧ quarantined = false ∧ closed = false
  | .tornDown teardown _ => Torn started codec quarantined teardown ∧ closed = false
  | .leaving teardown => Torn started codec quarantined teardown ∧ closed = true
  | .ended result => Torn started codec quarantined result ∧ closed = true
  | .panicked => codec ≠ .live ∧ (codec = .retained → quarantined = true)

/-- The native decoder is not started yet. -/
def Worker.isSettingUp : Worker → Bool
  | .starting | .configuring => true
  | _ => false

/-- What holds of a decoder in every state. -/
structure Owned (i : Instance) : Prop where
  placed : Placed i.started i.decoder.codec i.decoder.shared.stats.quarantined
    i.decoder.shared.stats.closed i.decoder.worker
  /-- No failure of the setup is one of the teardown. -/
  failure : i.decoder.worker.isSettingUp = true →
    ∀ error, i.decoder.shared.stats.failure = some error → error.Plain

/-! ### Errors of the setup -/

/-- No failure of `x` is one of the teardown. -/
def FailsPlain {α : Type} (x : Except DecoderError α) : Prop :=
  ∀ error, x = .error error → error.Plain

theorem check_plain {api : String} {code : Int} : FailsPlain (check api code) := by
  intro error h
  unfold check at h
  split at h
  · cases h
  · cases h
    trivial

theorem bind_plain {α β : Type} {first : Except DecoderError α}
    {rest : α → Except DecoderError β} (hfirst : FailsPlain first)
    (hrest : ∀ a, FailsPlain (rest a)) : FailsPlain (first >>= rest) := by
  intro error h
  cases first with
  | error e =>
    cases h
    exact hfirst _ rfl
  | ok a => exact hrest a _ h

theorem throw_plain {α : Type} {e : DecoderError} (he : e.Plain) :
    FailsPlain (throw e : Except DecoderError α) := by
  intro error h
  cases h
  exact he

theorem guard_plain {α : Type} {condition : Prop} [Decidable condition] {e : DecoderError}
    {rest : PUnit → Except DecoderError α} (he : e.Plain) (hrest : FailsPlain (rest ⟨⟩)) :
    FailsPlain (if condition then throw e >>= rest else rest ⟨⟩) := by
  split
  · exact bind_plain (throw_plain he) fun _ => hrest
  · exact hrest

theorem find_plain (sdk : SetupAnswers) : FailsPlain (setup.find sdk) := by
  unfold setup.find
  refine guard_plain trivial ?_
  cases sdk.name with
  | none => exact throw_plain trivial
  | some name =>
    refine guard_plain trivial ?_
    intro error h
    cases h

theorem configure_plain (sdk : SetupAnswers) : FailsPlain (setup.configure sdk) := by
  unfold setup.configure
  -- the checks and guards in the order of the calls
  refine bind_plain check_plain fun _ => guard_plain trivial ?_
  refine bind_plain check_plain fun _ => guard_plain trivial (guard_plain trivial ?_)
  refine bind_plain check_plain fun _ => bind_plain check_plain fun _ => ?_
  exact bind_plain check_plain fun _ => check_plain

/-! ### What the steps leave of the shared state -/

/-- Neither the quarantine nor the end is reported between the two states. -/
structure SameFate (s s' : State) : Prop where
  quarantined : s'.stats.quarantined = s.stats.quarantined
  closed : s'.stats.closed = s.stats.closed

theorem submit_stats (limits : DecoderConfig) (s : State) (unit : AccessUnit) :
    SameFate s (s.submit limits unit).1 ∧
      (s.submit limits unit).1.stats.failure = s.stats.failure := by
  unfold State.submit
  split
  · exact ⟨⟨rfl, rfl⟩, rfl⟩
  · exact ⟨⟨rfl, rfl⟩, rfl⟩

theorem insertIndex_stats {s s' : State} {event : Event} (h : s.insertIndex event = some s') :
    s'.stats = s.stats := by
  unfold State.insertIndex at h
  split at h
  · split at h
    · cases h
    · cases h
      rfl
  · split at h
    · cases h
    · cases h
      rfl
  · cases h
    rfl

/-- A post reports at most that it overflows, or is of a duplicate. -/
theorem post_stats (s : State) (event : Event) :
    SameFate s (s.post event).1 ∧
      ∀ error, (s.post event).1.stats.failure = some error →
        s.stats.failure = some error ∨ error.Plain := by
  unfold State.post
  split
  · exact ⟨⟨rfl, rfl⟩, fun _ h => .inl h⟩
  split
  · refine ⟨⟨rfl, rfl⟩, fun error h => .inr ?_⟩
    cases h
    trivial
  split
  · refine ⟨⟨rfl, rfl⟩, fun error h => .inr ?_⟩
    cases h
    trivial
  · rename_i s' hinsert
    have hstats := insertIndex_stats hinsert
    refine ⟨⟨by simp [hstats], by simp [hstats]⟩, fun error h => .inl ?_⟩
    rwa [← hstats]

theorem fail_failure {s : State} {e error : DecoderError}
    (h : (s.fail e).stats.failure = some error) : s.stats.failure = some error ∨ error = e := by
  unfold State.fail at h
  cases hf : s.stats.failure with
  | none =>
    rw [hf] at h
    cases h
    exact .inr rfl
  | some first =>
    rw [hf] at h
    exact .inl h

theorem next_stats {s s' : State} {action : Action} (h : s.next = some (s', action)) :
    s'.stats = s.stats := by
  unfold State.next at h
  split at h
  · cases h
    rfl
  split at h
  · cases h
    rfl
  split at h
  · cases h
    rfl
  · cases h

theorem submitted_fate {s s' : State} {bytes : Nat} {success : Bool}
    (h : s.submitted bytes success = some s') : SameFate s s' := by
  unfold State.submitted at h
  split at h
  · cases h
    cases success with
    | true => exact ⟨rfl, rfl⟩
    | false => exact ⟨rfl, rfl⟩
  · cases h

theorem output_fate (s : State) (frame eos : Bool) : SameFate s (s.output frame eos) := by
  cases frame with
  | true => exact ⟨rfl, rfl⟩
  | false => exact ⟨rfl, rfl⟩

/-! ### One step -/

theorem start_owned {config : DecoderConfig} {decoder : Decoder}
    (h : Decoder.start config = .ok decoder) : Owned ⟨config, decoder, false⟩ := by
  unfold Decoder.start Shared.new at h
  split at h
  · cases h
  · cases h
    refine ⟨⟨rfl, rfl, rfl, rfl⟩, fun _ error hf => ?_⟩
    cases hf

theorem Owned.outside {i : Instance} (hi : Owned i) {shared : State}
    (hfate : SameFate i.decoder.shared shared)
    (hfailure : ∀ error, shared.stats.failure = some error →
      i.decoder.shared.stats.failure = some error ∨ error.Plain) :
    Owned { i with decoder := { i.decoder with shared } } where
  placed := by
    show Placed _ _ shared.stats.quarantined shared.stats.closed _
    rw [hfate.quarantined, hfate.closed]
    exact hi.placed
  failure hsetup error herror := by
    rcases hfailure error herror with h | h
    · exact hi.failure hsetup error h
    · exact h

/-- Out of the setup only the place counts. -/
theorem Owned.of_placed {i : Instance} (hplaced : Placed i.started i.decoder.codec
    i.decoder.shared.stats.quarantined i.decoder.shared.stats.closed i.decoder.worker)
    (hworker : i.decoder.worker.isSettingUp = false) : Owned i := by
  refine ⟨hplaced, fun hsetup => ?_⟩
  rw [hworker] at hsetup
  cases hsetup

/-- The worker is in its loop. -/
def Worker.isServing : Worker → Bool
  | .looping | .handling _ | .rendering _ _ | .pushing _ _ | .pushed _ _ | .failing _ => true
  | _ => false

theorem placed_serving {worker : Worker} (h : worker.isServing = true) (started : Bool)
    (codec : Codec) (quarantined closed : Bool) :
    Placed started codec quarantined closed worker ↔
      codec = .live ∧ started = true ∧ quarantined = false ∧ closed = false := by
  cases worker <;> first | exact Iff.rfl | cases h

theorem Owned.serving {i : Instance} (hi : Owned i) {shared : State} {worker : Worker}
    (hbefore : i.decoder.worker.isServing = true) (hafter : worker.isServing = true)
    (hfate : SameFate i.decoder.shared shared) :
    Owned { i with decoder := { i.decoder with shared, worker } } := by
  refine Owned.of_placed ?_ ?_
  · show Placed _ _ shared.stats.quarantined shared.stats.closed worker
    rw [hfate.quarantined, hfate.closed]
    exact (placed_serving hafter _ _ _ _).mpr ((placed_serving hbefore _ _ _ _).mp hi.placed)
  · show worker.isSettingUp = false
    cases worker <;> first | rfl | cases hafter

/-- A failed setup is torn down. -/
theorem Owned.setupFails {i : Instance} (hi : Owned i) {error : DecoderError}
    (hworker : i.decoder.worker.isSettingUp = true) (hplain : error.Plain) :
    Owned { i with
      decoder := { i.decoder with
        shared := i.decoder.shared.fail error, worker := .stopping (some error) } } := by
  obtain ⟨hplaced, -⟩ := hi
  refine Owned.of_placed ?_ rfl
  have hsetup : ∀ e, some error = some e → e.Plain := by
    intro e h
    cases h
    exact hplain
  cases hw : i.decoder.worker with
  | starting =>
    rw [hw] at hplaced
    obtain ⟨hcodec, hstarted, hquarantined, hclosed⟩ := hplaced
    exact ⟨.inl hcodec, hstarted, hsetup, hquarantined, hclosed⟩
  | configuring =>
    rw [hw] at hplaced
    obtain ⟨hcodec, hstarted, hquarantined, hclosed⟩ := hplaced
    exact ⟨.inr hcodec, hstarted, hsetup, hquarantined, hclosed⟩
  | _ =>
    rw [hw] at hworker
    cases hworker

/-- The result of a teardown that leaves no decoder. -/
theorem torn_confirmed {started : Bool} {codec : Codec} {setup : Option DecoderError}
    {result : Except DecoderError Unit} (hcodec : codec.Confirmed)
    (hstarted : started = setup.isNone) (hsetup : ∀ error, setup = some error → error.Plain)
    (hresult : FailsPlain result) :
    Torn started codec false (Worker.teardown setup result) := by
  refine .inr ⟨hcodec, rfl, fun h => ?_⟩
  cases setup with
  | none =>
    rw [hstarted] at h
    cases h
  | some error =>
    cases result with
    | ok _ => exact ⟨error, rfl, hsetup error rfl⟩
    | error e => exact ⟨e, rfl, hresult e rfl⟩

theorem ok_plain {α : Type} (a : α) : FailsPlain (.ok a : Except DecoderError α) := by
  intro error h
  cases h

theorem ended_torn {started : Bool} {codec : Codec} {quarantined : Bool}
    {teardown : Except DecoderError Unit} {rest : Unit → Except DecoderError DecoderStats}
    (h : Torn started codec quarantined teardown) :
    Torn started codec quarantined (teardown >>= rest) := by
  rcases h with ⟨hcodec, hquarantined, code, rfl⟩ | ⟨hcodec, hquarantined, hstarted⟩
  · exact .inl ⟨hcodec, hquarantined, code, rfl⟩
  · refine .inr ⟨hcodec, hquarantined, fun h => ?_⟩
    obtain ⟨error, rfl, hplain⟩ := hstarted h
    exact ⟨error, rfl, hplain⟩

/-- A worker that unwinds leaves no live decoder behind. -/
theorem Owned.panics {i : Instance} :
    Owned { i with
      decoder :=
        { shared := i.decoder.shared.quarantine
          worker := .panicked
          codec := if i.decoder.codec = .live then .retained else i.decoder.codec } } := by
  refine Owned.of_placed ⟨?_, fun _ => rfl⟩ rfl
  by_cases hlive : i.decoder.codec = .live
  · simp [hlive]
  · simp [hlive]

theorem torn_gone {α : Type} {started : Bool} {codec : Codec} {quarantined : Bool}
    {result : Except DecoderError α} (h : Torn started codec quarantined result) :
    codec ≠ .live ∧ (codec = .retained → quarantined = true) := by
  rcases h with ⟨rfl, hquarantined, -⟩ | ⟨rfl | rfl, -, -⟩
  · exact ⟨Codec.noConfusion, fun _ => hquarantined⟩
  · exact ⟨Codec.noConfusion, Codec.noConfusion⟩
  · exact ⟨Codec.noConfusion, Codec.noConfusion⟩

theorem Owned.panicsLate {i : Instance} (hi : Owned i)
    (hshutdown : i.decoder.worker.isShutDown = true) :
    Owned { i with decoder := { i.decoder with worker := .panicked } } := by
  obtain ⟨hplaced, -⟩ := hi
  refine Owned.of_placed ?_ rfl
  cases hw : i.decoder.worker with
  | tornDown teardown reported =>
    rw [hw] at hplaced
    exact torn_gone hplaced.1
  | leaving teardown =>
    rw [hw] at hplaced
    exact torn_gone hplaced.1
  | _ =>
    rw [hw] at hshutdown
    cases hshutdown

/-- **One step keeps the account of the native decoder.** -/
theorem owned_step {i i' : Instance} {l : Label} (hi : Owned i) (h : Instance.Step i l i') :
    Owned i' := by
  obtain ⟨hstep, hcallback⟩ := h
  have hplaced := hi.placed
  cases hstep with
  | submit =>
    obtain ⟨hfate, hfailure⟩ := submit_stats i.config i.decoder.shared _
    exact hi.outside hfate fun error h => .inl (hfailure ▸ h)
  | post =>
    obtain ⟨hfate, hfailure⟩ := post_stats i.decoder.shared _
    exact hi.outside hfate hfailure
  | fail =>
    refine hi.outside ⟨rfl, rfl⟩ fun error h => ?_
    rcases fail_failure h with h | rfl
    · exact .inl h
    · obtain ⟨code, rfl⟩ := hcallback error rfl
      exact .inr trivial
  | requestClose => exact hi.outside ⟨rfl, rfl⟩ fun _ h => .inl h
  | findFails hworker hfind =>
    exact hi.setupFails (by rw [hworker]; rfl) (find_plain _ _ hfind)
  | createFails hworker hfind => exact hi.setupFails (by rw [hworker]; rfl) trivial
  | creates hworker hfind =>
    -- from here on the codec is owned
    rw [hworker] at hplaced
    exact ⟨⟨rfl, hplaced.2⟩, fun _ => hi.failure (by rw [hworker]; rfl)⟩
  | configureFails hworker hconfigure =>
    exact hi.setupFails (by rw [hworker]; rfl) (configure_plain _ _ hconfigure)
  | failedMeanwhile hworker hconfigure hfailure =>
    have hsetup : i.decoder.worker.isSettingUp = true := by rw [hworker]; rfl
    exact hi.setupFails hsetup (hi.failure hsetup _ hfailure)
  | starts hworker =>
    -- the setup is over, and nothing failed in it
    rw [hworker] at hplaced
    obtain ⟨hcodec, -, hquarantined, hclosed⟩ := hplaced
    exact Owned.of_placed ⟨hcodec, rfl, hquarantined, hclosed⟩ rfl
  | @next shared action hworker hnext =>
    have hstats := next_stats hnext
    have hfate : SameFate i.decoder.shared shared := ⟨by rw [hstats], by rw [hstats]⟩
    have hserving : i.decoder.worker.isServing = true := by rw [hworker]; rfl
    cases action with
    | event event => exact hi.serving hserving rfl hfate
    | submit buffer unit => exact hi.serving hserving rfl hfate
    | stop =>
      -- the teardown begins, with no failure of the setup to report
      obtain ⟨hcodec, hstarted, hquarantined, hclosed⟩ :=
        (placed_serving hserving _ _ _ _).mp hplaced
      have hsetup : ∀ error : DecoderError, none = some error → error.Plain := by
        intro error h
        cases h
      refine Owned.of_placed ⟨.inr hcodec, hstarted, hsetup, ?_, ?_⟩ rfl
      · exact hfate.quarantined.trans hquarantined
      · exact hfate.closed.trans hclosed
  | inputAvailable hworker => exact hi.serving (by rw [hworker]; rfl) rfl ⟨rfl, rfl⟩
  | streamChanged hworker => exact hi.serving (by rw [hworker]; rfl) rfl ⟨rfl, rfl⟩
  | classifyFails hworker => exact hi.serving (by rw [hworker]; rfl) rfl ⟨rfl, rfl⟩
  | returningOutput hworker => exact hi.serving (by rw [hworker]; rfl) rfl ⟨rfl, rfl⟩
  | consumeFails hworker => exact hi.serving (by rw [hworker]; rfl) rfl ⟨rfl, rfl⟩
  | output hworker => exact hi.serving (by rw [hworker]; rfl) rfl (output_fate _ _ _)
  | pushRejected hworker _ hsubmitted =>
    exact hi.serving (by rw [hworker]; rfl) rfl (submitted_fate hsubmitted)
  | returningInput hworker => exact hi.serving (by rw [hworker]; rfl) rfl ⟨rfl, rfl⟩
  | @submitted _ _ code _ hworker hsubmitted =>
    refine hi.serving (by rw [hworker]; rfl) ?_ (submitted_fate hsubmitted)
    cases check "OH_VideoDecoder_PushInputBuffer" code with
    | ok _ => rfl
    | error _ => rfl
  | reportsAction hworker => exact hi.serving (by rw [hworker]; rfl) rfl ⟨rfl, rfl⟩
  | shutdown hworker =>
    rw [hworker] at hplaced
    exact Owned.of_placed hplaced rfl
  | noCodec hworker hcodec =>
    -- nothing was created, so nothing needs destroying
    rw [hworker] at hplaced
    obtain ⟨-, hstarted, hsetup, hquarantined, hclosed⟩ := hplaced
    refine Owned.of_placed ⟨?_, hclosed⟩ rfl
    rw [hquarantined]
    exact torn_confirmed (.inl hcodec) hstarted hsetup (ok_plain ())
  | destroys hworker hcodec =>
    -- the platform confirmed it
    rw [hworker] at hplaced
    obtain ⟨-, hstarted, hsetup, hquarantined, hclosed⟩ := hplaced
    refine Owned.of_placed ⟨?_, hclosed⟩ rfl
    rw [hquarantined]
    exact torn_confirmed (.inr rfl) hstarted hsetup check_plain
  | quarantine hworker hcodec hcode =>
    -- the platform refused: the codec is kept and the close reports it
    rw [hworker] at hplaced
    obtain ⟨-, -, -, -, hclosed⟩ := hplaced
    exact Owned.of_placed ⟨.inl ⟨rfl, rfl, _, rfl⟩, hclosed⟩ rfl
  | reportsTeardown hworker =>
    rw [hworker] at hplaced
    exact Owned.of_placed hplaced rfl
  | closed hworker =>
    rw [hworker] at hplaced
    exact Owned.of_placed ⟨hplaced.1, rfl⟩ rfl
  | returns hworker =>
    rw [hworker] at hplaced
    exact Owned.of_placed ⟨ended_torn hplaced.1, hplaced.2⟩ rfl
  | panics => exact Owned.panics
  | panicsLate hshutdown => exact hi.panicsLate hshutdown

/-! ### Decoders that are settled -/

/-- `shutdown` is over. -/
def Worker.isDone : Worker → Bool
  | .tornDown _ _ | .leaving _ | .ended _ | .panicked => true
  | _ => false

/-- Nothing is left to destroy, and nothing will be. -/
structure Instance.Settled (i : Instance) : Prop where
  done : i.decoder.worker.isDone = true
  confirmed : i.decoder.codec.Confirmed

/-- A worker that is done stays so, and leaves the codec alone. -/
theorem done_step {i i' : Instance} {l : Label} (hdone : i.decoder.worker.isDone = true)
    (h : Instance.Step i l i') :
    i'.decoder.worker.isDone = true ∧ i'.decoder.codec = i.decoder.codec := by
  obtain ⟨hstep, -⟩ := h
  have hat : ∀ w, i.decoder.worker = w → w.isDone = true := fun w hw => hw ▸ hdone
  cases hstep with
  | submit => exact ⟨hdone, rfl⟩
  | post => exact ⟨hdone, rfl⟩
  | fail => exact ⟨hdone, rfl⟩
  | requestClose => exact ⟨hdone, rfl⟩
  | reportsTeardown => exact ⟨rfl, rfl⟩
  | closed => exact ⟨rfl, rfl⟩
  | returns => exact ⟨rfl, rfl⟩
  | panicsLate => exact ⟨rfl, rfl⟩
  | panics howner =>
    cases hw : i.decoder.worker <;> rw [hw] at hdone howner <;> cases hdone <;> cases howner
  | _ => cases hat _ ‹i.decoder.worker = _›

theorem settled_step {i i' : Instance} {l : Label} (hi : i.Settled) (h : Instance.Step i l i') :
    i'.Settled := by
  obtain ⟨hdone, hcodec⟩ := done_step hi.done h
  exact ⟨hdone, hcodec ▸ hi.confirmed⟩

theorem retained_step {i i' : Instance} {l : Label} (hi : Owned i) (h : Instance.Step i l i')
    (hretained : i.decoder.codec = .retained) : i'.decoder.codec = .retained := by
  obtain ⟨hstep, -⟩ := h
  cases hstep with
  | creates hworker =>
    have hplaced := hi.placed
    rw [hworker, hretained] at hplaced
    cases hplaced.1
  | destroys _ hcodec =>
    rw [hretained] at hcodec
    cases hcodec
  | quarantine => rfl
  | panics => simp [hretained]
  | _ => exact hretained

/-! ### What the reports prove -/

theorem confirmed_of_gone {codec : Codec}
    (h : codec ≠ .live ∧ (codec = .retained → false = true)) : codec.Confirmed := by
  obtain ⟨hlive, hretained⟩ := h
  cases codec with
  | absent => exact .inl rfl
  | live => exact absurd rfl hlive
  | destroyed => exact .inr rfl
  | retained => cases hretained rfl

/-- Closed and not in quarantine: the state by which `close` is judged. -/
theorem Owned.settled_of_stats {i : Instance} (hi : Owned i)
    (hclosed : i.decoder.shared.stats.closed = true)
    (hquarantined : i.decoder.shared.stats.quarantined = false) : i.Settled := by
  have hplaced := hi.placed
  rw [hclosed, hquarantined] at hplaced
  cases hw : i.decoder.worker <;> rw [hw] at hplaced
  case leaving teardown => exact ⟨by rw [hw]; rfl, confirmed_of_gone (torn_gone hplaced.1)⟩
  case ended result => exact ⟨by rw [hw]; rfl, confirmed_of_gone (torn_gone hplaced.1)⟩
  case panicked => exact ⟨by rw [hw]; rfl, confirmed_of_gone hplaced⟩
  case stopping => cases hplaced.2.2.2.2
  case destroying => cases hplaced.2.2.2.2
  case tornDown => cases hplaced.2
  all_goals cases hplaced.2.2.2

/-- A joined worker that did not leave this state keeps the decoder. -/
theorem Owned.retained_of_stats {i : Instance} (hi : Owned i)
    {result : Except DecoderError DecoderStats} (hworker : i.decoder.worker = .ended result)
    (hstats : ¬ (i.decoder.shared.stats.closed = true
      ∧ i.decoder.shared.stats.quarantined = false)) : i.decoder.codec = .retained := by
  have hplaced := hi.placed
  rw [hworker] at hplaced
  obtain ⟨⟨hcodec, -⟩ | ⟨-, hquarantined, -⟩, hclosed⟩ := hplaced
  · exact hcodec
  · exact absurd ⟨hclosed, hquarantined⟩ hstats

/-- A worker that ended without an error has destroyed the decoder. -/
theorem Owned.settled_of_ok {i : Instance} (hi : Owned i) {stats : DecoderStats}
    (hworker : i.decoder.worker = .ended (.ok stats)) : i.Settled := by
  have hplaced := hi.placed
  rw [hworker] at hplaced
  obtain ⟨⟨-, -, code, hresult⟩ | ⟨hcodec, -⟩, -⟩ := hplaced
  · cases hresult
  · exact ⟨by rw [hworker]; rfl, hcodec⟩

/-- `open` that failed with a plain error left no decoder; with another one, it did. -/
theorem Owned.settled_of_open {i : Instance} (hi : Owned i) {error : DecoderError}
    (hstarted : i.started = false) (hworker : i.decoder.worker = .ended (.error error)) :
    (error.Plain → i.Settled) ∧ (¬ error.Plain → i.decoder.codec = .retained) := by
  have hplaced := hi.placed
  rw [hworker] at hplaced
  obtain ⟨⟨hcodec, -, code, hresult⟩ | ⟨hcodec, -, hplain⟩, -⟩ := hplaced
  · cases hresult
    exact ⟨False.elim, fun _ => hcodec⟩
  · obtain ⟨e, he, hplain⟩ := hplain hstarted
    cases he
    exact ⟨fun _ => ⟨by rw [hworker]; rfl, hcodec⟩, fun h => absurd hplain h⟩

end OhosDecoder

end RdEngine
