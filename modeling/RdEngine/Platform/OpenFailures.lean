/-
RdEngine/Platform/OpenFailures.lean

What a failed open of the Windows publisher says of the native objects it has made.

How far an open gets (`Reach`) says which objects there are and who closes them.  An
object that is closed by its drop alone is the one whose failed close nobody hears of;
with a probe that is every object in the end (`open_failures`).
-/
import RdEngine.Platform.WindowsOpen

namespace RdEngine

namespace WindowsHost

open WindowsPublisher (ProducerError PublisherError mapProducer)
open DesktopDuplication (Status Luid mapDdStatus luid nativeFormat CaptureInfo)

/-! ### An encoder that was made can serve -/

section Encoder

variable {native : Native} {capture : Capture} {config : PublisherConfig} {producer : ProducerConfig}
  {desc : RdNvencCreateDesc}

/-- The contract of a capture is that of some desktop texture. -/
theorem describe_color (h : describe native = .ok capture) :
    ∃ space bits, sourceColor capture.info.descriptor.format space bits
      = .ok capture.info.descriptor.sourceColor := by
  unfold describe at h
  split at h
  · cases h
  split at h
  · cases h
  next info hinfo =>
  split at h
  · cases h
  cases h
  unfold captureInfo at hinfo
  simp only [bind, Except.bind, pure, Except.pure, throw, throwThe, MonadExceptOf.throw] at hinfo
  repeat' split at hinfo
  all_goals cases hinfo
  next hcolor => exact ⟨_, _, hcolor⟩

theorem nativeConfig_color {info : CaptureInfo} (h : nativeConfig config info = .ok producer) :
    producer.sourceColor = info.descriptor.sourceColor ∧
      encodedColor producer.sourceColor = .ok producer.encodedColor := by
  unfold nativeConfig at h
  simp only [bind, Except.bind, pure, Except.pure, throw, throwThe, MonadExceptOf.throw] at h
  repeat' split at h
  all_goals cases h
  next hcolor => exact ⟨rfl, hcolor⟩

theorem createDesc_transport (h : createDesc producer capture = .ok desc) :
    validateEncodedTransport producer.encodedColor = .ok () := by
  unfold createDesc at h
  simp only [bind, Except.bind, pure, Except.pure, throw, throwThe, MonadExceptOf.throw] at h
  repeat' split at h
  all_goals cases h
  assumption

/-- A standard desktop, in one of its two formats. -/
def standard (format : DxgiFormat) : MediaColorContract where
  storage := format.storage
  colorimetry := ⟨.bt709, .gamma22, .identity, .full⟩
  hdrStatic := none
  sourcePreserved := true

/-- Of a standard desktop an encoder can be made. -/
theorem validateCapability_standard {c : ProducerConfig} {d : TextureDescriptor}
    (hformat : d.format = .b8g8r8a8Unorm ∨ d.format = .r10g10b10a2Unorm)
    (hsource : c.sourceColor = standard d.format) (hinput : d.sourceColor = standard d.format)
    (hencoded : encodedColor (standard d.format) = .ok c.encodedColor) :
    validateCapability c (capability c d) = .ok () := by
  obtain ⟨codec, width, height, numerator, denominator, bitrate, source, encoded⟩ := c
  obtain ⟨dwidth, dheight, format, slice, level, adapter, input, hwidth, hheight⟩ := d
  dsimp only at hformat hsource hinput hencoded
  subst hsource hinput
  unfold validateCapability capability
  simp only [ne_eq, not_true_eq_false, if_false, List.mem_singleton]
  rcases hformat with rfl | rfl
  · obtain rfl := Except.ok.inj hencoded
    rfl
  · obtain rfl := Except.ok.inj hencoded
    rfl

/-- **The encoder of an open that gets so far is accepted.** -/
theorem validateCapability_new (hdescribe : describe native = .ok capture)
    (hconfig : nativeConfig config capture.info = .ok producer)
    (hcreate : createDesc producer capture = .ok desc) :
    validateCapability producer (capability producer capture.info.descriptor) = .ok () := by
  obtain ⟨space, bits, hcolor⟩ := describe_color hdescribe
  obtain ⟨hsource, hencoded⟩ := nativeConfig_color hconfig
  have htransport := createDesc_transport hcreate
  -- the three kinds of desktop; of the second the encoder can make nothing
  unfold sourceColor at hcolor
  dsimp only at hcolor
  split_ifs at hcolor with hbgra hpq hrgb
  · have hcontract := (Except.ok.inj hcolor).symm
    rw [hsource, hcontract] at hencoded
    exact validateCapability_standard (.inl hbgra.1) (hsource.trans hcontract) hcontract hencoded
  · have hcontract := Except.ok.inj hcolor
    rw [hsource, ← hcontract, hpq.1] at hencoded
    have hencoded := Except.ok.inj hencoded
    rw [← hencoded] at htransport
    cases htransport
  · have hcontract := (Except.ok.inj hcolor).symm
    rw [hsource, hcontract] at hencoded
    exact validateCapability_standard (.inr hrgb.1) (hsource.trans hcontract) hcontract hencoded

end Encoder

/-! ### How far an open gets -/

/-- How far an open gets. -/
inductive Reach where
  /-- there is no native object -/
  | nothing
  /-- a capture that does not describe itself acceptably -/
  | rejected
  /-- a capture, and no encoder; or one that was not cleaned up -/
  | dropped (cleanedUp : Bool)
  | opened
deriving Repr, DecidableEq

/-- How far the creation of an encoder gets. -/
def reachEncoder (native : Native) (producer : ProducerConfig) (capture : Capture) : Reach :=
  match createDesc producer capture with
  | .error _ => .dropped true
  | .ok desc =>
    match native.nvencCreate capture.device desc with
    | (.ok, true) => .opened
    | (.cleanupFailed, true) => .dropped false
    | _ => .dropped true

/-- How far an open comes, once the capture is there. -/
def reachCapture (native : Native) (config : PublisherConfig) : Reach :=
  match describe native with
  | .error _ => .rejected
  | .ok capture =>
    match nativeConfig config capture.info with
    | .error _ => .dropped true
    | .ok producer => reachEncoder native producer capture

def reach (native : Native) (config : PublisherConfig) : Reach :=
  match output native config.outputIndex with
  | .error _ => .nothing
  | .ok selected =>
    match native.ddOpen selected with
    | (.ok, true) => reachCapture native config
    | _ => .nothing

/-- A capture, with the closes that were tried. -/
def captured (closes : List Bool) : NativeObject := ⟨true, closes⟩

/-- What is there after an open that got so far; `status` is the answer to the first
close of the capture. -/
def Reach.objects (status : Status) : Reach → Objects
  | .nothing => {}
  | .rejected => { capture := captured [status = .ok] }
  | .dropped cleanedUp =>
    { capture := captured [status = .ok]
      encoder := if cleanedUp then {} else ⟨true, [false]⟩ }
  | .opened => { capture := captured [], encoder := ⟨true, []⟩ }

/-- What it keeps. -/
def Reach.quarantine (status : Status) : Reach → Option OpenQuarantine
  | .rejected => if status = .ok then none else some .capture
  | .dropped false => some .encoder
  | .nothing | .dropped true | .opened => none

section Open

variable {native : Native} {config : PublisherConfig}

/-- A failure with these objects and this quarantine, or no failure. -/
def Outcome (native : Native) (r : Reach) (result : Objects × Except OpenFailure Pipeline) : Prop :=
  result.1 = r.objects (native.ddClose 0) ∧
    match result.2 with
    | .ok _ => r = .opened
    | .error failure =>
      r ≠ .opened ∧ failure.quarantine = r.quarantine (native.ddClose 0) ∧
        (failure.quarantine.isSome = true → failure.error = .reclamationUnconfirmed)

/-- The part of `openNative` after the capture. -/
def openEncoder (native : Native) (w : Objects) (config : PublisherConfig) (capture : Capture) :
    Objects × Except OpenFailure Pipeline :=
  match nativeConfig config capture.info with
  | .error error => (w.dropCapture native, .error (.plain error))
  | .ok producer =>
    match newNvenc native w producer capture with
    | (w, .error failure) =>
      (w.dropCapture native, .error {
        error :=
          if failure.error = .reclamationUnconfirmed then .reclamationUnconfirmed
          else .encoderFailed
        quarantine := if failure.quarantine then some .encoder else none })
    | (w, .ok encoder) =>
      match openPipeline native w capture encoder producer with
      | (w, .error error) => (w, .error (.plain (mapProducer error)))
      | (w, .ok pipeline) => (w, .ok pipeline)

theorem outcome_encoder {capture : Capture} (hdescribe : describe native = .ok capture) :
    Outcome native (reachCapture native config)
      (openEncoder native { capture := captured [] } config capture) := by
  unfold reachCapture openEncoder
  rw [hdescribe]
  dsimp only
  cases hconfig : nativeConfig config capture.info with
  | error error => exact ⟨rfl, Reach.noConfusion, rfl, fun h => absurd h Bool.false_ne_true⟩
  | ok producer =>
    dsimp only
    unfold newNvenc reachEncoder
    cases hcreate : createDesc producer capture with
    | error error => exact ⟨rfl, fun h => (by cases h), rfl, fun h => absurd h Bool.false_ne_true⟩
    | ok desc =>
      dsimp only
      rcases native.nvencCreate capture.device desc with ⟨status, raw⟩
      cases status with
      | ok =>
        cases raw with
        | false => exact ⟨rfl, fun h => (by cases h), rfl, fun h => absurd h Bool.false_ne_true⟩
        | true =>
          have hvalid := validateCapability_new hdescribe hconfig hcreate
          unfold openPipeline
          dsimp only
          rw [hvalid]
          exact ⟨rfl, rfl⟩
      | cleanupFailed =>
        cases raw with
        | false => exact ⟨rfl, fun h => (by cases h), rfl, fun h => absurd h Bool.false_ne_true⟩
        | true => exact ⟨rfl, fun h => (by cases h), rfl, fun _ => rfl⟩
      | _ => exact ⟨rfl, fun h => (by cases h), rfl, fun h => absurd h Bool.false_ne_true⟩

/-- **How far it gets says what an open leaves.** -/
theorem openNative_outcome (native : Native) (config : PublisherConfig) :
    Outcome native (reach native config) (openNative native config) := by
  have hbackend : selectBackend config.backend = .ok () := by cases config.backend <;> rfl
  have hnothing : ∀ error, Outcome native .nothing ({}, .error ⟨error, none⟩) := fun error =>
    ⟨rfl, fun h => (by cases h), rfl, fun h => absurd h Bool.false_ne_true⟩
  unfold openNative reach
  rw [hbackend]
  dsimp only
  cases output native config.outputIndex with
  | error error => exact hnothing error
  | ok selected =>
    dsimp only
    unfold openCapture
    rcases native.ddOpen selected with ⟨status, raw⟩
    cases status with
    | ok =>
      cases raw with
      | false => exact hnothing _
      | true =>
        dsimp only
        cases hdescribe : describe native with
        | ok capture => exact outcome_encoder hdescribe
        | error error =>
          have hreach : reachCapture native config = .rejected := by
            unfold reachCapture
            rw [hdescribe]
          rw [hreach]
          unfold DesktopDuplicationOpenError.afterOpen Objects.ddClose
          dsimp only
          have hzero : native.ddClose (NativeObject.closes { created := true }).length
              = native.ddClose 0 := rfl
          rw [hzero]
          -- the capture is closed again; where that fails it is kept
          by_cases hclose : native.ddClose 0 = .ok
          · rw [if_pos hclose]
            refine ⟨rfl, fun h => (by cases h), ?_, fun h => absurd h Bool.false_ne_true⟩
            show none = if native.ddClose 0 = .ok then none else some OpenQuarantine.capture
            rw [if_pos hclose]
          · rw [if_neg hclose]
            refine ⟨rfl, fun h => (by cases h), ?_, fun _ => rfl⟩
            show some OpenQuarantine.capture = if native.ddClose 0 = .ok then none else _
            rw [if_neg hclose]
    | _ => exact hnothing _

end Open

/-! ### What a result says of the objects -/

/-- A failure that is not marked leaves nothing that is not confirmed closed, and an
object whose last close failed is in the quarantine of the result. -/
structure Honest (w : Objects) (quarantine : Option OpenQuarantine) (unmarked : Bool) : Prop where
  capture : unmarked = true → w.capture.created = true → w.capture.Confirmed
  encoder : unmarked = true → w.encoder.created = true → w.encoder.Confirmed
  captureKept : w.capture.CloseFailed → quarantine = some .capture
  encoderKept : w.encoder.CloseFailed → quarantine = some .encoder

/-- What `open_native` says of the native objects is so. -/
def OpenHonest (result : Objects × Except OpenFailure Pipeline) : Prop :=
  match result with
  | (w, .ok _) => Honest w none false
  | (w, .error failure) => Honest w failure.quarantine (!resourcesUnconfirmed failure.error)

/-- A probe that fails says no more than that. -/
def ProbeHonest (result : Objects × Bool) : Prop := Honest result.1 none (!result.2)

def PublisherHonest (result : Objects × Except PublisherError Publisher) : Prop :=
  match result with
  | (w, .ok publisher) => Honest w publisher.openQuarantine false
  | (w, .error error) => Honest w none (!resourcesUnconfirmed error)

/-- The capture of an open that fails later is closed by its drop. -/
def Reach.Drops (native : Native) : Reach → Prop
  | .dropped _ => native.ddClose 0 = .ok
  | .nothing | .rejected | .opened => True

/-- A probe closes whatever it has opened, within its attempts. -/
def Reach.Closes (native : Native) : Reach → Prop
  | .nothing => True
  | .rejected => native.ddClose 0 = .ok ∨ native.ddClose 1 = .ok
  | .dropped cleanedUp => native.ddClose 0 = .ok ∧ (cleanedUp = false → native.nvencShutdown 1 = .ok)
  | .opened =>
    native.nvencShutdown 0 = .ok ∧ (native.ddClose 0 = .ok ∨ native.ddClose 1 = .ok) ∨
      native.nvencShutdown 0 ≠ .ok ∧ native.nvencShutdown 1 = .ok ∧ native.ddClose 0 = .ok

section Honest

variable {native : Native} {config : PublisherConfig}

theorem honest_iff {w : Objects} {quarantine : Option OpenQuarantine} {unmarked : Bool} :
    Honest w quarantine unmarked ↔
      (unmarked = true → w.capture.created = true → w.capture.Confirmed) ∧
      (unmarked = true → w.encoder.created = true → w.encoder.Confirmed) ∧
      (w.capture.CloseFailed → quarantine = some .capture) ∧
      (w.encoder.CloseFailed → quarantine = some .encoder) :=
  ⟨fun h => ⟨h.capture, h.encoder, h.captureKept, h.encoderKept⟩,
    fun ⟨h1, h2, h3, h4⟩ => ⟨h1, h2, h3, h4⟩⟩

/-- What a result without a quarantine has to say, of objects whose closes were tried. -/
theorem honest_none {w : Objects} {unmarked : Bool} :
    Honest w none unmarked ↔
      (unmarked = true → w.capture.created = true → w.capture.Confirmed) ∧
      (unmarked = true → w.encoder.created = true → w.encoder.Confirmed) ∧
      ¬ w.capture.CloseFailed ∧ ¬ w.encoder.CloseFailed := by
  rw [honest_iff]
  refine and_congr_right fun _ => and_congr_right fun _ => and_congr ?_ ?_
  · exact ⟨fun h hfailed => (by cases h hfailed), fun h hfailed => absurd hfailed h⟩
  · exact ⟨fun h hfailed => (by cases h hfailed), fun h hfailed => absurd hfailed h⟩

theorem honest_nothing (quarantine : Option OpenQuarantine) (unmarked : Bool) :
    Honest {} quarantine unmarked :=
  ⟨fun _ h => (by cases h), fun _ h => (by cases h), fun h => (by cases h), fun h => (by cases h)⟩

/-- An open that fails is honest, if the drop of its capture closes it. -/
theorem honest_error {r : Reach} {failure : OpenFailure} (hnot : r ≠ .opened)
    (hquarantine : failure.quarantine = r.quarantine (native.ddClose 0))
    (hmarked : failure.quarantine.isSome = true → failure.error = .reclamationUnconfirmed) :
    Honest (r.objects (native.ddClose 0)) failure.quarantine (!resourcesUnconfirmed failure.error)
      ↔ r.Drops native := by
  -- a failure with a quarantine is marked
  have hunmarked : failure.quarantine.isSome = true →
      ¬ (!resourcesUnconfirmed failure.error) = true := by
    intro hsome
    rw [hmarked hsome]
    exact Bool.false_ne_true
  have hclosed : native.ddClose 0 = .ok →
      (captured [decide (native.ddClose 0 = .ok)]).Confirmed ∧
        ¬ (captured [decide (native.ddClose 0 = .ok)]).CloseFailed := by
    intro hclose
    rw [hclose]
    exact ⟨rfl, fun h => (by cases h)⟩
  cases r with
  | opened => exact absurd rfl hnot
  | nothing => exact ⟨fun _ => trivial, fun _ => honest_nothing _ _⟩
  | rejected =>
    -- the capture alone was opened, and it is closed or kept
    refine ⟨fun _ => trivial, fun _ => ?_⟩
    have hencoder : ∀ unmarked, Honest (Reach.rejected.objects (native.ddClose 0))
        failure.quarantine unmarked ↔ _ := fun unmarked => ⟨fun h => And.intro h.capture h.captureKept,
          fun ⟨hcapture, hkept⟩ => ⟨hcapture, fun _ h => (by cases h), hkept, fun h => (by cases h)⟩⟩
    refine (hencoder _).mpr ?_
    by_cases hclose : native.ddClose 0 = .ok
    · exact ⟨fun _ _ => (hclosed hclose).1, fun h => absurd h (hclosed hclose).2⟩
    · have hkept : failure.quarantine = some .capture := by
        rw [hquarantine]
        exact if_neg hclose
      exact ⟨fun hu => absurd hu (hunmarked (by rw [hkept]; rfl)), fun _ => hkept⟩
  | dropped cleanedUp =>
    -- at most the encoder is kept, so a capture that failed to close is lost
    show _ ↔ native.ddClose 0 = .ok
    refine ⟨fun h => ?_, fun hclose => ?_⟩
    · by_contra hclose
      have hfailed : ((Reach.dropped cleanedUp).objects (native.ddClose 0)).capture.CloseFailed := by
        show (captured [decide (native.ddClose 0 = .ok)]).CloseFailed
        rw [decide_eq_false hclose]
        rfl
      have hkept := hquarantine.symm.trans (h.captureKept hfailed)
      cases cleanedUp <;> cases hkept
    · cases cleanedUp with
      | true =>
        exact ⟨fun _ _ => (hclosed hclose).1, fun _ h => (by cases h),
          fun h => absurd h (hclosed hclose).2, fun h => (by cases h)⟩
      | false =>
        exact ⟨fun _ _ => (hclosed hclose).1,
          fun hu => absurd hu (hunmarked (by rw [hquarantine]; rfl)),
          fun h => absurd h (hclosed hclose).2, fun _ => hquarantine⟩

theorem openNative_honest (native : Native) (config : PublisherConfig) :
    OpenHonest (openNative native config) ↔ (reach native config).Drops native := by
  obtain ⟨hobjects, hresult⟩ := openNative_outcome native config
  generalize openNative native config = result at hobjects hresult
  obtain ⟨w, result⟩ := result
  obtain rfl : w = _ := hobjects
  cases result with
  | ok pipeline =>
    dsimp only at hresult
    rw [hresult]
    refine ⟨fun _ => trivial, fun _ => ?_⟩
    exact ⟨fun h => absurd h Bool.false_ne_true, fun h => absurd h Bool.false_ne_true,
      fun h => (by cases h), fun h => (by cases h)⟩
  | error failure =>
    obtain ⟨hnot, hquarantine, hmarked⟩ := hresult
    exact honest_error hnot hquarantine hmarked

/-! #### Probes -/

/-- A quarantine that is dropped closes what it has kept. -/
theorem probe_error {r : Reach} {failure : OpenFailure} (hnot : r ≠ .opened)
    (hquarantine : failure.quarantine = r.quarantine (native.ddClose 0)) :
    ProbeHonest
        (match failure.quarantine with
          | some quarantine => quarantine.drop native (r.objects (native.ddClose 0))
          | none => r.objects (native.ddClose 0), false)
      ↔ r.Closes native := by
  rw [hquarantine]
  unfold ProbeHonest
  cases r with
  | opened => exact absurd rfl hnot
  | nothing => exact ⟨fun _ => trivial, fun _ => honest_nothing _ _⟩
  | rejected =>
    by_cases h0 : native.ddClose 0 = .ok
    · simp [honest_none, Reach.quarantine, Reach.objects, Reach.Closes, h0, captured,
        NativeObject.Confirmed, NativeObject.CloseFailed]
    · simp [honest_none, Reach.quarantine, Reach.objects, Reach.Closes, h0, captured,
        NativeObject.Confirmed, NativeObject.CloseFailed, OpenQuarantine.drop,
        Objects.dropCapture, Objects.ddClose, NativeObject.close]
  | dropped cleanedUp =>
    cases cleanedUp with
    | true =>
      simp [honest_none, Reach.quarantine, Reach.objects, Reach.Closes, captured,
        NativeObject.Confirmed, NativeObject.CloseFailed]
    | false =>
      simp [honest_none, Reach.quarantine, Reach.objects, Reach.Closes, captured,
        NativeObject.Confirmed, NativeObject.CloseFailed, OpenQuarantine.drop,
        Objects.dropEncoder, Objects.nvencShutdown, NativeObject.close]
      exact And.intro

/-- A pipeline is closed in two attempts, the second of which resumes the first. -/
theorem probe_opened :
    ProbeHonest
        (match closeNative native (Reach.opened.objects (native.ddClose 0)) with
          | (w, .ok ()) => (w, true)
          | (w, .error _) => (w, false))
      ↔ Reach.opened.Closes native := by
  unfold ProbeHonest closeNative CloseQuarantine.retry
  by_cases he : native.nvencShutdown 0 = .ok
  all_goals by_cases he1 : native.nvencShutdown 1 = .ok
  all_goals by_cases h0 : native.ddClose 0 = .ok
  all_goals by_cases h1 : native.ddClose 1 = .ok
  all_goals simp [honest_none, Reach.objects, Reach.Closes, captured, he, he1, h0, h1,
    NativeObject.Confirmed, NativeObject.CloseFailed, Objects.nvencShutdown, Objects.ddClose,
    NativeObject.close]

theorem probeCodec_honest (native : Native) (config : PublisherConfig) (codec : Codec) :
    ProbeHonest (probeCodec native config codec)
      ↔ (reach native { config with codec }).Closes native := by
  obtain ⟨hobjects, hresult⟩ := openNative_outcome native { config with codec }
  unfold probeCodec
  generalize openNative native { config with codec } = result at hobjects hresult
  obtain ⟨w, result⟩ := result
  obtain rfl : w = _ := hobjects
  cases result with
  | ok pipeline =>
    dsimp only at hresult ⊢
    rw [hresult]
    exact probe_opened
  | error failure => exact probe_error hresult.1 hresult.2.1

/-! #### The publisher -/

theorem openPublisher_honest (native : Native) (config : PublisherConfig) (spawns : Bool) :
    PublisherHonest (openPublisher native config spawns)
      ↔ (validateConfig config = .ok () → spawns = true → (reach native config).Drops native) := by
  have hbackend : selectBackend config.backend = .ok () := by cases config.backend <;> rfl
  unfold openPublisher
  cases hvalid : validateConfig config with
  | error error =>
    exact ⟨fun _ h => (by cases h), fun _ => honest_nothing _ _⟩
  | ok =>
    rw [hbackend]
    cases spawns with
    | false => exact ⟨fun _ _ h => (by cases h), fun _ => honest_nothing _ _⟩
    | true =>
      have hopen := openNative_honest native config
      obtain ⟨-, hresult⟩ := openNative_outcome native config
      generalize openNative native config = result at hopen hresult
      obtain ⟨w, result⟩ := result
      -- an accepted configuration on a thread: the outcome of the native open decides
      have hdrop : ∀ {P : Prop}, (P ↔ OpenHonest (w, result)) →
          (P ↔ (Except.ok () = Except.ok (ε := PublisherError) () → true = true →
            (reach native config).Drops native)) := fun hP =>
        ⟨fun h _ _ => hopen.mp (hP.mp h), fun h => hP.mpr (hopen.mpr (h rfl rfl))⟩
      refine hdrop ?_
      cases result with
      | ok pipeline => exact Iff.rfl
      | error failure =>
        obtain ⟨-, -, hmarked⟩ := hresult
        show PublisherHonest (if failure.error = .reclamationUnconfirmed ∧
          failure.quarantine.isSome = true then _ else _) ↔ Honest w _ _
        split
        · next hkept =>
          rw [hkept.1]
          exact Iff.rfl
        · next hnot =>
          have hnone : failure.quarantine = none := by
            cases hquarantine : failure.quarantine with
            | none => rfl
            | some =>
              have hsome : failure.quarantine.isSome = true := by rw [hquarantine]; rfl
              exact absurd ⟨hmarked hsome, hsome⟩ hnot
          rw [hnone]
          exact Iff.rfl

end Honest

/-- **What a failure says of the native objects.**  An open, and the publisher's, is
honest unless the capture of one that fails later is not closed by its drop; a probe
unless something it has opened is not closed within its attempts. -/
theorem open_failures (native : Native) (config : PublisherConfig) (codec : Codec)
    (spawns : Bool) :
    (OpenHonest (openNative native config) ↔ (reach native config).Drops native) ∧
      (ProbeHonest (probeCodec native config codec)
        ↔ (reach native { config with codec }).Closes native) ∧
      (PublisherHonest (openPublisher native config spawns)
        ↔ (validateConfig config = .ok () → spawns = true → (reach native config).Drops native)) :=
  ⟨openNative_honest native config, probeCodec_honest native config codec,
    openPublisher_honest native config spawns⟩

/-! ### An encoder that does not shut down -/

/-- A display of two pixels by two, whose encoder cannot be shut down. -/
def stuckNative : Native where
  enumerateOutputs := .ok [⟨0, 0⟩]
  ddOpen _ := (.ok, true)
  ddGetCaptureInfo := .ok {
    pixelFormat := DesktopDuplication.formatBgra8
    width := 2
    height := 2
    adapterLuid := ⟨0, 0⟩
    qpcFrequency := 1000
    dxgiColorSpaceType := dxgiRgbFullG22P709
    bitsPerColor := 8
    displayMinLuminanceNits := 0
    displayMaxLuminanceNits := 0
    displayMaxFullFrameLuminanceNits := 0
    reserved := 0
    d3d11Device := some 1 }
  nvencCreate _ _ := (.ok, true)
  ddClose _ := .ok
  nvencShutdown _ := .cleanupFailed

def smallConfig : PublisherConfig where
  codec := .h264
  width := 2
  height := 2
  fps := 60
  bitrate := 20000000
  autoBitrate := false
  maxQueuedUnits := 1
  maxQueuedBytes := 1024
  backend := .auto
  outputIndex := 0

/-- A probe of the stuck encoder fails, and nobody has the encoder any more. -/
theorem stuck_hidden :
    validateConfig smallConfig = .ok () ∧ (probeCodec stuckNative smallConfig .h264).2 = false ∧
      ¬ ProbeHonest (probeCodec stuckNative smallConfig .h264) := by
  refine ⟨rfl, rfl, fun hhonest => ?_⟩
  have hkept := hhonest.encoderKept rfl
  cases hkept

end WindowsHost

end RdEngine
