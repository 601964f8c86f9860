/-
RdEngine/Platform/Teardown.lean

The end of the Windows producer: `WindowsPublisher::close` and
`CloseQuarantine::retry` (`platform/windows_publisher.rs`).

The quarantine owns the capture and the encoder, and an attempt consumes it; one that
fails gives it back, with what is done marked.  Neither owner is dropped with it: both
are dropped by hand, at the end of the attempt that succeeds.  So what happens is
recorded, the drops as well as the calls (`Event`), and a teardown is any number of
attempts, with any answers, up to the first that succeeds.
-/
import RdEngine.Platform.WindowsPublisher

namespace RdEngine

namespace WindowsPublisher

section

variable {C E : Type}

/-- What is done to the owners. -/
inductive Event (C E : Type) where
  | closesEncoder (result : Except ProducerError Unit)
  | closesCapture (result : Except ProducerError Unit)
  | dropsEncoder (encoder : E)
  | dropsCapture (capture : C)

/-- The owners of a teardown that is not over.  It is consumed by every attempt, and given
back by one that fails. -/
structure CloseQuarantine (C E : Type) where
  capture : C
  encoder : E
  /-- the stages that are done, and are not repeated -/
  encoderClosed : Bool
  captureClosed : Bool
  /-- of the last attempt, for whoever asks -/
  lastError : ProducerError
deriving DecidableEq

/-- What the two closes answer during an attempt, where they are called. -/
structure Attempt where
  encoder : Except ProducerError Unit
  capture : Except ProducerError Unit

namespace CloseQuarantine

/-- The second half of `retry`: the encoder is closed. -/
def retryCapture (q : CloseQuarantine C E) (a : Attempt) :
    List (Event C E) × Except (CloseQuarantine C E) Unit :=
  let drops : List (Event C E) := [.dropsEncoder q.encoder, .dropsCapture q.capture]
  if q.captureClosed then (drops, .ok ())
  else match a.capture with
  -- the quarantine goes back to the caller, and nothing is dropped
  | .error error => ([.closesCapture (.error error)], .error { q with lastError := error })
  | .ok () => (.closesCapture (.ok ()) :: drops, .ok ())

/-- `retry`: the encoder is closed first, unless an earlier attempt has closed it. -/
def retry (q : CloseQuarantine C E) (a : Attempt) :
    List (Event C E) × Except (CloseQuarantine C E) Unit :=
  if q.encoderClosed then q.retryCapture a
  else match a.encoder with
  -- the capture is not touched while the encoder may still use it
  | .error error => ([.closesEncoder (.error error)], .error { q with lastError := error })
  | .ok () =>
    let (log, result) := { q with encoderClosed := true }.retryCapture a
    (.closesEncoder (.ok ()) :: log, result)

/-- An attempt after the other, until one succeeds. -/
def retries (q : CloseQuarantine C E) : List Attempt →
    List (Event C E) × Except (CloseQuarantine C E) Unit
  | [] => ([], .error q)
  | a :: as =>
    match q.retry a with
    | (log, .ok ()) => (log, .ok ())
    | (log, .error q) =>
      let (later, result) := q.retries as
      (log ++ later, result)

end CloseQuarantine

/-- The publisher is taken apart, and closed for the first time. -/
def close (capture : C) (encoder : E) (a : Attempt) :
    List (Event C E) × Except (CloseQuarantine C E) Unit :=
  CloseQuarantine.retry ⟨capture, encoder, false, false, .reclamationUnconfirmed⟩ a

/-- The close of a publisher, and the retries after it. -/
def teardown (capture : C) (encoder : E) (first : Attempt) (as : List Attempt) :
    List (Event C E) × Except (CloseQuarantine C E) Unit :=
  match close capture encoder first with
  | (log, .ok ()) => (log, .ok ())
  | (log, .error q) =>
    let (later, result) := q.retries as
    (log ++ later, result)

/-! ### What has happened -/

/-- Attempts that failed, of the one close and then of the other. -/
def failed (make : Except ProducerError Unit → Event C E) (errors : List ProducerError) :
    List (Event C E) :=
  errors.map fun error => make (.error error)

/-- What has happened before a quarantine, and what it still holds. -/
inductive Pending (capture : C) (encoder : E) :
    List (Event C E) → CloseQuarantine C E → Prop
  | encoder (errors : List ProducerError) (lastError : ProducerError) :
      Pending capture encoder (failed .closesEncoder errors)
        ⟨capture, encoder, false, false, lastError⟩
  | capture (errors errors' : List ProducerError) (lastError : ProducerError) :
      Pending capture encoder
        (failed .closesEncoder errors ++ .closesEncoder (.ok ()) :: failed .closesCapture errors')
        ⟨capture, encoder, true, false, lastError⟩

/-- What has happened when an attempt succeeds. -/
def Finished (capture : C) (encoder : E) (log : List (Event C E)) : Prop :=
  ∃ errors errors', log =
    failed .closesEncoder errors ++ .closesEncoder (.ok ()) :: failed .closesCapture errors' ++
      [.closesCapture (.ok ()), .dropsEncoder encoder, .dropsCapture capture]

/-- What a result tells of the events before it. -/
def Outcome (capture : C) (encoder : E) :
    List (Event C E) × Except (CloseQuarantine C E) Unit → Prop
  | (log, .ok ()) => Finished capture encoder log
  | (log, .error q) => Pending capture encoder log q

variable {capture : C} {encoder : E} {log : List (Event C E)} {q : CloseQuarantine C E}
  {attempts : List Attempt}

theorem failed_snoc (make : Except ProducerError Unit → Event C E) (errors : List ProducerError)
    (error : ProducerError) :
    failed make errors ++ [make (.error error)] = failed make (errors ++ [error]) := by
  simp [failed]

theorem Pending.retry (h : Pending capture encoder log q) (a : Attempt) :
    Outcome capture encoder (log ++ (q.retry a).1, (q.retry a).2) := by
  cases h with
  | encoder errors lastError =>
    -- nothing is closed yet: both closes may be asked
    rcases hencoder : a.encoder with error | ⟨⟨⟩⟩
    · rw [CloseQuarantine.retry, if_neg (by simp), hencoder]
      dsimp only
      rw [failed_snoc]
      exact .encoder _ _
    · rcases hcapture : a.capture with error | ⟨⟨⟩⟩
      · rw [CloseQuarantine.retry, if_neg (by simp), hencoder]
        dsimp only [CloseQuarantine.retryCapture]
        rw [if_neg (by simp), hcapture]
        exact .capture errors [error] error
      · rw [CloseQuarantine.retry, if_neg (by simp), hencoder]
        dsimp only [CloseQuarantine.retryCapture]
        rw [if_neg (by simp), hcapture]
        exact ⟨errors, [], by simp [failed]⟩
  | capture errors errors' lastError =>
    -- the encoder is closed, and is passed over
    rcases hcapture : a.capture with error | ⟨⟨⟩⟩
    · rw [CloseQuarantine.retry, if_pos rfl, CloseQuarantine.retryCapture, if_neg (by simp),
        hcapture]
      dsimp only
      rw [List.append_assoc, List.cons_append, failed_snoc]
      exact .capture _ _ _
    · rw [CloseQuarantine.retry, if_pos rfl, CloseQuarantine.retryCapture, if_neg (by simp),
        hcapture]
      exact ⟨errors, errors', rfl⟩

theorem Pending.retries (h : Pending capture encoder log q) (as : List Attempt) :
    Outcome capture encoder (log ++ (q.retries as).1, (q.retries as).2) := by
  induction as generalizing log q with
  | nil => exact (List.append_nil log).symm ▸ h
  | cons a as ih =>
    have hretry := h.retry a
    rw [CloseQuarantine.retries]
    rcases hresult : q.retry a with ⟨later, q' | ⟨⟨⟩⟩⟩
    · rw [hresult] at hretry
      dsimp only
      rw [← List.append_assoc]
      exact ih hretry
    · rw [hresult] at hretry
      exact hretry

theorem outcome_teardown (capture : C) (encoder : E) (first : Attempt) (as : List Attempt) :
    Outcome capture encoder (teardown capture encoder first as) := by
  have h := (Pending.encoder [] ProducerError.reclamationUnconfirmed :
    Pending capture encoder _ _).retries (first :: as)
  exact h

/-! ### The order of a teardown -/

/-- The end of an owner. -/
def Event.Drops : Event C E → Prop
  | .dropsEncoder _ | .dropsCapture _ => True
  | _ => False

/-- What the encoder's close has answered, if this was a call of it. -/
def Event.encoder? : Event C E → Option (Except ProducerError Unit)
  | .closesEncoder result => some result
  | _ => none

/-- What the capture's close has answered, if this was a call of it. -/
def Event.capture? : Event C E → Option (Except ProducerError Unit)
  | .closesCapture result => some result
  | _ => none

/-- The answers up to the first success. -/
def untilOk : List (Except ProducerError Unit) → List (Except ProducerError Unit)
  | [] => []
  | .error error :: results => .error error :: untilOk results
  | .ok () :: _ => [.ok ()]

/-- The encoder cannot be closed in this attempt. -/
def Attempt.encoderFails (a : Attempt) : Bool := a.encoder matches .error _

/-- No attempt is idle: each asks the encoder, until that is closed, and from then on the
capture, until that is closed. -/
structure EachAsked (attempts : List Attempt) (log : List (Event C E)) : Prop where
  encoder : log.filterMap Event.encoder? = untilOk (attempts.map (·.encoder))
  capture : log.filterMap Event.capture? =
    untilOk ((attempts.dropWhile (·.encoderFails)).map (·.capture))

/-- What is promised of a teardown with some result, after these attempts. -/
structure Ordered (capture : C) (encoder : E) (attempts : List Attempt) (log : List (Event C E))
    (result : Except (CloseQuarantine C E) Unit) : Prop where
  /-- every close is called once in each attempt that has come to it -/
  asked : EachAsked attempts log
  /-- the encoder is closed before the capture is touched -/
  encoderFirst : ∀ before r after, log = before ++ .closesCapture r :: after →
    .closesEncoder (.ok ()) ∈ before
  encoderOnce : ∀ before after, log = before ++ .closesEncoder (.ok ()) :: after →
    ∀ r, .closesEncoder r ∉ after
  captureOnce : ∀ before after, log = before ++ .closesCapture (.ok ()) :: after →
    ∀ r, .closesCapture r ∉ after
  succeeds : result = .ok () ↔
    .closesEncoder (.ok ()) ∈ log ∧ .closesCapture (.ok ()) ∈ log
  /-- both owners are dropped at the end of the attempt that succeeds, and once -/
  drops : result = .ok () → ∃ before,
    log = before ++ [.dropsEncoder encoder, .dropsCapture capture] ∧
      .closesEncoder (.ok ()) ∈ before ∧ .closesCapture (.ok ()) ∈ before ∧
      ∀ e ∈ before, ¬ e.Drops
  /-- an attempt that fails keeps both -/
  keeps : ∀ q, result = .error q →
    q.encoder = encoder ∧ q.capture = capture ∧ ∀ e ∈ log, ¬ e.Drops

/-- Retries with the encoder closed ask the capture alone. -/
theorem retries_asked_capture (q : CloseQuarantine C E) (hencoder : q.encoderClosed = true)
    (hcapture : q.captureClosed = false) (as : List Attempt) :
    (q.retries as).1.filterMap Event.encoder? = [] ∧
      (q.retries as).1.filterMap Event.capture? = untilOk (as.map (·.capture)) := by
  induction as generalizing q with
  | nil => exact ⟨rfl, rfl⟩
  | cons a as ih =>
    rw [CloseQuarantine.retries, CloseQuarantine.retry, if_pos hencoder,
      CloseQuarantine.retryCapture, if_neg (by simp [hcapture]), List.map_cons]
    rcases a.capture with error | ⟨⟨⟩⟩
    · -- the capture stays open
      obtain ⟨hnone, hrest⟩ := ih { q with lastError := error } hencoder hcapture
      exact ⟨hnone, congrArg (Except.error error :: ·) hrest⟩
    · exact ⟨rfl, rfl⟩

/-- Retries from the start ask both, one after the other. -/
theorem retries_asked (q : CloseQuarantine C E) (hencoder : q.encoderClosed = false)
    (hcapture : q.captureClosed = false) (as : List Attempt) : EachAsked as (q.retries as).1 := by
  induction as generalizing q with
  | nil => exact ⟨rfl, rfl⟩
  | cons a as ih =>
    rw [CloseQuarantine.retries, CloseQuarantine.retry, if_neg (by simp [hencoder])]
    obtain ⟨encoder, captured⟩ := a
    rcases encoder with error | ⟨⟨⟩⟩
    · -- the encoder stays open, and the capture is not asked
      obtain ⟨hrest, hlater⟩ := ih { q with lastError := error } hencoder hcapture
      exact ⟨congrArg (Except.error error :: ·) hrest, hlater⟩
    · rw [CloseQuarantine.retryCapture, if_neg (by simp [hcapture])]
      rcases captured with error | ⟨⟨⟩⟩
      · obtain ⟨hnone, hrest⟩ := retries_asked_capture
          { q with encoderClosed := true, lastError := error } rfl hcapture as
        exact ⟨congrArg (Except.ok () :: ·) hnone, congrArg (Except.error error :: ·) hrest⟩
      · exact ⟨rfl, rfl⟩

/-- A teardown asks in all its attempts, the first included. -/
theorem teardown_asked (capture : C) (encoder : E) (first : Attempt) (as : List Attempt) :
    EachAsked (first :: as) (teardown capture encoder first as).1 :=
  retries_asked ⟨capture, encoder, false, false, .reclamationUnconfirmed⟩ rfl rfl (first :: as)

theorem mem_failed {make : Except ProducerError Unit → Event C E} {errors : List ProducerError}
    {e : Event C E} : e ∈ failed make errors ↔ ∃ error ∈ errors, make (.error error) = e := by
  simp [failed]

/-- Of two events the one that is not in the first part comes later. -/
theorem mem_of_append_cons {A B before after : List (Event C E)} {x y : Event C E}
    (h : A ++ x :: B = before ++ y :: after) (hA : y ∉ A) (hne : x ≠ y) : x ∈ before := by
  rcases List.append_eq_append_iff.mp h with ⟨mid, hbefore, hmid⟩ | ⟨mid, hA', hmid⟩
  · rcases mid with - | ⟨z, mid⟩
    · exact absurd (List.cons.inj hmid).1 hne
    · rw [hbefore, (List.cons.inj hmid).1]
      simp
  · rcases mid with - | ⟨z, mid⟩
    · exact absurd (List.cons.inj hmid).1.symm hne
    · rw [hA', (List.cons.inj hmid).1] at hA
      exact absurd (by simp) hA

/-- Once the encoder is closed, and the rest does not touch it. -/
theorem encoder_closed {errors : List ProducerError} {rest : List (Event C E)}
    (hrest : ∀ r, .closesEncoder r ∉ rest) :
    (∀ before r after, failed .closesEncoder errors ++ .closesEncoder (.ok ()) :: rest =
      before ++ .closesCapture r :: after → .closesEncoder (.ok ()) ∈ before) ∧
    ∀ before after, failed .closesEncoder errors ++ .closesEncoder (.ok ()) :: rest =
      before ++ .closesEncoder (.ok ()) :: after → ∀ r, .closesEncoder r ∉ after := by
  have hfailed : ∀ e : Event C E, e = .closesEncoder (.ok ()) ∨ (∃ r, e = .closesCapture r) →
      e ∉ failed .closesEncoder errors := by
    rintro e (rfl | ⟨r, rfl⟩) <;> simp [mem_failed]
  refine ⟨fun before r after heq => ?_, fun before after heq => ?_⟩
  · exact mem_of_append_cons heq (hfailed _ (.inr ⟨r, rfl⟩)) (by simp)
  · obtain ⟨-, -, rfl⟩ := (List.append_cons_inj_of_notMem (hfailed _ (.inl rfl)) (hrest _)).mp heq
    exact hrest

theorem Pending.ordered (h : Pending capture encoder log q) (hasked : EachAsked attempts log) :
    Ordered capture encoder attempts log (.error q) := by
  cases h with
  | encoder errors lastError =>
    -- every close of the encoder failed, so the capture was not asked
    have hcapture : ∀ r : Except ProducerError Unit,
        Event.closesCapture r ∉ (failed .closesEncoder errors : List (Event C E)) := by
      simp [mem_failed]
    have hencoder : Event.closesEncoder (.ok ()) ∉
        (failed .closesEncoder errors : List (Event C E)) := by
      simp [mem_failed]
    exact {
      asked := hasked
      encoderFirst := fun before r after heq => absurd (by rw [heq]; simp) (hcapture r)
      encoderOnce := fun before after heq => absurd (by rw [heq]; simp) hencoder
      captureOnce := fun before after heq => absurd (by rw [heq]; simp) (hcapture (.ok ()))
      succeeds := ⟨(fun h => by cases h), fun h => absurd h.1 hencoder⟩
      drops := fun h => by cases h
      keeps := by
        intro q hq
        cases hq
        exact ⟨rfl, rfl, by simp [mem_failed, Event.Drops]⟩ }
  | capture errors errors' lastError =>
    -- the encoder closed, and every close of the capture failed
    obtain ⟨hfirst, honce⟩ := @encoder_closed _ _ errors
      (failed .closesCapture errors' : List (Event C E)) (by simp [mem_failed])
    have hcapture : Event.closesCapture (.ok ()) ∉ (failed .closesEncoder errors ++
        .closesEncoder (.ok ()) :: failed .closesCapture errors' : List (Event C E)) := by
      simp [mem_failed]
    exact {
      asked := hasked
      encoderFirst := hfirst
      encoderOnce := honce
      captureOnce := fun before after heq => absurd (by rw [heq]; simp) hcapture
      succeeds := ⟨(fun h => by cases h), fun h => absurd h.2 hcapture⟩
      drops := fun h => by cases h
      keeps := by
        intro q hq
        cases hq
        refine ⟨rfl, rfl, fun e he => ?_⟩
        rw [List.mem_append, List.mem_cons, mem_failed, mem_failed] at he
        rcases he with ⟨_, -, rfl⟩ | rfl | ⟨_, -, rfl⟩ <;> exact id }

theorem Finished.ordered (h : Finished capture encoder log) (hasked : EachAsked attempts log) :
    Ordered capture encoder attempts log (.ok ()) := by
  obtain ⟨errors, errors', rfl⟩ := h
  obtain ⟨hfirst, honce⟩ := @encoder_closed _ _ errors
    (failed .closesCapture errors' ++
      [.closesCapture (.ok ()), .dropsEncoder encoder, .dropsCapture capture]) (by simp [mem_failed])
  rw [← List.cons_append, ← List.append_assoc] at hfirst honce
  exact {
    asked := hasked
    encoderFirst := hfirst
    encoderOnce := honce
    captureOnce := by
      intro before after heq
      have hearlier : Event.closesCapture (.ok ()) ∉ (failed .closesEncoder errors ++
          .closesEncoder (.ok ()) :: failed .closesCapture errors' : List (Event C E)) := by
        simp [mem_failed]
      have hlater : Event.closesCapture (.ok ()) ∉
          [Event.dropsEncoder encoder, .dropsCapture capture] := by
        simp
      obtain ⟨-, -, rfl⟩ := (List.append_cons_inj_of_notMem hearlier hlater).mp heq
      simp
    succeeds := ⟨fun _ => ⟨by simp, by simp⟩, fun _ => rfl⟩
    drops := by
      intro _
      refine ⟨failed .closesEncoder errors ++ .closesEncoder (.ok ()) ::
        failed .closesCapture errors' ++ [.closesCapture (.ok ())], by simp, by simp, by simp, ?_⟩
      intro e he
      rw [List.mem_append, List.mem_append, List.mem_cons, mem_failed, mem_failed,
        List.mem_singleton] at he
      rcases he with (⟨_, -, rfl⟩ | rfl | ⟨_, -, rfl⟩) | rfl <;> exact id
    keeps := fun q hq => by cases hq }

/-- **Ordered, retryable teardown**, whatever the closes answer in the first attempt and
in any number of further ones. -/
theorem ordered_teardown (capture : C) (encoder : E) (first : Attempt) (as : List Attempt) :
    Ordered capture encoder (first :: as) (teardown capture encoder first as).1
      (teardown capture encoder first as).2 := by
  have houtcome := outcome_teardown capture encoder first as
  have hasked := teardown_asked capture encoder first as
  rcases hresult : teardown capture encoder first as with ⟨log, q | ⟨⟨⟩⟩⟩
  · rw [hresult] at houtcome hasked
    exact Pending.ordered houtcome hasked
  · rw [hresult] at houtcome hasked
    exact Finished.ordered houtcome hasked

/-- The encoder fails once, and then the capture. -/
example : (teardown 'c' 'e' ⟨.error .encoderFailed, .ok ()⟩
    [⟨.ok (), .error .captureFailed⟩, ⟨.ok (), .ok ()⟩]).1 =
      [.closesEncoder (.error .encoderFailed), .closesEncoder (.ok ()),
        .closesCapture (.error .captureFailed), .closesCapture (.ok ()),
        .dropsEncoder 'e', .dropsCapture 'c'] := rfl

end

end WindowsPublisher

end RdEngine
