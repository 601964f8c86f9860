/-
RdEngine/Viewer/ReclamationTruth.lean

`close()` tells the truth about the native decoders.

While the flag is down every decoder is settled, and it is up from before a
decoder is opened until that decoder is proved to be gone (`Truthful`).  So a
success is never reported with a decoder left.  Conversely, as long as nothing
panics, the flag stays up for no other reason than a decoder the feed has in
hand, or one that could not be destroyed (`Justified`).
-/
import RdEngine.Viewer.Reclamation

namespace RdEngine

namespace Reclamation

open OhosDecoder (DecoderConfig DecoderError Decoder DecoderStats Instance Owned)

/-! ### The decoder in hand -/

/-- The decoder the feed has in hand. -/
def Feed.current : Feed → Option Nat
  | .serving _ current | .opening _ current | .ending _ current => current
  | .closing current _ => some current
  | .unstarted | .changing _ | .finished _ | .joined => none

/-- The feed may still take the flag down. -/
def Feed.mayClear : Feed → Bool
  | .serving _ _ | .closing _ _ | .changing _ | .opening _ _ | .ending _ (some _) => true
  | .unstarted | .ending _ none | .finished _ | .joined => false

/-- The feed has a decoder in hand, or is about to. -/
def Feed.holds : Feed → Bool
  | .opening _ _ => true
  | feed => feed.current.isSome

/-- `run` waits for nobody any more. -/
def ViewerTask.isOver : ViewerTask → Bool
  | .authenticating | .joining _ _ => false
  | _ => true

/-- Not at the end. -/
def ViewerTask.isBefore : ViewerTask → Bool
  | .finished => false
  | _ => true

/-- Neither at the start nor at the end. -/
def ViewerTask.isBetween : ViewerTask → Bool
  | .authenticating | .finished => false
  | _ => true

/-! ### What a step does to the flag -/

/-- Whether this decoder's native decoder is gone is decided: it leaves the
feed's hands, and the flag with it if it is. -/
structure Concludes (i : Instance) (s : Session) (l : Label) (s' : Session) : Prop where
  mayClear : s.feed.mayClear = true
  current : s'.feed.current = none
  holds : s'.feed.holds = false
  lowered : s'.unconfirmed = false → i.Settled ∨ s.unconfirmed = false
  continues : s'.feed.mayClear = true → i.Settled
  kept : l.isPanic = false → i.decoder.worker ≠ .panicked → s'.unconfirmed = true →
    i.decoder.codec = .retained

/-- What the steps do to the flag, to the decoders and to the feed's hands. -/
inductive Effect (s : Session) (l : Label) (s' : Session) : Prop
  | decoder {index : Nat} {i i' : Instance} {label : OhosDecoder.Label}
      (hat : s.decoders[index]? = some i) (hstep : Instance.Step i label i')
      (hlabel : l = .decoder index label) (hdecoders : s'.decoders = s.decoders.set index i')
      (hflag : s'.unconfirmed = s.unconfirmed) (hfeed : s'.feed = s.feed)
  | begins (hfeed : s.feed = .unstarted) (hcurrent : s'.feed.current = none)
      (hholds : s'.feed.holds = false) (hdecoders : s'.decoders = s.decoders)
      (hflag : s'.unconfirmed = s.unconfirmed)
  | passes (hcurrent : s'.feed.current = s.feed.current) (hholds : s'.feed.holds = s.feed.holds)
      (hclear : s'.feed.mayClear = true → s.feed.mayClear = true)
      (hdecoders : s'.decoders = s.decoders) (hflag : s'.unconfirmed = s.unconfirmed)
  | raises (hfeed : l.isPanic = false → s'.feed.holds = true)
      (hcurrent : s'.feed.current = s.feed.current)
      (hclear : s'.feed.mayClear = true → s.feed.mayClear = true)
      (hdecoders : s'.decoders = s.decoders) (hflag : s'.unconfirmed = true)
  | loses (hpanic : l.isPanic = true) (hholds : s'.feed.holds = false)
      (hclear : s'.feed.mayClear = false)
      (hdecoders : s'.decoders = s.decoders) (hflag : s'.unconfirmed = s.unconfirmed)
  | refuses (hclear : s.feed.mayClear = true) (hcurrent : s.feed.current = none)
      (hholds : s'.feed.holds = false) (hdecoders : s'.decoders = s.decoders)
      (hclear' : s'.feed.mayClear = false) (hflag : s'.unconfirmed = false)
  | spawns {i : Instance} (howned : Owned i) (hworker : i.decoder.worker ≠ .panicked)
      (hclear : s.feed.mayClear = true)
      (hcurrent : s.feed.current = none) (hholds : s.feed.holds = true)
      (hcurrent' : s'.feed.current = some s.decoders.length) (hholds' : s'.feed.holds = true)
      (hdecoders : s'.decoders = s.decoders ++ [i]) (hflag : s'.unconfirmed = s.unconfirmed)
  | concludes {current : Nat} {i : Instance} (hcurrent : s.feed.current = some current)
      (hat : s.decoders[current]? = some i) (hdecoders : s'.decoders = s.decoders)
      (hconcludes : Concludes i s l s')

/-- The two errors after which the flag stays. -/
theorem unprovenAfter_eq (unconfirmed : Bool) (error : DecoderError) :
    (error.Plain → unprovenAfter unconfirmed error = false)
      ∧ (¬ error.Plain → unprovenAfter unconfirmed error = unconfirmed) := by
  cases error with
  | destroyFailed code => exact ⟨False.elim, fun _ => rfl⟩
  | workerPanicked => exact ⟨False.elim, fun _ => rfl⟩
  | _ => exact ⟨fun _ => rfl, fun h => absurd trivial h⟩

theorem open_fails_plain {platform : Platform} {config : DecoderConfig} :
    OhosDecoder.FailsPlain (SurfaceDecoder.open platform config) := by
  have hstart : OhosDecoder.FailsPlain (Decoder.start config) := by
    intro error h
    unfold Decoder.start OhosDecoder.Shared.new at h
    split at h
    · cases h
      trivial
    · cases h
  have hreserve : OhosDecoder.FailsPlain platform.budget.reserve := by
    intro error h
    unfold OwnerBudget.reserve at h
    split at h
    · cases h
      trivial
    split at h
    · cases h
      trivial
    · cases h
  unfold SurfaceDecoder.open
  refine OhosDecoder.guard_plain trivial (OhosDecoder.guard_plain trivial ?_)
  refine OhosDecoder.bind_plain hstart fun _ => OhosDecoder.bind_plain hreserve fun _ => ?_
  exact OhosDecoder.guard_plain trivial (OhosDecoder.ok_plain _)

theorem open_starts {platform : Platform} {config : DecoderConfig} {decoder : Decoder}
    (h : SurfaceDecoder.open platform config = .ok decoder) :
    Decoder.start config = .ok decoder := by
  unfold SurfaceDecoder.open at h
  cases hsupported : platform.supported <;> rw [hsupported] at h
  · cases h
  by_cases hsurface : platform.surfaceId = 0
  · rw [hsurface] at h
    cases h
  cases hstart : Decoder.start config with
  | error error =>
    simp only [hstart, hsurface] at h
    cases h
  | ok started =>
    cases hreserve : platform.budget.reserve with
    | error error =>
      simp only [hstart, hsurface, hreserve] at h
      cases h
    | ok budget =>
      cases hspawned : platform.spawned with
      | false =>
        simp only [hstart, hsurface, hreserve, hspawned] at h
        cases h
      | true =>
        simp only [hstart, hsurface, hreserve, hspawned] at h
        cases h
        rfl

theorem start_worker {config : DecoderConfig} {decoder : Decoder}
    (h : Decoder.start config = .ok decoder) : decoder.worker = .starting := by
  unfold Decoder.start OhosDecoder.Shared.new at h
  split at h
  · cases h
  · cases h
    rfl

/-- `close` says of a decoder that it is gone. -/
theorem reclaimed_settled {i : Instance} (hi : Owned i)
    (h : reclaimed i.decoder.shared.stats = true) : i.Settled := by
  unfold reclaimed at h
  rw [Bool.and_eq_true, Bool.not_eq_true'] at h
  exact hi.settled_of_stats h.1 h.2

theorem openFailure_eq {worker : OhosDecoder.Worker} {error : DecoderError}
    (h : openFailure worker = some error) :
    worker = .ended (.error error) ∨ worker = .panicked ∧ error = .workerPanicked := by
  unfold openFailure at h
  split at h
  · cases h
    exact .inl rfl
  · cases h
    exact .inr ⟨rfl, rfl⟩
  · cases h

theorem closeResult_eq {worker : OhosDecoder.Worker} {result : Except ViewerError Unit}
    (h : closeResult worker = some result) (hpanicked : worker ≠ .panicked) :
    ∃ ended, worker = .ended ended ∧ (result = .ok () → ∃ stats, ended = .ok stats) := by
  unfold closeResult at h
  split at h
  · cases h
    exact ⟨_, rfl, fun _ => ⟨_, rfl⟩⟩
  · cases h
    refine ⟨_, rfl, fun hok => ?_⟩
    cases hok
  · exact absurd rfl hpanicked
  · cases h

theorem openFails_concludes {s : Session} {l : Label} {contract : Contract} {current : Nat}
    {i : Instance} {error : DecoderError} (hi : Owned i)
    (hfeed : s.feed = .opening contract (some current)) (hstarted : i.started = false)
    (hworker : openFailure i.decoder.worker = some error) :
    Concludes i s l
      { s with
        unconfirmed := unprovenAfter s.unconfirmed error
        feed := .ending (.error (.decoder error)) none } := by
  obtain ⟨hlowered, hstays⟩ := unprovenAfter_eq s.unconfirmed error
  refine ⟨by rw [hfeed]; rfl, rfl, rfl, fun hflag => ?_, Bool.noConfusion, fun _ hw hflag => ?_⟩
  · by_cases hplain : error.Plain
    · rcases openFailure_eq hworker with hw | ⟨-, rfl⟩
      · exact .inl ((hi.settled_of_open hstarted hw).1 hplain)
      · exact hplain.elim
    · exact .inr ((hstays hplain).symm.trans hflag)
  · rcases openFailure_eq hworker with hended | ⟨hpanicked, -⟩
    · refine (hi.settled_of_open hstarted hended).2 fun hplain => ?_
      exact Bool.noConfusion ((hlowered hplain).symm.trans hflag)
    · exact absurd hpanicked hw

theorem After.feed_current (after : After) (result : Except ViewerError Unit) :
    (after.feed result).current = none ∧ (after.feed result).holds = false := by
  cases after <;> cases result <;> exact ⟨rfl, rfl⟩

/-- The loop goes on only after a clean close. -/
theorem After.feed_continues {after : After} {result : Except ViewerError Unit}
    (h : (after.feed result).mayClear = true) : result = .ok () := by
  cases after <;> cases result <;> first | rfl | cases h

/-- `close_decoder` is over. -/
theorem closed_concludes {s : Session} {l : Label} {current : Nat} {after : After} {i : Instance}
    {result : Except ViewerError Unit} (hi : Owned i)
    (hfeed : s.feed = .closing current after)
    (hworker : closeResult i.decoder.worker = some result
      ∨ l.isPanic = true ∧ result = .error .taskFailed) :
    Concludes i s l
      { s with
        unconfirmed := s.unconfirmed && !reclaimed i.decoder.shared.stats
        feed := after.feed result } := by
  obtain ⟨hcurrent, hholds⟩ := after.feed_current result
  refine ⟨by rw [hfeed]; rfl, hcurrent, hholds, fun hflag => ?_, fun h => ?_, fun hl hw hflag => ?_⟩
  · rw [Bool.and_eq_false_iff, Bool.not_eq_false'] at hflag
    rcases hflag with hflag | hreclaimed
    · exact .inr hflag
    · exact .inl (reclaimed_settled hi hreclaimed)
  · obtain rfl := After.feed_continues h
    rcases hworker with hworker | ⟨-, hresult⟩
    · have hpanicked : i.decoder.worker ≠ .panicked := by
        intro hw
        rw [hw] at hworker
        cases hworker
      obtain ⟨ended, hended, hok⟩ := closeResult_eq hworker hpanicked
      obtain ⟨stats, rfl⟩ := hok rfl
      exact hi.settled_of_ok hended
    · cases hresult
  · rcases hworker with hworker | ⟨hpanic, -⟩
    · obtain ⟨ended, hended, -⟩ := closeResult_eq hworker hw
      refine hi.retained_of_stats hended fun ⟨hclosed, hquarantined⟩ => ?_
      unfold reclaimed at hflag
      rw [hclosed, hquarantined] at hflag
      simp at hflag
    · rw [hl] at hpanic
      cases hpanic

theorem Effect.feed {s : Session} {l : Label} {f f' : Feed} {cancelled : Bool} (hfeed : s.feed = f)
    (hcurrent : f'.current = f.current) (hholds : f'.holds = f.holds)
    (hclear : f'.mayClear = true → f.mayClear = true) :
    Effect s l { s with cancelled, feed := f' } :=
  .passes (hfeed ▸ hcurrent) (hfeed ▸ hholds) (hfeed ▸ hclear) rfl rfl

theorem Effect.returns {s : Session} {l : Label} {contract : Option Contract}
    {current : Option Nat} {result : Except ViewerError Unit}
    (hfeed : s.feed = .serving contract current) :
    Effect s l { s with feed := .ending result current } :=
  .feed hfeed rfl (by cases current <;> rfl) (fun _ => rfl)

theorem step_effect {s s' : Session} {l : Label} (howned : ∀ i ∈ s.decoders, Owned i)
    (hunstarted : s.run = .authenticating → s.feed = .unstarted)
    (h : Session.Step s l s') : Effect s l s' := by
  have hat_owned : ∀ {k i}, s.decoders[k]? = some i → Owned i :=
    fun h => howned _ (List.mem_of_getElem? h)
  cases h with
  -- of the session only the feed and its decoders matter here
  | decoder hat hstep => exact .decoder hat hstep rfl rfl rfl rfl
  | cancels => exact .passes rfl rfl id rfl rfl
  | authenticationEnds => exact .passes rfl rfl id rfl rfl
  | serves hrun => exact .begins (hunstarted hrun) rfl rfl rfl rfl
  | joinsOther => exact .passes rfl rfl id rfl rfl
  | otherPanics => exact .passes rfl rfl id rfl rfl
  | joinsFeed _ hfeed => exact .passes (by rw [hfeed]; rfl) (by rw [hfeed]; rfl) Bool.noConfusion rfl rfl
  | returns => exact .passes rfl rfl id rfl rfl
  | releases => exact .passes rfl rfl id rfl rfl
  | releasePanics => exact .raises Bool.noConfusion rfl id rfl rfl
  | finishes => exact .passes rfl rfl id rfl rfl
  | closeReturns => exact .passes rfl rfl id rfl rfl
  | feedCancelled hfeed => exact .returns hfeed
  | feedStopped hfeed => exact .returns hfeed
  | queueEnds hfeed => exact .returns hfeed
  | submits => exact .passes rfl rfl id rfl rfl
  | overflows hfeed => exact .returns hfeed
  | rejected hfeed => exact .returns hfeed
  | noDecoder hfeed => exact .returns hfeed
  | closes hfeed => exact .feed hfeed rfl rfl (fun _ => rfl)
  | changes hfeed => exact .feed hfeed rfl rfl (fun _ => rfl)
  | changeCancelled hfeed => exact .feed hfeed rfl rfl (fun _ => rfl)
  | opens hfeed =>
    exact .raises (fun _ => rfl) (by rw [hfeed]; rfl) (by rw [hfeed]; exact fun _ => rfl) rfl rfl
  -- refused before a codec was created, which is a plain failure
  | refuses hfeed hopen =>
    have hplain := open_fails_plain _ hopen
    refine .refuses (by rw [hfeed]; rfl) (by rw [hfeed]; rfl) rfl rfl rfl ?_
    exact (unprovenAfter_eq _ _).1 hplain
  | spawns hfeed hopen =>
    -- the worker of the new decoder has only been started
    have hstart := open_starts hopen
    refine .spawns (OhosDecoder.start_owned hstart) ?_ (by rw [hfeed]; rfl) (by rw [hfeed]; rfl)
      (by rw [hfeed]; rfl) rfl rfl rfl rfl
    show _ ≠ OhosDecoder.Worker.panicked
    rw [start_worker hstart]
    exact OhosDecoder.Worker.noConfusion
  | opened hfeed => exact .feed hfeed rfl rfl (fun _ => rfl)
  | openFails hfeed hat hstarted hworker =>
    exact .concludes (by rw [hfeed]; rfl) hat rfl
      (openFails_concludes (hat_owned hat) hfeed hstarted hworker)
  | openPanics hfeed => exact .loses rfl rfl rfl rfl rfl
  | closed hfeed hat hworker =>
    exact .concludes (by rw [hfeed]; rfl) hat rfl
      (closed_concludes (hat_owned hat) hfeed (.inl hworker))
  | closePanics hfeed hat =>
    exact .concludes (by rw [hfeed]; rfl) hat rfl
      (closed_concludes (hat_owned hat) hfeed (.inr ⟨rfl, rfl⟩))
  | feedCloses hfeed => exact .feed hfeed rfl rfl (fun _ => rfl)
  | feedReturns hfeed => exact .feed hfeed rfl rfl Bool.noConfusion
  | feedPanics => exact .loses rfl rfl rfl rfl rfl

/-! ### The stages of a viewer -/

/-- The feed task has begun, and was not joined yet. -/
def Feed.isActive : Feed → Bool
  | .unstarted | .joined => false
  | _ => true

/-- The feed runs while the viewer joins its tasks, and the flag is read after. -/
structure Staged (s : Session) : Prop where
  unstarted : s.run = .authenticating → s.feed = .unstarted
  finished : s.run.isOver = true → s.feed.isActive = false
  ended : s.run = .finished → s.ending.isSome = true
  ending : ∀ ending, s.ending = some ending → s.run = .finished ∧
    (ending.result = .ok () ↔ s.unconfirmed = false)

theorem start_staged : Staged .start where
  unstarted := fun _ => rfl
  finished := fun _ => rfl
  ended := by
    intro h
    cases h
  ending := by
    intro _ h
    cases h

theorem active_of_holds {feed : Feed} (h : feed.holds = true) : feed.isActive = true := by
  cases feed <;> first | rfl | cases h

/-- While the feed is active the viewer's own task only waits. -/
theorem Staged.feed {s s' : Session} (hs : Staged s) (hactive : s.feed.isActive = true)
    (hrun : s'.run = s.run) (hending : s'.ending = s.ending) : Staged s' := by
  have hstage : s.run.isOver = true → False := by
    intro h
    rw [hs.finished h] at hactive
    cases hactive
  refine ⟨fun h => ?_, fun h => ?_, fun h => ?_, fun ending h => ?_⟩
  · rw [hs.unstarted (hrun ▸ h)] at hactive
    cases hactive
  · exact (hstage (hrun ▸ h)).elim
  · refine (hstage ?_).elim
    rw [← hrun, h]
    rfl
  · rw [hending] at h
    have hover : s.run.isOver = true := by
      rw [(hs.ending ending h).1]
      rfl
    exact (hstage hover).elim

/-- Before the end nothing is reported. -/
theorem Staged.unended {s : Session} (hs : Staged s) (hrun : s.run ≠ .finished) :
    s.ending = none := by
  cases hending : s.ending with
  | none => rfl
  | some ending => exact absurd (hs.ending ending hending).1 hrun

theorem finish_result (unconfirmed : Bool) (result : Except ViewerError Unit) :
    (finish unconfirmed result).result = .ok () ↔ unconfirmed = false := by
  cases unconfirmed with
  | false => exact ⟨fun _ => rfl, fun _ => rfl⟩
  | true =>
    constructor
    · intro h
      cases h
    · intro h
      cases h

theorem staged_step {s s' : Session} {l : Label} (hs : Staged s) (h : Session.Step s l s') :
    Staged s' := by
  -- a step of the viewer's own task, before its end
  have hbefore : ∀ {run feed unconfirmed}, s.run.isBefore = true → run.isBetween = true →
      (run.isOver = true → feed.isActive = false) →
      Staged { s with run, feed, unconfirmed } := by
    intro run feed unconfirmed hrun hnext hover
    have hunfinished : s.run ≠ .finished := by
      intro h
      rw [h] at hrun
      cases hrun
    have hnone : s.ending = none := hs.unended hunfinished
    refine ⟨fun h => ?_, hover, fun h => ?_, fun ending h => ?_⟩
    · obtain rfl : run = .authenticating := h
      cases hnext
    · obtain rfl : run = .finished := h
      cases hnext
    · rw [hnone] at h
      cases h
  cases h with
  | decoder => exact ⟨hs.unstarted, hs.finished, hs.ended, hs.ending⟩
  | cancels => exact ⟨hs.unstarted, hs.finished, hs.ended, hs.ending⟩
  | authenticationEnds hrun =>
    refine hbefore (by rw [hrun]; rfl) rfl fun _ => ?_
    rw [hs.unstarted hrun]
    rfl
  | serves hrun =>
    exact hbefore (by rw [hrun]; rfl) rfl Bool.noConfusion
  | joinsOther hrun =>
    exact hbefore (by rw [hrun]; rfl) rfl Bool.noConfusion
  | otherPanics hrun =>
    exact hbefore (by rw [hrun]; rfl) rfl Bool.noConfusion
  | joinsFeed hrun hfeed =>
    exact hbefore (by rw [hrun]; rfl) rfl Bool.noConfusion
  | returns hrun hfeed =>
    refine hbefore (by rw [hrun]; rfl) rfl fun _ => ?_
    rw [hfeed]
    rfl
  | releases hrun =>
    exact hbefore (by rw [hrun]; rfl) rfl fun _ => hs.finished (by rw [hrun]; rfl)
  | releasePanics hrun =>
    exact hbefore (by rw [hrun]; rfl) rfl fun _ => hs.finished (by rw [hrun]; rfl)
  | finishes hrun =>
    refine ⟨ViewerTask.noConfusion, fun _ => hs.finished (by rw [hrun]; rfl), fun _ => rfl,
      fun ending h => ?_⟩
    cases h
    exact ⟨rfl, finish_result _ _⟩
  | closeReturns => exact hs
  | submits => exact hs
  | feedPanics hrunning =>
    refine hs.feed ?_ rfl rfl
    cases hf : s.feed <;> rw [hf] at hrunning <;> first | rfl | cases hrunning
  | _ => exact hs.feed (by rw [‹s.feed = _›]; rfl) rfl rfl

theorem holds_of_current {feed : Feed} {current : Nat} (h : feed.current = some current) :
    feed.holds = true := by
  cases feed with
  | opening => rfl
  | _ => simp only [Feed.holds, h, Option.isSome_some]

/-! ### The flag is truthful -/

/-- With the flag down nothing is left; it is taken down for the decoder in
hand, when all others are settled. -/
structure Truthful (s : Session) : Prop where
  owned : ∀ i ∈ s.decoders, Owned i
  settled : s.unconfirmed = false → ∀ i ∈ s.decoders, i.Settled
  others : s.feed.mayClear = true →
    ∀ k i, s.decoders[k]? = some i → s.feed.current ≠ some k → i.Settled
  holds : s.feed.holds = true → s.unconfirmed = true
  unstarted : s.feed = .unstarted → s.decoders = []

theorem start_truthful : Truthful .start where
  owned := by
    intro i hi
    cases hi
  settled := by
    intro _ i hi
    cases hi
  others := by
    intro h
    cases h
  holds := by
    intro h
    cases h
  unstarted := fun _ => rfl

/-- With no decoder in hand all of them are settled. -/
theorem Truthful.all_settled {s : Session} (hs : Truthful s) (hclear : s.feed.mayClear = true)
    (hcurrent : s.feed.current = none) : ∀ i ∈ s.decoders, i.Settled := by
  intro i hi
  obtain ⟨k, hk⟩ := List.getElem?_of_mem hi
  refine hs.others hclear k i hk ?_
  rw [hcurrent]
  simp

/-- No step leads back to the start of the feed. -/
theorem unstarted_step {s s' : Session} {l : Label} (h : Session.Step s l s')
    (hfeed : s'.feed = .unstarted) : s.feed = .unstarted := by
  have hafter : ∀ (after : After) result, after.feed result ≠ .unstarted := by
    intro after result
    cases after <;> cases result <;> exact Feed.noConfusion
  cases h <;> first | exact hfeed | cases hfeed | exact absurd hfeed (hafter _ _)

/-- The decoders stay, and so does what is settled of them. -/
theorem Truthful.same {s s' : Session} (hs : Truthful s) (hdecoders : s'.decoders = s.decoders)
    (hsettled : s'.unconfirmed = false → ∀ i ∈ s.decoders, i.Settled)
    (hothers : s'.feed.mayClear = true →
      ∀ k i, s.decoders[k]? = some i → s'.feed.current ≠ some k → i.Settled)
    (hholds : s'.feed.holds = true → s'.unconfirmed = true)
    (hfeed : s'.feed = .unstarted → s.feed = .unstarted) : Truthful s' where
  owned := hdecoders ▸ hs.owned
  settled := hdecoders ▸ hsettled
  others := hdecoders ▸ hothers
  holds := hholds
  unstarted h := hdecoders ▸ hs.unstarted (hfeed h)

theorem Truthful.decoder {s s' : Session} (hs : Truthful s) {index : Nat} {i i' : Instance}
    {label : OhosDecoder.Label} (hat : s.decoders[index]? = some i)
    (hstep : Instance.Step i label i') (hdecoders : s'.decoders = s.decoders.set index i')
    (hflag : s'.unconfirmed = s.unconfirmed) (hsame : s'.feed = s.feed) : Truthful s' := by
  have hmem : i ∈ s.decoders := List.mem_of_getElem? hat
  have hset : ∀ j ∈ s'.decoders, j ∈ s.decoders ∨ j = i' := by
    intro j hj
    rw [hdecoders] at hj
    exact List.mem_or_eq_of_mem_set hj
  refine ⟨fun j hj => ?_, fun h j hj => ?_, fun h k j hk hcurrent => ?_, ?_, fun h => ?_⟩
  · rcases hset j hj with hj | rfl
    · exact hs.owned j hj
    · exact OhosDecoder.owned_step (hs.owned i hmem) hstep
  · rw [hflag] at h
    rcases hset j hj with hj | rfl
    · exact hs.settled h j hj
    · exact OhosDecoder.settled_step (hs.settled h i hmem) hstep
  · rw [hsame] at h hcurrent
    rw [hdecoders, List.getElem?_set] at hk
    split at hk
    · rename_i hindex
      subst hindex
      split at hk
      · cases hk
        exact OhosDecoder.settled_step (hs.others h index i hat hcurrent) hstep
      · cases hk
    · exact hs.others h k j hk hcurrent
  · rw [hsame, hflag]
    exact hs.holds
  · rw [hsame] at h
    rw [hs.unstarted h] at hmem
    cases hmem

theorem truthful_step {s s' : Session} {l : Label} (hs : Truthful s) (h : Effect s l s')
    (hfeed : s'.feed = .unstarted → s.feed = .unstarted) : Truthful s' := by
  cases h with
  | decoder hat hstep _ hdecoders hflag hsame => exact hs.decoder hat hstep hdecoders hflag hsame
  | begins hbegin hcurrent hholds hdecoders hflag =>
    -- a loop begins with no decoder at all
    have hnone : s.decoders = [] := hs.unstarted hbegin
    refine hs.same hdecoders (hflag ▸ hs.settled) (fun _ k i hk => ?_) (fun h => ?_) hfeed
    · rw [hnone] at hk
      cases hk
    · rw [hholds] at h
      cases h
  | passes hcurrent hholds hclear hdecoders hflag =>
    refine hs.same hdecoders (hflag ▸ hs.settled) (fun h => ?_) ?_ hfeed
    · rw [hcurrent]
      exact hs.others (hclear h)
    · rw [hholds, hflag]
      exact hs.holds
  | raises _ hcurrent hclear hdecoders hflag =>
    -- the flag goes up, which promises nothing
    refine hs.same hdecoders (fun h => ?_) (fun h => ?_) (fun _ => hflag) hfeed
    · rw [hflag] at h
      cases h
    · rw [hcurrent]
      exact hs.others (hclear h)
  | loses _ hholds hclear hdecoders hflag =>
    refine hs.same hdecoders (hflag ▸ hs.settled) (fun h => ?_) (fun h => ?_) hfeed
    · rw [hclear] at h
      cases h
    · rw [hholds] at h
      cases h
  | refuses hclear hcurrent hholds hdecoders hclear' hflag =>
    -- none is current, so every decoder before it is settled
    refine hs.same hdecoders (fun _ => hs.all_settled hclear hcurrent) (fun h => ?_) (fun h => ?_)
      hfeed
    · rw [hclear'] at h
      cases h
    · rw [hholds] at h
      cases h
  | @spawns i howned _ hclear hcurrent hholds hcurrent' hholds' hdecoders hflag =>
    -- the new decoder is the current one, and the flag is up for it
    have hup : s'.unconfirmed = true := hflag.trans (hs.holds hholds)
    have hall := hs.all_settled hclear hcurrent
    refine ⟨fun j hj => ?_, fun h => ?_, fun _ k j hk hother => ?_, fun _ => hup, fun h => ?_⟩
    · rw [hdecoders, List.mem_append, List.mem_singleton] at hj
      rcases hj with hj | rfl
      · exact hs.owned j hj
      · exact howned
    · rw [hup] at h
      cases h
    · rw [hcurrent'] at hother
      rw [hdecoders, List.getElem?_append] at hk
      split at hk
      · exact hall j (List.mem_of_getElem? hk)
      · have hlength : k - s.decoders.length = 0 := by
          rw [List.getElem?_singleton] at hk
          split at hk
          · assumption
          · cases hk
        exact absurd (by congr 1; omega) hother
    · rw [h] at hholds'
      cases hholds'
  | @concludes current i hcurrent hat hdecoders hconcludes =>
    -- the flag comes down when the decoder is settled, as all before it are
    obtain ⟨hclear, hcurrent', hholds', hlowered, hcontinues, -⟩ := hconcludes
    have hup : s.unconfirmed = true := hs.holds (holds_of_current hcurrent)
    have hall : i.Settled → ∀ j ∈ s.decoders, j.Settled := by
      intro hi j hj
      obtain ⟨k, hk⟩ := List.getElem?_of_mem hj
      by_cases hk' : s.feed.current = some k
      · rw [hcurrent] at hk'
        cases hk'
        rw [hat] at hk
        cases hk
        exact hi
      · exact hs.others hclear k j hk hk'
    refine hs.same hdecoders (fun h => ?_) (fun h k j hk _ => ?_) (fun h => ?_) hfeed
    · rcases hlowered h with hi | hdown
      · exact hall hi
      · rw [hup] at hdown
        cases hdown
    · exact hall (hcontinues h) j (List.mem_of_getElem? hk)
    · rw [hholds'] at h
      cases h

/-! ### The flag is justified -/

/-- As long as nothing panics the flag is up only for the decoder in hand, or
for one that could not be destroyed. -/
structure Justified (s : Session) : Prop where
  owned : ∀ i ∈ s.decoders, Owned i
  running : ∀ i ∈ s.decoders, i.decoder.worker ≠ .panicked
  justified : s.unconfirmed = true →
    s.feed.holds = true ∨ ∃ i ∈ s.decoders, i.decoder.codec = .retained

theorem start_justified : Justified .start where
  owned := start_truthful.owned
  running := by
    intro i hi
    cases hi
  justified := by
    intro h
    cases h

/-- Only a panic leads to `panicked`. -/
theorem panicked_step {i i' : Instance} {l : OhosDecoder.Label} (h : Instance.Step i l i')
    (hl : l ≠ .panics) (hi : i.decoder.worker ≠ .panicked) : i'.decoder.worker ≠ .panicked := by
  obtain ⟨hstep, -⟩ := h
  cases hstep with
  | submit => exact hi
  | post => exact hi
  | fail => exact hi
  | requestClose => exact hi
  | panics => exact absurd rfl hl
  | panicsLate => exact absurd rfl hl
  | @next _ action =>
    show OhosDecoder.Worker.take action ≠ _
    cases action <;> exact OhosDecoder.Worker.noConfusion
  | @submitted _ _ code =>
    show OhosDecoder.Worker.after _ ≠ _
    cases OhosDecoder.check "OH_VideoDecoder_PushInputBuffer" code <;>
      exact OhosDecoder.Worker.noConfusion
  | _ => exact OhosDecoder.Worker.noConfusion

theorem Justified.same {s s' : Session} (hs : Justified s) (hdecoders : s'.decoders = s.decoders)
    (hjustified : s'.unconfirmed = true →
      s'.feed.holds = true ∨ ∃ i ∈ s.decoders, i.decoder.codec = .retained) : Justified s' where
  owned := hdecoders ▸ hs.owned
  running := hdecoders ▸ hs.running
  justified := hdecoders ▸ hjustified

theorem justified_step {s s' : Session} {l : Label} (hs : Justified s) (h : Effect s l s')
    (hquiet : l.isPanic = false) : Justified s' := by
  cases h with
  | @decoder index i i' label hat hstep hlabel hdecoders hflag hsame =>
    -- a retained codec stays retained
    have hmem : i ∈ s.decoders := List.mem_of_getElem? hat
    have hlabel' : label ≠ .panics := by
      rintro rfl
      rw [hlabel] at hquiet
      cases hquiet
    have hset : ∀ j ∈ s'.decoders, j ∈ s.decoders ∨ j = i' := by
      intro j hj
      rw [hdecoders] at hj
      exact List.mem_or_eq_of_mem_set hj
    refine ⟨fun j hj => ?_, fun j hj => ?_, fun h => ?_⟩
    · rcases hset j hj with hj | rfl
      · exact hs.owned j hj
      · exact OhosDecoder.owned_step (hs.owned i hmem) hstep
    · rcases hset j hj with hj | rfl
      · exact hs.running j hj
      · exact panicked_step hstep hlabel' (hs.running i hmem)
    · rw [hflag] at h
      rw [hsame]
      refine (hs.justified h).imp_right ?_
      rintro ⟨j, hj, hretained⟩
      obtain ⟨k, hk⟩ := List.getElem?_of_mem hj
      by_cases hindex : index = k
      · subst hindex
        rw [hat] at hk
        cases hk
        refine ⟨i', ?_, OhosDecoder.retained_step (hs.owned i hmem) hstep hretained⟩
        rw [hdecoders]
        exact List.mem_set (List.getElem?_eq_some_iff.mp hat).1 i'
      · refine ⟨j, ?_, hretained⟩
        rw [hdecoders]
        exact List.mem_of_getElem? ((List.getElem?_set_ne hindex).trans hk)
  | begins hbegin hcurrent hholds hdecoders hflag =>
    refine hs.same hdecoders fun h => .inr ?_
    rw [hflag] at h
    refine (hs.justified h).resolve_left fun hholds => ?_
    rw [hbegin] at hholds
    cases hholds
  | passes hcurrent hholds hclear hdecoders hflag =>
    refine hs.same hdecoders ?_
    rw [hflag, hholds]
    exact hs.justified
  | raises hfeed hcurrent hclear hdecoders hflag =>
    exact hs.same hdecoders fun _ => .inl (hfeed hquiet)
  | loses hpanic =>
    -- a task is lost by a panic alone
    rw [hquiet] at hpanic
    cases hpanic
  | refuses hclear hcurrent hholds hdecoders hclear' hflag =>
    refine hs.same hdecoders fun h => ?_
    rw [hflag] at h
    cases h
  | spawns howned hworker hclear hcurrent hholds hcurrent' hholds' hdecoders hflag =>
    -- the feed holds the new decoder, which justifies the flag
    refine ⟨fun j hj => ?_, fun j hj => ?_, fun _ => .inl hholds'⟩
    · rw [hdecoders, List.mem_append, List.mem_singleton] at hj
      rcases hj with hj | rfl
      · exact hs.owned j hj
      · exact howned
    · rw [hdecoders, List.mem_append, List.mem_singleton] at hj
      rcases hj with hj | rfl
      · exact hs.running j hj
      · exact hworker
  | @concludes current i hcurrent hat hdecoders hconcludes =>
    -- a flag that stays up names the decoder that was not reclaimed
    have hmem : i ∈ s.decoders := List.mem_of_getElem? hat
    refine hs.same hdecoders fun h => .inr ⟨i, hmem, ?_⟩
    exact hconcludes.kept hquiet (hs.running i hmem) h

/-! ### Runs -/

theorem truthful_run {s : Session} {ls : List Label} (hrun : Lts.Run Session.Step .start ls s) :
    Staged s ∧ Truthful s := by
  have hstep : ∀ s l s', Staged s ∧ Truthful s → Session.Step s l s' →
      Staged s' ∧ Truthful s' := by
    rintro s l s' ⟨hstaged, htruthful⟩ h
    have heffect := step_effect htruthful.owned hstaged.unstarted h
    exact ⟨staged_step hstaged h, truthful_step htruthful heffect (unstarted_step h)⟩
  exact hrun.invariant hstep ⟨start_staged, start_truthful⟩

theorem justified_run {s : Session} {ls : List Label} (hrun : Lts.Run Session.Step .start ls s)
    (hquiet : ∀ l ∈ ls, l.isPanic = false) : Staged s ∧ Justified s := by
  have hstep : ∀ s l s', Staged s ∧ Justified s → l.isPanic = false → Session.Step s l s' →
      Staged s' ∧ Justified s' := by
    rintro s l s' ⟨hstaged, hjustified⟩ hl h
    have heffect := step_effect hjustified.owned hstaged.unstarted h
    exact ⟨staged_step hstaged h, justified_step hjustified heffect hl⟩
  exact hrun.keeps hstep hquiet ⟨start_staged, start_justified⟩

/-- What `finish` has stored is not changed any more. -/
theorem ending_step {s s' : Session} {l : Label} {ending : Ending} (hs : Staged s)
    (h : Session.Step s l s') (hending : s.ending = some ending) : s'.ending = some ending := by
  cases h with
  | finishes hrun =>
    rw [(hs.ending ending hending).1] at hrun
    cases hrun
  | _ => exact hending

/-- Whatever `close()` reports is the stored result. -/
theorem closeReturns_run {s : Session} {ls : List Label}
    (hrun : Lts.Run Session.Step .start ls s) {result : Except ViewerError Unit}
    (hclose : .closeReturns result ∈ ls) :
    ∃ ending, s.ending = some ending ∧ ending.result = result := by
  have hstep : ∀ as s l s',
      (Staged s ∧ ∀ result, .closeReturns result ∈ as →
        ∃ ending, s.ending = some ending ∧ ending.result = result) → Session.Step s l s' →
      Staged s' ∧ ∀ result, .closeReturns result ∈ as ++ [l] →
        ∃ ending, s'.ending = some ending ∧ ending.result = result := by
    rintro as s l s' ⟨hstaged, hreported⟩ h
    refine ⟨staged_step hstaged h, fun result hmem => ?_⟩
    rw [List.mem_append, List.mem_singleton] at hmem
    rcases hmem with hmem | rfl
    · obtain ⟨ending, hending, hresult⟩ := hreported result hmem
      exact ⟨ending, ending_step hstaged h hending, hresult⟩
    · cases h with
      | closeReturns hending => exact ⟨_, hending, rfl⟩
  have hstart : Staged Session.start ∧ ∀ result, Label.closeReturns result ∈ [] →
      ∃ ending, Session.start.ending = some ending ∧ ending.result = result := by
    refine ⟨start_staged, fun result h => ?_⟩
    cases h
  exact (Lts.Run.history (P := fun as s => Staged s ∧ ∀ result, Label.closeReturns result ∈ as →
    ∃ ending, s.ending = some ending ∧ ending.result = result) hstep hrun hstart).2 result hclose

/-- **`close()` tells the truth about the native decoders.**  Once it has
reported success, no native decoder that was ever created is left, nor will one
be.  And if no task has panicked and every decoder that was created is
destroyed, it reports nothing but success, whatever the session ended with. -/
theorem reclamation_truthful {s : Session} {ls : List Label}
    (hrun : Lts.Run Session.Step .start ls s) :
    (.closeReturns (.ok ()) ∈ ls → ∀ i ∈ s.decoders, i.Settled) ∧
      ((∀ l ∈ ls, l.isPanic = false) → (∀ i ∈ s.decoders, i.decoder.codec.Confirmed) →
        (∀ result, .closeReturns result ∈ ls → result = .ok ()) ∧
          (s.run = .finished → Session.Step s (.closeReturns (.ok ())) s)) := by
  obtain ⟨hstaged, htruthful⟩ := truthful_run hrun
  refine ⟨fun hclose => ?_, fun hquiet hconfirmed => ?_⟩
  · obtain ⟨ending, hending, hresult⟩ := closeReturns_run hrun hclose
    exact htruthful.settled ((hstaged.ending ending hending).2.mp hresult)
  · have hok : ∀ ending, s.ending = some ending → ending.result = .ok () := by
      intro ending hending
      obtain ⟨hfinished, hresult⟩ := hstaged.ending ending hending
      refine hresult.mpr (Bool.eq_false_of_not_eq_true fun hup => ?_)
      rcases (justified_run hrun hquiet).2.justified hup with hholds | ⟨i, hi, hretained⟩
      · have hover : s.feed.isActive = false := hstaged.finished (by rw [hfinished]; rfl)
        rw [active_of_holds hholds] at hover
        cases hover
      · rcases hconfirmed i hi with h | h <;> rw [hretained] at h <;> cases h
    refine ⟨fun result hclose => ?_, fun hfinished => ?_⟩
    · obtain ⟨ending, hending, rfl⟩ := closeReturns_run hrun hclose
      exact hok ending hending
    · obtain ⟨ending, hending⟩ := Option.isSome_iff_exists.mp (hstaged.ended hfinished)
      rw [← hok ending hending]
      exact .closeReturns hending

/-- A step of a decoder that is none of its callbacks'. -/
theorem worker_step {s : Session} {index : Nat} {i : Instance} {l : OhosDecoder.Label}
    {d : Decoder} (hat : s.decoders[index]? = some i)
    (hstep : OhosDecoder.Step i.config i.decoder l d) (hl : l.isFail = false) :
    Session.Step s (.decoder index l)
      { s with
        decoders :=
          s.decoders.set index { i with decoder := d, started := l.isStart || i.started } } :=
  .decoder hat ⟨hstep, OhosDecoder.Label.fromCallback_of_not_fail hl⟩

def sampleContract : Contract := ⟨.h264, ⟨0, 0, 0, 640, 480⟩⟩

def samplePlatform : Platform := ⟨true, 1, ⟨0, 0⟩, true⟩

/-- A platform with a hardware decoder. -/
def sampleAnswers : OhosDecoder.SetupAnswers where
  capability := true
  name := some [1]
  createWindow := 0
  window := true
  registerCallback := 0
  format := true
  lowLatency := true
  configure := 0
  setSurface := 0
  prepare := 0
  start := 0

/-- The viewer while it opens its first decoder. -/
def sampleSession (decoder : Decoder) : Session where
  unconfirmed := true
  run := .joining 2 (.ok ())
  feed := .opening sampleContract (some 0)
  decoders := [⟨sampleContract.config, decoder, false⟩]

theorem sample_step {l : OhosDecoder.Label} {d d' : Decoder}
    (hstep : OhosDecoder.Step sampleContract.config d l d') (hl : l.isFail = false)
    (hstart : l.isStart = false) :
    Session.Step (sampleSession d) (.decoder 0 l) (sampleSession d') := by
  have h := @worker_step (sampleSession d) 0 _ _ _ rfl hstep hl
  rw [hstart] at h
  exact h

/-- The viewer once the decoder was started. -/
def startedSession (feed : Feed) (decoder : Decoder) : Session :=
  { sampleSession decoder with feed, decoders := [⟨sampleContract.config, decoder, true⟩] }

theorem started_step {feed : Feed} {l : OhosDecoder.Label} {d d' : Decoder}
    (hstep : OhosDecoder.Step sampleContract.config d l d') (hl : l.isFail = false) :
    Session.Step (startedSession feed d) (.decoder 0 l) (startedSession feed d') := by
  have h := @worker_step (startedSession feed d) 0 _ _ _ rfl hstep hl
  rw [Bool.or_true] at h
  exact h

/-- A viewer whose decoder is created and opened; the peer's records end, and the decoder is
destroyed. -/
theorem reclamation_truthful_destroyed :
    ∃ s ls, Lts.Run Session.Step .start ls s ∧ .closeReturns (.ok ()) ∈ ls
      ∧ (∀ l ∈ ls, l.isPanic = false) ∧ s.decoders.map (·.decoder.codec) = [.destroyed]
      ∧ (∀ i ∈ s.decoders, i.Settled) := by
  -- served, opened and started
  have hopening : Lts.Run Session.Step .start [.runs, .feeds, .feeds, .feeds]
      (sampleSession ⟨{}, .starting, .absent⟩) :=
    .cons (.serves rfl) (.cons (@Session.Step.changes _ none sampleContract rfl (by decide))
      (.cons (.opens rfl rfl) (.single
        (@Session.Step.spawns _ sampleContract samplePlatform _ rfl rfl))))
  have hcreated := hopening.snoc (sample_step
    (@OhosDecoder.Step.creates _ _ sampleAnswers _ rfl rfl) rfl rfl)
  have hstart : Session.Step (sampleSession ⟨{}, .configuring, .live⟩) (.decoder 0 .starts)
      (startedSession (.opening sampleContract (some 0)) ⟨{}, .looping, .live⟩) :=
    @worker_step _ 0 ⟨sampleContract.config, ⟨{}, .configuring, .live⟩, false⟩ _ _ rfl
      (@OhosDecoder.Step.starts _ _ sampleAnswers rfl rfl rfl) rfl
  have hopened : Lts.Run Session.Step .start _
      (startedSession (.serving (some sampleContract) (some 0)) ⟨{}, .looping, .live⟩) :=
    (hcreated.snoc hstart).snoc (.opened rfl rfl rfl)
  -- the queue ends, the feed closes the decoder, and its codec is destroyed
  have hending : Lts.Run Session.Step .start _
      (startedSession (.ending (.ok ()) (some 0)) ⟨{}, .looping, .live⟩) :=
    hopened.snoc (.queueEnds rfl)
  have hclosing : Lts.Run Session.Step .start _
      (startedSession (.closing 0 (.returns (.ok ()))) ⟨{}, .looping, .live⟩) :=
    hending.snoc (@Session.Step.feedCloses _ (.ok ()) 0 rfl)
  have hstopped := (hclosing.snoc (started_step .requestClose rfl)).snoc
    (started_step (.next rfl rfl) rfl)
  have htorn := (hstopped.snoc (started_step (.shutdown rfl) rfl)).snoc
    (started_step (@OhosDecoder.Step.destroys _ _ _ 0 rfl rfl) rfl)
  have hended := (htorn.snoc (started_step (.closed rfl (.inr rfl)) rfl)).snoc
    (started_step (.returns rfl) rfl)
  -- the tasks are joined, and the close answers
  have hjoined := ((hended.snoc (.closed rfl rfl rfl)).snoc
    (.joinsFeed rfl rfl)).snoc (@Session.Step.joinsOther _ _ _ (.ok ()) rfl)
  have hover := ((((hjoined.snoc (@Session.Step.joinsOther _ _ _ (.ok ()) rfl)).snoc
    (.returns rfl rfl)).snoc (.releases rfl)).snoc (.finishes rfl)).snoc (.closeReturns rfl)
  refine ⟨_, _, hover, ?_, ?_, rfl, (reclamation_truthful hover).1 ?_⟩
  · exact List.mem_append_right _ (List.mem_singleton_self _)
  · simp [Label.isPanic]
  · exact List.mem_append_right _ (List.mem_singleton_self _)

end Reclamation

end RdEngine
