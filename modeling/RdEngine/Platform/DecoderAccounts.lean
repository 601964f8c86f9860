/-
RdEngine/Platform/DecoderAccounts.lean

The queue of the surface decoder is a queue with credit.

A unit is charged and queued by one `submit`, taken by the worker with `next`,
and released by `submitted`; `quarantine` and `closed` tear the queue down.
What a step does to the queue and to its counters is said once
(`Effect`, `step_effect`).  From it follow the refinement of the queue with
credit, the order and the end of the stream, and the balance of the counters
(`books_run`).
-/
import RdEngine.Platform.OhosDecoder
import RdEngine.Lib.Credits

namespace RdEngine

namespace OhosDecoder

open Lts

variable {limits : DecoderConfig}

/-! ### Histories -/

/-- The unit of an accepted submission. -/
def Label.accepted : Label → Option AccessUnit
  | .submit unit (.ok ()) => some unit
  | _ => none

/-- The unit handed to the worker. -/
def Label.handed : Label → Option AccessUnit
  | .next (.submit _ unit) => some unit
  | _ => none

/-- The units accepted, in their order. -/
def accepted (es : List Label) : List AccessUnit := es.filterMap Label.accepted

/-- The units handed to the worker, in their order. -/
def handed (es : List Label) : List AccessUnit := es.filterMap Label.handed

/-! ### What a step does to the books -/

/-- What is kept about the units. -/
structure Books where
  packets : List AccessUnit
  inFlight : Option AccessUnit
  account : Credits.Account
  eosAccepted : Bool
  closing : Bool
  closed : Bool
  accepted : Nat
  pushed : Nat
  cancelled : Nat

def State.account (s : State) : Credits.Account := ⟨s.reservedUnits, s.reservedBytes⟩

def DecoderConfig.queueLimits (config : DecoderConfig) : Credits.Limits :=
  ⟨config.maxQueuedUnits, config.maxQueuedBytes⟩

def Decoder.books (d : Decoder) : Books where
  packets := d.shared.packets
  inFlight := d.worker.inFlight
  account := d.shared.account
  eosAccepted := d.shared.eosAccepted
  closing := d.shared.closing
  closed := d.shared.stats.closed
  accepted := d.shared.stats.acceptedUnits
  pushed := d.shared.stats.pushedUnits
  cancelled := d.shared.stats.cancelledUnits

/-- What a step does to these accounts. -/
inductive Effect (limits : Credits.Limits) (b : Books) : Label → Books → Prop
  | accepts {unit : AccessUnit} (hclosing : b.closing = false) (hclosed : b.closed = false)
      (heos : b.eosAccepted = false) (hroom : limits.Room b.account unit.size) :
      Effect limits b (.submit unit (.ok ()))
        { b with
          packets := b.packets ++ [unit]
          account := b.account.charge unit.size
          eosAccepted := unit.kind = .endOfStream
          accepted := b.accepted + 1 }
  | hands {buffer : Buffer} {unit : AccessUnit} {packets : List AccessUnit}
      (hpackets : b.packets = unit :: packets) (hflight : b.inFlight = none) :
      Effect limits b (.next (.submit buffer unit)) { b with packets, inFlight := some unit }
  | settles {unit : AccessUnit} {success : Bool} {account : Credits.Account}
      (hflight : b.inFlight = some unit) (haccount : b.account.refund unit.size = some account) :
      Effect limits b (.submitted unit success)
        { b with
          inFlight := none
          account
          pushed := if success then b.pushed + 1 else b.pushed
          cancelled := if success then b.cancelled else b.cancelled + 1 }
  | drops {label : Label} (haccepted : label.accepted = none) (hhanded : label.handed = none) :
      Effect limits b label
        { b with
          packets := [], inFlight := none, account := .zero, closing := true
          cancelled := b.cancelled + b.account.units }
  | closes {label : Label} (hflight : b.inFlight = none)
      (haccepted : label.accepted = none) (hhanded : label.handed = none) :
      Effect limits b label
        { b with
          packets := [], account := .zero, closing := true, closed := true
          cancelled := b.cancelled + b.packets.length }
  | idle {label : Label} {closing : Bool} (hclosing : b.closing = true → closing = true)
      (haccepted : label.accepted = none) (hhanded : label.handed = none) :
      Effect limits b label { b with closing }

/-! #### One lemma for each operation -/

theorem submit_of_rejection {s : State} {unit : AccessUnit} {reason : DecoderError}
    (h : s.rejection limits unit = some reason) :
    s.submit limits unit = (s, .error { reason, unit }) := by
  unfold State.submit
  rw [h]

theorem submit_of_none {s : State} {unit : AccessUnit} (h : s.rejection limits unit = none) :
    s.submit limits unit =
      ({ s with
        eosAccepted := unit.kind = .endOfStream
        reservedUnits := s.reservedUnits + 1
        reservedBytes := s.reservedBytes + unit.bytes.length
        stats := { s.stats with acceptedUnits := s.stats.acceptedUnits + 1 }
        packets := s.packets ++ [unit] }, .ok ()) := by
  unfold State.submit
  rw [h]

/-- What `submit` has checked of a unit it accepts. -/
theorem rejection_eq_none {s : State} {unit : AccessUnit}
    (h : s.rejection limits unit = none) :
    s.closing = false ∧ s.stats.closed = false ∧ s.stats.failure = none
      ∧ s.eosAccepted = false ∧ limits.queueLimits.Room s.account unit.size := by
  unfold State.rejection at h
  by_cases hclosed : s.closing = true ∨ s.stats.closed = true
  · rw [if_pos hclosed] at h
    cases h
  rw [if_neg hclosed] at h
  rw [not_or, Bool.not_eq_true, Bool.not_eq_true] at hclosed
  cases hfailure : s.stats.failure with
  | some error =>
    rw [hfailure] at h
    cases h
  | none =>
    simp only [hfailure] at h
    split_ifs at h with heos _ _ hroom
    rw [not_or, ge_iff_le, not_le, not_lt] at hroom
    exact ⟨hclosed.1, hclosed.2, rfl, by simpa using heos, hroom⟩

/-- A rejected submission returns the unit and changes nothing. -/
theorem submit_rejected {s s' : State} {unit : AccessUnit} {rejected : RejectedSubmission}
    (h : s.submit limits unit = (s', .error rejected)) : s' = s ∧ rejected.unit = unit := by
  cases hrejection : s.rejection limits unit with
  | none =>
    unfold State.submit at h
    rw [hrejection] at h
    cases h
  | some reason =>
    rw [submit_of_rejection hrejection] at h
    cases h
    exact ⟨rfl, rfl⟩

/-- A posted event is dropped, with a failure perhaps, or its index is put down
and it is queued. -/
theorem post_cases (s : State) (event : Event) :
    (∃ failure, s.post event = ({ s with stats := { s.stats with failure } }, false))
      ∨ ∃ t, s.insertIndex event = some t ∧ s.closing = false ∧ s.stats.failure = none
        ∧ s.inputIndices.card + s.outputIndices.card < maxCallbacks
        ∧ s.post event = ({ t with events := t.events ++ [event] }, true) := by
  unfold State.post
  by_cases hclosed : s.closing = true ∨ s.stats.closed = true ∨ s.stats.failure.isSome = true
  · rw [if_pos hclosed]
    exact .inl ⟨s.stats.failure, rfl⟩
  rw [if_neg hclosed]
  split_ifs with hfull
  · exact .inl ⟨some .callbackOverflow, rfl⟩
  · rw [not_or, not_or, Bool.not_eq_true, Bool.not_eq_true, Bool.not_eq_true,
      Option.isSome_eq_false_iff, Option.isNone_iff_eq_none] at hclosed
    rw [not_or, ge_iff_le, not_le, ge_iff_le, not_le] at hfull
    cases hinsert : s.insertIndex event with
    | none => exact .inl ⟨some .duplicateBufferIndex, rfl⟩
    | some t => exact .inr ⟨t, rfl, hclosed.1, hclosed.2.2, hfull.2, rfl⟩

/-- Putting an index down changes the two sets of indices only. -/
theorem insertIndex_eq {s t : State} {event : Event} (h : s.insertIndex event = some t) :
    t = { s with inputIndices := t.inputIndices, outputIndices := t.outputIndices } := by
  unfold State.insertIndex at h
  cases event with
  | input b | output b =>
    dsimp only at h
    split at h
    · cases h
    · cases h
      rfl
  | streamChanged =>
    cases h
    rfl

theorem next_submit {s s' : State} {buffer : Buffer} {unit : AccessUnit}
    (h : s.next = some (s', .submit buffer unit)) :
    s.closing = false ∧ s.stats.failure = none ∧ s.events = []
      ∧ ∃ inputs packets, s.inputs = buffer :: inputs ∧ s.packets = unit :: packets
        ∧ s' = { s with inputs, packets } := by
  unfold State.next at h
  by_cases hstop : s.closing = true ∨ s.stats.failure.isSome = true
  · rw [if_pos hstop] at h
    cases h
  rw [if_neg hstop] at h
  rw [not_or, Bool.not_eq_true, Bool.not_eq_true, Option.isSome_eq_false_iff,
    Option.isNone_iff_eq_none] at hstop
  cases hevents : s.events with
  | cons event events =>
    rw [hevents] at h
    cases h
  | nil =>
    rw [hevents] at h
    simp only at h
    split at h
    · rename_i hinputs hpackets
      cases h
      exact ⟨hstop.1, hstop.2, rfl, _, _, hinputs, hpackets, rfl⟩
    · cases h

theorem next_event {s s' : State} {event : Event} (h : s.next = some (s', .event event)) :
    ∃ events, s.events = event :: events ∧ s' = { s with events } := by
  unfold State.next at h
  split at h
  · cases h
  · split at h
    · rename_i hevents
      cases h
      exact ⟨_, hevents, rfl⟩
    · split at h <;> cases h

theorem next_stop {s s' : State} (h : s.next = some (s', .stop)) : s' = s := by
  unfold State.next at h
  split at h
  · cases h
    rfl
  · split at h
    · cases h
    · split at h <;> cases h

theorem submitted_eq {s s' : State} {unit : AccessUnit} {success : Bool}
    (h : s.submitted unit.bytes.length success = some s') :
    s.account.refund unit.size = some s'.account
      ∧ s' = { s with
          reservedUnits := s'.reservedUnits
          reservedBytes := s'.reservedBytes
          stats := { s.stats with
            pushedUnits := if success then s.stats.pushedUnits + 1 else s.stats.pushedUnits
            cancelledUnits :=
              if success then s.stats.cancelledUnits else s.stats.cancelledUnits + 1 } } := by
  unfold State.submitted at h
  split at h
  · rename_i hbounds
    cases success <;> cases h <;> exact ⟨if_pos hbounds, rfl⟩
  · cases h

/-- **Every step has one of the six effects.** -/
theorem step_effect {d d' : Decoder} {l : Label} (h : Step limits d l d') :
    Effect limits.queueLimits d.books l d'.books := by
  cases h with
  | @submit unit =>
    -- a unit that is turned away counts nowhere
    cases hrejection : d.shared.rejection limits unit with
    | some reason =>
      rw [submit_of_rejection hrejection]
      exact .idle id rfl rfl
    | none =>
      obtain ⟨hclosing, hclosed, -, heos, hroom⟩ := rejection_eq_none hrejection
      rw [submit_of_none hrejection]
      exact .accepts hclosing hclosed heos hroom
  | @post event =>
    obtain ⟨failure, hpost⟩ | ⟨t, hinsert, -, -, -, hpost⟩ := post_cases d.shared event
    · rw [hpost]
      exact .idle id rfl rfl
    · rw [hpost, insertIndex_eq hinsert]
      exact .idle id rfl rfl
  | @next shared action hworker hnext =>
    -- a unit leaves the queue only with an input buffer
    obtain ⟨s, worker, codec⟩ := d
    cases hworker
    cases action with
    | stop =>
      cases next_stop hnext
      exact .idle id rfl rfl
    | event event =>
      obtain ⟨events, -, rfl⟩ := next_event hnext
      exact .idle id rfl rfl
    | submit buffer unit =>
      obtain ⟨-, -, -, inputs, packets, -, hpackets, rfl⟩ := next_submit hnext
      exact .hands hpackets rfl
  | @pushRejected buffer unit sdk error shared hworker hpush hsubmitted =>
    -- never handed to the platform: cancelled, so it is settled
    obtain ⟨s, worker, codec⟩ := d
    cases hworker
    obtain ⟨haccount, hshared⟩ := submitted_eq hsubmitted
    rw [hshared]
    exact .settles rfl haccount
  | @submitted buffer unit code shared hworker hsubmitted =>
    obtain ⟨s, worker, codec⟩ := d
    cases hworker
    obtain ⟨haccount, hshared⟩ := submitted_eq hsubmitted
    rw [hshared]
    cases check "OH_VideoDecoder_PushInputBuffer" code with
    | error error => exact .settles rfl haccount
    | ok done => exact .settles rfl haccount
  | closed hworker hreported =>
    -- the units still queued are cancelled; none is in flight any more
    obtain ⟨s, worker, codec⟩ := d
    cases hworker
    exact .closes rfl rfl rfl
  | quarantine hworker hcodec hcode =>
    obtain ⟨s, worker, codec⟩ := d
    cases hworker
    exact .drops rfl rfl
  | panics howner => exact .drops rfl rfl
  | panicsLate hshutdown =>
    obtain ⟨s, worker, codec⟩ := d
    cases worker <;> cases hshutdown <;> exact .idle id rfl rfl
  | @output frame eos clock code hworker hconsume =>
    obtain ⟨s, worker, codec⟩ := d
    cases hworker
    cases frame <;> cases eos <;> first | exact .idle id rfl rfl | exact .idle (fun _ => rfl) rfl rfl
  | fail => exact .idle id rfl rfl
  | requestClose => exact .idle (fun _ => rfl) rfl rfl
  | shutdown hworker =>
    obtain ⟨s, worker, codec⟩ := d
    cases hworker
    exact .idle (fun _ => rfl) rfl rfl
  | findFails hworker | createFails hworker | creates hworker | configureFails hworker
  | failedMeanwhile hworker | starts hworker | inputAvailable hworker | streamChanged hworker
  | classifyFails hworker | returningOutput hworker | consumeFails hworker
  | returningInput hworker | reportsAction hworker | noCodec hworker | destroys hworker
  | reportsTeardown hworker | returns hworker =>
    -- the worker moves on without a unit in its hands
    obtain ⟨s, worker, codec⟩ := d
    cases hworker
    exact .idle id rfl rfl

/-! ### The queue with credit -/

theorem accepted_snoc (es : List Label) (l : Label) :
    accepted (es ++ [l]) = accepted es ++ l.accepted.toList :=
  filterMap_snoc _ _ _

theorem handed_snoc (es : List Label) (l : Label) :
    handed (es ++ [l]) = handed es ++ l.handed.toList :=
  filterMap_snoc _ _ _

/-- The queue with credit: it was put what was accepted, and gave what was handed
to the worker. -/
def queueOf (es : List Label) (b : Books) : Credits.Queue AccessUnit where
  account := b.account
  queue := b.packets
  copying := 0
  leases := (b.inFlight.toList : Multiset AccessUnit)
  put := accepted es
  taken := handed es
  closed := b.closing

section

variable {room : Credits.Limits} {es : List Label} {b b' : Books} {l : Label}

theorem queue_snoc (haccepted : l.accepted = none) (hhanded : l.handed = none) :
    queueOf (es ++ [l]) b = queueOf es b := by
  unfold queueOf
  rw [accepted_snoc, handed_snoc, haccepted, hhanded, Option.toList_none, List.append_nil,
    List.append_nil]

/-- The worker can give the credit of the unit in its hand back. -/
theorem refund_inFlight {unit : AccessUnit}
    (h : Credits.Sound room AccessUnit.size (queueOf es b)) (hflight : b.inFlight = some unit) :
    b.account.refund unit.size = some (b.account.refundSaturating unit.size) := by
  refine h.refund (Multiset.mem_add.mpr (.inl (Multiset.mem_add.mpr (.inr ?_))))
  show unit ∈ b.inFlight.toList
  rw [hflight]
  exact List.mem_singleton_self unit

/-- With no unit in the worker's hand, the credit is that of the queue. -/
theorem units_of_inFlight (h : Credits.Sound room AccessUnit.size (queueOf es b))
    (hflight : b.inFlight = none) : b.account.units = b.packets.length := by
  have hunits := h.account.units
  unfold Credits.Queue.holders queueOf at hunits
  rw [hflight] at hunits
  simpa using hunits

/-- The worker releases the unit in its hand. -/
theorem release_inFlight {unit : AccessUnit} (hflight : b.inFlight = some unit) :
    Credits.Step room AccessUnit.size (queueOf es b) (.release unit)
      (queueOf es { b with inFlight := none, account := b.account.refundSaturating unit.size }) := by
  have hleases : (queueOf es b).leases = unit ::ₘ 0 := by
    show (b.inFlight.toList : Multiset AccessUnit) = unit ::ₘ 0
    rw [hflight]
    rfl
  exact .release hleases

/-- With no unit in the worker's hand, dropping the queue leaves no credit. -/
theorem drain_of_inFlight (h : Credits.Sound room AccessUnit.size (queueOf es b))
    (hflight : b.inFlight = none) :
    Credits.Step room AccessUnit.size (queueOf es b) .drain
      (queueOf es { b with packets := [], account := .zero, closing := true }) := by
  have hleases : (queueOf es b).leases = 0 := by
    show (b.inFlight.toList : Multiset AccessUnit) = 0
    rw [hflight]
    rfl
  exact .drain (h.drain_eq_zero hleases rfl).symm

/-- **Each effect on the books is one of a queue with credit.** -/
theorem Effect.refines (heffect : Effect room b l b')
    (h : Credits.Sound room AccessUnit.size (queueOf es b)) :
    ∃ ops, Run (Credits.Step room AccessUnit.size) (queueOf es b) ops (queueOf (es ++ [l]) b') := by
  cases heffect with
  | @accepts unit hclosing hclosed heos hroom =>
    -- charged and queued in one call
    have hput : accepted (es ++ [.submit unit (.ok ())]) = accepted es ++ [unit] :=
      accepted_snoc es _
    have htaken : handed (es ++ [.submit unit (.ok ())]) = handed es :=
      (handed_snoc es _).trans (List.append_nil _)
    have hpush : Run (Credits.Step room AccessUnit.size) (queueOf es b) _ _ :=
      Credits.run_push hroom hclosing
    unfold queueOf at hpush ⊢
    rw [hput, htaken]
    exact ⟨_, hpush⟩
  | @hands buffer unit packets hpackets hflight =>
    have hput : accepted (es ++ [.next (.submit buffer unit)]) = accepted es :=
      (accepted_snoc es _).trans (List.append_nil _)
    have htaken : handed (es ++ [.next (.submit buffer unit)]) = handed es ++ [unit] :=
      handed_snoc es _
    have htake : Credits.Step room AccessUnit.size (queueOf es b) (.take unit) _ := .take hpackets
    unfold queueOf at htake ⊢
    rw [hflight] at htake
    rw [hput, htaken, hflight]
    exact ⟨_, .single htake⟩
  | @settles unit success account hflight haccount =>
    rw [refund_inFlight h hflight] at haccount
    cases haccount
    rw [queue_snoc rfl rfl]
    exact ⟨_, .single (release_inFlight hflight)⟩
  | drops haccepted hhanded =>
    -- the unit in flight is released first, then the rest drained
    rw [queue_snoc haccepted hhanded]
    cases hflight : b.inFlight with
    | none =>
      have hdrain := drain_of_inFlight h hflight
      unfold queueOf at hdrain ⊢
      rw [hflight] at hdrain
      rw [hflight]
      exact ⟨_, .single hdrain⟩
    | some unit =>
      have hrelease : Credits.Step room AccessUnit.size (queueOf es b) (.release unit) _ :=
        release_inFlight hflight
      exact ⟨_, (Run.single hrelease).snoc (drain_of_inFlight (h.step hrelease) rfl)⟩
  | closes hflight haccepted hhanded =>
    rw [queue_snoc haccepted hhanded]
    exact ⟨_, .single (drain_of_inFlight h hflight)⟩
  | @idle _ closing hclosing haccepted hhanded =>
    -- at most the queue closes
    rw [queue_snoc haccepted hhanded]
    by_cases hsame : closing = b.closing
    · rw [hsame]
      exact ⟨[], .nil _⟩
    · have hclose : closing = true := by
        cases closing <;> cases hb : b.closing <;> simp_all
      rw [hclose]
      exact ⟨_, .single .close⟩

end

/-! ### The balance -/

/-- The counters of the statistics, and the end of the stream. -/
structure Balanced (es : List Label) (b : Books) : Prop where
  counted : b.accepted = (accepted es).length
  settled : b.pushed + b.cancelled + b.account.units = b.accepted
  /-- Once closed, nothing is left. -/
  closed : b.closed = true → b.packets = [] ∧ b.inFlight = none ∧ b.account = .zero
  /-- Nothing follows the end of the stream. -/
  ended : ∀ unit ∈ (accepted es).dropLast, unit.kind ≠ .endOfStream
  notEnded : b.eosAccepted = false →
    ∀ unit ∈ accepted es, unit.kind ≠ .endOfStream

theorem Balanced.quiet {es : List Label} {b : Books} {l : Label} (h : Balanced es b)
    (haccepted : l.accepted = none) : Balanced (es ++ [l]) b := by
  have hsame : accepted (es ++ [l]) = accepted es := by
    rw [accepted_snoc, haccepted]
    exact List.append_nil _
  exact ⟨hsame ▸ h.counted, h.settled, h.closed, hsame ▸ h.ended, hsame ▸ h.notEnded⟩

theorem Balanced.step {room : Credits.Limits} {es : List Label} {b b' : Books} {l : Label}
    (h : Balanced es b) (hsound : Credits.Sound room AccessUnit.size (queueOf es b))
    (heffect : Effect room b l b') : Balanced (es ++ [l]) b' := by
  cases heffect with
  | @accepts unit hclosing hclosed heos hroom =>
    have hsnoc : accepted (es ++ [.submit unit (.ok ())]) = accepted es ++ [unit] :=
      accepted_snoc es _
    refine ⟨?_, ?_, fun hclosed' => ?_, ?_, fun hopen => ?_⟩
    · rw [hsnoc, List.length_append]
      exact congrArg (· + 1) h.counted
    · have hsettled := h.settled
      show b.pushed + b.cancelled + (b.account.units + 1) = b.accepted + 1
      omega
    · exact absurd (hclosed.symm.trans hclosed') nofun
    · rw [hsnoc, List.dropLast_concat]
      exact h.notEnded heos
    · rw [hsnoc]
      intro v hv
      obtain hv | hv := List.mem_append.mp hv
      · exact h.notEnded heos v hv
      · rw [List.mem_singleton] at hv
        subst hv
        exact of_decide_eq_false hopen
  | @hands buffer unit packets hpackets hflight =>
    have hq := h.quiet (l := .next (.submit buffer unit)) rfl
    refine { hq with closed := fun hclosed => ?_ }
    exact absurd (hpackets.symm.trans (h.closed hclosed).1) (List.cons_ne_nil _ _)
  | @settles unit success account hflight haccount =>
    -- pushed or cancelled, and one credit less
    have hq := h.quiet (l := .submitted unit success) rfl
    refine { hq with settled := ?_, closed := fun hclosed => ?_ }
    · have hsettled := h.settled
      unfold Credits.Account.refund at haccount
      split_ifs at haccount with hbounds
      cases haccount
      cases success
      · show b.pushed + (b.cancelled + 1) + (b.account.units - 1) = b.accepted
        omega
      · show b.pushed + 1 + b.cancelled + (b.account.units - 1) = b.accepted
        omega
    · exact absurd (hflight.symm.trans (h.closed hclosed).2.1) nofun
  -- what was still charged counts as cancelled
  | drops haccepted hhanded =>
    refine { h.quiet haccepted with settled := ?_, closed := fun _ => ⟨rfl, rfl, rfl⟩ }
    have hsettled := h.settled
    show b.pushed + (b.cancelled + b.account.units) + 0 = b.accepted
    omega
  | closes hflight haccepted hhanded =>
    refine { h.quiet haccepted with settled := ?_, closed := fun _ => ⟨rfl, hflight, rfl⟩ }
    have hsettled := h.settled
    have hunits := units_of_inFlight hsound hflight
    show b.pushed + (b.cancelled + b.packets.length) + 0 = b.accepted
    omega
  | idle hclosing haccepted hhanded => exact { h.quiet haccepted with }

theorem start_eq {config : DecoderConfig} {d : Decoder} (h : Decoder.start config = .ok d) :
    d = { shared := {}, worker := .starting, codec := .absent } := by
  unfold Decoder.start Shared.new at h
  split at h
  · cases h
  · cases h
    rfl

/-- **The decoder's queue is a queue with credit**, and its counters balance. -/
theorem books_run {config : DecoderConfig} {d₀ d : Decoder} {es : List Label}
    (hstart : Decoder.start config = .ok d₀) (hrun : Run (Step config) d₀ es d) :
    (∃ ops, Run (Credits.Step config.queueLimits AccessUnit.size) .empty ops (queueOf es d.books))
      ∧ Balanced es d.books := by
  cases start_eq hstart
  refine hrun.history
    (P := fun es d => (∃ ops, Run (Credits.Step config.queueLimits AccessUnit.size) .empty ops
      (queueOf es d.books)) ∧ Balanced es d.books) ?_ ?_
  · rintro es s l t ⟨⟨ops, hops⟩, hbalanced⟩ hstep
    have hsound := Credits.sound_run hops
    obtain ⟨ops', hops'⟩ := (step_effect hstep).refines hsound
    exact ⟨⟨ops ++ ops', hops.append hops'⟩, hbalanced.step hsound (step_effect hstep)⟩
  · exact ⟨⟨[], .nil _⟩, ⟨rfl, rfl, nofun, nofun, nofun⟩⟩

end OhosDecoder

end RdEngine
