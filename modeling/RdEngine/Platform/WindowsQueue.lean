/-
RdEngine/Platform/WindowsQueue.lean

The queue of the Windows publisher is a queue with credit, and a request for a
key picture is served by the next unit.

A unit is charged and queued at once, taken by the consumer, and released by the
guard's drop.  The queue is never torn down, so nothing is lost on the way
(`queue_run`).  A request stays in the shared state until the worker reads it,
and then with the producer until it has encoded a key unit (`keyframe_served`).
-/
import RdEngine.Platform.WindowsPublisher
import RdEngine.Lib.Credits
import Mathlib.Algebra.Order.BigOperators.Group.List

namespace RdEngine

namespace WindowsPublisher

open Lts

/-! ### Histories -/

/-- The unit the encoder gave. -/
def Label.produced : Label → Option QueuedUnit
  | .produces unit => some unit
  | _ => none

def Label.queued : Label → Option QueuedUnit
  | .queues unit => some unit
  | _ => none

def Label.received : Label → Option EncodedUnit
  | .recv (.unit guard) => some guard
  | _ => none

/-- The units the encoder gave, in the order of their capture. -/
def produced (es : List Label) : List QueuedUnit := es.filterMap Label.produced

def queued (es : List Label) : List QueuedUnit := es.filterMap Label.queued

/-- The units received, in their order. -/
def received (es : List Label) : List EncodedUnit := es.filterMap Label.received

/-! ### The queue with credit -/

def PublisherConfig.queueLimits (config : PublisherConfig) : Credits.Limits :=
  ⟨config.maxQueuedUnits, config.maxQueuedBytes⟩

/-- The queue with credit: the guards hold what was received, and the queue is
never closed. -/
def queueOf (es : List Label) (p : Publisher) : Credits.Queue QueuedUnit where
  account := ⟨p.shared.chargedUnits, p.shared.queuedBytes⟩
  queue := p.shared.queue
  copying := 0
  leases := (p.guards.map EncodedUnit.unit : List QueuedUnit)
  put := queued es
  taken := (received es).map EncodedUnit.unit
  closed := false

section

variable {config : PublisherConfig} {es : List Label} {p p' : Publisher} {l : Label}

theorem queueOf_snoc (hqueued : l.queued = none) (hreceived : l.received = none) :
    queueOf (es ++ [l]) p = queueOf es p := by
  unfold queueOf queued received
  rw [filterMap_snoc, filterMap_snoc, hqueued, hreceived, Option.toList_none, List.append_nil,
    Option.toList_none, List.append_nil]

theorem recv_unit {s : State} {guard : EncodedUnit} (h : s.recv.2 = .unit guard) :
    ∃ queue, s.queue = guard.unit :: queue ∧ s.recv.1 = { s with queue } := by
  unfold State.recv at h ⊢
  cases hfailure : s.failure with
  | some error =>
    rw [hfailure] at h
    cases h
  | none =>
    rw [hfailure] at h
    cases hqueue : s.queue with
    | nil =>
      rw [hqueue] at h
      dsimp only at h
      split at h <;> cases h
    | cons unit queue =>
      rw [hqueue] at h
      cases h
      exact ⟨queue, rfl, rfl⟩

/-- **Each step is one of a queue with credit.** -/
theorem step_refines (hstep : Step config p l p') :
    ∃ ops, Run (Credits.Step config.queueLimits QueuedUnit.size) (queueOf es p) ops
      (queueOf (es ++ [l]) p') := by
  cases hstep with
  -- the steps that only ask, open or close are no operation of the queue
  | requestKeyframe =>
    rw [queueOf_snoc rfl rfl]
    have hsame : queueOf es { p with shared := p.shared.requestKeyframe.1 } = queueOf es p := by
      unfold State.requestKeyframe
      split
      · rfl
      · split <;> rfl
    rw [hsame]
    exact ⟨[], .nil _⟩
  | recv hwaits =>
    have hreceived : Label.received (.recv p.shared.recv.2) = none := by
      cases hrecv : p.shared.recv.2 with
      | unit guard => exact absurd hrecv (hwaits guard)
      | failed | ended | waits => rfl
    rw [queueOf_snoc rfl hreceived]
    exact ⟨[], .nil _⟩
  | @receives guard hunit =>
    -- the front of the queue is handed out as a lease
    obtain ⟨queue, hqueue, hrecv⟩ := recv_unit hunit
    have htake : Credits.Step config.queueLimits QueuedUnit.size (queueOf es p) (.take guard.unit) _ :=
      .take hqueue
    have hreceived : received (es ++ [.recv (.unit guard)]) = received es ++ [guard] :=
      filterMap_snoc _ _ _
    have hqueued : queued (es ++ [.recv (.unit guard)]) = queued es := filterMap_quiet rfl
    refine ⟨_, .single (?_ : Credits.Step _ _ _ (.take guard.unit) _)⟩
    unfold queueOf at htake ⊢
    rw [hreceived, hqueued, hrecv]
    dsimp only
    rw [Credits.coe_map_snoc, List.map_append]
    exact htake
  | @drops guard before after hguards =>
    -- the refund of the guard is the release of its lease
    have hleases : (queueOf es p).leases
        = guard.unit ::ₘ ((before ++ after).map EncodedUnit.unit : List QueuedUnit) := by
      show ((p.guards.map EncodedUnit.unit : List QueuedUnit) : Multiset QueuedUnit) = _
      rw [hguards, Credits.coe_map_middle]
    have hdrop : Credits.Step config.queueLimits QueuedUnit.size (queueOf es p)
      (.release guard.unit) _ := .release hleases
    rw [queueOf_snoc rfl rfl]
    refine ⟨_, .single (?_ : Credits.Step _ _ _ (.release guard.unit) _)⟩
    unfold State.release
    rw [guard.charged]
    exact hdrop
  | @queues unit hworker hclosing hroom =>
    -- charged and queued under one lock: two operations in a row
    have hput : queued (es ++ [.queues unit]) = queued es ++ [unit] := filterMap_snoc _ _ _
    have htaken : received (es ++ [.queues unit]) = received es := filterMap_quiet rfl
    have hlimits : config.queueLimits.Room (queueOf es p).account unit.size := by
      rw [State.full, Bool.or_eq_false_iff, decide_eq_false_iff_not, decide_eq_false_iff_not] at hroom
      show p.shared.chargedUnits < config.maxQueuedUnits
        ∧ unit.data.length ≤ config.maxQueuedBytes - p.shared.queuedBytes
      omega
    have hpush := Credits.run_push hlimits (rfl : (queueOf es p).closed = false)
    refine ⟨_, (?_ : Run _ _ [.charge unit, .enqueue unit] _)⟩
    unfold queueOf at hpush ⊢
    rw [hput, htaken]
    exact hpush
  | @reads requested hworker hread =>
    rw [queueOf_snoc rfl rfl]
    have hsame : queueOf es { p with
        shared := p.shared.readRequest.1, worker := .encoding requested } = queueOf es p := by
      unfold State.readRequest
      split <;> rfl
    rw [hsame]
    exact ⟨[], .nil _⟩
  | requestClose | opens | openFails | readsClose | produces | skips | nextFails | closes | ends =>
    rw [queueOf_snoc rfl rfl]
    exact ⟨[], .nil _⟩

/-! ### The order of the captures -/

/-- The unit the worker is about to queue. -/
def Worker.inHand : Worker → Option QueuedUnit
  | .waiting unit => some unit
  | _ => none

/-- The worker is still in its loop. -/
def Worker.running : Worker → Bool
  | .stopping _ | .ended => false
  | _ => true

/-- What was produced was queued, or is in the worker's hand; a worker that stops
may give a unit up. -/
structure Captured (es : List Label) (p : Publisher) : Prop where
  order : queued es ++ p.worker.inHand.toList <+: produced es
  kept : p.worker.running = true → queued es ++ p.worker.inHand.toList = produced es

theorem Captured.quiet (h : Captured es p) (hproduced : l.produced = none)
    (hqueued : l.queued = none)
    (hhand : p'.worker.inHand = p.worker.inHand ∨ p'.worker.inHand = none ∧ p'.worker.running = false)
    (hrunning : p'.worker.running = true → p.worker.running = true) :
    Captured (es ++ [l]) p' := by
  have hp : produced (es ++ [l]) = produced es := by
    rw [produced, filterMap_snoc, hproduced]
    exact List.append_nil _
  have hq : queued (es ++ [l]) = queued es := by
    rw [queued, filterMap_snoc, hqueued]
    exact List.append_nil _
  obtain hhand | ⟨hhand, hstopped⟩ := hhand
  · refine ⟨?_, fun hr => ?_⟩
    · rw [hp, hq, hhand]
      exact h.order
    · rw [hp, hq, hhand]
      exact h.kept (hrunning hr)
  · refine ⟨?_, fun hr => absurd (hstopped.symm.trans hr) nofun⟩
    rw [hp, hq, hhand, Option.toList_none, List.append_nil]
    exact (List.prefix_append _ _).trans h.order

theorem Captured.step (h : Captured es p) (hstep : Step config p l p') :
    Captured (es ++ [l]) p' := by
  cases hstep with
  | requestKeyframe | requestClose | recv | receives | drops =>
    exact h.quiet rfl rfl (.inl rfl) id
  | opens hworker | reads hworker | skips hworker =>
    refine h.quiet rfl rfl (.inl ?_) ?_ <;> rw [hworker]
    · rfl
    · exact fun _ => rfl
  | openFails hworker | readsClose hworker | nextFails hworker | closes hworker | ends hworker =>
    -- the worker is done and keeps nothing in its hands
    exact h.quiet rfl rfl (.inr ⟨rfl, rfl⟩) nofun
  | @produces requested sdk producer unit hworker hnext =>
    -- too large, the unit is dropped and the worker done; else it waits
    have hp : produced (es ++ [.produces unit]) = produced es ++ [unit] := filterMap_snoc _ _ _
    have hq : queued (es ++ [.produces unit]) = queued es := filterMap_quiet rfl
    have hkept := h.kept (by rw [hworker]; rfl)
    rw [hworker] at hkept
    change queued es ++ [] = produced es at hkept
    rw [List.append_nil] at hkept
    unfold Worker.produced
    split
    · refine ⟨?_, nofun⟩
      rw [hp, hq, hkept]
      exact List.prefix_append_right_inj _ |>.mpr (List.nil_prefix)
    · refine ⟨?_, fun _ => ?_⟩
      · rw [hp, hq, hkept]
        exact List.prefix_rfl
      · rw [hp, hq, hkept]
        rfl
  | @queues unit hworker hclosing hroom =>
    have hp : produced (es ++ [.queues unit]) = produced es := filterMap_quiet rfl
    have hq : queued (es ++ [.queues unit]) = queued es ++ [unit] := filterMap_snoc _ _ _
    have hkept := h.kept (by rw [hworker]; rfl)
    rw [hworker] at hkept
    change queued es ++ [unit] = produced es at hkept
    have hall : queued es ++ [unit] ++ [] = produced es := (List.append_nil _).trans hkept
    refine ⟨?_, fun _ => ?_⟩
    · rw [hp, hq]
      exact hall ▸ List.prefix_rfl
    · rw [hp, hq]
      exact hall

/-! ### Key pictures -/

/-- A key picture is asked for, and the worker has not read it. -/
def Asked (p : Publisher) : Prop := p.shared.keyframeRequested = true

/-- The next unit is to be a key picture, if there is one. -/
def Forced (p : Publisher) : Prop :=
  p.producer.forceKeyframe = true ∨ p.worker = .encoding true ∨ p.worker.running = false

theorem Forced.asked {requested : Bool} (h : Forced p) (hworker : p.worker = .encoding requested) :
    (p.producer.asked requested).forceKeyframe = true := by
  unfold Producer.asked
  unfold Forced at h
  rw [hworker] at h
  cases requested with
  | true => rfl
  | false => exact h.resolve_right (by rintro (h | h) <;> cases h)

/-- What `nextUnit` gives: nothing, or a unit as it was asked for. -/
theorem nextUnit_ok {producer producer' : Producer} {rate : ProducerConfig} {sdk : Answers}
    {unit : Option QueuedUnit} (h : producer.nextUnit rate sdk = .ok (producer', unit)) :
    (unit = none ∧ producer' = producer)
      ∨ ∃ u, unit = some u ∧ (producer.forceKeyframe = true → u.key = true) := by
  obtain ⟨-, hsame, hnone⟩ | ⟨_, _, -, -, -, -, hsame, hnone⟩ | ⟨_, u, -, -, -, hkey, hsome, -⟩ :=
    Producer.nextUnit_cases h
  · exact .inl ⟨hnone, hsame⟩
  · exact .inl ⟨hnone, hsame⟩
  · exact .inr ⟨u, hsome, hkey⟩

theorem Asked.step (h : Asked p) (hstep : Step config p l p')
    (hread : ∀ requested, l ≠ .reads (some requested)) : Asked p' := by
  cases hstep with
  | requestKeyframe =>
    unfold Asked State.requestKeyframe
    split
    · exact h
    · split
      · exact h
      · rfl
  | receives hunit =>
    obtain ⟨queue, -, hrecv⟩ := recv_unit hunit
    unfold Asked
    rw [hrecv]
    exact h
  | reads => exact absurd rfl (hread _)
  | _ => exact h

/-- The worker reads the request, and passes it on. -/
theorem Asked.read {requested : Bool} (h : Asked p)
    (hstep : Step config p (.reads (some requested)) p') : Forced p' := by
  cases hstep with
  | reads hworker hread =>
    refine .inr (.inl ?_)
    unfold State.readRequest at hread
    split at hread
    · cases hread
    · cases hread
      exact congrArg Worker.encoding h

theorem Forced.step (h : Forced p) (hstep : Step config p l p') (hproduced : l.produced = none) :
    Forced p' := by
  cases hstep with
  | @skips requested sdk producer hworker hnext =>
    have hforce := h.asked hworker
    obtain ⟨-, rfl⟩ | ⟨u, hu, -⟩ := nextUnit_ok hnext
    · exact .inl hforce
    · cases hu
  | produces => cases hproduced
  | nextFails | closes | ends | openFails | readsClose => exact .inr (.inr rfl)
  | opens hworker | reads hworker | queues hworker =>
    refine .inl (h.resolve_right ?_)
    rw [hworker]
    rintro (h | h) <;> cases h
  | requestKeyframe | requestClose | recv | receives | drops => exact h

theorem Forced.produces {unit : QueuedUnit} (h : Forced p)
    (hstep : Step config p (.produces unit) p') : unit.key = true := by
  cases hstep with
  | @produces requested sdk producer _ hworker hnext =>
    have hforce := h.asked hworker
    obtain ⟨hu, -⟩ | ⟨u, hu, hkey⟩ := nextUnit_ok hnext
    · cases hu
    · cases hu
      exact hkey hforce

/-- A request that was granted is served by the next unit whose encoding begins
after the worker has read it. -/
theorem keyframe_served {p₀ : Publisher} {before between after : List Label} {requested : Bool}
    {unit : QueuedUnit}
    (hrun : Run (Step config) p₀ (before ++ [.requestKeyframe (.ok ())] ++ between
      ++ [.reads (some requested)] ++ after ++ [.produces unit]) p)
    (hbetween : ∀ l ∈ between, ∀ r, l ≠ .reads (some r))
    (hafter : ∀ l ∈ after, l.produced = none) : unit.key = true := by
  obtain ⟨p₅, hrun, hproduces⟩ := hrun.split
  obtain ⟨p₄, hrun, hafterRun⟩ := hrun.split
  obtain ⟨p₃, hrun, hreads⟩ := hrun.split
  obtain ⟨p₂, hrun, hbetweenRun⟩ := hrun.split
  obtain ⟨p₁, -, hrequest⟩ := hrun.split
  cases hrequest with
  | cons hrequest hnil =>
  cases hnil
  cases hreads with
  | cons hreads hnil =>
  cases hnil
  cases hproduces with
  | cons hproduces hnil =>
  cases hnil
  -- the request is noted, stays noted until it is read, and forces the next unit
  have hasked : Asked p₂ := by
    generalize hlabel : Label.requestKeyframe (.ok ()) = l at hrequest
    cases hrequest with
    | requestKeyframe =>
      rw [Label.requestKeyframe.injEq] at hlabel
      unfold State.requestKeyframe at hlabel
      unfold Asked State.requestKeyframe
      split at hlabel
      · cases hlabel
      · rename_i hopen
        rw [if_neg hopen]
        split at hlabel
        · cases hlabel
        · rfl
    | _ => cases hlabel
  have hasked₃ : Asked p₃ :=
    hbetweenRun.keeps (fun _ _ _ h hread hstep => h.step hstep hread) hbetween hasked
  have hforced : Forced p₅ :=
    hafterRun.keeps (fun _ _ _ h hproduced hstep => h.step hstep hproduced) hafter
      (hasked₃.read hreads)
  exact hforced.produces hproduces

/-! ### The publisher's queue -/

/-- What holds of a publisher in every state, with the steps that led to it. -/
structure Queued (config : PublisherConfig) (es : List Label) (p : Publisher) : Prop where
  /-- The counters are those of the queue and of the guards. -/
  units : p.shared.chargedUnits = p.shared.queue.length + p.guards.length
  bytes : p.shared.queuedBytes = (p.shared.queue.map QueuedUnit.size).sum
    + (p.guards.map EncodedUnit.chargedBytes).sum
  within : p.shared.chargedUnits ≤ config.maxQueuedUnits
    ∧ p.shared.queuedBytes ≤ config.maxQueuedBytes
  /-- No guard's drop stops at zero. -/
  exactly : ∀ guard ∈ p.guards, 1 ≤ p.shared.chargedUnits ∧ guard.chargedBytes ≤ p.shared.queuedBytes
  /-- What was received, then what is queued, is what was queued so far: nothing
  is lost, and nothing is received twice. -/
  order : (received es).map EncodedUnit.unit ++ p.shared.queue = queued es
  /-- Units are queued in the order of their capture, and while the worker runs
  none is given up. -/
  captured : queued es ++ p.worker.inHand.toList <+: produced es
  kept : p.worker.running = true → queued es ++ p.worker.inHand.toList = produced es
  /-- A granted request is served by the next unit encoded after it was read. -/
  served : ∀ before between after requested unit,
    es = before ++ [.requestKeyframe (.ok ())] ++ between ++ [.reads (some requested)] ++ after
      ++ [.produces unit] →
    (∀ l ∈ between, ∀ r, l ≠ .reads (some r)) → (∀ l ∈ after, l.produced = none) →
    unit.key = true

/-- **The queue of the publisher**, for every interleaving of the worker, the
consumer, the guards and whoever asks for a key picture or closes. -/
theorem publisher_queued (hrun : Run (Step config) .opened es p) : Queued config es p := by
  have hall : (∃ ops, Run (Credits.Step config.queueLimits QueuedUnit.size) .empty ops
      (queueOf es p)) ∧ Captured es p := by
    refine hrun.history (P := fun es p => (∃ ops, Run (Credits.Step config.queueLimits
      QueuedUnit.size) .empty ops (queueOf es p)) ∧ Captured es p) ?_ ?_
    · rintro es p l p' ⟨⟨ops, hops⟩, hcaptured⟩ hstep
      obtain ⟨ops', hops'⟩ := step_refines hstep
      exact ⟨⟨ops ++ ops', hops.append hops'⟩, hcaptured.step hstep⟩
    · exact ⟨⟨[], .nil _⟩, ⟨List.prefix_rfl, fun _ => rfl⟩⟩
  obtain ⟨⟨ops, hops⟩, hcaptured⟩ := hall
  have hsound := Credits.sound_run hops
  have hguards : (p.guards.map EncodedUnit.unit).map QueuedUnit.size
      = p.guards.map EncodedUnit.chargedBytes := by
    rw [List.map_map]
    exact List.map_congr_left fun guard _ => guard.charged.symm
  -- the credits are held by the queue and the guards
  have hholders : (queueOf es p).holders
      = ((p.shared.queue ++ p.guards.map EncodedUnit.unit : List QueuedUnit)
          : Multiset QueuedUnit) := by
    rw [← Multiset.coe_add]
    exact add_zero _
  have hunits := hsound.account.units
  have hbytes := hsound.account.bytes
  rw [hholders, Multiset.coe_card, List.length_append, List.length_map] at hunits
  rw [hholders, Multiset.map_coe, Multiset.sum_coe, List.map_append, List.sum_append,
    hguards] at hbytes
  change p.shared.chargedUnits = _ at hunits
  change p.shared.queuedBytes = _ at hbytes
  refine
    { units := hunits
      bytes := hbytes
      within := hsound.within
      exactly := fun guard hguard => ?_
      order := hsound.kept rfl
      captured := hcaptured.order
      kept := hcaptured.kept
      served := ?_ }
  · have hle := List.single_le_sum (fun _ _ => Nat.zero_le _) _
      (List.mem_map_of_mem (f := EncodedUnit.chargedBytes) hguard)
    have hpos := List.length_pos_of_mem hguard
    omega
  · rintro before between after requested unit rfl
    exact keyframe_served hrun

end

/-- A publisher of one small unit at a time. -/
def sampleConfig : PublisherConfig := ⟨1, 16, ⟨30, 1, by decide, by decide⟩⟩

/-- A frame whose picture is as it was asked for. -/
def sampleAnswers : Answers :=
  ⟨.ok (some 0), .ok (), fun key => .ok ⟨[0, 0, 1, 0x65], 0, key⟩, fun _ => .ok ()⟩

/-- A key picture that was asked for, and is received. -/
theorem publisher_queued_received : ∃ es p guard, Run (Step sampleConfig) .opened es p
    ∧ p.guards = [guard] ∧ guard.unit.key = true ∧ Queued sampleConfig es p := by
  have hasked := (Run.single (@Step.opens sampleConfig .opened rfl)).snoc .requestKeyframe
  have hread := hasked.snoc (.reads rfl rfl)
  have hproduced := hread.snoc (@Step.produces sampleConfig _ _ sampleAnswers _ _ rfl rfl)
  have hrun := (hproduced.snoc (.queues rfl rfl rfl)).snoc (.receives rfl)
  exact ⟨_, _, _, hrun, rfl, rfl, publisher_queued hrun⟩

end WindowsPublisher

end RdEngine
