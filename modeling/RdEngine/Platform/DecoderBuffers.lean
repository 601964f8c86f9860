/-
RdEngine/Platform/DecoderBuffers.lean

The buffers the SDK lends to the surface decoder.

A callback lends a buffer by its index.  The worker gets the index with an
event, takes an input buffer again with a unit, and gives the index back before
the call that may recycle it.  What a step does to the indices is said once
(`Moves`, `step_moves`): so no more than `maxCallbacks` of them are out
(`lent_run`), and each is lent, delivered and taken at most once until it is
given back (`chain_run`).
-/
import RdEngine.Platform.DecoderAccounts
import Mathlib.Data.Finset.Sum
import Mathlib.Data.Finset.Option

namespace RdEngine

namespace OhosDecoder

open Lts

variable {limits : DecoderConfig}

/-! ### The indices of the buffers -/

/-- The index of an input buffer, or of an output buffer. -/
abbrev Index := UInt32 ⊕ UInt32

def Event.index : Event → Option Index
  | .input b => some (.inl b.index)
  | .output b => some (.inr b.index)
  | .streamChanged => none

/-- The index the SDK lends with a queued event. -/
def Label.lends : Label → Option Index
  | .post event true => event.index
  | _ => none

/-- The index of the event handed to the worker. -/
def Label.delivers : Label → Option Index
  | .next (.event event) => event.index
  | _ => none

/-- The index of the buffer the worker fills or shows. -/
def Label.takes : Label → Option Index
  | .next (.submit buffer _) => some (.inl buffer.index)
  | .returningOutput i => some (.inr i)
  | _ => none

/-- The index given back to the SDK. -/
def Label.gives : Label → Option Index
  | .returningInput i => some (.inl i)
  | .returningOutput i => some (.inr i)
  | _ => none

/-- How often this was done with an index. -/
def times (f : Label → Option Index) (es : List Label) (k : Index) : Nat :=
  es.countP fun l => f l = some k

/-- The indices lent by the SDK and not given back. -/
def lent (es : List Label) : Finset Index :=
  es.foldl (fun indices l => (indices ∪ l.lends.toFinset) \ l.gives.toFinset) ∅

/-- What is kept about the buffers. -/
structure Buffers where
  indices : Finset Index
  events : List Event
  inputs : List Buffer
  closing : Bool
  /-- the event in the worker's hand -/
  handling : Option Event
  /-- the input buffer in the worker's hand -/
  pushing : Option Buffer

def Worker.eventInHand : Worker → Option Event
  | .handling event => some event
  | _ => none

def Worker.bufferInHand : Worker → Option Buffer
  | .pushing buffer _ => some buffer
  | _ => none

def Decoder.buffers (d : Decoder) : Buffers where
  indices := d.shared.inputIndices.disjSum d.shared.outputIndices
  events := d.shared.events
  inputs := d.shared.inputs
  closing := d.shared.closing
  handling := d.worker.eventInHand
  pushing := d.worker.bufferInHand

/-- The label is about no buffer. -/
def Label.Plain (l : Label) : Prop :=
  l.lends = none ∧ l.delivers = none ∧ l.takes = none ∧ l.gives = none

/-- What a step does to the buffers. -/
inductive Moves (b : Buffers) : Label → Buffers → Prop
  | posts {event : Event} (hclosing : b.closing = false)
      (hfree : ∀ k, event.index = some k → k ∉ b.indices)
      (hroom : b.indices.card < maxCallbacks) :
      Moves b (.post event true)
        { b with
          indices := b.indices ∪ event.index.toFinset, events := b.events ++ [event] }
  | delivers {event : Event} {events : List Event} (hevents : b.events = event :: events)
      (hhand : b.handling = none) :
      Moves b (.next (.event event)) { b with events, handling := some event }
  | takes {buffer : Buffer} {unit : AccessUnit} {inputs : List Buffer}
      (hinputs : b.inputs = buffer :: inputs) (hhand : b.pushing = none) :
      Moves b (.next (.submit buffer unit)) { b with inputs, pushing := some buffer }
  | keeps {buffer : Buffer} (hhand : b.handling = some (.input buffer)) :
      Moves b (.inputAvailable buffer)
        { b with inputs := b.inputs ++ [buffer], handling := none }
  | givesInput {buffer : Buffer} (hhand : b.pushing = some buffer) :
      Moves b (.returningInput buffer.index)
        { b with indices := b.indices \ {.inl buffer.index}, pushing := none }
  | givesOutput {buffer : Buffer} (hhand : b.handling = some (.output buffer)) :
      Moves b (.returningOutput buffer.index)
        { b with indices := b.indices \ {.inr buffer.index}, handling := none }
  | clears {label : Label} (hplain : label.Plain) :
      Moves b label ⟨∅, [], [], true, none, none⟩
  | idle {label : Label} {closing : Bool} {handling : Option Event} {pushing : Option Buffer}
      (hplain : label.Plain) (hclosing : b.closing = true → closing = true)
      (hhandling : handling = b.handling ∨ handling = none)
      (hpushing : pushing = b.pushing ∨ pushing = none) :
      Moves b label { b with closing, handling, pushing }

theorem disjSum_insert_inl (s t : Finset UInt32) (i : UInt32) :
    (insert i s).disjSum t = s.disjSum t ∪ {.inl i} := by
  ext k
  rcases k with j | j <;> simp

theorem disjSum_insert_inr (s t : Finset UInt32) (i : UInt32) :
    s.disjSum (insert i t) = s.disjSum t ∪ {.inr i} := by
  ext k
  rcases k with j | j <;> simp

theorem disjSum_erase_inl (s t : Finset UInt32) (i : UInt32) :
    (s.erase i).disjSum t = s.disjSum t \ {.inl i} := by
  ext k
  rcases k with j | j <;> simp [and_comm]

theorem disjSum_erase_inr (s t : Finset UInt32) (i : UInt32) :
    s.disjSum (t.erase i) = s.disjSum t \ {.inr i} := by
  ext k
  rcases k with j | j <;> simp [and_comm]

/-- A queued event's index was free. -/
theorem insertIndex_indices {s t : State} {event : Event} (h : s.insertIndex event = some t) :
    (∀ k, event.index = some k → k ∉ s.inputIndices.disjSum s.outputIndices)
      ∧ t.inputIndices.disjSum t.outputIndices
        = s.inputIndices.disjSum s.outputIndices ∪ event.index.toFinset := by
  cases event with
  | input b =>
    unfold State.insertIndex at h
    dsimp only at h
    split at h
    · cases h
    · rename_i hfree
      cases h
      refine ⟨?_, disjSum_insert_inl _ _ _⟩
      intro k hk
      cases hk
      rw [Finset.inl_mem_disjSum]
      exact hfree
  | output b =>
    unfold State.insertIndex at h
    dsimp only at h
    split at h
    · cases h
    · rename_i hfree
      cases h
      refine ⟨?_, disjSum_insert_inr _ _ _⟩
      intro k hk
      cases hk
      rw [Finset.inr_mem_disjSum]
      exact hfree
  | streamChanged =>
    cases h
    exact ⟨nofun, (Finset.union_empty _).symm⟩

/-- **Every step moves the buffers in one of eight ways.** -/
theorem step_moves {d d' : Decoder} {l : Label} (h : Step limits d l d') :
    Moves d.buffers l d'.buffers := by
  have hplain : ∀ l : Label, l.lends = none → l.delivers = none → l.takes = none →
      l.gives = none → l.Plain := fun l h₁ h₂ h₃ h₄ => ⟨h₁, h₂, h₃, h₄⟩
  cases h with
  | @submit unit =>
    cases hrejection : d.shared.rejection limits unit with
    | some reason =>
      rw [submit_of_rejection hrejection]
      exact .idle (hplain _ rfl rfl rfl rfl) id (.inl rfl) (.inl rfl)
    | none =>
      rw [submit_of_none hrejection]
      exact .idle (hplain _ rfl rfl rfl rfl) id (.inl rfl) (.inl rfl)
  | @post event =>
    -- only an event that is kept lends its buffer
    obtain ⟨failure, hpost⟩ | ⟨t, hinsert, hclosing, -, hroom, hpost⟩ := post_cases d.shared event
    · rw [hpost]
      exact .idle (hplain _ rfl rfl rfl rfl) id (.inl rfl) (.inl rfl)
    · obtain ⟨hfree, hindices⟩ := insertIndex_indices hinsert
      rw [← Finset.card_disjSum] at hroom
      rw [hpost, insertIndex_eq hinsert]
      show Moves d.buffers _ ⟨t.inputIndices.disjSum t.outputIndices, d.shared.events ++ [event],
        d.shared.inputs, d.shared.closing, d.worker.eventInHand, d.worker.bufferInHand⟩
      rw [hindices]
      exact .posts hclosing hfree hroom
  | @next shared action hworker hnext =>
    -- the worker takes an event, or a buffer with a unit for it
    obtain ⟨s, worker, codec⟩ := d
    cases hworker
    cases action with
    | stop =>
      cases next_stop hnext
      exact .idle (hplain _ rfl rfl rfl rfl) id (.inl rfl) (.inl rfl)
    | event event =>
      obtain ⟨events, hevents, rfl⟩ := next_event hnext
      exact .delivers hevents rfl
    | submit buffer unit =>
      obtain ⟨-, -, -, inputs, packets, hinputs, -, rfl⟩ := next_submit hnext
      exact .takes hinputs rfl
  | inputAvailable hworker =>
    obtain ⟨s, worker, codec⟩ := d
    cases hworker
    exact .keeps rfl
  | @returningOutput buffer sdk frame eos hworker hrender =>
    obtain ⟨s, worker, codec⟩ := d
    cases hworker
    show Moves _ _ ⟨s.inputIndices.disjSum (s.outputIndices.erase buffer.index), s.events,
      s.inputs, s.closing, none, none⟩
    rw [disjSum_erase_inr]
    exact .givesOutput rfl
  | @returningInput buffer unit sdk hworker hpush =>
    obtain ⟨s, worker, codec⟩ := d
    cases hworker
    show Moves _ _ ⟨(s.inputIndices.erase buffer.index).disjSum s.outputIndices, s.events,
      s.inputs, s.closing, none, none⟩
    rw [disjSum_erase_inl]
    exact .givesInput rfl
  | @submitted buffer unit code shared hworker hsubmitted =>
    obtain ⟨s, worker, codec⟩ := d
    cases hworker
    obtain ⟨-, hshared⟩ := submitted_eq hsubmitted
    rw [hshared]
    cases check "OH_VideoDecoder_PushInputBuffer" code with
    | error error => exact .idle (hplain _ rfl rfl rfl rfl) id (.inl rfl) (.inl rfl)
    | ok done => exact .idle (hplain _ rfl rfl rfl rfl) id (.inl rfl) (.inl rfl)
  | @pushRejected buffer unit sdk error shared hworker hpush hsubmitted =>
    -- the push failed before the buffer went back, so it stays lent
    obtain ⟨s, worker, codec⟩ := d
    cases hworker
    obtain ⟨-, hshared⟩ := submitted_eq hsubmitted
    rw [hshared]
    exact .idle (hplain _ rfl rfl rfl rfl) id (.inl rfl) (.inr rfl)
  | @output frame eos clock code hworker hconsume =>
    obtain ⟨s, worker, codec⟩ := d
    cases hworker
    refine .idle (hplain _ rfl rfl rfl rfl) (fun hclosing => ?_) (.inl rfl) (.inl rfl)
    show (eos || s.closing) = true
    rw [show s.closing = true from hclosing, Bool.or_true]
  | closed hworker | quarantine hworker =>
    -- with the codec every buffer is gone
    obtain ⟨s, worker, codec⟩ := d
    cases hworker
    exact .clears (hplain _ rfl rfl rfl rfl)
  | panics howner => exact .clears (hplain _ rfl rfl rfl rfl)
  | panicsLate hshutdown => exact .idle (hplain _ rfl rfl rfl rfl) id (.inr rfl) (.inr rfl)
  | fail => exact .idle (hplain _ rfl rfl rfl rfl) id (.inl rfl) (.inl rfl)
  | requestClose => exact .idle (hplain _ rfl rfl rfl rfl) (fun _ => rfl) (.inl rfl) (.inl rfl)
  | shutdown hworker =>
    exact .idle (hplain _ rfl rfl rfl rfl) (fun _ => rfl) (.inr rfl) (.inr rfl)
  | findFails hworker | createFails hworker | creates hworker | configureFails hworker
  | failedMeanwhile hworker | starts hworker | streamChanged hworker
  | classifyFails hworker | consumeFails hworker
  | reportsAction hworker | noCodec hworker | destroys hworker
  | reportsTeardown hworker | returns hworker =>
    exact .idle (hplain _ rfl rfl rfl rfl) id (.inr rfl) (.inr rfl)

/-! ### How many are out -/

theorem lent_snoc (es : List Label) (l : Label) :
    lent (es ++ [l]) = (lent es ∪ l.lends.toFinset) \ l.gives.toFinset := by
  rw [lent, List.foldl_append]
  rfl

theorem lent_quiet {es : List Label} {l : Label} (hlends : l.lends = none)
    (hgives : l.gives = none) : lent (es ++ [l]) = lent es := by
  rw [lent_snoc, hlends, hgives, Option.toFinset_none, Finset.union_empty, Finset.sdiff_empty]

/-- The indices put down are those that are out, until the decoder closes; and
there are not too many. -/
structure Lent (es : List Label) (b : Buffers) : Prop where
  same : b.closing = false → b.indices = lent es
  bounded : (lent es).card ≤ maxCallbacks

theorem Lent.quiet {es : List Label} {b b' : Buffers} {l : Label} (h : Lent es b)
    (hlends : l.lends = none) (hgives : l.gives = none)
    (hsame : b'.closing = false → b.closing = false ∧ b'.indices = b.indices) :
    Lent (es ++ [l]) b' := by
  have hlent : lent (es ++ [l]) = lent es := lent_quiet hlends hgives
  refine ⟨fun hclosing => ?_, hlent ▸ h.bounded⟩
  obtain ⟨hopen, hindices⟩ := hsame hclosing
  rw [hindices, hlent]
  exact h.same hopen

theorem Lent.step {es : List Label} {b b' : Buffers} {l : Label} (h : Lent es b)
    (hmoves : Moves b l b') : Lent (es ++ [l]) b' := by
  cases hmoves with
  | @posts event hclosing hfree hroom =>
    have hlent : lent (es ++ [.post event true]) = lent es ∪ event.index.toFinset := by
      rw [lent_snoc]
      exact Finset.sdiff_empty
    rw [h.same hclosing] at hroom
    refine ⟨fun _ => ?_, ?_⟩
    · rw [hlent, ← h.same hclosing]
    · have hunion := Finset.card_union_le (lent es) event.index.toFinset
      have hone : event.index.toFinset.card ≤ 1 := by
        cases event.index with
        | none => exact Nat.zero_le _
        | some k => exact le_rfl
      rw [hlent]
      omega
  | @givesInput buffer hhand | @givesOutput buffer hhand =>
    refine ⟨fun hclosing => ?_, ?_⟩
    · rw [lent_snoc]
      show _ = (lent es ∪ ∅) \ _
      rw [Finset.union_empty, ← h.same hclosing]
      rfl
    · rw [lent_snoc]
      show ((lent es ∪ ∅) \ _).card ≤ _
      rw [Finset.union_empty]
      exact (Finset.card_le_card Finset.sdiff_subset).trans h.bounded
  | delivers | takes | keeps => exact h.quiet rfl rfl fun hclosing => ⟨hclosing, rfl⟩
  | clears hplain => exact h.quiet hplain.1 hplain.2.2.2 nofun
  | idle hplain hclosing =>
    refine h.quiet hplain.1 hplain.2.2.2 fun hopen => ⟨?_, rfl⟩
    by_contra hclosed
    rw [Bool.not_eq_false] at hclosed
    exact absurd ((hclosing hclosed).symm.trans hopen) nofun

/-! ### Lent, delivered, taken, given back -/

@[simp] theorem times_snoc (f : Label → Option Index) (es : List Label) (l : Label) (k : Index) :
    times f (es ++ [l]) k = times f es k + if f l = some k then 1 else 0 := by
  rw [times, List.countP_append, List.countP_singleton]
  simp [times]

/-- How often an index waits with some events. -/
def waiting (events : List Event) (k : Index) : Nat := events.countP fun e => e.index = some k

/-- How often an index waits with some input buffers. -/
def available (buffers : List Buffer) (k : Index) : Nat := buffers.countP fun b => .inl b.index = k

@[simp] theorem waiting_nil (k : Index) : waiting [] k = 0 := rfl

@[simp] theorem available_nil (k : Index) : available [] k = 0 := rfl

@[simp] theorem waiting_cons (event : Event) (events : List Event) (k : Index) :
    waiting (event :: events) k = waiting events k + if event.index = some k then 1 else 0 := by
  rw [waiting, List.countP_cons]
  simp [waiting]

@[simp] theorem available_cons (buffer : Buffer) (buffers : List Buffer) (k : Index) :
    available (buffer :: buffers) k
      = available buffers k + if some (.inl buffer.index) = some k then 1 else 0 := by
  rw [available, List.countP_cons]
  simp [available]

@[simp] theorem waiting_snoc (events : List Event) (event : Event) (k : Index) :
    waiting (events ++ [event]) k = waiting events k + if event.index = some k then 1 else 0 := by
  rw [waiting, List.countP_append, List.countP_singleton]
  simp [waiting]

@[simp] theorem available_snoc (buffers : List Buffer) (buffer : Buffer) (k : Index) :
    available (buffers ++ [buffer]) k
      = available buffers k + if some (.inl buffer.index) = some k then 1 else 0 := by
  rw [available, List.countP_append, List.countP_singleton]
  simp [available]

/-- What was done with an index, and where it waits. -/
structure Chain (es : List Label) (b : Buffers) (k : Index) : Prop where
  given : times Label.gives es k + available b.pushing.toList k ≤ times Label.takes es k
  taken : times Label.takes es k + available b.inputs k + waiting b.handling.toList k
    ≤ times Label.delivers es k
  delivered : times Label.delivers es k + waiting b.events k ≤ times Label.lends es k
  lent : times Label.lends es k
    ≤ times Label.gives es k + if k ∈ b.indices ∨ b.closing = true then 1 else 0

theorem times_plain {l : Label} (h : l.Plain) (es : List Label) (k : Index) :
    times Label.lends (es ++ [l]) k = times Label.lends es k
      ∧ times Label.delivers (es ++ [l]) k = times Label.delivers es k
      ∧ times Label.takes (es ++ [l]) k = times Label.takes es k
      ∧ times Label.gives (es ++ [l]) k = times Label.gives es k := by
  obtain ⟨hlends, hdelivers, htakes, hgives⟩ := h
  refine ⟨?_, ?_, ?_, ?_⟩
  · rw [times_snoc, hlends]
    rfl
  · rw [times_snoc, hdelivers]
    rfl
  · rw [times_snoc, htakes]
    rfl
  · rw [times_snoc, hgives]
    rfl

theorem Chain.step {es : List Label} {b b' : Buffers} {l : Label} {k : Index}
    (h : Chain es b k) (hmoves : Moves b l b') : Chain (es ++ [l]) b' k := by
  obtain ⟨hgiven, htaken, hdelivered, hlent⟩ := h
  cases hmoves with
  | @posts event hclosing hfree hroom =>
    -- the codec lends a buffer that it had, so the last link grows
    have hindex : k ∈ b.indices ∪ event.index.toFinset ↔ k ∈ b.indices ∨ event.index = some k := by
      rw [Finset.mem_union, Option.mem_toFinset, Option.mem_def]
    have hnew := hfree k
    constructor
    · simpa [Label.gives, Label.takes] using hgiven
    · simpa [Label.takes, Label.delivers] using htaken
    · simp only [times_snoc, waiting_snoc, Label.delivers, Label.lends]
      grind
    · simp only [times_snoc, Label.gives, Label.lends, hindex]
      grind
  | @delivers event events hevents hhand =>
    -- from the queue of events into the hand of the worker
    rw [hevents, waiting_cons] at hdelivered
    rw [hhand] at htaken
    constructor
    · simpa [Label.gives, Label.takes] using hgiven
    · simp only [times_snoc, waiting_cons, Label.delivers, Label.takes, Option.toList]
      grind
    · simp only [times_snoc, Label.delivers, Label.lends]
      grind
    · simpa [Label.gives, Label.lends] using hlent
  | @takes buffer unit inputs hinputs hhand =>
    -- from the idle inputs into the push
    rw [hinputs, available_cons] at htaken
    rw [hhand] at hgiven
    constructor
    · simp only [times_snoc, available_cons, Label.gives, Label.takes, Option.toList]
      grind
    · simp only [times_snoc, Label.delivers, Label.takes]
      grind
    · simpa [Label.delivers, Label.lends] using hdelivered
    · simpa [Label.gives, Label.lends] using hlent
  | @keeps buffer hhand =>
    -- an input buffer in the hand becomes idle
    rw [hhand] at htaken
    constructor
    · simpa [Label.gives, Label.takes] using hgiven
    · simp only [times_snoc, available_snoc, waiting_cons, Label.delivers, Label.takes,
        Option.toList, Event.index] at htaken ⊢
      grind
    · simpa [Label.delivers, Label.lends] using hdelivered
    · simpa [Label.gives, Label.lends] using hlent
  | @givesInput buffer hhand =>
    rw [hhand] at hgiven
    constructor
    · simp only [times_snoc, available_cons, Label.gives, Label.takes, Option.toList] at hgiven ⊢
      grind
    · simpa [Label.takes, Label.delivers] using htaken
    · simpa [Label.delivers, Label.lends] using hdelivered
    · simp only [times_snoc, Label.gives, Label.lends, Finset.mem_sdiff, Finset.mem_singleton]
      grind
  | @givesOutput buffer hhand =>
    rw [hhand] at htaken
    constructor
    · simp only [times_snoc, Label.gives, Label.takes]
      grind
    · simp only [times_snoc, waiting_cons, Label.delivers, Label.takes, Option.toList,
        Event.index] at htaken ⊢
      grind
    · simpa [Label.delivers, Label.lends] using hdelivered
    · simp only [times_snoc, Label.gives, Label.lends, Finset.mem_sdiff, Finset.mem_singleton]
      grind
  | clears hplain =>
    -- what is dropped loosens the links and breaks none
    obtain ⟨hlends, hdelivers, htakes, hgives⟩ := times_plain hplain es k
    constructor
    · rw [hgives, htakes]
      exact (Nat.le_add_right _ _).trans hgiven
    · rw [htakes, hdelivers]
      exact (Nat.le_add_right _ _).trans ((Nat.le_add_right _ _).trans htaken)
    · rw [hdelivers, hlends]
      exact (Nat.le_add_right _ _).trans hdelivered
    · rw [hlends, hgives, if_pos (.inr rfl)]
      split_ifs at hlent <;> omega
  | @idle _ closing handling pushing hplain hclosing hhandling hpushing =>
    obtain ⟨hlends, hdelivers, htakes, hgives⟩ := times_plain hplain es k
    have hpush : available pushing.toList k ≤ available b.pushing.toList k := by
      obtain rfl | rfl := hpushing
      · exact le_rfl
      · exact Nat.zero_le _
    have hhand : waiting handling.toList k ≤ waiting b.handling.toList k := by
      obtain rfl | rfl := hhandling
      · exact le_rfl
      · exact Nat.zero_le _
    constructor
    · rw [hgives, htakes]
      exact (Nat.add_le_add_left hpush _).trans hgiven
    · rw [htakes, hdelivers]
      exact (Nat.add_le_add_left hhand _).trans htaken
    · rw [hdelivers, hlends]
      exact hdelivered
    · rw [hlends, hgives]
      show _ ≤ _ + if k ∈ b.indices ∨ closing = true then 1 else 0
      split_ifs at hlent ⊢ <;> grind

theorem buffers_run {config : DecoderConfig} {d₀ d : Decoder} {es : List Label}
    (hstart : Decoder.start config = .ok d₀) (hrun : Run (Step config) d₀ es d) :
    Lent es d.buffers ∧ ∀ k, Chain es d.buffers k := by
  cases start_eq hstart
  refine hrun.history (P := fun es d => Lent es d.buffers ∧ ∀ k, Chain es d.buffers k) ?_ ?_
  · rintro es s l t ⟨hlent, hchain⟩ hstep
    have hmoves := step_moves hstep
    exact ⟨hlent.step hmoves, fun k => (hchain k).step hmoves⟩
  · exact ⟨⟨fun _ => rfl, Nat.zero_le _⟩, fun k => ⟨le_rfl, le_rfl, le_rfl, Nat.zero_le _⟩⟩

/-! ### The decoder's accounts -/

/-- What holds of a decoder in every state, with the steps that led to it. -/
structure Accounted (config : DecoderConfig) (es : List Label) (d : Decoder) : Prop where
  /-- What is reserved is what is queued and what the worker has in hand. -/
  units : d.shared.reservedUnits = d.shared.packets.length + d.worker.inFlight.toList.length
  bytes : d.shared.reservedBytes = (d.shared.packets.map AccessUnit.size).sum
    + (d.worker.inFlight.toList.map AccessUnit.size).sum
  within : d.shared.reservedUnits ≤ config.maxQueuedUnits
    ∧ d.shared.reservedBytes ≤ config.maxQueuedBytes
  /-- The worker can give back what its unit reserved. -/
  settles : ∀ unit, d.worker.inFlight = some unit →
    ∀ success, (d.shared.submitted unit.bytes.length success).isSome = true
  /-- Units are handed to the worker in their order, each once. -/
  order : handed es ++ d.shared.packets <+: accepted es
  kept : d.shared.closing = false → handed es ++ d.shared.packets = accepted es
  /-- A rejected submission returns the unit and changes nothing. -/
  rejected : ∀ unit s' rejected, d.shared.submit config unit = (s', .error rejected) →
    s' = d.shared ∧ rejected.unit = unit
  /-- Nothing is accepted after the end of the stream. -/
  ended : ∀ unit ∈ (accepted es).dropLast, unit.kind ≠ .endOfStream
  /-- Few indices are out, and each is handed out once until it is returned. -/
  outstanding : (lent es).card ≤ maxCallbacks
  once : ∀ k, times Label.gives es k ≤ times Label.takes es k
    ∧ times Label.takes es k ≤ times Label.delivers es k
    ∧ times Label.delivers es k ≤ times Label.lends es k
    ∧ times Label.lends es k ≤ times Label.gives es k + 1
  /-- Once closed, every accepted unit was pushed or cancelled. -/
  accepted : d.shared.stats.acceptedUnits = (accepted es).length
  closed : d.shared.stats.closed = true →
    d.shared.stats.acceptedUnits = d.shared.stats.pushedUnits + d.shared.stats.cancelledUnits

/-- **The accounts of the decoder**, for every interleaving of the feeder, the
callbacks and the worker. -/
theorem decoder_accounted {config : DecoderConfig} {d₀ d : Decoder} {es : List Label}
    (hstart : Decoder.start config = .ok d₀) (hrun : Run (Step config) d₀ es d) :
    Accounted config es d := by
  obtain ⟨⟨ops, hops⟩, hbalanced⟩ := books_run hstart hrun
  obtain ⟨hlent, hchain⟩ := buffers_run hstart hrun
  have hsound := Credits.sound_run hops
  -- the credits are held by the queued units and the one in flight
  have hholders : (queueOf es d.books).holders
      = ((d.shared.packets ++ d.worker.inFlight.toList : List AccessUnit) : Multiset AccessUnit) := by
    rw [← Multiset.coe_add]
    exact add_zero _
  have hunits := hsound.account.units
  have hbytes := hsound.account.bytes
  rw [hholders] at hunits hbytes
  refine
    { units := ?_
      bytes := ?_
      within := hsound.within
      settles := ?_
      order := hsound.queued
      kept := hsound.kept
      rejected := fun unit s' rejected => submit_rejected
      ended := hbalanced.ended
      outstanding := hlent.bounded
      once := ?_
      accepted := hbalanced.counted
      closed := ?_ }
  · rw [Multiset.coe_card, List.length_append] at hunits
    exact hunits
  · rw [Multiset.map_coe, Multiset.sum_coe, List.map_append, List.sum_append] at hbytes
    exact hbytes
  · intro unit hflight success
    have hrefund := refund_inFlight hsound hflight
    unfold Credits.Account.refund at hrefund
    split_ifs at hrefund with hbounds
    have hshared : 1 ≤ d.shared.reservedUnits ∧ unit.bytes.length ≤ d.shared.reservedBytes :=
      hbounds
    unfold State.submitted
    rw [if_pos hshared]
    rfl
  -- the chain counts what stands between the links; here only the order remains
  · intro k
    have h := hchain k
    refine ⟨?_, ?_, ?_, ?_⟩
    · exact (Nat.le_add_right _ _).trans h.given
    · exact (Nat.le_add_right _ _).trans ((Nat.le_add_right _ _).trans h.taken)
    · exact (Nat.le_add_right _ _).trans h.delivered
    · refine h.lent.trans (Nat.add_le_add_left ?_ _)
      split_ifs <;> omega
  · intro hclosed
    have hsettled := hbalanced.settled
    rw [(hbalanced.closed hclosed).2.2] at hsettled
    exact hsettled.symm

/-- A decoder that takes one unit at a time. -/
def sampleConfig : DecoderConfig := ⟨.h265, 3840, 2160, 1, 16⟩

def sampleUnit : AccessUnit := ⟨[1, 2, 3], 1, .frame false⟩

/-- An SDK that finds a decoder and configures it. -/
def sampleSetup : SetupAnswers := ⟨true, some [1], 0, true, 0, true, true, 0, 0, 0, 0⟩

def sampleBuffer : Buffer := ⟨0, 1⟩

/-- A unit is handed to the worker, and pushed. -/
def pushedLabels : List Label :=
  [.submit sampleUnit (.ok ()), .creates, .starts, .post (.input sampleBuffer) true,
    .next (.event (.input sampleBuffer)), .inputAvailable sampleBuffer,
    .next (.submit sampleBuffer sampleUnit), .returningInput 0, .submitted sampleUnit true]

/-- A second one waits when the feeder closes, and is cancelled. -/
def cancelledLabels : List Label :=
  [.submit sampleUnit (.ok ()), .requestClose, .next .stop, .shutdown, .destroys, .closed]

theorem run_pushedLabels : Run (Step sampleConfig) ⟨{}, .starting, .absent⟩ pushedLabels
    ⟨{ stats := { acceptedUnits := 1, pushedUnits := 1 } }, .looping, .live⟩ := by
  refine .cons .submit (.cons (@Step.creates _ _ sampleSetup _ rfl rfl) ?_)
  refine .cons (@Step.starts _ _ sampleSetup rfl rfl rfl) (.cons .post ?_)
  refine .cons (.next rfl rfl) (.cons (.inputAvailable rfl) ?_)
  refine .cons (.next rfl rfl) (.cons (@Step.returningInput _ _ sampleBuffer _ ⟨3, 1, 0⟩ rfl rfl) ?_)
  exact .single (@Step.submitted _ _ sampleBuffer _ 0 _ rfl rfl)

theorem run_cancelledLabels : Run (Step sampleConfig)
    ⟨{ stats := { acceptedUnits := 1, pushedUnits := 1 } }, .looping, .live⟩ cancelledLabels
    ⟨{ closing := true
       stats := { acceptedUnits := 2, pushedUnits := 1, cancelledUnits := 1, closed := true } },
      .leaving (.ok ()), .destroyed⟩ := by
  refine .cons .submit (.cons .requestClose (.cons (.next rfl rfl) ?_))
  refine .cons (.shutdown rfl) (.cons (@Step.destroys _ _ _ 0 rfl rfl) ?_)
  exact .single (.closed rfl (.inr rfl))

theorem decoder_accounted_submitted :
    ∃ d₀ d, Decoder.start sampleConfig = .ok d₀
      ∧ Run (Step sampleConfig) d₀ (pushedLabels ++ cancelledLabels) d
      ∧ d.shared.stats =
        { acceptedUnits := 2, pushedUnits := 1, cancelledUnits := 1, closed := true }
      ∧ Accounted sampleConfig (pushedLabels ++ cancelledLabels) d := by
  have hrun := run_pushedLabels.append run_cancelledLabels
  exact ⟨_, _, rfl, hrun, rfl, decoder_accounted rfl hrun⟩

end OhosDecoder

end RdEngine
