/-
RdEngine/Host/Reader.lean

The host's reader (`read_peer`): the loop that takes the records of an
authenticated peer, answers what it may answer and hands pointer and keyboard
events to the platform's injection sink.

The documented policy is that an event which may not be injected is dropped.  A
reader without a sink or without the keyboard permission leaves its loop instead,
so the policy is kept exactly by the armed readers and by the runs in which no
such event is read (`reader_tolerates_iff`).
-/
import RdEngine.Host.Policy

namespace RdEngine

namespace Host

open Input

/-! ### The loop -/

/-- What the reader hands to the sender. -/
inductive Control where
  | reply (message : Message)
  | keyframe
  deriving DecidableEq, Repr

/-- The arguments of `read_peer` that do not change. -/
structure Reader where
  width : Int
  height : Int
  permissions : Permissions
  inputSink : Option InputSink

/-- What one turn of the loop meets: the cancellation, a record, or the end or a
failure of the connection.  `room` says whether the control queue takes an output. -/
inductive ReaderInput where
  | cancelled
  | received (message : Message) (room : Bool)
  | failed
  deriving DecidableEq, Repr

/-- The actions the sink was called with, the counters of the snapshot, and what
was put into the control queue. -/
structure ReaderState where
  calls : List InputAction := []
  injectedInputs : Nat := 0
  refusedInputs : Nat := 0
  droppedChatMessages : Nat := 0
  controls : List Control := []
  deriving DecidableEq, Repr

/-- How a record is handled: with an output or none, or by leaving the loop. -/
inductive Reaction where
  | next (output : Option Control)
  | leave (result : Except HostError Unit)

namespace Reader

/-- `input_sink.filter(|_| permissions.keyboard)`. -/
def sink (reader : Reader) : Option InputSink :=
  reader.inputSink.filter fun _ => reader.permissions.keyboard

def onMisc (reader : Reader) (state : ReaderState) : MiscUnion → ReaderState × Reaction
  | .closeReason _ => (state, .leave (.ok ()))
  | .refreshVideo refresh => (state, .next (if refresh then some .keyframe else none))
  | .refreshVideoDisplay display => (state, .next (if display = 0 then some .keyframe else none))
  | .messageQuery switchDisplay =>
    (state, .next (if switchDisplay = 0 then
      some (.reply (.ofMisc (.switchDisplay { width := reader.width, height := reader.height })))
      else none))
  | .captureDisplays add sub set =>
    if (add ++ set).any (· ≠ 0) then (state, .leave (.error .unsupportedDisplay))
    else if 0 ∈ sub then (state, .leave (.ok ()))
    else (state, .next none)
  | .changeResolution _ _ | .changeDisplayResolution _ _ _ =>
    (state, .leave (.error .unsupportedDisplay))
  | .chatMessage _ =>
    ({ state with droppedChatMessages := state.droppedChatMessages + 1 }, .next none)
  | _ => (state, .next none)

/-- A pointer or keyboard event. -/
def onInput (reader : Reader) (state : ReaderState) (union : MessageUnion) :
    ReaderState × Reaction :=
  match reader.sink with
  | none => (state, .leave (.ok ()))
  | some sink =>
    match decodeMessage union with
    | none => (state, .next none)
    | some action =>
      let called := { state with calls := state.calls ++ [action] }
      if sink state.calls.length action then
        ({ called with injectedInputs := state.injectedInputs + 1 }, .next none)
      else ({ called with refusedInputs := state.refusedInputs + 1 }, .next none)

/-- What the reader does with a message. -/
def onMessage (reader : Reader) (state : ReaderState) (message : Message) :
    ReaderState × Reaction :=
  match message.union with
  | some (.testDelay probe) =>
    (state, .next (if probe.fromClient then some (.reply (.of (.testDelay probe))) else none))
  | some (.misc misc) =>
    match misc.union with
    | some union => reader.onMisc state union
    | none => (state, .next none)
  | some (.mouseEvent event) => reader.onInput state (.mouseEvent event)
  | some (.keyEvent event) => reader.onInput state (.keyEvent event)
  | _ => (state, .next none)

/-- An output goes into the control queue, without waiting for room. -/
def trySend (room : Bool) : ReaderState × Reaction → ReaderState × Option (Except HostError Unit)
  | (state, .leave result) => (state, some result)
  | (state, .next none) => (state, none)
  | (state, .next (some output)) =>
    if room then ({ state with controls := state.controls ++ [output] }, none)
    else (state, some (.error .transportFailed))

/-- One turn of the loop; no result while it goes on. -/
def turn (reader : Reader) (state : ReaderState) :
    ReaderInput → ReaderState × Option (Except HostError Unit)
  | .cancelled => (state, some (.ok ()))
  | .failed => (state, some (.error .transportFailed))
  | .received message room => trySend room (reader.onMessage state message)

/-- `read_peer`, as far as the inputs go. -/
def readPeer (reader : Reader) (state : ReaderState) :
    List ReaderInput → ReaderState × Option (Except HostError Unit)
  | [] => (state, none)
  | input :: inputs =>
    match reader.turn state input with
    | (state, none) => reader.readPeer state inputs
    | (state, some result) => (state, some result)

end Reader

/-! ### The documented policy -/

/-- A record that is a pointer or keyboard event. -/
def isInputMessage (message : Message) : Bool := message.union.any isInput

def ReaderInput.isInput : ReaderInput → Bool
  | .received message _ => isInputMessage message
  | _ => false

namespace Reader

/-- There is a sink, and the session was granted the keyboard. -/
def Armed (reader : Reader) : Prop := reader.sink.isSome = true

/-- The action that may be injected for a record. -/
def permitted (reader : Reader) (message : Message) : Option InputAction :=
  if reader.sink.isSome then message.union.bind decodeMessage else none

/-- The records of a run, up to the first input that ends the loop and is no
pointer or keyboard event. -/
def heard (reader : Reader) : List ReaderInput → List Message
  | [] => []
  | .received message room :: inputs =>
    if isInputMessage message ∨ (reader.turn {} (.received message room)).2.isNone then
      message :: reader.heard inputs
    else [message]
  | _ :: _ => []

/-- What is left of a run when the sink is not looked at. -/
def outcome (run : ReaderState × Option (Except HostError Unit)) :
    Nat × List Control × Option (Except HostError Unit) :=
  (run.1.droppedChatMessages, run.1.controls, run.2)

/-- The sink is called exactly for the permitted actions of the records heard,
and all else is as if the pointer and keyboard events were not there. -/
structure Tolerates (reader : Reader) (inputs : List ReaderInput) : Prop where
  calls : (reader.readPeer {} inputs).1.calls = (reader.heard inputs).filterMap reader.permitted
  rest : outcome (reader.readPeer {} inputs)
    = outcome (reader.readPeer {} (inputs.filter fun input => !input.isInput))

/-! ### One turn -/

variable {reader : Reader}

/-- What the loop does with a record does not depend on what it has counted. -/
theorem reaction_eq (reader : Reader) (s t : ReaderState) (message : Message) :
    (reader.onMessage s message).2 = (reader.onMessage t message).2 := by
  have hinput : ∀ union, (reader.onInput s union).2 = (reader.onInput t union).2 := by
    intro union
    unfold onInput
    cases reader.sink with
    | none => rfl
    | some sink =>
      cases decodeMessage union with
      | none => rfl
      | some action =>
        dsimp only
        split_ifs <;> rfl
  obtain ⟨- | union⟩ := message
  · rfl
  cases union with
  | mouseEvent event => exact hinput _
  | keyEvent event => exact hinput _
  | misc misc =>
    obtain ⟨- | union⟩ := misc
    · rfl
    cases union with
    | captureDisplays add sub set =>
      simp only [onMessage, onMisc]
      split_ifs <;> rfl
    | _ => rfl
  | _ => rfl

theorem trySend_result_eq (room : Bool) {p q : ReaderState × Reaction} (h : p.2 = q.2) :
    (trySend room p).2 = (trySend room q).2 := by
  obtain ⟨s, reaction⟩ := p
  obtain ⟨t, reaction'⟩ := q
  obtain rfl : reaction = reaction' := h
  rcases reaction with (- | output) | result
  · rfl
  · cases room <;> rfl
  · rfl

theorem turn_result_eq (reader : Reader) (s t : ReaderState) (input : ReaderInput) :
    (reader.turn s input).2 = (reader.turn t input).2 := by
  cases input with
  | cancelled | failed => rfl
  | received message room => exact trySend_result_eq room (reaction_eq reader s t message)

/-- Two runs that differ in nothing but what the sink was called with. -/
def Same (s t : ReaderState) : Prop :=
  s.droppedChatMessages = t.droppedChatMessages ∧ s.controls = t.controls

theorem onMessage_same {s t : ReaderState} (h : Same s t) {message : Message}
    (hinput : isInputMessage message = false) :
    Same (reader.onMessage s message).1 (reader.onMessage t message).1 ∧
      (reader.onMessage s message).1.calls = s.calls := by
  obtain ⟨- | union⟩ := message
  · exact ⟨h, rfl⟩
  cases union with
  | mouseEvent | keyEvent => cases hinput
  | misc misc =>
    obtain ⟨- | union⟩ := misc
    · exact ⟨h, rfl⟩
    cases union with
    | captureDisplays add sub set =>
      simp only [onMessage, onMisc]
      split_ifs <;> exact ⟨h, rfl⟩
    | chatMessage text => exact ⟨⟨congrArg (· + 1) h.1, h.2⟩, rfl⟩
    | _ => exact ⟨h, rfl⟩
  | _ => exact ⟨h, rfl⟩

theorem trySend_same (room : Bool) {p q : ReaderState × Reaction} (h : p.2 = q.2)
    (hsame : Same p.1 q.1) :
    Same (trySend room p).1 (trySend room q).1 ∧ (trySend room p).1.calls = p.1.calls := by
  obtain ⟨s, reaction⟩ := p
  obtain ⟨t, reaction'⟩ := q
  obtain rfl : reaction = reaction' := h
  rcases reaction with (- | output) | result
  · exact ⟨hsame, rfl⟩
  · cases room with
    | false => exact ⟨hsame, rfl⟩
    | true => exact ⟨⟨hsame.1, congrArg (· ++ [output]) hsame.2⟩, rfl⟩
  · exact ⟨hsame, rfl⟩

/-- A turn on anything but an event leaves the sink alone. -/
theorem turn_same {s t : ReaderState} (h : Same s t) {input : ReaderInput}
    (hinput : input.isInput = false) :
    Same (reader.turn s input).1 (reader.turn t input).1 ∧
      (reader.turn s input).1.calls = s.calls := by
  cases input with
  | cancelled | failed => exact ⟨h, rfl⟩
  | received message room =>
    obtain ⟨hsame, hcalls⟩ := @onMessage_same reader _ _ h _ hinput
    have hsend := trySend_same room (reaction_eq reader s t message) hsame
    exact ⟨hsend.1, hsend.2.trans hcalls⟩

/-- An event is one for the sink. -/
theorem onMessage_input (s : ReaderState) {message : Message}
    (hinput : isInputMessage message = true) :
    ∃ union, message.union = some union ∧ reader.onMessage s message = reader.onInput s union := by
  obtain ⟨- | union⟩ := message
  · cases hinput
  cases union with
  | mouseEvent | keyEvent => exact ⟨_, rfl, rfl⟩
  | _ => cases hinput

/-- An unarmed reader leaves its loop at an event. -/
theorem turn_unarmed (h : ¬ reader.Armed) (s : ReaderState) {message : Message}
    (hinput : isInputMessage message = true) (room : Bool) :
    reader.turn s (.received message room) = (s, some (.ok ())) := by
  obtain ⟨union, -, hmessage⟩ := @onMessage_input reader s _ hinput
  have hsink : reader.sink = none := by simpa [Armed] using h
  rw [turn, hmessage, onInput, hsink]
  rfl

/-- An armed one gives it to the sink if it is permitted, and goes on. -/
theorem turn_armed (h : reader.Armed) {s t : ReaderState} (hsame : Same s t) {message : Message}
    (hinput : isInputMessage message = true) (room : Bool) :
    (reader.turn s (.received message room)).2 = none ∧
      Same (reader.turn s (.received message room)).1 t ∧
      (reader.turn s (.received message room)).1.calls
        = s.calls ++ (reader.permitted message).toList := by
  obtain ⟨union, hunion, hmessage⟩ := @onMessage_input reader s _ hinput
  obtain ⟨sink, hsink⟩ := Option.isSome_iff_exists.mp h
  have hpermitted : reader.permitted message = decodeMessage union := by
    rw [permitted, if_pos (show reader.sink.isSome = true from h), hunion]
    rfl
  rw [turn, hmessage, onInput, hpermitted, hsink]
  cases haction : decodeMessage union with
  | none => exact ⟨rfl, hsame, by simp [trySend]⟩
  | some action =>
    dsimp only
    split_ifs <;> exact ⟨rfl, hsame, by simp [trySend]⟩

/-! ### Whole runs -/

theorem heard_received (reader : Reader) {message : Message} {room : Bool}
    (h : isInputMessage message = true ∨ (reader.turn {} (.received message room)).2 = none)
    (inputs : List ReaderInput) :
    reader.heard (.received message room :: inputs) = message :: reader.heard inputs := by
  rw [heard, if_pos]
  exact h.imp id fun hnone => by rw [hnone]; rfl

/-- What no event is, is nothing to inject. -/
theorem permitted_of_not_input {message : Message} (h : isInputMessage message = false) :
    reader.permitted message = none := by
  unfold permitted
  split_ifs
  · obtain ⟨- | union⟩ := message
    · rfl
    · cases haction : decodeMessage union with
      | none => exact haction
      | some action =>
        have hinput : isInputMessage ⟨some union⟩ = true := isInput_of_decodeMessage haction
        exact absurd (h.symm.trans hinput) Bool.false_ne_true
  · rfl

/-- What is heard of a part of a run is heard of the whole. -/
theorem heard_mono {before inputs : List ReaderInput} (h : before <+: inputs) {message : Message}
    (hmem : message ∈ reader.heard before) : message ∈ reader.heard inputs := by
  obtain ⟨after, rfl⟩ := h
  induction before with
  | nil => cases hmem
  | cons input before ih =>
    cases input with
    | cancelled | failed => cases hmem
    | received first room =>
      rw [List.cons_append, heard]
      rw [heard] at hmem
      split_ifs at hmem ⊢
      · exact List.mem_cons.mpr ((List.mem_cons.mp hmem).imp id ih)
      · exact hmem

/-- A turn that goes on, on anything but an event, adds nothing to inject. -/
theorem heard_goes {input : ReaderInput} (hinput : input.isInput = false)
    (h : (reader.turn {} input).2 = none) (inputs : List ReaderInput) :
    (reader.heard (input :: inputs)).filterMap reader.permitted
      = (reader.heard inputs).filterMap reader.permitted := by
  cases input with
  | cancelled | failed => cases h
  | received message room =>
    rw [heard_received reader (.inr h), List.filterMap_cons, permitted_of_not_input hinput]

/-- An input that is none for the sink and ends the loop does nothing either. -/
theorem heard_ends {input : ReaderInput} (hinput : input.isInput = false)
    {result : Except HostError Unit} (h : (reader.turn {} input).2 = some result)
    (inputs : List ReaderInput) :
    (reader.heard (input :: inputs)).filterMap reader.permitted = [] := by
  cases input with
  | cancelled | failed => rfl
  | received message room =>
    have hleaves : ¬ (isInputMessage message = true ∨
        (reader.turn {} (.received message room)).2.isNone = true) := by
      rw [h]
      rintro (hevent | hnone)
      · exact absurd (hevent.symm.trans hinput) nofun
      · cases hnone
    rw [heard, if_neg hleaves, List.filterMap_cons, permitted_of_not_input hinput]
    rfl

/-- A run next to the same run without its events, as long as these do not end it. -/
theorem runs_agree (inputs : List ReaderInput)
    (h : reader.Armed ∨ ∀ message ∈ reader.heard inputs, isInputMessage message = false)
    {s t : ReaderState} (hsame : Same s t) :
    outcome (reader.readPeer s inputs)
        = outcome (reader.readPeer t (inputs.filter fun input => !input.isInput)) ∧
      (reader.readPeer s inputs).1.calls
        = s.calls ++ (reader.heard inputs).filterMap reader.permitted := by
  induction inputs generalizing s t with
  | nil => exact ⟨by simp [readPeer, outcome, hsame.1, hsame.2], by simp [readPeer, heard]⟩
  | cons input inputs ih =>
    by_cases hinput : input.isInput = true
    · -- an event: the reader is armed, and goes on
      cases input with
      | cancelled | failed => cases hinput
      | received message room =>
        have hheard := @heard_received reader _ room (.inl hinput) inputs
        rw [hheard] at h
        have harmed : reader.Armed := h.resolve_right fun hquiet =>
          absurd (hinput.symm.trans (hquiet message List.mem_cons_self)) nofun
        obtain ⟨hresult, hnext, hcalls⟩ := turn_armed harmed hsame hinput room
        obtain ⟨hrest, hmore⟩ := ih (.inl harmed) hnext
        rw [List.filter_cons_of_neg (by simp [hinput]), hheard, readPeer]
        rcases hturn : reader.turn s (.received message room) with ⟨s', result⟩
        rw [hturn] at hresult hcalls hrest hmore
        cases hresult
        refine ⟨hrest, hmore.trans ?_⟩
        rw [hcalls, List.append_assoc, List.filterMap_cons]
        cases reader.permitted message <;> rfl
    · -- anything else: both runs take the turn
      have hinput : input.isInput = false := (Bool.not_eq_true _).mp hinput
      obtain ⟨hnext, hcalls⟩ := @turn_same reader _ _ hsame _ hinput
      have hresult := turn_result_eq reader s t input
      have hfirst := turn_result_eq reader s {} input
      rw [List.filter_cons_of_pos (by simp [hinput]), readPeer, readPeer]
      rcases hs : reader.turn s input with ⟨s', - | result⟩ <;>
        rcases ht : reader.turn t input with ⟨t', - | result'⟩ <;>
        rw [hs, ht] at hresult hnext <;> rw [hs] at hcalls hfirst <;> cases hresult
      · have hquiet : reader.Armed ∨
            ∀ message ∈ reader.heard inputs, isInputMessage message = false := by
          refine h.imp id fun hquiet message hmem => hquiet message ?_
          cases input with
          | cancelled | failed => cases hs
          | received first room =>
            rw [heard_received reader (.inr hfirst.symm)]
            exact List.mem_cons_of_mem first hmem
        obtain ⟨hrest, hmore⟩ := ih hquiet hnext
        exact ⟨hrest, by rw [heard_goes hinput hfirst.symm, hmore, hcalls]⟩
      · refine ⟨?_, ?_⟩
        · rw [outcome, outcome, hnext.1, hnext.2]
        · rw [heard_ends hinput hfirst.symm, List.append_nil]
          exact hcalls

/-- An unarmed reader that is told of an event is ended by it. -/
theorem ended_by_event (h : ¬ reader.Armed) {inputs : List ReaderInput}
    (hevent : ∃ message ∈ reader.heard inputs, isInputMessage message = true)
    (s t : ReaderState) :
    ∃ before, before <+: inputs ∧ (reader.readPeer s before).2.isSome = true ∧
      (reader.readPeer t (before.filter fun input => !input.isInput)).2 = none := by
  induction inputs generalizing s t with
  | nil =>
    obtain ⟨_, hmem, -⟩ := hevent
    cases hmem
  | cons input inputs ih =>
    cases input with
    | cancelled | failed =>
      obtain ⟨_, hmem, -⟩ := hevent
      cases hmem
    | received message room =>
      by_cases hinput : isInputMessage message = true
      · refine ⟨[.received message room], ⟨inputs, rfl⟩, ?_, ?_⟩
        · rw [readPeer, turn_unarmed h s hinput room]
          rfl
        · rw [List.filter_cons_of_neg (by simp [ReaderInput.isInput, hinput])]
          rfl
      · -- the reader goes on, for something is heard behind it
        have hgoes : (reader.turn {} (.received message room)).2 = none := by
          by_contra hends
          obtain ⟨heardMessage, hmem, hheard⟩ := hevent
          rw [heard, if_neg (by simp [hinput, hends]), List.mem_singleton] at hmem
          exact hinput (hmem ▸ hheard)
        rw [heard_received reader (.inr hgoes)] at hevent
        obtain ⟨first, hmem, hfirst⟩ := hevent
        have hlater : first ∈ reader.heard inputs :=
          (List.mem_cons.mp hmem).resolve_left fun heq => hinput (heq ▸ hfirst)
        rcases hs : reader.turn s (.received message room) with ⟨s', result⟩
        rcases ht : reader.turn t (.received message room) with ⟨t', result'⟩
        obtain ⟨before, hstarts, hsome, hnone⟩ := ih ⟨first, hlater, hfirst⟩ s' t'
        have hresult := turn_result_eq reader s {} (.received message room)
        have hresult' := turn_result_eq reader t {} (.received message room)
        rw [hs, hgoes] at hresult
        rw [ht, hgoes] at hresult'
        cases hresult
        cases hresult'
        refine ⟨.received message room :: before, List.cons_prefix_cons.mpr ⟨rfl, hstarts⟩, ?_, ?_⟩
        · rw [readPeer, hs]
          exact hsome
        · rw [List.filter_cons_of_pos (by simp [ReaderInput.isInput, hinput]), readPeer, ht]
          exact hnone

/-- **The reader tolerates what it may not inject exactly if it is armed or told of
nothing to inject**, at every point of every run. -/
theorem reader_tolerates_iff (reader : Reader) (inputs : List ReaderInput) :
    (∀ before, before <+: inputs → reader.Tolerates before) ↔
      reader.Armed ∨ ∀ message ∈ reader.heard inputs, isInputMessage message = false := by
  constructor
  · intro h
    by_contra hboth
    obtain ⟨hunarmed, hevent⟩ := not_or.mp hboth
    have hevent : ∃ message ∈ reader.heard inputs, isInputMessage message = true := by
      simpa using hevent
    obtain ⟨before, hstarts, hsome, hnone⟩ := ended_by_event hunarmed hevent {} {}
    have hrest := congrArg (fun o => o.2.2) (h before hstarts).rest
    have hgoes : (reader.readPeer {} before).2 = none := hrest.trans hnone
    rw [hgoes] at hsome
    cases hsome
  · intro h before hstarts
    have hbefore : reader.Armed ∨
        ∀ message ∈ reader.heard before, isInputMessage message = false :=
      h.imp id fun hquiet message hmem => hquiet message (heard_mono hstarts hmem)
    obtain ⟨hrest, hcalls⟩ := runs_agree before hbefore (s := {}) (t := {}) ⟨rfl, rfl⟩
    exact ⟨hcalls, hrest⟩

/-- A host that only shows its screen: the first move of the pointer ends the session. -/
theorem reader_not_tolerant : ¬ ∀ (reader : Reader) (inputs before : List ReaderInput),
    before <+: inputs → reader.Tolerates before := by
  intro h
  have hrest := (h ⟨1920, 1080, {}, none⟩ [.received (.of (.mouseEvent { x := 1, y := 1 })) true] _
    (List.prefix_refl _)).rest
  have hresult : some (.ok ()) = (none : Option (Except HostError Unit)) :=
    congrArg (fun o => o.2.2) hrest
  cases hresult

end Reader

end Host

end RdEngine
