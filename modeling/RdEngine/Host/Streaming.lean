/-
RdEngine/Host/Streaming.lean

What a serving host sends is exact.

The sender has two sources: the queue of the reader and the publisher.  It handles one
thing at a time, and leaves its loop with the first that it cannot write.  So the
pictures on the connection are the units of the publisher, in their order and without a
gap, and the answers are those to what the peer has asked, in its order (`Streams`).
The counters of the snapshot are those of the pictures (`Counted`).
-/
import RdEngine.Host.Captures

namespace RdEngine

namespace Host

open Lts

/-! ### Questions and answers -/

def isVideo (message : Message) : Bool :=
  match message.union with
  | some (.videoFrame _) => true
  | _ => false

theorem video_isVideo {unit : EncodedUnit} {codec : Codec} {message : Message}
    (h : video unit codec = .ok message) : isVideo message = true := by
  unfold video at h
  split at h
  · cases h
  · cases h
    rfl

def ReaderInput.message? : ReaderInput → Option Message
  | .received message _ => some message
  | .cancelled | .failed => none

def Control.reply? : Control → Option Message
  | .reply message => some message
  | .keyframe => none

namespace Reader

variable {reader : Reader} {s : ReaderState}

/-- What a record asks the sender for. -/
def answer (reader : Reader) (message : Message) : Option Control :=
  match (reader.onMessage {} message).2 with
  | .next output => output
  | .leave _ => none

theorem onMisc_controls (misc : MiscUnion) : (reader.onMisc s misc).1.controls = s.controls := by
  cases misc with
  | captureDisplays add sub set =>
    simp only [onMisc]
    split_ifs <;> rfl
  | _ => rfl

theorem onInput_controls (union : MessageUnion) :
    (reader.onInput s union).1.controls = s.controls := by
  unfold onInput
  cases reader.sink with
  | none => rfl
  | some sink =>
    cases Input.decodeMessage union with
    | none => rfl
    | some action =>
      dsimp only
      split_ifs <;> rfl

theorem onMessage_controls (message : Message) :
    (reader.onMessage s message).1.controls = s.controls := by
  obtain ⟨- | union⟩ := message
  · rfl
  cases union with
  | mouseEvent event => exact onInput_controls _
  | keyEvent event => exact onInput_controls _
  | misc misc =>
    obtain ⟨- | union⟩ := misc
    · rfl
    · exact onMisc_controls union
  | _ => rfl

/-- No answer is a picture. -/
theorem answer_not_video {message reply : Message} (h : reader.answer message = some (.reply reply)) :
    isVideo reply = false := by
  -- an event is answered by nothing
  have hinput : ∀ union, (reader.onInput {} union).2 ≠ .next (some (.reply reply)) := by
    intro union
    unfold onInput
    cases reader.sink with
    | none => nofun
    | some sink =>
      cases Input.decodeMessage union with
      | none => nofun
      | some action =>
        dsimp only
        split_ifs <;> nofun
  have hnext : (reader.onMessage {} message).2 = .next (some (.reply reply)) := by
    unfold answer at h
    split at h
    · next houtput => rw [houtput, h]
    · cases h
  obtain ⟨- | union⟩ := message
  · cases hnext
  cases union with
  | mouseEvent event => exact absurd hnext (hinput _)
  | keyEvent event => exact absurd hnext (hinput _)
  | testDelay probe =>
    unfold onMessage at hnext
    dsimp only at hnext
    split at hnext
    · cases hnext
      rfl
    · cases hnext
  | misc misc =>
    obtain ⟨- | union⟩ := misc
    · cases hnext
    unfold onMessage onMisc at hnext
    cases union with
    | messageQuery switchDisplay =>
      dsimp only at hnext
      split at hnext
      · cases hnext
        rfl
      · cases hnext
    | refreshVideo | refreshVideoDisplay =>
      dsimp only at hnext
      split at hnext
      · cases hnext
      · cases hnext
    | captureDisplays =>
      dsimp only at hnext
      split_ifs at hnext
      cases hnext
    | _ => cases hnext
  | _ => cases hnext

/-- **A turn that goes on hands over what was asked for.** -/
theorem turn_controls (input : ReaderInput) :
    (reader.turn s input).1.controls = s.controls ++
      if (reader.turn s input).2 = none then (input.message?.bind reader.answer).toList else [] := by
  cases input with
  | cancelled | failed => exact (List.append_nil _).symm
  | received message room =>
    have hsame := @onMessage_controls reader s message
    have hanswer : reader.answer message = match (reader.onMessage s message).2 with
        | .next output => output
        | .leave _ => none := by
      rw [reaction_eq reader s {} message]
      rfl
    show (trySend room (reader.onMessage s message)).1.controls = _ ++
      if (trySend room (reader.onMessage s message)).2 = none then
        (reader.answer message).toList else []
    rw [hanswer]
    rcases hmessage : reader.onMessage s message with ⟨t, (- | output) | result⟩
    all_goals rw [hmessage] at hsame
    · exact hsame.trans (List.append_nil _).symm
    · cases room with
      | true => exact congrArg (· ++ [output]) hsame
      | false => exact hsame.trans (List.append_nil _).symm
    · exact hsame.trans (List.append_nil _).symm

end Reader

/-! ### One session -/

namespace PeerSession

/-- What the peer has asked the sender for. -/
def asked (p : PeerSession) : List Control :=
  (p.inputs.filterMap ReaderInput.message?).filterMap p.reader.answer

/-- What the sender has written of the pictures. -/
def pictures (p : PeerSession) : List Message := p.written.filter isVideo

/-- What the sender has written besides. -/
def answers (p : PeerSession) : List Message := p.written.filter fun m => !isVideo m

/-- The replies the sender has taken. -/
def replies (p : PeerSession) : List Message :=
  (p.heard.controls.take p.taken).filterMap Control.reply?

end PeerSession

/-- The sender holds nothing that is to be written. -/
def Sender.atRest : Sender → Bool
  | .created | .opening | .looping => true
  | _ => false

/-- The sender is out of its loop. -/
def Sender.hasLeft : Sender → Bool
  | .closing _ | .returned _ | .panicked => true
  | _ => false

/-- Where the sender is between its sources and the connection: `sent` are the units
that are written. -/
inductive Flow (p : PeerSession) (sent : List EncodedUnit) : Prop
  | idle (hsender : p.sender.atRest = true) (hunits : p.units = sent)
      (hreplies : p.answers = p.replies)
  | picture (message : Message) (unit : EncodedUnit)
      (hsender : p.sender = .sending message (some unit)) (hunits : p.units = sent ++ [unit])
      (hvideo : video unit p.codec = .ok message) (hreplies : p.answers = p.replies)
  | reply (message : Message) (hsender : p.sender = .sending message none) (hunits : p.units = sent)
      (hvideo : isVideo message = false) (hreplies : p.answers ++ [message] = p.replies)
  | ended (hsender : p.sender.hasLeft = true)
      (hunits : ∃ lost : Option EncodedUnit, p.units = sent ++ lost.toList)
      (hreplies : p.answers <+: p.replies)

/-- The sender writes what its sources give it. -/
structure Streams (p : PeerSession) (sent : List EncodedUnit) : Prop where
  taken : p.taken ≤ p.heard.controls.length
  heard : p.heard.controls <+: p.asked
  hears : p.readerResult = none → p.heard.controls = p.asked
  pictures : List.Forall₂ (fun unit message => video unit p.codec = .ok message) sent p.pictures
  flow : Flow p sent

variable {stopped : Bool} {p p' : PeerSession} {k : PeerSession.Label} {sent : List EncodedUnit}

/-- No answer that is on its way is a picture. -/
theorem Streams.reply_not_video (h : Streams p sent) {message : Message}
    (hmem : .reply message ∈ p.heard.controls) : isVideo message = false := by
  have hasked := h.heard.subset hmem
  obtain ⟨question, -, hanswer⟩ := List.mem_filterMap.mp hasked
  exact Reader.answer_not_video hanswer

/-- The sender leaves its loop. -/
theorem Flow.leave (h : Flow p sent) (hunits : p'.units = p.units)
    (hanswers : p'.answers = p.answers) (hreplies : p.replies <+: p'.replies)
    (hsender : p'.sender.hasLeft = true) : Flow p' sent := by
  cases h with
  | idle _ hsent hsame =>
    refine .ended hsender ⟨none, ?_⟩ ?_
    · rw [hunits, hsent]
      exact (List.append_nil _).symm
    · rw [hanswers, hsame]
      exact hreplies
  | picture message unit _ hsent _ hsame =>
    refine .ended hsender ⟨some unit, ?_⟩ ?_
    · rw [hunits, hsent]
      rfl
    · rw [hanswers, hsame]
      exact hreplies
  | reply message _ hsent _ hsame =>
    refine .ended hsender ⟨none, ?_⟩ ?_
    · rw [hunits, hsent]
      exact (List.append_nil _).symm
    · rw [hanswers]
      refine (List.prefix_append _ [message]).trans ?_
      rw [hsame]
      exact hreplies
  | ended _ hsent hpart =>
    refine .ended hsender ?_ ?_
    · rw [hunits]
      exact hsent
    · rw [hanswers]
      exact hpart.trans hreplies

theorem Flow.frame (h : Flow p sent) (hsender : p'.sender = p.sender) (hunits : p'.units = p.units)
    (hcodec : p'.codec = p.codec) (hanswers : p'.answers = p.answers)
    (hreplies : p'.replies = p.replies) : Flow p' sent := by
  cases h with
  | idle hrest hsent hsame =>
    exact .idle (hsender ▸ hrest) (hunits.trans hsent) (hanswers.trans (hsame.trans hreplies.symm))
  | picture message unit hsends hsent hvideo hsame =>
    exact .picture message unit (hsender.trans hsends) (hunits.trans hsent) (hcodec ▸ hvideo)
      (hanswers.trans (hsame.trans hreplies.symm))
  | reply message hsends hsent hvideo hsame =>
    exact .reply message (hsender.trans hsends) (hunits.trans hsent) hvideo
      (by rw [hanswers, hreplies, hsame])
  | ended hend hsent hpart =>
    exact .ended (hsender ▸ hend) (hunits ▸ hsent) (by rw [hanswers, hreplies]; exact hpart)

/-- The sender takes the next control. -/
theorem PeerSession.take_queue {control : Control} {rest : List Control}
    (h : p.queue = control :: rest) :
    p.taken + 1 ≤ p.heard.controls.length ∧
      p.heard.controls.take (p.taken + 1) = p.heard.controls.take p.taken ++ [control] := by
  have hnext : p.heard.controls[p.taken]? = some control := by
    rw [← List.head?_drop]
    exact congrArg List.head? h
  refine ⟨(List.getElem?_eq_some_iff.mp hnext).1, ?_⟩
  rw [List.take_add_one, hnext]
  rfl

theorem Flow.atRest (h : Flow p sent) (hrest : p.sender.atRest = true) :
    p.units = sent ∧ p.answers = p.replies := by
  cases h with
  | idle _ hunits hreplies => exact ⟨hunits, hreplies⟩
  | picture _ _ hsends | reply _ hsends =>
    rw [hsends] at hrest
    cases hrest
  | ended hleft =>
    generalize p.sender = sender at hrest hleft
    cases sender with
    | created | opening | looping => cases hleft
    | _ => cases hrest

theorem Flow.sending (h : Flow p sent) {message : Message} {unit : Option EncodedUnit}
    (hsender : p.sender = .sending message unit) :
    p.units = sent ++ unit.toList ∧ (∀ u, unit = some u → video u p.codec = .ok message) ∧
      isVideo message = unit.isSome ∧
      p.replies = p.answers ++ if unit.isSome then [] else [message] := by
  cases h with
  | idle hrest =>
    rw [hsender] at hrest
    cases hrest
  | picture _ u hsends hunits hvideo hreplies =>
    cases hsender.symm.trans hsends
    refine ⟨hunits, fun unit hunit => ?_, video_isVideo hvideo, ?_⟩
    · obtain rfl : u = unit := Option.some.inj hunit
      exact hvideo
    · exact hreplies.symm.trans (List.append_nil _).symm
  | reply _ hsends hunits hvideo hreplies =>
    cases hsender.symm.trans hsends
    exact ⟨hunits.trans (List.append_nil _).symm, nofun, hvideo, hreplies.symm⟩
  | ended hleft =>
    rw [hsender] at hleft
    cases hleft

/-- The unit of a picture that is written. -/
def PeerSession.Label.picture? : PeerSession.Label → Option EncodedUnit
  | .writes _ unit => unit
  | _ => none

theorem PeerSession.asked_reads (p : PeerSession) (input : ReaderInput) :
    ({ p with inputs := p.inputs ++ [input] } : PeerSession).asked
      = p.asked ++ (input.message?.bind p.reader.answer).toList := by
  unfold PeerSession.asked
  rw [List.filterMap_append, List.filterMap_append]
  cases input with
  | cancelled | failed => rfl
  | received message room => congr 1

theorem Streams.unpictured (hk : k.picture? = none) (h : Streams p' sent) :
    Streams p' (sent ++ k.picture?.toList) := by
  rw [hk, Option.toList_none, List.append_nil]
  exact h

/-- **What a step of the two tasks writes is what is due.** -/
theorem Streams.step (h : Streams p sent) (hstep : PeerSession.Step stopped p k p') :
    Streams p' (sent ++ k.picture?.toList) := by
  have hpart : p.replies <+: p.replies := List.prefix_rfl
  -- the ends of the loop, all alike
  have hleave : ∀ {q : PeerSession}, q.reader = p.reader → q.inputs = p.inputs →
      q.codec = p.codec → q.written = p.written → q.taken = p.taken → q.units = p.units →
      q.sender.hasLeft = true → Streams q sent := by
    intro q hreader hinputs hcodec hwritten htaken hunits hend
    obtain ⟨qcodec, qreader, qinputs, _, qtaken, qsender, _, qunits, qwritten, _⟩ := q
    obtain rfl : qreader = p.reader := hreader
    obtain rfl : qinputs = p.inputs := hinputs
    obtain rfl : qcodec = p.codec := hcodec
    obtain rfl : qwritten = p.written := hwritten
    obtain rfl : qtaken = p.taken := htaken
    exact ⟨h.taken, h.heard, h.hears, h.pictures, h.flow.leave hunits rfl hpart hend⟩
  cases hstep with
  | @reads input hreader hcancelled hroom =>
    obtain ⟨hheard, hresult⟩ := p.heard_reads hreader input
    have hgoes := h.hears (PeerSession.goes hreader)
    have hcontrols := p.reader.turn_controls (s := p.heard) input
    rw [← hheard, ← hresult] at hcontrols
    have hmore := hcontrols ▸ List.prefix_append p.heard.controls _
    rw [hgoes] at hcontrols
    apply Streams.unpictured rfl
    refine ⟨h.taken.trans hmore.length_le, ?_, fun hnone => ?_, h.pictures,
      h.flow.frame rfl rfl rfl rfl ?_⟩
    · rw [hcontrols, p.asked_reads, List.prefix_append_right_inj]
      split
      · exact List.prefix_rfl
      · exact List.nil_prefix
    · rw [hcontrols, p.asked_reads, if_pos hnone]
    · -- what was taken was there before
      obtain ⟨more, hmore⟩ := hmore
      show (List.take p.taken _).filterMap _ = (List.take p.taken _).filterMap _
      rw [← hmore, List.take_append_of_le_length h.taken]
  | readerPanics hreader =>
    apply Streams.unpictured rfl
    exact ⟨h.taken, h.heard, h.hears, h.pictures, h.flow.frame rfl rfl rfl rfl rfl⟩
  | skips | openRefused | openUnconfirmed | loopCancelled | queueEnds | publisherEnds
  | publisherFails | writeCancelled | writeFails | closes | closeFails | senderPanics =>
    exact .unpictured rfl (hleave rfl rfl rfl rfl rfl rfl rfl)
  | opens hsender =>
    apply Streams.unpictured rfl
    obtain ⟨hunits, hreplies⟩ := h.flow.atRest (by rw [hsender]; rfl)
    exact ⟨h.taken, h.heard, h.hears, h.pictures, .idle rfl hunits hreplies⟩
  | opened hsender =>
    apply Streams.unpictured rfl
    obtain ⟨hunits, hreplies⟩ := h.flow.atRest (by rw [hsender]; rfl)
    exact ⟨h.taken, h.heard, h.hears, h.pictures, .idle rfl hunits hreplies⟩
  | @takesReply message rest hsender hqueue =>
    apply Streams.unpictured rfl
    obtain ⟨hunits, hreplies⟩ := h.flow.atRest (by rw [hsender]; rfl)
    obtain ⟨htaken, htake⟩ := PeerSession.take_queue hqueue
    have hvideo : isVideo message = false := by
      have hmem : .reply message ∈ p.queue := by
        rw [hqueue]
        exact List.mem_cons_self
      exact h.reply_not_video (List.mem_of_mem_drop hmem)
    refine ⟨htaken, h.heard, h.hears, h.pictures, .reply message rfl hunits hvideo ?_⟩
    show p.answers ++ [message] = (List.take (p.taken + 1) p.heard.controls).filterMap _
    rw [htake, List.filterMap_append, hreplies]
    rfl
  | takesKeyframe hsender hqueue =>
    apply Streams.unpictured rfl
    obtain ⟨hunits, hreplies⟩ := h.flow.atRest (by rw [hsender]; rfl)
    obtain ⟨htaken, htake⟩ := PeerSession.take_queue hqueue
    refine ⟨htaken, h.heard, h.hears, h.pictures, .idle (by rw [hsender]; rfl) hunits ?_⟩
    show p.answers = (List.take (p.taken + 1) p.heard.controls).filterMap _
    rw [htake, List.filterMap_append, hreplies]
    exact (List.append_nil _).symm
  | keyframeFails hsender hqueue =>
    apply Streams.unpictured rfl
    obtain ⟨htaken, htake⟩ := PeerSession.take_queue hqueue
    refine ⟨htaken, h.heard, h.hears, h.pictures, h.flow.leave rfl rfl ?_ rfl⟩
    show p.replies <+: (List.take (p.taken + 1) p.heard.controls).filterMap _
    rw [htake, List.filterMap_append]
    exact List.prefix_append _ _
  | @yields unit message hsender hvideo =>
    apply Streams.unpictured rfl
    obtain ⟨hunits, hreplies⟩ := h.flow.atRest (by rw [hsender]; rfl)
    exact ⟨h.taken, h.heard, h.hears, h.pictures,
      .picture message unit rfl (congrArg (· ++ [unit]) hunits) hvideo hreplies⟩
  | @yieldsInvalid unit error hsender hvideo =>
    apply Streams.unpictured rfl
    obtain ⟨hunits, hreplies⟩ := h.flow.atRest (by rw [hsender]; rfl)
    exact ⟨h.taken, h.heard, h.hears, h.pictures, .ended rfl
      ⟨some unit, congrArg (· ++ [unit]) hunits⟩ (hreplies ▸ hpart)⟩
  | @writes message unit hsender =>
    obtain ⟨hunits, hvideo, hkind, hreplies⟩ := h.flow.sending hsender
    cases unit with
    | none =>
      refine ⟨h.taken, h.heard, h.hears, ?_, .idle rfl hunits ?_⟩
      · show List.Forall₂ _ _ (List.filter _ (p.written ++ [message]))
        rw [List.filter_append, List.filter_singleton, hkind]
        exact List.rel_append h.pictures .nil
      · show List.filter _ (p.written ++ [message]) = p.replies
        rw [List.filter_append, List.filter_singleton, hkind, hreplies]
        rfl
    | some unit =>
      refine ⟨h.taken, h.heard, h.hears, ?_, .idle rfl hunits ?_⟩
      · show List.Forall₂ _ _ (List.filter _ (p.written ++ [message]))
        rw [List.filter_append, List.filter_singleton, hkind]
        exact List.rel_append h.pictures (.cons (hvideo unit rfl) .nil)
      · show List.filter _ (p.written ++ [message]) = p.replies
        rw [List.filter_append, List.filter_singleton, hkind, hreplies]
        rfl

/-! ### The whole host -/

variable {box : SecretBox} {proto : Protobuf Message} {sha256 : Bytes → Bytes}
  {options : StartOptions} {selection : CodecSelection} {s t : Server} {l : Label}
  {nextRequest : Nat} {ls : List Label}

/-- The counters are those of these units. -/
def Counts (snapshot : HostSnapshot) (sent : List EncodedUnit) : Prop :=
  snapshot.sentUnits = sent.length ∧ snapshot.sentBytes = (sent.map (·.data.length)).sum

/-- The two tasks count what they write. -/
theorem Counts.peer (h : Counts s.snapshot sent) :
    Counts (s.peerStep p p' k).snapshot (sent ++ k.picture?.toList) := by
  have hnone : Counts s.snapshot (sent ++ []) := by rwa [List.append_nil]
  cases k with
  | writes message unit =>
    cases unit with
    | none => exact hnone
    | some unit =>
      constructor
      · show s.snapshot.sentUnits + 1 = (sent ++ [unit]).length
        rw [h.1, List.length_append]
        rfl
      · show s.snapshot.sentBytes + unit.data.length = ((sent ++ [unit]).map _).sum
        rw [h.2, List.map_append, List.sum_append]
        rfl
  | _ => exact hnone

/-- The counters of the snapshot are those of the session. -/
structure Counted (s : Server) : Prop where
  session : ∀ p, s.session = some p → ∃ sent, Streams p sent ∧ Counts s.snapshot sent
  idle : s.session = none → s.approval.task.busy = true → Counts s.snapshot []
  due : .authenticating ∉ s.due

/-- Only `accept` brings a connection. -/
theorem busy_before {options : HostOptions} {s t : HostState} {l : HostLabel}
    (h : HostStep box proto sha256 options s l t) (haccept : l ≠ .accept)
    (hbusy : t.task.busy = true) : s.task.busy = true := by
  cases h with
  | approve requestId allow =>
    rcases approve_cases s requestId allow with hsame | ⟨_, _, _, _, hfirst⟩
    · rwa [hsame] at hbusy
    · rwa [hfirst] at hbusy
  | notify | requestClose | otherRequest => exact hbusy
  | accept => exact absurd rfl haccept
  | draw htask | clear htask | established htask | call _ _ _ htask | returned htask =>
    rw [htask]
    rfl
  | gone hbefore => exact hbefore
  | leave | stop => cases hbusy

theorem Server.Step.busy (h : Server.Step box proto sha256 options selection s l t)
    (haccept : l ≠ .host .accept) (hbusy : t.approval.task.busy = true) :
    s.approval.task.busy = true := by
  cases hlabel : l.host? with
  | none => rwa [h.approval_eq hlabel] at hbusy
  | some k =>
    refine busy_before (h.host hlabel) ?_ hbusy
    rintro rfl
    cases l with
    | host label => exact haccept (congrArg Label.host (Option.some.inj hlabel))
    | _ => cases hlabel

/-- A step that neither counts nor touches the session. -/
theorem Counted.keep (h : Counted s) (hstep : Server.Step box proto sha256 options selection s l t)
    (haccept : l ≠ .host .accept) (hsession : t.session = s.session)
    (hcounts : ∀ sent, Counts s.snapshot sent → Counts t.snapshot sent)
    (hdue : .authenticating ∈ t.due → .authenticating ∈ s.due) : Counted t where
  session p hp := by
    obtain ⟨sent, hstreams, hsent⟩ := h.session p (hsession ▸ hp)
    exact ⟨sent, hstreams, hcounts sent hsent⟩
  idle hnone hbusy := hcounts [] (h.idle (hsession ▸ hnone) (hstep.busy haccept hbusy))
  due hmem := h.due (hdue hmem)

/-- **Every step keeps the counters.** -/
theorem Counted.step (h : Counted s) (hserved : Served options s)
    (hstep : Server.Step box proto sha256 options selection s l t) : Counted t := by
  have hkeep := h.keep hstep
  cases hstep with
  | accepts _ hstage hdue hhost =>
    refine ⟨fun p hp => ?_, fun _ _ => ⟨rfl, rfl⟩, h.due⟩
    -- while a peer is served, no other connection is accepted
    obtain ⟨epoch, parts, htask, -⟩ := hserved p hp
    cases hhost with
    | accept socket hlistening => exact nomatch htask.symm.trans hlistening
  | begins _ _ htask hsession =>
    obtain ⟨hunits, hbytes⟩ := h.idle hsession (by rw [htask]; rfl)
    refine ⟨fun p hp => ⟨[], ?_, hunits, hbytes⟩, nofun, h.due⟩
    cases hp
    exact ⟨Nat.zero_le _, List.nil_prefix, fun _ => rfl, .nil, .idle rfl rfl rfl⟩
  | @peer p p' k hsession hpeer =>
    obtain ⟨sent, hstreams, hsent⟩ := h.session p hsession
    refine ⟨fun q hq => ⟨sent ++ k.picture?.toList, ?_, ?_⟩, fun hnone => ?_, ?_⟩
    · obtain rfl : p' = q := Option.some.inj (peerStep_session.symm.trans hq)
      exact hstreams.step hpeer
    · exact hsent.peer
    · rw [peerStep_session] at hnone
      cases hnone
    · rw [peerStep_due]
      exact h.due
  | cancelsPeer _ hsession =>
    refine ⟨fun q hq => ?_, nofun, h.due⟩
    cases hq
    obtain ⟨sent, hstreams, hsent⟩ := h.session _ hsession
    exact ⟨sent, ⟨hstreams.taken, hstreams.heard, hstreams.hears, hstreams.pictures,
      hstreams.flow.frame rfl rfl rfl rfl rfl⟩, hsent⟩
  | peerReturns _ _ _ _ _ hhost =>
    refine ⟨fun p hp => (nomatch (show none = some p from hp)), fun _ hbusy => ?_, h.due⟩
    rw [(gone_task hhost).2] at hbusy
    cases hbusy
  | @updates change rest hdue _ =>
    have hrest : .authenticating ∈ rest → .authenticating ∈ s.due := by
      rw [hdue]
      exact List.mem_cons_of_mem _
    cases change with
    | authenticating =>
      refine absurd ?_ h.due
      rw [hdue]
      exact List.mem_cons_self
    | _ => exact hkeep (by rintro ⟨⟩) rfl (fun _ => id) hrest
  | clears | finishes | givesUp => exact hkeep (by rintro ⟨⟩) rfl (fun _ => id) fun hmem => by simp at hmem
  | leaves =>
    refine hkeep (by rintro ⟨⟩) rfl (fun _ => id) fun hmem => ?_
    generalize s.left = left at hmem
    rcases left with error | ⟨⟩ <;> simp [failed] at hmem
  | @hears codecs epoch turns turn result =>
    refine hkeep (by rintro ⟨⟩) rfl (fun _ => id) fun hmem => ?_
    rcases result with e | event
    · simp [shown] at hmem
    · cases event <;> simp [shown] at hmem
  | authenticates _ _ hl => exact hkeep (by rintro ⟨⟩; cases hl) rfl (fun _ => id) id
  | foreign hl => exact hkeep (by rintro ⟨⟩; cases hl) rfl (fun _ => id) id
  | _ => exact hkeep (by rintro ⟨⟩) rfl (fun _ => id) id

theorem ServerRun.counted (h : ServerRun box proto sha256 options selection nextRequest ls s) :
    Counted s :=
  (Run.invariant (I := fun s => Served options s ∧ Counted s)
    (fun _ _ _ hI hstep => ⟨hI.1.step hstep, hI.2.step hI.1 hstep⟩) h
    ⟨served_start options nextRequest, fun _ hp => (nomatch (show none = some _ from hp)), nofun,
      List.not_mem_nil⟩).2

/-- **What a peer is sent is exact.**  The pictures are the units of the publisher, in
order, each once and none left out; at most the last one is not written, and none while
the sender waits for the next.  What else is written answers what the peer has asked, in
order.  The snapshot counts the pictures and their bytes. -/
theorem stream_exact (h : ServerRun box proto sha256 options selection nextRequest ls s)
    {p : PeerSession} (hp : s.session = some p) :
    ∃ (sent : List EncodedUnit) (last : Option EncodedUnit), p.units = sent ++ last.toList ∧
      (p.sender = .looping → last = none) ∧
      List.Forall₂ (fun unit message => video unit p.codec = .ok message) sent
        (p.written.filter isVideo) ∧
      p.written.filter (fun m => !isVideo m) <+: p.asked.filterMap Control.reply? ∧
      s.snapshot.sentUnits = sent.length ∧
      s.snapshot.sentBytes = (sent.map (·.data.length)).sum := by
  obtain ⟨sent, hstreams, hunits, hbytes⟩ := h.counted.session p hp
  have hreplies : p.replies <+: p.asked.filterMap Control.reply? :=
    ((List.take_prefix _ _).trans hstreams.heard).filterMap _
  obtain ⟨last, hlast, hwaits, hanswers⟩ : ∃ last : Option EncodedUnit,
      p.units = sent ++ last.toList ∧ (p.sender = .looping → last = none) ∧
        p.answers <+: p.replies := by
    cases hstreams.flow with
    | idle _ hsent hsame =>
      exact ⟨none, hsent.trans (List.append_nil _).symm, fun _ => rfl, hsame ▸ List.prefix_rfl⟩
    | picture _ unit hsends hsent _ hsame =>
      exact ⟨some unit, hsent, fun hwaits => (nomatch hsends.symm.trans hwaits),
        hsame ▸ List.prefix_rfl⟩
    | reply message _ hsent _ hsame =>
      exact ⟨none, hsent.trans (List.append_nil _).symm, fun _ => rfl,
        hsame ▸ List.prefix_append _ _⟩
    | ended hleft hsent hpart =>
      obtain ⟨lost, hlost⟩ := hsent
      refine ⟨lost, hlost, fun hwaits => ?_, hpart⟩
      rw [hwaits] at hleft
      cases hleft
  exact ⟨sent, last, hlast, hwaits, hstreams.pictures, hanswers.trans hreplies, hunits, hbytes⟩

def firstUnit : EncodedUnit := ⟨[0, 0, 1, 101], 0, true⟩

/-- The first picture of the peer that was allowed. -/
theorem stream_exact_first : ∃ ls s p,
    ServerRun .padding deskRecords id deskStart .auto 0 ls s ∧ s.session = some p ∧
    p.sender = .looping ∧ firstUnit ∈ p.units ∧
    ∃ (sent : List EncodedUnit) (last : Option EncodedUnit), p.units = sent ++ last.toList ∧
      (p.sender = .looping → last = none) ∧
      List.Forall₂ (fun unit message => video unit p.codec = .ok message) sent
        (p.written.filter isVideo) ∧
      p.written.filter (fun m => !isVideo m) <+: p.asked.filterMap Control.reply? ∧
      s.snapshot.sentUnits = sent.length ∧
      s.snapshot.sentBytes = (sent.map (·.data.length)).sum := by
  obtain ⟨s, t, h, hopens⟩ := servedRun_opens
  have hrun := h.snoc hopens
  cases hopens with
  | @peer p _ _ hsession hstep =>
    cases hstep with
    | opens hsender hcancelled =>
      have hvideo : video firstUnit p.codec = .ok _ := rfl
      have hsent := ((hrun.snoc (.peer rfl (.opened rfl))).snoc
        (.peer rfl (.yields rfl hvideo))).snoc (.peer rfl (.writes rfl))
      exact ⟨_, _, _, hsent, rfl, rfl, List.mem_append_right _ List.mem_cons_self,
        stream_exact hsent rfl⟩

end Host

end RdEngine
