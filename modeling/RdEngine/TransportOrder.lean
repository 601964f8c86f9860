/-
RdEngine/TransportOrder.lean

One direction of a connection: the writer of one end, the bytes on their way,
and the reader of the other end, in any interleaving of sends (complete, cut
short at any byte, refused), arrivals of any number of bytes, polls of the
reader, and cancellations of either half.

`Agree` is the invariant's core: what the reader has and what is on its way
decode to exactly the messages sent and not yet delivered, and leave the
reader's cipher at the writer's counter.  A cut frame breaks the second part
only, and closes the writer.  The result is `transport_ordered`.
-/
import RdEngine.Lib.Runs
import RdEngine.Transport

namespace RdEngine

open Incremental

variable {μ : Type}

/-- A writer, a reader, and the bytes between them. -/
structure Channel where
  writer : WireWriter
  flight : Bytes
  reader : WireReader
  eof : Bool

/-- What can happen next.  The token of either half may be cancelled by the
other half of its end; the connection may end behind what has arrived. -/
inductive ChannelAction (μ : Type) where
  | send (message : μ) (taken : Nat) (stop : WriteStop)
  | cancelWriter
  | arrive (n : Nat)
  | hangUp
  | recv
  | cancelReader

inductive ChannelEvent (μ : Type) where
  | sent (message : μ) (turn : SendTurn)
  | received (result : Received μ)
  | quiet

namespace ChannelEvent

def nonce : ChannelEvent μ → Option Nonce
  | .sent _ turn => turn.nonce
  | _ => none

/-- The bytes put on the wire. -/
def bytes : ChannelEvent μ → Bytes
  | .sent _ turn => turn.bytes
  | _ => []

/-- The message of a completed send. -/
def completed : ChannelEvent μ → Option μ
  | .sent message turn => if turn.result = .ok then some message else none
  | _ => none

/-- A send that armed a pending write. -/
def begun : ChannelEvent μ → Bool
  | .sent _ turn => turn.begun
  | _ => false

/-- A send that armed a pending write and did not complete it. -/
def incomplete (event : ChannelEvent μ) : Prop := event.begun = true ∧ event.completed = none

def delivered : ChannelEvent μ → Option μ
  | .received (.message message) => some message
  | _ => none

end ChannelEvent

namespace Channel

/-- A channel between two framed streams that are split now. -/
def start (sender : FramedStream) (flight : Bytes) (receiver : FramedStream) : Channel :=
  ⟨(split sender).2, flight, (split receiver).1, false⟩

/-- An action on the channel. -/
def step (box : SecretBox) (proto : Protobuf μ) (channel : Channel) :
    ChannelAction μ → Channel × ChannelEvent μ
  | .send message taken stop =>
    let turn := channel.writer.send box proto message taken stop
    ({ channel with writer := turn.writer, flight := channel.flight ++ turn.bytes },
      .sent message turn)
  | .cancelWriter => ({ channel with writer := channel.writer.cancel }, .quiet)
  | .arrive n =>
    if channel.eof then (channel, .quiet)
    else
      ({ channel with
          flight := channel.flight.drop n,
          reader := { channel.reader with
            buffer := channel.reader.buffer ++ channel.flight.take n } }, .quiet)
  | .hangUp => ({ channel with eof := true }, .quiet)
  | .recv =>
    let (reader, result) := channel.reader.recv box proto channel.eof
    ({ channel with reader := reader }, .received result)
  | .cancelReader => ({ channel with reader := channel.reader.cancel }, .quiet)

/-- A step, with the events so far. -/
def advance (box : SecretBox) (proto : Protobuf μ) (r : Channel × List (ChannelEvent μ))
    (action : ChannelAction μ) : Channel × List (ChannelEvent μ) :=
  ((r.1.step box proto action).1, r.2 ++ [(r.1.step box proto action).2])

def run (box : SecretBox) (proto : Protobuf μ) (channel : Channel)
    (actions : List (ChannelAction μ)) : Channel × List (ChannelEvent μ) :=
  actions.foldl (advance box proto) (channel, [])

end Channel

/-! ### When the two ends agree -/

/-- A reader's decoder, at the start of a frame, that can take what a writer
sends. -/
structure Agree (decoder : BytesCodec × Option Encrypt) (codec : BytesCodec)
    (cipher : Option Encrypt) : Prop where
  framed : decoder.1.raw = false
  atHead : decoder.1.state = .head
  room : maxMessageBytes + macBytes ≤ decoder.1.maxPacketLength
  senderFramed : codec.raw = false
  ciphers : CiphersAgree decoder.2 cipher

/-- Two framed streams with bytes and messages on their way from one to the
other: read by the receiver, the bytes are the messages, and nothing else. -/
def Linked (box : SecretBox) (proto : Protobuf μ) (sender : FramedStream) (flight : Bytes)
    (receiver : FramedStream) (inflight : List μ) : Prop :=
  ∃ decoder, Agree decoder sender.codec sender.cipher ∧
    (WireReader.decoder box proto).Yields ((split receiver).1.codec, receiver.cipher)
      (receiver.buffer ++ flight) inflight decoder []

/-! ### One send -/

theorem WriteStop.result_ne_ok (stop : WriteStop) : stop.result ≠ .ok := by
  cases stop <;> exact SendResult.noConfusion

theorem decode_frame {box : SecretBox} {proto : Protobuf μ} (hbox : box.Ideal)
    (hproto : proto.Lawful) {decoder : BytesCodec × Option Encrypt} {codec : BytesCodec}
    {cipher : Option Encrypt} (h : Agree decoder codec cipher) {message : μ} {bytes frame : Bytes}
    (hsize : proto.computeSize message ≤ maxMessageBytes)
    (hbytes : proto.writeToBytes message = .ok bytes)
    (hframe : codec.encode (encipher box cipher bytes).1 [] = .ok frame) :
    ∃ decoder', (WireReader.decoder box proto).decode decoder frame = .item message decoder' [] ∧
      Agree decoder' codec (encipher box cipher bytes).2.2 := by
  have hlen : bytes.length ≤ maxMessageBytes := hproto.length_write hbytes ▸ hsize
  have hroom : (encipher box cipher bytes).1.length ≤ decoder.1.maxPacketLength :=
    (encipher_length hbox cipher bytes).trans (by have := h.room; omega)
  have hcodec := BytesCodec.decode_encode h.framed h.atHead h.senderFramed hframe hroom
  obtain ⟨cipher', hdec, hagree⟩ := decipher_encipher hbox h.ciphers bytes
  have hpacket : decodePacket box proto decoder.2 (encipher box cipher bytes).1 =
      .ok (message, cipher') := by
    simp only [decodePacket, hdec, hproto.parse_write hbytes]
    rw [if_neg (by omega)]
  exact ⟨(decoder.1, cipher'), Decoder.through_item hcodec hpacket,
    ⟨h.framed, h.atHead, h.room, h.senderFramed, hagree⟩⟩

/-- Between two frames the decoder waits. -/
theorem decode_nil {box : SecretBox} {proto : Protobuf μ} {decoder : BytesCodec × Option Encrypt}
    {codec : BytesCodec} {cipher : Option Encrypt} (h : Agree decoder codec cipher) :
    (WireReader.decoder box proto).decode decoder [] = .wait decoder [] := by
  have hcodec : decoder.1.decode [] = .wait decoder.1 [] := by
    simp [BytesCodec.decode, h.framed, h.atHead, BytesCodec.decodeHead]
  change BytesCodec.decoder.throughDecode _ decoder [] = _
  unfold Decoder.throughDecode
  rw [BytesCodec.decoder_decode, hcodec]

/-- A send that ended before the cipher was touched. -/
structure SendTurn.Refused (turn : SendTurn) (writer : WireWriter) : Prop where
  writer : turn.writer = writer
  begun : turn.begun = false
  nonce : turn.nonce = none
  bytes : turn.bytes = []
  result : turn.result ≠ .ok

/-- A send that sealed its message with the next nonce. -/
structure SendTurn.Begun (turn : SendTurn) (writer : WireWriter) : Prop where
  begun : turn.begun = true
  nonce : turn.nonce = writer.cipher.map Encrypt.nextNonce
  codec : turn.writer.codec = writer.codec
  cipher : turn.writer.cipher = writer.cipher.map Encrypt.sealedOne

theorem refuse_refused (writer : WireWriter) (e : IoError) : (writer.refuse e).Refused writer :=
  ⟨rfl, rfl, rfl, rfl, SendResult.noConfusion⟩

theorem send_closed (box : SecretBox) (proto : Protobuf μ) {writer : WireWriter}
    (h : writer.closed = true) (message : μ) (taken : Nat) (stop : WriteStop) :
    (writer.send box proto message taken stop).Refused writer := by
  rw [WireWriter.send, if_pos h]
  exact refuse_refused writer _

/-- A refused oversized message consumes no nonce and writes nothing. -/
theorem send_oversized (box : SecretBox) (proto : Protobuf μ) (writer : WireWriter) {message : μ}
    (h : maxMessageBytes < proto.computeSize message) (taken : Nat) (stop : WriteStop) :
    (writer.send box proto message taken stop).Refused writer := by
  rw [WireWriter.send, if_pos h]
  split <;> exact refuse_refused writer _

/-- **What a send does**: nothing, or it seals the message with the next nonce
and either its frame is complete and decodes to the message, or it is cut,
decodes to nothing, and closes the writer. -/
theorem send_cases {box : SecretBox} {proto : Protobuf μ} (hbox : box.Ideal)
    (hproto : proto.Lawful) {decoder : BytesCodec × Option Encrypt} {writer : WireWriter}
    (hopen : writer.closed = false) (h : Agree decoder writer.codec writer.cipher) (message : μ)
    (taken : Nat) (stop : WriteStop) (turn : SendTurn)
    (hturn : writer.send box proto message taken stop = turn) :
    turn.Refused writer ∨
    (turn.Begun writer ∧ turn.result = .ok ∧ turn.writer.closed = false ∧
      ∃ decoder', (WireReader.decoder box proto).decode decoder turn.bytes =
          .item message decoder' [] ∧ Agree decoder' turn.writer.codec turn.writer.cipher) ∨
    (turn.Begun writer ∧ turn.result ≠ .ok ∧ turn.writer.closed = true ∧
      ∃ decoder' left, (WireReader.decoder box proto).Yields decoder turn.bytes [] decoder' left) := by
  unfold WireWriter.send at hturn
  rw [if_neg (by rw [hopen]; exact Bool.false_ne_true)] at hturn
  -- refused before a byte is sealed
  by_cases hsize : proto.computeSize message > maxMessageBytes
  · rw [if_pos hsize] at hturn
    exact .inl (hturn ▸ refuse_refused writer _)
  rw [if_neg hsize] at hturn
  rcases hbytes : proto.writeToBytes message with e | bytes
  · rw [hbytes] at hturn
    exact .inl (hturn ▸ refuse_refused writer _)
  rw [hbytes] at hturn
  have hnonce := encipher_nonce box writer.cipher bytes
  rcases henc : encipher box writer.cipher bytes with ⟨sealed, nonce, cipher⟩
  rw [henc] at hnonce
  obtain ⟨rfl, rfl⟩ := Prod.mk.inj hnonce
  simp only [henc] at hturn
  rcases hframe : writer.codec.encode sealed [] with e | frame
  · -- a message within the limit never overflows the head
    have hlen := encipher_length hbox writer.cipher bytes
    rw [henc, hproto.length_write hbytes] at hlen
    refine absurd hframe (BytesCodec.encode_ne_error (hlen.trans ?_) e)
    exact (Nat.add_le_add_right (le_of_not_gt hsize) macBytes).trans (by decide)
  simp only [hframe] at hturn
  obtain ⟨decoder', hdecode, hagree⟩ :=
    decode_frame hbox hproto h (le_of_not_gt hsize) hbytes (by rw [henc]; exact hframe)
  rw [henc] at hagree
  -- the socket took the whole frame or stopped within it
  by_cases htaken : frame.length ≤ taken
  · rw [if_pos htaken] at hturn
    subst hturn
    exact .inr (.inl ⟨⟨rfl, rfl, rfl, rfl⟩, rfl, hopen, decoder', hdecode, hagree⟩)
  · rw [if_neg htaken] at hturn
    subst hturn
    have hmissing : frame.drop taken ≠ [] := by
      rw [Ne, List.drop_eq_nil_iff]; exact htaken
    rw [← List.take_append_drop taken frame] at hdecode
    exact .inr (.inr ⟨⟨rfl, rfl, rfl, rfl⟩, stop.result_ne_ok, rfl,
      Decoder.Yields.cut h.framed hdecode hmissing⟩)

/-! ### The run -/

/-- The nonces of the first `n` frames. -/
def consecutiveNonces (cipher : Option Encrypt) (n : Nat) : List Nonce :=
  match cipher with
  | none => []
  | some cipher => (List.range n).map cipher.nonceAt

theorem consecutiveNonces_succ (cipher : Option Encrypt) (n : Nat) :
    consecutiveNonces cipher (n + 1) =
      consecutiveNonces cipher n ++ (cipher.map fun c => (c.after n).nextNonce).toList := by
  cases cipher with
  | none => rfl
  | some cipher => simp [consecutiveNonces, List.range_succ]

namespace Channel

/-- The sending half of the invariant. -/
structure Sealing (start : WireWriter) (channel : Channel) (events : List (ChannelEvent μ)) :
    Prop where
  cipher : channel.writer.cipher =
    start.cipher.map fun c => c.after (events.countP ChannelEvent.begun)
  nonces : events.filterMap ChannelEvent.nonce =
    consecutiveNonces start.cipher (events.countP ChannelEvent.begun)
  stopped : (∃ e ∈ events, e.incomplete) → channel.writer.closed = true
  terminal : events.Pairwise fun e later => e.incomplete → later.bytes = []

/-- The receiving half: what is left to deliver is what the reader's bytes and
those on their way still decode to. -/
def Carrying (box : SecretBox) (proto : Protobuf μ) (inflight : List μ) (channel : Channel)
    (events : List (ChannelEvent μ)) : Prop :=
  ∃ pending decoder left,
    inflight ++ events.filterMap ChannelEvent.completed =
      events.filterMap ChannelEvent.delivered ++ pending ∧
    (WireReader.decoder box proto).Yields (channel.reader.codec, channel.reader.cipher)
      (channel.reader.buffer ++ channel.flight) pending decoder left ∧
    (channel.writer.closed = false →
      left = [] ∧ Agree decoder channel.writer.codec channel.writer.cipher)

/-- The reader stops only when it is told to, or the connection ends. -/
structure Listening (actions : List (ChannelAction μ)) (channel : Channel) : Prop where
  reader : channel.reader.closed = true → .cancelReader ∈ actions ∨ .hangUp ∈ actions
  eof : channel.eof = true → .hangUp ∈ actions

variable {box : SecretBox} {proto : Protobuf μ} {start : WireWriter} {channel : Channel}
  {events : List (ChannelEvent μ)} {inflight : List μ}

/-! #### The sending half -/

/-- An event that puts nothing on the wire keeps the sending half. -/
theorem Sealing.silent (h : Sealing start channel events) {channel' : Channel}
    {event : ChannelEvent μ} (hcipher : channel'.writer.cipher = channel.writer.cipher)
    (hclosed : channel.writer.closed = true → channel'.writer.closed = true)
    (hbegun : event.begun = false) (hnonce : event.nonce = none) (hbytes : event.bytes = []) :
    Sealing start channel' (events ++ [event]) := by
  have hcount : (events ++ [event]).countP ChannelEvent.begun =
      events.countP ChannelEvent.begun := by
    simp [List.countP_append, hbegun]
  refine ⟨?_, ?_, ?_, ?_⟩
  · rw [hcount, hcipher, h.cipher]
  · rw [hcount, List.filterMap_append, h.nonces]
    simp [hnonce]
  · rintro ⟨e, he, hinc⟩
    rcases List.mem_append.mp he with he | he
    · exact hclosed (h.stopped ⟨e, he, hinc⟩)
    · obtain rfl := List.mem_singleton.mp he
      rw [ChannelEvent.incomplete, hbegun] at hinc
      exact absurd hinc.1 Bool.false_ne_true
  · refine List.pairwise_append.mpr ⟨h.terminal, List.pairwise_singleton _ _, ?_⟩
    intro e _ later hlater _
    rw [List.mem_singleton.mp hlater, hbytes]

/-- A send that sealed its message keeps the sending half; it happens only
while no send was incomplete. -/
theorem Sealing.begun (h : Sealing start channel events) (hopen : channel.writer.closed = false)
    {message : μ} {turn : SendTurn} (hturn : turn.Begun channel.writer)
    (hstop : turn.result ≠ .ok → turn.writer.closed = true) {channel' : Channel}
    (hwriter : channel'.writer = turn.writer) :
    Sealing start channel' (events ++ [.sent message turn]) := by
  have hcount : (events ++ [ChannelEvent.sent message turn]).countP ChannelEvent.begun =
      events.countP ChannelEvent.begun + 1 := by
    simp [List.countP_append, ChannelEvent.begun, hturn.begun]
  have hnone : ∀ e ∈ events, ¬ e.incomplete := fun e he hinc => by
    rw [h.stopped ⟨e, he, hinc⟩] at hopen
    exact Bool.noConfusion hopen
  refine ⟨?_, ?_, ?_, ?_⟩
  · rw [hcount, hwriter, hturn.cipher, h.cipher, Option.map_map]
    congr 1
    funext c
    exact Encrypt.sealedOne_after c _
  · rw [hcount, consecutiveNonces_succ, List.filterMap_append, h.nonces]
    congr 1
    simp only [List.filterMap_cons, ChannelEvent.nonce, hturn.nonce, h.cipher, Option.map_map]
    cases start.cipher <;> rfl
  · rintro ⟨e, he, hinc⟩
    rcases List.mem_append.mp he with he | he
    · exact absurd hinc (hnone e he)
    · obtain rfl := List.mem_singleton.mp he
      rw [hwriter]
      refine hstop fun hok => ?_
      have hcompleted := hinc.2
      simp [ChannelEvent.completed, hok] at hcompleted
  · refine List.pairwise_append.mpr ⟨h.terminal, List.pairwise_singleton _ _, ?_⟩
    intro e he later _ hinc
    exact absurd hinc (hnone e he)

/-! #### The receiving half -/

/-- What changes neither the reader nor the bytes behind it, and completes and
delivers nothing, keeps the receiving half. -/
theorem Carrying.quiet (h : Carrying box proto inflight channel events) {channel' : Channel}
    {event : ChannelEvent μ} (hcodec : channel'.reader.codec = channel.reader.codec)
    (hcipher : channel'.reader.cipher = channel.reader.cipher)
    (hbytes : channel'.reader.buffer ++ channel'.flight = channel.reader.buffer ++ channel.flight)
    (hwriter : channel'.writer.closed = false → channel'.writer = channel.writer)
    (hcompleted : event.completed = none) (hdelivered : event.delivered = none) :
    Carrying box proto inflight channel' (events ++ [event]) := by
  obtain ⟨pending, decoder, left, hlists, hyields, hagree⟩ := h
  refine ⟨pending, decoder, left, ?_, ?_, fun hopen => ?_⟩
  · simpa [List.filterMap_append, hcompleted, hdelivered] using hlists
  · rwa [hcodec, hcipher, hbytes]
  · have heq := hwriter hopen
    rw [heq] at hopen ⊢
    exact hagree hopen

/-- A send keeps the receiving half. -/
theorem Carrying.send (hbox : box.Ideal) (hproto : proto.Lawful)
    (h : Carrying box proto inflight channel events) (message : μ) (taken : Nat)
    (stop : WriteStop) :
    Carrying box proto inflight (channel.step box proto (.send message taken stop)).1
      (events ++ [(channel.step box proto (.send message taken stop)).2]) := by
  rcases hturn : channel.writer.send box proto message taken stop with turn
  -- a refused message leaves the channel as it is
  have hrefused : turn.Refused channel.writer →
      Carrying box proto inflight (channel.step box proto (.send message taken stop)).1
        (events ++ [(channel.step box proto (.send message taken stop)).2]) := by
    intro hr
    refine h.quiet rfl rfl ?_ (fun _ => ?_) ?_ rfl
    · simp only [step, hturn, hr.bytes, List.append_nil]
    · simp only [step, hturn, hr.writer]
    · simp only [step, hturn, ChannelEvent.completed, if_neg hr.result]
  rcases hclosed : channel.writer.closed with - | -
  · obtain ⟨pending, decoder, left, hlists, hyields, hsync⟩ := h
    obtain ⟨rfl, hagree⟩ := hsync hclosed
    rcases send_cases hbox hproto hclosed hagree message taken stop turn hturn with
      hr | ⟨-, hok, hopen, decoder', hdecode, hagree'⟩ | ⟨-, hfail, hclosed', decoder', left, hcut⟩
    · exact hrefused hr
    · -- the frame is whole: one more message is pending
      have hwait : (WireReader.decoder box proto).decode decoder' [] = .wait decoder' [] :=
        decode_nil hagree'
      refine ⟨pending ++ [message], decoder', [], ?_, ?_, fun _ => ⟨rfl, ?_⟩⟩
      · simp only [step, hturn, List.filterMap_append, List.filterMap_cons, List.filterMap_nil,
          ChannelEvent.completed, ChannelEvent.delivered, if_pos hok, List.append_nil]
        rw [← List.append_assoc, hlists, List.append_assoc]
      · simp only [step, hturn]
        rw [← List.append_assoc]
        exact hyields.append (.item hagree.framed hdecode (.wait hagree'.framed hwait))
      · simp only [step, hturn]
        exact hagree'
    · -- the frame is cut: its bytes give nothing, and nothing follows them
      refine ⟨pending, decoder', left, ?_, ?_, fun hopen => ?_⟩
      · simpa [step, hturn, List.filterMap_append, List.filterMap_cons, ChannelEvent.completed,
          hfail, ChannelEvent.delivered] using hlists
      · simp only [step, hturn]
        rw [← List.append_assoc, ← List.append_nil pending]
        exact hyields.append hcut
      · simp only [step, hturn] at hopen
        rw [hclosed'] at hopen
        exact Bool.noConfusion hopen
  · exact hrefused (hturn ▸ send_closed box proto hclosed message taken stop)

/-- A poll of the reader keeps the receiving half: it delivers the next
pending message or none, and fails only once it was closed or the connection
has ended. -/
theorem Carrying.recv (h : Carrying box proto inflight channel events) :
    Carrying box proto inflight (channel.step box proto .recv).1
      (events ++ [(channel.step box proto .recv).2]) := by
  rcases hclosed : channel.reader.closed with - | -
  · obtain ⟨pending, decoder, left, hlists, hyields, hagree⟩ := h
    have heq := WireReader.recv_eq box proto channel.eof hclosed
    rcases hd : (WireReader.decoder box proto).decode
        (channel.reader.codec, channel.reader.cipher) channel.reader.buffer with
      e | ⟨s, rest⟩ | ⟨message, s, rest⟩
    · exact absurd hd hyields.not_fail
    · rw [hd] at heq
      refine ⟨pending, decoder, left, ?_, ?_, hagree⟩
      · have hnone : (ChannelEvent.received (WireReader.idle rest channel.eof) : ChannelEvent μ).delivered
            = none := by
          unfold WireReader.idle
          split_ifs <;> rfl
        simpa [step, heq, List.filterMap_append, List.filterMap_cons, ChannelEvent.completed,
          hnone] using hlists
      · simp only [step, heq]
        exact hyields.of_wait hd
    · rw [hd] at heq
      obtain ⟨pending', rfl, hyields'⟩ := hyields.of_item hd
      refine ⟨pending', decoder, left, ?_, ?_, hagree⟩
      · simpa [step, heq, List.filterMap_append, List.filterMap_cons, ChannelEvent.completed,
          ChannelEvent.delivered] using hlists
      · simp only [step, heq]
        exact hyields'
  · have heq : channel.reader.recv box proto channel.eof = (channel.reader, .failed disconnected) := by
      rw [WireReader.recv, if_pos hclosed]
    refine h.quiet ?_ ?_ ?_ (fun _ => ?_) rfl ?_ <;> simp [step, heq, ChannelEvent.delivered]

/-! #### Every run -/

/-- The whole invariant, with the actions taken. -/
structure Tracks (box : SecretBox) (proto : Protobuf μ) (start : WireWriter) (inflight : List μ)
    (actions : List (ChannelAction μ)) (r : Channel × List (ChannelEvent μ)) : Prop where
  sealing : Sealing start r.1 r.2
  carrying : Carrying box proto inflight r.1 r.2
  listening : Listening actions r.1

theorem Sealing.step (hbox : box.Ideal) (hproto : proto.Lawful)
    (h : Sealing start channel events) (hcarry : Carrying box proto inflight channel events)
    (action : ChannelAction μ) :
    Sealing start (channel.step box proto action).1
      (events ++ [(channel.step box proto action).2]) := by
  cases action with
  | send message taken stop =>
    rcases hturn : channel.writer.send box proto message taken stop with turn
    have hrefused : turn.Refused channel.writer → Sealing start
        (channel.step box proto (.send message taken stop)).1
        (events ++ [(channel.step box proto (.send message taken stop)).2]) := by
      intro hr
      refine h.silent ?_ ?_ ?_ ?_ ?_ <;>
        simp only [Channel.step, hturn, ChannelEvent.begun, ChannelEvent.nonce,
          ChannelEvent.bytes, hr.writer, hr.begun, hr.nonce, hr.bytes, imp_self]
    rcases hclosed : channel.writer.closed with - | -
    · obtain ⟨pending, decoder, left, -, -, hsync⟩ := hcarry
      obtain ⟨-, hagree⟩ := hsync hclosed
      rcases send_cases hbox hproto hclosed hagree message taken stop turn hturn with
        hr | ⟨hbegun, hok, -, -⟩ | ⟨hbegun, -, hclosed', -⟩
      · exact hrefused hr
      · refine h.begun hclosed (hturn ▸ hbegun) (fun hne => ?_) rfl
        exact absurd (hturn ▸ hok) hne
      · exact h.begun hclosed (hturn ▸ hbegun) (fun _ => hturn ▸ hclosed') rfl
    · exact hrefused (hturn ▸ send_closed box proto hclosed message taken stop)
  | cancelWriter => exact h.silent rfl (fun _ => rfl) rfl rfl rfl
  | arrive n =>
    rcases heof : channel.eof with - | - <;>
      refine h.silent ?_ ?_ ?_ ?_ ?_ <;> simp [Channel.step, heof, ChannelEvent.begun,
        ChannelEvent.nonce, ChannelEvent.bytes]
  | hangUp => exact h.silent rfl id rfl rfl rfl
  | recv => exact h.silent rfl id rfl rfl rfl
  | cancelReader => exact h.silent rfl id rfl rfl rfl

theorem Carrying.step (hbox : box.Ideal) (hproto : proto.Lawful)
    (h : Carrying box proto inflight channel events) (action : ChannelAction μ) :
    Carrying box proto inflight (channel.step box proto action).1
      (events ++ [(channel.step box proto action).2]) := by
  cases action with
  | send message taken stop => exact h.send hbox hproto message taken stop
  | cancelWriter => exact h.quiet rfl rfl rfl (fun hopen => Bool.noConfusion hopen) rfl rfl
  | arrive n =>
    rcases heof : channel.eof with - | - <;>
      refine h.quiet ?_ ?_ ?_ (fun _ => ?_) ?_ ?_ <;> simp [Channel.step, heof,
        ChannelEvent.completed, ChannelEvent.delivered]
  | hangUp => exact h.quiet rfl rfl rfl (fun _ => rfl) rfl rfl
  | recv => exact h.recv
  | cancelReader => exact h.quiet rfl rfl rfl (fun _ => rfl) rfl rfl

theorem Listening.step {actions : List (ChannelAction μ)} (h : Listening actions channel)
    (hcarry : Carrying box proto inflight channel events) (action : ChannelAction μ) :
    Listening (actions ++ [action]) (channel.step box proto action).1 := by
  have hreader : channel.reader.closed = true →
      .cancelReader ∈ actions ++ [action] ∨ .hangUp ∈ actions ++ [action] := fun hclosed =>
    (h.reader hclosed).imp (List.mem_append_left _) (List.mem_append_left _)
  have heof : channel.eof = true → .hangUp ∈ actions ++ [action] := fun he =>
    List.mem_append_left _ (h.eof he)
  cases action with
  | send message taken stop => exact ⟨hreader, heof⟩
  | cancelWriter => exact ⟨hreader, heof⟩
  | arrive n =>
    refine ⟨?_, ?_⟩ <;> simp only [Channel.step] <;> split
    · exact hreader
    · exact hreader
    · exact heof
    · exact heof
  | hangUp => exact ⟨hreader, fun _ => List.mem_append_right _ (List.mem_singleton.mpr rfl)⟩
  | recv =>
    refine ⟨fun hclosed' => ?_, heof⟩
    rcases hclosed : channel.reader.closed with - | -
    · obtain ⟨pending, decoder, left, -, hyields, -⟩ := hcarry
      have heq := WireReader.recv_eq box proto channel.eof hclosed
      rcases hd : (WireReader.decoder box proto).decode
          (channel.reader.codec, channel.reader.cipher) channel.reader.buffer with
        e | ⟨s, rest⟩ | ⟨message, s, rest⟩
      · exact absurd hd hyields.not_fail
      -- no whole frame: the reader closes only at the end of the input
      · rw [hd] at heq
        simp only [Channel.step, heq] at hclosed'
        exact .inr (heof hclosed')
      · rw [hd] at heq
        simp only [Channel.step, heq] at hclosed'
        exact Bool.noConfusion hclosed'
    · exact hreader hclosed
  | cancelReader =>
    exact ⟨fun _ => .inl (List.mem_append_right _ (List.mem_singleton.mpr rfl)), heof⟩

theorem run_tracks (hbox : box.Ideal) (hproto : proto.Lawful) {sender receiver : FramedStream}
    {flight : Bytes} (hlinked : Linked box proto sender flight receiver inflight)
    (actions : List (ChannelAction μ)) :
    Tracks box proto (split sender).2 inflight actions
      ((Channel.start sender flight receiver).run box proto actions) := by
  refine Lts.foldl_history ?_ ?_ actions
  · -- nothing has happened yet
    obtain ⟨decoder, hagree, hyields⟩ := hlinked
    refine ⟨⟨?_, ?_, ?_, List.Pairwise.nil⟩, ⟨inflight, decoder, [], ?_, hyields, ?_⟩, ?_, ?_⟩
    · cases hc : (split sender).2.cipher <;> simp [start, hc]
    · cases (split sender).2.cipher <;> rfl
    · rintro ⟨e, he, -⟩
      exact absurd he List.not_mem_nil
    · rw [List.filterMap_nil, List.filterMap_nil, List.append_nil, List.nil_append]
    · exact fun _ => ⟨rfl, hagree.framed, hagree.atHead, hagree.room, hagree.senderFramed,
        hagree.ciphers⟩
    · exact fun h => Bool.noConfusion h
    · exact fun h => Bool.noConfusion h
  · intro as r action h
    exact ⟨h.sealing.step hbox hproto h.carrying action, h.carrying.step hbox hproto action,
      h.listening.step h.carrying action⟩

end Channel

/-- What the engine promises of one direction of a connection: the run's
actions, the channel they led to, and the events on the way. -/
structure OrderedWire (box : SecretBox) (proto : Protobuf μ) (cipher : Option Encrypt)
    (inflight : List μ) (actions : List (ChannelAction μ)) (channel : Channel)
    (events : List (ChannelEvent μ)) : Prop where
  /-- The frames put on the wire use consecutive nonces, one each. -/
  nonces : events.filterMap ChannelEvent.nonce =
    consecutiveNonces cipher (events.countP ChannelEvent.begun)
  /-- A refused oversized message consumes no nonce and writes nothing. -/
  oversized : ∀ message taken stop, maxMessageBytes < proto.computeSize message →
    (channel.writer.send box proto message taken stop).Refused channel.writer
  /-- Nothing is written after an incomplete send. -/
  terminal : events.Pairwise fun e later => e.incomplete → later.bytes = []
  /-- What is delivered is a prefix of what was on its way and then completed. -/
  ordered : events.filterMap ChannelEvent.delivered <+:
    inflight ++ events.filterMap ChannelEvent.completed
  /-- When everything has arrived and the reader finds no frame, all of it was
  delivered. -/
  complete : channel.flight = [] → (channel.reader.recv box proto false).2 = .pending →
    events.filterMap ChannelEvent.delivered = inflight ++ events.filterMap ChannelEvent.completed
  /-- The reader stops only when it is told to, or the connection ends. -/
  unbroken : channel.reader.closed = true → .cancelReader ∈ actions ∨ .hangUp ∈ actions

/-- **Ordered, gap-free wire**, for the two ends of a connection split at any
moment at which they agree, and every run after that.  Splitting keeps both
nonce counters, the framing's state and the bytes already buffered. -/
theorem transport_ordered {box : SecretBox} {proto : Protobuf μ} (hbox : box.Ideal)
    (hproto : proto.Lawful) {sender receiver : FramedStream} {flight : Bytes} {inflight : List μ}
    (hlinked : Linked box proto sender flight receiver inflight)
    (actions : List (ChannelAction μ)) :
    (∀ wire : FramedStream, (split wire).1.cipher = wire.cipher ∧
      (split wire).2.cipher = wire.cipher ∧ (split wire).1.buffer = wire.buffer ∧
      (split wire).1.codec.state = wire.codec.state) ∧
    OrderedWire box proto sender.cipher inflight actions
      ((Channel.start sender flight receiver).run box proto actions).1
      ((Channel.start sender flight receiver).run box proto actions).2 := by
  refine ⟨fun wire => ⟨rfl, rfl, rfl, rfl⟩, ?_⟩
  obtain ⟨hsealing, hcarrying, hlistening⟩ :=
    Channel.run_tracks hbox hproto hlinked actions
  obtain ⟨pending, decoder, left, hlists, hyields, -⟩ := hcarrying
  refine ⟨hsealing.nonces, fun message taken stop h => send_oversized box proto _ h taken stop,
    hsealing.terminal, ⟨pending, hlists.symm⟩, ?_, hlistening.reader⟩
  intro hflight hpending
  rw [hflight, List.append_nil] at hyields
  generalize (Channel.run box proto (Channel.start sender flight receiver) actions).1 = channel at *
  rcases hclosed : channel.reader.closed with - | -
  · have heq := WireReader.recv_eq box proto false hclosed
    rcases hd : (WireReader.decoder box proto).decode
        (channel.reader.codec, channel.reader.cipher) channel.reader.buffer with
      e | ⟨s, rest⟩ | ⟨message, s, rest⟩
    · rw [hd] at heq
      rw [heq] at hpending
      cases hpending
    · rw [hlists, hyields.eq_nil_of_wait hd, List.append_nil]
    · rw [hd] at heq
      rw [heq] at hpending
      cases hpending
  · rw [WireReader.recv, if_pos hclosed] at hpending
    cases hpending

/-- Two ends with one key, and nothing sent yet, are linked. -/
theorem linked_fresh (box : SecretBox) (proto : Protobuf μ) (key : Key) (ms ms' : Nat) :
    Linked box proto ((FramedStream.fromStream.setKey key).setSendTimeout ms) []
      ((FramedStream.fromStream.setKey key).setSendTimeout ms') [] := by
  have hagree : Agree (BytesCodec.new.setMaxPacketLength (maxMessageBytes + macBytes),
      some (Encrypt.new key)) BytesCodec.new (some (Encrypt.new key)) :=
    ⟨rfl, rfl, le_refl _, rfl, rfl, rfl⟩
  exact ⟨_, hagree, .wait hagree.framed (decode_nil hagree)⟩

theorem transport_ordered_fresh :
    OrderedWire .padding .raw (some (Encrypt.new ⟨List.replicate 32 7, rfl⟩)) []
      [.send [1, 2] 100 .timeout, .arrive 5, .recv, .send [3] 4 .timeout, .arrive 80, .recv]
      ((Channel.start ((FramedStream.fromStream.setKey ⟨List.replicate 32 7, rfl⟩).setSendTimeout 9)
        [] ((FramedStream.fromStream.setKey ⟨List.replicate 32 7, rfl⟩).setSendTimeout 0)).run
        .padding .raw
        [.send [1, 2] 100 .timeout, .arrive 5, .recv, .send [3] 4 .timeout, .arrive 80, .recv]).1
      ((Channel.start ((FramedStream.fromStream.setKey ⟨List.replicate 32 7, rfl⟩).setSendTimeout 9)
        [] ((FramedStream.fromStream.setKey ⟨List.replicate 32 7, rfl⟩).setSendTimeout 0)).run
        .padding .raw
        [.send [1, 2] 100 .timeout, .arrive 5, .recv, .send [3] 4 .timeout, .arrive 80, .recv]).2 :=
  (transport_ordered SecretBox.padding_ideal Protobuf.raw_lawful (linked_fresh _ _ _ 9 0) _).2

end RdEngine
