/-
RdEngine/Authenticity.lean

What an attacker who writes the byte stream can make the receiving end of an
encrypted connection hand over.

The cipher is ideal: after a list of sealings it opens, under the shared key,
nothing else (`Unforgeable`), so a frame that opens was sealed under the nonce it
is opened with.  A frame of at most one byte is not opened but passed as it is.
Everything that arrives is accounted for (`wire_accounted`): a record that is
handed over was sealed under the reader's next nonce, or came in such a frame and
is ignored by every session layer; anything else ends the connection.
-/
import RdEngine.Lib.Runs
import RdEngine.HandshakeAgreement
import RdEngine.Viewer.Tasks
import RdEngine.Host.Reader

namespace RdEngine

open Lts Dialogue Incremental

/-! ### The ideal cipher -/

/-- What a holder of the key sealed: the nonce, the record and its frame. -/
structure Sealing where
  nonce : Nonce
  data : Bytes
  frame : Bytes
  deriving DecidableEq

/-- A cipher that rejects every forgery: it depends on what was sealed so far,
and opens nothing else under the key. -/
structure Unforgeable (box : List Sealing → SecretBox) (key : Key) : Prop where
  opened_mem : ∀ {log : List Sealing} {bytes data : Bytes} {nonce : Nonce},
    (box log).opened bytes nonce key = some data → ⟨nonce, data, bytes⟩ ∈ log

/-- The wire format: a member takes a tag and a length or a value, so what fits in
one byte has none. -/
def Protobuf.ShortIsEmpty (proto : Protobuf Message) : Prop :=
  ∀ bytes message, bytes.length ≤ 1 → proto.parseFromBytes bytes = .ok message →
    message.union = none

/-! ### The receiving end -/

/-- Before and after the connection is split. -/
inductive ReadEnd where
  | session (io : SessionIo)
  | reader (half : WireReader)

namespace ReadEnd

/-- The cipher a reading end opens its frames with, if there is one. -/
def cipher? : ReadEnd → Option Encrypt
  | .session io => io.wire.bind (·.cipher)
  | .reader half => half.cipher

/-- A cipher with this key is installed, as long as there is a wire, and no record
from before is left. -/
def Ciphered (key : Key) : ReadEnd → Prop
  | .session io => io.prefetched = none ∧
      ∀ wire, io.wire = some wire → ∃ cipher, wire.cipher = some cipher ∧ cipher.key = key
  | .reader half => ∃ cipher, half.cipher = some cipher ∧ cipher.key = key

/-- Nothing can be received any more. -/
def Dead : ReadEnd → Prop
  | .session io => io.wire = none ∧ io.prefetched = none
  | .reader half => half.closed = true

end ReadEnd

/-- What comes of a receive: a record, nothing yet, or the end. -/
inductive Receipt where
  | handed (message : Message)
  | waits
  | refused
  deriving DecidableEq

/-- The receipt of `SessionIo::recv`. -/
def Receipt.ofSession : Option (Except IoError (Option Message)) → Receipt
  | none => .waits
  | some (.ok (some message)) => .handed message
  | some (.ok none) | some (.error _) => .refused

/-- The receipt of `WireReader::recv`. -/
def Receipt.ofReader : Received Message → Receipt
  | .message message => .handed message
  | .pending => .waits
  | .ended | .failed _ => .refused

/-- The frame a receive meets, if one has arrived. -/
def Incoming.frame? : Incoming → Option Bytes
  | .frame bytes => some bytes
  | _ => none

/-- The frame that the reader's buffer holds in whole. -/
def WireReader.frame? (reader : WireReader) : Option Bytes :=
  match reader.codec.decode reader.buffer with
  | .item bytes _ _ => some bytes
  | _ => none

/-! ### Runs under attack -/

/-- The receiving end, and everything that was sealed under the key. -/
structure Attacked where
  log : List Sealing
  readEnd : ReadEnd

/-- A step of the wire: the peer seals, the attacker puts bytes on it, the end reads. -/
inductive AttackLabel where
  | sealed (sealing : Sealing)
  | injected (bytes : Bytes)
  | received (frame : Option Bytes) (receipt : Receipt)
  | own
  deriving DecidableEq

/-- A holder of the key seals what it likes; the attacker decides what arrives,
frame by frame or byte by byte; the end receives, and sends, splits or gives up
the connection. -/
inductive AttackStep (box : List Sealing → SecretBox) (proto : Protobuf Message) (key : Key) :
    Attacked → AttackLabel → Attacked → Prop
  | sealed (s : Attacked) (nonce : Nonce) (data : Bytes) :
      AttackStep box proto key s (.sealed ⟨nonce, data, (box s.log).sealed data nonce key⟩)
        { s with log := s.log ++ [⟨nonce, data, (box s.log).sealed data nonce key⟩] }
  | sessionRecv {s : Attacked} {io io' : SessionIo} {incoming : Incoming}
      {result : Option (Except IoError (Option Message))} : s.readEnd = .session io →
      io.recv (box s.log) proto incoming = (io', result) →
      AttackStep box proto key s (.received incoming.frame? (.ofSession result))
        { s with readEnd := .session io' }
  | inject {s : Attacked} {reader : WireReader} (bytes : Bytes) : s.readEnd = .reader reader →
      AttackStep box proto key s (.injected bytes)
        { s with readEnd := .reader { reader with buffer := reader.buffer ++ bytes } }
  | readerRecv {s : Attacked} {reader reader' : WireReader} {eof : Bool}
      {received : Received Message} : s.readEnd = .reader reader →
      reader.recv (box s.log) proto eof = (reader', received) →
      AttackStep box proto key s
        (.received (if reader.closed then none else reader.frame?) (.ofReader received))
        { s with readEnd := .reader reader' }
  | send {s : Attacked} {io : SessionIo} (message : Message) (answer : SendAnswer) :
      s.readEnd = .session io →
      AttackStep box proto key s .own
        { s with readEnd := .session (io.send (box s.log) proto message answer).1 }
  | terminate {s : Attacked} {io : SessionIo} : s.readEnd = .session io →
      AttackStep box proto key s .own { s with readEnd := .session io.terminate }
  | split {s : Attacked} {io : SessionIo} {reader : WireReader} {writer : WireWriter} :
      s.readEnd = .session io → io.takeParts = .ok (reader, writer) →
      AttackStep box proto key s .own { s with readEnd := .reader reader }
  | cancel {s : Attacked} {reader : WireReader} : s.readEnd = .reader reader →
      AttackStep box proto key s .own { s with readEnd := .reader reader.cancel }

/-! ### What is handed over -/

/-- No session layer does anything about the record. -/
structure Ignored (message : Message) : Prop where
  viewerLogin : ∀ (box : SecretBox) (proto : Protobuf Message) (session : ViewerSession)
    (answer : SendAnswer),
    session.dispatch box proto message answer = session.done (.ok .progress)
  viewer : ∀ (setup : Viewer.Setup) (decoders : Viewer.Decoders) (source : Viewer.Geometry),
    Viewer.receiveMessage setup decoders source message = return .receiving decoders source
  hostLogin : ∀ (box : SecretBox) (proto : Protobuf Message) (sha256 : Bytes → Bytes)
    (session : HostSession) (env : Answers) (answers : List SendAnswer),
    session.dispatch box proto sha256 message env answers = session.done (.ok .progress)
  host : ∀ (reader : Host.Reader) (state : Host.ReaderState),
    reader.onMessage state message = (state, .next none)

theorem ignored_of_empty {message : Message} (h : message.union = none) : Ignored message := by
  obtain ⟨union⟩ := message
  cases h
  exact ⟨fun _ _ _ _ => rfl, fun _ _ _ => rfl, fun _ _ _ _ _ _ => rfl, fun _ _ => rfl⟩

/-- How a frame can come to be handed over as a record: sealed under the reader's
next nonce, or too short to be opened. -/
inductive Handed (proto : Protobuf Message) (log : List Sealing) (cipher cipher' : Encrypt)
    (frame : Bytes) (message : Message) : Prop
  | sealed {data : Bytes} : ⟨getNonce (cipher.openedFrames + 1), data, frame⟩ ∈ log →
      proto.parseFromBytes data = .ok message →
      cipher' = { cipher with openedFrames := cipher.openedFrames + 1 } →
      Handed proto log cipher cipher' frame message
  | short : frame.length ≤ 1 → proto.parseFromBytes frame = .ok message → cipher' = cipher →
      Ignored message → Handed proto log cipher cipher' frame message

/-- What has become of the frame that has arrived, by the receipt. -/
def Accounted (proto : Protobuf Message) (key : Key) (log : List Sealing) (before after : ReadEnd)
    (frame : Option Bytes) : Receipt → Prop
  | .handed message => ∃ bytes cipher cipher', frame = some bytes ∧
      before.cipher? = some cipher ∧ cipher.key = key ∧ after.cipher? = some cipher' ∧
      Handed proto log cipher cipher' bytes message
  | .waits => frame = none
  | .refused => after.Dead

/-- A record is handed over. -/
def AttackLabel.Hands : AttackLabel → Prop
  | .received _ (.handed _) => True
  | _ => False

section Wire

variable {box : List Sealing → SecretBox} {proto : Protobuf Message} {key : Key}

/-! ### One receive -/

/-- A frame that gets through the cipher was sealed under the next nonce, or is too
short to be opened. -/
theorem handed_of_decipher (hbox : Unforgeable box key) (hproto : proto.ShortIsEmpty)
    {log : List Sealing} {cipher : Encrypt} {next : Option Encrypt} {frame bytes : Bytes}
    {message : Message} (hkey : cipher.key = key)
    (h : decipher (box log) (some cipher) frame = .ok (bytes, next))
    (hparse : proto.parseFromBytes bytes = .ok message) :
    ∃ cipher', next = some cipher' ∧ cipher'.key = key ∧
      Handed proto log cipher cipher' frame message := by
  simp only [decipher, Encrypt.dec] at h
  split_ifs at h with hlen
  · -- the guard in front of the authentication: nothing is opened
    obtain ⟨rfl, rfl⟩ := Prod.mk.inj (Except.ok.inj h)
    exact ⟨cipher, rfl, hkey, .short hlen hparse rfl (ignored_of_empty (hproto _ _ hlen hparse))⟩
  · rcases hopen : (box log).opened frame (getNonce (cipher.openedFrames + 1)) cipher.key
      with - | data
    · rw [hopen] at h
      cases h
    · rw [hopen] at h
      obtain ⟨rfl, rfl⟩ := Prod.mk.inj (Except.ok.inj h)
      rw [hkey] at hopen
      exact ⟨_, rfl, hkey, .sealed (hbox.opened_mem hopen) hparse rfl⟩

theorem session_accounted (hbox : Unforgeable box key) (hproto : proto.ShortIsEmpty)
    {log : List Sealing} {io io' : SessionIo} {incoming : Incoming}
    {result : Option (Except IoError (Option Message))} (hio : (ReadEnd.session io).Ciphered key)
    (h : io.recv (box log) proto incoming = (io', result)) :
    Accounted proto key log (.session io) (.session io') incoming.frame? (.ofSession result) ∧
      (ReadEnd.session io').Ciphered key := by
  obtain ⟨wire, prefetched⟩ := io
  obtain ⟨hprefetched, hwire⟩ := hio
  cases hprefetched
  have hclosed : (ReadEnd.session ⟨none, none⟩).Dead ∧ (ReadEnd.session ⟨none, none⟩).Ciphered key :=
    ⟨⟨rfl, rfl⟩, rfl, nofun⟩
  cases wire with
  | none =>
    obtain ⟨rfl, rfl⟩ := Prod.mk.inj h
    exact hclosed
  | some wire =>
    obtain ⟨cipher, hcipher, hkey⟩ := hwire wire rfl
    cases incoming with
    | expired =>
      obtain ⟨rfl, rfl⟩ := Prod.mk.inj h
      exact ⟨rfl, rfl, hwire⟩
    | ended =>
      obtain ⟨rfl, rfl⟩ := Prod.mk.inj h
      exact hclosed
    | failed e =>
      obtain ⟨rfl, rfl⟩ := Prod.mk.inj h
      exact hclosed
    | frame frame =>
      rcases hnext : wire.next (box log) frame with e | ⟨bytes, wire'⟩
      -- a frame that cannot be deciphered closes the wire
      · simp only [SessionIo.recv, hnext] at h
        obtain ⟨rfl, rfl⟩ := Prod.mk.inj h
        exact hclosed
      rcases hparse : proto.parseFromBytes bytes with e | message
      · simp only [SessionIo.recv, hnext, hparse] at h
        obtain ⟨rfl, rfl⟩ := Prod.mk.inj h
        exact hclosed
      simp only [SessionIo.recv, hnext, hparse] at h
      obtain ⟨rfl, rfl⟩ := Prod.mk.inj h
      -- handed on, so the frame went through the cipher
      unfold FramedStream.next at hnext
      split_ifs at hnext
      rcases hdec : decipher (box log) wire.cipher frame with e | ⟨bytes', next⟩
      · rw [hdec] at hnext
        cases hnext
      rw [hdec] at hnext
      obtain ⟨rfl, rfl⟩ := Prod.mk.inj (Except.ok.inj hnext)
      rw [hcipher] at hdec
      obtain ⟨cipher', rfl, hkey', hhanded⟩ := handed_of_decipher hbox hproto hkey hdec hparse
      exact ⟨⟨frame, cipher, cipher', rfl, hcipher, hkey, rfl, hhanded⟩, rfl,
        fun _ hsome => Option.some.inj hsome ▸ ⟨cipher', rfl, hkey'⟩⟩

theorem reader_accounted (hbox : Unforgeable box key) (hproto : proto.ShortIsEmpty)
    {log : List Sealing} {half half' : WireReader} {eof : Bool} {received : Received Message}
    (hhalf : (ReadEnd.reader half).Ciphered key)
    (h : half.recv (box log) proto eof = (half', received)) :
    Accounted proto key log (.reader half) (.reader half')
        (if half.closed then none else half.frame?) (.ofReader received) ∧
      (ReadEnd.reader half').Ciphered key := by
  obtain ⟨cipher, hcipher, hkey⟩ := hhalf
  obtain ⟨codec, buffer, installed, closed⟩ := half
  change installed = some cipher at hcipher
  subst hcipher
  unfold WireReader.recv at h
  split at h
  · next hclosed =>
    obtain ⟨rfl, rfl⟩ := Prod.mk.inj h
    exact ⟨hclosed, cipher, rfl, hkey⟩
  next hopen =>
  rw [if_neg hopen]
  -- every failure closes the reader; only a whole frame that parses is handed on
  rcases hcodec : codec.decode buffer with e | ⟨next, rest⟩ | ⟨frame, next, rest⟩
  · simp only [hcodec] at h
    obtain ⟨rfl, rfl⟩ := Prod.mk.inj h
    exact ⟨rfl, cipher, rfl, hkey⟩
  · simp only [hcodec] at h
    obtain ⟨rfl, rfl⟩ := Prod.mk.inj h
    refine ⟨?_, cipher, rfl, hkey⟩
    simp only [WireReader.frame?, hcodec]
    cases eof with
    | false => rfl
    | true =>
      unfold WireReader.idle
      split_ifs <;> rfl
  · simp only [hcodec, decodePacket] at h
    rcases hdec : decipher (box log) (some cipher) frame with e | ⟨bytes, installed⟩
    · simp only [hdec] at h
      obtain ⟨rfl, rfl⟩ := Prod.mk.inj h
      exact ⟨rfl, cipher, rfl, hkey⟩
    by_cases hlong : bytes.length > maxMessageBytes
    · simp only [hdec, if_pos hlong] at h
      obtain ⟨rfl, rfl⟩ := Prod.mk.inj h
      exact ⟨rfl, cipher, rfl, hkey⟩
    rcases hparse : proto.parseFromBytes bytes with e | message
    · simp only [hdec, if_neg hlong, hparse] at h
      obtain ⟨rfl, rfl⟩ := Prod.mk.inj h
      exact ⟨rfl, cipher, rfl, hkey⟩
    simp only [hdec, if_neg hlong, hparse] at h
    obtain ⟨rfl, rfl⟩ := Prod.mk.inj h
    -- deciphered, within the limit and parsed
    obtain ⟨cipher', rfl, hkey', hhanded⟩ := handed_of_decipher hbox hproto hkey hdec hparse
    have hframe : (⟨codec, buffer, some cipher, closed⟩ : WireReader).frame? = some frame := by
      simp only [WireReader.frame?, hcodec]
    exact ⟨⟨frame, cipher, cipher', hframe, rfl, hkey, rfl, hhanded⟩, cipher', rfl, hkey'⟩

/-! ### Every step -/

theorem sealMessage_ciphered {box : SecretBox} {wire wire' : FramedStream} {cipher : Encrypt}
    {message : Message} {frame : Bytes} (hcipher : wire.cipher = some cipher)
    (h : wire.sealMessage box proto message = some (frame, wire')) :
    ∃ cipher', wire'.cipher = some cipher' ∧ cipher'.key = cipher.key := by
  unfold FramedStream.sealMessage at h
  split at h
  · cases h
  rw [hcipher] at h
  dsimp only [encipher] at h
  split at h
  · cases h
  · obtain ⟨-, rfl⟩ := Prod.mk.inj (Option.some.inj h)
    exact ⟨_, rfl, rfl⟩

theorem send_ciphered {box : SecretBox} {io : SessionIo} (h : (ReadEnd.session io).Ciphered key)
    (message : Message) (answer : SendAnswer) :
    (ReadEnd.session (io.send box proto message answer).1).Ciphered key := by
  obtain ⟨wire, prefetched⟩ := io
  obtain ⟨hprefetched, hwire⟩ := h
  cases hprefetched
  have hgone : (ReadEnd.session ⟨none, none⟩).Ciphered key := ⟨rfl, nofun⟩
  cases wire with
  | none => exact hgone
  | some wire =>
    obtain ⟨cipher, hcipher, hkey⟩ := hwire wire rfl
    simp only [SessionIo.send, hcipher, Option.isSome_some, if_true]
    split_ifs
    · exact ⟨rfl, hwire⟩
    rcases hseal : wire.sealMessage box proto message with - | ⟨frame, wire'⟩
    · exact hgone
    cases answer with
    | failed => exact hgone
    | dropped => exact hgone
    | sent =>
      obtain ⟨cipher', hcipher', hkey'⟩ := sealMessage_ciphered hcipher hseal
      refine ⟨rfl, fun _ hsome => Option.some.inj hsome ▸ ⟨cipher', hcipher', hkey'.trans hkey⟩⟩

theorem split_reader {io : SessionIo} {reader : WireReader} {writer : WireWriter}
    (h : io.takeParts = .ok (reader, writer)) :
    ∃ wire, io.wire = some wire ∧ reader.cipher = wire.cipher := by
  unfold SessionIo.takeParts at h
  split at h
  · cases h
  rcases hwire : io.wire with - | wire
  · rw [hwire] at h
    cases h
  · rw [hwire] at h
    obtain ⟨rfl, -⟩ := Prod.mk.inj (Except.ok.inj h)
    exact ⟨wire, rfl, rfl⟩

theorem step_ciphered (hbox : Unforgeable box key) (hproto : proto.ShortIsEmpty) {s t : Attacked}
    {l : AttackLabel} (hs : s.readEnd.Ciphered key) (h : AttackStep box proto key s l t) :
    t.readEnd.Ciphered key := by
  cases h with
  | sealed nonce data => exact hs
  | sessionRecv hend hrecv => exact (session_accounted hbox hproto (hend ▸ hs) hrecv).2
  | inject bytes hend => rw [hend] at hs; exact hs
  | readerRecv hend hrecv => exact (reader_accounted hbox hproto (hend ▸ hs) hrecv).2
  | send message answer hend => exact send_ciphered (hend ▸ hs) message answer
  | terminate hend => exact ⟨rfl, nofun⟩
  | split hend htake =>
    obtain ⟨wire, hwire, hcipher⟩ := split_reader htake
    rw [hend] at hs
    obtain ⟨cipher, hsome, hkey⟩ := hs.2 wire hwire
    exact ⟨cipher, hcipher.trans hsome, hkey⟩
  | cancel hend => rw [hend] at hs; exact hs

/-- Once it is dead, the end hands nothing over any more. -/
theorem step_dead {s t : Attacked} {l : AttackLabel} (hs : s.readEnd.Dead)
    (h : AttackStep box proto key s l t) : t.readEnd.Dead ∧ ¬ l.Hands := by
  cases h with
  | sealed nonce data => exact ⟨hs, id⟩
  | @sessionRecv io _ _ _ hend hrecv =>
    rw [hend] at hs
    obtain ⟨wire, prefetched⟩ := io
    obtain ⟨rfl, rfl⟩ : wire = none ∧ prefetched = none := hs
    obtain ⟨rfl, rfl⟩ := Prod.mk.inj hrecv
    exact ⟨⟨rfl, rfl⟩, id⟩
  | inject bytes hend => rw [hend] at hs; exact ⟨hs, id⟩
  | @readerRecv half _ _ _ hend hrecv =>
    rw [hend] at hs
    have hclosed : half.closed = true := hs
    rw [WireReader.recv, if_pos hclosed] at hrecv
    obtain ⟨rfl, rfl⟩ := Prod.mk.inj hrecv
    exact ⟨hclosed, id⟩
  | @send io message answer hend =>
    rw [hend] at hs
    obtain ⟨wire, prefetched⟩ := io
    obtain ⟨rfl, rfl⟩ : wire = none ∧ prefetched = none := hs
    exact ⟨⟨rfl, rfl⟩, id⟩
  | terminate hend => exact ⟨⟨rfl, rfl⟩, id⟩
  | split hend htake =>
    obtain ⟨wire, hwire, -⟩ := split_reader htake
    rw [hend] at hs
    cases hs.1.symm.trans hwire
  | cancel hend => exact ⟨rfl, id⟩

theorem run_dead {s t : Attacked} {labels : List AttackLabel}
    (h : Run (AttackStep box proto key) s labels t) (hs : s.readEnd.Dead) :
    ∀ l ∈ labels, ¬ l.Hands := by
  induction h with
  | nil => exact fun _ hmem => absurd hmem List.not_mem_nil
  | cons hstep _ ih =>
    obtain ⟨hdead, hhands⟩ := step_dead hs hstep
    intro l hmem
    rcases List.mem_cons.mp hmem with rfl | hmem
    · exact hhands
    · exact ih hdead l hmem

/-! ### Everything that arrives -/

/-- **Whatever an attacker writes, every record that is handed over was sealed under
the reader's next nonce, or came in a frame of at most one byte and is ignored by
every session layer; a frame that is neither ends the connection.** -/
theorem wire_accounted (hbox : Unforgeable box key) (hproto : proto.ShortIsEmpty)
    {start s : Attacked} {labels : List AttackLabel} (hstart : start.readEnd.Ciphered key)
    (h : Run (AttackStep box proto key) start labels s) {before after : List AttackLabel}
    {frame : Option Bytes} {receipt : Receipt}
    (hlabels : labels = before ++ .received frame receipt :: after) :
    ∃ u v, Run (AttackStep box proto key) start before u ∧
      AttackStep box proto key u (.received frame receipt) v ∧
      Run (AttackStep box proto key) v after s ∧
      Accounted proto key u.log u.readEnd v.readEnd frame receipt ∧
      (receipt = .refused → ∀ l ∈ after, ¬ l.Hands) := by
  subst hlabels
  obtain ⟨u, hbefore, hrest⟩ := h.split
  cases hrest with
  | @cons _ v _ _ _ hstep hafter =>
    have hu : u.readEnd.Ciphered key :=
      hbefore.invariant (I := fun s => s.readEnd.Ciphered key)
        (fun _ _ _ hs => step_ciphered hbox hproto hs) hstart
    have haccounted : Accounted proto key u.log u.readEnd v.readEnd frame receipt := by
      cases hstep with
      | sessionRecv hend hrecv =>
        rw [hend]
        exact (session_accounted hbox hproto (hend ▸ hu) hrecv).1
      | readerRecv hend hrecv =>
        rw [hend]
        exact (reader_accounted hbox hproto (hend ▸ hu) hrecv).1
    refine ⟨u, v, hbefore, hstep, hafter, haccounted, ?_⟩
    rintro rfl
    exact run_dead hafter haccounted

/-! ### Where a cipher comes from -/

theorem new_ciphered {wire : FramedStream} {cipher : Encrypt} (h : wire.cipher = some cipher) :
    (ReadEnd.session (.new wire none)).Ciphered cipher.key :=
  ⟨rfl, fun _ hsome => Option.some.inj hsome ▸ ⟨cipher, h, rfl⟩⟩

/-- A viewer whose handshake installed a cipher starts with nothing that was received
before it. -/
theorem viewer_ciphered {sodium : Sodium} {codecs : Codecs} {keys : Handshake.ViewerKeys}
    {wire : FramedStream} {identity : ViewerIdentity} {reads writes : List Bytes}
    {v : Established} {cipher : Encrypt}
    (h : Prog.Exec (Handshake.viewer sodium codecs keys wire identity) reads writes (.ok v))
    (hcipher : v.wire.cipher = some cipher) :
    (ReadEnd.session (ViewerSession.fromEstablished v).io).Ciphered cipher.key := by
  obtain ⟨hplain, ⟨-, rfl, -⟩ | ⟨_, _, _, _, _, -, -, -, -, ⟨_, -, -, rfl⟩ | ⟨_, _, _, -, -, rfl⟩⟩⟩ :=
    Handshake.viewer_ok h
  · cases hplain.symm.trans hcipher
  · exact new_ciphered hcipher
  · cases hplain.symm.trans hcipher

/-- So does a host, whose first record is its challenge. -/
theorem host_ciphered {sodium : Sodium} {codecs : Codecs} {secret : BoxSecretKey}
    {wire : FramedStream} {identity : HostIdentity} {reads writes : List Bytes} {e : Established}
    {cipher : Encrypt}
    (h : Prog.Exec (Handshake.host sodium codecs secret wire identity) reads writes (.ok e))
    (hcipher : e.wire.cipher = some cipher) {config : HostAuthConfig} {challenge : String}
    {answer : SendAnswer} {session : HostSession}
    (hstart : HostSession.fromEstablished sodium.secretbox codecs.message e config challenge answer =
      some (.ok session)) :
    (ReadEnd.session session.io).Ciphered cipher.key := by
  have hnew : (ReadEnd.session (.new e.wire e.prefetched)).Ciphered cipher.key := by
    obtain ⟨hplain, ⟨-, -, -, rfl⟩ | ⟨_, _, _, _, _, _, -, -, -, -, -, -, ⟨_, -, rfl⟩ | ⟨_, -, rfl⟩⟩⟩ :=
      Handshake.host_ok h
    · cases hplain.symm.trans hcipher
    · exact new_ciphered hcipher
    · cases hplain.symm.trans hcipher
  unfold HostSession.fromEstablished at hstart
  rcases hauth : HostAuthentication.new config challenge with reason | auth
  · rw [hauth] at hstart
    cases hstart
  rcases hsend : (SessionIo.new e.wire e.prefetched).send sodium.secretbox codecs.message
    (HostSession.hello auth) answer with ⟨io, - | ⟨error | ⟨⟩⟩⟩
  · simp only [hauth, hsend] at hstart
    cases hstart
  · simp only [hauth, hsend] at hstart
    cases hstart
  · simp only [hauth, hsend] at hstart
    cases hstart
    have hio := congrArg Prod.fst hsend
    rw [← show _ = io from hio]
    exact send_ciphered hnew (HostSession.hello auth) answer

end Wire

/-! ### A connection on record -/

/-- A cipher that opens what is on record, whatever the key. -/
def recording (log : List Sealing) : SecretBox where
  sealed data _ _ := List.replicate macBytes 0 ++ data
  opened bytes nonce _ := (log.find? fun s => s.nonce = nonce ∧ s.frame = bytes).map (·.data)

theorem recording_unforgeable (key : Key) : Unforgeable recording key where
  opened_mem := by
    intro log bytes data nonce h
    obtain ⟨sealing, hfind, rfl⟩ := Option.map_eq_some_iff.mp h
    obtain ⟨rfl, rfl⟩ : sealing.nonce = nonce ∧ sealing.frame = bytes := by
      simpa using List.find?_some hfind
    exact List.mem_of_find?_eq_some hfind

def recordedKey : Key := ⟨List.replicate 32 0, rfl⟩

def recordedProbe : Message := .of (.testDelay { fromClient := true })

/-- An encoding of two messages, one of them empty. -/
def recordedProto : Protobuf Message := .table [(.new, []), (recordedProbe, [8, 1])]

theorem recordedProto_short : recordedProto.ShortIsEmpty := by
  intro bytes message hlen hparse
  rcases bytes with - | ⟨byte, - | ⟨_, _⟩⟩
  · obtain rfl : Message.new = message := Except.ok.inj hparse
    rfl
  · simp [recordedProto, Protobuf.table] at hparse
  · simp at hlen

/-- An end of the wire with the key set. -/
def recordedIo : SessionIo := .new (FramedStream.fromStream.setKey recordedKey) none

/-- A session with a cipher, and nothing sealed yet. -/
def recordedStart : Attacked := ⟨[], .session recordedIo⟩

theorem recordedStart_ciphered : recordedStart.readEnd.Ciphered recordedKey := by
  have hcipher : (FramedStream.fromStream.setKey recordedKey).cipher = some (.new recordedKey) := rfl
  exact new_ciphered hcipher

theorem recorded_recv {log : List Sealing} {io io' : SessionIo} {frame : Bytes} {message : Message}
    (h : io.recv (recording log) recordedProto (.frame frame) = (io', some (.ok (some message)))) :
    AttackStep recording recordedProto recordedKey ⟨log, .session io⟩
      (.received (some frame) (.handed message)) ⟨log, .session io'⟩ :=
  @AttackStep.sessionRecv recording recordedProto recordedKey ⟨log, .session io⟩ io io'
    (.frame frame) (some (.ok (some message))) rfl h

/-- Not every frame that is handed over was sealed: an empty one is, on a wire on which
nothing was. -/
theorem not_all_sealed : ¬ ∀ (box : List Sealing → SecretBox) (proto : Protobuf Message) (key : Key),
    Unforgeable box key → proto.ShortIsEmpty → ∀ (start s : Attacked) (before after : List AttackLabel)
      (frame : Option Bytes) (message : Message), start.readEnd.Ciphered key →
      Run (AttackStep box proto key) start (before ++ .received frame (.handed message) :: after) s →
      ∃ u v, Run (AttackStep box proto key) start before u ∧
        AttackStep box proto key u (.received frame (.handed message)) v ∧
        ∃ bytes cipher data, frame = some bytes ∧ u.readEnd.cipher? = some cipher ∧
          ⟨getNonce (cipher.openedFrames + 1), data, bytes⟩ ∈ u.log := by
  intro h
  have hstep : AttackStep recording recordedProto recordedKey recordedStart
      (.received (some []) (.handed .new)) recordedStart := recorded_recv rfl
  obtain ⟨u, -, hbefore, -, bytes, cipher, data, -, -, hmem⟩ :=
    h recording recordedProto recordedKey (recording_unforgeable _) recordedProto_short
      recordedStart recordedStart [] [] (some []) .new recordedStart_ciphered (.single hstep)
  cases hbefore
  exact absurd hmem List.not_mem_nil

/-- What is sealed, and what the session receives and the reader after it: a sealed
record, an empty frame, and two bytes that nobody sealed. -/
def recordedSealing : Sealing := ⟨getNonce 1, [8, 1], List.replicate macBytes 0 ++ [8, 1]⟩

/-- The probe is sealed and received; then the attacker puts a frame on the wire. -/
def recordedBefore : List AttackLabel :=
  [.sealed recordedSealing, .received (some recordedSealing.frame) (.handed recordedProbe), .own,
    .injected [0]]

/-- A frame that nobody has sealed is refused. -/
def recordedAfter : List AttackLabel := [.injected [8, 7, 7], .received (some [7, 7]) .refused]

theorem recorded_poll {log : List Sealing} {half half' : WireReader} {frame : Bytes}
    {received : Received Message} {receipt : Receipt} (hopen : half.closed = false)
    (hframe : half.frame? = some frame)
    (h : half.recv (recording log) recordedProto false = (half', received))
    (hreceipt : .ofReader received = receipt) :
    AttackStep recording recordedProto recordedKey ⟨log, .reader half⟩
      (.received (some frame) receipt) ⟨log, .reader half'⟩ := by
  have hstep := @AttackStep.readerRecv recording recordedProto recordedKey ⟨log, .reader half⟩
    half half' false received rfl h
  rw [hopen, hframe, hreceipt] at hstep
  exact hstep

theorem recorded_run : ∃ s, Run (AttackStep recording recordedProto recordedKey) recordedStart
    (recordedBefore ++ .received (some []) (.handed .new) :: recordedAfter) s := by
  constructor
  apply Run.cons (.sealed _ _ _)
  apply Run.cons (recorded_recv rfl)
  apply Run.cons (.split rfl rfl)
  apply Run.cons (.inject _ rfl)
  apply Run.cons (recorded_poll rfl rfl rfl rfl)
  apply Run.cons (.inject _ rfl)
  apply Run.cons (recorded_poll rfl rfl rfl rfl)
  exact .nil _

theorem wire_accounted_recorded : ∃ u v s,
    Run (AttackStep recording recordedProto recordedKey) recordedStart recordedBefore u ∧
      AttackStep recording recordedProto recordedKey u (.received (some []) (.handed .new)) v ∧
      Run (AttackStep recording recordedProto recordedKey) v recordedAfter s ∧
      Accounted recordedProto recordedKey u.log u.readEnd v.readEnd (some []) (.handed .new) := by
  obtain ⟨s, hrun⟩ := recorded_run
  obtain ⟨u, v, hbefore, hstep, hafter, haccounted, -⟩ :=
    wire_accounted (recording_unforgeable _) recordedProto_short recordedStart_ciphered hrun rfl
  exact ⟨u, v, s, hbefore, hstep, hafter, haccounted⟩

end RdEngine
