/-
RdEngine/Transport.lean

The full-duplex transport of `transport.rs`: a framed stream split into a
reader and a writer that share a cancellation token.

`WireReader.recv` and `WireWriter.send` are single calls.  What the connection
does during a call is an argument: how many bytes of the frame the stream
took, and why the call stopped if it did not take them all (`WriteStop`).  A
frame is complete when the stream took all of it; flushing a TCP socket adds
nothing.  The token of a half is its `closed` field, and another half
cancelling it is a step of its own.
-/
import RdEngine.Tcp

namespace RdEngine

open Incremental

/-- `MAX_MESSAGE_BYTES`. -/
def maxMessageBytes : Nat := 64 * 1024 * 1024

/-- `WireReader`: the half of the wire that is read. -/
structure WireReader where
  codec : BytesCodec
  buffer : Bytes
  cipher : Option Encrypt
  closed : Bool

/-- `WireWriter`: the half of the wire that is written. -/
structure WireWriter where
  codec : BytesCodec
  cipher : Option Encrypt
  deadline : Option Nat
  closed : Bool

/-- Split a framed stream.  Both halves keep the cipher state, and the reader
keeps what was received and not yet decoded. -/
def split (wire : FramedStream) : WireReader × WireWriter :=
  let codec := wire.codec.setMaxPacketLength (maxMessageBytes + macBytes)
  let deadline := if wire.sendTimeout ≠ 0 then some wire.sendTimeout else none
  ({ codec := codec, buffer := wire.buffer, cipher := wire.cipher, closed := false },
    { codec := codec, cipher := wire.cipher, deadline := deadline, closed := false })

/-- The error of a half that was given up. -/
def disconnected : IoError := ⟨.connectionAborted, "RustDesk transport closed"⟩

/-- The error of a record that is too large. -/
def oversized (kind : IoErrorKind) : IoError := ⟨kind, "Oversized RustDesk message"⟩

variable {μ : Type}

/-! ### Receiving -/

/-- What a call of `recv` gives: `pending` when no whole frame has arrived and
the connection is still open. -/
inductive Received (μ : Type) where
  | pending
  | ended
  | message (message : μ)
  | failed (error : IoError)
  deriving DecidableEq

/-- `WireReader::decode`, with the reader's cipher passed in and out. -/
def decodePacket (box : SecretBox) (proto : Protobuf μ) (cipher : Option Encrypt)
    (bytes : Bytes) : Except IoError (μ × Option Encrypt) :=
  match decipher box cipher bytes with
  | .error e => .error e
  | .ok (bytes, cipher) =>
    if bytes.length > maxMessageBytes then .error (oversized .invalidData)
    else
      match proto.parseFromBytes bytes with
      | .ok message => .ok (message, cipher)
      | .error e => .error ⟨.invalidData, e⟩

namespace WireReader

def cancel (reader : WireReader) : WireReader := { reader with closed := true }

/-- What a poll gives behind the last whole frame that has arrived.  When the
connection has ended there, a rest that is no frame is an error. -/
def idle (rest : Bytes) (eof : Bool) : Received μ :=
  if eof then
    if rest = [] then .ended else .failed ⟨.other, "bytes remaining on stream"⟩
  else .pending

/-- One poll of `recv`; `eof` says that the connection has ended behind the
bytes received. -/
def recv (box : SecretBox) (proto : Protobuf μ) (reader : WireReader) (eof : Bool) :
    WireReader × Received μ :=
  if reader.closed then (reader, .failed disconnected)
  else
    match reader.codec.decode reader.buffer with
    | .fail e => (reader.cancel, .failed e)
    | .wait codec rest =>
      ({ reader with codec := codec, buffer := rest, closed := eof }, idle rest eof)
    | .item bytes codec rest =>
      let reader := { reader with codec := codec, buffer := rest }
      match decodePacket box proto reader.cipher bytes with
      | .ok (message, cipher) => ({ reader with cipher := cipher }, .message message)
      | .error e => (reader.cancel, .failed e)

/-- The reader's framing and cipher as one incremental decoder. -/
def decoder (box : SecretBox) (proto : Protobuf μ) :
    Decoder (BytesCodec × Option Encrypt) UInt8 μ IoError :=
  BytesCodec.decoder.through (decodePacket box proto)

/-- A poll of an open reader is a poll of its decoder. -/
theorem recv_eq (box : SecretBox) (proto : Protobuf μ) {reader : WireReader} (eof : Bool)
    (hopen : reader.closed = false) :
    match (decoder box proto).decode (reader.codec, reader.cipher) reader.buffer with
    | .fail e => (reader.recv box proto eof).2 = .failed e
    | .wait s rest => reader.recv box proto eof = (⟨s.1, rest, s.2, eof⟩, idle rest eof)
    | .item message s rest =>
      reader.recv box proto eof = (⟨s.1, rest, s.2, false⟩, .message message) := by
  have hdecode : (decoder box proto).decode (reader.codec, reader.cipher) reader.buffer =
      BytesCodec.decoder.throughDecode (decodePacket box proto)
        (reader.codec, reader.cipher) reader.buffer := rfl
  rw [hdecode]
  unfold Decoder.throughDecode recv
  rw [if_neg (by rw [hopen]; exact Bool.false_ne_true)]
  rcases hcodec : reader.codec.decode reader.buffer with e | ⟨codec, rest⟩ | ⟨bytes, codec, rest⟩
  · simp only [BytesCodec.decoder_decode, hcodec]
  · simp only [BytesCodec.decoder_decode, hcodec]
  · simp only [BytesCodec.decoder_decode, hcodec]
    rcases hpacket : decodePacket box proto reader.cipher bytes with e | ⟨message, cipher⟩
    · simp only
    · simp only [hopen]

end WireReader

/-! ### Sending -/

/-- Why a send stopped before its frame was written. -/
inductive WriteStop where
  | cancelled
  | timeout
  | error (error : IoError)
  | dropped

/-- How a call of `send` ends: `dropped` when its future was. -/
inductive SendResult where
  | ok
  | failed (error : IoError)
  | dropped
  deriving DecidableEq

def WriteStop.result : WriteStop → SendResult
  | .cancelled => .failed disconnected
  | .timeout => .failed ⟨.timedOut, "RustDesk write timeout"⟩
  | .error e => .failed e
  | .dropped => .dropped

/-- One call of `send`: the writer after it, whether it armed a pending write,
the nonce it used, the bytes the stream took, and its result. -/
structure SendTurn where
  writer : WireWriter
  begun : Bool
  nonce : Option Nonce
  bytes : Bytes
  result : SendResult

namespace WireWriter

def cancel (writer : WireWriter) : WireWriter := { writer with closed := true }

/-- A send that ended before the cipher was touched. -/
def refuse (writer : WireWriter) (error : IoError) : SendTurn := ⟨writer, false, none, [], .failed error⟩

/-- Send one message; the stream takes `taken` bytes of its frame, and `stop`
says what ended the call if that is not all of it.  The pending write then
cancels the token as it is dropped. -/
def send (box : SecretBox) (proto : Protobuf μ) (writer : WireWriter) (message : μ)
    (taken : Nat) (stop : WriteStop) : SendTurn :=
  if writer.closed then writer.refuse disconnected
  else if proto.computeSize message > maxMessageBytes then
    writer.refuse (oversized .invalidInput)
  else
    match proto.writeToBytes message with
    | .error e => writer.refuse ⟨.invalidInput, e⟩
    | .ok bytes =>
      let (bytes, nonce, cipher) := encipher box writer.cipher bytes
      let writer := { writer with cipher := cipher }
      match writer.codec.encode bytes [] with
      | .error e => ⟨writer.cancel, true, nonce, [], .failed e⟩
      | .ok frame =>
        if frame.length ≤ taken then ⟨writer, true, nonce, frame, .ok⟩
        else ⟨writer.cancel, true, nonce, frame.take taken, stop.result⟩

end WireWriter

end RdEngine
