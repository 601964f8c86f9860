/-
RdEngine/Handshake.lean

The peer handshake of `handshake.rs`, both sides as programs over the frames
of the connection: an item read or written is the payload of one frame, after
the length framing and before the cipher.

`viewer` and `host` follow the source record by record.  What they decide on
the record they receive is split off as a pure function (`viewerDecision`,
`hostDecision`).  The deadline is not in the programs: when it expires the
program is cut off where it reads or writes, with an error.  Random keys are
arguments.
-/
import RdEngine.Lib.Dialogue
import RdEngine.Authentication
import RdEngine.Tcp

namespace RdEngine

open Dialogue

/-- The protobuf library at the records of the handshake. -/
structure Codecs where
  message : Protobuf Message
  idPk : Protobuf IdPk

/-- Both encodings are read back as what was written. -/
structure Codecs.Lawful (codecs : Codecs) : Prop where
  message : codecs.message.Lawful
  idPk : codecs.idPk.Lawful

/-- The wire format adds little to what it carries: a tag and a length for each
of at most two nested fields. -/
structure Codecs.Compact (codecs : Codecs) : Prop where
  idPk : ∀ {identity bytes}, codecs.idPk.writeToBytes identity = .ok bytes →
    bytes.length ≤ (utf8 identity.id).length + identity.pk.length + 16
  signedId : ∀ {signed bytes}, codecs.message.writeToBytes (.of (.signedId signed)) = .ok bytes →
    bytes.length ≤ signed.id.length + 16

/-- Evidence supplied by the dialer. -/
inductive ViewerIdentity where
  | legacyUnverified
  | pinnedHost (expectedId : String) (peerSigningKey : SignPublicKey)
  | rendezvous (expectedId : String) (signedIdPk : Bytes) (serverKey : SignPublicKey)

/-- Only a pinned identity rules out every fallback. -/
def ViewerIdentity.strict : ViewerIdentity → Bool
  | .pinnedHost _ _ => true
  | _ => false

/-- How a host shows who it is. -/
inductive HostIdentity where
  | legacyPlain
  | signed (id : String) (secretKey : SignSecretKey)

/-- What a handshake has come to. -/
inductive Security where
  | encrypted (peerId : Option String)
  | legacyPlain (registrationKeyRefresh : Bool)
  deriving DecidableEq, Repr

/-- The wire after the handshake, with what was received too early. -/
structure Established where
  wire : FramedStream
  security : Security
  prefetched : Option Message

/-- A program over the frames of a connection. -/
abbrev FrameProg (α : Type) : Type := Prog Bytes Bytes IoError α

def invalid (reason : String) : IoError := ⟨.invalidData, reason⟩

/-- `AUTH_MAX_RECORD_BYTES`. -/
def authMaxRecordBytes : Nat := 64 * 1024

/-! ### Records on the unsplit stream -/

/-- The payload of the next frame, or none when the message cannot be written
or is too long for the framing. -/
def FramedStream.sealMessage {μ : Type} (box : SecretBox) (proto : Protobuf μ) (wire : FramedStream)
    (message : μ) : Option (Bytes × FramedStream) :=
  match proto.writeToBytes message with
  | .error _ => none
  | .ok bytes =>
    let (frame, _, cipher) := encipher box wire.cipher bytes
    match BytesCodec.encodeHead frame.length with
    | .error _ => none
    | .ok _ => some (frame, { wire with cipher := cipher })

/-- The message of a received frame: the framing refuses what is too long, the
cipher what it cannot open. -/
def FramedStream.next (box : SecretBox) (wire : FramedStream) (frame : Bytes) :
    Except IoError (Bytes × FramedStream) :=
  if frame.length > wire.codec.maxPacketLength then .error (invalid "Too big packet")
  else (decipher box wire.cipher frame).map fun r => (r.1, { wire with cipher := r.2 })

namespace Handshake

variable (sodium : Sodium) (codecs : Codecs)

def init (sodium : Sodium) : FrameProg Unit :=
  if sodium.init then .done () else .fail ⟨.other, "Crypto initialization failed"⟩

def send (wire : FramedStream) (message : Message) : FrameProg FramedStream :=
  match wire.sealMessage sodium.secretbox codecs.message message with
  | none => .fail ⟨.other, "Peer handshake write failed"⟩
  | some (frame, wire) => .write frame (.done wire)

/-- A frame is read, opened and parsed. -/
def recv (wire : FramedStream) : FrameProg (Message × FramedStream) :=
  .read fun frame =>
    match wire.next sodium.secretbox frame with
    | .error e => .fail e
    | .ok (bytes, wire) =>
      match codecs.message.parseFromBytes bytes with
      | .error _ => .fail (invalid "Invalid handshake message")
      | .ok message => .done (message, wire)

/-- The identity in a signed record, when it verifies under the key. -/
def idPk (signed : Bytes) (key : SignPublicKey) : Except IoError IdPk :=
  match sodium.verify signed key with
  | none => .error (invalid "Signature mismatch")
  | some data =>
    match codecs.idPk.parseFromBytes data with
    | .error _ => .error (invalid "Invalid signed identity")
    | .ok value =>
      if value.pk.length ≠ 32 then .error (invalid "Invalid identity public key length")
      else .ok value

/-- Calling the handshake on an encrypted stream is a caller error. -/
def prepare (wire : FramedStream) : FrameProg FramedStream :=
  if wire.cipher.isSome then .fail (invalid "Key transition already completed")
  else .done { wire with codec := wire.codec.setMaxPacketLength authMaxRecordBytes }

/-! ### The viewer -/

/-- The identity the peer has to prove, if any. -/
def expected : ViewerIdentity → Except IoError (Option (String × SignPublicKey))
  | .legacyUnverified => .ok none
  | .pinnedHost expectedId peerSigningKey =>
    if expectedId = "" ∨ (utf8 expectedId).length > 512 then
      .error (invalid "Invalid pinned identity")
    else .ok (some (expectedId, peerSigningKey))
  | .rendezvous expectedId signedIdPk serverKey =>
    -- a certificate that does not verify falls back, it does not fail
    match idPk sodium codecs signedIdPk serverKey with
    | .error _ => .ok none
    | .ok value =>
      if value.id = expectedId then
        .ok ((FixedBytes.fromSlice 32 value.pk).map fun pk => (expectedId, pk))
      else .ok none

/-- What the viewer does with the peer's first record: give up, exchange a key
with the public key it proved, or go on in plaintext with a reply, keeping a
record that was not for the handshake. -/
inductive ViewerDecision where
  | refuse (error : IoError)
  | exchange (theirPk : BoxPublicKey)
  | fallback (reply : Message) (registrationKeyRefresh : Bool) (prefetched : Option Message)

/-- What the viewer makes of the first message of the host. -/
def viewerDecision (strict : Bool) (expectedId : String) (signKey : SignPublicKey)
    (message : Message) : ViewerDecision :=
  match message.union with
  | some (.signedId signed) =>
    match idPk sodium codecs signed.id signKey with
    | .ok id =>
      if id.id = expectedId then
        match FixedBytes.fromSlice 32 id.pk with
        | none => .refuse (invalid "Invalid box key")
        | some theirPk => .exchange theirPk
      else if strict then .refuse (invalid "Pinned identity mismatch")
      else .fallback Message.new false none
    | .error _ =>
      if strict then .refuse (invalid "Pinned identity verification failed")
      else .fallback (.of (.publicKey {})) true none
  | _ =>
    if strict then .refuse (invalid "Pinned host SignedId required")
    else .fallback Message.new false (some message)

/-- The keys the viewer draws: its box key pair and the symmetric key. -/
structure ViewerKeys where
  secret : BoxSecretKey
  key : Key

/-- The viewer's half of the key, sealed for the host. -/
def publicKeyReply (keys : ViewerKeys) (theirPk : BoxPublicKey) : Message :=
  .of (.publicKey {
    asymmetricValue := (sodium.boxPublic keys.secret).1
    symmetricValue := sodium.boxSeal keys.key.1 zeroNonce theirPk keys.secret })

/-- `viewer`: nothing but the keys is sent before the identity is verified. -/
def viewer (keys : ViewerKeys) (wire : FramedStream) (identity : ViewerIdentity) :
    FrameProg Established := do
  init sodium
  let wire ← prepare wire
  match expected sodium codecs identity with
  | .error e => .fail e
  | .ok none =>
    let wire ← send sodium codecs wire Message.new
    return ⟨wire, .legacyPlain false, none⟩
  | .ok (some (expectedId, signKey)) =>
    let (message, wire) ← recv sodium codecs wire
    match viewerDecision sodium codecs identity.strict expectedId signKey message with
    | .refuse e => .fail e
    | .exchange theirPk =>
      let wire ← send sodium codecs wire (publicKeyReply sodium keys theirPk)
      return ⟨wire.setKey keys.key, .encrypted (some expectedId), none⟩
    | .fallback reply refresh prefetched =>
      let wire ← send sodium codecs wire reply
      return ⟨wire, .legacyPlain refresh, prefetched⟩

/-! ### The host -/

/-- What the host makes of the viewer's reply. -/
inductive HostDecision where
  | refuse (error : IoError)
  | keyed (key : Key)
  | plain (registrationKeyRefresh : Bool)

/-- What the host makes of the answer of the viewer. -/
def hostDecision (secret : BoxSecretKey) (reply : Message) : HostDecision :=
  match reply.union with
  | some (.publicKey key) =>
    if key.asymmetricValue = [] then .plain true
    else
      match Encrypt.decode sodium key.symmetricValue key.asymmetricValue secret with
      | none => .refuse (invalid "Invalid peer key exchange")
      | some key => .keyed key
  | none => .plain false
  | _ => .refuse (invalid "Unexpected message during key transition")

/-- The record in which the host states its identity, signed. -/
def signedIdentity (data : Bytes) (secretKey : SignSecretKey) : Message :=
  .of (.signedId { id := sodium.sign data secretKey })

/-- `host`: the identity is shown first, and then the keys are read. -/
def host (secret : BoxSecretKey) (wire : FramedStream) (identity : HostIdentity) :
    FrameProg Established := do
  init sodium
  let wire ← prepare wire
  match identity with
  | .legacyPlain => return ⟨wire, .legacyPlain false, none⟩
  | .signed id secretKey =>
    match codecs.idPk.writeToBytes { id := id, pk := (sodium.boxPublic secret).1 } with
    | .error _ => .fail (invalid "Identity serialization failed")
    | .ok data =>
      let wire ← send sodium codecs wire (signedIdentity sodium data secretKey)
      let (reply, wire) ← recv sodium codecs wire
      match hostDecision sodium secret reply with
      | .refuse e => .fail e
      | .keyed key => return ⟨wire.setKey key, .encrypted none, none⟩
      | .plain refresh => return ⟨wire, .legacyPlain refresh, none⟩

end Handshake

end RdEngine
