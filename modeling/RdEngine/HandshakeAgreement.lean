/-
RdEngine/HandshakeAgreement.lean

The two sides of the handshake against each other.

Each side is run on its own, against any connection (`Prog.Exec`): its reads
and writes are lists of frames.  That they talk over one connection is said by
the order of the two channels: what a side has read is a prefix of what the
other side has written, its first session record included.  Interleavings,
losses of the connection and expired deadlines are all covered, since they
only stop a side earlier.

`viewer_ok` and `host_ok` list the ways a side can end well;
`handshake_agreement` goes through their combinations.
-/
import RdEngine.HostSession
import RdEngine.SessionSafety

namespace RdEngine

open Dialogue Dialogue.Prog

namespace Handshake

variable {sodium : Sodium} {codecs : Codecs}

/-! ### Steps that end well -/

/-- The wire as `prepare` leaves it. -/
def prepared (wire : FramedStream) : FramedStream :=
  { wire with codec := wire.codec.setMaxPacketLength authMaxRecordBytes }

theorem init_exec {α : Type} {f : Unit → FrameProg α} {reads writes : List Bytes} {a : α}
    (h : Exec (init sodium >>= f) reads writes (.ok a)) : Exec (f ()) reads writes (.ok a) := by
  unfold init at h
  split at h
  · exact h
  · cases h

theorem prepare_exec {α : Type} {wire : FramedStream} {f : FramedStream → FrameProg α}
    {reads writes : List Bytes} {a : α} (h : Exec (prepare wire >>= f) reads writes (.ok a)) :
    wire.cipher = none ∧ Exec (f (prepared wire)) reads writes (.ok a) := by
  unfold prepare at h
  split at h
  · cases h
  · next hplain =>
    exact ⟨by simpa using hplain, h⟩

theorem sealMessage_plain {μ : Type} {box : SecretBox} {proto : Protobuf μ}
    {wire wire' : FramedStream} {message : μ} {frame : Bytes} (hplain : wire.cipher = none)
    (h : wire.sealMessage box proto message = some (frame, wire')) :
    proto.writeToBytes message = .ok frame ∧ wire' = wire := by
  unfold FramedStream.sealMessage at h
  split at h
  · cases h
  · next bytes hbytes =>
    rw [hplain] at h
    simp only [encipher] at h
    split at h
    · cases h
    · cases h
      exact ⟨hbytes, by rw [← hplain]⟩

theorem send_exec {α : Type} {wire : FramedStream} {message : Message}
    {f : FramedStream → FrameProg α} {reads writes : List Bytes} {a : α}
    (hplain : wire.cipher = none)
    (h : Exec (send sodium codecs wire message >>= f) reads writes (.ok a)) :
    ∃ frame rest, codecs.message.writeToBytes message = .ok frame ∧ writes = frame :: rest ∧
      Exec (f wire) reads rest (.ok a) := by
  unfold send at h
  split at h
  · cases h
  · next frame wire' hseal =>
    obtain ⟨hwrite, rfl⟩ := sealMessage_plain hplain hseal
    cases h with
    | write hrest => exact ⟨frame, _, hwrite, rfl, hrest⟩

theorem next_plain {box : SecretBox} {wire wire' : FramedStream} {frame bytes : Bytes}
    (hplain : wire.cipher = none) (h : wire.next box frame = .ok (bytes, wire')) :
    bytes = frame ∧ wire' = wire ∧ frame.length ≤ wire.codec.maxPacketLength := by
  unfold FramedStream.next at h
  split at h
  · cases h
  · next hlen =>
    rw [hplain] at h
    cases h
    exact ⟨rfl, by rw [← hplain], le_of_not_gt hlen⟩

theorem recv_exec {α : Type} {wire : FramedStream} {f : Message × FramedStream → FrameProg α}
    {reads writes : List Bytes} {a : α} (hplain : wire.cipher = none)
    (h : Exec (recv sodium codecs wire >>= f) reads writes (.ok a)) :
    ∃ frame rest message, reads = frame :: rest ∧ frame.length ≤ wire.codec.maxPacketLength ∧
      codecs.message.parseFromBytes frame = .ok message ∧
      Exec (f (message, wire)) rest writes (.ok a) := by
  rw [recv, read_bind] at h
  cases h with
  | @read _ frame rest _ _ h =>
    rcases hnext : wire.next sodium.secretbox frame with e | ⟨bytes, wire'⟩
    · simp only [hnext, fail_bind] at h; cases h
    · obtain ⟨rfl, rfl, hlen⟩ := next_plain hplain hnext
      rcases hparse : codecs.message.parseFromBytes bytes with e | message
      · simp only [hnext, hparse, fail_bind] at h; cases h
      · simp only [hnext, hparse, done_bind] at h
        exact ⟨bytes, rest, message, rfl, hlen, hparse, h⟩

/-! ### How a side ends well -/

/-- The viewer's side: no identity to check and a plain start, or the peer's
first record decided. -/
theorem viewer_ok {keys : ViewerKeys} {wire : FramedStream} {identity : ViewerIdentity}
    {reads writes : List Bytes} {v : Established}
    (h : Exec (viewer sodium codecs keys wire identity) reads writes (.ok v)) :
    wire.cipher = none ∧
    ((reads = [] ∧ v = ⟨prepared wire, .legacyPlain false, none⟩ ∧
        ∃ w, codecs.message.writeToBytes Message.new = .ok w ∧ writes = [w]) ∨
      ∃ expectedId signKey frame message w,
        expected sodium codecs identity = .ok (some (expectedId, signKey)) ∧
        reads = [frame] ∧ codecs.message.parseFromBytes frame = .ok message ∧ writes = [w] ∧
        ((∃ theirPk, viewerDecision sodium codecs identity.strict expectedId signKey message =
              .exchange theirPk ∧
            codecs.message.writeToBytes (publicKeyReply sodium keys theirPk) = .ok w ∧
            v = ⟨(prepared wire).setKey keys.key, .encrypted (some expectedId), none⟩) ∨
          ∃ reply refresh prefetched,
            viewerDecision sodium codecs identity.strict expectedId signKey message =
              .fallback reply refresh prefetched ∧
            codecs.message.writeToBytes reply = .ok w ∧
            v = ⟨prepared wire, .legacyPlain refresh, prefetched⟩)) := by
  unfold viewer at h
  obtain ⟨hplain, h⟩ := prepare_exec (init_exec h)
  have hprepared : (prepared wire).cipher = none := hplain
  refine ⟨hplain, ?_⟩
  -- no identity expected: an empty message is sent, and nothing is read
  rcases hexpected : expected sodium codecs identity with e | - | ⟨expectedId, signKey⟩
  · rw [hexpected] at h; cases h
  · rw [hexpected] at h
    obtain ⟨w, rest, hwrite, rfl, hdone⟩ := send_exec hprepared h
    cases hdone
    exact .inl ⟨rfl, rfl, w, hwrite, rfl⟩
  · rw [hexpected] at h
    obtain ⟨frame, rest, message, rfl, -, hparse, hnext⟩ := recv_exec hprepared h
    rcases hdecision : viewerDecision sodium codecs identity.strict expectedId signKey message with
      e | theirPk | ⟨reply, refresh, prefetched⟩
    · simp only [hdecision] at hnext; cases hnext
    · simp only [hdecision] at hnext
      obtain ⟨w, rest, hwrite, rfl, hdone⟩ := send_exec hprepared hnext
      cases hdone
      exact .inr ⟨expectedId, signKey, frame, message, w, rfl, rfl, hparse, rfl,
        .inl ⟨theirPk, hdecision, hwrite, rfl⟩⟩
    · simp only [hdecision] at hnext
      obtain ⟨w, rest, hwrite, rfl, hdone⟩ := send_exec hprepared hnext
      cases hdone
      exact .inr ⟨expectedId, signKey, frame, message, w, rfl, rfl, hparse, rfl,
        .inr ⟨reply, refresh, prefetched, hdecision, hwrite, rfl⟩⟩

/-- The host's side: no identity to state, or it stated one and decided on the
viewer's reply. -/
theorem host_ok {secret : BoxSecretKey} {wire : FramedStream} {identity : HostIdentity}
    {reads writes : List Bytes} {e : Established}
    (h : Exec (host sodium codecs secret wire identity) reads writes (.ok e)) :
    wire.cipher = none ∧
    ((identity = .legacyPlain ∧ reads = [] ∧ writes = [] ∧
        e = ⟨prepared wire, .legacyPlain false, none⟩) ∨
      ∃ id secretKey data w frame reply,
        identity = .signed id secretKey ∧
        codecs.idPk.writeToBytes { id := id, pk := (sodium.boxPublic secret).1 } = .ok data ∧
        codecs.message.writeToBytes (signedIdentity sodium data secretKey) = .ok w ∧
        writes = [w] ∧ reads = [frame] ∧ codecs.message.parseFromBytes frame = .ok reply ∧
        ((∃ key, hostDecision sodium secret reply = .keyed key ∧
            e = ⟨(prepared wire).setKey key, .encrypted none, none⟩) ∨
          ∃ refresh, hostDecision sodium secret reply = .plain refresh ∧
            e = ⟨prepared wire, .legacyPlain refresh, none⟩)) := by
  unfold host at h
  obtain ⟨hplain, h⟩ := prepare_exec (init_exec h)
  have hprepared : (prepared wire).cipher = none := hplain
  refine ⟨hplain, ?_⟩
  cases identity with
  | legacyPlain => cases h; exact .inl ⟨rfl, rfl, rfl, rfl⟩
  | signed id secretKey =>
    -- the identity is sent, and the reply decides
    rcases hdata : codecs.idPk.writeToBytes { id := id, pk := (sodium.boxPublic secret).1 } with
      e | data
    · simp only [hdata] at h; cases h
    · simp only [hdata] at h
      obtain ⟨w, rest, hwrite, rfl, hsent⟩ := send_exec hprepared h
      obtain ⟨frame, rest', reply, rfl, -, hparse, hnext⟩ := recv_exec hprepared hsent
      rcases hdecision : hostDecision sodium secret reply with e | key | refresh
      · simp only [hdecision] at hnext; cases hnext
      · simp only [hdecision] at hnext
        cases hnext
        exact .inr ⟨id, secretKey, data, w, frame, reply, rfl, hdata, hwrite, rfl, rfl, hparse,
          .inl ⟨key, hdecision, rfl⟩⟩
      · simp only [hdecision] at hnext
        cases hnext
        exact .inr ⟨id, secretKey, data, w, frame, reply, rfl, hdata, hwrite, rfl, rfl, hparse,
          .inr ⟨refresh, hdecision, rfl⟩⟩

/-! ### The decisions on an honest peer's record -/

/-- What the viewer decides on the host's own signed identity. -/
theorem viewerDecision_signed (hcodecs : codecs.Lawful) (strict : Bool) (expectedId : String)
    (signKey : SignPublicKey) (secretKey : SignSecretKey) {id : String} {secret : BoxSecretKey}
    {data : Bytes}
    (hdata : codecs.idPk.writeToBytes { id := id, pk := (sodium.boxPublic secret).1 } = .ok data) :
    (∃ e, viewerDecision sodium codecs strict expectedId signKey
        (signedIdentity sodium data secretKey) = .refuse e) ∨
    viewerDecision sodium codecs strict expectedId signKey
        (signedIdentity sodium data secretKey) = .exchange (sodium.boxPublic secret) ∨
    viewerDecision sodium codecs strict expectedId signKey
        (signedIdentity sodium data secretKey) = .fallback Message.new false none ∨
    viewerDecision sodium codecs strict expectedId signKey
        (signedIdentity sodium data secretKey) = .fallback (.of (.publicKey {})) true none := by
  simp only [viewerDecision, signedIdentity, Message.of]
  rcases hverify : sodium.verify (sodium.sign data secretKey) signKey with - | data'
  · simp only [idPk, hverify]
    cases strict
    · exact .inr (.inr (.inr rfl))
    · exact .inl ⟨_, rfl⟩
  · obtain rfl := Sodium.verify_sign hverify
    have hlen : ¬ (sodium.boxPublic secret).1.length ≠ 32 := not_not.mpr (sodium.boxPublic secret).2
    simp only [idPk, hverify, hcodecs.idPk.parse_write hdata, if_neg hlen,
      FixedBytes.fromSlice_val]
    split
    · exact .inr (.inl rfl)
    · cases strict
      · exact .inr (.inr (.inl rfl))
      · exact .inl ⟨_, rfl⟩

/-- The viewer's reply to a public key is opened by the secret key behind it. -/
theorem hostDecision_exchange (hsodium : sodium.Ideal) (keys : ViewerKeys)
    (secret : BoxSecretKey) :
    hostDecision sodium secret (publicKeyReply sodium keys (sodium.boxPublic secret)) =
      .keyed keys.key := by
  have hne : (sodium.boxPublic keys.secret).1 ≠ [] := by
    rw [← List.length_pos_iff, (sodium.boxPublic keys.secret).2]
    decide
  simp only [hostDecision, publicKeyReply, Message.of, if_neg hne, Encrypt.decode,
    FixedBytes.fromSlice_val, hsodium.boxOpen_seal]

/-! ### The session that takes over -/

/-- Both sides encrypted with one key, or both in plaintext. -/
def SameOutcome (v e : Established) : Prop :=
  (∃ key id id', v.security = .encrypted id ∧ e.security = .encrypted id' ∧
    v.wire.cipher = some (.new key) ∧ e.wire.cipher = some (.new key)) ∨
  (∃ refresh refresh', v.security = .legacyPlain refresh ∧ e.security = .legacyPlain refresh' ∧
    v.wire.cipher = none ∧ e.wire.cipher = none)

/-- The viewer's session polls what it was handed and what has arrived. -/
def sessionCalls (v : Established) (frames : List Bytes) : List ViewerSession.Call :=
  v.prefetched.toList.map (fun _ => ViewerSession.Call.recv .expired .sent) ++
    frames.map fun frame => ViewerSession.Call.recv (.frame frame) .sent

/-- From the frames that were left for it, the viewer's session takes the
challenge, once and as it was sent: it is the last record received, and not
among those before it. -/
def Delivered (box : SecretBox) (proto : Protobuf Message) (v : Established)
    (frames : List Bytes) (hash : Hash) : Prop :=
  ∀ sha256, ∃ session before,
    (ViewerSession.fromEstablished v).observe box proto sha256 (sessionCalls v frames) =
      (session, before ++ [.received (.of (.hash hash))]) ∧
    .received (.of (.hash hash)) ∉ before ∧
    session.state = .awaitLogin ∧ session.hash = some hash ∧ session.io.prefetched = none

theorem recv_hash {box : SecretBox} {proto : Protobuf Message} (session : ViewerSession)
    {io : SessionIo} {incoming : Incoming} {hash : Hash} (hstate : session.state = .awaitHash)
    (hne : hash.challenge ≠ "")
    (hio : session.io.recv box proto incoming = (io, some (.ok (some (.of (.hash hash)))))) :
    session.recv box proto incoming .sent =
      ⟨{ session with io := io, hash := some hash, state := .awaitLogin }, some (.ok .challenge),
        [.received (.of (.hash hash))]⟩ := by
  simp [ViewerSession.recv, ViewerSession.recvInner, hio, ViewerSession.dispatch, isClose,
    Message.of, hstate, hne, ViewerSession.done, ViewerTurn.heard]

theorem recv_signedId {box : SecretBox} {proto : Protobuf Message} (session : ViewerSession)
    {io : SessionIo} {incoming : Incoming} {signed : SignedId} {refresh : Bool}
    (hstate : session.state = .awaitHash) (hsecurity : session.security = .legacyPlain refresh)
    (hio : session.io.recv box proto incoming = (io, some (.ok (some (.of (.signedId signed)))))) :
    session.recv box proto incoming .sent =
      ⟨{ session with io := io }, some (.ok .progress), [.received (.of (.signedId signed))]⟩ := by
  simp [ViewerSession.recv, ViewerSession.recvInner, hio, ViewerSession.dispatch, isClose,
    Message.of, hstate, hsecurity, ViewerSession.done, ViewerTurn.heard]

/-- The host's challenge, read by the viewer under an agreeing cipher. -/
theorem next_hello {proto : Protobuf Message} {box : SecretBox} (hbox : box.Ideal)
    (hproto : proto.Lawful) {v e : Established} {auth : HostAuthentication} {hello : Bytes}
    (hagree : CiphersAgree v.wire.cipher e.wire.cipher)
    (hhello : HostSession.helloFrame box proto e auth = some hello) :
    ∃ bytes wire, (prepared v.wire).next box hello = .ok (bytes, wire) ∧
      proto.parseFromBytes bytes = .ok (HostSession.hello auth) := by
  simp only [HostSession.helloFrame, SessionIo.frame, SessionIo.new] at hhello
  rcases hwrite : proto.writeToBytes (HostSession.hello auth) with e' | bytes
  · -- a record that cannot be written is no frame
    simp [FramedStream.sealMessage, hwrite] at hhello
  have hsize := hproto.length_write hwrite
  obtain ⟨cipher', hdec, -⟩ := decipher_encipher hbox hagree bytes
  have hframe : hello = (encipher box e.wire.cipher bytes).1 ∧
      hello.length ≤ authMaxRecordBytes := by
    have hlen : (encipher box e.wire.cipher bytes).1.length =
        bytes.length + if e.wire.cipher.isSome then macBytes else 0 := by
      cases e.wire.cipher with
      | none => rfl
      | some cipher => exact hbox.length_sealed _ _ _
    split_ifs at hhello with hmac hbig hbig
    · simp only [FramedStream.sealMessage, hwrite] at hhello
      split at hhello
      · cases hhello
      · obtain rfl := Option.some.inj hhello
        refine ⟨rfl, ?_⟩
        rw [hlen, if_pos hmac, hsize]
        have : macBytes ≤ authMaxRecordBytes := by decide
        omega
    · simp only [FramedStream.sealMessage, hwrite] at hhello
      split at hhello
      · cases hhello
      · obtain rfl := Option.some.inj hhello
        refine ⟨rfl, ?_⟩
        rw [hlen, if_neg hmac, hsize]
        omega
  refine ⟨bytes, { prepared v.wire with cipher := cipher' }, ?_, hproto.parse_write hwrite⟩
  -- what the host may send fits the limit of the viewer
  have hroom : ¬ hello.length > (prepared v.wire).codec.maxPacketLength := not_lt.mpr hframe.2
  rw [FramedStream.next, if_neg hroom]
  simp only [prepared, hframe.1, hdec]
  rfl

/-- A frame that parses is the next record of a session without one at hand. -/
theorem io_recv_frame {box : SecretBox} {proto : Protobuf Message} (io : SessionIo)
    {wire wire' : FramedStream} {frame bytes : Bytes} {message : Message}
    (hwire : io.wire = some wire) (hnone : io.prefetched = none)
    (hnext : wire.next box frame = .ok (bytes, wire'))
    (hparse : proto.parseFromBytes bytes = .ok message) :
    io.recv box proto (.frame frame) = (⟨some wire', none⟩, some (.ok (some message))) := by
  simp only [SessionIo.recv, hnone, hwire, hnext, hparse]

section Delivery

variable {box : SecretBox} {proto : Protobuf Message} {v e : Established}
  {auth : HostAuthentication} {hello : Bytes}

/-- Only the challenge is left to read. -/
theorem delivered_hello (hbox : box.Ideal) (hproto : proto.Lawful) (hnone : v.prefetched = none)
    (hagree : CiphersAgree v.wire.cipher e.wire.cipher) (hne : auth.hash.challenge ≠ "")
    (hhello : HostSession.helloFrame box proto e auth = some hello) :
    Delivered box proto v [hello] auth.hash := by
  intro sha256
  obtain ⟨bytes, wire', hnext, hparse⟩ := next_hello hbox hproto hagree hhello
  have hio := io_recv_frame (ViewerSession.fromEstablished v).io rfl hnone hnext hparse
  have hrecv := recv_hash (ViewerSession.fromEstablished v) rfl hne hio
  refine ⟨{ ViewerSession.fromEstablished v with
    io := ⟨some wire', none⟩, hash := some auth.hash, state := .awaitLogin }, [], ?_,
    List.not_mem_nil, rfl, rfl, rfl⟩
  simp only [ViewerSession.observe, sessionCalls, hnone, Option.toList_none, List.map_nil,
    List.nil_append, List.map_cons, List.foldl_cons, List.foldl_nil, ViewerSession.observeStep,
    ViewerSession.call, hrecv]

/-- The challenge was read during the handshake and handed over. -/
theorem delivered_prefetched (hpre : v.prefetched = some (HostSession.hello auth))
    (hne : auth.hash.challenge ≠ "") : Delivered box proto v [] auth.hash := by
  intro sha256
  have hio : (ViewerSession.fromEstablished v).io.recv box proto .expired =
      ({ (ViewerSession.fromEstablished v).io with prefetched := none },
        some (.ok (some (.of (.hash auth.hash))))) := by
    simp only [SessionIo.recv, ViewerSession.fromEstablished, SessionIo.new, hpre]
    rfl
  have hrecv := recv_hash (ViewerSession.fromEstablished v) rfl hne hio
  refine ⟨{ ViewerSession.fromEstablished v with
    io := { (ViewerSession.fromEstablished v).io with prefetched := none },
    hash := some auth.hash, state := .awaitLogin }, [], ?_, List.not_mem_nil, rfl, rfl, rfl⟩
  simp only [ViewerSession.observe, sessionCalls, hpre, Option.toList_some, List.map_nil,
    List.append_nil, List.nil_append, List.map_cons, List.foldl_cons, List.foldl_nil,
    ViewerSession.observeStep, ViewerSession.call, hrecv]

/-- The host's identity, which nobody asked for, stands before the challenge. -/
theorem delivered_after_identity (hbox : box.Ideal) (hproto : proto.Lawful)
    (hnone : v.prefetched = none) {refresh : Bool} (hsecurity : v.security = .legacyPlain refresh)
    (hv : v.wire.cipher = none) (he : e.wire.cipher = none) {signed : SignedId} {frame : Bytes}
    (hwrite : proto.writeToBytes (.of (.signedId signed)) = .ok frame)
    (hlen : frame.length ≤ authMaxRecordBytes) (hne : auth.hash.challenge ≠ "")
    (hhello : HostSession.helloFrame box proto e auth = some hello) :
    Delivered box proto v [frame, hello] auth.hash := by
  intro sha256
  have hagree : CiphersAgree v.wire.cipher e.wire.cipher := by rw [hv, he]; trivial
  obtain ⟨bytes, wire', hnext, hparse⟩ := next_hello hbox hproto hagree hhello
  have hfirst : (prepared v.wire).next box frame = .ok (frame, prepared v.wire) := by
    have hroom : ¬ frame.length > (prepared v.wire).codec.maxPacketLength := not_lt.mpr hlen
    rw [FramedStream.next, if_neg hroom]
    simp only [prepared, hv]
    rfl
  have hio := io_recv_frame (ViewerSession.fromEstablished v).io rfl hnone hfirst
    (hproto.parse_write hwrite)
  have hrecv := recv_signedId (ViewerSession.fromEstablished v) rfl hsecurity hio
  have hio' := io_recv_frame ⟨some (prepared v.wire), none⟩ rfl rfl hnext hparse
  have hrecv' := recv_hash
    { ViewerSession.fromEstablished v with io := ⟨some (prepared v.wire), none⟩ } rfl hne hio'
  refine ⟨{ ViewerSession.fromEstablished v with
    io := ⟨some wire', none⟩, hash := some auth.hash, state := .awaitLogin },
    [.received (.of (.signedId signed))], ?_, ?_, rfl, rfl, rfl⟩
  · simp only [ViewerSession.observe, sessionCalls, hnone, Option.toList_none, List.map_nil,
      List.nil_append, List.map_cons, List.foldl_cons, List.foldl_nil, ViewerSession.observeStep,
      ViewerSession.call, hrecv, hrecv']
  · simp [Message.of]

end Delivery

/-! ### Both sides over one connection -/

theorem singleton_prefix_cons {α : Type} {x y : α} {xs : List α} (h : [x] <+: y :: xs) : x = y := by
  obtain ⟨t, ht⟩ := h
  exact (List.cons.inj ht).1

/-- What the viewer decides on a challenge in the place of an identity. -/
theorem viewerDecision_hello {strict : Bool} {expectedId : String} {signKey : SignPublicKey}
    (auth : HostAuthentication) :
    viewerDecision sodium codecs strict expectedId signKey (HostSession.hello auth) =
      if strict then .refuse (invalid "Pinned host SignedId required")
      else .fallback Message.new false (some (HostSession.hello auth)) := rfl

/-- The two sides agree, and the challenge with which the host's session
starts reaches the viewer's: of the frames the host wrote, those the viewer
has not read deliver it. -/
def Agreed (sodium : Sodium) (codecs : Codecs) (v e : Established) (auth : HostAuthentication)
    (hostWrites viewerReads : List Bytes) : Prop :=
  SameOutcome v e ∧
  ∀ hello, HostSession.helloFrame sodium.secretbox codecs.message e auth = some hello →
    auth.hash.challenge ≠ "" →
    Delivered sodium.secretbox codecs.message v ((hostWrites ++ [hello]).drop viewerReads.length)
      auth.hash

section Agreement

variable {keys : ViewerKeys} {secret : BoxSecretKey} {viewerWire hostWire : FramedStream}
  {viewerIdentity : ViewerIdentity} {hostIdentity : HostIdentity}
  {viewerReads viewerWrites hostReads hostWrites : List Bytes} {v e : Established}
  {auth : HostAuthentication}

/-- Two plain ends that go on without a key, the viewer with no record kept:
whatever the host wrote before, the viewer has read. -/
theorem agreed_plain (hsodium : sodium.Ideal) (hcodecs : codecs.Lawful)
    (hv : viewerWire.cipher = none) (he : hostWire.cipher = none) (refresh refresh' : Bool)
    {hostWrites viewerReads : List Bytes} (hread : viewerReads.length = hostWrites.length) :
    Agreed sodium codecs ⟨prepared viewerWire, .legacyPlain refresh, none⟩
      ⟨prepared hostWire, .legacyPlain refresh', none⟩ auth hostWrites viewerReads := by
  refine ⟨.inr ⟨refresh, refresh', rfl, rfl, hv, he⟩, fun hello hhello hne => ?_⟩
  have hagree : CiphersAgree (prepared viewerWire).cipher (prepared hostWire).cipher := by
    simp only [prepared, hv, he]
    trivial
  rw [hread, List.drop_left]
  exact delivered_hello hsodium.secretbox hcodecs.message rfl hagree hne hhello

/-- The host states no identity: the first record it sends is the challenge. -/
theorem agreed_plain_host (hsodium : sodium.Ideal) (hcodecs : codecs.Lawful)
    (hhplain : hostWire.cipher = none)
    (hviewer : Exec (viewer sodium codecs keys viewerWire viewerIdentity)
      viewerReads viewerWrites (.ok v))
    (hdown : viewerReads <+: (HostSession.helloFrame sodium.secretbox codecs.message
      ⟨prepared hostWire, .legacyPlain false, none⟩ auth).toList) :
    Agreed sodium codecs v ⟨prepared hostWire, .legacyPlain false, none⟩ auth [] viewerReads := by
  obtain ⟨hvplain, hviewer⟩ := viewer_ok hviewer
  rcases hviewer with ⟨rfl, rfl, -⟩ |
    ⟨expectedId, signKey, frame, message, w, -, rfl, hparse, -, hviewer⟩
  · exact agreed_plain hsodium hcodecs hvplain hhplain _ _ rfl
  · -- what the viewer waited for an identity in is the challenge itself
    rcases hhello : HostSession.helloFrame sodium.secretbox codecs.message
        ⟨prepared hostWire, .legacyPlain false, none⟩ auth with - | hello
    · rw [hhello] at hdown
      exact absurd (List.eq_nil_of_prefix_nil hdown) (List.cons_ne_nil _ _)
    rw [hhello] at hdown
    obtain rfl := singleton_prefix_cons hdown
    have hagree : CiphersAgree (prepared viewerWire).cipher (prepared hostWire).cipher := by
      simp only [prepared, hvplain, hhplain]
      trivial
    obtain ⟨bytes, wire', hnext, hparsed⟩ :=
      next_hello (v := ⟨prepared viewerWire, .legacyPlain false, none⟩) hsodium.secretbox
        hcodecs.message hagree hhello
    have htwice : (prepared (prepared viewerWire)).cipher = none := hvplain
    obtain ⟨rfl, -, -⟩ := next_plain htwice hnext
    obtain rfl := Except.ok.inj (hparse.symm.trans hparsed)
    rw [viewerDecision_hello] at hviewer
    -- no exchange of keys is possible with it, only the fallback
    rcases hviewer with ⟨theirPk, hdec, -, -⟩ | ⟨reply, refresh, pre, hdec, -, rfl⟩
    · split at hdec <;> cases hdec
    · split at hdec
      · cases hdec
      · cases hdec
        refine ⟨.inr ⟨_, _, rfl, rfl, hvplain, hhplain⟩, fun hello' hhello' hne => ?_⟩
        obtain rfl := Option.some.inj (hhello.symm.trans hhello')
        exact delivered_prefetched rfl hne

/-- The host states its identity, and the viewer does not wait for it. -/
theorem agreed_unasked_identity (hsodium : sodium.Ideal) (hcodecs : codecs.Lawful)
    (hcompact : codecs.Compact) (hvplain : viewerWire.cipher = none)
    (hhplain : hostWire.cipher = none) {id : String} (hid : (utf8 id).length ≤ 512)
    {secretKey : SignSecretKey} {data w : Bytes}
    (hdata : codecs.idPk.writeToBytes { id := id, pk := (sodium.boxPublic secret).1 } = .ok data)
    (hw : codecs.message.writeToBytes (signedIdentity sodium data secretKey) = .ok w) :
    Agreed sodium codecs ⟨prepared viewerWire, .legacyPlain false, none⟩
      ⟨prepared hostWire, .legacyPlain false, none⟩ auth [w] [] := by
  have hlen : w.length ≤ authMaxRecordBytes := by
    have h₁ := hcompact.signedId hw
    have h₂ := hcompact.idPk hdata
    have h₃ := (sodium.boxPublic secret).2
    have h₄ := (sodium.signature data secretKey).2
    simp only [Sodium.sign, List.length_append] at h₁ h₂
    have h₅ : 512 + 200 ≤ authMaxRecordBytes := by decide
    omega
  exact ⟨.inr ⟨_, _, rfl, rfl, hvplain, hhplain⟩, fun hello hhello hne =>
    delivered_after_identity hsodium.secretbox hcodecs.message rfl rfl hvplain hhplain hw hlen hne
      hhello⟩

/-- **Handshake agreement**: when both sides end well, each having read a
prefix of what the other wrote, they agree on the outcome and on the key, and
the challenge with which the host's session starts is delivered to the
viewer's session.  The host's id has the length the host's caller checks. -/
theorem handshake_agreement (hsodium : sodium.Ideal) (hcodecs : codecs.Lawful)
    (hcompact : codecs.Compact)
    (hid : ∀ id secretKey, hostIdentity = .signed id secretKey → (utf8 id).length ≤ 512)
    (hviewer : Exec (viewer sodium codecs keys viewerWire viewerIdentity)
      viewerReads viewerWrites (.ok v))
    (hhost : Exec (host sodium codecs secret hostWire hostIdentity) hostReads hostWrites (.ok e))
    (hdown : viewerReads <+:
      hostWrites ++ (HostSession.helloFrame sodium.secretbox codecs.message e auth).toList)
    (hup : hostReads <+: viewerWrites) :
    Agreed sodium codecs v e auth hostWrites viewerReads := by
  have hproto := hcodecs.message
  obtain ⟨hhplain, hhost⟩ := host_ok hhost
  rcases hhost with ⟨-, rfl, rfl, rfl⟩ |
    ⟨id, secretKey, data, w, frame, reply, rfl, hdata, hw, rfl, rfl, hreply, hdecision⟩
  · exact agreed_plain_host hsodium hcodecs hhplain hviewer hdown
  obtain ⟨hvplain, hviewer⟩ := viewer_ok hviewer
  -- a reply the host takes as a refusal to encrypt
  have hrefused : ∀ {reply' refresh'}, codecs.message.writeToBytes reply' = .ok frame →
      hostDecision sodium secret reply' = .plain refresh' →
      e = ⟨prepared hostWire, .legacyPlain refresh', none⟩ := by
    intro reply' refresh' hreply' hplain'
    obtain rfl := Except.ok.inj ((hproto.parse_write hreply').symm.trans hreply)
    rw [hplain'] at hdecision
    rcases hdecision with ⟨key, hdec, -⟩ | ⟨refresh'', hdec, rfl⟩
    · cases hdec
    · rw [HostDecision.plain.inj hdec]
  rcases hviewer with ⟨rfl, rfl, m, hm, rfl⟩ |
    ⟨expectedId, signKey, f, message, m, -, rfl, hparse, rfl, hviewer⟩
  · obtain rfl := singleton_prefix_cons hup
    obtain rfl := hrefused hm rfl
    exact agreed_unasked_identity hsodium hcodecs hcompact hvplain hhplain (hid id secretKey rfl)
      hdata hw
  · -- the viewer read the identity: its decision is the host's
    obtain rfl := singleton_prefix_cons hdown
    obtain rfl := Except.ok.inj ((hproto.parse_write hw).symm.trans hparse)
    obtain rfl := singleton_prefix_cons hup
    rcases viewerDecision_signed hcodecs viewerIdentity.strict expectedId signKey secretKey hdata
      with ⟨error, hd⟩ | hd | hd | hd
    · rw [hd] at hviewer
      rcases hviewer with ⟨_, hdec, -⟩ | ⟨_, _, _, hdec, -⟩ <;> cases hdec
    · rw [hd] at hviewer
      rcases hviewer with ⟨theirPk, hdec, hwrite, rfl⟩ | ⟨_, _, _, hdec, -⟩
      · obtain rfl := ViewerDecision.exchange.inj hdec
        obtain rfl := Except.ok.inj ((hproto.parse_write hwrite).symm.trans hreply)
        rw [hostDecision_exchange hsodium] at hdecision
        rcases hdecision with ⟨key, hkey, rfl⟩ | ⟨_, hkey, -⟩
        · obtain rfl := HostDecision.keyed.inj hkey
          refine ⟨.inl ⟨keys.key, _, _, rfl, rfl, rfl, rfl⟩, fun hello hhello hne => ?_⟩
          exact delivered_hello (e := ⟨(prepared hostWire).setKey keys.key, .encrypted none, none⟩)
            hsodium.secretbox hproto rfl ⟨rfl, rfl⟩ hne hhello
        · cases hkey
      · cases hdec
    · rw [hd] at hviewer
      rcases hviewer with ⟨_, hdec, -⟩ | ⟨reply', refresh, pre, hdec, hwrite, rfl⟩
      · cases hdec
      · obtain ⟨rfl, rfl, rfl⟩ := ViewerDecision.fallback.inj hdec
        obtain rfl := hrefused hwrite rfl
        exact agreed_plain hsodium hcodecs hvplain hhplain _ _ rfl
    · rw [hd] at hviewer
      rcases hviewer with ⟨_, hdec, -⟩ | ⟨reply', refresh, pre, hdec, hwrite, rfl⟩
      · cases hdec
      · obtain ⟨rfl, rfl, rfl⟩ := ViewerDecision.fallback.inj hdec
        obtain rfl := hrefused hwrite rfl
        exact agreed_plain hsodium hcodecs hvplain hhplain _ _ rfl

end Agreement

/-! ### One pair of peers -/

section Example

/-- Keys, a challenge and the records of one handshake, for runs. -/
def sampleSecret : BoxSecretKey := ⟨List.replicate 32 1, rfl⟩

def sampleKeys : ViewerKeys := ⟨⟨List.replicate 32 2, rfl⟩, ⟨List.replicate 32 3, rfl⟩⟩

def sampleSigning : SignSecretKey := ⟨List.replicate 64 4, rfl⟩

/-- The identity of `host`, in the wire format. -/
def sampleData : Bytes := [0x0a, 4, 104, 111, 115, 116, 0x12, 32] ++ List.replicate 32 1

def sampleHash : Hash := { salt := "s", challenge := "abcdef" }

def sampleAuth : HostAuthentication where
  config := ⟨["host"], "s", ⟨[]⟩, .clickOnly, {}, {}, {}⟩
  hash := sampleHash
  state := .awaitLogin
  request := none
  grant := {}

def sampleIdentity : Bytes := [0x1a, 106, 0x0a, 104] ++ List.replicate 64 0 ++ sampleData

def sampleReply : Bytes :=
  [0x22, 68, 0x0a, 32] ++ List.replicate 32 2 ++ [0x12, 32] ++ List.replicate 32 3

/-- The records these peers exchange, with their bytes. -/
def sampleCodecs : Codecs where
  idPk := .table [({ id := "host", pk := sampleSecret.1 }, sampleData)]
  message := .table [
    (signedIdentity .transparent sampleData sampleSigning, sampleIdentity),
    (publicKeyReply .transparent sampleKeys sampleSecret, sampleReply),
    (.of (.hash sampleHash), [0x4a, 11, 0x0a, 1, 115, 0x12, 6, 97, 98, 99, 100, 101, 102])]

theorem sampleCodecs_lawful : sampleCodecs.Lawful where
  message := Protobuf.table_lawful (by decide)
  idPk := Protobuf.table_lawful (by decide)

theorem sampleCodecs_compact : sampleCodecs.Compact where
  idPk h := by
    have hmem := List.mem_singleton.mp (Protobuf.mem_of_table h)
    obtain ⟨rfl, rfl⟩ := Prod.mk.inj hmem
    decide
  signedId h := by
    have hmem := Protobuf.mem_of_table h
    simp [signedIdentity, publicKeyReply, Message.of] at hmem
    obtain ⟨rfl, rfl⟩ := hmem
    decide

/-- The wire of either peer, once the key is agreed on. -/
def sampleWire : FramedStream := (prepared .fromStream).setKey sampleKeys.key

/-- A pinned viewer and the host it expects. -/
theorem handshake_agreement_pinned :
    Agreed .transparent sampleCodecs ⟨sampleWire, .encrypted (some "host"), none⟩
      ⟨sampleWire, .encrypted none, none⟩ sampleAuth [sampleIdentity] [sampleIdentity] := by
  have hviewer : Exec (viewer .transparent sampleCodecs sampleKeys .fromStream
      (.pinnedHost "host" sampleSecret)) [sampleIdentity] [sampleReply]
      (.ok ⟨sampleWire, .encrypted (some "host"), none⟩) := exec_of_drive (by rfl)
  have hhost : Exec (host .transparent sampleCodecs sampleSecret .fromStream
      (.signed "host" sampleSigning)) [sampleReply] [sampleIdentity]
      (.ok ⟨sampleWire, .encrypted none, none⟩) := exec_of_drive (by rfl)
  have hid : ∀ id secretKey, HostIdentity.signed "host" sampleSigning = .signed id secretKey →
      (utf8 id).length ≤ 512 := by
    rintro id secretKey h
    cases h
    decide
  exact handshake_agreement Sodium.transparent_ideal sampleCodecs_lawful sampleCodecs_compact hid
    hviewer hhost (List.prefix_append _ _) List.prefix_rfl

end Example

end Handshake

end RdEngine
