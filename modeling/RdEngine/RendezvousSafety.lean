/-
RdEngine/RendezvousSafety.lean

The peer reached through a rendezvous server is the peer the server signed
for.  Every way in which `connectViewer` ends well is followed back to the
record that carried the certificate: each stage has a lemma that says what it
has read and sent when it ends well, and `Finished.after` puts the stages
before a handshake in front of it.
-/
import RdEngine.HandshakePinned
import RdEngine.Rendezvous

namespace RdEngine

open Dialogue Dialogue.Prog

namespace Rendezvous

open Handshake (ViewerKeys)

variable {sodium : Sodium} {codecs : RouteCodecs}

/-! ### What is shown of a connection -/

/-- The server signed the key for the peer we want. -/
def CertifiesKey (sodium : Sodium) (codecs : RouteCodecs) (config : RendezvousConfig)
    (key : SignPublicKey) (signed : Bytes) : Prop :=
  ∃ data identity, sodium.verify signed config.serverKey = some data ∧
    codecs.handshake.idPk.parseFromBytes data = .ok identity ∧ identity.id = config.id ∧
    identity.pk = key.1

/-- The record carries the certificate. -/
def Carries (message : RendezvousMessage) (signed : Bytes) : Prop :=
  (∃ response, message.union = some (.punchHoleResponse response) ∧ response.pk = signed) ∨
  (∃ response, message.union = some (.relayResponse response) ∧ response.pk = signed)

/-- One of the frames received is this record. -/
def Received (codecs : RouteCodecs) (events : List RouteEvent) (message : RendezvousMessage) :
    Prop :=
  ∃ payload, .frame payload ∈ events ∧ codecs.rendezvous.parseFromBytes payload = .ok message

/-- The last thing done was a handshake pinned to the key, which ended in the
encrypted mode. -/
def Finished (sodium : Sodium) (codecs : RouteCodecs) (keys : ViewerKeys)
    (config : RendezvousConfig) (key : SignPublicKey) (events : List RouteEvent)
    (actions : List RouteAction) (result : Established × RouteEvidence) : Prop :=
  ∃ before sent wire reads writes, events = before ++ reads.map .frame ∧
    actions = sent ++ writes.map .frame ∧
    Exec (Handshake.viewer sodium codecs.handshake keys wire (.pinnedHost config.id key))
      reads writes (.ok result.1) ∧
    result.1.security = .encrypted (some config.id) ∧
    result.2.encrypted = true ∧ result.2.peerVerified = true

theorem Finished.after {keys : ViewerKeys} {config : RendezvousConfig} {key : SignPublicKey}
    {events : List RouteEvent} {actions : List RouteAction} {result : Established × RouteEvidence}
    (h : Finished sodium codecs keys config key events actions result) (before : List RouteEvent)
    (sent : List RouteAction) :
    Finished sodium codecs keys config key (before ++ events) (sent ++ actions) result := by
  obtain ⟨before', sent', wire, reads, writes, rfl, rfl, h⟩ := h
  exact ⟨before ++ before', sent ++ sent', wire, reads, writes, by simp, by simp, h⟩

/-! ### The stages -/

theorem peerKey_ok {signed : Bytes} {config : RendezvousConfig} {key : SignPublicKey}
    (h : peerKey sodium codecs signed config = .ok key) :
    CertifiesKey sodium codecs config key signed := by
  unfold peerKey at h
  rcases hverify : sodium.verify signed config.serverKey with - | data
  · rw [hverify] at h; cases h
  rcases hparse : codecs.handshake.idPk.parseFromBytes data with e | identity
  · simp only [hverify, hparse] at h; cases h
  simp only [hverify, hparse] at h
  by_cases hid : identity.id = config.id
  · rw [if_neg (not_not.mpr hid)] at h
    by_cases hlen : identity.pk.length = 32
    · simp only [FixedBytes.fromSlice, dif_pos hlen] at h
      obtain rfl := Except.ok.inj h
      exact ⟨data, identity, hverify, hparse, hid, rfl⟩
    · simp only [FixedBytes.fromSlice, dif_neg hlen] at h
      cases h
  · rw [if_pos hid] at h
    cases h

theorem serverDial_plain {name : String} {port : UInt16} {events : List RouteEvent}
    {actions : List RouteAction} {r : FramedStream × SocketAddr}
    (h : Exec (serverDial name port) events actions (.ok r)) : r.1.cipher = none := by
  unfold serverDial at h
  split at h
  · cases h
  · cases h with
    | write h =>
      cases h with
      | @read _ event _ _ _ h =>
        cases event <;> cases h
        rfl

theorem send_plain {wire wire' : FramedStream} {message : RendezvousMessage}
    {events : List RouteEvent} {actions : List RouteAction} (hplain : wire.cipher = none)
    (h : Exec (send sodium codecs wire message) events actions (.ok wire')) :
    wire'.cipher = none := by
  unfold send at h
  split_ifs at h
  · cases h
  · split at h
    · cases h
    · next frame sealedWire hseal =>
      obtain ⟨-, rfl⟩ := Handshake.sealMessage_plain hplain hseal
      cases h with
      | write h => cases h; exact hplain

theorem next_ok {wire : FramedStream} {events : List RouteEvent} {actions : List RouteAction}
    {r : Option RendezvousMessage × FramedStream} (hplain : wire.cipher = none)
    (h : Exec (next sodium codecs wire) events actions (.ok r)) :
    r.2.cipher = none ∧ ∀ message, r.1 = some message → Received codecs events message := by
  unfold next at h
  cases h with
  | @read _ event _ _ _ h =>
    cases event with
    | connected | failed => cases h
    | elapsed =>
      cases h
      exact ⟨hplain, fun message hnone => by cases hnone⟩
    | frame payload =>
      rcases hnext : wire.next sodium.secretbox payload with e | ⟨bytes, wire'⟩
      · simp only [hnext] at h; cases h
      obtain ⟨rfl, rfl, -⟩ := Handshake.next_plain hplain hnext
      rcases hparse : codecs.rendezvous.parseFromBytes bytes with e | message
      · simp only [hnext, hparse] at h; cases h
      · simp only [hnext, hparse] at h
        cases h
        refine ⟨hplain, fun message' hsome => ?_⟩
        obtain rfl := Option.some.inj hsome
        exact ⟨bytes, List.mem_singleton.mpr rfl, hparse⟩

theorem Received.after {events : List RouteEvent} {message : RendezvousMessage}
    (h : Received codecs events message) (before : List RouteEvent) :
    Received codecs (before ++ events) message := by
  obtain ⟨payload, hmem, hparse⟩ := h
  exact ⟨payload, List.mem_append_right _ hmem, hparse⟩

theorem Received.before {events : List RouteEvent} {message : RendezvousMessage}
    (h : Received codecs events message) (after : List RouteEvent) :
    Received codecs (events ++ after) message := by
  obtain ⟨payload, hmem, hparse⟩ := h
  exact ⟨payload, List.mem_append_left _ hmem, hparse⟩

theorem receiveAmong_ok {n : Nat} {wire : FramedStream} {events : List RouteEvent}
    {actions : List RouteAction} {r : Option RendezvousMessage × FramedStream}
    (hplain : wire.cipher = none)
    (h : Exec (receiveAmong sodium codecs n wire) events actions (.ok r)) :
    r.2.cipher = none ∧ ∀ message, r.1 = some message → Received codecs events message := by
  induction n generalizing wire events actions with
  | zero => cases h
  | succ n ih =>
    rw [receiveAmong] at h
    obtain ⟨is, os, is', os', ⟨message, wire'⟩, hnext, hrest, rfl, rfl⟩ := Exec.bind_ok h
    obtain ⟨hplain', hreceived⟩ := next_ok hplain hnext
    split at hrest
    · -- a key exchange is skipped
      next heq =>
      obtain ⟨-, rfl⟩ := Prod.mk.inj heq
      obtain ⟨hlast, hlater⟩ := ih hplain' hrest
      exact ⟨hlast, fun message hsome => (hlater message hsome).after is⟩
    · cases hrest
      exact ⟨hplain', fun message hsome => (hreceived message hsome).before _⟩

theorem ask_ok {request : RendezvousMessage} {attempts : Nat} {wire : FramedStream}
    {events : List RouteEvent} {actions : List RouteAction} {message : RendezvousMessage}
    (hplain : wire.cipher = none)
    (h : Exec (ask sodium codecs request attempts wire) events actions (.ok message)) :
    Received codecs events message := by
  induction attempts generalizing wire events actions with
  | zero => cases h
  | succ attempts ih =>
    rw [ask] at h
    obtain ⟨is, os, is', os', sentWire, hsend, hwait, rfl, rfl⟩ := Exec.bind_ok h
    have hsent := send_plain hplain hsend
    obtain ⟨is₁, os₁, is₂, os₂, ⟨answer, wire'⟩, hreceive, hrest, rfl, rfl⟩ := Exec.bind_ok hwait
    obtain ⟨hplain', hreceived⟩ := receiveAmong_ok hsent hreceive
    cases answer with
    | some message' =>
      cases hrest
      exact ((hreceived message rfl).before _).after is
    | none => exact ((ih hplain' hrest).after is₁).after is

theorem peerFrame_ok (event : RouteEvent) (payload : Bytes) (h : peerFrame event = .ok payload) :
    event = .frame payload := by
  cases event <;> cases h
  rfl

theorem finish_ok {keys : ViewerKeys} {wire : FramedStream} {config : RendezvousConfig}
    {key : SignPublicKey} {route : RouteKind} {events : List RouteEvent}
    {actions : List RouteAction} {result : Established × RouteEvidence}
    (h : Exec (finish sodium codecs keys wire config key route) events actions (.ok result)) :
    Finished sodium codecs keys config key events actions result := by
  unfold finish at h
  obtain ⟨is, os, is', os', established, hviewer, hrest, rfl, rfl⟩ := Exec.bind_ok h
  obtain ⟨reads, writes, rfl, rfl, hexec⟩ := exec_translate peerFrame_ok hviewer
  split_ifs at hrest with hsecurity
  · cases hrest
    exact ⟨[], [], wire, reads, writes, by simp, by simp, hexec, hsecurity, rfl, rfl⟩
  · cases hrest

theorem joinRelay_ok {keys : ViewerKeys} {config : RendezvousConfig} {name uuid : String}
    {key : SignPublicKey} {events : List RouteEvent} {actions : List RouteAction}
    {result : Established × RouteEvidence}
    (h : Exec (joinRelay sodium codecs keys config name uuid key) events actions (.ok result)) :
    Finished sodium codecs keys config key events actions result := by
  unfold joinRelay at h
  split_ifs at h
  · cases h
  · obtain ⟨is, os, is', os', ⟨wire, fromLocal⟩, -, hsend, rfl, rfl⟩ := Exec.bind_ok h
    obtain ⟨is₁, os₁, is₂, os₂, sentWire, -, hfinish, rfl, rfl⟩ := Exec.bind_ok hsend
    exact ((finish_ok hfinish).after is₁ os₁).after is os

theorem requestRelay_ok {keys : ViewerKeys} {config : RendezvousConfig} {uuid name : String}
    {key : SignPublicKey} {events : List RouteEvent} {actions : List RouteAction}
    {result : Established × RouteEvidence}
    (h : Exec (requestRelay sodium codecs keys config uuid name key) events actions (.ok result)) :
    Finished sodium codecs keys config key events actions result := by
  unfold requestRelay at h
  obtain ⟨is, os, is', os', ⟨wire, fromLocal⟩, -, hsend, rfl, rfl⟩ := Exec.bind_ok h
  obtain ⟨is₁, os₁, is₂, os₂, sentWire, -, hreceive, rfl, rfl⟩ := Exec.bind_ok hsend
  obtain ⟨is₃, os₃, is₄, os₄, ⟨answer, wire'⟩, -, hrest, rfl, rfl⟩ := Exec.bind_ok hreceive
  cases answer with
  | none => cases hrest
  | some message =>
    rcases hresponse : relayResponse message with e | response
    · simp only [hresponse] at hrest; cases hrest
    rcases hagrees : relayAgrees sodium codecs config uuid key response with e | ⟨⟩
    · simp only [hresponse, hagrees] at hrest; cases hrest
    · simp only [hresponse, hagrees] at hrest
      exact (((joinRelay_ok hrest).after is₃ os₃).after is₁ os₁).after is os

/-- After a punch-hole answer, directly or over a relay: the key is the one
the answer certifies. -/
theorem punched_ok {keys : ViewerKeys} {config : RendezvousConfig} {uuid : String}
    {fromLocal : SocketAddr} {response : PunchHoleResponse} {events : List RouteEvent}
    {actions : List RouteAction} {result : Established × RouteEvidence}
    (h : Exec (punched sodium codecs keys config uuid fromLocal response) events actions
      (.ok result)) :
    ∃ key, CertifiesKey sodium codecs config key response.pk ∧
      Finished sodium codecs keys config key events actions result := by
  unfold punched at h
  split_ifs at h
  · cases h
  · cases h
  rcases hkey : peerKey sodium codecs response.pk config with e | key
  · simp only [hkey] at h; cases h
  rcases haddress : peerAddress response.socketAddr with e | address
  · simp only [hkey, haddress] at h; cases h
  simp only [hkey, haddress] at h
  refine ⟨key, peerKey_ok hkey, ?_⟩
  obtain ⟨is, os, is', os', peer, -, hrest, rfl, rfl⟩ := Exec.bind_ok h
  cases peer with
  | some wire => exact (finish_ok hrest).after is os
  | none =>
    rcases hrelay : relayName config response.relayServer with e | relay
    · simp only [hrelay] at hrest; cases hrest
    · simp only [hrelay] at hrest
      exact (requestRelay_ok hrest).after is os

theorem relayed_ok {keys : ViewerKeys} {config : RendezvousConfig} {response : RelayResponse}
    {events : List RouteEvent} {actions : List RouteAction} {result : Established × RouteEvidence}
    (h : Exec (relayed sodium codecs keys config response) events actions (.ok result)) :
    ∃ key, CertifiesKey sodium codecs config key response.pk ∧
      Finished sodium codecs keys config key events actions result := by
  unfold relayed at h
  split_ifs at h
  · cases h
  rcases hkey : peerKey sodium codecs response.pk config with e | key
  · simp only [hkey] at h; cases h
  rcases hrelay : relayName config response.relayServer with e | relay
  · simp only [hkey, hrelay] at h; cases h
  simp only [hkey, hrelay] at h
  exact ⟨key, peerKey_ok hkey, joinRelay_ok h⟩

theorem connect_ok {keys : ViewerKeys} {config : RendezvousConfig} {uuid : String}
    {events : List RouteEvent} {actions : List RouteAction} {result : Established × RouteEvidence}
    (h : Exec (connect sodium codecs keys config uuid) events actions (.ok result)) :
    ∃ message signed key, Received codecs events message ∧ Carries message signed ∧
      CertifiesKey sodium codecs config key signed ∧
      Finished sodium codecs keys config key events actions result := by
  unfold connect at h
  obtain ⟨is, os, is', os', ⟨wire, fromLocal⟩, hdial, hask, rfl, rfl⟩ := Exec.bind_ok h
  obtain ⟨is₁, os₁, is₂, os₂, message, hanswer, hrest, rfl, rfl⟩ := Exec.bind_ok hask
  have hreceived : Received codecs (is ++ (is₁ ++ is₂)) message :=
    ((ask_ok (serverDial_plain hdial) hanswer).before is₂).after is
  rcases hunion : message.union with - | union
  · simp only [hunion] at hrest; cases hrest
  cases union with
  | punchHoleResponse response =>
    simp only [hunion] at hrest
    obtain ⟨key, hkey, hfinished⟩ := punched_ok hrest
    exact ⟨message, response.pk, key, hreceived, .inl ⟨response, hunion, rfl⟩, hkey,
      (hfinished.after is₁ os₁).after is os⟩
  | relayResponse response =>
    simp only [hunion] at hrest
    obtain ⟨key, hkey, hfinished⟩ := relayed_ok hrest
    exact ⟨message, response.pk, key, hreceived, .inr ⟨response, hunion, rfl⟩, hkey,
      (hfinished.after is₁ os₁).after is os⟩
  | punchHoleRequest | requestRelay | keyExchange | other =>
    simp only [hunion] at hrest
    cases hrest

theorem connectViewer_ok {keys : ViewerKeys} {config : RendezvousConfig} {uuid : String}
    {events : List RouteEvent} {actions : List RouteAction} {result : Established × RouteEvidence}
    (h : Exec (connectViewer sodium codecs keys config uuid) events actions (.ok result)) :
    Exec (connect sodium codecs keys config uuid) events actions (.ok result) := by
  unfold connectViewer at h
  split_ifs at h with hconfig hinit
  · cases h
  · split at h
    · cases h
    · split at h <;> cases h
  · split at h
    · cases h
    · split at h
      · cases h
      · exact h

/-! ### Nothing is shared with a peer that is not the one -/

/-- **Pinned host fails closed**: against any peer, a viewer with a pinned
identity ends well only in the encrypted mode, after the first record proved
the identity; if it did not, the viewer ends with an error and has sent
nothing.  It never sends anything but its sealed key.  And a connection
through a rendezvous server ends well only with a peer pinned to a key that
the server signed for the id we want. -/
theorem pinned_fails_closed (sodium : Sodium) (codecs : RouteCodecs) (keys : ViewerKeys) :
    (∀ (wire : FramedStream) (id : String) (key : SignPublicKey) (reads writes : List Bytes)
        (r : Except IoError Established),
      Exec (Handshake.viewer sodium codecs.handshake keys wire (.pinnedHost id key)) reads writes r →
      (∀ v, r = .ok v → Handshake.Certified sodium codecs.handshake key id reads ∧
        v.security = .encrypted (some id) ∧ v.wire.cipher = some (.new keys.key) ∧
        v.prefetched = none) ∧
      (¬ Handshake.Certified sodium codecs.handshake key id reads →
        writes = [] ∧ ∃ e, r = .error e) ∧
      (writes = [] ∨ ∃ theirPk w, writes = [w] ∧
        codecs.handshake.message.writeToBytes
          (Handshake.publicKeyReply sodium keys theirPk) = .ok w)) ∧
    (∀ (config : RendezvousConfig) (uuid : String) (events : List RouteEvent)
        (actions : List RouteAction) (result : Established × RouteEvidence),
      Exec (connectViewer sodium codecs keys config uuid) events actions (.ok result) →
      ∃ message signed key, Received codecs events message ∧ Carries message signed ∧
        CertifiesKey sodium codecs config key signed ∧
        Finished sodium codecs keys config key events actions result) := by
  constructor
  · intro wire id key reads writes r h
    cases Handshake.viewer_pinned h with
    | refused e =>
      exact ⟨fun v hv => (nomatch hv), fun _ => ⟨rfl, e, rfl⟩, .inl rfl⟩
    | cut e hcertified hwrite hwrites =>
      refine ⟨fun v hv => (nomatch hv), fun hnot => absurd hcertified hnot, ?_⟩
      rcases hwrites with rfl | rfl
      · exact .inl rfl
      · exact .inr ⟨_, _, rfl, hwrite⟩
    | encrypted hcertified hwrite =>
      refine ⟨fun v hv => ?_, fun hnot => absurd hcertified hnot, .inr ⟨_, _, rfl, hwrite⟩⟩
      obtain rfl := Except.ok.inj hv
      exact ⟨hcertified, rfl, rfl, rfl⟩
  · intro config uuid events actions result h
    exact connect_ok (connectViewer_ok h)

/-! ### One peer behind a relay -/

section Example

/-- A peer, its server and their frames, for runs. -/
def sampleConfig : RendezvousConfig where
  id := "host"
  rendezvousServer := "rs"
  licenceKey := "k"
  serverKey := ⟨List.replicate 32 5, rfl⟩
  relayServer := none
  connectTimeout := 10 ^ 9

def sampleUuid : String := "67e55044-10b1-426f-9247-bb680e5fe0c8"

/-- The certificate: the identity of `host`, signed by the server. -/
def sampleCertificate : Bytes := List.replicate 64 0 ++ Handshake.sampleData

def samplePunch : Bytes :=
  [0x42, 16, 0x0a, 4, 104, 111, 115, 116, 0x1a, 1, 107, 0x32, 5, 49, 46, 52, 46, 57]

/-- The server offers a relay, with the key of the peer. -/
def sampleAnswer : RelayResponse :=
  { uuid := sampleUuid, relayServer := "relay", union := some (.pk sampleCertificate) }

def sampleAnswerBytes : Bytes :=
  [0x9a, 1, 0x97, 1, 0x12, 36] ++ utf8 sampleUuid ++ [0x1a, 5, 114, 101, 108, 97, 121] ++
    [0x2a, 104] ++ sampleCertificate

def sampleJoin : Bytes :=
  [0x92, 1, 47, 0x0a, 4, 104, 111, 115, 116, 0x12, 36] ++ utf8 sampleUuid ++ [0x32, 1, 107]

/-- The records on the way to this peer, with their bytes. -/
def sampleRoute : RouteCodecs where
  handshake := Handshake.sampleCodecs
  rendezvous := .table [
    (punchRequest sampleConfig, samplePunch),
    (.of (.relayResponse sampleAnswer), sampleAnswerBytes),
    (.of (.requestRelay { id := "host", uuid := sampleUuid, licenceKey := "k" }), sampleJoin)]
  uuid text := text = sampleUuid

def sampleLocal : SocketAddr := { ip := .v4 ⟨#v[127, 0, 0, 1]⟩, port := 4000 }

def sampleEvents : List RouteEvent :=
  [.connected sampleLocal, .frame sampleAnswerBytes, .connected sampleLocal,
    .frame Handshake.sampleIdentity]

def sampleActions : List RouteAction :=
  [.dialServer "rs:21116", .frame samplePunch, .dialServer "relay:21117", .frame sampleJoin,
    .frame Handshake.sampleReply]

def sampleEstablished : Established := ⟨Handshake.sampleWire, .encrypted (some "host"), none⟩

set_option maxRecDepth 20000 in
theorem sample_connect :
    (connectViewer .transparent sampleRoute Handshake.sampleKeys sampleConfig sampleUuid).drive
      sampleEvents = ⟨.done (sampleEstablished, ⟨.relay, true, true⟩), [], sampleActions⟩ := by
  rfl

/-- The host behind its relay. -/
theorem pinned_fails_closed_relay :
    Handshake.Certified .transparent Handshake.sampleCodecs Handshake.sampleSecret "host"
      [Handshake.sampleIdentity] ∧
    ∃ message signed key, Received sampleRoute sampleEvents message ∧ Carries message signed ∧
      CertifiesKey .transparent sampleRoute sampleConfig key signed ∧
      Finished .transparent sampleRoute Handshake.sampleKeys sampleConfig key sampleEvents
        sampleActions (sampleEstablished, ⟨.relay, true, true⟩) := by
  obtain ⟨hhandshake, hconnect⟩ :=
    pinned_fails_closed .transparent sampleRoute Handshake.sampleKeys
  have hviewer : Exec (Handshake.viewer .transparent sampleRoute.handshake Handshake.sampleKeys
      fresh (.pinnedHost "host" Handshake.sampleSecret)) [Handshake.sampleIdentity]
      [Handshake.sampleReply] (.ok sampleEstablished) := exec_of_drive (by rfl)
  obtain ⟨hok, -⟩ := hhandshake _ _ _ _ _ _ hviewer
  exact ⟨(hok _ rfl).1, hconnect _ _ _ _ _ (exec_of_drive sample_connect)⟩

end Example

end Rendezvous

end RdEngine
