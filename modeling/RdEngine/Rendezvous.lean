/-
RdEngine/Rendezvous.lean

The viewer's way to a peer through a rendezvous server, of `rendezvous.rs`:
ask the server for the peer, check the certificate it answers with, and shake
hands over a punched connection or over a relay.

`connectViewer` is a program over what happens on its sockets, of which at
most one is open.  It writes the connections it opens and the frames it sends;
it reads that a connection is made or not, the frames that arrive, and that a
wait of its own has elapsed.  The total deadline cuts the program off.  The
address of the local end, the random UUID and the random keys are arguments or
read.
-/
import RdEngine.Handshake
import RdEngine.Net
import RdEngine.Text

namespace RdEngine

open Dialogue

/-! ### Records of `rendezvous.proto` -/

/-- The kinds of networks that are told to the server. -/
inductive NatType where
  | unknownNat | asymmetric | symmetric
  deriving DecidableEq, Repr

inductive ConnType where
  | defaultConn | fileTransfer | portForward | rdp | viewCamera | terminal
  deriving DecidableEq, Repr

structure PunchHoleRequest where
  id : String := ""
  natType : EnumOrUnknown NatType := .known .unknownNat
  licenceKey : String := ""
  connType : EnumOrUnknown ConnType := .known .defaultConn
  version : String := ""
  deriving DecidableEq, Repr

structure PunchHoleResponse where
  socketAddr : Bytes := []
  pk : Bytes := []
  relayServer : String := ""
  otherFailure : String := ""
  isUdp : Bool := false
  deriving DecidableEq, Repr

structure RequestRelay where
  id : String := ""
  uuid : String := ""
  relayServer : String := ""
  secure : Bool := false
  licenceKey : String := ""
  connType : EnumOrUnknown ConnType := .known .defaultConn
  deriving DecidableEq, Repr

/-- What a server offers of the peer: its id, or its signed key. -/
inductive RelayResponseUnion where
  | id (id : String)
  | pk (pk : Bytes)
  deriving DecidableEq, Repr

structure RelayResponse where
  uuid : String := ""
  relayServer : String := ""
  union : Option RelayResponseUnion := none
  refuseReason : String := ""
  deriving DecidableEq, Repr

/-- Empty when the member is not set. -/
def RelayResponse.pk (response : RelayResponse) : Bytes :=
  match response.union with
  | some (.pk pk) => pk
  | _ => []

/-- What a message of the rendezvous server may be. -/
inductive RendezvousUnion where
  | punchHoleRequest (request : PunchHoleRequest)
  | punchHoleResponse (response : PunchHoleResponse)
  | requestRelay (request : RequestRelay)
  | relayResponse (response : RelayResponse)
  | keyExchange (keys : List Bytes)
  | other (field : Nat) (payload : Bytes)
  deriving DecidableEq, Repr

structure RendezvousMessage where
  union : Option RendezvousUnion := none
  deriving DecidableEq, Repr

def RendezvousMessage.of (union : RendezvousUnion) : RendezvousMessage := { union := some union }

/-! ### Endpoints and addresses -/

/-- The timeout is in nanoseconds. -/
structure RendezvousConfig where
  id : String
  rendezvousServer : String
  licenceKey : String
  serverKey : SignPublicKey
  relayServer : Option String
  connectTimeout : Nat

inductive RouteKind where
  | tcpHolePunch | relay
  deriving DecidableEq, Repr

/-- `RouteEvidence`: how a peer was reached. -/
structure RouteEvidence where
  route : RouteKind
  peerVerified : Bool
  encrypted : Bool
  deriving DecidableEq, Repr

/-- `u8::is_ascii_alphanumeric`. -/
def isAsciiAlphanumeric (c : Char) : Bool :=
  ('0' ≤ c ∧ c ≤ '9') ∨ ('a' ≤ c ∧ c ≤ 'z') ∨ ('A' ≤ c ∧ c ≤ 'Z')

def validAddress (address : SocketAddr) : Bool :=
  address.port ≠ 0 ∧ !address.ip.isUnspecified ∧ !address.ip.isMulticast

/-- `rsplit_once`: the parts around the last separator. -/
def rsplitOnce (sep : Char) (text : List Char) : Option (List Char × List Char) :=
  if sep ∈ text then
    let last := text.reverse.takeWhile (· ≠ sep)
    some (text.take (text.length - last.length - 1), last.reverse)
  else none

/-- A label of a host name.  Only ASCII passes, so characters are bytes. -/
def validLabel (label : List Char) : Bool :=
  label ≠ [] ∧ label.length ≤ 63 ∧ label.head?.any isAsciiAlphanumeric ∧
    label.getLast?.any isAsciiAlphanumeric ∧ label.all fun c => isAsciiAlphanumeric c ∨ c = '-'

/-- The text of an address, where it is a valid one. -/
def serverAddress (address : SocketAddr) : Except IoError String :=
  if validAddress address then .ok address.toText else .error (invalid "Invalid server address")

/-- The host, and the port if one is stated. -/
def endpointPort (name : String) (defaultPort : UInt16) : Except IoError (List Char × Nat) :=
  match rsplitOnce ':' name.toList with
  | none => .ok (name.toList, defaultPort.toNat)
  | some (host, port) =>
    if port = [] ∨ !(port.all fun c => '0' ≤ c ∧ c ≤ '9') then
      .error (invalid "Invalid server port")
    else
      let number := port.foldl (fun value c => value * 10 + (c.toNat - '0'.toNat)) 0
      if number < 2 ^ 16 ∧ number ≠ 0 then .ok (host, number)
      else .error (invalid "Invalid server port")

/-- `endpoint`: the address of a server, with the port where none is named. -/
def endpoint (name : String) (defaultPort : UInt16) : Except IoError String :=
  if name = "" ∨ (utf8 name).length > 1024 ∨ name.toList.any fun c => isWhitespace c ∨ isControl c
  then .error (invalid "Invalid server endpoint")
  else
    match SocketAddr.parse name with
    | some address => serverAddress address
    | none =>
      match IpAddr.parse name with
      | some ip => serverAddress { ip := ip, port := defaultPort }
      | none =>
        if name.toList.head? = some '[' ∧ name.toList.getLast? = some ']' then
          match Ipv6Addr.parse (.ofList name.toList.tail.dropLast) with
          | none => .error (invalid "Invalid bracketed server address")
          | some ip => serverAddress { ip := .v6 ip, port := defaultPort }
        else
          match endpointPort name defaultPort with
          | .error e => .error e
          | .ok (host, port) =>
            let dns := if host.getLast? = some '.' then host.dropLast else host
            if dns = [] ∨ dns.length > 253 ∨ !((dns.splitOn '.').all validLabel) then
              .error (invalid "Invalid server hostname")
            else .ok (.ofList host ++ ":" ++ toString port)

/-- `AddrMangle::decode`; the subtractions of the source wrap. -/
def AddrMangle.decode (bytes : Bytes) : SocketAddr :=
  if bytes.length > 16 then
    if bytes.length ≠ 18 then { ip := .v6 ⟨.replicate 8 0⟩, port := 0 }
    else
      let segment (i : Nat) : UInt16 :=
        .ofNat ((bytes.getD (2 * i) 0).toNat * 2 ^ 8 + (bytes.getD (2 * i + 1) 0).toNat)
      { ip := .v6 ⟨.ofFn fun i => segment i⟩, port := .ofNat (Words.ofLe (bytes.drop 16)) }
  else
    let number := Words.ofLe bytes
    let tm := (number >>> 17) % 2 ^ 32
    let ip := ((number >>> 49) + 2 ^ 128 - tm) % 2 ^ 128 % 2 ^ 32
    let port := (number % 2 ^ 24 + 2 ^ 128 - tm % 2 ^ 16) % 2 ^ 128 % 2 ^ 16
    let octet (i : Nat) : UInt8 := .ofNat (ip / 2 ^ (8 * i))
    { ip := .v4 ⟨.ofFn fun i => octet i⟩, port := .ofNat port }

/-- Whether `decode` would subtract too much, or leave its range. -/
def mangledOutOfRange (bytes : Bytes) : Bool :=
  let n := Words.ofLe bytes
  let tm := (n >>> 17) % 2 ^ 32
  let salted := n % 2 ^ 17
  n >>> 49 < tm ∨ salted < tm % 2 ^ 16 ∨ (n >>> 49) - tm ≥ 2 ^ 32 ∨
    salted - tm % 2 ^ 16 = 0 ∨ salted - tm % 2 ^ 16 ≥ 2 ^ 16

def peerAddress (bytes : Bytes) : Except IoError SocketAddr :=
  if bytes = [] ∨ (bytes.length > 16 ∧ bytes.length ≠ 18) ∨
      (bytes.length ≤ 16 ∧ mangledOutOfRange bytes) then
    .error (invalid "Invalid mangled address")
  else
    let address := AddrMangle.decode bytes
    if validAddress address then .ok address else .error (invalid "Invalid peer route")

/-- The relay to join: the configured one, or the one the server names. -/
def relayName (config : RendezvousConfig) (advertised : String) : Except IoError String :=
  endpoint (config.relayServer.getD advertised) 21117

/-! ### The sockets -/

/-- What the viewer does: open a connection to a server or, from the port it
used before, to the peer; send a frame. -/
inductive RouteAction where
  | dialServer (endpoint : String)
  | dialPeer (remote fromLocal : SocketAddr)
  | frame (payload : Bytes)
  deriving DecidableEq, Repr

/-- What happens to it. -/
inductive RouteEvent where
  | connected (fromLocal : SocketAddr)
  | frame (payload : Bytes)
  | elapsed
  | failed
  deriving DecidableEq, Repr

/-- A program on the routes: it dials, and exchanges frames. -/
abbrev RouteProg (α : Type) : Type := Prog RouteEvent RouteAction IoError α

/-- The libraries at the records of this module. -/
structure RouteCodecs where
  handshake : Codecs
  rendezvous : Protobuf RendezvousMessage
  /-- `Uuid::parse_str` accepts the text. -/
  uuid : String → Bool

namespace Rendezvous

open Handshake (ViewerKeys)

variable (sodium : Sodium) (codecs : RouteCodecs)

/-- The deadline of the whole connection has passed. -/
def timedOut : IoError := ⟨.timedOut, "Rendezvous connection deadline expired"⟩

/-- A connection just made, with the record limit of this phase. -/
def fresh : FramedStream :=
  { FramedStream.fromStream with
    codec := FramedStream.fromStream.codec.setMaxPacketLength authMaxRecordBytes }

/-- The wire, and the address of its local end. -/
def serverDial (name : String) (defaultPort : UInt16) : RouteProg (FramedStream × SocketAddr) :=
  match endpoint name defaultPort with
  | .error e => .fail e
  | .ok endpoint => .write (.dialServer endpoint) (.read fun
      | .connected fromLocal => .done (fresh, fromLocal)
      | _ => .fail ⟨.notConnected, "Server resolution or connection failed"⟩)

/-- The wire to the peer; an attempt that fails or takes too long is none. -/
def dial (remote fromLocal : SocketAddr) : RouteProg (Option FramedStream) :=
  if !validAddress remote ∨ fromLocal.ip.isIpv4 ≠ remote.ip.isIpv4 then .done none
  else .write (.dialPeer remote fromLocal) (.read fun
    | .connected _ => .done (some fresh)
    | _ => .done none)

/-- A message is written, where it is not too large. -/
def send (wire : FramedStream) (message : RendezvousMessage) : RouteProg FramedStream :=
  if codecs.rendezvous.computeSize message > authMaxRecordBytes then
    .fail (invalid "Oversized rendezvous request")
  else
    match wire.sealMessage sodium.secretbox codecs.rendezvous message with
    | none => .fail ⟨.other, "Rendezvous write failed"⟩
    | some (frame, wire) => .write (.frame frame) (.done wire)

/-- The next record, or none when the wait elapsed. -/
def next (wire : FramedStream) : RouteProg (Option RendezvousMessage × FramedStream) :=
  .read fun
  | .frame payload =>
    match wire.next sodium.secretbox payload with
    | .error _ => .fail (invalid "Invalid rendezvous record")
    | .ok (bytes, wire) =>
      match codecs.rendezvous.parseFromBytes bytes with
      | .error _ => .fail (invalid "Invalid rendezvous message")
      | .ok message => .done (some message, wire)
  | .elapsed => .done (none, wire)
  | _ => .fail ⟨.unexpectedEof, "Rendezvous closed"⟩

/-- The next record that is no key exchange, among so many. -/
def receiveAmong : Nat → FramedStream → RouteProg (Option RendezvousMessage × FramedStream)
  | 0, _ => .fail (invalid "Excess rendezvous key-exchange records")
  | n + 1, wire => do
    match ← next sodium codecs wire with
    | (some ⟨some (.keyExchange _)⟩, wire) => receiveAmong n wire
    | r => return r

/-- The next message of the server, among the first few frames. -/
def receive (wire : FramedStream) : RouteProg (Option RendezvousMessage × FramedStream) :=
  receiveAmong sodium codecs 2 wire

/-- The peer's key, when the server signed it for the peer we want. -/
def peerKey (signed : Bytes) (config : RendezvousConfig) : Except IoError SignPublicKey :=
  match sodium.verify signed config.serverKey with
  | none => .error (invalid "Peer certificate signature missing or invalid")
  | some plain =>
    match codecs.handshake.idPk.parseFromBytes plain with
    | .error _ => .error (invalid "Invalid peer certificate")
    | .ok identity =>
      if identity.id ≠ config.id then .error (invalid "Peer certificate identity mismatch")
      else
        match FixedBytes.fromSlice 32 identity.pk with
        | none => .error (invalid "Invalid peer signing key length")
        | some key => .ok key

/-- What a frame program reads of the peer's connection. -/
def peerFrame : RouteEvent → Except IoError Bytes
  | .frame payload => .ok payload
  | _ => .error ⟨.unexpectedEof, "Peer closed"⟩

/-- Shake hands with the peer the certificate names. -/
def finish (keys : ViewerKeys) (wire : FramedStream) (config : RendezvousConfig)
    (key : SignPublicKey) (route : RouteKind) : RouteProg (Established × RouteEvidence) := do
  let established ←
    (Handshake.viewer sodium codecs.handshake keys wire (.pinnedHost config.id key)).translate
      peerFrame .frame
  if established.security = .encrypted (some config.id) then
    return (established, { route := route, encrypted := true, peerVerified := true })
  else .fail (invalid "Verified encrypted peer required")

/-- `join_relay`: the relay is dialled, and the handshake begins on it. -/
def joinRelay (keys : ViewerKeys) (config : RendezvousConfig) (name uuid : String)
    (key : SignPublicKey) : RouteProg (Established × RouteEvidence) := do
  if (utf8 uuid).length > 64 ∨ !codecs.uuid uuid then
    .fail (invalid "Invalid relay pairing UUID")
  else
    let (wire, _) ← serverDial name 21117
    let wire ← send sodium codecs wire (.of (.requestRelay {
      id := config.id, uuid := uuid, licenceKey := config.licenceKey,
      connType := .known .defaultConn }))
    finish sodium codecs keys wire config key .relay

/-- The answer of a server that does not refuse. -/
def relayResponse (message : RendezvousMessage) : Except IoError RelayResponse :=
  match message.union with
  | some (.relayResponse response) =>
    if response.refuseReason = "" then .ok response
    else .error (invalid "Relay request refused or invalid response")
  | _ => .error (invalid "Relay request refused or invalid response")

/-- What the answer to a relay request may not change: the pairing and the peer. -/
def relayAgrees (config : RendezvousConfig) (uuid : String) (key : SignPublicKey)
    (response : RelayResponse) : Except IoError Unit :=
  if response.uuid ≠ "" ∧ response.uuid ≠ uuid then .error (invalid "Relay UUID mismatch")
  else if response.pk = [] then .ok ()
  else
    match peerKey sodium codecs response.pk config with
    | .error e => .error e
    | .ok key' => if key' ≠ key then .error (invalid "Relay peer key changed") else .ok ()

/-- `uuid` is the one drawn for the pairing. -/
def requestRelay (keys : ViewerKeys) (config : RendezvousConfig) (uuid name : String)
    (key : SignPublicKey) : RouteProg (Established × RouteEvidence) := do
  let (wire, _) ← serverDial config.rendezvousServer 21116
  let wire ← send sodium codecs wire (.of (.requestRelay {
    id := config.id, uuid := uuid, relayServer := name, secure := true }))
  match ← receive sodium codecs wire with
  | (none, _) => .fail timedOut
  | (some message, _) =>
    match relayResponse message with
    | .error e => .fail e
    | .ok response =>
      match relayAgrees sodium codecs config uuid key response with
      | .error e => .fail e
      | .ok () => joinRelay sodium codecs keys config name uuid key

/-- Ask the server, again when a wait for the answer elapses. -/
def ask (request : RendezvousMessage) : Nat → FramedStream → RouteProg RendezvousMessage
  | 0, _ => .fail timedOut
  | attempts + 1, wire => do
    let wire ← send sodium codecs wire request
    match ← receive sodium codecs wire with
    | (some message, _) => return message
    | (none, wire) => ask request attempts wire

/-- What is made of a hole that was punched. -/
def punched (keys : ViewerKeys) (config : RendezvousConfig) (uuid : String)
    (fromLocal : SocketAddr) (response : PunchHoleResponse) :
    RouteProg (Established × RouteEvidence) :=
  if response.otherFailure ≠ "" ∨ response.socketAddr = [] then
    .fail (invalid "Peer unavailable or rendezvous request refused")
  else if response.isUdp then .fail (invalid "Unexpected UDP route for TCP punch request")
  else
    match peerKey sodium codecs response.pk config with
    | .error e => .fail e
    | .ok key =>
      match peerAddress response.socketAddr with
      | .error e => .fail e
      | .ok address => do
        match ← dial address fromLocal with
        | some peer => finish sodium codecs keys peer config key .tcpHolePunch
        | none =>
          match relayName config response.relayServer with
          | .error _ => .fail ⟨.notConnected, "TCP hole punch failed; no relay available"⟩
          | .ok relay => requestRelay sodium codecs keys config uuid relay key

/-- What is made of a relay that was offered. -/
def relayed (keys : ViewerKeys) (config : RendezvousConfig) (response : RelayResponse) :
    RouteProg (Established × RouteEvidence) :=
  if response.refuseReason ≠ "" then .fail (invalid "Relay request refused")
  else
    match peerKey sodium codecs response.pk config with
    | .error e => .fail e
    | .ok key =>
      match relayName config response.relayServer with
      | .error e => .fail e
      | .ok relay => joinRelay sodium codecs keys config relay response.uuid key

def punchRequest (config : RendezvousConfig) : RendezvousMessage :=
  .of (.punchHoleRequest {
    id := config.id, licenceKey := config.licenceKey, natType := .known .unknownNat,
    connType := .known .defaultConn, version := "1.4.9" })

/-- `connect`: the server is asked for the peer, who is then reached on one of the routes. -/
def connect (keys : ViewerKeys) (config : RendezvousConfig) (uuid : String) :
    RouteProg (Established × RouteEvidence) := do
  let (wire, fromLocal) ← serverDial config.rendezvousServer 21116
  let message ← ask sodium codecs (punchRequest config) 3 wire
  match message.union with
  | some (.punchHoleResponse response) =>
    punched sodium codecs keys config uuid fromLocal response
  | some (.relayResponse response) => relayed sodium codecs keys config response
  | _ => .fail (invalid "Unexpected rendezvous response")

/-- What is checked before anything is dialled. -/
def validConfig (config : RendezvousConfig) : Bool :=
  config.id ≠ "" ∧ (utf8 config.id).length ≤ 512 ∧ config.licenceKey ≠ "" ∧
    (utf8 config.licenceKey).length ≤ 1024 ∧
    !(config.licenceKey.toList.any fun c => isControl c ∨ isWhitespace c) ∧
    config.connectTimeout ≠ 0 ∧ config.connectTimeout ≤ 180 * 10 ^ 9

def connectViewer (keys : ViewerKeys) (config : RendezvousConfig) (uuid : String) :
    RouteProg (Established × RouteEvidence) :=
  if !validConfig config then .fail ⟨.invalidInput, "Invalid rendezvous configuration"⟩
  else
    match endpoint config.rendezvousServer 21116 with
    | .error e => .fail e
    | .ok _ =>
      match config.relayServer.elim (.ok "") fun relay => endpoint relay 21117 with
      | .error e => .fail e
      | .ok _ =>
        if !sodium.init then .fail ⟨.other, "Crypto initialization failed"⟩
        else connect sodium codecs keys config uuid

end Rendezvous

end RdEngine
