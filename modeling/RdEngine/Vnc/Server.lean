/-
RdEngine/Vnc/Server.lean

The server that RFC 6143 describes, as far as the handshake: what the client
of this repository is written against.  It is not translated from the source.

A server is a program over the same two channels as the client, the other way
round.  Everything the protocol leaves to the server is a field or a
parameter.
-/
import RdEngine.Vnc.Session

namespace RdEngine

open Dialogue Dialogue.Prog

namespace Vnc

open Words (be ofBe)

/-- A program of the server; it closes the connection by writing none. -/
abbrev ServerProg (α : Type) : Type := Prog UInt8 (Option UInt8) Empty α

def sendBytes (bytes : Bytes) : ServerProg Unit := .writeAll (bytes.map some) (.done ())

def close : ServerProg Unit := .write none (.done ())

/-- A length-prefixed text. -/
def sendText (text : Bytes) : ServerProg Unit := sendBytes (be 4 text.length ++ text)

/-! ### The security phase -/

/-- The handshakes the document defines. -/
inductive RfbVersion where
  | v33 | v37 | v38
  deriving DecidableEq

/-- The version the client asked for; other numbers mean 3.3. -/
def RfbVersion.ofAnswer (answer : Bytes) : RfbVersion :=
  if answer = protocolVersion38 then .v38
  else if answer = protocolVersion37 then .v37
  else .v33

/-- What a server brings to its security phase: the minor version it
announces, the type it decides on (3.3) or the types it offers (3.7 and 3.8),
the challenge, the result it gives for a response, and its reasons. -/
structure SecurityServer where
  minor : Nat
  securityType : UInt32
  types : List UInt8
  challenge : FixedBytes 16
  status : Bytes → UInt32
  refusal : Bytes
  reason : Bytes
  minor_lt : minor < 1000
  length_types : types.length < 256

/-- How the phase ended: the type, the response to the challenge if there was
one, and whether the client is let in. -/
structure SecurityOutcome where
  security : Nat
  response : Option Bytes
  accepted : Bool
  deriving DecidableEq

namespace SecurityServer

variable (server : SecurityServer)

/-- Three decimal digits. -/
def minorDigits (minor : Nat) : Bytes :=
  [.ofNat (48 + minor / 100), .ofNat (48 + minor / 10 % 10), .ofNat (48 + minor % 10)]

def refuse : ServerProg SecurityOutcome := do
  close
  return ⟨0, none, false⟩

/-- Challenge, response and result; the reason of a failure only in 3.8. -/
def authenticate (version : RfbVersion) : ServerProg SecurityOutcome := do
  sendBytes server.challenge.1
  let response ← readN 16
  sendBytes (be 4 (server.status response).toNat)
  if server.status response = 0 then return ⟨2, some response, true⟩
  else
    if version = .v38 then sendText server.reason
    close
    return ⟨2, some response, false⟩

/-- Version 3.3: the server decides on the type. -/
def decided : ServerProg SecurityOutcome := do
  sendBytes (be 4 server.securityType.toNat)
  if server.securityType = 1 then return ⟨1, none, true⟩
  else if server.securityType = 2 then server.authenticate .v33
  else
    if server.securityType = 0 then sendText server.refusal
    refuse

/-- What the client's choice leads to.  Without authentication, only 3.8 sends
a result. -/
def chosen (version : RfbVersion) (choice : Bytes) : ServerProg SecurityOutcome :=
  if choice = [1] ∧ 1 ∈ server.types then
    if version = .v38 then do
      sendBytes (be 4 0)
      return ⟨1, none, true⟩
    else .done ⟨1, none, true⟩
  else if choice = [2] ∧ 2 ∈ server.types then server.authenticate version
  else refuse

/-- Versions 3.7 and 3.8: the client chooses among the types. -/
def offered (version : RfbVersion) : ServerProg SecurityOutcome := do
  sendBytes (be 1 server.types.length)
  if server.types = [] then
    sendText server.refusal
    refuse
  else
    sendBytes server.types
    let choice ← readN 1
    server.chosen version choice

def afterVersion (version : RfbVersion) : ServerProg SecurityOutcome :=
  match version with
  | .v33 => server.decided
  | version => server.offered version

/-- The server's side of the security phase. -/
def securityPhase : ServerProg SecurityOutcome := do
  sendBytes (banner (minorDigits server.minor))
  let answer ← readN 12
  server.afterVersion (.ofAnswer answer)

end SecurityServer

/-! ### The initialisation phase -/

/-- The messages of a client that this document describes first, with what
follows the message type; of the others the type. -/
inductive ClientMessage where
  | setPixelFormat (format : Bytes)
  | setEncodings (codes : Bytes)
  | framebufferUpdateRequest (region : Bytes)
  | other (kind : Bytes)
  deriving DecidableEq

def readClientMessage : ServerProg ClientMessage := do
  let kind ← readN 1
  if kind = [0] then
    let rest ← readN 19
    return .setPixelFormat (rest.drop 3)
  else if kind = [2] then
    let head ← readN 3
    let codes ← readN (4 * ofBe (head.drop 1))
    return .setEncodings codes
  else if kind = [3] then
    let region ← readN 9
    return .framebufferUpdateRequest region
  else return .other kind

/-- What a server says of itself. -/
structure InitServer where
  width : UInt16
  height : UInt16
  format : PixelFormat
  name : Bytes

namespace InitServer

/-- The message that follows the one byte of the client. -/
def serverInit (server : InitServer) : Bytes :=
  be 2 server.width.toNat ++ be 2 server.height.toNat ++ server.format.encode ++
    be 4 server.name.length ++ server.name

/-- Wait for the one byte of ClientInit, answer with ServerInit, and read the
client's first three messages. -/
def initPhase (server : InitServer) : ServerProg (Bytes × List ClientMessage) := do
  let clientInit ← readN 1
  sendBytes server.serverInit
  let first ← readClientMessage
  let second ← readClientMessage
  let third ← readClientMessage
  return (clientInit, [first, second, third])

end InitServer

/-! ### Exchanges -/

/-- A client and a server, and the bytes between them. -/
abbrev Exchange (α β : Type) : Type := Duo (Option UInt8) UInt8 VncFault α Empty β

section Exchanges

variable {α β : Type}

theorem reaches_readExact {what : String} {n : Nat} (bytes : Bytes) (hn : n = bytes.length)
    (f : Bytes → VncProg α) (r : ServerProg β) (is : List (Option UInt8)) (os : Bytes) :
    Duo.Reaches ⟨readExact what n >>= f, r, bytes.map some ++ is, os⟩ ⟨f bytes, r, is, os⟩ := by
  subst hn
  induction bytes generalizing f with
  | nil => exact .rfl
  | cons b bytes ih =>
    rw [List.length_cons, readExact, read_bind]
    refine Duo.Reaches.head .leftRead ?_
    simp only [bind_assoc]
    exact ih fun bytes => f (b :: bytes)

theorem reaches_sendBytes (bytes : Bytes) (g : Unit → ServerProg β) (l : VncProg α)
    (is : List (Option UInt8)) (os : Bytes) :
    Duo.Reaches ⟨l, sendBytes bytes >>= g, is, os⟩ ⟨l, g (), is ++ bytes.map some, os⟩ := by
  rw [sendBytes, writeAll_bind]
  exact Duo.reaches_writeAll_right _ _ _ _ _

/-- The server sends what the client waits for. -/
theorem reaches_serverSends {what : String} {n : Nat} (bytes : Bytes) (f : Bytes → VncProg α)
    (g : Unit → ServerProg β) (hn : n = bytes.length) :
    Duo.Reaches ⟨readExact what n >>= f, sendBytes bytes >>= g, [], []⟩
      ⟨f bytes, g (), [], []⟩ := by
  have hread : Duo.Reaches ⟨readExact what n >>= f, g (), bytes.map some ++ [], []⟩
      ⟨f bytes, g (), [], []⟩ := reaches_readExact bytes hn f (g ()) [] []
  rw [List.append_nil] at hread
  exact (reaches_sendBytes bytes g _ [] []).trans hread

theorem reaches_readN {n : Nat} (bytes : Bytes) (hn : n = bytes.length)
    (g : Bytes → ServerProg β) (l : VncProg α) (is : List (Option UInt8)) (os : Bytes) :
    Duo.Reaches ⟨l, readN n >>= g, is, bytes ++ os⟩ ⟨l, g bytes, is, os⟩ := by
  subst hn
  exact Duo.reaches_readN_right _ _ _ _ _

theorem reaches_writeAll (bytes : Bytes) (f : Unit → VncProg α) (r : ServerProg β)
    (is : List (Option UInt8)) (os : Bytes) :
    Duo.Reaches ⟨writeAll bytes >>= f, r, is, os⟩ ⟨f (), r, is, os ++ bytes⟩ := by
  rw [writeAll, writeAll_bind]
  exact Duo.reaches_writeAll_left _ _ _ _ _

/-- The client sends what the server waits for. -/
theorem reaches_clientSends {n : Nat} (bytes : Bytes) (f : Unit → VncProg α)
    (g : Bytes → ServerProg β) (hn : n = bytes.length) :
    Duo.Reaches ⟨writeAll bytes >>= f, readN n >>= g, [], []⟩ ⟨f (), g bytes, [], []⟩ := by
  have hread : Duo.Reaches (⟨f (), readN n >>= g, [], bytes ++ []⟩ : Exchange α β)
      ⟨f (), g bytes, [], []⟩ := reaches_readN bytes hn _ _ _ _
  rw [List.append_nil] at hread
  exact (reaches_writeAll bytes f _ [] []).trans hread

end Exchanges

end Vnc

end RdEngine
