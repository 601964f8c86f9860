/-
RdEngine/Vnc/Session.lean

The handshake of the RFB client (`vnc/mod.rs`), as programs over the bytes of
the connection.  An item read is the next byte, or none when the server has
closed the connection; every failure of a read is of that kind.
-/
import RdEngine.Lib.Dialogue
import RdEngine.Vnc.Auth
import RdEngine.Vnc.Protocol

namespace RdEngine

open Dialogue

namespace Vnc

open Words (be ofBe)

/-- How a step of the client goes wrong: with an error it returns, or by a
panic. -/
inductive VncFault where
  | error (e : VncError)
  | panicked
  deriving DecidableEq

/-- A program of the client. -/
abbrev VncProg (α : Type) : Type := Prog (Option UInt8) UInt8 VncFault α

/-- The program ends here, with this error. -/
def failWith {α : Type} (e : VncError) : VncProg α := .fail (.error e)

/-- `read_exact`. -/
def readExact (what : String) : Nat → VncProg Bytes
  | 0 => .done []
  | n + 1 => .read fun
    | none => failWith (.io what)
    | some b => readExact what n >>= fun bytes => .done (b :: bytes)

/-- `write_all`; a write that fails ends the client, as a lost connection does. -/
def writeAll (bytes : Bytes) : VncProg Unit := .writeAll bytes (.done ())

/-! ### Version -/

/-- The banner of version 3.x, given the three digits of the minor version. -/
def banner (minor : Bytes) : Bytes :=
  [82, 70, 66, 32, 48, 48, 51, 46] ++ minor ++ [10]

def protocolVersion38 : Bytes := banner [48, 48, 56]

def protocolVersion37 : Bytes := banner [48, 48, 55]

def protocolVersion33 : Bytes := banner [48, 48, 51]

/-- The version to use with a server of this minor version. -/
def versionAnswer (minor : Nat) : Bytes :=
  if minor ≥ 8 then protocolVersion38
  else if minor = 7 then protocolVersion37
  else protocolVersion33

/-- The version text and the minor version in a server's banner. -/
def parseBanner (bytes : Bytes) : Except VncFault (List Char × Nat) :=
  let text := Text.fromUtf8Lossy bytes
  if !("RFB ".toList.isPrefixOf text) ∨ text.getLast? ≠ some '\n' then
    .error (.error (.protocol (.noBanner text)))
  else
    match Text.slice text 4 11 with
    | none => .error .panicked
    | some version =>
      match Text.slice version 0 3, Text.slice version 4 7 with
      | some first, some second =>
        match Text.parseU32 first, Text.parseU32 second with
        | some major, some minor =>
          if major ≠ 3 then .error (.error (.protocol (.majorVersion major)))
          else .ok (version, minor)
        | _, _ => .error (.error (.protocol (.unparsableVersion version)))
      | _, _ => .error .panicked

/-! ### Security -/

/-- Some failures carry a length-prefixed reason. -/
def readReason : VncProg String := do
  let length ← readExact "reason length" 4
  let size := ofBe length
  if size > 4096 then failWith (.protocol (.reasonTooLong size))
  else
    let body ← readExact "reason body" size
    return .ofList (Text.fromUtf8Lossy body)

/-- Refused by the server, for the reason it gives or else the one stated. -/
def rejected {α : Type} (otherwise : String) : VncProg α := do
  let reason ← readReason.attempt
  failWith (.authenticationRejected (reason.toOption.getD otherwise))

/-- What the four bytes of a result mean. -/
def securityResult (code : Bytes) : VncProg Unit :=
  -- some servers put the failure on the wire in the other byte order
  let value := if code = [1, 0, 0, 0] then securityResultFailed else ofBe code
  if value = securityResultOk then .done ()
  else if value = securityResultFailed then
    failWith (.authenticationRejected "server rejected the password")
  else if value = securityResultTooMany then rejected "too many attempts"
  else failWith (.protocol (.securityResult value))

def readSecurityResult : VncProg Unit := do
  let code ← readExact "security result" 4
  securityResult code

/-- The challenge-response exchange. -/
def vncAuthenticate (password : Option Bytes) : VncProg Unit := do
  let challenge ← readExact "authentication challenge" 16
  match FixedBytes.fromSlice 16 challenge with
  | none => .fail .panicked
  | some challenge =>
    writeAll (Auth.answerChallenge (password.getD []) challenge)
    readSecurityResult

/-- The type to choose: password authentication with a password, none without. -/
def chosenType (password : Option Bytes) (types : List SecurityType) : Option SecurityType :=
  types.find? (· = if password.isSome then .vncAuthentication else .none)

/-- 3.3 has a single server-chosen type with no list. -/
def decidedSecurity (password : Option Bytes) (raw : Nat) : VncProg SecurityType :=
  let security := SecurityType.fromCode (.ofNat raw)
  if raw ≠ security.code.toNat then failWith (.protocol (.noSecurityType raw))
  else if !security.isSupported then failWith (.unsupportedSecurity [security.label])
  else if security = .vncAuthentication then do
    vncAuthenticate password
    return security
  else .done security

/-- Choose among the offered types and perform the choice. -/
def offeredSecurity (password : Option Bytes) (offered : Bytes) : VncProg SecurityType :=
  let types := offered.map SecurityType.fromCode
  match chosenType password types with
  | none => failWith (.unsupportedSecurity (types.map SecurityType.label))
  | some chosen => do
    writeAll [chosen.code]
    if chosen = .vncAuthentication then vncAuthenticate password else readSecurityResult
    return chosen

/-- The list of types; an empty one is a refusal. -/
def securityList (password : Option Bytes) (count : Nat) : VncProg SecurityType :=
  if count = 0 then rejected "server refused the connection"
  else do
    let offered ← readExact "security list" count
    offeredSecurity password offered

/-- Choose and perform a security type. -/
def negotiateSecurity (serverMinor : Nat) (password : Option Bytes) : VncProg SecurityType :=
  if serverMinor < 7 then do
    let code ← readExact "security type" 4
    decidedSecurity password (ofBe code)
  else do
    let count ← readExact "security count" 1
    securityList password (ofBe count)

/-- The version and security phases: the server's version text and the type
that was used. -/
def negotiate (password : Option Bytes) : VncProg (List Char × Nat × SecurityType) := do
  let bytes ← readExact "version banner" 12
  match parseBanner bytes with
  | .error fault => .fail fault
  | .ok (version, minor) =>
    writeAll (versionAnswer minor)
    let security ← negotiateSecurity minor password
    return (version, minor, security)

/-! ### Initialisation -/

/-- `MAX_FRAMEBUFFER_PIXELS`. -/
def maxFramebufferPixels : Nat := 16384 * 16384

/-- What the server's initialisation message says. -/
structure ServerInit where
  width : UInt16
  height : UInt16
  format : PixelFormat
  name : List Char

/-- The size, the pixel format and the length of the name that follows. -/
def parseServerInit (header : Bytes) : Except VncFault (UInt16 × UInt16 × PixelFormat × Nat) :=
  let width := ofBe (header.take 2)
  let height := ofBe ((header.drop 2).take 2)
  if width = 0 ∨ height = 0 then
    .error (.error (.geometry s!"server reports a {width}x{height} framebuffer"))
  else if width * height > maxFramebufferPixels then
    .error (.error (.geometry (s!"server reports a {width}x{height} framebuffer, beyond the " ++
      s!"{maxFramebufferPixels} pixel limit")))
  else
    match FixedBytes.fromSlice 16 ((header.drop 4).take 16) with
    | none => .error .panicked
    | some bytes =>
      let nameLength := ofBe (header.drop 20)
      if nameLength > 4096 then .error (.error (.protocol (.nameTooLong nameLength)))
      else .ok (.ofNat width, .ofNat height, .decode bytes, nameLength)

/-- Read `ServerInit` and send the client's pixel format and encodings. -/
def initialise : VncProg ServerInit := do
  let header ← readExact "server init" 24
  match parseServerInit header with
  | .error fault => .fail fault
  | .ok (width, height, format, nameLength) =>
    let name ← readExact "server name" nameLength
    writeAll (encodeSetPixelFormat preferredPixelFormat)
    match encodeSetEncodings [.raw] with
    | .error e => failWith e
    | .ok encodings =>
      writeAll encodings
      return ⟨width, height, format, Text.fromUtf8Lossy name⟩

/-- `request_full_update`. -/
def requestFullUpdate (width height : UInt16) : VncProg Unit :=
  writeAll (encodeFramebufferUpdateRequest false 0 0 width height)

/-- What a session does once its security phase has succeeded, up to waiting
for the first update. -/
def opening : VncProg ServerInit := do
  let init ← initialise
  requestFullUpdate init.width init.height
  return init

/-- What a connected server turned out to be. -/
structure ServerInfo where
  version : List Char
  negotiatedVersion : String
  security : SecurityType
  width : UInt16
  height : UInt16
  name : List Char
  format : PixelFormat

/-- The answer without its frame. -/
def negotiatedVersion (minor : Nat) : String :=
  if minor ≥ 8 then "003.008" else if minor = 7 then "003.007" else "003.003"

/-- `handshake`: the security phase, and the initialisation. -/
def handshake (password : Option Bytes) : VncProg ServerInfo := do
  let (version, minor, security) ← negotiate password
  let init ← initialise
  return { version := version, negotiatedVersion := negotiatedVersion minor,
           security := security, width := init.width, height := init.height,
           name := init.name, format := init.format }

end Vnc

end RdEngine
