/-
RdEngine/Message.lean

The records of `message.proto` that the engine's authentication, session and
viewer code builds or looks into.  Every generated struct keeps the fields
some modelled function reads or writes, under the names of the protocol file;
a `oneof` is an `Option` of an inductive type with one constructor a member.
The members of `Message.union` and `Misc.union` that no modelled function
opens are kept as `other`, by field number and payload, so that a message of
any kind can still be carried, dropped or refused.

An enum field holds any 32-bit number (`EnumOrUnknown`): a number outside the
enumeration is kept and has no `enum_value`.
-/
import Mathlib.Data.List.Nodup
import Mathlib.Algebra.Order.Ring.Int

namespace RdEngine

/-- A byte string. -/
abbrev Bytes := List UInt8

/-- An enum field as the generated code holds it. -/
inductive EnumOrUnknown (α : Type) where
  | known (value : α)
  | unknown (number : Int)
  deriving DecidableEq, Repr

/-- The enumerator, when the number is one of the enumeration's. -/
def EnumOrUnknown.enumValue {α : Type} : EnumOrUnknown α → Option α
  | .known value => some value
  | .unknown _ => none

/-! ### Login -/

/-- An option that is on, off or left as it is. -/
inductive BoolOption where
  | notSet | no | yes
  deriving DecidableEq, Repr

inductive ImageQuality where
  | notSet | low | balanced | best
  deriving DecidableEq, Repr

inductive PreferCodec where
  | auto | vp9 | h264 | h265 | vp8 | av1
  deriving DecidableEq, Repr

/-- The chroma formats a viewer may prefer. -/
inductive Chroma where
  | i420 | i444
  deriving DecidableEq, Repr

/-- What a viewer can decode, and what it prefers. -/
structure SupportedDecoding where
  abilityVp9 : Int := 0
  abilityH264 : Int := 0
  abilityH265 : Int := 0
  prefer : EnumOrUnknown PreferCodec := .known .auto
  abilityVp8 : Int := 0
  abilityAv1 : Int := 0
  preferChroma : EnumOrUnknown Chroma := .known .i420
  deriving DecidableEq, Repr

/-- What a viewer asks for, in its login or later. -/
structure OptionMessage where
  imageQuality : EnumOrUnknown ImageQuality := .known .notSet
  customImageQuality : Int := 0
  disableAudio : EnumOrUnknown BoolOption := .known .notSet
  disableClipboard : EnumOrUnknown BoolOption := .known .notSet
  enableFileTransfer : EnumOrUnknown BoolOption := .known .notSet
  supportedDecoding : Option SupportedDecoding := none
  customFps : Int := 0
  disableKeyboard : EnumOrUnknown BoolOption := .known .notSet
  disableCamera : EnumOrUnknown BoolOption := .known .notSet
  deriving DecidableEq, Repr

/-- A login at the operating system, which a host may ask for. -/
structure OSLogin where
  username : String := ""
  password : String := ""
  deriving DecidableEq, Repr

/-- The role a login asks for, when it is not a plain desktop session. -/
inductive LoginRole where
  | fileTransfer (dir : String) (showHidden : Bool)
  | portForward (host : String) (port : Int)
  | viewCamera
  | terminal (serviceId : String)
  deriving DecidableEq, Repr

structure LoginRequest where
  username : String := ""
  password : Bytes := []
  myId : String := ""
  myName : String := ""
  option : Option OptionMessage := none
  union : Option LoginRole := none
  videoAckRequired : Bool := false
  sessionId : Nat := 0
  version : String := ""
  osLogin : OSLogin := {}
  myPlatform : String := ""
  hwid : Bytes := []
  deriving DecidableEq, Repr

/-- `Auth2FA`: the code of a second factor. -/
structure Auth2FA where
  code : String := ""
  hwid : Bytes := []
  deriving DecidableEq, Repr

/-- `Hash`: the challenge of a host, and the salt of its password. -/
structure Hash where
  salt : String := ""
  challenge : String := ""
  deriving DecidableEq, Repr

structure DisplayInfo where
  x : Int := 0
  y : Int := 0
  width : Int := 0
  height : Int := 0
  name : String := ""
  online : Bool := false
  deriving DecidableEq, Repr

/-- What a host tells of itself after the login. -/
structure PeerInfo where
  username : String := ""
  hostname : String := ""
  platform : String := ""
  displays : List DisplayInfo := []
  currentDisplay : Int := 0
  version : String := ""
  deriving DecidableEq, Repr

/-- The answer to a login: an error, or the host. -/
inductive LoginResponseUnion where
  | error (message : String)
  | peerInfo (info : PeerInfo)
  deriving DecidableEq, Repr

structure LoginResponse where
  union : Option LoginResponseUnion := none
  enableTrustedDevices : Bool := false
  deriving DecidableEq, Repr

/-! ### Key exchange -/

/-- An id and its key, as the rendezvous server signs them. -/
structure IdPk where
  id : String := ""
  pk : Bytes := []
  deriving DecidableEq, Repr

structure SignedId where
  id : Bytes := []
  deriving DecidableEq, Repr

/-- The keys of a viewer, sealed for the host. -/
structure PublicKey where
  asymmetricValue : Bytes := []
  symmetricValue : Bytes := []
  deriving DecidableEq, Repr

/-! ### Input, clipboard and control -/

/-- A probe of the delay; the side that was asked sends it back. -/
structure TestDelay where
  time : Int := 0
  fromClient : Bool := false
  lastDelay : Nat := 0
  targetBitrate : Nat := 0
  deriving DecidableEq, Repr

structure MouseEvent where
  mask : Int := 0
  x : Int := 0
  y : Int := 0
  deriving DecidableEq, Repr

/-- How the code of a key is to be read. -/
inductive KeyboardMode where
  | legacy | map | translate | auto
  deriving DecidableEq, Repr

inductive ControlKey where
  | unknown | alt | backspace | capsLock | control | delete | downArrow | end_ | escape
  | f1 | f10 | f11 | f12 | f2 | f3 | f4 | f5 | f6 | f7 | f8 | f9
  | home | leftArrow | meta_ | option | pageDown | pageUp | return_ | rightArrow | shift
  | space | tab | upArrow
  | numpad0 | numpad1 | numpad2 | numpad3 | numpad4 | numpad5 | numpad6 | numpad7
  | numpad8 | numpad9
  | cancel | clear | menu | pause | kana | hangul | junja | final | hanja | kanji
  | convert | select | print | execute | snapshot | insert | help | sleep | separator
  | scroll | numLock | rWin | apps | multiply | add | subtract | decimal | divide
  | equals | numpadEnter | rShift | rControl | rAlt
  | volumeMute | volumeUp | volumeDown | power | ctrlAltDel | lockScreen
  deriving DecidableEq, Repr

inductive KeyEventUnion where
  | controlKey (key : EnumOrUnknown ControlKey)
  | chr (code : Nat)
  | unicode (code : Nat)
  | seq (text : String)
  | win2winHotkey (code : Nat)
  deriving DecidableEq, Repr

structure KeyEvent where
  down : Bool := false
  press : Bool := false
  union : Option KeyEventUnion := none
  modifiers : List (EnumOrUnknown ControlKey) := []
  mode : EnumOrUnknown KeyboardMode := .known .legacy
  deriving DecidableEq, Repr

inductive ClipboardFormat where
  | text | rtf | html | imageRgba | imagePng | imageSvg | special
  deriving DecidableEq, Repr

structure Clipboard where
  compress : Bool := false
  content : Bytes := []
  format : EnumOrUnknown ClipboardFormat := .known .text
  deriving DecidableEq, Repr

/-- What a host may allow and take back. -/
inductive Permission where
  | keyboard | clipboard | audio | file | restart | recording | blockInput | privacyMode
  deriving DecidableEq, Repr

structure PermissionInfo where
  permission : EnumOrUnknown Permission := .known .keyboard
  enabled : Bool := false
  deriving DecidableEq, Repr

structure SwitchDisplay where
  display : Int := 0
  x : Int := 0
  y : Int := 0
  width : Int := 0
  height : Int := 0
  deriving DecidableEq, Repr

/-- The small messages that share one field. -/
inductive MiscUnion where
  | chatMessage (text : String)
  | switchDisplay (display : SwitchDisplay)
  | permissionInfo (info : PermissionInfo)
  | option (option : OptionMessage)
  | closeReason (reason : String)
  | refreshVideo (refresh : Bool)
  | refreshVideoDisplay (display : Int)
  | changeResolution (width height : Int)
  | captureDisplays (add sub set : List Int)
  | changeDisplayResolution (display width height : Int)
  | messageQuery (switchDisplay : Int)
  | other (field : Nat) (payload : Bytes)
  deriving DecidableEq, Repr

/-- One of them, or one that is not known. -/
structure Misc where
  union : Option MiscUnion := none
  deriving DecidableEq, Repr

structure EncodedVideoFrame where
  data : Bytes := []
  key : Bool := false
  pts : Int := 0
  deriving DecidableEq, Repr

/-- The pictures of a frame, by their codec. -/
inductive VideoFrameUnion where
  | h264s (frames : List EncodedVideoFrame)
  | h265s (frames : List EncodedVideoFrame)
  | other (field : Nat) (payload : Bytes)
  deriving DecidableEq, Repr

structure VideoFrame where
  union : Option VideoFrameUnion := none
  display : Int := 0
  deriving DecidableEq, Repr

/-! ### The message -/

inductive MessageUnion where
  | signedId (signed : SignedId)
  | publicKey (key : PublicKey)
  | testDelay (probe : TestDelay)
  | videoFrame (frame : VideoFrame)
  | loginRequest (request : LoginRequest)
  | loginResponse (response : LoginResponse)
  | hash (hash : Hash)
  | mouseEvent (event : MouseEvent)
  | keyEvent (event : KeyEvent)
  | clipboard (clipboard : Clipboard)
  | misc (misc : Misc)
  | messageBox (msgtype title text link : String)
  | auth2fa (code : Auth2FA)
  | multiClipboards (clipboards : List Clipboard)
  | other (field : Nat) (payload : Bytes)
  deriving DecidableEq, Repr

/-- `Message`: what is written on the wire after the handshake. -/
structure Message where
  union : Option MessageUnion := none
  deriving DecidableEq, Repr

/-- `Message::new()`: no member is set. -/
def Message.new : Message := {}

/-- The message with one member set (`set_hash`, `set_misc`, ...). -/
def Message.of (union : MessageUnion) : Message := { union := some union }

/-- The `Misc` message with one member set. -/
def Message.ofMisc (union : MiscUnion) : Message := .of (.misc { union := some union })

/-! ### The wire format -/

/-- What is used of the protobuf library: it is outside the repository. -/
structure Protobuf (μ : Type) where
  computeSize : μ → Nat
  writeToBytes : μ → Except String Bytes
  parseFromBytes : Bytes → Except String μ

/-- The bytes written parse back, and are as many as announced. -/
structure Protobuf.Lawful {μ : Type} (proto : Protobuf μ) : Prop where
  parse_write : ∀ {message bytes}, proto.writeToBytes message = .ok bytes →
    proto.parseFromBytes bytes = .ok message
  length_write : ∀ {message bytes}, proto.writeToBytes message = .ok bytes →
    bytes.length = proto.computeSize message

/-- The library at finitely many messages, with the bytes of each. -/
def Protobuf.table {μ : Type} [DecidableEq μ] (entries : List (μ × Bytes)) : Protobuf μ where
  computeSize message := ((entries.find? (·.1 = message)).map (·.2.length)).getD 0
  writeToBytes message :=
    match entries.find? (·.1 = message) with
    | some entry => .ok entry.2
    | none => .error "Unknown message"
  parseFromBytes bytes :=
    match entries.find? (·.2 = bytes) with
    | some entry => .ok entry.1
    | none => .error "Unknown bytes"

theorem Protobuf.mem_of_table {μ : Type} [DecidableEq μ] {entries : List (μ × Bytes)} {message : μ}
    {bytes : Bytes} (h : (table entries).writeToBytes message = .ok bytes) :
    (message, bytes) ∈ entries := by
  simp only [table] at h
  rcases hfind : entries.find? (·.1 = message) with - | entry
  · rw [hfind] at h; cases h
  · rw [hfind] at h
    obtain rfl := Except.ok.inj h
    have hmessage : entry.1 = message := by simpa using List.find?_some hfind
    rw [← hmessage]
    exact List.mem_of_find?_eq_some hfind

theorem Protobuf.table_lawful {μ : Type} [DecidableEq μ] {entries : List (μ × Bytes)}
    (h : (entries.map (·.2)).Nodup) : (table entries).Lawful where
  parse_write := by
    intro message bytes hwrite
    simp only [table] at hwrite ⊢
    rcases hfind : entries.find? (·.1 = message) with - | entry
    · rw [hfind] at hwrite; cases hwrite
    · rw [hfind] at hwrite
      obtain rfl := Except.ok.inj hwrite
      have hmem := List.mem_of_find?_eq_some hfind
      have hmessage : entry.1 = message := by simpa using List.find?_some hfind
      rcases hback : entries.find? (·.2 = entry.2) with - | other
      · exact absurd (List.find?_eq_none.mp hback entry hmem) (by simp)
      · have hbytes : other.2 = entry.2 := by simpa using List.find?_some hback
        have heq := List.inj_on_of_nodup_map h (List.mem_of_find?_eq_some hback) hmem hbytes
        rw [hback, heq, ← hmessage]
  length_write := by
    intro message bytes hwrite
    simp only [table] at hwrite ⊢
    rcases hfind : entries.find? (·.1 = message) with - | entry
    · rw [hfind] at hwrite; cases hwrite
    · rw [hfind] at hwrite
      rw [← Except.ok.inj hwrite, hfind]
      rfl

/-- The library at a message that is a byte string. -/
def Protobuf.raw : Protobuf Bytes where
  computeSize := List.length
  writeToBytes := .ok
  parseFromBytes := .ok

theorem Protobuf.raw_lawful : Protobuf.raw.Lawful where
  parse_write h := h.symm
  length_write h := by rw [Except.ok.inj h]; rfl

end RdEngine
