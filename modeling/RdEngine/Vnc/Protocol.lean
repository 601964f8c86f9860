/-
RdEngine/Vnc/Protocol.lean

RFB wire constants, the messages the client encodes, and pixels
(`vnc/protocol.rs`, and the errors of `vnc/mod.rs`).
-/
import RdEngine.Lib.Words
import RdEngine.Sodium
import RdEngine.Text

namespace RdEngine

namespace Vnc

open Words (be ofBe)

/-! ### Security types -/

inductive SecurityType where
  | none
  | vncAuthentication
  | appleRemoteDesktop
  | appleDiffieHellman
  | other (code : UInt8)
  deriving DecidableEq, Repr

namespace SecurityType

def fromCode (code : UInt8) : SecurityType :=
  match code with
  | 1 => .none
  | 2 => .vncAuthentication
  | 30 => .appleRemoteDesktop
  | 33 => .appleDiffieHellman
  | code => .other code

def code : SecurityType → UInt8
  | .none => 1
  | .vncAuthentication => 2
  | .appleRemoteDesktop => 30
  | .appleDiffieHellman => 33
  | .other code => code

/-- Whether this client can complete the type. -/
def isSupported : SecurityType → Bool
  | .none | .vncAuthentication => true
  | _ => false

def label : SecurityType → String
  | .none => "None"
  | .vncAuthentication => "VNC authentication"
  | .appleRemoteDesktop => "Apple Remote Desktop"
  | .appleDiffieHellman => "Apple Diffie-Hellman"
  | .other code => s!"security type {code.toNat}"

@[simp] theorem code_fromCode (c : UInt8) : (fromCode c).code = c := by
  unfold fromCode
  split <;> rfl

/-- A code is read as a named type exactly when it is that type's. -/
theorem fromCode_eq_none_iff {c : UInt8} : fromCode c = .none ↔ c = 1 := by
  constructor
  · intro h
    rw [← code_fromCode c, h]
    rfl
  · rintro rfl
    rfl

theorem fromCode_eq_vncAuthentication_iff {c : UInt8} :
    fromCode c = .vncAuthentication ↔ c = 2 := by
  constructor
  · intro h
    rw [← code_fromCode c, h]
    rfl
  · rintro rfl
    rfl

end SecurityType

def securityResultOk : Nat := 0

/-- The server has refused the client. -/
def securityResultFailed : Nat := 1

/-- With a reason behind it. -/
def securityResultTooMany : Nat := 2

/-! ### Encodings -/

inductive Encoding where
  | raw | copyRect | desktopSize | cursor | xCursor | extendedDesktopSize
  | zlib | zlibHex | tight | tightJpeg
  | other (code : Int32)
  deriving DecidableEq

def Encoding.code : Encoding → Int32
  | .raw => 0
  | .copyRect => 1
  | .desktopSize => -223
  | .cursor => -239
  | .xCursor => -240
  | .extendedDesktopSize => -308
  | .zlib => 6
  | .zlibHex => 8
  | .tight => 7
  | .tightJpeg => -32
  | .other code => code

def Encoding.fromCode (code : Int32) : Encoding :=
  if code = 0 then .raw
  else if code = 1 then .copyRect
  else if code = -223 then .desktopSize
  else if code = -239 then .cursor
  else if code = -240 then .xCursor
  else if code = -308 then .extendedDesktopSize
  else if code = 6 then .zlib
  else if code = 8 then .zlibHex
  else if code = 7 then .tight
  else if code = -32 then .tightJpeg
  else .other code

/-! ### Errors -/

/-- The messages of `VncError::Protocol`, with what their texts name. -/
inductive ProtocolFault where
  | noBanner (text : List Char)
  | unparsableVersion (version : List Char)
  | majorVersion (major : Nat)
  | noSecurityType (value : Nat)
  | securityResult (value : Nat)
  | reasonTooLong (size : Nat)
  | nameTooLong (size : Nat)
  | tooManyEncodings
  | truncatedPixel
  | clipboardTooLong
  | unsupportedEncoding (encoding : Encoding)
  | unknownMessage (kind : UInt8)
  | cutTextTooLong (length : Nat)
  deriving DecidableEq

/-- An I/O failure keeps what was being done; the system's own kind and text are
left out. -/
inductive VncError where
  | io (what : String)
  | protocol (fault : ProtocolFault)
  | unsupportedSecurity (offered : List String)
  | authenticationRejected (reason : String)
  | geometry (text : String)
  deriving DecidableEq

/-! ### Pixel formats -/

/-- `PixelFormat`: how a pixel is laid out, channel by channel. -/
structure PixelFormat where
  bitsPerPixel : UInt8
  depth : UInt8
  bigEndian : Bool
  trueColour : Bool
  redMax : UInt16
  greenMax : UInt16
  blueMax : UInt16
  redShift : UInt8
  greenShift : UInt8
  blueShift : UInt8
  deriving DecidableEq, Repr

/-- The format this client asks every server for. -/
def preferredPixelFormat : PixelFormat where
  bitsPerPixel := 32
  depth := 24
  bigEndian := false
  trueColour := true
  redMax := 255
  greenMax := 255
  blueMax := 255
  redShift := 16
  greenShift := 8
  blueShift := 0

namespace PixelFormat

/-- The sixteen bytes of a pixel format. -/
def encode (format : PixelFormat) : Bytes :=
  [format.bitsPerPixel, format.depth, format.bigEndian.toUInt8, format.trueColour.toUInt8] ++
    be 2 format.redMax.toNat ++ be 2 format.greenMax.toNat ++ be 2 format.blueMax.toNat ++
    [format.redShift, format.greenShift, format.blueShift, 0, 0, 0]

/-- Sixteen bytes; the last three are padding. -/
def decode (bytes : FixedBytes 16) : PixelFormat :=
  let byte (i : Nat) : UInt8 := bytes.1.getD i 0
  let word (i : Nat) : UInt16 := .ofNat (ofBe [byte i, byte (i + 1)])
  { bitsPerPixel := byte 0, depth := byte 1, bigEndian := byte 2 ≠ 0, trueColour := byte 3 ≠ 0,
    redMax := word 4, greenMax := word 6, blueMax := word 8,
    redShift := byte 10, greenShift := byte 11, blueShift := byte 12 }

/-- Bytes a single pixel occupies on the wire. -/
def bytesPerPixel (format : PixelFormat) : Nat := (format.bitsPerPixel.toNat + 7) / 8

/-- One channel, rescaled to eight bits.  The shift takes the count modulo 32,
as the release build's does. -/
def component (value : UInt32) (max : UInt16) (shift : UInt8) : UInt32 :=
  if max = 0 then 0
  else ((value >>> shift.toUInt32) &&& max.toUInt32) * 255 / max.toUInt32

/-- Decode one pixel to `0xRRGGBB`. -/
def decodePixel (format : PixelFormat) (raw : Bytes) : Except VncError UInt32 :=
  let step := format.bytesPerPixel
  if raw.length < step then .error (.protocol .truncatedPixel)
  else
    let bytes := if format.bigEndian then raw.take step else (raw.take step).reverse
    let value := bytes.foldl (fun (acc : UInt32) byte => (acc <<< 8) ||| byte.toUInt32) 0
    if !format.trueColour then
      -- an index into a colour map is shown as a grey level
      let mask : UInt32 :=
        if format.bitsPerPixel ≥ 8 then 0xff
        else ((1 : UInt32) <<< format.bitsPerPixel.toUInt32) - 1
      let level := (value &&& mask) * 255 / max mask 1
      .ok ((level <<< 16) ||| (level <<< 8) ||| level)
    else
      .ok ((component value format.redMax format.redShift <<< 16) |||
        (component value format.greenMax format.greenShift <<< 8) |||
        component value format.blueMax format.blueShift)

end PixelFormat

/-! ### Client messages -/

def encodeSetPixelFormat (format : PixelFormat) : Bytes := [0, 0, 0, 0] ++ format.encode

def encodeSetEncodings (encodings : List Encoding) : Except VncError Bytes :=
  if encodings.length < 2 ^ 16 then
    .ok ([2, 0] ++ be 2 encodings.length ++
      encodings.flatMap fun encoding => be 4 encoding.code.toUInt32.toNat)
  else .error (.protocol .tooManyEncodings)

def encodeFramebufferUpdateRequest (incremental : Bool) (x y width height : UInt16) : Bytes :=
  [3, incremental.toUInt8] ++ be 2 x.toNat ++ be 2 y.toNat ++ be 2 width.toNat ++
    be 2 height.toNat

def encodeKeyEvent (down : Bool) (keysym : UInt32) : Bytes :=
  [4, down.toUInt8, 0, 0] ++ be 4 keysym.toNat

def encodePointerEvent (buttons : UInt8) (x y : UInt16) : Bytes :=
  [5, buttons] ++ be 2 x.toNat ++ be 2 y.toNat

/-- `encode_client_cut_text`; the text goes as UTF-8. -/
def encodeClientCutText (text : String) : Except VncError Bytes :=
  if text.utf8ByteSize < 2 ^ 32 then
    .ok ([6, 0, 0, 0] ++ be 4 text.utf8ByteSize ++ text.toUTF8.toList)
  else .error (.protocol .clipboardTooLong)

/-! ### Rectangles -/

/-- A rectangle of a framebuffer update that this client can draw. -/
inductive Rectangle where
  | raw (x y width height : UInt16) (pixels : Bytes)
  | copyRect (x y width height srcX srcY : UInt16)
  | solid (x y width height : UInt16) (pixel : Bytes)
  | desktopSize (width height : UInt16)
  deriving DecidableEq, Repr

end Vnc

end RdEngine
