/-
RdEngine/Vnc/Messages.lean

The messages of the server, as the client reads them (`read_message` of
`vnc/mod.rs` and the decoders of `vnc/protocol.rs`), as programs over the bytes
of the connection.

How many bytes a rectangle takes depends on the pixel format the client reads it
with.  The size a session keeps of its own (`VncSession::info`) is left out: a
live session asks for it only before the first message.
-/
import RdEngine.Vnc.Live
import RdEngine.Vnc.Session

namespace RdEngine

open Dialogue

namespace Vnc

open Words (be ofBe)

/-! ### Framebuffer updates -/

/-- The twelve bytes in front of a rectangle. -/
structure RectangleHeader where
  x : UInt16
  y : UInt16
  width : UInt16
  height : UInt16
  encoding : Encoding

def parseRectangleHeader (header : Bytes) : RectangleHeader :=
  let word (i : Nat) : UInt16 := .ofNat (ofBe ((header.drop i).take 2))
  { x := word 0, y := word 2, width := word 4, height := word 6,
    encoding := .fromCode (UInt32.ofNat (ofBe (header.drop 8))).toInt32 }

/-- The body of a rectangle; a cursor shape is read and not drawn. -/
def readRectangle (format : PixelFormat) (header : RectangleHeader) :
    VncProg (Option Rectangle) :=
  let area := header.width.toNat * header.height.toNat
  match header.encoding with
  | .raw => do
    let pixels ← readExact "raw rectangle" (area * format.bytesPerPixel)
    return some (.raw header.x header.y header.width header.height pixels)
  | .copyRect => do
    let source ← readExact "copyrect source" 4
    return some (.copyRect header.x header.y header.width header.height
      (.ofNat (ofBe (source.take 2))) (.ofNat (ofBe (source.drop 2))))
  | .desktopSize => return some (.desktopSize header.width header.height)
  | .extendedDesktopSize => do
    let screenCount ← readExact "extended desktop size" 4
    let _ ← readExact "extended desktop size screens" ((screenCount.getD 3 0).toNat * 16)
    return some (.desktopSize header.width header.height)
  | .cursor => do
    let _ ← readExact "cursor rectangle" (area * format.bytesPerPixel + (area + 7) / 8)
    return none
  | .xCursor => do
    let _ ← readExact "cursor rectangle" (area * format.bytesPerPixel + (area + 7) / 8 + 6)
    return none
  | other => failWith (.protocol (.unsupportedEncoding other))

/-- The rectangles of an update, given their number. -/
def decodeFramebufferUpdate (format : PixelFormat) : Nat → VncProg (List Rectangle)
  | 0 => return []
  | count + 1 => do
    let header ← readExact "rectangle header" 12
    let rectangle ← readRectangle format (parseRectangleHeader header)
    let rest ← decodeFramebufferUpdate format count
    return rectangle.toList ++ rest

/-! ### Messages -/

/-- The longest clipboard that is taken. -/
def maxCutText : Nat := 2 ^ 20

def decodeServerCutText : VncProg String := do
  let lengthBytes ← readExact "cut text length" 4
  let length := ofBe lengthBytes
  if length > maxCutText then failWith (.protocol (.cutTextTooLong length))
  else
    let bytes ← readExact "cut text body" length
    return .ofList (Text.fromUtf8Lossy bytes)

/-- A framebuffer cannot be resized to nothing. -/
def emptySize : Rectangle → Bool
  | .desktopSize width height => width = 0 ∨ height = 0
  | _ => false

/-- Read one message with the session's pixel format. -/
def readMessage (format : PixelFormat) : VncProg ServerMessage := do
  let kind ← readExact "message type" 1
  if kind = [0] then
    let header ← readExact "update header" 3
    let rectangles ← decodeFramebufferUpdate format (ofBe (header.drop 1))
    if rectangles.any emptySize then
      failWith (.geometry "server resized the framebuffer to zero")
    else return .framebufferUpdate rectangles
  else if kind = [1] then
    let header ← readExact "colour map header" 5
    let count := ofBe (header.drop 3)
    let _ ← readExact "colour map entries" (count * 6)
    return .colourMapIgnored count
  else if kind = [2] then return .bell
  else if kind = [3] then
    let _ ← readExact "cut text padding" 3
    return .clipboard (← decodeServerCutText)
  else failWith (.protocol (.unknownMessage (kind.getD 0 0)))

/-- What `VncLive::open` takes over from the server's initialisation. -/
def LiveSession.of (init : ServerInit) : LiveSession := ⟨init.format, init.width, init.height⟩

end Vnc

end RdEngine
