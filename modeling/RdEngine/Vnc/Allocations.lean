/-
RdEngine/Vnc/Allocations.lean

What a server can make the client allocate.

The programs of the client are written again with notes: of the buffers whose
length comes out of the stream, of the framebuffer sizes the client takes over,
and of what it has read when it does so.  Without their notes they are the
programs of the other modules (`erase_session`).  The size of a framebuffer is
checked where the session begins and nowhere else; so a session stays within
`MAX_FRAMEBUFFER_PIXELS` as long as what the server sends later does
(`session_allocations_bounded`).
-/
import Mathlib.Data.List.TakeWhile
import RdEngine.Lib.Notes
import RdEngine.Vnc.Messages
import RdEngine.Vnc.Resize

namespace RdEngine

open Dialogue

namespace Vnc

open Dialogue.Prog (note bare notes erase Keeps)
open Words (be ofBe)

/-! ### The session without notes -/

/-- The reader's buffer after a message: an update is drawn, and the buffer then
put in the shared slot. -/
def Picture.shown (picture : Picture) (format : PixelFormat) : ServerMessage → Picture
  | .framebufferUpdate rectangles =>
    let drawn := picture.apply format rectangles
    { drawn with pixels := (takeBuffer drawn.pixels).2 }
  | _ => picture

/-- So many messages of the server. -/
def serve (format : PixelFormat) : Nat → Picture → VncProg Picture
  | 0, picture => return picture
  | n + 1, picture => do
    let message ← readMessage format
    serve format n (picture.shown format message)

/-- A connection from its first byte on. -/
def session (password : Option Bytes) (n : Nat) : VncProg Picture := do
  let _ ← negotiate password
  let init ← opening
  serve init.format n (.blank init.width.toNat init.height.toNat)

/-! ### Notes -/

/-- What is noted along the way. -/
inductive Note where
  /-- The server's initialisation was read. -/
  | init (format : PixelFormat) (width height : UInt16)
  /-- The header of a rectangle was read. -/
  | header (format : PixelFormat) (rectangle : RectangleHeader)
  /-- The rectangles of an update were read. -/
  | update (format : PixelFormat) (rectangles : List Rectangle)
  /-- A buffer is allocated, in a session with this pixel format. -/
  | allocates (format : PixelFormat) (bytes : Nat)
  /-- A framebuffer size is taken over. -/
  | adopts (width height : Nat)

abbrev NotedProg (α : Type) : Type := Prog (Option UInt8) (UInt8 ⊕ Note) VncFault α

/-- The vector of an update's rectangles holds so many bytes for each, or fewer. -/
def rectangleSlot : Nat := 40

namespace Noted

/-- A buffer of so many bytes, and as many read into it. -/
def readBuffer (format : PixelFormat) (what : String) (length : Nat) : NotedProg Bytes := do
  note (.allocates format length)
  bare (readExact what length)

/-! ### The client with notes -/

def readReason : NotedProg String := do
  let length ← bare (readExact "reason length" 4)
  let size := ofBe length
  if size > 4096 then bare (failWith (.protocol (.reasonTooLong size)))
  else
    let body ← readBuffer preferredPixelFormat "reason body" size
    return .ofList (Text.fromUtf8Lossy body)

/-- The server has refused the client, and may say why. -/
def rejected {α : Type} (otherwise : String) : NotedProg α := do
  let reason ← readReason.attempt
  bare (failWith (.authenticationRejected (reason.toOption.getD otherwise)))

def securityResult (code : Bytes) : NotedProg Unit :=
  let value := if code = [1, 0, 0, 0] then securityResultFailed else ofBe code
  if value = securityResultOk then .done ()
  else if value = securityResultFailed then
    bare (failWith (.authenticationRejected "server rejected the password"))
  else if value = securityResultTooMany then rejected "too many attempts"
  else bare (failWith (.protocol (.securityResult value)))

def readSecurityResult : NotedProg Unit := do
  let code ← bare (readExact "security result" 4)
  securityResult code

def vncAuthenticate (password : Option Bytes) : NotedProg Unit := do
  let challenge ← bare (readExact "authentication challenge" 16)
  match FixedBytes.fromSlice 16 challenge with
  | none => .fail .panicked
  | some challenge =>
    bare (writeAll (Auth.answerChallenge (password.getD []) challenge))
    readSecurityResult

def decidedSecurity (password : Option Bytes) (raw : Nat) : NotedProg SecurityType :=
  let security := SecurityType.fromCode (.ofNat raw)
  if raw ≠ security.code.toNat then bare (failWith (.protocol (.noSecurityType raw)))
  else if !security.isSupported then bare (failWith (.unsupportedSecurity [security.label]))
  else if security = .vncAuthentication then do
    vncAuthenticate password
    return security
  else .done security

def offeredSecurity (password : Option Bytes) (offered : Bytes) : NotedProg SecurityType :=
  let types := offered.map SecurityType.fromCode
  match chosenType password types with
  | none => bare (failWith (.unsupportedSecurity (types.map SecurityType.label)))
  | some chosen => do
    bare (writeAll [chosen.code])
    if chosen = .vncAuthentication then vncAuthenticate password else readSecurityResult
    return chosen

def securityList (password : Option Bytes) (count : Nat) : NotedProg SecurityType :=
  if count = 0 then rejected "server refused the connection"
  else do
    let offered ← readBuffer preferredPixelFormat "security list" count
    offeredSecurity password offered

/-- The security phase, by the version. -/
def negotiateSecurity (serverMinor : Nat) (password : Option Bytes) : NotedProg SecurityType :=
  if serverMinor < 7 then do
    let code ← bare (readExact "security type" 4)
    decidedSecurity password (ofBe code)
  else do
    let count ← bare (readExact "security count" 1)
    securityList password (ofBe count)

/-- The banner, and then the security phase. -/
def negotiate (password : Option Bytes) : NotedProg (List Char × Nat × SecurityType) := do
  let bytes ← bare (readExact "version banner" 12)
  match parseBanner bytes with
  | .error fault => .fail fault
  | .ok (version, minor) =>
    bare (writeAll (versionAnswer minor))
    let security ← negotiateSecurity minor password
    return (version, minor, security)

/-- `initialise`: the first message of the server after the security phase. -/
def initialise : NotedProg ServerInit := do
  let header ← bare (readExact "server init" 24)
  match parseServerInit header with
  | .error fault => .fail fault
  | .ok (width, height, format, nameLength) =>
    note (.init format width height)
    let name ← readBuffer format "server name" nameLength
    note (.adopts width.toNat height.toNat)
    bare (writeAll (encodeSetPixelFormat preferredPixelFormat))
    match encodeSetEncodings [.raw] with
    | .error e => bare (failWith e)
    | .ok encodings =>
      bare (writeAll encodings)
      return ⟨width, height, format, Text.fromUtf8Lossy name⟩

/-- What a session does first: it takes the framebuffer over, and asks for all of it. -/
def opening : NotedProg ServerInit := do
  let init ← initialise
  bare (requestFullUpdate init.width init.height)
  return init

/-- The contents of a rectangle, by its encoding. -/
def readRectangle (format : PixelFormat) (header : RectangleHeader) :
    NotedProg (Option Rectangle) :=
  let area := header.width.toNat * header.height.toNat
  match header.encoding with
  | .raw => do
    let pixels ← readBuffer format "raw rectangle" (area * format.bytesPerPixel)
    return some (.raw header.x header.y header.width header.height pixels)
  | .copyRect => do
    let source ← bare (readExact "copyrect source" 4)
    return some (.copyRect header.x header.y header.width header.height
      (.ofNat (ofBe (source.take 2))) (.ofNat (ofBe (source.drop 2))))
  | .desktopSize => return some (.desktopSize header.width header.height)
  | .extendedDesktopSize => do
    let screenCount ← bare (readExact "extended desktop size" 4)
    let _ ← readBuffer format "extended desktop size screens" ((screenCount.getD 3 0).toNat * 16)
    return some (.desktopSize header.width header.height)
  | .cursor => do
    let _ ← readBuffer format "cursor rectangle" (area * format.bytesPerPixel + (area + 7) / 8)
    return none
  | .xCursor => do
    let _ ← readBuffer format "cursor rectangle"
      (area * format.bytesPerPixel + (area + 7) / 8 + 6)
    return none
  | other => bare (failWith (.protocol (.unsupportedEncoding other)))

/-- The rectangles of an update, one after the other. -/
def decodeRectangles (format : PixelFormat) : Nat → NotedProg (List Rectangle)
  | 0 => return []
  | count + 1 => do
    let header ← bare (readExact "rectangle header" 12)
    note (.header format (parseRectangleHeader header))
    let rectangle ← readRectangle format (parseRectangleHeader header)
    let rest ← decodeRectangles format count
    return rectangle.toList ++ rest

def decodeFramebufferUpdate (format : PixelFormat) (count : Nat) : NotedProg (List Rectangle) := do
  note (.allocates format (count * rectangleSlot))
  decodeRectangles format count

def decodeServerCutText (format : PixelFormat) : NotedProg String := do
  let lengthBytes ← bare (readExact "cut text length" 4)
  let length := ofBe lengthBytes
  if length > maxCutText then bare (failWith (.protocol (.cutTextTooLong length)))
  else
    let bytes ← readBuffer format "cut text body" length
    return .ofList (Text.fromUtf8Lossy bytes)

/-- The session takes over the sizes among the rectangles one by one, up to an
empty one. -/
def adoptSizes : List Rectangle → NotedProg Unit
  | [] => return ()
  | .desktopSize width height :: rest =>
    if width = 0 ∨ height = 0 then
      bare (failWith (.geometry "server resized the framebuffer to zero"))
    else do
      note (.adopts width.toNat height.toNat)
      adoptSizes rest
  | _ :: rest => adoptSizes rest

def readMessage (format : PixelFormat) : NotedProg ServerMessage := do
  let kind ← bare (readExact "message type" 1)
  if kind = [0] then
    let header ← bare (readExact "update header" 3)
    let rectangles ← decodeFramebufferUpdate format (ofBe (header.drop 1))
    note (.update format rectangles)
    adoptSizes rectangles
    return .framebufferUpdate rectangles
  else if kind = [1] then
    let header ← bare (readExact "colour map header" 5)
    let count := ofBe (header.drop 3)
    let _ ← readBuffer format "colour map entries" (count * 6)
    return .colourMapIgnored count
  else if kind = [2] then return .bell
  else if kind = [3] then
    let _ ← bare (readExact "cut text padding" 3)
    return .clipboard (← decodeServerCutText format)
  else bare (failWith (.protocol (.unknownMessage (kind.getD 0 0))))

/-- Copying a region goes through a buffer of its size. -/
def stage (format : PixelFormat) : List Rectangle → NotedProg Unit
  | [] => return ()
  | .copyRect _ _ width height _ _ :: rest => do
    note (.allocates format (width.toNat * rgbaBytesPerPixel * height.toNat))
    stage format rest
  | _ :: rest => stage format rest

/-- A framebuffer of a new size. -/
def resize (format : PixelFormat) : Option (Nat × Nat) → NotedProg Unit
  | some (width, height) => do
    note (.allocates format (width * height * rgbaBytesPerPixel))
    note (.adopts width height)
  | none => return ()

/-- An update is drawn and put in the shared slot. -/
def shown (picture : Picture) (format : PixelFormat) : ServerMessage → NotedProg Picture
  | .framebufferUpdate rectangles => do
    stage format rectangles
    let drawn := picture.apply format rectangles
    resize format
      (applyRectangles id picture.width picture.height format rectangles picture.pixels).2
    note (.allocates format drawn.pixels.length)
    return { drawn with pixels := (takeBuffer drawn.pixels).2 }
  | _ => return picture

def serve (format : PixelFormat) : Nat → Picture → NotedProg Picture
  | 0, picture => return picture
  | n + 1, picture => do
    let message ← readMessage format
    let picture ← shown picture format message
    serve format n picture

/-- A session: the security phase, and so many messages. -/
def session (password : Option Bytes) (n : Nat) : NotedProg Picture := do
  let _ ← negotiate password
  let init ← opening
  note (.allocates init.format (init.width.toNat * init.height.toNat * rgbaBytesPerPixel))
  serve init.format n (.blank init.width.toNat init.height.toNat)

/-! ### Without the notes -/

section Erase

variable (password : Option Bytes) (format : PixelFormat)

@[simp] theorem erase_readBuffer (what : String) (length : Nat) :
    (readBuffer format what length).erase = readExact what length := by
  rw [readBuffer, Prog.erase_bind, Prog.erase_bare]
  rfl

theorem erase_readReason : readReason.erase = Vnc.readReason := by
  simp only [readReason, Prog.erase_bind, Prog.erase_bare, Prog.erase_ite, erase_readBuffer]
  rfl

theorem erase_rejected {α : Type} (otherwise : String) :
    (rejected otherwise : NotedProg α).erase = Vnc.rejected otherwise := by
  simp only [rejected, Prog.erase_bind, Prog.erase_bare, Prog.erase_attempt, erase_readReason]
  rfl

theorem erase_securityResult (code : Bytes) :
    (securityResult code).erase = Vnc.securityResult code := by
  simp only [securityResult, Prog.erase_ite, Prog.erase_bare, erase_rejected]
  rfl

theorem erase_readSecurityResult : readSecurityResult.erase = Vnc.readSecurityResult := by
  simp only [readSecurityResult, Prog.erase_bind, Prog.erase_bare, erase_securityResult]
  rfl

theorem erase_vncAuthenticate :
    (vncAuthenticate password).erase = Vnc.vncAuthenticate password := by
  simp only [vncAuthenticate, Prog.erase_bind, Prog.erase_bare, Vnc.vncAuthenticate]
  refine congrArg (_ >>= ·) (funext fun challenge => ?_)
  cases FixedBytes.fromSlice 16 challenge with
  | none => rfl
  | some challenge =>
    simp only [Prog.erase_bind, Prog.erase_bare, erase_readSecurityResult]

theorem erase_decidedSecurity (raw : Nat) :
    (decidedSecurity password raw).erase = Vnc.decidedSecurity password raw := by
  simp only [decidedSecurity, Prog.erase_ite, Prog.erase_bind, Prog.erase_bare,
    erase_vncAuthenticate]
  rfl

theorem erase_offeredSecurity (offered : Bytes) :
    (offeredSecurity password offered).erase = Vnc.offeredSecurity password offered := by
  simp only [offeredSecurity, Vnc.offeredSecurity]
  cases chosenType password (offered.map SecurityType.fromCode) with
  | none => rfl
  | some chosen =>
    simp only [Prog.erase_ite, Prog.erase_bind, Prog.erase_bare, erase_vncAuthenticate,
      erase_readSecurityResult]
    rfl

theorem erase_securityList (count : Nat) :
    (securityList password count).erase = Vnc.securityList password count := by
  simp only [securityList, Prog.erase_ite, Prog.erase_bind, erase_rejected, erase_readBuffer,
    erase_offeredSecurity]
  rfl

theorem erase_negotiateSecurity (minor : Nat) :
    (negotiateSecurity minor password).erase = Vnc.negotiateSecurity minor password := by
  simp only [negotiateSecurity, Prog.erase_ite, Prog.erase_bind, Prog.erase_bare,
    erase_decidedSecurity, erase_securityList]
  rfl

theorem erase_negotiate : (negotiate password).erase = Vnc.negotiate password := by
  simp only [negotiate, Prog.erase_bind, Prog.erase_bare, Vnc.negotiate]
  refine congrArg (_ >>= ·) (funext fun bytes => ?_)
  rcases parseBanner bytes with fault | ⟨version, minor⟩
  · rfl
  · simp only [Prog.erase_bind, Prog.erase_bare, erase_negotiateSecurity]
    rfl

theorem erase_initialise : initialise.erase = Vnc.initialise := by
  simp only [initialise, Prog.erase_bind, Prog.erase_bare, Vnc.initialise]
  refine congrArg (_ >>= ·) (funext fun header => ?_)
  rcases parseServerInit header with fault | ⟨width, height, format, nameLength⟩
  · rfl
  · simp only [Prog.erase_bind, Prog.erase_bare, erase_readBuffer]
    rfl

theorem erase_opening : opening.erase = Vnc.opening := by
  simp only [opening, Prog.erase_bind, Prog.erase_bare, erase_initialise]
  rfl

theorem erase_readRectangle (header : RectangleHeader) :
    (readRectangle format header).erase = Vnc.readRectangle format header := by
  unfold readRectangle Vnc.readRectangle
  cases header.encoding with
  | raw | copyRect | extendedDesktopSize | cursor | xCursor =>
    simp only [Prog.erase_bind, Prog.erase_bare, erase_readBuffer]
    rfl
  | desktopSize => rfl
  | _ => rfl

theorem erase_decodeRectangles (count : Nat) :
    (decodeRectangles format count).erase = Vnc.decodeFramebufferUpdate format count := by
  induction count with
  | zero => rfl
  | succ count ih =>
    simp only [decodeRectangles, Prog.erase_bind, Prog.erase_bare, erase_readRectangle, ih]
    rfl

theorem erase_decodeServerCutText :
    (decodeServerCutText format).erase = Vnc.decodeServerCutText := by
  simp only [decodeServerCutText, Prog.erase_bind, Prog.erase_bare, Prog.erase_ite,
    erase_readBuffer]
  rfl

/-- An empty size is an error, wherever it stands. -/
theorem erase_adoptSizes (rectangles : List Rectangle) :
    (adoptSizes rectangles).erase = if rectangles.any emptySize then
      failWith (.geometry "server resized the framebuffer to zero") else .done () := by
  induction rectangles with
  | nil => rfl
  | cons rectangle rest ih =>
    cases rectangle with
    | desktopSize width height =>
      rw [adoptSizes, Prog.erase_ite, Prog.erase_bind, ih, Prog.erase_bare, List.any_cons,
        emptySize]
      by_cases hempty : width = 0 ∨ height = 0
      · rw [if_pos hempty, decide_eq_true hempty, Bool.true_or, if_pos rfl]
      · rw [if_neg hempty, decide_eq_false hempty, Bool.false_or]
        rfl
    | raw | copyRect | solid => exact ih

theorem erase_readMessage : (readMessage format).erase = Vnc.readMessage format := by
  simp only [readMessage, Prog.erase_bind, Prog.erase_bare, Prog.erase_ite, erase_readBuffer,
    erase_decodeServerCutText, decodeFramebufferUpdate, erase_decodeRectangles, erase_adoptSizes,
    Vnc.readMessage]
  refine congrArg (_ >>= ·) (funext fun kind => ?_)
  split_ifs
  · refine congrArg (_ >>= ·) (funext fun header => ?_)
    refine congrArg (Vnc.decodeFramebufferUpdate format _ >>= ·) (funext fun rectangles => ?_)
    cases rectangles.any emptySize <;> rfl
  all_goals rfl

theorem erase_stage (rectangles : List Rectangle) :
    (stage format rectangles).erase = .done () := by
  induction rectangles with
  | nil => rfl
  | cons rectangle rest ih => cases rectangle <;> exact ih

theorem erase_shown (picture : Picture) (message : ServerMessage) :
    (shown picture format message).erase = .done (picture.shown format message) := by
  cases message with
  | framebufferUpdate rectangles =>
    simp only [shown, Prog.erase_bind, erase_stage]
    cases (applyRectangles id picture.width picture.height format rectangles picture.pixels).2 <;>
      rfl
  | clipboard text => rfl
  | bell => rfl
  | colourMapIgnored entries => rfl

theorem erase_serve (n : Nat) (picture : Picture) :
    (serve format n picture).erase = Vnc.serve format n picture := by
  induction n generalizing picture with
  | zero => rfl
  | succ n ih =>
    simp only [serve, Prog.erase_bind, erase_readMessage, erase_shown, ih, Prog.done_bind]
    rfl

/-- **Without its notes the session is the client's.** -/
theorem erase_session (n : Nat) : (session password n).erase = Vnc.session password n := by
  simp only [session, Prog.erase_bind, erase_negotiate, erase_opening, erase_serve]
  rfl

end Erase

end Noted

/-! ### The bound -/

/-- The largest framebuffer, in pixels of the session's format. -/
def maxBuffer (format : PixelFormat) : Nat := maxFramebufferPixels * format.bytesPerPixel

/-- What the client does is within the bound. -/
def Note.Bounded : Note → Prop
  | .allocates format bytes => bytes ≤ maxBuffer format
  | .adopts width height => width ≠ 0 ∧ height ≠ 0 ∧ width * height ≤ maxFramebufferPixels
  | _ => True

/-- The rectangle of a header is within the bound, with what is read for it. -/
def HeaderFits (format : PixelFormat) (header : RectangleHeader) : Prop :=
  let area := header.width.toNat * header.height.toNat
  match header.encoding with
  | .raw => area ≤ maxFramebufferPixels
  | .cursor => area * format.bytesPerPixel + (area + 7) / 8 ≤ maxBuffer format
  | .xCursor => area * format.bytesPerPixel + (area + 7) / 8 + 6 ≤ maxBuffer format
  | _ => True

/-- The sizes of an update are within the bound; and, if none is empty, so are the
regions it copies and the size it ends with, at four bytes a pixel. -/
structure UpdateFits (format : PixelFormat) (rectangles : List Rectangle) : Prop where
  sizes : ∀ width height, .desktopSize width height ∈ rectangles.takeWhile (!emptySize ·) →
    width.toNat * height.toNat ≤ maxFramebufferPixels
  copies : rectangles.any emptySize = false → ∀ x y width height srcX srcY,
    .copyRect x y width height srcX srcY ∈ rectangles →
      width.toNat * rgbaBytesPerPixel * height.toNat ≤ maxBuffer format
  resize : rectangles.any emptySize = false → ∀ size, resized rectangles = some size →
    size.1.toNat * size.2.toNat * rgbaBytesPerPixel ≤ maxBuffer format

/-- What the client has come upon is within the bound. -/
def Note.Fits : Note → Prop
  | .init format width height =>
    width.toNat * height.toNat * rgbaBytesPerPixel ≤ maxBuffer format
  | .header format rectangle => HeaderFits format rectangle
  | .update format rectangles => UpdateFits format rectangles
  | _ => True

namespace Noted

/-- The contract of the client's programs. -/
abbrev Held {α : Type} (Q : α → Prop) (p : NotedProg α) : Prop := Keeps Note.Fits Note.Bounded Q p

section Contract

variable {format : PixelFormat}

theorem le_maxBuffer {n : Nat} (hstep : 0 < format.bytesPerPixel) (hn : n ≤ maxFramebufferPixels) :
    n ≤ maxBuffer format :=
  hn.trans (Nat.le_mul_of_pos_right _ hstep)

theorem held_readExact (what : String) (n : Nat) :
    Held (fun bytes => bytes.length = n) (bare (readExact what n)) := by
  induction n with
  | zero => exact rfl
  | succ n ih =>
    intro i
    cases i with
    | none => trivial
    | some b =>
      show Held _ (bare (readExact what n >>= fun bytes => .done (b :: bytes)))
      rw [Prog.bare_bind]
      exact ih.bind fun bytes hbytes => congrArg Nat.succ hbytes

theorem held_readBuffer (what : String) {length : Nat} (h : length ≤ maxBuffer format) :
    Held (fun bytes => bytes.length = length) (readBuffer format what length) := by
  have hnote : Note.Bounded (.allocates format length) := h
  exact (Keeps.note hnote).bind fun _ _ => held_readExact what length

theorem held_failWith {α : Type} {Q : α → Prop} (e : VncError) : Held Q (bare (failWith e)) :=
  trivial

theorem ofBe_lt {bytes : Bytes} {n : Nat} (h : bytes.length = n) : ofBe bytes < 256 ^ n := by
  rw [ofBe, ← h, ← List.length_reverse]
  exact Words.ofLe_lt bytes.reverse

theorem held_readReason : Held (fun _ => True) readReason := by
  refine (held_readExact _ _).bind fun length _ => ?_
  dsimp only
  split_ifs with hsize
  · exact held_failWith _
  · refine (held_readBuffer _ ?_).bind fun body _ => trivial
    exact le_maxBuffer (by decide) (by unfold maxFramebufferPixels; omega)

theorem held_rejected {α : Type} {Q : α → Prop} (otherwise : String) :
    Held Q (rejected otherwise) :=
  held_readReason.attempt.bind fun _ _ => held_failWith _

theorem held_securityResult (code : Bytes) : Held (fun _ => True) (securityResult code) := by
  unfold securityResult
  dsimp only
  split_ifs
  all_goals first
    | exact held_rejected _
    | exact trivial

theorem held_readSecurityResult : Held (fun _ => True) readSecurityResult :=
  (held_readExact _ _).bind fun code _ => held_securityResult code

theorem held_vncAuthenticate (password : Option Bytes) :
    Held (fun _ => True) (vncAuthenticate password) := by
  refine (held_readExact _ _).bind fun challenge _ => ?_
  split
  · trivial
  · exact (Keeps.bare _).bind fun _ _ => held_readSecurityResult

theorem held_decidedSecurity (password : Option Bytes) (raw : Nat) :
    Held (fun _ => True) (decidedSecurity password raw) := by
  unfold decidedSecurity
  dsimp only
  split_ifs
  · exact held_failWith _
  · exact held_failWith _
  · exact (held_vncAuthenticate password).bind fun _ _ => trivial
  · trivial

theorem held_offeredSecurity (password : Option Bytes) (offered : Bytes) :
    Held (fun _ => True) (offeredSecurity password offered) := by
  unfold offeredSecurity
  dsimp only
  split
  · exact held_failWith _
  · refine (Keeps.bare _).bind fun _ _ => ?_
    split_ifs
    · exact (held_vncAuthenticate password).bind fun _ _ => trivial
    · exact held_readSecurityResult.bind fun _ _ => trivial

theorem held_negotiateSecurity (minor : Nat) (password : Option Bytes) :
    Held (fun _ => True) (negotiateSecurity minor password) := by
  unfold negotiateSecurity
  split_ifs
  · exact (held_readExact _ _).bind fun code _ => held_decidedSecurity password _
  · refine (held_readExact _ _).bind fun count hcount => ?_
    have hlt := ofBe_lt hcount
    unfold securityList
    split_ifs
    · exact held_rejected _
    · refine (held_readBuffer _ ?_).bind fun offered _ => held_offeredSecurity password offered
      exact le_maxBuffer (by decide) (by unfold maxFramebufferPixels; omega)

theorem held_negotiate (password : Option Bytes) : Held (fun _ => True) (negotiate password) := by
  refine (held_readExact _ _).bind fun bytes _ => ?_
  split
  · trivial
  · refine (Keeps.bare _).bind fun _ _ => ?_
    exact (held_negotiateSecurity _ password).bind fun _ _ => trivial

theorem parseServerInit_ok {header : Bytes} {width height : UInt16} {format : PixelFormat}
    {nameLength : Nat} (h : parseServerInit header = .ok (width, height, format, nameLength)) :
    Note.Bounded (.adopts width.toNat height.toNat) ∧ nameLength ≤ 4096 := by
  have hword : ∀ bytes : Bytes, (UInt16.ofNat (ofBe (bytes.take 2))).toNat = ofBe (bytes.take 2) := by
    intro bytes
    have hlt := ofBe_lt (rfl : (bytes.take 2).length = _)
    have hle := Nat.pow_le_pow_right (n := 256) (by decide) (List.length_take_le 2 bytes)
    rw [UInt16.toNat_ofNat', Nat.mod_eq_of_lt (Nat.lt_of_lt_of_le hlt hle)]
  unfold parseServerInit at h
  dsimp only at h
  split_ifs at h with hempty hlarge hname
  · split at h <;> cases h
  · split at h
    · cases h
    · cases h
      rw [not_or] at hempty
      rw [Note.Bounded, hword, hword]
      exact ⟨⟨hempty.1, hempty.2, Nat.le_of_not_lt hlarge⟩, Nat.le_of_not_lt hname⟩

/-- A framebuffer with pixels shows that a pixel has bytes. -/
theorem bytesPerPixel_pos {width height : Nat} (hwidth : width ≠ 0) (hheight : height ≠ 0)
    (h : width * height * rgbaBytesPerPixel ≤ maxBuffer format) : 0 < format.bytesPerPixel := by
  rw [Nat.pos_iff_ne_zero]
  intro hzero
  rw [maxBuffer, hzero, Nat.mul_zero, Nat.le_zero, rgbaBytesPerPixel] at h
  have hpos := Nat.mul_pos (Nat.pos_of_ne_zero hwidth) (Nat.pos_of_ne_zero hheight)
  omega

/-- What is known of a session that has begun. -/
structure Opened (init : ServerInit) : Prop where
  step_pos : 0 < init.format.bytesPerPixel
  fits : init.width.toNat * init.height.toNat * rgbaBytesPerPixel ≤ maxBuffer init.format

theorem held_opening : Held Opened opening := by
  refine Keeps.bind (Q := Opened) ?_ fun init hinit =>
    (Keeps.bare _).bind fun _ _ => hinit
  refine (held_readExact _ _).bind fun header _ => ?_
  split
  · trivial
  · next width height format nameLength hparse =>
    obtain ⟨hsize, hname⟩ := parseServerInit_ok hparse
    refine (Keeps.note trivial).bind fun _ hinit => ?_
    have hstep := bytesPerPixel_pos hsize.1 hsize.2.1 hinit
    refine (held_readBuffer _ (le_maxBuffer hstep ?_)).bind fun name _ => ?_
    · unfold maxFramebufferPixels
      omega
    · refine (Keeps.note hsize).bind fun _ _ => (Keeps.bare _).bind fun _ _ => ?_
      split
      · trivial
      · exact (Keeps.bare _).bind fun _ _ => ⟨hstep, hinit⟩

theorem held_readRectangle (hstep : 0 < format.bytesPerPixel) {header : RectangleHeader}
    (h : HeaderFits format header) : Held (fun _ => True) (readRectangle format header) := by
  unfold HeaderFits at h
  unfold readRectangle
  dsimp only at h ⊢
  cases hencoding : header.encoding with
  | raw =>
    rw [hencoding] at h
    exact (held_readBuffer _ (Nat.mul_le_mul_right _ h)).bind fun _ _ => trivial
  | copyRect => exact (held_readExact _ _).bind fun _ _ => trivial
  | desktopSize => trivial
  | extendedDesktopSize =>
    refine (held_readExact _ _).bind fun screenCount _ => ?_
    refine (held_readBuffer _ (le_maxBuffer hstep ?_)).bind fun _ _ => trivial
    have hcount := (screenCount.getD 3 0).toNat_lt
    unfold maxFramebufferPixels
    omega
  | cursor =>
    rw [hencoding] at h
    exact (held_readBuffer _ h).bind fun _ _ => trivial
  | xCursor =>
    rw [hencoding] at h
    exact (held_readBuffer _ h).bind fun _ _ => trivial
  | _ => exact held_failWith _

theorem held_decodeRectangles (hstep : 0 < format.bytesPerPixel) (count : Nat) :
    Held (fun _ => True) (decodeRectangles format count) := by
  induction count with
  | zero => trivial
  | succ count ih =>
    refine (held_readExact _ _).bind fun header _ => ?_
    refine (Keeps.note trivial).bind fun _ hheader => ?_
    exact (held_readRectangle hstep hheader).bind fun _ _ => ih.bind fun _ _ => trivial

theorem held_decodeServerCutText (hstep : 0 < format.bytesPerPixel) :
    Held (fun _ => True) (decodeServerCutText format) := by
  refine (held_readExact _ _).bind fun lengthBytes _ => ?_
  dsimp only
  split_ifs with hlength
  · exact held_failWith _
  · refine (held_readBuffer _ (le_maxBuffer hstep ?_)).bind fun _ _ => trivial
    unfold maxCutText at hlength
    unfold maxFramebufferPixels
    omega

theorem held_adoptSizes {rectangles : List Rectangle}
    (h : ∀ width height, .desktopSize width height ∈ rectangles.takeWhile (!emptySize ·) →
      width.toNat * height.toNat ≤ maxFramebufferPixels) :
    Held (fun _ => rectangles.any emptySize = false) (adoptSizes rectangles) := by
  induction rectangles with
  | nil => exact rfl
  | cons rectangle rest ih =>
    cases rectangle with
    | desktopSize width height =>
      rw [adoptSizes]
      split_ifs with hempty
      · exact held_failWith _
      · -- a size that is not empty stands in front of the first that is
        have hfull : emptySize (.desktopSize width height) = false := decide_eq_false hempty
        rw [List.takeWhile_cons, hfull, if_pos (by rfl)] at h
        rw [not_or] at hempty
        have hadopts : Note.Bounded (.adopts width.toNat height.toNat) :=
          ⟨fun hzero => hempty.1 (UInt16.toNat_inj.mp hzero),
            fun hzero => hempty.2 (UInt16.toNat_inj.mp hzero), h _ _ List.mem_cons_self⟩
        refine (Keeps.note hadopts).bind fun _ _ => (ih fun width' height' hmem =>
          h width' height' (List.mem_cons_of_mem _ hmem)).imp fun _ hrest => ?_
        rw [List.any_cons, hfull, hrest]
        rfl
    | raw | copyRect | solid =>
      exact ih fun width height hmem => h width height (List.mem_cons_of_mem _ hmem)

/-- A message of the server, and of an update what the client knows of it then. -/
theorem held_readMessage (hstep : 0 < format.bytesPerPixel) :
    Held (fun message => ∀ rectangles, message = .framebufferUpdate rectangles →
      UpdateFits format rectangles ∧ rectangles.any emptySize = false) (readMessage format) := by
  refine (held_readExact _ _).bind fun kind _ => ?_
  split_ifs
  · refine (held_readExact _ _).bind fun header hheader => ?_
    have hcount : ofBe (header.drop 1) < 256 ^ 2 := ofBe_lt (by rw [List.length_drop, hheader])
    have hslots : Note.Bounded (.allocates format (ofBe (header.drop 1) * rectangleSlot)) := by
      refine le_maxBuffer hstep ?_
      unfold rectangleSlot maxFramebufferPixels
      omega
    refine ((Keeps.note hslots).bind fun _ _ => held_decodeRectangles hstep _).bind
      fun rectangles _ => ?_
    refine (Keeps.note trivial).bind fun _ hupdate => ?_
    refine (held_adoptSizes hupdate.sizes).bind fun _ hsizes => ?_
    rintro rectangles' ⟨⟩
    exact ⟨hupdate, hsizes⟩
  · refine (held_readExact _ _).bind fun header hheader => ?_
    have hcount : ofBe (header.drop 3) < 256 ^ 2 := ofBe_lt (by rw [List.length_drop, hheader])
    refine (held_readBuffer _ (le_maxBuffer hstep ?_)).bind fun _ _ => fun _ h => nomatch h
    unfold maxFramebufferPixels
    omega
  · exact fun _ h => nomatch h
  · refine (held_readExact _ _).bind fun padding _ => ?_
    refine (held_decodeServerCutText hstep).bind fun _ _ => fun _ h => nomatch h
  · trivial

theorem held_stage {rectangles : List Rectangle}
    (h : ∀ x y width height srcX srcY, .copyRect x y width height srcX srcY ∈ rectangles →
      width.toNat * rgbaBytesPerPixel * height.toNat ≤ maxBuffer format) :
    Held (fun _ => True) (stage format rectangles) := by
  induction rectangles with
  | nil => trivial
  | cons rectangle rest ih =>
    have hrest := ih fun x y width height srcX srcY hmem =>
      h x y width height srcX srcY (List.mem_cons_of_mem _ hmem)
    cases rectangle with
    | copyRect x y width height srcX srcY =>
      have hstaged : Note.Bounded
          (.allocates format (width.toNat * rgbaBytesPerPixel * height.toNat)) :=
        h _ _ _ _ _ _ List.mem_cons_self
      exact (Keeps.note hstaged).bind fun _ _ => hrest
    | raw | solid | desktopSize => exact hrest

/-- The reader's buffer has its size, and that is within the bound. -/
structure PictureFits (format : PixelFormat) (picture : Picture) : Prop where
  fits : picture.Fits
  bound : picture.width * picture.height * rgbaBytesPerPixel ≤ maxBuffer format

theorem snd_applyRectangles (width height : Nat) (rectangles : List Rectangle)
    (framebuffer : Bytes) :
    (applyRectangles id width height format rectangles framebuffer).2 =
      (resized rectangles).map (Prod.map UInt16.toNat UInt16.toNat) := by
  have hsize := (foldl_applyRectangle id width height format framebuffer rectangles).2
  rw [applyRectangles]
  rcases hfold : rectangles.foldl (applyRectangle id width height format) (framebuffer, none)
    with ⟨pixels, size⟩
  rw [hfold] at hsize
  rw [← hsize]
  cases size <;> rfl

/-- The size an update ends with was among those the session has taken over. -/
theorem adopts_resized {rectangles : List Rectangle} (hupdate : UpdateFits format rectangles)
    (hsizes : rectangles.any emptySize = false) {size : UInt16 × UInt16}
    (h : resized rectangles = some size) :
    Note.Bounded (.adopts size.1.toNat size.2.toNat) := by
  obtain ⟨rectangle, hmem, hsize⟩ := List.mem_filterMap.mp (List.mem_of_getLast? h)
  obtain rfl : rectangle = .desktopSize size.1 size.2 := by
    cases rectangle with
    | desktopSize width height =>
      cases hsize
      rfl
    | raw | copyRect | solid => cases hsize
  rw [List.any_eq_false] at hsizes
  have hfull := hsizes _ hmem
  have hall : rectangles.takeWhile (!emptySize ·) = rectangles :=
    List.takeWhile_eq_self_iff.mpr fun r hr => by rw [Bool.eq_false_of_not_eq_true (hsizes r hr)]; rfl
  rw [emptySize, decide_eq_true_eq, not_or] at hfull
  refine ⟨fun hzero => hfull.1 (UInt16.toNat_inj.mp hzero),
    fun hzero => hfull.2 (UInt16.toNat_inj.mp hzero), hupdate.sizes _ _ ?_⟩
  rw [hall]
  exact hmem

theorem held_shown {picture : Picture} (hpicture : PictureFits format picture)
    {message : ServerMessage} (h : ∀ rectangles, message = .framebufferUpdate rectangles →
      UpdateFits format rectangles ∧ rectangles.any emptySize = false) :
    Held (PictureFits format) (shown picture format message) := by
  cases message with
  | framebufferUpdate rectangles =>
    obtain ⟨hupdate, hsizes⟩ := h rectangles rfl
    have hdrawn : PictureFits format (picture.apply format rectangles) := by
      refine ⟨hpicture.fits.apply format rectangles, ?_⟩
      have hsize := picture.size_apply format rectangles
      cases hresized : resized rectangles with
      | none =>
        rw [hresized] at hsize
        obtain ⟨hwidth, hheight⟩ := Prod.mk.inj hsize
        rw [hwidth, hheight]
        exact hpicture.bound
      | some size =>
        rw [hresized] at hsize
        obtain ⟨hwidth, hheight⟩ := Prod.mk.inj hsize
        rw [hwidth, hheight]
        exact hupdate.resize hsizes size hresized
    refine (held_stage (hupdate.copies hsizes)).bind fun _ _ => ?_
    refine Keeps.bind (Q := fun _ => True) ?_ fun _ _ => ?_
    · rw [snd_applyRectangles]
      cases hresized : resized rectangles with
      | none => trivial
      | some size =>
        have hbuffer : Note.Bounded (.allocates format
            (size.1.toNat * size.2.toNat * rgbaBytesPerPixel)) :=
          hupdate.resize hsizes size hresized
        refine (Keeps.note hbuffer).bind fun _ _ => ?_
        exact (Keeps.note (adopts_resized hupdate hsizes hresized)).imp fun _ _ => trivial
    · have hlength : Note.Bounded (.allocates format
          (picture.apply format rectangles).pixels.length) := by
        rw [Note.Bounded, hdrawn.fits]
        exact hdrawn.bound
      exact (Keeps.note hlength).bind fun _ _ =>
        ⟨List.length_replicate.trans hdrawn.fits, hdrawn.bound⟩
  | clipboard text => exact hpicture
  | bell => exact hpicture
  | colourMapIgnored entries => exact hpicture

theorem held_serve (hstep : 0 < format.bytesPerPixel) (n : Nat) {picture : Picture}
    (hpicture : PictureFits format picture) :
    Held (fun _ => True) (serve format n picture) := by
  induction n generalizing picture with
  | zero => trivial
  | succ n ih =>
    refine (held_readMessage hstep).bind fun message hmessage => ?_
    exact (held_shown hpicture hmessage).bind fun picture hpicture => ih hpicture

theorem held_session (password : Option Bytes) (n : Nat) :
    Held (fun _ => True) (session password n) := by
  refine (held_negotiate password).bind fun _ _ => held_opening.bind fun init hinit => ?_
  have hblank : Note.Bounded (.allocates init.format
      (init.width.toNat * init.height.toNat * rgbaBytesPerPixel)) := hinit.fits
  refine (Keeps.note hblank).bind fun _ _ => ?_
  exact held_serve hinit.step_pos n ⟨Picture.fits_blank _ _, hinit.fits⟩

end Contract

end Noted

/-- **In every session in which what the server sends is within the bound, so is
what the client allocates and the sizes it takes over.** -/
theorem session_allocations_bounded (password : Option Bytes) (n : Nat) {is : List (Option UInt8)}
    {os : List (UInt8 ⊕ Note)} {r : Except VncFault Picture}
    (h : Prog.Exec (Noted.session password n) is os r) (hfits : ∀ note ∈ notes os, note.Fits) :
    ∀ note ∈ notes os, note.Bounded :=
  (Noted.held_session password n).exec h hfits

/-- A server of one pixel, up to its first message. -/
def pixelGreeting : Bytes :=
  banner [48, 48, 51] ++ [0, 0, 0, 1] ++ [0, 1, 0, 1] ++ preferredPixelFormat.encode ++ [0, 0, 0, 0]

theorem session_allocations_bounded_pixel :
    ∃ is os r, Prog.Exec (Noted.session none 1) is os r ∧
      (.update preferredPixelFormat [.raw 0 0 1 1 [1, 2, 3, 4]]) ∈ notes os ∧
      ∀ note ∈ notes os, note.Bounded := by
  obtain ⟨is, r, hexec⟩ := Prog.exec_drive (Noted.session none 1)
    ((pixelGreeting ++ ([0, 0, 0, 1] ++ [0, 0, 0, 0, 0, 1, 0, 1, 0, 0, 0, 0] ++
      [1, 2, 3, 4])).map some) .panicked
  obtain ⟨os, hos⟩ : ∃ os, ((Noted.session none 1).drive ((pixelGreeting ++ ([0, 0, 0, 1] ++
    [0, 0, 0, 0, 0, 1, 0, 1, 0, 0, 0, 0] ++ [1, 2, 3, 4])).map some)).sent = os := ⟨_, rfl⟩
  have hnotes : notes os = [.init preferredPixelFormat 1 1, .allocates preferredPixelFormat 0,
      .adopts 1 1, .allocates preferredPixelFormat 4, .allocates preferredPixelFormat 40,
      .header preferredPixelFormat ⟨0, 0, 1, 1, .raw⟩, .allocates preferredPixelFormat 4,
      .update preferredPixelFormat [.raw 0 0 1 1 [1, 2, 3, 4]],
      .allocates preferredPixelFormat 4] := by
    rw [← hos]
    rfl
  rw [hos] at hexec
  have hinit : Note.Fits (.init preferredPixelFormat 1 1) := by
    unfold Note.Fits
    decide
  have hheader : Note.Fits (.header preferredPixelFormat ⟨0, 0, 1, 1, .raw⟩) := by
    show (1 : Nat) ≤ maxFramebufferPixels
    decide
  have hupdate : Note.Fits (.update preferredPixelFormat [.raw 0 0 1 1 [1, 2, 3, 4]]) :=
    ⟨by simp [emptySize], by simp, by simp [resized, Rectangle.size?]⟩
  refine ⟨is, os, r, hexec, by rw [hnotes]; simp, ?_⟩
  refine session_allocations_bounded none 1 hexec ?_
  rw [hnotes]
  simp only [List.forall_mem_cons]
  exact ⟨hinit, trivial, trivial, trivial, trivial, hheader, trivial, hupdate, trivial,
    fun _ h => nomatch h⟩

/-- A size that is taken over and is beyond the bound. -/
def Note.beyond : Note → Bool
  | .adopts width height => width * height > maxFramebufferPixels
  | _ => false

/-- The server of one pixel resizes to 65535 by 65535. -/
theorem desktopSize_is_not_bounded : ¬ ∀ (password : Option Bytes) (n : Nat)
    (is : List (Option UInt8)) (os : List (UInt8 ⊕ Note)) (r : Except VncFault Picture),
    Prog.Exec (Noted.session password n) is os r → ∀ note ∈ notes os, note.Bounded := by
  intro h
  obtain ⟨is, r, hexec⟩ := Prog.exec_drive (Noted.session none 1) ((pixelGreeting ++
    ([0, 0, 0, 1] ++ [0, 0, 0, 0, 255, 255, 255, 255, 255, 255, 255, 33])).map some) .panicked
  have hbeyond : (notes ((Noted.session none 1).drive ((pixelGreeting ++ ([0, 0, 0, 1] ++
      [0, 0, 0, 0, 255, 255, 255, 255, 255, 255, 255, 33])).map some)).sent).any Note.beyond = true := by
    decide +kernel
  obtain ⟨note, hnote, hlarge⟩ := List.any_eq_true.mp hbeyond
  have hbounded := h none 1 is _ r hexec note hnote
  cases note with
  | adopts width height =>
    have hlarge : width * height > maxFramebufferPixels := of_decide_eq_true hlarge
    exact absurd hbounded.2.2 (Nat.not_le_of_lt hlarge)
  | init | header | update | allocates => cases hlarge

end Vnc

end RdEngine
