/-
RdEngine/Vnc/Alignment.lean

How many bytes the client reads for a rectangle (`decode_framebuffer_update` of
`vnc/protocol.rs`), and how many the server has sent.

`WireRectangle` is a rectangle as the protocol lays it out: the rows of a bit
mask are padded to whole bytes each, an X cursor is two such masks behind six
bytes of colours and has no body when it is empty, and the screens of an extended
desktop size are counted in the first byte of its body, with three bytes of
padding behind.  The client pads a mask once, takes an X cursor to have pixels,
and looks for the count in the padding.  So it stays in step with the server
exactly as long as these come to the same (`updates_aligned_iff`).
-/
import RdEngine.Vnc.FormatInEffect

namespace RdEngine

open Dialogue

namespace Vnc

open Words (be ofBe)

/-! ### What a server sends -/

/-- The bytes of a row of so many bits. -/
def rowBytes (width : Nat) : Nat := (width + 7) / 8

/-- The body of a rectangle, by its encoding. -/
inductive Contents (format : PixelFormat) (width height : Nat) where
  | raw (pixels : FixedBytes (width * height * format.bytesPerPixel))
  | copyRect (srcX srcY : UInt16)
  | desktopSize
  | extendedDesktopSize (padding : FixedBytes 3) (screens : List (FixedBytes 16))
      (count_lt : screens.length < 256)
  | cursor (pixels : FixedBytes (width * height * format.bytesPerPixel))
      (mask : FixedBytes (rowBytes width * height))
  | xCursor (shape : FixedBytes
      (if width * height = 0 then 0 else 6 + 2 * (rowBytes width * height)))

namespace Contents

variable {format : PixelFormat} {width height : Nat}

def encoding : Contents format width height → Encoding
  | raw _ => .raw
  | copyRect _ _ => .copyRect
  | desktopSize => .desktopSize
  | extendedDesktopSize _ _ _ => .extendedDesktopSize
  | cursor _ _ => .cursor
  | xCursor _ => .xCursor

/-- The contents, as they stand on the wire. -/
def bytes : Contents format width height → Bytes
  | raw pixels => pixels.1
  | copyRect srcX srcY => be 2 srcX.toNat ++ be 2 srcY.toNat
  | desktopSize => []
  | extendedDesktopSize padding screens _ =>
    [UInt8.ofNat screens.length] ++ padding.1 ++ screens.flatMap (·.1)
  | cursor pixels mask => pixels.1 ++ mask.1
  | xCursor shape => shape.1

end Contents

structure WireRectangle (format : PixelFormat) where
  x : UInt16
  y : UInt16
  width : UInt16
  height : UInt16
  contents : Contents format width.toNat height.toNat

/-- The twelve bytes in front of a rectangle. -/
def headerBytes (x y width height : UInt16) (code : Int32) : Bytes :=
  be 2 x.toNat ++ be 2 y.toNat ++ be 2 width.toNat ++ be 2 height.toNat ++
    be 4 code.toUInt32.toNat

namespace WireRectangle

variable {format : PixelFormat}

/-- The header of a rectangle, as the client reads it. -/
def header (r : WireRectangle format) : RectangleHeader :=
  ⟨r.x, r.y, r.width, r.height, r.contents.encoding⟩

def encode (r : WireRectangle format) : Bytes :=
  headerBytes r.x r.y r.width r.height r.contents.encoding.code ++ r.contents.bytes

/-- What there is to draw of it. -/
def drawable (r : WireRectangle format) : Option Rectangle :=
  match r.contents with
  | .raw pixels => some (.raw r.x r.y r.width r.height pixels.1)
  | .copyRect srcX srcY => some (.copyRect r.x r.y r.width r.height srcX srcY)
  | .desktopSize => some (.desktopSize r.width r.height)
  | .extendedDesktopSize _ _ _ => some (.desktopSize r.width r.height)
  | .cursor _ _ => none
  | .xCursor _ => none

end WireRectangle

/-- The rectangles of a server's update. -/
structure UpdateBody (format : PixelFormat) where
  rectangles : List (WireRectangle format)
  length_lt : rectangles.length < 2 ^ 16

section

variable {format : PixelFormat}

/-- The bytes of these rectangles, one after the other. -/
def encodeRectangles (rectangles : List (WireRectangle format)) : Bytes :=
  rectangles.flatMap WireRectangle.encode

/-- The encodings the client reads. -/
def implementedCodes : List Int32 := [0, 1, -223, -239, -240, -308]

/-- The client's run over a stream of bytes that then ends. -/
def decodeStream (format : PixelFormat) (count : Nat) (stream : Bytes) :
    Prog.Stop (Option UInt8) UInt8 VncFault (List Rectangle) :=
  (decodeFramebufferUpdate format count).drive (stream.map some ++ [none])

/-- Reading ends with an error. -/
def Refused (stop : Prog.Stop (Option UInt8) UInt8 VncFault (List Rectangle)) : Prop :=
  ∃ e, stop.prog = .fail (.error e)

/-- Of any first rectangles of the body, the client takes their bytes and gives
back what there is to draw of them, or refuses; it refuses what ends early and
what is in an encoding it does not read. -/
structure UpdatesAligned (body : UpdateBody format) : Prop where
  aligned : ∀ count ≤ body.rectangles.length, ∀ rest : Bytes,
    decodeStream format count (encodeRectangles body.rectangles ++ rest) =
        ⟨.done ((body.rectangles.take count).filterMap WireRectangle.drawable),
          (encodeRectangles (body.rectangles.drop count) ++ rest).map some ++ [none], []⟩ ∨
      Refused (decodeStream format count (encodeRectangles body.rectangles ++ rest))
  truncated : ∀ count ≤ body.rectangles.length, ∀ stream missing : Bytes, missing ≠ [] →
    stream ++ missing = encodeRectangles (body.rectangles.take count) →
      Refused (decodeStream format count stream)
  others : ∀ count ≤ body.rectangles.length, ∀ (more : Nat) (x y width height : UInt16)
    (code : Int32) (rest : Bytes), code ∉ implementedCodes →
      Refused (decodeStream format (count + (more + 1))
        (encodeRectangles (body.rectangles.take count) ++
          (headerBytes x y width height code ++ rest)))

/-! ### The condition -/

/-- The bits that pad a row to whole bytes. -/
def rowPadding (width : Nat) : Nat := (8 - width % 8) % 8

/-- The rectangles for which the client reads what the server sends. -/
def Contents.Sized {width height : Nat} : Contents format width height → Prop
  | .raw _ => True
  | .copyRect _ _ => True
  | .desktopSize => True
  | .extendedDesktopSize padding screens _ => padding.1.getD 2 0 = UInt8.ofNat screens.length
  | .cursor _ _ => height * rowPadding width < 8
  | .xCursor _ => width = 1 ∧ height = 1 ∧ format.bytesPerPixel = 1

/-! ### How many bytes are read -/

/-- The bytes the client reads as the body of a rectangle. -/
def Contents.readLength {width height : Nat} : Contents format width height → Nat
  | .raw _ => width * height * format.bytesPerPixel
  | .copyRect _ _ => 4
  | .desktopSize => 0
  | .extendedDesktopSize padding _ _ => 4 + (padding.1.getD 2 0).toNat * 16
  | .cursor _ _ => width * height * format.bytesPerPixel + (width * height + 7) / 8
  | .xCursor _ => width * height * format.bytesPerPixel + (width * height + 7) / 8 + 6

theorem rowBytes_mul (width height : Nat) :
    8 * (rowBytes width * height) = width * height + height * rowPadding width := by
  have hrow : 8 * rowBytes width = width + rowPadding width := by
    unfold rowBytes rowPadding
    omega
  rw [← Nat.mul_assoc, hrow, Nat.add_mul, Nat.mul_comm (rowPadding width)]

/-- An X cursor is read as pixels and a mask: its two masks are that long only
for a single pixel of one byte. -/
theorem xCursor_length_iff {width height step : Nat} :
    width * height * step + (width * height + 7) / 8 + 6 =
        (if width * height = 0 then 0 else 6 + 2 * (rowBytes width * height)) ↔
      width = 1 ∧ height = 1 ∧ step = 1 := by
  constructor
  · intro h
    split_ifs at h with harea
    have hwidth : 0 < width := Nat.pos_of_ne_zero fun h => harea (by rw [h, Nat.zero_mul])
    have hheight : 0 < height := Nat.pos_of_ne_zero fun h => harea (by rw [h, Nat.mul_zero])
    -- the pixels need at least a byte each, the two masks one for every eight
    rcases Nat.lt_or_ge width 8 with hsmall | hlarge
    · -- a row is one byte
      have hrow : rowBytes width = 1 := by
        unfold rowBytes
        omega
      rw [hrow, Nat.one_mul] at h
      have hwide : height ≤ width * height := Nat.le_mul_of_pos_left height hwidth
      have hstep : width * step < 2 := by
        by_contra hge
        have hmul := Nat.mul_le_mul_right height (Nat.le_of_not_lt hge)
        rw [Nat.mul_right_comm] at hmul
        omega
      rcases Nat.eq_zero_or_pos step with rfl | hpos
      · have hnarrow : width * height ≤ 7 * height := Nat.mul_le_mul_right height (by omega)
        omega
      · have hone : width * step = 1 := Nat.le_antisymm (by omega) (Nat.mul_pos hwidth hpos)
        obtain rfl := Nat.eq_one_of_mul_eq_one_right hone
        obtain rfl := Nat.eq_one_of_mul_eq_one_left hone
        omega
    · -- a row of pixels is longer than two of bits
      have hrow := rowBytes_mul width height
      have hpadding : height * rowPadding width ≤ height * 7 := by
        refine Nat.mul_le_mul_left height ?_
        unfold rowPadding
        omega
      have hwide : 8 * height ≤ width * height := Nat.mul_le_mul_right height hlarge
      rcases Nat.eq_zero_or_pos step with rfl | hpos
      · omega
      · have hpixels : width * height ≤ width * height * step := Nat.le_mul_of_pos_right _ hpos
        omega
  · rintro ⟨rfl, rfl, rfl⟩
    rfl

theorem length_flatMap_fixed {n : Nat} (screens : List (FixedBytes n)) :
    (screens.flatMap (·.1)).length = screens.length * n := by
  induction screens with
  | nil => rw [List.flatMap_nil, List.length_nil, List.length_nil, Nat.zero_mul]
  | cons screen screens ih =>
    rw [List.flatMap_cons, List.length_append, ih, screen.2, List.length_cons, Nat.succ_mul,
      Nat.add_comm]

theorem Contents.readLength_eq_iff {width height : Nat} (contents : Contents format width height) :
    contents.readLength = contents.bytes.length ↔ contents.Sized := by
  cases contents with
  | raw pixels => exact iff_of_true pixels.2.symm trivial
  | copyRect srcX srcY => exact iff_of_true rfl trivial
  | desktopSize => exact iff_of_true rfl trivial
  | extendedDesktopSize padding screens count_lt =>
    simp only [readLength, bytes, Sized, List.length_append, length_flatMap_fixed, padding.2,
      List.length_cons, List.length_nil]
    rw [← UInt8.toNat_inj, UInt8.toNat_ofNat', Nat.mod_eq_of_lt count_lt]
    omega
  | cursor pixels mask =>
    simp only [readLength, bytes, Sized, List.length_append, pixels.2, mask.2]
    have hrow := rowBytes_mul width height
    omega
  | xCursor shape =>
    simp only [readLength, bytes, Sized, shape.2]
    exact xCursor_length_iff

/-! ### Reading one rectangle -/

section Reading

variable {α : Type} {what : String} {f : Bytes → VncProg α}

/-- Of the bytes that are there, so many are read. -/
theorem drive_readExact_take {n : Nat} {bytes : Bytes} (hn : n ≤ bytes.length)
    (rest : List (Option UInt8)) :
    (readExact what n >>= f).drive (bytes.map some ++ rest) =
      (f (bytes.take n)).drive ((bytes.drop n).map some ++ rest) := by
  have hsplit : bytes.map some ++ rest =
      (bytes.take n).map some ++ ((bytes.drop n).map some ++ rest) := by
    rw [← List.append_assoc, ← List.map_append, List.take_append_drop]
  rw [hsplit]
  exact drive_readExact _ (List.length_take_of_le hn).symm _

end Reading

theorem parseRectangleHeader_headerBytes (x y width height : UInt16) (code : Int32) :
    parseRectangleHeader (headerBytes x y width height code) =
      ⟨x, y, width, height, .fromCode code⟩ := by
  have hword : ∀ n : UInt16, UInt16.ofNat (ofBe (be 2 n.toNat)) = n := by
    intro n
    rw [Words.ofBe_be_of_lt n.toNat_lt, UInt16.ofNat_toNat]
  have hcode : (UInt32.ofNat (ofBe (be 4 code.toUInt32.toNat))).toInt32 = code := by
    rw [Words.ofBe_be_of_lt code.toUInt32.toNat_lt, UInt32.ofNat_toNat, Int32.toInt32_toUInt32]
  simp only [parseRectangleHeader, RectangleHeader.mk.injEq]
  exact ⟨hword x, hword y, hword width, hword height, congrArg Encoding.fromCode hcode⟩

theorem length_headerBytes (x y width height : UInt16) (code : Int32) :
    12 = (headerBytes x y width height code).length := by
  simp [headerBytes]

theorem fromCode_code_encoding {width height : Nat} (contents : Contents format width height) :
    Encoding.fromCode contents.encoding.code = contents.encoding := by
  cases contents <;> rfl

/-- Whatever stands behind it, so many bytes are read as the body, and what there
is to draw is found at their start. -/
theorem drive_readRectangle {α : Type} (r : WireRectangle format) {tail : Bytes}
    (h : r.contents.readLength ≤ (r.contents.bytes ++ tail).length)
    (f : Option Rectangle → VncProg α) (rest : List (Option UInt8)) :
    (readRectangle format r.header >>= f).drive ((r.contents.bytes ++ tail).map some ++ rest) =
      (f r.drawable).drive
        (((r.contents.bytes ++ tail).drop r.contents.readLength).map some ++ rest) := by
  obtain ⟨x, y, width, height, contents⟩ := r
  cases contents with
  | raw pixels =>
    show (readRectangle format ⟨x, y, width, height, .raw⟩ >>= f).drive _ = _
    rw [readRectangle, Prog.bind_assoc]
    refine (drive_readExact_take h rest).trans ?_
    simp only [Contents.readLength, Contents.bytes, ← pixels.2, List.take_left']
    rfl
  | copyRect srcX srcY =>
    show (readRectangle format ⟨x, y, width, height, .copyRect⟩ >>= f).drive _ = _
    rw [readRectangle, Prog.bind_assoc]
    refine (drive_readExact_take h rest).trans ?_
    have hword : ∀ n : UInt16, UInt16.ofNat (ofBe (be 2 n.toNat)) = n := by
      intro n
      rw [Words.ofBe_be_of_lt n.toNat_lt, UInt16.ofNat_toNat]
    have hsource : (be 2 srcX.toNat ++ be 2 srcY.toNat ++ tail).take 4 =
        be 2 srcX.toNat ++ be 2 srcY.toNat := List.take_left' (by simp)
    have hfirst : (be 2 srcX.toNat ++ be 2 srcY.toNat).take 2 = be 2 srcX.toNat :=
      List.take_left' (by simp)
    have hsecond : (be 2 srcX.toNat ++ be 2 srcY.toNat).drop 2 = be 2 srcY.toNat :=
      List.drop_left' (by simp)
    simp only [Contents.readLength, Contents.bytes, hsource, hfirst, hsecond, hword]
    rfl
  | desktopSize => rfl
  | extendedDesktopSize padding screens count_lt =>
    show (readRectangle format ⟨x, y, width, height, .extendedDesktopSize⟩ >>= f).drive _ = _
    rw [readRectangle, Prog.bind_assoc]
    -- the count is looked for in the last byte of the padding
    have hcount : ([UInt8.ofNat screens.length] ++ padding.1).length = 4 := by
      rw [List.length_append, padding.2, List.length_singleton]
    have hbytes : (@Contents.extendedDesktopSize format width.toNat height.toNat padding screens
        count_lt).bytes ++ tail =
          ([UInt8.ofNat screens.length] ++ padding.1) ++ (screens.flatMap (·.1) ++ tail) := by
      rw [← List.append_assoc]
      rfl
    have hlast : ([UInt8.ofNat screens.length] ++ padding.1).getD 3 0 = padding.1.getD 2 0 := rfl
    have hread : (padding.1.getD 2 0).toNat * 16 ≤ (screens.flatMap (·.1) ++ tail).length := by
      rw [hbytes, List.length_append, hcount] at h
      exact Nat.le_of_add_le_add_left h
    have hdrop : ∀ k, (([UInt8.ofNat screens.length] ++ padding.1) ++
        (screens.flatMap (·.1) ++ tail)).drop (4 + k) = (screens.flatMap (·.1) ++ tail).drop k := by
      intro k
      rw [← hcount, List.drop_append, List.drop_eq_nil_of_le (Nat.le_add_right _ k),
        Nat.add_sub_cancel_left, List.nil_append]
    simp only [hbytes]
    rw [List.map_append, List.append_assoc, drive_readExact _ hcount.symm, Prog.bind_assoc, hlast,
      Contents.readLength, hdrop]
    exact drive_readExact_take hread rest
  | cursor pixels mask =>
    show (readRectangle format ⟨x, y, width, height, .cursor⟩ >>= f).drive _ = _
    rw [readRectangle, Prog.bind_assoc]
    exact drive_readExact_take h rest
  | xCursor shape =>
    show (readRectangle format ⟨x, y, width, height, .xCursor⟩ >>= f).drive _ = _
    rw [readRectangle, Prog.bind_assoc]
    exact drive_readExact_take h rest

/-! ### Reading an update -/

theorem drive_decode_cons {α : Type} (r : WireRectangle format) {tail : Bytes}
    (h : r.contents.readLength ≤ (r.contents.bytes ++ tail).length) (count : Nat)
    (f : List Rectangle → VncProg α) (rest : List (Option UInt8)) :
    (decodeFramebufferUpdate format (count + 1) >>= f).drive
        ((r.encode ++ tail).map some ++ rest) =
      (decodeFramebufferUpdate format count >>= fun more => f (r.drawable.toList ++ more)).drive
        (((r.contents.bytes ++ tail).drop r.contents.readLength).map some ++ rest) := by
  rw [WireRectangle.encode, List.append_assoc, List.map_append, List.append_assoc,
    decodeFramebufferUpdate, Prog.bind_assoc, drive_readExact _ (length_headerBytes _ _ _ _ _),
    parseRectangleHeader_headerBytes, fromCode_code_encoding, Prog.bind_assoc]
  refine (drive_readRectangle r h _ rest).trans ?_
  rw [Prog.bind_assoc]
  rfl

/-- Rectangles for which the client reads what was sent are read one by one. -/
theorem drive_decode_sized {α : Type} {rectangles : List (WireRectangle format)}
    (hsized : ∀ r ∈ rectangles, r.contents.Sized) (more : Nat) (f : List Rectangle → VncProg α)
    (rest : List (Option UInt8)) :
    (decodeFramebufferUpdate format (rectangles.length + more) >>= f).drive
        ((encodeRectangles rectangles).map some ++ rest) =
      (decodeFramebufferUpdate format more >>= fun others =>
        f (rectangles.filterMap WireRectangle.drawable ++ others)).drive rest := by
  induction rectangles generalizing f with
  | nil => rw [List.length_nil, Nat.zero_add]; rfl
  | cons r rectangles ih =>
    have hlength : r.contents.readLength = r.contents.bytes.length :=
      r.contents.readLength_eq_iff.mpr (hsized r List.mem_cons_self)
    have hcount : (r :: rectangles).length + more = (rectangles.length + more) + 1 := by
      rw [List.length_cons]
      omega
    rw [hcount, encodeRectangles, List.flatMap_cons, drive_decode_cons r (by
      rw [hlength, List.length_append]
      exact Nat.le_add_right _ _), hlength, List.drop_left]
    refine (ih (fun r' hr' => hsized r' (List.mem_cons_of_mem r hr')) _).trans ?_
    refine congrArg (fun g => (decodeFramebufferUpdate format more >>= g).drive rest) ?_
    funext others
    rw [List.filterMap_cons]
    cases r.drawable with
    | none => rfl
    | some rectangle => rfl

/-- A program for which the end of the stream is an error. -/
def EndIsError {α : Type} : VncProg α → Prop
  | .done _ => True
  | .fail _ => True
  | .read k => (∃ e, k none = .fail (.error e)) ∧ ∀ i, EndIsError (k i)
  | .write _ k => EndIsError k

theorem EndIsError.bind {α β : Type} {p : VncProg α} {f : α → VncProg β} (hp : EndIsError p)
    (hf : ∀ a, EndIsError (f a)) : EndIsError (p >>= f) := by
  induction p with
  | done a => exact hf a
  | fail e => trivial
  | read k ih =>
    obtain ⟨⟨e, he⟩, hk⟩ := hp
    refine ⟨⟨e, ?_⟩, fun i => ih i (hk i)⟩
    show k none >>= f = _
    rw [he, Prog.fail_bind]
  | write o k ih => exact ih hp

theorem endIsError_readExact (what : String) (n : Nat) : EndIsError (readExact what n) := by
  induction n with
  | zero => trivial
  | succ n ih =>
    refine ⟨⟨.io what, rfl⟩, fun i => ?_⟩
    cases i with
    | none => trivial
    | some b => exact ih.bind fun bytes => trivial

theorem endIsError_readRectangle (header : RectangleHeader) :
    EndIsError (readRectangle format header) := by
  unfold readRectangle
  dsimp only
  split
  · exact (endIsError_readExact _ _).bind fun pixels => trivial
  · exact (endIsError_readExact _ _).bind fun source => trivial
  · trivial
  · exact (endIsError_readExact _ _).bind fun screenCount =>
      (endIsError_readExact _ _).bind fun screens => trivial
  · exact (endIsError_readExact _ _).bind fun shape => trivial
  · exact (endIsError_readExact _ _).bind fun shape => trivial
  · trivial

theorem endIsError_decode (count : Nat) : EndIsError (decodeFramebufferUpdate format count) := by
  induction count with
  | zero => trivial
  | succ count ih =>
    exact (endIsError_readExact _ _).bind fun header =>
      (endIsError_readRectangle _).bind fun rectangle => ih.bind fun rest => trivial

theorem EndIsError.drive {α : Type} {p : VncProg α} (h : EndIsError p)
    (is : List (Option UInt8)) : EndIsError (p.drive is).prog := by
  induction p generalizing is with
  | done a =>
    rw [Prog.drive_done]
    trivial
  | fail e =>
    rw [Prog.drive_fail]
    trivial
  | read k ih =>
    cases is with
    | nil => exact h
    | cons i is => exact ih i (h.2 i) is
  | write o k ih =>
    rw [Prog.drive_write]
    exact ih h is

/-! ### In step -/

section Aligned

variable {body : UpdateBody format}

theorem aligned_of_sized (hsized : ∀ r ∈ body.rectangles, r.contents.Sized) {count : Nat}
    (hcount : count ≤ body.rectangles.length) (rest : Bytes) :
    decodeStream format count (encodeRectangles body.rectangles ++ rest) =
      ⟨.done ((body.rectangles.take count).filterMap WireRectangle.drawable),
        (encodeRectangles (body.rectangles.drop count) ++ rest).map some ++ [none], []⟩ := by
  have hstream : encodeRectangles body.rectangles =
      encodeRectangles (body.rectangles.take count) ++
        encodeRectangles (body.rectangles.drop count) := by
    rw [encodeRectangles, encodeRectangles, encodeRectangles, ← List.flatMap_append,
      List.take_append_drop]
  have hfirst : ∀ r ∈ body.rectangles.take count, r.contents.Sized :=
    fun r hr => hsized r (List.mem_of_mem_take hr)
  have hdrive := drive_decode_sized (f := .done) hfirst 0 ((encodeRectangles (body.rectangles.drop count) ++ rest).map some ++ [none])
  rw [Nat.add_zero, List.length_take_of_le hcount, Prog.bind_done] at hdrive
  rw [decodeStream, hstream, List.append_assoc, List.map_append, List.append_assoc, hdrive]
  show Prog.drive (.done _) _ = _
  rw [Prog.drive_done, List.append_nil]

theorem truncated_of_sized (hsized : ∀ r ∈ body.rectangles, r.contents.Sized) {count : Nat}
    (hcount : count ≤ body.rectangles.length) {stream missing : Bytes} (hmissing : missing ≠ [])
    (hstream : stream ++ missing = encodeRectangles (body.rectangles.take count)) :
    Refused (decodeStream format count stream) := by
  have hfirst : ∀ r ∈ body.rectangles.take count, r.contents.Sized :=
    fun r hr => hsized r (List.mem_of_mem_take hr)
  have hdrive := drive_decode_sized (f := .done) hfirst 0 []
  rw [Nat.add_zero, List.length_take_of_le hcount, Prog.bind_done, ← hstream, List.append_nil,
    List.map_append] at hdrive
  obtain ⟨k, sent, hwaits⟩ := Prog.drive_waits hdrive
    (fun h => hmissing (List.map_eq_nil_iff.mp h))
  have hend := (@endIsError_decode format count).drive (stream.map some)
  rw [hwaits] at hend
  obtain ⟨⟨e, he⟩, -⟩ := hend
  refine ⟨e, ?_⟩
  rw [decodeStream, Prog.drive_resume hwaits, List.nil_append, Prog.drive_read_cons, he]
  rfl

theorem readRectangle_other {x y width height : UInt16} {code : Int32}
    (h : code ∉ implementedCodes) :
    ∃ e, readRectangle format ⟨x, y, width, height, .fromCode code⟩ = .fail (.error e) := by
  unfold implementedCodes at h
  simp only [List.mem_cons, List.not_mem_nil, or_false, not_or] at h
  obtain ⟨h0, h1, h2, h3, h4, h5⟩ := h
  unfold Encoding.fromCode
  rw [if_neg h0, if_neg h1, if_neg h2, if_neg h3, if_neg h4, if_neg h5]
  split_ifs
  all_goals exact ⟨_, rfl⟩

theorem others_of_sized (hsized : ∀ r ∈ body.rectangles, r.contents.Sized) {count : Nat}
    (hcount : count ≤ body.rectangles.length) (more : Nat) {x y width height : UInt16}
    {code : Int32} (hcode : code ∉ implementedCodes) (rest : Bytes) :
    Refused (decodeStream format (count + (more + 1))
      (encodeRectangles (body.rectangles.take count) ++
        (headerBytes x y width height code ++ rest))) := by
  have hfirst : ∀ r ∈ body.rectangles.take count, r.contents.Sized :=
    fun r hr => hsized r (List.mem_of_mem_take hr)
  have hdrive := drive_decode_sized (f := .done) hfirst (more + 1)
    ((headerBytes x y width height code ++ rest).map some ++ [none])
  obtain ⟨e, he⟩ := @readRectangle_other format x y width height code hcode
  refine ⟨e, ?_⟩
  rw [List.length_take_of_le hcount, Prog.bind_done] at hdrive
  rw [decodeStream, List.map_append, List.append_assoc, hdrive, decodeFramebufferUpdate,
    List.map_append, List.append_assoc, Prog.bind_assoc,
    drive_readExact _ (length_headerBytes _ _ _ _ _), parseRectangleHeader_headerBytes, he]
  simp only [Prog.fail_bind, Prog.drive_fail]

theorem exists_first {α : Type} {p : α → Prop} {l : List α} (h : ¬ ∀ a ∈ l, p a) :
    ∃ before a after, l = before ++ a :: after ∧ (∀ b ∈ before, p b) ∧ ¬ p a := by
  induction l with
  | nil => exact absurd (fun a ha => nomatch ha) h
  | cons a l ih =>
    by_cases ha : p a
    · obtain ⟨before, b, after, rfl, hbefore, hb⟩ :=
        ih fun hl => h (List.forall_mem_cons.mpr ⟨ha, hl⟩)
      exact ⟨a :: before, b, after, rfl, List.forall_mem_cons.mpr ⟨ha, hbefore⟩, hb⟩
    · exact ⟨[], a, l, rfl, (fun b hb => nomatch hb), ha⟩

/-- The first rectangle that is read otherwise than it was sent puts the client out
of step. -/
theorem sized_of_aligned (h : UpdatesAligned body) : ∀ r ∈ body.rectangles, r.contents.Sized := by
  by_contra hsome
  obtain ⟨before, r, after, hbody, hbefore, hr⟩ := exists_first hsome
  refine hr (r.contents.readLength_eq_iff.mp ?_)
  -- bytes enough for what the client takes the rectangle to be
  obtain ⟨rest, hrest⟩ : ∃ rest : Bytes, rest.length = r.contents.readLength :=
    ⟨List.replicate r.contents.readLength 0, List.length_replicate⟩
  obtain ⟨tail, htail⟩ : ∃ tail, encodeRectangles after ++ rest = tail := ⟨_, rfl⟩
  have hlong : r.contents.readLength ≤ tail.length := by
    rw [← htail, List.length_append, hrest]
    exact Nat.le_add_left _ _
  have hread : r.contents.readLength ≤ (r.contents.bytes ++ tail).length := by
    rw [List.length_append]
    omega
  have hdrive := drive_decode_sized hbefore 1 .done ((r.encode ++ tail).map some ++ [none])
  rw [drive_decode_cons r hread 0, Prog.bind_done] at hdrive
  have hstream : (encodeRectangles before).map some ++ ((r.encode ++ tail).map some ++ [none]) =
      (encodeRectangles body.rectangles ++ rest).map some ++ [none] := by
    rw [hbody, ← htail]
    simp only [encodeRectangles, List.flatMap_append, List.flatMap_cons, List.map_append,
      List.append_assoc]
  rw [hstream] at hdrive
  have hcount : before.length + 1 ≤ body.rectangles.length := by
    rw [hbody, List.length_append, List.length_cons]
    omega
  have hdrop : body.rectangles.drop (before.length + 1) = after := by
    rw [hbody, List.drop_append, List.drop_eq_nil_of_le (Nat.le_add_right _ _), List.nil_append,
      Nat.add_sub_cancel_left]
    rfl
  have hrun : decodeStream format (before.length + 1) (encodeRectangles body.rectangles ++ rest) =
      ⟨.done (before.filterMap WireRectangle.drawable ++ (r.drawable.toList ++ [])),
        ((r.contents.bytes ++ tail).drop r.contents.readLength).map some ++ [none], []⟩ := by
    refine hdrive.trans ?_
    show Prog.drive (.done _) _ = _
    rw [Prog.drive_done]
  rcases h.aligned _ hcount rest with haligned | ⟨e, hrefused⟩
  · rw [haligned, hdrop, htail] at hrun
    have hrest := congrArg (fun stop => stop.rest.length) hrun
    simp only [List.length_append, List.length_map, List.length_drop, List.length_singleton]
      at hrest hread
    omega
  · rw [hrun] at hrefused
    cases hrefused

end Aligned

/-- **The client keeps in step with exactly these updates.** -/
theorem updates_aligned_iff (body : UpdateBody format) :
    UpdatesAligned body ↔ ∀ r ∈ body.rectangles, r.contents.Sized := by
  constructor
  · exact sized_of_aligned
  · intro hsized
    exact {
      aligned := fun count hcount rest => .inl (aligned_of_sized hsized hcount rest)
      truncated := fun count hcount stream missing hmissing hstream =>
        truncated_of_sized hsized hcount hmissing hstream
      others := fun count hcount more x y width height code rest hcode =>
        others_of_sized hsized hcount more hcode rest }

end

/-- An extended desktop size with one screen: the screen is left in the stream. -/
theorem one_screen_is_left_unread :
    ¬ ∀ (format : PixelFormat) (body : UpdateBody format), UpdatesAligned body := by
  intro h
  have hsized := sized_of_aligned (h preferredPixelFormat
    ⟨[⟨0, 0, 1, 1, .extendedDesktopSize ⟨[0, 0, 0], rfl⟩ [⟨List.replicate 16 0, rfl⟩] (by decide)⟩],
      by decide⟩)
  have hcount : ([0, 0, 0] : Bytes).getD 2 0 = UInt8.ofNat 1 := hsized _ List.mem_cons_self
  exact absurd hcount (by decide)

end Vnc

end RdEngine
