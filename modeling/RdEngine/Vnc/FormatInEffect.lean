/-
RdEngine/Vnc/FormatInEffect.lean

Which pixel format is in effect after initialisation.

The client asks every server for `preferredPixelFormat`, and a server that
honours this sends its pixels so from then on.  The client reads and decodes
them with the format the server announced before it was asked.  The two come to
the same exactly when the announced format has four bytes a pixel and finds each
channel at the requested place (`format_in_effect_iff`).
-/
import RdEngine.Lib.Channels
import RdEngine.Vnc.Messages

namespace RdEngine

open Dialogue

namespace Vnc

open Channels
open Words (be ofBe)

/-! ### A server that honours the request -/

/-- A raw rectangle as the server sends it: four bytes a pixel, in the requested
format. -/
structure SentRectangle where
  x : UInt16
  y : UInt16
  width : UInt16
  height : UInt16
  pixels : Bytes
  length_pixels : pixels.length = width.toNat * height.toNat * 4

namespace SentRectangle

def header (sent : SentRectangle) : Bytes :=
  be 2 sent.x.toNat ++ be 2 sent.y.toNat ++ be 2 sent.width.toNat ++ be 2 sent.height.toNat ++
    [0, 0, 0, 0]

/-- The rectangle, as the server writes it. -/
def encode (sent : SentRectangle) : Bytes := sent.header ++ sent.pixels

/-- The rectangle that was meant. -/
def rectangle (sent : SentRectangle) : Rectangle :=
  .raw sent.x sent.y sent.width sent.height sent.pixels

end SentRectangle

def encodeUpdate (sent : List SentRectangle) : Bytes :=
  [0, 0] ++ be 2 sent.length ++ sent.flatMap SentRectangle.encode

/-- The client reads every update up to its end and no further, and draws the
pixels in the requested format. -/
structure FormatInEffect (session : LiveSession) : Prop where
  aligned : ∀ (sent : List SentRectangle) (rest : List (Option UInt8)), sent.length < 2 ^ 16 →
    (readMessage session.format).drive ((encodeUpdate sent).map some ++ rest)
      = ⟨.done (.framebufferUpdate (sent.map SentRectangle.rectangle)), rest, []⟩
  colours : ∀ (sent : List SentRectangle) (picture : Picture),
    picture.apply session.format (sent.map SentRectangle.rectangle)
      = picture.apply preferredPixelFormat (sent.map SentRectangle.rectangle)

/-! ### Reading -/

section Reading

variable {α : Type} {what : String} {f : Bytes → VncProg α}

/-- Bytes that are there are read. -/
theorem drive_readExact {n : Nat} (bytes : Bytes) (hn : n = bytes.length)
    (rest : List (Option UInt8)) :
    (readExact what n >>= f).drive (bytes.map some ++ rest) = (f bytes).drive rest := by
  subst hn
  induction bytes generalizing f with
  | nil => rfl
  | cons b bytes ih =>
    show ((readExact what bytes.length >>= fun bytes => .done (b :: bytes)) >>= f).drive _ = _
    rw [Prog.bind_assoc]
    exact ih

/-- Without enough of them the read waits. -/
theorem drive_readExact_short {n : Nat} {bytes : Bytes} (hn : bytes.length < n) :
    ∃ k, (readExact what n >>= f).drive (bytes.map some) = ⟨.read k, [], []⟩ := by
  induction bytes generalizing n f with
  | nil =>
    obtain ⟨m, rfl⟩ := Nat.exists_eq_succ_of_ne_zero (by omega : n ≠ 0)
    exact ⟨_, rfl⟩
  | cons b bytes ih =>
    obtain ⟨m, rfl⟩ := Nat.exists_eq_succ_of_ne_zero (by omega : n ≠ 0)
    have hm : bytes.length < m := by simpa using hn
    obtain ⟨k, hk⟩ := ih (f := fun bytes => f (b :: bytes)) hm
    refine ⟨k, ?_⟩
    show ((readExact what m >>= fun bytes => .done (b :: bytes)) >>= f).drive _ = _
    rw [Prog.bind_assoc]
    exact hk

end Reading

theorem parseRectangleHeader_header (sent : SentRectangle) :
    parseRectangleHeader sent.header = ⟨sent.x, sent.y, sent.width, sent.height, .raw⟩ := by
  have hword : ∀ n : UInt16, UInt16.ofNat (ofBe (be 2 n.toNat)) = n := by
    intro n
    rw [Words.ofBe_be_of_lt n.toNat_lt, UInt16.ofNat_toNat]
  simp only [parseRectangleHeader, RectangleHeader.mk.injEq]
  exact ⟨hword sent.x, hword sent.y, hword sent.width, hword sent.height, rfl⟩

theorem length_header (sent : SentRectangle) : 12 = sent.header.length := by
  simp [SentRectangle.header]

/-- Rectangles of four bytes a pixel are read one by one. -/
theorem drive_decodeFramebufferUpdate {α : Type} {format : PixelFormat}
    (hstep : format.bytesPerPixel = 4) (sent : List SentRectangle) (rest : List (Option UInt8))
    (f : List Rectangle → VncProg α) :
    (decodeFramebufferUpdate format sent.length >>= f).drive
        ((sent.flatMap SentRectangle.encode).map some ++ rest)
      = (f (sent.map SentRectangle.rectangle)).drive rest := by
  induction sent generalizing f with
  | nil => rfl
  | cons sent more ih =>
    have hbytes : ((sent :: more).flatMap SentRectangle.encode).map some ++ rest
        = sent.header.map some ++ (sent.pixels.map some ++
          ((more.flatMap SentRectangle.encode).map some ++ rest)) := by
      simp [SentRectangle.encode]
    have hpixels : sent.width.toNat * sent.height.toNat * format.bytesPerPixel
        = sent.pixels.length := by
      rw [hstep, sent.length_pixels]
    rw [hbytes, List.length_cons, decodeFramebufferUpdate, Prog.bind_assoc,
      drive_readExact _ (length_header sent), parseRectangleHeader_header, Prog.bind_assoc,
      readRectangle, Prog.bind_assoc, drive_readExact _ hpixels]
    simp only [Prog.pure_eq, Prog.done_bind, Prog.bind_assoc]
    exact ih _

theorem any_emptySize (sent : List SentRectangle) :
    (sent.map SentRectangle.rectangle).any emptySize = false := by
  simp [SentRectangle.rectangle, emptySize]

theorem aligned_of_step {format : PixelFormat} (hstep : format.bytesPerPixel = 4)
    {sent : List SentRectangle} (rest : List (Option UInt8)) (hsent : sent.length < 2 ^ 16) :
    (readMessage format).drive ((encodeUpdate sent).map some ++ rest)
      = ⟨.done (.framebufferUpdate (sent.map SentRectangle.rectangle)), rest, []⟩ := by
  have hbytes : (encodeUpdate sent).map some ++ rest
      = ([0] : Bytes).map some ++ (([0] ++ be 2 sent.length : Bytes).map some ++
        ((sent.flatMap SentRectangle.encode).map some ++ rest)) := by
    simp [encodeUpdate]
  have hcount : ofBe (([0] ++ be 2 sent.length : Bytes).drop 1) = sent.length :=
    Words.ofBe_be_of_lt hsent
  rw [hbytes, readMessage, drive_readExact (n := 1) [0] rfl, if_pos rfl,
    drive_readExact (n := 3) ([0] ++ be 2 sent.length) rfl, hcount,
    drive_decodeFramebufferUpdate hstep, any_emptySize, if_neg Bool.false_ne_true]
  exact Prog.drive_done _ _

/-! ### Decoding -/

namespace PixelFormat

/-- A pixel's bytes as one number, the first the most significant. -/
def packed (bytes : Bytes) : UInt32 :=
  bytes.foldl (fun (acc : UInt32) byte => (acc <<< 8) ||| byte.toUInt32) 0

theorem toNat_shiftIn {acc : UInt32} (hacc : acc.toNat < 2 ^ 24) (byte : UInt8) :
    ((acc <<< 8) ||| byte.toUInt32).toNat = acc.toNat * 256 + byte.toNat := by
  have hbyte : byte.toNat < 2 ^ 8 := byte.toNat_lt
  have hsmall : acc.toNat <<< 8 < 2 ^ 32 := by
    rw [Nat.shiftLeft_eq]
    omega
  have hshift : (acc <<< 8).toNat = acc.toNat <<< 8 := by
    rw [UInt32.toNat_shiftLeft]
    exact Nat.mod_eq_of_lt hsmall
  rw [UInt32.toNat_or, hshift, UInt8.toNat_toUInt32, ← Nat.shiftLeft_add_eq_or_of_lt hbyte,
    Nat.shiftLeft_eq]

theorem toNat_packed (a b c d : UInt8) : (packed [a, b, c, d]).toNat
    = ((a.toNat * 256 + b.toNat) * 256 + c.toNat) * 256 + d.toNat := by
  have ha := a.toNat_lt
  have hb := b.toNat_lt
  have hc := c.toNat_lt
  have h₁ : (((0 : UInt32) <<< 8) ||| a.toUInt32).toNat = a.toNat := by
    rw [toNat_shiftIn (by decide)]
    simp
  have h₂ : (((((0 : UInt32) <<< 8) ||| a.toUInt32) <<< 8) ||| b.toUInt32).toNat
      = a.toNat * 256 + b.toNat := by
    rw [toNat_shiftIn (by omega), h₁]
  have h₃ : (((((((0 : UInt32) <<< 8) ||| a.toUInt32) <<< 8) ||| b.toUInt32) <<< 8) |||
      c.toUInt32).toNat = (a.toNat * 256 + b.toNat) * 256 + c.toNat := by
    rw [toNat_shiftIn (by omega), h₂]
  show (((((((((0 : UInt32) <<< 8) ||| a.toUInt32) <<< 8) ||| b.toUInt32) <<< 8) |||
    c.toUInt32) <<< 8) ||| d.toUInt32).toNat = _
  rw [toNat_shiftIn (by omega), h₃]

theorem toNat_component (value : UInt32) (max : UInt16) (shift : UInt8) :
    (component value max shift).toNat = scaled max.toNat (shift.toNat % 32) value.toNat := by
  rw [component]
  split_ifs with hmax
  · subst hmax
    rw [scaled, UInt16.toNat_zero, Nat.div_zero]
    rfl
  · have hmask : (value.toNat / 2 ^ (shift.toNat % 32) &&& max.toNat) < 2 ^ 16 :=
      Nat.and_lt_two_pow _ max.toNat_lt
    have hread : ((value >>> shift.toUInt32) &&& max.toUInt32).toNat
        = value.toNat / 2 ^ (shift.toNat % 32) &&& max.toNat := by
      rw [UInt32.toNat_and, UInt32.toNat_shiftRight, Nat.shiftRight_eq_div_pow,
        UInt8.toNat_toUInt32, UInt16.toNat_toUInt32]
    rw [scaled, UInt32.toNat_div, UInt32.toNat_mul, hread, UInt16.toNat_toUInt32]
    congr 1
    exact Nat.mod_eq_of_lt (by simp only [UInt32.reduceToNat]; omega)

/-- Three channels of eight bits in one number. -/
theorem toNat_channels {r g b : UInt32} (hr : r.toNat < 256) (hg : g.toNat < 256)
    (hb : b.toNat < 256) :
    ((r <<< 16) ||| (g <<< 8) ||| b).toNat = r.toNat * 65536 + g.toNat * 256 + b.toNat := by
  have hrs : (r <<< 16).toNat = r.toNat <<< 16 := by
    rw [UInt32.toNat_shiftLeft]
    exact Nat.mod_eq_of_lt (show r.toNat <<< 16 < 2 ^ 32 by rw [Nat.shiftLeft_eq]; omega)
  have hgs : (g <<< 8).toNat = g.toNat <<< 8 := by
    rw [UInt32.toNat_shiftLeft]
    exact Nat.mod_eq_of_lt (show g.toNat <<< 8 < 2 ^ 32 by rw [Nat.shiftLeft_eq]; omega)
  have hlow : g.toNat <<< 8 ||| b.toNat = g.toNat * 256 + b.toNat := by
    rw [← Nat.shiftLeft_add_eq_or_of_lt (show b.toNat < 2 ^ 8 from hb), Nat.shiftLeft_eq]
  rw [UInt32.toNat_or, UInt32.toNat_or, hrs, hgs, Nat.or_assoc, hlow,
    ← Nat.shiftLeft_add_eq_or_of_lt (show g.toNat * 256 + b.toNat < 2 ^ 16 by omega),
    Nat.shiftLeft_eq]
  omega

/-- The pixel of four bytes, in the byte order of the format. -/
def packedFour (format : PixelFormat) (b₀ b₁ b₂ b₃ : UInt8) : UInt32 :=
  packed (if format.bigEndian then [b₀, b₁, b₂, b₃] else [b₃, b₂, b₁, b₀])

theorem decodePixel_four {format : PixelFormat} (hstep : format.bytesPerPixel = 4)
    (htrue : format.trueColour = true) (b₀ b₁ b₂ b₃ : UInt8) (rest : Bytes) :
    format.decodePixel (b₀ :: b₁ :: b₂ :: b₃ :: rest) = .ok
      ((component (format.packedFour b₀ b₁ b₂ b₃) format.redMax format.redShift <<< 16) |||
        (component (format.packedFour b₀ b₁ b₂ b₃) format.greenMax format.greenShift <<< 8) |||
        component (format.packedFour b₀ b₁ b₂ b₃) format.blueMax format.blueShift) := by
  have hlength : ¬ (b₀ :: b₁ :: b₂ :: b₃ :: rest).length < 4 := by simp
  simp only [decodePixel, hstep, htrue, Bool.not_true, Bool.false_eq_true, if_false,
    if_neg hlength]
  cases hbig : format.bigEndian <;> simp only [packedFour, hbig, if_true] <;> rfl

/-- A channel that is the byte at bit `p` of every pixel. -/
def ReadsByte (max : UInt16) (shift : UInt8) (p : Nat) : Prop :=
  shift.toNat % 32 ≤ p ∧ max.toNat = 255 * 2 ^ (p - shift.toNat % 32)

instance (max : UInt16) (shift : UInt8) (p : Nat) : Decidable (ReadsByte max shift p) :=
  inferInstanceAs (Decidable (_ ∧ _))

/-- The announced format finds everything where the requested one puts it: red in
the third byte of a pixel, green in the second, blue in the first. -/
structure RequestedLayout (format : PixelFormat) : Prop where
  bits : 25 ≤ format.bitsPerPixel.toNat ∧ format.bitsPerPixel.toNat ≤ 32
  trueColour : format.trueColour = true
  red : ReadsByte format.redMax format.redShift (if format.bigEndian then 8 else 16)
  green : ReadsByte format.greenMax format.greenShift (if format.bigEndian then 16 else 8)
  blue : ReadsByte format.blueMax format.blueShift (if format.bigEndian then 24 else 0)

theorem bytesPerPixel_eq_four_iff {format : PixelFormat} : format.bytesPerPixel = 4 ↔
    25 ≤ format.bitsPerPixel.toNat ∧ format.bitsPerPixel.toNat ≤ 32 := by
  rw [bytesPerPixel]
  omega

theorem requestedLayout_preferred : RequestedLayout preferredPixelFormat where
  bits := by decide
  trueColour := rfl
  red := by decide
  green := by decide
  blue := by decide

theorem byteAt_packedFour (format : PixelFormat) (b₀ b₁ b₂ b₃ : UInt8) :
    byteAt (if format.bigEndian then 8 else 16) (format.packedFour b₀ b₁ b₂ b₃).toNat = b₂.toNat ∧
    byteAt (if format.bigEndian then 16 else 8) (format.packedFour b₀ b₁ b₂ b₃).toNat = b₁.toNat ∧
    byteAt (if format.bigEndian then 24 else 0) (format.packedFour b₀ b₁ b₂ b₃).toNat
      = b₀.toNat := by
  have h₀ := b₀.toNat_lt
  have h₁ := b₁.toNat_lt
  have h₂ := b₂.toNat_lt
  have h₃ := b₃.toNat_lt
  cases hbig : format.bigEndian <;>
    simp only [packedFour, hbig, if_true, if_false, Bool.false_eq_true, toNat_packed, byteAt] <;>
    omega

/-- With the requested layout a pixel is its bytes. -/
theorem RequestedLayout.decodePixel_four {format : PixelFormat} (h : RequestedLayout format)
    (b₀ b₁ b₂ b₃ : UInt8) (rest : Bytes) :
    format.decodePixel (b₀ :: b₁ :: b₂ :: b₃ :: rest)
      = .ok ((b₂.toUInt32 <<< 16) ||| (b₁.toUInt32 <<< 8) ||| b₀.toUInt32) := by
  have hchannel : ∀ {max : UInt16} {shift : UInt8} {p : Nat} {b : UInt8}, ReadsByte max shift p →
      byteAt p (format.packedFour b₀ b₁ b₂ b₃).toNat = b.toNat →
      component (format.packedFour b₀ b₁ b₂ b₃) max shift = b.toUInt32 := by
    intro max shift p b hreads hbyte
    apply UInt32.toNat_inj.mp
    rw [toNat_component, hreads.2, scaled_byteMask hreads.1, hbyte, UInt8.toNat_toUInt32]
  obtain ⟨hred, hgreen, hblue⟩ := format.byteAt_packedFour b₀ b₁ b₂ b₃
  rw [PixelFormat.decodePixel_four (bytesPerPixel_eq_four_iff.mpr h.bits) h.trueColour,
    hchannel h.red hred, hchannel h.green hgreen, hchannel h.blue hblue]

/-- So it decodes as the requested format does. -/
theorem RequestedLayout.decodePixel_eq {format : PixelFormat} (h : RequestedLayout format) :
    format.decodePixel = preferredPixelFormat.decodePixel := by
  funext raw
  match raw with
  | b₀ :: b₁ :: b₂ :: b₃ :: rest =>
    rw [h.decodePixel_four, requestedLayout_preferred.decodePixel_four]
  | [] | [_] | [_, _] | [_, _, _] =>
    simp [decodePixel, bytesPerPixel_eq_four_iff.mpr h.bits,
      bytesPerPixel_eq_four_iff.mpr requestedLayout_preferred.bits]

end PixelFormat

/-! ### Drawing -/

/-- Drawing looks at a format only to read and decode pixels. -/
theorem apply_raw_congr {format format' : PixelFormat}
    (hstep : format.bytesPerPixel = format'.bytesPerPixel)
    (hdecode : format.decodePixel = format'.decodePixel) (sent : List SentRectangle)
    (picture : Picture) :
    picture.apply format (sent.map SentRectangle.rectangle)
      = picture.apply format' (sent.map SentRectangle.rectangle) := by
  have hdraw : ∀ state (s : SentRectangle),
      applyRectangle id picture.width picture.height format state s.rectangle
        = applyRectangle id picture.width picture.height format' state s.rectangle := by
    intro state s
    simp only [SentRectangle.rectangle, applyRectangle, blitRaw, hstep, hdecode]
  simp only [Picture.apply, applyRectangles, List.foldl_map, hdraw]

/-- One pixel. -/
def onePixel (b₀ b₁ b₂ b₃ : UInt8) : SentRectangle := ⟨0, 0, 1, 1, [b₀, b₁, b₂, b₃], rfl⟩

/-- The stores of one pixel on a screen of one. -/
theorem apply_onePixel {format : PixelFormat} (hstep : format.bytesPerPixel = 4)
    {b₀ b₁ b₂ b₃ : UInt8} {rgb : UInt32}
    (hdecode : format.decodePixel [b₀, b₁, b₂, b₃] = .ok rgb) :
    ((Picture.blank 1 1).apply format [(onePixel b₀ b₁ b₂ b₃).rectangle]).pixels
      = [((rgb >>> 16) &&& 0xff).toUInt8, ((rgb >>> 8) &&& 0xff).toUInt8,
        (rgb &&& 0xff).toUInt8, 0xff] := by
  simp [Picture.apply, Picture.adopt, Picture.blank, applyRectangles, applyRectangle, blitRaw,
    SentRectangle.rectangle, onePixel, Loops.loop, Loops.loopFrom, Loops.Flow.value, hstep,
    rgbaBytesPerPixel, hdecode, storePixel]

/-- A byte that is shifted out and stored. -/
theorem toNat_store (v : UInt32) {k : UInt32} (hk : k.toNat < 32) :
    ((v >>> k) &&& 0xff).toUInt8.toNat = byteAt k.toNat v.toNat := by
  have hmask : ∀ n, n &&& 255 = n % 256 := fun n => Nat.and_two_pow_sub_one_eq_mod n 8
  rw [UInt32.toNat_toUInt8, UInt32.toNat_and, UInt32.toNat_shiftRight, Nat.mod_eq_of_lt hk,
    Nat.shiftRight_eq_div_pow, byteAt]
  simp only [UInt32.reduceToNat, hmask, Nat.mod_mod]

/-! ### What the announced format must be -/

section Necessary

variable {format : PixelFormat}

/-- An update of one pixel is read up to its end only with four bytes a pixel. -/
theorem step_of_aligned
    (h : (readMessage format).drive ((encodeUpdate [onePixel 0 0 0 0]).map some)
      = ⟨.done (.framebufferUpdate [(onePixel 0 0 0 0).rectangle]), [], []⟩) :
    format.bytesPerPixel = 4 := by
  have hbytes : (encodeUpdate [onePixel 0 0 0 0]).map some
      = ([0] : Bytes).map some ++ (([0, 0, 1] : Bytes).map some ++
        ((onePixel 0 0 0 0).header.map some ++ ([0, 0, 0, 0] : Bytes).map some)) := rfl
  have hcount : ofBe (([0, 0, 1] : Bytes).drop 1) = 1 := by decide
  rw [hbytes, readMessage, drive_readExact (n := 1) [0] rfl, if_pos rfl,
    drive_readExact (n := 3) [0, 0, 1] rfl, hcount, decodeFramebufferUpdate, Prog.bind_assoc,
    drive_readExact _ (length_header _), parseRectangleHeader_header, Prog.bind_assoc,
    readRectangle, Prog.bind_assoc] at h
  have harea : (onePixel 0 0 0 0).width.toNat * (onePixel 0 0 0 0).height.toNat
      * format.bytesPerPixel = format.bytesPerPixel := Nat.one_mul _
  rw [harea] at h
  rcases Nat.lt_or_ge 4 format.bytesPerPixel with hlong | hshort
  · obtain ⟨k, hk⟩ := @drive_readExact_short _ _ _ _ [0, 0, 0, 0] hlong
    rw [hk] at h
    cases (Prog.Stop.mk.inj h).1
  · -- the bytes that are not read are left over
    have hsplit : ([0, 0, 0, 0] : Bytes).map some
        = (([0, 0, 0, 0] : Bytes).take format.bytesPerPixel).map some ++
          (([0, 0, 0, 0] : Bytes).drop format.bytesPerPixel).map some := by
      rw [← List.map_append, List.take_append_drop]
    have hlength : format.bytesPerPixel
        = (([0, 0, 0, 0] : Bytes).take format.bytesPerPixel).length := by
      rw [List.length_take]
      exact (Nat.min_eq_left hshort).symm
    rw [hsplit, drive_readExact _ hlength] at h
    have hrest := (Prog.Stop.mk.inj h).2.1
    have hnone : ([0, 0, 0, 0] : Bytes).drop format.bytesPerPixel = [] := List.map_eq_nil_iff.mp hrest
    have hge : 4 ≤ format.bytesPerPixel := List.drop_eq_nil_iff.mp hnone
    omega

/-- The bytes a pixel is drawn as, on a screen of one. -/
def drawnAs (format : PixelFormat) (b₀ b₁ b₂ b₃ : UInt8) : Bytes :=
  ((Picture.blank 1 1).apply format [(onePixel b₀ b₁ b₂ b₃).rectangle]).pixels

/-- In true colour they are the three channels. -/
theorem drawnAs_trueColour (hstep : format.bytesPerPixel = 4) (htrue : format.trueColour = true)
    (b₀ b₁ b₂ b₃ : UInt8) :
    (drawnAs format b₀ b₁ b₂ b₃).map UInt8.toNat =
      [scaled format.redMax.toNat (format.redShift.toNat % 32)
          (format.packedFour b₀ b₁ b₂ b₃).toNat,
        scaled format.greenMax.toNat (format.greenShift.toNat % 32)
          (format.packedFour b₀ b₁ b₂ b₃).toNat,
        scaled format.blueMax.toNat (format.blueShift.toNat % 32)
          (format.packedFour b₀ b₁ b₂ b₃).toNat, 255] := by
  have hlt : ∀ (max : UInt16) (shift : UInt8), (PixelFormat.component
      (format.packedFour b₀ b₁ b₂ b₃) max shift).toNat < 256 := by
    intro max shift
    rw [PixelFormat.toNat_component]
    exact scaled_lt _ _ _
  have hchannels := PixelFormat.toNat_channels (hlt format.redMax format.redShift)
    (hlt format.greenMax format.greenShift) (hlt format.blueMax format.blueShift)
  have hred := hlt format.redMax format.redShift
  have hgreen := hlt format.greenMax format.greenShift
  have hblue := hlt format.blueMax format.blueShift
  rw [drawnAs, apply_onePixel hstep (PixelFormat.decodePixel_four hstep htrue b₀ b₁ b₂ b₃ [])]
  generalize hrgb : (PixelFormat.component (format.packedFour b₀ b₁ b₂ b₃) format.redMax
    format.redShift <<< 16) ||| (PixelFormat.component (format.packedFour b₀ b₁ b₂ b₃)
    format.greenMax format.greenShift <<< 8) ||| PixelFormat.component
    (format.packedFour b₀ b₁ b₂ b₃) format.blueMax format.blueShift = rgb at hchannels ⊢
  have hlow : (rgb &&& 0xff).toUInt8.toNat = byteAt 0 rgb.toNat := by
    have := toNat_store rgb (k := 0) (by decide)
    rwa [show rgb >>> 0 = rgb by simp] at this
  simp only [List.map_cons, List.map_nil, toNat_store rgb (k := 16) (by decide),
    toNat_store rgb (k := 8) (by decide), hlow, ← PixelFormat.toNat_component, byteAt,
    UInt32.reduceToNat, hchannels]
  congr 1
  · omega
  · congr 1
    · omega
    · congr 1
      omega

/-- In the requested layout they are the pixel's own. -/
theorem drawnAs_requested (h : PixelFormat.RequestedLayout format) (b₀ b₁ b₂ b₃ : UInt8) :
    (drawnAs format b₀ b₁ b₂ b₃).map UInt8.toNat = [b₂.toNat, b₁.toNat, b₀.toNat, 255] := by
  obtain ⟨hred, hgreen, hblue⟩ := format.byteAt_packedFour b₀ b₁ b₂ b₃
  rw [drawnAs_trueColour (PixelFormat.bytesPerPixel_eq_four_iff.mpr h.bits) h.trueColour,
    h.red.2, h.green.2, h.blue.2, scaled_byteMask h.red.1, scaled_byteMask h.green.1,
    scaled_byteMask h.blue.1, hred, hgreen, hblue]

/-- A grey level has no colour. -/
theorem drawnAs_grey (hstep : format.bytesPerPixel = 4) (htrue : format.trueColour = false) :
    ∃ level : UInt8, drawnAs format 0 0 1 0 = [level, level, level, 0xff] := by
  have hbits : format.bitsPerPixel ≥ 8 := by
    have := (PixelFormat.bytesPerPixel_eq_four_iff.mp hstep).1
    rw [ge_iff_le, UInt8.le_iff_toNat_le]
    exact le_trans (by decide) this
  have hdecode : format.decodePixel [0, 0, 1, 0] = .ok 0 := by
    simp only [PixelFormat.decodePixel, hstep, htrue, hbits, if_true, Bool.not_false]
    cases format.bigEndian <;> rfl
  exact ⟨0, apply_onePixel hstep hdecode⟩

/-- Every number of 32 bits is a pixel, in either byte order. -/
theorem exists_packedFour (format : PixelFormat) {v : Nat} (hv : v < 2 ^ 32) :
    ∃ b₀ b₁ b₂ b₃, (format.packedFour b₀ b₁ b₂ b₃).toNat = v := by
  have hbyte : ∀ n, (UInt8.ofNat n).toNat = n % 256 := fun n => UInt8.toNat_ofNat'
  cases hbig : format.bigEndian with
  | true =>
    refine ⟨.ofNat (v / 2 ^ 24), .ofNat (v / 2 ^ 16), .ofNat (v / 2 ^ 8), .ofNat v, ?_⟩
    simp only [PixelFormat.packedFour, hbig, if_true, PixelFormat.toNat_packed, hbyte]
    omega
  | false =>
    refine ⟨.ofNat v, .ofNat (v / 2 ^ 8), .ofNat (v / 2 ^ 16), .ofNat (v / 2 ^ 24), ?_⟩
    simp only [PixelFormat.packedFour, hbig, Bool.false_eq_true, if_false,
      PixelFormat.toNat_packed, hbyte]
    omega

/-- A screen of one pixel shows the requested colours only with the requested
layout. -/
theorem layout_of_colours (hstep : format.bytesPerPixel = 4)
    (h : ∀ b₀ b₁ b₂ b₃, drawnAs format b₀ b₁ b₂ b₃ = drawnAs preferredPixelFormat b₀ b₁ b₂ b₃) :
    PixelFormat.RequestedLayout format := by
  have hdrawn : ∀ b₀ b₁ b₂ b₃,
      (drawnAs format b₀ b₁ b₂ b₃).map UInt8.toNat = [b₂.toNat, b₁.toNat, b₀.toNat, 255] := by
    intro b₀ b₁ b₂ b₃
    rw [h, drawnAs_requested PixelFormat.requestedLayout_preferred]
  have htrue : format.trueColour = true := by
    by_contra hfalse
    obtain ⟨level, hlevel⟩ := drawnAs_grey hstep (Bool.eq_false_of_not_eq_true hfalse)
    have hpixel := hdrawn 0 0 1 0
    rw [hlevel] at hpixel
    obtain ⟨hred, hrest⟩ := List.cons.inj hpixel
    exact absurd (hred.symm.trans (List.cons.inj hrest).1) (by decide)
  -- each channel is a byte of every pixel
  have hchannels := fun b₀ b₁ b₂ b₃ =>
    (drawnAs_trueColour hstep htrue b₀ b₁ b₂ b₃).symm.trans (hdrawn b₀ b₁ b₂ b₃)
  have hreads : ∀ {max : UInt16} {shift : UInt8} {p : Nat}, p + 8 ≤ 32 →
      (∀ b₀ b₁ b₂ b₃, scaled max.toNat (shift.toNat % 32) (format.packedFour b₀ b₁ b₂ b₃).toNat
        = byteAt p (format.packedFour b₀ b₁ b₂ b₃).toNat) →
      PixelFormat.ReadsByte max shift p := by
    intro max shift p hp hscaled
    refine (scaled_eq_byte_iff hp).mp fun v hv => ?_
    obtain ⟨b₀, b₁, b₂, b₃, rfl⟩ := exists_packedFour format hv
    exact hscaled b₀ b₁ b₂ b₃
  refine ⟨PixelFormat.bytesPerPixel_eq_four_iff.mp hstep, htrue, ?_, ?_, ?_⟩
  · refine hreads (by split <;> decide) fun b₀ b₁ b₂ b₃ => ?_
    rw [(format.byteAt_packedFour b₀ b₁ b₂ b₃).1]
    exact (List.cons.inj (hchannels b₀ b₁ b₂ b₃)).1
  · refine hreads (by split <;> decide) fun b₀ b₁ b₂ b₃ => ?_
    rw [(format.byteAt_packedFour b₀ b₁ b₂ b₃).2.1]
    exact (List.cons.inj (List.cons.inj (hchannels b₀ b₁ b₂ b₃)).2).1
  · refine hreads (by split <;> decide) fun b₀ b₁ b₂ b₃ => ?_
    rw [(format.byteAt_packedFour b₀ b₁ b₂ b₃).2.2]
    exact (List.cons.inj (List.cons.inj (List.cons.inj (hchannels b₀ b₁ b₂ b₃)).2).2).1

end Necessary

/-- **The requested format is in effect exactly when the announced one has its
layout**, for every initialisation of the server. -/
theorem format_in_effect_iff (init : ServerInit) :
    FormatInEffect (.of init) ↔ PixelFormat.RequestedLayout init.format := by
  constructor
  · intro h
    have haligned := h.aligned [onePixel 0 0 0 0] [] (by decide)
    rw [List.append_nil] at haligned
    have hstep : init.format.bytesPerPixel = 4 := step_of_aligned haligned
    refine layout_of_colours hstep fun b₀ b₁ b₂ b₃ => ?_
    exact congrArg Picture.pixels (h.colours [onePixel b₀ b₁ b₂ b₃] (.blank 1 1))
  · intro h
    have hstep := PixelFormat.bytesPerPixel_eq_four_iff.mpr h.bits
    have hpreferred := PixelFormat.bytesPerPixel_eq_four_iff.mpr
      PixelFormat.requestedLayout_preferred.bits
    exact ⟨fun sent rest hsent => aligned_of_step hstep rest hsent,
      apply_raw_congr (hstep.trans hpreferred.symm) h.decodePixel_eq⟩

/-- Sixteen bits a pixel. -/
def format565 : PixelFormat where
  bitsPerPixel := 16
  depth := 16
  bigEndian := false
  trueColour := true
  redMax := 31
  greenMax := 63
  blueMax := 31
  redShift := 11
  greenShift := 5
  blueShift := 0

/-- A server that announces it sends one pixel; two of its four bytes are left on
the stream, where the next message is looked for. -/
theorem format_not_in_effect : ¬ ∀ init : ServerInit, FormatInEffect (.of init) := by
  intro h
  have haligned := (h ⟨1, 1, format565, []⟩).aligned [onePixel 0 0 0 0] [] (by decide)
  have hrest : ((readMessage format565).drive ((encodeUpdate [onePixel 0 0 0 0]).map some)).rest
      = [] := congrArg Prog.Stop.rest haligned
  exact absurd hrest (by decide)

end Vnc

end RdEngine
