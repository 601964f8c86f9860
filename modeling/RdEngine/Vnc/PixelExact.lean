/-
RdEngine/Vnc/PixelExact.lean

`decode_pixel` in a build that checks its arithmetic, for every format a server
may announce (`vnc/protocol.rs`).

`decodePixelChecked` is the function with every operation that can overflow made
partial.  Where it has a result the unchecked one agrees (`decodePixelChecked_eq`),
and its result is the exact one for a pixel exactly when every channel that is
read has a shift below the width of the accumulator, and no bits beyond that
width that would move it to another level (`decodePixel_exact_iff`).
-/
import RdEngine.Vnc.FormatInEffect
import Mathlib.Tactic.IntervalCases

namespace RdEngine

namespace Vnc

namespace PixelFormat

open Channels (scaled scaled_lt scaled_mono scaled_of_eq_zero scaled_of_eq_max)
open Words (ofBe ofLe)

/-! ### Checked arithmetic -/

/-- A shift by the width or more overflows. -/
def checkedShl (a : UInt32) (count : Nat) : Option UInt32 :=
  if count < 32 then some (a <<< UInt32.ofNat count) else none

/-- The operations of the source, none where they overflow. -/
def checkedShr (a : UInt32) (count : Nat) : Option UInt32 :=
  if count < 32 then some (a >>> UInt32.ofNat count) else none

/-- A product that fits. -/
def checkedMul (a b : UInt32) : Option UInt32 :=
  if a.toNat * b.toNat < 2 ^ 32 then some (a * b) else none

def checkedSub (a b : UInt32) : Option UInt32 := if b ≤ a then some (a - b) else none

def checkedDiv (a b : UInt32) : Option UInt32 := if b = 0 then none else some (a / b)

/-! ### The function, checked -/

/-- The bytes of a pixel as one number, where no shift overflows. -/
def packedChecked (bytes : Bytes) : Option UInt32 :=
  bytes.foldlM (fun acc byte => do
    let acc ← checkedShl acc 8
    return acc ||| byte.toUInt32) 0

/-- A channel of this number, where nothing overflows. -/
def componentChecked (value : UInt32) (max : UInt16) (shift : UInt8) : Option UInt32 :=
  if max = 0 then some 0
  else do
    let shifted ← checkedShr value shift.toNat
    let extracted := shifted &&& max.toUInt32
    let product ← checkedMul extracted 255
    checkedDiv product max.toUInt32

/-- The index of a colour map that a pixel of so many bits can hold, up to a byte. -/
def greyMaskChecked (bitsPerPixel : UInt8) : Option UInt32 :=
  if bitsPerPixel ≥ 8 then some 0xff
  else do
    let bit ← checkedShl 1 bitsPerPixel.toNat
    checkedSub bit 1

/-- `none` where the function panics. -/
def decodePixelChecked (format : PixelFormat) (raw : Bytes) : Option (Except VncError UInt32) :=
  let step := format.bytesPerPixel
  if raw.length < step then some (.error (.protocol .truncatedPixel))
  else do
    let value ← packedChecked
      (if format.bigEndian then raw.take step else (raw.take step).reverse)
    if !format.trueColour then
      let mask ← greyMaskChecked format.bitsPerPixel
      let index := value &&& mask
      let product ← checkedMul index 255
      let level ← checkedDiv product (max mask 1)
      let red ← checkedShl level 16
      let green ← checkedShl level 8
      return .ok (red ||| green ||| level)
    else
      let red ← componentChecked value format.redMax format.redShift
      let green ← componentChecked value format.greenMax format.greenShift
      let blue ← componentChecked value format.blueMax format.blueShift
      let red ← checkedShl red 16
      let green ← checkedShl green 8
      return .ok (red ||| green ||| blue)

/-! ### The exact pixel -/

/-- The bytes of a pixel as one number, in the format's byte order, whatever its width. -/
def assembled (format : PixelFormat) (raw : Bytes) : ℕ :=
  if format.bigEndian then ofBe (raw.take format.bytesPerPixel)
  else ofLe (raw.take format.bytesPerPixel)

/-- A pixel decodes without overflow, to three channels of eight bits, and in a
true-colour format each is its channel's value, rescaled. -/
def Exact (format : PixelFormat) (raw : Bytes) : Prop :=
  ∃ red green blue : ℕ, red < 256 ∧ green < 256 ∧ blue < 256 ∧
    (∃ rgb, format.decodePixelChecked raw = some (.ok rgb) ∧
      rgb.toNat = red * 65536 + green * 256 + blue) ∧
    (format.trueColour →
      red = scaled format.redMax.toNat format.redShift.toNat (format.assembled raw) ∧
      green = scaled format.greenMax.toNat format.greenShift.toNat (format.assembled raw) ∧
      blue = scaled format.blueMax.toNat format.blueShift.toNat (format.assembled raw))

/-- A channel that is not read, or whose shift stays below the accumulator's 32
bits and whose level the pixel's bits beyond them do not change. -/
def ChannelFits (value : ℕ) (max : UInt16) (shift : UInt8) : Prop :=
  max = 0 ∨ shift.toNat < 32 ∧
    scaled max.toNat shift.toNat (value % 2 ^ 32) = scaled max.toNat shift.toNat value

/-! ### What the checked function computes -/

theorem packedChecked_eq (bytes : Bytes) : packedChecked bytes = some (packed bytes) := by
  have hfold : ∀ acc : UInt32, bytes.foldlM (fun acc byte => do
      let acc ← checkedShl acc 8
      return acc ||| byte.toUInt32) acc =
        some (bytes.foldl (fun (acc : UInt32) byte => (acc <<< 8) ||| byte.toUInt32) acc) := by
    induction bytes with
    | nil => exact fun _ => rfl
    | cons byte bytes ih =>
      intro acc
      rw [List.foldlM_cons, List.foldl_cons]
      exact ih _
  exact hfold 0

/-- The accumulator holds the low 32 bits of the number. -/
theorem toNat_packed_mod (bytes : Bytes) : (packed bytes).toNat = ofBe bytes % 2 ^ 32 := by
  induction bytes using List.reverseRecOn with
  | nil => rfl
  | append_singleton bytes byte ih =>
    have hbyte : byte.toNat < 2 ^ 8 := byte.toNat_lt
    have hnumber : ofBe (bytes ++ [byte]) = byte.toNat + 256 * ofBe bytes := by
      rw [ofBe, List.reverse_append]
      rfl
    have hshift : (packed bytes <<< 8).toNat = ofBe bytes % 2 ^ 24 * 2 ^ 8 := by
      rw [UInt32.toNat_shiftLeft, ih, Nat.shiftLeft_eq]
      show ofBe bytes % 2 ^ 32 * 2 ^ 8 % 2 ^ 32 = _
      omega
    rw [hnumber, packed, List.foldl_append, List.foldl_cons, List.foldl_nil, UInt32.toNat_or]
    change (packed bytes <<< 8).toNat ||| _ = _
    rw [hshift, UInt8.toNat_toUInt32, ← Nat.shiftLeft_eq, ← Nat.shiftLeft_add_eq_or_of_lt hbyte,
      Nat.shiftLeft_eq]
    omega

theorem toNat_packed_assembled (format : PixelFormat) (raw : Bytes) :
    (packed (if format.bigEndian then raw.take format.bytesPerPixel
      else (raw.take format.bytesPerPixel).reverse)).toNat = format.assembled raw % 2 ^ 32 := by
  rw [toNat_packed_mod, assembled]
  split_ifs
  · rfl
  · rw [ofBe, List.reverse_reverse]

theorem ofNat_toNat (count : UInt8) : UInt32.ofNat count.toNat = count.toUInt32 := by
  apply UInt32.toNat_inj.mp
  have hlt := count.toNat_lt
  rw [UInt32.toNat_ofNat', UInt8.toNat_toUInt32]
  omega

theorem componentChecked_eq (value : UInt32) {max : UInt16} {shift : UInt8}
    (h : max = 0 ∨ shift.toNat < 32) :
    componentChecked value max shift = some (component value max shift) := by
  unfold componentChecked component
  by_cases hmax : max = 0
  · rw [if_pos hmax, if_pos hmax]
  · have hshift := h.resolve_left hmax
    have hextracted : ((value >>> shift.toUInt32) &&& max.toUInt32).toNat < 2 ^ 16 := by
      rw [UInt32.toNat_and, UInt16.toNat_toUInt32]
      exact Nat.and_lt_two_pow _ max.toNat_lt
    have hdiv : max.toUInt32 ≠ 0 := by
      intro hzero
      refine hmax (UInt16.toNat_inj.mp ?_)
      rw [← UInt16.toNat_toUInt32, hzero]
      rfl
    rw [if_neg hmax, if_neg hmax, checkedShr, if_pos hshift, ofNat_toNat]
    simp only [Option.bind_eq_bind, Option.bind_some, checkedMul, checkedDiv]
    rw [if_pos (by simp only [UInt32.reduceToNat]; omega), Option.bind_some, if_neg hdiv]

theorem componentChecked_none (value : UInt32) {max : UInt16} {shift : UInt8}
    (hmax : max ≠ 0) (h : 32 ≤ shift.toNat) : componentChecked value max shift = none := by
  rw [componentChecked, if_neg hmax, checkedShr, if_neg (by omega)]
  rfl

/-- Below the accumulator's width the shift is the stated one. -/
theorem toNat_component_of_lt (value : UInt32) {max : UInt16} {shift : UInt8}
    (h : max = 0 ∨ shift.toNat < 32) :
    (component value max shift).toNat = scaled max.toNat shift.toNat value.toNat := by
  rw [toNat_component]
  rcases h with rfl | h
  · rw [scaled, scaled, UInt16.toNat_zero, Nat.div_zero, Nat.div_zero]
  · rw [Nat.mod_eq_of_lt h]

theorem toNat_max_one (mask : UInt32) :
    mask.toNat ≤ (max mask 1).toNat ∧ 0 < (max mask 1).toNat := by
  have hmax : max mask 1 = if mask ≤ 1 then 1 else mask := rfl
  rw [hmax]
  split_ifs with hle
  · exact ⟨UInt32.le_iff_toNat_le.mp hle, by decide⟩
  · rw [UInt32.le_iff_toNat_le] at hle
    exact ⟨Nat.le_refl _, by simp at hle; omega⟩

/-- The mask of a colour map's index is at most a byte. -/
theorem greyMaskChecked_eq (bits : UInt8) : ∃ mask : UInt32, mask.toNat < 256 ∧
    greyMaskChecked bits = some mask ∧
    (if bits ≥ 8 then 0xff else ((1 : UInt32) <<< bits.toUInt32) - 1) = mask := by
  by_cases hbits : bits ≥ 8
  · exact ⟨0xff, by decide, if_pos hbits, if_pos hbits⟩
  · have hlt : bits.toNat < 8 := by
      rw [ge_iff_le, UInt8.le_iff_toNat_le] at hbits
      simpa using hbits
    rw [greyMaskChecked, if_neg hbits, if_neg hbits, ← ofNat_toNat]
    generalize bits.toNat = n at hlt
    interval_cases n <;> exact ⟨_, by decide, rfl, rfl⟩

/-- A grey level is a level, in every format. -/
theorem decodePixelChecked_grey {format : PixelFormat} {raw : Bytes}
    (h : format.bytesPerPixel ≤ raw.length) (hgrey : format.trueColour = false) :
    ∃ level : UInt32, level.toNat < 256 ∧
      format.decodePixelChecked raw = some (.ok ((level <<< 16) ||| (level <<< 8) ||| level)) ∧
      format.decodePixel raw = .ok ((level <<< 16) ||| (level <<< 8) ||| level) := by
  set value := packed (if format.bigEndian then raw.take format.bytesPerPixel
    else (raw.take format.bytesPerPixel).reverse) with hvalue
  obtain ⟨mask, hmask, hchecked, hrelease⟩ := greyMaskChecked_eq format.bitsPerPixel
  obtain ⟨hle, hpos⟩ := toNat_max_one mask
  have hindex : (value &&& mask).toNat ≤ mask.toNat := by
    rw [UInt32.toNat_and]
    exact Nat.and_le_right
  have hproduct : ((value &&& mask) * 255).toNat = (value &&& mask).toNat * 255 := by
    rw [UInt32.toNat_mul]
    exact Nat.mod_eq_of_lt (by simp only [UInt32.reduceToNat]; omega)
  have hdiv : max mask 1 ≠ 0 := by
    intro hzero
    rw [hzero] at hpos
    exact absurd hpos (by decide)
  refine ⟨(value &&& mask) * 255 / max mask 1, ?_, ?_, ?_⟩
  · rw [UInt32.toNat_div, hproduct]
    have hbound : (value &&& mask).toNat * 255 ≤ (max mask 1).toNat * 255 :=
      Nat.mul_le_mul_right 255 (Nat.le_trans hindex hle)
    have hlevel := Nat.div_le_of_le_mul hbound
    omega
  · unfold decodePixelChecked
    dsimp only
    rw [if_neg (by omega), packedChecked_eq, ← hvalue, hgrey]
    simp only [Option.bind_eq_bind, Option.bind_some, Bool.not_false, if_true, hchecked,
      checkedMul, checkedDiv, checkedShl, if_neg hdiv]
    rw [if_pos (by simp only [UInt32.reduceToNat]; omega)]
    rfl
  · unfold decodePixel
    dsimp only
    rw [if_neg (by omega), hgrey, hrelease]
    rfl

theorem decodePixelChecked_colour {format : PixelFormat} {raw : Bytes}
    (h : format.bytesPerPixel ≤ raw.length) (hcolour : format.trueColour = true)
    (hred : format.redMax = 0 ∨ format.redShift.toNat < 32)
    (hgreen : format.greenMax = 0 ∨ format.greenShift.toNat < 32)
    (hblue : format.blueMax = 0 ∨ format.blueShift.toNat < 32) :
    ∃ rgb, format.decodePixelChecked raw = some (.ok rgb) ∧ rgb.toNat =
      scaled format.redMax.toNat format.redShift.toNat (format.assembled raw % 2 ^ 32) * 65536 +
      scaled format.greenMax.toNat format.greenShift.toNat (format.assembled raw % 2 ^ 32) * 256 +
      scaled format.blueMax.toNat format.blueShift.toNat (format.assembled raw % 2 ^ 32) := by
  set value := packed (if format.bigEndian then raw.take format.bytesPerPixel
    else (raw.take format.bytesPerPixel).reverse) with hvalue
  have hlow := toNat_packed_assembled format raw
  rw [← hvalue] at hlow
  have hchannel : ∀ max shift, (component value max shift).toNat < 256 := by
    intro max shift
    rw [toNat_component]
    exact scaled_lt _ _ _
  refine ⟨(component value format.redMax format.redShift <<< 16) |||
    (component value format.greenMax format.greenShift <<< 8) |||
    component value format.blueMax format.blueShift, ?_, ?_⟩
  · unfold decodePixelChecked
    dsimp only
    rw [if_neg (by omega), packedChecked_eq, ← hvalue, hcolour]
    simp only [Option.bind_eq_bind, Option.bind_some, Bool.not_true, Bool.false_eq_true, if_false,
      componentChecked_eq value hred, componentChecked_eq value hgreen,
      componentChecked_eq value hblue, checkedShl]
    rfl
  · rw [toNat_channels (hchannel _ _) (hchannel _ _) (hchannel _ _),
      toNat_component_of_lt value hred, toNat_component_of_lt value hgreen,
      toNat_component_of_lt value hblue, hlow]

/-- A channel that is read with a shift of the width or more overflows. -/
theorem decodePixelChecked_some {format : PixelFormat} {raw : Bytes}
    (h : format.bytesPerPixel ≤ raw.length) (hcolour : format.trueColour = true)
    {result : Except VncError UInt32} (hresult : format.decodePixelChecked raw = some result) :
    (format.redMax = 0 ∨ format.redShift.toNat < 32) ∧
      (format.greenMax = 0 ∨ format.greenShift.toNat < 32) ∧
      (format.blueMax = 0 ∨ format.blueShift.toNat < 32) := by
  have hread : ∀ value max shift, componentChecked value max shift ≠ none →
      max = 0 ∨ shift.toNat < 32 := by
    intro value max shift hsome
    by_contra hbad
    rw [not_or, Nat.not_lt] at hbad
    exact hsome (componentChecked_none value hbad.1 hbad.2)
  unfold decodePixelChecked at hresult
  dsimp only at hresult
  rw [if_neg (by omega), packedChecked_eq, hcolour] at hresult
  simp only [Option.bind_eq_bind, Option.bind_some, Bool.not_true, Bool.false_eq_true, if_false,
    Option.bind_eq_some_iff] at hresult
  obtain ⟨red, hred, green, hgreen, blue, hblue, -⟩ := hresult
  exact ⟨hread _ _ _ (by rw [hred]; simp), hread _ _ _ (by rw [hgreen]; simp),
    hread _ _ _ (by rw [hblue]; simp)⟩

/-- Where the checked function has a result, the release build's is the same. -/
theorem decodePixelChecked_eq {format : PixelFormat} {raw : Bytes}
    {result : Except VncError UInt32} (hresult : format.decodePixelChecked raw = some result) :
    format.decodePixel raw = result := by
  by_cases hlen : raw.length < format.bytesPerPixel
  · unfold decodePixelChecked at hresult
    dsimp only at hresult
    rw [if_pos hlen] at hresult
    cases hresult
    exact if_pos hlen
  · unfold decodePixel
    dsimp only
    rw [if_neg hlen]
    by_cases hcolour : format.trueColour = true
    · obtain ⟨hred, hgreen, hblue⟩ := decodePixelChecked_some (by omega) hcolour hresult
      unfold decodePixelChecked at hresult
      dsimp only at hresult
      rw [if_neg hlen, packedChecked_eq, hcolour] at hresult
      simp only [Option.bind_eq_bind, Option.bind_some, Bool.not_true, Bool.false_eq_true, if_false,
        componentChecked_eq _ hred, componentChecked_eq _ hgreen, componentChecked_eq _ hblue,
        checkedShl] at hresult
      cases hresult
      rw [hcolour]
      rfl
    · rw [Bool.not_eq_true] at hcolour
      obtain ⟨level, -, hchecked, hrelease⟩ := decodePixelChecked_grey (Nat.le_of_not_lt hlen) hcolour
      rw [hresult] at hchecked
      cases hchecked
      unfold decodePixel at hrelease
      dsimp only at hrelease
      rwa [if_neg hlen] at hrelease

/-! ### The result -/

theorem exact_grey {format : PixelFormat} {raw : Bytes} (h : format.bytesPerPixel ≤ raw.length)
    (hgrey : format.trueColour = false) : format.Exact raw := by
  obtain ⟨level, hlevel, hchecked, -⟩ := decodePixelChecked_grey h hgrey
  refine ⟨level.toNat, level.toNat, level.toNat, hlevel, hlevel, hlevel,
    ⟨_, hchecked, toNat_channels hlevel hlevel hlevel⟩, fun hcolour => ?_⟩
  rw [hgrey] at hcolour
  cases hcolour

theorem channelFits_iff {value : ℕ} {max : UInt16} {shift : UInt8} :
    ChannelFits value max shift ↔ (max = 0 ∨ shift.toNat < 32) ∧
      scaled max.toNat shift.toNat (value % 2 ^ 32) = scaled max.toNat shift.toNat value := by
  constructor
  · rintro (rfl | ⟨hshift, hlevel⟩)
    · refine ⟨.inl rfl, ?_⟩
      rw [scaled, scaled, UInt16.toNat_zero, Nat.div_zero, Nat.div_zero]
    · exact ⟨.inr hshift, hlevel⟩
  · rintro ⟨rfl | hshift, hlevel⟩
    · exact .inl rfl
    · exact .inr ⟨hshift, hlevel⟩

/-- A pixel of at most four bytes has no bits beyond the accumulator. -/
theorem channelFits_of_narrow {format : PixelFormat} (hbits : format.bitsPerPixel.toNat ≤ 32)
    (raw : Bytes) {max : UInt16} {shift : UInt8} (h : max = 0 ∨ shift.toNat < 32) :
    ChannelFits (format.assembled raw) max shift := by
  have hlen : (raw.take format.bytesPerPixel).length ≤ 4 := by
    refine Nat.le_trans (List.length_take_le _ _) ?_
    rw [bytesPerPixel]
    omega
  have hpow : 256 ^ (raw.take format.bytesPerPixel).length ≤ 256 ^ 4 :=
    Nat.pow_le_pow_right (by decide) hlen
  have hvalue : format.assembled raw < 2 ^ 32 := by
    refine Nat.lt_of_lt_of_le ?_ hpow
    rw [assembled]
    split_ifs
    · exact (Words.ofLe_lt _).trans_eq (by rw [List.length_reverse])
    · exact Words.ofLe_lt _
  rw [channelFits_iff, Nat.mod_eq_of_lt hvalue]
  exact ⟨h, rfl⟩

/-- Three channels of eight bits are determined by the number they make. -/
theorem channels_inj {r g b r' g' b' : ℕ} (hg : g < 256) (hb : b < 256) (hg' : g' < 256)
    (hb' : b' < 256)
    (h : r * 65536 + g * 256 + b = r' * 65536 + g' * 256 + b') : r = r' ∧ g = g' ∧ b = b' := by
  omega

/-- **When a pixel is decoded exactly.**  In every format, of every slice that
holds a pixel: exactly when each channel that is read is shifted by less than the
accumulator's width and keeps its level within it.  The levels are in the order of
the channel's values, from none at 0 to full at its maximum. -/
theorem decodePixel_exact_iff (format : PixelFormat) {raw : Bytes}
    (h : format.bytesPerPixel ≤ raw.length) :
    (format.Exact raw ↔ (format.trueColour →
      ChannelFits (format.assembled raw) format.redMax format.redShift ∧
      ChannelFits (format.assembled raw) format.greenMax format.greenShift ∧
      ChannelFits (format.assembled raw) format.blueMax format.blueShift)) ∧
    ∀ max shift v w : ℕ,
      (v / 2 ^ shift &&& max ≤ w / 2 ^ shift &&& max → scaled max shift v ≤ scaled max shift w) ∧
      (v / 2 ^ shift &&& max = 0 → scaled max shift v = 0) ∧
      (max ≠ 0 → v / 2 ^ shift &&& max = max → scaled max shift v = 255) := by
  refine ⟨?_, fun max shift v w => ⟨scaled_mono, scaled_of_eq_zero, scaled_of_eq_max⟩⟩
  by_cases hcolour : format.trueColour = true
  · constructor
    · rintro ⟨red, green, blue, -, hg, hb, ⟨rgb, hchecked, hrgb⟩, hexact⟩ _
      obtain ⟨hred, hgreen, hblue⟩ := decodePixelChecked_some h hcolour hchecked
      obtain ⟨rgb', hchecked', hrgb'⟩ := decodePixelChecked_colour h hcolour hred hgreen hblue
      rw [hchecked] at hchecked'
      cases hchecked'
      obtain ⟨hr', hg', hb'⟩ := hexact hcolour
      obtain ⟨er, eg, eb⟩ := channels_inj hg hb (scaled_lt _ _ _) (scaled_lt _ _ _)
        (hrgb.symm.trans hrgb')
      simp only [channelFits_iff]
      exact ⟨⟨hred, er.symm.trans hr'⟩, ⟨hgreen, eg.symm.trans hg'⟩, ⟨hblue, eb.symm.trans hb'⟩⟩
    · intro hfits
      obtain ⟨hr, hg, hb⟩ := hfits hcolour
      rw [channelFits_iff] at hr hg hb
      obtain ⟨rgb, hchecked, hrgb⟩ := decodePixelChecked_colour h hcolour hr.1 hg.1 hb.1
      rw [hr.2, hg.2, hb.2] at hrgb
      exact ⟨_, _, _, scaled_lt _ _ _, scaled_lt _ _ _, scaled_lt _ _ _, ⟨rgb, hchecked, hrgb⟩,
        fun _ => ⟨rfl, rfl, rfl⟩⟩
  · have hgrey : format.trueColour = false := Bool.eq_false_iff.mpr hcolour
    exact iff_of_true (exact_grey h hgrey) fun hc => absurd hc hcolour

/-- Sixteen bits in the layout 5-6-5, little-endian. -/
def fiveSixFive : PixelFormat :=
  { bitsPerPixel := 16, depth := 16, bigEndian := false, trueColour := true, redMax := 31,
    greenMax := 63, blueMax := 31, redShift := 11, greenShift := 5, blueShift := 0 }

theorem fiveSixFive_exact : fiveSixFive.Exact [0x1f, 0xf8] :=
  (decodePixel_exact_iff fiveSixFive (by decide)).1.mpr fun _ =>
    ⟨channelFits_of_narrow (by decide) _ (.inr (by decide)),
      channelFits_of_narrow (by decide) _ (.inr (by decide)),
      channelFits_of_narrow (by decide) _ (.inr (by decide))⟩

/-- A format with a shift of 32 decodes no pixel. -/
theorem shift_by_the_width_overflows :
    ¬ ∀ (format : PixelFormat) (raw : Bytes), format.bytesPerPixel ≤ raw.length →
      format.Exact raw := by
  intro h
  obtain ⟨_, _, _, _, _, _, ⟨rgb, hchecked, _⟩, _⟩ :=
    h { preferredPixelFormat with redShift := 32 } [0, 0, 0, 0] (by decide)
  have hnone : ({ preferredPixelFormat with redShift := 32 } : PixelFormat).decodePixelChecked
      [0, 0, 0, 0] = none := by decide
  rw [hnone] at hchecked
  cases hchecked

end PixelFormat

end Vnc

end RdEngine
