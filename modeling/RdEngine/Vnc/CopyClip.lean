/-
RdEngine/Vnc/CopyClip.lean

How `copy_rect` clips (`vnc/live.rs`).

A copy that clips moves the pixels of the rectangle that have both their place
and their source in the picture (`clippedCopy`).  `copy_rect` copies rows as
flat ranges of bytes: a row is copied whole or not at all, and one that sticks
out to the right runs on into the next row.  Both move every pixel by the same
flat distance, so they agree when they write the same pixels and every row that
is written was read (`copyRect_eq_clippedCopy_iff`).  What that means for the
numbers of a rectangle is `CopiesInside`.
-/
import RdEngine.Lib.Windows
import RdEngine.Vnc.Resize
import Mathlib.Data.List.GetD

namespace RdEngine

namespace Vnc

open Loops (Flow loop_keeps loop_while)
open Windows (Pasted Over put)

variable {α : Type*}

/-- The copy that clips: a pixel of the rectangle that lies in the picture and has
its source there takes the source's value from before, the others are left. -/
def clippedCopy (width height : Nat) (x y rectWidth rectHeight srcX srcY : UInt16)
    (framebuffer : List α) : List α :=
  framebuffer.mapIdx fun index byte =>
    let column := index / rgbaBytesPerPixel % width
    let row := index / rgbaBytesPerPixel / width
    let sourceColumn := srcX.toNat + (column - x.toNat)
    let sourceRow := srcY.toNat + (row - y.toNat)
    if x.toNat ≤ column ∧ column < x.toNat + rectWidth.toNat ∧ y.toNat ≤ row ∧
        row < y.toNat + rectHeight.toNat ∧ sourceColumn < width ∧ sourceRow < height then
      framebuffer.getD
        ((sourceRow * width + sourceColumn) * rgbaBytesPerPixel + index % rgbaBytesPerPixel) byte
    else byte

/-! ### Rows and pixels -/

/-- Row `i` of a rectangle at `x`, `y`, taken as a flat range, ends in the picture. -/
def Fits (w h x y rw i : ℕ) : Prop := (y + i) * w + x + rw ≤ w * h

/-- The flat range of row `i` holds pixel `t`. -/
def Covers (w x y rw i t : ℕ) : Prop := (y + i) * w + x ≤ t ∧ t < (y + i) * w + x + rw

/-- Pixel `t` lies in the rectangle, and its source in the picture. -/
def Inside (w h x y rw rh sx sy t : ℕ) : Prop :=
  x ≤ t % w ∧ t % w < x + rw ∧ y ≤ t / w ∧ t / w < y + rh ∧ sx + (t % w - x) < w ∧
    sy + (t / w - y) < h

theorem Fits.mono {w h x y rw i j : ℕ} (hi : Fits w h x y rw i) (hji : j ≤ i) :
    Fits w h x y rw j := by
  have hmul : (y + j) * w ≤ (y + i) * w := Nat.mul_le_mul_right w (by omega)
  unfold Fits at *
  omega

theorem Fits.row_lt {w h x y rw i : ℕ} (hi : Fits w h x y rw i) (hrw : 0 < rw) : y + i < h := by
  unfold Fits at hi
  have hlt : (y + i) * w < h * w := by
    rw [Nat.mul_comm h w]
    omega
  exact Nat.lt_of_mul_lt_mul_right hlt

/-- The rows before the first that does not fit are those that fit. -/
theorem rows_iff {w h x y rw rh n : ℕ} (hn : n ≤ rh) (hall : ∀ i < n, Fits w h x y rw i)
    (hstop : n < rh → ¬ Fits w h x y rw n) (i : ℕ) : i < n ↔ i < rh ∧ Fits w h x y rw i := by
  constructor
  · exact fun hi => ⟨by omega, hall i hi⟩
  · rintro ⟨hi, hfits⟩
    by_contra hni
    exact hstop (by omega) (hfits.mono (by omega))

/-! ### The two loops -/

section Loops

variable (paint : UInt8 → α) {width height : ℕ} {framebuffer : List α} {rectWidth : UInt16}
  (x y rectHeight srcX srcY : UInt16)

/-- A row fits exactly when the source's test of its end says so. -/
theorem fits_end {w h x y rw : ℕ} (hlen : framebuffer.length = w * h * rgbaBytesPerPixel) (i : ℕ) :
    Fits w h x y rw i ↔ ((y + i) * w + x) * rgbaBytesPerPixel + rw * rgbaBytesPerPixel
      ≤ framebuffer.length := by
  unfold Fits
  rw [hlen, ← Nat.add_mul]
  exact (Nat.mul_le_mul_right_iff (by decide)).symm

/-- Row `i` of the source region, as it is staged. -/
def sourceRowBytes (width : ℕ) (rectWidth srcX srcY : UInt16) (framebuffer : List α) (i : ℕ) :
    List α :=
  (framebuffer.drop (((srcY.toNat + i) * width + srcX.toNat) * rgbaBytesPerPixel)).take
    (rectWidth.toNat * rgbaBytesPerPixel)

theorem stageRows_pasted (hlen : framebuffer.length = width * height * rgbaBytesPerPixel)
    (hrw : 0 < rectWidth.toNat) :
    ∃ m, (∀ i, i < m ↔ i < rectHeight.toNat ∧
        Fits width height srcX.toNat srcY.toNat rectWidth.toNat i) ∧
      Pasted (fun i => i * (rectWidth.toNat * rgbaBytesPerPixel))
        (sourceRowBytes width rectWidth srcX srcY framebuffer)
        (.replicate (rectWidth.toNat * rgbaBytesPerPixel * rectHeight.toNat) (paint 0)) m
        (stageRows paint width height rectWidth rectHeight srcX srcY framebuffer) := by
  have hloop : ∃ m ≤ rectHeight.toNat,
      (∀ i < m, Fits width height srcX.toNat srcY.toNat rectWidth.toNat i) ∧
      (m < rectHeight.toNat → ¬ Fits width height srcX.toNat srcY.toNat rectWidth.toNat m) ∧
      Pasted (fun i => i * (rectWidth.toNat * rgbaBytesPerPixel))
        (sourceRowBytes width rectWidth srcX srcY framebuffer)
        (.replicate (rectWidth.toNat * rgbaBytesPerPixel * rectHeight.toNat) (paint 0)) m
        (stageRows paint width height rectWidth rectHeight srcX srcY framebuffer) := by
    refine loop_while (I := Pasted _ _ _) ?_ ?_ .zero
    · intro i hi staging hfits hpasted
      have hrow := hfits.row_lt hrw
      have hend := (fits_end hlen i).mp hfits
      refine ⟨_, ?_, hpasted.succ ?_⟩
      · dsimp only
        rw [if_neg (by omega), if_neg (by omega)]
        rfl
      · have hmul : (i + 1) * (rectWidth.toNat * rgbaBytesPerPixel) ≤
            rectHeight.toNat * (rectWidth.toNat * rgbaBytesPerPixel) :=
          Nat.mul_le_mul_right _ hi
        rw [List.length_replicate, sourceRowBytes, List.length_take,
          Nat.mul_comm _ rectHeight.toNat]
        rw [Nat.add_mul, Nat.one_mul] at hmul
        omega
    · intro i _ staging hfits _
      rw [fits_end hlen] at hfits
      dsimp only
      split_ifs with hrow hend
      · rfl
      · rfl
      · exact absurd (Nat.le_of_not_lt hend) hfits
  obtain ⟨m, hm, hall, hstop, hpasted⟩ := hloop
  exact ⟨m, rows_iff hm hall hstop, hpasted⟩

/-- Row `i` of the staging buffer, as it is written. -/
def stagedRow (width height : ℕ) (rectWidth rectHeight srcX srcY : UInt16) (framebuffer : List α)
    (i : ℕ) : List α :=
  ((stageRows paint width height rectWidth rectHeight srcX srcY framebuffer).drop
    (i * (rectWidth.toNat * rgbaBytesPerPixel))).take (rectWidth.toNat * rgbaBytesPerPixel)

theorem stagedRow_length (hlen : framebuffer.length = width * height * rgbaBytesPerPixel)
    (hrw : 0 < rectWidth.toNat) {i : ℕ} (hi : i < rectHeight.toNat) :
    (stagedRow paint width height rectWidth rectHeight srcX srcY framebuffer i).length =
      rectWidth.toNat * rgbaBytesPerPixel := by
  obtain ⟨m, -, hpasted⟩ := stageRows_pasted paint rectHeight srcX srcY hlen hrw
  have hmul : (i + 1) * (rectWidth.toNat * rgbaBytesPerPixel) ≤
      rectHeight.toNat * (rectWidth.toNat * rgbaBytesPerPixel) := Nat.mul_le_mul_right _ hi
  rw [Nat.add_mul, Nat.one_mul, Nat.mul_comm rectHeight.toNat] at hmul
  rw [stagedRow, List.length_take, List.length_drop, hpasted.length, List.length_replicate]
  omega

theorem copyRect_pasted (hlen : framebuffer.length = width * height * rgbaBytesPerPixel)
    (hrw : 0 < rectWidth.toNat) :
    ∃ n, (∀ i, i < n ↔ i < rectHeight.toNat ∧
        Fits width height x.toNat y.toNat rectWidth.toNat i) ∧
      Pasted (fun i => ((y.toNat + i) * width + x.toNat) * rgbaBytesPerPixel)
        (stagedRow paint width height rectWidth rectHeight srcX srcY framebuffer) framebuffer n
        (copyRect paint width height x y rectWidth rectHeight srcX srcY framebuffer) := by
  have hloop : ∃ n ≤ rectHeight.toNat,
      (∀ i < n, Fits width height x.toNat y.toNat rectWidth.toNat i) ∧
      (n < rectHeight.toNat → ¬ Fits width height x.toNat y.toNat rectWidth.toNat n) ∧
      Pasted (fun i => ((y.toNat + i) * width + x.toNat) * rgbaBytesPerPixel)
        (stagedRow paint width height rectWidth rectHeight srcX srcY framebuffer) framebuffer n
        (copyRect paint width height x y rectWidth rectHeight srcX srcY framebuffer) := by
    refine loop_while (I := Pasted _ _ _) ?_ ?_ .zero
    · intro i hi drawn hfits hpasted
      have hrow := hfits.row_lt hrw
      have hend := (fits_end hlen i).mp hfits
      refine ⟨_, ?_, hpasted.succ ?_⟩
      · dsimp only
        rw [if_neg (by omega), hpasted.length, if_neg (by omega)]
        rfl
      · rw [stagedRow_length paint rectHeight srcX srcY hlen hrw hi]
        exact hend
    · intro i _ drawn hfits hpasted
      rw [fits_end hlen] at hfits
      dsimp only
      rw [hpasted.length]
      split_ifs with hrow hend
      · rfl
      · rfl
      · exact absurd (Nat.le_of_not_lt hend) hfits
  obtain ⟨n, hn, hall, hstop, hpasted⟩ := hloop
  exact ⟨n, rows_iff hn hall hstop, hpasted⟩

/-- A staged row is the source's if the source's row fits, and blank otherwise. -/
theorem staged_row (hlen : framebuffer.length = width * height * rgbaBytesPerPixel)
    {i j : ℕ} (hi : i < rectHeight.toNat) (hj : j < rectWidth.toNat * rgbaBytesPerPixel) :
    (Fits width height srcX.toNat srcY.toNat rectWidth.toNat i →
      (stageRows paint width height rectWidth rectHeight srcX srcY framebuffer)[
          i * (rectWidth.toNat * rgbaBytesPerPixel) + j]? =
        framebuffer[((srcY.toNat + i) * width + srcX.toNat) * rgbaBytesPerPixel + j]?) ∧
    (¬ Fits width height srcX.toNat srcY.toNat rectWidth.toNat i →
      (stageRows paint width height rectWidth rectHeight srcX srcY framebuffer)[
          i * (rectWidth.toNat * rgbaBytesPerPixel) + j]? = some (paint 0)) := by
  have hrw : 0 < rectWidth.toNat := Nat.pos_of_mul_pos_right (Nat.zero_lt_of_lt hj)
  obtain ⟨m, hm, hpasted⟩ := stageRows_pasted paint rectHeight srcX srcY hlen hrw
  set B := rectWidth.toNat * rgbaBytesPerPixel
  -- the windows of the staging buffer are disjoint
  have hapart : ∀ i', Over (fun i => i * B) (sourceRowBytes width rectWidth srcX srcY framebuffer) i'
      (i * B + j) → i' = i := by
    rintro i' ⟨hlow, hhigh⟩
    dsimp only at hlow hhigh
    have hsize : (sourceRowBytes width rectWidth srcX srcY framebuffer i').length ≤ B :=
      List.length_take_le _ _
    rcases Nat.lt_trichotomy i' i with hlt | heq | hgt
    · have hmul : (i' + 1) * B ≤ i * B := Nat.mul_le_mul_right B hlt
      rw [Nat.add_mul, Nat.one_mul] at hmul
      omega
    · exact heq
    · have hmul : (i + 1) * B ≤ i' * B := Nat.mul_le_mul_right B hgt
      rw [Nat.add_mul, Nat.one_mul] at hmul
      omega
  constructor
  · intro hfits
    have hend := (fits_end hlen i).mp hfits
    have hrow : (sourceRowBytes width rectWidth srcX srcY framebuffer i).length = B := by
      rw [sourceRowBytes, List.length_take, List.length_drop]
      omega
    have hover : Over (fun i => i * B) (sourceRowBytes width rectWidth srcX srcY framebuffer) i
        (i * B + j) := ⟨Nat.le_add_right _ _, by rw [hrow]; exact Nat.add_lt_add_left hj _⟩
    rw [hpasted.last i ((hm i).mpr ⟨hi, hfits⟩) _ hover fun i' hlt _ h => by
      rw [hapart i' h] at hlt
      exact absurd hlt (lt_irrefl _)]
    rw [Nat.add_sub_cancel_left, sourceRowBytes, List.getElem?_take_of_lt hj, List.getElem?_drop]
  · intro hfits
    have hmul : (i + 1) * B ≤ rectHeight.toNat * B := Nat.mul_le_mul_right B hi
    rw [Nat.add_mul, Nat.one_mul, Nat.mul_comm rectHeight.toNat] at hmul
    rw [hpasted.kept _ fun i' hi' h => by
      rw [hapart i' h] at hi'
      exact hfits ((hm i).mp hi').2]
    rw [List.getElem?_replicate, if_pos (by omega)]

/-! ### What a copy leaves at a place -/

variable {x y rectHeight srcX srcY}

/-- A rectangle without a pixel changes nothing. -/
theorem copyRect_of_empty (h : rectWidth.toNat = 0 ∨ rectHeight.toNat = 0) :
    copyRect paint width height x y rectWidth rectHeight srcX srcY framebuffer = framebuffer := by
  rcases h with hw | hh
  · refine loop_keeps (I := fun drawn => drawn = framebuffer) (fun i drawn hdrawn => ?_) _ rfl
    subst hdrawn
    rw [hw, Nat.zero_mul]
    dsimp only
    split_ifs
    · rfl
    · rfl
    · rw [Flow.value, List.take_zero, overwrite, List.length_nil, Nat.add_zero, List.append_nil]
      exact List.take_append_drop _ _
  · rw [copyRect, hh]
    rfl

/-- A row's bytes are those of its pixels. -/
theorem over_iff (hlen : framebuffer.length = width * height * rgbaBytesPerPixel)
    (hrw : 0 < rectWidth.toNat) {i : ℕ} (hi : i < rectHeight.toNat) (k : ℕ) :
    Over (fun i => ((y.toNat + i) * width + x.toNat) * rgbaBytesPerPixel)
        (stagedRow paint width height rectWidth rectHeight srcX srcY framebuffer) i k ↔
      Covers width x.toNat y.toNat rectWidth.toNat i (k / rgbaBytesPerPixel) := by
  unfold Over Covers
  rw [stagedRow_length paint rectHeight srcX srcY hlen hrw hi, rgbaBytesPerPixel]
  dsimp only
  omega

/-- A pixel that no row covers is left. -/
theorem copyRect_uncovered (hlen : framebuffer.length = width * height * rgbaBytesPerPixel)
    (hrw : 0 < rectWidth.toNat) {k : ℕ}
    (h : ∀ i < rectHeight.toNat, Fits width height x.toNat y.toNat rectWidth.toNat i →
      ¬ Covers width x.toNat y.toNat rectWidth.toNat i (k / rgbaBytesPerPixel)) :
    (copyRect paint width height x y rectWidth rectHeight srcX srcY framebuffer)[k]? =
      framebuffer[k]? := by
  obtain ⟨n, hn, hpasted⟩ := copyRect_pasted paint x y rectHeight srcX srcY hlen hrw
  refine hpasted.kept k fun i hi hover => ?_
  obtain ⟨hrh, hfits⟩ := (hn i).mp hi
  exact h i hrh hfits ((over_iff paint hlen hrw hrh k).mp hover)

variable (srcX srcY) in
/-- A pixel takes what the last row over it was staged with. -/
theorem copyRect_last (hlen : framebuffer.length = width * height * rgbaBytesPerPixel)
    (hrw : 0 < rectWidth.toNat) {i t j : ℕ} (hi : i < rectHeight.toNat)
    (hfits : Fits width height x.toNat y.toNat rectWidth.toNat i)
    (hcovers : Covers width x.toNat y.toNat rectWidth.toNat i t)
    (hlast : ∀ i', i < i' → i' < rectHeight.toNat →
      Fits width height x.toNat y.toNat rectWidth.toNat i' →
      ¬ Covers width x.toNat y.toNat rectWidth.toNat i' t) (hj : j < rgbaBytesPerPixel) :
    (Fits width height srcX.toNat srcY.toNat rectWidth.toNat i →
      (copyRect paint width height x y rectWidth rectHeight srcX srcY framebuffer)[
          t * rgbaBytesPerPixel + j]? =
        framebuffer[((srcY.toNat + i) * width + srcX.toNat +
          (t - ((y.toNat + i) * width + x.toNat))) * rgbaBytesPerPixel + j]?) ∧
    (¬ Fits width height srcX.toNat srcY.toNat rectWidth.toNat i →
      (copyRect paint width height x y rectWidth rectHeight srcX srcY framebuffer)[
          t * rgbaBytesPerPixel + j]? = some (paint 0)) := by
  obtain ⟨n, hn, hpasted⟩ := copyRect_pasted paint x y rectHeight srcX srcY hlen hrw
  have hpixel : (t * rgbaBytesPerPixel + j) / rgbaBytesPerPixel = t := by
    rw [rgbaBytesPerPixel] at *
    omega
  have hvalue := hpasted.last i ((hn i).mpr ⟨hi, hfits⟩) (t * rgbaBytesPerPixel + j)
    ((over_iff paint hlen hrw hi _).mpr (by rwa [hpixel])) fun i' hlt hi' hover => by
      obtain ⟨hrh, hfits'⟩ := (hn i').mp hi'
      rw [over_iff paint hlen hrw hrh, hpixel] at hover
      exact hlast i' hlt hrh hfits' hover
  -- the place within the row
  obtain ⟨hlow, hhigh⟩ := hcovers
  obtain ⟨c, rfl⟩ := Nat.exists_eq_add_of_le hlow
  have hplace : ((y.toNat + i) * width + x.toNat + c) * rgbaBytesPerPixel + j -
      ((y.toNat + i) * width + x.toNat) * rgbaBytesPerPixel = c * rgbaBytesPerPixel + j := by
    rw [rgbaBytesPerPixel]
    omega
  have hin : c * rgbaBytesPerPixel + j < rectWidth.toNat * rgbaBytesPerPixel := by
    rw [rgbaBytesPerPixel] at *
    omega
  rw [hplace, stagedRow, List.getElem?_take_of_lt hin, List.getElem?_drop] at hvalue
  rw [hvalue, Nat.add_sub_cancel_left]
  obtain ⟨hsource, hblank⟩ := staged_row paint rectHeight srcX srcY hlen hi hin
  refine ⟨fun h => (hsource h).trans ?_, hblank⟩
  congr 1
  rw [Nat.add_mul _ c, Nat.add_assoc]

variable (srcX srcY) in
/-- A pixel that a row covers, every row written having been staged, takes the
value from before at the flat distance of the two corners. -/
theorem copyRect_covered (hlen : framebuffer.length = width * height * rgbaBytesPerPixel)
    (hrw : 0 < rectWidth.toNat)
    (hstaged : ∀ i < rectHeight.toNat, Fits width height x.toNat y.toNat rectWidth.toNat i →
      Fits width height srcX.toNat srcY.toNat rectWidth.toNat i) {k : ℕ}
    (h : ∃ i < rectHeight.toNat, Fits width height x.toNat y.toNat rectWidth.toNat i ∧
      Covers width x.toNat y.toNat rectWidth.toNat i (k / rgbaBytesPerPixel)) :
    ∃ source < framebuffer.length,
      source + (y.toNat * width + x.toNat) * rgbaBytesPerPixel =
        k + (srcY.toNat * width + srcX.toNat) * rgbaBytesPerPixel ∧
      (copyRect paint width height x y rectWidth rectHeight srcX srcY framebuffer)[k]? =
        framebuffer[source]? := by
  obtain ⟨i, hi, ⟨hfits, hcovers⟩, hlast⟩ := Windows.exists_last h
  have hsource := hstaged i hi hfits
  have hend := (fits_end hlen i).mp hsource
  have hj := Nat.mod_lt k (show rgbaBytesPerPixel > 0 by decide)
  have hvalue := (copyRect_last paint srcX srcY hlen hrw hi hfits hcovers
    (fun i' hlt hi' hf hc => hlast i' hlt hi' ⟨hf, hc⟩) hj).1 hsource
  have hbyte := Nat.div_add_mod' k rgbaBytesPerPixel
  rw [hbyte] at hvalue
  obtain ⟨hlow, hhigh⟩ := hcovers
  obtain ⟨c, hc⟩ := Nat.exists_eq_add_of_le hlow
  rw [hc] at hhigh
  rw [hc, Nat.add_sub_cancel_left] at hvalue
  refine ⟨_, ?_, ?_, hvalue⟩
  · rw [rgbaBytesPerPixel] at *
    omega
  · conv_rhs => rw [← hbyte, hc]
    ring

variable (srcX srcY) in
/-- The first pixel of a row that was written without having been staged is blank. -/
theorem copyRect_unstaged (hlen : framebuffer.length = width * height * rgbaBytesPerPixel)
    (hrw : 0 < rectWidth.toNat) {i : ℕ} (hi : i < rectHeight.toNat)
    (hfits : Fits width height x.toNat y.toNat rectWidth.toNat i)
    (hsource : ¬ Fits width height srcX.toNat srcY.toNat rectWidth.toNat i) :
    (copyRect paint width height x y rectWidth rectHeight srcX srcY framebuffer)[
      ((y.toNat + i) * width + x.toNat) * rgbaBytesPerPixel]? = some (paint 0) := by
  obtain ⟨n, hn, hpasted⟩ := copyRect_pasted paint x y rectHeight srcX srcY hlen hrw
  have hj : 0 < rectWidth.toNat * rgbaBytesPerPixel := Nat.mul_pos hrw (by decide)
  have hrow := stagedRow_length paint rectHeight srcX srcY hlen hrw hi
  have hw : 0 < width := by
    rcases Nat.eq_zero_or_pos width with rfl | hpos
    · unfold Fits at hfits
      omega
    · exact hpos
  rw [hpasted.last i ((hn i).mpr ⟨hi, hfits⟩) _ ⟨le_refl _, by rw [hrow]; omega⟩]
  · rw [Nat.sub_self, stagedRow, List.getElem?_take_of_lt hj, List.getElem?_drop]
    exact (staged_row paint rectHeight srcX srcY hlen hi hj).2 hsource
  · rintro i' hlt - ⟨hlow, -⟩
    dsimp only at hlow
    have hmul : (y.toNat + (i + 1)) * width ≤ (y.toNat + i') * width :=
      Nat.mul_le_mul_right width (by omega)
    rw [← Nat.add_assoc, Nat.add_mul, Nat.one_mul] at hmul
    rw [rgbaBytesPerPixel] at hlow
    omega

end Loops

/-! ### What a copy that clips leaves at a place -/

section Clipped

variable {width height : ℕ} {x y rectWidth rectHeight srcX srcY : UInt16} {framebuffer : List α}

theorem clippedCopy_outside {k : ℕ}
    (h : ¬ Inside width height x.toNat y.toNat rectWidth.toNat rectHeight.toNat srcX.toNat
      srcY.toNat (k / rgbaBytesPerPixel)) :
    (clippedCopy width height x y rectWidth rectHeight srcX srcY framebuffer)[k]? =
      framebuffer[k]? := by
  rw [clippedCopy, List.getElem?_mapIdx]
  cases framebuffer[k]? with
  | none => rfl
  | some byte =>
    rw [Option.map_some]
    exact congrArg some (if_neg h)

theorem clippedCopy_inside (hlen : framebuffer.length = width * height * rgbaBytesPerPixel)
    {k : ℕ} (hk : k < framebuffer.length)
    (h : Inside width height x.toNat y.toNat rectWidth.toNat rectHeight.toNat srcX.toNat
      srcY.toNat (k / rgbaBytesPerPixel)) :
    ∃ source < framebuffer.length,
      source + (y.toNat * width + x.toNat) * rgbaBytesPerPixel =
        k + (srcY.toNat * width + srcX.toNat) * rgbaBytesPerPixel ∧
      (clippedCopy width height x y rectWidth rectHeight srcX srcY framebuffer)[k]? =
        framebuffer[source]? := by
  set t := k / rgbaBytesPerPixel with ht
  have hpixel := Nat.div_add_mod t width
  have hbyte := Nat.div_add_mod k rgbaBytesPerPixel
  have hlow := Nat.mod_lt k (show rgbaBytesPerPixel > 0 by decide)
  obtain ⟨hx, -, hy, -, hsx, hsy⟩ := id h
  obtain ⟨column, hcolumn⟩ := Nat.exists_eq_add_of_le hx
  obtain ⟨row, hrow⟩ := Nat.exists_eq_add_of_le hy
  rw [hcolumn, Nat.add_sub_cancel_left] at hsx
  rw [hrow, Nat.add_sub_cancel_left] at hsy
  have hsource : (srcY.toNat + row) * width + (srcX.toNat + column) < width * height := by
    have hmul : (srcY.toNat + row + 1) * width ≤ height * width := Nat.mul_le_mul_right width hsy
    rw [Nat.add_mul _ 1, Nat.one_mul, Nat.mul_comm height] at hmul
    omega
  have hbound : ((srcY.toNat + row) * width + (srcX.toNat + column)) * rgbaBytesPerPixel +
      k % rgbaBytesPerPixel < framebuffer.length := by
    rw [hlen, rgbaBytesPerPixel]
    rw [rgbaBytesPerPixel] at hlow
    omega
  refine ⟨_, hbound, ?_, ?_⟩
  · rw [hcolumn, hrow] at hpixel
    rw [← ht, ← hpixel] at hbyte
    conv_rhs => rw [← hbyte]
    ring
  · rw [clippedCopy, List.getElem?_mapIdx, List.getElem?_eq_getElem hk, Option.map_some,
      List.getElem?_eq_getElem hbound]
    refine congrArg some ((if_pos h).trans ?_)
    rw [← ht, hcolumn, hrow, Nat.add_sub_cancel_left, Nat.add_sub_cancel_left]
    exact List.getD_eq_getElem _ _ hbound

end Clipped

/-! ### When the two agree -/

section Agreement

/-- A picture with one byte that stands out. -/
def marked (length k : ℕ) : Bytes := (List.replicate length 0).set k 255

theorem length_marked (length k : ℕ) : (marked length k).length = length := by
  rw [marked, List.length_set, List.length_replicate]

theorem getElem?_marked {length j : ℕ} (k : ℕ) (hj : j < length) :
    (marked length k)[j]? = some (if k = j then 255 else 0) := by
  rw [marked, List.getElem?_set]
  split_ifs with hkj hk
  · rfl
  · rw [List.length_replicate, hkj] at hk
    exact absurd hj hk
  · rw [List.getElem?_replicate, if_pos hj]

variable {width height : ℕ} {x y rectWidth rectHeight srcX srcY : UInt16}

/-- Copies that write the pixels to be written, from rows that were staged, agree. -/
theorem copyRect_eq_clippedCopy {framebuffer : Bytes}
    (hlen : framebuffer.length = width * height * rgbaBytesPerPixel) (hrw : 0 < rectWidth.toNat)
    (hstaged : ∀ i < rectHeight.toNat, Fits width height x.toNat y.toNat rectWidth.toNat i →
      Fits width height srcX.toNat srcY.toNat rectWidth.toNat i)
    (hpixels : ∀ t < width * height, (∃ i < rectHeight.toNat,
      Fits width height x.toNat y.toNat rectWidth.toNat i ∧
        Covers width x.toNat y.toNat rectWidth.toNat i t) ↔
      Inside width height x.toNat y.toNat rectWidth.toNat rectHeight.toNat srcX.toNat
        srcY.toNat t) :
    copyRect id width height x y rectWidth rectHeight srcX srcY framebuffer =
      clippedCopy width height x y rectWidth rectHeight srcX srcY framebuffer := by
  apply List.ext_getElem?
  intro k
  by_cases hk : k < framebuffer.length
  · have hpixel : k / rgbaBytesPerPixel < width * height := by
      rw [hlen] at hk
      exact Nat.div_lt_of_lt_mul (by rwa [Nat.mul_comm])
    by_cases hinside : Inside width height x.toNat y.toNat rectWidth.toNat rectHeight.toNat
        srcX.toNat srcY.toNat (k / rgbaBytesPerPixel)
    · obtain ⟨source, -, hshift, hvalue⟩ := clippedCopy_inside hlen hk hinside
      obtain ⟨source', -, hshift', hvalue'⟩ :=
        copyRect_covered id srcX srcY hlen hrw hstaged ((hpixels _ hpixel).mpr hinside)
      rw [hvalue, hvalue', show source' = source by omega]
    · rw [clippedCopy_outside hinside]
      refine copyRect_uncovered id hlen hrw fun i hi hfits hcovers => hinside ?_
      exact (hpixels _ hpixel).mp ⟨i, hi, hfits, hcovers⟩
  · rw [List.getElem?_eq_none (by rw [length_copyRect]; omega),
      List.getElem?_eq_none (by rw [clippedCopy, List.length_mapIdx]; omega)]

/-- Where the corners' flat places differ, a copy agrees with the one that clips
exactly when every row that is written was staged and the pixels written are the
ones to be written. -/
theorem copyRect_eq_clippedCopy_iff (hrw : 0 < rectWidth.toNat)
    (hne : y.toNat * width + x.toNat ≠ srcY.toNat * width + srcX.toNat) :
    (∀ framebuffer : Bytes, framebuffer.length = width * height * rgbaBytesPerPixel →
      copyRect id width height x y rectWidth rectHeight srcX srcY framebuffer =
        clippedCopy width height x y rectWidth rectHeight srcX srcY framebuffer) ↔
    (∀ i < rectHeight.toNat, Fits width height x.toNat y.toNat rectWidth.toNat i →
      Fits width height srcX.toNat srcY.toNat rectWidth.toNat i) ∧
    ∀ t < width * height, (∃ i < rectHeight.toNat,
      Fits width height x.toNat y.toNat rectWidth.toNat i ∧
        Covers width x.toNat y.toNat rectWidth.toNat i t) ↔
      Inside width height x.toNat y.toNat rectWidth.toNat rectHeight.toNat srcX.toNat
        srcY.toNat t := by
  constructor
  · intro hagree
    have hstaged : ∀ i < rectHeight.toNat, Fits width height x.toNat y.toNat rectWidth.toNat i →
        Fits width height srcX.toNat srcY.toNat rectWidth.toNat i := by
      intro i hi hfits
      by_contra hsource
      -- over a picture without a blank byte the blank pixel shows
      have hlen : (List.replicate (width * height * rgbaBytesPerPixel) (255 : UInt8)).length =
          width * height * rgbaBytesPerPixel := List.length_replicate
      have hblank := copyRect_unstaged id srcX srcY hlen hrw hi hfits hsource
      rw [hagree _ hlen] at hblank
      set k := ((y.toNat + i) * width + x.toNat) * rgbaBytesPerPixel
      have hk : k < (List.replicate (width * height * rgbaBytesPerPixel) (255 : UInt8)).length := by
        have hend := (fits_end hlen i).mp hfits
        have hpos : 0 < rectWidth.toNat * rgbaBytesPerPixel := Nat.mul_pos hrw (by decide)
        omega
      by_cases hinside : Inside width height x.toNat y.toNat rectWidth.toNat rectHeight.toNat
          srcX.toNat srcY.toNat (k / rgbaBytesPerPixel)
      · obtain ⟨source, hsource, -, hvalue⟩ := clippedCopy_inside hlen hk hinside
        rw [hvalue, List.getElem?_replicate, if_pos (by rwa [hlen] at hsource)] at hblank
        exact absurd hblank (by decide)
      · rw [clippedCopy_outside hinside, List.getElem?_replicate,
          if_pos (by rwa [hlen] at hk)] at hblank
        exact absurd hblank (by decide)
    refine ⟨hstaged, fun t ht => ?_⟩
    -- the first byte of the pixel stands out
    have hlen := length_marked (width * height * rgbaBytesPerPixel) (t * rgbaBytesPerPixel)
    have hk : t * rgbaBytesPerPixel < width * height * rgbaBytesPerPixel := by
      rw [rgbaBytesPerPixel]
      omega
    have hpixel : t * rgbaBytesPerPixel / rgbaBytesPerPixel = t :=
      Nat.mul_div_cancel t (by decide)
    have hthere := getElem?_marked (t * rgbaBytesPerPixel) hk
    rw [if_pos rfl] at hthere
    have hother : ∀ source < (marked (width * height * rgbaBytesPerPixel)
        (t * rgbaBytesPerPixel)).length,
        source + (y.toNat * width + x.toNat) * rgbaBytesPerPixel =
          t * rgbaBytesPerPixel + (srcY.toNat * width + srcX.toNat) * rgbaBytesPerPixel →
        (marked (width * height * rgbaBytesPerPixel) (t * rgbaBytesPerPixel))[source]? = some 0 := by
      intro source hsource hshift
      rw [length_marked] at hsource
      rw [getElem?_marked _ hsource, if_neg]
      rintro rfl
      rw [rgbaBytesPerPixel] at hshift
      omega
    have heq := congrArg (fun l => l[t * rgbaBytesPerPixel]?) (hagree _ hlen)
    constructor
    · intro hcovered
      by_contra hinside
      obtain ⟨source, hsource, hshift, hvalue⟩ := copyRect_covered id srcX srcY
        hlen hrw hstaged (k := t * rgbaBytesPerPixel) (by rw [hpixel]; exact hcovered)
      rw [hvalue, hother source hsource hshift, clippedCopy_outside (by rwa [hpixel]),
        hthere] at heq
      exact absurd heq (by decide)
    · intro hinside
      by_contra hcovered
      obtain ⟨source, hsource, hshift, hvalue⟩ := clippedCopy_inside hlen
        (k := t * rgbaBytesPerPixel) (by rwa [hlen]) (by rwa [hpixel])
      rw [hvalue, hother source hsource hshift, copyRect_uncovered id hlen hrw
        (by rw [hpixel]; exact fun i hi hfits hc => hcovered ⟨i, hi, hfits, hc⟩), hthere] at heq
      exact absurd heq (by decide)
  · rintro ⟨hstaged, hpixels⟩ framebuffer hlen
    exact copyRect_eq_clippedCopy hlen hrw hstaged hpixels

end Agreement

/-! ### What it means for the numbers -/

section Numbers

variable {w h x y rw rh sx sy : ℕ}

/-- The pixels written are the ones to be written, and their rows were read. -/
def Matches (w h x y rw rh sx sy : ℕ) : Prop :=
  (∀ i < rh, Fits w h x y rw i → Fits w h sx sy rw i) ∧
    ∀ t < w * h, (∃ i < rh, Fits w h x y rw i ∧ Covers w x y rw i t) ↔ Inside w h x y rw rh sx sy t

/-- No row fits, and the first pixel has no place or no source. -/
def Clear (w h x y rw sx sy : ℕ) : Prop :=
  w * h < y * w + x + rw ∧ (w ≤ x ∨ h ≤ y ∨ w ≤ sx ∨ h ≤ sy)

/-- The columns are those of the picture, and so are the rows that are read. -/
def Upright (w h x y rw rh sx sy : ℕ) : Prop :=
  y < h ∧ x + rw ≤ w ∧ sx + rw ≤ w ∧ sy + min rh (h - y) ≤ h

/-- A rectangle as wide as several rows of the picture, which together reach its
last row, read from no lower than they are written. -/
def Wrapped (w h x y rw rh sx sy : ℕ) : Prop :=
  x = 0 ∧ sx = 0 ∧ w ∣ rw ∧ 2 * w ≤ rw ∧ rw ≤ (h - y) * w ∧ h - y ≤ rh ∧ sy ≤ y

theorem place_div {q c : ℕ} (hc : c < w) : (q * w + c) / w = q := by
  rw [Nat.mul_comm, Nat.mul_add_div (by omega), Nat.div_eq_of_lt hc, Nat.add_zero]

theorem place_mod {q c : ℕ} (hc : c < w) : (q * w + c) % w = c := by
  rw [Nat.mul_comm, Nat.mul_add_mod, Nat.mod_eq_of_lt hc]

theorem Fits.lt_of_covers {i t : ℕ} (hfits : Fits w h x y rw i) (hcovers : Covers w x y rw i t) :
    t < w * h := by
  unfold Fits Covers at *
  omega

theorem matches_of_clear (hc : Clear w h x y rw sx sy) : Matches w h x y rw rh sx sy := by
  obtain ⟨hend, hout⟩ := hc
  have hnone : ∀ i, ¬ Fits w h x y rw i := by
    intro i hfits
    have hfirst := hfits.mono (Nat.zero_le i)
    unfold Fits at hfirst
    rw [Nat.add_zero] at hfirst
    omega
  refine ⟨fun i _ hfits => absurd hfits (hnone i), fun t ht => ⟨?_, ?_⟩⟩
  · rintro ⟨i, -, hfits, -⟩
    exact absurd hfits (hnone i)
  · rintro ⟨hx, -, hy, -, hsx, hsy⟩
    have hw : 0 < w := Nat.pos_of_mul_pos_right (Nat.zero_lt_of_lt ht)
    have hcolumn := Nat.mod_lt t hw
    have hrow : t / w < h := Nat.div_lt_of_lt_mul ht
    omega

/-- A row of an upright rectangle fits if it is a row of the picture. -/
theorem fits_iff_of_le (hx : x + rw ≤ w) (hrw : 0 < rw) {i : ℕ} :
    Fits w h x y rw i ↔ y + i < h := by
  refine ⟨fun hfits => hfits.row_lt hrw, fun hi => ?_⟩
  have hmul : (y + i + 1) * w ≤ h * w := Nat.mul_le_mul_right w hi
  rw [Nat.add_mul _ 1, Nat.one_mul, Nat.mul_comm h] at hmul
  unfold Fits
  omega

theorem matches_of_upright (hrw : 0 < rw) (hu : Upright w h x y rw rh sx sy) :
    Matches w h x y rw rh sx sy := by
  obtain ⟨hy, hx, hsx, hsy⟩ := hu
  refine ⟨fun i hi => ?_, fun t ht => ⟨?_, ?_⟩⟩
  · rw [fits_iff_of_le hx hrw, fits_iff_of_le hsx hrw]
    omega
  · rintro ⟨i, hi, hfits, hlow, hhigh⟩
    rw [fits_iff_of_le hx hrw] at hfits
    obtain ⟨c, rfl⟩ := Nat.exists_eq_add_of_le hlow
    have hdiv : ((y + i) * w + x + c) / w = y + i := by
      rw [Nat.add_assoc]
      exact place_div (by omega)
    have hmod : ((y + i) * w + x + c) % w = x + c := by
      rw [Nat.add_assoc]
      exact place_mod (by omega)
    unfold Inside
    rw [hdiv, hmod]
    omega
  · rintro ⟨hx1, hx2, hy1, hy2, -, -⟩
    have hrow : t / w < h := Nat.div_lt_of_lt_mul ht
    have hpixel := Nat.div_add_mod t w
    obtain ⟨i, hi⟩ := Nat.exists_eq_add_of_le hy1
    refine ⟨i, by omega, (fits_iff_of_le hx hrw).mpr (by omega), ?_⟩
    rw [hi, Nat.mul_comm] at hpixel
    unfold Covers
    omega

/-- A row of whole rows fits if the last of them is a row of the picture. -/
theorem fits_iff_of_dvd (hw : 0 < w) {m i : ℕ} :
    Fits w h 0 y (w * m) i ↔ y + i + m ≤ h := by
  unfold Fits
  rw [Nat.add_zero, Nat.mul_comm w m, ← Nat.add_mul, Nat.mul_comm w h]
  exact Nat.mul_le_mul_right_iff hw

theorem covers_iff_of_dvd (hw : 0 < w) {m i t : ℕ} :
    Covers w 0 y (w * m) i t ↔ y + i ≤ t / w ∧ t / w < y + i + m := by
  unfold Covers
  rw [Nat.add_zero, Nat.mul_comm w m, ← Nat.add_mul, Nat.le_div_iff_mul_le hw,
    Nat.div_lt_iff_lt_mul hw]

theorem matches_of_wrapped (hrw : 0 < rw) (hw : Wrapped w h x y rw rh sx sy) :
    Matches w h x y rw rh sx sy := by
  obtain ⟨rfl, rfl, ⟨m, rfl⟩, hwide, hfirst, hrows, hsy⟩ := hw
  have hpos : 0 < w := Nat.pos_of_mul_pos_right hrw
  have hm : 2 ≤ m := by
    rw [Nat.mul_comm 2] at hwide
    exact Nat.le_of_mul_le_mul_left hwide hpos
  have hmh : m ≤ h - y := by
    rw [Nat.mul_comm (h - y)] at hfirst
    exact Nat.le_of_mul_le_mul_left hfirst hpos
  refine ⟨fun i hi => ?_, fun t ht => ⟨?_, ?_⟩⟩
  · rw [fits_iff_of_dvd hpos, fits_iff_of_dvd hpos]
    omega
  · rintro ⟨i, hi, hfits, hcovers⟩
    rw [fits_iff_of_dvd hpos] at hfits
    rw [covers_iff_of_dvd hpos] at hcovers
    have hcolumn := Nat.mod_lt t hpos
    have hge : w ≤ w * m := Nat.le_mul_of_pos_right w (by omega)
    unfold Inside
    omega
  · rintro ⟨-, -, hy1, hy2, -, -⟩
    have hrow : t / w < h := Nat.div_lt_of_lt_mul ht
    -- the row itself, or the last that fits
    refine ⟨min (t / w - y) (h - y - m), by omega, ?_, ?_⟩
    · rw [fits_iff_of_dvd hpos]
      omega
    · rw [covers_iff_of_dvd hpos]
      omega

/-- A pixel of a row that fits is one to be written. -/
theorem Matches.inside (hm : Matches w h x y rw rh sx sy) {i c q k : ℕ} (hi : i < rh)
    (hfits : Fits w h x y rw i) (hc : c < rw) (hk : k < w) (heq : (y + i) * w + x + c = q * w + k) :
    x ≤ k ∧ k < x + rw ∧ y ≤ q ∧ q < y + rh ∧ sx + (k - x) < w ∧ sy + (q - y) < h := by
  have hcovers : Covers w x y rw i (q * w + k) := by
    rw [← heq]
    exact ⟨Nat.le_add_right _ _, Nat.add_lt_add_left hc _⟩
  have hinside := (hm.2 _ (hfits.lt_of_covers hcovers)).mp ⟨i, hi, hfits, hcovers⟩
  unfold Inside at hinside
  rwa [place_div hk, place_mod hk] at hinside

theorem Matches.clear (hm : Matches w h x y rw rh sx sy) (hrw : 0 < rw) (hrh : 0 < rh)
    (hfit : ¬ Fits w h x y rw 0) : Clear w h x y rw sx sy := by
  unfold Fits at hfit
  rw [Nat.add_zero] at hfit
  refine ⟨by omega, ?_⟩
  by_contra hin
  have hx : x < w := by omega
  have hy : y * w + x < w * h := by
    have hmul : (y + 1) * w ≤ h * w := Nat.mul_le_mul_right w (by omega)
    rw [Nat.add_mul, Nat.one_mul, Nat.mul_comm h] at hmul
    omega
  have hinside : Inside w h x y rw rh sx sy (y * w + x) := by
    unfold Inside
    rw [place_div hx, place_mod hx]
    omega
  obtain ⟨i, -, hfits, -⟩ := (hm.2 _ hy).mpr hinside
  have hfirst := hfits.mono (Nat.zero_le i)
  unfold Fits at hfirst
  rw [Nat.add_zero] at hfirst
  omega

theorem Matches.upright (hm : Matches w h x y rw rh sx sy) (hrw : 0 < rw) (hrh : 0 < rh)
    (hfit : Fits w h x y rw 0) (hx : x + rw ≤ w) : Upright w h x y rw rh sx sy := by
  have hy := hfit.row_lt hrw
  rw [Nat.add_zero] at hy
  -- the last column of the first row, and the first column of the last row
  have hcolumn := hm.inside (c := rw - 1) (q := y) (k := x + (rw - 1)) hrh hfit (by omega)
    (by omega) (by rw [Nat.add_zero, Nat.add_assoc])
  have hlast : Fits w h x y rw (min rh (h - y) - 1) := (fits_iff_of_le hx hrw).mpr (by omega)
  have hrow := hm.inside (c := 0) (q := y + (min rh (h - y) - 1)) (k := x) (by omega) hlast hrw
    (by omega) (by rw [Nat.add_zero])
  unfold Upright
  omega

/-- Rows that wrap end where a row of the picture does: otherwise the pixel after
the last one written is one to be written too. -/
theorem Matches.dvd (hm : Matches w h 0 y rw rh 0 sy) (hw : 0 < w) (hrh : 0 < rh)
    (hfit : Fits w h 0 y rw 0) (hwide : w < rw) : w ∣ rw := by
  by_contra hdvd
  have hdiv := Nat.div_add_mod rw w
  have hlt := Nat.mod_lt rw hw
  have hpos : 0 < rw % w := Nat.pos_of_ne_zero fun h => hdvd (Nat.dvd_of_mod_eq_zero h)
  have hfits : ∀ i, Fits w h 0 y rw i ↔ y + i + rw / w < h := by
    intro i
    unfold Fits
    constructor
    · intro hle
      have hmul : (y + i + rw / w) * w < h * w := by
        rw [Nat.add_mul, Nat.mul_comm (rw / w), Nat.mul_comm h]
        omega
      exact Nat.lt_of_mul_lt_mul_right hmul
    · intro hi
      have hmul : (y + i + rw / w + 1) * w ≤ h * w := Nat.mul_le_mul_right w hi
      rw [Nat.add_mul _ 1, Nat.add_mul, Nat.mul_comm (rw / w), Nat.mul_comm h] at hmul
      omega
  rw [hfits] at hfit
  set i := min (rh - 1) (h - y - rw / w - 1) with hi
  have hlast : Fits w h 0 y rw i := (hfits i).mpr (by omega)
  have hend : (y + i) * w + 0 + rw = (y + i + rw / w) * w + rw % w := by
    rw [Nat.add_mul _ (rw / w), Nat.mul_comm (rw / w)]
    omega
  have hwritten := hm.inside (c := rw - 1) (q := y + i + rw / w) (k := rw % w - 1) (by omega)
    hlast (by omega) (by omega) (by omega)
  have hnext : Inside w h 0 y rw rh 0 sy ((y + i + rw / w) * w + rw % w) := by
    unfold Inside
    rw [place_div hlt, place_mod hlt]
    omega
  have hin : (y + i + rw / w) * w + rw % w < w * h := by
    have hmul : (y + i + rw / w + 1) * w ≤ h * w := Nat.mul_le_mul_right w (by omega)
    rw [Nat.add_mul _ 1, Nat.one_mul, Nat.mul_comm h] at hmul
    omega
  obtain ⟨j, hj, hjfits, -, hbefore⟩ := (hm.2 _ hin).mpr hnext
  rw [hfits] at hjfits
  have hmul : (y + j) * w ≤ (y + i) * w := Nat.mul_le_mul_right w (by omega)
  omega

theorem Matches.wrapped (hm : Matches w h x y rw rh sx sy) (hrw : 0 < rw) (hrh : 0 < rh)
    (hfit : Fits w h x y rw 0) (hx : w < x + rw) : Wrapped w h x y rw rh sx sy := by
  have hw : 0 < w := by
    rcases Nat.eq_zero_or_pos w with rfl | hpos
    · unfold Fits at hfit
      omega
    · exact hpos
  -- the first pixel, the first of the next row, and the last of the first row
  have hfirst := hm.inside (c := 0) (q := y + x / w) (k := x % w) hrh hfit hrw
    (Nat.mod_lt x hw) (by rw [Nat.add_zero, Nat.add_zero, Nat.add_mul, Nat.add_assoc,
      Nat.mul_comm (x / w), Nat.div_add_mod])
  have hxw : x < w := Nat.lt_of_le_of_lt hfirst.1 (Nat.mod_lt x hw)
  have hnext := hm.inside (c := w - x) (q := y + 1) (k := 0) hrh hfit (by omega) hw
    (by rw [Nat.add_zero, Nat.add_zero, Nat.add_mul, Nat.one_mul]; omega)
  obtain rfl : x = 0 := Nat.le_zero.mp hnext.1
  rw [Nat.zero_add] at hx
  have hlast := hm.inside (c := w - 1) (q := y) (k := w - 1) hrh hfit (by omega) (by omega)
    (by rw [Nat.add_zero, Nat.add_zero])
  obtain rfl : sx = 0 := by omega
  obtain ⟨m, rfl⟩ := hm.dvd hw hrh hfit hx
  have hm2 : 2 ≤ m := by
    by_contra hlt
    have hle : w * m ≤ w * 1 := Nat.mul_le_mul_left w (by omega)
    omega
  rw [fits_iff_of_dvd hw] at hfit
  have hrows : h - y ≤ rh := by
    by_contra hlt
    -- the row below the rectangle is written by one that wraps into it
    set i := min (rh - 1) (h - y - m) with hi
    have hfits : Fits w h 0 y (w * m) i := (fits_iff_of_dvd hw).mpr (by omega)
    have hc : (rh - i) * w < w * m := by
      rw [Nat.mul_comm]
      exact Nat.mul_lt_mul_of_pos_left (by omega) hw
    have hbelow := hm.inside (c := (rh - i) * w) (q := y + rh) (k := 0) (by omega) hfits hc hw
      (by rw [Nat.add_zero, Nat.add_zero, ← Nat.add_mul]; congr 1; omega)
    omega
  have hsource := hm.1 (h - y - m) (by omega) ((fits_iff_of_dvd hw).mpr (by omega))
  rw [fits_iff_of_dvd hw] at hsource
  refine ⟨rfl, rfl, ⟨m, rfl⟩, ?_, ?_, hrows, by omega⟩
  · rw [Nat.mul_comm]
    exact Nat.mul_le_mul_left w hm2
  · rw [Nat.mul_comm]
    exact Nat.mul_le_mul_right w (by omega)

theorem matches_iff (hrw : 0 < rw) (hrh : 0 < rh) :
    Matches w h x y rw rh sx sy ↔
      Clear w h x y rw sx sy ∨ Upright w h x y rw rh sx sy ∨ Wrapped w h x y rw rh sx sy := by
  constructor
  · intro hm
    by_cases hfit : Fits w h x y rw 0
    · rcases Nat.lt_or_ge w (x + rw) with hx | hx
      · exact .inr (.inr (hm.wrapped hrw hrh hfit hx))
      · exact .inr (.inl (hm.upright hrw hrh hfit hx))
    · exact .inl (hm.clear hrw hrh hfit)
  · rintro (hc | hu | hw)
    · exact matches_of_clear hc
    · exact matches_of_upright hrw hu
    · exact matches_of_wrapped hrw hw

end Numbers

/-! ### When a copy clips -/

section Result

variable {width height : ℕ} {x y rectWidth rectHeight srcX srcY : UInt16}

/-- The rectangles that are copied as they should be: the empty ones, the ones
copied onto themselves, the ones that copy nothing at all, the ones that keep to
the columns of the picture, and those of whole rows. -/
def CopiesInside (width height : ℕ) (x y rectWidth rectHeight srcX srcY : UInt16) : Prop :=
  rectWidth.toNat = 0 ∨ rectHeight.toNat = 0 ∨
  y.toNat * width + x.toNat = srcY.toNat * width + srcX.toNat ∨
  Clear width height x.toNat y.toNat rectWidth.toNat srcX.toNat srcY.toNat ∨
  Upright width height x.toNat y.toNat rectWidth.toNat rectHeight.toNat srcX.toNat srcY.toNat ∨
  Wrapped width height x.toNat y.toNat rectWidth.toNat rectHeight.toNat srcX.toNat srcY.toNat

theorem clippedCopy_of_not_inside {framebuffer : List α}
    (h : ∀ t, ¬ Inside width height x.toNat y.toNat rectWidth.toNat rectHeight.toNat srcX.toNat
      srcY.toNat t) :
    clippedCopy width height x y rectWidth rectHeight srcX srcY framebuffer = framebuffer :=
  List.ext_getElem? fun _ => clippedCopy_outside (h _)

theorem copyRect_empty {framebuffer : Bytes} (h : rectWidth.toNat = 0 ∨ rectHeight.toNat = 0) :
    copyRect id width height x y rectWidth rectHeight srcX srcY framebuffer =
      clippedCopy width height x y rectWidth rectHeight srcX srcY framebuffer := by
  rw [clippedCopy_of_not_inside fun t ht => by unfold Inside at ht; omega]
  exact copyRect_of_empty id h

/-- A rectangle copied onto itself is left. -/
theorem copyRect_self {framebuffer : Bytes}
    (hlen : framebuffer.length = width * height * rgbaBytesPerPixel) (hrw : 0 < rectWidth.toNat)
    (h : y.toNat * width + x.toNat = srcY.toNat * width + srcX.toNat) :
    copyRect id width height x y rectWidth rectHeight srcX srcY framebuffer =
      clippedCopy width height x y rectWidth rectHeight srcX srcY framebuffer := by
  have hstaged : ∀ i < rectHeight.toNat, Fits width height x.toNat y.toNat rectWidth.toNat i →
      Fits width height srcX.toNat srcY.toNat rectWidth.toNat i := by
    intro i _ hfits
    unfold Fits at *
    rw [Nat.add_mul] at *
    omega
  apply List.ext_getElem?
  intro k
  have hcopied : (copyRect id width height x y rectWidth rectHeight srcX srcY framebuffer)[k]? =
      framebuffer[k]? := by
    by_cases hcovered : ∃ i < rectHeight.toNat,
        Fits width height x.toNat y.toNat rectWidth.toNat i ∧
          Covers width x.toNat y.toNat rectWidth.toNat i (k / rgbaBytesPerPixel)
    · obtain ⟨source, -, hshift, hvalue⟩ := copyRect_covered id srcX srcY hlen hrw hstaged hcovered
      rw [h] at hshift
      rw [hvalue, Nat.add_right_cancel hshift]
    · exact copyRect_uncovered id hlen hrw fun i hi hfits hc => hcovered ⟨i, hi, hfits, hc⟩
  have hclipped : (clippedCopy width height x y rectWidth rectHeight srcX srcY framebuffer)[k]? =
      framebuffer[k]? := by
    by_cases hinside : k < framebuffer.length ∧ Inside width height x.toNat y.toNat
        rectWidth.toNat rectHeight.toNat srcX.toNat srcY.toNat (k / rgbaBytesPerPixel)
    · obtain ⟨source, -, hshift, hvalue⟩ := clippedCopy_inside hlen hinside.1 hinside.2
      rw [h] at hshift
      rw [hvalue, Nat.add_right_cancel hshift]
    · by_cases hk : k < framebuffer.length
      · exact clippedCopy_outside fun h => hinside ⟨hk, h⟩
      · rw [List.getElem?_eq_none (by rw [clippedCopy, List.length_mapIdx]; omega),
          List.getElem?_eq_none (by omega)]
  rw [hcopied, hclipped]

/-- **When `copy_rect` clips.**  Of a picture of the given size, whatever its
bytes, it makes what the clipped copy makes exactly when the rectangle is one of
`CopiesInside`. -/
theorem copyRect_clips_iff (width height : ℕ) (x y rectWidth rectHeight srcX srcY : UInt16) :
    (∀ framebuffer : Bytes, framebuffer.length = width * height * rgbaBytesPerPixel →
      copyRect id width height x y rectWidth rectHeight srcX srcY framebuffer =
        clippedCopy width height x y rectWidth rectHeight srcX srcY framebuffer) ↔
    CopiesInside width height x y rectWidth rectHeight srcX srcY := by
  unfold CopiesInside
  by_cases hrw : rectWidth.toNat = 0
  · exact iff_of_true (fun _ _ => copyRect_empty (.inl hrw)) (.inl hrw)
  · by_cases hrh : rectHeight.toNat = 0
    · exact iff_of_true (fun _ _ => copyRect_empty (.inr hrh)) (.inr (.inl hrh))
    · have hw : 0 < rectWidth.toNat := Nat.pos_of_ne_zero hrw
      have hh : 0 < rectHeight.toNat := Nat.pos_of_ne_zero hrh
      by_cases hself : y.toNat * width + x.toNat = srcY.toNat * width + srcX.toNat
      · exact iff_of_true (fun _ hlen => copyRect_self hlen hw hself) (.inr (.inr (.inl hself)))
      · have hmatches : Matches width height x.toNat y.toNat rectWidth.toNat rectHeight.toNat
            srcX.toNat srcY.toNat ↔ _ := matches_iff hw hh
        rw [copyRect_eq_clippedCopy_iff hw hself]
        simp only [hrw, hrh, hself, false_or]
        exact hmatches

/-- A rectangle that sticks out to the right by one column writes that column into
the first column of the next row. -/
theorem copyRect_wraps_past_the_edge :
    ¬ ∀ (framebuffer : Bytes) (width height : ℕ) (x y rectWidth rectHeight srcX srcY : UInt16),
      framebuffer.length = width * height * rgbaBytesPerPixel →
        copyRect id width height x y rectWidth rectHeight srcX srcY framebuffer =
          clippedCopy width height x y rectWidth rectHeight srcX srcY framebuffer := by
  intro h
  exact absurd (h [1, 1, 1, 1, 2, 2, 2, 2, 3, 3, 3, 3, 4, 4, 4, 4] 2 2 1 0 2 1 0 0 rfl) (by decide)

end Result

end Vnc

end RdEngine
