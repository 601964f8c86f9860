/-
RdEngine/Vnc/Sequential.lean

An update that resizes the picture and draws on it (`apply_rectangles` in
`vnc/live.rs`).

In order, a resize replaces the picture at once, and what follows is drawn on the
cleared picture of the new size (`applyInOrder`).  `apply_rectangles` draws every
rectangle on the picture of the old size and clears it at the end, so the two
agree exactly when nothing that follows the last resize leaves anything on the
new picture (`applyRectangles_inOrder_iff`).  A pixel once drawn is opaque, so
what is left on a cleared picture is a matter of geometry: `painted` says which
pixels a list of rectangles leaves drawn.
-/
import RdEngine.Vnc.CopyClip

namespace RdEngine

namespace Vnc

open Loops

variable {α : Type*}

/-! ### In order -/

/-- One rectangle of an update, on the picture of its time: a new size takes its
place at once. -/
def applyNext (paint : UInt8 → α) (format : PixelFormat) (state : List α × Nat × Nat)
    (rectangle : Rectangle) : List α × Nat × Nat :=
  match rectangle.size? with
  | some (newWidth, newHeight) =>
    (.replicate (newWidth.toNat * newHeight.toNat * rgbaBytesPerPixel) (paint 0),
      newWidth.toNat, newHeight.toNat)
  | none =>
    ((applyRectangle paint state.2.1 state.2.2 format (state.1, none) rectangle).1, state.2)

/-- The rectangles, one after the other. -/
def applyInOrder (paint : UInt8 → α) (width height : Nat) (format : PixelFormat)
    (rectangles : List Rectangle) (framebuffer : List α) : List α × Nat × Nat :=
  rectangles.foldl (applyNext paint format) (framebuffer, width, height)

/-! ### What rectangles leave drawn -/

/-- The pixels of a rectangle that a draw stores: those in the picture whose data
is there. -/
def Stored (w h x y rw rh : ℕ) (enough : ℕ → Prop) (t : ℕ) : Prop :=
  ∃ row < rh, ∃ column < rw, y + row < h ∧ x + column < w ∧ enough (row * rw + column) ∧
    t = (y + row) * w + (x + column)

/-- The drawn pixels after a copy: a pixel that a row covers is drawn if the last
row over it was read from drawn pixels, the others are what they were. -/
def Copied (w h x y rw rh sx sy : ℕ) (drawn : ℕ → Prop) (t : ℕ) : Prop :=
  (∃ i < rh, Fits w h x y rw i ∧ Covers w x y rw i t ∧
      (∀ j, i < j → j < rh → Fits w h x y rw j → ¬ Covers w x y rw j t) ∧
      Fits w h sx sy rw i ∧ drawn ((sy + i) * w + sx + (t - ((y + i) * w + x)))) ∨
    (∀ i < rh, Fits w h x y rw i → ¬ Covers w x y rw i t) ∧ drawn t

/-- The drawn pixels after one rectangle, on a picture of the given size. -/
def paintedNext (w h : ℕ) (format : PixelFormat) (drawn : ℕ → Prop) : Rectangle → ℕ → Prop
  | .raw x y rw rh pixels => fun t => drawn t ∨
    Stored w h x.toNat y.toNat rw.toNat rh.toNat
      (fun i => (i + 1) * max format.bytesPerPixel 1 ≤ pixels.length) t
  | .copyRect x y rw rh srcX srcY =>
    Copied w h x.toNat y.toNat rw.toNat rh.toNat srcX.toNat srcY.toNat drawn
  | .solid x y rw rh pixel => fun t => drawn t ∨
    Stored w h x.toNat y.toNat rw.toNat rh.toNat (fun _ => format.bytesPerPixel ≤ pixel.length) t
  | .desktopSize _ _ => drawn

/-- The pixels that rectangles leave drawn on a cleared picture. -/
def painted (w h : ℕ) (format : PixelFormat) (rectangles : List Rectangle) : ℕ → Prop :=
  rectangles.foldl (paintedNext w h format) fun _ => False

/-! ### Drawn pixels are opaque -/

/-- A picture of `count` pixels that is blank but for the drawn ones, which are
opaque. -/
structure Shows (count : ℕ) (drawn : ℕ → Prop) (framebuffer : Bytes) : Prop where
  length : framebuffer.length = count * rgbaBytesPerPixel
  alpha : ∀ t < count, drawn t → framebuffer[t * rgbaBytesPerPixel + 3]? = some 255
  blank : ∀ t < count, ¬ drawn t → ∀ j < rgbaBytesPerPixel,
    framebuffer[t * rgbaBytesPerPixel + j]? = some 0

namespace Shows

variable {count : ℕ} {drawn drawn' : ℕ → Prop} {framebuffer : Bytes}

theorem congr (h : Shows count drawn framebuffer) (heq : ∀ t < count, drawn t ↔ drawn' t) :
    Shows count drawn' framebuffer where
  length := h.length
  alpha t ht hd := h.alpha t ht ((heq t ht).mpr hd)
  blank t ht hd := h.blank t ht fun hd' => hd ((heq t ht).mp hd')

theorem cleared : Shows count (fun _ => False)
    (List.replicate (count * rgbaBytesPerPixel) (0 : UInt8)) where
  length := List.length_replicate
  alpha _ _ := False.elim
  blank t ht _ j hj := by
    rw [List.getElem?_replicate, if_pos]
    rw [rgbaBytesPerPixel] at *
    omega

/-- A cleared picture is one on which nothing is drawn. -/
theorem eq_cleared_iff (h : Shows count drawn framebuffer) :
    framebuffer = List.replicate (count * rgbaBytesPerPixel) 0 ↔ ∀ t < count, ¬ drawn t := by
  constructor
  · intro heq t ht hd
    have halpha := h.alpha t ht hd
    rw [heq, List.getElem?_replicate] at halpha
    split_ifs at halpha
    exact absurd halpha (by decide)
  · intro hnone
    apply List.ext_getElem?
    intro k
    by_cases hk : k < count * rgbaBytesPerPixel
    · have hpixel : k / rgbaBytesPerPixel < count := Nat.div_lt_of_lt_mul (by rwa [Nat.mul_comm])
      have hzero := h.blank _ hpixel (hnone _ hpixel) _
        (Nat.mod_lt k (show rgbaBytesPerPixel > 0 by decide))
      rw [Nat.div_add_mod'] at hzero
      rw [hzero, List.getElem?_replicate, if_pos hk]
    · rw [List.getElem?_eq_none (by rw [h.length]; omega),
        List.getElem?_eq_none (by rw [List.length_replicate]; omega)]

/-- A stored pixel is drawn, and the others are what they were. -/
theorem store (h : Shows count drawn framebuffer) {t : ℕ} (ht : t < count) (rgb : UInt32) :
    Shows count (fun u => drawn u ∨ u = t)
      (storePixel id framebuffer (t * rgbaBytesPerPixel) rgb) := by
  have hlen := h.length
  have hother : ∀ u < count, u ≠ t → ∀ j < rgbaBytesPerPixel,
      (storePixel id framebuffer (t * rgbaBytesPerPixel) rgb)[u * rgbaBytesPerPixel + j]? =
        framebuffer[u * rgbaBytesPerPixel + j]? := by
    intro u _ hne j hj
    rw [rgbaBytesPerPixel] at *
    unfold storePixel
    rw [List.getElem?_set_ne (by omega), List.getElem?_set_ne (by omega),
      List.getElem?_set_ne (by omega), List.getElem?_set_ne (by omega)]
  refine ⟨(length_storePixel ..).trans hlen, fun u hu hd => ?_, fun u hu hd j hj => ?_⟩
  · by_cases hut : u = t
    · subst hut
      unfold storePixel
      rw [List.getElem?_set_self]
      · rfl
      · simp only [List.length_set, hlen]
        rw [rgbaBytesPerPixel]
        omega
    · rw [hother u hu hut 3 (by decide)]
      exact h.alpha u hu (hd.resolve_right hut)
  · rw [hother u hu (fun hut => hd (.inr hut)) j hj]
    exact h.blank u hu (fun hdu => hd (.inl hdu)) j hj

end Shows

/-! ### Draws store the pixels of their rectangle -/

section Draw

variable {w h x y rw rh : ℕ} {enough : ℕ → Prop} {drawn : ℕ → Prop}

/-- The pixel of the rectangle at a row and a column is pixel `t`, and is stored. -/
def StoredAt (w h x y rw : ℕ) (enough : ℕ → Prop) (row column t : ℕ) : Prop :=
  y + row < h ∧ x + column < w ∧ enough (row * rw + column) ∧ t = (y + row) * w + (x + column)

/-- The pixels stored before a row and a column are reached. -/
def StoredBefore (w h x y rw : ℕ) (enough : ℕ → Prop) (row column t : ℕ) : Prop :=
  (∃ r < row, ∃ c < rw, StoredAt w h x y rw enough r c t) ∨
    ∃ c < column, StoredAt w h x y rw enough row c t

theorem storedBefore_next_row (row t : ℕ) :
    StoredBefore w h x y rw enough (row + 1) 0 t ↔ StoredBefore w h x y rw enough row rw t := by
  constructor
  · rintro (⟨r, hr, c, hc, hat⟩ | ⟨c, hc, -⟩)
    · by_cases hrow : r = row
      · exact .inr ⟨c, hc, hrow ▸ hat⟩
      · exact .inl ⟨r, by omega, c, hc, hat⟩
    · exact absurd hc (Nat.not_lt_zero c)
  · rintro (⟨r, hr, c, hc, hat⟩ | ⟨c, hc, hat⟩)
    · exact .inl ⟨r, by omega, c, hc, hat⟩
    · exact .inl ⟨row, by omega, c, hc, hat⟩

theorem storedBefore_next_column (row column t : ℕ) :
    StoredBefore w h x y rw enough row (column + 1) t ↔
      StoredBefore w h x y rw enough row column t ∨ StoredAt w h x y rw enough row column t := by
  constructor
  · rintro (hrows | ⟨c, hc, hat⟩)
    · exact .inl (.inl hrows)
    · by_cases hcolumn : c = column
      · exact .inr (hcolumn ▸ hat)
      · exact .inl (.inr ⟨c, by omega, hat⟩)
  · rintro ((hrows | ⟨c, hc, hat⟩) | hat)
    · exact .inl hrows
    · exact .inr ⟨c, by omega, hat⟩
    · exact .inr ⟨column, by omega, hat⟩

/-- Once the data has run out, or the picture, nothing more is stored. -/
theorem stored_of_end {row column t : ℕ} (hrow : row < rh) (hcolumn : column ≤ rw)
    (henough : ∀ i j, i ≤ j → enough j → enough i)
    (hend : h ≤ y + row ∧ column = 0 ∨ ¬ enough (row * rw + column)) :
    Stored w h x y rw rh enough t ↔ StoredBefore w h x y rw enough row column t := by
  constructor
  · rintro ⟨r, hr, c, hc, hy, hx, he, ht⟩
    have hat : StoredAt w h x y rw enough r c t := ⟨hy, hx, he, ht⟩
    rcases Nat.lt_trichotomy r row with hlt | rfl | hgt
    · exact .inl ⟨r, hlt, c, hc, hat⟩
    · by_cases hcc : c < column
      · exact .inr ⟨c, hcc, hat⟩
      · rcases hend with ⟨hh, -⟩ | hend
        · omega
        · exact absurd (henough _ _ (by omega) he) hend
    · rcases hend with ⟨hh, -⟩ | hend
      · omega
      · have hmul : (row + 1) * rw ≤ r * rw := Nat.mul_le_mul_right rw hgt
        rw [Nat.add_mul, Nat.one_mul] at hmul
        exact absurd (henough _ _ (by omega) he) hend
  · rintro (⟨r, hr, c, hc, hy, hx, he, ht⟩ | ⟨c, hc, hy, hx, he, ht⟩)
    · exact ⟨r, by omega, c, hc, hy, hx, he, ht⟩
    · exact ⟨row, hrow, c, by omega, hy, hx, he, ht⟩

-- a body that skips the columns out of the picture, stores a pixel while its data
-- is there, and returns when it is not
variable {store : ℕ → ℕ → Bytes → Flow Bytes}
    (henough : ∀ i j, i ≤ j → enough j → enough i)
    (hskip : ∀ row column s, w ≤ x + column → store row column s = .next s)
    (hstore : ∀ row column s, s.length = w * h * rgbaBytesPerPixel → y + row < h →
      x + column < w → enough (row * rw + column) → ∃ rgb, store row column s =
        .next (storePixel id s (((y + row) * w + (x + column)) * rgbaBytesPerPixel) rgb))
    (hreturn : ∀ row column s, x + column < w → ¬ enough (row * rw + column) →
      store row column s = .leave s)

include henough hskip hstore hreturn

theorem shows_row {row : ℕ} (hrow : row < rh) (hin : y + row < h) {s : Bytes}
    (hs : Shows (w * h) (fun t => drawn t ∨ StoredBefore w h x y rw enough row 0 t) s) :
    (loop (store row) rw s).Holds
      (Shows (w * h) fun t => drawn t ∨ StoredBefore w h x y rw enough row rw t)
      (Shows (w * h) fun t => drawn t ∨ Stored w h x y rw rh enough t) := by
  refine loop_holds
    (I := fun column => Shows (w * h) fun t => drawn t ∨ StoredBefore w h x y rw enough row column t)
    (fun column hcolumn s hs => ?_) hs
  by_cases hout : w ≤ x + column
  · -- a column out of the picture is skipped
    rw [hskip row column s hout]
    refine hs.congr fun t _ => or_congr Iff.rfl ?_
    rw [storedBefore_next_column]
    exact ⟨.inl, fun h => h.resolve_right fun hat => absurd hat.2.1 (by omega)⟩
  · by_cases he : enough (row * rw + column)
    · obtain ⟨rgb, hbody⟩ := hstore row column s hs.length hin (by omega) he
      have hplace : (y + row) * w + (x + column) < w * h := by
        have hmul : (y + row + 1) * w ≤ h * w := Nat.mul_le_mul_right w hin
        rw [Nat.add_mul _ 1, Nat.one_mul, Nat.mul_comm h] at hmul
        omega
      rw [hbody]
      refine (hs.store hplace rgb).congr fun t _ => ?_
      rw [storedBefore_next_column, or_assoc]
      refine or_congr Iff.rfl (or_congr Iff.rfl ?_)
      exact ⟨fun ht => ⟨hin, by omega, he, ht⟩, fun hat => hat.2.2.2⟩
    · -- the data has run out
      rw [hreturn row column s (by omega) he]
      exact hs.congr fun t _ => or_congr Iff.rfl
        (stored_of_end hrow (Nat.le_of_lt hcolumn) henough (.inr he)).symm

theorem shows_draw {framebuffer : Bytes} (hshows : Shows (w * h) drawn framebuffer) :
    Shows (w * h) (fun t => drawn t ∨ Stored w h x y rw rh enough t)
      (loop (fun row s => if y + row ≥ h then .leave s else loop (store row) rw s) rh
        framebuffer).value := by
  have hloop : (loop (fun row s => if y + row ≥ h then .leave s else loop (store row) rw s) rh
      framebuffer).Holds
        (Shows (w * h) fun t => drawn t ∨ StoredBefore w h x y rw enough rh 0 t)
        (Shows (w * h) fun t => drawn t ∨ Stored w h x y rw rh enough t) := by
    refine loop_holds
      (I := fun row => Shows (w * h) fun t => drawn t ∨ StoredBefore w h x y rw enough row 0 t)
      (fun row hrow s hs => ?_) (hshows.congr fun t _ => ?_)
    · split_ifs with hbelow
      · exact hs.congr fun t _ => or_congr Iff.rfl
          (stored_of_end hrow (Nat.zero_le rw) henough (.inl ⟨hbelow, rfl⟩)).symm
      · refine (shows_row henough hskip hstore hreturn hrow (Nat.lt_of_not_le hbelow) hs).imp
          (fun s hs => hs.congr fun t _ => or_congr Iff.rfl ?_) (fun s hs => hs)
        exact (storedBefore_next_row row t).symm
    · have hnone : ¬ StoredBefore w h x y rw enough 0 0 t := by
        rintro (⟨r, hr, -⟩ | ⟨c, hc, -⟩)
        · exact absurd hr (Nat.not_lt_zero r)
        · exact absurd hc (Nat.not_lt_zero c)
      exact ⟨.inl, fun h => h.resolve_right hnone⟩
  refine Flow.Holds.value (hloop.imp (fun s hs => hs.congr fun t _ => or_congr Iff.rfl ?_)
    fun s hs => hs)
  constructor
  · rintro (hrows | ⟨c, hc, -⟩)
    · exact hrows
    · exact absurd hc (Nat.not_lt_zero c)
  · exact .inl

end Draw

/-! ### What each rectangle leaves drawn -/

theorem decodePixel_ok {format : PixelFormat} {raw : Bytes}
    (h : format.bytesPerPixel ≤ raw.length) : ∃ rgb, format.decodePixel raw = .ok rgb := by
  unfold PixelFormat.decodePixel
  dsimp only
  rw [if_neg (by omega)]
  split
  · exact ⟨_, rfl⟩
  · exact ⟨_, rfl⟩

theorem decodePixel_error {format : PixelFormat} {raw : Bytes}
    (h : raw.length < format.bytesPerPixel) :
    format.decodePixel raw = .error (.protocol .truncatedPixel) := if_pos h

/-- The four bytes of a pixel of the picture are in the buffer. -/
theorem place_end {w h row column : ℕ} {s : Bytes} (hlen : s.length = w * h * rgbaBytesPerPixel)
    (hrow : row < h) (hcolumn : column < w) :
    (row * w + column) * rgbaBytesPerPixel + rgbaBytesPerPixel ≤ s.length := by
  have hmul : (row + 1) * w ≤ h * w := Nat.mul_le_mul_right w hrow
  rw [Nat.add_mul, Nat.one_mul, Nat.mul_comm h] at hmul
  rw [hlen, rgbaBytesPerPixel]
  omega

theorem place_pixel {t j : ℕ} (hj : j < rgbaBytesPerPixel) :
    (t * rgbaBytesPerPixel + j) / rgbaBytesPerPixel = t := by
  rw [rgbaBytesPerPixel] at *
  omega

/-- A row that was staged was read from the picture. -/
theorem source_lt {w h x y rw sx sy i t : ℕ} (hsource : Fits w h sx sy rw i)
    (hcovers : Covers w x y rw i t) : (sy + i) * w + sx + (t - ((y + i) * w + x)) < w * h := by
  unfold Fits Covers at *
  omega

namespace Shows

variable {w h : ℕ} {drawn : ℕ → Prop} {framebuffer : Bytes}

theorem blitRaw (hs : Shows (w * h) drawn framebuffer) (format : PixelFormat)
    (x y rw rh : UInt16) (pixels : Bytes) :
    Shows (w * h) (paintedNext w h format drawn (.raw x y rw rh pixels))
      (blitRaw id w h format x y rw rh pixels framebuffer) := by
  have hmul : ∀ i, (i + 1) * max format.bytesPerPixel 1 =
      i * max format.bytesPerPixel 1 + max format.bytesPerPixel 1 := fun i => by
    rw [Nat.add_mul, Nat.one_mul]
  refine shows_draw ?_ ?_ ?_ ?_ hs
  · intro i j hij hj
    have hle : (i + 1) * max format.bytesPerPixel 1 ≤ (j + 1) * max format.bytesPerPixel 1 :=
      Nat.mul_le_mul_right _ (by omega)
    exact Nat.le_trans hle hj
  · exact fun row column s hout => if_pos hout
  · intro row column s hlen hin hcolumn henough
    have hend := place_end hlen hin hcolumn
    rw [hmul] at henough
    have hdata : format.bytesPerPixel ≤
        (pixels.drop ((row * rw.toNat + column) * max format.bytesPerPixel 1)).length := by
      rw [List.length_drop]
      omega
    obtain ⟨rgb, hrgb⟩ := decodePixel_ok hdata
    refine ⟨rgb, ?_⟩
    dsimp only
    rw [if_neg (by omega), if_neg (by omega), if_neg (by omega), hrgb]
  · intro row column s hcolumn henough
    rw [hmul] at henough
    dsimp only
    rw [if_neg (by omega), if_pos (by omega)]

theorem fillSolid (hs : Shows (w * h) drawn framebuffer) (format : PixelFormat)
    (x y rw rh : UInt16) (pixel : Bytes) :
    Shows (w * h) (paintedNext w h format drawn (.solid x y rw rh pixel))
      (fillSolid id w h format x y rw rh pixel framebuffer) := by
  by_cases hpixel : format.bytesPerPixel ≤ pixel.length
  · obtain ⟨rgb, hrgb⟩ := decodePixel_ok hpixel
    rw [Vnc.fillSolid, hrgb]
    refine shows_draw (fun _ _ _ hj => hj) ?_ ?_ ?_ hs
    · exact fun row column s hout => if_pos hout
    · intro row column s hlen hin hcolumn _
      have hend := place_end hlen hin hcolumn
      refine ⟨rgb, ?_⟩
      dsimp only
      rw [if_neg (by omega), if_neg (by omega)]
    · exact fun row column s _ henough => absurd hpixel henough
  · rw [Vnc.fillSolid, decodePixel_error (by omega)]
    refine hs.congr fun t _ => ⟨.inl, fun h => h.resolve_right ?_⟩
    rintro ⟨_, _, _, _, _, _, henough, _⟩
    exact hpixel henough

theorem copyRect (hs : Shows (w * h) drawn framebuffer) (format : PixelFormat)
    (x y rw rh srcX srcY : UInt16) :
    Shows (w * h) (paintedNext w h format drawn (.copyRect x y rw rh srcX srcY))
      (copyRect id w h x y rw rh srcX srcY framebuffer) := by
  by_cases hrw : 0 < rw.toNat
  · refine ⟨(length_copyRect ..).trans hs.length, ?_, ?_⟩
    · rintro t ht (⟨i, hi, hfits, hcovers, hlast, hsource, hdrawn⟩ | ⟨hnone, hdrawn⟩)
      · rw [(copyRect_last id srcX srcY hs.length hrw hi hfits hcovers hlast (by decide)).1 hsource]
        exact hs.alpha _ (source_lt hsource hcovers) hdrawn
      · rw [copyRect_uncovered id hs.length hrw (by rw [place_pixel (by decide)]; exact hnone)]
        exact hs.alpha t ht hdrawn
    · intro t ht hundrawn j hj
      by_cases hcovered : ∃ i < rh.toNat, Fits w h x.toNat y.toNat rw.toNat i ∧
          Covers w x.toNat y.toNat rw.toNat i t
      · obtain ⟨i, hi, ⟨hfits, hcovers⟩, hlast⟩ := Windows.exists_last hcovered
        have hlast' := fun i' hlt hi' hf hc => hlast i' hlt hi' ⟨hf, hc⟩
        obtain ⟨hstaged, hblank⟩ :=
          copyRect_last id srcX srcY hs.length hrw hi hfits hcovers hlast' hj
        by_cases hsource : Fits w h srcX.toNat srcY.toNat rw.toNat i
        · rw [hstaged hsource]
          refine hs.blank _ (source_lt hsource hcovers) (fun hd => hundrawn ?_) j hj
          exact .inl ⟨i, hi, hfits, hcovers, hlast', hsource, hd⟩
        · exact hblank hsource
      · have hnone := fun i hi hf hc => hcovered ⟨i, hi, hf, hc⟩
        rw [copyRect_uncovered id hs.length hrw (by rw [place_pixel hj]; exact hnone)]
        exact hs.blank t ht (fun hd => hundrawn (.inr ⟨hnone, hd⟩)) j hj
  · -- a rectangle without a column covers nothing
    have hzero : rw.toNat = 0 := by omega
    have hnone : ∀ i t, ¬ Covers w x.toNat y.toNat rw.toNat i t := by
      intro i t hcovers
      unfold Covers at hcovers
      omega
    rw [copyRect_of_empty id (.inl hzero)]
    refine hs.congr fun t _ => ⟨fun hd => .inr ⟨fun i _ _ => hnone i t, hd⟩, ?_⟩
    rintro (⟨i, -, -, hcovers, -⟩ | ⟨-, hd⟩)
    · exact absurd hcovers (hnone i t)
    · exact hd

end Shows

/-! ### Where an update resizes last -/

/-- The last size an update asks for, with the rectangles that follow it. -/
def afterResize : List Rectangle → Option ((UInt16 × UInt16) × List Rectangle)
  | [] => none
  | rectangle :: later =>
    (afterResize later).or (rectangle.size?.map fun size => (size, later))

variable (paint : UInt8 → α) (format : PixelFormat)

theorem afterResize_draws {rectangles after : List Rectangle} {size : UInt16 × UInt16}
    (h : afterResize rectangles = some (size, after)) : afterResize after = none := by
  induction rectangles with
  | nil => cases h
  | cons rectangle later ih =>
    rw [afterResize] at h
    rcases hlater : afterResize later with - | ⟨size', after'⟩
    · rw [hlater, Option.none_or] at h
      obtain ⟨_, _, heq⟩ := Option.map_eq_some_iff.mp h
      cases heq
      exact hlater
    · rw [hlater, Option.some_or] at h
      cases h
      exact ih hlater

theorem afterResize_cons_none {rectangle : Rectangle} {later : List Rectangle}
    (h : afterResize (rectangle :: later) = none) :
    rectangle.size? = none ∧ afterResize later = none := by
  rw [afterResize, Option.or_eq_none_iff, Option.map_eq_none_iff] at h
  exact ⟨h.2, h.1⟩

/-- In order, what precedes the last resize does not matter. -/
theorem foldl_applyNext_resized {rectangles after : List Rectangle} {size : UInt16 × UInt16}
    (h : afterResize rectangles = some (size, after)) : ∀ state : List α × Nat × Nat,
      rectangles.foldl (applyNext paint format) state =
        applyInOrder paint size.1.toNat size.2.toNat format after
          (.replicate (size.1.toNat * size.2.toNat * rgbaBytesPerPixel) (paint 0)) := by
  induction rectangles with
  | nil => cases h
  | cons rectangle later ih =>
    intro state
    rw [afterResize] at h
    rcases hlater : afterResize later with - | ⟨size', after'⟩
    · rw [hlater, Option.none_or] at h
      obtain ⟨size', hsize, heq⟩ := Option.map_eq_some_iff.mp h
      cases heq
      rw [List.foldl_cons, applyNext, hsize]
      rfl
    · rw [hlater, Option.some_or] at h
      cases h
      exact ih hlater _

/-- Without a resize, the draws in order are the draws of `apply_rectangles`. -/
theorem foldl_applyNext_draws {rectangles : List Rectangle} (h : afterResize rectangles = none)
    (width height : Nat) : ∀ framebuffer : List α,
      rectangles.foldl (applyNext paint format) (framebuffer, width, height) =
        ((rectangles.foldl (applyRectangle paint width height format) (framebuffer, none)).1,
          width, height) := by
  induction rectangles with
  | nil => exact fun _ => rfl
  | cons rectangle later ih =>
    intro framebuffer
    obtain ⟨hsize, hlater⟩ := afterResize_cons_none h
    rw [List.foldl_cons, List.foldl_cons, applyNext, hsize]
    have hnone : applyRectangle paint width height format (framebuffer, none) rectangle =
        ((applyRectangle paint width height format (framebuffer, none) rectangle).1, none) := by
      cases rectangle with
      | desktopSize => cases hsize
      | raw | copyRect | solid => rfl
    rw [hnone]
    exact ih hlater _

/-- The size that `apply_rectangles` takes note of is the last. -/
theorem foldl_applyRectangle_size (width height : Nat) (rectangles : List Rectangle) :
    ∀ state : List α × Option (Nat × Nat),
      (rectangles.foldl (applyRectangle paint width height format) state).2 =
        ((afterResize rectangles).map fun r => (r.1.1.toNat, r.1.2.toNat)).or state.2 := by
  induction rectangles with
  | nil => exact fun _ => rfl
  | cons rectangle later ih =>
    intro state
    rw [List.foldl_cons, ih, afterResize]
    cases afterResize later with
    | some r => rfl
    | none =>
      cases rectangle with
      | desktopSize w h => rfl
      | raw | copyRect | solid => rfl

/-! ### When the two agree -/

/-- Draws on a cleared picture leave their painted pixels opaque. -/
theorem shows_draws {w h : ℕ} {rectangles : List Rectangle} (hdraws : afterResize rectangles = none) :
    ∀ {drawn : ℕ → Prop} {framebuffer : Bytes}, Shows (w * h) drawn framebuffer →
      Shows (w * h) (rectangles.foldl (paintedNext w h format) drawn)
        (rectangles.foldl (applyRectangle id w h format) (framebuffer, none)).1 := by
  induction rectangles with
  | nil => exact fun hs => hs
  | cons rectangle later ih =>
    intro drawn framebuffer hs
    obtain ⟨hsize, hlater⟩ := afterResize_cons_none hdraws
    rw [List.foldl_cons, List.foldl_cons]
    cases rectangle with
    | raw x y rw rh pixels => exact ih hlater (hs.blitRaw format x y rw rh pixels)
    | copyRect x y rw rh srcX srcY => exact ih hlater (hs.copyRect format x y rw rh srcX srcY)
    | solid x y rw rh pixel => exact ih hlater (hs.fillSolid format x y rw rh pixel)
    | desktopSize => cases hsize

/-- Nothing that follows the last resize of an update leaves a pixel drawn. -/
def ResizesLast (rectangles : List Rectangle) : Prop :=
  ∀ newWidth newHeight after, afterResize rectangles = some ((newWidth, newHeight), after) →
    ∀ t < newWidth.toNat * newHeight.toNat,
      ¬ painted newWidth.toNat newHeight.toNat format after t

/-- **When an update is applied in order.**  The picture and its size after
`apply_rectangles` are those of the rectangles taken one at a time exactly when
nothing that follows the last resize leaves a pixel drawn on the new picture. -/
theorem applyRectangles_inOrder_iff (width height : Nat) (rectangles : List Rectangle)
    (framebuffer : Bytes) :
    ((applyRectangles id width height format rectangles framebuffer).1,
        (applyRectangles id width height format rectangles framebuffer).2.getD (width, height)) =
      applyInOrder id width height format rectangles framebuffer ↔
    ResizesLast format rectangles := by
  have hsize := foldl_applyRectangle_size id format width height rectangles (framebuffer, none)
  rw [Option.or_none] at hsize
  rcases hfold : rectangles.foldl (applyRectangle id width height format) (framebuffer, none)
    with ⟨drawn, size⟩
  rw [hfold] at hsize
  rcases hafter : afterResize rectangles with - | ⟨⟨newWidth, newHeight⟩, after⟩
  · -- no resize: the draws are the same
    have hinOrder := foldl_applyNext_draws id format hafter width height framebuffer
    rw [hafter, Option.map_none] at hsize
    subst hsize
    rw [hfold] at hinOrder
    refine iff_of_true ?_ fun newWidth newHeight after h => ?_
    · rw [applyRectangles, hfold]
      exact hinOrder.symm
    · rw [hafter] at h
      cases h
  · have hdraws := afterResize_draws hafter
    have hinOrder := foldl_applyNext_resized id format hafter (framebuffer, width, height)
    rw [applyInOrder, foldl_applyNext_draws id format hdraws] at hinOrder
    have hblank : Shows (newWidth.toNat * newHeight.toNat) (fun _ => False) _ := Shows.cleared
    have hleft := (shows_draws format hdraws hblank).eq_cleared_iff
    have honly : ResizesLast format rectangles ↔ ∀ t < newWidth.toNat * newHeight.toNat,
        ¬ painted newWidth.toNat newHeight.toNat format after t := by
      refine ⟨fun h => h newWidth newHeight after hafter, fun h newWidth' newHeight' after' h' => ?_⟩
      rw [hafter] at h'
      cases h'
      exact h
    rw [hafter, Option.map_some] at hsize
    subst hsize
    rw [applyInOrder, hinOrder, applyRectangles, hfold, honly, painted, ← hleft]
    constructor
    · exact fun h => (congrArg Prod.fst h).symm
    · exact fun h => Prod.ext h.symm rfl

/-- A pixel drawn after a resize of the same update is lost. -/
theorem applyRectangles_loses_draws_after_resize :
    ¬ ∀ (format : PixelFormat) (width height : Nat) (rectangles : List Rectangle)
      (framebuffer : Bytes),
      ((applyRectangles id width height format rectangles framebuffer).1,
          (applyRectangles id width height format rectangles framebuffer).2.getD (width, height)) =
        applyInOrder id width height format rectangles framebuffer := by
  intro h
  exact absurd (h preferredPixelFormat 1 1 [.desktopSize 1 1, .raw 0 0 1 1 [0x33, 0x22, 0x11, 0]]
    [0, 0, 0, 0]) (by decide)

end Vnc

end RdEngine
