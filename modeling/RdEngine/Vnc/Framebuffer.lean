/-
RdEngine/Vnc/Framebuffer.lean

Drawing a framebuffer update on the RGBA picture of a live session
(`apply_rectangles` and the functions it calls in `vnc/live.rs`).

Rust's `Vec<u8>` is a list, and the drawing functions are written over any type
of cell with a way `paint` to make one from a byte; the program's own instance is
`UInt8` with `paint := id`.  The drawing never looks at a cell, so it commutes
with every change of cells (`applyRectangles_map`).  One instance is the update's
own provenance: run over cells that remember where they came from, it says of
each byte of the result whether the update drew it or which byte of the picture
before it was kept or copied there (`applyRectangles_eq_provenance`).

Sizes and positions are `usize` in the source; none exceeds `2^64`, so the model
counts in `ℕ`.
-/
import RdEngine.Lib.Loop
import RdEngine.Vnc.Protocol

namespace RdEngine

namespace Vnc

open Loops (loop loop_map loop_value_map)

variable {α β : Type*}

def rgbaBytesPerPixel : Nat := 4

/-! ### Drawing -/

/-- The four stores of an opaque `0xRRGGBB` pixel at `target`. -/
def storePixel (paint : UInt8 → α) (framebuffer : List α) (target : Nat) (rgb : UInt32) :
    List α :=
  (((framebuffer.set target (paint ((rgb >>> 16) &&& 0xff).toUInt8)).set
      (target + 1) (paint ((rgb >>> 8) &&& 0xff).toUInt8)).set
      (target + 2) (paint (rgb &&& 0xff).toUInt8)).set
      (target + 3) (paint 0xff)

/-- `framebuffer[start..].copy_from_slice(bytes)`, in bounds. -/
def overwrite (framebuffer : List α) (start : Nat) (bytes : List α) : List α :=
  framebuffer.take start ++ bytes ++ framebuffer.drop (start + bytes.length)

/-- `blit_raw`: the pixels, row by row, as far as they lie within. -/
def blitRaw (paint : UInt8 → α) (width height : Nat) (format : PixelFormat)
    (x y rectWidth rectHeight : UInt16) (pixels : Bytes) (framebuffer : List α) : List α :=
  let step := max format.bytesPerPixel 1
  (loop (fun row framebuffer =>
    let targetY := y.toNat + row
    if targetY ≥ height then .leave framebuffer
    else
      loop (fun column framebuffer =>
        let targetX := x.toNat + column
        if targetX ≥ width then .next framebuffer
        else
          let source := (row * rectWidth.toNat + column) * step
          let target := (targetY * width + targetX) * rgbaBytesPerPixel
          if source + step > pixels.length then .leave framebuffer
          else if target + rgbaBytesPerPixel > framebuffer.length then .leave framebuffer
          else
            match format.decodePixel (pixels.drop source) with
            | .ok rgb => .next (storePixel paint framebuffer target rgb)
            | .error _ => .leave framebuffer)
        rectWidth.toNat framebuffer)
    rectHeight.toNat framebuffer).value

/-- Rows of the source region, in a buffer of their own so that overlapping
regions do not smear. -/
def stageRows (paint : UInt8 → α) (width height : Nat) (rectWidth rectHeight srcX srcY : UInt16)
    (framebuffer : List α) : List α :=
  let rowBytes := rectWidth.toNat * rgbaBytesPerPixel
  (loop (fun row staging =>
    let sourceY := srcY.toNat + row
    let sourceStart := (sourceY * width + srcX.toNat) * rgbaBytesPerPixel
    if sourceY ≥ height then .leave staging
    else if sourceStart + rowBytes > framebuffer.length then .leave staging
    else
      .next (overwrite staging (row * rowBytes) ((framebuffer.drop sourceStart).take rowBytes)))
    rectHeight.toNat (.replicate (rowBytes * rectHeight.toNat) (paint 0))).value

/-- `copy_rect`: rows of the framebuffer, from one place to another. -/
def copyRect (paint : UInt8 → α) (width height : Nat)
    (x y rectWidth rectHeight srcX srcY : UInt16) (framebuffer : List α) : List α :=
  let rowBytes := rectWidth.toNat * rgbaBytesPerPixel
  let staging := stageRows paint width height rectWidth rectHeight srcX srcY framebuffer
  (loop (fun row framebuffer =>
    let targetY := y.toNat + row
    let targetStart := (targetY * width + x.toNat) * rgbaBytesPerPixel
    if targetY ≥ height then .leave framebuffer
    else if targetStart + rowBytes > framebuffer.length then .leave framebuffer
    else
      .next (overwrite framebuffer targetStart ((staging.drop (row * rowBytes)).take rowBytes)))
    rectHeight.toNat framebuffer).value

/-- `fill_solid`: one pixel, over the whole rectangle. -/
def fillSolid (paint : UInt8 → α) (width height : Nat) (format : PixelFormat)
    (x y rectWidth rectHeight : UInt16) (pixel : Bytes) (framebuffer : List α) : List α :=
  match format.decodePixel pixel with
  | .error _ => framebuffer
  | .ok rgb =>
    (loop (fun row framebuffer =>
      let targetY := y.toNat + row
      if targetY ≥ height then .leave framebuffer
      else
        loop (fun column framebuffer =>
          let targetX := x.toNat + column
          if targetX ≥ width then .next framebuffer
          else
            let target := (targetY * width + targetX) * rgbaBytesPerPixel
            if target + rgbaBytesPerPixel > framebuffer.length then .leave framebuffer
            else .next (storePixel paint framebuffer target rgb))
          rectWidth.toNat framebuffer)
      rectHeight.toNat framebuffer).value

/-- One rectangle of the list: the picture with it drawn, and the size asked for
so far.  A resize only takes note of the size. -/
def applyRectangle (paint : UInt8 → α) (width height : Nat) (format : PixelFormat)
    (state : List α × Option (Nat × Nat)) : Rectangle → List α × Option (Nat × Nat)
  | .raw x y rw rh pixels => (blitRaw paint width height format x y rw rh pixels state.1, state.2)
  | .copyRect x y rw rh srcX srcY =>
    (copyRect paint width height x y rw rh srcX srcY state.1, state.2)
  | .solid x y rw rh pixel => (fillSolid paint width height format x y rw rh pixel state.1, state.2)
  | .desktopSize newWidth newHeight => (state.1, some (newWidth.toNat, newHeight.toNat))

/-- Draw the rectangles of one update; a new size clears the whole picture at the
end. -/
def applyRectangles (paint : UInt8 → α) (width height : Nat) (format : PixelFormat)
    (rectangles : List Rectangle) (framebuffer : List α) : List α × Option (Nat × Nat) :=
  let (framebuffer, size) :=
    rectangles.foldl (applyRectangle paint width height format) (framebuffer, none)
  match size with
  | some (newWidth, newHeight) =>
    (.replicate (newWidth * newHeight * rgbaBytesPerPixel) (paint 0), size)
  | none => (framebuffer, none)

/-! ### Drawing commutes with a change of cells -/

section Naturality

variable (g : α → β) (paint : UInt8 → α)

@[simp] theorem map_storePixel (framebuffer : List α) (target : Nat) (rgb : UInt32) :
    (storePixel paint framebuffer target rgb).map g
      = storePixel (g ∘ paint) (framebuffer.map g) target rgb := by
  simp [storePixel]

@[simp] theorem map_overwrite (framebuffer : List α) (start : Nat) (bytes : List α) :
    (overwrite framebuffer start bytes).map g
      = overwrite (framebuffer.map g) start (bytes.map g) := by
  simp [overwrite, List.map_take, List.map_drop]

theorem map_blitRaw (width height : Nat) (format : PixelFormat) (x y rw rh : UInt16)
    (pixels : Bytes) (framebuffer : List α) :
    (blitRaw paint width height format x y rw rh pixels framebuffer).map g
      = blitRaw (g ∘ paint) width height format x y rw rh pixels (framebuffer.map g) := by
  apply loop_value_map (g := List.map g)
  intro row rows
  dsimp only
  split_ifs
  · rfl
  · apply loop_map
    intro column cells
    -- the body decides by the lengths of the two buffers and by the pixel's bytes
    simp only [List.length_map]
    split_ifs
    · rfl
    · rfl
    · rfl
    · cases format.decodePixel (pixels.drop _) with
      | ok rgb => simp
      | error e => rfl

theorem map_stageRows (width height : Nat) (rw rh srcX srcY : UInt16) (framebuffer : List α) :
    (stageRows paint width height rw rh srcX srcY framebuffer).map g
      = stageRows (g ∘ paint) width height rw rh srcX srcY (framebuffer.map g) := by
  rw [stageRows, stageRows, Function.comp_apply, ← List.map_replicate (f := g) (a := paint 0)]
  apply loop_value_map (g := List.map g)
  intro row staging
  simp only [List.length_map]
  split_ifs
  · rfl
  · rfl
  · simp [List.map_take, List.map_drop]

theorem map_copyRect (width height : Nat) (x y rw rh srcX srcY : UInt16)
    (framebuffer : List α) :
    (copyRect paint width height x y rw rh srcX srcY framebuffer).map g
      = copyRect (g ∘ paint) width height x y rw rh srcX srcY (framebuffer.map g) := by
  rw [copyRect, copyRect, ← map_stageRows]
  apply loop_value_map (g := List.map g)
  intro row rows
  simp only [List.length_map]
  split_ifs
  · rfl
  · rfl
  · simp [List.map_take, List.map_drop]

theorem map_fillSolid (width height : Nat) (format : PixelFormat) (x y rw rh : UInt16)
    (pixel : Bytes) (framebuffer : List α) :
    (fillSolid paint width height format x y rw rh pixel framebuffer).map g
      = fillSolid (g ∘ paint) width height format x y rw rh pixel (framebuffer.map g) := by
  rw [fillSolid, fillSolid]
  cases format.decodePixel pixel with
  | error e => rfl
  | ok rgb =>
    apply loop_value_map (g := List.map g)
    intro row rows
    dsimp only
    split_ifs
    · rfl
    · apply loop_map
      intro column cells
      simp only [List.length_map]
      split_ifs
      · rfl
      · rfl
      · simp

theorem map_applyRectangle (width height : Nat) (format : PixelFormat)
    (state : List α × Option (Nat × Nat)) (rectangle : Rectangle) :
    Prod.map (List.map g) id (applyRectangle paint width height format state rectangle)
      = applyRectangle (g ∘ paint) width height format (Prod.map (List.map g) id state)
          rectangle := by
  cases rectangle with
  | raw x y rw rh pixels => exact Prod.ext (map_blitRaw ..) rfl
  | copyRect x y rw rh srcX srcY => exact Prod.ext (map_copyRect ..) rfl
  | solid x y rw rh pixel => exact Prod.ext (map_fillSolid ..) rfl
  | desktopSize w h => rfl

/-- **Drawing commutes with every change of cells**: it reads no cell. -/
theorem applyRectangles_map (width height : Nat) (format : PixelFormat)
    (rectangles : List Rectangle) (framebuffer : List α) :
    Prod.map (List.map g) id (applyRectangles paint width height format rectangles framebuffer)
      = applyRectangles (g ∘ paint) width height format rectangles (framebuffer.map g) := by
  have fold : Prod.map (List.map g) id
      (rectangles.foldl (applyRectangle paint width height format) (framebuffer, none))
        = rectangles.foldl (applyRectangle (g ∘ paint) width height format)
            (framebuffer.map g, none) :=
    (List.foldl_hom (Prod.map (List.map g) id) fun state rectangle =>
      (map_applyRectangle g paint width height format state rectangle).symm).symm
  rw [applyRectangles, applyRectangles, ← fold]
  rcases rectangles.foldl (applyRectangle paint width height format) (framebuffer, none)
    with ⟨drawn, _ | ⟨w, h⟩⟩
  · rfl
  · simp [Prod.map]

end Naturality

/-! ### Where the bytes of an update come from -/

/-- A byte of a drawn picture: kept or copied from a place of the picture before,
or drawn by the update. -/
inductive Cell where
  | kept (index : Nat)
  | drawn (byte : UInt8)
  deriving DecidableEq, Repr

/-- The byte the cell stands for, over the picture before. -/
def Cell.value (before : Bytes) : Cell → UInt8
  | .kept index => before.getD index 0
  | .drawn byte => byte

/-- The update run over cells that remember where they come from. -/
def provenance (width height : Nat) (format : PixelFormat) (rectangles : List Rectangle)
    (length : Nat) : List Cell :=
  (applyRectangles .drawn width height format rectangles ((List.range length).map .kept)).1

theorem map_value_kept (before : Bytes) :
    ((List.range before.length).map Cell.kept).map (Cell.value before) = before := by
  apply List.ext_getElem
  · simp
  · intro i h₁ h₂
    simp [Cell.value, h₂]

/-- **The update of any picture is its provenance read over that picture.** -/
theorem applyRectangles_eq_provenance (width height : Nat) (format : PixelFormat)
    (rectangles : List Rectangle) (before : Bytes) :
    (applyRectangles id width height format rectangles before).1
      = (provenance width height format rectangles before.length).map (Cell.value before) := by
  have h := applyRectangles_map (Cell.value before) .drawn width height format rectangles
    ((List.range before.length).map .kept)
  rw [map_value_kept] at h
  exact (congrArg Prod.fst h).symm

end Vnc

end RdEngine
