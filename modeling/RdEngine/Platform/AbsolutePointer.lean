/-
RdEngine/Platform/AbsolutePointer.lean

The controlled side's pointer injection on Windows: the `SendInput` records of a
decoded pointer action (`platform/windows_input.rs`), and where an absolute point lies
on the virtual desktop (`normalize_absolute` of `input.rs`).

The two axes are normalised alike and each by itself (`normalizeAxis`).  Along an axis
the result stays in range, keeps the order of the points, reaches both ends and, on
desktops that are not too large, keeps the pixels apart (`absolute_normalised`).
-/
import RdEngine.Platform.WindowsInput
import RdEngine.Lib.Checked
import Mathlib.Tactic.Ring

namespace RdEngine

namespace WindowsInput

open Checked

/-! ### Points -/

/-- The largest coordinate of an absolute pointer event. -/
def absoluteMax : Int := 65535

/-- One axis of `normalize_absolute`; none where an operation of it overflows. -/
def normalizeAxis (position origin extent : Int32) : Option Int32 := do
  let span ← signed 64 (extent.toInt - 1)
  let span := max span 1
  let rel ← signed 64 (position.toInt - origin.toInt)
  let rel := max 0 (min rel span)
  let scaled ← signed 64 (rel * absoluteMax)
  return Int32.ofInt (scaled.tdiv span)

/-- `normalize_absolute`: both axes of a point. -/
def normalizeAbsolute (x y originX originY width height : Int32) : Option (Int32 × Int32) := do
  let x ← normalizeAxis x originX width
  let y ← normalizeAxis y originY height
  return (x, y)

/-! ### Records -/

/-- A mouse record, with the flags of `MOUSEINPUT`. -/
structure MouseRecord where
  flags : UInt32
  dx : Int32
  dy : Int32
  data : UInt32
  deriving DecidableEq, Repr

def mouseEventMove : UInt32 := 0x0001
def mouseEventWheel : UInt32 := 0x0800
def mouseEventHWheel : UInt32 := 0x1000
def mouseEventVirtualDesk : UInt32 := 0x4000
def mouseEventAbsolute : UInt32 := 0x8000

/-- The flags and the data of a button transition. -/
def buttonFlags : MouseButton → Bool → UInt32 × UInt32
  | .left, down => (if down then 0x0002 else 0x0004, 0)
  | .right, down => (if down then 0x0008 else 0x0010, 0)
  | .middle, down => (if down then 0x0020 else 0x0040, 0)
  | .back, down => (if down then 0x0080 else 0x0100, 1)
  | .forward, down => (if down then 0x0080 else 0x0100, 2)

/-- Origin and extent of the virtual desktop, as the system reports them. -/
structure VirtualDesktop where
  originX : Int32
  originY : Int32
  width : Int32
  height : Int32
  deriving DecidableEq, Repr

/-- The desktop has pixels. -/
def VirtualDesktop.Shown (desktop : VirtualDesktop) : Prop :=
  0 < desktop.width ∧ 0 < desktop.height

instance (desktop : VirtualDesktop) : Decidable desktop.Shown :=
  inferInstanceAs (Decidable (_ ∧ _))

/-- The record of a button that goes down or up. -/
def buttonRecord (button : MouseButton) (down : Bool) : MouseRecord :=
  let (flags, data) := buttonFlags button down
  ⟨flags, 0, 0, data⟩

/-- `inject_mouse`; none where the normalisation overflows. -/
def injectMouse (armed : Bool) (desktop : VirtualDesktop) (action : MouseAction) :
    Option (Except InjectError (List MouseRecord)) :=
  if !armed then some (.error .notArmed)
  else
    match action with
    | .moveAbsolute x y =>
      -- a session without an interactive desktop reports no virtual screen
      if ¬ desktop.Shown then some (.error .unsupported)
      else
        (normalizeAbsolute (Int32.ofInt x) (Int32.ofInt y) desktop.originX desktop.originY
          desktop.width desktop.height).map fun (nx, ny) =>
            .ok [⟨mouseEventMove ||| mouseEventAbsolute ||| mouseEventVirtualDesk, nx, ny, 0⟩]
    | .moveRelative dx dy => some (.ok [⟨mouseEventMove, Int32.ofInt dx, Int32.ofInt dy, 0⟩])
    | .buttonDown button => some (.ok [buttonRecord button true])
    | .buttonUp button => some (.ok [buttonRecord button false])
    | .wheel dx dy =>
      -- one record carries one axis
      let horizontal : MouseRecord := ⟨mouseEventHWheel, 0, 0, UInt32.ofInt dx⟩
      let vertical : MouseRecord := ⟨mouseEventWheel, 0, 0, UInt32.ofInt dy⟩
      if dx ≠ 0 ∧ dy ≠ 0 then some (.ok [horizontal, vertical])
      else if dx ≠ 0 then some (.ok [horizontal])
      else some (.ok [vertical])

/-! ### One axis -/

/-- The last pixel of an axis, counted from the first; one where there is no other. -/
def spanOf (extent : Int32) : Int := max (extent.toInt - 1) 1

/-- How far into the desktop a point lies, with points outside moved to its edges. -/
def offset (position origin extent : Int32) : Int :=
  max 0 (min (position.toInt - origin.toInt) (spanOf extent))

/-- Where a point ends up on its axis. -/
def axis (position origin extent : Int32) : Int :=
  offset position origin extent * absoluteMax / spanOf extent

section

variable {position position' origin extent : Int32}

theorem spanOf_pos (extent : Int32) : 0 < spanOf extent := by
  unfold spanOf
  omega

theorem spanOf_le (extent : Int32) : spanOf extent < 2 ^ 31 := by
  have hlt := extent.toInt_lt
  unfold spanOf
  omega

theorem offset_nonneg (position origin extent : Int32) : 0 ≤ offset position origin extent :=
  le_max_left _ _

theorem offset_le (position origin extent : Int32) :
    offset position origin extent ≤ spanOf extent := by
  have hspan := spanOf_pos extent
  unfold offset
  omega

theorem axis_nonneg (position origin extent : Int32) : 0 ≤ axis position origin extent := by
  have hoffset := offset_nonneg position origin extent
  refine Int.ediv_nonneg (mul_nonneg hoffset ?_) (spanOf_pos extent).le
  decide

theorem axis_le (position origin extent : Int32) : axis position origin extent ≤ absoluteMax := by
  have hspan := spanOf_pos extent
  have hle := offset_le position origin extent
  apply Int.ediv_le_of_le_mul hspan
  calc offset position origin extent * absoluteMax
      ≤ spanOf extent * absoluteMax := mul_le_mul_of_nonneg_right hle (by decide)
    _ = absoluteMax * spanOf extent := mul_comm _ _

/-- The operations of the source stay far below their bounds. -/
theorem normalizeAxis_eq (position origin extent : Int32) :
    normalizeAxis position origin extent = some (Int32.ofInt (axis position origin extent)) := by
  have hlow := position.le_toInt
  have hhigh := position.toInt_lt
  have hlow' := origin.le_toInt
  have hhigh' := origin.toInt_lt
  have hlow'' := extent.le_toInt
  have hhigh'' := extent.toInt_lt
  have hextent : Fits 64 (extent.toInt - 1) := by
    constructor <;> omega
  have hrel : Fits 64 (position.toInt - origin.toInt) := by
    constructor <;> omega
  have hoffset := offset_nonneg position origin extent
  have hle := offset_le position origin extent
  have hspan := spanOf_le extent
  have hscaled : Fits 64 (offset position origin extent * absoluteMax) := by
    unfold absoluteMax
    constructor <;> omega
  unfold normalizeAxis
  rw [signed_of_fits hextent]
  show (signed 64 (position.toInt - origin.toInt)).bind _ = _
  rw [signed_of_fits hrel]
  show (signed 64 (offset position origin extent * absoluteMax)).bind _ = _
  rw [signed_of_fits hscaled]
  show some (Int32.ofInt ((offset position origin extent * absoluteMax).tdiv (spanOf extent))) = _
  rw [Int.tdiv_eq_ediv_of_nonneg (mul_nonneg hoffset (by decide))]
  rfl

/-- The result is a 32-bit number. -/
theorem toInt_axis (position origin extent : Int32) :
    (Int32.ofInt (axis position origin extent)).toInt = axis position origin extent := by
  have hzero := axis_nonneg position origin extent
  have hle := axis_le position origin extent
  unfold absoluteMax at hle
  exact Int32.toInt_ofInt_of_le (by omega) (by omega)

theorem axis_mono (h : position.toInt ≤ position'.toInt) :
    axis position origin extent ≤ axis position' origin extent := by
  have hoffset : offset position origin extent ≤ offset position' origin extent := by
    unfold offset
    omega
  apply Int.ediv_le_ediv (spanOf_pos extent)
  exact mul_le_mul_of_nonneg_right hoffset (by decide)

theorem axis_first (h : position.toInt ≤ origin.toInt) : axis position origin extent = 0 := by
  have hoffset : offset position origin extent = 0 := by
    have hspan := spanOf_pos extent
    unfold offset
    omega
  unfold axis
  rw [hoffset]
  simp

theorem axis_last (hextent : 2 ≤ extent.toInt)
    (h : origin.toInt + extent.toInt - 1 ≤ position.toInt) :
    axis position origin extent = absoluteMax := by
  have hspan := spanOf_pos extent
  have hoffset : offset position origin extent = spanOf extent := by
    unfold offset spanOf
    omega
  unfold axis
  rw [hoffset]
  exact Int.mul_ediv_cancel_left _ hspan.ne'

/-- Points that lie apart in the desktop stay apart while a pixel takes a whole step. -/
theorem axis_lt (hextent : extent.toInt ≤ 65536)
    (h : offset position origin extent < offset position' origin extent) :
    axis position origin extent < axis position' origin extent := by
  have hspan := spanOf_pos extent
  have hstep : spanOf extent ≤ absoluteMax := by
    unfold spanOf absoluteMax
    omega
  have hscaled : offset position origin extent * absoluteMax + spanOf extent ≤
      offset position' origin extent * absoluteMax := by
    calc offset position origin extent * absoluteMax + spanOf extent
        ≤ offset position origin extent * absoluteMax + absoluteMax := by omega
      _ = (offset position origin extent + 1) * absoluteMax := by ring
      _ ≤ offset position' origin extent * absoluteMax :=
        mul_le_mul_of_nonneg_right h (by decide)
  calc axis position origin extent
      < axis position origin extent + 1 := Int.lt_succ _
    _ = (offset position origin extent * absoluteMax + spanOf extent) / spanOf extent := by
      have hone := Int.add_mul_ediv_right (offset position origin extent * absoluteMax) 1 hspan.ne'
      rw [one_mul] at hone
      exact hone.symm
    _ ≤ axis position' origin extent := Int.ediv_le_ediv hspan hscaled

/-- A pixel of the desktop. -/
def Pixel (origin extent position : Int32) : Prop :=
  origin.toInt ≤ position.toInt ∧ position.toInt < origin.toInt + extent.toInt

theorem offset_of_pixel (h : Pixel origin extent position) :
    offset position origin extent = position.toInt - origin.toInt := by
  obtain ⟨hlow, hhigh⟩ := h
  unfold offset spanOf
  omega

theorem axis_inj (hextent : extent.toInt ≤ 65536) (h : Pixel origin extent position)
    (h' : Pixel origin extent position')
    (heq : axis position origin extent = axis position' origin extent) : position = position' := by
  have hoffset := offset_of_pixel h
  have hoffset' := offset_of_pixel h'
  apply Int32.toInt_inj.mp
  -- either order of two different pixels would be kept
  rcases lt_trichotomy position.toInt position'.toInt with hlt | hsame | hgt
  · have hless := @axis_lt position position' origin extent hextent (by omega)
    omega
  · exact hsame
  · have hless := @axis_lt position' position origin extent hextent (by omega)
    omega

end

/-! ### The desktop -/

/-- What the normalisation along one axis is for. -/
structure Normalises (f : Int32 → Int32) (origin extent : Int32) : Prop where
  range : ∀ p, 0 ≤ (f p).toInt ∧ (f p).toInt ≤ 65535
  mono : ∀ p q, p.toInt ≤ q.toInt → (f p).toInt ≤ (f q).toInt
  first : ∀ p, p.toInt ≤ origin.toInt → (f p).toInt = 0
  last : 2 ≤ extent.toInt → ∀ p, origin.toInt + extent.toInt - 1 ≤ p.toInt → (f p).toInt = 65535
  apart : extent.toInt ≤ 65536 → ∀ p q, Pixel origin extent p → Pixel origin extent q →
    f p = f q → p = q

theorem normalises_axis (origin extent : Int32) :
    Normalises (fun position => Int32.ofInt (axis position origin extent)) origin extent where
  range p := by
    rw [toInt_axis]
    exact ⟨axis_nonneg p origin extent, axis_le p origin extent⟩
  mono p q h := by
    rw [toInt_axis, toInt_axis]
    exact axis_mono h
  first p h := by
    rw [toInt_axis]
    exact axis_first h
  last hextent p h := by
    rw [toInt_axis]
    exact axis_last hextent h
  apart hextent p q hp hq heq := by
    have hsame := congrArg Int32.toInt heq
    simp only [toInt_axis] at hsame
    exact axis_inj hextent hp hq hsame

/-- **Points of the virtual desktop.**  No point overflows, and each coordinate is
normalised by itself: in range, in order, onto both ends, and pixel by pixel. -/
theorem absolute_normalised (originX originY width height : Int32) :
    ∃ fx fy : Int32 → Int32,
      (∀ x y, normalizeAbsolute x y originX originY width height = some (fx x, fy y)) ∧
      Normalises fx originX width ∧ Normalises fy originY height := by
  refine ⟨_, _, fun x y => ?_, normalises_axis originX width, normalises_axis originY height⟩
  unfold normalizeAbsolute
  rw [normalizeAxis_eq, normalizeAxis_eq]
  rfl

/-- So an armed host injects every absolute point on a desktop that is shown. -/
theorem injectMouse_absolute {desktop : VirtualDesktop} (h : desktop.Shown) (x y : Int) :
    ∃ nx ny : Int32, (0 ≤ nx.toInt ∧ nx.toInt ≤ 65535) ∧ (0 ≤ ny.toInt ∧ ny.toInt ≤ 65535) ∧
      injectMouse true desktop (.moveAbsolute x y) =
        some (.ok [⟨mouseEventMove ||| mouseEventAbsolute ||| mouseEventVirtualDesk, nx, ny, 0⟩]) := by
  refine ⟨_, _, (normalises_axis desktop.originX desktop.width).range (Int32.ofInt x),
    (normalises_axis desktop.originY desktop.height).range (Int32.ofInt y), ?_⟩
  show (if ¬ desktop.Shown then _ else _) = _
  rw [if_neg (not_not.mpr h)]
  unfold normalizeAbsolute
  rw [normalizeAxis_eq, normalizeAxis_eq]
  rfl

end WindowsInput

end RdEngine
