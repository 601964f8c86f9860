/-
RdEngine/Lib/Grid.lean

Grids of times: the points that lie whole steps from an anchor, and the cells between
them, each with its left end.

`Grid.following` is the left end of the cell after that of a time.  It is the first
point of the grid that is later (`lt_following`), whichever of its points a grid is
anchored at (`following_rebase`).
-/
import Mathlib.Algebra.Order.Group.Int
import Mathlib.Tactic.Ring
import Mathlib.Tactic.Linarith

namespace Grid

/-- The number of the cell in which a time lies. -/
def cell (anchor step t : Int) : Int := (t - anchor) / step

/-- The first point after a time. -/
def following (anchor step t : Int) : Int := anchor + (cell anchor step t + 1) * step

variable {anchor step t u : Int}

theorem cell_mono (hstep : 0 < step) (h : t ≤ u) : cell anchor step t ≤ cell anchor step u :=
  Int.ediv_le_ediv hstep (by omega)

theorem cell_nonneg (hstep : 0 < step) (h : anchor ≤ t) : 0 ≤ cell anchor step t :=
  Int.ediv_nonneg (by omega) hstep.le

theorem cell_anchor : cell anchor step anchor = 0 := by simp [cell]

/-- The points are the left ends of their cells. -/
theorem cell_point (hstep : 0 < step) (k : Int) : cell anchor step (anchor + k * step) = k := by
  unfold cell
  rw [add_sub_cancel_left, Int.mul_ediv_cancel k hstep.ne']

theorem cell_following (hstep : 0 < step) :
    cell anchor step (following anchor step t) = cell anchor step t + 1 :=
  cell_point hstep _

theorem lt_following (hstep : 0 < step) : t < following anchor step t := by
  have h := Int.lt_ediv_add_one_mul_self (t - anchor) hstep
  unfold following cell
  omega

/-- Times that a point separates lie in different cells. -/
theorem cell_lt (hstep : 0 < step) (h : following anchor step t ≤ u) :
    cell anchor step t < cell anchor step u := by
  have hcell := @cell_mono anchor step _ _ hstep h
  rw [cell_following hstep] at hcell
  omega

/-- A grid may be anchored at any of its points. -/
theorem following_rebase (hstep : 0 < step) (k : Int) :
    following (anchor + k * step) step t = following anchor step t := by
  have hcell : cell (anchor + k * step) step t = cell anchor step t - k := by
    unfold cell
    rw [show t - (anchor + k * step) = t - anchor - k * step by ring,
      Int.sub_mul_ediv_right _ _ hstep.ne']
  unfold following
  rw [hcell]
  ring

/-- A point that follows is a step away from the anchor at least. -/
theorem following_point (hstep : 0 < step) (h : anchor ≤ t) :
    ∃ k, 1 ≤ k ∧ following anchor step t = anchor + k * step :=
  ⟨cell anchor step t + 1, by have := cell_nonneg hstep h; omega, rfl⟩

end Grid
