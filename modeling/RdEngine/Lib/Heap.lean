/-
RdEngine/Lib/Heap.lean

Cells that are allocated and freed one by one.

An address is never used twice, so it stands for one allocation.  To free a cell
that is not live is not defined (`free`): a program that never gets there frees no
cell twice, and touches none after that.  `Sound` says that every cell ever
allocated is live, or was freed once; `HeldBy` that the live ones are those held by
somebody, each by one holder.
-/
import Mathlib.Data.List.Nodup
import Mathlib.Data.List.Perm.Basic

namespace Cells

/-- The live cells, those freed, in their order, and the next address. -/
structure Heap where
  live : List Nat
  freed : List Nat
  next : Nat
deriving Repr, DecidableEq

namespace Heap

def empty : Heap := ⟨[], [], 0⟩

/-- A new cell, at the next address. -/
def alloc (h : Heap) : Heap := { h with live := h.next :: h.live, next := h.next + 1 }

/-- Free a cell; not defined unless it is live. -/
def free (h : Heap) (a : Nat) : Option Heap :=
  if a ∈ h.live then some { h with live := h.live.erase a, freed := h.freed ++ [a] } else none

/-- Every cell allocated is live, or was freed once. -/
structure Sound (h : Heap) : Prop where
  once : (h.live ++ h.freed).Nodup
  all : ∀ a, a ∈ h.live ++ h.freed ↔ a < h.next

/-- The live cells are those held. -/
def HeldBy (h : Heap) (held : List Nat) : Prop := held.Perm h.live

variable {h h' : Heap} {a : Nat} {held held' : List Nat}

theorem empty_sound : empty.Sound := ⟨List.nodup_nil, fun a => by simp [empty]⟩

/-! ### Allocation -/

theorem Sound.next_fresh (hs : h.Sound) : h.next ∉ h.live ++ h.freed :=
  fun hmem => Nat.lt_irrefl _ ((hs.all _).mp hmem)

theorem Sound.alloc (hs : h.Sound) : h.alloc.Sound where
  once := List.nodup_cons.mpr ⟨hs.next_fresh, hs.once⟩
  all a := by
    show a ∈ h.next :: (h.live ++ h.freed) ↔ a < h.next + 1
    rw [List.mem_cons, hs.all]
    omega

theorem HeldBy.alloc (hheld : h.HeldBy held) : h.alloc.HeldBy (h.next :: held) :=
  List.Perm.cons _ hheld

/-! ### Freeing -/

theorem free_eq (hlive : a ∈ h.live) :
    h.free a = some { h with live := h.live.erase a, freed := h.freed ++ [a] } := if_pos hlive

theorem free_some (hfree : h.free a = some h') :
    a ∈ h.live ∧ h' = { h with live := h.live.erase a, freed := h.freed ++ [a] } := by
  unfold free at hfree
  split at hfree
  · next hlive =>
    cases hfree
    exact ⟨hlive, rfl⟩
  · cases hfree

theorem Sound.free (hs : h.Sound) (hfree : h.free a = some h') : h'.Sound := by
  obtain ⟨hlive, rfl⟩ := free_some hfree
  have hperm : (h.live.erase a ++ (h.freed ++ [a])).Perm (h.live ++ h.freed) := by
    have hmoved : (h.live.erase a ++ (h.freed ++ [a])).Perm (a :: (h.live.erase a ++ h.freed)) := by
      rw [← List.append_assoc]
      exact List.perm_append_singleton a _
    exact hmoved.trans ((List.perm_cons_erase hlive).symm.append_right h.freed)
  exact ⟨hperm.nodup_iff.mpr hs.once, fun b => hperm.mem_iff.trans (hs.all b)⟩

theorem HeldBy.perm (hheld : h.HeldBy held) (hperm : held'.Perm held) : h.HeldBy held' :=
  hperm.trans hheld

end Heap

end Cells
