/-
RdEngine/Lib/Feistel.lean

Feistel networks.

A round exchanges the halves of a block and mixes the new right half with a
function of the other; this can be undone whatever the function is, if mixing
twice with the same thing is nothing.  So the same network, with the keys in
the opposite order and the halves exchanged before and after, is its inverse
(`network_reverse`).  What is said of one round function is said of the network
over another representation of the halves (`network_map`).
-/
import Mathlib.Data.Prod.Basic

namespace Feistel

variable {α κ : Type*} {mix : α → α → α} {f : κ → α → α}

/-- One round, with its key. -/
def round (mix : α → α → α) (f : κ → α → α) (halves : α × α) (k : κ) : α × α :=
  (halves.2, mix halves.1 (f k halves.2))

/-- The rounds, one for each key. -/
def network (mix : α → α → α) (f : κ → α → α) (keys : List κ) (halves : α × α) : α × α :=
  keys.foldl (round mix f) halves

theorem network_cons (k : κ) (keys : List κ) (halves : α × α) :
    network mix f (k :: keys) halves = network mix f keys (round mix f halves k) := rfl

theorem network_snoc (k : κ) (keys : List κ) (halves : α × α) :
    network mix f (keys ++ [k]) halves = round mix f (network mix f keys halves) k := by
  unfold network
  rw [List.foldl_append]
  rfl

/-- A round undoes itself with the halves exchanged. -/
theorem round_swap (hmix : ∀ a b, mix (mix a b) b = a) (halves : α × α) (k : κ) :
    round mix f (round mix f halves k).swap k = halves.swap := by
  unfold round
  rw [Prod.swap_prod_mk]
  exact Prod.ext rfl (hmix _ _)

theorem network_reverse (hmix : ∀ a b, mix (mix a b) b = a) (keys : List κ) (halves : α × α) :
    network mix f keys.reverse (network mix f keys halves).swap = halves.swap := by
  induction keys generalizing halves with
  | nil => rfl
  | cons k keys ih =>
    rw [List.reverse_cons, network_snoc, network_cons, ih, round_swap hmix]

variable {β ι : Type*} {mix' : β → β → β} {f' : ι → β → β}

/-- The same network over another representation. -/
theorem network_map (φ : α → β) (ψ : κ → ι) (hmix : ∀ a b, φ (mix a b) = mix' (φ a) (φ b))
    (hf : ∀ k a, φ (f k a) = f' (ψ k) (φ a)) (keys : List κ) (halves : α × α) :
    (network mix f keys halves).map φ φ = network mix' f' (keys.map ψ) (halves.map φ φ) := by
  induction keys generalizing halves with
  | nil => rfl
  | cons k keys ih =>
    rw [List.map_cons, network_cons, network_cons, ih]
    congr 1
    refine Prod.ext rfl ((hmix _ _).trans ?_)
    rw [hf]
    rfl

end Feistel
