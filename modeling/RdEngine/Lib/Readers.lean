/-
RdEngine/Lib/Readers.lean

Readers: a reader takes a value off the front of a text and leaves the rest, or
there is none.

A reader goes on as long as it can, so what it makes of a text may depend on what
follows.  `StopsAt c r` says that it never does so past a `c`, and `Reads kind r`
that it takes symbols of one kind off the front.  A text that was read up to a `c`
is then a text that is read as a whole, and the rest (`StopsAt.upTo`).
-/
import Mathlib.Data.Option.Basic

namespace RdEngine

namespace Readers

variable {σ α β : Type}

/-- What was read, and the rest of the text. -/
abbrev Reader (σ α : Type) : Type := List σ → Option (α × List σ)

/-- It makes no difference to the reader what follows a text from this symbol on. -/
def StopsAt (c : σ) (r : Reader σ α) : Prop :=
  ∀ text rest, r (text ++ c :: rest) = (r text).map fun p => (p.1, p.2 ++ c :: rest)

/-- What is read are symbols of this kind at the front of the text. -/
def Reads (kind : σ → Prop) (r : Reader σ α) : Prop :=
  ∀ text value rest, r text = some (value, rest) →
    ∃ used, text = used ++ rest ∧ ∀ c ∈ used, kind c

variable {c : σ} {kind : σ → Prop} {r r' : Reader σ α}

/-! ### Combinations -/

theorem StopsAt.bind (h : StopsAt c r) {f : α → Reader σ β} (hf : ∀ a, StopsAt c (f a)) :
    StopsAt c fun text => (r text).bind fun p => f p.1 p.2 := by
  intro text rest
  show (r (text ++ c :: rest)).bind _ = ((r text).bind _).map _
  rw [h text rest]
  rcases r text with - | ⟨value, left⟩
  · rfl
  · exact hf value left rest

theorem StopsAt.pure (value : α) : StopsAt c fun text => some (value, text) := fun _ _ => rfl

theorem Reads.bind (h : Reads kind r) {f : α → Reader σ β} (hf : ∀ a, Reads kind (f a)) :
    Reads kind fun text => (r text).bind fun p => f p.1 p.2 := by
  intro text value rest hread
  obtain ⟨⟨a, left⟩, hfirst, hsecond⟩ := Option.bind_eq_some_iff.mp hread
  obtain ⟨used, rfl, hused⟩ := h _ _ _ hfirst
  obtain ⟨used', hleft, hused'⟩ := hf a _ _ _ hsecond
  refine ⟨used ++ used', ?_, List.forall_mem_append.mpr ⟨hused, hused'⟩⟩
  rw [List.append_assoc, ← hleft]

theorem Reads.pure (value : α) : Reads kind fun text => some (value, text) := by
  intro text value' rest hread
  obtain ⟨-, rfl⟩ := Prod.mk.inj (Option.some.inj hread)
  exact ⟨[], rfl, nofun⟩

theorem Reads.mono (h : Reads kind r) {kind' : σ → Prop} (hkind : ∀ c, kind c → kind' c) :
    Reads kind' r := by
  intro text value rest hread
  obtain ⟨used, htext, hused⟩ := h _ _ _ hread
  exact ⟨used, htext, fun c hc => hkind c (hused c hc)⟩

/-! ### Whole texts -/

/-- A text that is read as a whole is read in front of a `c`. -/
theorem StopsAt.before (h : StopsAt c r) {text : List σ} {value : α}
    (hread : r text = some (value, [])) (rest : List σ) :
    r (text ++ c :: rest) = some (value, c :: rest) := by
  rw [h text rest, hread]
  rfl

/-- What was read up to a `c` is read as a whole. -/
theorem StopsAt.upTo (h : StopsAt c r) (hreads : Reads kind r) {text rest : List σ} {value : α}
    (hread : r text = some (value, c :: rest)) :
    ∃ used, text = used ++ c :: rest ∧ r used = some (value, []) := by
  obtain ⟨used, rfl, -⟩ := hreads _ _ _ hread
  refine ⟨used, rfl, ?_⟩
  rw [h used rest] at hread
  obtain ⟨⟨value', left⟩, hused, heq⟩ := Option.map_eq_some_iff.mp hread
  obtain ⟨rfl, hleft⟩ := Prod.mk.inj heq
  have hnil : left = [] := List.append_left_eq_self.mp hleft
  rw [hused, hnil]

/-- What is read as a whole is all of this kind. -/
theorem Reads.whole (h : Reads kind r) {text : List σ} {value : α}
    (hread : r text = some (value, [])) : ∀ c ∈ text, kind c := by
  obtain ⟨used, rfl, hused⟩ := h _ _ _ hread
  rwa [List.append_nil]

end Readers

end RdEngine
