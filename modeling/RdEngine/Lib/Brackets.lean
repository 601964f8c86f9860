/-
RdEngine/Lib/Brackets.lean

Words that are made of blocks: what a machine writes down when each of its steps
writes whole blocks.  What a block says about the neighbours of a letter, the word
says (`Word.split`).
-/
import Mathlib.Data.List.Basic

namespace Brackets

variable {α : Type*} {Block : List α → Prop}

/-- A list that is a sequence of blocks. -/
inductive Word (Block : List α → Prop) : List α → Prop
  | nil : Word Block []
  | cons {b rest : List α} : Block b → Word Block rest → Word Block (b ++ rest)

theorem Word.single {b : List α} (h : Block b) : Word Block b := by
  have hword := Word.cons h .nil
  rw [List.append_nil] at hword
  exact hword

theorem Word.append {l m : List α} (hl : Word Block l) (hm : Word Block m) :
    Word Block (l ++ m) := by
  induction hl with
  | nil => exact hm
  | cons hb _ ih =>
    rw [List.append_assoc]
    exact .cons hb ih

/-- A letter lies in one block, between words. -/
theorem Word.split {pre post : List α} {e : α} (h : Word Block (pre ++ e :: post)) :
    ∃ before p q after, Block (p ++ e :: q) ∧ pre = before ++ p ∧ post = q ++ after ∧
      Word Block before ∧ Word Block after := by
  generalize hw : pre ++ e :: post = w at h
  induction h generalizing pre with
  | nil => simp at hw
  | @cons b rest hb hrest ih =>
    rcases List.append_eq_append_iff.mp hw with ⟨mid, hmid, hpost⟩ | ⟨mid, hpre, hrest'⟩
    · -- the block reaches at least up to the letter
      cases mid with
      | nil =>
        rw [List.append_nil] at hmid
        obtain ⟨before, p, q, after, hblock, hpre, hq, hbefore, hafter⟩ := @ih [] hpost
        refine ⟨b ++ before, p, q, after, hblock, ?_, hq, .cons hb hbefore, hafter⟩
        rw [List.append_assoc, ← hpre, List.append_nil, hmid]
      | cons x mid =>
        obtain ⟨rfl, rfl⟩ := List.cons.inj hpost
        exact ⟨[], pre, mid, rest, hmid ▸ hb, rfl, rfl, .nil, hrest⟩
    · obtain ⟨before, p, q, after, hblock, hmid, hq, hbefore, hafter⟩ := ih hrest'.symm
      refine ⟨b ++ before, p, q, after, hblock, ?_, hq, .cons hb hbefore, hafter⟩
      rw [hpre, hmid, List.append_assoc]

/-- A word begins as a block does. -/
theorem Word.head {P : α → Prop} {w : List α} (h : Word Block w)
    (hblock : ∀ b, Block b → ∃ a rest, b = a :: rest ∧ P a) : ∀ a ∈ w.head?, P a := by
  cases h with
  | nil =>
    intro a ha
    cases ha
  | cons hb _ =>
    obtain ⟨a, rest, rfl, ha⟩ := hblock _ hb
    intro a' ha'
    cases ha'
    exact ha

end Brackets
