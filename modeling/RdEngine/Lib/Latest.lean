/-
RdEngine/Lib/Latest.lean

Records with a key, of which the last one with each key counts.

* `latest` is the last record of a list with a given key;
* `foldl_latest` — what a machine keeps of one key, when every record with that
  key overwrites it and no other does, is the last such record's value over the
  original one;
* `put` keeps a table with one record for each key, in the order in which the
  keys first came: `tabulates_collect` says that a table built from a list
  holds the last record of every key of the list, and nothing else.
-/
import Mathlib.Data.List.Induction
import Mathlib.Data.List.Nodup

namespace Latest

variable {K R : Type*} [DecidableEq K] (key : R → K)

/-! ### The last record with a key -/

/-- The last of these records that has the key. -/
def latest (k : K) (rs : List R) : Option R := rs.reverse.find? fun r => key r = k

variable {key} {k : K} {r : R} {rs : List R}

theorem latest_snoc :
    latest key k (rs ++ [r]) = if key r = k then some r else latest key k rs := by
  rw [latest, List.reverse_append, List.reverse_singleton, List.singleton_append,
    List.find?_cons]
  by_cases h : key r = k
  · rw [if_pos h, decide_eq_true h]
  · rw [if_neg h, decide_eq_false h]
    rfl

/-- What is kept of one key is the value of the last record with that key, over
what was there at first. -/
theorem foldl_latest {σ V : Type*} {f : σ → R → σ} {π : σ → V} {value : R → V}
    (hf : ∀ s r, π (f s r) = if key r = k then value r else π s) (s : σ) (rs : List R) :
    π (rs.foldl f s) = ((latest key k rs).map value).getD (π s) := by
  induction rs using List.reverseRecOn with
  | nil => rfl
  | append_singleton rs r ih =>
    rw [List.foldl_append, List.foldl_cons, List.foldl_nil, hf, latest_snoc, ih]
    split
    · rfl
    · rfl

/-! ### Tables -/

variable (key) in
/-- The record takes the place of the first one with its key. -/
def put (r : R) : List R → List R
  | [] => [r]
  | old :: table => if key old = key r then r :: table else old :: put r table

variable (key) in

/-- The records are put into the table, one after the other. -/
def collect (rs : List R) : List R := rs.foldl (fun table r => put key r table) []

variable {table : List R}

/-- A key stays where it is, and a new one goes to the end. -/
theorem map_put :
    (put key r table).map key =
      if key r ∈ table.map key then table.map key else table.map key ++ [key r] := by
  induction table with
  | nil => rfl
  | cons old table ih =>
    rw [put]
    by_cases h : key old = key r
    · have hmem : key r ∈ (old :: table).map key := List.mem_cons.mpr (.inl h.symm)
      rw [if_pos h, if_pos hmem, List.map_cons, List.map_cons, h]
    · have hne : key r ≠ key old := fun hr => h hr.symm
      rw [if_neg h, List.map_cons, ih, List.map_cons]
      simp only [List.mem_cons, hne, false_or]
      split
      · rfl
      · rfl

theorem nodup_put (h : (table.map key).Nodup) : ((put key r table).map key).Nodup := by
  rw [map_put]
  split
  · exact h
  · next hr =>
    rw [List.nodup_append]
    refine ⟨h, List.nodup_singleton _, fun k hk k' hk' => ?_⟩
    rw [List.mem_singleton.mp hk']
    exact fun he => hr (he ▸ hk)

theorem mem_put (h : (table.map key).Nodup) {r' : R} :
    r' ∈ put key r table ↔ r' = r ∨ (r' ∈ table ∧ key r' ≠ key r) := by
  induction table with
  | nil => simp [put]
  | cons old table ih =>
    rw [List.map_cons, List.nodup_cons] at h
    rw [put]
    by_cases hold : key old = key r
    · -- no other record of the table has the key
      have hrest : ∀ r' ∈ table, key r' ≠ key r := fun r' hr' he =>
        h.1 (hold ▸ he ▸ List.mem_map_of_mem hr')
      rw [if_pos hold, List.mem_cons, List.mem_cons]
      constructor
      · rintro (rfl | hr')
        · exact .inl rfl
        · exact .inr ⟨.inr hr', hrest r' hr'⟩
      · rintro (rfl | ⟨rfl | hr', hne⟩)
        · exact .inl rfl
        · exact absurd hold hne
        · exact .inr hr'
    · rw [if_neg hold, List.mem_cons, ih h.2, List.mem_cons]
      constructor
      · rintro (rfl | rfl | ⟨hr', hne⟩)
        · exact .inr ⟨.inl rfl, hold⟩
        · exact .inl rfl
        · exact .inr ⟨.inr hr', hne⟩
      · rintro (rfl | ⟨rfl | hr', hne⟩)
        · exact .inr (.inl rfl)
        · exact .inl rfl
        · exact .inr (.inr ⟨hr', hne⟩)

variable (key) in
/-- The table has one record for each key of the list: the last one. -/
structure Tabulates (table rs : List R) : Prop where
  nodup : (table.map key).Nodup
  mem_iff : ∀ r, r ∈ table ↔ latest key (key r) rs = some r

theorem Tabulates.put (h : Tabulates key table rs) (r : R) :
    Tabulates key (put key r table) (rs ++ [r]) where
  nodup := nodup_put h.nodup
  mem_iff r' := by
    rw [mem_put h.nodup, latest_snoc]
    by_cases hkey : key r = key r'
    · rw [if_pos hkey, Option.some.injEq]
      exact ⟨fun hr' => (hr'.resolve_right fun hin => hin.2 hkey.symm).symm, fun he => .inl he.symm⟩
    · rw [if_neg hkey, ← h.mem_iff r']
      constructor
      · rintro (rfl | hin)
        · exact absurd rfl hkey
        · exact hin.1
      · exact fun hin => .inr ⟨hin, fun he => hkey he.symm⟩

theorem tabulates_collect (rs : List R) : Tabulates key (collect key rs) rs := by
  induction rs using List.reverseRecOn with
  | nil => exact ⟨List.nodup_nil, fun r => ⟨fun h => (List.not_mem_nil h).elim, nofun⟩⟩
  | append_singleton rs r ih =>
    rw [collect, List.foldl_append]
    exact ih.put r

end Latest
