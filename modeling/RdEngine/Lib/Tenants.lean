/-
RdEngine/Lib/Tenants.lean

A register of tenants with room for a few at a time.

A tenant holds a resource from its admission until it is known to have left.  Whoever is
admitted gets the next number and is listed under its name; a name is struck off the
list only if its tenant has left (`Register.Sound`).  So a tenant that has not left is
listed (`Sound.find?_held`), there are never more of them than there is room
(`Sound.held_le_room`), and a resource goes to a newcomer only from somebody who has
left it (`Sound.succession`).

`Register.Upto` is what stays of a register in all that follows: tenants, their
resources, the flags that have gone up and how they left.
-/
import Mathlib.Algebra.Order.Ring.Nat
import Mathlib.Data.List.Nodup
import Mathlib.Data.List.Perm.Subperm
import Mathlib.Logic.Function.Basic

namespace Tenants

variable {κ ν : Type*}

/-- A tenant: what it holds, whether it is on its way out, whether somebody waits for it
to leave, and how that ended. -/
structure Tenant (κ : Type*) where
  resource : κ
  closing : Bool := false
  joinPending : Bool := false
  left : Option Bool := none
  deriving DecidableEq, Repr

/-- It is not known to have left. -/
def Tenant.Held (t : Tenant κ) : Prop := t.left ≠ some true

/-- The tenants that were ever enrolled, and the names of those who are listed. -/
structure Register (κ ν : Type*) where
  next : Nat
  tenants : Nat → Option (Tenant κ)
  listed : List (ν × Nat)

/-- The room there is, which resources exclude each other, and the names. -/
structure Rules (κ ν : Type*) where
  room : Nat
  conflict : κ → κ → Bool
  name : Nat → ν

namespace Register

variable {rules : Rules κ ν} {r r' : Register κ ν}

/-- Nobody was enrolled yet; the numbers begin here. -/
def empty (first : Nat) : Register κ ν := ⟨first, fun _ => none, []⟩

/-- The number behind a name that is listed. -/
def find? [DecidableEq ν] (r : Register κ ν) (id : ν) : Option Nat :=
  (r.listed.find? fun entry => entry.1 = id).map (·.2)

def full (rules : Rules κ ν) (r : Register κ ν) : Bool := rules.room ≤ r.listed.length

/-- A listed tenant excludes the newcomer. -/
def taken (rules : Rules κ ν) (r : Register κ ν) (x : κ) : Bool :=
  r.listed.any fun entry => (r.tenants entry.2).any fun t => rules.conflict t.resource x

/-- The next number is used up, and nobody admitted. -/
def skip (r : Register κ ν) : Register κ ν := { r with next := r.next + 1 }

/-- The newcomer gets the next number, and is listed under its name. -/
def enrol (rules : Rules κ ν) (r : Register κ ν) (x : κ) : Register κ ν where
  next := r.next + 1
  tenants := Function.update r.tenants r.next (some { resource := x })
  listed := (rules.name r.next, r.next) :: r.listed

def modify (r : Register κ ν) (n : Nat) (f : Tenant κ → Tenant κ) : Register κ ν :=
  { r with tenants := Function.update r.tenants n ((r.tenants n).map f) }

def strike [DecidableEq ν] (r : Register κ ν) (id : ν) : Register κ ν :=
  { r with listed := r.listed.filter fun entry => entry.1 ≠ id }

/-! ### What stays -/

/-- The register has come to be another. -/
structure Upto (r r' : Register κ ν) : Prop where
  next : r.next ≤ r'.next
  tenants : ∀ n t, r.tenants n = some t → ∃ t', r'.tenants n = some t' ∧
    t'.resource = t.resource ∧ (t.closing = true → t'.closing = true) ∧
    (t.joinPending = true → t'.joinPending = true) ∧
    ∀ b, t.left = some b → t'.left = some b

theorem Upto.refl (r : Register κ ν) : Upto r r :=
  ⟨le_rfl, fun _ t h => ⟨t, h, rfl, id, id, fun _ => id⟩⟩

theorem Upto.trans {r'' : Register κ ν} (h : Upto r r') (h' : Upto r' r'') : Upto r r'' := by
  refine ⟨h.next.trans h'.next, fun n t hn => ?_⟩
  obtain ⟨t', hn', hresource, hclosing, hjoin, hleft⟩ := h.tenants n t hn
  obtain ⟨t'', hn'', hresource', hclosing', hjoin', hleft'⟩ := h'.tenants n t' hn'
  exact ⟨t'', hn'', hresource'.trans hresource, hclosing' ∘ hclosing, hjoin' ∘ hjoin,
    fun b hb => hleft' b (hleft b hb)⟩

theorem upto_skip : Upto r r.skip :=
  ⟨Nat.le_succ _, fun _ t h => ⟨t, h, rfl, id, id, fun _ => id⟩⟩

theorem upto_strike [DecidableEq ν] (id : ν) : Upto r (r.strike id) :=
  ⟨le_rfl, fun _ t h => ⟨t, h, rfl, fun h => h, fun h => h, fun _ => fun h => h⟩⟩

/-- A number that was not given out has no tenant. -/
def Fresh (r : Register κ ν) : Prop := ∀ n t, r.tenants n = some t → n < r.next

theorem enrol_tenants (hfresh : r.Fresh) (x : κ) {n : Nat} {t : Tenant κ}
    (h : r.tenants n = some t) : (r.enrol rules x).tenants n = some t := by
  show Function.update r.tenants r.next _ n = some t
  rw [Function.update_of_ne (hfresh n t h).ne]
  exact h

theorem upto_enrol (hfresh : r.Fresh) (x : κ) : Upto r (r.enrol rules x) :=
  ⟨Nat.le_succ _, fun _ t h => ⟨t, enrol_tenants hfresh x h, rfl, id, id, fun _ => id⟩⟩

/-- What may be done to a tenant: its resource stays, its flags only go up, and it
leaves once. -/
structure Ageing (f : Tenant κ → Tenant κ) (t : Tenant κ) : Prop where
  resource : (f t).resource = t.resource
  closing : t.closing = true → (f t).closing = true
  joinPending : t.joinPending = true → (f t).joinPending = true
  left : ∀ b, t.left = some b → (f t).left = some b

theorem upto_modify {n : Nat} {f : Tenant κ → Tenant κ}
    (hf : ∀ t, r.tenants n = some t → Ageing f t) : Upto r (r.modify n f) := by
  refine ⟨le_rfl, fun m t h => ?_⟩
  show ∃ t', Function.update r.tenants n _ m = some t' ∧ _
  by_cases hm : m = n
  · subst hm
    rw [Function.update_self, h]
    exact ⟨f t, rfl, (hf t h).resource, (hf t h).closing, (hf t h).joinPending, (hf t h).left⟩
  · rw [Function.update_of_ne hm]
    exact ⟨t, h, rfl, id, id, fun _ => id⟩

/-! ### What holds -/

/-- What is kept by everything that is done to a register. -/
structure Sound (rules : Rules κ ν) (r : Register κ ν) : Prop where
  fresh : r.Fresh
  named : ∀ entry ∈ r.listed, entry.1 = rules.name entry.2 ∧ ∃ t, r.tenants entry.2 = some t
  held : ∀ n t, r.tenants n = some t → t.Held → (rules.name n, n) ∈ r.listed
  room : r.listed.length ≤ rules.room
  succession : ∀ m n t u, m < n → r.tenants m = some t → r.tenants n = some u →
    rules.conflict t.resource u.resource = true → t.left = some true

theorem sound_empty (rules : Rules κ ν) (first : Nat) : Sound rules (empty first) where
  fresh _ _ h := nomatch h
  named _ h := nomatch h
  held _ _ h := nomatch h
  room := Nat.zero_le _
  succession _ _ _ _ _ h := nomatch h

variable {x : κ} {n : Nat} {f : Tenant κ → Tenant κ}

theorem Sound.skip (h : Sound rules r) : Sound rules r.skip where
  fresh n t ht := (h.fresh n t ht).trans (Nat.lt_succ_self _)
  named := h.named
  held := h.held
  room := h.room
  succession := h.succession

/-- A tenant of the register with a newcomer is one of before or the newcomer. -/
theorem tenants_enrol {m : Nat} {t : Tenant κ} (h : (r.enrol rules x).tenants m = some t) :
    r.tenants m = some t ∨ m = r.next ∧ t = { resource := x } := by
  have hupdate : Function.update r.tenants r.next (some { resource := x }) m = some t := h
  by_cases hm : m = r.next
  · subst hm
    rw [Function.update_self] at hupdate
    exact .inr ⟨rfl, (Option.some.inj hupdate).symm⟩
  · rw [Function.update_of_ne hm] at hupdate
    exact .inl hupdate

/-- Somebody is admitted where there is room and nobody is in the way. -/
theorem Sound.enrol (h : Sound rules r) (hroom : full rules r = false)
    (hfree : taken rules r x = false) : Sound rules (r.enrol rules x) where
  fresh m t ht := by
    rcases tenants_enrol ht with ht | ⟨rfl, -⟩
    · exact (h.fresh m t ht).trans (Nat.lt_succ_self _)
    · exact Nat.lt_succ_self _
  named entry hentry := by
    rcases List.mem_cons.mp hentry with rfl | hentry
    · exact ⟨rfl, _, Function.update_self ..⟩
    · obtain ⟨hname, t, ht⟩ := h.named entry hentry
      exact ⟨hname, t, enrol_tenants h.fresh x ht⟩
  held m t ht hheld := by
    rcases tenants_enrol ht with ht | ⟨rfl, -⟩
    · exact List.mem_cons_of_mem _ (h.held m t ht hheld)
    · exact List.mem_cons_self
  room := by
    have hlt : r.listed.length < rules.room := Nat.not_le.mp (of_decide_eq_false hroom)
    exact hlt
  succession m n t u hmn ht hu hconflict := by
    rcases tenants_enrol hu with hu | ⟨rfl, rfl⟩
    · rcases tenants_enrol ht with ht | ⟨rfl, -⟩
      · exact h.succession m n t u hmn ht hu hconflict
      · exact absurd hmn (h.fresh n u hu).le.not_gt
    · rcases tenants_enrol ht with ht | ⟨rfl, -⟩
      · -- a tenant that is in the newcomer's way would be listed, and found there
        by_contra hheld
        have hentry := h.held m t ht hheld
        have hnone := List.any_eq_false.mp hfree _ hentry
        rw [ht] at hnone
        exact hnone hconflict
      · exact absurd hmn (lt_irrefl _)

theorem tenants_modify {m : Nat} {u : Tenant κ} (h : (r.modify n f).tenants m = some u) :
    r.tenants m = some u ∧ m ≠ n ∨ ∃ t, r.tenants m = some t ∧ m = n ∧ u = f t := by
  have hupdate : Function.update r.tenants n ((r.tenants n).map f) m = some u := h
  by_cases hm : m = n
  · subst hm
    rw [Function.update_self, Option.map_eq_some_iff] at hupdate
    obtain ⟨t, ht, rfl⟩ := hupdate
    exact .inr ⟨t, ht, rfl, rfl⟩
  · rw [Function.update_of_ne hm] at hupdate
    exact .inl ⟨hupdate, hm⟩

theorem Sound.modify (h : Sound rules r) (hf : ∀ t, r.tenants n = some t → Ageing f t) :
    Sound rules (r.modify n f) := by
  have before : ∀ m u, (r.modify n f).tenants m = some u → ∃ t, r.tenants m = some t ∧
      u.resource = t.resource ∧ (t.left = some true → u.left = some true) := by
    intro m u hu
    rcases tenants_modify hu with ⟨hu, -⟩ | ⟨t, ht, rfl, rfl⟩
    · exact ⟨u, hu, rfl, id⟩
    · exact ⟨t, ht, (hf t ht).resource, (hf t ht).left true⟩
  refine ⟨fun m u hu => ?_, fun entry hentry => ?_, fun m u hu hheld => ?_, h.room,
    fun m m' u u' hlt hu hu' hconflict => ?_⟩
  · obtain ⟨t, ht, -⟩ := before m u hu
    exact h.fresh m t ht
  · obtain ⟨hname, t, ht⟩ := h.named entry hentry
    obtain ⟨t', ht', -⟩ := (upto_modify hf).tenants _ t ht
    exact ⟨hname, t', ht'⟩
  · obtain ⟨t, ht, -, hleft⟩ := before m u hu
    exact h.held m t ht fun hgone => hheld (hleft hgone)
  · obtain ⟨t, ht, hresource, hleft⟩ := before m u hu
    obtain ⟨t', ht', hresource', -⟩ := before m' u' hu'
    rw [hresource, hresource'] at hconflict
    exact hleft (h.succession m m' t t' hlt ht ht' hconflict)

variable [DecidableEq ν] {id : ν}

/-- The name of somebody who has left is struck off. -/
theorem Sound.strike (h : Sound rules r)
    (hleft : ∀ n t, rules.name n = id → r.tenants n = some t → t.left = some true) :
    Sound rules (r.strike id) where
  fresh := h.fresh
  named entry hentry := h.named entry (List.mem_of_mem_filter hentry)
  held n t ht hheld := by
    refine List.mem_filter.mpr ⟨h.held n t ht hheld, decide_eq_true fun hname => ?_⟩
    exact hheld (hleft n t hname ht)
  room := (List.length_filter_le _ _).trans h.room
  succession := h.succession

/-- What is found under a name is a tenant that was given that name. -/
theorem Sound.name_of_find? (h : Sound rules r) (hfind : r.find? id = some n) :
    rules.name n = id ∧ ∃ t, r.tenants n = some t := by
  obtain ⟨entry, hentry, rfl⟩ := Option.map_eq_some_iff.mp hfind
  have hname : entry.1 = id := by simpa using List.find?_some hentry
  obtain ⟨hentry', htenant⟩ := h.named entry (List.mem_of_find?_eq_some hentry)
  exact ⟨hentry'.symm.trans hname, htenant⟩

/-- A tenant that has not left is found under its name. -/
theorem Sound.find?_held (h : Sound rules r) (hname : Function.Injective rules.name)
    {t : Tenant κ} (ht : r.tenants n = some t) (hheld : t.Held) :
    r.find? (rules.name n) = some n := by
  have hmem := h.held n t ht hheld
  have hsome : (r.find? (rules.name n)).isSome := by
    rw [find?, Option.isSome_map, List.find?_isSome]
    exact ⟨_, hmem, decide_eq_true rfl⟩
  obtain ⟨m, hm⟩ := Option.isSome_iff_exists.mp hsome
  rw [hm, hname (h.name_of_find? hm).1]

omit [DecidableEq ν] in
/-- There are never more tenants that have not left than there is room. -/
theorem Sound.held_le_room (h : Sound rules r) {ns : List Nat} (hns : ns.Nodup)
    (hheld : ∀ n ∈ ns, ∃ t, r.tenants n = some t ∧ t.Held) : ns.length ≤ rules.room := by
  have hnodup : (ns.map fun n => (rules.name n, n)).Nodup :=
    hns.map fun m n hmn => congrArg Prod.snd hmn
  have hsub : ns.map (fun n => (rules.name n, n)) ⊆ r.listed := by
    intro entry hentry
    obtain ⟨n, hn, rfl⟩ := List.mem_map.mp hentry
    obtain ⟨t, ht, ht'⟩ := hheld n hn
    exact h.held n t ht ht'
  calc ns.length = (ns.map fun n => (rules.name n, n)).length := (List.length_map _).symm
    _ ≤ r.listed.length := (hnodup.subperm hsub).length_le
    _ ≤ rules.room := h.room

end Register

end Tenants
