/-
RdEngine/Lib/Keys.lean

Keys going down and up on one machine: which keys are held after a sequence of
transitions, and the sequences a keystroke stands for (`Stroke`).

A keystroke is a key between its modifiers.  Whatever was held before, a stroke
that ends with its key going up leaves neither the key nor a modifier held
(`Stroke.released`).

Where transitions can fail, what can be asked is that every key that went down is
attempted to be let up (`LetUpBut`).
-/
import Mathlib.Data.Set.Insert
import Mathlib.Data.List.Perm.Basic

namespace Keys

variable {K : Type*}

/-- A key goes down or up. -/
structure Transition (K : Type*) where
  key : K
  down : Bool
  deriving DecidableEq, Repr

/-- The keys held after a transition. -/
def Transition.apply (held : Set K) (t : Transition K) : Set K :=
  if t.down then insert t.key held else held \ {t.key}

/-- The keys held after a sequence. -/
def after (held : Set K) (ts : List (Transition K)) : Set K := ts.foldl Transition.apply held

theorem after_append (held : Set K) (ts us : List (Transition K)) :
    after held (ts ++ us) = after (after held ts) us := List.foldl_append

/-- A key that is not held stays so while it does not go down. -/
theorem not_mem_after {held : Set K} {k : K} {ts : List (Transition K)} (hk : k ∉ held)
    (hts : ∀ t ∈ ts, t.key = k → t.down = false) : k ∉ after held ts := by
  induction ts generalizing held with
  | nil => exact hk
  | cons t ts ih =>
    refine ih ?_ fun u hu => hts u (List.mem_cons_of_mem t hu)
    intro hmem
    unfold Transition.apply at hmem
    split at hmem
    · next hdown =>
      rcases hmem with rfl | hmem
      · have hup := hts t List.mem_cons_self rfl
        rw [hdown] at hup
        cases hup
      · exact hk hmem
    · exact hk hmem.1

/-- A key that has gone up, and not down again, is not held. -/
theorem released {held : Set K} {k : K} {ts us : List (Transition K)}
    (hus : ∀ t ∈ us, t.key = k → t.down = false) : k ∉ after held (ts ++ ⟨k, false⟩ :: us) := by
  have hup : k ∉ Transition.apply (after held ts) ⟨k, false⟩ := fun hmem => hmem.2 rfl
  rw [after_append]
  change k ∉ after (Transition.apply (after held ts) ⟨k, false⟩) us
  exact not_mem_after hup hus

/-! ### Keystrokes -/

/-- A press is a down and an up; else the key makes the one transition told. -/
def core (key : K) (down press : Bool) : List (Transition K) :=
  if press then [⟨key, true⟩, ⟨key, false⟩] else [⟨key, down⟩]

/-- A key between its modifiers, each of which goes down before and up after it. -/
def Stroke (modifiers : List K) (key : K) (down press : Bool) (ts : List (Transition K)) : Prop :=
  ∃ pressed lifted : List K, pressed.Perm modifiers ∧ lifted.Perm modifiers ∧
    ts = pressed.map (⟨·, true⟩) ++ core key down press ++ lifted.map (⟨·, false⟩)

variable {modifiers : List K} {key : K} {down press : Bool} {ts : List (Transition K)}

theorem Stroke.length (h : Stroke modifiers key down press ts) :
    ts.length = 2 * modifiers.length + if press then 2 else 1 := by
  obtain ⟨pressed, lifted, hpressed, hlifted, rfl⟩ := h
  have hcore : (core key down press).length = if press then 2 else 1 := by
    unfold core
    split <;> rfl
  rw [List.length_append, List.length_append, List.length_map, List.length_map, hpressed.length_eq,
    hlifted.length_eq, hcore]
  omega

/-- **A keystroke that ends with its key up leaves nothing of it held.** -/
theorem Stroke.released (h : Stroke modifiers key down press ts) (hup : press = true ∨ down = false)
    {k : K} (hk : k ∈ key :: modifiers) (held : Set K) (before : List (Transition K)) :
    k ∉ after held (before ++ ts) := by
  obtain ⟨pressed, lifted, -, hlifted, rfl⟩ := h
  have hcore : ∃ first, core key down press = first ++ [⟨key, false⟩] := by
    cases press with
    | true => exact ⟨[⟨key, true⟩], rfl⟩
    | false =>
      obtain rfl : down = false := hup.resolve_left Bool.false_ne_true
      exact ⟨[], rfl⟩
  obtain ⟨first, hfirst⟩ := hcore
  have hups : ∀ {keys : List K}, ∀ t ∈ keys.map (⟨·, false⟩ : K → Transition K), t.key = k →
      t.down = false := by
    intro keys t ht _
    obtain ⟨_, _, rfl⟩ := List.mem_map.mp ht
    rfl
  rcases List.mem_cons.mp hk with rfl | hmodifier
  · -- behind the key's own release there are only releases
    have hsplit : before ++ (pressed.map (⟨·, true⟩) ++ core k down press ++
        lifted.map (⟨·, false⟩)) = (before ++ pressed.map (⟨·, true⟩) ++ first) ++
          (⟨k, false⟩ : Transition K) :: lifted.map (⟨·, false⟩) := by
      rw [hfirst]
      simp
    rw [hsplit]
    exact Keys.released hups
  · obtain ⟨left, right, rfl⟩ := List.append_of_mem (hlifted.mem_iff.mpr hmodifier)
    have hsplit : before ++ (pressed.map (⟨·, true⟩) ++ core key down press ++
        (left ++ k :: right).map (⟨·, false⟩)) =
          (before ++ pressed.map (⟨·, true⟩) ++ core key down press ++ left.map (⟨·, false⟩)) ++
            (⟨k, false⟩ : Transition K) :: right.map (⟨·, false⟩) := by
      simp
    rw [hsplit]
    exact Keys.released hups

/-! ### Transitions that may fail -/

/-- A transition that was attempted. -/
structure Attempt (K : Type*) extends Transition K where
  done : Bool

/-- Every key that went down, but those to be held, was attempted to be let up. -/
def LetUpBut (held : K → Prop) (as : List (Attempt K)) : Prop :=
  ∀ before a after, as = before ++ a :: after → a.down = true → a.done = true →
    held a.key ∨ ∃ up ∈ after, up.down = false ∧ up.key = a.key

variable {held : K → Prop} {as bs : List (Attempt K)}

theorem letUpBut_nil : LetUpBut held [] := by
  intro before a after hsplit
  exact absurd hsplit.symm (List.append_ne_nil_of_right_ne_nil _ (List.cons_ne_nil _ _))

theorem letUpBut_cons {a : Attempt K} : LetUpBut held (a :: as) ↔
    (a.down = true → a.done = true → held a.key ∨ ∃ up ∈ as, up.down = false ∧ up.key = a.key)
      ∧ LetUpBut held as := by
  constructor
  · intro h
    refine ⟨h [] a as rfl, ?_⟩
    rintro before b after rfl
    exact h (a :: before) b after rfl
  · rintro ⟨hhead, htail⟩ before b after hsplit
    rcases List.cons_eq_append_iff.mp hsplit with ⟨rfl, hcons⟩ | ⟨before', rfl, rfl⟩
    · obtain ⟨rfl, rfl⟩ := List.cons.inj hcons
      exact hhead
    · exact htail before' b after rfl

/-- What goes down in a first part is let up in a second. -/
theorem LetUpBut.append (hbs : LetUpBut held bs)
    (has : ∀ a ∈ as, a.down = true → a.done = true →
      held a.key ∨ ∃ up ∈ bs, up.down = false ∧ up.key = a.key) :
    LetUpBut held (as ++ bs) := by
  induction as with
  | nil => exact hbs
  | cons a as ih =>
    rw [List.forall_mem_cons] at has
    rw [List.cons_append, letUpBut_cons]
    refine ⟨fun hdown hdone => ?_, ih has.2⟩
    rcases has.1 hdown hdone with hheld | ⟨up, hup, hkey⟩
    · exact .inl hheld
    · exact .inr ⟨up, List.mem_append_right as hup, hkey⟩

theorem LetUpBut.trans (has : LetUpBut held as) (hbs : LetUpBut held bs) :
    LetUpBut held (as ++ bs) := by
  induction as with
  | nil => exact hbs
  | cons a as ih =>
    rw [letUpBut_cons] at has
    rw [List.cons_append, letUpBut_cons]
    refine ⟨fun hdown hdone => ?_, ih has.2⟩
    rcases has.1 hdown hdone with hheld | ⟨up, hup, hkey⟩
    · exact .inl hheld
    · exact .inr ⟨up, List.mem_append_left bs hup, hkey⟩

/-- Where nothing goes down, nothing has to be let up. -/
theorem letUpBut_of_ups (h : ∀ a ∈ as, a.down = false) : LetUpBut held as := by
  rintro before a after rfl hdown
  rw [h a (List.mem_append_right _ List.mem_cons_self)] at hdown
  cases hdown

end Keys
