/-
RdEngine/Lib/Monitors.lean

Monitors: properties of the labels of a run that are read from left to right.

A monitor keeps an account of the labels so far, and says which label is allowed
next.  A list of labels meets it if every label is allowed by the account of
those before it (`Monitor.Met`).  A machine meets a monitor if its states stay
linked to the account (`Monitor.met_run`).
-/
import RdEngine.Lib.Runs

namespace Lts

/-- An account `β` of labels `α`, and what it allows. -/
structure Monitor (α β : Type*) where
  start : β
  after : β → α → β
  allows : β → α → Prop

namespace Monitor

variable {σ α β : Type*} (m : Monitor α β)

/-- The account of some labels. -/
def account (as : List α) : β := as.foldl m.after m.start

/-- Every label is allowed by the account of those before it. -/
def Met (as : List α) : Prop := ∀ pre a post, as = pre ++ a :: post → m.allows (m.account pre) a

@[simp] theorem account_snoc (as : List α) (a : α) :
    m.account (as ++ [a]) = m.after (m.account as) a := by
  simp [account]

theorem met_nil : m.Met [] := by
  intro pre a post h
  simp at h

theorem met_snoc {as : List α} {a : α} :
    m.Met (as ++ [a]) ↔ m.Met as ∧ m.allows (m.account as) a := by
  constructor
  · intro h
    refine ⟨fun pre b post hpre => h pre b (post ++ [a]) ?_, h as a [] rfl⟩
    rw [hpre, List.append_assoc, List.cons_append]
  · rintro ⟨hmet, hallows⟩ pre b post h
    rcases List.eq_nil_or_concat post with rfl | ⟨post, c, rfl⟩
    · obtain ⟨rfl, hb⟩ := List.append_inj' h rfl
      cases hb
      exact hallows
    · rw [List.concat_eq_append, ← List.cons_append, ← List.append_assoc] at h
      obtain ⟨h, -⟩ := List.append_inj' h rfl
      exact hmet pre b post h

/-! ### Several labels at once -/

/-- From an account on, these labels are allowed one after the other. -/
def Accepts (b : β) : List α → Prop
  | [] => True
  | a :: as => m.allows b a ∧ Accepts (m.after b a) as

theorem accepts_append {b : β} {as bs : List α} :
    m.Accepts b (as ++ bs) ↔ m.Accepts b as ∧ m.Accepts (as.foldl m.after b) bs := by
  induction as generalizing b with
  | nil => simp [Accepts]
  | cons a as ih => simp [Accepts, ih, and_assoc]

theorem account_append (as bs : List α) :
    m.account (as ++ bs) = bs.foldl m.after (m.account as) :=
  List.foldl_append

theorem Met.append {as bs : List α} (h : m.Met as) (hbs : m.Accepts (m.account as) bs) :
    m.Met (as ++ bs) := by
  induction bs generalizing as with
  | nil => rwa [List.append_nil]
  | cons b bs ih =>
    rw [List.append_cons]
    refine ih (m.met_snoc.mpr ⟨h, hbs.1⟩) ?_
    rw [account_snoc]
    exact hbs.2

theorem met_iff_accepts {as : List α} : m.Met as ↔ m.Accepts m.start as := by
  refine ⟨fun h => ?_, fun h => by simpa using m.met_nil.append m h⟩
  induction as using List.reverseRecOn with
  | nil => trivial
  | append_singleton as a ih =>
    obtain ⟨hmet, hallows⟩ := m.met_snoc.mp h
    exact m.accepts_append.mpr ⟨ih hmet, hallows, trivial⟩

/-- Every label is allowed by an account with what allowed labels preserve. -/
theorem Accepts.forall_mem {I : β → Prop} (hstep : ∀ b a, I b → m.allows b a → I (m.after b a))
    {as : List α} {b : β} (h : m.Accepts b as) (hI : I b) :
    ∀ a ∈ as, ∃ b', I b' ∧ m.allows b' a := by
  induction as generalizing b with
  | nil => exact fun a ha => absurd ha List.not_mem_nil
  | cons c as ih =>
    exact List.forall_mem_cons.mpr ⟨⟨b, hI, h.1⟩, ih h.2 (hstep b c hI h.1)⟩

/-- What allowed labels preserve holds of the account. -/
theorem Accepts.invariant {I : β → Prop} (hstep : ∀ b a, I b → m.allows b a → I (m.after b a))
    {as : List α} {b : β} (h : m.Accepts b as) (hI : I b) : I (as.foldl m.after b) := by
  induction as generalizing b with
  | nil => exact hI
  | cons c as ih => exact ih h.2 (hstep b c hI h.1)

variable {step : σ → α → σ → Prop}

/-- **A machine whose states stay linked to the account meets the monitor.** -/
theorem met_run {Linked : β → σ → Prop}
    (hstep : ∀ b s a t, Linked b s → step s a t → m.allows b a ∧ Linked (m.after b a) t)
    {s t : σ} {as : List α} (hrun : Run step s as t) (h₀ : Linked m.start s) :
    m.Met as ∧ Linked (m.account as) t := by
  have hkeep : ∀ as s a t, m.Met as ∧ Linked (m.account as) s → step s a t →
      m.Met (as ++ [a]) ∧ Linked (m.account (as ++ [a])) t := by
    rintro as s a t ⟨hmet, hlinked⟩ h
    obtain ⟨hallows, hnext⟩ := hstep _ _ _ _ hlinked h
    rw [account_snoc]
    exact ⟨m.met_snoc.mpr ⟨hmet, hallows⟩, hnext⟩
  exact Run.history (P := fun as s => m.Met as ∧ Linked (m.account as) s) hkeep hrun
    ⟨m.met_nil, h₀⟩

/-- **The runs that meet a monitor, by their steps**: where a label is allowed
exactly if its step meets a condition, a run meets the monitor exactly if all its
steps meet the condition. -/
theorem met_iff {Linked : β → σ → Prop} {C : σ → α → Prop}
    (hlinked : ∀ b s a t, Linked b s → step s a t → Linked (m.after b a) t)
    (hallows : ∀ b s a t, Linked b s → step s a t → (m.allows b a ↔ C s a))
    {s t : σ} {as : List α} (hrun : Run step s as t) (h₀ : Linked m.start s) :
    m.Met as ↔ Run (Where step C) s as t := by
  constructor
  · have hkeep : ∀ as t a u,
        Linked (m.account as) t ∧ (m.Met as → Run (Where step C) s as t) → step t a u →
        Linked (m.account (as ++ [a])) u ∧
          (m.Met (as ++ [a]) → Run (Where step C) s (as ++ [a]) u) := by
      rintro as t a u ⟨hlink, hmet⟩ h
      rw [account_snoc]
      refine ⟨hlinked _ _ _ _ hlink h, fun hall => ?_⟩
      obtain ⟨hbefore, hlast⟩ := m.met_snoc.mp hall
      exact (hmet hbefore).snoc ⟨(hallows _ _ _ _ hlink h).mp hlast, h⟩
    exact (Run.history (P := fun as t => Linked (m.account as) t ∧
      (m.Met as → Run (Where step C) s as t)) hkeep hrun ⟨h₀, fun _ => .nil s⟩).2
  · intro hwhere
    refine (m.met_run (fun b s a t hs h => ?_) hwhere h₀).1
    exact ⟨(hallows b s a t hs h.2).mpr h.1, hlinked b s a t hs h.2⟩

end Monitor

end Lts
