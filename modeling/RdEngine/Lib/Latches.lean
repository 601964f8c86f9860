/-
RdEngine/Lib/Latches.lean

Pollers that look at samples, and say events about them through two latches.

The first sample that opens is answered by the opening events, once and in
order, and some other events may only come after them.  The first sample that
closes is answered by the closing event, once (`Script.Account`).  A poller
keeps the account if each of its turns follows the script (`Account.turn`), and
a turn is put together from its parts (`Turn.opening`, `Turn.later`, `Turn.ending`).
The reader of the events has a beginning of them (`filter_take_alone`).
-/
import Mathlib.Data.List.Basic

namespace Latches

/-- The events that open, those that may only come later, and the one that
closes. -/
structure Script (ε : Type*) where
  opening : List ε
  gated : ε → Prop
  closing : ε

/-- Two latches; of a sample, which of them it sets. -/
structure Flags where
  opened : Bool := false
  closed : Bool := false
  deriving DecidableEq, Repr

/-- The latches after a sample. -/
def Flags.after (flags sample : Flags) : Flags :=
  ⟨flags.opened || sample.opened, flags.closed || sample.closed⟩

namespace Script

variable {ε : Type*} (S : Script ε)

/-- An event that may come at any time. -/
def Plain (e : ε) : Prop := e ∉ S.opening ∧ ¬ S.gated e

/-- The opening events come once, in order, and before all that wait for them. -/
def Announced (events : List ε) : Prop :=
  ∃ pre post, events = pre ++ S.opening ++ post ∧ (∀ e ∈ pre, S.Plain e) ∧
    ∀ e ∈ post, e ∉ S.opening

variable {S}

theorem Announced.append {events said : List ε} (h : S.Announced events)
    (hsaid : ∀ e ∈ said, e ∉ S.opening) : S.Announced (events ++ said) := by
  obtain ⟨pre, post, rfl, hpre, hpost⟩ := h
  refine ⟨pre, post ++ said, by rw [List.append_assoc], hpre, ?_⟩
  intro e he
  rcases List.mem_append.mp he with he | he
  · exact hpost e he
  · exact hsaid e he

theorem Announced.prepend {events said : List ε} (h : S.Announced said)
    (hevents : ∀ e ∈ events, S.Plain e) : S.Announced (events ++ said) := by
  obtain ⟨pre, post, rfl, hpre, hpost⟩ := h
  refine ⟨events ++ pre, post, by simp only [List.append_assoc], ?_, hpost⟩
  intro e he
  rcases List.mem_append.mp he with he | he
  · exact hevents e he
  · exact hpre e he

/-- Plain events announce nothing. -/
theorem not_announced {events : List ε} (hopening : S.opening ≠ [])
    (h : ∀ e ∈ events, S.Plain e) : ¬ S.Announced events := by
  rintro ⟨pre, post, rfl, -, -⟩
  obtain ⟨e, he⟩ := List.exists_mem_of_ne_nil _ hopening
  exact (h e (List.mem_append_left _ (List.mem_append_right _ he))).1 he

variable [DecidableEq ε] (S)

/-- What a turn on a sample may say, by the latches before it. -/
structure Turn (flags sample : Flags) (said : List ε) : Prop where
  waits : (flags.after sample).opened = false → ∀ e ∈ said, S.Plain e
  opens : flags.opened = false → sample.opened = true → S.Announced said
  follows : flags.opened = true → ∀ e ∈ said, e ∉ S.opening
  closes : said.count S.closing = if !flags.closed && sample.closed then 1 else 0

/-- The latches tell what was said. -/
structure Account (flags : Flags) (events : List ε) : Prop where
  waits : flags.opened = false → ∀ e ∈ events, S.Plain e
  opened : flags.opened = true → S.Announced events
  closed : events.count S.closing = if flags.closed then 1 else 0

theorem Account.start : S.Account {} [] where
  waits _ _ he := absurd he List.not_mem_nil
  opened h := absurd h Bool.false_ne_true
  closed := rfl

variable {S}

/-- **A turn keeps the account.** -/
theorem Account.turn {flags sample : Flags} {events said : List ε} (h : S.Account flags events)
    (hturn : S.Turn flags sample said) : S.Account (flags.after sample) (events ++ said) where
  waits hwaits e he := by
    have hbefore : flags.opened = false := (Bool.or_eq_false_iff.mp hwaits).1
    rcases List.mem_append.mp he with he | he
    · exact h.waits hbefore e he
    · exact hturn.waits hwaits e he
  opened hopened := by
    cases hbefore : flags.opened with
    | true => exact (h.opened hbefore).append (hturn.follows hbefore)
    | false =>
      have hsample : sample.opened = true := by simpa [Flags.after, hbefore] using hopened
      exact (hturn.opens hbefore hsample).prepend (h.waits hbefore)
  closed := by
    rw [List.count_append, h.closed, hturn.closes]
    cases hclosed : flags.closed <;> cases hsample : sample.closed <;>
      simp [Flags.after, hclosed, hsample]

theorem Account.announced_iff {flags : Flags} {events : List ε} (h : S.Account flags events)
    (hopening : S.opening ≠ []) : S.Announced events ↔ flags.opened = true := by
  refine ⟨fun hannounced => ?_, h.opened⟩
  by_contra hopened
  exact not_announced hopening (h.waits ((Bool.not_eq_true _).mp hopened)) hannounced

/-! ### Turns in parts -/

/-- An event that neither opens nor closes, and does not come too early. -/
def Later (flags : Flags) (e : ε) : Prop :=
  e ∉ S.opening ∧ e ≠ S.closing ∧ (flags.opened = false → ¬ S.gated e)

/-- The end of a turn, on a sample that does not open. -/
theorem Turn.ending {flags : Flags} {closed : Bool} {said : List ε}
    (hplain : ∀ e ∈ said, S.Plain e)
    (hcount : said.count S.closing = if !flags.closed && closed then 1 else 0) :
    S.Turn flags ⟨false, closed⟩ said where
  waits _ := hplain
  opens _ h := absurd h Bool.false_ne_true
  follows _ e he := (hplain e he).1
  closes := hcount

theorem Turn.later {flags sample : Flags} {pre said : List ε} (h : S.Turn flags sample said)
    (hpre : ∀ e ∈ pre, S.Later flags e) : S.Turn flags sample (pre ++ said) where
  waits hwaits e he := by
    have hbefore : flags.opened = false := (Bool.or_eq_false_iff.mp hwaits).1
    rcases List.mem_append.mp he with he | he
    · exact ⟨(hpre e he).1, (hpre e he).2.2 hbefore⟩
    · exact h.waits hwaits e he
  opens hbefore hsample :=
    (h.opens hbefore hsample).prepend fun e he => ⟨(hpre e he).1, (hpre e he).2.2 hbefore⟩
  follows hbefore e he := by
    rcases List.mem_append.mp he with he | he
    · exact (hpre e he).1
    · exact h.follows hbefore e he
  closes := by
    have hpre' : pre.count S.closing = 0 :=
      List.count_eq_zero.mpr fun he => (hpre _ he).2.1 rfl
    rw [List.count_append, hpre', Nat.zero_add, h.closes]

/-- The opening, when it is due, before the rest of the turn. -/
theorem Turn.opening {flags sample : Flags} {mid said : List ε} (hclosing : S.closing ∉ S.opening)
    (hmid : mid = if !flags.opened && sample.opened then S.opening else [])
    (h : S.Turn ⟨flags.opened || sample.opened, flags.closed⟩ ⟨false, sample.closed⟩ said) :
    S.Turn flags sample (mid ++ said) where
  waits hwaits e he := by
    obtain ⟨hbefore, hsample⟩ := Bool.or_eq_false_iff.mp hwaits
    rw [hmid, hbefore, hsample] at he
    refine h.waits ?_ e he
    simp [Flags.after, hbefore, hsample]
  opens hbefore hsample := by
    rw [hmid, hbefore, hsample]
    refine ⟨[], said, rfl, fun e he => absurd he List.not_mem_nil, ?_⟩
    exact h.follows (by rw [hsample, Bool.or_true])
  follows hbefore e he := by
    rw [hmid, hbefore] at he
    exact h.follows (by rw [hbefore, Bool.true_or]) e he
  closes := by
    have hmid' : mid.count S.closing = 0 := by
      refine List.count_eq_zero.mpr fun he => ?_
      rw [hmid] at he
      split at he
      · exact hclosing he
      · exact List.not_mem_nil he
    rw [List.count_append, hmid', Nat.zero_add, h.closes]

end Script

/-! ### What was handed over of a sequence of events -/

/-- An event of its kind that stands alone is among the first `n` events, or
nothing of its kind is. -/
theorem filter_take_alone {ε : Type*} {p : ε → Bool} {before after : List ε} {e : ε}
    (hbefore : before.filter p = []) (hafter : after.filter p = []) (he : p e = true) (n : Nat) :
    ((before ++ e :: after).take n).filter p = if before.length < n then [e] else [] := by
  split
  · rename_i hn
    obtain ⟨k, rfl⟩ : ∃ k, n = before.length + (k + 1) := ⟨n - before.length - 1, by omega⟩
    have hrest : (after.take k).filter p = [] :=
      List.sublist_nil.mp (hafter ▸ (List.take_sublist k after).filter p)
    rw [List.take_length_add_append, List.take_succ_cons, List.filter_append, hbefore,
      List.nil_append, List.filter_cons_of_pos he, hrest]
  · rename_i hn
    rw [List.take_append_of_le_length (by omega)]
    exact List.sublist_nil.mp (hbefore ▸ (List.take_sublist n before).filter p)

theorem any_take_alone {ε : Type*} {p : ε → Bool} {before after : List ε} {e : ε}
    (hbefore : before.filter p = []) (hafter : after.filter p = []) (he : p e = true) (n : Nat) :
    ((before ++ e :: after).take n).any p = true ↔ before.length < n := by
  have hfilter := filter_take_alone hbefore hafter he n
  constructor
  · intro hany
    by_contra hn
    obtain ⟨a, ha, hp⟩ := List.any_eq_true.mp hany
    rw [if_neg hn] at hfilter
    exact List.filter_eq_nil_iff.mp hfilter a ha hp
  · intro hn
    rw [if_pos hn] at hfilter
    have hmem : e ∈ ((before ++ e :: after).take n).filter p := hfilter ▸ List.mem_singleton_self e
    exact List.any_eq_true.mpr ⟨e, List.mem_filter.mp hmem⟩

end Latches
