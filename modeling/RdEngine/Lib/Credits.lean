/-
RdEngine/Lib/Credits.lean

Bounded queues whose units carry credit.

A queue that bounds what it holds, by a number of units and by a number of
bytes, keeps two counters.  A unit is charged before it is queued, and its
credit is given back when the last holder lets go of it: the producer that was
still copying it (`copying`), the queue, or a consumer that has taken it
(`leases`).  A queue that is torn down gives back the credit of what it drops.

* `Account.Of` — the counters are what a multiset of holders took, with one
  rule for each operation on the counters;
* `Queue`, `Step` — the queue as a machine, with the units put and taken as
  its history;
* `sound_run` — after every run the counters are those of the holders and
  within the limits, and the units are taken in the order they were put.
-/
import RdEngine.Lib.Runs
import Mathlib.Algebra.Order.Ring.Nat
import Mathlib.Algebra.BigOperators.Group.Multiset.Basic

namespace Credits

open Lts

/-! ### Accounts -/

/-- The two counters of a queue. -/
structure Account where
  units : Nat
  bytes : Nat
deriving Repr, DecidableEq

/-- The bounds of a queue. -/
structure Limits where
  units : Nat
  bytes : Nat
deriving Repr, DecidableEq

namespace Account

/-- Nothing is held. -/
def zero : Account := ⟨0, 0⟩

/-- Credit for a unit of `n` bytes is taken. -/
def charge (c : Account) (n : Nat) : Account := ⟨c.units + 1, c.bytes + n⟩

/-- Credit for a unit of `n` bytes is given back; `none` is an underflow. -/
def refund (c : Account) (n : Nat) : Option Account :=
  if 1 ≤ c.units ∧ n ≤ c.bytes then some ⟨c.units - 1, c.bytes - n⟩ else none

/-- The same with counters that stop at zero. -/
def refundSaturating (c : Account) (n : Nat) : Account := ⟨c.units - 1, c.bytes - n⟩

variable {α : Type*} {size : α → Nat} {c : Account} {holders others : Multiset α} {a : α}

/-- The counters are what the holders took. -/
structure Of (size : α → Nat) (c : Account) (holders : Multiset α) : Prop where
  units : c.units = holders.card
  bytes : c.bytes = (holders.map size).sum

theorem of_zero (size : α → Nat) : Of size zero 0 := ⟨rfl, rfl⟩

theorem Of.charge (h : c.Of size holders) : (c.charge (size a)).Of size (a ::ₘ holders) := by
  refine ⟨?_, ?_⟩
  · rw [Multiset.card_cons]
    exact congrArg (· + 1) h.units
  · rw [Multiset.map_cons, Multiset.sum_cons, Nat.add_comm]
    exact congrArg (· + size a) h.bytes

/-- What a holder took can be given back. -/
theorem Of.bounds (h : c.Of size (a ::ₘ holders)) : 1 ≤ c.units ∧ size a ≤ c.bytes := by
  have hunits := h.units
  have hbytes := h.bytes
  rw [Multiset.card_cons] at hunits
  rw [Multiset.map_cons, Multiset.sum_cons] at hbytes
  omega

theorem Of.refundSaturating (h : c.Of size (a ::ₘ holders)) :
    (c.refundSaturating (size a)).Of size holders := by
  have hunits := h.units
  have hbytes := h.bytes
  rw [Multiset.card_cons] at hunits
  rw [Multiset.map_cons, Multiset.sum_cons] at hbytes
  refine ⟨?_, ?_⟩
  · show c.units - 1 = holders.card
    omega
  · show c.bytes - size a = (holders.map size).sum
    omega

/-- A holder's refund never underflows, so that saturating makes no difference. -/
theorem Of.refund (h : c.Of size (a ::ₘ holders)) :
    c.refund (size a) = some (c.refundSaturating (size a)) :=
  if_pos h.bounds

/-- Everything `others` took is given back at once. -/
theorem Of.drop (h : c.Of size (others + holders)) :
    Of size ⟨c.units - others.card, c.bytes - (others.map size).sum⟩ holders := by
  have hunits := h.units
  have hbytes := h.bytes
  rw [Multiset.card_add] at hunits
  rw [Multiset.map_add, Multiset.sum_add] at hbytes
  refine ⟨?_, ?_⟩
  · show c.units - others.card = holders.card
    omega
  · show c.bytes - (others.map size).sum = (holders.map size).sum
    omega

theorem Of.eq_zero (h : c.Of size 0) : c = zero := by
  obtain ⟨units, bytes⟩ := c
  exact congrArg₂ Account.mk h.units h.bytes

end Account

namespace Limits

/-- There is room for a unit of `n` bytes. -/
def Room (limits : Limits) (c : Account) (n : Nat) : Prop :=
  c.units < limits.units ∧ n ≤ limits.bytes - c.bytes

instance (limits : Limits) (c : Account) (n : Nat) : Decidable (limits.Room c n) :=
  inferInstanceAs (Decidable (_ ∧ _))

/-- The counters keep to the limits. -/
def Within (limits : Limits) (c : Account) : Prop :=
  c.units ≤ limits.units ∧ c.bytes ≤ limits.bytes

theorem within_zero (limits : Limits) : limits.Within .zero := ⟨Nat.zero_le _, Nat.zero_le _⟩

theorem Within.charge {limits : Limits} {c : Account} {n : Nat} (h : limits.Within c)
    (hroom : limits.Room c n) : limits.Within (c.charge n) := by
  obtain ⟨hunits, hbytes⟩ := hroom
  have hwithin := h.2
  refine ⟨hunits, ?_⟩
  show c.bytes + n ≤ limits.bytes
  omega

/-- Giving credit back keeps to the limits. -/
theorem Within.le {limits : Limits} {c d : Account} (h : limits.Within c)
    (hunits : d.units ≤ c.units) (hbytes : d.bytes ≤ c.bytes) : limits.Within d :=
  ⟨hunits.trans h.1, hbytes.trans h.2⟩

end Limits

/-! ### The queue -/

/-- A queue with its counters, its holders and its history. -/
structure Queue (α : Type*) where
  account : Account
  queue : List α
  /-- charged, and not queued yet -/
  copying : Multiset α
  /-- taken from the queue, and not given back yet -/
  leases : Multiset α
  put : List α
  taken : List α
  /-- nothing is queued any more -/
  closed : Bool

/-- What is done to the queue and to its credits. -/
inductive Op (α : Type*) where
  | charge (a : α)
  | enqueue (a : α)
  | uncharge (a : α)
  | take (a : α)
  | release (a : α)
  | close
  | drain

variable {α : Type*} {limits : Limits} {size : α → Nat}

namespace Queue

/-- Nothing is queued, and no credit is out. -/
def empty : Queue α := ⟨.zero, [], 0, 0, [], [], false⟩

/-- Who holds credit. -/
def holders (q : Queue α) : Multiset α := (q.queue : Multiset α) + q.leases + q.copying

end Queue

/-- One operation, where it is allowed. -/
inductive Step (limits : Limits) (size : α → Nat) : Queue α → Op α → Queue α → Prop
  | charge {q : Queue α} {a : α} (hroom : limits.Room q.account (size a)) :
      Step limits size q (.charge a)
        { q with account := q.account.charge (size a), copying := a ::ₘ q.copying }
  | enqueue {q : Queue α} {a : α} {copying : Multiset α} (hcopying : q.copying = a ::ₘ copying)
      (hopen : q.closed = false) :
      Step limits size q (.enqueue a)
        { q with copying, queue := q.queue ++ [a], put := q.put ++ [a] }
  | uncharge {q : Queue α} {a : α} {copying : Multiset α} (hcopying : q.copying = a ::ₘ copying) :
      Step limits size q (.uncharge a)
        { q with account := q.account.refundSaturating (size a), copying }
  | take {q : Queue α} {a : α} {queue : List α} (hqueue : q.queue = a :: queue) :
      Step limits size q (.take a)
        { q with queue, leases := a ::ₘ q.leases, taken := q.taken ++ [a] }
  | release {q : Queue α} {a : α} {leases : Multiset α} (hleases : q.leases = a ::ₘ leases) :
      Step limits size q (.release a)
        { q with account := q.account.refundSaturating (size a), leases }
  | close {q : Queue α} : Step limits size q .close { q with closed := true }
  | drain {q : Queue α} {account : Account}
      (haccount : account
        = ⟨q.account.units - q.queue.length, q.account.bytes - (q.queue.map size).sum⟩) :
      Step limits size q .drain { q with account, queue := [], closed := true }

/-- What holds of the queue in every state. -/
structure Sound (limits : Limits) (size : α → Nat) (q : Queue α) : Prop where
  /-- The counters are those of the holders. -/
  account : q.account.Of size q.holders
  within : limits.Within q.account
  /-- What was taken is the beginning of what was put. -/
  order : q.taken <+: q.put
  /-- Until the queue is closed, nothing is lost. -/
  kept : q.closed = false → q.taken ++ q.queue = q.put
  queued : q.taken ++ q.queue <+: q.put

theorem sound_empty : Sound limits size (.empty : Queue α) :=
  ⟨Account.of_zero size, limits.within_zero, List.prefix_rfl, fun _ => rfl, List.prefix_rfl⟩

theorem Sound.step {q r : Queue α} {op : Op α} (h : Sound limits size q)
    (hstep : Step limits size q op r) : Sound limits size r := by
  cases hstep with
  | @charge a hroom =>
    refine ⟨?_, h.within.charge hroom, h.order, h.kept, h.queued⟩
    have hholders : (q.queue : Multiset α) + q.leases + a ::ₘ q.copying = a ::ₘ q.holders :=
      Multiset.add_cons _ _ _
    show Account.Of size _ ((q.queue : Multiset α) + q.leases + a ::ₘ q.copying)
    rw [hholders]
    exact h.account.charge
  | @enqueue a copying hcopying hopen =>
    -- the item keeps its credit and only changes hands
    have hkept := h.kept hopen
    have hall : q.taken ++ (q.queue ++ [a]) = q.put ++ [a] := by
      rw [← List.append_assoc, hkept]
    refine ⟨?_, h.within, h.order.trans (List.prefix_append _ _), fun _ => hall, ?_⟩
    · have hholders : ((q.queue ++ [a] : List α) : Multiset α) + q.leases + copying
          = q.holders := by
        rw [Queue.holders, hcopying, ← Multiset.coe_add, Multiset.coe_singleton,
          ← Multiset.singleton_add]
        ac_rfl
      show Account.Of size _ (((q.queue ++ [a] : List α) : Multiset α) + q.leases + copying)
      rw [hholders]
      exact h.account
    · exact hall ▸ List.prefix_rfl
  | @uncharge a copying hcopying =>
    have hholders : q.holders = a ::ₘ ((q.queue : Multiset α) + q.leases + copying) := by
      rw [Queue.holders, hcopying, Multiset.add_cons]
    have haccount := h.account
    rw [hholders] at haccount
    exact ⟨haccount.refundSaturating, h.within.le (Nat.sub_le _ _) (Nat.sub_le _ _), h.order,
      h.kept, h.queued⟩
  | @take a queue hqueue =>
    -- the front of the queue becomes a lease
    have hall : (q.taken ++ [a]) ++ queue = q.taken ++ q.queue := by
      rw [hqueue, List.append_assoc, List.singleton_append]
    refine ⟨?_, h.within, ?_, fun hopen => hall.trans (h.kept hopen), ?_⟩
    · have hholders : (queue : Multiset α) + a ::ₘ q.leases + q.copying = q.holders := by
        rw [Queue.holders, hqueue, ← Multiset.cons_coe, Multiset.add_cons, Multiset.cons_add,
          Multiset.cons_add, Multiset.cons_add]
      show Account.Of size _ ((queue : Multiset α) + a ::ₘ q.leases + q.copying)
      rw [hholders]
      exact h.account
    · exact (List.prefix_append _ queue).trans (hall ▸ h.queued)
    · exact hall ▸ h.queued
  | @release a leases hleases =>
    have hholders : q.holders = a ::ₘ ((q.queue : Multiset α) + leases + q.copying) := by
      rw [Queue.holders, hleases, Multiset.add_cons, Multiset.cons_add]
    have haccount := h.account
    rw [hholders] at haccount
    exact ⟨haccount.refundSaturating, h.within.le (Nat.sub_le _ _) (Nat.sub_le _ _), h.order,
      h.kept, h.queued⟩
  | close => exact ⟨h.account, h.within, h.order, nofun, h.queued⟩
  | drain haccount =>
    -- the rest of the queue is refunded; nothing of it counts as taken
    subst haccount
    refine ⟨?_, h.within.le (Nat.sub_le _ _) (Nat.sub_le _ _), h.order, nofun, ?_⟩
    · have hholders : q.holders = (q.queue : Multiset α) + (q.leases + q.copying) :=
        add_assoc _ _ _
      have haccount := h.account
      rw [hholders] at haccount
      show Account.Of size _ (((([] : List α) : Multiset α)) + q.leases + q.copying)
      rw [Multiset.coe_nil, zero_add]
      exact haccount.drop
    · rw [List.append_nil]
      exact h.order

/-- **A queue whose units carry credit**: after every run the counters are
those of the holders and within the limits, and units are taken in the order
they were put. -/
theorem sound_run {q : Queue α} {ops : List (Op α)}
    (hrun : Run (Step limits size) .empty ops q) : Sound limits size q :=
  hrun.invariant (fun _ _ _ => Sound.step) sound_empty

/-! ### Charging, and letting go -/

/-- A unit charged and queued at once. -/
theorem run_push {q : Queue α} {a : α} (hroom : limits.Room q.account (size a))
    (hopen : q.closed = false) :
    Run (Step limits size) q [.charge a, .enqueue a]
      { q with
        account := q.account.charge (size a), queue := q.queue ++ [a], put := q.put ++ [a] } := by
  have hcharge : Step limits size q (.charge a)
      { q with account := q.account.charge (size a), copying := a ::ₘ q.copying } := .charge hroom
  exact (Run.single hcharge).snoc (.enqueue rfl hopen)

/-- A holder can give its credit back without an underflow. -/
theorem Sound.refund {q : Queue α} (h : Sound limits size q) {a : α} (hmem : a ∈ q.holders) :
    q.account.refund (size a) = some (q.account.refundSaturating (size a)) := by
  obtain ⟨others, hothers⟩ := Multiset.exists_cons_of_mem hmem
  have haccount := h.account
  rw [hothers] at haccount
  exact haccount.refund

theorem coe_map_snoc {β : Type*} (f : β → α) (holders : List β) (b : β) :
    (((holders ++ [b]).map f : List α) : Multiset α) = f b ::ₘ (holders.map f : List α) := by
  rw [List.map_append, Multiset.cons_coe, Multiset.coe_eq_coe]
  exact List.perm_append_singleton _ _

theorem coe_map_middle {β : Type*} (f : β → α) (before after : List β) (b : β) :
    (((before ++ b :: after).map f : List α) : Multiset α)
      = f b ::ₘ ((before ++ after).map f : List α) := by
  rw [Multiset.cons_coe, Multiset.coe_eq_coe, ← List.map_cons]
  exact List.perm_middle.map _

/-- With nobody else holding credit, dropping the queue leaves none. -/
theorem Sound.drain_eq_zero {q : Queue α} (h : Sound limits size q) (hleases : q.leases = 0)
    (hcopying : q.copying = 0) :
    Account.mk (q.account.units - q.queue.length) (q.account.bytes - (q.queue.map size).sum)
      = .zero := by
  have haccount : q.account.Of size ((q.queue : Multiset α) + 0) := by
    have := h.account
    rwa [Queue.holders, hleases, hcopying, add_zero] at this
  exact haccount.drop.eq_zero

end Credits
