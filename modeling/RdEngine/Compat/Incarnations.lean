/-
RdEngine/Compat/Incarnations.lean

A start installs its backend in the session that has the id when the open is
over.  That is the session it was opened for exactly if the id was not closed
and added again meanwhile, and it is the only backend of that session exactly
if no other start of it was faster (`incarnation_kept_iff`).
-/
import RdEngine.Compat.Registry

namespace RdEngine

namespace Compat

open Lts

/-! ### The registry's operations -/

theorem get_some {registry : Registry} {id : String} {session : CompatSession}
    (h : registry.get id = some session) : session ∈ registry ∧ session.id = id := by
  unfold Registry.get at h
  exact ⟨List.mem_of_find?_eq_some h, by simpa using List.find?_some h⟩

theorem get_none {registry : Registry} {id : String} (h : registry.get id = none) :
    ∀ session ∈ registry, session.id ≠ id := by
  unfold Registry.get at h
  intro session hmem
  simpa using List.find?_eq_none.mp h session hmem

theorem mem_modify {registry : Registry} {id : String} {f : CompatSession → CompatSession}
    {session : CompatSession} (h : session ∈ registry.modify id f) :
    ∃ before ∈ registry, (before.id = id ∧ session = f before)
      ∨ (before.id ≠ id ∧ session = before) := by
  unfold Registry.modify at h
  obtain ⟨before, hmem, rfl⟩ := List.mem_map.mp h
  refine ⟨before, hmem, ?_⟩
  by_cases hid : before.id = id
  · exact .inl ⟨hid, by simp [hid]⟩
  · exact .inr ⟨hid, by simp [hid]⟩

theorem get_modify {registry : Registry} {id : String} {f : CompatSession → CompatSession}
    {session : CompatSession} (hget : registry.get id = some session)
    (hf : ∀ x, (f x).id = x.id) : (registry.modify id f).get id = some (f session) := by
  induction registry with
  | nil => cases hget
  | cons first rest ih =>
    by_cases hid : first.id = id
    · have hfirst : first = session := by simpa [Registry.get, hid] using hget
      subst hfirst
      simp [Registry.get, Registry.modify, hid, hf]
    · have hrest : Registry.get rest id = some session := by simpa [Registry.get, hid] using hget
      simpa [Registry.get, Registry.modify, hid] using ih hrest

theorem mem_remove {registry : Registry} {id : String} {session : CompatSession} :
    session ∈ registry.remove id ↔ session ∈ registry ∧ session.id ≠ id := by
  unfold Registry.remove
  rw [List.mem_filter, bne_iff_ne]

theorem get_remove (registry : Registry) (id : String) : (registry.remove id).get id = none := by
  refine List.find?_eq_none.mpr fun session hmem => ?_
  simpa using (mem_remove.mp hmem).2

/-! ### What is expected -/

/-- What happened so far, by generations: the route of each session with the
password it still has, what each thread opens, which sessions were closed and
which got a backend. -/
structure Account where
  sessions : Nat → Option (SessionRoute × String)
  openings : Nat → Option Opening
  closed : List Nat
  installed : List Nat

namespace Account

/-- Nothing has been added, and nothing begun. -/
def start : Account := ⟨fun _ => none, fun _ => none, [], []⟩

/-- The session's password is taken. -/
def taken (account : Account) (opening : Opening) : Account :=
  { account with
    sessions := Function.update account.sessions opening.generation (some (opening.route, "")) }

def after (account : Account) : Label → Account
  | .adds session =>
    { account with
      sessions :=
        Function.update account.sessions session.generation
          (some (session.route, session.password)) }
  | .relayForced opening => account.taken opening
  | .begins thread opening =>
    { account.taken opening with
      openings := Function.update account.openings thread (some opening) }
  | .finishes _ (.installed _ generation) =>
    { account with installed := generation :: account.installed }
  | .closes session => { account with closed := session.generation :: account.closed }
  | _ => account

/-- A start opens with the route and the password of a session; and it installs its
backend only in that session, while it is not closed and has none. -/
def allows (account : Account) : Label → Prop
  | .begins _ opening =>
    account.sessions opening.generation = some (opening.route, opening.password)
  | .finishes thread (.installed _ generation) =>
    (∃ opening, account.openings thread = some opening ∧ opening.generation = generation)
      ∧ generation ∉ account.closed ∧ generation ∉ account.installed
  | _ => True

end Account

/-- The account as a monitor of the events. -/
def incarnationMonitor : Monitor Label Account := ⟨.start, Account.after, Account.allows⟩

/-- When the open is over, the session of the id is the one it began with, and it
has no backend. -/
def Unchanged (s : State) : Label → Prop
  | .finishes thread (.installed _ _) =>
    ∃ opening backend session, s.threads thread = .opened opening backend
      ∧ s.registry.get opening.id = some session
      ∧ session.generation = opening.generation ∧ session.viewer = none
  | _ => True

/-! ### The account and the states -/

/-- What the account says of a session. -/
structure Entry (account : Account) (generations : Nat) (session : CompatSession) : Prop where
  bound : session.generation ≤ generations
  held : account.sessions session.generation = some (session.route, session.password)
  unclosed : session.generation ∉ account.closed
  installed : session.generation ∈ account.installed ↔ session.viewer.isSome = true

/-- What a thread opens. -/
def Thread.opening? : Thread → Option Opening
  | .idle => none
  | .opening o | .opened o _ => some o

/-- The state agrees with the account of its history. -/
structure Linked (account : Account) (s : State) : Prop where
  entries : ∀ session ∈ s.registry, Entry account s.generations session
  unique : ∀ x ∈ s.registry, ∀ y ∈ s.registry,
    x.id = y.id ∨ x.generation = y.generation → x = y
  threads : ∀ thread opening, (s.threads thread).opening? = some opening →
    account.openings thread = some opening
  closed : ∀ generation ∈ account.closed, generation ≤ s.generations
  installed : ∀ generation ∈ account.installed, generation ≤ s.generations

theorem start_linked : Linked .start .start where
  entries := by
    intro session h
    cases h
  unique := by
    intro x h
    cases h
  threads := by
    intro thread opening h
    cases h
  closed := by
    intro generation h
    cases h
  installed := by
    intro generation h
    cases h

theorem Linked.found {account : Account} {s : State} (hs : Linked account s) {id : String}
    {session other : CompatSession} (hget : s.registry.get id = some session)
    (hother : other ∈ s.registry) (hid : other.id = id) : other = session := by
  obtain ⟨hmem, hsession⟩ := get_some hget
  exact hs.unique other hother session hmem (.inl (hid.trans hsession.symm))

/-- One session is changed, and what the account says of it. -/
theorem Linked.modify {account : Account} {s : State} (hs : Linked account s)
    (account' : Account) {id : String} {f : CompatSession → CompatSession} {session : CompatSession}
    (hget : s.registry.get id = some session)
    (hid : ∀ x, (f x).id = x.id) (hgeneration : ∀ x, (f x).generation = x.generation)
    (hentry : Entry account' s.generations (f session))
    (hothers : ∀ other ∈ s.registry, other.generation ≠ session.generation →
      Entry account' s.generations other)
    {threads : Nat → Thread}
    (hthreads : ∀ thread opening, (threads thread).opening? = some opening →
      account'.openings thread = some opening)
    (hclosed : ∀ generation ∈ account'.closed, generation ≤ s.generations)
    (hinstalled : ∀ generation ∈ account'.installed, generation ≤ s.generations)
    {backends : List Backend} :
    Linked account' { s with registry := s.registry.modify id f, threads, backends } := by
  obtain ⟨hmem, hsession⟩ := get_some hget
  refine ⟨fun x hx => ?_, fun x hx y hy hxy => ?_, hthreads, hclosed, hinstalled⟩
  · obtain ⟨before, hbefore, ⟨hb, rfl⟩ | ⟨hb, rfl⟩⟩ := mem_modify hx
    · rw [hs.found hget hbefore hb]
      exact hentry
    · refine hothers x hbefore fun hsame => hb ?_
      rw [hs.unique x hbefore session hmem (.inr hsame), hsession]
  -- the id and the generation are those of before, so two sessions differ as before
  · obtain ⟨x₀, hx₀, hcase⟩ := mem_modify hx
    obtain ⟨y₀, hy₀, hcase'⟩ := mem_modify hy
    have hx₁ : x.id = x₀.id ∧ x.generation = x₀.generation := by
      rcases hcase with ⟨-, rfl⟩ | ⟨-, rfl⟩
      · exact ⟨hid _, hgeneration _⟩
      · exact ⟨rfl, rfl⟩
    have hy₁ : y.id = y₀.id ∧ y.generation = y₀.generation := by
      rcases hcase' with ⟨-, rfl⟩ | ⟨-, rfl⟩
      · exact ⟨hid _, hgeneration _⟩
      · exact ⟨rfl, rfl⟩
    rw [hx₁.1, hx₁.2, hy₁.1, hy₁.2] at hxy
    have hsame : x₀ = y₀ := hs.unique x₀ hx₀ y₀ hy₀ hxy
    subst hsame
    rcases hcase with ⟨ha, rfl⟩ | ⟨ha, rfl⟩ <;> rcases hcase' with ⟨hb, rfl⟩ | ⟨hb, rfl⟩
    · rfl
    · exact absurd ha hb
    · exact absurd hb ha
    · rfl

theorem Linked.thread {account : Account} {s : State} (hs : Linked account s) {thread : Nat}
    {next : Thread} (hnext : ∀ opening, next.opening? = some opening →
      account.openings thread = some opening) :
    ∀ other opening, (Function.update s.threads thread next other).opening? = some opening →
      account.openings other = some opening := by
  intro other opening h
  by_cases hsame : other = thread
  · subst hsame
    rw [Function.update_self] at h
    exact hnext opening h
  · rw [Function.update_of_ne hsame] at h
    exact hs.threads other opening h

/-- The other sessions' entries do not depend on this generation. -/
theorem Entry.update {account : Account} {generations generation : Nat} {session : CompatSession}
    (h : Entry account generations session) (hother : session.generation ≠ generation)
    (value : Option (SessionRoute × String)) :
    Entry { account with sessions := Function.update account.sessions generation value }
      generations session :=
  ⟨h.bound, (Function.update_of_ne hother _ _).trans h.held, h.unclosed, h.installed⟩

theorem begin_eq {id localId : String} {registry registry' : Registry} {opening : Opening}
    (h : sessionStart.begin id localId registry = (registry', .inr opening)) :
    ∃ session, registry.get id = some session ∧ session.viewer = none
      ∧ opening = Compat.opening localId session
      ∧ registry' =
        registry.modify id fun session => { session with phase := "starting", password := "" } := by
  unfold sessionStart.begin at h
  split at h
  · cases h
  · rename_i session hget
    split at h
    · cases h
    split at h
    · cases h
    · rename_i hviewer _
      cases h
      exact ⟨session, hget, by simpa using hviewer, rfl, rfl⟩

theorem Linked.begin {account : Account} {s : State} (hs : Linked account s) {id localId : String}
    {registry : Registry} {opening : Opening}
    (h : sessionStart.begin id localId s.registry = (registry, .inr opening)) :
    account.sessions opening.generation = some (opening.route, opening.password)
      ∧ Linked (account.taken opening) { s with registry } := by
  obtain ⟨session, hget, hviewer, rfl, rfl⟩ := begin_eq h
  have hentry := hs.entries session (get_some hget).1
  refine ⟨hentry.held, ?_⟩
  refine hs.modify (account.taken _) hget ?_ ?_ ?_ ?_ hs.threads hs.closed hs.installed
  · exact fun _ => rfl
  · exact fun _ => rfl
  · exact ⟨hentry.bound, Function.update_self _ _ _, hentry.unclosed, hentry.installed⟩
  · exact fun other hother hne => (hs.entries other hother).update hne _

theorem guard_ok {α : Type} {condition : Prop} [Decidable condition] {e : String}
    {rest : PUnit → Except String α} {a : α}
    (h : (if condition then throw e >>= rest else rest ⟨⟩) = .ok a) : rest ⟨⟩ = .ok a := by
  split at h
  · cases h
  · exact h

theorem newSession_eq {id peerTarget : String} {options : Option AddOptions} {generation : Nat}
    {session : CompatSession} (h : newSession id peerTarget options generation = .ok session) :
    session.id = id ∧ session.generation = generation ∧ session.viewer = none := by
  unfold newSession at h
  cases options with
  | none => cases h
  | some options =>
    cases hroute : parseRoute (trim peerTarget.toList) with
    | none =>
      simp only [hroute] at h
      cases h
    | some route =>
      simp only [hroute] at h
      have h := guard_ok (guard_ok (guard_ok h))
      cases h
      exact ⟨rfl, rfl, rfl⟩

theorem add_eq {id peerTarget : String} {options : Option AddOptions} {generation : Nat}
    {registry : Registry} {session : CompatSession}
    (h : sessionAdd id peerTarget options generation registry = .ok session) :
    newSession id peerTarget options generation = .ok session ∧ registry.get id = none := by
  unfold sessionAdd at h
  cases hnew : newSession id peerTarget options generation with
  | error error =>
    rw [hnew] at h
    cases h
  | ok new =>
    rw [hnew] at h
    cases hget : registry.get id with
    | some other =>
      rw [hget] at h
      cases h
    | none =>
      rw [hget] at h
      by_cases hlimit : registry.length ≥ maxCompatSessions
      · simp only [hlimit, if_true] at h
        cases h
      · simp only [hlimit, if_false] at h
        cases h
        exact ⟨rfl, rfl⟩

theorem finish_eq {opening : Opening} {viewer : Option (Nat × Bool)} {registry registry' : Registry}
    {finish : Finish} {result : ActionResult}
    (h : sessionStart.finish opening viewer registry = (registry', finish, result)) :
    (registry.get opening.id = none ∧ registry' = registry
        ∧ finish = .removed (viewer.map (·.1)))
      ∨ ∃ session, registry.get opening.id = some session
        ∧ ((∃ backend isVnc, viewer = some (backend, isVnc)
            ∧ finish = .installed backend session.generation
            ∧ registry' = registry.modify opening.id fun session =>
              { session with
                protocol := if isVnc then .vnc else .rustDesk
                viewer := some backend })
          ∨ viewer = none ∧ finish = .failed
            ∧ registry' = registry.modify opening.id fun session =>
              { session with phase := "failed" }) := by
  unfold sessionStart.finish at h
  split at h
  · rename_i hget
    cases h
    exact .inl ⟨hget, rfl, rfl⟩
  · rename_i session hget
    split at h
    · rename_i backend isVnc
      cases h
      exact .inr ⟨session, hget, .inl ⟨backend, isVnc, rfl, rfl, rfl⟩⟩
    · cases h
      exact .inr ⟨session, hget, .inr ⟨rfl, rfl, rfl⟩⟩

theorem setViewOnly_eq (id : String) (enabled : Bool) (registry : Registry) :
    (sessionSetViewOnly id enabled registry).1 = registry
      ∨ ∃ session, registry.get id = some session ∧ session.viewer = none
        ∧ (sessionSetViewOnly id enabled registry).1
          = registry.modify id fun session => { session with viewOnly := enabled } := by
  unfold sessionSetViewOnly
  split
  · exact .inl rfl
  · rename_i session hget
    split
    · exact .inl rfl
    · rename_i hviewer
      exact .inr ⟨session, hget, by simpa using hviewer, rfl⟩

theorem linked_add {account : Account} {s : State} (hs : Linked account s)
    {id peerTarget : String} {options : Option AddOptions} {session : CompatSession}
    (hadd : sessionAdd id peerTarget options (s.generations + 1) s.registry = .ok session) :
    Linked (account.after (.adds session))
      { s with registry := session :: s.registry, generations := s.generations + 1 } := by
  obtain ⟨hnew, hget⟩ := add_eq hadd
  obtain ⟨hid, hgeneration, hviewer⟩ := newSession_eq hnew
  -- a generation is given out once
  have hfresh : ∀ other ∈ s.registry, other.generation ≠ session.generation := by
    intro other hother
    have := (hs.entries other hother).bound
    omega
  have hothers : ∀ other ∈ s.registry, other.id ≠ session.id := by
    rw [hid]
    exact get_none hget
  refine ⟨fun x hx => ?_, fun x hx y hy hxy => ?_, hs.threads, fun g hg => ?_, fun g hg => ?_⟩
  · rcases List.mem_cons.mp hx with rfl | hx
    · refine ⟨hgeneration.le, Function.update_self _ _ _, fun h => ?_, ?_⟩
      · have := hs.closed _ h
        omega
      · rw [hviewer]
        refine ⟨fun h => ?_, Bool.noConfusion⟩
        have := hs.installed _ h
        omega
    · obtain ⟨hbound, hheld, hunclosed, hinstalled⟩ := (hs.entries x hx).update (hfresh x hx)
        (some (session.route, session.password))
      exact ⟨Nat.le_succ_of_le hbound, hheld, hunclosed, hinstalled⟩
  · rcases List.mem_cons.mp hx with rfl | hx <;> rcases List.mem_cons.mp hy with rfl | hy
    · rfl
    · rcases hxy with h | h
      · exact absurd h.symm (hothers y hy)
      · exact absurd h.symm (hfresh y hy)
    · rcases hxy with h | h
      · exact absurd h (hothers _ ‹_›)
      · exact absurd h (hfresh _ ‹_›)
    · exact hs.unique x hx y hy hxy
  · exact Nat.le_succ_of_le (hs.closed g hg)
  · exact Nat.le_succ_of_le (hs.installed g hg)

theorem linked_close {account : Account} {s : State} (hs : Linked account s) {id : String}
    {session : CompatSession} (hget : s.registry.get id = some session) {cancelled : List Nat}
    {backends : List Backend} :
    Linked (account.after (.closes session))
      { s with registry := s.registry.remove id, cancelled, backends } := by
  obtain ⟨hmem, hid⟩ := get_some hget
  refine ⟨fun x hx => ?_, fun x hx y hy => ?_, hs.threads, fun g hg => ?_, hs.installed⟩
  · obtain ⟨hx, hne⟩ := mem_remove.mp hx
    obtain ⟨hbound, hheld, hunclosed, hinstalled⟩ := hs.entries x hx
    refine ⟨hbound, hheld, fun h => ?_, hinstalled⟩
    rcases List.mem_cons.mp h with hsame | h
    · exact hne (by rw [hs.unique x hx session hmem (.inr hsame), hid])
    · exact hunclosed h
  · exact hs.unique x (mem_remove.mp hx).1 y (mem_remove.mp hy).1
  · rcases List.mem_cons.mp hg with rfl | hg
    · exact (hs.entries session hmem).bound
    · exact hs.closed g hg

/-- A backend becomes the viewer of the session with the id. -/
theorem linked_install {account : Account} {s : State} (hs : Linked account s) {thread : Nat}
    {id : String} {session : CompatSession} (hget : s.registry.get id = some session)
    {backend : Nat} {protocol : SessionProtocol} {backends : List Backend} :
    Linked (account.after (.finishes thread (.installed backend session.generation)))
      { s with
        registry := s.registry.modify id fun session =>
          { session with protocol, viewer := some backend }
        backends
        threads := Function.update s.threads thread .idle } := by
  have hmem := (get_some hget).1
  obtain ⟨hbound, hheld, hunclosed, -⟩ := hs.entries session hmem
  refine hs.modify (account.after (.finishes thread (.installed backend session.generation)))
    hget ?_ ?_ ?_ ?_ ?_ hs.closed ?_
  · exact fun _ => rfl
  · exact fun _ => rfl
  · exact ⟨hbound, hheld, hunclosed, fun _ => rfl, fun _ => List.mem_cons_self⟩
  · intro other hother hne
    obtain ⟨hbound, hheld, hunclosed, hinstalled⟩ := hs.entries other hother
    refine ⟨hbound, hheld, hunclosed, ?_⟩
    rw [← hinstalled]
    exact ⟨fun h => (List.mem_cons.mp h).resolve_left hne, List.mem_cons_of_mem _⟩
  · exact hs.thread fun _ h => by cases h
  · intro g hg
    rcases List.mem_cons.mp hg with rfl | hg
    · exact hbound
    · exact hs.installed g hg

theorem linked_step {account : Account} {s s' : State} {l : Label} (hs : Linked account s)
    (h : Step s l s') : Linked (account.after l) s' := by
  cases h with
  | add hadd => exact linked_add hs hadd
  | addRefused => exact hs
  | @setViewOnly id enabled =>
    rcases setViewOnly_eq id enabled s.registry with h | ⟨session, hget, -, h⟩
    · rw [h]
      exact hs
    · rw [h]
      obtain ⟨hbound, hheld, hunclosed, hinstalled⟩ := hs.entries session (get_some hget).1
      refine hs.modify account hget ?_ ?_ ?_ ?_ hs.threads hs.closed hs.installed
      · exact fun _ => rfl
      · exact fun _ => rfl
      · exact ⟨hbound, hheld, hunclosed, hinstalled⟩
      · exact fun other hother _ => hs.entries other hother
  | startRefused => exact hs
  | forcedRelay hbegin => exact (hs.begin hbegin).2
  | @begin thread id localId registry opening hthread hbegin =>
    -- the thread takes the opening, and the account notes whose it is
    obtain ⟨hentries, hunique, -, hclosed, hinstalled⟩ := (hs.begin hbegin).2
    refine ⟨fun x hx => ?_, hunique, fun other o h => ?_, hclosed, hinstalled⟩
    · obtain ⟨hbound, hheld, hunclosed, hinstalled⟩ := hentries x hx
      exact ⟨hbound, hheld, hunclosed, hinstalled⟩
    · by_cases hsame : other = thread
      · subst hsame
        simp only [Function.update_self] at h
        cases h
        exact Function.update_self _ _ _
      · simp only [Function.update_of_ne hsame] at h
        exact (Function.update_of_ne hsame _ _).trans (hs.threads other o h)
  | @opens thread o live kind hthread =>
    refine ⟨hs.entries, hs.unique, hs.thread fun opening h => ?_, hs.closed, hs.installed⟩
    cases h
    exact hs.threads thread o (by rw [hthread]; rfl)
  | @openFails thread o hthread =>
    refine ⟨hs.entries, hs.unique, hs.thread fun opening h => ?_, hs.closed, hs.installed⟩
    cases h
    exact hs.threads thread o (by rw [hthread]; rfl)
  | unconfigured =>
    refine ⟨hs.entries, hs.unique, hs.thread fun opening h => ?_, hs.closed, hs.installed⟩
    cases h
  | finish hthread hfinish =>
    -- the session is gone, takes the backend over, or has failed
    rcases finish_eq hfinish with ⟨-, rfl, rfl⟩ | ⟨session, hget, ⟨b, vnc, -, rfl, rfl⟩ | ⟨-, rfl, rfl⟩⟩
    · refine ⟨hs.entries, hs.unique, hs.thread fun opening h => ?_, hs.closed, hs.installed⟩
      cases h
    · exact linked_install hs hget
    · obtain ⟨hbound, hheld, hunclosed, hinstalled⟩ := hs.entries session (get_some hget).1
      refine hs.modify account hget ?_ ?_ ?_ ?_ ?_ hs.closed hs.installed
      · exact fun _ => rfl
      · exact fun _ => rfl
      · exact ⟨hbound, hheld, hunclosed, hinstalled⟩
      · exact fun other hother _ => hs.entries other hother
      · exact hs.thread fun _ h => by cases h
  | close hget => exact linked_close hs hget
  | closeRefused => exact hs

/-! ### Installing a backend -/

/-- A step is as expected exactly if the session is unchanged at its installation. -/
theorem allows_iff {account : Account} {s s' : State} {l : Label} (hs : Linked account s)
    (h : Step s l s') : account.allows l ↔ Unchanged s l := by
  cases h with
  | begin _ hbegin => exact iff_of_true (hs.begin hbegin).1 trivial
  | @finish thread o backend registry finish result hthread hfinish =>
    rcases finish_eq hfinish with
      ⟨-, -, rfl⟩ | ⟨session, hget, ⟨b, vnc, -, rfl, -⟩ | ⟨-, rfl, -⟩⟩
    · exact iff_of_true trivial trivial
    · have hopening : account.openings thread = some o := hs.threads thread o (by rw [hthread]; rfl)
      obtain ⟨-, -, hunclosed, hinstalled⟩ := hs.entries session (get_some hget).1
      constructor
      · rintro ⟨⟨o', ho', hgeneration⟩, -, hnew⟩
        rw [hopening] at ho'
        cases ho'
        refine ⟨o, backend, session, hthread, hget, hgeneration.symm, ?_⟩
        rw [hinstalled] at hnew
        simpa using hnew
      · rintro ⟨o', backend', session', hthread', hget', hgeneration, hviewer⟩
        rw [hthread] at hthread'
        cases hthread'
        rw [hget] at hget'
        cases hget'
        refine ⟨⟨o, hopening, hgeneration.symm⟩, hunclosed, ?_⟩
        rw [hinstalled, hviewer]
        exact Bool.noConfusion
    · exact iff_of_true trivial trivial
  | _ => exact iff_of_true trivial trivial

/-! ### Backends that came too late -/

/-- No session and no thread has the backend. -/
structure Dropped (s : State) (b : Nat) : Prop where
  bound : b < s.backends.length
  closed : ∃ backend, s.backends[b]? = some backend ∧ backend.closeRequested = true
  sessions : ∀ session ∈ s.registry, session.viewer ≠ some b
  threads : ∀ thread opening, s.threads thread ≠ .opened opening (some b)

/-- A backend is with one thread, until it is with a session. -/
structure Held (s : State) : Prop where
  sessions : ∀ session ∈ s.registry, ∀ b, session.viewer = some b → b < s.backends.length
  threads : ∀ thread opening b, s.threads thread = .opened opening (some b) →
    b < s.backends.length ∧ ∀ session ∈ s.registry, session.viewer ≠ some b
  single : ∀ thread thread' opening opening' b, s.threads thread = .opened opening (some b) →
    s.threads thread' = .opened opening' (some b) → thread = thread'

theorem start_held : Held .start where
  sessions := by
    intro session h
    cases h
  threads := by
    intro thread opening b h
    cases h
  single := by
    intro thread thread' opening opening' b h
    cases h

/-- What is asked to close stays so. -/
structure Kept (before after : List Backend) : Prop where
  length : after.length = before.length
  closed : ∀ (b : Nat) (backend : Backend), before[b]? = some backend →
    backend.closeRequested = true →
    ∃ backend' : Backend, after[b]? = some backend' ∧ backend'.closeRequested = true

theorem Kept.refl (backends : List Backend) : Kept backends backends :=
  ⟨rfl, fun _ backend h hclosed => ⟨backend, h, hclosed⟩⟩

theorem requestClose_kept (s : State) (backend : Option Nat) :
    Kept s.backends (s.requestClose backend) := by
  cases backend with
  | none => exact .refl _
  | some index =>
    refine ⟨List.length_modify _ _ _, fun b backend h hclosed => ?_⟩
    by_cases hsame : index = b
    · refine ⟨{ backend with closeRequested := true }, ?_, rfl⟩
      simp [State.requestClose, hsame, h]
    · refine ⟨backend, ?_, hclosed⟩
      simp [State.requestClose, hsame, h]

/-- How the backends move: from a thread to a session, or out of sight. -/
inductive Moves (s s' : State) : Prop
  | keeps (hsessions : ∀ x ∈ s'.registry, ∀ b, x.viewer = some b →
        ∃ y ∈ s.registry, y.viewer = some b)
      (hthreads : ∀ thread o b, s'.threads thread = .opened o (some b) →
        s.threads thread = .opened o (some b))
      (hbackends : Kept s.backends s'.backends)
  | opens (thread : Nat) (o : Opening) (hregistry : s'.registry = s.registry)
      (hthreads : s'.threads =
        Function.update s.threads thread (.opened o (some s.backends.length)))
      (backend : Backend) (hbackends : s'.backends = s.backends ++ [backend])
  | installs (thread b : Nat) (o : Opening) (hthread : s.threads thread = .opened o (some b))
      (hsessions : ∀ x ∈ s'.registry, ∀ c, x.viewer = some c →
        c = b ∨ ∃ y ∈ s.registry, y.viewer = some c)
      (hthreads : s'.threads = Function.update s.threads thread .idle)
      (hbackends : s'.backends = s.backends)

theorem modify_viewers {registry : Registry} {id : String} {f : CompatSession → CompatSession}
    (hf : ∀ x, (f x).viewer = x.viewer) :
    ∀ x ∈ registry.modify id f, ∀ b, x.viewer = some b → ∃ y ∈ registry, y.viewer = some b := by
  intro x hx b hb
  obtain ⟨before, hbefore, ⟨-, rfl⟩ | ⟨-, rfl⟩⟩ := mem_modify hx
  · exact ⟨before, hbefore, (hf before).symm.trans hb⟩
  · exact ⟨x, hbefore, hb⟩

/-- Another thread's place is the same, and this one has no backend. -/
theorem update_opened {threads : Nat → Thread} {thread : Nat} {next : Thread}
    (hnext : ∀ o b, next ≠ .opened o (some b)) :
    ∀ other o b, Function.update threads thread next other = .opened o (some b) →
      threads other = .opened o (some b) := by
  intro other o b h
  by_cases hsame : other = thread
  · subst hsame
    rw [Function.update_self] at h
    exact absurd h (hnext o b)
  · rwa [Function.update_of_ne hsame] at h

theorem viewer_some {s : State} {backend : Option Nat} {b : Nat} {vnc : Bool}
    (h : s.viewer backend = some (b, vnc)) : backend = some b := by
  unfold State.viewer at h
  rw [Option.bind_eq_some_iff] at h
  obtain ⟨index, rfl, h⟩ := h
  rw [Option.map_eq_some_iff] at h
  obtain ⟨_, -, h⟩ := h
  cases h
  rfl

theorem step_moves {s s' : State} {l : Label} (h : Step s l s') : Moves s s' := by
  have hsame : ∀ x ∈ s.registry, ∀ b, x.viewer = some b → ∃ y ∈ s.registry, y.viewer = some b :=
    fun x hx _ hb => ⟨x, hx, hb⟩
  cases h with
  -- a new session has no backend, and the calls of the interface move none
  | add hadd =>
    obtain ⟨hnew, -⟩ := add_eq hadd
    refine .keeps (fun x hx b hb => ?_) (fun _ _ _ => id) (.refl _)
    rcases List.mem_cons.mp hx with rfl | hx
    · rw [(newSession_eq hnew).2.2] at hb
      cases hb
    · exact ⟨x, hx, hb⟩
  | addRefused => exact .keeps hsame (fun _ _ _ => id) (.refl _)
  | @setViewOnly name enabled =>
    refine .keeps ?_ (fun _ _ _ => id) (.refl _)
    rcases setViewOnly_eq name enabled s.registry with h | ⟨session, -, -, h⟩
    · rw [h]
      exact hsame
    · rw [h]
      exact modify_viewers fun _ => rfl
  | startRefused => exact .keeps hsame (fun _ _ _ => id) (.refl _)
  | forcedRelay hbegin =>
    obtain ⟨session, -, -, -, rfl⟩ := begin_eq hbegin
    exact .keeps (modify_viewers fun _ => rfl) (fun _ _ _ => id) (.refl _)
  | begin _ hbegin =>
    obtain ⟨session, -, -, -, rfl⟩ := begin_eq hbegin
    refine .keeps (modify_viewers fun _ => rfl) (update_opened fun _ _ => ?_) (.refl _)
    exact Thread.noConfusion
  | opens hthread => exact .opens _ _ rfl rfl _ rfl
  | openFails => exact .keeps hsame (update_opened fun _ _ h => by cases h) (.refl _)
  | unconfigured => exact .keeps hsame (update_opened fun _ _ h => by cases h) (.refl _)
  | @finish thread o backend registry finish result hthread hfinish =>
    -- without its session the backend is only asked to close
    have hidle : ∀ other o b, Function.update s.threads thread .idle other = .opened o (some b) →
        s.threads other = .opened o (some b) := update_opened fun _ _ h => by cases h
    rcases finish_eq hfinish with
      ⟨-, rfl, rfl⟩ | ⟨session, -, ⟨b, vnc, hviewer, rfl, rfl⟩ | ⟨-, rfl, rfl⟩⟩
    · exact .keeps hsame hidle (requestClose_kept _ _)
    · have hb := viewer_some hviewer
      subst hb
      refine .installs thread b o hthread (fun x hx c hc => ?_) rfl rfl
      obtain ⟨before, hbefore, ⟨-, rfl⟩ | ⟨-, rfl⟩⟩ := mem_modify hx
      · cases hc
        exact .inl rfl
      · exact .inr ⟨x, hbefore, hc⟩
    · exact .keeps (modify_viewers fun _ => rfl) hidle (.refl _)
  | close =>
    refine .keeps (fun x hx b hb => ?_) (fun _ _ _ => id) (requestClose_kept _ _)
    exact ⟨x, (mem_remove.mp hx).1, hb⟩
  | closeRefused => exact .keeps hsame (fun _ _ _ => id) (.refl _)

theorem held_step {s s' : State} (hs : Held s) (h : Moves s s') : Held s' := by
  cases h with
  | keeps hsessions hthreads hbackends =>
    -- no backend is made, and nobody gets hold of one
    refine ⟨fun x hx b hb => ?_, fun t o b ht => ?_, fun t t' o o' b ht ht' => ?_⟩
    · obtain ⟨y, hy, hb⟩ := hsessions x hx b hb
      rw [hbackends.length]
      exact hs.sessions y hy b hb
    · obtain ⟨hbound, hfree⟩ := hs.threads t o b (hthreads t o b ht)
      refine ⟨hbackends.length ▸ hbound, fun x hx hb => ?_⟩
      obtain ⟨y, hy, hb⟩ := hsessions x hx b hb
      exact hfree y hy hb
    · exact hs.single t t' o o' b (hthreads t o b ht) (hthreads t' o' b ht')
  | opens thread o hregistry hthreads backend hbackends =>
    -- the thread holds a backend that nobody had before
    have hlength : s'.backends.length = s.backends.length + 1 := by rw [hbackends]; simp
    have hcases : ∀ t o' b, s'.threads t = .opened o' (some b) →
        (t = thread ∧ b = s.backends.length) ∨ s.threads t = .opened o' (some b) := by
      intro t o' b ht
      rw [hthreads] at ht
      by_cases hsame : t = thread
      · subst hsame
        rw [Function.update_self] at ht
        cases ht
        exact .inl ⟨rfl, rfl⟩
      · rw [Function.update_of_ne hsame] at ht
        exact .inr ht
    refine ⟨fun x hx b hb => ?_, fun t o' b ht => ?_, fun t t' o₁ o₂ b ht ht' => ?_⟩
    · have := hs.sessions x (hregistry ▸ hx) b hb
      omega
    · rcases hcases t o' b ht with ⟨-, rfl⟩ | ht
      · refine ⟨by omega, fun x hx hb => ?_⟩
        exact absurd (hs.sessions x (hregistry ▸ hx) _ hb) (Nat.lt_irrefl _)
      · obtain ⟨hbound, hfree⟩ := hs.threads t o' b ht
        exact ⟨by omega, hregistry ▸ hfree⟩
    · rcases hcases t o₁ b ht with ⟨rfl, rfl⟩ | ht <;> rcases hcases t' o₂ _ ht' with ⟨rfl, hb⟩ | ht'
      · rfl
      · exact absurd (hs.threads t' o₂ _ ht').1 (Nat.lt_irrefl _)
      · subst hb
        exact absurd (hs.threads t o₁ _ ht).1 (Nat.lt_irrefl _)
      · exact hs.single t t' o₁ o₂ b ht ht'
  | installs thread b o hthread hsessions hthreads hbackends =>
    -- the session takes the backend over from the thread
    have hcases : ∀ t o' c, s'.threads t = .opened o' (some c) →
        t ≠ thread ∧ s.threads t = .opened o' (some c) := by
      intro t o' c ht
      rw [hthreads] at ht
      by_cases hsame : t = thread
      · subst hsame
        rw [Function.update_self] at ht
        cases ht
      · rw [Function.update_of_ne hsame] at ht
        exact ⟨hsame, ht⟩
    refine ⟨fun x hx c hc => ?_, fun t o' c ht => ?_, fun t t' o₁ o₂ c ht ht' => ?_⟩
    · rw [hbackends]
      rcases hsessions x hx c hc with rfl | ⟨y, hy, hc⟩
      · exact (hs.threads thread o c hthread).1
      · exact hs.sessions y hy c hc
    · obtain ⟨hne, ht⟩ := hcases t o' c ht
      obtain ⟨hbound, hfree⟩ := hs.threads t o' c ht
      rw [hbackends]
      refine ⟨hbound, fun x hx hc => ?_⟩
      rcases hsessions x hx c hc with rfl | ⟨y, hy, hc⟩
      · exact hne (hs.single t thread o' o c ht hthread)
      · exact hfree y hy hc
    · exact hs.single t t' o₁ o₂ c (hcases t o₁ c ht).2 (hcases t' o₂ c ht').2

theorem dropped_step {s s' : State} {b : Nat} (hs : Dropped s b) (h : Moves s s') :
    Dropped s' b := by
  obtain ⟨hbound, ⟨backend, hat, hclosed⟩, hsessions, hthreads⟩ := hs
  cases h with
  | keeps hsessions' hthreads' hbackends =>
    refine ⟨hbackends.length ▸ hbound, hbackends.closed b backend hat hclosed, fun x hx hb => ?_,
      fun t o ht => hthreads t o (hthreads' t o b ht)⟩
    obtain ⟨y, hy, hb⟩ := hsessions' x hx b hb
    exact hsessions y hy hb
  | opens thread o hregistry hthreads' new hbackends =>
    refine ⟨?_, ⟨backend, ?_, hclosed⟩, hregistry ▸ hsessions, fun t o' ht => ?_⟩
    · rw [hbackends, List.length_append]
      omega
    · rw [hbackends, List.getElem?_append_left hbound]
      exact hat
    · rw [hthreads'] at ht
      by_cases hsame : t = thread
      · subst hsame
        rw [Function.update_self] at ht
        cases ht
        exact Nat.lt_irrefl _ hbound
      · rw [Function.update_of_ne hsame] at ht
        exact hthreads t o' ht
  | installs thread c o hthread hsessions' hthreads' hbackends =>
    -- the session takes it from a thread, and no thread has this one
    refine ⟨hbackends ▸ hbound, ⟨backend, hbackends ▸ hat, hclosed⟩, fun x hx hb => ?_,
      fun t o' ht => ?_⟩
    · rcases hsessions' x hx b hb with rfl | ⟨y, hy, hb⟩
      · exact hthreads thread o hthread
      · exact hsessions y hy hb
    · rw [hthreads'] at ht
      by_cases hsame : t = thread
      · subst hsame
        rw [Function.update_self] at ht
        cases ht
      · rw [Function.update_of_ne hsame] at ht
        exact hthreads t o' ht

theorem removed_step {s s' : State} {thread b : Nat} (hheld : Held s)
    (h : Step s (.finishes thread (.removed (some b))) s') : Dropped s' b := by
  generalize hl : Label.finishes thread (.removed (some b)) = l at h
  cases h with
  | @finish _ o backend registry finish result hthread hfinish =>
    cases hl
    rcases finish_eq hfinish with
      ⟨-, rfl, hremoved⟩ | ⟨session, -, ⟨c, vnc, -, hinstalled, -⟩ | ⟨-, hfailed, -⟩⟩
    · injection hremoved with hmap
      obtain ⟨⟨index, vnc⟩, hviewer, hindex⟩ := Option.map_eq_some_iff.mp hmap.symm
      obtain rfl := viewer_some hviewer
      obtain rfl : index = b := hindex
      obtain ⟨hbound, hfree⟩ := hheld.threads thread o index hthread
      refine ⟨?_, ⟨{ s.backends[index] with closeRequested := true }, ?_, rfl⟩, hfree,
        fun t o' ht => ?_⟩
      · exact (requestClose_kept s (some index)).length ▸ hbound
      · simp [State.finished, State.requestClose, List.getElem?_eq_getElem hbound]
      · have ht' := update_opened (fun _ _ h => by cases h) t o' index ht
        obtain rfl := hheld.single t thread o' o index ht' hthread
        simp only [Function.update_self] at ht
        cases ht
    · cases hinstalled
    · cases hfailed
  | _ => cases hl

/-- A backend that finds its session gone is asked to close, and stays without one. -/
theorem removed_run {s : State} {ls : List Label} (hrun : Run Step .start ls s) {thread b : Nat}
    (hremoved : .finishes thread (.removed (some b)) ∈ ls) : Dropped s b := by
  have hstep : ∀ as s l s',
      (Held s ∧ ∀ thread b, .finishes thread (.removed (some b)) ∈ as → Dropped s b) →
      Step s l s' →
      Held s' ∧ ∀ thread b, .finishes thread (.removed (some b)) ∈ as ++ [l] → Dropped s' b := by
    rintro as s l s' ⟨hheld, hdropped⟩ h
    refine ⟨held_step hheld (step_moves h), fun thread b hmem => ?_⟩
    rw [List.mem_append, List.mem_singleton] at hmem
    rcases hmem with hmem | rfl
    · exact dropped_step (hdropped thread b hmem) (step_moves h)
    · exact removed_step hheld h
  have hstart : Held .start ∧ ∀ thread b, Label.finishes thread (.removed (some b)) ∈ [] →
      Dropped .start b := by
    refine ⟨start_held, fun thread b h => ?_⟩
    cases h
  exact (Run.history (P := fun as s => Held s ∧ ∀ thread b,
    Label.finishes thread (.removed (some b)) ∈ as → Dropped s b) hstep hrun hstart).2 thread b
    hremoved

/-! ### Runs -/

/-- **A run keeps the incarnations apart exactly if the session is unchanged at every
installation**: it is the one the open began with, and has no backend.  In any run a
backend whose session is gone is asked to close and never installed. -/
theorem incarnation_kept_iff {s : State} {ls : List Label} (hrun : Run Step .start ls s) :
    (incarnationMonitor.Met ls ↔ Run (Where Step Unchanged) .start ls s)
      ∧ ∀ thread b, .finishes thread (.removed (some b)) ∈ ls → Dropped s b := by
  refine ⟨?_, fun thread b => removed_run hrun⟩
  have hlinked : ∀ account s l s', Linked account s → Step s l s' → Linked (account.after l) s' :=
    fun _ _ _ _ => linked_step
  have hallows : ∀ account s l s', Linked account s → Step s l s' →
      (account.allows l ↔ Unchanged s l) := fun _ _ _ _ => allows_iff
  exact incarnationMonitor.met_iff hlinked hallows hrun start_linked

/-- What `session_add` makes of a VNC target with default options. -/
def sampleSession (target host : String) (generation : Nat) : CompatSession where
  id := "s"
  target
  route := .scheme .vnc host 5900
  password := ""
  forceRelay := false
  viewOnly := false
  requestedFps := 60
  imageQuality := "balanced"
  customImageQuality := 0
  clipboardEnabled := false
  phase := "created"
  protocol := .rustDesk
  viewer := none
  generation

/-- The server's answer. -/
def sampleLive : Vnc.LiveSession := ⟨Vnc.preferredPixelFormat, 1, 1⟩

/-- The state of a session that is added and started. -/
def sampleBegun : State where
  registry := [{ sampleSession "vnc://a" "a" 1 with phase := "starting" }]
  generations := 1
  threads :=
    Function.update (fun _ => .idle) 0 (.opening (opening "me" (sampleSession "vnc://a" "a" 1)))

theorem sample_begun :
    Run (Where Step Unchanged) .start
      [.adds (sampleSession "vnc://a" "a" 1),
        .begins 0 (opening "me" (sampleSession "vnc://a" "a" 1))] sampleBegun :=
  .cons ⟨trivial, @Step.add .start "s" "vnc://a" (some {}) _ rfl⟩
    (.single ⟨trivial, @Step.begin _ 0 "s" "me" _ _ rfl rfl rfl⟩)

theorem incarnation_kept_installed :
    ∃ ls s, Run Step .start ls s ∧ .finishes 0 (.installed 0 1) ∈ ls
      ∧ incarnationMonitor.Met ls := by
  have hopened := sample_begun.snoc (show Where Step Unchanged _ (.opens 0 0) _ from
    ⟨trivial, @Step.opens _ 0 _ sampleLive _ rfl rfl⟩)
  have hrun := hopened.snoc (show Where Step Unchanged _ (.finishes 0 (.installed 0 1)) _ from
    ⟨⟨_, _, _, rfl, rfl, rfl, rfl⟩, @Step.finish _ 0 _ _ _ _ _ rfl rfl⟩)
  have hplain := hrun.mono fun _ _ _ h => h.2
  refine ⟨_, _, hplain, ?_, (incarnation_kept_iff hplain).1.mpr hrun⟩
  exact List.mem_append_right _ (List.mem_singleton_self _)

/-- The id is closed and added again while the first backend opens: it is installed
in the second session. -/
theorem incarnation_mixed :
    ∃ ls s, Run Step .start ls s ∧ .finishes 0 (.installed 0 2) ∈ ls
      ∧ ¬ incarnationMonitor.Met ls := by
  have hbegun := sample_begun.mono fun _ _ _ h => h.2
  have hclosed := hbegun.snoc (@Step.close _ "s" _ rfl)
  have hrun := ((hclosed.snoc (@Step.add _ "s" "vnc://b" (some {}) _ rfl)).snoc
    (@Step.opens _ 0 _ sampleLive _ rfl rfl)).snoc (@Step.finish _ 0 _ _ _ _ _ rfl rfl)
  refine ⟨_, _, hrun, List.mem_append_right _ (List.mem_singleton_self _), fun hmet => ?_⟩
  obtain ⟨⟨o, ho, hgeneration⟩, -⟩ := (incarnationMonitor.met_snoc.mp hmet).2
  cases ho
  cases hgeneration

end Compat

end RdEngine
