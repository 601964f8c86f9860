/-
RdEngine/Har/Sessions.lean

The sessions of the archive, whichever of its exports run at once.

A thread that removes a name has awaited the `close` of the session it found under that
name, and the one swap of `join_pending` that answered `false` leaves only one thread to
await it.  So every session leaves at most once and is struck off only then (`Kept`),
and everything the registers promise holds of every run (`kept_run`): a surface goes to
a new viewer only when the decoder of the last one is known to be gone, and a session
whose teardown failed keeps its slot for good (`sessions_exclusive`).  All sessions show
the one identity that the first initialization found (`sessions_identity`).
-/
import RdEngine.Har.Engine
import RdEngine.AddressText

namespace RdEngine

namespace Har

open Lts Tenants Threads
open Compat (ViewerOptions)
open Host (HostOptions)

/-! ### Names -/

theorem hexText_injective : Function.Injective hexText := by
  intro m n h
  have hdigits : Nat.toDigits 16 m = Nat.toDigits 16 n := String.ofList_injective h
  rw [← (AddrParser.toDigits_spec (.inr rfl) m).2, hdigits,
    (AddrParser.toDigits_spec (.inr rfl) n).2]

theorem name_injective (side : Side) : Function.Injective (rules side).name := by
  intro m n h
  cases side with
  | viewer => exact hexText_injective (String.append_right_inj _ |>.mp h)
  | host => exact hexText_injective (String.append_right_inj _ |>.mp h)

/-! ### What a thread has learnt -/

/-- Under which name it has found which session, whose `close` it is to await, whose has
told it that the session is gone, and the identity it has checked. -/
structure Knows where
  found : Option (Side × Nat × String) := none
  joining : Option (Side × Nat) := none
  gone : Option (Side × Nat) := none
  identity : Option String := none

/-- What a call knows after an answer. -/
def learn (k : Knows) (a : Access) (answer : a.Answer) : Knows :=
  match a, answer with
  | .lookup side id, answer => { k with found := answer.map fun n => (side, n, id) }
  | .localId, answer => { k with identity := answer }
  | .swapJoinPending side n, answer =>
    if answer then k else { k with joining := some (side, n) }
  | .close side n, answer =>
    { k with joining := none, gone := if answer then some (side, n) else none }
  | _, _ => k

/-- What a call may do with what it knows. -/
def admits (k : Knows) : Access → Prop
  | .registerViewer _ options _ => k.identity = some options.localId
  | .setClosing side n => ∃ id, k.found = some (side, n, id)
  | .close side n => k.joining = some (side, n)
  | .remove side id => ∃ n, k.gone = some (side, n) ∧ k.found = some (side, n, id)
  | _ => True

/-- Both, for the programs of this module. -/
def ghost : Ghost Access.Answer Knows := ⟨learn, admits⟩

/-- The program does no more than it may. -/
abbrev Follows (k : Knows) (p : Program) : Prop := Threads.Follows ghost (fun _ _ => True) k p

theorem follows_refuse (k : Knows) (error : Error) : Follows k (refuse error) := trivial

theorem follows_unless {k : Knows} {c : Prop} [Decidable c] {error : Error} {p : Program}
    (h : Follows k p) : Follows k (if c then refuse error else p) := by
  by_cases hc : c
  · rw [if_pos hc]
    exact follows_refuse k error
  · rw [if_neg hc]
    exact h

theorem follows_checked {α : Type} {k : Knows} {value : Except Error α} {p : α → Program}
    (h : ∀ a, Follows k (p a)) : Follows k (checked value p) := by
  cases value with
  | ok a => exact h a
  | error error => exact follows_refuse k error

theorem follows_requireLocalIdentity {k : Knows} {id : String} {p : Program}
    (h : Follows { k with identity := some id } p) : Follows k (requireLocalIdentity id p) := by
  refine ⟨trivial, fun answer => ?_⟩
  cases answer with
  | none => trivial
  | some authoritative =>
    show Follows { k with identity := some authoritative } (if authoritative = id then p else _)
    split_ifs with hid
    · exact hid ▸ h
    · exact follows_refuse _ _

theorem follows_lookup {k : Knows} {side : Side} {id : String} {p : Nat → Program}
    (h : ∀ n, Follows { k with found := some (side, n, id) } (p n)) :
    Follows k (lookup side id p) := by
  unfold lookup
  split_ifs
  · cases side <;> exact follows_refuse _ _
  · refine ⟨trivial, fun answer => ?_⟩
    cases answer with
    | some n => exact h n
    | none => cases side <;> exact follows_refuse _ _

theorem follows_connect (r : ConnectRequest) (pin : Option (String × SignPublicKey)) :
    Follows {} (connect r pin) := by
  refine follows_requireLocalIdentity (follows_checked fun surface => ?_)
  cases SocketAddr.parse r.address with
  | none => exact follows_refuse _ _
  | some address =>
    exact follows_unless (follows_checked fun fps => ⟨rfl, fun _ => trivial⟩)

theorem follows_connectVerified (r : ConnectRequest) (id key : String) :
    Follows {} (engineConnectVerified r id key) := by
  refine follows_unless ?_
  cases Base64.decode Base64.original key.toList with
  | none => exact follows_refuse _ _
  | some bytes =>
    dsimp only
    cases FixedBytes.fromSlice 32 bytes with
    | none => exact follows_refuse _ _
    | some key => exact follows_connect _ _

theorem follows_connectId (r : ConnectIdRequest) : Follows {} (engineConnectId r) := by
  refine follows_requireLocalIdentity (follows_checked fun surface =>
    follows_unless (follows_checked fun fps => ?_))
  dsimp only
  cases parseKey (if r.configuredKey.isEmpty then rsPubKey else r.configuredKey) with
  | none => exact follows_refuse _ _
  | some serverKey => exact ⟨rfl, fun _ => trivial⟩

/-- A close awaits only where its swap answered `false`, and removes only what it found and
what is gone. -/
theorem follows_close (side : Side) (id : String) (error : Error) :
    Follows {} (engineClose side id error) := by
  refine follows_lookup fun n => ⟨⟨id, rfl⟩, fun _ => ⟨trivial, fun _ =>
    ⟨trivial, fun pending => ?_⟩⟩⟩
  cases pending with
  | true => cases side <;> exact follows_refuse _ _
  | false =>
    refine ⟨rfl, fun closed => ?_⟩
    cases closed with
    | true => exact ⟨⟨n, rfl, rfl⟩, fun _ => trivial⟩
    | false => cases side <;> exact follows_refuse _ _

theorem follows_mouse (id : String) (kind button x y : Number) :
    Follows {} (engineMouse id kind button x y) := by
  refine follows_checked fun _ => follows_checked fun _ => follows_checked fun _ =>
    follows_checked fun _ => follows_lookup fun n => ⟨trivial, fun closing => ?_⟩
  cases closing with
  | true => trivial
  | false => exact ⟨trivial, fun _ => trivial⟩

theorem follows_approve (id requestId : String) (allow : Bool) :
    Follows {} (engineHostApprove id requestId allow) := by
  refine follows_unless (follows_lookup fun n => ⟨trivial, fun closing => ?_⟩)
  cases closing with
  | true => trivial
  | false => exact ⟨trivial, fun _ => trivial⟩

theorem follows_hostStart (width height fps : Number) :
    Follows {} (engineHostStart width height fps) := by
  exact follows_checked fun _ => follows_checked fun _ => follows_checked fun _ =>
    follows_unless ⟨trivial, fun _ => trivial⟩

theorem follows_capabilities : Follows {} engineCapabilities := by
  refine ⟨trivial, fun running => ?_⟩
  cases running with
  | true => exact follows_refuse _ _
  | false => exact ⟨trivial, fun _ => ⟨trivial, fun _ => trivial⟩⟩

theorem follows_export (call : Export) : Follows {} call.program := by
  cases call with
  | engineInitialize appDir => exact ⟨trivial, fun _ => trivial⟩
  | connect request => exact follows_connect request none
  | connectVerified request id key => exact follows_connectVerified request id key
  | connectId request => exact follows_connectId request
  | mouse id kind button x y => exact follows_mouse id kind button x y
  | requestClose side id =>
    exact follows_lookup fun n => ⟨⟨id, rfl⟩, fun _ => ⟨trivial, fun _ => trivial⟩⟩
  | close side id error => exact follows_close side id error
  | hostStart width height fps => exact follows_hostStart width height fps
  | hostApprove id requestId allow => exact follows_approve id requestId allow
  | capabilities => exact follows_capabilities

/-! ### What is kept -/

variable {ι : Type}

/-- What holds of the registers, and how what the threads have learnt bears on them. -/
structure Kept (g : ι → Knows) (s : Shared) : Prop where
  sound : ∀ side, (s.registers side).Sound (rules side)
  joined : ∀ side n t, (s.registers side).tenants n = some t → t.left.isSome →
    t.joinPending = true
  identity : ∀ side n t, (s.registers side).tenants n = some t →
    s.localId = some t.resource.identity
  found : ∀ i side n id, (g i).found = some (side, n, id) →
    (rules side).name n = id ∧ ∃ t, (s.registers side).tenants n = some t
  joining : ∀ i side n, (g i).joining = some (side, n) →
    ∃ t, (s.registers side).tenants n = some t ∧ t.joinPending = true ∧ t.left = none
  alone : ∀ i j p, (g i).joining = some p → (g j).joining = some p → i = j
  gone : ∀ i side n, (g i).gone = some (side, n) →
    ∃ t, (s.registers side).tenants n = some t ∧ t.left = some true
  known : ∀ i id, (g i).identity = some id → s.localId = some id

/-- The shared state has come to be another. -/
structure Upto (s s' : Shared) : Prop where
  registers : ∀ side, (s.registers side).Upto (s'.registers side)
  localId : ∀ id, s.localId = some id → s'.localId = some id
  directory : ∀ x, s.initialization = some x →
    s'.appDir = s.appDir ∧ ∃ y, s'.initialization = some y ∧ y.directory = x.directory

theorem Upto.refl (s : Shared) : Upto s s :=
  ⟨fun _ => .refl _, fun _ h => h, fun x h => ⟨rfl, x, h, rfl⟩⟩

theorem Upto.trans {s s' s'' : Shared} (h : Upto s s') (h' : Upto s' s'') : Upto s s'' := by
  refine ⟨fun side => (h.registers side).trans (h'.registers side),
    fun id hid => h'.localId id (h.localId id hid), fun x hx => ?_⟩
  obtain ⟨happ, y, hy, hdirectory⟩ := h.directory x hx
  obtain ⟨happ', z, hz, hdirectory'⟩ := h'.directory y hy
  exact ⟨happ'.trans happ, z, hz, hdirectory'.trans hdirectory⟩

section Steps

variable {g : ι → Knows} {s : Shared} {side : Side} {r : Register Holding String}

theorem upto_setRegister (h : (s.registers side).Upto r) : Upto s (s.setRegister side r) := by
  refine ⟨fun side' => ?_, fun _ h => h, fun x h => ⟨rfl, x, h, rfl⟩⟩
  show (s.registers side').Upto (Function.update s.registers side r side')
  by_cases hside : side' = side
  · subst hside
    rw [Function.update_self]
    exact h
  · rw [Function.update_of_ne hside]
    exact .refl _

/-- A register is changed, and what the threads know of it still holds. -/
theorem Kept.setRegister (h : Kept g s) (hsound : r.Sound (rules side))
    (hupto : (s.registers side).Upto r)
    (htenants : ∀ n t, r.tenants n = some t →
      (t.left.isSome → t.joinPending = true) ∧ s.localId = some t.resource.identity)
    (hjoining : ∀ i n, (g i).joining = some (side, n) →
      ∃ t, r.tenants n = some t ∧ t.joinPending = true ∧ t.left = none) :
    Kept g (s.setRegister side r) := by
  have hself : (s.setRegister side r).registers side = r := Function.update_self ..
  have hother : ∀ side', side' ≠ side → (s.setRegister side r).registers side' = s.registers side' :=
    fun side' hne => Function.update_of_ne hne ..
  refine ⟨fun side' => ?_, fun side' n t ht => ?_, fun side' n t ht => ?_,
    fun i side' n id hi => ?_, fun i side' n hi => ?_, h.alone, fun i side' n hi => ?_, h.known⟩
  all_goals by_cases hside : side' = side
  all_goals first | subst hside; rw [hself] at * | rw [hother side' hside] at *
  · exact hsound
  · exact h.sound side'
  · exact (htenants n t ht).1
  · exact h.joined side' n t ht
  · exact (htenants n t ht).2
  · exact h.identity side' n t ht
  · obtain ⟨hname, t, ht⟩ := h.found i side' n id hi
    obtain ⟨t', ht', -⟩ := hupto.tenants n t ht
    exact ⟨hname, t', ht'⟩
  · exact h.found i side' n id hi
  · exact hjoining i n hi
  · exact h.joining i side' n hi
  · obtain ⟨t, ht, hleft⟩ := h.gone i side' n hi
    obtain ⟨t', ht', -, -, -, hleft'⟩ := hupto.tenants n t ht
    exact ⟨t', ht', hleft' true hleft⟩
  · exact h.gone i side' n hi

variable [DecidableEq ι] {i : ι} {k : Knows}

theorem Kept.learn (h : Kept g s)
    (hfound : ∀ side n id, k.found = some (side, n, id) →
      (rules side).name n = id ∧ ∃ t, (s.registers side).tenants n = some t)
    (hjoining : ∀ side n, k.joining = some (side, n) →
      ∃ t, (s.registers side).tenants n = some t ∧ t.joinPending = true ∧ t.left = none)
    (halone : ∀ j p, j ≠ i → k.joining = some p → (g j).joining ≠ some p)
    (hgone : ∀ side n, k.gone = some (side, n) →
      ∃ t, (s.registers side).tenants n = some t ∧ t.left = some true)
    (hknown : ∀ id, k.identity = some id → s.localId = some id) :
    Kept (Function.update g i k) s := by
  have hcases : ∀ {P : Knows → Prop}, P k → (∀ j, P (g j)) → ∀ j, P (Function.update g i k j) := by
    intro P hk hg j
    by_cases hj : j = i
    · subst hj
      rw [Function.update_self]
      exact hk
    · rw [Function.update_of_ne hj]
      exact hg j
  refine ⟨h.sound, h.joined, h.identity,
    hcases (P := fun k => ∀ side n id, k.found = some (side, n, id) →
      (rules side).name n = id ∧ ∃ t, (s.registers side).tenants n = some t) hfound h.found,
    hcases (P := fun k => ∀ side n, k.joining = some (side, n) →
      ∃ t, (s.registers side).tenants n = some t ∧ t.joinPending = true ∧ t.left = none)
      hjoining h.joining, ?_,
    hcases (P := fun k => ∀ side n, k.gone = some (side, n) →
      ∃ t, (s.registers side).tenants n = some t ∧ t.left = some true) hgone h.gone,
    hcases (P := fun k => ∀ id, k.identity = some id → s.localId = some id) hknown h.known⟩
  -- two that join the same tenant are one
  intro j j' p hj hj'
  by_cases hji : j = i
  · by_cases hj'i : j' = i
    · exact hji.trans hj'i.symm
    · rw [hji, Function.update_self] at hj
      rw [Function.update_of_ne hj'i] at hj'
      exact absurd hj' (halone j' p hj'i hj)
  · rw [Function.update_of_ne hji] at hj
    by_cases hj'i : j' = i
    · rw [hj'i, Function.update_self] at hj'
      exact absurd hj (halone j p hji hj')
    · rw [Function.update_of_ne hj'i] at hj'
      exact h.alone j j' p hj hj'

theorem Kept.forget (h : Kept g s) (i : ι) : Kept (Function.update g i {}) s := by
  refine h.learn ?_ ?_ ?_ ?_ ?_
  · exact fun _ _ _ hfound => nomatch hfound
  · exact fun _ _ hjoining => nomatch hjoining
  · exact fun _ _ _ hjoining => nomatch hjoining
  · exact fun _ _ hgone => nomatch hgone
  · exact fun _ hknown => nomatch hknown

end Steps

/-! ### The accesses -/

section Accesses

variable {g : ι → Knows} {s s' : Shared} {side : Side} {n : Nat}

/-- Somebody comes in, with the identity that was found. -/
theorem Kept.enrol (h : Kept g s) {x : Holding}
    (hroom : (s.registers side).full (rules side) = false)
    (hfree : (s.registers side).taken (rules side) x = false)
    (hidentity : s.localId = some x.identity) :
    Kept g (s.setRegister side ((s.registers side).enrol (rules side) x)) := by
  have hfresh := (h.sound side).fresh
  refine h.setRegister ((h.sound side).enrol hroom hfree) (Register.upto_enrol hfresh x)
    (fun n t ht => ?_) fun i n hi => ?_
  · rcases Register.tenants_enrol ht with ht | ⟨-, rfl⟩
    · exact ⟨h.joined side n t ht, h.identity side n t ht⟩
    · exact ⟨(fun hleft => nomatch hleft), hidentity⟩
  · obtain ⟨t, ht, hwaits⟩ := h.joining i side n hi
    exact ⟨t, Register.enrol_tenants hfresh x ht, hwaits⟩

theorem Kept.skip (h : Kept g s) (side : Side) :
    Kept g (s.setRegister side (s.registers side).skip) :=
  h.setRegister (h.sound side).skip Register.upto_skip
    (fun n t ht => ⟨h.joined side n t ht, h.identity side n t ht⟩) fun i => h.joining i side

/-- A name is struck off whose session is gone. -/
theorem Kept.strike (h : Kept g s) {id : String} (hname : (rules side).name n = id)
    (hgone : ∃ t, (s.registers side).tenants n = some t ∧ t.left = some true) :
    Kept g (s.setRegister side ((s.registers side).strike id)) := by
  refine h.setRegister ((h.sound side).strike fun m t hm ht => ?_) (Register.upto_strike id)
    (fun n t ht => ⟨h.joined side n t ht, h.identity side n t ht⟩) fun i => h.joining i side
  obtain ⟨u, hu, hleft⟩ := hgone
  have hmn : m = n := name_injective side (hm.trans hname.symm)
  rw [hmn, hu] at ht
  exact Option.some.inj ht ▸ hleft

/-- A session grows older; nobody awaits it any more, or it does not leave. -/
theorem Kept.modify (h : Kept g s) {f : Tenant Holding → Tenant Holding}
    (hf : ∀ t, (s.registers side).tenants n = some t → Register.Ageing f t)
    (hjoined : ∀ t, (s.registers side).tenants n = some t → (f t).left.isSome →
      (f t).joinPending = true)
    (hleft : ∀ i t, (g i).joining = some (side, n) → (f t).left = t.left) :
    Kept g (s.setRegister side ((s.registers side).modify n f)) := by
  refine h.setRegister ((h.sound side).modify hf) (Register.upto_modify hf) (fun m u hu => ?_)
    fun i m hi => ?_
  · rcases Register.tenants_modify hu with ⟨hu, -⟩ | ⟨t, ht, rfl, rfl⟩
    · exact ⟨h.joined side m u hu, h.identity side m u hu⟩
    · rw [(hf t ht).resource]
      exact ⟨hjoined t ht, h.identity side m t ht⟩
  · obtain ⟨t, ht, hpending, hnone⟩ := h.joining i side m hi
    show ∃ u, Function.update (s.registers side).tenants n _ m = some u ∧ _
    by_cases hm : m = n
    · subst hm
      rw [Function.update_self, ht]
      exact ⟨f t, rfl, (hf t ht).joinPending hpending, (hleft i t hi).trans hnone⟩
    · rw [Function.update_of_ne hm]
      exact ⟨t, ht, hpending, hnone⟩

/-! #### Initialization -/

/-- A directory is bound once; what is answered then is answered ever after. -/
theorem engineInitialize_cases {p : Platform} {appDir : String} {answer : Except Error String}
    (h : engineInitialize p appDir s = (s', answer)) :
    s' = s ∧ (∀ id, answer = .ok id → s.localId = some id) ∨
      s.initialization = none ∧ s'.registers = s.registers ∧ ∃ directory,
        p.canonical = some directory ∧
        s'.initialization = some { directory, id := answer.toOption } := by
  unfold engineInitialize at h
  split at h
  · cases h
    exact .inl ⟨rfl, nofun⟩
  split at h
  · cases h
    exact .inl ⟨rfl, nofun⟩
  next directory hdirectory =>
  split at h
  · cases h
    exact .inl ⟨rfl, nofun⟩
  split at h
  -- the second time only the same directory is answered, with the first id
  · next previous hprevious =>
    split at h
    · cases h
      exact .inl ⟨rfl, nofun⟩
    split at h
    · next id hid =>
      cases h
      refine .inl ⟨rfl, fun id' hok => ?_⟩
      cases hok
      rw [Shared.localId, hprevious]
      exact hid
    · cases h
      exact .inl ⟨rfl, nofun⟩
  -- the first time, whatever comes of it, is remembered
  · next hnone =>
    dsimp only at h
    split at h
    · cases h
      exact .inr ⟨hnone, rfl, directory, hdirectory, rfl⟩
    split at h
    · cases h
      exact .inr ⟨hnone, rfl, directory, hdirectory, rfl⟩
    · cases h
      exact .inr ⟨hnone, rfl, directory, hdirectory, rfl⟩

/-- The first initialization ends, with an identity or without: there was no session yet, and
nobody had checked one. -/
theorem Kept.initialized (h : Kept g s) (hnone : s.initialization = none)
    (hregisters : s'.registers = s.registers) : Kept g s' := by
  have hlocal : s.localId = none := by
    rw [Shared.localId, hnone]
    rfl
  refine ⟨fun side => ?_, fun side n t ht => ?_, fun side n t ht => ?_,
    fun i side n id hi => ?_, fun i side n hi => ?_, h.alone, fun i side n hi => ?_,
    fun i id hi => ?_⟩
  · rw [hregisters]
    exact h.sound side
  · rw [hregisters] at ht
    exact h.joined side n t ht
  · rw [hregisters] at ht
    have hidentity := h.identity side n t ht
    rw [hlocal] at hidentity
    cases hidentity
  · rw [hregisters]
    exact h.found i side n id hi
  · rw [hregisters]
    exact h.joining i side n hi
  · rw [hregisters]
    exact h.gone i side n hi
  · have hknown := h.known i id hi
    rw [hlocal] at hknown
    cases hknown

theorem upto_initialized (hnone : s.initialization = none)
    (hregisters : s'.registers = s.registers) : Upto s s' := by
  refine ⟨fun side => ?_, fun id hid => ?_, fun x hx => ?_⟩
  · rw [hregisters]
    exact .refl _
  · rw [Shared.localId, hnone] at hid
    cases hid
  · rw [hnone] at hx
    cases hx

/-! #### The registries -/

/-- A number is taken for somebody who comes in or for nobody, or there is none left. -/
theorem numbered_cases {outcome : Outcome} {x : Holding} {exhausted : Error}
    {r r' : Register Holding String} {answer : Except Error String}
    (h : numbered (rules side) outcome x exhausted r = (r', answer)) :
    r' = r ∨ r' = r.skip ∨ r' = r.enrol (rules side) x := by
  unfold numbered at h
  split at h
  · cases h
    exact .inl rfl
  · cases outcome with
    | refused error =>
      cases h
      exact .inr (.inl rfl)
    | started =>
      cases h
      exact .inr (.inr rfl)

theorem setRegister_self (s : Shared) (side : Side) :
    s.setRegister side (s.registers side) = s := by
  rw [Shared.setRegister, Function.update_eq_self]

/-- Somebody asks to come in under a lock. -/
theorem Kept.numbered (h : Kept g s) {outcome : Outcome} {x : Holding} {exhausted : Error}
    {r : Register Holding String} {answer : Except Error String}
    (hroom : (s.registers side).full (rules side) = false)
    (hfree : (s.registers side).taken (rules side) x = false)
    (hidentity : s.localId = some x.identity)
    (hnumbered : Har.numbered (rules side) outcome x exhausted (s.registers side) = (r, answer)) :
    Kept g (s.setRegister side r) ∧ Upto s (s.setRegister side r) := by
  rcases numbered_cases hnumbered with rfl | rfl | rfl
  · rw [setRegister_self]
    exact ⟨h, .refl s⟩
  · exact ⟨h.skip side, upto_setRegister Register.upto_skip⟩
  · exact ⟨h.enrol hroom hfree hidentity,
      upto_setRegister (Register.upto_enrol (h.sound side).fresh x)⟩

theorem Kept.registerViewer (h : Kept g s) {outcome : Outcome} {x : Holding}
    {r : Register Holding String} {answer : Except Error String}
    (hidentity : s.localId = some x.identity)
    (hregister : Har.registerViewer outcome x (s.registers .viewer) = (r, answer)) :
    Kept g (s.setRegister .viewer r) ∧ Upto s (s.setRegister .viewer r) := by
  unfold Har.registerViewer at hregister
  split at hregister
  · cases hregister
    rw [setRegister_self]
    exact ⟨h, .refl s⟩
  next hroom =>
  split at hregister
  · cases hregister
    rw [setRegister_self]
    exact ⟨h, .refl s⟩
  next hfree =>
  exact h.numbered (Bool.not_eq_true _ ▸ hroom) (Bool.not_eq_true _ ▸ hfree) hidentity hregister

/-- No host excludes another by what it holds. -/
theorem taken_host (r : Register Holding String) (x : Holding) :
    r.taken (rules .host) x = false := by
  refine List.any_eq_false.mpr fun entry _ => ?_
  cases r.tenants entry.2 with
  | none => exact Bool.false_ne_true
  | some t => exact Bool.false_ne_true

theorem Kept.startHost (h : Kept g s) {outcome : Outcome} {keys : Except Error Unit}
    {width height fps : Int} {r : Register Holding String} {answer : Except Error String}
    (hstart : Har.startHost outcome keys s.localId width height fps (s.registers .host) =
      (r, answer)) :
    Kept g (s.setRegister .host r) ∧ Upto s (s.setRegister .host r) := by
  unfold Har.startHost at hstart
  split at hstart
  · cases hstart
    rw [setRegister_self]
    exact ⟨h, .refl s⟩
  next hroom =>
  split at hstart
  · cases hstart
    rw [setRegister_self]
    exact ⟨h, .refl s⟩
  next id hid =>
  split at hstart
  · cases hstart
    rw [setRegister_self]
    exact ⟨h, .refl s⟩
  · let options : HostOptions :=
      { id, width, height, platform := "HarmonyOS", inputInjection := false, inputSink := none }
    exact Kept.numbered (x := .host options fps) h (Bool.not_eq_true _ ▸ hroom) (taken_host _ _)
      hid hstart

/-! #### All of them -/

variable [DecidableEq ι] {i : ι} {a : Access} {answer : a.Answer}

/-- What a thread that looks, checks or learns nothing comes to know. -/
theorem Kept.learnFrom (h : Kept g s) {k : Knows} (hjoining : k.joining = (g i).joining)
    (hgone : k.gone = (g i).gone)
    (hfound : ∀ side n id, k.found = some (side, n, id) →
      (rules side).name n = id ∧ ∃ t, (s.registers side).tenants n = some t)
    (hknown : ∀ id, k.identity = some id → s.localId = some id) :
    Kept (Function.update g i k) s := by
  refine h.learn hfound (fun side n hk => h.joining i side n (hjoining ▸ hk))
    (fun j p hj hk hj' => ?_) (fun side n hk => h.gone i side n (hgone ▸ hk)) hknown
  exact hj (h.alone j i p hj' (hjoining ▸ hk))

theorem ageing_closing (t : Tenant Holding) :
    Register.Ageing (fun t => { t with closing := true }) t :=
  ⟨rfl, fun _ => rfl, id, fun _ => id⟩

theorem ageing_joinPending (t : Tenant Holding) :
    Register.Ageing (fun t => { t with joinPending := true }) t :=
  ⟨rfl, id, fun _ => rfl, fun _ => id⟩

/-- A session that has not left leaves. -/
theorem ageing_left {t : Tenant Holding} (h : t.left = none) (closed : Bool) :
    Register.Ageing (fun t => { t with left := some closed }) t :=
  ⟨rfl, id, id, fun b hb => absurd (h ▸ hb) (by simp)⟩

/-- The one `close` of a session is awaited. -/
theorem keeps_close (h : Kept g s) (hadmits : (g i).joining = some (side, n)) (closed : Bool) :
    Kept (Function.update g i (learn (g i) (.close side n) closed))
        (s.setRegister side ((s.registers side).modify n fun t => { t with left := some closed })) ∧
      Upto s (s.setRegister side
        ((s.registers side).modify n fun t => { t with left := some closed })) := by
  obtain ⟨t, ht, hpending, hnone⟩ := h.joining i side n hadmits
  have hf : ∀ u, (s.registers side).tenants n = some u →
      Register.Ageing (fun t : Tenant Holding => { t with left := some closed }) u := by
    intro u hu
    rw [ht] at hu
    exact ageing_left (Option.some.inj hu ▸ hnone) closed
  refine ⟨?_, upto_setRegister (Register.upto_modify hf)⟩
  -- the thread lets go of its turn, so that nobody waits any more
  have hfree : Kept (Function.update g i { g i with joining := none, gone := none }) s :=
    h.learn (h.found i) (fun _ _ hk => nomatch hk) (fun _ _ _ hk => nomatch hk)
      (fun _ _ hk => nomatch hk) (h.known i)
  have hleft : Kept _ (s.setRegister side
      ((s.registers side).modify n fun t => { t with left := some closed })) := hfree.modify hf
    (fun u hu _ => by
      rw [ht] at hu
      exact Option.some.inj hu ▸ hpending)
    (fun j u hj => by
      by_cases hji : j = i
      · rw [hji, Function.update_self] at hj
        cases hj
      · rw [Function.update_of_ne hji] at hj
        exact absurd (h.alone j i _ hj hadmits) hji)
  have hfound := hleft.found i
  rw [Function.update_self] at hfound
  have hsees := hleft.learn (i := i)
    (k := { g i with joining := none, gone := if closed then some (side, n) else none })
    hfound (fun _ _ hk => nomatch hk) (fun _ _ _ hk => nomatch hk) ?_ (h.known i)
  · rw [Function.update_idem] at hsees
    exact hsees
  · intro side' n' hgone
    cases closed with
    | false => cases hgone
    | true =>
      obtain ⟨rfl, rfl⟩ := Prod.mk.inj (Option.some.inj hgone)
      refine ⟨{ t with left := some true }, ?_, rfl⟩
      show (Function.update s.registers side ((s.registers side).modify n _) side).tenants n = _
      rw [Function.update_self]
      show Function.update (s.registers side).tenants n _ n = _
      rw [Function.update_self, ht]
      rfl

/-- Whoever swaps first is to await the `close`, alone. -/
theorem keeps_swap (h : Kept g s) {t : Tenant Holding}
    (ht : (s.registers side).tenants n = some t) :
    Kept (Function.update g i (learn (g i) (.swapJoinPending side n) t.joinPending))
      (s.setRegister side ((s.registers side).modify n fun t => { t with joinPending := true })) := by
  have hkept : Kept g (s.setRegister side
      ((s.registers side).modify n fun t => { t with joinPending := true })) :=
    h.modify (fun t _ => ageing_joinPending t) (fun _ _ _ => rfl) fun _ _ _ => rfl
  cases hpending : t.joinPending with
  | true =>
    show Kept (Function.update g i (g i)) _
    rw [Function.update_eq_self]
    exact hkept
  | false =>
    have hnone : t.left = none := by
      cases hleft : t.left with
      | none => rfl
      | some closed =>
        have hjoined := h.joined side n t ht (hleft ▸ rfl)
        rw [hpending] at hjoined
        cases hjoined
    refine hkept.learn (hkept.found i) (fun side' n' hk => ?_) (fun j p hj hk hj' => ?_) (hkept.gone i)
      (h.known i)
    · obtain ⟨rfl, rfl⟩ := Prod.mk.inj (Option.some.inj hk)
      refine ⟨{ t with joinPending := true }, ?_, rfl, hnone⟩
      show (Function.update s.registers side ((s.registers side).modify n _) side).tenants n = _
      rw [Function.update_self]
      show Function.update (s.registers side).tenants n _ n = _
      rw [Function.update_self, ht]
      rfl
    · -- somebody else who waits would have swapped before
      obtain rfl := Option.some.inj hk
      obtain ⟨u, hu, hpending', -⟩ := h.joining j side n hj'
      rw [ht] at hu
      rw [← Option.some.inj hu, hpending] at hpending'
      cases hpending'

/-- Everything is kept by every access that what its thread knows admits. -/
theorem keeps (h : Kept g s) (hadmits : admits (g i) a) (hperform : perform i s a answer s') :
    Kept (Function.update g i (learn (g i) a answer)) s' ∧ Upto s s' := by
  have idle : ∀ {t : Shared}, Kept g t → Kept (Function.update g i (g i)) t := by
    intro t ht
    rw [Function.update_eq_self]
    exact ht
  cases a with
  | engineInitialize appDir =>
    -- the second time nothing changes
    obtain ⟨p, hinit⟩ := hperform
    rcases engineInitialize_cases hinit with ⟨rfl, -⟩ | ⟨hnone, hregisters, -⟩
    · exact ⟨idle h, .refl _⟩
    · exact ⟨idle (h.initialized hnone hregisters), upto_initialized hnone hregisters⟩
  | localId =>
    obtain ⟨rfl, rfl⟩ := hperform
    exact ⟨h.learnFrom rfl rfl (h.found i) fun _ hid => hid, .refl _⟩
  | registerViewer surface options start =>
    obtain ⟨outcome, r, hregister, rfl⟩ := hperform
    have hidentity := h.known i _ hadmits
    obtain ⟨hkept, hupto⟩ := Kept.registerViewer (x := .viewer surface options start) h hidentity
      hregister
    exact ⟨idle hkept, hupto⟩
  | startHost width height fps =>
    obtain ⟨outcome, keys, r, hstart, rfl⟩ := hperform
    obtain ⟨hkept, hupto⟩ := h.startHost hstart
    exact ⟨idle hkept, hupto⟩
  | lookup side id =>
    obtain ⟨rfl, rfl⟩ := hperform
    refine ⟨h.learnFrom rfl rfl (fun side' n id' hfound => ?_) (h.known i), .refl _⟩
    obtain ⟨m, hm, heq⟩ := Option.map_eq_some_iff.mp hfound
    cases heq
    exact (h.sound side).name_of_find? hm
  | isClosing side n =>
    obtain ⟨-, rfl⟩ := hperform
    exact ⟨idle h, .refl _⟩
  | setClosing side n =>
    -- the tenant only ages
    obtain rfl := hperform
    refine ⟨idle (h.modify (fun t _ => ageing_closing t) (fun t ht => h.joined side n t ht)
      fun _ _ _ => rfl), upto_setRegister (Register.upto_modify fun t _ => ageing_closing t)⟩
  | requestClose side n =>
    obtain rfl := hperform
    exact ⟨idle h, .refl _⟩
  | swapJoinPending side n =>
    obtain ⟨⟨t, ht, rfl⟩, rfl⟩ := hperform
    exact ⟨keeps_swap h ht,
      upto_setRegister (Register.upto_modify fun t _ => ageing_joinPending t)⟩
  | close side n =>
    -- the call has the join to itself
    obtain rfl := hperform
    exact keeps_close h hadmits answer
  | remove side id =>
    -- what is struck off is gone
    obtain rfl := hperform
    obtain ⟨n, hgone, hfound⟩ := hadmits
    exact ⟨idle (h.strike (h.found i side n id hfound).1 (h.gone i side n hgone)),
      upto_setRegister (Register.upto_strike id)⟩
  | sendMouse n kind button x y =>
    obtain rfl := hperform
    exact ⟨idle h, .refl _⟩
  | approve n request allow =>
    obtain rfl := hperform
    exact ⟨idle h, .refl _⟩
  | query =>
    obtain rfl := hperform
    exact ⟨idle h, .refl _⟩
  | swapQuerying =>
    obtain ⟨-, rfl⟩ := hperform
    exact ⟨idle ⟨h.sound, h.joined, h.identity, h.found, h.joining, h.alone, h.gone, h.known⟩,
      ⟨fun _ => .refl _, fun _ hid => hid, fun x hx => ⟨rfl, x, hx, rfl⟩⟩⟩
  | endQuery =>
    obtain rfl := hperform
    exact ⟨idle ⟨h.sound, h.joined, h.identity, h.found, h.joining, h.alone, h.gone, h.known⟩,
      ⟨fun _ => .refl _, fun _ hid => hid, fun x hx => ⟨rfl, x, hx, rfl⟩⟩⟩

end Accesses

/-! ### A surface that is used twice -/

def samplePlatform : Platform where
  canonical := some "/data"
  isDir := true
  hasParent := true
  cryptoInit := true
  configId := "me"
  fileExists := true

def sampleRequest : ConnectRequest where
  surfaceId := "7"
  address := "10.0.0.2:21118"
  username := ""
  localId := "me"
  localName := ""
  password := ""
  fps := .whole 60

def sampleOptions : ViewerOptions where
  address := SocketAddr.parse "10.0.0.2:21118"
  username := "10.0.0.2"
  localId := "me"
  localName := ""
  password := ""
  requestedFps := 60
  clipboardEnabled := true
  imageQuality := .balanced

def sampleViewer : Holding := .viewer 7 sampleOptions .direct

theorem engineConnect_sample : engineConnect sampleRequest =
    requireLocalIdentity "me" (.access (.registerViewer 7 sampleOptions .direct) fun answer =>
      .ret (textReply answer)) :=
  rfl

/-- The first initialization. -/
def bound : Shared :=
  { initialization := some { directory := "/data", id := some "me" }, appDir := some "/data" }

theorem alone_bound : Alone (machine Unit) (fun _ => True) () {}
    (Export.engineInitialize "/data").program bound (.ret (.ok (.text "me"))) :=
  .access (.ok "me") ⟨samplePlatform, rfl⟩ trivial (.refl _ _)

/-- A connect where the viewer is admitted. -/
theorem alone_connect {s : Shared} {r : Register Holding String} {id : String}
    (hid : s.localId = some "me")
    (hregister : registerViewer .started sampleViewer (s.registers .viewer) = (r, .ok id)) :
    Alone (machine Unit) (fun _ => True) () s (Export.connect sampleRequest).program
      (s.setRegister .viewer r) (.ret (.ok (.text id))) := by
  show Alone _ _ _ _ (engineConnect sampleRequest) _ _
  rw [engineConnect_sample]
  exact .access (some "me") ⟨hid.symm, rfl⟩ trivial
    (.access (.ok id) ⟨.started, r, hregister, rfl⟩ trivial (.refl _ _))

/-- A viewer is connected. -/
def connected : Shared :=
  bound.setRegister .viewer ((Register.empty 1).enrol (rules .viewer) sampleViewer)

/-- Its close was awaited, and came to an end that proves its teardown or not. -/
def closed (ok : Bool) : Shared :=
  let closing := connected.setRegister .viewer
    ((connected.registers .viewer).modify 1 fun t => { t with closing := true })
  let joining := closing.setRegister .viewer
    ((closing.registers .viewer).modify 1 fun t => { t with joinPending := true })
  joining.setRegister .viewer
    ((joining.registers .viewer).modify 1 fun t => { t with left := some ok })

/-- Its name is struck off. -/
def removed : Shared :=
  (closed true).setRegister .viewer (((closed true).registers .viewer).strike "modern-1")

theorem alone_close (error : Error) : Alone (machine Unit) (fun _ => True) () connected
    (Export.close .viewer "modern-1" error).program removed (.ret (.ok .done)) :=
  .access (some 1) ⟨rfl, rfl⟩ trivial <| .access () rfl trivial <| .access () rfl trivial <|
    .access false ⟨⟨_, rfl, rfl⟩, rfl⟩ trivial <| .access true rfl trivial <|
    .access () rfl trivial (.refl _ _)

/-- A viewer is connected on the surface again. -/
def reconnected : Shared :=
  removed.setRegister .viewer ((removed.registers .viewer).enrol (rules .viewer) sampleViewer)

/-- A call that has only its answer to give. -/
def idleAt (s : Shared) (reply : Except Error Reply) :
    Config Access.Answer (Except Error Reply) Shared Unit :=
  (start Unit).set () s (.ret reply)

theorem run_connected : ∃ ls, Run (Step (machine Unit)) (start Unit) ls
    (idleAt connected (.ok (.text "modern-1"))) := by
  obtain ⟨_, hbound⟩ := Alone.extend (c := start Unit) (d := start Unit) alone_bound (.nil _) rfl
    ⟨_, rfl⟩
  obtain ⟨_, hconnected⟩ := Alone.extend (d := Config.set _ () _ _)
    (alone_connect (s := bound) rfl rfl) hbound rfl ⟨_, rfl⟩
  rw [Config.set_set] at hconnected
  exact ⟨_, hconnected⟩

theorem run_reconnected : ∃ ls, Run (Step (machine Unit))
    (idleAt connected (.ok (.text "modern-1"))) ls (idleAt reconnected (.ok (.text "modern-2"))) := by
  obtain ⟨_, hremoved⟩ := Alone.extend (d := idleAt connected _) (alone_close (.failed "")) (.nil _) rfl
    ⟨_, rfl⟩
  obtain ⟨_, hreconnected⟩ := Alone.extend (d := Config.set _ () _ _)
    (alone_connect (s := removed) rfl rfl) hremoved rfl ⟨_, rfl⟩
  rw [Config.set_set, idleAt, Config.set_set] at hreconnected
  exact ⟨_, hreconnected⟩

/-! ### Runs -/

section Runs

variable [DecidableEq ι] {c d : Config Access.Answer (Except Error Reply) Shared ι}
  {l : Label Access.Answer ι} {ls ls' : List (Label Access.Answer ι)}

/-- Every thread knows what it needs to know for what it is about to do. -/
abbrev Reached (c : Config Access.Answer (Except Error Reply) Shared ι) : Prop :=
  Followed (fun _ => ghost) (fun _ _ _ => True) Kept c

omit [DecidableEq ι] in
theorem reached_start : Reached (start ι) := by
  refine ⟨fun _ => {}, fun _ => trivial, ⟨?_, ?_, ?_, ?_, ?_, ?_, ?_, ?_⟩⟩
  · exact fun side => Register.sound_empty _ _
  · exact fun _ _ _ h => nomatch h
  · exact fun _ _ _ h => nomatch h
  · exact fun _ _ _ _ h => nomatch h
  · exact fun _ _ _ h => nomatch h
  · exact fun _ _ _ h => nomatch h
  · exact fun _ _ _ h => nomatch h
  · exact fun _ _ h => nomatch h

theorem tracked : Tracked (machine ι) (fun _ _ => True) (fun _ => ghost) (fun _ _ _ => True) Kept where
  access _ _ _ hkept hadmits hperform := (keeps hkept hadmits hperform).1
  start := by
    rintro g s i result program hkept - ⟨call, rfl⟩
    exact ⟨{}, follows_export call, hkept.forget i⟩

theorem reached_step (hc : Reached c) (hstep : Step (machine ι) c l d) :
    Reached d ∧ Upto c.shared d.shared := by
  refine ⟨tracked.step hc trivial hstep, ?_⟩
  cases hstep with
  | start => exact .refl _
  | @access i a rest answer s' hi hperform =>
    obtain ⟨g, hfollows, hkept⟩ := hc
    have hprogram := hfollows i
    rw [hi, follows_access] at hprogram
    exact (keeps hkept hprogram.1 hperform).2

theorem reached_run (hc : Reached c) (hrun : Run (Step (machine ι)) c ls d) :
    Reached d ∧ Upto c.shared d.shared :=
  hrun.invariant (I := fun d => Reached d ∧ Upto c.shared d.shared)
    (fun _ _ _ h hstep => by
      obtain ⟨hreached, hupto⟩ := reached_step h.1 hstep
      exact ⟨hreached, h.2.trans hupto⟩)
    ⟨hc, .refl _⟩

/-! ### One viewer on a surface -/

/-- The session is not known to be gone. -/
def Shared.Live (s : Shared) (side : Side) (n : Nat) : Prop :=
  ∃ t, (s.registers side).tenants n = some t ∧ t.Held

/-- Whichever exports run at once: there are never more than four viewers, and one host,
that are not known to be gone; each of them is still found under its id, and no id ever
means another session; a viewer has a surface that another had before only if that one's
teardown was proven; and a session never gets another resource, nor does its `close` ever come
to anything else, so that one that failed keeps its slot for good. -/
theorem sessions_exclusive (hrun : Run (Step (machine ι)) (start ι) ls c)
    (hrun' : Run (Step (machine ι)) c ls' d) :
    (∀ side (ns : List Nat), ns.Nodup → (∀ n ∈ ns, d.shared.Live side n) →
      ns.length ≤ match side with | .viewer => 4 | .host => 1) ∧
    (∀ side n, d.shared.Live side n →
      (d.shared.registers side).find? ((rules side).name n) = some n) ∧
    (∀ side id m n, (c.shared.registers side).find? id = some m →
      (d.shared.registers side).find? id = some n → m = n) ∧
    (∀ m n t u surface, m < n → (d.shared.registers .viewer).tenants m = some t →
      (d.shared.registers .viewer).tenants n = some u → t.resource.surface? = some surface →
      u.resource.surface? = some surface → t.left = some true) ∧
    (∀ side n t, (c.shared.registers side).tenants n = some t →
      ∃ u, (d.shared.registers side).tenants n = some u ∧ u.resource = t.resource ∧
        ∀ closed, t.left = some closed → u.left = some closed) := by
  obtain ⟨⟨g, -, hkept⟩, -⟩ := reached_run reached_start hrun
  obtain ⟨⟨g', -, hkept'⟩, hupto⟩ := reached_run (reached_run reached_start hrun).1 hrun'
  refine ⟨fun side ns hns hlive => ?_, fun side n ⟨t, ht, hheld⟩ => ?_,
    fun side id m n hm hn => ?_, fun m n t u surface hmn ht hu hsurface hsurface' => ?_,
    fun side n t ht => ?_⟩
  · have hroom := (hkept'.sound side).held_le_room hns hlive
    cases side with
    | viewer => exact hroom
    | host => exact hroom
  · exact (hkept'.sound side).find?_held (name_injective side) ht hheld
  · have hname := ((hkept.sound side).name_of_find? hm).1
    have hname' := ((hkept'.sound side).name_of_find? hn).1
    exact name_injective side (hname.trans hname'.symm)
  · refine (hkept'.sound .viewer).succession m n t u hmn ht hu ?_
    show (t.resource.surface?.isSome && t.resource.surface? == u.resource.surface?) = true
    rw [hsurface, hsurface']
    exact Bool.and_eq_true_iff.mpr ⟨rfl, beq_self_eq_true _⟩
  · obtain ⟨u, hu, hresource, -, -, hleft⟩ := (hupto.registers side).tenants n t ht
    exact ⟨u, hu, hresource, hleft⟩

/-- A viewer is closed, and another is connected on its surface. -/
theorem sessions_exclusive_reconnected :
    ∃ ls ls', Run (Step (machine Unit)) (start Unit) ls (idleAt connected (.ok (.text "modern-1"))) ∧
      Run (Step (machine Unit)) (idleAt connected (.ok (.text "modern-1"))) ls'
        (idleAt reconnected (.ok (.text "modern-2"))) ∧
      ∃ t u, (reconnected.registers .viewer).tenants 1 = some t ∧
        (reconnected.registers .viewer).tenants 2 = some u ∧
        t.resource.surface? = some 7 ∧ u.resource.surface? = some 7 ∧ t.left = some true := by
  obtain ⟨ls, hrun⟩ := run_connected
  obtain ⟨ls', hrun'⟩ := run_reconnected
  refine ⟨ls, ls', hrun, hrun', _, _, rfl, rfl, rfl, rfl, ?_⟩
  exact (sessions_exclusive hrun hrun').2.2.2.1 1 2 _ _ 7 (by decide) rfl rfl rfl rfl

/-! ### One identity -/

omit [DecidableEq ι] in
/-- What an initialization answers is the identity from then on. -/
theorem localId_of_engineInitialize {i : ι} {s s' : Shared} {appDir id : String}
    (hperform : perform i s (.engineInitialize appDir) (.ok id) s') : s'.localId = some id := by
  obtain ⟨p, hinit⟩ := hperform
  rcases engineInitialize_cases hinit with ⟨rfl, hok⟩ | ⟨-, -, directory, -, hinitialization⟩
  · exact hok id rfl
  · rw [Shared.localId, hinitialization]
    rfl

/-- Every initialization that succeeds answers one and the same id, whatever it is asked to
bind; a directory, once bound, is never bound again; and every viewer and every host that
there ever is shows its peers that id. -/
theorem sessions_identity (hrun : Run (Step (machine ι)) (start ι) ls c)
    (hrun' : Run (Step (machine ι)) c ls' d) :
    (∀ i appDir id, .access i (.engineInitialize appDir) (.ok id) ∈ ls ++ ls' →
      d.shared.localId = some id) ∧
    (∀ x, c.shared.initialization = some x → d.shared.appDir = c.shared.appDir ∧
      ∃ y, d.shared.initialization = some y ∧ y.directory = x.directory) ∧
    (∀ side n t, (d.shared.registers side).tenants n = some t →
      d.shared.localId = some t.resource.identity) := by
  have hanswers := (hrun.append hrun').history (P := fun ls d => Reached d ∧
    ∀ i appDir id, .access i (.engineInitialize appDir) (.ok id) ∈ ls →
      d.shared.localId = some id) ?_ ⟨reached_start, fun _ _ _ h => nomatch h⟩
  · obtain ⟨⟨g, -, hkept⟩, hids⟩ := hanswers
    have hupto := (reached_run (reached_run reached_start hrun).1 hrun').2
    exact ⟨hids, hupto.directory, hkept.identity⟩
  · rintro ls c l d ⟨hreached, hids⟩ hstep
    obtain ⟨hreached', hupto⟩ := reached_step hreached hstep
    refine ⟨hreached', fun i appDir id h => ?_⟩
    rcases List.mem_append.mp h with h | h
    · exact hupto.localId id (hids i appDir id h)
    · cases List.mem_singleton.mp h
      cases hstep with
      | access hi hperform => exact localId_of_engineInitialize (i := i) hperform

/-- Both viewers show the id that the initialization found. -/
theorem sessions_identity_reconnected :
    ∃ ls ls', Run (Step (machine Unit)) (start Unit) ls (idleAt connected (.ok (.text "modern-1"))) ∧
      Run (Step (machine Unit)) (idleAt connected (.ok (.text "modern-1"))) ls'
        (idleAt reconnected (.ok (.text "modern-2"))) ∧
      ∃ t u, (reconnected.registers .viewer).tenants 1 = some t ∧
        (reconnected.registers .viewer).tenants 2 = some u ∧
        some t.resource.identity = some u.resource.identity := by
  obtain ⟨ls, hrun⟩ := run_connected
  obtain ⟨ls', hrun'⟩ := run_reconnected
  have hshown := (sessions_identity hrun hrun').2.2 .viewer
  exact ⟨ls, ls', hrun, hrun', _, _, rfl, rfl, (hshown 1 _ rfl).symm.trans (hshown 2 _ rfl)⟩

end Runs

end Har

end RdEngine
