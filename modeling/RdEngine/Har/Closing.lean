/-
RdEngine/Har/Closing.lean

Nothing reaches a session that somebody has asked to close.

`engine_mouse` and `engine_host_approve` look at the flag of the session they have found
before they act on it, and the flag is never taken back.  A call that looked before the
flag went up may still act; a call that begins afterwards does not
(`nothing_after_requestClose`).
-/
import RdEngine.Har.Sessions

namespace RdEngine

namespace Har

open Lts Tenants Threads

/-! ### What reaches a session -/

/-- The access acts on session `n`: a mouse event for its peer, or the user's decision. -/
def Reaches (side : Side) (n : Nat) : Access → Prop
  | .sendMouse m _ _ _ _ => side = .viewer ∧ m = n
  | .approve m _ _ => side = .host ∧ m = n
  | _ => False

/-- The flag of session `n` was seen down. -/
def SeenOpen (side : Side) (n : Nat) (a : Access) (answer : a.Answer) : Prop :=
  match a, answer with
  | .isClosing side' m, closing => side' = side ∧ m = n ∧ closing = false
  | _, _ => False

variable {side : Side} {n : Nat}

/-- A program reaches a session only after it has seen it open. -/
abbrev Looks (side : Side) (n : Nat) (p : Program) : Prop :=
  Checked (SeenOpen side n) (Reaches side n) p

theorem looks_refuse (error : Error) : Looks side n (refuse error) := trivial

theorem looks_unless {c : Prop} [Decidable c] {error : Error} {p : Program} (h : Looks side n p) :
    Looks side n (if c then refuse error else p) := by
  by_cases hc : c
  · rw [if_pos hc]
    exact looks_refuse error
  · rw [if_neg hc]
    exact h

theorem looks_checked {α : Type} {value : Except Error α} {p : α → Program}
    (h : ∀ a, Looks side n (p a)) : Looks side n (checked value p) := by
  cases value with
  | ok a => exact h a
  | error error => exact looks_refuse error

theorem looks_requireLocalIdentity {id : String} {p : Program} (h : Looks side n p) :
    Looks side n (requireLocalIdentity id p) := by
  refine ⟨nofun, fun answer _ => ?_⟩
  cases answer with
  | none => exact looks_refuse _
  | some authoritative =>
    show Looks side n (if authoritative = id then p else _)
    split_ifs
    · exact h
    · exact looks_refuse _

theorem looks_lookup {side' : Side} {id : String} {p : Nat → Program}
    (h : ∀ m, Looks side n (p m)) : Looks side n (lookup side' id p) := by
  unfold lookup
  split_ifs
  · cases side' <;> exact looks_refuse _
  · refine ⟨nofun, fun answer _ => ?_⟩
    cases answer with
    | some m => exact h m
    | none => cases side' <;> exact looks_refuse _

theorem looks_register {surface : Nat} {options : Compat.ViewerOptions} {start : Start} :
    Looks side n (.access (.registerViewer surface options start) fun answer =>
      .ret (textReply answer)) :=
  ⟨nofun, fun _ _ => trivial⟩

theorem looks_connect (r : ConnectRequest) (pin : Option (String × SignPublicKey)) :
    Looks side n (connect r pin) := by
  refine looks_requireLocalIdentity (looks_checked fun surface => ?_)
  cases SocketAddr.parse r.address with
  | none => exact looks_refuse _
  | some address => exact looks_unless (looks_checked fun fps => looks_register)

theorem looks_connectVerified (r : ConnectRequest) (id key : String) :
    Looks side n (engineConnectVerified r id key) := by
  refine looks_unless ?_
  cases Base64.decode Base64.original key.toList with
  | none => exact looks_refuse _
  | some bytes =>
    dsimp only
    cases FixedBytes.fromSlice 32 bytes with
    | none => exact looks_refuse _
    | some key => exact looks_connect _ _

theorem looks_connectId (r : ConnectIdRequest) : Looks side n (engineConnectId r) := by
  refine looks_requireLocalIdentity (looks_checked fun surface =>
    looks_unless (looks_checked fun fps => ?_))
  dsimp only
  cases parseKey (if r.configuredKey.isEmpty then rsPubKey else r.configuredKey) with
  | none => exact looks_refuse _
  | some serverKey => exact looks_register

/-- A mouse event goes out only where the flag of the session it goes to was seen down. -/
theorem looks_mouse (id : String) (kind button x y : Number) :
    Looks side n (engineMouse id kind button x y) := by
  refine looks_checked fun _ => looks_checked fun _ => looks_checked fun _ =>
    looks_checked fun _ => looks_lookup fun m => ⟨nofun, fun closing hseen => ?_⟩
  cases closing with
  | true => trivial
  | false => exact ⟨fun hreaches => hseen ⟨hreaches.1.symm, hreaches.2, rfl⟩, fun _ _ => trivial⟩

theorem looks_approve (id requestId : String) (allow : Bool) :
    Looks side n (engineHostApprove id requestId allow) := by
  refine looks_unless (looks_lookup fun m => ⟨nofun, fun closing hseen => ?_⟩)
  cases closing with
  | true => trivial
  | false => exact ⟨fun hreaches => hseen ⟨hreaches.1.symm, hreaches.2, rfl⟩, fun _ _ => trivial⟩

theorem looks_requestClose (side' : Side) (id : String) :
    Looks side n (engineRequestClose side' id) :=
  looks_lookup fun _ => ⟨nofun, fun _ _ => ⟨nofun, fun _ _ => trivial⟩⟩

theorem looks_close (side' : Side) (id : String) (error : Error) :
    Looks side n (engineClose side' id error) := by
  refine looks_lookup fun _ => ⟨nofun, fun _ _ => ⟨nofun, fun _ _ => ⟨nofun, fun pending _ => ?_⟩⟩⟩
  cases pending with
  | true => cases side' <;> exact looks_refuse _
  | false =>
    refine ⟨nofun, fun closed _ => ?_⟩
    cases closed with
    | true => exact ⟨nofun, fun _ _ => trivial⟩
    | false => cases side' <;> exact looks_refuse _

theorem looks_hostStart (width height fps : Number) :
    Looks side n (engineHostStart width height fps) :=
  looks_checked fun _ => looks_checked fun _ => looks_checked fun _ =>
    looks_unless ⟨nofun, fun _ _ => trivial⟩

theorem looks_capabilities : Looks side n engineCapabilities := by
  refine ⟨nofun, fun running _ => ?_⟩
  cases running with
  | true => exact looks_refuse _
  | false => exact ⟨nofun, fun _ _ => ⟨nofun, fun _ _ => trivial⟩⟩

theorem looks_export (call : Export) : Looks side n call.program := by
  cases call with
  | engineInitialize appDir => exact ⟨nofun, fun _ _ => trivial⟩
  | connect request => exact looks_connect request none
  | connectVerified request id key => exact looks_connectVerified request id key
  | connectId request => exact looks_connectId request
  | mouse id kind button x y => exact looks_mouse id kind button x y
  | requestClose side' id => exact looks_requestClose side' id
  | close side' id error => exact looks_close side' id error
  | hostStart width height fps => exact looks_hostStart width height fps
  | hostApprove id requestId allow => exact looks_approve id requestId allow
  | capabilities => exact looks_capabilities

/-! ### The flag -/

variable {ι : Type} [DecidableEq ι] {c d : Config Access.Answer (Except Error Reply) Shared ι}
  {l : Label Access.Answer ι} {ls ls' : List (Label Access.Answer ι)}

/-- Somebody has asked session `n` to close. -/
def Shared.Closing (s : Shared) (side : Side) (n : Nat) : Prop :=
  ∃ t, (s.registers side).tenants n = some t ∧ t.closing = true

theorem Upto.closing {s s' : Shared} (h : Upto s s') (hs : s.Closing side n) :
    s'.Closing side n := by
  obtain ⟨t, ht, hclosing⟩ := hs
  obtain ⟨t', ht', -, hclosing', -⟩ := (h.registers side).tenants n t ht
  exact ⟨t', ht', hclosing' hclosing⟩

/-- Whoever puts the flag up does so on a session it has found. -/
theorem closing_of_setClosing {i : ι} (hc : Reached c)
    (hstep : Step (machine ι) c (.access i (.setClosing side n) ()) d) :
    d.shared.Closing side n := by
  obtain ⟨g, hfollows, hkept⟩ := hc
  cases hstep with
  | access hi hperform =>
    have hprogram := hfollows i
    rw [hi, follows_access] at hprogram
    obtain ⟨⟨id, hfound⟩, -⟩ := hprogram
    obtain ⟨-, t, ht⟩ := hkept.found i side n id hfound
    obtain rfl := hperform
    refine ⟨{ t with closing := true }, ?_, rfl⟩
    show (Function.update c.shared.registers side ((c.shared.registers side).modify n _) side).tenants
      n = _
    rw [Function.update_self]
    show Function.update (c.shared.registers side).tenants n _ n = _
    rw [Function.update_self, ht]
    rfl

theorem closing_run {i : ι} (hrun : Run (Step (machine ι)) (start ι) ls c)
    (hset : .access i (.setClosing side n) () ∈ ls) : c.shared.Closing side n := by
  have hhistory := hrun.history (P := fun ls c => Reached c ∧
    (.access i (.setClosing side n) () ∈ ls → c.shared.Closing side n)) ?_
    ⟨reached_start, fun h => nomatch h⟩
  · exact hhistory.2 hset
  · rintro ls c l d ⟨hreached, hclosing⟩ hstep
    obtain ⟨hreached', hupto⟩ := reached_step hreached hstep
    refine ⟨hreached', fun h => ?_⟩
    rcases List.mem_append.mp h with h | h
    · exact hupto.closing (hclosing h)
    · cases List.mem_singleton.mp h
      exact closing_of_setClosing hreached hstep

/-- Once somebody has asked a session to close, a caller that is between two calls never
reaches it again, in whatever order the exports run: it sends the peer of that viewer no mouse
event, and the host no decision. -/
theorem nothing_after_requestClose {i j : ι} {reply : Except Error Reply}
    (hrun : Run (Step (machine ι)) (start ι) ls c)
    (hset : .access j (.setClosing side n) () ∈ ls) (hidle : c.threads i = .ret reply)
    (hrun' : Run (Step (machine ι)) c ls' d) :
    ∀ (a : Access) (answer : a.Answer), .access i a answer ∈ ls' → ¬ Reaches side n a := by
  intro a answer hlabel
  -- A thread between two calls has looked at nothing yet.
  have hlooked : Checked (SeenOpen side n) (Reaches side n) (c.threads i) := by
    rw [hidle]
    trivial
  refine never_acts (I := fun c => Reached c ∧ c.shared.Closing side n) ?_ ?_ ?_ hrun'
    ⟨(reached_run reached_start hrun).1, closing_run hrun hset⟩ hlooked hlabel
  · rintro c l d ⟨hreached, hclosing⟩ hstep
    obtain ⟨hreached', hupto⟩ := reached_step hreached hstep
    exact ⟨hreached', hupto.closing hclosing⟩
  · rintro c a answer s' ⟨-, t, ht, hclosing⟩ hperform hseen
    cases a with
    | isClosing side' m =>
      obtain ⟨rfl, rfl, rfl⟩ := hseen
      obtain ⟨⟨u, hu, hanswer⟩, -⟩ := hperform
      rw [ht] at hu
      cases hu
      rw [hclosing] at hanswer
      cases hanswer
    | _ => exact hseen
  · rintro s result program ⟨call, rfl⟩
    exact looks_export call

/-! ### An event that comes too late -/

/-- The flag of the viewer is up. -/
def closingViewer : Shared :=
  connected.setRegister .viewer
    ((connected.registers .viewer).modify 1 fun t => { t with closing := true })

theorem run_requestClose : Run (Step (machine Unit)) (idleAt connected (.ok (.text "modern-1")))
    [.start (), .access () (.lookup .viewer "modern-1") (some 1),
      .access () (.setClosing .viewer 1) (), .access () (.requestClose .viewer 1) ()]
    (idleAt closingViewer (.ok .done)) := by
  have hend : idleAt closingViewer (.ok .done) = ((((idleAt connected (.ok (.text "modern-1"))).set ()
      connected (engineRequestClose .viewer "modern-1")).set () connected (.access
        (.setClosing .viewer 1) fun _ => .access (.requestClose .viewer 1) fun _ => .ret (.ok .done))).set
      () closingViewer (.access (.requestClose .viewer 1) fun _ => .ret (.ok .done))).set ()
      closingViewer (.ret (.ok .done)) := by
    simp only [idleAt, Config.set_set]
  rw [hend]
  exact .cons (.start rfl ⟨.requestClose .viewer "modern-1", rfl⟩) <|
    .cons (.access rfl ⟨rfl, rfl⟩) <| .cons (.access rfl rfl) <| .cons (.access rfl rfl) (.nil _)

theorem nothing_after_requestClose_mouse : ∃ ls d, ∃ ls' : List (Label Access.Answer Unit),
    Run (Step (machine Unit)) (start Unit) ls (idleAt closingViewer (.ok .done)) ∧
      Run (Step (machine Unit)) (idleAt closingViewer (.ok .done)) ls' d ∧
      .access () (.lookup .viewer "modern-1") (some 1) ∈ ls' ∧
      ∀ (a : Access) (answer : a.Answer), .access () a answer ∈ ls' → ¬ Reaches .viewer 1 a := by
  obtain ⟨ls, hconnected⟩ := run_connected
  have hrun := hconnected.append run_requestClose
  have hrun' : Run (Step (machine Unit)) (idleAt closingViewer (.ok .done))
      [.start (), .access () (.lookup .viewer "modern-1") (some 1),
        .access () (.isClosing .viewer 1) true] _ :=
    .cons (.start rfl ⟨.mouse "modern-1" (.whole 0) (.whole 0) (.whole 1) (.whole 1), rfl⟩) <|
      .cons (.access rfl ⟨rfl, rfl⟩) <| .cons (.access rfl ⟨⟨_, rfl, rfl⟩, rfl⟩) (.nil _)
  refine ⟨_, _, _, hrun, hrun', by simp, ?_⟩
  exact nothing_after_requestClose (j := ()) hrun (by simp) rfl hrun'

end Har

end RdEngine
