/-
RdEngine/Compat/ViewOnly.lean

A VNC session that was opened without input: when does its server see none?

The session API is safe as long as the session that gets the backend is still
view-only when it gets it, since the policy is frozen from then on.  Calls on the
backend itself are not looked at at all (`view_only_enforced`).
-/
import RdEngine.Compat.Incarnations
import RdEngine.Compat.Input

namespace RdEngine

namespace Compat

open Lts
open Vnc (LiveSession encodeKeyEvent)

/-! ### Input messages -/

/-- A key event, a pointer event or a client cut text, by its first byte. -/
def isInput : Bytes → Bool
  | kind :: _ => kind == 4 || kind == 5 || kind == 6
  | [] => false

theorem isInput_key (down : Bool) (keysym : UInt32) : isInput (encodeKeyEvent down keysym) = true :=
  rfl

theorem isInput_refresh (live : LiveSession) : isInput (Vnc.Live.refresh live) = false := rfl

/-- The call would write input. -/
def BackendCall.writesInput (live : LiveSession) (call : BackendCall) : Bool :=
  (call.messages live).any isInput

/-! ### What is expected -/

/-- Nothing that was opened without input has sent any. -/
def Silent (s : State) : Prop :=
  ∀ (b : Nat) (backend : Backend) (live : LiveSession), s.backends[b]? = some backend →
    backend.kind = .vnc live false → ∀ m ∈ backend.sent, isInput m = false

/-- A backend that was opened without input gets no input call itself, and is
installed in a session that is view-only. -/
def Respected (s : State) : UseLabel → Prop
  | .direct index call =>
    ∀ (backend : Backend) (live : LiveSession), s.backends[index]? = some backend →
      backend.kind = .vnc live false → call.writesInput live = false
  | .session (.finishes thread (.installed index _)) =>
    ∀ (backend : Backend) (live : LiveSession), s.backends[index]? = some backend →
      backend.kind = .vnc live false → ∀ o b session, s.threads thread = .opened o b →
        s.registry.get o.id = some session → session.viewOnly = true
  | _ => True

/-- A session with a backend that was opened without input is view-only. -/
def Guarded (s : State) : Prop :=
  ∀ session ∈ s.registry, ∀ (b : Nat) (backend : Backend) (live : LiveSession),
    session.viewer = some b → s.backends[b]? = some backend → backend.kind = .vnc live false →
      session.viewOnly = true

/-! ### Steps of the registry -/

/-- The backends keep what they are and what they sent; one may be new. -/
structure Grown (before after : List Backend) : Prop where
  kept : ∀ (b : Nat) (backend : Backend), after[b]? = some backend →
    (∃ old : Backend, before[b]? = some old ∧ backend.kind = old.kind ∧ backend.sent = old.sent)
      ∨ before.length ≤ b ∧ backend.sent = []

theorem Grown.refl (backends : List Backend) : Grown backends backends :=
  ⟨fun _ backend h => .inl ⟨backend, h, rfl, rfl⟩⟩

theorem requestClose_grown (s : State) (backend : Option Nat) :
    Grown s.backends (s.requestClose backend) := by
  cases backend with
  | none => exact .refl _
  | some index =>
    refine ⟨fun b backend h => .inl ?_⟩
    unfold State.requestClose at h
    simp only [List.getElem?_modify] at h
    cases hold : s.backends[b]? with
    | none =>
      rw [hold] at h
      cases h
    | some old =>
      rw [hold] at h
      refine ⟨old, rfl, ?_⟩
      by_cases hsame : index = b
      · simp only [hsame, if_true] at h
        cases h
        exact ⟨rfl, rfl⟩
      · simp only [hsame, if_false] at h
        cases h
        exact ⟨rfl, rfl⟩

theorem step_grown {s s' : State} {l : Label} (h : Step s l s') :
    Grown s.backends s'.backends := by
  cases h with
  | opens =>
    refine ⟨fun b backend h => ?_⟩
    rw [List.getElem?_append] at h
    split at h
    · exact .inl ⟨backend, h, rfl, rfl⟩
    · rename_i hbound
      refine .inr ⟨Nat.le_of_not_lt hbound, ?_⟩
      rw [List.getElem?_singleton] at h
      split at h
      · cases h
        rfl
      · cases h
  | finish hthread hfinish =>
    rename_i finish _
    cases finish with
    | removed => exact requestClose_grown _ _
    | installed => exact .refl _
    | failed => exact .refl _
  | close => exact requestClose_grown _ _
  | _ => exact .refl _

theorem silent_step {s s' : State} {l : Label} (hs : Silent s) (h : Step s l s') : Silent s' := by
  intro b backend live hat hkind m hm
  rcases (step_grown h).kept b backend hat with ⟨old, hold, hsame, hsent⟩ | ⟨-, hsent⟩
  · exact hs b old live hold (hsame ▸ hkind) m (hsent ▸ hm)
  · rw [hsent] at hm
    cases hm

theorem modify_policies {registry : Registry} {id : String} {f : CompatSession → CompatSession}
    {x : CompatSession} {b : Nat} (hx : x ∈ registry.modify id f) (hb : x.viewer = some b)
    (hviewer : ∀ x, (f x).viewer = x.viewer) (hpolicy : ∀ x, (f x).viewOnly = x.viewOnly) :
    ∃ y ∈ registry, y.viewer = some b ∧ x.viewOnly = y.viewOnly := by
  obtain ⟨before, hbefore, ⟨-, rfl⟩ | ⟨-, rfl⟩⟩ := mem_modify hx
  · exact ⟨before, hbefore, (hviewer before).symm.trans hb, hpolicy before⟩
  · exact ⟨x, hbefore, hb, rfl⟩

/-- A session's backend and policy were there before, or it is the one that just got
its backend. -/
theorem step_viewers {account : Account} {s s' : State} {l : Label} (hs : Linked account s)
    (h : Step s l s') : ∀ x ∈ s'.registry, ∀ b, x.viewer = some b →
      (∃ y ∈ s.registry, y.viewer = some b ∧ x.viewOnly = y.viewOnly)
        ∨ ∃ thread generation o session, l = .finishes thread (.installed b generation)
          ∧ s.threads thread = .opened o (some b) ∧ s.registry.get o.id = some session
          ∧ x.viewOnly = session.viewOnly := by
  intro x hx b hb
  cases h with
  | add hadd =>
    rcases List.mem_cons.mp hx with rfl | hx
    · rw [(newSession_eq (add_eq hadd).1).2.2] at hb
      cases hb
    · exact .inl ⟨x, hx, hb, rfl⟩
  | @setViewOnly name enabled =>
    rcases setViewOnly_eq name enabled s.registry with h | ⟨session, hget, hnone, h⟩
    · exact .inl ⟨x, h ▸ hx, hb, rfl⟩
    · replace hx : x ∈ s.registry.modify name fun session =>
          { session with viewOnly := enabled } := h ▸ hx
      obtain ⟨before, hbefore, ⟨hid, rfl⟩ | ⟨-, rfl⟩⟩ := mem_modify hx
      · -- the policy of a session with a backend does not change
        obtain rfl := hs.found hget hbefore hid
        replace hb : before.viewer = some b := hb
        rw [hnone] at hb
        cases hb
      · exact .inl ⟨x, hbefore, hb, rfl⟩
  | forcedRelay hbegin =>
    obtain ⟨session, -, -, -, rfl⟩ := begin_eq hbegin
    exact .inl (modify_policies hx hb (fun _ => rfl) fun _ => rfl)
  | begin _ hbegin =>
    obtain ⟨session, -, -, -, rfl⟩ := begin_eq hbegin
    exact .inl (modify_policies hx hb (fun _ => rfl) fun _ => rfl)
  | @finish thread o found registry finish result hthread hfinish =>
    -- only here does a session get a backend
    rcases finish_eq hfinish with
      ⟨-, rfl, rfl⟩ | ⟨session, hget, ⟨c, vnc, hviewer, rfl, rfl⟩ | ⟨-, rfl, rfl⟩⟩
    · exact .inl ⟨x, hx, hb, rfl⟩
    · obtain ⟨before, hbefore, ⟨hid, rfl⟩ | ⟨-, rfl⟩⟩ := mem_modify hx
      · obtain rfl := hs.found hget hbefore hid
        obtain rfl := viewer_some hviewer
        cases hb
        exact .inr ⟨thread, _, o, before, rfl, hthread, hget, rfl⟩
      · exact .inl ⟨x, hbefore, hb, rfl⟩
    · exact .inl (modify_policies hx hb (fun _ => rfl) fun _ => rfl)
  | close => exact .inl ⟨x, (mem_remove.mp hx).1, hb, rfl⟩
  | _ => exact .inl ⟨x, hx, hb, rfl⟩

/-! ### The invariant -/

/-- What holds of every state that a run reaches. -/
structure Enforced (s : State) : Prop where
  linked : ∃ account, Linked account s
  held : Held s
  guarded : Guarded s
  silent : Silent s

theorem start_enforced : Enforced .start where
  linked := ⟨_, start_linked⟩
  held := start_held
  guarded := by
    intro session h
    cases h
  silent := by
    intro b backend live h
    simp [State.start] at h

theorem enforced_session {s s' : State} {l : Label} (hs : Enforced s) (h : Step s l s')
    (hrespected : Respected s (.session l)) : Enforced s' := by
  obtain ⟨account, hlinked⟩ := hs.linked
  have hmoves := step_moves h
  refine ⟨⟨_, linked_step hlinked h⟩, held_step hs.held hmoves, ?_, silent_step hs.silent h⟩
  intro x hx b backend live hb hat hkind
  rcases step_viewers hlinked h x hx b hb with
    ⟨y, hy, hyb, hpolicy⟩ | ⟨thread, generation, o, session, rfl, hthread, hget, hpolicy⟩
  · rw [hpolicy]
    rcases (step_grown h).kept b backend hat with ⟨old, hold, hsame, -⟩ | ⟨hnew, -⟩
    · exact hs.guarded y hy b old live hyb hold (hsame ▸ hkind)
    · exact absurd (hs.held.sessions y hy b hyb) (Nat.not_lt.mpr hnew)
  · rw [hpolicy]
    rcases (step_grown h).kept b backend hat with ⟨old, hold, hsame, -⟩ | ⟨hnew, -⟩
    · exact hrespected old live hold (hsame ▸ hkind) o (some b) session hthread hget
    · exact absurd (hs.held.threads thread o b hthread).1 (Nat.not_lt.mpr hnew)

/-! ### Calls -/

theorem started_eq {session : CompatSession} {call forwarded : BackendCall}
    (h : started session call = .ok forwarded) : forwarded = call := by
  unfold started at h
  split at h
  · cases h
    rfl
  · cases h

/-- A view-only session forwards no input. -/
theorem forward_viewOnly {session : CompatSession} {call : FacadeCall} {forwarded : BackendCall}
    (hviewOnly : session.viewOnly = true) (h : call.forward session = .ok forwarded) :
    ∃ display, forwarded = .refresh display := by
  cases call with
  | sendMouseEvent kind button x y =>
    simp only [FacadeCall.forward, hviewOnly, Bool.true_or, if_true] at h
    cases h
  | inputKey key down press =>
    cases key with
    | none => cases h
    | some key =>
      simp only [FacadeCall.forward, hviewOnly, if_true] at h
      split at h <;> cases h
  | handleFlutterKeyEvent key down =>
    cases key with
    | none => cases h
    | some key =>
      simp only [FacadeCall.forward, hviewOnly, if_true] at h
      cases h
  | inputString value =>
    simp only [FacadeCall.forward, hviewOnly, if_true] at h
    cases h
  | sendClipboard content =>
    simp only [FacadeCall.forward, hviewOnly, if_true] at h
    cases h
  | switchDisplay display =>
    simp only [FacadeCall.forward] at h
    split at h
    · cases h
    · exact ⟨display, started_eq h⟩

theorem refresh_messages {live : LiveSession} {display : Int} :
    ∀ m ∈ (BackendCall.refresh display).messages live, isInput m = false := by
  intro m hm
  simp only [BackendCall.messages] at hm
  split at hm
  · cases hm
  · obtain rfl := List.mem_singleton.mp hm
    exact isInput_refresh live

theorem not_writesInput {live : LiveSession} {call : BackendCall}
    (h : call.writesInput live = false) : ∀ m ∈ call.messages live, isInput m = false := by
  intro m hm
  exact Bool.eq_false_of_not_eq_true (List.any_eq_false.mp h m hm)

/-- Messages are written to one backend. -/
theorem send_grown {s : State} {index b : Nat} {written : List Bytes} {backend : Backend}
    (h : (s.send index written).backends[b]? = some backend) :
    ∃ old : Backend, s.backends[b]? = some old ∧ backend.kind = old.kind
      ∧ (backend.sent = old.sent ∨ b = index ∧ backend.sent = old.sent ++ written) := by
  unfold State.send at h
  simp only [List.getElem?_modify] at h
  cases hold : s.backends[b]? with
  | none =>
    rw [hold] at h
    cases h
  | some old =>
    rw [hold] at h
    refine ⟨old, rfl, ?_⟩
    by_cases hsame : index = b
    · simp only [hsame, if_true] at h
      cases h
      exact ⟨rfl, .inr ⟨hsame.symm, rfl⟩⟩
    · simp only [hsame, if_false] at h
      cases h
      exact ⟨rfl, .inl rfl⟩

theorem Enforced.send {s : State} (hs : Enforced s) {index : Nat} {written : List Bytes}
    (hinput : ∀ (backend : Backend) (live : LiveSession), s.backends[index]? = some backend →
      backend.kind = .vnc live false → ∀ m ∈ written, isInput m = false) :
    Enforced (s.send index written) := by
  obtain ⟨⟨account, hlinked⟩, ⟨hsessions, hthreads, hsingle⟩, hguarded, hsilent⟩ := hs
  have hlength : (s.send index written).backends.length = s.backends.length :=
    List.length_modify _ _ _
  refine ⟨⟨account, ?_⟩, ⟨?_, ?_, hsingle⟩, ?_, ?_⟩
  · exact ⟨hlinked.entries, hlinked.unique, hlinked.threads, hlinked.closed, hlinked.installed⟩
  · intro session hmem b hb
    exact hlength ▸ hsessions session hmem b hb
  · intro thread o b hb
    exact hlength ▸ hthreads thread o b hb
  · intro session hmem b backend live hb hat hkind
    obtain ⟨old, hold, hsame, -⟩ := send_grown hat
    exact hguarded session hmem b old live hb hold (hsame ▸ hkind)
  · intro b backend live hat hkind m hm
    obtain ⟨old, hold, hsame, hsent | ⟨rfl, hsent⟩⟩ := send_grown hat
    · exact hsilent b old live hold (hsame ▸ hkind) m (hsent ▸ hm)
    · rw [hsent, List.mem_append] at hm
      rcases hm with hm | hm
      · exact hsilent b old live hold (hsame ▸ hkind) m hm
      · exact hinput old live hold (hsame ▸ hkind) m hm

theorem enforced_step {s s' : State} {l : UseLabel} (hs : Enforced s)
    (h : Where UseStep Respected s l s') : Enforced s' := by
  obtain ⟨hrespected, h⟩ := h
  cases h with
  | session hstep => exact enforced_session hs hstep hrespected
  | facade hget hforward hviewer hbackend hkind hwritten =>
    refine hs.send fun backend live hat hclosed m hm => ?_
    have hpolicy := hs.guarded _ (get_some hget).1 _ backend live hviewer hat hclosed
    obtain ⟨display, rfl⟩ := forward_viewOnly hpolicy hforward
    exact refresh_messages m (hwritten.subset hm)
  | facadeRefused => exact hs
  | direct hbackend hkind hwritten =>
    refine hs.send fun backend live hat hclosed m hm => ?_
    have hsilent := hrespected backend live hat hclosed
    rw [hbackend] at hat
    cases hat
    rw [hkind] at hclosed
    cases hclosed
    exact not_writesInput hsilent m (hwritten.subset hm)

/-! ### Steps that lead to input -/

theorem send_heard {s : State} {index : Nat} {written : List Bytes} {backend : Backend}
    {live : LiveSession} (hat : s.backends[index]? = some backend)
    (hkind : backend.kind = .vnc live false) {m : Bytes} (hm : m ∈ written)
    (hinput : isInput m = true) : ¬ Silent (s.send index written) := by
  intro hsilent
  have hsent : (s.send index written).backends[index]?
      = some { backend with sent := backend.sent ++ written } := by
    simp [State.send, hat]
  have := hsilent index _ live hsent hkind m (List.mem_append_right _ hm)
  rw [hinput] at this
  cases this

theorem writesInput_mem {live : LiveSession} {call : BackendCall}
    (h : call.writesInput live = true) : ∃ m ∈ call.messages live, isInput m = true :=
  List.any_eq_true.mp h

/-- A key that every server can be sent. -/
def letterA : FacadeCall := .inputKey (some (.character 0x61)) true true false false false false

/-- A session that is not view-only takes a backend that was opened without input:
the next key reaches the server. -/
theorem installed_heard {s : State} {o : Opening} {session : CompatSession} {index : Nat}
    {backend : Backend} {live : LiveSession} {protocol : SessionProtocol}
    {threads : Nat → Thread} (hget : s.registry.get o.id = some session)
    (hpolicy : session.viewOnly = false) (hat : s.backends[index]? = some backend)
    (hkind : backend.kind = .vnc live false) :
    ∃ next s'', UseStep
        { s with
          registry := s.registry.modify o.id fun session =>
            { session with protocol, viewer := some index }
          threads } next s'' ∧ ¬ Silent s'' := by
  have hget' := get_modify (f := fun session => { session with protocol, viewer := some index })
    hget fun _ => rfl
  have hforward : letterA.forward { session with protocol, viewer := some index }
      = .ok (.sendKey (.character 0x61) true true false false false false) := by
    simp only [FacadeCall.forward, letterA, hpolicy]
    rfl
  refine ⟨_, _, .facade hget' hforward rfl hat hkind (List.Sublist.refl _), ?_⟩
  exact send_heard hat hkind List.mem_cons_self (isInput_key true 0x61)

/-- A step that is not respected can be followed by input. -/
theorem disrespected_step {s s' : State} {l : UseLabel} (h : UseStep s l s')
    (hdisrespected : ¬ Respected s l) : ∃ next s'', UseStep s' next s'' ∧ ¬ Silent s'' := by
  cases h with
  | @direct index call backend live allowed written hbackend hkind hwritten =>
    simp only [Respected, not_forall] at hdisrespected
    obtain ⟨backend', live', hat, hclosed, hwrites⟩ := hdisrespected
    rw [hbackend] at hat
    cases hat
    rw [hkind] at hclosed
    cases hclosed
    obtain ⟨m, hm, hinput⟩ := writesInput_mem (Bool.eq_true_of_not_eq_false hwrites)
    have hat' : (s.send index written).backends[index]?
        = some { backend with sent := backend.sent ++ written } := by
      simp [State.send, hbackend]
    exact ⟨_, _, .direct hat' hkind (List.Sublist.refl _), send_heard hat' hkind hm hinput⟩
  | session hstep =>
    cases hstep with
    | @finish thread o found registry finish result hthread hfinish =>
      rcases finish_eq hfinish with
        ⟨-, -, rfl⟩ | ⟨session, hget, ⟨index, vnc, -, rfl, rfl⟩ | ⟨-, rfl, -⟩⟩
      · exact absurd trivial hdisrespected
      · simp only [Respected, not_forall] at hdisrespected
        obtain ⟨backend, live, hat, hkind, o', found', session', hthread', hget', hpolicy⟩ :=
          hdisrespected
        rw [hthread] at hthread'
        cases hthread'
        rw [hget] at hget'
        cases hget'
        exact installed_heard hget (Bool.eq_false_of_not_eq_true hpolicy) hat hkind
      · exact absurd trivial hdisrespected
    | _ => exact absurd trivial hdisrespected
  | _ => exact absurd trivial hdisrespected

/-- **A server that was opened without input sees none in the runs whose steps all
respect this**: no input call is made on the backend itself, and the session that
gets the backend is still view-only.  Any other step can be followed by input. -/
theorem view_only_enforced {s : State} {ls : List UseLabel} (hrun : Run UseStep .start ls s) :
    (Run (Where UseStep Respected) .start ls s → Silent s)
      ∧ ∀ l s', UseStep s l s' → ¬ Respected s l →
        ∃ next s'', Run UseStep .start (ls ++ [l] ++ [next]) s'' ∧ ¬ Silent s'' := by
  refine ⟨fun hrespected => ?_, fun l s' hstep hdisrespected => ?_⟩
  · exact (hrespected.invariant (fun _ _ _ hs h => enforced_step hs h) start_enforced).silent
  · obtain ⟨next, s'', hnext, hheard⟩ := disrespected_step hstep hdisrespected
    exact ⟨next, s'', (hrun.snoc hstep).snoc hnext, hheard⟩

/-- A view-only VNC session, started. -/
def watchedSession : CompatSession := { sampleSession "vnc://a" "a" 1 with viewOnly := true }

def watchedBegun : State where
  registry := [{ watchedSession with phase := "starting" }]
  generations := 1
  threads := Function.update (fun _ => .idle) 0 (.opening (opening "me" watchedSession))

theorem watched_begun :
    Run (Where UseStep Respected) .start
      [.session (.adds watchedSession), .session (.begins 0 (opening "me" watchedSession))]
      watchedBegun :=
  .cons ⟨trivial, .session
      (@Step.add .start "s" "vnc://a" (some { isViewOnly := some true }) _ rfl)⟩
    (.single ⟨trivial, .session (@Step.begin _ 0 "s" "me" _ _ rfl rfl rfl)⟩)

/-- The watched session gets its backend, and a key is refused. -/
theorem view_only_enforced_refused :
    ∃ s ls, Run UseStep .start ls s ∧ .facade "s" letterA ∈ ls ∧ s.backends.length = 1
      ∧ Silent s := by
  have hopened := watched_begun.snoc
    (show Where UseStep Respected _ (.session (.opens 0 0)) _ from
      ⟨trivial, .session (@Step.opens _ 0 _ sampleLive _ rfl rfl)⟩)
  have hinstalled := hopened.snoc
    (show Where UseStep Respected _ (.session (.finishes 0 (.installed 0 1))) _ from
      ⟨fun backend live _ _ o b session hthread hget => by
        cases hthread
        cases hget
        rfl, .session (@Step.finish _ 0 _ _ _ _ _ rfl rfl)⟩)
  have hrun := hinstalled.snoc
    (show Where UseStep Respected _ (.facade "s" letterA) _ from
      ⟨trivial, @UseStep.facadeRefused _ "s" letterA _ _ rfl rfl⟩)
  have hplain := hrun.mono fun _ _ _ h => h.2
  refine ⟨_, _, hplain, ?_, rfl, (view_only_enforced hplain).1 hrun⟩
  exact List.mem_append_right _ (List.mem_singleton_self _)

/-- The policy is changed while the backend opens: a key reaches the server of a
session that was opened without input. -/
theorem view_only_lifted :
    ∃ s ls, Run UseStep .start ls s
      ∧ .session (.begins 0 (opening "me" watchedSession)) ∈ ls ∧ watchedSession.viewOnly = true
      ∧ ¬ Silent s := by
  have hbegun := watched_begun.mono fun _ _ _ h => h.2
  have hchanged := hbegun.snoc (.session (@Step.setViewOnly _ "s" false))
  have hinstalled := (hchanged.snoc (.session (@Step.opens _ 0 _ sampleLive _ rfl rfl))).snoc
    (.session (@Step.finish _ 0 _ _ _ _ _ rfl rfl))
  have hrun := hinstalled.snoc (@UseStep.facade _ "s" letterA _ _ 0 _ sampleLive false _ rfl rfl
    rfl rfl rfl (List.Sublist.refl _))
  refine ⟨_, _, hrun, ?_, rfl, ?_⟩
  · simp
  · have hat : (⟨.vnc sampleLive false, opening "me" watchedSession, false, []⟩ : Backend).kind
        = .vnc sampleLive false := rfl
    exact send_heard rfl hat List.mem_cons_self (isInput_key true 0x61)

end Compat

end RdEngine
