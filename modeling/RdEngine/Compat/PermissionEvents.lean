/-
RdEngine/Compat/PermissionEvents.lean

The permission events of both pumps, beside a peer that grants and withdraws the
keyboard and the clipboard.

A pump says the permissions once, right behind `peer_info`, and never again: a
look agrees with its sample exactly if the sample still allows what the one that
opened allowed, and if no poll ends between the two events (`permission_current`).
-/
import RdEngine.Compat.PumpCompleteness
import RdEngine.Viewer.State

namespace RdEngine

namespace PermissionEvents

open Compat Lts
open Viewer (Phase)

/-! ### What an engine allows -/

/-- The flags behind the permissions of a viewer's snapshot. -/
structure Grants where
  authenticated : Bool := false
  remoteKeyboard : Bool := false
  remoteClipboard : Bool := false
  localClipboard : Bool
  cancelled : Bool := false

namespace Grants

/-- `PermissionInfo`, of the peer. -/
def receive (grants : Grants) (info : PermissionInfo) : Grants :=
  match info.permission with
  | .known .keyboard => { grants with remoteKeyboard := info.enabled }
  | .known .clipboard => { grants with remoteClipboard := info.enabled }
  | _ => grants

/-- What `run` takes over from the login. -/
def authenticate (grants : Grants) (context : Viewer.Context) : Grants :=
  { grants with
    remoteKeyboard := context.keyboard
    remoteClipboard := context.clipboard
    authenticated := true }

/-- `request_close`: nothing is allowed any more. -/
def requestClose (grants : Grants) : Grants :=
  { grants with authenticated := false, cancelled := true }

/-- The task of the viewer has come to its end. -/
def finish (grants : Grants) : Grants := { grants with authenticated := false }

def keyboardAllowed (grants : Grants) : Bool :=
  Viewer.localMouseEnabled && grants.authenticated && grants.remoteKeyboard && !grants.cancelled

def clipboardAllowed (grants : Grants) : Bool :=
  Viewer.localClipboardEnabled && grants.localClipboard && grants.authenticated &&
    grants.remoteClipboard && !grants.cancelled

end Grants

/-- A session's backend; `shown` is the rest of its snapshot. -/
inductive Engine where
  | rustDesk (grants : Grants) (shown : ViewerSnapshot)
  | vnc (keyboardAllowed : Bool) (shown : ViewerSnapshot)

namespace Engine

/-- VNC has no permission negotiation. -/
def snapshot : Engine → ViewerSnapshot
  | .rustDesk grants shown =>
    { shown with
      keyboardAllowed := grants.keyboardAllowed, clipboardAllowed := grants.clipboardAllowed }
  | .vnc keyboardAllowed shown => { shown with keyboardAllowed, clipboardAllowed := true }

/-- A step of an engine, as far as a snapshot shows it. -/
inductive Moves : Engine → Engine → Prop
  | receive (grants : Grants) (shown : ViewerSnapshot) (info : PermissionInfo) :
      Moves (.rustDesk grants shown) (.rustDesk (grants.receive info) shown)
  | authenticate (grants : Grants) (shown : ViewerSnapshot) (context : Viewer.Context) :
      Moves (.rustDesk grants shown) (.rustDesk (grants.authenticate context) shown)
  | requestClose (grants : Grants) (shown : ViewerSnapshot) :
      Moves (.rustDesk grants shown) (.rustDesk grants.requestClose shown)
  | finish (grants : Grants) (shown : ViewerSnapshot) :
      Moves (.rustDesk grants shown) (.rustDesk grants.finish shown)
  | shows (grants : Grants) (shown shown' : ViewerSnapshot) :
      Moves (.rustDesk grants shown) (.rustDesk grants shown')
  | vncShows (keyboardAllowed : Bool) (shown shown' : ViewerSnapshot) :
      Moves (.vnc keyboardAllowed shown) (.vnc keyboardAllowed shown')

end Engine

/-! ### A pump beside it -/

def isPeerInfo (event : UiEvent) : Bool := event.name == "peer_info"

def isPermission (event : UiEvent) : Bool := event.name == "permission"

/-- One look of a pump at the engine, and the events it hands over.  The Flutter
pump hands over all its events, and has no limit. -/
def look (toText : List JsonObject → String) (snapshot : ViewerSnapshot)
    (peer : Option PeerReport) (limit : UInt32) : Pump → Pump × List UiEvent
  | .flutter pump =>
    (.flutter (Flutter.collect toText snapshot peer pump).1,
      (Flutter.collect toText snapshot peer pump).2)
  | .ohos session =>
    (.ohos (session.pollEvents toText snapshot peer limit).1,
      (session.pollEvents toText snapshot peer limit).2)

/-- A submitted password, which only the pump of the session API counts. -/
def loggedIn : Pump → Pump
  | .flutter pump => .flutter pump
  | .ohos session => .ohos session.loggedIn

/-- `samples` is a history variable. -/
structure Watch where
  engine : Engine
  peer : Option PeerReport := none
  pump : Pump
  samples : List ViewerSnapshot := []
  handed : List UiEvent := []

/-- What happens between an engine and its pump. -/
inductive Label where
  | moves
  | looks (limit : UInt32)
  | logsIn

namespace Watch

/-- What the pump has emitted, handed out or still pending. -/
def emitted (s : Watch) : List UiEvent := s.handed ++ s.pump.pending

/-- A look of the pump, with what it samples and hands out. -/
def look (toText : List JsonObject → String) (s : Watch) (limit : UInt32) : Watch :=
  { s with
    pump := (PermissionEvents.look toText s.engine.snapshot s.peer limit s.pump).1
    samples := s.samples ++ [s.engine.snapshot]
    handed := s.handed ++ (PermissionEvents.look toText s.engine.snapshot s.peer limit s.pump).2 }

/-- A step of the engine or of the pump. -/
inductive Step (toText : List JsonObject → String) : Watch → Label → Watch → Prop
  | move {s : Watch} {engine : Engine} (peer : Option PeerReport)
      (h : s.engine.Moves engine) : Step toText s .moves { s with engine, peer }
  | look (s : Watch) (limit : UInt32) : Step toText s (.looks limit) (s.look toText limit)
  | login (s : Watch) : Step toText s .logsIn { s with pump := loggedIn s.pump }

/-! ### Permissions that are current -/

/-- Once `peer_info` was delivered, the last permission event says what the
engine allows. -/
def Current (s : Watch) : Prop :=
  s.handed.any isPeerInfo = true →
    (s.handed.filter isPermission).getLast? = some (permission s.engine.snapshot)

/-- Where `peer_info` stands, or is about to stand, among all events. -/
def position (s : Watch) : Nat := (names s.emitted ++ script.opening).idxOf "peer_info"

end Watch

/-- Whether a look hands over the `n`th of the events that wait. -/
def handsOver (limit : UInt32) : Pump → Nat → Prop
  | .flutter _, _ => True
  | .ohos _, n => n < min limit.toNat 256

/-- How many events stand between `peer_info` and the permission event. -/
def between : Pump → Nat
  | .flutter _ => 0
  | .ohos _ => 1

/-- What a snapshot allows. -/
def allowed (snapshot : ViewerSnapshot) : Bool × Bool :=
  (snapshot.keyboardAllowed, snapshot.clipboardAllowed)

namespace Watch

/-- After a look at `s`, the event at this place among all is handed over. -/
def Reaches (s : Watch) (limit : UInt32) (place : Nat) : Prop :=
  place < s.handed.length ∨ handsOver limit s.pump (place - s.handed.length)

/-- If the look opens, or an earlier one has opened: it hands over the permission
event if it hands over `peer_info`, and then finds the permissions of the sample
that opened. -/
def Meets (s : Watch) (limit : UInt32) : Prop :=
  ∀ first,
    (s.samples ++ [s.engine.snapshot]).find? (fun a => s.pump.opensOn a.phase) = some first →
    s.Reaches limit s.position →
      s.Reaches limit (s.position + between s.pump + 1) ∧
        allowed first = allowed s.engine.snapshot

end Watch

/-! ### What a look says -/

/-- An event that neither announces the peer nor tells its permissions. -/
def Bland (event : UiEvent) : Prop := isPeerInfo event = false ∧ isPermission event = false

theorem filter_bland {events : List UiEvent} (h : ∀ event ∈ events, Bland event) :
    events.filter isPeerInfo = [] ∧ events.filter isPermission = [] := by
  refine ⟨List.filter_eq_nil_iff.mpr fun event he => ?_,
    List.filter_eq_nil_iff.mpr fun event he => ?_⟩
  · exact ne_true_of_eq_false (h event he).1
  · exact ne_true_of_eq_false (h event he).2

theorem forall_append {kind : UiEvent → Prop} {events events' : List UiEvent}
    (h : ∀ event ∈ events, kind event) (h' : ∀ event ∈ events', kind event) :
    ∀ event ∈ events ++ events', kind event :=
  fun event he => (List.mem_append.mp he).elim (h event) (h' event)

/-- A stage that keeps a part of what the pump remembers, and says events of one
kind only. -/
structure Idle {σ α : Type} (kind : UiEvent → Prop) (f : σ → α) (stage : Stage σ) : Prop where
  keeps : ∀ s, f (stage s).1 = f s
  emits : ∀ s, ∀ event ∈ (stage s).2, kind event

theorem Idle.then {σ α : Type} {kind : UiEvent → Prop} {f : σ → α} {first second : Stage σ}
    (hfirst : Idle kind f first) (hsecond : Idle kind f second) :
    Idle kind f (first.then second) where
  keeps := keeps_then hfirst.keeps hsecond.keeps
  emits s := forall_append (hfirst.emits s) (hsecond.emits _)

theorem then_eq {σ : Type} {first second : Stage σ} {s s' : σ} {out : List UiEvent}
    (h : first s = (s', out)) :
    first.then second s = ((second s').1, out ++ (second s').2) := by
  unfold Stage.then
  rw [h]

theorem then_apply {σ : Type} (first : Stage σ) {second : Stage σ} (s : σ) :
    first.then second s = ((second (first s).1).1, (first s).2 ++ (second (first s).1).2) := rfl

theorem bland_msgbox (kind title text : String) : Bland (msgbox kind title text) := ⟨rfl, rfl⟩

theorem bland_factorPrompt (snapshot : ViewerSnapshot) (phaseChanged : Bool) :
    ∀ event ∈ factorPrompt snapshot phaseChanged, Bland event := by
  intro event he
  unfold factorPrompt at he
  split at he
  · obtain rfl := List.mem_singleton.mp he
    exact bland_msgbox ..
  · cases he

theorem bland_errorBox (snapshot : ViewerSnapshot) :
    ∀ event ∈ errorBox snapshot, Bland event := by
  intro event he
  unfold errorBox at he
  split at he
  · obtain rfl := List.mem_singleton.mp he
    exact bland_msgbox ..
  · cases he

/-- At most one event, of its kind. -/
theorem forall_ite {kind : UiEvent → Prop} {c : Prop} [Decidable c] {event : UiEvent}
    (h : kind event) : ∀ said ∈ (if c then [event] else []), kind said := by
  intro said he
  split at he
  · obtain rfl := List.mem_singleton.mp he
    exact h
  · cases he

/-- What a look says: the announcement and then the permissions, on the sample
that opens, and bland events otherwise. -/
inductive Utters (sample : ViewerSnapshot) (between : Nat) : Bool → List UiEvent → Prop
  | opens {ready info : UiEvent} {mid rest : List UiEvent} (hready : Bland ready)
      (hinfo : isPeerInfo info = true) (hother : isPermission info = false)
      (hmid : ∀ event ∈ mid, Bland event) (hlength : mid.length = between)
      (hrest : ∀ event ∈ rest, Bland event) :
      Utters sample between true (ready :: info :: (mid ++ permission sample :: rest))
  | other {said : List UiEvent} (h : ∀ event ∈ said, Bland event) :
      Utters sample between false said

end PermissionEvents

namespace Compat.Flutter

open PermissionEvents

variable {toText : List JsonObject → String} {snapshot : ViewerSnapshot}
  {peer : Option PeerReport}

/-- The latches of `peer_info` and of the permissions. -/
def PumpState.marks (pump : PumpState) : Bool × Bool := (pump.peerInfoSent, pump.permissionSent)

theorem idle_display : Idle Bland PumpState.marks (tellDisplay snapshot) := by
  constructor <;> intro pump <;> unfold tellDisplay <;> split
  · rfl
  · rfl
  · exact List.forall_mem_singleton.mpr ⟨rfl, rfl⟩
  · exact List.forall_mem_nil _

theorem idle_codec : Idle Bland PumpState.marks (tellCodec snapshot) := by
  constructor <;> intro pump <;> unfold tellCodec <;> split
  · rfl
  · rfl
  · exact List.forall_mem_singleton.mpr ⟨rfl, rfl⟩
  · exact List.forall_mem_nil _

theorem idle_prompt : Idle Bland PumpState.marks (prompt snapshot) where
  keeps _ := rfl
  emits _ := forall_append (forall_append (forall_ite (bland_msgbox ..)) (forall_ite (bland_msgbox ..)))
    (bland_factorPrompt snapshot _)

theorem idle_close : Idle Bland PumpState.marks (tellClose snapshot) := by
  constructor <;> intro pump <;> unfold tellClose <;> split
  · rfl
  · rfl
  · refine forall_append (bland_errorBox snapshot) fun event he => ?_
    obtain rfl := List.mem_singleton.mp he
    exact ⟨by decide, by decide⟩
  · exact List.forall_mem_nil _

theorem idle_remember : Idle Bland PumpState.marks (remember snapshot) where
  keeps _ := rfl
  emits _ _ he := absurd he List.not_mem_nil

theorem idle_rest : Idle Bland PumpState.marks
    ((tellDisplay snapshot).then <| (tellCodec snapshot).then <| (prompt snapshot).then <|
      (tellClose snapshot).then (remember snapshot)) :=
  idle_display.then <| idle_codec.then <| idle_prompt.then <| idle_close.then idle_remember

/-- **What one call of `collect` says.** -/
theorem collect_utters {pump : PumpState} {opened : Bool} (hmarks : pump.marks = (opened, opened)) :
    (collect toText snapshot peer pump).1.marks
        = (opened || snapshot.phase == .authenticated, opened || snapshot.phase == .authenticated)
      ∧ Utters snapshot 0 (!opened && snapshot.phase == .authenticated)
          (collect toText snapshot peer pump).2 := by
  obtain ⟨hsent, htold⟩ := Prod.mk.inj hmarks
  by_cases hopens : opened = false ∧ snapshot.phase = .authenticated
  · obtain ⟨rfl, hphase⟩ := hopens
    -- the snapshot that opens the session: both tellings fall due together
    have hannounce : announce toText snapshot peer pump
        = ({ pump with peerInfoSent := true, displaySent := false },
          [connectionReady snapshot, peerInfo peer "" (displaysJson toText peer snapshot)]) :=
      if_pos ⟨hphase, by rw [hsent]; rfl⟩
    have htell : tellPermission snapshot { pump with peerInfoSent := true, displaySent := false }
        = ({ pump with peerInfoSent := true, displaySent := false, permissionSent := true },
          [permission snapshot]) := if_pos ⟨rfl, by rw [htold]; rfl⟩
    rw [collect, then_eq hannounce, then_eq htell]
    refine ⟨?_, ?_⟩
    · rw [idle_rest.keeps, hphase]
      rfl
    · rw [hphase]
      show Utters snapshot 0 true (_ :: _ :: ([] ++ permission snapshot :: _))
      exact .opens ⟨rfl, rfl⟩ rfl rfl (List.forall_mem_nil _) rfl
        (idle_rest.emits _)
  -- told before, or not yet authenticated: both stay silent
  · have hannounce : announce toText snapshot peer pump = (pump, []) := by
      refine if_neg fun h => hopens ⟨?_, h.1⟩
      rw [← hsent]
      exact (Bool.not_eq_true' _).mp h.2
    have htell : tellPermission snapshot pump = (pump, []) := by
      refine if_neg fun h => ?_
      rw [hsent, htold] at h
      cases opened
      · exact absurd h.1 Bool.false_ne_true
      · exact absurd h.2 Bool.false_ne_true
    rw [collect, then_eq hannounce, then_eq htell]
    have hsame : (opened || snapshot.phase == .authenticated) = opened ∧
        (!opened && snapshot.phase == .authenticated) = false := by
      cases opened
      · have : (snapshot.phase == .authenticated) = false := by
          exact beq_eq_false_iff_ne.mpr fun h => hopens ⟨rfl, h⟩
        exact ⟨this, this⟩
      · exact ⟨rfl, rfl⟩
    rw [hsame.1, hsame.2]
    refine ⟨?_, .other (idle_rest.emits _)⟩
    rw [idle_rest.keeps]
    exact hmarks

end Compat.Flutter

namespace Compat.PumpedSession

open PermissionEvents

variable {toText : List JsonObject → String} {snapshot : ViewerSnapshot}
  {peer : Option PeerReport}

/-- The latches of `peer_info` and of the permissions. -/
def marks (session : PumpedSession) : Bool × Bool :=
  (session.peerInfoEmitted, session.permissionEmitted)

theorem idle_codec : Idle Bland marks (tellCodec snapshot) := by
  constructor <;> intro session <;> unfold tellCodec <;> split
  · rfl
  · rfl
  · exact List.forall_mem_singleton.mpr ⟨rfl, rfl⟩
  · exact List.forall_mem_nil _

theorem idle_prompt : Idle Bland marks (prompt snapshot) := by
  constructor <;> intro session <;> unfold prompt <;> dsimp only <;> split
  · rfl
  · rfl
  · refine forall_append (forall_append (forall_ite (bland_msgbox ..)) fun event he => ?_)
      (bland_factorPrompt snapshot _)
    obtain rfl := List.mem_singleton.mp he
    exact bland_msgbox ..
  · exact forall_append (forall_ite (bland_msgbox ..)) (bland_factorPrompt snapshot _)

theorem idle_display : Idle Bland marks (tellDisplay snapshot) := by
  constructor <;> intro session <;> unfold tellDisplay <;> dsimp only <;> split
  · rfl
  · rfl
  · exact List.forall_mem_singleton.mpr ⟨rfl, rfl⟩
  · exact List.forall_mem_nil _

theorem idle_close : Idle Bland marks (tellClose snapshot) := by
  constructor <;> intro session <;> unfold tellClose <;> split
  · rfl
  · rfl
  · refine forall_append (bland_errorBox snapshot) fun event he => ?_
    obtain rfl := List.mem_singleton.mp he
    exact ⟨rfl, rfl⟩
  · exact List.forall_mem_nil _

theorem idle_remember : Idle Bland marks (remember snapshot) where
  keeps _ := rfl
  emits _ _ he := absurd he List.not_mem_nil

theorem idle_rest : Idle Bland marks
    ((tellCodec snapshot).then <| (tellClose snapshot).then (remember snapshot)) :=
  idle_codec.then <| idle_close.then idle_remember

/-- No prompt is due on a sample that opens. -/
theorem prompt_ready {session : PumpedSession}
    (hready : readyForPeerInfo session.protocol snapshot.phase = true) :
    prompt snapshot session = (session, []) := by
  have hphase : snapshot.phase ≠ .awaitingInsecureConfirmation ∧
      snapshot.phase ≠ .awaitingPassword ∧ snapshot.phase ≠ .awaiting2fa ∧
      snapshot.phase ≠ .awaiting2faRetry := by
    refine ⟨?_, ?_, ?_, ?_⟩ <;> intro h <;> rw [h] at hready <;>
      cases hp : session.protocol <;> rw [hp] at hready <;> cases hready
  obtain ⟨h1, h2, h3, h4⟩ := hphase
  unfold prompt factorPrompt
  simp only [h1, h2, h3, h4, false_and, or_self, if_false, List.append_nil]

theorem prompt_protocol (session : PumpedSession) :
    (prompt snapshot session).1.protocol = session.protocol := by
  unfold prompt
  dsimp only
  split <;> rfl

/-- The geometry is told in the turn that opens. -/
theorem display_due {session : PumpedSession} (hemitted : session.peerInfoEmitted = true)
    (hreported : session.displayReported = false) :
    (tellDisplay snapshot session).2 = [switchDisplay session.activeDisplay snapshot] := by
  unfold tellDisplay
  dsimp only
  rw [if_pos ⟨hemitted, Or.inr (by rw [hreported]; rfl)⟩]

/-- The permissions are told once. -/
theorem permission_due {session : PumpedSession} (hmarks : session.marks = (true, false)) :
    (tellPermission snapshot session).1.marks = (true, true) ∧
      (tellPermission snapshot session).2 = [permission snapshot] := by
  obtain ⟨hsent, htold⟩ := Prod.mk.inj hmarks
  unfold tellPermission
  rw [if_pos ⟨hsent, by rw [htold]; rfl⟩]
  exact ⟨congrArg (·, true) hsent, rfl⟩

theorem permission_told {session : PumpedSession} {opened : Bool}
    (hmarks : session.marks = (opened, opened)) :
    tellPermission snapshot session = (session, []) := by
  obtain ⟨hsent, htold⟩ := Prod.mk.inj hmarks
  refine if_neg fun h => ?_
  rw [hsent, htold] at h
  cases opened
  · exact absurd h.1 Bool.false_ne_true
  · exact absurd h.2 Bool.false_ne_true

/-- **What one call of `collect_engine_events` says.** -/
theorem stages_utters {session : PumpedSession} {opened : Bool}
    (hmarks : session.marks = (opened, opened)) :
    (stages toText snapshot peer session).1.marks
        = (opened || readyForPeerInfo session.protocol snapshot.phase,
          opened || readyForPeerInfo session.protocol snapshot.phase)
      ∧ Utters snapshot 1 (!opened && readyForPeerInfo session.protocol snapshot.phase)
          (stages toText snapshot peer session).2 := by
  obtain ⟨hsent, htold⟩ := Prod.mk.inj hmarks
  by_cases hopens : opened = false ∧ readyForPeerInfo session.protocol snapshot.phase = true
  · obtain ⟨rfl, hready⟩ := hopens
    -- the display is told between the announcement and the permission
    obtain ⟨s₁, hannounce, hemitted, hunsent, hreported⟩ : ∃ s₁,
        announce toText snapshot peer session = (s₁, [connectionReady snapshot,
          peerInfo peer session.target (displaysJson toText peer snapshot)]) ∧
        s₁.peerInfoEmitted = true ∧ s₁.permissionEmitted = false ∧ s₁.displayReported = false :=
      ⟨_, if_pos ⟨hready, by rw [hsent]; rfl⟩, rfl, htold, rfl⟩
    have hmid : (tellDisplay snapshot s₁).1.marks = (true, false) := by
      rw [idle_display.keeps, marks, hemitted, hunsent]
    rw [stages, then_eq (prompt_ready hready), then_eq hannounce,
      then_apply (tellDisplay snapshot), then_apply (tellPermission snapshot),
      display_due hemitted hreported, (permission_due hmid).2]
    refine ⟨?_, ?_⟩
    · rw [idle_rest.keeps, (permission_due hmid).1, hready]
      rfl
    · rw [hready]
      show Utters snapshot 1 true (_ :: _ :: ([_] ++ permission snapshot :: _))
      refine .opens ⟨rfl, rfl⟩ rfl rfl (fun event he => ?_) rfl (idle_rest.emits _)
      obtain rfl := List.mem_singleton.mp he
      exact ⟨rfl, rfl⟩
  -- no opening: the stages that stay silent keep the marks
  · have hprompt : (prompt snapshot session).1.marks = (opened, opened) :=
      (idle_prompt.keeps session).trans hmarks
    have hannounce : announce toText snapshot peer (prompt snapshot session).1
        = ((prompt snapshot session).1, []) := by
      refine if_neg fun h => hopens ⟨?_, ?_⟩
      · exact (congrArg Prod.fst hprompt).symm.trans ((Bool.not_eq_true' _).mp h.2)
      · rw [← prompt_protocol session]
        exact h.1
    have hdisplay : (tellDisplay snapshot (prompt snapshot session).1).1.marks = (opened, opened) :=
      (idle_display.keeps _).trans hprompt
    have htell : tellPermission snapshot (tellDisplay snapshot (prompt snapshot session).1).1
        = ((tellDisplay snapshot (prompt snapshot session).1).1, []) := permission_told hdisplay
    rw [stages, then_apply (prompt snapshot), then_eq hannounce,
      then_apply (tellDisplay snapshot), then_eq htell]
    have hsame : (opened || readyForPeerInfo session.protocol snapshot.phase) = opened ∧
        (!opened && readyForPeerInfo session.protocol snapshot.phase) = false := by
      cases opened
      · have : readyForPeerInfo session.protocol snapshot.phase = false :=
          (Bool.not_eq_true _).mp fun h => hopens ⟨rfl, h⟩
        exact ⟨this, this⟩
      · exact ⟨rfl, rfl⟩
    rw [hsame.1, hsame.2]
    refine ⟨?_, .other ?_⟩
    · rw [idle_rest.keeps, idle_display.keeps]
      exact hprompt
    · have hnothing : ∀ event ∈ ([] : List UiEvent), Bland event :=
        fun _ he => absurd he List.not_mem_nil
      exact forall_append (idle_prompt.emits _) <| forall_append hnothing <|
        forall_append (idle_display.emits _) <| forall_append hnothing (idle_rest.emits _)

end Compat.PumpedSession

namespace PermissionEvents

open Compat Lts Latches
open Viewer (Phase)

/-! ### All that was said -/

/-- The events of a pump that has opened on `first`: `pre`, then `peer_info`, and
the permissions of `first` behind it. -/
inductive Account (first : ViewerSnapshot) (between : Nat) (pre : List UiEvent) :
    List UiEvent → Prop
  | intro {info : UiEvent} {mid rest : List UiEvent} (hpre : ∀ event ∈ pre, Bland event)
      (hinfo : isPeerInfo info = true) (hother : isPermission info = false)
      (hmid : ∀ event ∈ mid, Bland event) (hlength : mid.length = between)
      (hrest : ∀ event ∈ rest, Bland event) :
      Account first between pre (pre ++ info :: (mid ++ permission first :: rest))

namespace Account

variable {first : ViewerSnapshot} {between : Nat} {pre events : List UiEvent}

theorem append {said : List UiEvent} (h : Account first between pre events)
    (hsaid : ∀ event ∈ said, Bland event) : Account first between pre (events ++ said) := by
  obtain ⟨hpre, hinfo, hother, hmid, hlength, hrest⟩ := h
  simp only [List.append_assoc, List.cons_append]
  exact ⟨hpre, hinfo, hother, hmid, hlength, forall_append hrest hsaid⟩

theorem length_lt (h : Account first between pre events) :
    pre.length + (between + 1) < events.length := by
  obtain ⟨-, -, -, -, rfl, -⟩ := h
  simp only [List.length_append, List.length_cons]
  omega

/-- The first `n` events have `peer_info` exactly if they go beyond `pre`. -/
theorem any_take (h : Account first between pre events) (n : Nat) :
    (events.take n).any isPeerInfo = true ↔ pre.length < n := by
  obtain ⟨hpre, hinfo, -, hmid, -, hrest⟩ := h
  refine any_take_alone (filter_bland hpre).1 ?_ hinfo n
  rw [List.filter_append, (filter_bland hmid).1]
  exact (filter_bland hrest).1

theorem filter_take (h : Account first between pre events) (n : Nat) :
    (events.take n).filter isPermission
      = if pre.length + (between + 1) < n then [permission first] else [] := by
  obtain @⟨info, mid, rest, hpre, -, hother, hmid, rfl, hrest⟩ := h
  have hbefore : (pre ++ info :: mid).filter isPermission = [] := by
    rw [List.filter_append, (filter_bland hpre).2, List.nil_append,
      List.filter_cons_of_neg (ne_true_of_eq_false hother), (filter_bland hmid).2]
  have htake := filter_take_alone hbefore (filter_bland hrest).2
    (show isPermission (permission first) = true from rfl) n
  rw [List.append_assoc, List.cons_append, List.length_append, List.length_cons] at htake
  exact htake

theorem idxOf (h : Account first between pre events) (said : List String) :
    (names events ++ said).idxOf "peer_info" = pre.length := by
  obtain @⟨info, mid, rest, hpre, hinfo, -, -, -, -⟩ := h
  have hname : info.name = "peer_info" := eq_of_beq hinfo
  have hnone : "peer_info" ∉ names pre := by
    intro hmem
    obtain ⟨event, he, heq⟩ := List.mem_map.mp hmem
    exact absurd (beq_iff_eq.mpr heq) (ne_true_of_eq_false (hpre event he).1)
  have hlength : (names pre).length = pre.length := List.length_map _
  rw [names_append, List.append_assoc, List.idxOf_append_of_notMem hnone, hlength]
  show pre.length + (info.name :: _).idxOf "peer_info" = _
  rw [hname, List.idxOf_cons_self]
  rfl

end Account

theorem Utters.account {sample : ViewerSnapshot} {between : Nat} {events said : List UiEvent}
    (hevents : ∀ event ∈ events, Bland event) (h : Utters sample between true said) :
    ∃ ready, Account sample between (events ++ [ready]) (events ++ said) := by
  generalize hopens : true = opens at h
  cases h with
  | other => cases hopens
  | @opens ready info mid rest hready hinfo hother hmid hlength hrest =>
    refine ⟨ready, ?_⟩
    have hpre : ∀ event ∈ events ++ [ready], Bland event :=
      forall_append hevents fun event he => List.mem_singleton.mp he ▸ hready
    have h := @Account.intro sample _ _ _ _ _ hpre hinfo hother hmid hlength hrest
    rwa [List.append_assoc, List.singleton_append] at h

/-! ### One look -/

/-- The latches of a pump. -/
def marks : Pump → Bool × Bool
  | .flutter pump => pump.marks
  | .ohos session => session.marks

/-- What a look emits, handed over or not. -/
def said (toText : List JsonObject → String) (snapshot : ViewerSnapshot)
    (peer : Option PeerReport) : Pump → List UiEvent
  | .flutter pump => (Flutter.collect toText snapshot peer pump).2
  | .ohos session => (session.stages toText snapshot peer).2

variable {toText : List JsonObject → String}

variable (toText) in
theorem look_utters (snapshot : ViewerSnapshot) (peer : Option PeerReport) {pump : Pump}
    {opened : Bool} (limit : UInt32) (hmarks : marks pump = (opened, opened)) :
    marks (look toText snapshot peer limit pump).1
        = (opened || pump.opensOn snapshot.phase, opened || pump.opensOn snapshot.phase)
      ∧ Utters snapshot (between pump) (!opened && pump.opensOn snapshot.phase)
          (said toText snapshot peer pump) := by
  cases pump with
  | flutter pump => exact Flutter.collect_utters hmarks
  | ohos session => exact PumpedSession.stages_utters hmarks

/-- The kind of a pump: the phases on which it opens, and how it opens. -/
def kind (pump : Pump) : (Phase → Bool) × Nat := (pump.opensOn, between pump)

variable (toText) in
theorem look_kind (snapshot : ViewerSnapshot) (peer : Option PeerReport) (limit : UInt32)
    (pump : Pump) : kind (look toText snapshot peer limit pump).1 = kind pump := by
  cases pump with
  | flutter pump => rfl
  | ohos session =>
    have hprotocol := congrArg Prod.fst (PumpedSession.stages_kept toText snapshot peer session)
    show (PumpedSession.readyForPeerInfo (session.stages toText snapshot peer).1.protocol, 1) = _
    rw [show (session.stages toText snapshot peer).1.protocol = session.protocol from hprotocol]
    rfl

namespace Watch

theorem emitted_look (s : Watch) (limit : UInt32) :
    (s.look toText limit).emitted
      = s.emitted ++ said toText s.engine.snapshot s.peer s.pump := by
  obtain ⟨engine, peer, pump, samples, handed⟩ := s
  cases pump with
  | flutter pump => simp only [emitted, look, PermissionEvents.look, Pump.pending,
      List.append_nil, said]
  | ohos session =>
    have hpending := congrArg Prod.snd
      (PumpedSession.stages_kept toText engine.snapshot peer session)
    simp only [PumpedSession.kept] at hpending
    simp only [emitted, look, PermissionEvents.look, Pump.pending, said, PumpedSession.pollEvents,
      PumpedSession.collectEngineEvents, hpending, List.append_assoc, List.take_append_drop]

/-- What was handed over is a beginning of what was emitted. -/
theorem handed_eq_take (s : Watch) : s.handed = s.emitted.take s.handed.length := by
  rw [emitted, List.take_left]

theorem reaches_iff (s : Watch) (limit : UInt32) {place : Nat}
    (hplace : place < (s.look toText limit).emitted.length) :
    place < (s.look toText limit).handed.length ↔ s.Reaches limit place := by
  rw [emitted_look] at hplace
  obtain ⟨engine, peer, pump, samples, handed⟩ := s
  cases pump with
  | flutter pump =>
    simp only [emitted, Pump.pending, List.append_nil] at hplace
    exact ⟨fun _ => .inr trivial, fun _ => hplace⟩
  | ohos session =>
    have hpending := congrArg Prod.snd
      (PumpedSession.stages_kept toText engine.snapshot peer session)
    simp only [PumpedSession.kept] at hpending
    simp only [emitted, Pump.pending, said, List.length_append] at hplace
    simp only [look, PermissionEvents.look, PumpedSession.pollEvents,
      PumpedSession.collectEngineEvents, hpending, Reaches, handsOver, List.length_append,
      List.length_take]
    omega

/-! ### A run -/

/-- What was said, by the samples. -/
inductive Told (s : Watch) : Prop
  | waits (hmarks : marks s.pump = (false, false))
      (hnone : s.samples.find? (fun a => s.pump.opensOn a.phase) = none)
      (hbland : ∀ event ∈ s.emitted, Bland event)
  | opened {first : ViewerSnapshot} {pre : List UiEvent} (hmarks : marks s.pump = (true, true))
      (hfirst : s.samples.find? (fun a => s.pump.opensOn a.phase) = some first)
      (haccount : Account first (between s.pump) pre s.emitted)

/-- Before it has opened, a pump is about to say `peer_info` as the next event but
one. -/
theorem position_bland {s : Watch} (hbland : ∀ event ∈ s.emitted, Bland event) :
    s.position = s.emitted.length + 1 := by
  have hnone : "peer_info" ∉ names s.emitted := by
    intro hmem
    obtain ⟨event, he, heq⟩ := List.mem_map.mp hmem
    exact absurd (beq_iff_eq.mpr heq) (ne_true_of_eq_false (hbland event he).1)
  have hlength : (names s.emitted).length = s.emitted.length := List.length_map _
  rw [position, List.idxOf_append_of_notMem hnone, hlength]
  rfl

variable (toText) in
/-- What a look leads to: it has not opened, or the account of the sample that
opened stands. -/
theorem Told.look_cases {s : Watch} (hs : Told s) (limit : UInt32) :
    (marks (s.look toText limit).pump = (false, false) ∧
      (s.samples ++ [s.engine.snapshot]).find? (fun a => s.pump.opensOn a.phase) = none ∧
      ∀ event ∈ (s.look toText limit).emitted, Bland event) ∨
    ∃ first pre, marks (s.look toText limit).pump = (true, true) ∧
      (s.samples ++ [s.engine.snapshot]).find? (fun a => s.pump.opensOn a.phase) = some first ∧
      Account first (between s.pump) pre (s.look toText limit).emitted ∧
      pre.length = s.position := by
  rw [List.find?_append, emitted_look]
  cases hs with
  | waits hmarks hnone hbland =>
    obtain ⟨hmarks', hutters⟩ := look_utters toText s.engine.snapshot s.peer limit hmarks
    rw [hnone]
    cases hopens : s.pump.opensOn s.engine.snapshot.phase with
    | false =>
      rw [hopens] at hmarks' hutters
      refine .inl ⟨hmarks', by simp [hopens], forall_append hbland ?_⟩
      generalize said toText s.engine.snapshot s.peer s.pump = events at hutters
      cases hutters with
      | other h => exact h
    | true =>
      rw [hopens] at hmarks' hutters
      obtain ⟨ready, haccount⟩ := hutters.account hbland
      refine .inr ⟨s.engine.snapshot, s.emitted ++ [ready], hmarks', by simp [hopens],
        haccount, ?_⟩
      rw [position_bland hbland, List.length_append]
      rfl
  | @opened first pre hmarks hfirst haccount =>
    obtain ⟨hmarks', hutters⟩ := look_utters toText s.engine.snapshot s.peer limit hmarks
    rw [hfirst]
    refine .inr ⟨first, pre, hmarks', rfl, ?_, (haccount.idxOf _).symm⟩
    generalize said toText s.engine.snapshot s.peer s.pump = events at hutters
    cases hutters with
    | other h => exact haccount.append h

theorem Told.look {s : Watch} (hs : Told s) (limit : UInt32) : Told (s.look toText limit) := by
  obtain ⟨hopensOn, hbetween⟩ :=
    Prod.mk.inj (look_kind toText s.engine.snapshot s.peer limit s.pump)
  have hfind : (s.look toText limit).samples.find?
      (fun a => (s.look toText limit).pump.opensOn a.phase)
      = (s.samples ++ [s.engine.snapshot]).find? (fun a => s.pump.opensOn a.phase) :=
    congrArg (fun f : Phase → Bool => List.find? (fun a : ViewerSnapshot => f a.phase)
      (s.samples ++ [s.engine.snapshot])) hopensOn
  rcases hs.look_cases toText limit with ⟨hmarks, hnone, hbland⟩ |
    ⟨first, pre, hmarks, hfirst, haccount, -⟩
  · exact .waits hmarks (hfind.trans hnone) hbland
  · rw [show between s.pump = between (s.look toText limit).pump from hbetween.symm] at haccount
    exact .opened hmarks (hfind.trans hfirst) haccount

theorem Told.start {pump : Pump} (hfresh : pump.Fresh) (engine : Engine) :
    Told { engine, pump } := by
  cases hfresh with
  | flutter => exact .waits rfl rfl fun _ he => absurd he List.not_mem_nil
  | ohos => exact .waits rfl rfl fun _ he => absurd he List.not_mem_nil

theorem Told.step {s s' : Watch} {l : Label} (hs : Told s) (h : Step toText s l s') : Told s' := by
  cases h with
  | move =>
    cases hs with
    | waits hmarks hnone hbland => exact .waits hmarks hnone hbland
    | opened hmarks hfirst haccount => exact .opened hmarks hfirst haccount
  | look limit => exact hs.look limit
  | login =>
    obtain ⟨engine, peer, pump, samples, handed⟩ := s
    cases pump with
    | flutter => exact hs
    | ohos =>
      cases hs with
      | waits hmarks hnone hbland => exact .waits hmarks hnone hbland
      | opened hmarks hfirst haccount => exact .opened hmarks hfirst haccount

/-- Events that tell the permissions are the same exactly if the permissions are. -/
theorem permission_eq_iff (snapshot snapshot' : ViewerSnapshot) :
    permission snapshot = permission snapshot' ↔ allowed snapshot = allowed snapshot' := by
  have htext : ∀ b c : Bool, toString b = toString c ↔ b = c := by decide
  simp only [permission, allowed, UiEvent.envelope.injEq, List.cons.injEq, Prod.mk.injEq, htext,
    true_and, and_true]

/-- **After every run, a look leaves the user interface with the permissions that
hold exactly if they are those of the sample that opened, and the look does not
stop between `peer_info` and the permission event.** -/
theorem permission_current {engine : Engine} {pump : Pump} {s : Watch} {ls : List Label}
    (hfresh : pump.Fresh) (hrun : Run (Step toText) { engine, pump } ls s) (limit : UInt32) :
    Current (s.look toText limit) ↔ s.Meets limit := by
  have htold : Told s := hrun.invariant (fun _ _ _ hs h => Told.step hs h) (.start hfresh engine)
  rcases htold.look_cases toText limit with ⟨-, hnone, hbland⟩ |
    ⟨first, pre, -, hfirst, haccount, hplace⟩
  · refine iff_of_true (fun hany => ?_) fun first hfirst => ?_
    · obtain ⟨event, he, hinfo⟩ := List.any_eq_true.mp hany
      have hemitted : event ∈ (s.look toText limit).emitted := List.mem_append_left _ he
      exact absurd hinfo (ne_true_of_eq_false (hbland event hemitted).1)
    · cases hnone.symm.trans hfirst
  · have hlength := haccount.length_lt
    have hinfo : pre.length < (s.look toText limit).handed.length ↔
        s.Reaches limit s.position := by
      rw [← hplace]
      exact s.reaches_iff limit (by omega)
    have hpermission : pre.length + (between s.pump + 1) < (s.look toText limit).handed.length ↔
        s.Reaches limit (s.position + between s.pump + 1) := by
      rw [← hplace]
      exact s.reaches_iff limit (by omega)
    unfold Current Meets
    rw [handed_eq_take, haccount.any_take, haccount.filter_take, hfirst, hinfo]
    constructor
    · intro hcurrent found hfound hreaches
      obtain rfl := Option.some.inj hfound
      have hlast := hcurrent hreaches
      split at hlast
      · rename_i hbehind
        exact ⟨hpermission.mp hbehind, (permission_eq_iff ..).mp (Option.some.inj hlast)⟩
      · cases hlast
    · intro hmeets hreaches
      obtain ⟨hbehind, hallowed⟩ := hmeets first rfl hreaches
      rw [if_pos (hpermission.mpr hbehind)]
      exact congrArg some ((permission_eq_iff ..).mpr hallowed)

/-- An engine that has just started, and a pump that has not looked. -/
def started (pump : Pump) : Watch where
  engine := .rustDesk { localClipboard := true } { phase := .capability }
  pump := pump

/-- Authenticated, with all that can be allowed. -/
def allowing : Engine :=
  .rustDesk (Grants.authenticate { localClipboard := true } ⟨none, true, true⟩)
    { phase := .authenticated }

theorem authenticates (pump : Pump) :
    Run (Step toText) (started pump) [.moves, .moves]
      { started pump with engine := allowing } :=
  .cons (.move none (.authenticate _ _ _)) <| .single (.move none (.shows _ _ _))

/-- The look that opens, of both pumps. -/
theorem permission_current_opening :
    Current (look (fun _ => "") { started (.flutter {}) with engine := allowing } 0)
      ∧ Current (look (fun _ => "")
        { started (.ohos (.new System.peerSession)) with engine := allowing } 256) := by
  refine ⟨(permission_current .flutter (authenticates _) 0).mpr fun first hfirst _ => ?_,
    (permission_current (.ohos _) (authenticates _) 256).mpr fun first hfirst _ => ?_⟩
  · obtain rfl := Option.some.inj hfirst
    exact ⟨.inr trivial, rfl⟩
  · obtain rfl := Option.some.inj hfirst
    exact ⟨.inr (show 3 < min (256 : UInt32).toNat 256 by decide), rfl⟩

/-- The peer has withdrawn the keyboard. -/
def withdrawing : Engine :=
  .rustDesk
    ((Grants.authenticate { localClipboard := true } ⟨none, true, true⟩).receive
      { permission := .known .keyboard, enabled := false })
    { phase := .authenticated }

/-- The peer withdraws the keyboard after the look that opened: the next look of
either pump leaves the user interface with the old permission. -/
theorem withdrawn_not_told :
    (∃ s ls, Run (Step fun _ => "") (started (.flutter {})) ls s
        ∧ ¬ Current (s.look (fun _ => "") 0))
      ∧ ∃ s ls, Run (Step fun _ => "") (started (.ohos (.new System.peerSession))) ls s
        ∧ ¬ Current (s.look (fun _ => "") 256) := by
  have hwithdraws : ∀ s : Watch, s.engine = allowing →
      Step (fun _ => "") s .moves { s with engine := withdrawing } := by
    rintro ⟨engine, peer, pump, samples, handed⟩ rfl
    exact .move _ (.receive _ _ _)
  have hstale : ∀ s : Watch, s.engine = withdrawing → s.handed.any isPeerInfo = true →
      (s.handed.filter isPermission).getLast? = some (permission allowing.snapshot) →
      ¬ Current s := by
    intro s hengine hany hlast hcurrent
    have hsame := Option.some.inj (hlast.symm.trans (hcurrent hany))
    rw [hengine, permission_eq_iff] at hsame
    exact absurd (congrArg Prod.fst hsame) (by decide)
  refine ⟨⟨_, _, ((authenticates _).snoc (.look _ 0)).snoc (hwithdraws _ rfl), ?_⟩,
    _, _, ((authenticates _).snoc (.look _ 256)).snoc (hwithdraws _ rfl), ?_⟩
  · exact hstale _ rfl rfl rfl
  · exact hstale _ rfl rfl rfl

end Watch

end PermissionEvents

end RdEngine
