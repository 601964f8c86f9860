/-
RdEngine/Compat/PasswordPrompts.lean

The password prompts of both pumps, beside a viewer that authenticates.

The engine waits for a password anew each time the peer has called one wrong.  A
pump sees the phase only: which of these entries it observes, and whether the
rejection was about a password at all, are history variables.  A look prompts
as it should exactly if it can tell the entry from what it remembers
(`prompts_matched`).
-/
import RdEngine.Compat.PermissionEvents
import RdEngine.Viewer.Credentials

namespace RdEngine

namespace PasswordPrompts

open Compat Lts
open Viewer

/-! ### Entries of the phase -/

variable (env : Fixtures) (toText : List JsonObject → String)

/-- The peer calls the password wrong. -/
def rejects (attempt : Attempt) (arrives : Attempt.Arrives) : Bool :=
  match (attempt.received env arrives).result with
  | some (.ok (.loginError error)) => error = "Wrong Password"
  | _ => false

/-- Whether a login request that went out carried a password. -/
def presented : WireRecord → Option Bool
  | .sent ⟨some (.loginRequest request)⟩ => some !request.password.isEmpty
  | _ => none

/-- The same of the last one, if any went out. -/
def lastPresented (before : Bool) (records : List WireRecord) : Bool :=
  ((records.filterMap presented).getLast?).getD before

/-- An attempt beside a pump.  All but these two are history variables: how many
rejections the engine has heard, whether its last login request carried a
password, whether the last rejection answered such a request, and the rejection
after which a look last found the engine waiting. -/
structure Watch where
  attempt : Attempt
  pump : Pump
  entry : Nat := 0
  presented : Bool := false
  refused : Bool := false
  observed : Option Nat := none

namespace Watch

/-- What a look samples; the rest of the snapshot is arbitrary. -/
def snapshot (s : Watch) (rest : ViewerSnapshot) : ViewerSnapshot :=
  { rest with phase := s.attempt.phase }

/-- The engine awaits a password. -/
def awaits (s : Watch) : Bool := s.attempt.phase == .awaitingPassword

/-- A look of the pump at the snapshot of the attempt. -/
def look (s : Watch) (rest : ViewerSnapshot) (peer : Option PeerReport) (limit : UInt32) : Watch :=
  { s with
    pump := (PermissionEvents.look toText (s.snapshot rest) peer limit s.pump).1
    observed := if s.awaits then some s.entry else s.observed }

/-- `session_login`; in the Flutter bridge the pump does not learn of it. -/
def submit (s : Watch) (password : String) : Watch :=
  let (attempt, result) := s.attempt.call (.submitPassword password)
  { s with
    attempt
    pump := match result with
      | .ok () => PermissionEvents.loggedIn s.pump
      | .error _ => s.pump }

/-- A turn of the loop that takes a record from the peer. -/
def hear (s : Watch) (request : Option LoginRequest) (awaiting : Awaiting)
    (arrives : Attempt.Arrives) : Watch :=
  let turn := s.attempt.onNetwork env request awaiting arrives
  { s with
    attempt := turn.attempt
    entry := if rejects env s.attempt arrives then s.entry + 1 else s.entry
    presented := lastPresented s.presented turn.records
    refused := if rejects env s.attempt arrives then s.presented else s.refused }

/-- What happens between the viewer, its peer and the pump. -/
inductive Label where
  | submits
  | calls
  | turns
  | hears
  | shows
  | looks

/-- Other tasks, and what comes before and after the login, show other phases. -/
inductive Step : Watch → Label → Watch → Prop
  | submit (s : Watch) (password : String) : Step s .submits (s.submit password)
  | call (s : Watch) (call : UserCall) (hcall : ∀ password, call ≠ .submitPassword password) :
      Step s .calls { s with attempt := (s.attempt.call call).1 }
  | turn {s : Watch} {l : Attempt.Label} {attempt : Attempt}
      (hturn : Attempt.Step env s.attempt l attempt) (hown : l.isNetwork = false)
      (hcall : ∀ call result, l ≠ .calls call result) :
      Step s .turns
        { s with attempt, presented := lastPresented s.presented l.records }
  | hear {s : Watch} {request : Option LoginRequest} {awaiting : Awaiting} (arrives : Attempt.Arrives)
      (hstage : s.attempt.stage = .looping request awaiting) :
      Step s .hears (s.hear env request awaiting arrives)
  | shows (s : Watch) {phase : Phase} (hphase : phase ≠ .awaitingPassword) :
      Step s .shows { s with attempt := { s.attempt with phase } }
  | look (s : Watch) (rest : ViewerSnapshot) (peer : Option PeerReport) (limit : UInt32) :
      Step s .looks (s.look toText rest peer limit)

end Watch

/-! ### Prompts that match -/

/-- The prompt for a password, of either pump. -/
def isPrompt : UiEvent → Bool
  | .envelope fields =>
    fields.lookup "type" == some "input-password" || fields.lookup "type" == some "re-input-password"
  | .text _ => false

/-- A prompt that reports a wrong password. -/
def reportsWrong : UiEvent → Bool
  | .envelope fields => fields.lookup "text" == some "Wrong Password"
  | .text _ => false

namespace Watch

/-- The prompts that a look emits. -/
def prompts (s : Watch) (rest : ViewerSnapshot) (peer : Option PeerReport) : List UiEvent :=
  (PermissionEvents.said toText (s.snapshot rest) peer s.pump).filter isPrompt

/-- A look would find the engine waiting, after a rejection after which none has. -/
def due (s : Watch) : Bool := s.awaits && s.observed != some s.entry

/-- One prompt at the first look that observes an entry, and no other; a wrong
password is reported only where the engine has heard that a password is wrong. -/
structure Matched (s : Watch) (prompts : List UiEvent) : Prop where
  count : prompts.length = if s.due then 1 else 0
  truthful : ∀ prompt ∈ prompts, reportsWrong prompt = true → s.refused = true

/-- What the pump has to remember.  The Flutter pump: at the first look at an
entry, that its last look has found another phase.  That of the session API: at
the first look that either this is so, or a password was accepted since its last
prompt; that a password was called wrong, if one was supplied or accepted; and
at further looks that none was accepted since its last prompt. -/
def Meets (s : Watch) : Prop :=
  match s.pump with
  | .flutter pump => s.due = true → pump.lastPhase ≠ some .awaitingPassword
  | .ohos session =>
    (s.due = true →
      (session.lastEnginePhase ≠ some .awaitingPassword ∨
        session.promptedLoginAttempts ≠ session.loginAttempts) ∧
      ((session.initialPasswordSupplied = true ∨ session.loginAttempts > 0) → s.refused = true)) ∧
    (s.awaits = true → s.due = false → session.promptedLoginAttempts = session.loginAttempts)

end Watch

end PasswordPrompts

/-! ### What a look prompts -/

namespace Compat

open PermissionEvents PasswordPrompts
open Viewer (Phase)

variable {toText : List JsonObject → String} {snapshot : ViewerSnapshot}
  {peer : Option PeerReport}

/-- Not a prompt. -/
def Promptless (event : UiEvent) : Prop := isPrompt event = false

theorem filter_promptless {events : List UiEvent} (h : ∀ event ∈ events, Promptless event) :
    events.filter isPrompt = [] :=
  List.filter_eq_nil_iff.mpr fun event he => ne_true_of_eq_false (h event he)

theorem promptless_factorPrompt (snapshot : ViewerSnapshot) (phaseChanged : Bool) :
    ∀ event ∈ factorPrompt snapshot phaseChanged, Promptless event := by
  intro event he
  unfold factorPrompt at he
  split at he
  · obtain rfl := List.mem_singleton.mp he
    rfl
  · cases he

theorem promptless_errorBox (snapshot : ViewerSnapshot) :
    ∀ event ∈ errorBox snapshot, Promptless event := by
  intro event he
  unfold errorBox at he
  split at he
  · obtain rfl := List.mem_singleton.mp he
    rfl
  · cases he

/-- Stages that do not prompt, before one that does. -/
theorem prompts_after {σ α : Type} {f : σ → α} {first second : Stage σ}
    {prompts : α → List UiEvent} (hfirst : Idle Promptless f first)
    (hsecond : ∀ s, (second s).2.filter isPrompt = prompts (f s)) (s : σ) :
    (first.then second s).2.filter isPrompt = prompts (f s) := by
  rw [then_apply, List.filter_append, filter_promptless (hfirst.emits s), List.nil_append,
    hsecond, hfirst.keeps]

namespace Flutter

theorem quietly_announce : Idle Promptless PumpState.lastPhase (announce toText snapshot peer) := by
  constructor <;> intro pump <;> unfold announce <;> split
  · rfl
  · rfl
  · intro event he
    rcases List.mem_cons.mp he with rfl | he
    · rfl
    · obtain rfl := List.mem_singleton.mp he
      rfl
  · exact List.forall_mem_nil _

theorem quietly_permission : Idle Promptless PumpState.lastPhase (tellPermission snapshot) := by
  constructor <;> intro pump <;> unfold tellPermission <;> split
  · rfl
  · rfl
  · exact List.forall_mem_singleton.mpr rfl
  · exact List.forall_mem_nil _

theorem quietly_display : Idle Promptless PumpState.lastPhase (tellDisplay snapshot) := by
  constructor <;> intro pump <;> unfold tellDisplay <;> split
  · rfl
  · rfl
  · exact List.forall_mem_singleton.mpr rfl
  · exact List.forall_mem_nil _

theorem quietly_codec : Idle Promptless PumpState.lastPhase (tellCodec snapshot) := by
  constructor <;> intro pump <;> unfold tellCodec <;> split
  · rfl
  · rfl
  · exact List.forall_mem_singleton.mpr rfl
  · exact List.forall_mem_nil _

theorem promptless_close (pump : PumpState) :
    ∀ event ∈ ((tellClose snapshot).then (remember snapshot) pump).2, Promptless event := by
  have hclose : ∀ event ∈ (tellClose snapshot pump).2, Promptless event := by
    unfold tellClose
    split
    · refine forall_append (promptless_errorBox snapshot) fun event he => ?_
      obtain rfl := List.mem_singleton.mp he
      rfl
    · exact List.forall_mem_nil _
  exact forall_append hclose fun _ he => absurd he List.not_mem_nil

/-- The prompt that is due after this phase. -/
def promptAfter (snapshot : ViewerSnapshot) (lastPhase : Option Phase) : List UiEvent :=
  if snapshot.phase = .awaitingPassword ∧ lastPhase ≠ some snapshot.phase then
    [msgbox "input-password" "Password Required" "Password Required"]
  else []

/-- **`collect` prompts when the phase has become the one that awaits a password.** -/
theorem collect_prompts (pump : PumpState) :
    (collect toText snapshot peer pump).2.filter isPrompt
      = promptAfter snapshot pump.lastPhase := by
  refine prompts_after quietly_announce (prompts_after quietly_permission (prompts_after
    quietly_display (prompts_after quietly_codec fun p => ?_))) pump
  have hinsecure : ∀ event ∈ (if p.lastPhase ≠ some snapshot.phase ∧
      snapshot.phase = .awaitingInsecureConfirmation then [insecureConnection] else []),
      Promptless event := forall_ite rfl
  rw [then_apply, List.filter_append, filter_promptless (promptless_close _), List.append_nil]
  unfold prompt promptAfter
  simp only [List.filter_append]
  rw [filter_promptless hinsecure, filter_promptless (promptless_factorPrompt _ _),
    List.append_nil, List.nil_append]
  split <;> rfl

end Flutter

namespace PumpedSession

theorem promptless_announce (session : PumpedSession) :
    ∀ event ∈ (announce toText snapshot peer session).2, Promptless event := by
  unfold announce
  split
  · intro event he
    rcases List.mem_cons.mp he with rfl | he
    · rfl
    · obtain rfl := List.mem_singleton.mp he
      rfl
  · exact List.forall_mem_nil _

theorem promptless_display (session : PumpedSession) :
    ∀ event ∈ (tellDisplay snapshot session).2, Promptless event := by
  unfold tellDisplay
  dsimp only
  split
  · exact List.forall_mem_singleton.mpr rfl
  · exact List.forall_mem_nil _

theorem promptless_permission (session : PumpedSession) :
    ∀ event ∈ (tellPermission snapshot session).2, Promptless event := by
  unfold tellPermission
  split
  · exact List.forall_mem_singleton.mpr rfl
  · exact List.forall_mem_nil _

theorem promptless_codec (session : PumpedSession) :
    ∀ event ∈ (tellCodec snapshot session).2, Promptless event := by
  unfold tellCodec
  split
  · exact List.forall_mem_singleton.mpr rfl
  · exact List.forall_mem_nil _

theorem promptless_close (session : PumpedSession) :
    ∀ event ∈ (tellClose snapshot session).2, Promptless event := by
  unfold tellClose
  split
  · refine forall_append (promptless_errorBox snapshot) fun event he => ?_
    obtain rfl := List.mem_singleton.mp he
    rfl
  · exact List.forall_mem_nil _

/-- A wrong password is reported once one was supplied or accepted. -/
def isRetry (session : PumpedSession) : Bool :=
  session.initialPasswordSupplied || session.loginAttempts > 0

/-- The prompt that is due. -/
def promptDue (snapshot : ViewerSnapshot) (session : PumpedSession) : List UiEvent :=
  if snapshot.phase = .awaitingPassword ∧
      (session.lastEnginePhase ≠ some snapshot.phase ∨
        session.promptedLoginAttempts ≠ session.loginAttempts) then
    [msgbox (if session.isRetry then "re-input-password" else "input-password")
      "Password Required" (if session.isRetry then "Wrong Password" else "Password Required")]
  else []

theorem prompt_prompts (session : PumpedSession) :
    (prompt snapshot session).2.filter isPrompt = promptDue snapshot session := by
  have hinsecure : ∀ event ∈ (if snapshot.phase = .awaitingInsecureConfirmation ∧
      session.lastEnginePhase ≠ some snapshot.phase then [insecureConnection] else []),
      Promptless event := forall_ite rfl
  unfold prompt promptDue isRetry
  dsimp only
  split
  · rw [List.filter_append, List.filter_append, filter_promptless hinsecure,
      filter_promptless (promptless_factorPrompt _ _), List.append_nil, List.nil_append]
    refine List.filter_eq_self.mpr fun event he => ?_
    obtain rfl := List.mem_singleton.mp he
    split <;> rfl
  · rw [List.filter_append, filter_promptless hinsecure,
      filter_promptless (promptless_factorPrompt _ _), List.append_nil]

/-- **`collect_engine_events` prompts when the phase has become the one that awaits a
password, and when a password was accepted since.** -/
theorem stages_prompts (session : PumpedSession) :
    (stages toText snapshot peer session).2.filter isPrompt = promptDue snapshot session := by
  rw [stages, then_apply, List.filter_append, prompt_prompts]
  refine (congrArg (promptDue snapshot session ++ ·) (filter_promptless ?_)).trans
    (List.append_nil _)
  exact forall_append (promptless_announce _) <| forall_append (promptless_display _) <|
    forall_append (promptless_permission _) <| forall_append (promptless_codec _) <|
      forall_append (promptless_close _) fun _ he => absurd he List.not_mem_nil

end PumpedSession

end Compat

namespace PasswordPrompts

open Compat Lts
open Viewer

variable {env : Fixtures} {toText : List JsonObject → String}

/-! ### How the phase is entered -/

/-- A change of an attempt that does not begin to await a password. -/
def NotEntered (a a' : Attempt) : Prop := a'.phase = .awaitingPassword → a.phase = .awaitingPassword

theorem notEntered_of_eq {a a' : Attempt} (h : a'.phase = a.phase) : NotEntered a a' :=
  fun hphase => h.symm.trans hphase

theorem notEntered_afterSend (a b : Attempt) (turn : ViewerTurn Unit) (stage : Stage) {phase : Phase}
    (hsame : a.phase = b.phase) (hphase : phase = .awaitingPassword → b.phase = .awaitingPassword) :
    NotEntered b (a.afterSend turn stage phase).attempt := by
  unfold Attempt.afterSend
  dsimp only
  split
  · exact notEntered_of_eq hsame
  · exact notEntered_of_eq hsame
  · exact hphase

theorem notEntered_call (a : Attempt) (call : UserCall) : NotEntered a (a.call call).1 := by
  unfold Attempt.call
  split
  · exact notEntered_of_eq rfl
  · unfold Attempt.trySend
    split
    · exact notEntered_of_eq rfl
    · split <;> exact notEntered_of_eq rfl

theorem notEntered_confirm {a b : Attempt} (hsame : a.phase = b.phase) (command : AuthCommand) :
    NotEntered b (a.confirm command) := by
  match command with
  | .continueInsecure true => exact Phase.noConfusion
  | .continueInsecure false => exact notEntered_of_eq hsame
  | .password _ | .secondFactor _ => exact notEntered_of_eq hsame

theorem notEntered_command {a b : Attempt} (hsame : a.phase = b.phase)
    (request : Option LoginRequest) (awaiting : Awaiting) (command : AuthCommand)
    (sending : Sending) :
    NotEntered b (a.onCommand env request awaiting command sending).attempt := by
  unfold Attempt.onCommand
  split
  · split
    · exact notEntered_of_eq hsame
    · exact notEntered_afterSend _ _ _ _ hsame Phase.noConfusion
  · split
    · exact notEntered_of_eq hsame
    · exact notEntered_afterSend _ _ _ _ hsame Phase.noConfusion
  · exact notEntered_of_eq hsame

theorem notEntered_event {a b : Attempt} (hsame : a.phase = b.phase)
    (request : Option LoginRequest) (awaiting : Awaiting) {event : ViewerEvent}
    (hevent : event ≠ .loginError "Wrong Password") (sessionId : Nat) (sending : Sending) :
    NotEntered b (a.onEvent env request awaiting event sessionId sending).attempt := by
  cases event with
  | challenge => exact notEntered_afterSend _ _ _ _ hsame fun h => hsame ▸ h
  | authorized =>
    unfold Attempt.onEvent
    dsimp only
    split <;> exact notEntered_of_eq hsame
  | loginError error =>
    unfold Attempt.onEvent
    dsimp only
    split
    · exact Phase.noConfusion
    · split
      · rename_i herror
        exact absurd (congrArg _ herror) hevent
      · split
        · intro hphase
          dsimp only at hphase
          split at hphase <;> cases hphase
        · exact notEntered_of_eq hsame
  | progress | preAuthControl | closed | permissionChanged | payload =>
    exact notEntered_of_eq hsame

/-- **A turn of the loop that hears no rejection does not begin to await a
password.** -/
theorem notEntered_network {a : Attempt} (request : Option LoginRequest) (awaiting : Awaiting)
    {arrives : Attempt.Arrives} (hrejects : rejects env a arrives = false) :
    NotEntered a (a.onNetwork env request awaiting arrives).attempt := by
  unfold rejects at hrejects
  unfold Attempt.onNetwork
  dsimp only
  generalize a.received env arrives = turn at hrejects
  obtain ⟨session, result, records⟩ := turn
  match result with
  | none => exact notEntered_of_eq rfl
  | some (.error _) => exact notEntered_of_eq rfl
  | some (.ok event) =>
    refine notEntered_event rfl _ _ ?_ _ _
    rintro rfl
    simp only [decide_true] at hrejects
    cases hrejects

theorem notEntered_step {a a' : Attempt} {l : Attempt.Label} (h : Attempt.Step env a l a')
    (hown : l.isNetwork = false) : NotEntered a a' := by
  cases h with
  | call call => exact notEntered_call a call
  | confirm hstage hqueue => exact notEntered_confirm rfl _
  | command sending hstage hawaiting hqueue hturn =>
    subst hturn
    exact notEntered_command rfl _ _ _ _
  | network => cases hown
  | cancel | hangUp => exact notEntered_of_eq rfl

/-! ### A run -/

/-- The phase that a pump saw last. -/
def lastPhase : Pump → Option Phase
  | .flutter pump => pump.lastPhase
  | .ohos session => session.lastEnginePhase

theorem look_lastPhase (snapshot : ViewerSnapshot) (peer : Option PeerReport) (limit : UInt32)
    (pump : Pump) :
    lastPhase (PermissionEvents.look toText snapshot peer limit pump).1 = some snapshot.phase := by
  cases pump <;> rfl

namespace Watch

/-- While the engine waits in an entry that was observed, the last look has found
it waiting. -/
structure Linked (s : Watch) : Prop where
  bound : ∀ n, s.observed = some n → n ≤ s.entry
  seen : s.observed = some s.entry → s.attempt.phase = .awaitingPassword →
    lastPhase s.pump = some .awaitingPassword

theorem Linked.start (attempt : Attempt) (pump : Pump) : Linked { attempt, pump } := by
  refine ⟨fun _ h => ?_, fun h => ?_⟩ <;> cases h

theorem Linked.keep {s s' : Watch} (hs : Linked s) (hphase : NotEntered s.attempt s'.attempt)
    (hentry : s'.entry = s.entry) (hobserved : s'.observed = s.observed)
    (hpump : lastPhase s'.pump = lastPhase s.pump) : Linked s' := by
  refine ⟨fun n hn => ?_, fun hsame hawaits => ?_⟩
  · rw [hentry]
    exact hs.bound n (hobserved ▸ hn)
  · rw [hpump]
    exact hs.seen (by rw [← hobserved, hsame, hentry]) (hphase hawaits)

theorem Linked.step {s s' : Watch} {l : Label} (hs : Linked s) (h : Step env toText s l s') :
    Linked s' := by
  cases h with
  | submit password =>
    refine hs.keep (notEntered_call s.attempt (.submitPassword password)) rfl rfl ?_
    show lastPhase (match (s.attempt.call (.submitPassword password)).2 with
      | .ok () => PermissionEvents.loggedIn s.pump
      | .error _ => s.pump) = _
    split
    · cases s.pump <;> rfl
    · rfl
  | call call => exact hs.keep (notEntered_call s.attempt call) rfl rfl rfl
  | turn hturn hown => exact hs.keep (notEntered_step hturn hown) rfl rfl rfl
  | @hear request awaiting arrives hstage =>
    cases hrejects : rejects env s.attempt arrives with
    | false =>
      refine hs.keep (notEntered_network request awaiting hrejects) ?_ rfl rfl
      exact if_neg (ne_true_of_eq_false hrejects)
    | true =>
      have hentry : (s.hear env request awaiting arrives).entry = s.entry + 1 := if_pos hrejects
      refine ⟨fun n hn => ?_, fun hsame _ => ?_⟩
      · rw [hentry]
        exact Nat.le_succ_of_le (hs.bound n hn)
      · rw [hentry] at hsame
        have := hs.bound _ hsame
        omega
  | shows phase => exact hs.keep (fun h => absurd h ‹_›) rfl rfl rfl
  | look rest peer limit =>
    refine ⟨fun n hn => ?_, fun _ hphase => ?_⟩
    · change (if s.awaits then some s.entry else s.observed) = some n at hn
      split at hn
      · exact le_of_eq (Option.some.inj hn).symm
      · exact hs.bound n hn
    · exact (look_lastPhase ..).trans (congrArg some hphase)

theorem awaits_of_due {s : Watch} (h : s.due = true) : s.awaits = true :=
  ((Bool.and_eq_true ..).mp h).1

theorem observed_of_not_due {s : Watch} (hawaits : s.awaits = true) (h : s.due = false) :
    s.observed = some s.entry := by
  unfold due at h
  rw [hawaits, Bool.true_and] at h
  exact eq_of_beq ((Bool.not_eq_false' _).mp h)

/-- Nothing is prompted, and nothing is due. -/
theorem matched_nil {s : Watch} (h : s.due = false) : s.Matched [] where
  count := (if_neg (ne_true_of_eq_false h)).symm
  truthful _ he := absurd he List.not_mem_nil

theorem matched_singleton_iff {s : Watch} {prompt : UiEvent} (h : s.due = true) :
    s.Matched [prompt] ↔ (reportsWrong prompt = true → s.refused = true) := by
  refine ⟨fun hmatched => hmatched.truthful _ (List.mem_singleton_self _), fun hwrong => ?_⟩
  refine ⟨(if_pos h).symm, fun event he => ?_⟩
  obtain rfl := List.mem_singleton.mp he
  exact hwrong

theorem flutter_matched {s : Watch} (hs : Linked s) {pump : Flutter.PumpState}
    (hpump : s.pump = .flutter pump) (rest : ViewerSnapshot) :
    s.Matched (Flutter.promptAfter (s.snapshot rest) pump.lastPhase) ↔
      (s.due = true → pump.lastPhase ≠ some .awaitingPassword) := by
  by_cases hawaits : s.attempt.phase = .awaitingPassword
  · have hprompts : Flutter.promptAfter (s.snapshot rest) pump.lastPhase
        = if pump.lastPhase ≠ some .awaitingPassword then
            [msgbox "input-password" "Password Required" "Password Required"] else [] := by
      unfold Flutter.promptAfter
      simp only [snapshot, hawaits, true_and]
    rw [hprompts]
    cases hdue : s.due with
    | true =>
      refine ⟨fun hmatched _ => ?_, fun hphase => ?_⟩
      · intro hsame
        have hcount := hmatched.count
        rw [if_neg (not_not_intro hsame), if_pos hdue] at hcount
        cases hcount
      · rw [if_pos (hphase rfl), matched_singleton_iff hdue]
        exact fun h => absurd h (by decide)
    | false =>
      have hobserved := observed_of_not_due (beq_iff_eq.mpr hawaits) hdue
      have hseen : pump.lastPhase = some .awaitingPassword := by
        have := hs.seen hobserved hawaits
        rwa [hpump] at this
      rw [if_neg (not_not_intro hseen)]
      exact iff_of_true (matched_nil hdue) fun h => absurd h Bool.false_ne_true
  · have hnot : s.due = false := by
      refine (Bool.not_eq_true _).mp fun h => hawaits ?_
      exact beq_iff_eq.mp (awaits_of_due h)
    have hprompts : Flutter.promptAfter (s.snapshot rest) pump.lastPhase = [] :=
      if_neg fun h => hawaits h.1
    rw [hprompts]
    exact iff_of_true (matched_nil hnot) fun h => absurd (hnot.symm.trans h) Bool.false_ne_true

theorem ohos_matched {s : Watch} (hs : Linked s) {session : PumpedSession}
    (hpump : s.pump = .ohos session) (rest : ViewerSnapshot) :
    s.Matched (PumpedSession.promptDue (s.snapshot rest) session) ↔
      (s.due = true →
        (session.lastEnginePhase ≠ some .awaitingPassword ∨
          session.promptedLoginAttempts ≠ session.loginAttempts) ∧
        ((session.initialPasswordSupplied = true ∨ session.loginAttempts > 0) →
          s.refused = true)) ∧
      (s.awaits = true → s.due = false →
        session.promptedLoginAttempts = session.loginAttempts) := by
  have hretry : session.isRetry = true ↔
      session.initialPasswordSupplied = true ∨ session.loginAttempts > 0 := by
    unfold PumpedSession.isRetry
    rw [Bool.or_eq_true, decide_eq_true_iff]
  by_cases hawaits : s.attempt.phase = .awaitingPassword
  -- the phase is shown: it is told once for every attempt
  · have hprompts : PumpedSession.promptDue (s.snapshot rest) session
        = if session.lastEnginePhase ≠ some .awaitingPassword ∨
            session.promptedLoginAttempts ≠ session.loginAttempts then
            [msgbox (if session.isRetry then "re-input-password" else "input-password")
              "Password Required"
              (if session.isRetry then "Wrong Password" else "Password Required")] else [] := by
      unfold PumpedSession.promptDue
      simp only [snapshot, hawaits, true_and]
    have hwrong : reportsWrong (msgbox (if session.isRetry then "re-input-password"
        else "input-password") "Password Required"
        (if session.isRetry then "Wrong Password" else "Password Required")) = session.isRetry := by
      cases session.isRetry <;> rfl
    rw [hprompts, ← hretry]
    cases hdue : s.due with
    | true =>
      -- the peer has asked, and no look has seen it yet
      refine ⟨fun hmatched => ⟨fun _ => ?_, fun _ h => absurd h.symm Bool.false_ne_true⟩,
        fun hmeets => ?_⟩
      · have htells : session.lastEnginePhase ≠ some .awaitingPassword ∨
            session.promptedLoginAttempts ≠ session.loginAttempts := by
          by_contra hnot
          have hcount := hmatched.count
          rw [if_neg hnot, if_pos hdue] at hcount
          cases hcount
        rw [if_pos htells, matched_singleton_iff hdue, hwrong] at hmatched
        exact ⟨htells, hmatched⟩
      · obtain ⟨htells, hrefused⟩ := hmeets.1 rfl
        rw [if_pos htells, matched_singleton_iff hdue, hwrong]
        exact hrefused
    | false =>
      -- the look before has seen this very request
      have hobserved := observed_of_not_due (beq_iff_eq.mpr hawaits) hdue
      have hseen : session.lastEnginePhase = some .awaitingPassword := by
        have := hs.seen hobserved hawaits
        rwa [hpump] at this
      refine ⟨fun hmatched => ⟨fun h => absurd h Bool.false_ne_true, fun _ _ => ?_⟩,
        fun hmeets => ?_⟩
      · by_contra hnot
        have hcount := hmatched.count
        rw [if_pos (Or.inr hnot), if_neg (ne_true_of_eq_false hdue)] at hcount
        cases hcount
      · have hsame := hmeets.2 (beq_iff_eq.mpr hawaits) rfl
        rw [if_neg fun h => h.elim (absurd hseen) (absurd hsame)]
        exact matched_nil hdue
  -- another phase: nothing is due, and nothing is told
  · have hnot : s.due = false := by
      refine (Bool.not_eq_true _).mp fun h => hawaits ?_
      exact beq_iff_eq.mp (awaits_of_due h)
    have hprompts : PumpedSession.promptDue (s.snapshot rest) session = [] :=
      if_neg fun h => hawaits h.1
    rw [hprompts]
    refine iff_of_true (matched_nil hnot) ⟨fun h => ?_, fun h => ?_⟩
    · exact absurd (hnot.symm.trans h) Bool.false_ne_true
    · exact absurd (beq_iff_eq.mp h) hawaits

/-- **After every run, a look prompts as it should exactly if the pump can tell, from
what it remembers, which rejection it observes.** -/
theorem prompts_matched {wire : Established} {pump : Pump} {s : Watch} {ls : List Label}
    (hrun : Run (Step env toText) { attempt := .start env wire, pump } ls s)
    (rest : ViewerSnapshot) (peer : Option PeerReport) :
    s.Matched (s.prompts toText rest peer) ↔ s.Meets := by
  have hs : Linked s := hrun.invariant (fun _ _ _ hs h => Linked.step hs h) (.start _ pump)
  unfold Meets prompts
  cases hpump : s.pump with
  | flutter pump =>
    rw [show (PermissionEvents.said toText (s.snapshot rest) peer (.flutter pump)).filter isPrompt
      = Flutter.promptAfter (s.snapshot rest) pump.lastPhase from Flutter.collect_prompts pump]
    exact flutter_matched hs hpump rest
  | ohos session =>
    rw [show (PermissionEvents.said toText (s.snapshot rest) peer (.ohos session)).filter isPrompt
      = PumpedSession.promptDue (s.snapshot rest) session from
        PumpedSession.stages_prompts session]
    exact ohos_matched hs hpump rest

/-! ### Runs of one attempt -/

/-- The user lets the connection go on. -/
def confirmed : Attempt :=
  { Attempt.start Attempt.plainEnv Attempt.plainPeer with
    stage := .looping none .network, phase := .authenticating }

def firstRequest : Option LoginRequest :=
  some (loginRequest Attempt.plainSetup Attempt.plainDecoders 1)

/-- The first login, without a password, waits for its answer. -/
def waiting : Attempt :=
  (confirmed.onNetwork Attempt.plainEnv none .network (Attempt.frame [0])).attempt

def asking : Attempt :=
  (waiting.onNetwork Attempt.plainEnv firstRequest .network (Attempt.frame [1])).attempt

/-- A password waits in the queue. -/
def submitted : Attempt := (asking.call (.submitPassword "a")).1

def answering : Turn :=
  Attempt.onCommand Attempt.plainEnv { submitted with queue := [] } firstRequest .password
    (.password (utf8 "a")) {}

/-- The peer refuses the password, and asks once more. -/
def askingAgain : Attempt :=
  (answering.attempt.onNetwork Attempt.plainEnv firstRequest .network (Attempt.frame [1])).attempt

theorem runs_asking (pump : Pump) :
    ∃ ls, Run (Step Attempt.plainEnv fun _ => "")
      { attempt := .start Attempt.plainEnv Attempt.plainPeer, pump } ls
      { attempt := asking, pump, entry := 1 } := by
  have hcalled : Step Attempt.plainEnv (fun _ => "")
      { attempt := .start Attempt.plainEnv Attempt.plainPeer, pump } .calls
      { attempt := (Attempt.call (.start Attempt.plainEnv Attempt.plainPeer)
          (.continueInsecure true)).1, pump } :=
    .call _ (.continueInsecure true) fun _ => UserCall.noConfusion
  have hconfirms : Attempt.Step Attempt.plainEnv
      (Attempt.call (.start Attempt.plainEnv Attempt.plainPeer) (.continueInsecure true)).1
      (.takes ⟨.continueInsecure true, true⟩ [] false) confirmed := .confirm rfl rfl
  have hconfirmed : Step Attempt.plainEnv (fun _ => "")
      { attempt := (Attempt.call (.start Attempt.plainEnv Attempt.plainPeer)
          (.continueInsecure true)).1, pump } .turns { attempt := confirmed, pump } :=
    @Step.turn _ _ { attempt := _, pump := pump } _ _ hconfirms rfl
      fun _ _ => Attempt.Label.noConfusion
  have hwaiting : Step Attempt.plainEnv (fun _ => "") { attempt := confirmed, pump } .hears
      { attempt := waiting, pump } := .hear (Attempt.frame [0]) rfl
  have hasking : Step Attempt.plainEnv (fun _ => "") { attempt := waiting, pump } .hears
      { attempt := asking, pump, entry := 1 } := .hear (Attempt.frame [1]) rfl
  exact ⟨_, .cons hcalled <| .cons hconfirmed <| .cons hwaiting <| .single hasking⟩

/-- The first prompt, of both pumps. -/
theorem prompts_matched_asked :
    (∃ s ls, Run (Step Attempt.plainEnv fun _ => "")
        { attempt := .start Attempt.plainEnv Attempt.plainPeer, pump := .flutter {} } ls s
        ∧ s.due = true ∧ s.Matched (s.prompts (fun _ => "") { phase := .closed } none))
      ∧ ∃ s ls, Run (Step Attempt.plainEnv fun _ => "")
        { attempt := .start Attempt.plainEnv Attempt.plainPeer,
          pump := .ohos (.new System.peerSession) } ls s
        ∧ s.due = true ∧ s.Matched (s.prompts (fun _ => "") { phase := .closed } none) := by
  obtain ⟨ls, hflutter⟩ := runs_asking (.flutter {})
  obtain ⟨ls', hohos⟩ := runs_asking (.ohos (.new System.peerSession))
  refine ⟨⟨_, ls, hflutter, rfl, (prompts_matched hflutter _ none).mpr fun _ => ?_⟩,
    _, ls', hohos, rfl, (prompts_matched hohos _ none).mpr ⟨fun _ => ⟨.inl ?_, ?_⟩, ?_⟩⟩
  · exact fun h => by cases h
  · exact fun h => by cases h
  · intro hretry
    rcases hretry with hretry | hretry
    · exact absurd hretry (by decide)
    · exact absurd hretry (by decide)
  · exact fun _ h => absurd h (by decide)

/-- The Flutter pump looks, the password is answered with another rejection, and the
next look prompts nothing.  The pump of the session API looks, and looks again
while the password waits in the queue: it reports that it is wrong. -/
theorem prompt_missed_and_repeated :
    (∃ s ls, Run (Step Attempt.plainEnv fun _ => "")
        { attempt := .start Attempt.plainEnv Attempt.plainPeer, pump := .flutter {} } ls s
        ∧ ¬ s.Matched (s.prompts (fun _ => "") { phase := .closed } none))
      ∧ ∃ s ls, Run (Step Attempt.plainEnv fun _ => "")
        { attempt := .start Attempt.plainEnv Attempt.plainPeer,
          pump := .ohos (.new System.peerSession) } ls s
        ∧ ¬ s.Matched (s.prompts (fun _ => "") { phase := .closed } none) := by
  obtain ⟨ls, hflutter⟩ := runs_asking (.flutter {})
  obtain ⟨ls', hohos⟩ := runs_asking (.ohos (.new System.peerSession))
  refine ⟨?_, ?_⟩
  · let pump : Pump := .flutter { lastPhase := some .awaitingPassword }
    have hlooks : Step Attempt.plainEnv (fun _ => "")
        { attempt := asking, pump := .flutter {}, entry := 1 } .looks
        { attempt := asking, pump, entry := 1, observed := some 1 } :=
      .look _ { phase := .closed } none 0
    have hsubmits : Step Attempt.plainEnv (fun _ => "")
        { attempt := asking, pump, entry := 1, observed := some 1 } .submits
        { attempt := submitted, pump, entry := 1, observed := some 1 } := .submit _ "a"
    have htakes : Attempt.Step Attempt.plainEnv submitted
        (.takes ⟨.password (utf8 "a"), true⟩ answering.records answering.attempt.isEnded)
        answering.attempt := .command {} rfl (by decide) rfl rfl
    have hanswers : Step Attempt.plainEnv (fun _ => "")
        { attempt := submitted, pump, entry := 1, observed := some 1 } .turns
        { attempt := answering.attempt, pump, entry := 1, observed := some 1, presented := true } :=
      @Step.turn _ _ { attempt := _, pump := pump, entry := 1, observed := some 1 } _ _ htakes rfl
        fun _ _ => Attempt.Label.noConfusion
    have hrejected : Step Attempt.plainEnv (fun _ => "")
        { attempt := answering.attempt, pump, entry := 1, observed := some 1, presented := true }
        .hears
        { attempt := askingAgain, pump, entry := 2, observed := some 1, presented := true,
          refused := true } := .hear (Attempt.frame [1]) rfl
    refine ⟨_, _, (((hflutter.snoc hlooks).snoc hsubmits).snoc hanswers).snoc hrejected,
      fun hmatched => ?_⟩
    have hcount := hmatched.count
    revert hcount
    decide
  · have hlooked := (hohos.snoc (.look _ { phase := .closed } none 256)).snoc (.submit _ "a")
    refine ⟨_, _, hlooked, fun hmatched => ?_⟩
    have hcount := hmatched.count
    revert hcount
    decide

end Watch

end PasswordPrompts

end RdEngine
