/-
RdEngine/Compat/PumpCompleteness.lean

What a pump says over a whole run, for every choice of the moments at which it
looks at the engine.

Both pumps follow one script: `connection_ready` and `peer_info` open, the
permissions and the geometry only come later, and `close` ends.  They close on
any closed snapshot, but open only on some phases, which the engine may pass
between two looks (`announced_iff`).
-/
import RdEngine.Compat.EventPump
import RdEngine.Lib.Latches

namespace RdEngine

namespace Compat

open Latches Lts
open Viewer (Phase)

/-! ### The script of the events -/

/-- The order of the events of a session. -/
def script : Script String where
  opening := ["connection_ready", "peer_info"]
  gated name := name = "permission" ∨ name = "switch_display"
  closing := "close"

def names (events : List UiEvent) : List String := events.map UiEvent.name

@[simp] theorem names_append (events events' : List UiEvent) :
    names (events ++ events') = names events ++ names events' := List.map_append

theorem closing_not_opening : script.closing ∉ script.opening := by decide

theorem later_msgbox (flags : Flags) : script.Later flags "msgbox" :=
  ⟨by decide, by decide, fun _ => by rintro (h | h) <;> exact absurd h (by decide)⟩

theorem later_status (flags : Flags) : script.Later flags "update_quality_status" :=
  ⟨by decide, by decide, fun _ => by rintro (h | h) <;> exact absurd h (by decide)⟩

theorem later_permission {flags : Flags} (h : flags.opened = true) :
    script.Later flags "permission" :=
  ⟨by decide, by decide, fun hnot => by rw [h] at hnot; cases hnot⟩

theorem later_display {flags : Flags} (h : flags.opened = true) :
    script.Later flags "switch_display" :=
  ⟨by decide, by decide, fun hnot => by rw [h] at hnot; cases hnot⟩

/-! ### Stages that follow the script -/

section Stages

variable {σ : Type} (flags : σ → Flags)

/-- A stage that sets no latch, and says nothing that is due to another. -/
def Quiet (stage : Stage σ) : Prop :=
  ∀ s, flags (stage s).1 = flags s ∧ ∀ name ∈ names (stage s).2, script.Later (flags s) name

/-- A stage that deals with a sample. -/
def Takes (sample : Flags) (stage : Stage σ) (s : σ) : Prop :=
  flags (stage s).1 = (flags s).after sample ∧
    script.Turn (flags s) sample (names (stage s).2)

variable {flags}

/-- What two stages keep, both of them in turn keep. -/
theorem keeps_then {α : Type} {f : σ → α} {first second : Stage σ}
    (hfirst : ∀ s, f (first s).1 = f s) (hsecond : ∀ s, f (second s).1 = f s) (s : σ) :
    f (first.then second s).1 = f s :=
  (hsecond _).trans (hfirst s)

theorem Takes.quiet {sample : Flags} {first second : Stage σ} {s : σ} (hfirst : Quiet flags first)
    (h : Takes flags sample second (first s).1) : Takes flags sample (first.then second) s := by
  obtain ⟨hflags, hturn⟩ := h
  obtain ⟨hsame, hlater⟩ := hfirst s
  rw [hsame] at hflags hturn
  refine ⟨hflags, ?_⟩
  show script.Turn _ _ (names ((first s).2 ++ (second (first s).1).2))
  rw [names_append]
  exact hturn.later hlater

/-- The stage that opens, before one that deals with the rest of the sample. -/
theorem Takes.opening {sample : Flags} {first second : Stage σ} {s : σ}
    (hflags : flags (first s).1 = ⟨(flags s).opened || sample.opened, (flags s).closed⟩)
    (hsaid : names (first s).2 = if !(flags s).opened && sample.opened then script.opening else [])
    (h : Takes flags ⟨false, sample.closed⟩ second (first s).1) :
    Takes flags sample (first.then second) s := by
  obtain ⟨hafter, hturn⟩ := h
  rw [hflags] at hafter hturn
  refine ⟨?_, ?_⟩
  · show flags (second (first s).1).1 = _
    rw [hafter]
    simp [Flags.after]
  · show script.Turn _ _ (names ((first s).2 ++ (second (first s).1).2))
    rw [names_append]
    exact hturn.opening closing_not_opening hsaid

end Stages

theorem quiet_factorPrompt {snapshot : ViewerSnapshot} {phaseChanged : Bool} {flags : Flags} :
    ∀ name ∈ names (factorPrompt snapshot phaseChanged), script.Later flags name := by
  intro name hname
  unfold factorPrompt at hname
  split at hname
  · obtain rfl := List.mem_singleton.mp hname
    exact later_msgbox flags
  · cases hname

theorem names_errorBox {snapshot : ViewerSnapshot} :
    ∀ name ∈ names (errorBox snapshot), name = "msgbox" := by
  intro name hname
  unfold errorBox at hname
  split at hname
  · exact List.mem_singleton.mp hname
  · cases hname

/-- The end of a pump's turn: maybe an error, and `close` once. -/
theorem turn_close {flags : Flags} {snapshot : ViewerSnapshot} {closing : UiEvent}
    (hname : closing.name = "close") {said : List UiEvent}
    (hsaid : said = if snapshot.closed ∧ !flags.closed then errorBox snapshot ++ [closing] else []) :
    script.Turn flags ⟨false, snapshot.closed⟩ (names said) := by
  have hplain : script.Plain "close" := ⟨by decide, by rintro (h | h) <;> exact absurd h (by decide)⟩
  have hbox : script.Plain "msgbox" := ⟨(later_msgbox {}).1, (later_msgbox {}).2.2 rfl⟩
  subst hsaid
  refine .ending ?_ ?_
  · intro name he
    split at he
    · rw [names_append] at he
      rcases List.mem_append.mp he with he | he
      · rw [names_errorBox name he]
        exact hbox
      · obtain rfl := List.mem_singleton.mp he
        exact hname ▸ hplain
    · cases he
  · have hnone : (names (errorBox snapshot)).count "close" = 0 := by
      refine List.count_eq_zero.mpr fun he => ?_
      exact absurd (names_errorBox _ he) (by decide)
    show (names _).count "close" = _
    cases hclosed : snapshot.closed <;> cases hbefore : flags.closed
    · rfl
    · rfl
    · simp only [Bool.not_false, Bool.and_self, if_true, and_self, names_append,
        List.count_append, hnone]
      show 0 + [closing.name].count "close" = 1
      rw [hname]
      rfl
    · rfl

/-! ### The two pumps -/

namespace Flutter

/-- The latches of the pump. -/
def PumpState.flags (pump : PumpState) : Flags := ⟨pump.peerInfoSent, pump.closeSent⟩

variable {snapshot : ViewerSnapshot}

theorem quiet_permission : Quiet PumpState.flags (tellPermission snapshot) := by
  intro pump
  unfold tellPermission
  split
  · rename_i hsent
    refine ⟨rfl, fun name hname => ?_⟩
    obtain rfl := List.mem_singleton.mp hname
    exact later_permission hsent.1
  · exact ⟨rfl, fun name hname => absurd hname List.not_mem_nil⟩

theorem quiet_display : Quiet PumpState.flags (tellDisplay snapshot) := by
  intro pump
  unfold tellDisplay
  split
  · rename_i hsent
    refine ⟨rfl, fun name hname => ?_⟩
    obtain rfl := List.mem_singleton.mp hname
    exact later_display hsent.1
  · exact ⟨rfl, fun name hname => absurd hname List.not_mem_nil⟩

theorem quiet_codec : Quiet PumpState.flags (tellCodec snapshot) := by
  intro pump
  unfold tellCodec
  split
  · refine ⟨rfl, fun name hname => ?_⟩
    obtain rfl := List.mem_singleton.mp hname
    exact later_status _
  · exact ⟨rfl, fun name hname => absurd hname List.not_mem_nil⟩

theorem quiet_prompt : Quiet PumpState.flags (prompt snapshot) := by
  intro pump
  refine ⟨rfl, fun name hname => ?_⟩
  simp only [prompt, names_append, List.mem_append] at hname
  rcases hname with (hname | hname) | hname
  · split at hname
    · obtain rfl := List.mem_singleton.mp hname
      exact later_msgbox _
    · cases hname
  · split at hname
    · obtain rfl := List.mem_singleton.mp hname
      exact later_msgbox _
    · cases hname
  · exact quiet_factorPrompt name hname

theorem takes_close (pump : PumpState) :
    Takes PumpState.flags ⟨false, snapshot.closed⟩
      ((tellClose snapshot).then (remember snapshot)) pump := by
  have hsaid : (((tellClose snapshot).then (remember snapshot)) pump).2
      = if snapshot.closed ∧ !pump.closeSent then errorBox snapshot ++ [.text "close"] else [] := by
    show (tellClose snapshot pump).2 ++ [] = _
    rw [List.append_nil]
    unfold tellClose
    split <;> rfl
  refine ⟨?_, turn_close rfl hsaid⟩
  show (PumpState.flags (tellClose snapshot pump).1) = _
  unfold tellClose
  cases hclosed : snapshot.closed <;> cases hsent : pump.closeSent <;>
    simp [PumpState.flags, Flags.after, hsent]

/-- **One call of `collect` follows the script.** -/
theorem takes_collect (toText : List JsonObject → String) (snapshot : ViewerSnapshot)
    (peer : Option PeerReport) (pump : PumpState) :
    Takes PumpState.flags ⟨snapshot.phase == .authenticated, snapshot.closed⟩
      (collect toText snapshot peer) pump := by
  refine .opening ?_ ?_ <|
    .quiet quiet_permission <| .quiet quiet_display <| .quiet quiet_codec <|
      .quiet quiet_prompt <| takes_close _
  · unfold announce
    cases hphase : snapshot.phase == .authenticated <;> cases hsent : pump.peerInfoSent <;>
      simp_all [PumpState.flags]
  · unfold announce
    cases hphase : snapshot.phase == .authenticated <;> cases hsent : pump.peerInfoSent <;>
      simp_all [PumpState.flags] <;> rfl

end Flutter

namespace PumpedSession

/-- The latches of the pump. -/
def flags (session : PumpedSession) : Flags := ⟨session.peerInfoEmitted, session.closeEmitted⟩

variable {snapshot : ViewerSnapshot}

theorem quiet_prompt : Quiet flags (prompt snapshot) := by
  intro session
  have hinsecure : ∀ name ∈ names (if snapshot.phase = .awaitingInsecureConfirmation ∧
      session.lastEnginePhase ≠ some snapshot.phase then [insecureConnection] else []),
      script.Later session.flags name := by
    intro name hname
    split at hname
    · obtain rfl := List.mem_singleton.mp hname
      exact later_msgbox _
    · cases hname
  unfold prompt
  dsimp only
  split
  · refine ⟨rfl, fun name hname => ?_⟩
    simp only [names_append, List.mem_append] at hname
    rcases hname with (hname | hname) | hname
    · exact hinsecure name hname
    · obtain rfl := List.mem_singleton.mp hname
      exact later_msgbox _
    · exact quiet_factorPrompt name hname
  · refine ⟨rfl, fun name hname => ?_⟩
    simp only [names_append, List.mem_append] at hname
    rcases hname with hname | hname
    · exact hinsecure name hname
    · exact quiet_factorPrompt name hname

theorem quiet_display : Quiet flags (tellDisplay snapshot) := by
  intro session
  unfold tellDisplay
  dsimp only
  split
  · rename_i hemitted
    refine ⟨rfl, fun name hname => ?_⟩
    obtain rfl := List.mem_singleton.mp hname
    exact later_display hemitted.1
  · exact ⟨rfl, fun name hname => absurd hname List.not_mem_nil⟩

theorem quiet_permission : Quiet flags (tellPermission snapshot) := by
  intro session
  unfold tellPermission
  split
  · rename_i hemitted
    refine ⟨rfl, fun name hname => ?_⟩
    obtain rfl := List.mem_singleton.mp hname
    exact later_permission hemitted.1
  · exact ⟨rfl, fun name hname => absurd hname List.not_mem_nil⟩

theorem quiet_codec : Quiet flags (tellCodec snapshot) := by
  intro session
  unfold tellCodec
  split
  · refine ⟨rfl, fun name hname => ?_⟩
    obtain rfl := List.mem_singleton.mp hname
    exact later_status _
  · exact ⟨rfl, fun name hname => absurd hname List.not_mem_nil⟩

theorem takes_close (session : PumpedSession) :
    Takes flags ⟨false, snapshot.closed⟩
      ((tellClose snapshot).then (remember snapshot)) session := by
  have hsaid : (((tellClose snapshot).then (remember snapshot)) session).2
      = if snapshot.closed ∧ !session.closeEmitted then
          errorBox snapshot ++ [.envelope [("name", "close")]] else [] := by
    show (tellClose snapshot session).2 ++ [] = _
    rw [List.append_nil]
    unfold tellClose
    split <;> rfl
  refine ⟨?_, turn_close rfl hsaid⟩
  show flags (tellClose snapshot session).1 = _
  unfold tellClose
  cases hclosed : snapshot.closed <;> cases hemitted : session.closeEmitted <;>
    simp [flags, Flags.after, hemitted]

/-- **One call of `collect_engine_events` follows the script.** -/
theorem takes_stages (toText : List JsonObject → String) (snapshot : ViewerSnapshot)
    (peer : Option PeerReport) (session : PumpedSession) :
    Takes flags ⟨readyForPeerInfo session.protocol snapshot.phase, snapshot.closed⟩
      (stages toText snapshot peer) session := by
  have hprotocol : (prompt snapshot session).1.protocol = session.protocol := by
    unfold prompt
    dsimp only
    split <;> rfl
  refine .quiet quiet_prompt <| .opening ?_ ?_ <|
    .quiet quiet_display <| .quiet quiet_permission <| .quiet quiet_codec <| takes_close _
  · rw [← hprotocol]
    generalize (prompt snapshot session).1 = session
    unfold announce
    cases hready : readyForPeerInfo session.protocol snapshot.phase <;>
      cases hemitted : session.peerInfoEmitted <;> simp_all [flags]
  · rw [← hprotocol]
    generalize (prompt snapshot session).1 = session
    unfold announce
    cases hready : readyForPeerInfo session.protocol snapshot.phase <;>
      cases hemitted : session.peerInfoEmitted <;> simp_all [flags] <;> rfl

/-- What no stage changes: the protocol, and the events that wait. -/
def kept (session : PumpedSession) : SessionProtocol × List UiEvent :=
  (session.protocol, session.pendingEvents)

theorem stages_kept (toText : List JsonObject → String) (snapshot : ViewerSnapshot)
    (peer : Option PeerReport) (session : PumpedSession) :
    kept (stages toText snapshot peer session).1 = kept session := by
  have hprompt : ∀ s, kept (prompt snapshot s).1 = kept s := fun s => by
    unfold prompt
    dsimp only
    split <;> rfl
  have hannounce : ∀ s, kept (announce toText snapshot peer s).1 = kept s := fun s => by
    unfold announce
    split <;> rfl
  have hdisplay : ∀ s, kept (tellDisplay snapshot s).1 = kept s := fun s => by
    unfold tellDisplay
    dsimp only
    split <;> rfl
  have hpermission : ∀ s, kept (tellPermission snapshot s).1 = kept s := fun s => by
    unfold tellPermission
    split <;> rfl
  have hcodec : ∀ s, kept (tellCodec snapshot s).1 = kept s := fun s => by
    unfold tellCodec
    split <;> rfl
  have hclose : ∀ s, kept (tellClose snapshot s).1 = kept s := fun s => by
    unfold tellClose
    split <;> rfl
  have hremember : ∀ s, kept (remember snapshot s).1 = kept s := fun _ => rfl
  exact keeps_then hprompt (keeps_then hannounce (keeps_then hdisplay (keeps_then hpermission
    (keeps_then hcodec (keeps_then hclose hremember))))) session

end PumpedSession

/-! ### A pump beside an engine -/

/-- The groups of phases, in the order in which an engine goes through them. -/
def stage : Phase → Nat
  | .capability => 0
  | .connecting | .rendezvous => 1
  | .awaitingInsecureConfirmation => 2
  | .authenticating | .awaitingApproval | .awaitingPassword | .awaiting2fa | .awaiting2faRetry => 3
  | .authenticated | .connected => 4
  | .openingDecoder | .decoding | .streaming => 5
  | .closing => 6
  | .closed | .failed => 7

/-- Taken after the authentication and before the close. -/
def ViewerSnapshot.isLive (snapshot : ViewerSnapshot) : Bool :=
  (snapshot.phase == .authenticated || snapshot.phase == .openingDecoder ||
    snapshot.phase == .decoding || snapshot.phase == .streaming) && !snapshot.closed

inductive Pump where
  | flutter (pump : Flutter.PumpState)
  | ohos (session : PumpedSession)

namespace Pump

/-- A pump that has not looked yet. -/
inductive Fresh : Pump → Prop
  | flutter : Fresh (.flutter {})
  | ohos (session : CompatSession) : Fresh (.ohos (.new session))

/-- The phases on which a pump announces the connection. -/
def opensOn : Pump → Phase → Bool
  | .flutter _, phase => phase == .authenticated
  | .ohos session, phase => PumpedSession.readyForPeerInfo session.protocol phase

def flags : Pump → Flags
  | .flutter pump => pump.flags
  | .ohos session => session.flags

/-- Events that were emitted and wait to be polled. -/
def pending : Pump → List UiEvent
  | .flutter _ => []
  | .ohos session => session.pendingEvents

end Pump

/-- An engine with the snapshot it shows and the peer's report, a pump, and the
events that were handed over.  `samples` is a history variable. -/
structure System where
  engine : ViewerSnapshot
  peer : Option PeerReport := none
  pump : Pump
  samples : List ViewerSnapshot := []
  handed : List UiEvent := []

namespace System

/-- What a pump has emitted, handed out or still pending. -/
def emitted (s : System) : List UiEvent := s.handed ++ s.pump.pending

/-- What happens between an engine and its pump. -/
inductive Label where
  | moves
  | looks
  | logsIn

/-- Phases may be skipped between two looks; an engine that is closed stays so. -/
inductive Step (toText : List JsonObject → String) : System → Label → System → Prop
  | move {s : System} {engine : ViewerSnapshot} {peer : Option PeerReport}
      (hstage : stage s.engine.phase ≤ stage engine.phase)
      (hclosed : s.engine.closed = true → engine.closed = true) :
      Step toText s .moves { s with engine, peer }
  | pump {s : System} {pump : Flutter.PumpState} (hpump : s.pump = .flutter pump) :
      Step toText s .looks
        { s with
          pump := .flutter (Flutter.collect toText s.engine s.peer pump).1
          samples := s.samples ++ [s.engine]
          handed := s.handed ++ (Flutter.collect toText s.engine s.peer pump).2 }
  | poll {s : System} {session : PumpedSession} (limit : UInt32)
      (hpump : s.pump = .ohos session) :
      Step toText s .looks
        { s with
          pump := .ohos (session.pollEvents toText s.engine s.peer limit).1
          samples := s.samples ++ [s.engine]
          handed := s.handed ++ (session.pollEvents toText s.engine s.peer limit).2 }
  | login {s : System} {session : PumpedSession} (hpump : s.pump = .ohos session) :
      Step toText s .logsIn { s with pump := .ohos session.loggedIn }

/-- What the user interface is promised: the announcements, if the pump has seen
the connection, and the close, if it has seen that. -/
structure Complete (s : System) : Prop where
  announced : (∃ a ∈ s.samples, a.isLive = true) → script.Announced (names s.emitted)
  closed : (names s.emitted).count "close" = if s.samples.any (·.closed) then 1 else 0

/-- The latches of the pump are those of its samples, and of what it said. -/
structure Linked (s : System) : Prop where
  account : script.Account s.pump.flags (names s.emitted)
  flags : s.pump.flags = ⟨s.samples.any fun a => s.pump.opensOn a.phase, s.samples.any (·.closed)⟩

variable {toText : List JsonObject → String}

theorem Linked.looks {s s' : System} (hs : Linked s) (said : List UiEvent)
    (hpump : s'.pump.opensOn = s.pump.opensOn)
    (hsamples : s'.samples = s.samples ++ [s.engine]) (hemitted : s'.emitted = s.emitted ++ said)
    (hflags : s'.pump.flags = s.pump.flags.after ⟨s.pump.opensOn s.engine.phase, s.engine.closed⟩)
    (hturn : script.Turn s.pump.flags ⟨s.pump.opensOn s.engine.phase, s.engine.closed⟩
      (names said)) : Linked s' := by
  refine ⟨?_, ?_⟩
  · rw [hflags, hemitted, names_append]
    exact hs.account.turn hturn
  · rw [hflags, hs.flags, hpump, hsamples]
    simp [Flags.after]

theorem linked_step {s s' : System} {l : Label} (hs : Linked s) (h : Step toText s l s') :
    Linked s' := by
  cases h with
  | move => exact ⟨hs.account, hs.flags⟩
  | @pump pump hpump =>
    obtain ⟨hflags, hturn⟩ := Flutter.takes_collect toText s.engine s.peer pump
    refine hs.looks (Flutter.collect toText s.engine s.peer pump).2 ?_ rfl ?_ ?_ ?_
    · rw [hpump]
      rfl
    · simp only [emitted, hpump, Pump.pending, List.append_nil]
    · rw [hpump]
      exact hflags
    · rw [hpump]
      exact hturn
  | @poll session limit hpump =>
    obtain ⟨hflags, hturn⟩ := PumpedSession.takes_stages toText s.engine s.peer session
    obtain ⟨hprotocol, hpending⟩ :=
      Prod.mk.inj (PumpedSession.stages_kept toText s.engine s.peer session)
    refine hs.looks (session.stages toText s.engine s.peer).2 ?_ rfl ?_ ?_ ?_
    · rw [hpump]
      funext phase
      show PumpedSession.readyForPeerInfo (session.stages toText s.engine s.peer).1.protocol phase
        = _
      rw [hprotocol]
      rfl
    · simp only [emitted, hpump, Pump.pending, PumpedSession.pollEvents,
        PumpedSession.collectEngineEvents, hpending, List.append_assoc, List.take_append_drop]
    · rw [hpump]
      exact hflags
    · rw [hpump]
      exact hturn
  | login hpump =>
    obtain ⟨account, hflags⟩ := hs
    simp only [emitted, hpump] at account hflags
    exact ⟨account, hflags⟩

theorem linked_start {pump : Pump} (hfresh : pump.Fresh) (engine : ViewerSnapshot) :
    Linked { engine, pump } := by
  cases hfresh with
  | flutter => exact ⟨.start script, rfl⟩
  | ohos => exact ⟨.start script, rfl⟩

/-- **A pump keeps its promises exactly if it has seen a phase on which it opens,
once it has seen the connection.** -/
theorem complete_iff {engine : ViewerSnapshot} {pump : Pump} {s : System} {ls : List Label}
    (hfresh : pump.Fresh) (hrun : Run (Step toText) { engine, pump } ls s) :
    Complete s ↔
      ((∃ a ∈ s.samples, a.isLive = true) → ∃ a ∈ s.samples, s.pump.opensOn a.phase = true) := by
  have hlinked := hrun.invariant (fun _ _ _ hs h => linked_step hs h) (linked_start hfresh engine)
  have hopened : s.pump.flags.opened = true ↔ ∃ a ∈ s.samples, s.pump.opensOn a.phase = true := by
    rw [hlinked.flags]
    exact List.any_eq_true
  have hannounced := hlinked.account.announced_iff (by decide)
  refine ⟨fun hcomplete hlive => ?_, fun hseen => ⟨fun hlive => ?_, ?_⟩⟩
  · exact hopened.mp (hannounced.mp (hcomplete.announced hlive))
  · exact hannounced.mpr (hopened.mpr (hseen hlive))
  · have hclosed := hlinked.account.closed
    rw [hlinked.flags] at hclosed
    exact hclosed

/-- An engine that has just started, and a pump that has looked at it. -/
def started (pump : Pump) : System := { engine := { phase := .capability }, pump }

/-- The engine shows another phase. -/
theorem step_to (s : System) (phase : Phase) (closed : Bool)
    (hstage : stage s.engine.phase ≤ stage phase) (hclosed : s.engine.closed = false) :
    Step toText s .moves { s with engine := { s.engine with phase, closed } } :=
  .move hstage fun h => absurd (hclosed.symm.trans h) Bool.false_ne_true

/-- A pump that sees the authenticated phase, a later one, and the close. -/
theorem complete_iff_seen :
    ∃ s ls, Run (Step fun _ => "") (started (.flutter {})) ls s ∧ Complete s
      ∧ (∃ a ∈ s.samples, a.isLive = true) := by
  have hauthenticated := (Run.single (@step_to (fun _ => "") (started (.flutter {}))
    .authenticated false (by decide) rfl)).snoc (.pump rfl)
  have hdecoding := (hauthenticated.snoc (step_to _ .decoding false (by decide) rfl)).snoc
    (.pump rfl)
  have hrun := (hdecoding.snoc (step_to _ .closed true (by decide) rfl)).snoc (.pump rfl)
  have hlive : ∃ a ∈ [({ phase := .authenticated } : ViewerSnapshot), { phase := .decoding },
      { phase := .closed, closed := true }], a.isLive = true := by decide
  refine ⟨_, _, hrun, (complete_iff .flutter hrun).mpr fun _ => ?_, hlive⟩
  exact ⟨{ phase := .authenticated }, List.mem_cons_self, rfl⟩

/-- The session of a peer that is named by its id. -/
def peerSession : CompatSession where
  id := "s"
  target := "peer"
  route := .rendezvous "peer"
  password := ""
  forceRelay := false
  viewOnly := false
  requestedFps := 60
  imageQuality := "balanced"
  customImageQuality := 0
  clipboardEnabled := false
  phase := "created"
  protocol := .rustDesk
  viewer := some 0
  generation := 1

/-- The engine authenticates and opens its decoder between two looks of either
pump: nothing is announced. -/
theorem unannounced :
    (∃ s ls, Run (Step fun _ => "") (started (.flutter {})) ls s ∧ ¬ Complete s)
      ∧ ∃ s ls, Run (Step fun _ => "") (started (.ohos (.new peerSession))) ls s
        ∧ ¬ Complete s := by
  have hpasses : ∀ s : System, s.engine = { phase := .capability } →
      Run (Step fun _ => "") s [.moves, .moves, .moves, .moves]
        { s with engine := { phase := .decoding } } := by
    rintro ⟨engine, peer, pump, samples, handed⟩ rfl
    exact .cons (step_to _ .authenticating false (Nat.le_of_ble_eq_true rfl) rfl) <|
      .cons (step_to _ .authenticated false (Nat.le_of_ble_eq_true rfl) rfl) <|
      .cons (step_to _ .openingDecoder false (Nat.le_of_ble_eq_true rfl) rfl) <|
      .single (step_to _ .decoding false (Nat.le_of_ble_eq_true rfl) rfl)
  have hsilent : ∀ s : System, s.samples = [{ phase := .capability }, { phase := .decoding }] →
      s.emitted = [] → ¬ Complete s := by
    intro s hsamples hemitted hcomplete
    refine Script.not_announced (by decide) ?_ (hcomplete.announced ?_)
    · rw [hemitted]
      intro e he
      cases he
    · rw [hsamples]
      exact ⟨{ phase := .decoding }, List.mem_cons_of_mem _ List.mem_cons_self, rfl⟩
  refine ⟨⟨_, _, ((Run.single (.pump rfl)).append (hpasses _ rfl)).snoc (.pump rfl), ?_⟩,
    _, _, ((Run.single (.poll 256 rfl)).append (hpasses _ rfl)).snoc (.poll 256 rfl), ?_⟩
  · exact hsilent _ rfl rfl
  · exact hsilent _ rfl rfl

end System

end Compat

end RdEngine
