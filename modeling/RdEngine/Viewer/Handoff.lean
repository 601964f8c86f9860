/-
RdEngine/Viewer/Handoff.lean

The handoff of the peer's permissions: `run` logs in with a session, takes over its
parts, and goes on with the receive task.

The engine's accesses to its session are answered by the session itself here
(`Joined`), and the messages of the session and of the receive task are kept as
history variables.  The invariant (`Carries`) follows a report from the session
to the parts, into the shared state and on: whatever the interleaving, what is
stored is the defaults overlaid by the reports received so far, but for the one
that the receive task is about to store.
-/
import RdEngine.PermissionReports
import RdEngine.Viewer.Footprint
import RdEngine.Viewer.Progress

namespace RdEngine

namespace Viewer

open Lts Threads Latest

/-! ### The engine and its session -/

/-- The engine, and the session that it logs in with.  The last three fields are
history variables: the records of the session, what it handed over, and the
messages that the receive task received. -/
structure Joined where
  engine : State
  session : ViewerSession
  records : List WireRecord
  parts : Option AuthenticatedParts
  received : List Message

/-- Every message of the connection so far. -/
def Joined.heard (s : Joined) : List Message := receivedMessages s.records ++ s.received

/-- What the engine takes over of an authenticated context. -/
def Context.from (context : AuthenticatedContext) : Context where
  peerInfo := context.peerInfo
  keyboard := context.permissions.keyboard
  clipboard := context.permissions.clipboard

/-- The session after a call of the engine. -/
def Joined.called (s : Joined) (turn : ViewerSession × List WireRecord) : Joined :=
  { s with session := turn.1, records := s.records ++ turn.2 }

/-- How a send of the session answers the engine. -/
def answersSend (result : Option (Except IoError Unit)) : SendAnswer → Prop
  | .sent => result = some (.ok ())
  | .failed => ∃ e, result = some (.error e)
  | .dropped => result = none

section Machine

variable (box : SecretBox) (proto : Protobuf Message) (sha256 : Bytes → Bytes)

/-- An access to the session is a call of it; nothing else touches it. -/
def converse (s : Joined) : (a : Access) → a.Answer → Joined → Prop
  | .sessionRecv, answer, s' => ∃ incoming echo,
    (∀ event, answer = .ok event ↔
      (s.session.recv box proto incoming echo).result = some (.ok event)) ∧
    s' = s.called (s.session.call box proto sha256 (.recv incoming echo))
  | .login request password, answer, s' => ∃ expired sending,
    answersSend (s.session.login box proto sha256 request password expired sending).result
      (loginAnswer answer) ∧
    (∀ response, answer = .sent response →
      (s.session.login box proto sha256 request password expired sending).records
        = [.sent (.of (.loginRequest { request with password := response }))]) ∧
    s' = s.called (s.session.call box proto sha256 (.login request password expired sending))
  | .sendSecondFactor code, answer, s' => ∃ expired sending,
    answersSend (s.session.sendSecondFactor box proto code expired sending).result answer ∧
    s' = s.called (s.session.call box proto sha256 (.secondFactor code expired sending))
  | .intoParts, .ok context, s' => ∃ parts, s.session.intoAuthenticatedParts = .ok parts ∧
    context = .from parts.context ∧ s' = { s with parts := some parts }
  | .intoParts, .error _, s' => (∃ e, s.session.intoAuthenticatedParts = .error e) ∧ s' = s
  | .incoming, .message message, s' => s' = { s with received := s.received ++ [message] }
  | _, _, s' => s' = s

/-- The engine with its session: one access of a task. -/
def joinedEngine (setup : Setup) : Machine Access.Answer Outcome Joined Task where
  perform task s a answer s' := ∃ t, converse box proto sha256 s a answer t ∧
    allowed s.engine a answer ∧ s' = { t with engine := effect task s.engine a answer }
  start s := Start setup s.engine

end Machine

/-- The engine and its session, before the login. -/
def Joined.initial (setup : Setup) (wire : Established) : Joined where
  engine := .initial setup
  session := .fromEstablished wire
  records := []
  parts := none
  received := []

/-- A started viewer that will log in over this connection. -/
def joinedInitial (setup : Setup) (wire : Established) :
    Config Access.Answer Outcome Joined Task where
  shared := .initial setup wire
  threads := (initial setup).threads

/-! ### What the tasks do with permissions -/

/-- What the receive task is about to store, if that is its next access. -/
def storing (program : Program Outcome) (kind : Remote) : Option Bool :=
  match program with
  | .access (.setRemote stored value) _ => if stored = kind then some value else none
  | _ => none

/-- The permission behind a flag. -/
def Remote.permission : Remote → Permission
  | .keyboard => .keyboard
  | .clipboard => .clipboard

/-- The flag before anything was reported. -/
def remoteDefault : Remote → Bool
  | .keyboard => viewerRemoteDefaults.keyboard
  | .clipboard => viewerRemoteDefaults.clipboard

/-- The flag after the login. -/
def Context.remote (context : Context) : Remote → Bool
  | .keyboard => context.keyboard
  | .clipboard => context.clipboard

/-- A default, overlaid by what was reported. -/
def overlaidRemote (kind : Remote) (messages : List Message) : Bool :=
  overlaid (remoteDefault kind) kind.permission messages

/-- Where the run task is on its way through the handoff, and what the receive
task is about to store. -/
inductive HandoffStage where
  | login
  | taken (context : Context)
  | half (context : Context)
  | stored
  | asleep
  | idle
  | storing (kind : Remote) (value : Bool)

/-- The value that a permission has once the pending report is stored. -/
def HandoffStage.settled (stage : HandoffStage) (kind : Remote) (current : Bool) : Bool :=
  match stage with
  | .storing reported value => if reported = kind then value else current
  | _ => current

/-- What a message gives the receive task to store. -/
def reportedStage (message : Message) : HandoffStage :=
  match permissionReport message with
  | none => .idle
  | some info =>
    match info.permission.enumValue with
    | some .keyboard => .storing .keyboard info.enabled
    | some .clipboard => .storing .clipboard info.enabled
    | _ => .idle

def runStage : Ghost Access.Answer HandoffStage where
  next
    | .login, .intoParts, .ok context => .taken context
    | .taken context, .setRemote .keyboard _, _ => .half context
    | .half _, .setRemote .clipboard _, _ => .stored
    | stage, _, _ => stage
  admits
    | stage, .sessionRecv | stage, .login _ _ | stage, .sendSecondFactor _ | stage, .intoParts =>
      stage = .login
    | stage, .setRemote .keyboard value => ∃ context, stage = .taken context ∧ value = context.keyboard
    | stage, .setRemote .clipboard value =>
      ∃ context, stage = .half context ∧ value = context.clipboard
    | stage, .setAuthenticated true | stage, .spawn _ _ => stage = .stored
    | _, a => runAccess a = true

/-- The receive task stores a report before anything else. -/
def receiveStage : Ghost Access.Answer HandoffStage where
  next
    | .idle, .incoming, .message message => reportedStage message
    | .storing _ _, .setRemote _ _, _ => .idle
    | stage, _, _ => stage
  admits
    | stage, .setRemote kind value => stage = .storing kind value
    | stage, a => stage = .idle ∧ receiveAccess a = true

def stages : Task → Ghost Access.Answer HandoffStage
  | .run => runStage
  | .receive => receiveStage
  | task => ⟨fun stage _ _ => stage, fun _ a => task.access a = true⟩

/-- Where a thread is between its turns. -/
def StageResult : Task → HandoffStage → Outcome → Prop
  | .run, stage, outcome => (∃ result, outcome = .returned result) ∨ stage = .login
  | .receive, stage, outcome =>
    stage = .idle ∨ stage = .asleep ∧ outcome = .waiting
  | _, _, _ => True

/-! ### The programs follow their stages -/

theorem follows_serveStage (decoders : Decoders) (context : Context) :
    Follows runStage (StageResult .run) (.taken context) (serve decoders context) := by
  rw [serve.eq_def]
  split
  · exact ⟨rfl, fun _ => ⟨rfl, fun _ => .inl ⟨_, rfl⟩⟩⟩
  · refine ⟨rfl, fun _ => ⟨⟨context, rfl, rfl⟩, fun _ => ⟨⟨context, rfl, rfl⟩, fun _ => ?_⟩⟩⟩
    refine ⟨rfl, fun _ => ⟨rfl, fun _ => ⟨rfl, fun _ => ⟨rfl, fun first => ?_⟩⟩⟩⟩
    refine follows_supervise (fun a ha => ?_) (fun a answer _ => rfl) (fun result => .inl ⟨_, rfl⟩) _
    cases a with
    | setAuthenticated value =>
      cases value with
      | true => cases ha
      | false => rfl
    | awaitFirst | joinNext | cancel | closeQueues | setControl => rfl
    | _ => cases ha

theorem followsLogin_stage (setup : Setup) :
    FollowsLogin setup runStage (StageResult .run) (fun _ => True) .login where
  quiet a ha := by
    cases a with
    | setAuthenticated value =>
      cases value with
      | true => cases ha
      | false => rfl
    | capabilities | connect | isCancelled | recvCommand | selectCommand | sessionRecv
    | randomSessionId | sendSecondFactor | closeQueues => rfl
    | _ => cases ha
  still a answer ha := by
    cases a with
    | intoParts => cases ha
    | _ => rfl
  fresh _ _ := trivial
  login _ _ _ := rfl
  loggedIn _ _ _ := rfl
  parts := rfl
  noParts _ := rfl
  serve decoders context := follows_serveStage decoders context
  returned result := .inl ⟨result, rfl⟩
  confirming _ := .inr rfl
  authenticating _ _ _ _ := .inr rfl

/-- What the receive task does about a message that reports no permission. -/
def unreportedAccess : Access → Bool
  | .incoming | .setRemote _ _ => false
  | a => receiveAccess a

theorem follows_unreported {program : Program Outcome} (h : Within unreportedAccess program) :
    Follows receiveStage (StageResult .receive) .idle program := by
  refine h.follows (fun a ha => ?_) (fun a answer ha => ?_) fun result => .inl rfl
  · cases a with
    | incoming | setRemote => cases ha
    | _ => exact ⟨rfl, ha⟩
  · cases a with
    | incoming => cases ha
    | _ => rfl

theorem within_unreportedMisc {misc : Misc} (hmisc : ∀ info, misc.union ≠ some (.permissionInfo info))
    (decoders : Decoders) (source : Geometry) :
    Within unreportedAccess (receiveMisc decoders source misc) := by
  have hexit : ∀ result, Within unreportedAccess (exit result) := within_exit fun _ => rfl
  rw [receiveMisc.eq_def]
  split
  · next info hunion => exact absurd hunion (hmisc info)
  · exact hexit _
  · split
    · exact hexit _
    · exact ⟨rfl, fun _ => trivial⟩
  · next option _ =>
    refine ((within_receiveOption option).mono fun a ha => ?_).bind fun _ => within_ret _
    cases a with
    | setRequestedFps | setImageQuality => rfl
    | _ => cases ha
  · exact trivial

theorem within_unreported {message : Message} (h : permissionReport message = none) (setup : Setup)
    (decoders : Decoders) (source : Geometry) :
    Within unreportedAccess (receiveMessage setup decoders source message) := by
  have hexit : ∀ result, Within unreportedAccess (exit result) := within_exit fun _ => rfl
  rw [receiveMessage.eq_def]
  split
  · exact within_receiveVideo (fun _ => rfl) rfl (fun _ => rfl) (fun _ => rfl) _ _ _
  · split
    · exact trivial
    · refine ⟨rfl, fun sent => ?_⟩
      dsimp only [Prog.bind]
      split
      · exact trivial
      · exact hexit _
  · next misc hunion =>
    refine within_unreportedMisc (fun info hinfo => ?_) decoders source
    obtain ⟨union⟩ := misc
    cases hinfo
    rw [permissionReport, hunion] at h
    cases h
  · exact (within_receiveClipboards (fun _ => rfl) _ _).bind fun _ => within_ret _
  · exact (within_receiveClipboards (fun _ => rfl) _ _).bind fun _ => within_ret _
  · exact trivial

theorem follows_receiveStage (setup : Setup) (decoders : Decoders) (source : Geometry)
    (message : Message) :
    Follows receiveStage (StageResult .receive) (reportedStage message)
      (receiveMessage setup decoders source message) := by
  rcases hreport : permissionReport message with - | info
  · have hidle : reportedStage message = .idle := by rw [reportedStage, hreport]
    rw [hidle]
    exact follows_unreported (within_unreported hreport setup decoders source)
  · have hunion : message.union = some (.misc { union := some (.permissionInfo info) }) := by
      unfold permissionReport at hreport
      split at hreport
      · next hunion => rw [hunion, Option.some.inj hreport]
      · cases hreport
    have hprogram : receiveMessage setup decoders source message
        = (receivePermission info).bind fun _ => .ret (.receiving decoders source) := by
      rw [receiveMessage.eq_def, hunion]
      rfl
    rw [hprogram, reportedStage, hreport]
    obtain ⟨permission | number, enabled⟩ := info
    · cases permission with
      | keyboard | clipboard => exact ⟨rfl, fun _ => .inl rfl⟩
      | audio | file | restart | recording | blockInput | privacyMode => exact .inl rfl
    · exact .inl rfl

theorem follows_receiveStages (setup : Setup) (decoders : Decoders) (source : Geometry) :
    Follows receiveStage (StageResult .receive) .idle (receiveTurn setup decoders source) := by
  have hexit : ∀ result, Follows receiveStage (StageResult .receive) .idle (exit result) :=
    fun result => follows_unreported (within_exit (fun _ => rfl) result)
  refine ⟨⟨rfl, rfl⟩, fun arrival => ?_⟩
  cases arrival with
  | message message => exact follows_receiveStage setup decoders source message
  | ended | failed | cancelled => exact hexit _

/-! ### The frame -/

/-- The accesses that the handoff is made of. -/
def handsOver : Access → Bool
  | .sessionRecv | .login _ _ | .sendSecondFactor _ | .intoParts | .incoming | .setRemote _ _
  | .setAuthenticated true | .spawn _ _ => true
  | _ => false

/-- The permissions stay as they are, and the session is not published. -/
structure SameHandoff (s s' : State) : Prop where
  remote : ∀ kind, s'.remote kind = s.remote kind
  authenticated : s.authenticated = false → s'.authenticated = false
  spawned : s'.spawned = s.spawned

/-- Any other access leaves them alone. -/
theorem sameHandoff_effect (task : Task) (s : State) {a : Access} (answer : a.Answer)
    (h : handsOver a = false) : SameHandoff s (effect task s a answer) := by
  cases a with
  | setRemote | spawn | sessionRecv | login | sendSecondFactor | intoParts | incoming => cases h
  | setAuthenticated value =>
    cases value with
    | true => cases h
    | false => exact ⟨fun kind => by cases kind <;> rfl, fun _ => rfl, rfl⟩
  | trySend queue message =>
    cases answer with
    | ok => cases queue <;> exact ⟨fun kind => by cases kind <;> rfl, fun hauth => hauth, rfl⟩
    | error => exact ⟨fun _ => rfl, fun hauth => hauth, rfl⟩
  | recv queue =>
    cases answer with
    | message => cases queue <;> exact ⟨fun kind => by cases kind <;> rfl, fun hauth => hauth, rfl⟩
    | empty | closed => exact ⟨fun _ => rfl, fun hauth => hauth, rfl⟩
  | acquireSlot | acquireBytes | sendVideo | recvVideo | send | awaitFirst | joinNext =>
    cases answer <;> exact ⟨fun kind => by cases kind <;> rfl, fun hauth => hauth, rfl⟩
  | _ => exact ⟨fun kind => by cases kind <;> rfl, fun hauth => hauth, rfl⟩

/-! ### The invariant -/

/-- What the stages say about the shared state. -/
structure Carries (start : ViewerSession) (g : Task → HandoffStage) (s : Joined) : Prop where
  login : g .run = .login → start.Recorded s.session s.records ∧ s.parts = none
  early : g .run ≠ .stored → s.engine.authenticated = false ∧ s.engine.spawned = none ∧
    g .receive = .asleep ∧ s.received = []
  taken : ∀ context, g .run = .taken context →
    ∀ kind, context.remote kind = overlaidRemote kind s.heard
  half : ∀ context, g .run = .half context →
    s.engine.remote .keyboard = overlaidRemote .keyboard s.heard ∧
    context.remote .clipboard = overlaidRemote .clipboard s.heard
  stored : g .run = .stored → ∀ kind,
    (g .receive).settled kind (s.engine.remote kind) = overlaidRemote kind s.heard
  parts : ∀ parts, s.parts = some parts → ViewerSession.Exact parts.context (receivedMessages s.records)

section Steps

variable {box : SecretBox} {proto : Protobuf Message} {sha256 : Bytes → Bytes}
  {start : ViewerSession} {g : Task → HandoffStage} {s : Joined}

/-- The receive task is awake only once everything is stored. -/
theorem Carries.awake (h : Carries start g s) (hawake : g .receive ≠ .asleep) :
    g .run = .stored := by
  by_contra hrun
  exact hawake (h.early hrun).2.2.1

/-- The permissions stay as they are; the session is published only once they
are stored. -/
theorem Carries.engine (h : Carries start g s) {e : State}
    (hremote : ∀ kind, e.remote kind = s.engine.remote kind)
    (hearly : g .run ≠ .stored → (s.engine.authenticated = false → e.authenticated = false) ∧
      e.spawned = s.engine.spawned) : Carries start g { s with engine := e } where
  login := h.login
  early hrun := by
    obtain ⟨hauth, hspawned, hreceive, hreceived⟩ := h.early hrun
    exact ⟨(hearly hrun).1 hauth, (hearly hrun).2.trans hspawned, hreceive, hreceived⟩
  taken := h.taken
  half context hrun := by
    rw [hremote]
    exact h.half context hrun
  stored hrun kind := by
    rw [hremote]
    exact h.stored hrun kind
  parts := h.parts

theorem Carries.calls (h : Carries start g s) (hrun : g .run = .login) (c : ViewerSession.Call) :
    Carries start g (s.called (s.session.call box proto sha256 c)) where
  login _ := ⟨(h.login hrun).1.call c, (h.login hrun).2⟩
  early := h.early
  taken context htaken := by rw [hrun] at htaken; cases htaken
  half context hhalf := by rw [hrun] at hhalf; cases hhalf
  stored hstored := by rw [hrun] at hstored; cases hstored
  parts parts hparts := by
    have hnone : s.parts = some parts := hparts
    rw [(h.login hrun).2] at hnone
    cases hnone

/-- The parts are taken over with what the session recorded. -/
theorem Carries.handed (h : Carries start g s) (hrun : g .run = .login)
    (hpermissions : start.permissions = viewerRemoteDefaults)
    (hreports : start.permissionReports = []) {parts : AuthenticatedParts}
    (hparts : s.session.intoAuthenticatedParts = .ok parts) :
    Carries start (Function.update g .run (.taken (.from parts.context)))
      { s with parts := some parts } := by
  have hexact := (h.login hrun).1.exact hpermissions hreports hparts
  obtain ⟨hauth, hspawned, hreceive, hreceived⟩ := h.early (by rw [hrun]; nofun)
  refine ⟨nofun, fun _ => ⟨hauth, hspawned, hreceive, hreceived⟩, fun context htaken kind => ?_,
    nofun, nofun, fun parts' hparts' => ?_⟩
  · obtain rfl := HandoffStage.taken.inj htaken
    have hheard : s.heard = receivedMessages s.records := by
      rw [Joined.heard, hreceived, List.append_nil]
    show (Context.from parts.context).remote kind = overlaidRemote kind s.heard
    rw [hheard]
    cases kind with
    | keyboard => exact hexact.permissions.keyboard
    | clipboard => exact hexact.permissions.clipboard
  · obtain rfl := Option.some.inj hparts'
    exact hexact

theorem Carries.storeKeyboard (h : Carries start g s) {context : Context}
    (hrun : g .run = .taken context) :
    Carries start (Function.update g .run (.half context))
      { s with engine := s.engine.setRemote context.keyboard .keyboard } := by
  refine ⟨nofun, fun _ => h.early (by rw [hrun]; nofun), nofun, fun context' hhalf => ?_, nofun,
    h.parts⟩
  obtain rfl := HandoffStage.half.inj hhalf
  exact ⟨h.taken context hrun .keyboard, h.taken context hrun .clipboard⟩

theorem Carries.storeClipboard (h : Carries start g s) {context : Context}
    (hrun : g .run = .half context) :
    Carries start (Function.update g .run .stored)
      { s with engine := s.engine.setRemote context.clipboard .clipboard } := by
  have hreceive : g .receive = .asleep := (h.early (by rw [hrun]; nofun)).2.2.1
  refine ⟨nofun, fun hne => absurd rfl hne, nofun, nofun, fun _ kind => ?_, h.parts⟩
  show (g .receive).settled kind _ = overlaidRemote kind s.heard
  rw [hreceive]
  cases kind with
  | keyboard => exact (h.half context hrun).1
  | clipboard => exact (h.half context hrun).2

/-- What a message gives to store is its report, over what is stored. -/
theorem settled_reportedStage (message : Message) (kind : Remote) (current : Bool) :
    (reportedStage message).settled kind current = overlaid current kind.permission [message] := by
  rw [reportedStage, overlaid, lastReport, knownReports, List.filterMap_cons, List.filterMap_nil]
  rcases permissionReport message with - | ⟨permission | number, enabled⟩
  · rfl
  · cases permission <;> cases kind <;> rfl
  · rfl

/-- Once everything is stored only the values are left to show. -/
theorem Carries.settle (h : Carries start g s) (hstored : g .run = .stored) {stage : HandoffStage}
    {t : Joined} (hrecords : t.records = s.records) (hparts : t.parts = s.parts)
    (hvalues : ∀ kind, stage.settled kind (t.engine.remote kind) = overlaidRemote kind t.heard) :
    Carries start (Function.update g .receive stage) t := by
  have hrun : Function.update g .receive stage .run = .stored := hstored
  refine ⟨fun hlogin => ?_, fun hne => absurd hrun hne, fun context htaken => ?_,
    fun context hhalf => ?_, fun _ => hvalues, ?_⟩
  · rw [hrun] at hlogin
    cases hlogin
  · rw [hrun] at htaken
    cases htaken
  · rw [hrun] at hhalf
    cases hhalf
  · rw [hrecords, hparts]
    exact h.parts

theorem Carries.received (h : Carries start g s) (hreceive : g .receive = .idle)
    (message : Message) :
    Carries start (Function.update g .receive (reportedStage message))
      { s with received := s.received ++ [message] } := by
  have hrun : g .run = .stored := h.awake (by rw [hreceive]; nofun)
  refine h.settle hrun rfl rfl fun kind => ?_
  have hstored := h.stored hrun kind
  rw [hreceive] at hstored
  have hheard : Joined.heard { s with received := s.received ++ [message] }
      = s.heard ++ [message] := (List.append_assoc ..).symm
  rw [settled_reportedStage, hheard, overlaidRemote, overlaid_snoc]
  exact congrArg (overlaid · kind.permission [message]) hstored

/-- The receive task stores the report it took. -/
theorem Carries.stores (h : Carries start g s) {kind : Remote} {value : Bool}
    (hreceive : g .receive = .storing kind value) :
    Carries start (Function.update g .receive .idle)
      { s with engine := s.engine.setRemote value kind } := by
  have hrun : g .run = .stored := h.awake (by rw [hreceive]; nofun)
  refine h.settle hrun rfl rfl fun other => ?_
  have hstored := h.stored hrun other
  rw [hreceive] at hstored
  refine Eq.trans ?_ hstored
  cases kind <;> cases other <;> rfl

theorem Carries.begin (h : Carries start g s) {outcome : Outcome} {setup : Setup}
    {program : Program Outcome} (hresult : StageResult .receive (g .receive) outcome)
    (hstart : Start setup s.engine .receive outcome program) :
    Follows receiveStage (StageResult .receive) .idle program ∧
      Carries start (Function.update g .receive .idle) s := by
  have hrun : g .run = .stored := by
    by_contra hne
    obtain ⟨-, hspawned, hasleep, -⟩ := h.early hne
    cases hstart with
    | spawnReceive hsome =>
      rw [hspawned] at hsome
      cases hsome
    | receive =>
      rcases hresult with hidle | ⟨-, hwaiting⟩
      · rw [hasleep] at hidle
        cases hidle
      · cases hwaiting
  have hquiet : ∀ kind current, (g .receive).settled kind current = current := by
    intro kind current
    rcases hresult with hidle | ⟨hasleep, -⟩
    · rw [hidle]; rfl
    · rw [hasleep]; rfl
  refine ⟨?_, h.settle hrun rfl rfl fun kind => ?_⟩
  · cases hstart with
    | spawnReceive | receive => exact follows_receiveStages _ _ _
  · exact (hquiet kind _).symm.trans (h.stored hrun kind)

/-! ### Every step keeps it -/

theorem Carries.other (h : Carries start g s) {task : Task} {a : Access} {answer : a.Answer}
    {t : Joined} (ha : handsOver a = false) (hconverse : converse box proto sha256 s a answer t) :
    Carries start g { t with engine := effect task s.engine a answer } := by
  have hsame : t = s := by
    cases a with
    | sessionRecv | login | sendSecondFactor | intoParts | incoming => cases ha
    | _ => exact hconverse
  obtain ⟨hremote, hauth, hspawned⟩ := sameHandoff_effect task s.engine answer ha
  rw [hsame]
  exact h.engine hremote fun _ => ⟨hauth, hspawned⟩

/-- A call of the session leaves the rest of the engine to the login. -/
theorem Carries.callStep (h : Carries start g s) (hrun : g .run = .login) (c : ViewerSession.Call)
    {a : Access} (answer : a.Answer) (hnext : runStage.next .login a answer = .login)
    (hsame : SameHandoff s.engine (effect .run s.engine a answer)) :
    Carries start (Function.update g .run (runStage.next (g .run) a answer))
      { s.called (s.session.call box proto sha256 c) with
        engine := effect .run s.engine a answer } := by
  rw [hrun, hnext, ← hrun, Function.update_eq_self]
  exact (h.calls hrun c).engine hsame.remote fun _ => ⟨hsame.authenticated, hsame.spawned⟩

theorem runStage_other (stage : HandoffStage) {a : Access} (answer : a.Answer)
    (h : handsOver a = false) : runStage.next stage a answer = stage := by
  cases a with
  | intoParts | setRemote => cases h
  | _ => cases stage <;> rfl

theorem Carries.runStep (h : Carries start g s)
    (hpermissions : start.permissions = viewerRemoteDefaults)
    (hreports : start.permissionReports = []) {a : Access} {answer : a.Answer} {t : Joined}
    (hadmits : runStage.admits (g .run) a) (hconverse : converse box proto sha256 s a answer t) :
    Carries start (Function.update g .run (runStage.next (g .run) a answer))
      { t with engine := effect .run s.engine a answer } := by
  cases a with
  | sessionRecv =>
    -- the login reports permissions, and the run has stored nothing yet
    obtain ⟨incoming, echo, -, rfl⟩ := hconverse
    exact h.callStep hadmits _ answer rfl ⟨fun _ => rfl, fun hauth => hauth, rfl⟩
  | login request password =>
    obtain ⟨expired, sending, -, -, rfl⟩ := hconverse
    refine h.callStep hadmits _ answer rfl ?_
    cases answer <;> exact ⟨fun kind => by cases kind <;> rfl, fun hauth => hauth, rfl⟩
  | sendSecondFactor code =>
    obtain ⟨expired, sending, -, rfl⟩ := hconverse
    refine h.callStep hadmits _ answer rfl ?_
    cases answer <;> exact ⟨fun kind => by cases kind <;> rfl, fun hauth => hauth, rfl⟩
  | intoParts =>
    -- the handover: only a login that went through has parts
    have hrun : g .run = .login := hadmits
    cases answer with
    | error error =>
      obtain ⟨-, rfl⟩ := hconverse
      rw [hrun]
      show Carries start (Function.update g .run .login) _
      rw [← hrun, Function.update_eq_self]
      exact h
    | ok context =>
      obtain ⟨parts, hparts, rfl, rfl⟩ := hconverse
      rw [hrun]
      exact h.handed hrun hpermissions hreports hparts
  | setRemote kind value =>
    -- the overlay is stored kind by kind before the tasks start
    obtain rfl : t = s := hconverse
    cases kind with
    | keyboard =>
      obtain ⟨context, hrun, rfl⟩ := hadmits
      rw [hrun]
      exact h.storeKeyboard hrun
    | clipboard =>
      obtain ⟨context, hrun, rfl⟩ := hadmits
      rw [hrun]
      exact h.storeClipboard hrun
  | spawn decoders source =>
    -- from here on the tasks may change the permissions too
    obtain rfl : t = s := hconverse
    have hrun : g .run = .stored := hadmits
    have hnext : runStage.next (g .run) (.spawn decoders source) answer = g .run := by
      rw [hrun]; rfl
    rw [hnext, Function.update_eq_self]
    exact h.engine (fun kind => by cases kind <;> rfl) fun hne => absurd hrun hne
  | setAuthenticated value =>
    have hnext : runStage.next (g .run) (.setAuthenticated value) answer = g .run := by
      cases g .run <;> rfl
    rw [hnext, Function.update_eq_self]
    cases value with
    | true =>
      obtain rfl : t = s := hconverse
      have hrun : g .run = .stored := hadmits
      exact h.engine (fun kind => by cases kind <;> rfl) fun hne => absurd hrun hne
    | false => exact h.other rfl hconverse
  | incoming => cases hadmits
  | _ =>
    rw [runStage_other _ _ rfl, Function.update_eq_self]
    exact h.other rfl hconverse

theorem Carries.receiveStep (h : Carries start g s) {a : Access} {answer : a.Answer} {t : Joined}
    (hadmits : receiveStage.admits (g .receive) a)
    (hconverse : converse box proto sha256 s a answer t) :
    Carries start (Function.update g .receive (receiveStage.next (g .receive) a answer))
      { t with engine := effect .receive s.engine a answer } := by
  cases a with
  | setRemote kind value =>
    obtain rfl : t = s := hconverse
    have hreceive : g .receive = .storing kind value := hadmits
    rw [hreceive]
    exact h.stores hreceive
  | incoming =>
    have hreceive : g .receive = .idle := hadmits.1
    cases answer with
    | message message =>
      obtain rfl : t = _ := hconverse
      rw [hreceive]
      exact h.received hreceive message
    | ended | failed | cancelled =>
      obtain rfl : t = s := hconverse
      rw [hreceive]
      show Carries start (Function.update g .receive .idle) _
      rw [← hreceive, Function.update_eq_self]
      exact h
  | setAuthenticated value => cases hadmits.2
  | sessionRecv | login | sendSecondFactor | intoParts | spawn => cases hadmits.2
  | _ =>
    rw [hadmits.1]
    show Carries start (Function.update g .receive .idle) _
    rw [← hadmits.1, Function.update_eq_self]
    exact h.other rfl hconverse

/-- The write and feed tasks and the callers take no part in the handoff. -/
theorem handsOver_of_task {task : Task} (hrun : task ≠ .run) (hreceive : task ≠ .receive)
    {a : Access} (h : task.access a = true) : handsOver a = false := by
  cases a with
  | setAuthenticated value =>
    cases value with
    | false => rfl
    | true =>
      cases task with
      | run => exact absurd rfl hrun
      | receive => exact absurd rfl hreceive
      | write | feed | caller => cases h
  | sessionRecv | login | sendSecondFactor | intoParts | incoming | setRemote | spawn =>
    cases task with
    | run => exact absurd rfl hrun
    | receive => exact absurd rfl hreceive
    | write | feed | caller => cases h
  | _ => rfl

end Steps

/-- Every access keeps the invariant, and every program is followed by the
stages of its task. -/
theorem tracked_stages (box : SecretBox) (proto : Protobuf Message) (sha256 : Bytes → Bytes)
    (setup : Setup) {start : ViewerSession} (hpermissions : start.permissions = viewerRemoteDefaults)
    (hreports : start.permissionReports = []) :
    Tracked (joinedEngine box proto sha256 setup) (fun _ _ => True) stages StageResult
      (Carries start) where
  access := by
    rintro c g task a rest answer s' - - - hI hadmits ⟨t, hconverse, -, rfl⟩
    have hother : task ≠ .run → task ≠ .receive → task.access a = true →
        Carries start g { t with engine := effect task c.shared.engine a answer } :=
      fun hrun hreceive ha => hI.other (handsOver_of_task hrun hreceive ha) hconverse
    cases task with
    | run => exact hI.runStep hpermissions hreports hadmits hconverse
    | receive => exact hI.receiveStep hadmits hconverse
    | write | feed | caller =>
      show Carries start (Function.update g _ (g _)) _
      rw [Function.update_eq_self]
      exact hother nofun nofun hadmits
  start := by
    intro g s task outcome program hI hresult hstart
    cases task with
    | run =>
      -- the run goes on from the stage its last turn left
      have hrun : g .run = .login := by
        rcases hresult with ⟨result, rfl⟩ | hrun
        · cases hstart
        · exact hrun
      refine ⟨g .run, ?_, by rwa [Function.update_eq_self]⟩
      have hlogin := followsLogin_stage setup
      rw [hrun]
      cases hstart with
      | run => exact hlogin.runStart
      | confirm => exact hlogin.confirmTurn _
      | authenticate => exact hlogin.authTurn _ (fun _ _ => trivial) _
    | receive => exact ⟨.idle, hI.begin hresult hstart⟩
    | write | feed | caller =>
      refine ⟨g _, ?_, by rwa [Function.update_eq_self]⟩
      exact (start_within hstart).follows (fun _ ha => ha) (fun _ _ _ => rfl) fun _ => trivial

/-! ### The permissions of the peer -/

/-- The session was taken over: it is published, or its tasks are spawned. -/
def TakenOver (s : State) : Prop := s.authenticated = true ∨ s.spawned.isSome = true

/-- A program's next access says what its stage is. -/
theorem storing_getD {stage : HandoffStage} {program : Program Outcome}
    (h : Follows receiveStage (StageResult .receive) stage program) (kind : Remote)
    (current : Bool) : (storing program kind).getD current = stage.settled kind current := by
  cases program with
  | ret outcome =>
    rcases h with hidle | ⟨hasleep, -⟩
    · rw [hidle]; rfl
    · rw [hasleep]; rfl
  | access a rest =>
    cases a with
    | setRemote reported value =>
      have hstage : stage = .storing reported value := h.1
      rw [hstage, storing, HandoffStage.settled]
      split
      · rfl
      · rfl
    | _ =>
      have hidle : stage = .idle ∧ _ := h.1
      rw [hidle.1]
      rfl

theorem followed_joinedInitial (setup : Setup) (wire : Established) :
    Followed stages StageResult (Carries (.fromEstablished wire)) (joinedInitial setup wire) := by
  refine ⟨fun task => if task = .receive then .asleep else .login, fun task => ?_, ?_⟩
  · cases task with
    | run => exact .inr rfl
    | receive => exact .inr ⟨rfl, rfl⟩
    | write | feed | caller => exact trivial
  · exact {
      login := fun _ => ⟨.inr (.refl _), rfl⟩
      early := fun _ => ⟨rfl, rfl, rfl, rfl⟩
      taken := fun context htaken => by cases htaken
      half := fun context hhalf => by cases hhalf
      stored := fun hstored => by cases hstored
      parts := fun parts hparts => by cases hparts }

/-- **Permission reports are carried through exactly.**  Whatever calls a session has
seen, also between its success and the handoff, the parts it hands over say what
was reported to it.  In every run of the engine with its session, the parts
handed over do so, and at any later moment a permission is the default overlaid
by the last report of the whole connection, once the report that the receive task
is about to store, if any, is stored. -/
theorem permissions_carried (box : SecretBox) (proto : Protobuf Message) (sha256 : Bytes → Bytes)
    (wire : Established) (setup : Setup) {c : Config Access.Answer Outcome Joined Task}
    {ls : List (Label Access.Answer Task)}
    (hrun : Run (Step (joinedEngine box proto sha256 setup)) (joinedInitial setup wire) ls c) :
    (∀ calls parts,
      (((ViewerSession.fromEstablished wire).observe box proto sha256
        calls).1.intoAuthenticatedParts = .ok parts →
      ViewerSession.Exact parts.context (receivedMessages
        ((ViewerSession.fromEstablished wire).observe box proto sha256 calls).2))) ∧
    (∀ parts, c.shared.parts = some parts →
      ViewerSession.Exact parts.context (receivedMessages c.shared.records)) ∧
    (TakenOver c.shared.engine → ∀ kind,
      (storing (c.threads .receive) kind).getD (c.shared.engine.remote kind)
        = overlaidRemote kind c.shared.heard) := by
  refine ⟨fun calls parts hparts => ?_, ?_⟩
  · exact (ViewerSession.observe_recorded box proto sha256 _ calls).exact rfl rfl hparts
  · obtain ⟨g, hfollows, hI⟩ := (tracked_stages box proto sha256 setup rfl rfl).run
      (hrun.mono fun _ _ _ hstep => ⟨trivial, hstep⟩) (followed_joinedInitial setup wire)
    refine ⟨hI.parts, fun htaken kind => ?_⟩
    have hstored : g .run = .stored := by
      by_contra hne
      obtain ⟨hauth, hspawned, -, -⟩ := hI.early hne
      rcases htaken with htrue | hsome
      · rw [hauth] at htrue
        cases htrue
      · rw [hspawned] at hsome
        cases hsome
    rw [storing_getD (hfollows .receive)]
    exact hI.stored hstored kind

/-! ### A run: one permission denied before the login, one after it -/

/-- A report that denies a permission. -/
def denial (permission : Permission) : Message :=
  .ofMisc (.permissionInfo { permission := .known permission })

def deskChallenge : Message := .of (.hash { challenge := "c0ffee" })

def deskInfo : PeerInfo := { displays := [{ width := 1920, height := 1080 }] }

def deskWelcome : Message := .of (.loginResponse { union := some (.peerInfo deskInfo) })

def deskRequest : LoginRequest := loginRequest sampleSetup sampleDecoders 1

def deskRecords : Protobuf Message := .table [
  (denial .clipboard, [0]), (deskChallenge, [1]), (.of (.loginRequest deskRequest), [2]),
  (deskWelcome, [3])]

/-- A plain connection. -/
def deskWire : Established := ⟨.fromStream, .legacyPlain false, none⟩

def deskEngine : Machine Access.Answer Outcome Joined Task :=
  joinedEngine .padding deskRecords id sampleSetup

section Desk

variable {s : Joined}

/-- An access that the session has no part in. -/
theorem alone_plain {task : Task} {a : Access} {rest : a.Answer → Program Outcome}
    {q : Program Outcome} {t t' : Joined} (answer : a.Answer)
    (hconverse : converse .padding deskRecords id s a answer t') (hallowed : allowed s.engine a answer)
    (h : Alone deskEngine (fun _ => True) task
      { t' with engine := effect task s.engine a answer } (rest answer) t q) :
    Alone deskEngine (fun _ => True) task s (.access a rest) t q :=
  .access answer ⟨t', hconverse, hallowed, rfl⟩ trivial h

/-- The session takes the next frame of the peer. -/
def Joined.takes (s : Joined) (bytes : Bytes) : Joined :=
  s.called (s.session.call .padding deskRecords id (.recv (.frame bytes) .sent))

theorem alone_takes (bytes : Bytes) {event : ViewerEvent}
    {rest : Except ViewerError ViewerEvent → Program Outcome} {q : Program Outcome} {t : Joined}
    (hresult : (s.session.recv .padding deskRecords (.frame bytes) .sent).result
      = some (.ok event))
    (h : Alone deskEngine (fun _ => True) .run (s.takes bytes) (rest (.ok event)) t q) :
    Alone deskEngine (fun _ => True) .run s (.access .sessionRecv rest) t q := by
  refine alone_plain (.ok event) ⟨.frame bytes, .sent, fun other => ?_, rfl⟩ trivial h
  rw [hresult]
  exact ⟨fun he => by rw [Except.ok.inj he], fun he => by rw [Except.ok.inj (Option.some.inj he)]⟩

/-- The peer has denied the clipboard, and asked for a login. -/
def deskAsked : Joined := ((Joined.initial sampleSetup deskWire).takes [0]).takes [1]

/-- The login is out. -/
def deskLoggedIn : Joined :=
  { deskAsked.called (deskAsked.session.call .padding deskRecords id
      (.login deskRequest none false .sent)) with
    engine := effect .run deskAsked.engine (.login deskRequest none) (.sent []) }

/-- The peer has accepted it. -/
def deskWelcomed : Joined := deskLoggedIn.takes [3]

/-- The tasks are spawned. -/
def deskServed : Joined :=
  { deskWelcomed with
    parts := deskWelcomed.session.intoAuthenticatedParts.toOption
    engine :=
      { deskWelcomed.engine with
        geometry := some sampleGeometry
        remoteKeyboard := true
        remoteClipboard := false
        authenticated := true
        control := true
        spawned := some (sampleDecoders, sampleGeometry)
        running := 3
        authoritative := some sampleGeometry } }

/-- The keyboard is denied as well. -/
def deskLocked : Joined :=
  { deskServed with
    received := [denial .keyboard]
    engine := { deskServed.engine with remoteKeyboard := false } }

theorem alone_deskLogin :
    Alone deskEngine (fun _ => True) .run ((Joined.initial sampleSetup deskWire).takes [0])
      (authTurn sampleSetup sampleDecoders none .network) deskLoggedIn
      (.ret (.authenticating sampleDecoders (some deskRequest) .network)) := by
  refine alone_plain false rfl rfl (alone_takes [1] rfl ?_)
  refine alone_plain (1 : Nat) rfl trivial ?_
  refine alone_plain (LoginSent.sent []) ⟨false, .sent, rfl, fun response hresponse => ?_, rfl⟩
    trivial (.refl _ _)
  cases hresponse
  rfl

theorem alone_deskServe :
    Alone deskEngine (fun _ => True) .run deskLoggedIn
      (authTurn sampleSetup sampleDecoders (some deskRequest) .network) deskServed supervising := by
  have hserve : Alone deskEngine (fun _ => True) .run
      { deskWelcomed with parts := deskWelcomed.session.intoAuthenticatedParts.toOption }
      (serve sampleDecoders ⟨some deskInfo, true, false⟩) deskServed supervising :=
    alone_plain () rfl trivial (alone_plain () rfl trivial (alone_plain () rfl trivial
      (alone_plain () rfl trivial (alone_plain () rfl trivial
      (alone_plain () rfl trivial (.refl _ _))))))
  refine alone_plain false rfl rfl (alone_takes [3] rfl ?_)
  exact alone_plain (Except.ok ⟨some deskInfo, true, false⟩) ⟨_, rfl, rfl, rfl⟩ rfl hserve

theorem alone_deskLock :
    Alone deskEngine (fun _ => True) .receive deskServed
      (receiveTurn sampleSetup sampleDecoders sampleGeometry) deskLocked
      (.ret (.receiving sampleDecoders sampleGeometry)) :=
  alone_plain (.message (denial .keyboard)) rfl rfl (alone_plain () rfl trivial (.refl _ _))

end Desk

/-- The clipboard is denied before the challenge, the keyboard once the receive
task is at work. -/
theorem permissions_carried_desk : ∃ ls c,
    Run (Step deskEngine) (joinedInitial sampleSetup deskWire) ls c ∧
    (∃ parts, c.shared.parts = some parts ∧
      parts.context.permissionReports = [{ permission := .known .clipboard }]) ∧
    c.shared.engine.authenticated = true ∧ ∀ kind, c.shared.engine.remote kind = false := by
  have hstart : Alone deskEngine (fun _ => True) .run (joinedInitial sampleSetup deskWire).shared
      (runStart sampleSetup) (Joined.initial sampleSetup deskWire)
      (.ret (.authenticating sampleDecoders none .network)) :=
    alone_plain (Except.ok sampleDecoders) rfl trivial (alone_plain false rfl rfl
      (alone_plain (Except.ok ()) rfl trivial (.refl _ _)))
  have hdeny : Alone deskEngine (fun _ => True) .run (Joined.initial sampleSetup deskWire)
      (authTurn sampleSetup sampleDecoders none .network)
      ((Joined.initial sampleSetup deskWire).takes [0])
      (.ret (.authenticating sampleDecoders none .network)) :=
    alone_plain false rfl rfl (alone_takes [0] rfl (.refl _ _))
  obtain ⟨_, hstarted⟩ := hstart.extend (.nil _) rfl (Start.run _)
  obtain ⟨_, hdenied⟩ := Alone.extend (d := (joinedInitial sampleSetup deskWire).set .run _ _) hdeny
    hstarted (Config.set_threads ..) (Start.authenticate _ _ _ _)
  obtain ⟨_, hasked⟩ := Alone.extend (d := Config.set _ .run _ _) alone_deskLogin hdenied
    (Config.set_threads ..) (Start.authenticate _ _ _ _)
  obtain ⟨_, hserved⟩ := Alone.extend (d := Config.set _ .run _ _) alone_deskServe hasked
    (Config.set_threads ..) (Start.authenticate _ _ _ _)
  obtain ⟨_, hlocked⟩ := Alone.extend (d := Config.set _ .run _ _) alone_deskLock hserved rfl
    (Start.spawnReceive rfl)
  refine ⟨_, _, hlocked, ⟨_, rfl, rfl⟩, rfl, fun kind => ?_⟩
  have hcarried := (permissions_carried .padding deskRecords id deskWire sampleSetup
    hlocked).2.2 (.inl rfl) kind
  refine hcarried.trans ?_
  cases kind with
  | keyboard | clipboard => rfl

end Viewer

end RdEngine
