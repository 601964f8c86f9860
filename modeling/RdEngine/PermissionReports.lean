/-
RdEngine/PermissionReports.lean

The permission reports that reach the viewer's session, from the connection's first
record to the moment its parts are handed over.

`recorded` takes the reports of a list of messages into a session, one by one, as
`record_permission` does.  Every call of the session leaves what the reports of
the records it received make of it (`call_recorded`), so that what is handed
over is a matter of these reports alone (`handed_reports`).
-/
import RdEngine.Lib.Latest
import RdEngine.SessionSafety

namespace RdEngine

open Lts Latest

/-! ### Reports -/

/-- The permission report a message carries. -/
def permissionReport (message : Message) : Option PermissionInfo :=
  match message.union with
  | some (.misc { union := some (.permissionInfo info) }) => some info
  | _ => none

/-- The reports about permissions this viewer knows; a number outside the
enumeration is not one. -/
def knownReports (messages : List Message) : List PermissionInfo :=
  (messages.filterMap permissionReport).filter (·.permission.enumValue.isSome)

/-- The last report of a permission, among these messages. -/
def lastReport (permission : Permission) (messages : List Message) : Option PermissionInfo :=
  latest PermissionInfo.permission (.known permission) (knownReports messages)

/-- A default, overlaid by the last report about a permission. -/
def overlaid (allowed : Bool) (permission : Permission) (messages : List Message) : Bool :=
  ((lastReport permission messages).map (·.enabled)).getD allowed

/-- The messages among the records of a wire that were received. -/
def receivedMessages (records : List WireRecord) : List Message :=
  records.filterMap fun record =>
    match record with
    | .received message => some message
    | .sent _ => none

theorem receivedMessages_append (records more : List WireRecord) :
    receivedMessages (records ++ more) = receivedMessages records ++ receivedMessages more :=
  List.filterMap_append

theorem knownReports_append (messages more : List Message) :
    knownReports (messages ++ more) = knownReports messages ++ knownReports more := by
  rw [knownReports, List.filterMap_append, List.filter_append]
  rfl

theorem overlaid_snoc (allowed : Bool) (permission : Permission) (messages : List Message)
    (message : Message) :
    overlaid allowed permission (messages ++ [message])
      = overlaid (overlaid allowed permission messages) permission [message] := by
  rw [overlaid, overlaid, overlaid, lastReport, lastReport, lastReport, knownReports_append]
  rcases h : knownReports [message] with - | ⟨info, - | ⟨other, rest⟩⟩
  · rw [List.append_nil]
    rfl
  · rw [latest_snoc, ← List.nil_append [info], latest_snoc]
    split
    · rfl
    · rfl
  · -- one message carries one report at most
    have hlength := List.length_filter_le (fun info : PermissionInfo => info.permission.enumValue.isSome)
      ([message].filterMap permissionReport)
    have hone := List.length_filterMap_le permissionReport [message]
    rw [← knownReports, h] at hlength
    simp only [List.length_cons, List.length_nil] at hlength hone
    omega

/-! ### What a session makes of them -/

namespace ViewerSession

/-- The session has taken in the report of a message, if it carries one. -/
def recordMessage (session : ViewerSession) (message : Message) : ViewerSession :=
  match permissionReport message with
  | some info => session.recordPermission info
  | none => session

/-- The session, once it has recorded these messages. -/
def recorded (session : ViewerSession) (messages : List Message) : ViewerSession :=
  messages.foldl recordMessage session

/-- Two sessions know the same about the host's permissions. -/
structure SameReports (s t : ViewerSession) : Prop where
  permissions : s.permissions = t.permissions
  reports : s.permissionReports = t.permissionReports

theorem SameReports.refl (s : ViewerSession) : SameReports s s := ⟨rfl, rfl⟩

theorem SameReports.trans {s t u : ViewerSession} (h : SameReports s t) (h' : SameReports t u) :
    SameReports s u :=
  ⟨h.permissions.trans h'.permissions, h.reports.trans h'.reports⟩

theorem SameReports.recordMessage {s t : ViewerSession} (h : SameReports s t) (message : Message) :
    SameReports (s.recordMessage message) (t.recordMessage message) := by
  unfold ViewerSession.recordMessage
  split
  · unfold recordPermission
    split
    · exact h
    · exact ⟨by rw [h.permissions], by rw [h.reports]⟩
  · exact h

theorem SameReports.recorded {s t : ViewerSession} (h : SameReports s t) (messages : List Message) :
    SameReports (s.recorded messages) (t.recorded messages) := by
  induction messages generalizing s t with
  | nil => exact h
  | cons message messages ih => exact ih (h.recordMessage message)

/-! ### One call -/

variable {box : SecretBox} {proto : Protobuf Message} {sha256 : Bytes → Bytes}

/-- What carries no report is not recorded. -/
theorem recordMessage_of_none {session : ViewerSession} {message : Message}
    (h : permissionReport message = none) : session.recordMessage message = session := by
  rw [recordMessage, h]

/-- The turn leaves what `session` knows, and has received nothing. -/
structure Quiet {α : Type} (session : ViewerSession) (turn : ViewerTurn α) : Prop where
  same : SameReports turn.session session
  received : receivedMessages turn.records = []

theorem quiet_sendThen {α : Type} (session : ViewerSession) (message : Message)
    (answer : SendAnswer) {next : ViewerSession → ViewerSession} (value : α)
    (hnext : ∀ io, SameReports (next { session with io := io }) session) :
    Quiet session (session.sendThen box proto message answer next value) := by
  unfold sendThen
  split
  · exact ⟨⟨rfl, rfl⟩, rfl⟩
  · exact ⟨⟨rfl, rfl⟩, rfl⟩
  · exact ⟨hnext _, rfl⟩

theorem quiet_loginResponse (session : ViewerSession) (response : LoginResponse) :
    Quiet session (session.loginResponse response) := by
  unfold loginResponse
  split
  · split
    · exact ⟨⟨rfl, rfl⟩, rfl⟩
    · exact ⟨⟨rfl, rfl⟩, rfl⟩
  · split
    · exact ⟨⟨rfl, rfl⟩, rfl⟩
    · exact ⟨⟨rfl, rfl⟩, rfl⟩
  · exact ⟨⟨rfl, rfl⟩, rfl⟩

theorem quiet_admitRecord (session : ViewerSession) (message : Message) :
    Quiet (session.recordMessage message) (session.admitRecord message) := by
  have hnotice : permissionReport message = none → Quiet (session.recordMessage message)
      (if session.state = .active then session.done (.ok (ViewerEvent.payload message))
        else session.done (.ok (.preAuthControl message))) := by
    intro h
    rw [recordMessage_of_none h]
    split
    · exact ⟨.refl _, rfl⟩
    · exact ⟨.refl _, rfl⟩
  unfold admitRecord
  split
  · next info hunion =>
    rw [recordMessage, permissionReport, hunion]
    exact ⟨.refl _, rfl⟩
  · next hunion => exact hnotice (by rw [permissionReport, hunion])
  · next hunion => exact hnotice (by rw [permissionReport, hunion])
  · next hreport _ _ =>
    have hnone : permissionReport message = none := by
      unfold permissionReport
      split
      · next info hunion => exact absurd hunion (hreport info)
      · rfl
    rw [recordMessage_of_none hnone]
    split
    · exact ⟨.refl _, rfl⟩
    · exact ⟨⟨rfl, rfl⟩, rfl⟩

/-- A record that is not a permission report leaves the reports alone, whatever
else it does. -/
theorem quiet_dispatch (session : ViewerSession) (message : Message) (answer : SendAnswer) :
    Quiet (session.recordMessage message) (session.dispatch box proto message answer) := by
  -- a message that is no report records nothing
  have hother : permissionReport message = none → ∀ turn : ViewerTurn ViewerEvent,
      Quiet session turn → Quiet (session.recordMessage message) turn := by
    intro h turn hquiet
    rw [recordMessage_of_none h]
    exact hquiet
  have hadmit := quiet_admitRecord session message
  unfold dispatch
  split
  · next hclose =>
    refine hother ?_ _ ⟨⟨rfl, rfl⟩, rfl⟩
    unfold isClose at hclose
    split at hclose
    · next hunion => rw [permissionReport, hunion]
    · cases hclose
  · split
    · next probe hunion =>
      refine hother (by rw [permissionReport, hunion]) _ ?_
      split
      · exact ⟨.refl _, rfl⟩
      · split
        · exact quiet_sendThen session message answer _ fun _ => ⟨rfl, rfl⟩
        · exact ⟨.refl _, rfl⟩
    · next hunion =>
      exact hother (by rw [permissionReport, hunion]) _ ⟨.refl _, rfl⟩
    · next hunion =>
      split
      · exact hother (by rw [permissionReport, hunion]) _ ⟨.refl _, rfl⟩
      · exact hadmit
    · next hash hunion =>
      split
      · refine hother (by rw [permissionReport, hunion]) _ ?_
        split
        · exact ⟨⟨rfl, rfl⟩, rfl⟩
        · exact ⟨⟨rfl, rfl⟩, rfl⟩
      · exact hadmit
    · next response hunion =>
      split
      · exact hother (by rw [permissionReport, hunion]) _ (quiet_loginResponse session response)
      · exact hadmit
    · exact hadmit

/-- Between a session and what a call makes of it, given the records of the
call: the session is closed, or exactly the reports received were recorded. -/
def Recorded (session session' : ViewerSession) (records : List WireRecord) : Prop :=
  session'.state = .closed ∨ SameReports session' (session.recorded (receivedMessages records))

theorem Quiet.recorded {α : Type} {session : ViewerSession} {turn : ViewerTurn α}
    (h : Quiet session turn) : Recorded session turn.session turn.records := by
  refine .inr ?_
  rw [h.received]
  exact h.same

theorem recorded_recvInner (session : ViewerSession) (incoming : Incoming) (answer : SendAnswer) :
    Recorded session (session.recvInner box proto incoming answer).session
      (session.recvInner box proto incoming answer).records := by
  unfold recvInner
  split
  · exact Quiet.recorded ⟨.refl _, rfl⟩
  · dsimp only
    split
    · next message _ =>
      have hquiet := @quiet_dispatch box proto
        { session with io := (session.io.recv box proto incoming).1 } message answer
      have hsame : SameReports
          { session with io := (session.io.recv box proto incoming).1 } session := ⟨rfl, rfl⟩
      refine .inr ?_
      rw [ViewerTurn.heard, receivedMessages, List.filterMap_cons, ← receivedMessages,
        hquiet.received]
      exact hquiet.same.trans (hsame.recordMessage message)
    · exact .inl rfl
    · exact .inl rfl
    · exact .inl rfl

theorem recorded_recv (session : ViewerSession) (incoming : Incoming) (answer : SendAnswer) :
    Recorded session (session.recv box proto incoming answer).session
      (session.recv box proto incoming answer).records := by
  have hinner := @recorded_recvInner box proto session incoming answer
  unfold recv
  dsimp only
  split
  · exact .inl rfl
  · split
    · exact .inl rfl
    · exact hinner

theorem recorded_orTerminate {α : Type} {session : ViewerSession} {turn : ViewerTurn α}
    (h : Recorded session turn.session turn.records) :
    Recorded session (orTerminate turn).session (orTerminate turn).records := by
  unfold orTerminate
  split
  · exact .inl rfl
  · exact h

theorem recorded_login (session : ViewerSession) (request : LoginRequest)
    (password : Option Bytes) (expired : Bool) (answer : SendAnswer) :
    Recorded session (session.login box proto sha256 request password expired answer).session
      (session.login box proto sha256 request password expired answer).records := by
  unfold login
  split
  · exact .inl rfl
  · split
    · exact Quiet.recorded ⟨.refl _, rfl⟩
    · exact recorded_orTerminate (quiet_sendThen session _ answer _ fun _ => ⟨rfl, rfl⟩).recorded

theorem recorded_sendSecondFactor (session : ViewerSession) (code : String) (expired : Bool)
    (answer : SendAnswer) :
    Recorded session (session.sendSecondFactor box proto code expired answer).session
      (session.sendSecondFactor box proto code expired answer).records := by
  unfold sendSecondFactor
  split
  · exact .inl rfl
  · split
    · exact Quiet.recorded ⟨.refl _, rfl⟩
    · exact recorded_orTerminate (quiet_sendThen session _ answer _ fun _ => ⟨rfl, rfl⟩).recorded

theorem recorded_call (session : ViewerSession) (c : Call) :
    Recorded session (session.call box proto sha256 c).1 (session.call box proto sha256 c).2 := by
  cases c with
  | recv incoming answer => exact recorded_recv session incoming answer
  | login request password expired answer =>
    exact recorded_login session request password expired answer
  | secondFactor code expired answer => exact recorded_sendSecondFactor session code expired answer
  | close answer =>
    have hquiet : Quiet session (session.sendThen box proto closeMessage answer id ()) :=
      quiet_sendThen session closeMessage answer () fun _ => ⟨rfl, rfl⟩
    simp only [call]
    unfold close
    split
    · exact Quiet.recorded ⟨.refl _, rfl⟩
    · dsimp only
      split
      · exact hquiet.recorded
      · exact .inl rfl

/-! ### A whole run -/

/-- A closed session stays closed. -/
theorem call_closed {session : ViewerSession} (h : session.state = .closed) (c : Call) :
    (session.call box proto sha256 c).1.state = .closed := by
  have hmove : Move session (session.call box proto sha256 c).1
      (session.call box proto sha256 c).2 := call_move session c
  generalize (session.call box proto sha256 c).1 = session' at hmove
  generalize (session.call box proto sha256 c).2 = records at hmove
  cases hmove with
  | keep io _ _ => exact h
  | clear _ hcleared => exact hcleared.state
  | challenge io hstate _ => rw [h] at hstate; cases hstate
  | report io _ _ _ hopen => exact absurd h hopen
  | answered io _ _ hopen _ _ => exact absurd h hopen
  | authorized io hopen _ _ => exact absurd h hopen
  | requested io hwait _ _ => exact absurd h hwait.ne.2.2

theorem Recorded.call {start session : ViewerSession} {log : List WireRecord}
    (h : Recorded start session log) (c : Call) :
    Recorded start (session.call box proto sha256 c).1
      (log ++ (session.call box proto sha256 c).2) := by
  rcases h with hclosed | hsame
  · exact .inl (call_closed hclosed c)
  · have hcall : Recorded session (session.call box proto sha256 c).1
        (session.call box proto sha256 c).2 := recorded_call session c
    rcases hcall with hclosed | hcall
    · exact .inl hclosed
    · refine .inr (hcall.trans ?_)
      rw [receivedMessages_append, ViewerSession.recorded, ViewerSession.recorded,
        List.foldl_append]
      exact hsame.recorded _

theorem observe_recorded (box : SecretBox) (proto : Protobuf Message) (sha256 : Bytes → Bytes)
    (session : ViewerSession) (calls : List Call) :
    Recorded session (session.observe box proto sha256 calls).1
      (session.observe box proto sha256 calls).2 :=
  Lts.foldl_invariant (I := fun o : ViewerSession × List WireRecord => Recorded session o.1 o.2)
    (.inr (.refl _)) (fun _ c h => h.call c) calls

/-! ### What is handed over -/

/-- Only the reports about known permissions are recorded. -/
theorem recorded_eq (session : ViewerSession) (messages : List Message) :
    session.recorded messages = (knownReports messages).foldl recordPermission session := by
  induction messages generalizing session with
  | nil => rfl
  | cons message messages ih =>
    have hsplit : knownReports (message :: messages)
        = knownReports [message] ++ knownReports messages := knownReports_append [message] messages
    rw [recorded, List.foldl_cons, ← recorded, ih, hsplit, List.foldl_append]
    congr 1
    rw [recordMessage, knownReports, List.filterMap_cons, List.filterMap_nil]
    rcases hreport : permissionReport message with - | info
    · rfl
    · dsimp only
      rw [List.filter_cons, recordPermission]
      rcases hknown : info.permission.enumValue with - | permission
      · rfl
      · dsimp only
        rw [Option.isSome_some, if_pos rfl, List.filter_nil, List.foldl_cons, List.foldl_nil,
          recordPermission, hknown]

theorem putReport_eq (info : PermissionInfo) (reports : List PermissionInfo) :
    putReport info reports = put PermissionInfo.permission info reports := by
  induction reports with
  | nil => rfl
  | cons old reports ih => rw [putReport, put, ih]

theorem recorded_reports (session : ViewerSession) (infos : List PermissionInfo)
    (hknown : ∀ info ∈ infos, info.permission.enumValue.isSome) :
    (infos.foldl recordPermission session).permissionReports
      = infos.foldl (fun reports info => put PermissionInfo.permission info reports)
        session.permissionReports := by
  induction infos generalizing session with
  | nil => rfl
  | cons info infos ih =>
    rw [List.forall_mem_cons] at hknown
    obtain ⟨permission, hpermission⟩ := Option.isSome_iff_exists.mp hknown.1
    rw [List.foldl_cons, ih _ hknown.2, List.foldl_cons, recordPermission, hpermission,
      ← putReport_eq]

/-- The permissions are the defaults, overlaid by the last reports. -/
structure Overlays (permissions : Permissions) (messages : List Message) : Prop where
  keyboard : permissions.keyboard = overlaid viewerRemoteDefaults.keyboard .keyboard messages
  clipboard : permissions.clipboard = overlaid viewerRemoteDefaults.clipboard .clipboard messages
  audio : permissions.audio = overlaid viewerRemoteDefaults.audio .audio messages
  file : permissions.file = overlaid viewerRemoteDefaults.file .file messages

/-- What is handed over says exactly what was reported: the list has one entry
for each known permission that was reported, with its last value. -/
structure Exact (context : AuthenticatedContext) (messages : List Message) : Prop where
  permissions : Overlays context.permissions messages
  reports : Tabulates PermissionInfo.permission context.permissionReports (knownReports messages)

/-- What a report about one permission sets, and no other report, is overlaid. -/
theorem overlaid_recorded {session : ViewerSession} {permission : Permission} {allowed : Bool}
    (kept : ViewerSession → Bool) (hfresh : kept session = allowed)
    (hkept : ∀ s known enabled, kept (recordPermission s ⟨.known known, enabled⟩) =
      if known = permission then enabled else kept s)
    (hother : ∀ s number enabled, kept (recordPermission s ⟨.unknown number, enabled⟩) = kept s)
    (messages : List Message) :
    kept (session.recorded messages) = overlaid allowed permission messages := by
  have hrecord : ∀ s info, kept (recordPermission s info) =
      if info.permission = .known permission then info.enabled else kept s := by
    intro s info
    obtain ⟨known | number, enabled⟩ := info
    · simpa using hkept s known enabled
    · exact hother s number enabled
  rw [recorded_eq, foldl_latest hrecord, hfresh]
  rfl

theorem overlays_recorded {session : ViewerSession}
    (hfresh : session.permissions = viewerRemoteDefaults) (messages : List Message) :
    Overlays (session.recorded messages).permissions messages where
  keyboard := overlaid_recorded (fun s => s.permissions.keyboard) (by rw [hfresh])
    (fun _ known _ => by cases known <;> rfl) (fun _ _ _ => rfl) messages
  clipboard := overlaid_recorded (fun s => s.permissions.clipboard) (by rw [hfresh])
    (fun _ known _ => by cases known <;> rfl) (fun _ _ _ => rfl) messages
  audio := overlaid_recorded (fun s => s.permissions.audio) (by rw [hfresh])
    (fun _ known _ => by cases known <;> rfl) (fun _ _ _ => rfl) messages
  file := overlaid_recorded (fun s => s.permissions.file) (by rw [hfresh])
    (fun _ known _ => by cases known <;> rfl) (fun _ _ _ => rfl) messages

theorem tabulates_recorded {session : ViewerSession} (hfresh : session.permissionReports = [])
    (messages : List Message) :
    Tabulates PermissionInfo.permission (session.recorded messages).permissionReports
      (knownReports messages) := by
  have hknown : ∀ info ∈ knownReports messages, info.permission.enumValue.isSome :=
    fun info hinfo => (List.mem_filter.mp hinfo).2
  rw [recorded_eq, recorded_reports session _ hknown, hfresh]
  exact tabulates_collect (knownReports messages)

theorem intoAuthenticatedParts_ok {session : ViewerSession} {parts : AuthenticatedParts}
    (h : session.intoAuthenticatedParts = .ok parts) :
    session.state = .active ∧ parts.context.permissions = session.permissions ∧
      parts.context.permissionReports = session.permissionReports ∧
      parts.context.peerInfo = session.peerInfo := by
  unfold intoAuthenticatedParts at h
  split_ifs at h with hstate
  split at h
  · cases h
  · split at h
    · cases h
    · cases h
      exact ⟨not_not.mp hstate, rfl, rfl, rfl⟩

/-- A session that started fresh hands over exactly what was reported to it. -/
theorem Recorded.exact {start session : ViewerSession} {log : List WireRecord}
    (h : Recorded start session log) (hpermissions : start.permissions = viewerRemoteDefaults)
    (hreports : start.permissionReports = []) {parts : AuthenticatedParts}
    (hparts : session.intoAuthenticatedParts = .ok parts) :
    Exact parts.context (receivedMessages log) := by
  obtain ⟨hactive, hp, hr, -⟩ := intoAuthenticatedParts_ok hparts
  rcases h with hclosed | hsame
  · rw [hactive] at hclosed
    cases hclosed
  · refine ⟨?_, ?_⟩
    · rw [hp, hsame.permissions]
      exact overlays_recorded hpermissions _
    · rw [hr, hsame.reports]
      exact tabulates_recorded hreports _

end ViewerSession

end RdEngine
