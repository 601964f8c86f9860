/-
RdEngine/Compat/FlutterSessions.lean

The sessions of the Flutter bridge and their event streams (`flutter_session.rs`;
`session_start` and `session_close` of `flutter_ffi.rs`).

A session has at most one stream.  `session_start` attaches one, starts the viewer and
spawns a task that pumps until the session is gone, has no stream, or has told "close".
These are separate sections under one lock, so calls, tasks and removals interleave, and
several tasks may pump one session.
-/
import RdEngine.Compat.EventPump
import RdEngine.Compat.StartFailures

namespace RdEngine

namespace Compat

namespace Flutter

/-! ### Sessions -/

/-- `parse_route`. -/
def parseRoute (target : String) : Option Route :=
  let target := trim target.toList
  match SocketAddr.parse (.ofList target) with
  | some address => if address.port ≠ 0 then some (.direct address) else none
  | none =>
    match IpAddr.parse (.ofList target) with
    | some ip => some (.direct { ip, port := defaultDirectPort })
    | none =>
      let text := String.ofList target
      if !target.isEmpty && text.utf8ByteSize ≤ 256 && !target.any isControl then
        some (.rendezvous text)
      else none

/-- What the frontend asks of a new session. -/
structure AddOptions where
  isFileTransfer : Bool := false
  isPortForward : Bool := false
  isRdp : Bool := false
  isTerminal : Bool := false
  forceRelay : Bool := false
  password : String := ""
deriving DecidableEq

def maxSessions : Nat := 16

/-- A session with its stream, by the number of the stream. -/
structure StreamedSession extends Session where
  peer : String
  events : Option Nat := none
  pump : PumpState := {}
deriving DecidableEq

/-- `SESSIONS`. -/
abbrev Sessions := List StreamedSession

namespace Sessions

def get (sessions : Sessions) (id : Nat) : Option StreamedSession := sessions.find? (·.id == id)

/-- What `get_mut` is used for. -/
def modify (sessions : Sessions) (id : Nat) (f : StreamedSession → StreamedSession) : Sessions :=
  sessions.map fun session => if session.id == id then f session else session

end Sessions

/-- `add`, up to the registry. -/
def newSession (id : Nat) (peer : String) (options : AddOptions) :
    Except String StreamedSession := do
  if options.isTerminal then throw "Terminal sessions are not supported by this runtime"
  if options.isFileTransfer || options.isPortForward || options.isRdp then
    throw "Only remote-control sessions are supported by this runtime"
  if options.password.utf8ByteSize > 4096 then throw "Password is too long"
  if options.forceRelay then throw "Forced relay routing is not supported by this runtime"
  let some route := parseRoute peer | throw "Invalid peer target"
  return {
    id, route
    password := options.password
    viewer := none
    peer := .ofList (trim peer.toList) }

/-- `session_add_sync`: a new id, as long as there is room. -/
def add (id : Nat) (peer : String) (options : AddOptions) (sessions : Sessions) :
    Sessions × Except String Unit :=
  match newSession id peer options with
  | .error message => (sessions, .error message)
  | .ok session =>
    if (sessions.get id).isSome then (sessions, .error "Session already exists")
    else if sessions.length ≥ maxSessions then (sessions, .error "Session limit reached")
    else (sessions ++ [session], .ok ())

def remove (id : Nat) (sessions : Sessions) : Sessions := sessions.filter (·.id != id)

/-- `attach_stream`; the stream that is replaced is told "close". -/
def attachStream (id sink : Nat) (sessions : Sessions) :
    Sessions × List (Nat × UiEvent) × Except String Unit :=
  match sessions.get id with
  | none => (sessions, [], .error "Session not found")
  | some session =>
    (sessions.modify id fun session =>
        { session with events := some sink, pump := { session.pump with closeSent := false } },
      session.events.toList.map (·, .text "close"), .ok ())

/-- `start`, as far as it succeeds; the password is taken in any case. -/
def startViewer (runtime : Runtime) (id backend : Nat) (sessions : Sessions) :
    Sessions × Except String Unit :=
  if runtime.localId.isEmpty then (sessions, .error "Runtime identity is unavailable")
  else
    match sessions.get id with
    | none => (sessions, .error "Session not found")
    | some session =>
      if session.viewer.isSome then (sessions, .ok ())
      else
        let taken := sessions.modify id fun session => { session with password := "" }
        match openViewer runtime session.toSession with
        | .error message => (taken, .error message)
        | .ok () => (taken.modify id fun session => { session with viewer := some backend }, .ok ())

/-- `pump`: what it tells the stream, given what the viewer shows. -/
def pumpSession (toText : List JsonObject → String) (snapshot : ViewerSnapshot)
    (peer : Option PeerReport) (id : Nat) (sessions : Sessions) :
    Sessions × List (Nat × UiEvent) :=
  match sessions.get id with
  | none => (sessions, [])
  | some session =>
    match session.events, session.viewer with
    | some sink, some _ =>
      (sessions.modify id fun session =>
          { session with pump := (collect toText snapshot peer session.pump).1 },
        (collect toText snapshot peer session.pump).2.map (sink, ·))
    | _, _ => (sessions, [])

/-! ### Calls and tasks -/

/-- A call of `session_start` that has attached its stream. -/
structure StartCall where
  id : Nat
  sink : Nat
  started : Bool := false
deriving DecidableEq

/-- Where a pump is within its turn. -/
inductive TaskStage where
  | looks | pumps | checks
deriving DecidableEq

/-- A task of `spawn_pump`. -/
structure PumpTask where
  id : Nat
  stage : TaskStage := .looks
deriving DecidableEq

/-- The bridge: its sessions, the starts that are under way and the pumps. -/
structure Bridge where
  sessions : Sessions := []
  calls : List StartCall := []
  tasks : List PumpTask := []
  /-- how many streams the frontend has opened -/
  opened : Nat := 0
  /-- what was told to which stream -/
  told : List (Nat × UiEvent) := []
  /-- the streams whose `session_start` has returned without an error -/
  handed : List Nat := []

inductive BridgeLabel where
  | adds (id : Nat)
  | attaches (id sink : Nat)
  | starts (id : Nat)
  | spawns (id sink : Nat)
  | fails
  | turns (id : Nat)
  | pumps (id : Nat)
  | ends (id : Nat)
  | removes (id : Nat)
deriving DecidableEq

/-- The task goes on: there is a session with a stream. -/
def hasStream (sessions : Sessions) (id : Nat) : Bool :=
  (sessions.get id).any fun session => session.events.isSome

/-- The task is done: its session is gone, or has told "close". -/
def finished (sessions : Sessions) (id : Nat) : Bool :=
  ((sessions.get id).map fun session => session.pump.closeSent).getD true

section Steps

variable (toText : List JsonObject → String) (runtime : Runtime)

/-- One critical section of a call or of a pump. -/
inductive Bridge.Step : Bridge → BridgeLabel → Bridge → Prop
  | adds (s : Bridge) (id : Nat) (peer : String) (options : AddOptions) :
      Step s (.adds id) { s with sessions := (add id peer options s.sessions).1 }
  -- `session_start`, in three sections
  | attaches (s : Bridge) (id : Nat)
      (hattach : (attachStream id s.opened s.sessions).2.2 = .ok ()) :
      Step s (.attaches id s.opened)
        { s with
          sessions := (attachStream id s.opened s.sessions).1
          calls := s.calls ++ [{ id, sink := s.opened }]
          opened := s.opened + 1
          told := s.told ++ (attachStream id s.opened s.sessions).2.1 }
  | attachFails (s : Bridge) (id : Nat) {message : String}
      (hattach : (attachStream id s.opened s.sessions).2.2 = .error message) :
      Step s .fails { s with opened := s.opened + 1 }
  | starts {s : Bridge} {before after : List StartCall} {call : StartCall} (backend : Nat)
      (hcalls : s.calls = before ++ call :: after) (hstage : call.started = false)
      (hstart : (startViewer runtime call.id backend s.sessions).2 = .ok ()) :
      Step s (.starts call.id)
        { s with
          sessions := (startViewer runtime call.id backend s.sessions).1
          calls := before ++ { call with started := true } :: after }
  | startFails {s : Bridge} {before after : List StartCall} {call : StartCall} {message : String}
      (backend : Nat) (hcalls : s.calls = before ++ call :: after) (hstage : call.started = false)
      (hstart : (startViewer runtime call.id backend s.sessions).2 = .error message) :
      Step s .fails
        { s with
          sessions := (startViewer runtime call.id backend s.sessions).1
          calls := before ++ after }
  | spawns {s : Bridge} {before after : List StartCall} {call : StartCall}
      (hcalls : s.calls = before ++ call :: after) (hstage : call.started = true) :
      Step s (.spawns call.id call.sink)
        { s with
          calls := before ++ after
          tasks := s.tasks ++ [{ id := call.id }]
          handed := s.handed ++ [call.sink] }
  /- there is no executor -/
  | spawnFails {s : Bridge} {before after : List StartCall} {call : StartCall}
      (hcalls : s.calls = before ++ call :: after) (hstage : call.started = true) :
      Step s .fails { s with calls := before ++ after }
  -- a task
  | looks {s : Bridge} {before after : List PumpTask} {task : PumpTask}
      (htasks : s.tasks = before ++ task :: after) (hstage : task.stage = .looks)
      (hstreams : hasStream s.sessions task.id = true) :
      Step s (.turns task.id) { s with tasks := before ++ { task with stage := .pumps } :: after }
  | looksAway {s : Bridge} {before after : List PumpTask} {task : PumpTask}
      (htasks : s.tasks = before ++ task :: after) (hstage : task.stage = .looks)
      (hstreams : hasStream s.sessions task.id = false) :
      Step s (.ends task.id) { s with tasks := before ++ after }
  | pumps {s : Bridge} {before after : List PumpTask} {task : PumpTask} (snapshot : ViewerSnapshot)
      (peer : Option PeerReport) (htasks : s.tasks = before ++ task :: after)
      (hstage : task.stage = .pumps) :
      Step s (.pumps task.id)
        { s with
          sessions := (pumpSession toText snapshot peer task.id s.sessions).1
          tasks := before ++ { task with stage := .checks } :: after
          told := s.told ++ (pumpSession toText snapshot peer task.id s.sessions).2 }
  | checks {s : Bridge} {before after : List PumpTask} {task : PumpTask}
      (htasks : s.tasks = before ++ task :: after) (hstage : task.stage = .checks)
      (hfinished : finished s.sessions task.id = false) :
      Step s (.turns task.id) { s with tasks := before ++ { task with stage := .looks } :: after }
  | finishes {s : Bridge} {before after : List PumpTask} {task : PumpTask}
      (htasks : s.tasks = before ++ task :: after) (hstage : task.stage = .checks)
      (hfinished : finished s.sessions task.id = true) :
      Step s (.ends task.id) { s with tasks := before ++ after }
  -- `session_close`
  | removes (s : Bridge) (id : Nat) :
      Step s (.removes id) { s with sessions := remove id s.sessions }

end Steps

/-! ### The registry's operations -/

namespace Sessions

variable {sessions : Sessions} {id : Nat} {session : StreamedSession}
  {f : StreamedSession → StreamedSession}

/-- No two sessions have one id. -/
def Distinct (sessions : Sessions) : Prop := (sessions.map (·.id)).Nodup

theorem get_some (h : sessions.get id = some session) : session ∈ sessions ∧ session.id = id := by
  unfold get at h
  exact ⟨List.mem_of_find?_eq_some h, by simpa using List.find?_some h⟩

theorem get_none (h : sessions.get id = none) : ∀ session ∈ sessions, session.id ≠ id := by
  unfold get at h
  intro session hmem
  simpa using List.find?_eq_none.mp h session hmem

theorem Distinct.get (h : sessions.Distinct) (hmem : session ∈ sessions) :
    sessions.get session.id = some session := by
  cases hget : sessions.get session.id with
  | none => exact absurd rfl (get_none hget session hmem)
  | some other =>
    obtain ⟨hother, hid⟩ := get_some hget
    rw [List.inj_on_of_nodup_map h hother hmem hid]

theorem mem_modify (h : session ∈ sessions.modify id f) :
    ∃ before ∈ sessions, (before.id = id ∧ session = f before)
      ∨ (before.id ≠ id ∧ session = before) := by
  obtain ⟨before, hmem, rfl⟩ := List.mem_map.mp h
  refine ⟨before, hmem, ?_⟩
  by_cases hid : before.id = id
  · exact .inl ⟨hid, by simp [hid]⟩
  · exact .inr ⟨hid, by simp [hid]⟩

theorem Distinct.modify (h : sessions.Distinct) (hf : ∀ a, (f a).id = a.id) :
    (sessions.modify id f).Distinct := by
  have hids : (sessions.modify id f).map (·.id) = sessions.map (·.id) := by
    unfold Sessions.modify
    rw [List.map_map]
    refine List.map_congr_left fun a _ => ?_
    show Session.id (StreamedSession.toSession (if _ then _ else _)) = _
    split
    · exact hf a
    · rfl
  unfold Distinct
  rw [hids]
  exact h

end Sessions

/-- A start takes the password and sets the viewer: on what `start` looks at, it is
`start`. -/
theorem startViewer_start (runtime : Runtime) (id backend : Nat) (sessions : Sessions) :
    (startViewer runtime id backend sessions).1.map (·.toSession)
        = (start runtime id backend (sessions.map (·.toSession))).1 ∧
      (startViewer runtime id backend sessions).2
        = (start runtime id backend (sessions.map (·.toSession))).2 := by
  have hmodify : ∀ (sessions : Sessions) (f : StreamedSession → StreamedSession)
      (g : Session → Session), (∀ a, (f a).toSession = g a.toSession) →
      (sessions.modify id f).map (·.toSession)
        = (sessions.map (·.toSession)).map fun a => if a.id == id then g a else a := by
    intro sessions f g hfg
    unfold Sessions.modify
    rw [List.map_map, List.map_map]
    refine List.map_congr_left fun a _ => ?_
    show StreamedSession.toSession (if _ then _ else _) = if _ then _ else _
    split
    · exact hfg a
    · rfl
  have hfind : (sessions.map (·.toSession)).find? (·.id == id)
      = (sessions.get id).map (·.toSession) := List.find?_map ..
  unfold startViewer start
  split
  · exact ⟨rfl, rfl⟩
  rw [hfind]
  cases sessions.get id with
  | none => exact ⟨rfl, rfl⟩
  | some session =>
    dsimp only [Option.map_some]
    split
    · exact ⟨rfl, rfl⟩
    cases openViewer runtime session.toSession with
    | error message => exact ⟨hmodify _ _ _ fun _ => rfl, rfl⟩
    | ok =>
      refine ⟨?_, rfl⟩
      rw [hmodify _ _ (fun a => { a with viewer := some backend }) fun _ => rfl,
        hmodify _ _ (fun a => { a with password := "" }) fun _ => rfl]

end Flutter

end Compat

end RdEngine
