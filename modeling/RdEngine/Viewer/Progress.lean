/-
RdEngine/Viewer/Progress.lean

What the engine can do: runs up to an authenticated session, and turns of its
threads from there.  The interleavings that break a property are put together
from these.
-/
import RdEngine.Viewer.Tasks

namespace RdEngine

namespace Viewer

open Lts Threads

/-- A label that neither withdraws a permission, nor stores an option, nor is the
receive task's change of geometry. -/
def Calm : Label Access.Answer Task → Prop
  | .access _ (.setRemote _ value) _ => value = true
  | .access task (.setGeometry _) _ => task ≠ .receive
  | .access _ (.setRequestedFps _) _ | .access _ (.setImageQuality _) _ => False
  | _ => True

section Leads

variable {P Q : Label Access.Answer Task → Prop} {setup : Setup}
  {c d e : Config Access.Answer Outcome State Task}

/-- There is a run of the engine from one configuration to another, by steps
whose labels satisfy `P`. -/
def Leads (P : Label Access.Answer Task → Prop) (setup : Setup)
    (c d : Config Access.Answer Outcome State Task) : Prop :=
  ∃ ls, Run (Where (Step (engine setup)) fun _ l => P l) c ls d

theorem Leads.refl (c : Config Access.Answer Outcome State Task) : Leads P setup c c :=
  ⟨[], .nil c⟩

theorem Leads.trans (h₁ : Leads P setup c d) (h₂ : Leads P setup d e) : Leads P setup c e := by
  obtain ⟨ls, hls⟩ := h₁
  obtain ⟨ms, hms⟩ := h₂
  exact ⟨ls ++ ms, hls.append hms⟩

/-- The run meets every condition its labels imply. -/
theorem Leads.where {C : Config Access.Answer Outcome State Task → Label Access.Answer Task → Prop}
    (h : Leads P setup c d) (hC : ∀ c l, P l → C c l) :
    ∃ ls, Run (Where (Step (engine setup)) C) c ls d := by
  obtain ⟨ls, hls⟩ := h
  exact ⟨ls, hls.mono fun s l t hst => ⟨hC s l hst.1, hst.2⟩⟩

theorem Leads.mono (h : Leads P setup c d) (hPQ : ∀ l, P l → Q l) : Leads Q setup c d :=
  h.where fun _ l => hPQ l

theorem Leads.run (h : Leads P setup c d) : ∃ ls, Run (Step (engine setup)) c ls d := by
  obtain ⟨ls, hls⟩ := h
  exact ⟨ls, hls.mono fun s l t hst => hst.2⟩

/-- A thread of the last configuration takes a turn on its own. -/
theorem Leads.turn {task : Task} {outcome : Outcome} {p q : Program Outcome} {t : State}
    (h : Leads P setup c d) (htask : d.threads task = .ret outcome)
    (hstart : Start setup d.shared task outcome p)
    (hP : P (.start task)) (halone : Alone (engine setup) P task d.shared p t q) :
    Leads P setup c (d.set task t q) :=
  h.trans (Alone.turn htask hstart hP halone)

/-- A thread of the last configuration goes on with its turn. -/
theorem Leads.goOn {task : Task} {p q : Program Outcome} {t : State} (h : Leads P setup c d)
    (htask : d.threads task = p) (halone : Alone (engine setup) P task d.shared p t q) :
    Leads P setup c (d.set task t q) :=
  h.trans (halone.run htask rfl)

end Leads

/-! ### Up to the session -/

/-- What the run task goes on with once its tasks are spawned. -/
def supervising : Program Outcome :=
  .access .awaitFirst fun first => supervise (first.getD (.ok ()))

/-- The peer's answer to the challenge was accepted and the tasks are spawned;
none of them, and no caller, has taken a step. -/
def established (setup : Setup) (decoders : Decoders) (source : Geometry) (context : Context) :
    Config Access.Answer Outcome State Task where
  shared := { State.initial setup with
    geometry := some source
    remoteKeyboard := context.keyboard
    remoteClipboard := context.clipboard
    authenticated := true
    control := true
    spawned := some (decoders, source)
    running := 3
    wire := [.of (.loginRequest (loginRequest setup decoders 1))]
    authoritative := some source }
  threads
    | .run => supervising
    | .caller _ => .ret (.returned (.ok ()))
    | _ => .ret .waiting

section Turns

variable {setup : Setup} {c : Config Access.Answer Outcome State Task} {s : State}

theorem alone_runStart {decoders : Decoders} (hcancelled : s.cancelled = false)
    (hconfirm : setup.confirmInsecure = false) :
    Alone (engine setup) Calm .run s (runStart setup) s
      (.ret (.authenticating decoders none .network)) := by
  refine .access (Except.ok decoders) ⟨trivial, rfl⟩ trivial
    (.access false ⟨hcancelled.symm, rfl⟩ trivial
    (.access (Except.ok ()) ⟨trivial, rfl⟩ trivial ?_))
  dsimp only [Prog.bind]
  rw [hconfirm]
  exact .refl _ _

theorem alone_challenge {decoders : Decoders} (hcancelled : s.cancelled = false) (sessionId : Nat) :
    Alone (engine setup) Calm .run s (authTurn setup decoders none .network)
      { s with wire := s.wire ++ [.of (.loginRequest (loginRequest setup decoders sessionId))] }
      (.ret (.authenticating decoders (some (loginRequest setup decoders sessionId)) .network)) :=
  .access false ⟨hcancelled.symm, rfl⟩ trivial
    (.access (Except.ok .challenge) ⟨trivial, rfl⟩ trivial
    (.access sessionId ⟨trivial, rfl⟩ trivial
    (.access (.sent []) ⟨trivial, rfl⟩ trivial (.refl _ _))))

theorem alone_serve {decoders : Decoders} {context : Context} {info : PeerInfo}
    {source : Geometry} (hinfo : context.peerInfo = some info)
    (hsource : sourceGeometry info = .ok source) (hkeyboard : context.keyboard = true)
    (hclipboard : context.clipboard = true) :
    Alone (engine setup) Calm .run s (serve decoders context)
      { s with
        geometry := some source
        remoteKeyboard := context.keyboard
        remoteClipboard := context.clipboard
        authenticated := true
        control := true
        spawned := some (decoders, source)
        running := 3
        authoritative := some source } supervising := by
  rw [serve, hinfo, Option.elim, hsource]
  exact .access () ⟨trivial, rfl⟩ (show Task.run ≠ .receive by decide)
    (.access () ⟨trivial, rfl⟩ hkeyboard (.access () ⟨trivial, rfl⟩ hclipboard
    (.access () ⟨trivial, rfl⟩ trivial (.access () ⟨trivial, rfl⟩ trivial
    (.access () ⟨trivial, rfl⟩ trivial (.refl _ _))))))

theorem alone_authorized {decoders : Decoders} {request : LoginRequest} {context : Context}
    {info : PeerInfo} {source : Geometry} (hcancelled : s.cancelled = false)
    (hlogin : s.wire.any isLogin = true) (hinfo : context.peerInfo = some info)
    (hsource : sourceGeometry info = .ok source) (hkeyboard : context.keyboard = true)
    (hclipboard : context.clipboard = true) :
    Alone (engine setup) Calm .run s (authTurn setup decoders (some request) .network)
      { s with
        geometry := some source
        remoteKeyboard := context.keyboard
        remoteClipboard := context.clipboard
        authenticated := true
        control := true
        spawned := some (decoders, source)
        running := 3
        authoritative := some source } supervising :=
  .access false ⟨hcancelled.symm, rfl⟩ trivial
    (.access (Except.ok (.authorized info)) ⟨trivial, rfl⟩ trivial
    (.access (Except.ok context) ⟨hlogin, rfl⟩ trivial
    (alone_serve hinfo hsource hkeyboard hclipboard)))

/-- Every login that succeeds at once, with both permissions, leads to an
established session; the run task does it alone. -/
theorem leads_login (setup : Setup) (decoders : Decoders) (context : Context)
    {info : PeerInfo} {source : Geometry} (hconfirm : setup.confirmInsecure = false)
    (hinfo : context.peerInfo = some info) (hsource : sourceGeometry info = .ok source)
    (hkeyboard : context.keyboard = true) (hclipboard : context.clipboard = true) :
    Leads (fun l => Calm l ∧ l.thread = .run) setup (initial setup)
      (established setup decoders source context) := by
  have start : Leads (fun l => Calm l ∧ l.thread = .run) setup (initial setup) _ :=
    (Leads.refl _).turn rfl (Start.run _) ⟨trivial, rfl⟩ (alone_runStart rfl hconfirm :
      Alone _ _ _ _ _ _ (.ret (.authenticating decoders _ _))).own
  have challenge := start.turn (Config.set_threads ..) (Start.authenticate _ _ _ _)
    ⟨trivial, rfl⟩ (alone_challenge rfl 1).own
  have authorized := challenge.turn (Config.set_threads ..) (Start.authenticate _ _ _ _)
    ⟨trivial, rfl⟩ (alone_authorized rfl rfl hinfo hsource hkeyboard hclipboard).own
  rw [Config.set_set, Config.set_set] at authorized
  have threads : Function.update (initial setup).threads .run supervising
      = (established setup decoders source context).threads := by
    funext task
    cases task <;> rfl
  rw [Config.set, threads] at authorized
  exact authorized

/-! ### Turns of an established session -/

/-- The session is open and its queues are. -/
structure Ready (s : State) : Prop where
  authenticated : s.authenticated = true
  cancelled : s.cancelled = false
  control : s.control = true
  queuesOpen : s.queuesOpen = true

/-- What a caller's thread runs for a call. -/
def Call.run (setup : Setup) (call : Call) : Program Outcome :=
  (call.program setup).bind fun result => .ret (.returned result)

/-- A key call with the permission and room in the queue is accepted. -/
theorem alone_sendKey (h : Ready s) (hkeyboard : s.remoteKeyboard = true)
    (hroom : s.controlQueue.length < commands) (n : Nat) (key : ViewerKey)
    (down press alt ctrl shift command : Bool) :
    Alone (engine setup) Calm (.caller n) s
      ((Call.sendKey key down press alt ctrl shift command).run setup)
      (s.push (.caller n) .control (keyMessage {
        down := down
        press := press
        mode := .known .legacy
        union := some (keyUnion key)
        modifiers := legacyModifiers alt ctrl shift command }))
      (.ret (.returned (.ok ()))) :=
  .access true ⟨h.authenticated.symm, rfl⟩ trivial (.access true ⟨hkeyboard.symm, rfl⟩ trivial
    (.access false ⟨h.cancelled.symm, rfl⟩ trivial (.access true ⟨h.control.symm, rfl⟩ trivial
    (.access (Except.ok ()) ⟨⟨h.queuesOpen, hroom⟩, rfl⟩ trivial (.refl _ _)))))

/-- So is a pointer call within the display. -/
theorem alone_sendMouse (h : Ready s) (hkeyboard : s.remoteKeyboard = true)
    (hroom : s.mouseQueue.length < commands) (n : Nat) {kind button : UInt32} {x y gx gy : Int}
    (hvalid : validMouse kind button = true) (hkind : kind ≤ 2)
    (hplace : place s.geometry x y = .ok (gx, gy)) :
    Alone (engine setup) Calm (.caller n) s ((Call.sendMouse kind button x y).run setup)
      (s.push (.caller n) .mouse (mouseMessage kind button gx gy))
      (.ret (.returned (.ok ()))) := by
  refine .access true ⟨h.authenticated.symm, rfl⟩ trivial
    (.access true ⟨hkeyboard.symm, rfl⟩ trivial (.access false ⟨h.cancelled.symm, rfl⟩ trivial ?_))
  show Alone _ _ _ _ ((if (!validMouse kind button) = true then _
    else if kind ≤ 2 then sendPlaced kind button x y else _).bind _) _ _
  rw [hvalid, if_neg (by decide), if_pos hkind]
  refine .access s.geometry ⟨rfl, rfl⟩ trivial ?_
  dsimp only [Prog.bind]
  rw [hplace]
  exact .access (Except.ok ()) ⟨⟨h.queuesOpen, hroom⟩, rfl⟩ trivial (.refl _ _)

/-- A frame rate set before the session is authenticated is only stored. -/
theorem alone_setUntold (hauth : s.authenticated = false) (n : Nat) {fps : Nat}
    (hfps : 1 ≤ fps ∧ fps ≤ 240) :
    Alone (engine setup) (fun _ => True) (.caller n) s ((Call.setRequestedFps fps).run setup)
      { s with requestedFps := fps } (.ret (.returned (.ok ()))) := by
  rw [Call.run, Call.program, setRequestedFps, if_pos hfps]
  exact .access false ⟨hauth.symm, rfl⟩ trivial (.access () ⟨trivial, rfl⟩ trivial (.refl _ _))

/-- The receive task takes a permission report from the peer. -/
theorem alone_permission {decoders : Decoders} {source : Geometry}
    (hcancelled : s.cancelled = false) (enabled : Bool) :
    Alone (engine setup) (fun _ => True) .receive s (receiveTurn setup decoders source)
      { s with remoteKeyboard := enabled } (.ret (.receiving decoders source)) :=
  .access (.message (.ofMisc (.permissionInfo ⟨.known .keyboard, enabled⟩))) ⟨hcancelled, rfl⟩
    trivial (.access () ⟨trivial, rfl⟩ trivial (.refl _ _))

/-- The write task takes the first message of the control queue, up to the
moment it writes it. -/
theorem alone_takeControl {e : Envelope} {rest : List Envelope} (hcancelled : s.cancelled = false)
    (hqueue : s.controlQueue = e :: rest) :
    Alone (engine setup) Calm .write s writeTurn { s with controlQueue := rest } (sendOut e) := by
  have htail : s.setQueue (s.queue .control).tail .control = { s with controlQueue := rest } := by
    show { s with controlQueue := s.controlQueue.tail } = _
    rw [hqueue]
    rfl
  refine .access false ⟨hcancelled.symm, rfl⟩ trivial (.access (.message e)
    ⟨show s.controlQueue.head? = some e by rw [hqueue]; rfl, htail.symm⟩ trivial
    (.access false ⟨hcancelled.symm, rfl⟩ trivial (.refl _ _)))

/-- It finds the control queue empty and is about to look at the mouse's. -/
theorem alone_pollControl (hcancelled : s.cancelled = false) (hqueue : s.controlQueue = []) :
    Alone (engine setup) Calm .write s writeTurn s pollMouse :=
  .access false ⟨hcancelled.symm, rfl⟩ trivial (.access .empty ⟨hqueue, rfl⟩ trivial (.refl _ _))

theorem alone_sendOut (e : Envelope) :
    Alone (engine setup) Calm .write s (sendOut e)
      { s with written := s.written ++ [e], wire := s.wire ++ [e.message] } (.ret .writing) :=
  .access .sent ⟨trivial, rfl⟩ trivial (.refl _ _)

/-- It takes the first message of the mouse queue, checks it and writes it. -/
theorem alone_pollMouse (h : Ready s) (hkeyboard : s.remoteKeyboard = true) {e : Envelope}
    {rest : List Envelope} (hqueue : s.mouseQueue = e :: rest) :
    Alone (engine setup) Calm .write s pollMouse
      { s with
        mouseQueue := rest
        written := s.written ++ [e]
        wire := s.wire ++ [e.message] } (.ret .writing) := by
  have htail : s.setQueue (s.queue .mouse).tail .mouse = { s with mouseQueue := rest } := by
    show { s with mouseQueue := s.mouseQueue.tail } = _
    rw [hqueue]
    rfl
  exact .access (.message e)
    ⟨show s.mouseQueue.head? = some e by rw [hqueue]; rfl, htail.symm⟩ trivial
    (.access true ⟨h.authenticated.symm, rfl⟩ trivial (.access true ⟨hkeyboard.symm, rfl⟩ trivial
    (.access false ⟨h.cancelled.symm, rfl⟩ trivial (alone_sendOut e))))

/-- The feed task takes the first record, opens a decoder for it and publishes its
geometry. -/
theorem alone_publish {record : VideoRecord} {rest : List VideoRecord}
    (hcancelled : s.cancelled = false) (hvideo : s.video = record :: rest)
    (hcontract : s.contract ≠ some (record.codec, record.geometry)) :
    Alone (engine setup) Calm .feed s feedTurn
      { s with video := rest, geometry := some record.geometry }
      (.access (.setContract (record.codec, record.geometry)) fun _ =>
        submitFrames record record.frames) := by
  have htail : { s with video := s.video.tail } = { s with video := rest } := by rw [hvideo]; rfl
  refine .access (.record record) ⟨⟨hcancelled, by rw [hvideo]; rfl⟩, htail.symm⟩ trivial
    (.access s.contract ⟨rfl, rfl⟩ trivial ?_)
  show Alone _ _ _ _ (if s.contract = some (record.codec, record.geometry) then _ else _) _ _
  rw [if_neg hcontract]
  exact .access (Except.ok ()) ⟨trivial, rfl⟩ trivial (.access false ⟨hcancelled.symm, rfl⟩ trivial
    (.access (Except.ok ()) ⟨trivial, rfl⟩ trivial
    (.access () ⟨trivial, rfl⟩ (show Task.feed ≠ .receive by decide) (.refl _ _))))

end Turns

/-! ### A session with one display -/

/-- A viewer, its peer and their records, for runs. -/
def sampleSetup : Setup where
  username := "host"
  localId := "viewer"
  localName := ""
  password := []
  requestedFps := 30
  imageQuality := .balanced
  clipboardEnabled := true
  confirmInsecure := false
  compress raw := raw
  decompressWithLimit raw _ := some raw

def sampleDecoders : Decoders := ⟨true, false⟩

def sampleGeometry : Geometry := ⟨0, 0, 0, 1920, 1080⟩

def sampleContext : Context where
  peerInfo := some { displays := [{ width := 1920, height := 1080 }] }
  keyboard := true
  clipboard := true

/-- The engine, once its tasks have begun. -/
def sampleSession : Config Access.Answer Outcome State Task :=
  established sampleSetup sampleDecoders sampleGeometry sampleContext

theorem leads_sampleLogin : Leads (fun l => Calm l ∧ l.thread = .run) sampleSetup
    (initial sampleSetup) sampleSession :=
  leads_login sampleSetup sampleDecoders sampleContext rfl rfl rfl rfl rfl

theorem leads_sampleSession : Leads Calm sampleSetup (initial sampleSetup) sampleSession :=
  leads_sampleLogin.mono fun _ h => h.1

theorem ready_sampleSession : Ready sampleSession.shared := ⟨rfl, rfl, rfl, rfl⟩

def sampleFrames : List EncodedVideoFrame := [{ data := [0] }]

def sampleRecord : VideoRecord := ⟨.h264, sampleGeometry, sampleFrames, 1⟩

/-- The receive task queues a record of one frame. -/
theorem alone_sampleVideo {s : State} (hcancelled : s.cancelled = false) (hslots : 0 < s.slots)
    (hbytes : 1 ≤ s.bytes) (hopen : s.videoOpen = true) (hroom : s.video.length < videoRecords) :
    Alone (engine sampleSetup) Calm .receive s
      (receiveTurn sampleSetup sampleDecoders sampleGeometry)
      { s with
        slots := s.slots - 1
        bytes := s.bytes - 1
        video := s.video ++ [sampleRecord] } (.ret (.receiving sampleDecoders sampleGeometry)) :=
  .access (.message (.of (.videoFrame { union := some (.h264s sampleFrames) })))
    ⟨hcancelled, rfl⟩ trivial (.access true ⟨⟨hcancelled, hslots⟩, rfl⟩ trivial
    (.access true ⟨⟨hcancelled, hbytes⟩, rfl⟩ trivial
    (.access .sent ⟨⟨hcancelled, hopen, hroom⟩, rfl⟩ trivial (.refl _ _))))

def otherGeometry : Geometry := ⟨1, 1920, 0, 1280, 720⟩

/-- The receive task takes over the geometry of another display. -/
theorem alone_switch {s : State} (hcancelled : s.cancelled = false) :
    Alone (engine sampleSetup) (fun _ => True) .receive s
      (receiveTurn sampleSetup sampleDecoders sampleGeometry)
      { s with geometry := some otherGeometry, authoritative := some otherGeometry }
      (.ret (.receiving sampleDecoders otherGeometry)) :=
  .access (.message (.ofMisc (.switchDisplay
    { display := 1, x := 1920, width := 1280, height := 720 }))) ⟨hcancelled, rfl⟩ trivial
    (.access () ⟨trivial, rfl⟩ trivial (.refl _ _))

/-- A press of the key `a` with the code 97. -/
def pressA : Call := .sendKey (.character 97) true false false false false false

/-- Its message, accepted after `number` others. -/
def pressedA (number : Nat) : Envelope :=
  ⟨.caller 0, .control, number, keyMessage { down := true, union := some (.chr 97) }⟩

/-- The session with the key press accepted; no task has taken a step. -/
def pressedSession : Config Access.Answer Outcome State Task :=
  sampleSession.set (.caller 0)
    (sampleSession.shared.push (.caller 0) .control (pressedA 0).message)
    (.ret (.returned (.ok ())))

theorem leads_pressedSession : Leads Calm sampleSetup (initial sampleSetup) pressedSession :=
  leads_sampleSession.turn rfl (Start.call _ 0 _ pressA) trivial
    (alone_sendKey ready_sampleSession rfl (by decide) ..)

/-- A move of the pointer to the display's corner. -/
def moveCorner : Call := .sendMouse 0 0 0 0

/-- A pointer event that waits to be written. -/
def movedCorner (number : Nat) : Envelope :=
  ⟨.caller 0, .mouse, number, mouseMessage 0 0 0 0⟩

end Viewer

end RdEngine
