/-
RdEngine/Viewer/Revocation.lean

Whether input and clipboard text still leave after the peer has withdrawn the
permission for them.

A call checks the permission before it queues its message, but the write task
checks again for the mouse queue alone.  A message of the control queue is past
its check from the call's own load on, through the queue, to the write.  What the
code guarantees is therefore that nothing leaves without permission as long as
no permission is withdrawn while a message of its kind is between its last check
and the wire (`revocation_holds`).
-/
import RdEngine.Viewer.Footprint
import RdEngine.Viewer.Progress

namespace RdEngine

namespace Viewer

open Lts Threads

/-- The permission a message needs: `remote_keyboard` for mouse, key and text. -/
def needs (message : Message) : Option Remote :=
  match message.union with
  | some (.mouseEvent _) | some (.keyEvent _) => some .keyboard
  | some (.clipboard _) | some (.multiClipboards _) => some .clipboard
  | _ => none

/-! ### Checks and acts of one permission -/

/-- The permission the write task loads again, for the queue it does so for. -/
def rechecked : Remote → Queue → Bool
  | .keyboard, .mouse => true
  | _, _ => false

section Kind

variable (kind : Remote)

/-- Finding the permission granted; taking a message that needs it from a queue
that is not checked again, since it was checked before it got there. -/
def Passes : (a : Access) → a.Answer → Prop
  | .remote k, answer => k = kind ∧ (answer : Bool) = true
  | .recv queue, answer =>
    match (answer : Received Envelope) with
    | .message envelope => rechecked kind queue = false ∧ needs envelope.message = some kind
    | _ => False
  | _, _ => False

/-- Writing a message that needs the permission, or queueing it where it is not
checked again. -/
def Acts : Access → Prop
  | .trySend queue message => rechecked kind queue = false ∧ needs message = some kind
  | .send envelope => needs envelope.message = some kind
  | _ => False

/-- No message that needs the permission waits where it is not checked again. -/
def NoneQueued (s : State) : Prop :=
  ∀ queue, rechecked kind queue = false → ∀ e ∈ s.queue queue, needs e.message ≠ some kind

end Kind

/-! ### Every program checks first -/

section Programs

variable {kind : Remote}

theorem checked_enqueue {message : Message} (h : needs message ≠ some kind) :
    Checked (Passes kind) (Acts kind) (enqueue message) := by
  simp [Checked, enqueue, trySend, control, Acts, h]

theorem checked_sendOptionControl (misc : MiscUnion) :
    Checked (Passes kind) (Acts kind) (sendOptionControl misc) := by
  have henqueue := @checked_enqueue kind (.ofMisc misc)
    (by simp [needs, Message.ofMisc, Message.of])
  refine Checked.bind (by simp [Checked, authenticated, isCancelled, Acts]) fun allowed => ?_
  split
  · exact henqueue
  · exact trivial

theorem checked_pushThenStore (option : OptionMessage) {store : Access} (h : ¬ Acts kind store) :
    Checked (Passes kind) (Acts kind) (pushThenStore option store) := by
  refine Checked.bind ⟨by simp [Acts], fun authenticated _ => ?_⟩ fun pushed => ?_
  · dsimp only [Prog.bind]
    split
    · exact checked_sendOptionControl _
    · exact trivial
  · split
    · exact trivial
    · exact ⟨h, fun _ _ => trivial⟩

/-- Input is queued only behind a load of the keyboard permission, text only
behind one of the clipboard permission; nothing else needs a permission. -/
theorem checked_call (setup : Setup) (call : Call) :
    Checked (Passes kind) (Acts kind) (call.program setup) := by
  cases call with
  -- the gate of each call asks for the very permission its message needs
  | sendKey key down press alt ctrl shift command =>
    cases kind <;>
      simp [Checked, Call.program, sendKey, inputAllowed, authenticated, remote, isCancelled,
        enqueue, control, trySend, keyMessage, Message.of, Passes, Acts, needs]
  | sendText value =>
    cases kind <;>
      simp [Checked, Call.program, sendText, inputAllowed, authenticated, remote, isCancelled,
        enqueue, control, trySend, keyMessage, Message.of, Passes, Acts, needs]
  | sendClipboardText text =>
    cases kind <;>
      simp [Checked, Call.program, sendClipboardText, authenticated, remote, isCancelled,
        enqueue, control, trySend, clipboardMessage, Message.of, Passes, Acts, needs]
  | sendMouse k button x y =>
    -- the place is clamped between the check and the push
    have hsend : ∀ x y, Checked (Passes kind) (Acts kind)
        (trySend .mouse (mouseMessage k button x y)) := by
      cases kind <;> simp [Checked, trySend, Acts, rechecked, needs, mouseMessage, Message.of]
    refine Checked.bind (by simp [Checked, authenticated, remote, isCancelled, Acts])
      fun allowed => ?_
    split
    · split
      · exact trivial
      · split
        · refine ⟨by simp [Acts], fun geometry _ => ?_⟩
          dsimp only [Prog.bind]
          split
          · exact hsend _ _
          · exact trivial
        · exact hsend _ _
    · exact trivial
  | setRequestedFps fps =>
    -- the setters send no input, so no permission is needed
    rw [Call.program, setRequestedFps]
    split
    · exact checked_pushThenStore _ (by simp [Acts])
    · exact trivial
  | setImageQuality quality =>
    rw [Call.program, setImageQuality]
    split
    · exact checked_pushThenStore _ (by simp [Acts])
    · exact trivial
  | switchDisplay display width height =>
    have henqueue : ∀ misc, Checked (Passes kind) (Acts kind) (enqueue (.ofMisc misc)) :=
      fun misc => checked_enqueue (by simp [needs, Message.ofMisc, Message.of])
    rw [Call.program, switchDisplay]
    split
    · exact trivial
    · refine Checked.bind (by simp [Checked, authenticated, isCancelled, Acts]) fun allowed => ?_
      split
      · refine (henqueue _).bind fun pushed => ?_
        split
        · exact trivial
        · exact henqueue _
      · exact trivial
  | changeResolution display width height =>
    rw [Call.program, changeResolution]
    split
    · exact trivial
    · exact checked_sendOptionControl _
  | refreshVideo display => exact checked_sendOptionControl _
  | requestClose => exact ⟨by simp [Acts], fun _ _ => ⟨by simp [Acts], fun _ _ => trivial⟩⟩

theorem checked_exitWrite (result : Except ViewerError Unit) :
    Checked (Passes kind) (Acts kind) (exitWrite result) := by
  simp [Checked, exitWrite, exit, Acts]

theorem checked_deliver {envelope : Envelope} (h : needs envelope.message ≠ some kind) :
    Checked (Passes kind) (Acts kind) (deliver envelope) := by
  refine ⟨by simp [Acts], fun cancelled _ => ?_⟩
  dsimp only [Prog.bind]
  split
  · exact checked_exitWrite _
  · refine ⟨h, fun answer _ => ?_⟩
    dsimp only [Prog.bind]
    split
    · exact trivial
    · exact checked_exitWrite _
    · exact checked_exitWrite _

/-- The write task sends what it took from the control queue, which was checked,
and mouse input only behind a load of its own. -/
theorem checked_writeTurn : Checked (Passes kind) (Acts kind) writeTurn := by
  refine ⟨by simp [Acts], fun cancelled _ => ?_⟩
  dsimp only [Prog.bind]
  split
  · exact checked_exitWrite _
  · refine ⟨by simp [Acts], fun received hpass => ?_⟩
    dsimp only [Prog.bind]
    split
    · exact checked_exitWrite _
    · exact checked_deliver fun hneeds => hpass (by cases kind <;> exact ⟨rfl, hneeds⟩)
    · refine ⟨by simp [Acts], fun received hpass => ?_⟩
      dsimp only [Prog.bind]
      split
      · exact checked_exitWrite _
      · exact trivial
      · rename_i envelope
        cases kind with
        | clipboard =>
          have hdeliver : Checked (Passes .clipboard) (Acts .clipboard) (deliver envelope) :=
            checked_deliver fun hneeds => hpass ⟨rfl, hneeds⟩
          refine Checked.bind (by simp [Checked, authenticated, remote, Acts]) fun allowed => ?_
          split
          · exact hdeliver
          · exact trivial
        | keyboard => simp [authenticated, remote, Passes, Acts]

theorem checked_start {setup : Setup} {s : State} {task : Task} {outcome : Outcome}
    {program : Program Outcome} (h : Start setup s task outcome program) :
    Checked (Passes kind) (Acts kind) program := by
  have hwithin := start_within h
  -- the tasks besides the writer queue nothing that needs a permission
  have hrun : ∀ a, Acts kind a → runAccess a = false := by
    intro a ha
    cases a <;> first | rfl | simp [Acts] at ha
  have hreceive : ∀ a, Acts kind a → receiveAccess a = false := by
    intro a ha
    cases a with
    | trySend queue message =>
      cases queue with
      | mouse => rfl
      | control =>
        rcases message with ⟨_ | union⟩
        · rfl
        · cases union <;> first | rfl | simp [Acts, needs] at ha
    | send => simp [receiveAccess]
    | _ => simp [Acts] at ha
  have hfeed : ∀ a, Acts kind a → feedAccess a = false := by
    intro a ha
    cases a <;> first | rfl | simp [Acts] at ha
  cases h with
  | run | confirm | authenticate => exact hwithin.checked hrun
  | spawnReceive | receive => exact hwithin.checked hreceive
  | spawnWrite | write => exact checked_writeTurn
  | spawnFeed | feed => exact hwithin.checked hfeed
  | call => exact (checked_call setup _).bind fun _ => trivial

end Programs

/-! ### Withdrawing a permission -/

/-- Nothing that needs the permission and has passed its last check is on its
way: in a queue that is not checked again, in a call or in the write task. -/
def NothingOnItsWay (kind : Remote) (c : Config Access.Answer Outcome State Task) : Prop :=
  Quiet (Passes kind) (Acts kind) (NoneQueued kind) c

theorem remote_effect {task : Task} {s : State} {a : Access} {answer : a.Answer} {kind : Remote}
    (h : ∀ value, a ≠ .setRemote kind value) :
    (effect task s a answer).remote kind = s.remote kind := by
  cases a with
  | setRemote k value =>
    have hk : k ≠ kind := fun hk => h value (by rw [hk])
    cases k <;> cases kind <;> first | rfl | exact absurd rfl hk
  | trySend q message =>
    match answer with
    | .ok () => cases q <;> cases kind <;> rfl
    | .error _ => rfl
  | recv q =>
    match answer with
    | .message e => cases q <;> cases kind <;> rfl
    | .empty | .closed => rfl
  | acquireSlot | acquireBytes | sendVideo | recvVideo | login | sendSecondFactor | send
  | awaitFirst | joinNext => cases answer <;> (cases kind <;> rfl)
  | _ => cases kind <;> rfl

theorem guarded (setup : Setup) (kind : Remote) :
    Guarded (engine setup) (Passes kind) (Acts kind) (fun s => s.remote kind = false)
      (NoneQueued kind) where
  fails := by
    rintro task s a answer s' hdown hnone ⟨hallowed, -⟩ hpass
    cases a with
    | remote k =>
      obtain ⟨rfl, hanswer⟩ := hpass
      have : answer = s.remote k := hallowed
      rw [this, hdown] at hanswer
      cases hanswer
    | recv queue =>
      match answer, hpass with
      | .message envelope, ⟨hqueue, hneeds⟩ =>
        exact hnone queue hqueue envelope (List.mem_of_mem_head? hallowed) hneeds
    | _ => exact hpass
  clean := by
    rintro task s a answer s' hnone hact ⟨-, rfl⟩ queue hqueue e he
    -- as it was, emptied, one message more, or one less
    rcases queue_effect task s a answer queue with h | h | ⟨message, ha, h⟩ | ⟨taken, ha, h⟩
    · exact hnone queue hqueue e (h ▸ he)
    · rw [h] at he
      cases he
    · obtain ⟨rfl, -⟩ := Sigma.mk.inj ha
      rw [h, List.mem_append, List.mem_singleton] at he
      rcases he with he | rfl
      · exact hnone queue hqueue e he
      · exact fun hneeds => hact ⟨hqueue, hneeds⟩
    · exact hnone queue hqueue e (List.mem_of_mem_tail (h ▸ he))
  lowered := by
    rintro task s a answer s' hup ⟨-, rfl⟩ hdown hpass
    have hset : ∃ value, a = .setRemote kind value := by
      by_contra hne
      exact hup ((remote_effect fun value ha => hne ⟨value, ha⟩).symm.trans hdown)
    obtain ⟨value, rfl⟩ := hset
    exact hpass
  begins := checked_start

/-- A step that withdraws a permission: it stores `false` where `true` was. -/
def Withdraws (kind : Remote) (c : Config Access.Answer Outcome State Task)
    (l : Label Access.Answer Task) : Prop :=
  (∃ task, l = .access task (.setRemote kind false) ()) ∧ c.shared.remote kind = true

/-- No permission is withdrawn while a message that needs it is between its last
check and the wire. -/
def WithdrawsQuietly (c : Config Access.Answer Outcome State Task)
    (l : Label Access.Answer Task) : Prop :=
  ∀ kind, Withdraws kind c l → NothingOnItsWay kind c

theorem withdraws_of_step {setup : Setup} {kind : Remote}
    {c d : Config Access.Answer Outcome State Task} {l : Label Access.Answer Task}
    (hstep : Step (engine setup) c l d) (hc : c.shared.remote kind = true)
    (hd : d.shared.remote kind = false) : Withdraws kind c l := by
  refine ⟨?_, hc⟩
  cases hstep with
  | start hi hstart => exact absurd (hc.symm.trans hd) (by decide)
  | @access task a rest answer s' hi hperform =>
    obtain ⟨-, rfl⟩ := hperform
    have hd : (effect task c.shared a answer).remote kind = false := hd
    have hset : ∃ value, a = .setRemote kind value := by
      by_contra hne
      rw [remote_effect fun value ha => hne ⟨value, ha⟩, hc] at hd
      cases hd
    obtain ⟨value, rfl⟩ := hset
    cases value with
    | false => exact ⟨task, rfl⟩
    | true => cases kind <;> cases hd

theorem quiet_initial (setup : Setup) (kind : Remote) : NothingOnItsWay kind (initial setup) :=
  ⟨fun queue _ e he => (by cases queue <;> cases he),
    fun task => (by cases task <;> exact trivial)⟩

/-! ### A permission that is withdrawn and granted again -/

theorem step_sendOut (setup : Setup) {c : Config Access.Answer Outcome State Task} {e : Envelope}
    (h : c.threads .write = sendOut e) :
    ∃ d, Step (engine setup) c (.access .write (.send e) SendAnswer.sent) d :=
  ⟨_, .access h ⟨trivial, rfl⟩⟩

theorem withdrawsQuietly_calm (c : Config Access.Answer Outcome State Task)
    (l : Label Access.Answer Task) (h : Calm l) : WithdrawsQuietly c l := by
  rintro kind ⟨⟨task, rfl⟩, -⟩
  cases h

/-- The receive task has taken a report that the peer withdraws the keyboard permission. -/
def reportedSession : Config Access.Answer Outcome State Task :=
  sampleSession.set .receive sampleSession.shared
    (.access (.setRemote .keyboard false) fun _ => .ret (.receiving sampleDecoders sampleGeometry))

/-- It has stored that. -/
def withdrawnSession : Config Access.Answer Outcome State Task :=
  reportedSession.set .receive { sampleSession.shared with remoteKeyboard := false }
    (.ret (.receiving sampleDecoders sampleGeometry))

theorem leads_reportedSession : Leads Calm sampleSetup (initial sampleSetup) reportedSession :=
  leads_sampleSession.turn rfl (Start.spawnReceive rfl) trivial
    (.access (.message (.ofMisc (.permissionInfo ⟨.known .keyboard, false⟩))) ⟨rfl, rfl⟩ trivial
      (.refl _ _))

/-- No key has been pressed yet. -/
theorem nothingOnItsWay_reportedSession : NothingOnItsWay .keyboard reportedSession := by
  refine ⟨fun queue _ e he => (by cases queue <;> cases he), fun task => ?_⟩
  cases task with
  | run =>
    have hwithin : ∀ first, Within superviseAccess (supervise first) := within_supervise
    refine ⟨id, fun first _ => (hwithin _).checked fun a ha => ?_⟩
    cases a <;> first | rfl | cases ha
  | receive => exact ⟨id, fun _ _ => trivial⟩
  | write | feed | caller => exact trivial

theorem step_withdrawn : Where (Step (engine sampleSetup)) WithdrawsQuietly reportedSession
    (.access .receive (.setRemote .keyboard false) ()) withdrawnSession := by
  have hperform : (engine sampleSetup).perform .receive reportedSession.shared
      (.setRemote .keyboard false) () { sampleSession.shared with remoteKeyboard := false } :=
    ⟨trivial, rfl⟩
  have hthread : reportedSession.threads .receive = .access (.setRemote .keyboard false) fun _ =>
      .ret (.receiving sampleDecoders sampleGeometry) := rfl
  refine ⟨?_, .access hthread hperform⟩
  rintro kind ⟨⟨task, hlabel⟩, -⟩
  cases hlabel
  exact nothingOnItsWay_reportedSession

/-- The permission is granted again, the key call returns, and the write task has taken its
message. -/
theorem leads_regranted : ∃ c : Config Access.Answer Outcome State Task,
    Leads Calm sampleSetup withdrawnSession c ∧ c.threads .write = sendOut (pressedA 0) := by
  have start : Leads Calm sampleSetup withdrawnSession withdrawnSession := .refl _
  have granted := start.turn rfl (Start.receive _ _ _) trivial
    (.access (.message (.ofMisc (.permissionInfo ⟨.known .keyboard, true⟩))) ⟨rfl, rfl⟩ trivial
      (.access () ⟨trivial, rfl⟩ rfl (.refl _ _)))
  have pressed := granted.turn rfl (Start.call _ 0 _ pressA) trivial
    (alone_sendKey ⟨rfl, rfl, rfl, rfl⟩ rfl (by decide) ..)
  have taken := pressed.turn rfl (Start.spawnWrite rfl) trivial (alone_takeControl rfl rfl)
  exact ⟨_, taken, rfl⟩

/-! ### Revocation -/

/-- **No mouse, key, text or clipboard message is written without the
permission for it**, in a run that withdraws permissions only while nothing of
their kind is between its last check and the wire. -/
theorem revocation_holds {setup : Setup} {c d : Config Access.Answer Outcome State Task}
    {ls : List (Label Access.Answer Task)} {task : Task} {e : Envelope} {answer : SendAnswer}
    {kind : Remote}
    (hrun : Run (Where (Step (engine setup)) WithdrawsQuietly) (initial setup) ls c)
    (hstep : Step (engine setup) c (.access task (.send e) answer) d)
    (hneeds : needs e.message = some kind) : c.shared.remote kind = true := by
  have hC : ∀ c l d, WithdrawsQuietly c l → Step (engine setup) c l d →
      ¬ c.shared.remote kind = false → d.shared.remote kind = false → NothingOnItsWay kind c := by
    intro c l d hquiet hst hup hdown
    exact hquiet kind (withdraws_of_step hst (Bool.not_eq_false _ ▸ hup) hdown)
  have hdown := guarded_run (guarded setup kind) hC hrun (fun _ => quiet_initial setup kind)
    hstep hneeds
  exact Bool.not_eq_false _ ▸ hdown

/-- The peer withdraws the permission while nothing is on its way and grants it again; a key
is pressed and written. -/
theorem revocation_holds_press : ∃ (c d : Config Access.Answer Outcome State Task)
    (ls : List (Label Access.Answer Task)),
    Run (Where (Step (engine sampleSetup)) WithdrawsQuietly) (initial sampleSetup) ls c ∧
      .access .receive (.setRemote .keyboard false) () ∈ ls ∧
      Step (engine sampleSetup) c (.access .write (.send (pressedA 0)) SendAnswer.sent) d ∧
      needs (pressedA 0).message = some .keyboard ∧ c.shared.remote .keyboard = true := by
  obtain ⟨before, hbefore⟩ := leads_reportedSession.where withdrawsQuietly_calm
  obtain ⟨c, hleads, hwrite⟩ := leads_regranted
  obtain ⟨after, hafter⟩ := hleads.where withdrawsQuietly_calm
  obtain ⟨d, hstep⟩ := step_sendOut sampleSetup hwrite
  have hrun := hbefore.append (.cons step_withdrawn hafter)
  exact ⟨c, d, _, hrun, by simp, hstep, rfl, revocation_holds hrun hstep rfl⟩

/-! ### A key that outlives its permission -/

/-- Before the write task wakes up the peer withdraws the permission. -/
theorem leads_revoked : ∃ c : Config Access.Answer Outcome State Task,
    Leads (fun _ => True) sampleSetup (initial sampleSetup) c ∧
      c.threads .write = sendOut (pressedA 0) ∧ c.shared.remoteKeyboard = false := by
  have withdrawn := (leads_pressedSession.mono fun _ _ => trivial).turn rfl
    (Start.spawnReceive rfl) trivial (alone_permission rfl false)
  have taken := withdrawn.turn rfl (Start.spawnWrite rfl) trivial
    ((alone_takeControl rfl rfl).mono fun _ _ => trivial)
  exact ⟨_, taken, rfl, rfl⟩

/-- The write task does not check the control queue again. -/
theorem revocation_fails : ¬ ∀ (setup : Setup) (c d : Config Access.Answer Outcome State Task)
    (ls : List (Label Access.Answer Task)) (task : Task) (e : Envelope) (answer : SendAnswer)
    (kind : Remote), Run (Step (engine setup)) (initial setup) ls c →
    Step (engine setup) c (.access task (.send e) answer) d → needs e.message = some kind →
    c.shared.remote kind = true := by
  intro h
  obtain ⟨c, hleads, hwrite, hkeyboard⟩ := leads_revoked
  obtain ⟨ls, hrun⟩ := hleads.run
  obtain ⟨d, hstep⟩ := step_sendOut sampleSetup hwrite
  have := h sampleSetup c d ls .write (pressedA 0) .sent .keyboard hrun hstep rfl
  exact absurd (hkeyboard.symm.trans this) (by decide)

end Viewer

end RdEngine
