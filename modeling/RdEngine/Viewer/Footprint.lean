/-
RdEngine/Viewer/Footprint.lean

Which accesses each thread of the engine makes, read off its programs once: what
a task never does, no invariant has to ask about again.
-/
import RdEngine.Viewer.Tasks

namespace RdEngine

namespace Viewer

open Threads

/-! ### The accesses of each thread -/

def runAccess : Access → Bool
  | .capabilities | .connect | .isCancelled | .recvCommand | .selectCommand | .sessionRecv
  | .randomSessionId | .login _ _ | .sendSecondFactor _ | .intoParts | .setGeometry _
  | .setRemote _ _ | .setAuthenticated _ | .setControl _ | .spawn _ _ | .awaitFirst | .joinNext
  | .cancel | .closeQueues => true
  | _ => false

def isTestDelay (message : Message) : Bool :=
  match message.union with
  | some (.testDelay _) => true
  | _ => false

/-- The receive task queues nothing but answers to the peer's probes. -/
def receiveAccess : Access → Bool
  | .incoming | .setRemote _ _ | .setGeometry _ | .setRequestedFps _ | .setImageQuality _
  | .storeClipboard _ | .acquireSlot | .acquireBytes _ | .sendVideo _ | .exit _ => true
  | .trySend .control message => isTestDelay message
  | _ => false

def writeAccess : Access → Bool
  | .isCancelled | .recv _ | .authenticated | .remote _ | .send _ | .closeQueues | .exit _ => true
  | _ => false

def feedAccess : Access → Bool
  | .recvVideo | .contract | .closeDecoder | .isCancelled | .openDecoder _ _ _ | .setGeometry _
  | .setContract _ | .submit _ | .release _ | .closeVideo | .setAuthenticated false | .cancel
  | .exit _ => true
  | _ => false

def callerAccess : Access → Bool
  | .authenticated | .isCancelled | .remote _ | .geometry | .control | .trySend _ _
  | .setRequestedFps _ | .setImageQuality _ | .setAuthenticated false | .cancel => true
  | _ => false

/-- What a task accesses. -/
def Task.access : Task → Access → Bool
  | .run => runAccess
  | .receive => receiveAccess
  | .write => writeAccess
  | .feed => feedAccess
  | .caller _ => callerAccess

/-! ### The run task -/

/-- Before the session is authenticated, besides the login request and what ends
the login. -/
def loginAccess : Access → Bool
  | .capabilities | .connect | .isCancelled | .recvCommand | .selectCommand | .sessionRecv
  | .randomSessionId | .sendSecondFactor _ | .closeQueues | .setAuthenticated false => true
  | _ => false

/-- Once the tasks are spawned. -/
def superviseAccess : Access → Bool
  | .awaitFirst | .joinNext | .cancel | .closeQueues | .setAuthenticated false
  | .setControl false => true
  | _ => false

theorem within_finish {P : Access → Bool} (hclose : P .closeQueues = true)
    (hauth : P (.setAuthenticated false) = true) (result : Except ViewerError Unit) :
    Within P (finish result) :=
  ⟨hclose, fun _ => ⟨hauth, fun _ => trivial⟩⟩

theorem within_joinTasks (tasks : Nat) (result : Except ViewerError Unit) :
    Within superviseAccess (joinTasks tasks result) := by
  induction tasks generalizing result with
  | zero => simp [joinTasks]
  | succ tasks ih =>
    simp only [joinTasks, call_eq, Prog.bind_eq, Prog.access_bind, Prog.ret_bind]
    refine ⟨rfl, fun joined => ?_⟩
    dsimp only
    split <;> first | exact trivial | exact ih _

theorem within_supervise (first : Except ViewerError Unit) :
    Within superviseAccess (supervise first) := by
  refine ⟨rfl, fun _ => ⟨rfl, fun _ => ?_⟩⟩
  refine (within_joinTasks 3 first).bind fun result => ⟨rfl, fun _ => ?_⟩
  exact within_finish rfl rfl result

/-- A ghost state that the end of a session leaves alone. -/
theorem follows_supervise {γ : Type*} {G : Ghost Access.Answer γ} {Q : γ → Outcome → Prop} {g : γ}
    (hadmits : ∀ a, superviseAccess a = true → G.admits g a)
    (hstill : ∀ a answer, superviseAccess a = true → G.next g a answer = g)
    (hreturned : ∀ result, Q g (.returned result)) (first : Except ViewerError Unit) :
    Follows G Q g (supervise first) := by
  have hstep : ∀ {a : Access} {rest : a.Answer → Program Outcome}, superviseAccess a = true →
      (∀ answer, Follows G Q g (rest answer)) → Follows G Q g (.access a rest) := by
    intro a rest ha hrest
    refine ⟨hadmits a ha, fun answer => ?_⟩
    rw [hstill a answer ha]
    exact hrest answer
  refine hstep rfl fun _ => hstep rfl fun _ => ?_
  show Follows G Q g ((joinTasks 3 first).bind fun result =>
    .access (.setControl false) fun _ => finish result)
  refine Follows.bind (Q := fun g' _ => g' = g) ?_ fun g' result hg => ?_
  · exact (within_joinTasks 3 first).follows hadmits hstill fun _ => rfl
  · subst hg
    exact hstep rfl fun _ => hstep rfl fun _ => hstep rfl fun _ => hreturned result

section Login

variable {γ : Type*}

/-- A ghost state that the login leaves alone until the session is taken over:
`R` holds of the requests it sends, and `serve` can be followed from there. -/
structure FollowsLogin (setup : Setup) (G : Ghost Access.Answer γ) (Q : γ → Outcome → Prop)
    (R : LoginRequest → Prop) (g : γ) : Prop where
  quiet : ∀ a, loginAccess a = true → G.admits g a
  still : ∀ a answer, loginAccess a = true → G.next g a answer = g
  fresh : ∀ decoders sessionId, R (loginRequest setup decoders sessionId)
  login : ∀ request password, R request → G.admits g (.login request password)
  loggedIn : ∀ request password answer, G.next g (.login request password) answer = g
  parts : G.admits g .intoParts
  noParts : ∀ error, G.next g .intoParts (.error error) = g
  serve : ∀ decoders context,
    Follows G Q (G.next g .intoParts (.ok context)) (serve decoders context)
  returned : ∀ result, Q g (.returned result)
  confirming : ∀ decoders, Q g (.confirming decoders)
  authenticating : ∀ decoders request awaiting, (∀ r, request = some r → R r) →
    Q g (.authenticating decoders request awaiting)

variable {setup : Setup} {G : Ghost Access.Answer γ} {Q : γ → Outcome → Prop}
  {R : LoginRequest → Prop} {g : γ}

theorem FollowsLogin.step (h : FollowsLogin setup G Q R g) {a : Access} (ha : loginAccess a = true)
    {rest : a.Answer → Program Outcome} (hrest : ∀ answer, Follows G Q g (rest answer)) :
    Follows G Q g (.access a rest) := by
  refine ⟨h.quiet a ha, fun answer => ?_⟩
  rw [h.still a answer ha]
  exact hrest answer

theorem FollowsLogin.finish (h : FollowsLogin setup G Q R g) (result : Except ViewerError Unit) :
    Follows G Q g (finish result) :=
  h.step rfl fun _ => h.step rfl fun _ => h.returned result

theorem FollowsLogin.afterSend (h : FollowsLogin setup G Q R g) (answer : SendAnswer)
    {next : Outcome} (hnext : Q g next) : Follows G Q g (afterSend answer next) := by
  cases answer with
  | sent => exact hnext
  | failed | dropped => exact h.finish _

theorem FollowsLogin.sendLogin (h : FollowsLogin setup G Q R g) {request : LoginRequest}
    (hrequest : R request) (password : Option Bytes) {next : Outcome} (hnext : Q g next) :
    Follows G Q g ((Viewer.login request password).bind fun answer =>
      Viewer.afterSend answer next) := by
  refine ⟨h.login request password hrequest, fun answer => ?_⟩
  rw [h.loggedIn]
  exact h.afterSend _ hnext

theorem FollowsLogin.runStart (h : FollowsLogin setup G Q R g) :
    Follows G Q g (runStart setup) := by
  refine h.step rfl fun decoders => ?_
  dsimp only [Prog.bind]
  split
  · exact h.finish _
  · refine h.step rfl fun cancelled => ?_
    dsimp only [Prog.bind]
    split
    · exact h.finish _
    · refine h.step rfl fun connected => ?_
      dsimp only [Prog.bind]
      split
      · exact h.finish _
      · split
        · exact h.confirming _
        · exact h.authenticating _ _ _ fun _ hr => nomatch hr

theorem FollowsLogin.confirmTurn (h : FollowsLogin setup G Q R g) (decoders : Decoders) :
    Follows G Q g (confirmTurn decoders) := by
  refine h.step rfl fun cancelled => ?_
  dsimp only [Prog.bind]
  split
  · exact h.finish _
  · refine h.step rfl fun received => ?_
    dsimp only [Prog.bind]
    split
    · exact h.confirming _
    · exact h.finish _
    · exact h.authenticating _ _ _ fun _ hr => nomatch hr
    · exact h.finish _
    · exact h.confirming _
    · exact h.confirming _

theorem FollowsLogin.authCommand (h : FollowsLogin setup G Q R g) (decoders : Decoders)
    {request : Option LoginRequest} (hrequest : ∀ r, request = some r → R r) (awaiting : Awaiting)
    (command : AuthCommand) : Follows G Q g (authCommand decoders request awaiting command) := by
  rw [authCommand.eq_def]
  split
  · split
    · exact h.finish _
    · exact h.sendLogin (hrequest _ rfl) _ (h.authenticating _ _ _ hrequest)
  · split
    · exact h.finish _
    · exact h.step rfl fun answer => h.afterSend _ (h.authenticating _ _ _ hrequest)
  · exact h.authenticating _ _ _ hrequest

theorem FollowsLogin.authEvent (h : FollowsLogin setup G Q R g) (decoders : Decoders)
    {request : Option LoginRequest} (hrequest : ∀ r, request = some r → R r) (awaiting : Awaiting)
    (event : ViewerEvent) : Follows G Q g (authEvent setup decoders request awaiting event) := by
  cases event with
  | challenge =>
    refine h.step rfl fun sessionId => ?_
    refine h.sendLogin (h.fresh decoders sessionId) _ (h.authenticating _ _ _ fun r hr => ?_)
    cases hr
    exact h.fresh decoders sessionId
  | authorized info =>
    refine ⟨h.parts, fun parts => ?_⟩
    cases parts with
    | error error =>
      rw [h.noParts]
      exact h.finish _
    | ok context => exact h.serve decoders context
  | loginError error =>
    simp only [Viewer.authEvent]
    split_ifs
    · exact h.authenticating _ _ _ hrequest
    · exact h.authenticating _ _ _ hrequest
    · exact h.authenticating _ _ _ hrequest
    · exact h.finish _
  | progress | preAuthControl => exact h.authenticating _ _ _ hrequest
  | closed | permissionChanged | payload => exact h.finish _

theorem FollowsLogin.authTurn (h : FollowsLogin setup G Q R g) (decoders : Decoders)
    {request : Option LoginRequest} (hrequest : ∀ r, request = some r → R r)
    (awaiting : Awaiting) : Follows G Q g (authTurn setup decoders request awaiting) := by
  refine h.step rfl fun cancelled => ?_
  dsimp only [Prog.bind]
  split
  · exact h.finish _
  · have hselect : Follows G (fun g' _ => g' = g) g
        ((pure (decide (awaiting ≠ .network)) : Program Bool).both selectCommand) := by
      refine Follows.both ?_
      show if decide (awaiting ≠ .network) = true then _ else _
      split
      · exact ⟨h.quiet _ rfl, fun answer => h.still _ answer rfl⟩
      · rfl
    refine hselect.bind fun g' selected hg => ?_
    subst hg
    split
    · refine h.step rfl fun received => ?_
      dsimp only [Prog.bind]
      split
      · exact h.authenticating _ _ _ hrequest
      · exact h.finish _
      · exact h.authCommand decoders hrequest awaiting _
    · refine h.step rfl fun received => ?_
      dsimp only [Prog.bind]
      split
      · exact h.finish _
      · exact h.authEvent decoders hrequest awaiting _

end Login

theorem runAccess_of_login {a : Access} (h : loginAccess a = true) : runAccess a = true := by
  cases a <;> first | rfl | cases h

theorem runAccess_of_supervise {a : Access} (h : superviseAccess a = true) :
    runAccess a = true := by
  cases a <;> first | rfl | cases h

theorem within_serve (decoders : Decoders) (context : Context) :
    Within runAccess (serve decoders context) := by
  rw [serve]
  split
  · exact within_finish rfl rfl _
  · refine ⟨rfl, fun _ => ⟨rfl, fun _ => ⟨rfl, fun _ => ⟨rfl, fun _ => ⟨rfl, fun _ =>
      ⟨rfl, fun _ => ⟨rfl, fun _ => ?_⟩⟩⟩⟩⟩⟩⟩
    exact (within_supervise _).mono fun _ => runAccess_of_supervise

/-- The footprint of the run task is a ghost state that never changes. -/
theorem followsLogin_run (setup : Setup) :
    FollowsLogin setup ⟨fun g _ _ => g, fun _ a => runAccess a = true⟩ (fun _ _ => True)
      (fun _ => True) () where
  quiet _ := runAccess_of_login
  still _ _ _ := rfl
  fresh _ _ := trivial
  login _ _ _ := rfl
  loggedIn _ _ _ := rfl
  parts := rfl
  noParts _ := rfl
  serve decoders context :=
    (within_serve decoders context).follows (fun _ h => h) (fun _ _ _ => rfl) fun _ => trivial
  returned _ := trivial
  confirming _ := trivial
  authenticating _ _ _ _ := trivial

/-! ### The receive task -/

theorem within_exit {P : Access → Bool} (h : ∀ result, P (.exit result) = true)
    (result : Except ViewerError Unit) : Within P (exit result) :=
  ⟨h result, fun _ => trivial⟩

/-- What the receive task does with one message; it stores options only when
`asked`. -/
def messageAccess (asked : Bool) : Access → Bool
  | .incoming => false
  | .setRequestedFps _ | .setImageQuality _ => asked
  | a => receiveAccess a

theorem receiveAccess_of_message {asked : Bool} {a : Access} (h : messageAccess asked a = true) :
    receiveAccess a = true := by
  cases a <;> first | rfl | exact h

theorem within_receiveVideo {P : Access → Bool} (hresult : ∀ result, P (.exit result) = true)
    (hslot : P .acquireSlot = true) (hbytes : ∀ count, P (.acquireBytes count) = true)
    (hsend : ∀ record, P (.sendVideo record) = true) (decoders : Decoders) (source : Geometry)
    (frame : VideoFrame) : Within P (receiveVideo decoders source frame) := by
  have hexit : ∀ result, Within P (exit result) := within_exit hresult
  rw [receiveVideo]
  split
  · exact hexit _
  · split
    · exact hexit _
    · dsimp only
      split
      · exact trivial
      · split
        · exact hexit _
        · split
          · exact hexit _
          · have hslots : Within P acquireSlot := ⟨hslot, fun _ => trivial⟩
            have hbudget : ∀ count, Within P (acquireBytes count) :=
              fun count => ⟨hbytes count, fun _ => trivial⟩
            refine (hslots.both (hbudget _)).bind fun admitted => ?_
            split
            · refine ⟨hsend _, fun answer => ?_⟩
              dsimp only [Prog.bind]
              split
              · exact trivial
              · exact hexit _
              · exact hexit _
            · exact hexit _

/-- What the receive task stores of the peer's reports, its options apart. -/
def noteAccess : Access → Bool
  | .setRemote _ _ | .storeClipboard _ => true
  | _ => false

/-- Storing an option of the stream. -/
def optionAccess : Access → Bool
  | .setRequestedFps _ | .setImageQuality _ => true
  | _ => false

theorem messageAccess_of_note {asked : Bool} {a : Access} (h : noteAccess a = true) :
    messageAccess asked a = true := by
  cases a <;> first | rfl | cases h

theorem messageAccess_of_option {a : Access} (h : optionAccess a = true) :
    messageAccess true a = true := by
  cases a <;> first | rfl | cases h

theorem within_receivePermission (info : PermissionInfo) :
    Within noteAccess (receivePermission info) := by
  rw [receivePermission]
  split
  · exact ⟨rfl, fun _ => trivial⟩
  · exact ⟨rfl, fun _ => trivial⟩
  · exact trivial

theorem within_receiveOption (option : OptionMessage) :
    Within optionAccess (receiveOption option) := by
  refine Within.bind ?_ fun _ => Within.bind ?_ fun _ => ?_
  · rw [storePreset]
    split
    · exact ⟨rfl, fun _ => trivial⟩
    · exact trivial
  · rw [storeCustom]
    split
    · exact ⟨rfl, fun _ => trivial⟩
    · exact trivial
  · rw [storeFps]
    split
    · exact ⟨rfl, fun _ => trivial⟩
    · exact trivial

theorem within_storeInbound {P : Access → Bool} (hstore : ∀ text, P (.storeClipboard text) = true)
    (setup : Setup) (clipboards : List Clipboard) : Within P (storeInbound setup clipboards) := by
  induction clipboards with
  | nil => exact trivial
  | cons clipboard clipboards ih =>
    rw [storeInbound]
    refine Within.bind ?_ fun _ => ih
    cases inboundText setup clipboard with
    | some text => exact ⟨hstore text, fun _ => trivial⟩
    | none => exact trivial

theorem within_receiveClipboards {P : Access → Bool}
    (hstore : ∀ text, P (.storeClipboard text) = true) (setup : Setup)
    (clipboards : List Clipboard) : Within P (receiveClipboards setup clipboards) := by
  rw [receiveClipboards]
  split
  · exact trivial
  · exact within_storeInbound hstore setup clipboards

theorem within_receiveMisc {asked : Bool} (decoders : Decoders) (source : Geometry) (misc : Misc)
    (hasked : ∀ option, misc.union = some (.option option) → asked = true) :
    Within (messageAccess asked) (receiveMisc decoders source misc) := by
  have hexit : ∀ result, Within (messageAccess asked) (exit result) := within_exit fun _ => rfl
  rw [receiveMisc.eq_def]
  split
  · exact ((within_receivePermission _).mono fun _ => messageAccess_of_note).bind
      fun _ => within_ret _
  · exact hexit _
  · split
    · exact hexit _
    · exact ⟨rfl, fun _ => trivial⟩
  · rename_i option hunion
    rw [hasked option hunion]
    exact ((within_receiveOption option).mono fun _ => messageAccess_of_option).bind
      fun _ => within_ret _
  · exact trivial

/-- A message that reports options of the peer's. -/
def isOption (message : Message) : Bool :=
  match message.union with
  | some (.misc misc) =>
    match misc.union with
    | some (.option _) => true
    | _ => false
  | _ => false

theorem within_receiveMessage (setup : Setup) (decoders : Decoders) (source : Geometry)
    (message : Message) :
    Within (messageAccess (isOption message))
      (receiveMessage setup decoders source message) := by
  have hexit : ∀ result, Within (messageAccess (isOption message)) (exit result) :=
    within_exit fun _ => rfl
  rw [receiveMessage.eq_def]
  split
  · exact within_receiveVideo (fun _ => rfl) rfl (fun _ => rfl) (fun _ => rfl) _ _ _
  · split
    · exact trivial
    · refine ⟨rfl, fun sent => ?_⟩
      dsimp only [Prog.bind]
      split
      · exact trivial
      · exact hexit _
  · rename_i misc hmisc
    refine within_receiveMisc _ _ _ fun option hoption => ?_
    rw [isOption, hmisc]
    dsimp only
    rw [hoption]
  · exact (within_receiveClipboards (fun _ => rfl) _ _).bind fun _ => within_ret _
  · exact (within_receiveClipboards (fun _ => rfl) _ _).bind fun _ => within_ret _
  · exact trivial

theorem within_receiveTurn (setup : Setup) (decoders : Decoders) (source : Geometry) :
    Within receiveAccess (receiveTurn setup decoders source) := by
  have hexit : ∀ result, Within receiveAccess (exit result) := within_exit fun _ => rfl
  refine ⟨rfl, fun arrival => ?_⟩
  dsimp only [Prog.bind]
  split
  · exact hexit _
  · exact hexit _
  · exact hexit _
  · exact (within_receiveMessage _ _ _ _).mono fun _ => receiveAccess_of_message

/-! ### The write and feed tasks -/

theorem within_exitWrite (result : Except ViewerError Unit) :
    Within writeAccess (exitWrite result) :=
  ⟨rfl, fun _ => within_exit (fun _ => rfl) result⟩

theorem within_deliver (envelope : Envelope) : Within writeAccess (deliver envelope) := by
  refine ⟨rfl, fun cancelled => ?_⟩
  dsimp only [Prog.bind]
  split
  · exact within_exitWrite _
  · refine ⟨rfl, fun answer => ?_⟩
    dsimp only [Prog.bind]
    split
    · exact trivial
    · exact within_exitWrite _
    · exact within_exitWrite _

theorem within_writeTurn : Within writeAccess writeTurn := by
  refine ⟨rfl, fun cancelled => ?_⟩
  dsimp only [Prog.bind]
  split
  · exact within_exitWrite _
  · refine ⟨rfl, fun received => ?_⟩
    dsimp only [Prog.bind]
    split
    · exact within_exitWrite _
    · exact within_deliver _
    · refine ⟨rfl, fun received => ?_⟩
      dsimp only [Prog.bind]
      split
      · exact within_exitWrite _
      · exact trivial
      · have hauth : Within writeAccess authenticated := ⟨rfl, fun _ => trivial⟩
        have hremote : Within writeAccess (remote .keyboard) := ⟨rfl, fun _ => trivial⟩
        refine (Within.both (within_ret _) (hauth.both hremote)).bind fun allowed => ?_
        split
        · exact within_deliver _
        · exact trivial

/-- Once a record's decoder is open, and at the end. -/
def submitAccess : Access → Bool
  | .closeDecoder | .isCancelled | .submit _ | .release _ | .closeVideo
  | .setAuthenticated false | .cancel | .exit _ => true
  | _ => false

theorem feedAccess_of_submit {a : Access} (h : submitAccess a = true) : feedAccess a = true := by
  cases a with
  | setAuthenticated value =>
    cases value with
    | true => cases h
    | false => rfl
  | _ => first | rfl | cases h

theorem within_exitFeed (result : Except ViewerError Unit) :
    Within submitAccess (exitFeed result) := by
  refine Within.bind ?_ fun _ => ⟨rfl, fun teardown => ⟨rfl, fun _ => ?_⟩⟩
  · cases result with
    | ok => exact trivial
    | error => exact ⟨rfl, fun _ => ⟨rfl, fun _ => trivial⟩⟩
  · dsimp only [Prog.bind]
    split
    · exact within_exit (fun _ => rfl) _
    · exact within_exit (fun _ => rfl) _

theorem within_submitFrames (record : VideoRecord) (frames : List EncodedVideoFrame) :
    Within submitAccess (submitFrames record frames) := by
  induction frames with
  | nil => exact ⟨rfl, fun _ => trivial⟩
  | cons frame frames ih =>
    refine ⟨rfl, fun cancelled => ?_⟩
    dsimp only [Prog.bind]
    split
    · exact within_exitFeed _
    · split
      · exact within_exitFeed _
      · refine ⟨rfl, fun submitted => ?_⟩
        dsimp only [Prog.bind]
        split
        · exact ih
        · refine ⟨rfl, fun cancelled => ?_⟩
          dsimp only [Prog.bind]
          split
          · exact within_exitFeed _
          · exact within_exitFeed _

theorem within_feedTurn : Within feedAccess feedTurn := by
  have hexit : ∀ result, Within feedAccess (exitFeed result) :=
    fun result => (within_exitFeed result).mono fun _ => feedAccess_of_submit
  have hsubmit : ∀ record frames, Within feedAccess (submitFrames record frames) :=
    fun record frames => (within_submitFrames record frames).mono fun _ => feedAccess_of_submit
  refine ⟨rfl, fun arrival => ?_⟩
  dsimp only [Prog.bind]
  split
  · exact hexit _
  · exact hexit _
  · exact hexit _
  · refine ⟨rfl, fun contract => ?_⟩
    dsimp only [Prog.bind]
    split
    · exact hsubmit _ _
    · refine ⟨rfl, fun torn => ?_⟩
      dsimp only [Prog.bind]
      split
      · exact hexit _
      · refine ⟨rfl, fun cancelled => ?_⟩
        dsimp only [Prog.bind]
        split
        · exact hexit _
        · refine ⟨rfl, fun opened => ?_⟩
          dsimp only [Prog.bind]
          split
          · exact hexit _
          · exact ⟨rfl, fun _ => ⟨rfl, fun _ => hsubmit _ _⟩⟩

/-! ### Callers -/

theorem within_trySend (queue : Queue) (message : Message) :
    Within callerAccess (trySend queue message) :=
  ⟨rfl, fun _ => trivial⟩

theorem within_enqueue (message : Message) : Within callerAccess (enqueue message) := by
  refine ⟨rfl, fun published => ?_⟩
  dsimp only [Prog.bind]
  split
  · exact within_trySend _ _
  · exact trivial

/-- What a caller loads before it does anything else. -/
def gateAccess : Access → Bool
  | .authenticated | .isCancelled | .remote _ | .geometry => true
  | _ => false

theorem callerAccess_of_gate {a : Access} (h : gateAccess a = true) : callerAccess a = true := by
  cases a <;> first | rfl | cases h

theorem within_gate (policy : Bool) (kind : Remote) :
    Within gateAccess ((pure policy : Program Bool).both
      (authenticated.both ((remote kind).both isCancelled.not))) := by
  have hauth : Within gateAccess authenticated := ⟨rfl, fun _ => trivial⟩
  have hremote : Within gateAccess (remote kind) := ⟨rfl, fun _ => trivial⟩
  have hcancelled : Within gateAccess isCancelled.not := ⟨rfl, fun _ => trivial⟩
  exact Within.both (within_ret _) (hauth.both (hremote.both hcancelled))

theorem within_sessionGate : Within gateAccess (authenticated.both isCancelled.not) := by
  have hauth : Within gateAccess authenticated := ⟨rfl, fun _ => trivial⟩
  have hcancelled : Within gateAccess isCancelled.not := ⟨rfl, fun _ => trivial⟩
  exact hauth.both hcancelled

theorem within_sendOptionControl (misc : MiscUnion) :
    Within callerAccess (sendOptionControl misc) := by
  refine (within_sessionGate.mono fun _ => callerAccess_of_gate).bind fun allowed => ?_
  split
  · exact within_enqueue _
  · exact trivial

theorem within_pushThenStore (option : OptionMessage) {store : Access}
    (h : callerAccess store = true) : Within callerAccess (pushThenStore option store) := by
  refine Within.bind ⟨rfl, fun authenticated => ?_⟩ fun pushed => ?_
  · dsimp only [Prog.bind]
    split
    · exact within_sendOptionControl _
    · exact trivial
  · split
    · exact trivial
    · exact ⟨h, fun _ => trivial⟩

theorem within_call (setup : Setup) (call : Call) :
    Within callerAccess (call.program setup) := by
  cases call with
  -- every call is its gate and then at most two messages; only the mouse reads the geometry
  | sendKey key down press alt ctrl shift command =>
    refine ((within_gate _ _).mono fun _ => callerAccess_of_gate).bind fun allowed => ?_
    split
    · exact within_enqueue _
    · exact trivial
  | sendText value =>
    refine ((within_gate _ _).mono fun _ => callerAccess_of_gate).bind fun allowed => ?_
    split
    · split
      · exact trivial
      · exact within_enqueue _
    · exact trivial
  | sendClipboardText text =>
    refine ((within_gate _ _).mono fun _ => callerAccess_of_gate).bind fun allowed => ?_
    split
    · split
      · exact trivial
      · exact within_enqueue _
    · exact trivial
  | sendMouse kind button x y =>
    refine ((within_gate _ _).mono fun _ => callerAccess_of_gate).bind fun allowed => ?_
    split
    · split
      · exact trivial
      · split
        · refine ⟨rfl, fun geometry => ?_⟩
          dsimp only [Prog.bind]
          split
          · exact within_trySend _ _
          · exact trivial
        · exact within_trySend _ _
    · exact trivial
  | setRequestedFps fps =>
    rw [Call.program, setRequestedFps]
    split
    · exact within_pushThenStore _ rfl
    · exact trivial
  | setImageQuality quality =>
    rw [Call.program, setImageQuality]
    split
    · exact within_pushThenStore _ rfl
    · exact trivial
  | switchDisplay display width height =>
    rw [Call.program, switchDisplay]
    split
    · exact trivial
    · refine (within_sessionGate.mono fun _ => callerAccess_of_gate).bind fun allowed => ?_
      split
      · refine (within_enqueue _).bind fun pushed => ?_
        split
        · exact trivial
        · exact within_enqueue _
      · exact trivial
  | changeResolution display width height =>
    rw [Call.program, changeResolution]
    split
    · exact trivial
    · exact within_sendOptionControl _
  | refreshVideo display => exact within_sendOptionControl _
  | requestClose => exact ⟨rfl, fun _ => ⟨rfl, fun _ => trivial⟩⟩

/-! ### Every thread -/

theorem start_within {setup : Setup} {s : State} {task : Task} {outcome : Outcome}
    {program : Program Outcome} (h : Start setup s task outcome program) :
    Within task.access program := by
  cases h with
  | run => exact (followsLogin_run setup).runStart.within fun _ _ h => h
  | confirm => exact ((followsLogin_run setup).confirmTurn _).within fun _ _ h => h
  | authenticate =>
    exact ((followsLogin_run setup).authTurn _ (fun _ _ => trivial) _).within fun _ _ h => h
  | spawnReceive | receive => exact within_receiveTurn _ _ _
  | spawnWrite | write => exact within_writeTurn
  | spawnFeed | feed => exact within_feedTurn
  | call => exact (within_call setup _).bind fun _ => within_ret _

end Viewer

end RdEngine
