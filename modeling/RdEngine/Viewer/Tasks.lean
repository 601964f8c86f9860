/-
RdEngine/Viewer/Tasks.lean

The engine's tasks: `run` with `authenticate`, and the receive, write and feed
tasks it spawns.  Each loop of the source is a program for one turn, whose
`Outcome` says with which local variables the next turn begins.

A `select!` between a network read and the user's commands takes whichever is
ready, which the environment decides (`selectCommand`).
-/
import RdEngine.Viewer.Calls

namespace RdEngine

namespace Viewer

open Threads

inductive Awaiting where
  | network | password | secondFactor
  deriving DecidableEq, Repr

/-- How a turn of a thread ends. -/
inductive Outcome where
  | returned (result : Except ViewerError Unit)
  | waiting
  | confirming (decoders : Decoders)
  | authenticating (decoders : Decoders) (request : Option LoginRequest) (awaiting : Awaiting)
  | receiving (decoders : Decoders) (source : Geometry)
  | writing
  | feeding

/-! ### The run task -/

/-- `State::finish`, with the receivers `run` may still hold. -/
def finish (result : Except ViewerError Unit) : Program Outcome := do
  call .closeQueues
  call (.setAuthenticated false)
  return .returned result

/-- What the decoders can do, as it is told to the peer. -/
def supportedDecoding (decoders : Decoders) : SupportedDecoding where
  abilityH264 := if decoders.h264 then 1 else 0
  abilityH265 := if decoders.h265 then 1 else 0
  abilityVp9 := 0
  abilityVp8 := 0
  abilityAv1 := 0
  prefer := .known (if decoders.h265 then .h265 else .h264)
  preferChroma := .known .i420

/-- An option that turns something off, or leaves it on. -/
def boolOption (disabled : Bool) : EnumOrUnknown BoolOption :=
  .known (if disabled then .yes else .no)

/-- The options of the login request are those the viewer was started with. -/
def loginOption (setup : Setup) (decoders : Decoders) : OptionMessage where
  supportedDecoding := some (supportedDecoding decoders)
  customFps := setup.requestedFps
  imageQuality := .known setup.imageQuality.protoQuality
  customImageQuality := setup.imageQuality.customQuality.getD 0
  disableAudio := .known .yes
  disableClipboard := boolOption !(localClipboardEnabled && setup.clipboardEnabled)
  enableFileTransfer := .known .no
  disableKeyboard := boolOption !localKeyboardEnabled
  disableCamera := .known .yes

/-- `login_request`, from the options the viewer was started with. -/
def loginRequest (setup : Setup) (decoders : Decoders) (sessionId : Nat) : LoginRequest where
  username := setup.username
  myId := setup.localId
  myName := setup.localName
  myPlatform := "HarmonyOS"
  version := "1.4.9"
  sessionId := max sessionId 1
  videoAckRequired := false
  option := some (loginOption setup decoders)

/-- The accesses of `run` up to the login, each by itself. -/
def capabilities : Program (Except ViewerError Decoders) := call .capabilities

def connect : Program (Except ViewerError Unit) := call .connect

/-- Up to the established connection. -/
def runStart (setup : Setup) : Program Outcome := do
  match ← capabilities with
  | .error error => finish (.error error)
  | .ok decoders =>
    if ← isCancelled then finish (.ok ())
    else
      match ← connect with
      | .error error => finish (.error error)
      | .ok () =>
        if setup.confirmInsecure then return .confirming decoders
        else return .authenticating decoders none .network

def recvCommand : Program (Received AuthCommand) := call .recvCommand

/-- One turn of waiting for the user's decision about an insecure peer. -/
def confirmTurn (decoders : Decoders) : Program Outcome := do
  if ← isCancelled then finish (.ok ())
  else
    match ← recvCommand with
    | .empty => return .confirming decoders
    | .closed => finish (.error .closed)
    | .message (.continueInsecure true) => return .authenticating decoders none .network
    | .message (.continueInsecure false) => finish (.error .authenticationFailed)
    -- a password or a code cannot bypass the decision
    | .message (.password _) | .message (.secondFactor _) => return .confirming decoders

/-- `tasks.join_next()` until no task is left; a teardown failure replaces a
clean result, and a failed destruction replaces any. -/
def joinTasks : Nat → Except ViewerError Unit → Program (Except ViewerError Unit)
  | 0, result => return result
  | tasks + 1, result => do
    match (← call .joinNext : Option (Except ViewerError Unit)) with
    | none => return result
    | some (.ok ()) => joinTasks tasks result
    | some (.error (.decoder (.destroyFailed code))) =>
      joinTasks tasks (.error (.decoder (.destroyFailed code)))
    | some (.error error) =>
      joinTasks tasks (match result with
        | .ok () => .error error
        | .error first => .error first)

/-- `geometry(&PeerInfo)`. -/
def sourceGeometry (info : PeerInfo) : Except ViewerError Geometry :=
  if info.currentDisplay < 0 then .error .invalidPeerGeometry
  else
    match info.displays[info.currentDisplay.toNat]? with
    | none => .error .invalidPeerGeometry
    | some display =>
      if display.width ≤ 0 ∨ display.height ≤ 0 then .error .invalidPeerGeometry
      else .ok ⟨info.currentDisplay, display.x, display.y, display.width, display.height⟩

/-- The first task has ended, or the viewer was closed: see the others to their
end. -/
def supervise (first : Except ViewerError Unit) : Program Outcome := do
  requestClose
  let result ← joinTasks 3 first
  call (.setControl false)
  finish result

/-- The session is authenticated: publish what it gave and spawn the tasks. -/
def serve (decoders : Decoders) (context : Context) : Program Outcome :=
  match context.peerInfo.elim (.error .invalidPeerGeometry) sourceGeometry with
  | .error error => finish (.error error)
  | .ok source => do
    call (.setGeometry source)
    call (.setRemote .keyboard context.keyboard)
    call (.setRemote .clipboard context.clipboard)
    call (.setAuthenticated true)
    call (.setControl true)
    call (.spawn decoders source)
    let first : Option (Except ViewerError Unit) ← call .awaitFirst
    supervise (first.getD (.ok ()))

def selectCommand : Program Bool := call .selectCommand

def sessionRecv : Program (Except ViewerError ViewerEvent) := call .sessionRecv

def randomSessionId : Program Nat := call .randomSessionId

def loginAnswer : LoginSent → SendAnswer
  | .sent _ => .sent
  | .failed => .failed
  | .dropped => .dropped

def login (request : LoginRequest) (password : Option Bytes) : Program SendAnswer :=
  (call (.login request password)).bind fun answer => .ret (loginAnswer answer)

def sendSecondFactor (code : String) : Program SendAnswer := call (.sendSecondFactor code)

/-- The session becomes its two halves. -/
def intoParts : Program (Except ViewerError Context) := call .intoParts

/-- After a send of the session: a failure ends the login, and a dropped one was
cancelled. -/
def afterSend (answer : SendAnswer) (next : Outcome) : Program Outcome :=
  match answer with
  | .sent => return next
  | .failed => finish (.error .authenticationFailed)
  | .dropped => finish (.ok ())

/-- A command of the user during the login. -/
def authCommand (decoders : Decoders) (request : Option LoginRequest) (awaiting : Awaiting)
    (command : AuthCommand) : Program Outcome :=
  match command, awaiting with
  | .password password, .password =>
    match request with
    | none => finish (.error .authenticationFailed)
    | some first => do
      afterSend (← login first (some password)) (.authenticating decoders request .network)
  | .secondFactor code, .secondFactor =>
    match String.fromUTF8? ⟨code.toArray⟩ with
    | none => finish (.error .invalidOptions)
    | some code => do
      afterSend (← sendSecondFactor code) (.authenticating decoders request .network)
  | _, _ => return .authenticating decoders request awaiting

/-- An event of the session during the login. -/
def authEvent (setup : Setup) (decoders : Decoders) (request : Option LoginRequest)
    (awaiting : Awaiting) (event : ViewerEvent) : Program Outcome :=
  match event with
  | .challenge => do
    let first := loginRequest setup decoders (← randomSessionId)
    let password := if setup.password.isEmpty then none else some setup.password
    afterSend (← login first password) (.authenticating decoders (some first) awaiting)
  | .authorized _ => do
    match ← intoParts with
    | .error _ => finish (.error .authenticationFailed)
    | .ok context => serve decoders context
  | .loginError error =>
    if error = "No Password Access" then return .authenticating decoders request .network
    else if error = "Wrong Password" then return .authenticating decoders request .password
    else if error = "2FA Required" ∨ error = "Wrong 2FA Code" then
      return .authenticating decoders request .secondFactor
    else finish (.error .authenticationFailed)
  | .closed => finish (.error .remoteClosed)
  | .progress | .preAuthControl _ => return .authenticating decoders request awaiting
  | .permissionChanged _ | .payload _ => finish (.error .authenticationFailed)

/-- One turn of the login loop. -/
def authTurn (setup : Setup) (decoders : Decoders) (request : Option LoginRequest)
    (awaiting : Awaiting) : Program Outcome := do
  if ← isCancelled then finish (.ok ())
  else if ← (pure (awaiting ≠ .network) : Program Bool).both selectCommand then
    match ← recvCommand with
    | .empty => return .authenticating decoders request awaiting
    | .closed => finish (.error .closed)
    | .message command => authCommand decoders request awaiting command
  else
    match ← sessionRecv with
    | .error _ => finish (.error .authenticationFailed)
    | .ok event => authEvent setup decoders request awaiting event

/-! ### The receive task -/

def exit (result : Except ViewerError Unit) : Program Outcome := do
  call (.exit result)
  return .returned result

/-- The frames of a record in a codec this viewer decodes. -/
def decodable (decoders : Decoders) (union : Option VideoFrameUnion) :
    Option (VideoCodec × List EncodedVideoFrame) :=
  match union with
  | some (.h264s frames) => if decoders.h264 then some (.h264, frames) else none
  | some (.h265s frames) => if decoders.h265 then some (.h265, frames) else none
  | _ => none

/-- Room for a video record. -/
def acquireSlot : Program Bool := call .acquireSlot

/-- Room for its bytes. -/
def acquireBytes (count : Nat) : Program Bool := call (.acquireBytes count)

/-- A video record waits for the feeder: first for a slot, then for its share of
the byte budget, then for room in the channel. -/
def receiveVideo (decoders : Decoders) (source : Geometry) (frame : VideoFrame) :
    Program Outcome :=
  if frame.display ≠ source.display then exit (.error .invalidPeerGeometry)
  else
    match decodable decoders frame.union with
    | none => exit (.error .unsupportedCodec)
    | some (codec, frames) =>
      let length := (frames.map (·.data.length)).sum
      if frames.isEmpty then return .receiving decoders source
      else if frames.length > maxUnitsPerRecord ∨ frames.any (·.data.isEmpty) then
        exit (.error .invalidVideoRecord)
      else if length > videoBytes then exit (.error .videoRecordTooLarge)
      else do
        if ← acquireSlot.both (acquireBytes length) then
          match (← call (.sendVideo ⟨codec, source, frames, length⟩) : VideoSent) with
          | .sent => return .receiving decoders source
          | .closed => exit (.error .closed)
          | .cancelled => exit (.ok ())
        else exit (.ok ())

/-- The quality an option message names, a custom one before a preset. -/
def toldQuality (option : OptionMessage) : Option ViewerImageQuality :=
  if option.customImageQuality > 0 then some (.custom option.customImageQuality)
  else
    match option.imageQuality.enumValue with
    | some .low => some .low
    | some .balanced => some .balanced
    | some .best => some .best
    | _ => none

def storePreset (option : OptionMessage) : Program Unit :=
  match toldQuality { option with customImageQuality := 0 } with
  | some preset => call (.setImageQuality preset)
  | none => pure ()

def storeCustom (option : OptionMessage) : Program Unit :=
  if option.customImageQuality > 0 then
    call (.setImageQuality (.custom option.customImageQuality))
  else pure ()

def storeFps (option : OptionMessage) : Program Unit :=
  if option.customFps > 0 then call (.setRequestedFps option.customFps.toNat) else pure ()

/-- The preset is stored first and a custom value over it. -/
def receiveOption (option : OptionMessage) : Program Unit := do
  storePreset option
  storeCustom option
  storeFps option

/-- What the peer reports of a permission is stored. -/
def receivePermission (info : PermissionInfo) : Program Unit :=
  match info.permission.enumValue with
  | some .keyboard => call (.setRemote .keyboard info.enabled)
  | some .clipboard => call (.setRemote .clipboard info.enabled)
  | _ => pure ()

/-- The text of an inbound clipboard, when it is one that is kept. -/
def inboundText (setup : Setup) (clipboard : Clipboard) : Option String :=
  if clipboard.format.enumValue ≠ some .text then none
  else if clipboard.content.length > maxInboundClipboardText then none
  else
    let raw :=
      if clipboard.compress then
        setup.decompressWithLimit clipboard.content maxInboundClipboardText
      else some clipboard.content
    match raw with
    | none => none
    | some raw =>
      if raw.isEmpty ∨ raw.length > maxInboundClipboardText then none
      else String.fromUTF8? ⟨raw.toArray⟩

def storeText : Option String → Program Unit
  | some text => call (.storeClipboard text)
  | none => pure ()

/-- `store_inbound_clipboard`. -/
def storeInbound (setup : Setup) : List Clipboard → Program Unit
  | [] => pure ()
  | clipboard :: clipboards => do
    storeText (inboundText setup clipboard)
    storeInbound setup clipboards

/-- The clipboards of a message, where they are allowed. -/
def receiveClipboards (setup : Setup) (clipboards : List Clipboard) : Program Unit :=
  if !localClipboardEnabled || !setup.clipboardEnabled then pure ()
  else storeInbound setup clipboards

/-- A `Misc` record. -/
def receiveMisc (decoders : Decoders) (source : Geometry) (misc : Misc) : Program Outcome :=
  match misc.union with
  | some (.permissionInfo info) => do
    receivePermission info
    return .receiving decoders source
  | some (.closeReason _) => exit (.error .remoteClosed)
  | some (.switchDisplay display) =>
    if display.width ≤ 0 ∨ display.height ≤ 0 ∨ display.display < 0 then
      exit (.error .invalidPeerGeometry)
    else do
      let source : Geometry :=
        ⟨display.display, display.x, display.y, display.width, display.height⟩
      call (.setGeometry source)
      return .receiving decoders source
  | some (.option option) => do
    receiveOption option
    return .receiving decoders source
  | _ => return .receiving decoders source

/-- One record from the peer. -/
def receiveMessage (setup : Setup) (decoders : Decoders) (source : Geometry)
    (message : Message) : Program Outcome :=
  match message.union with
  | some (.videoFrame frame) => receiveVideo decoders source frame
  | some (.testDelay probe) =>
    if probe.fromClient then return .receiving decoders source
    else do
      match ← trySend .control (.of (.testDelay probe)) with
      | .ok () => return .receiving decoders source
      | .error _ => exit (.error .backpressure)
  | some (.misc misc) => receiveMisc decoders source misc
  | some (.clipboard clipboard) => do
    receiveClipboards setup [clipboard]
    return .receiving decoders source
  | some (.multiClipboards clipboards) => do
    receiveClipboards setup clipboards
    return .receiving decoders source
  | _ => return .receiving decoders source

/-- One turn of the receive loop. -/
def receiveTurn (setup : Setup) (decoders : Decoders) (source : Geometry) : Program Outcome := do
  match (← call .incoming : Arrival) with
  | .cancelled => exit (.ok ())
  | .failed => exit (.error .transportFailed)
  | .ended => exit (.error .remoteClosed)
  | .message message => receiveMessage setup decoders source message

/-! ### The write task -/

/-- The receivers are dropped with the task. -/
def exitWrite (result : Except ViewerError Unit) : Program Outcome := do
  call .closeQueues
  exit result

def recv (queue : Queue) : Program (Received Envelope) := call (.recv queue)

/-- A message is written; a write that fails ends the task. -/
def sendOut (envelope : Envelope) : Program Outcome := do
  match (← call (.send envelope) : SendAnswer) with
  | .sent => return .writing
  | .failed => exitWrite (.error .transportFailed)
  | .dropped => exitWrite (.ok ())

/-- The same, unless the viewer is closed. -/
def deliver (envelope : Envelope) : Program Outcome := do
  if ← isCancelled then exitWrite (.ok ()) else sendOut envelope

/-- The second half of a turn, when the control queue was found empty.  Only
input from the mouse queue is checked again. -/
def pollMouse : Program Outcome := do
  match ← recv .mouse with
  | .closed => exitWrite (.ok ())
  | .empty => return .writing
  | .message envelope =>
    if ← (pure localMouseEnabled : Program Bool).both
        (authenticated.both (remote .keyboard)) then deliver envelope
    else return .writing

/-- One turn of the write loop.  The biased `select!` polls the token, the
control queue and the mouse queue, in this order. -/
def writeTurn : Program Outcome := do
  if ← isCancelled then exitWrite (.ok ())
  else
    match ← recv .control with
    | .closed => exitWrite (.ok ())
    | .message envelope => deliver envelope
    | .empty => pollMouse

/-! ### The feed task -/

def closeDecoder : Program (Except DecoderError Unit) := call .closeDecoder

def closeOnError : Except ViewerError Unit → Program Unit
  | .ok () => pure ()
  | .error _ => requestClose

/-- An error closes the session before the decoder is torn down. -/
def exitFeed (result : Except ViewerError Unit) : Program Outcome := do
  closeOnError result
  let teardown ← closeDecoder
  call .closeVideo
  match teardown with
  | .ok () => exit result
  | .error error => exit (.error (.decoder error))

/-- `i64::checked_mul(1000)` fits. -/
def timestampFits (pts : Int) : Bool := -2 ^ 63 ≤ pts * 1000 ∧ pts * 1000 < 2 ^ 63

/-- The frames of a record, one after the other. -/
def submitFrames (record : VideoRecord) : List EncodedVideoFrame → Program Outcome
  | [] => do
    call (.release record.bytes)
    return .feeding
  | frame :: frames => do
    if ← isCancelled then exitFeed (.ok ())
    else if !timestampFits frame.pts then exitFeed (.error .timestampOverflow)
    else
      match (← call (.submit frame) : Except DecoderError Unit) with
      | .ok () => submitFrames record frames
      | .error error => do
        if ← isCancelled then exitFeed (.ok ()) else exitFeed (.error (.decoder error))

def contract : Program (Option (VideoCodec × Geometry)) := call .contract

def openDecoder (codec : VideoCodec) (geometry : Geometry) : Program (Except DecoderError Unit) :=
  call (.openDecoder codec geometry.width geometry.height)

/-- One turn of the feed loop: a record with another codec or geometry than the
decoder's contract opens a new one, whose geometry is published. -/
def feedTurn : Program Outcome := do
  match (← call .recvVideo : VideoArrival) with
  | .cancelled | .closed => exitFeed (.ok ())
  | .stopped error => exitFeed (.error (.decoder error))
  | .record record =>
    let next := (record.codec, record.geometry)
    if (← contract) = some next then
      submitFrames record record.frames
    else
      match ← closeDecoder with
      | .error error => exitFeed (.error (.decoder error))
      | .ok () =>
        if ← isCancelled then exitFeed (.ok ())
        else
          match ← openDecoder record.codec record.geometry with
          | .error error => exitFeed (.error (.decoder error))
          | .ok () => do
            call (.setGeometry record.geometry)
            call (.setContract next)
            submitFrames record record.frames

/-! ### The engine -/

/-- The programs a thread may begin: a loop its next turn, a spawned task its
first, a caller any call. -/
inductive Start (setup : Setup) : State → Task → Outcome → Program Outcome → Prop
  | run (s : State) : Start setup s .run .waiting (runStart setup)
  | confirm (s : State) (decoders : Decoders) :
      Start setup s .run (.confirming decoders) (confirmTurn decoders)
  | authenticate (s : State) (decoders : Decoders) (request : Option LoginRequest)
      (awaiting : Awaiting) :
      Start setup s .run (.authenticating decoders request awaiting)
        (authTurn setup decoders request awaiting)
  | spawnReceive {s : State} {decoders : Decoders} {source : Geometry} :
      s.spawned = some (decoders, source) →
      Start setup s .receive .waiting (receiveTurn setup decoders source)
  | receive (s : State) (decoders : Decoders) (source : Geometry) :
      Start setup s .receive (.receiving decoders source) (receiveTurn setup decoders source)
  | spawnWrite {s : State} : s.spawned.isSome → Start setup s .write .waiting writeTurn
  | write (s : State) : Start setup s .write .writing writeTurn
  | spawnFeed {s : State} : s.spawned.isSome → Start setup s .feed .waiting feedTurn
  | feed (s : State) : Start setup s .feed .feeding feedTurn
  | call (s : State) (n : Nat) (result : Except ViewerError Unit) (call : Call) :
      Start setup s (.caller n) (.returned result) ((call.program setup).bind fun result =>
        .ret (.returned result))

/-- The engine: its tasks, and what an access does. -/
def engine (setup : Setup) : Machine Access.Answer Outcome State Task where
  perform := perform
  start := Start setup

/-- The state a viewer starts with. -/
def State.initial (setup : Setup) : State where
  geometry := none
  clipboard := []
  cancelled := false
  authenticated := false
  remoteKeyboard := false
  remoteClipboard := false
  requestedFps := setup.requestedFps
  imageQuality := setup.imageQuality
  control := false
  controlQueue := []
  mouseQueue := []
  queuesOpen := true
  slots := videoRecords
  bytes := videoBytes
  video := []
  videoOpen := true
  contract := none
  spawned := none
  running := 0
  ended := []
  accepted := 0
  written := []
  wire := []
  authoritative := none

/-- A started viewer: no task has taken a step and no call was made. -/
def initial (setup : Setup) : Config Access.Answer Outcome State Task where
  shared := .initial setup
  threads
    | .caller _ => .ret (.returned (.ok ()))
    | _ => .ret .waiting

end Viewer

end RdEngine
