/-
RdEngine/Viewer/Reclamation.lean

The end of a viewer: what `close()` reports about the native decoders
(`viewer.rs`: `feed`, `feed_loop`, `close_decoder`, `run`, `State::finish`).

The feed opens a decoder for each stream contract and closes the one before.
Whether a native decoder may be left is one flag, `resources_unconfirmed`
(`Session.unconfirmed`), which `finish` turns into the result of `close()`.

`Session.Step` interleaves the feed with the other tasks of the viewer, with
the workers of all the decoders it ever created, and with whoever cancels.
-/
import RdEngine.Platform.DecoderOwnership
import RdEngine.Viewer.State

namespace RdEngine

namespace Reclamation

open OhosDecoder (DecoderConfig DecoderError Decoder DecoderStats Instance)

/-- The errors of a viewer; those of authentication, network and media are
`session` errors. -/
inductive ViewerError where
  | decoder (error : DecoderError)
  | taskFailed
  | reclamationUnconfirmed
  | session (error : Viewer.ViewerError)
deriving DecidableEq

/-! ### Opening a decoder -/

/-- What a record needs of its decoder. -/
structure Contract where
  codec : OhosDecoder.VideoCodec
  geometry : Viewer.Geometry
deriving DecidableEq

/-- The bytes a decoder may queue. -/
def videoBytes : Nat := 32 * 1024 * 1024

def Contract.config (contract : Contract) : DecoderConfig where
  codec := contract.codec
  width := contract.geometry.width
  height := contract.geometry.height
  maxQueuedUnits := 2
  maxQueuedBytes := videoBytes

/-- The decoders there may be in one process. -/
def maxOwners : Nat := 4

/-- The decoders of the process. -/
structure OwnerBudget where
  live : Nat
  quarantined : Nat

/-- A decoder is admitted, or refused. -/
def OwnerBudget.reserve (budget : OwnerBudget) : Except DecoderError OwnerBudget :=
  if budget.quarantined ≠ 0 then .error .quarantinePresent
  else if budget.live ≥ maxOwners then .error .ownerLimit
  else .ok { budget with live := budget.live + 1 }

/-- What `open` finds. -/
structure Platform where
  /-- the target is OHOS -/
  supported : Bool
  surfaceId : Nat
  budget : OwnerBudget
  /-- the worker's thread can be started -/
  spawned : Bool

/-- `SurfaceDecoder::open` up to the start of the worker. -/
def SurfaceDecoder.open (platform : Platform) (config : DecoderConfig) :
    Except DecoderError Decoder := do
  if !platform.supported then throw .unsupportedPlatform
  if platform.surfaceId = 0 then throw .invalidConfig
  let decoder ← Decoder.start config
  let _ ← platform.budget.reserve
  if !platform.spawned then throw .workerStartFailed
  return decoder

/-- `DecoderObserver::wait_stopped`: why no more is to be submitted. -/
def waitStopped (stats : DecoderStats) : Option DecoderError :=
  match stats.failure with
  | some error => some error
  | none => if stats.closed ∨ stats.quarantined ∨ stats.endOfStreamOutput then some .closed else none

/-! ### The tasks -/

/-- What follows `close_decoder`. -/
inductive After where
  /-- in the loop: a decoder of this contract is opened -/
  | changes (contract : Contract)
  /-- in `feed`: it returns -/
  | returns (result : Except ViewerError Unit)

/-- The feed task.  A decoder is named by its place among those created. -/
inductive Feed where
  | unstarted
  /-- at the top of the loop, or submitting the frames of a record -/
  | serving (contract : Option Contract) (current : Option Nat)
  /-- in `close_decoder`, while the worker is joined -/
  | closing (current : Nat) (after : After)
  /-- between `close_decoder` and `open` -/
  | changing (contract : Contract)
  /-- in `open`, on a blocking thread -/
  | opening (contract : Contract) (spawned : Option Nat)
  /-- the loop has returned -/
  | ending (result : Except ViewerError Unit) (current : Option Nat)
  | finished (result : Except ViewerError Unit)
  | joined

/-- The feed's own code is running. -/
def Feed.isRunning : Feed → Bool
  | .serving _ _ | .changing _ | .ending _ _ => true
  | _ => false

/-- The task of the viewer. -/
inductive ViewerTask where
  /-- up to the three tasks: capabilities, connection, authentication -/
  | authenticating
  /-- joining the three tasks, of which `others` besides the feed are left -/
  | joining (others : Nat) (result : Except ViewerError Unit)
  | returned (result : Except ViewerError Unit)
  /-- the last lease was dropped -/
  | released (result : Except ViewerError Unit)
  | finished

/-- What `finish` leaves. -/
structure Ending where
  /-- for `close()` -/
  result : Except ViewerError Unit
  /-- in the snapshot -/
  error : Option ViewerError
  phase : String

/-- What a session has of decoders, and where the tasks are that use them. -/
structure Session where
  cancelled : Bool := false
  /-- `resources_unconfirmed` -/
  unconfirmed : Bool := false
  run : ViewerTask := .authenticating
  feed : Feed := .unstarted
  /-- every decoder whose worker was started -/
  decoders : List Instance := []
  ending : Option Ending := none

def Session.start : Session := {}

def errorOf (result : Except ViewerError Unit) : Option ViewerError :=
  match result with
  | .ok () => none
  | .error error => some error

/-- `State::finish`. -/
def finish (unconfirmed : Bool) (result : Except ViewerError Unit) : Ending :=
  let reclamation : Except ViewerError Unit :=
    if unconfirmed then
      .error (match result with
        | .error (.decoder (.destroyFailed code)) => .decoder (.destroyFailed code)
        | _ => .reclamationUnconfirmed)
    else .ok ()
  let error := errorOf result <|> errorOf reclamation
  { result := reclamation, error, phase := if error.isNone then "closed" else "failed" }

/-- What `run` makes of the result of a task it has joined; the first one is
taken as it is. -/
def join (result next : Except ViewerError Unit) : Except ViewerError Unit :=
  match result, next with
  | result, .ok () => result
  | _, .error (.decoder (.destroyFailed code)) => .error (.decoder (.destroyFailed code))
  | .ok (), .error error => .error error
  | .error first, .error _ => .error first

/-- The last lease's drop has panicked. -/
def releaseFailed (result : Except ViewerError Unit) : Except ViewerError Unit :=
  match result with
  | .ok () => .error .taskFailed
  | .error error => .error error

/-- `closed && !quarantined`, the proof that nothing is left. -/
def reclaimed (stats : DecoderStats) : Bool := stats.closed && !stats.quarantined

/-- The flag after a failed `open`. -/
def unprovenAfter (unconfirmed : Bool) : DecoderError → Bool
  | .destroyFailed _ | .workerPanicked => unconfirmed
  | _ => false

/-- `close_decoder` has returned. -/
def After.feed (after : After) (closed : Except ViewerError Unit) : Feed :=
  match after, closed with
  | .changes contract, .ok () => .changing contract
  | .changes _, .error error => .ending (.error error) none
  | .returns result, .ok () => .finished result
  | .returns _, .error error => .finished (.error error)

/-- What `decoder.close()` returns once the worker is gone. -/
def closeResult : OhosDecoder.Worker → Option (Except ViewerError Unit)
  | .ended (.ok _) => some (.ok ())
  | .ended (.error error) => some (.error (.decoder error))
  | .panicked => some (.error (.decoder .workerPanicked))
  | _ => none

/-- What a failed `open` returns once the worker is gone. -/
def openFailure : OhosDecoder.Worker → Option DecoderError
  | .ended (.error error) => some error
  | .panicked => some .workerPanicked
  | _ => none

/-! ### Steps -/

/-- What happens to a session. -/
inductive Label where
  /-- of a decoder's feeder, callbacks or worker -/
  | decoder (index : Nat) (label : OhosDecoder.Label)
  /-- `request_close`, by the frontend or by any task -/
  | cancels
  /-- of the task of the viewer, or of those it joins -/
  | runs
  /-- of the feed -/
  | feeds
  | panics
  /-- a call of `close()` returns -/
  | closeReturns (result : Except ViewerError Unit)

def Label.isPanic : Label → Bool
  | .panics | .decoder _ .panics => true
  | _ => false

/-- A step of a decoder, or of one of the tasks. -/
inductive Session.Step : Session → Label → Session → Prop
  | decoder {s : Session} {index : Nat} {i i' : Instance} {l : OhosDecoder.Label}
      (hat : s.decoders[index]? = some i) (hstep : Instance.Step i l i') :
      Step s (.decoder index l) { s with decoders := s.decoders.set index i' }
  | cancels {s : Session} : Step s .cancels { s with cancelled := true }
  /- the task of the viewer -/
  | authenticationEnds {s : Session} {result : Except ViewerError Unit}
      (hrun : s.run = .authenticating) : Step s .runs { s with run := .returned result }
  | serves {s : Session} (hrun : s.run = .authenticating) :
      Step s .runs { s with run := .joining 2 (.ok ()), feed := .serving none none }
  | joinsOther {s : Session} {others : Nat} {result next : Except ViewerError Unit}
      (hrun : s.run = .joining (others + 1) result) :
      Step s .runs { s with run := .joining others (join result next) }
  | otherPanics {s : Session} {others : Nat} {result : Except ViewerError Unit}
      (hrun : s.run = .joining (others + 1) result) :
      Step s .panics { s with run := .joining others (join result (.error .taskFailed)) }
  | joinsFeed {s : Session} {others : Nat} {result next : Except ViewerError Unit}
      (hrun : s.run = .joining others result) (hfeed : s.feed = .finished next) :
      Step s .runs { s with run := .joining others (join result next), feed := .joined }
  | returns {s : Session} {result : Except ViewerError Unit}
      (hrun : s.run = .joining 0 result) (hfeed : s.feed = .joined) :
      Step s .runs { s with run := .returned result }
  | releases {s : Session} {result : Except ViewerError Unit} (hrun : s.run = .returned result) :
      Step s .runs { s with run := .released result }
  | releasePanics {s : Session} {result : Except ViewerError Unit}
      (hrun : s.run = .returned result) :
      Step s .panics { s with unconfirmed := true, run := .released (releaseFailed result) }
  | finishes {s : Session} {result : Except ViewerError Unit} (hrun : s.run = .released result) :
      Step s .runs { s with run := .finished, ending := some (finish s.unconfirmed result) }
  | closeReturns {s : Session} {ending : Ending} (hending : s.ending = some ending) :
      Step s (.closeReturns ending.result) s
  /- the feed: its loop -/
  | feedCancelled {s : Session} {contract : Option Contract} {current : Option Nat}
      (hfeed : s.feed = .serving contract current) (hcancelled : s.cancelled = true) :
      Step s .feeds { s with feed := .ending (.ok ()) current }
  | feedStopped {s : Session} {contract : Option Contract} {current : Nat} {i : Instance}
      {error : DecoderError} (hfeed : s.feed = .serving contract (some current))
      (hat : s.decoders[current]? = some i)
      (hstopped : waitStopped i.decoder.shared.stats = some error) :
      Step s .feeds { s with feed := .ending (.error (.decoder error)) (some current) }
  | queueEnds {s : Session} {contract : Option Contract} {current : Option Nat}
      (hfeed : s.feed = .serving contract current) :
      Step s .feeds { s with feed := .ending (.ok ()) current }
  /- a record of the decoder's contract: its frames are submitted, or one of them cannot be -/
  | submits {s : Session} {contract : Contract} {current : Nat}
      (hfeed : s.feed = .serving (some contract) (some current)) : Step s .feeds s
  | overflows {s : Session} {contract : Contract} {current : Nat}
      (hfeed : s.feed = .serving (some contract) (some current)) :
      Step s .feeds
        { s with feed := .ending (.error (.session .timestampOverflow)) (some current) }
  | rejected {s : Session} {contract : Contract} {current : Nat} {i : Instance}
      {unit : OhosDecoder.AccessUnit} {reason : DecoderError}
      (hfeed : s.feed = .serving (some contract) (some current))
      (hat : s.decoders[current]? = some i)
      (hrejected : i.decoder.shared.rejection i.config unit = some reason) :
      Step s .feeds { s with feed := .ending (.error (.decoder reason)) (some current) }
  | noDecoder {s : Session} {contract : Contract}
      (hfeed : s.feed = .serving (some contract) none) :
      Step s .feeds { s with feed := .ending (.error (.session .closed)) none }
  /- a record of another contract -/
  | closes {s : Session} {contract : Option Contract} {next : Contract} {current : Nat}
      (hfeed : s.feed = .serving contract (some current)) (hnext : contract ≠ some next) :
      Step s .feeds { s with feed := .closing current (.changes next) }
  | changes {s : Session} {contract : Option Contract} {next : Contract}
      (hfeed : s.feed = .serving contract none) (hnext : contract ≠ some next) :
      Step s .feeds { s with feed := .changing next }
  | changeCancelled {s : Session} {contract : Contract} (hfeed : s.feed = .changing contract)
      (hcancelled : s.cancelled = true) : Step s .feeds { s with feed := .ending (.ok ()) none }
  | opens {s : Session} {contract : Contract} (hfeed : s.feed = .changing contract)
      (hcancelled : s.cancelled = false) :
      Step s .feeds { s with unconfirmed := true, feed := .opening contract none }
  /- `open` -/
  | refuses {s : Session} {contract : Contract} {platform : Platform} {error : DecoderError}
      (hfeed : s.feed = .opening contract none)
      (hopen : SurfaceDecoder.open platform contract.config = .error error) :
      Step s .feeds
        { s with
          unconfirmed := unprovenAfter s.unconfirmed error
          feed := .ending (.error (.decoder error)) none }
  | spawns {s : Session} {contract : Contract} {platform : Platform} {decoder : Decoder}
      (hfeed : s.feed = .opening contract none)
      (hopen : SurfaceDecoder.open platform contract.config = .ok decoder) :
      Step s .feeds
        { s with
          decoders := s.decoders ++ [{ config := contract.config, decoder, started := false }]
          feed := .opening contract (some s.decoders.length) }
  | opened {s : Session} {contract : Contract} {current : Nat} {i : Instance}
      (hfeed : s.feed = .opening contract (some current))
      (hat : s.decoders[current]? = some i) (hstarted : i.started = true) :
      Step s .feeds { s with feed := .serving (some contract) (some current) }
  | openFails {s : Session} {contract : Contract} {current : Nat} {i : Instance}
      {error : DecoderError} (hfeed : s.feed = .opening contract (some current))
      (hat : s.decoders[current]? = some i) (hstarted : i.started = false)
      (hworker : openFailure i.decoder.worker = some error) :
      Step s .feeds
        { s with
          unconfirmed := unprovenAfter s.unconfirmed error
          feed := .ending (.error (.decoder error)) none }
  | openPanics {s : Session} {contract : Contract} {spawned : Option Nat}
      (hfeed : s.feed = .opening contract spawned) :
      Step s .panics { s with feed := .ending (.error .taskFailed) none }
  /- `close_decoder` -/
  | closed {s : Session} {current : Nat} {after : After} {i : Instance}
      {result : Except ViewerError Unit} (hfeed : s.feed = .closing current after)
      (hat : s.decoders[current]? = some i)
      (hworker : closeResult i.decoder.worker = some result) :
      Step s .feeds
        { s with
          unconfirmed := s.unconfirmed && !reclaimed i.decoder.shared.stats
          feed := after.feed result }
  | closePanics {s : Session} {current : Nat} {after : After} {i : Instance}
      (hfeed : s.feed = .closing current after) (hat : s.decoders[current]? = some i) :
      Step s .panics
        { s with
          unconfirmed := s.unconfirmed && !reclaimed i.decoder.shared.stats
          feed := after.feed (.error .taskFailed) }
  /- `feed` after its loop: an error cancels, then the last decoder is closed -/
  | feedCloses {s : Session} {result : Except ViewerError Unit} {current : Nat}
      (hfeed : s.feed = .ending result (some current)) :
      Step s .feeds
        { s with
          cancelled := (errorOf result).isSome || s.cancelled
          feed := .closing current (.returns result) }
  | feedReturns {s : Session} {result : Except ViewerError Unit}
      (hfeed : s.feed = .ending result none) :
      Step s .feeds
        { s with
          cancelled := (errorOf result).isSome || s.cancelled
          feed := .finished result }
  | feedPanics {s : Session} (hrunning : s.feed.isRunning = true) :
      Step s .panics { s with feed := .finished (.error .taskFailed) }

end Reclamation

end RdEngine
