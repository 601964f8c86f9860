/-
RdEngine/LoginDialogue.lean

A viewer's login attempt and the host's session, with the records in flight
between them.

Every step of either side is one of its own model; a record is taken from those
in flight, in order, and what is sent is put there.  The attempt policy of the
host always allows.  An attempt and a session may also lose the connection or
run out of time, which their models leave to the environment.
-/
import RdEngine.HostSessionSafety
import RdEngine.SessionSafety
import RdEngine.Viewer.Authenticate

namespace RdEngine

namespace LoginDialogue

open Viewer

/-- A record on its way to the viewer.  `live` is a history variable: whether the
host kept waiting after the turn that sent it. -/
structure InFlight where
  message : Message
  live : Bool

/-- The messages that were sent completely. -/
def hostSent (records : List HostRecord) : List Message :=
  records.filterMap fun
    | .sent message => some message
    | _ => none

/-- What a viewer has sent, among its records. -/
def viewerSent (records : List WireRecord) : List Message :=
  records.filterMap fun
    | .sent message => some message
    | .received _ => none

instance (auth : HostAuthentication) : Decidable auth.Live :=
  inferInstanceAs (Decidable (auth.state ≠ .authorized ∧ auth.state ≠ .closed))

/-- What `recv` of a viewer takes from the wire. -/
def viewerHeard (env : Fixtures) (session : ViewerSession) (incoming : Incoming) :
    Option Message :=
  if session.state = .closed then none
  else
    match (session.io.recv env.box env.proto incoming).2 with
    | some (.ok message) => message
    | _ => none

/-- What `recv_with_approval` of a host takes from the wire. -/
def hostHeard (env : Fixtures) (session : HostSession) (waited : Waited) : Option Message :=
  if session.auth.state = .closed then none
  else
    match waited with
    | .incoming incoming =>
      match (session.io.recv env.box env.proto incoming).2 with
      | some (.ok message) => message
      | _ => none
    | .notified | .dropped => none

/-- A viewer, its host, and what is on its way between them. -/
structure Pair where
  viewer : Attempt
  host : HostSession
  toViewer : List InFlight
  toHost : List Message

/-- What the host's turn puts in flight. -/
def sentBy {α : Type} (turn : HostTurn α) : List InFlight :=
  (hostSent turn.records).map fun message => ⟨message, decide turn.session.auth.Live⟩

/-- What happens to the pair. -/
inductive Label where
  /-- a step of the viewer that is not on the network -/
  | viewer (label : Attempt.Label)
  /-- a turn of the viewer on the network, and the record it took -/
  | hears (taken : List InFlight)
  /-- a turn of the host, and the record it took -/
  | host (heard : Option Message) (answers : Answers)
  | hostCloses

/-- A step of one of the two, or of the wire between them. -/
inductive Step (env : Fixtures) : Pair → Label → Pair → Prop
  | viewer {s : Pair} {label : Attempt.Label} {attempt : Attempt}
      (hstep : Attempt.Step env s.viewer label attempt) (hlabel : label.isNetwork = false) :
      Step env s (.viewer label)
        { s with viewer := attempt, toHost := s.toHost ++ viewerSent label.records }
  | hears {s : Pair} {request : Option LoginRequest} {awaiting : Awaiting} {turn : Turn}
      {taken rest : List InFlight} (arrives : Attempt.Arrives)
      (hstage : s.viewer.stage = .looping request awaiting)
      (hturn : turn = s.viewer.onNetwork env request awaiting arrives)
      (hflight : s.toViewer = taken ++ rest)
      (htaken : taken.map (·.message)
        = (viewerHeard env s.viewer.session arrives.incoming).toList) :
      Step env s (.hears taken)
        { s with
          viewer := turn.attempt
          toViewer := rest
          toHost := s.toHost ++ viewerSent turn.records }
  | host {s : Pair} {turn : HostTurn HostEvent} {rest : List Message} (waited : Waited)
      (answers : Answers) (expired : Bool) (sends : List SendAnswer)
      (hallow : answers.allow = .ok ())
      (hflight : s.toHost = (hostHeard env s.host waited).toList ++ rest)
      (hturn : turn = s.host.recvNotified env.box env.proto env.sha256 waited answers expired
        sends) :
      Step env s (.host (hostHeard env s.host waited) answers)
        { s with
          host := turn.session
          toViewer := s.toViewer ++ sentBy turn
          toHost := rest }
  | hostCloses {s : Pair} {turn : HostTurn Unit} (sends : List SendAnswer)
      (hturn : turn = s.host.close env.box env.proto sends) :
      Step env s .hostCloses
        { s with host := turn.session, toViewer := s.toViewer ++ sentBy turn }

/-- What `start_with_connector` accepts. -/
structure Accepted (setup : Setup) : Prop where
  username : setup.username ≠ "" ∧ setup.username.utf8ByteSize ≤ 512
  localId : setup.localId ≠ "" ∧ setup.localId.utf8ByteSize ≤ 512
  localName : setup.localName.utf8ByteSize ≤ 512
  password : setup.password.length ≤ 4096
  requestedFps : 1 ≤ setup.requestedFps ∧ setup.requestedFps ≤ 240

/-- Both sides have taken over an established connection, and the host has sent
its challenge, which is six characters long. -/
structure Starts (env : Fixtures) (s : Pair) : Prop where
  setup : Accepted env.setup
  viewer : ∃ wire, s.viewer = .start env wire
  host : ∃ wire config challenge, challenge.length = 6 ∧
    HostSession.fromEstablished env.box env.proto wire config challenge .sent = some (.ok s.host)
  toViewer : s.toViewer = [⟨HostSession.hello s.host.auth, true⟩]
  toHost : s.toHost = []

end LoginDialogue

end RdEngine
