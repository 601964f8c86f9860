/-
RdEngine/Host/Approval.lean

The host that serves one peer after another (`serve`, `peer`, `authenticate` of
`host.rs`) next to the calls of its operator.

The pending request, the decision about it and the permit of the wake-up outlive a
connection and are shared: every access to them is a step of its own.  What a
session does to itself is not, so a call of `recv_with_approval` is two steps: up
to the moment the machine asks the local approval (`call`), with all that follows
from the answer, and its return (`returned`); anything may happen in between.  The
tokens of the requests are shared with the other hosts of the process
(`otherRequest`).  The snapshot, which no decision reads, is left out, and so is
everything behind the authentication but that it ends.
-/
import RdEngine.Host.Policy
import RdEngine.HostSession

namespace RdEngine

namespace Host

/-! ### The state -/

/-- Where the task is that serves the peers. -/
inductive Task where
  | listening
  | connected (socket : Socket)
  | drawn (socket : Socket) (epoch : Nat)
  | accepting (socket : Socket) (epoch : Nat)
  | waiting (epoch : Nat) (session : HostSession) (left : Nat)
  | returning (epoch : Nat) (turn : HostTurn HostEvent) (left : Nat)
  | serving (epoch : Nat) (parts : AuthenticatedParts)
  | leaving
  | stopped

/-- A connection is being served. -/
def Task.busy : Task → Bool
  | .listening | .leaving | .stopped => false
  | _ => true

/-- `State`, the token counter and the serving task; `notifying` counts the calls
of `approve` between their decision and their notification. -/
structure HostState where
  grant : LocalGrant := {}
  permit : Bool := false
  notifying : Nat := 0
  cancelled : Bool := false
  nextRequest : Nat
  task : Task := .listening

/-- A host that has just begun to listen. -/
def HostState.initial (nextRequest : Nat) : HostState := { nextRequest := nextRequest }

/-- `approve`, up to its notification. -/
def HostState.approve (s : HostState) (requestId : String) (allow : Bool) : HostState × Bool :=
  match Text.parseU64 requestId.toList with
  | none => (s, false)
  | some epoch =>
    if s.cancelled then (s, false)
    else
      match s.grant.decide epoch allow with
      | (grant, true) => ({ s with grant := grant, notifying := s.notifying + 1 }, true)
      | (_, false) => (s, false)

/-- The turns of the loop of `authenticate`. -/
def maxTurns : Nat := 64

/-- What `authenticate` makes of an event. -/
def HostState.onEvent (s : HostState) (epoch : Nat) (session : HostSession) (left : Nat) :
    HostEvent → HostState
  | .awaitApproval =>
    { s with grant := { s.grant with epoch := epoch }, task := .waiting epoch session left }
  | .authorized _ =>
    match session.intoAuthenticatedParts with
    | .ok parts => { s with grant := {}, task := .serving epoch parts }
    | .error _ => { s with grant := {}, task := .leaving }
  | .closed | .loginRejected _ => { s with task := .leaving }
  | .progress | .unsupported => { s with task := .waiting epoch session left }

/-- The return of a call. -/
def HostState.onReturn (s : HostState) (epoch : Nat) (turn : HostTurn HostEvent) (left : Nat) :
    Except IoError HostEvent → HostState
  | .ok event => s.onEvent epoch turn.session left event
  | .error _ => { s with task := .leaving }

/-! ### Steps -/

/-- What happens to the connections up to their login. -/
inductive HostLabel where
  | approve (requestId : String) (allow recorded : Bool)
  | notify | requestClose | otherRequest
  | accept | draw | clear | established | call | returned | gone | leave | stop
  deriving DecidableEq, Repr

section Steps

variable (box : SecretBox) (proto : Protobuf Message) (sha256 : Bytes → Bytes)
  (options : HostOptions)

/-- One access to the shared state, or one event of a connection. -/
inductive HostStep : HostState → HostLabel → HostState → Prop
  -- the operator
  | approve (s : HostState) (requestId : String) (allow : Bool) :
      HostStep s (.approve requestId allow (s.approve requestId allow).2)
        (s.approve requestId allow).1
  | notify {s : HostState} : 0 < s.notifying →
      HostStep s .notify { s with notifying := s.notifying - 1, permit := true }
  | requestClose (s : HostState) : HostStep s .requestClose { s with cancelled := true }
  -- another host draws a token
  | otherRequest {s : HostState} : s.nextRequest + 1 < 2 ^ 64 →
      HostStep s .otherRequest { s with nextRequest := s.nextRequest + 1 }
  -- the serving task
  | accept {s : HostState} (socket : Socket) : s.task = .listening →
      HostStep s .accept { s with task := .connected socket }
  | draw {s : HostState} {socket : Socket} : s.task = .connected socket →
      s.nextRequest + 1 < 2 ^ 64 →
      HostStep s .draw
        { s with nextRequest := s.nextRequest + 1, task := .drawn socket (s.nextRequest + 1) }
  | clear {s : HostState} {socket : Socket} {epoch : Nat} : s.task = .drawn socket epoch →
      HostStep s .clear { s with grant := {}, task := .accepting socket epoch }
  | established {s : HostState} {socket : Socket} {epoch : Nat} {wire : Established}
      {salt challenge : String} {answer : SendAnswer} {session : HostSession} :
      s.task = .accepting socket epoch →
      HostSession.fromEstablished box proto wire (authConfig options socket salt) challenge answer
        = some (.ok session) →
      HostStep s .established { s with task := .waiting epoch session maxTurns }
  | call {s : HostState} {epoch : Nat} {session : HostSession} {left : Nat} (waited : Waited)
      (expired : Bool) (sends : List SendAnswer) : s.task = .waiting epoch session (left + 1) →
      (waited = .notified → s.permit = true) →
      HostStep s .call { s with
        permit := match waited with | .notified => false | _ => s.permit
        task := .returning epoch (session.recvWithApproval box proto sha256 waited
          (answers options s.grant epoch) expired sends) left }
  | returned {s : HostState} {epoch : Nat} {turn : HostTurn HostEvent} {left : Nat}
      {result : Except IoError HostEvent} : s.task = .returning epoch turn left →
      turn.result = some result → HostStep s .returned (s.onReturn epoch turn left result)
  -- the connection is given up at any point, or is over
  | gone {s : HostState} : s.task.busy = true → HostStep s .gone { s with task := .leaving }
  | leave {s : HostState} : s.task = .leaving →
      HostStep s .leave { s with grant := {}, task := .listening }
  | stop {s : HostState} : s.task = .listening ∨ s.task = .leaving →
      HostStep s .stop { s with grant := {}, task := .stopped }

end Steps

end Host

end RdEngine
