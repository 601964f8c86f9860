/-
RdEngine/Host/Policy.lean

The local policy of the viewing host (`host.rs`): what its operator armed, the
decision a click records for a request, and the authentication configuration a
session is given.
-/
import RdEngine.Input

namespace RdEngine

namespace Host

inductive HostError where
  | invalidOptions | noRuntime | noHardwareCodec | listenFailed | transportFailed
  | authenticationFailed | approvalDenied | noCommonCodec | captureFailed | invalidAccessUnit
  | unsupportedDisplay | reclamationUnconfirmed
  deriving DecidableEq, Repr

/-- A platform injection sink: whether it accepts an action, given how many
actions it was called with before. -/
abbrev InputSink : Type := Nat → InputAction → Bool

/-- The options that authentication and the reader use. -/
structure HostOptions where
  id : String
  width : Int
  height : Int
  platform : String
  inputInjection : Bool
  inputSink : Option InputSink

/-- Injection requires both the operator's opt-in and a compiled-in sink. -/
def localPermissions (options : HostOptions) : Permissions :=
  { keyboard := options.inputInjection && options.inputSink.isSome }

/-! ### The decision of a click -/

/-- The request that may be decided, zero for none, and what was decided: one
for an approval, two for a denial. -/
structure LocalGrant where
  epoch : Nat := 0
  decision : Nat := 0
  deriving DecidableEq, Repr

namespace LocalGrant

/-- Only the first decision for the pending request is recorded. -/
def decide (grant : LocalGrant) (epoch : Nat) (allow : Bool) : LocalGrant × Bool :=
  if epoch = 0 ∨ grant.epoch ≠ epoch ∨ grant.decision ≠ 0 then (grant, false)
  else ({ grant with decision := if allow then 1 else 2 }, true)

/-- A decision is recorded for the pending request alone, and only once. -/
theorem decide_recorded {grant : LocalGrant} {epoch : Nat} {allow : Bool}
    (h : (grant.decide epoch allow).2 = true) :
    epoch ≠ 0 ∧ grant = ⟨epoch, 0⟩ ∧
      (grant.decide epoch allow).1 = ⟨epoch, if allow then 1 else 2⟩ := by
  obtain ⟨pending, decision⟩ := grant
  unfold decide at h ⊢
  split at h
  · cases h
  · next hfirst =>
    obtain ⟨hzero, hfirst⟩ := not_or.mp hfirst
    obtain ⟨hepoch, hdecision⟩ := not_or.mp hfirst
    obtain rfl : pending = epoch := not_not.mp hepoch
    obtain rfl : decision = 0 := not_not.mp hdecision
    exact ⟨hzero, rfl, by rw [if_neg (by simp [hzero])]⟩

end LocalGrant

/-- `LocalApproval::check`, of a session's own request. -/
def check (grant : LocalGrant) (epoch : Nat) (permissions : Permissions) : Approval :=
  if grant.epoch ≠ epoch then .pending
  else if grant.decision = 1 then .approved permissions
  else if grant.decision = 2 then .denied
  else .pending

theorem check_approved {grant : LocalGrant} {epoch : Nat} {permissions given : Permissions}
    (h : check grant epoch permissions = .approved given) :
    grant = ⟨epoch, 1⟩ ∧ given = permissions := by
  obtain ⟨pending, decision⟩ := grant
  unfold check at h
  split_ifs at h with hepoch hallowed
  obtain rfl : pending = epoch := not_not.mp hepoch
  obtain rfl : decision = 1 := hallowed
  exact ⟨rfl, (Approval.approved.inj h).symm⟩

/-! ### The configuration of a session -/

def reportedVersion : String := "1.4.9"

/-- The encoders it announces are left out. -/
def peerInfo (options : HostOptions) : PeerInfo where
  hostname := "RustDesk"
  platform := options.platform
  version := reportedVersion
  displays := [{ width := options.width, height := options.height, name := "Screen", online := true }]

/-- An accepted connection: the texts of the local address without and with its port. -/
structure Socket where
  localIp : String
  localAddr : String
  deriving DecidableEq, Repr

/-- The configuration `authenticate` builds, given the salt it drew. -/
def authConfig (options : HostOptions) (socket : Socket) (salt : String) : HostAuthConfig where
  acceptedTargets := [options.id, socket.localIp, socket.localAddr]
  salt := salt
  passwords := { values := [] }
  policy := .clickOnly
  ceiling := localPermissions options
  passwordPermissions := {}
  peerInfo := peerInfo options

/-- What its providers answer: the local approval, no second factor and no
password attempts. -/
def answers (options : HostOptions) (grant : LocalGrant) (epoch : Nat) : Answers where
  allow := .error "Connection not allowed"
  approval := check grant epoch (localPermissions options)
  required := false
  factor := .unsupported

end Host

end RdEngine
