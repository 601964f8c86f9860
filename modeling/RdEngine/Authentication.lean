/-
RdEngine/Authentication.lean

The host's authentication machine (`authentication.rs`): the policy values it
is configured with, and the functions of `HostAuthentication` that move it
between its five states.

The providers the host supplies (attempt policy, approval provider, second
factor) answer whatever they like: each entry point is a function of an
`Answers` record, and no entry point asks one provider the same question
twice.  The password verifier is the engine's own (`Passwords.verify`) over an
arbitrary hash function `sha256`.

Every entry point returns, besides the new machine and its action, the list
of questions it asked and the answers it got, in the order of the source.
The log changes nothing; it is what a later theorem relates the state to.
-/
import RdEngine.Message

namespace RdEngine

/-- The UTF-8 bytes of a string (`as_bytes`). -/
def utf8 (s : String) : Bytes := s.toUTF8.data.toList

theorem length_utf8 (s : String) : (utf8 s).length = s.utf8ByteSize := by
  show s.toUTF8.data.toList.length = s.toUTF8.data.size
  exact Array.length_toList

/-- `String::from_utf8` accepts the UTF-8 bytes of the string it returns. -/
theorem fromUTF8_eq_some_iff {bytes : Bytes} {s : String} :
    String.fromUTF8? ⟨bytes.toArray⟩ = some s ↔ bytes = utf8 s := by
  have heq : bytes = utf8 s ↔ (⟨bytes.toArray⟩ : ByteArray) = s.toUTF8 := by
    constructor
    · rintro rfl
      show (⟨s.toUTF8.data.toList.toArray⟩ : ByteArray) = s.toUTF8
      rw [Array.toArray_toList]
    · intro h
      show bytes = s.toUTF8.data.toList
      rw [← h]
  rw [heq, String.fromUTF8?]
  split
  · next hvalid =>
    rw [Option.some_inj, ← String.toByteArray_inj]
    rfl
  · next hvalid =>
    refine iff_of_false nofun fun h => hvalid ?_
    rw [h]
    exact s.isValidUTF8

/-! ### Passwords -/

/-- The answers that leave the login open. -/
def wrongPassword : String := "Wrong Password"
def twoFactorRequired : String := "2FA Required"

section Passwords

variable (sha256 : Bytes → Bytes)

/-- `salted_password`: the form in which a password is kept. -/
def saltedPassword (password : Bytes) (salt : String) : Bytes :=
  sha256 (password ++ utf8 salt)

/-- `password_response`: what a peer proves the salted password with. -/
def passwordResponse (h1 : Bytes) (challenge : String) : Bytes :=
  sha256 (h1 ++ utf8 challenge)

/-- Stored `h1` values, `SHA256(password || salt)`. -/
structure Passwords where
  values : List Bytes
  deriving DecidableEq, Repr

/-- `verify`; every candidate is compared, whichever of them fits. -/
def Passwords.verify (self : Passwords) (hash : Hash) (response : Bytes) : Bool :=
  if response.length ≠ 32 then false
  else self.values.foldl
    (fun valid value => valid || passwordResponse sha256 value hash.challenge == response) false

end Passwords

/-! ### Permissions -/

/-- `Permissions`: what a session is allowed to do. -/
structure Permissions where
  keyboard : Bool := false
  clipboard : Bool := false
  audio : Bool := false
  file : Bool := false
  deriving DecidableEq, Repr

namespace Permissions

/-- `intersect`: what both grant. -/
def intersect (self other : Permissions) : Permissions where
  keyboard := self.keyboard && other.keyboard
  clipboard := self.clipboard && other.clipboard
  audio := self.audio && other.audio
  file := self.file && other.file

/-- Inclusion of grants: what `p` allows, `q` allows. -/
instance : LE Permissions where
  le p q := p.intersect q = p

instance (p q : Permissions) : Decidable (p ≤ q) :=
  inferInstanceAs (Decidable (p.intersect q = p))

theorem le_def {p q : Permissions} : p ≤ q ↔ p.intersect q = p := Iff.rfl

@[simp] theorem intersect_self (p : Permissions) : p.intersect p = p := by
  simp [intersect]

end Permissions

/-! ### Policy, providers and configuration -/

/-- `PrimaryPolicy`: what a login is decided by. -/
inductive PrimaryPolicy where
  | passwordOnly | clickOnly | passwordOrClick
  deriving DecidableEq, Repr

/-- What the provider of the approval says of a pending login. -/
inductive Approval where
  | pending
  | denied
  | approved (grant : Permissions)
  deriving DecidableEq, Repr

/-- What the provider of the second factor says of a code. -/
inductive FactorResult where
  | verified | wrong | unsupported
  deriving DecidableEq, Repr

/-- Where the host's side of the login is. -/
inductive HostAuthState where
  | awaitLogin | awaitApproval | await2Fa | authorized | closed
  deriving DecidableEq, Repr

/-- What one call of the machine asks of its session. -/
inductive AuthAction where
  | error (message : String) (terminal : Bool)
  | pendingApproval
  | authorized (info : PeerInfo) (permissions : Permissions)
  | ignored
  deriving DecidableEq, Repr

/-- `HostAuthConfig`: what the operator has set for the logins of a connection. -/
structure HostAuthConfig where
  acceptedTargets : List String
  salt : String
  passwords : Passwords
  policy : PrimaryPolicy
  ceiling : Permissions
  passwordPermissions : Permissions
  peerInfo : PeerInfo
  deriving DecidableEq, Repr

/-- What the providers answer during one call: `attempts.allow`,
`approval.check`, `second_factor.required` and `second_factor.verify`. -/
structure Answers where
  allow : Except String Unit
  approval : Approval
  required : Bool
  factor : FactorResult

/-- A question the machine put to a provider, with the answer it got, or a
login request it kept. -/
inductive AuthEvent where
  | allow (secondFactor ok : Bool)
  | passwordVerified (response : Bytes) (valid : Bool)
  | outcome (secondFactor accepted : Bool)
  | latched (request : LoginRequest)
  | approvalChecked (state : HostAuthState) (request : LoginRequest) (answer : Approval)
  | required (answer : Bool)
  | factorVerified (code : Auth2FA) (result : FactorResult)
  deriving DecidableEq, Repr

/-- `HostAuthentication`: the machine that decides about the login of one connection. -/
structure HostAuthentication where
  config : HostAuthConfig
  hash : Hash
  state : HostAuthState
  request : Option LoginRequest
  grant : Permissions
  deriving DecidableEq, Repr

/-- What one call leaves behind. -/
structure AuthTurn where
  auth : HostAuthentication
  action : AuthAction
  events : List AuthEvent
  deriving DecidableEq, Repr

/-- The turn, with questions that were asked before it. -/
def AuthTurn.after (turn : AuthTurn) (events : List AuthEvent) : AuthTurn :=
  { turn with events := events ++ turn.events }

@[simp] theorem AuthTurn.after_auth (turn : AuthTurn) (events : List AuthEvent) :
    (turn.after events).auth = turn.auth := rfl

@[simp] theorem AuthTurn.after_action (turn : AuthTurn) (events : List AuthEvent) :
    (turn.after events).action = turn.action := rfl

@[simp] theorem AuthTurn.after_events (turn : AuthTurn) (events : List AuthEvent) :
    (turn.after events).events = events ++ turn.events := rfl

/-! ### The machine -/

/-- The refusal of a login that asks for another role than a desktop. -/
def LoginRole.refusal : LoginRole → String
  | .fileTransfer _ _ => "No permission of file transfer"
  | .portForward _ _ => "No permission of IP tunneling"
  | .viewCamera => "No permission of viewing camera"
  | .terminal _ => "No permission of terminal"

namespace HostAuthentication

/-- `new`, given the six characters drawn for the challenge. -/
def new (config : HostAuthConfig) (challenge : String) : Except String HostAuthentication :=
  if config.acceptedTargets = [] then
    .error "Missing explicit authentication configuration"
  else
    .ok {
      config := config
      hash := { salt := config.salt, challenge := challenge }
      state := .awaitLogin
      request := none
      grant := {} }

/-- `close`: no grant and no login outlives it. -/
def close (self : HostAuthentication) : HostAuthentication :=
  { self with state := .closed, grant := {}, request := none }

/-- A refusal; one that is terminal closes the machine. -/
def error (self : HostAuthentication) (message : String) (terminal : Bool) : AuthTurn where
  auth := if terminal then self.close else self
  action := .error message terminal
  events := []

@[simp] theorem error_events (self : HostAuthentication) (message : String)
    (terminal : Bool) : (self.error message terminal).events = [] := rfl

@[simp] theorem error_auth_false (self : HostAuthentication) (message : String) :
    (self.error message false).auth = self := rfl

@[simp] theorem error_auth_true (self : HostAuthentication) (message : String) :
    (self.error message true).auth = self.close := rfl

/-- A call that does not fit the state changes nothing. -/
def ignore (self : HostAuthentication) : AuthTurn where
  auth := self
  action := .ignored
  events := []

/-- What the viewer's own options leave of a grant.  They can only remove:
an option that is not set, or a number outside the enumeration, removes
nothing. -/
def applyOptions (grant : Permissions) (options : OptionMessage) : Permissions where
  keyboard := if options.disableKeyboard.enumValue = some .yes then false else grant.keyboard
  clipboard := if options.disableClipboard.enumValue = some .yes then false else grant.clipboard
  audio := if options.disableAudio.enumValue = some .yes then false else grant.audio
  file := if options.enableFileTransfer.enumValue = some .no then false else grant.file

/-- The end of a login: the options of the peer may only take away from the grant. -/
def authorize (self : HostAuthentication) : AuthTurn :=
  let grant := match self.request.bind (·.option) with
    | some options => applyOptions self.grant options
    | none => self.grant
  { auth := { self with grant := grant, state := .authorized }
    action := .authorized self.config.peerInfo grant
    events := [] }

/-- The primary check has succeeded, and a second factor may still be required. -/
def afterPrimary (self : HostAuthentication) (env : Answers) : AuthTurn :=
  if env.required then
    (({ self with state := .await2Fa }).error twoFactorRequired false).after [.required true]
  else
    self.authorize.after [.required false]

/-- `poll_approval`: the operator is asked again about the login that waits. -/
def pollApproval (self : HostAuthentication) (env : Answers) : AuthTurn :=
  if self.state ≠ .awaitApproval then self.ignore
  else match self.request with
    | none => self.ignore
    | some request =>
      match env.approval with
      | .pending => {
          auth := self
          action := .pendingApproval
          events := [.approvalChecked self.state request .pending] }
      | .denied =>
          (self.error "Connection not allowed" true).after
            [.approvalChecked self.state request .denied]
      | .approved grant =>
          (({ self with grant := grant.intersect self.config.ceiling }).afterPrimary env).after
            [.approvalChecked self.state request (.approved grant)]

/-- `login` once the password was looked at: keep the request without its
credentials, then follow the password, the refusal or the approval route. -/
def loginPrimary (self : HostAuthentication) (env : Answers) (request : LoginRequest)
    (nonempty valid : Bool) : AuthTurn :=
  let request := { request with password := [], osLogin := {} }
  let self := { self with request := some request }
  AuthTurn.after
    (if valid then
      ({ self with
          grant := self.config.passwordPermissions.intersect self.config.ceiling }).afterPrimary env
    else if self.config.policy = .passwordOnly then
      self.error (if nonempty then wrongPassword else "Empty Password") false
    else
      let turn := ({ self with state := .awaitApproval }).pollApproval env
      if turn.action = .pendingApproval ∧ self.config.policy = .passwordOrClick ∧ nonempty then
        (turn.auth.error wrongPassword false).after turn.events
      else turn)
    [.latched request]

/-- `login` once the request itself is acceptable. -/
def loginAccepted (sha256 : Bytes → Bytes) (self : HostAuthentication) (env : Answers)
    (request : LoginRequest) : AuthTurn :=
  if self.config.policy ≠ .clickOnly ∧ request.password ≠ [] then
    match env.allow with
    | .error message => (self.error message false).after [.allow false false]
    | .ok () =>
        let valid := self.config.passwords.verify sha256 self.hash request.password
        (self.loginPrimary env request true valid).after
          [.allow false true, .passwordVerified request.password valid, .outcome false valid]
  else
    self.loginPrimary env request (request.password ≠ []) false

/-- `login`, up to the primary check; the order of the tests is that of the source. -/
def login (sha256 : Bytes → Bytes) (self : HostAuthentication) (env : Answers)
    (request : LoginRequest) : AuthTurn :=
  if self.state = .closed then self.ignore
  else if self.state = .authorized then self.ignore
  else if request.username ∉ self.config.acceptedTargets then self.error "Offline" true
  else match request.union with
    | some role => self.error role.refusal true
    | none =>
      if request.osLogin.username ≠ "" ∨ request.osLogin.password ≠ "" then
        self.error "OS login is unsupported for this session" true
      else if self.request.any (·.myId ≠ request.myId) then
        self.error "Connection not allowed" true
      else if request.myId = "" then
        self.error "Connection not allowed" true
      else
        ({ self with state := .awaitLogin }).loginAccepted sha256 env request

/-- `second_factor`: the code is verified only where it is awaited and not throttled. -/
def secondFactor (self : HostAuthentication) (env : Answers) (code : Auth2FA) : AuthTurn :=
  if self.state ≠ .await2Fa then self.ignore
  else match env.allow with
    | .error message => (self.error message false).after [.allow true false]
    | .ok () =>
      match env.factor with
      | .verified =>
          self.authorize.after
            [.allow true true, .factorVerified code .verified, .outcome true true]
      | .wrong =>
          (self.error "Wrong 2FA Code" false).after
            [.allow true true, .factorVerified code .wrong, .outcome true false]
      | .unsupported =>
          (self.error "2FA verification unsupported" false).after
            [.allow true true, .factorVerified code .unsupported]

end HostAuthentication

end RdEngine
