/-
RdEngine/AuthenticationSafety.lean

Safety of the host's authentication machine over whole runs: any sequence of
`login`, `poll_approval`, `second_factor` and `close` calls, with arbitrary
requests and arbitrary provider answers.

A run carries the log of every question put to a provider.  The invariant
`Tied` relates the state to that log: a machine that waits for the second
factor, or is authorized, got there through a *primary success* — a password
response that verified after the attempt policy allowed it, or an approval
given while the machine waited for one — which is the last one in the log;
the grant it holds is the route's permissions within the ceiling, and once
authorized also within the viewer's own options.

Each entry point has one lemma saying that it keeps the tie; `observe_tied`
is the induction over the run.
-/
import RdEngine.Authentication
import RdEngine.Lib.Runs

namespace RdEngine

/-! ### Runs -/

/-- One call of the machine's interface. -/
inductive AuthCall where
  | login (request : LoginRequest)
  | pollApproval
  | secondFactor (code : Auth2FA)
  | close
  deriving DecidableEq, Repr

section Safety

variable (sha256 : Bytes → Bytes)

/-- One call of the machine, by name. -/
def HostAuthentication.call (self : HostAuthentication) (env : Answers) : AuthCall → AuthTurn
  | .login request => self.login sha256 env request
  | .pollApproval => self.pollApproval env
  | .secondFactor code => self.secondFactor env code
  | .close => { auth := self.close, action := .ignored, events := [] }

/-- A machine with the log of everything its providers were asked. -/
structure ObservedAuth where
  auth : HostAuthentication
  log : List AuthEvent
  deriving DecidableEq, Repr

/-- A call, and the questions it asked, in the log of the run. -/
def ObservedAuth.step (o : ObservedAuth) (c : AuthCall × Answers) : ObservedAuth :=
  let turn := o.auth.call sha256 c.2 c.1
  { auth := turn.auth, log := o.log ++ turn.events }

/-- The run of a machine through a sequence of calls. -/
def HostAuthentication.observe (auth : HostAuthentication) (calls : List (AuthCall × Answers)) :
    ObservedAuth :=
  calls.foldl (ObservedAuth.step sha256) { auth := auth, log := [] }

/-! ### What the log says -/

/-- The request the machine kept last. -/
def lastLatched (log : List AuthEvent) : Option LoginRequest :=
  (log.filterMap fun
    | .latched request => some request
    | _ => none).getLast?

@[simp] theorem lastLatched_append (l m : List AuthEvent) :
    lastLatched (l ++ m) = (lastLatched m).or (lastLatched l) := by
  simp [lastLatched, List.filterMap_append, List.getLast?_append]

/-- The way a viewer passed the primary check. -/
inductive AuthRoute where
  | password
  | approval (grant : Permissions)
  deriving DecidableEq, Repr

/-- The permissions the route itself gives. -/
def AuthRoute.permissions (config : HostAuthConfig) : AuthRoute → Permissions
  | .password => config.passwordPermissions
  | .approval grant => grant

/-- What a viewer's options leave of a full grant. -/
def viewerMask : Option OptionMessage → Permissions
  | none => { keyboard := true, clipboard := true, audio := true, file := true }
  | some options =>
      HostAuthentication.applyOptions
        { keyboard := true, clipboard := true, audio := true, file := true } options

variable (config : HostAuthConfig) (hash : Hash)

/-- The part of a log that is a primary success on a route. -/
inductive Evidence : AuthRoute → List AuthEvent → Prop
  | password {response : Bytes} {request : LoginRequest} :
      config.policy ≠ .clickOnly →
      config.passwords.verify sha256 hash response = true →
      Evidence .password
        [.allow false true, .passwordVerified response true, .outcome false true,
          .latched request]
  | approval {request : LoginRequest} {grant : Permissions} :
      Evidence (.approval grant) [.approvalChecked .awaitApproval request (.approved grant)]

/-- An event that belongs to a primary success. -/
def AuthEvent.isPrimarySuccess : AuthEvent → Bool
  | .passwordVerified _ valid => valid
  | .approvalChecked _ _ (.approved _) => true
  | _ => false

/-- The last primary success of a log was on this route; `required` is what
the second-factor provider then said, and `since` what happened after it. -/
def LastPrimary (log : List AuthEvent) (route : AuthRoute) (required : Bool)
    (since : List AuthEvent) : Prop :=
  ∃ before evidence, Evidence sha256 config hash route evidence ∧
    log = before ++ evidence ++ .required required :: since ∧
    ∀ e ∈ since, e.isPrimarySuccess = false

variable {sha256 config hash}

theorem LastPrimary.append {log since more : List AuthEvent} {route : AuthRoute}
    {required : Bool} (h : LastPrimary sha256 config hash log route required since)
    (hmore : ∀ e ∈ more, e.isPrimarySuccess = false) :
    LastPrimary sha256 config hash (log ++ more) route required (since ++ more) := by
  obtain ⟨before, evidence, hev, rfl, hsince⟩ := h
  refine ⟨before, evidence, hev, by simp, ?_⟩
  intro e he
  rcases List.mem_append.mp he with he | he
  · exact hsince e he
  · exact hmore e he

variable (sha256 config hash)

/-- The state of the machine, related to the log of its run. -/
structure Tied (log : List AuthEvent) (auth : HostAuthentication) : Prop where
  config_eq : auth.config = config
  hash_eq : auth.hash = hash
  request_eq : auth.state ≠ .closed → auth.request = lastLatched log
  await2Fa : auth.state = .await2Fa →
    (lastLatched log).isSome ∧
    ∃ route since, LastPrimary sha256 config hash log route true since ∧
      auth.grant = (route.permissions config).intersect config.ceiling
  authorized : auth.state = .authorized →
    ∃ request, lastLatched log = some request ∧
    ∃ route required since, LastPrimary sha256 config hash log route required since ∧
      (required = true → ∃ code, .factorVerified code .verified ∈ since) ∧
      auth.grant = ((route.permissions config).intersect config.ceiling).intersect
        (viewerMask request.option)

variable {sha256 config hash}

/-! ### Frame lemmas: turns that change no more than the state -/

/-- A machine that is in neither state with a history keeps the tie. -/
theorem Tied.of_waiting {log : List AuthEvent} {auth : HostAuthentication}
    (hc : auth.config = config) (hh : auth.hash = hash)
    (hr : auth.state ≠ .closed → auth.request = lastLatched log)
    (h₂ : auth.state ≠ .await2Fa) (ha : auth.state ≠ .authorized) :
    Tied sha256 config hash log auth where
  config_eq := hc
  hash_eq := hh
  request_eq := hr
  await2Fa h := absurd h h₂
  authorized h := absurd h ha

theorem Tied.close {log : List AuthEvent} {auth : HostAuthentication}
    (h : Tied sha256 config hash log auth) (log' : List AuthEvent) :
    Tied sha256 config hash log' auth.close :=
  .of_waiting h.config_eq h.hash_eq (fun hne => absurd rfl hne)
    (by simp [HostAuthentication.close]) (by simp [HostAuthentication.close])

/-- Asking questions that are no primary success, and keeping no request,
keeps the tie of an unchanged machine. -/
theorem Tied.asked {log more : List AuthEvent} {auth : HostAuthentication}
    (h : Tied sha256 config hash log auth)
    (hmore : ∀ e ∈ more, e.isPrimarySuccess = false) (hlatch : lastLatched more = none) :
    Tied sha256 config hash (log ++ more) auth where
  config_eq := h.config_eq
  hash_eq := h.hash_eq
  request_eq hne := by simpa [hlatch] using h.request_eq hne
  await2Fa hs := by
    obtain ⟨hsome, route, since, hlast, hg⟩ := h.await2Fa hs
    exact ⟨by simpa [hlatch] using hsome, route, since ++ more, hlast.append hmore, hg⟩
  authorized hs := by
    obtain ⟨request, hreq, route, required, since, hlast, hfactor, hg⟩ := h.authorized hs
    refine ⟨request, by simpa [hlatch] using hreq, route, required, since ++ more,
      hlast.append hmore, ?_, hg⟩
    intro hrequired
    obtain ⟨code, hcode⟩ := hfactor hrequired
    exact ⟨code, List.mem_append_left _ hcode⟩

theorem Tied.ignore {log : List AuthEvent} {auth : HostAuthentication}
    (h : Tied sha256 config hash log auth) :
    Tied sha256 config hash (log ++ auth.ignore.events) auth.ignore.auth := by
  simpa [HostAuthentication.ignore] using h

theorem Tied.terminal {log : List AuthEvent} {auth : HostAuthentication}
    (h : Tied sha256 config hash log auth) (message : String) (events : List AuthEvent) :
    Tied sha256 config hash (log ++ ((auth.error message true).after events).events)
      ((auth.error message true).after events).auth := by
  simpa using h.close _

/-- A refusal that leaves the machine as it is. -/
theorem Tied.refused {log events : List AuthEvent} {auth : HostAuthentication}
    (h : Tied sha256 config hash log auth) (message : String)
    (hevents : ∀ e ∈ events, e.isPrimarySuccess = false) (hlatch : lastLatched events = none) :
    Tied sha256 config hash (log ++ ((auth.error message false).after events).events)
      ((auth.error message false).after events).auth := by
  simpa using h.asked hevents hlatch

/-! ### Authorizing -/

open HostAuthentication in
theorem applyOptions_eq_intersect (grant : Permissions) (options : OptionMessage) :
    applyOptions grant options = grant.intersect (viewerMask (some options)) := by
  simp only [applyOptions, viewerMask, Permissions.intersect]
  congr 1 <;> split <;> simp

theorem authorize_grant {auth : HostAuthentication} {request : LoginRequest}
    (hreq : auth.request = some request) :
    auth.authorize.auth.grant = auth.grant.intersect (viewerMask request.option) := by
  cases hopt : request.option with
  | none => simp [HostAuthentication.authorize, hreq, hopt, viewerMask, Permissions.intersect]
  | some options =>
    simp [HostAuthentication.authorize, hreq, hopt, applyOptions_eq_intersect]

@[simp] theorem authorize_events (auth : HostAuthentication) : auth.authorize.events = [] := rfl
@[simp] theorem authorize_state (auth : HostAuthentication) :
    auth.authorize.auth.state = .authorized := rfl

/-- Authorizing keeps the tie when the log ends with a primary success whose
second factor, if required, was verified since. -/
theorem tied_authorize {log since : List AuthEvent} {auth : HostAuthentication}
    {route : AuthRoute} {required : Bool} {request : LoginRequest}
    (hc : auth.config = config) (hh : auth.hash = hash)
    (hreq : auth.request = some request) (hlatch : lastLatched log = some request)
    (hlast : LastPrimary sha256 config hash log route required since)
    (hfactor : required = true → ∃ code, .factorVerified code .verified ∈ since)
    (hg : auth.grant = (route.permissions config).intersect config.ceiling) :
    Tied sha256 config hash log auth.authorize.auth where
  config_eq := hc
  hash_eq := hh
  request_eq _ := by rw [hlatch]; exact hreq
  await2Fa h := by simp at h
  authorized _ := by
    refine ⟨request, hlatch, route, required, since, hlast, hfactor, ?_⟩
    rw [authorize_grant hreq, hg]

/-- After a primary success the machine is tied again, whether a second
factor is required or not. -/
theorem tied_afterPrimary (before : List AuthEvent) {evidence : List AuthEvent}
    (auth : HostAuthentication) {route : AuthRoute} {request : LoginRequest} (env : Answers)
    (hc : auth.config = config) (hh : auth.hash = hash)
    (hreq : auth.request = some request)
    (hlatch : lastLatched (before ++ evidence) = some request)
    (hev : Evidence sha256 config hash route evidence)
    (hg : auth.grant = (route.permissions config).intersect config.ceiling) :
    Tied sha256 config hash (before ++ evidence ++ (auth.afterPrimary env).events)
      (auth.afterPrimary env).auth := by
  have hlast : ∀ required, LastPrimary sha256 config hash
      (before ++ evidence ++ [.required required]) route required [] :=
    fun required => ⟨before, evidence, hev, rfl, by simp⟩
  have hlatch' : ∀ required,
      lastLatched (before ++ evidence ++ [.required required]) = some request := by
    intro required
    rw [lastLatched_append, hlatch]
    rfl
  unfold HostAuthentication.afterPrimary
  split
  · simp only [AuthTurn.after_events, AuthTurn.after_auth, HostAuthentication.error_events,
      HostAuthentication.error_auth_false, List.append_nil]
    refine ⟨hc, hh, fun _ => ?_, fun _ => ⟨?_, route, [], hlast true, hg⟩, fun h => ?_⟩
    · rw [hlatch']
      exact hreq
    · rw [hlatch']
      rfl
    · simp at h
  · simpa using tied_authorize hc hh hreq (hlatch' false) (hlast false) (by simp) hg

/-! ### The entry points -/

theorem tied_pollApproval {log : List AuthEvent} {auth : HostAuthentication}
    (h : Tied sha256 config hash log auth) (env : Answers) :
    Tied sha256 config hash (log ++ (auth.pollApproval env).events)
      (auth.pollApproval env).auth := by
  unfold HostAuthentication.pollApproval
  split
  · exact h.ignore
  rename_i hstate
  rw [not_not] at hstate
  have hopen : auth.state ≠ .closed := by simp [hstate]
  split
  · exact h.ignore
  rename_i request hreq
  split
  · exact h.asked (by simp [AuthEvent.isPrimarySuccess]) (by simp [lastLatched])
  · exact h.terminal _ _
  · rename_i grant _
    have hlatch : lastLatched log = some request := (h.request_eq hopen).symm.trans hreq
    have hev : Evidence sha256 config hash (.approval grant)
        [.approvalChecked auth.state request (.approved grant)] := by
      rw [hstate]
      exact .approval
    have key := tied_afterPrimary log
      { auth with grant := grant.intersect auth.config.ceiling } env h.config_eq h.hash_eq hreq
      (by simpa [lastLatched] using hlatch) hev (by simp [AuthRoute.permissions, h.config_eq])
    simpa using key

theorem tied_secondFactor {log : List AuthEvent} {auth : HostAuthentication}
    (h : Tied sha256 config hash log auth) (env : Answers) (code : Auth2FA) :
    Tied sha256 config hash (log ++ (auth.secondFactor env code).events)
      (auth.secondFactor env code).auth := by
  unfold HostAuthentication.secondFactor
  split
  · exact h.ignore
  rename_i hstate
  rw [not_not] at hstate
  split
  · exact h.refused _ (by simp [AuthEvent.isPrimarySuccess]) (by simp [lastLatched])
  split
  · -- the code verified: the primary success it completes is the one awaited
    obtain ⟨hsome, route, since, hlast, hg⟩ := h.await2Fa hstate
    obtain ⟨request, hlatch⟩ := Option.isSome_iff_exists.mp hsome
    have hreq : auth.request = some request := by
      rw [← hlatch]
      exact h.request_eq (by simp [hstate])
    have hmore : ∀ e ∈ [AuthEvent.allow true true, .factorVerified code .verified,
        .outcome true true], e.isPrimarySuccess = false := by
      simp [AuthEvent.isPrimarySuccess]
    have key := tied_authorize h.config_eq h.hash_eq hreq
      (by simpa [lastLatched] using hlatch) (hlast.append hmore)
      (fun _ => ⟨code, by simp⟩) hg
    simpa using key
  · exact h.refused _ (by simp [AuthEvent.isPrimarySuccess]) (by simp [lastLatched])
  · exact h.refused _ (by simp [AuthEvent.isPrimarySuccess]) (by simp [lastLatched])

/-- The part of `login` after the password check.  `asked` is the log of that
check; it is evidence exactly when the response was valid. -/
theorem tied_loginPrimary (log asked : List AuthEvent) {auth : HostAuthentication}
    (hc : auth.config = config) (hh : auth.hash = hash) (hstate : auth.state = .awaitLogin)
    (env : Answers) (request : LoginRequest) (nonempty valid : Bool)
    (hev : valid = true → ∀ r, Evidence sha256 config hash .password (asked ++ [.latched r])) :
    Tied sha256 config hash
      (log ++ asked ++ (auth.loginPrimary env request nonempty valid).events)
      (auth.loginPrimary env request nonempty valid).auth := by
  unfold HostAuthentication.loginPrimary
  generalize { request with password := [], osLogin := {} } = kept
  have hlatch : ∀ l, lastLatched (l ++ [.latched kept]) = some kept := by
    intro l
    simp [lastLatched]
  have hkept : Tied sha256 config hash (log ++ asked ++ [.latched kept])
      { auth with request := some kept } :=
    .of_waiting hc hh (fun _ => (hlatch _).symm) (by simp [hstate]) (by simp [hstate])
  rw [AuthTurn.after_events, AuthTurn.after_auth, ← List.append_assoc]
  split
  -- the password was right: the later factors follow
  · rename_i hvalid
    have key := tied_afterPrimary log
      { auth with
        request := some kept
        grant := auth.config.passwordPermissions.intersect auth.config.ceiling }
      env hc hh rfl (by rw [← List.append_assoc]; exact hlatch _)
      (hev hvalid kept) (by simp [AuthRoute.permissions, hc])
    simpa using key
  split
  · simpa using hkept
  · -- the approval route: wait for the approval, and ask for it at once
    have hwait : Tied sha256 config hash (log ++ asked ++ [.latched kept])
        { auth with request := some kept, state := .awaitApproval } :=
      .of_waiting hc hh (fun _ => (hlatch _).symm) (by simp) (by simp)
    have key := tied_pollApproval hwait env
    dsimp only
    split
    · simpa using key
    · exact key

theorem tied_loginAccepted {log : List AuthEvent} (auth : HostAuthentication)
    (hc : auth.config = config) (hh : auth.hash = hash) (hstate : auth.state = .awaitLogin)
    (hreq : auth.request = lastLatched log) (env : Answers) (request : LoginRequest) :
    Tied sha256 config hash (log ++ (auth.loginAccepted sha256 env request).events)
      (auth.loginAccepted sha256 env request).auth := by
  have hwaiting : Tied sha256 config hash log auth :=
    .of_waiting hc hh (fun _ => hreq) (by simp [hstate]) (by simp [hstate])
  unfold HostAuthentication.loginAccepted
  split
  · rename_i hpassword
    split
    · exact hwaiting.refused _ (by simp [AuthEvent.isPrimarySuccess]) (by simp [lastLatched])
    · let valid := auth.config.passwords.verify sha256 auth.hash request.password
      have hev : valid = true → ∀ r, Evidence sha256 config hash .password
          ([.allow false true, .passwordVerified request.password valid,
            .outcome false valid] ++ [.latched r]) := by
        intro hvalid r
        rw [hvalid]
        simp only [valid, hc, hh] at hvalid
        exact .password (by rw [← hc]; exact hpassword.1) hvalid
      simpa using tied_loginPrimary log _ hc hh hstate env request true valid hev
  · simpa using tied_loginPrimary log [] hc hh hstate env request
      (request.password ≠ []) false (by simp)

theorem tied_login {log : List AuthEvent} {auth : HostAuthentication}
    (h : Tied sha256 config hash log auth) (env : Answers) (request : LoginRequest) :
    Tied sha256 config hash (log ++ (auth.login sha256 env request).events)
      (auth.login sha256 env request).auth := by
  have hterminal : ∀ message, Tied sha256 config hash
      (log ++ (auth.error message true).events) (auth.error message true).auth :=
    fun message => by simpa using h.terminal message []
  unfold HostAuthentication.login
  split
  · exact h.ignore
  rename_i hopen
  split
  · exact h.ignore
  split
  · exact hterminal _
  split
  · exact hterminal _
  split
  · exact hterminal _
  split
  · exact hterminal _
  split
  · exact hterminal _
  · exact tied_loginAccepted { auth with state := .awaitLogin }
      h.config_eq h.hash_eq rfl (h.request_eq hopen) env request

theorem tied_call {log : List AuthEvent} {auth : HostAuthentication}
    (h : Tied sha256 config hash log auth) (env : Answers) (call : AuthCall) :
    Tied sha256 config hash (log ++ (auth.call sha256 env call).events)
      (auth.call sha256 env call).auth := by
  cases call with
  | login request => exact tied_login h env request
  | pollApproval => exact tied_pollApproval h env
  | secondFactor code => exact tied_secondFactor h env code
  | close => simpa [HostAuthentication.call] using h.close log

/-! ### Runs keep the tie -/

theorem tied_new {challenge : String} {auth : HostAuthentication}
    (h : HostAuthentication.new config challenge = .ok auth) :
    Tied sha256 config { salt := config.salt, challenge := challenge } [] auth := by
  unfold HostAuthentication.new at h
  split at h
  · cases h
  · cases h
    exact .of_waiting rfl rfl (fun _ => rfl) (by simp) (by simp)

variable (sha256) in
theorem observe_tied {challenge : String} {auth : HostAuthentication}
    (h : HostAuthentication.new config challenge = .ok auth)
    (calls : List (AuthCall × Answers)) :
    Tied sha256 config { salt := config.salt, challenge := challenge }
      (auth.observe sha256 calls).log (auth.observe sha256 calls).auth :=
  Lts.foldl_invariant
    (I := fun o : ObservedAuth =>
      Tied sha256 config { salt := config.salt, challenge := challenge } o.log o.auth)
    (tied_new h) (fun _ c ho => tied_call ho c.2 c.1) calls

/-! ### Terminal states -/

/-- Nothing leaves `Closed`. -/
theorem call_of_closed {auth : HostAuthentication} (hs : auth.state = .closed) (env : Answers)
    (call : AuthCall) : (auth.call sha256 env call).auth.state = .closed := by
  cases call <;>
    simp [HostAuthentication.call, HostAuthentication.login, HostAuthentication.pollApproval,
      HostAuthentication.secondFactor, HostAuthentication.ignore, HostAuthentication.close, hs]

/-- Only `close` changes an authorized machine. -/
theorem call_of_authorized {auth : HostAuthentication} (hs : auth.state = .authorized)
    (env : Answers) {call : AuthCall} (hcall : call ≠ .close) :
    (auth.call sha256 env call).auth = auth := by
  cases call with
  | close => exact absurd rfl hcall
  | login | pollApproval | secondFactor =>
    simp [HostAuthentication.call, HostAuthentication.login, HostAuthentication.pollApproval,
      HostAuthentication.secondFactor, HostAuthentication.ignore, hs]

variable (sha256) in
/-- **Authentication safety over whole runs.**  A machine authorized at the
end of a run was let in by a last primary success — a password response that
verified after the attempt policy allowed it, under a policy that is not
click-only, or an approval given while it waited for one — and, when a second
factor was required then, by a code verified since; its grant lies within the
route's permissions, the ceiling and the viewer's own options.  `Closed` is
never left, and an authorized machine changes by `close` only. -/
theorem hostAuthentication_safe {challenge : String} {auth : HostAuthentication}
    (h : HostAuthentication.new config challenge = .ok auth)
    (calls : List (AuthCall × Answers)) :
    let final := auth.observe sha256 calls
    (final.auth.state = .authorized →
      ∃ request, lastLatched final.log = some request ∧
      ∃ route required since,
        LastPrimary sha256 config { salt := config.salt, challenge := challenge } final.log
          route required since ∧
        (required = true → ∃ code, .factorVerified code .verified ∈ since) ∧
        final.auth.grant ≤ ((route.permissions config).intersect config.ceiling).intersect
          (viewerMask request.option)) ∧
    (final.auth.state = .closed → ∀ c, (final.step sha256 c).auth.state = .closed) ∧
    (final.auth.state = .authorized → ∀ c,
      (c.1 ≠ .close → (final.step sha256 c).auth = final.auth) ∧
      (c.1 = .close → (final.step sha256 c).auth.state = .closed)) := by
  intro final
  have htied := observe_tied sha256 h calls
  refine ⟨fun hs => ?_, fun hs c => call_of_closed hs c.2 c.1, fun hs c => ⟨fun hne => ?_, ?_⟩⟩
  · obtain ⟨request, hlatch, route, required, since, hlast, hfactor, hg⟩ := htied.authorized hs
    exact ⟨request, hlatch, route, required, since, hlast, hfactor, by
      rw [show final.auth.grant = _ from hg, Permissions.le_def, Permissions.intersect_self]⟩
  · exact call_of_authorized hs c.2 hne
  · obtain ⟨call, env⟩ := c
    rintro rfl
    rfl

end Safety

/-! ### A run: approved by click, then verified by code -/

/-- A click-only host with a second factor. -/
def clickConfig : HostAuthConfig where
  acceptedTargets := ["desk"]
  salt := ""
  passwords := { values := [] }
  policy := .clickOnly
  ceiling := { keyboard := true, clipboard := true }
  passwordPermissions := {}
  peerInfo := {}

/-- The machine at its start, under this configuration. -/
def clickHost : HostAuthentication where
  config := clickConfig
  hash := { salt := "", challenge := "c0ffee" }
  state := .awaitLogin
  request := none
  grant := {}

/-- Log in without a password, be approved at the next poll, send the code. -/
def clickCalls : List (AuthCall × Answers) :=
  let env (approval : Approval) (factor : FactorResult) : Answers :=
    { allow := .ok (), approval := approval, required := true, factor := factor }
  [(.login { username := "desk", myId := "viewer" }, env .pending .wrong),
    (.pollApproval, env (.approved { keyboard := true, audio := true }) .wrong),
    (.secondFactor { code := "123456" }, env .pending .verified)]

theorem hostAuthentication_safe_click :
    let final := clickHost.observe id clickCalls
    final.auth.state = .authorized ∧ final.auth.grant = { keyboard := true } ∧
    ∃ request route required since,
      lastLatched final.log = some request ∧
      LastPrimary id clickConfig { salt := "", challenge := "c0ffee" } final.log route
        required since ∧
      (required = true → ∃ code, .factorVerified code .verified ∈ since) := by
  have hstate : (clickHost.observe id clickCalls).auth.state = .authorized := by decide
  have hnew : HostAuthentication.new clickConfig "c0ffee" = .ok clickHost := rfl
  have hrun := hostAuthentication_safe id hnew clickCalls
  obtain ⟨request, hreq, route, required, since, hlast, hfactor, -⟩ := hrun.1 hstate
  exact ⟨hstate, by decide, request, route, required, since, hreq, hlast, hfactor⟩

end RdEngine
