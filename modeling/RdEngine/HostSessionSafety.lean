/-
RdEngine/HostSessionSafety.lean

Every way out of the host's session leaves it closed.

The session is authorized before its success records are sent, so each of these
sends can fail in a session that already counts as authorized, and so can the
sends of every other call.  `Answered` says once what the authentication machine
can do in a turn, and `Phase` ties the session to what has happened on the wire.
A call first runs to its end (`Fair`) and is then settled (`Settled`): what
failed is closed, and what was not closed is in the phase it was in or in the one
the machine moved it to.  The result is `hostSession_atomic`.
-/
import RdEngine.Lib.Runs
import RdEngine.HostSession

namespace RdEngine

/-! ### What the authentication machine answers -/

/-- The machine still waits for something. -/
def HostAuthentication.Live (auth : HostAuthentication) : Prop :=
  auth.state ≠ .authorized ∧ auth.state ≠ .closed

/-- What a turn of the machine leaves behind, by its action. -/
def Answered (auth : HostAuthentication) (turn : AuthTurn) : Prop :=
  match turn.action with
  | .ignored => turn.auth = auth
  | .pendingApproval => auth.Live ∧ turn.auth.state = .awaitApproval
  | .error _ terminal =>
    auth.Live ∧ if terminal then turn.auth.state = .closed else turn.auth.Live
  | .authorized info permissions =>
    auth.Live ∧ turn.auth.state = .authorized ∧ info = turn.auth.config.peerInfo ∧
      permissions = turn.auth.grant

namespace HostAuthentication

variable {auth : HostAuthentication}

theorem Live.of_state {state : HostAuthState} (h : auth.state = state)
    (hstate : state ≠ .authorized ∧ state ≠ .closed) : auth.Live := by
  rw [Live, h]
  exact hstate

theorem answered_after {turn : AuthTurn} (h : Answered auth turn) (events : List AuthEvent) :
    Answered auth (turn.after events) := h

theorem answered_ignore (auth : HostAuthentication) : Answered auth auth.ignore := rfl

theorem answered_refusal (h : auth.Live) {self : HostAuthentication} (hself : self.Live)
    (message : String) : Answered auth (self.error message false) := ⟨h, hself⟩

theorem answered_terminal (h : auth.Live) (self : HostAuthentication) (message : String) :
    Answered auth (self.error message true) := ⟨h, rfl⟩

theorem answered_authorize (h : auth.Live) (self : HostAuthentication) :
    Answered auth self.authorize := ⟨h, rfl, rfl, rfl⟩

theorem answered_afterPrimary (h : auth.Live) (self : HostAuthentication) (env : Answers) :
    Answered auth (self.afterPrimary env) := by
  unfold afterPrimary
  split
  · have hwaits : ({ self with state := .await2Fa } : HostAuthentication).Live := ⟨nofun, nofun⟩
    exact answered_after (answered_refusal h hwaits _) _
  · exact answered_after (answered_authorize h self) _

/-- A machine that waits for the approval of a request asks for it. -/
theorem answered_poll (h : auth.Live) {self : HostAuthentication} {request : LoginRequest}
    (hstate : self.state = .awaitApproval) (hrequest : self.request = some request)
    (env : Answers) : Answered auth (self.pollApproval env) := by
  unfold pollApproval
  rw [if_neg (not_not.mpr hstate), hrequest]
  cases env.approval with
  | pending => exact ⟨h, hstate⟩
  | denied => exact answered_after (answered_terminal h self _) _
  | approved grant => exact answered_after (answered_afterPrimary h _ env) _

theorem answered_pollApproval (auth : HostAuthentication) (env : Answers) :
    Answered auth (auth.pollApproval env) := by
  by_cases hstate : auth.state = .awaitApproval
  · cases hrequest : auth.request with
    | none =>
      rw [pollApproval, if_neg (not_not.mpr hstate), hrequest]
      exact answered_ignore auth
    | some request =>
      exact answered_poll (.of_state hstate ⟨nofun, nofun⟩) hstate hrequest env
  · rw [pollApproval, if_pos hstate]
    exact answered_ignore auth

theorem answered_secondFactor (auth : HostAuthentication) (env : Answers) (code : Auth2FA) :
    Answered auth (auth.secondFactor env code) := by
  unfold secondFactor
  split
  · exact answered_ignore auth
  · next hstate =>
    have hlive : auth.Live := .of_state (not_not.mp hstate) ⟨nofun, nofun⟩
    cases env.allow with
    | error message => exact answered_after (answered_refusal hlive hlive message) _
    | ok =>
      cases env.factor with
      | verified => exact answered_after (answered_authorize hlive auth) _
      | wrong => exact answered_after (answered_refusal hlive hlive _) _
      | unsupported => exact answered_after (answered_refusal hlive hlive _) _

theorem answered_loginPrimary (h : auth.Live) {self : HostAuthentication} (hself : self.Live)
    (env : Answers) (request : LoginRequest) (nonempty valid : Bool) :
    Answered auth (self.loginPrimary env request nonempty valid) := by
  refine answered_after ?_ _
  have hkept : ({ self with
    request := some { request with password := [], osLogin := {} } } : HostAuthentication).Live :=
    hself
  dsimp only
  split
  · exact answered_afterPrimary h _ env
  split
  · exact answered_refusal h hkept _
  -- the approval is asked for at once; a wrong password may then replace its answer
  have hpoll := @answered_poll _ h { self with
    request := some { request with password := [], osLogin := {} }, state := .awaitApproval }
    _ rfl rfl env
  split
  · next hpending =>
    rw [Answered, hpending.1] at hpoll
    exact answered_after (answered_refusal h (.of_state hpoll.2 ⟨nofun, nofun⟩) _) _
  · exact hpoll

theorem answered_login (sha256 : Bytes → Bytes) (auth : HostAuthentication) (env : Answers)
    (request : LoginRequest) : Answered auth (auth.login sha256 env request) := by
  unfold login
  split
  · exact answered_ignore auth
  split
  · exact answered_ignore auth
  next hclosed hauthorized =>
  have hlive : auth.Live := ⟨hauthorized, hclosed⟩
  have hself : ({ auth with state := .awaitLogin } : HostAuthentication).Live := ⟨nofun, nofun⟩
  split
  · exact answered_terminal hlive auth _
  split
  · exact answered_terminal hlive auth _
  split_ifs
  · exact answered_terminal hlive auth _
  · exact answered_terminal hlive auth _
  · exact answered_terminal hlive auth _
  unfold loginAccepted
  split
  · cases env.allow with
    | error message => exact answered_after (answered_refusal hlive hself message) _
    | ok => exact answered_after (answered_loginPrimary hlive hself env request _ _) _
  · exact answered_loginPrimary hlive hself env request _ _

end HostAuthentication

/-! ### How a send leaves the wire -/

/-- A send whose future was dropped has taken the wire with it. -/
theorem SessionIo.wire_of_dropped {box : SecretBox} {proto : Protobuf Message} {io io' : SessionIo}
    {message : Message} {answer : SendAnswer}
    (h : io.send box proto message answer = (io', none)) : io'.wire = none := by
  unfold send at h
  split at h
  · cases h
  · dsimp only at h
    split_ifs at h
    · cases h
    · split at h
      · cases h
      · cases answer <;> cases h
        rfl
    · cases h
    · split at h
      · cases h
      · cases answer <;> cases h
        rfl

/-! ### Phases -/

/-- A send that failed, or an answer of the machine that ends the session. -/
def HostRecord.isFailure : HostRecord → Bool
  | .unsent _ => true
  | .action (.error _ terminal) => terminal
  | _ => false

/-- The call returned an error, or something failed during it. -/
def HostTurn.Failed {α : Type} (turn : HostTurn α) : Prop :=
  (∃ e, turn.result = some (.error e)) ∨ ∃ record ∈ turn.records, record.isFailure = true

namespace HostSession

/-- The authentication is closed, nothing is permitted and the wire is gone. -/
structure Shut (session : HostSession) : Prop where
  state : session.auth.state = .closed
  permissions : session.permissions = {}
  wire : session.io.wire = none

/-- The records of a success: the login response and the report of each permission. -/
def successRecords (info : PeerInfo) (permissions : Permissions) : List Message :=
  .of (.loginResponse { union := some (.peerInfo info) }) :: permissionReports permissions

/-- The records of the success were all sent completely, in one go. -/
def SuccessSent (session : HostSession) (log : List HostRecord) : Prop :=
  (successRecords session.auth.config.peerInfo session.auth.grant).map .sent <:+: log

/-- What a session between two calls says about its log. -/
structure Phase (log : List HostRecord) (session : HostSession) : Prop where
  closed : session.auth.state = .closed → session.io.wire = none
  denied : session.auth.state ≠ .authorized → session.permissions = {}
  ready : session.ready = true → ¬ session.auth.Live
  success : session.ready = true → session.auth.state = .authorized →
    session.permissions = session.auth.grant ∧ SuccessSent session log

variable {log : List HostRecord} {session : HostSession} {auth : HostAuthentication} {α : Type}
  {turn : HostTurn α}

theorem Phase.shut (h : Phase log session) (hstate : session.auth.state = .closed) : Shut session where
  state := hstate
  permissions := h.denied (by rw [hstate]; nofun)
  wire := h.closed hstate

theorem Phase.append (h : Phase log session) (more : List HostRecord) :
    Phase (log ++ more) session where
  closed := h.closed
  denied := h.denied
  ready := h.ready
  success hready hstate :=
    have ⟨hgrant, hsent⟩ := h.success hready hstate
    ⟨hgrant, hsent.trans (List.prefix_append log more).isInfix⟩

/-- The wire of an open session may change, and that of any session be lost. -/
theorem Phase.withIo (h : Phase log session) {io : SessionIo}
    (hio : session.auth.state = .closed → io.wire = none) : Phase log { session with io := io } where
  closed := hio
  denied := h.denied
  ready := h.ready
  success := h.success

theorem clear_phase (log : List HostRecord) (session : HostSession) : Phase log session.clear where
  closed _ := rfl
  denied _ := rfl
  ready _ h := h.2 rfl
  success _ h := nomatch h

/-! ### Calls that have run and calls that are settled -/

/-- What a call leaves behind: the phase of the log, closed if anything failed,
and moved on only by the machine. -/
structure Settled (auth : HostAuthentication) (log : List HostRecord) (turn : HostTurn α) : Prop where
  phase : Phase (log ++ turn.records) turn.session
  failed : turn.Failed → turn.session.auth.state = .closed
  moved : turn.session.auth.state = .closed ∨ turn.session.auth = auth ∨
    ∃ action, .action action ∈ turn.records

/-- The call has returned an error, or with a closed machine. -/
def Ended (turn : HostTurn α) : Prop :=
  (∃ e, turn.result = some (.error e)) ∨
    ((∃ value, turn.result = some (.ok value)) ∧ turn.session.auth.state = .closed)

/-- What has run is settled already, or is cleared by settling. -/
def Fair (auth : HostAuthentication) (log : List HostRecord) (turn : HostTurn α) : Prop :=
  Ended turn ∨ Settled auth log turn

theorem settled_clear (auth : HostAuthentication) (session : HostSession) (log records : List HostRecord)
    (result : Option (Except IoError α)) : Settled auth log ⟨session.clear, result, records⟩ where
  phase := clear_phase _ session
  failed _ := rfl
  moved := .inl rfl

/-- **Settling a call that has run.** -/
theorem Fair.settle (h : Fair auth log turn) : Settled auth log (settle turn) := by
  obtain ⟨session, result, records⟩ := turn
  rcases result with - | ⟨e | value⟩
  · rcases h with (⟨_, herror⟩ | ⟨⟨_, hok⟩, -⟩) | hsettled
    · cases herror
    · cases hok
    · exact hsettled
  · exact settled_clear auth session log records _
  · show Settled auth log (if session.auth.state = .closed then _ else _)
    split
    · exact settled_clear auth session log records _
    · next hopen =>
      rcases h with (⟨_, herror⟩ | ⟨-, hclosed⟩) | hsettled
      · cases herror
      · exact absurd hclosed hopen
      · exact hsettled

theorem Settled.fair (h : Settled auth log turn) : Fair auth log turn := .inr h

theorem Phase.done (h : Phase log session) (hauth : session.auth = auth) (value : α) :
    Settled auth log (session.done (.ok value)) where
  phase := by rw [HostSession.done, List.append_nil]; exact h
  failed hfailed := by
    rcases hfailed with ⟨_, herror⟩ | ⟨_, hmem, -⟩
    · cases herror
    · exact absurd hmem List.not_mem_nil
  moved := .inr (.inl hauth)

/-- Records that are no failure may come before a turn. -/
theorem Fair.after {records : List HostRecord} (h : Fair auth (log ++ records) turn)
    (hrecords : ∀ record ∈ records, record.isFailure = false) :
    Fair auth log (turn.after records) := by
  rcases h with hended | hsettled
  · exact .inl hended
  refine .inr ⟨?_, ?_, ?_⟩
  · rw [HostTurn.after_records, ← List.append_assoc]
    exact hsettled.phase
  · rintro (herror | ⟨record, hmem, hfailure⟩)
    · exact hsettled.failed (.inl herror)
    · rcases List.mem_append.mp hmem with hbefore | hduring
      · rw [hrecords record hbefore] at hfailure
        cases hfailure
      · exact hsettled.failed (.inr ⟨record, hduring, hfailure⟩)
  · rcases hsettled.moved with hclosed | hauth | ⟨action, hmem⟩
    · exact .inl hclosed
    · exact .inr (.inl hauth)
    · exact .inr (.inr ⟨action, List.mem_append_right records hmem⟩)

/-- An action of the machine may come before a turn; it must have closed the
machine if it ends the session. -/
theorem Fair.acted {action : AuthAction} (h : Fair auth (log ++ [.action action]) turn)
    (hterminal : HostRecord.isFailure (.action action) = true → turn.session.auth.state = .closed)
    (auth' : HostAuthentication) : Fair auth' log (turn.after [.action action]) := by
  rcases h with hended | hsettled
  · exact .inl hended
  refine .inr ⟨?_, ?_, .inr (.inr ⟨action, List.mem_cons_self⟩)⟩
  · rw [HostTurn.after_records, ← List.append_assoc]
    exact hsettled.phase
  · rintro (herror | ⟨record, hmem, hfailure⟩)
    · exact hsettled.failed (.inl herror)
    · rcases List.mem_cons.mp hmem with rfl | hduring
      · exact hterminal hfailure
      · exact hsettled.failed (.inr ⟨record, hduring, hfailure⟩)

theorem settle_after (turn : HostTurn α) (records : List HostRecord) :
    HostSession.settle (turn.after records) = (HostSession.settle turn).after records := by
  obtain ⟨session, - | ⟨e | value⟩, records'⟩ := turn
  · rfl
  · rfl
  · show (if session.auth.state = .closed then _ else _) = HostTurn.after (if _ then _ else _) _
    split_ifs <;> rfl

/-! ### What a call does -/

variable {box : SecretBox} {proto : Protobuf Message} {sha256 : Bytes → Bytes}

/-- A call that sends a record and goes on. -/
theorem sendThen_fair {message : Message} {answers : List SendAnswer}
    {next : HostSession → List SendAnswer → HostTurn α} (hauth : session.auth = auth)
    (hlost : ∀ io : SessionIo, io.wire = none → Phase log { session with io := io })
    (hnext : ∀ io answers,
      Fair auth (log ++ [.sent message]) (next { session with io := io } answers)) :
    Fair auth log (session.sendThen box proto message answers next) := by
  unfold sendThen
  rcases hsend : session.io.send box proto message (answers.headD .dropped) with
    ⟨io, - | ⟨e | ⟨⟩⟩⟩
  · refine .inr ⟨?_, ?_, .inr (.inl hauth)⟩
    · simp only [List.append_nil]
      exact hlost io (SessionIo.wire_of_dropped hsend)
    · rintro (⟨_, herror⟩ | ⟨_, hmem, -⟩)
      · cases herror
      · exact absurd hmem List.not_mem_nil
  · exact .inl (.inl ⟨e, rfl⟩)
  · refine (hnext io answers.tail).after ?_
    rintro record hmem
    obtain rfl := List.mem_singleton.mp hmem
    rfl

/-- Sending a record and ending leaves the machine alone. -/
theorem sendThen_done_auth (session : HostSession) (message : Message) (answers : List SendAnswer)
    (result : Except IoError α) :
    (session.sendThen box proto message answers fun session _ => session.done result).session.auth
      = session.auth := by
  unfold sendThen
  rcases session.io.send box proto message (answers.headD .dropped) with ⟨io, - | ⟨e | ⟨⟩⟩⟩ <;> rfl

theorem Phase.lost (h : Phase log session) (io : SessionIo) (hio : io.wire = none) :
    Phase log { session with io := io } := h.withIo fun _ => hio

/-- An open session sends a record and ends the call. -/
theorem Phase.sendThen_done (h : Phase log session) (hopen : session.auth.state ≠ .closed)
    (message : Message) (answers : List SendAnswer) (value : α) :
    Fair session.auth log (session.sendThen box proto message answers fun session _ =>
      session.done (.ok value)) := by
  refine sendThen_fair rfl h.lost fun io _ => Settled.fair ?_
  have hsent : Phase (log ++ [.sent message]) { session with io := io } :=
    (h.append _).withIo fun hclosed => absurd hclosed hopen
  exact hsent.done rfl value

/-- The reports that are left of a success: ready is only who has sent all. -/
theorem sendReports_fair (permissions : Permissions) (reports : List Message) (answers : List SendAnswer)
    {session : HostSession} {log sentBefore : List HostRecord}
    (hstate : session.auth.state = .authorized) (hready : session.ready = false)
    (hgrant : session.permissions = session.auth.grant) (hsent : sentBefore <:+ log)
    (hall : sentBefore ++ reports.map .sent
      = (successRecords session.auth.config.peerInfo session.auth.grant).map .sent) :
    Fair session.auth log (sendReports box proto permissions reports session answers) := by
  induction reports generalizing session log sentBefore answers with
  | nil =>
    refine .inr ⟨?_, ?_, .inr (.inl rfl)⟩
    · refine ⟨fun h => ?_, fun h => absurd hstate h, fun _ hlive => hlive.1 hstate,
        fun _ _ => ⟨hgrant, ?_⟩⟩
      · exact nomatch hstate.symm.trans h
      · rw [List.map_nil, List.append_nil] at hall
        show (successRecords session.auth.config.peerInfo session.auth.grant).map .sent
          <:+: log ++ []
        rw [← hall, List.append_nil]
        exact hsent.isInfix
    · rintro (⟨_, herror⟩ | ⟨_, hmem, -⟩)
      · cases herror
      · exact absurd hmem List.not_mem_nil
  | cons report reports ih =>
    refine sendThen_fair rfl (fun io hio => ?_) fun io answers => ?_
    · refine ⟨fun _ => hio, fun h => absurd hstate h, fun h => ?_, fun h => ?_⟩
      · exact nomatch hready.symm.trans h
      · exact nomatch hready.symm.trans h
    · have hmore : sentBefore ++ [.sent report] <:+ log ++ [.sent report] := by
        obtain ⟨before, rfl⟩ := hsent
        exact ⟨before, (List.append_assoc ..).symm⟩
      have hrest : ({ session with io := io } : HostSession).ready = false := hready
      exact ih answers hstate hrest hgrant hmore (by rw [List.append_assoc]; exact hall)

/-- **What the machine asked for is carried out.** -/
theorem applyTurn_settled (h : Phase log session) {turn : AuthTurn}
    (hturn : Answered session.auth turn) (answers : List SendAnswer) :
    Settled session.auth log (session.applyTurn box proto turn answers) := by
  obtain ⟨auth', action, events⟩ := turn
  have hlater := h.append [.action action]
  suffices hfair : Fair session.auth log
      (({ session with auth := auth' }.applyInner box proto action answers).after
        [.action action]) by
    have hsettle := hfair.settle
    rwa [settle_after] at hsettle
  -- while the machine is live nothing is permitted and the session is not ready
  have hwaiting : session.auth.Live → auth'.Live →
      Phase (log ++ [.action action]) { session with auth := auth' } := fun hlive hlive' =>
    ⟨fun hclosed => absurd hclosed hlive'.2, fun _ => h.denied hlive.1,
      fun hready => absurd hlive (h.ready hready), fun hready => absurd hlive (h.ready hready)⟩
  cases action with
  | ignored =>
    obtain rfl : auth' = session.auth := hturn
    exact Fair.acted (.inr (hlater.done rfl _)) nofun _
  | pendingApproval =>
    change session.auth.Live ∧ auth'.state = .awaitApproval at hturn
    obtain ⟨hlive, hstate⟩ := hturn
    have hlive' : auth'.Live := .of_state hstate ⟨nofun, nofun⟩
    have hphase := hwaiting hlive hlive'
    suffices hrun : Fair auth' (log ++ [.action .pendingApproval])
        ({ session with auth := auth' }.applyInner box proto .pendingApproval answers) from
      Fair.acted hrun nofun _
    unfold applyInner
    split_ifs
    · exact hphase.sendThen_done hlive'.2 _ answers _
    · exact .inr (hphase.done rfl _)
  | error message terminal =>
    obtain ⟨hlive, hstate⟩ := hturn
    cases terminal with
    | false =>
      have hsend : Fair auth' (log ++ [.action (.error message false)])
          ({ session with auth := auth' }.applyInner box proto (.error message false) answers) :=
        (hwaiting hlive hstate).sendThen_done hstate.2 _ answers _
      exact Fair.acted hsend (fun hfailure => absurd hfailure Bool.false_ne_true) _
    | true =>
      have hclosed : auth'.state = .closed := hstate
      have hrun : Fair auth' (log ++ [.action (.error message true)])
          ({ session with auth := auth' }.applyInner box proto (.error message true) answers) := by
        refine sendThen_fair rfl (fun io hio => ?_) fun io _ => ?_
        · exact ⟨fun _ => hio, fun _ => h.denied hlive.1,
            fun hready => absurd hlive (h.ready hready), fun hready => absurd hlive (h.ready hready)⟩
        · exact .inl (.inr ⟨⟨_, rfl⟩, hclosed⟩)
      refine hrun.acted (fun _ => ?_) _
      exact (congrArg HostAuthentication.state (sendThen_done_auth ..)).trans hclosed
  | authorized info permissions =>
    change session.auth.Live ∧ auth'.state = .authorized ∧ info = auth'.config.peerInfo ∧
      permissions = auth'.grant at hturn
    obtain ⟨hlive, hstate, rfl, rfl⟩ := hturn
    have hready : session.ready = false := by
      cases hr : session.ready with
      | false => rfl
      | true => exact absurd hlive (h.ready hr)
    suffices hrun : Fair auth'
        (log ++ [.action (.authorized auth'.config.peerInfo auth'.grant)])
        ({ session with auth := auth' }.applyInner box proto
          (.authorized auth'.config.peerInfo auth'.grant) answers) from
      Fair.acted hrun nofun _
    refine sendThen_fair rfl (fun io hio => ?_) fun io answers => ?_
    · exact ⟨fun _ => hio, fun hne => absurd hstate hne,
        fun hr => absurd (hready.symm.trans hr) Bool.false_ne_true,
        fun hr => absurd (hready.symm.trans hr) Bool.false_ne_true⟩
    · have hsuffix := List.suffix_append (log ++ [HostRecord.action
        (.authorized auth'.config.peerInfo auth'.grant)])
        [.sent (.of (.loginResponse { union := some (.peerInfo auth'.config.peerInfo) }))]
      exact sendReports_fair _ _ answers hstate hready rfl hsuffix rfl

theorem pollApproval_settled (h : Phase log session) (env : Answers) (expired : Bool)
    (answers : List SendAnswer) :
    Settled session.auth log (session.pollApproval box proto env expired answers) := by
  unfold pollApproval
  split
  · next hexpired =>
    -- only an authorized session holds permissions, so there are none to take back
    refine ⟨⟨fun _ => rfl, fun _ => h.denied hexpired.2, fun _ hlive => hlive.2 rfl,
      fun _ hstate => nomatch hstate⟩, fun _ => rfl, .inl rfl⟩
  · exact applyTurn_settled h (HostAuthentication.answered_pollApproval session.auth env) answers

theorem dispatch_fair (h : Phase log session) (hopen : session.auth.state ≠ .closed)
    (message : Message) (env : Answers) (answers : List SendAnswer) :
    Fair session.auth log (session.dispatch box proto sha256 message env answers) := by
  have hrefused : Fair session.auth log (if session.auth.state ≠ .authorized then
      session.sendThen box proto (loginError "Connection not allowed") answers fun session _ =>
        session.closeAuth.done (.error (failure "Application payload before authentication"))
      else session.done (.ok HostEvent.unsupported)) := by
    split
    · exact sendThen_fair rfl h.lost fun io _ => .inl (.inl ⟨_, rfl⟩)
    · exact .inr (h.done rfl _)
  unfold dispatch
  split
  · exact .inl (.inr ⟨⟨_, rfl⟩, rfl⟩)
  cases message.union with
  | none => exact .inr (h.done rfl _)
  | some union =>
    cases union with
    | testDelay probe =>
      dsimp only
      split
      · exact h.sendThen_done hopen _ answers _
      · exact .inr (h.done rfl _)
    | loginRequest request =>
      exact .inr (applyTurn_settled h (HostAuthentication.answered_login ..) answers)
    | auth2fa code =>
      exact .inr (applyTurn_settled h (HostAuthentication.answered_secondFactor ..) answers)
    | _ => exact hrefused

theorem recvInner_fair (h : Phase log session) (waited : Waited) (env : Answers) (expired : Bool)
    (answers : List SendAnswer) :
    Fair session.auth log (session.recvInner box proto sha256 waited env expired answers) := by
  unfold recvInner
  split
  · next hclosed => exact .inl (.inr ⟨⟨_, rfl⟩, hclosed⟩)
  next hopen =>
  cases waited with
  | dropped =>
    refine .inr ⟨?_, ?_, .inr (.inl rfl)⟩
    · rw [List.append_nil]
      exact h
    · rintro (⟨_, herror⟩ | ⟨_, hmem, -⟩)
      · cases herror
      · exact absurd hmem List.not_mem_nil
  | notified => exact .inr (pollApproval_settled h env expired answers)
  | incoming incoming =>
    dsimp only
    rcases session.io.recv box proto incoming with ⟨io, - | ⟨e | - | message⟩⟩
    · exact .inl (.inl ⟨_, rfl⟩)
    · exact .inl (.inl ⟨_, rfl⟩)
    · exact .inl (.inr ⟨⟨_, rfl⟩, rfl⟩)
    · have hheard : Phase (log ++ [.received message]) { session with io := io } :=
        (h.append _).withIo fun hclosed => absurd hclosed hopen
      refine (dispatch_fair hheard hopen message env answers).after ?_
      rintro record hmem
      obtain rfl := List.mem_singleton.mp hmem
      rfl

theorem close_settled (h : Phase log session) (answers : List SendAnswer) :
    Settled session.auth log (session.close box proto answers) := by
  unfold close
  split
  · exact h.done rfl ()
  -- whatever becomes of the closing record, the machine is closed and the wire is gone
  have hshut : ∀ (io : SessionIo), io.wire = none → ∀ (result : Option (Except IoError Unit))
      (records : List HostRecord),
      Settled session.auth log
        ⟨{ session with auth := session.auth.close, permissions := {}, io := io }, result, records⟩ :=
    fun io hio _ _ => ⟨⟨fun _ => hio, fun _ => rfl, fun _ hlive => hlive.2 rfl,
      fun _ hstate => nomatch hstate⟩, fun _ => rfl, .inl rfl⟩
  unfold sendThen
  dsimp only
  rcases hsend : session.io.send box proto closeMessage (answers.headD .dropped) with
    ⟨io, - | ⟨e | ⟨⟩⟩⟩
  · exact hshut io (SessionIo.wire_of_dropped hsend) _ _
  · exact hshut io.terminate rfl _ _
  · exact hshut io.terminate rfl _ _

/-! ### Whole runs -/

/-- One call of the session's interface, with what it meets. -/
inductive HostCall where
  | recv (incoming : Incoming) (env : Answers) (answers : List SendAnswer)
  | recvWithApproval (waited : Waited) (env : Answers) (expired : Bool)
      (answers : List SendAnswer)
  | pollApproval (env : Answers) (expired : Bool) (answers : List SendAnswer)
  | close (answers : List SendAnswer)

/-- The turn of a call whose value does not matter. -/
def plain {α : Type} (turn : HostTurn α) : HostTurn Unit :=
  ⟨turn.session, turn.result.map (Except.map fun _ => ()), turn.records⟩

section Runs

variable (box : SecretBox) (proto : Protobuf Message) (sha256 : Bytes → Bytes)

def call (session : HostSession) : HostCall → HostTurn Unit
  | .recv incoming env answers => plain (session.recv box proto sha256 incoming env answers)
  | .recvWithApproval waited env expired answers =>
    plain (session.recvWithApproval box proto sha256 waited env expired answers)
  | .pollApproval env expired answers => plain (session.pollApproval box proto env expired answers)
  | .close answers => plain (session.close box proto answers)

/-- One call of a run, with the records so far. -/
def observeStep (o : HostSession × List HostRecord) (c : HostCall) :
    HostSession × List HostRecord :=
  let turn := o.1.call box proto sha256 c
  (turn.session, o.2 ++ turn.records)

/-- The session after a run of calls, and everything that happened in it. -/
def observe (session : HostSession) (calls : List HostCall) : HostSession × List HostRecord :=
  calls.foldl (observeStep box proto sha256) (session, [])

end Runs

theorem Settled.plain (h : Settled auth log turn) : Settled auth log (plain turn) where
  phase := h.phase
  failed hfailed := by
    rcases hfailed with ⟨e, herror⟩ | hrecord
    · rcases hresult : turn.result with - | ⟨e' | value⟩
      · rw [HostSession.plain, hresult] at herror
        cases herror
      · exact h.failed (.inl ⟨e', hresult⟩)
      · rw [HostSession.plain, hresult] at herror
        cases herror
    · exact h.failed (.inr hrecord)
  moved := h.moved

theorem call_settled (h : Phase log session) (c : HostCall) :
    Settled session.auth log (session.call box proto sha256 c) := by
  cases c with
  | recv incoming env answers =>
    exact (recvInner_fair h (.incoming incoming) env false answers).settle.plain
  | recvWithApproval waited env expired answers =>
    exact (recvInner_fair h waited env expired answers).settle.plain
  | pollApproval env expired answers => exact (pollApproval_settled h env expired answers).plain
  | close answers => exact (close_settled h answers).plain

/-- A session that has just started waits for a login, and nothing is permitted. -/
theorem fromEstablished_new {wire : Established} {config : HostAuthConfig} {challenge : String}
    {answer : SendAnswer}
    (h : fromEstablished box proto wire config challenge answer = some (.ok session)) :
    session.auth.config = config ∧ session.auth.state = .awaitLogin ∧
      session.permissions = {} ∧ session.ready = false := by
  unfold fromEstablished at h
  rcases hauth : HostAuthentication.new config challenge with e | auth
  · rw [hauth] at h; cases h
  have hnew : auth.config = config ∧ auth.state = .awaitLogin := by
    unfold HostAuthentication.new at hauth
    split_ifs at hauth
    cases hauth
    exact ⟨rfl, rfl⟩
  simp only [hauth] at h
  rcases hsend : (SessionIo.new wire.wire wire.prefetched).send box proto (hello auth) answer with
    ⟨io, - | ⟨e | ⟨⟩⟩⟩
  · rw [hsend] at h; cases h
  · rw [hsend] at h; cases h
  · rw [hsend] at h
    cases h
    exact ⟨hnew.1, hnew.2, rfl, rfl⟩

theorem fromEstablished_phase {wire : Established} {config : HostAuthConfig} {challenge : String}
    {answer : SendAnswer}
    (h : fromEstablished box proto wire config challenge answer = some (.ok session)) :
    Phase [] session := by
  obtain ⟨-, hstate, hpermissions, hready⟩ := fromEstablished_new h
  refine ⟨fun hclosed => ?_, fun _ => hpermissions, fun hr => ?_, fun hr => ?_⟩
  · exact nomatch hstate.symm.trans hclosed
  · exact nomatch hready.symm.trans hr
  · exact nomatch hready.symm.trans hr

/-- Every run keeps the phase. -/
theorem observe_phase (h : Phase [] session) (calls : List HostCall) :
    Phase (session.observe box proto sha256 calls).2
      (session.observe box proto sha256 calls).1 :=
  Lts.foldl_invariant (I := fun o : HostSession × List HostRecord => Phase o.2 o.1) h
    (fun _ c hphase => (call_settled hphase c).phase) calls

/-- The session is closed for good, or nothing failed and the machine is where
it was or where it moved itself. -/
def EndsAtomically (session : HostSession) (turn : HostTurn Unit) : Prop :=
  Shut turn.session ∨ (¬ turn.Failed ∧ turn.session.auth.state ≠ .closed ∧
    (turn.session.auth = session.auth ∨ ∃ action, .action action ∈ turn.records))

theorem Settled.endsAtomically {turn : HostTurn Unit} (h : Settled session.auth log turn) :
    EndsAtomically session turn := by
  by_cases hclosed : turn.session.auth.state = .closed
  · exact .inl (h.phase.shut hclosed)
  · refine .inr ⟨fun hfailed => hclosed (h.failed hfailed), hclosed, ?_⟩
    exact h.moved.resolve_left hclosed

/-- What is handed over is the grant whose records were sent. -/
theorem Phase.handed (h : Phase log session) {parts : AuthenticatedParts}
    (hparts : session.intoAuthenticatedParts = .ok parts) :
    session.auth.state = .authorized ∧ SuccessSent session log ∧
      parts.context.permissions = session.auth.grant := by
  unfold intoAuthenticatedParts at hparts
  split at hparts
  · cases hparts
  next hready =>
  obtain ⟨hstate, hready⟩ := not_or.mp hready
  have hstate := not_not.mp hstate
  have hready : session.ready = true := by simpa using hready
  obtain ⟨hgrant, hsent⟩ := h.success hready hstate
  refine ⟨hstate, hsent, ?_⟩
  split at hparts
  · cases hparts
  split at hparts
  · cases hparts
  · obtain rfl := Except.ok.inj hparts
    exact hgrant

/-- **Whatever happens at any point of a run**, every call ends the session or
leaves nothing failed, and the parts are handed over only by an authorized
session that has sent every record of its success. -/
theorem hostSession_atomic {wire : Established} {config : HostAuthConfig} {challenge : String}
    {answer : SendAnswer}
    (h : fromEstablished box proto wire config challenge answer = some (.ok session))
    (calls : List HostCall) :
    let o := session.observe box proto sha256 calls
    (∀ c, EndsAtomically o.1 (o.1.call box proto sha256 c)) ∧
    ∀ parts, o.1.intoAuthenticatedParts = .ok parts →
      o.1.auth.state = .authorized ∧ SuccessSent o.1 o.2 ∧
        parts.context.permissions = o.1.auth.grant := by
  have hphase : Phase (session.observe box proto sha256 calls).2
      (session.observe box proto sha256 calls).1 := observe_phase (fromEstablished_phase h) calls
  exact ⟨fun c => (call_settled hphase c).endsAtomically, fun _ hparts => hphase.handed hparts⟩

/-! ### A run: approved at once, and cut off after the first report -/

/-- A plain connection whose first record is a login. -/
def loggedIn : Established where
  wire := .fromStream
  security := .legacyPlain false
  prefetched := some (.of (.loginRequest { username := "desk", myId := "viewer" }))

/-- The records of the session up to its second report. -/
def firstRecords : Protobuf Message := .table [
  (.of (.hash { challenge := "c0ffee" }), [0]),
  (.of (.loginResponse { union := some (.peerInfo {}) }), [1]),
  (.ofMisc (.permissionInfo { permission := .known .keyboard, enabled := true }), [2]),
  (.ofMisc (.permissionInfo { permission := .known .clipboard }), [3])]

/-- A click-only host, for the run whose write is cut short. -/
def cutConfig : HostAuthConfig where
  acceptedTargets := ["desk"]
  salt := ""
  passwords := { values := [] }
  policy := .clickOnly
  ceiling := { keyboard := true }
  passwordPermissions := {}
  peerInfo := {}

/-- The login is approved; the send of the second report fails. -/
def cutCall : HostCall :=
  .recv .ended
    { allow := .ok (), approval := .approved { keyboard := true }, required := false,
      factor := .unsupported }
    [.sent, .sent, .failed]

theorem hostSession_atomic_cut : ∃ session,
    fromEstablished .padding firstRecords loggedIn cutConfig "c0ffee" .sent = some (.ok session) ∧
    (session.call .padding firstRecords id cutCall).Failed ∧
    EndsAtomically session (session.call .padding firstRecords id cutCall) := by
  have h : fromEstablished .padding firstRecords loggedIn cutConfig "c0ffee" .sent
      = some (.ok _) := rfl
  exact ⟨_, h, .inl ⟨_, rfl⟩, (hostSession_atomic h []).1 cutCall⟩

end HostSession

end RdEngine
