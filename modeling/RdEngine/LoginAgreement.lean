/-
RdEngine/LoginAgreement.lean

A host that keeps waiting after an error, and a viewer that is told about it.

The sides agree through the texts of the errors.  Four of them the viewer knows:
it goes on waiting, and the login can be continued.  On the two others it ends
the attempt, although the host would go on (`login_agreement`).
-/
import RdEngine.LoginDialogue
import RdEngine.Viewer.Credentials

namespace RdEngine

namespace LoginDialogue

open Viewer Lts

/-! ### What the host says -/

/-- Errors on which a viewer goes on waiting. -/
def Known (text : String) : Prop :=
  text = "No Password Access" ∨ text = "Wrong Password" ∨ text = "2FA Required" ∨
    text = "Wrong 2FA Code"

/-- Errors of a host that goes on waiting, on which a viewer ends. -/
def Unknown (text : String) : Prop :=
  text = "Empty Password" ∨ text = "2FA verification unsupported"

section Told

variable {auth : HostAuthentication} {answers : Answers} {text : String}

theorem told_afterPrimary (h : (auth.afterPrimary answers).action = .error text false) :
    Known text := by
  unfold HostAuthentication.afterPrimary at h
  split at h
  · cases h
    exact .inr (.inr (.inl rfl))
  · cases h

theorem told_pollApproval (h : (auth.pollApproval answers).action = .error text false) :
    Known text := by
  unfold HostAuthentication.pollApproval at h
  split at h
  · cases h
  split at h
  · cases h
  split at h
  · cases h
  · cases h
  · exact told_afterPrimary h

/-- Of an unsupported factor a viewer does not know. -/
theorem told_secondFactor {code : Auth2FA} (hallow : answers.allow = .ok ())
    (h : (auth.secondFactor answers code).action = .error text false) :
    Known text ∨ Unknown text ∧ auth.state = .await2Fa ∧ answers.factor = .unsupported := by
  unfold HostAuthentication.secondFactor at h
  split at h
  · cases h
  next hstate =>
  rw [hallow] at h
  cases hfactor : answers.factor with
  | verified =>
    rw [hfactor] at h
    cases h
  | wrong =>
    rw [hfactor] at h
    cases h
    exact .inl (.inr (.inr (.inr rfl)))
  | unsupported =>
    rw [hfactor] at h
    cases h
    exact .inr ⟨.inr rfl, not_not.mp hstate, rfl⟩

theorem told_loginPrimary {request : LoginRequest} {nonempty valid : Bool}
    (h : (auth.loginPrimary answers request nonempty valid).action = .error text false) :
    Known text ∨ Unknown text ∧ auth.config.policy = .passwordOnly ∧ nonempty = false := by
  unfold HostAuthentication.loginPrimary at h
  dsimp only at h
  rw [AuthTurn.after_action] at h
  split at h
  · exact .inl (told_afterPrimary h)
  split at h
  · next hpolicy =>
    cases nonempty with
    | true =>
      cases h
      exact .inl (.inr (.inl rfl))
    | false =>
      cases h
      exact .inr ⟨.inl rfl, hpolicy, rfl⟩
  split at h
  · cases h
    exact .inl (.inr (.inl rfl))
  · exact .inl (told_pollApproval h)

/-- Nor of a password that is missing. -/
theorem told_login {sha256 : Bytes → Bytes} {request : LoginRequest}
    (hallow : answers.allow = .ok ())
    (h : (auth.login sha256 answers request).action = .error text false) :
    Known text ∨
      Unknown text ∧ auth.config.policy = .passwordOnly ∧ request.password = [] := by
  unfold HostAuthentication.login at h
  split at h
  · cases h
  split at h
  · cases h
  split at h
  · cases h
  split at h
  · cases h
  split at h
  · cases h
  split at h
  · cases h
  split at h
  · cases h
  unfold HostAuthentication.loginAccepted at h
  split at h
  · rw [hallow] at h
    rcases told_loginPrimary h with hknown | ⟨-, -, hnonempty⟩
    · exact .inl hknown
    · cases hnonempty
  · rcases told_loginPrimary h with hknown | ⟨hunknown, hpolicy, hnonempty⟩
    · exact .inl hknown
    · exact .inr ⟨hunknown, hpolicy, by simpa using hnonempty⟩

end Told

/-! ### Turns of the host -/

/-- A record of a host that keeps waiting: an error whose text meets `P`, or a probe that
comes back. -/
def Benign (P : String → Prop) (message : Message) : Prop :=
  (∃ text, P text ∧ message = HostSession.loginError text) ∨
    ∃ probe : TestDelay, probe.fromClient = true ∧ message = .of (.testDelay probe)

/-- A host that waits after a turn has waited before it, and has sent nothing else. -/
def Tame {α : Type} (P : String → Prop) (auth : HostAuthentication) (turn : HostTurn α) : Prop :=
  turn.session.auth.Live → auth.Live ∧ ∀ message ∈ hostSent turn.records, Benign P message

section Tame

variable {α : Type} {P : String → Prop} {auth : HostAuthentication} {turn : HostTurn α}
  {session : HostSession} {box : SecretBox} {proto : Protobuf Message} {sha256 : Bytes → Bytes}

theorem not_live_close (auth : HostAuthentication) : ¬ auth.close.Live := fun h => h.2 rfl

theorem Tame.of_dead (h : ¬ turn.session.auth.Live) : Tame P auth turn :=
  fun hlive => absurd hlive h

/-- Nothing but the wire has changed. -/
theorem Tame.of_quiet (hauth : turn.session.auth = auth) (hsent : hostSent turn.records = []) :
    Tame P auth turn := by
  intro hlive
  rw [hauth] at hlive
  refine ⟨hlive, fun message hmessage => ?_⟩
  rw [hsent] at hmessage
  cases hmessage

theorem Tame.settle (h : Tame P auth turn) : Tame P auth (HostSession.settle turn) := by
  unfold HostSession.settle
  split
  · exact h
  · exact .of_dead (not_live_close _)
  · split
    · exact .of_dead (not_live_close _)
    · exact h

theorem Tame.after {records : List HostRecord} (h : Tame P auth turn)
    (hrecords : hostSent records = []) : Tame P auth (turn.after records) := by
  intro hlive
  obtain ⟨hbefore, hbenign⟩ := h hlive
  refine ⟨hbefore, fun message hmessage => ?_⟩
  rw [HostTurn.after_records, hostSent, List.filterMap_append] at hmessage
  rcases List.mem_append.mp hmessage with hmessage | hmessage
  · have : message ∈ hostSent records := hmessage
    rw [hrecords] at this
    cases this
  · exact hbenign message hmessage

/-- What comes after a send decides about the machine. -/
theorem sendThen_auth {message : Message} {answers : List SendAnswer}
    {next : HostSession → List SendAnswer → HostTurn α}
    (hnext : ∀ io answers, (next { session with io } answers).session.auth = session.auth) :
    (session.sendThen box proto message answers next).session.auth = session.auth := by
  unfold HostSession.sendThen
  split
  · rfl
  · rfl
  · exact hnext _ _

/-- A record is sent, and nothing comes after it. -/
theorem sendThen_sent {message : Message} {answers : List SendAnswer}
    {next : HostSession → List SendAnswer → HostTurn α}
    (hnext : ∀ session answers, (next session answers).records = []) :
    ∀ m ∈ hostSent (session.sendThen box proto message answers next).records, m = message := by
  intro m hm
  unfold HostSession.sendThen at hm
  split at hm
  · cases hm
  · cases hm
  · rw [HostTurn.after_records, hnext] at hm
    exact List.mem_singleton.mp hm

theorem sendReports_auth (permissions : Permissions) (reports : List Message)
    (session : HostSession) (answers : List SendAnswer) :
    (HostSession.sendReports box proto permissions reports session answers).session.auth
      = session.auth := by
  induction reports generalizing session answers with
  | nil => rfl
  | cons report reports ih => exact sendThen_auth fun io answers => ih _ answers

/-- Carrying an action out: what the machine has said is sent. -/
theorem applyTurn_tame {turn : AuthTurn} (answers : List SendAnswer) (hanswered : Answered auth turn)
    (htold : ∀ text, turn.action = .error text false → P text) (happroval : P "No Password Access") :
    Tame P auth (session.applyTurn box proto turn answers) := by
  obtain ⟨after, action, events⟩ := turn
  refine Tame.after (Tame.settle ?_) rfl
  show Tame P auth ({ session with auth := after }.applyInner box proto action answers)
  unfold HostSession.applyInner
  cases action with
  | ignored => exact .of_quiet hanswered rfl
  | pendingApproval =>
    have hlive : auth.Live := hanswered.1
    dsimp only
    split
    · refine fun _ => ⟨hlive, fun m hm => .inl ⟨_, happroval, ?_⟩⟩
      exact sendThen_sent (fun _ _ => rfl) m hm
    · exact fun _ => ⟨hlive, fun m hm => absurd hm List.not_mem_nil⟩
  | error text terminal =>
    have hlive : auth.Live := hanswered.1
    cases terminal with
    | true =>
      have hdead : ¬ after.Live := fun h => h.2 hanswered.2
      refine .of_dead ?_
      rw [sendThen_auth fun _ _ => rfl]
      exact hdead
    | false =>
      refine fun _ => ⟨hlive, fun m hm => .inl ⟨_, htold text rfl, ?_⟩⟩
      exact sendThen_sent (fun _ _ => rfl) m hm
  | authorized info permissions =>
    have hdead : ¬ after.Live := fun h => h.1 hanswered.2.1
    refine .of_dead fun hlive => hdead ?_
    dsimp only at hlive
    rw [sendThen_auth] at hlive
    · exact hlive
    · exact fun _ answers => sendReports_auth permissions _ _ answers

/-- A turn on a record: it may say what the machine says about it. -/
theorem dispatch_tame {message : Message} {env : Answers} (answers : List SendAnswer)
    (hlogin : ∀ request text, message.union = some (.loginRequest request) →
      (session.auth.login sha256 env request).action = .error text false → P text)
    (hcode : ∀ code text, message.union = some (.auth2fa code) →
      (session.auth.secondFactor env code).action = .error text false → P text)
    (happroval : P "No Password Access") :
    Tame P session.auth (session.dispatch box proto sha256 message env answers) := by
  unfold HostSession.dispatch
  split
  · exact .of_dead (not_live_close _)
  split
  · exact .of_quiet rfl rfl
  · next probe _ =>
    split
    · next hclient =>
      intro hlive
      rw [sendThen_auth fun _ _ => rfl] at hlive
      refine ⟨hlive, fun m hm => .inr ⟨probe, hclient, ?_⟩⟩
      exact sendThen_sent (fun _ _ => rfl) m hm
    · exact .of_quiet rfl rfl
  · next request hunion =>
    exact applyTurn_tame answers (HostAuthentication.answered_login sha256 _ env request)
      (hlogin request · hunion) happroval
  · next code hunion =>
    exact applyTurn_tame answers (HostAuthentication.answered_secondFactor _ env code)
      (hcode code · hunion) happroval
  · split
    · unfold HostSession.sendThen
      split
      · exact .of_quiet rfl rfl
      · exact .of_quiet rfl rfl
      · exact .of_dead (not_live_close _)
    · exact .of_quiet rfl rfl

/-- **A turn of a host that keeps waiting.** -/
theorem recvNotified_tame {env : Fixtures} {answers : Answers} {expired : Bool}
    {sends : List SendAnswer} (session : HostSession) (waited : Waited)
    (hlogin : ∀ message request text, hostHeard env session waited = some message →
      message.union = some (.loginRequest request) →
      (session.auth.login env.sha256 answers request).action = .error text false → P text)
    (hcode : ∀ message code text, hostHeard env session waited = some message →
      message.union = some (.auth2fa code) →
      (session.auth.secondFactor answers code).action = .error text false → P text)
    (hpoll : ∀ text, (session.auth.pollApproval answers).action = .error text false → P text)
    (happroval : P "No Password Access") :
    Tame P session.auth
      (session.recvNotified env.box env.proto env.sha256 waited answers expired sends) := by
  refine Tame.settle ?_
  unfold HostSession.recvInner
  unfold hostHeard at hlogin hcode
  split
  · next hclosed => exact .of_dead fun h => h.2 hclosed
  next hopen =>
  rw [if_neg hopen] at hlogin hcode
  cases waited with
  | dropped => exact .of_quiet rfl rfl
  | notified =>
    dsimp only
    unfold HostSession.pollApproval
    split
    -- the deadline has expired
    · exact .of_dead (not_live_close _)
    · exact applyTurn_tame sends (HostAuthentication.answered_pollApproval _ answers) hpoll happroval
  | incoming incoming =>
    dsimp only at hlogin hcode ⊢
    generalize session.io.recv env.box env.proto incoming = received at hlogin hcode ⊢
    obtain ⟨io, - | ⟨e | ⟨- | message⟩⟩⟩ := received
    · exact .of_dead (not_live_close _)
    · exact .of_dead (not_live_close _)
    · exact .of_dead (not_live_close _)
    · refine Tame.after ?_ rfl
      exact @dispatch_tame P { session with io } _ _ _ message answers sends
        (fun request text => hlogin message request text rfl)
        (fun code text => hcode message code text rfl) happroval

/-- A host that waits for its first login, and hears nothing, says nothing. -/
theorem recvNotified_idle {env : Fixtures} {answers : Answers} {expired : Bool}
    {sends : List SendAnswer} (session : HostSession) (waited : Waited)
    (hstate : session.auth.state = .awaitLogin) (hheard : hostHeard env session waited = none) :
    let turn := session.recvNotified env.box env.proto env.sha256 waited answers expired sends
    ¬ turn.session.auth.Live ∨ turn.session.auth = session.auth ∧ hostSent turn.records = [] := by
  have hopen : session.auth.state ≠ .closed := by rw [hstate]; decide
  have hsettle : ∀ {turn : HostTurn HostEvent}, ¬ turn.session.auth.Live ∨
      turn.session.auth = session.auth ∧ hostSent turn.records = [] →
      ¬ (HostSession.settle turn).session.auth.Live ∨
        (HostSession.settle turn).session.auth = session.auth
          ∧ hostSent (HostSession.settle turn).records = [] := by
    intro turn h
    unfold HostSession.settle
    split
    · exact h
    · exact .inl (not_live_close _)
    · split
      · exact .inl (not_live_close _)
      · exact h
  unfold hostHeard at hheard
  rw [if_neg hopen] at hheard
  refine hsettle ?_
  unfold HostSession.recvInner
  rw [if_neg hopen]
  cases waited with
  | dropped => exact .inr ⟨rfl, rfl⟩
  | notified =>
    dsimp only
    unfold HostSession.pollApproval
    split
    · exact .inl (not_live_close _)
    -- nothing is pending before the login
    · have hignored : session.auth.pollApproval answers = session.auth.ignore := by
        unfold HostAuthentication.pollApproval
        rw [if_pos (by rw [hstate]; decide)]
      rw [hignored]
      exact hsettle (.inr ⟨rfl, rfl⟩)
  | incoming incoming =>
    dsimp only at hheard ⊢
    generalize session.io.recv env.box env.proto incoming = received at hheard ⊢
    obtain ⟨io, - | ⟨e | ⟨- | message⟩⟩⟩ := received
    · exact .inl (not_live_close _)
    · exact .inl (not_live_close _)
    · exact .inl (not_live_close _)
    · cases hheard

theorem close_not_live (answers : List SendAnswer) :
    ¬ (session.close box proto answers).session.auth.Live := by
  unfold HostSession.close
  split
  · next hclosed => exact fun h => h.2 hclosed
  · dsimp only
    split
    · rw [sendThen_auth fun _ _ => rfl]
      exact not_live_close _
    · dsimp only
      rw [sendThen_auth fun _ _ => rfl]
      exact not_live_close _

end Tame

/-! ### Turns of the viewer -/

section Viewer

variable {env : Fixtures}

theorem viewerHeard_eq {session : ViewerSession} {incoming : Incoming} {message : Message}
    (h : viewerHeard env session incoming = some message) :
    session.state ≠ .closed ∧ ∃ io,
      session.io.recv env.box env.proto incoming = (io, some (.ok (some message))) := by
  unfold viewerHeard at h
  split at h
  · cases h
  next hopen =>
  refine ⟨hopen, ?_⟩
  generalize session.io.recv env.box env.proto incoming = received at h ⊢
  obtain ⟨io, - | ⟨e | ⟨- | m⟩⟩⟩ := received
  · cases h
  · cases h
  · cases h
  · cases h
    exact ⟨io, rfl⟩

/-- A record that is dealt with, and leaves the session open. -/
theorem recv_done {session : ViewerSession} {incoming : Incoming} {echo : SendAnswer}
    {message : Message} {next : SessionIo → ViewerSession} {event : ViewerEvent}
    (hheard : viewerHeard env session incoming = some message)
    (hdispatch : ∀ io, { session with io }.dispatch env.box env.proto message echo
      = (next io).done (.ok event))
    (hopen : ∀ io, (next io).state ≠ .closed) :
    ∃ io, session.recv env.box env.proto incoming echo
      = ⟨next io, some (.ok event), [.received message]⟩ := by
  obtain ⟨hstate, io, hio⟩ := viewerHeard_eq hheard
  refine ⟨io, ?_⟩
  have hinner : session.recvInner env.box env.proto incoming echo
      = ⟨next io, some (.ok event), [.received message]⟩ := by
    unfold ViewerSession.recvInner
    rw [if_neg hstate, hio]
    show (({ session with io } : ViewerSession).dispatch _ _ message echo).heard message = _
    rw [hdispatch]
    rfl
  unfold ViewerSession.recv
  rw [hinner]
  exact if_neg (hopen io)

/-- A turn that hears nothing ends the attempt. -/
theorem onNetwork_unheard {a : Attempt} {request : Option LoginRequest} {awaiting : Awaiting}
    {arrives : Attempt.Arrives} (h : viewerHeard env a.session arrives.incoming = none) :
    (a.onNetwork env request awaiting arrives).attempt.isEnded = true := by
  have hresult : (∃ e, (a.received env arrives).result = some (.error e)) ∨
      (a.received env arrives).result = some (.ok .closed) := by
    unfold Attempt.received
    rw [ViewerSession.recv_result]
    unfold ViewerSession.recvInner
    unfold viewerHeard at h
    split
    · exact .inr rfl
    next hopen =>
    rw [if_neg hopen] at h
    dsimp only
    generalize a.session.io.recv env.box env.proto arrives.incoming = received at h ⊢
    obtain ⟨io, - | ⟨e | ⟨- | m⟩⟩⟩ := received
    · exact .inl ⟨_, rfl⟩
    · exact .inl ⟨_, rfl⟩
    · exact .inr rfl
    · cases h
  unfold Attempt.onNetwork
  dsimp only
  rcases hresult with ⟨e, hresult⟩ | hresult <;> rw [hresult] <;> rfl

/-! #### Records of a host that waits -/

/-- The state in which the session waits after an error. -/
def waitsFor (text : String) : ViewerState :=
  if text = "2FA Required" ∨ text = "Wrong 2FA Code" ∨ text = "2FA verification unsupported" then
    .await2Fa
  else if text = "No Password Access" then .awaitApproval
  else .awaitLogin

theorem waiting_waitsFor (text : String) : ViewerSession.Waiting (waitsFor text) := by
  unfold waitsFor ViewerSession.Waiting
  split_ifs <;> simp

theorem dispatch_loginError {session : ViewerSession} {text : String} {echo : SendAnswer}
    (hstate : session.state ≠ .active) (hrequest : session.request.isSome = true) :
    session.dispatch env.box env.proto (HostSession.loginError text) echo
      = { session with state := waitsFor text }.done (.ok (.loginError text)) := by
  have hnone : ¬ session.request.isNone = true := by
    rw [Option.isNone_iff_eq_none, ← ne_eq, ← Option.isSome_iff_ne_none]
    exact hrequest
  show (if session.state ≠ .active then _ else _) = _
  rw [if_pos hstate]
  show (if session.request.isNone = true then _ else _) = _
  rw [if_neg hnone]
  rfl

theorem dispatch_probe {session : ViewerSession} {probe : TestDelay} {echo : SendAnswer}
    (hstate : session.state ≠ .active) (hclient : probe.fromClient = true) :
    session.dispatch env.box env.proto (.of (.testDelay probe)) echo
      = session.done (.ok .progress) := by
  show (if session.state = .active then _ else _) = _
  rw [if_neg hstate, hclient]
  rfl

theorem dispatch_hash {session : ViewerSession} {hash : Hash} {echo : SendAnswer}
    (hstate : session.state = .awaitHash) (hchallenge : hash.challenge ≠ "") :
    session.dispatch env.box env.proto (.of (.hash hash)) echo
      = { session with hash := some hash, state := .awaitLogin }.done (.ok .challenge) := by
  show (if session.state = .awaitHash then _ else _) = _
  rw [if_pos hstate, if_neg hchallenge]

theorem dispatch_peerInfo {session : ViewerSession} {info : PeerInfo} {echo : SendAnswer}
    (hstate : session.state ≠ .active) (hrequest : session.request.isSome = true) :
    (session.dispatch env.box env.proto
      (.of (.loginResponse { union := some (.peerInfo info) })) echo).result
        = some (.ok (.authorized info)) := by
  have hnone : ¬ session.request.isNone = true := by
    rw [Option.isNone_iff_eq_none, ← ne_eq, ← Option.isSome_iff_ne_none]
    exact hrequest
  show (if session.state ≠ .active then _ else _ : ViewerTurn ViewerEvent).result = _
  rw [if_pos hstate]
  show (if session.request.isNone = true then _ else _ : ViewerTurn ViewerEvent).result = _
  rw [if_neg hnone]
  rfl

/-! #### An attempt that can go on -/

/-- A request that names a desktop, without an account of its system. -/
structure Plain (request : LoginRequest) : Prop where
  union : request.union = none
  username : request.username ≠ ""
  myId : request.myId ≠ ""
  osLogin : request.osLogin.username = "" ∧ request.osLogin.password = ""

/-- The session takes a login with this request. -/
structure Open (session : ViewerSession) (first : LoginRequest) : Prop where
  plain : Plain first
  state : ViewerSession.Waiting session.state
  hash : session.hash.isSome = true
  request : ∀ request, session.request = some request →
    ViewerSession.sameIdentity request first = true

/-- The loop waits, and its session goes along with it. -/
structure Ready (a : Attempt) (first : LoginRequest) (awaiting : Awaiting) : Prop where
  stage : a.stage = .looping (some first) awaiting
  isOpen : Open a.session first
  requested : a.session.request.isSome = true
  factor : awaiting = .secondFactor → a.session.state = .await2Fa

/-- **Any password can be tried.** -/
theorem Open.checkLogin {session : ViewerSession} {first : LoginRequest} {password : Option Bytes}
    {sha256 : Bytes → Bytes} (h : Open session first) (hpassword : password ≠ some []) :
    ∃ response, session.checkLogin sha256 first password
      = .ok { first with password := response } := by
  obtain ⟨⟨hunion, husername, hmyId, hos⟩, hstate, hhash, hrequest⟩ := h
  obtain ⟨hash, hhash⟩ := Option.isSome_iff_exists.mp hhash
  have hresponse : ∃ response, ViewerSession.passwordField sha256 hash password
      = .ok response := by
    match password, hpassword with
    | none, _ => exact ⟨[], rfl⟩
    | some [], h => exact absurd rfl h
    | some (_ :: _), _ => exact ⟨_, rfl⟩
  obtain ⟨response, hresponse⟩ := hresponse
  refine ⟨response, ?_⟩
  unfold ViewerSession.checkLogin
  have hallowed : ¬ (session.state ≠ .awaitLogin ∧ session.state ≠ .awaitApproval ∧
      session.state ≠ .await2Fa) := by
    rintro ⟨h1, h2, h3⟩
    rcases hstate with h | h | h
    · exact h1 h
    · exact h2 h
    · exact h3 h
  have hsame : ¬ session.request.any (fun request => !ViewerSession.sameIdentity request first)
      = true := by
    rw [Option.any_eq_true]
    rintro ⟨request, hsome, hdiffers⟩
    rw [hrequest request hsome] at hdiffers
    cases hdiffers
  rw [if_neg hallowed, hhash]
  dsimp only
  rw [if_neg (by simp [hunion, husername, hmyId]), if_neg (by simp [hos.1, hos.2]), if_neg hsame,
    hresponse]

/-- The send of a session ends: complete, or without the connection. -/
theorem sendThen_ends {session : ViewerSession} {message : Message} {answer : SendAnswer}
    {next : ViewerSession → ViewerSession} :
    let turn := ViewerSession.orTerminate
      (session.sendThen env.box env.proto message answer next ())
    (turn.result = some (.ok ()) ∧ ∃ io, turn.session = next { session with io }) ∨
      turn.result ≠ some (.ok ()) ∧ turn.session.io.wire = none := by
  dsimp only
  unfold ViewerSession.sendThen
  rcases hsend : session.io.send env.box env.proto message answer with ⟨io, - | ⟨e | ⟨⟩⟩⟩
  · exact .inr ⟨fun h => (by cases h), SessionIo.wire_of_dropped hsend⟩
  · exact .inr ⟨fun h => (by cases h), rfl⟩
  · exact .inl ⟨rfl, io, rfl⟩

/-- After a send: the loop goes on, or the attempt has lost its connection. -/
theorem afterSend_ends {a : Attempt} {turn : ViewerTurn Unit} {stage : Stage} {phase : Phase}
    (hturn : turn.result ≠ some (.ok ()) ∧ turn.session.io.wire = none) :
    (a.afterSend turn stage phase).attempt.isEnded = true
      ∧ (a.afterSend turn stage phase).attempt.session.io.wire = none := by
  obtain ⟨hresult, hwire⟩ := hturn
  unfold Attempt.afterSend
  dsimp only
  split
  · exact ⟨rfl, hwire⟩
  · exact ⟨rfl, hwire⟩
  · next h => exact absurd h hresult

/-- **A login goes out, or the connection is gone.** -/
theorem afterLogin {a : Attempt} {first : LoginRequest} {password : Option Bytes}
    {sending : Sending} {awaiting : Awaiting} {phase : Phase} (h : Open a.session first)
    (hpassword : password ≠ some []) (hawaiting : awaiting ≠ .secondFactor) :
    let turn := a.afterSend (a.login env first password sending) (.looping (some first) awaiting)
      phase
    Ready turn.attempt first awaiting ∨
      turn.attempt.isEnded = true ∧ turn.attempt.session.io.wire = none := by
  obtain ⟨response, hcheck⟩ := @Open.checkLogin _ _ _ env.sha256 h hpassword
  dsimp only
  unfold Attempt.login ViewerSession.login
  split
  · exact .inr (afterSend_ends ⟨fun h => (by cases h), rfl⟩)
  rw [hcheck]
  dsimp only
  rcases sendThen_ends with ⟨hresult, io, hsession⟩ | hends
  · refine .inl ?_
    unfold Attempt.afterSend
    rw [hresult]
    dsimp only
    refine ⟨rfl, ⟨h.plain, ?_, ?_, ?_⟩, ?_, fun hfactor => absurd hfactor hawaiting⟩
    · rw [hsession]
      exact .inl rfl
    · rw [hsession]
      exact h.hash
    · rw [hsession]
      intro request hrequest
      cases hrequest
      simp [ViewerSession.sameIdentity]
    · rw [hsession]
      rfl
  · exact .inr (afterSend_ends hends)

theorem afterCode {a : Attempt} {first : LoginRequest} {code : String} {sending : Sending}
    {phase : Phase} (h : Ready a first .secondFactor) :
    let turn := a.afterSend (a.sendSecondFactor env code sending) (.looping (some first) .network)
      phase
    Ready turn.attempt first .network ∨
      turn.attempt.isEnded = true ∧ turn.attempt.session.io.wire = none := by
  dsimp only
  unfold Attempt.sendSecondFactor ViewerSession.sendSecondFactor
  split
  · exact .inr (afterSend_ends ⟨fun h => (by cases h), rfl⟩)
  rw [if_neg (not_not.mpr (h.factor rfl))]
  rcases sendThen_ends with ⟨hresult, io, hsession⟩ | hends
  · refine .inl ?_
    unfold Attempt.afterSend
    rw [hresult]
    dsimp only
    obtain ⟨-, ⟨hplain, hstate, hhash, hrequest⟩, hrequested, -⟩ := h
    refine ⟨rfl, ⟨hplain, ?_, ?_, ?_⟩, ?_, fun hfactor => Awaiting.noConfusion hfactor⟩
    all_goals rw [hsession]
    · exact hstate
    · exact hhash
    · exact hrequest
    · exact hrequested
  · exact .inr (afterSend_ends hends)

/-! #### Commands -/

theorem utf8_ne_nil {s : String} (h : s.isEmpty = false) : utf8 s ≠ [] := by
  intro hnil
  have hsize : s.utf8ByteSize = 0 := by
    rw [← length_utf8, hnil]
    rfl
  rw [String.utf8ByteSize_eq_zero_iff] at hsize
  subst hsize
  cases h

/-- What is in the queue was put there by a call. -/
def FromUser (a : Attempt) : Prop :=
  ∀ q ∈ a.queue, ∃ call : UserCall, call.command = .ok q.command

theorem password_of_call {call : UserCall} {password : Bytes}
    (h : call.command = .ok (.password password)) : password ≠ [] := by
  cases call with
  | submitPassword s =>
    simp only [UserCall.command] at h
    split at h
    · cases h
    · next hs =>
      cases h
      exact utf8_ne_nil (Bool.eq_false_iff.mpr fun hempty => hs (.inl hempty))
  | submitSecondFactor s =>
    simp only [UserCall.command] at h
    split at h <;> cases h
  | continueInsecure => cases h

theorem code_of_call {call : UserCall} {code : Bytes}
    (h : call.command = .ok (.secondFactor code)) :
    ∃ s, String.fromUTF8? ⟨code.toArray⟩ = some s := by
  cases call with
  | submitPassword s =>
    simp only [UserCall.command] at h
    split at h <;> cases h
  | submitSecondFactor s =>
    simp only [UserCall.command] at h
    split at h
    · cases h
    · cases h
      exact ⟨s, fromUTF8_eq_some_iff.mpr rfl⟩
  | continueInsecure => cases h

theorem afterSend_queue (a : Attempt) (turn : ViewerTurn Unit) (stage : Stage) (phase : Phase) :
    (a.afterSend turn stage phase).attempt.queue = a.queue := by
  unfold Attempt.afterSend
  dsimp only
  split <;> rfl

theorem onCommand_queue (a : Attempt) (request : Option LoginRequest) (awaiting : Awaiting)
    (command : AuthCommand) (sending : Sending) :
    (a.onCommand env request awaiting command sending).attempt.queue = a.queue := by
  unfold Attempt.onCommand
  split
  · split
    · rfl
    · exact afterSend_queue _ _ _ _
  · split
    · rfl
    · exact afterSend_queue _ _ _ _
  · rfl

theorem onEvent_queue (a : Attempt) (request : Option LoginRequest) (awaiting : Awaiting)
    (event : ViewerEvent) (sessionId : Nat) (sending : Sending) :
    (a.onEvent env request awaiting event sessionId sending).attempt.queue = a.queue := by
  unfold Attempt.onEvent
  split
  · exact afterSend_queue _ _ _ _
  · split <;> rfl
  · split_ifs <;> rfl
  all_goals rfl

theorem onNetwork_queue (a : Attempt) (request : Option LoginRequest) (awaiting : Awaiting)
    (arrives : Attempt.Arrives) :
    (a.onNetwork env request awaiting arrives).attempt.queue = a.queue := by
  unfold Attempt.onNetwork
  dsimp only
  split
  · rfl
  · rfl
  · exact onEvent_queue _ _ _ _ _ _

theorem confirm_queue (a : Attempt) (command : AuthCommand) :
    (a.confirm command).queue = a.queue := by
  unfold Attempt.confirm
  split <;> rfl

theorem fromUser_step {a a' : Attempt} {l : Attempt.Label} (ha : FromUser a)
    (h : Attempt.Step env a l a') : FromUser a' := by
  cases h with
  | call call =>
    unfold Attempt.call
    split
    · exact ha
    next command hcommand =>
    unfold Attempt.trySend
    split
    · exact ha
    · split
      · exact ha
      · intro q hq
        rcases List.mem_append.mp hq with hq | hq
        · exact ha q hq
        · obtain rfl := List.mem_singleton.mp hq
          exact ⟨call, hcommand⟩
  | confirm _ hqueue =>
    intro q hq
    rw [confirm_queue] at hq
    exact ha q (hqueue ▸ List.mem_cons_of_mem _ hq)
  | command _ _ _ hqueue hturn =>
    intro q hq
    rw [hturn, onCommand_queue] at hq
    exact ha q (hqueue ▸ List.mem_cons_of_mem _ hq)
  | network _ _ hturn =>
    intro q hq
    rw [hturn, onNetwork_queue] at hq
    exact ha q hq
  | cancel => exact ha
  | hangUp => exact ha

/-- **What a command leaves of an attempt that can go on.** -/
theorem onCommand_ready {a : Attempt} {first : LoginRequest} {awaiting : Awaiting}
    {call : UserCall} {command : AuthCommand} {sending : Sending} (h : Ready a first awaiting)
    (hcommand : call.command = .ok command) :
    let turn := a.onCommand env (some first) awaiting command sending
    (∃ awaiting', Ready turn.attempt first awaiting') ∨
      turn.attempt.isEnded = true ∧ turn.attempt.session.io.wire = none := by
  dsimp only
  cases hawaits : a.awaits command with
  | false =>
    -- not awaited: dropped, and nothing changes
    rw [Attempt.onCommand_dropped h.stage hawaits]
    exact .inl ⟨awaiting, h⟩
  | true =>
    -- awaited, so it is the password or the code
    unfold Attempt.awaits at hawaits
    rw [h.stage] at hawaits
    cases command with
    | password password =>
      cases awaiting with
      | password =>
        have hpassword : some password ≠ some [] := fun h =>
          password_of_call hcommand (Option.some.inj h)
        have hnetwork : Awaiting.network ≠ .secondFactor := by decide
        rcases afterLogin h.isOpen hpassword hnetwork with hready | hends
        · exact .inl ⟨_, hready⟩
        · exact .inr hends
      | _ => cases hawaits
    | secondFactor code =>
      cases awaiting with
      | secondFactor =>
        obtain ⟨s, hs⟩ := code_of_call hcommand
        unfold Attempt.onCommand
        dsimp only
        rw [hs]
        rcases afterCode h with hready | hends
        · exact .inl ⟨_, hready⟩
        · exact .inr hends
      | _ => cases hawaits
    | continueInsecure => cases awaiting <;> cases hawaits

/-! ### Where the two sides are -/

theorem isEnded_iff {a : Attempt} : a.isEnded = true ↔ ∃ result, a.stage = .ended result := by
  unfold Attempt.isEnded
  cases a.stage <;> simp

theorem confirming_unended {a : Attempt} (h : a.stage = .confirming) : ¬ a.isEnded = true := by
  simp [Attempt.isEnded, h]

theorem looping_unended {a : Attempt} {request : Option LoginRequest} {awaiting : Awaiting}
    (h : a.stage = .looping request awaiting) : ¬ a.isEnded = true := by
  simp [Attempt.isEnded, h]

theorem Ready.unended {a : Attempt} {first : LoginRequest} {awaiting : Awaiting}
    (h : Ready a first awaiting) : ¬ a.isEnded = true := looping_unended h.stage

/-- A call changes the queue only. -/
theorem call_fst (a : Attempt) (call : UserCall) :
    (a.call call).1.stage = a.stage ∧ (a.call call).1.session = a.session := by
  unfold Attempt.call
  split
  · exact ⟨rfl, rfl⟩
  · unfold Attempt.trySend
    split
    · exact ⟨rfl, rfl⟩
    · split
      · exact ⟨rfl, rfl⟩
      · exact ⟨rfl, rfl⟩

/-- A host starts with the challenge that was drawn. -/
theorem fromEstablished_challenge {box : SecretBox} {proto : Protobuf Message} {wire : Established}
    {config : HostAuthConfig} {challenge : String} {answer : SendAnswer} {session : HostSession}
    (h : HostSession.fromEstablished box proto wire config challenge answer = some (.ok session)) :
    session.auth.hash.challenge = challenge := by
  unfold HostSession.fromEstablished at h
  rcases hauth : HostAuthentication.new config challenge with e | auth
  · rw [hauth] at h
    cases h
  rw [hauth] at h
  dsimp only at h
  split at h
  · cases h
  · cases h
  · cases h
    unfold HostAuthentication.new at hauth
    split_ifs at hauth
    cases hauth
    rfl

/-- What is in flight was sent before the host stopped waiting, or after it. -/
structure Flow (s : Pair) : Prop where
  order : s.toViewer.Pairwise fun x y => y.live = true → x.live = true
  last : ∀ x ∈ s.toViewer, x.live = false → ¬ s.host.auth.Live

/-- The viewer has not heard the challenge yet. -/
structure Greeted (s : Pair) : Prop where
  stage : s.viewer.stage = .confirming ∨ s.viewer.stage = .looping none .network
  state : s.viewer.session.state = .awaitHash
  request : s.viewer.session.request = none
  host : s.host.auth.state = .awaitLogin ∨ ¬ s.host.auth.Live
  toHost : s.toHost = []
  toViewer : ∃ (hash : Hash) (rest : List InFlight), hash.challenge ≠ "" ∧
    s.toViewer = ⟨.of (.hash hash), true⟩ :: rest ∧ ∀ x ∈ rest, x.live = false

/-- A greeted viewer that reads the network has asked for nothing yet. -/
theorem Greeted.looping (h : Greeted s) {request : Option LoginRequest} {awaiting : Awaiting}
    (hstage : s.viewer.stage = .looping request awaiting) :
    request = none ∧ awaiting = .network := by
  rcases h.stage with hconfirming | hlooping
  · cases hstage.symm.trans hconfirming
  · cases hstage.symm.trans hlooping
    exact ⟨rfl, rfl⟩

/-- Where the two sides are. -/
inductive Stand (P : String → Prop) (s : Pair) : Prop
  | ended (h : s.viewer.isEnded = true)
  | finished (hhost : ¬ s.host.auth.Live) (hdead : ∀ x ∈ s.toViewer, x.live = false)
  | greeted (h : Greeted s)
  | talking (first : LoginRequest) (awaiting : Awaiting) (hready : Ready s.viewer first awaiting)
      (hbenign : ∀ x ∈ s.toViewer, x.live = true → Benign P x.message)

/-- The invariant of a run. -/
structure Sync (P : String → Prop) (s : Pair) : Prop where
  flow : Flow s
  user : FromUser s.viewer
  stand : Stand P s

section Steps

variable {P : String → Prop} {s s' : Pair}

/-! #### Turns of the host -/

theorem mem_sentBy {α : Type} {turn : HostTurn α} {x : InFlight} (h : x ∈ sentBy turn) :
    x.message ∈ hostSent turn.records ∧ x.live = decide turn.session.auth.Live := by
  obtain ⟨message, hmessage, rfl⟩ := List.mem_map.mp h
  exact ⟨hmessage, rfl⟩

/-- A turn of the host goes on with what is in flight. -/
theorem Flow.host_turn {α : Type} {turn : HostTurn α} {toHost : List Message} (h : Flow s)
    (htame : Tame P s.host.auth turn) :
    Flow { s with
      host := turn.session
      toViewer := s.toViewer ++ sentBy turn
      toHost := toHost } := by
  by_cases hlive : turn.session.auth.Live
  · have hall : ∀ x ∈ s.toViewer ++ sentBy turn, x.live = true := by
      intro x hx
      rcases List.mem_append.mp hx with hx | hx
      · by_contra hdead
        exact h.last x hx (Bool.eq_false_iff.mpr hdead) (htame hlive).1
      · rw [(mem_sentBy hx).2]
        exact decide_eq_true hlive
    refine ⟨List.pairwise_of_forall_mem_list fun x hx _ _ _ => hall x hx, fun x hx hdead => ?_⟩
    rw [hall x hx] at hdead
    cases hdead
  · have hnew : ∀ x ∈ sentBy turn, x.live = false := by
      intro x hx
      rw [(mem_sentBy hx).2]
      exact decide_eq_false hlive
    refine ⟨List.pairwise_append.mpr ⟨h.order, ?_, ?_⟩, fun _ _ _ => hlive⟩
    · exact List.pairwise_of_forall_mem_list fun _ _ y hy hy' => by
        rw [hnew y hy] at hy'
        cases hy'
    · intro x hx y hy hy'
      rw [hnew y hy] at hy'
      cases hy'

/-- So does where the sides are, unless the viewer has not heard the challenge. -/
theorem Stand.host_turn {α : Type} {turn : HostTurn α} {toHost : List Message} (h : Stand P s)
    (htame : Tame P s.host.auth turn)
    (hgreeted : Greeted s → toHost = [] ∧
      (¬ turn.session.auth.Live ∨
        turn.session.auth = s.host.auth ∧ hostSent turn.records = [])) :
    Stand P { s with
      host := turn.session
      toViewer := s.toViewer ++ sentBy turn
      toHost := toHost } := by
  -- what a dead host sends is not live
  have hdead : ¬ turn.session.auth.Live → ∀ x ∈ sentBy turn, x.live = false := by
    intro hlive x hx
    rw [(mem_sentBy hx).2]
    exact decide_eq_false hlive
  cases h with
  | ended hended => exact .ended hended
  | finished hhost hflight =>
    have hafter : ¬ turn.session.auth.Live := fun hlive => hhost (htame hlive).1
    refine .finished hafter fun x hx => ?_
    rcases List.mem_append.mp hx with hx | hx
    · exact hflight x hx
    · exact hdead hafter x hx
  | greeted h =>
    -- the challenge is still in flight; the host adds nothing live to it
    obtain ⟨hash, rest, hchallenge, hflight, hrest⟩ := h.toViewer
    obtain ⟨htoHost, hturn⟩ := hgreeted h
    have hnew : ∀ x ∈ sentBy turn, x.live = false := by
      rcases hturn with hlive | ⟨-, hsent⟩
      · exact hdead hlive
      · intro x hx
        have := (mem_sentBy hx).1
        rw [hsent] at this
        cases this
    refine .greeted
      { stage := h.stage, state := h.state, request := h.request, toHost := htoHost
        host := ?_
        toViewer := ⟨hash, rest ++ sentBy turn, hchallenge, ?_, ?_⟩ }
    · rcases hturn with hlive | ⟨hauth, -⟩
      · exact .inr hlive
      · show turn.session.auth.state = .awaitLogin ∨ ¬ turn.session.auth.Live
        rw [hauth]
        exact h.host
    · show s.toViewer ++ sentBy turn = _
      rw [hflight]
      rfl
    · intro x hx
      rcases List.mem_append.mp hx with hx | hx
      · exact hrest x hx
      · exact hnew x hx
  | talking first awaiting hready hbenign =>
    -- what a live host sends is benign, for it is tame
    refine .talking first awaiting hready fun x hx hlive => ?_
    rcases List.mem_append.mp hx with hx | hx
    · exact hbenign x hx hlive
    · obtain ⟨hsent, hx⟩ := mem_sentBy hx
      rw [hx] at hlive
      exact (htame (of_decide_eq_true hlive)).2 x.message hsent

/-! #### Turns of the viewer -/

theorem Stand.viewer_step {label : Attempt.Label} {attempt : Attempt} (h : Stand P s)
    (huser : FromUser s.viewer) (hstep : Attempt.Step env s.viewer label attempt)
    (hlabel : label.isNetwork = false) :
    Stand P { s with viewer := attempt, toHost := s.toHost ++ viewerSent label.records } := by
  cases hstep with
  | call call =>
    -- a call of the user fills the queue, which no stand looks at
    obtain ⟨hstage, hsession⟩ := call_fst s.viewer call
    cases h with
    | ended hended =>
      obtain ⟨result, hresult⟩ := isEnded_iff.mp hended
      exact .ended (isEnded_iff.mpr ⟨result, hstage.trans hresult⟩)
    | finished hhost hdead => exact .finished hhost hdead
    | greeted h =>
      refine .greeted
        { host := h.host, toViewer := h.toViewer
          stage := ?_
          state := ?_
          request := ?_
          toHost := ?_ }
      · show (s.viewer.call call).1.stage = _ ∨ (s.viewer.call call).1.stage = _
        rw [hstage]
        exact h.stage
      · show (s.viewer.call call).1.session.state = _
        rw [hsession]
        exact h.state
      · show (s.viewer.call call).1.session.request = _
        rw [hsession]
        exact h.request
      · show s.toHost ++ [] = []
        rw [h.toHost]
        rfl
    | talking first awaiting hready hbenign =>
      refine .talking first awaiting ⟨hstage.trans hready.stage, ?_, ?_, ?_⟩ hbenign
      · show Open (s.viewer.call call).1.session first
        rw [hsession]
        exact hready.isOpen
      · show (s.viewer.call call).1.session.request.isSome = true
        rw [hsession]
        exact hready.requested
      · intro hfactor
        show (s.viewer.call call).1.session.state = _
        rw [hsession]
        exact hready.factor hfactor
  | @confirm queued rest hstage hqueue =>
    -- only before the login: no host was asked yet
    cases h with
    | ended hended => exact absurd hended (confirming_unended hstage)
    | finished hhost hdead => exact .finished hhost hdead
    | greeted h =>
      have htoHost : s.toHost ++ [] = [] := by
        rw [h.toHost]
        rfl
      cases hcommand : queued.command with
      -- the peer is not yet spoken to, whatever the user says
      | continueInsecure allow =>
        cases allow with
        | true =>
          exact .greeted
            { host := h.host, toViewer := h.toViewer, stage := .inr rfl, state := h.state,
              request := h.request, toHost := htoHost }
        | false => exact .ended rfl
      | password | secondFactor =>
        exact .greeted
          { host := h.host, toViewer := h.toViewer, stage := .inl hstage, state := h.state,
            request := h.request, toHost := htoHost }
    | talking first awaiting hready hbenign =>
      have := hstage.symm.trans hready.stage
      cases this
  | @command request awaiting queued rest turn sending hstage hawaiting hqueue hturn =>
    -- only while a factor is awaited, so the host was greeted before
    cases h with
    | ended hended => exact absurd hended (looping_unended hstage)
    | finished hhost hdead => exact .finished hhost hdead
    | greeted h =>
      exact absurd (h.looping hstage).2 hawaiting
    | talking first awaiting' hready hbenign =>
      have hboth := hstage.symm.trans hready.stage
      cases hboth
      obtain ⟨call, hcall⟩ := huser queued (hqueue ▸ List.mem_cons_self)
      subst hturn
      have hpopped : Ready { s.viewer with queue := rest } first awaiting :=
        ⟨hready.stage, hready.isOpen, hready.requested, hready.factor⟩
      rcases @onCommand_ready env _ _ _ _ _ sending hpopped hcall with ⟨next, hnext⟩ | ⟨hended, -⟩
      · exact .talking first next hnext hbenign
      · exact .ended hended
  | network => cases hlabel
  | cancel => exact .ended rfl
  | hangUp => exact .ended rfl

/-! #### Records that the viewer hears -/

/-- A turn takes one record at most. -/
theorem taken_cases {taken : List InFlight} {heard : Option Message}
    (h : taken.map (·.message) = heard.toList) :
    taken = [] ∧ heard = none ∨ ∃ x, taken = [x] ∧ heard = some x.message := by
  match taken, heard, h with
  | [], none, _ => exact .inl ⟨rfl, rfl⟩
  | [x], some m, h =>
    simp only [List.map_cons, List.map_nil, Option.toList_some, List.cons.injEq, and_true] at h
    exact .inr ⟨x, rfl, congrArg some h.symm⟩
  | _ :: _ :: _, none, h | _ :: _ :: _, some _, h | [], some _, h | [_], none, h => simp at h

/-- The attempt is over, and the connection is gone. -/
def Lost (a : Attempt) : Prop := a.isEnded = true ∧ a.session.io.wire = none

/-- **The challenge is answered**, with the user's password or without one. -/
theorem hears_challenge {a : Attempt} {arrives : Attempt.Arrives} {hash : Hash}
    (hsetup : Accepted env.setup) (hstate : a.session.state = .awaitHash)
    (hrequest : a.session.request = none) (hchallenge : hash.challenge ≠ "")
    (hheard : viewerHeard env a.session arrives.incoming = some (.of (.hash hash))) :
    (∃ first, Ready (a.onNetwork env none .network arrives).attempt first .network)
      ∨ Lost (a.onNetwork env none .network arrives).attempt := by
  obtain ⟨io, hrecv⟩ := @recv_done env a.session arrives.incoming arrives.echo _
    (fun io => { a.session with io, hash := some hash, state := .awaitLogin }) .challenge hheard
    (fun io => dispatch_hash hstate hchallenge) (fun io h => ViewerState.noConfusion h)
  let first := loginRequest env.setup env.decoders arrives.sessionId
  let heard : Attempt :=
    { a with session := { a.session with io, hash := some hash, state := .awaitLogin } }
  have hopen : Open heard.session first :=
    { plain := ⟨rfl, hsetup.username.1, hsetup.localId.1, rfl, rfl⟩
      state := .inl rfl
      hash := rfl
      request := by
        intro request h
        rw [show heard.session.request = none from hrequest] at h
        cases h }
  have hpassword : (if env.setup.password.isEmpty then none else some env.setup.password)
      ≠ some [] := by
    cases env.setup.password with
    | nil => simp
    | cons => exact fun h => List.cons_ne_nil _ _ (Option.some.inj h)
  unfold Attempt.onNetwork Attempt.received
  rw [hrecv]
  rcases @afterLogin env heard first _ arrives.sending .network heard.phase hopen hpassword
    (fun h => Awaiting.noConfusion h) with hready | hlost
  · exact .inl ⟨first, hready⟩
  · exact .inr hlost

/-- A probe changes nothing. -/
theorem hears_probe {a : Attempt} {first : LoginRequest} {awaiting : Awaiting}
    {arrives : Attempt.Arrives} {probe : TestDelay} (h : Ready a first awaiting)
    (hclient : probe.fromClient = true)
    (hheard : viewerHeard env a.session arrives.incoming = some (.of (.testDelay probe))) :
    Ready (a.onNetwork env (some first) awaiting arrives).attempt first awaiting := by
  obtain ⟨-, hactive, hclosed⟩ := h.isOpen.state.ne
  obtain ⟨io, hrecv⟩ := @recv_done env a.session arrives.incoming arrives.echo _
    (fun io => { a.session with io }) .progress hheard
    (fun io => dispatch_probe hactive hclient) (fun io => hclosed)
  unfold Attempt.onNetwork Attempt.received
  rw [hrecv]
  exact ⟨h.stage, ⟨h.isOpen.plain, h.isOpen.state, h.isOpen.hash, h.isOpen.request⟩, h.requested,
    h.factor⟩

/-- What the loop awaits after an error. -/
def awaitsAfter (text : String) : Awaiting :=
  if text = "No Password Access" then .network
  else if text = "Wrong Password" then .password
  else .secondFactor

/-- Of an error the session takes over its state. -/
theorem hears_error {a : Attempt} {first : LoginRequest} {awaiting : Awaiting}
    {arrives : Attempt.Arrives} {text : String} (h : Ready a first awaiting)
    (hheard : viewerHeard env a.session arrives.incoming = some (HostSession.loginError text)) :
    ∃ io, a.onNetwork env (some first) awaiting arrives
      = let next := Attempt.onEvent env
          { a with session := { a.session with io, state := waitsFor text } } (some first)
          awaiting (.loginError text) arrives.sessionId arrives.sending
        ⟨next.attempt, .received (HostSession.loginError text) :: next.records⟩ := by
  obtain ⟨-, hactive, -⟩ := h.isOpen.state.ne
  obtain ⟨io, hrecv⟩ := @recv_done env a.session arrives.incoming arrives.echo _
    (fun io => { a.session with io, state := waitsFor text }) (.loginError text) hheard
    (fun io => dispatch_loginError hactive h.requested)
    (fun io => (waiting_waitsFor text).ne.2.2)
  refine ⟨io, ?_⟩
  unfold Attempt.onNetwork Attempt.received
  rw [hrecv]
  rfl

/-- **On an error that the viewer knows it goes on waiting.** -/
theorem hears_known {a : Attempt} {first : LoginRequest} {awaiting : Awaiting}
    {arrives : Attempt.Arrives} {text : String} (h : Ready a first awaiting) (hknown : Known text)
    (hheard : viewerHeard env a.session arrives.incoming = some (HostSession.loginError text)) :
    Ready (a.onNetwork env (some first) awaiting arrives).attempt first (awaitsAfter text)
      ∧ (awaitsAfter text = .network →
        (a.onNetwork env (some first) awaiting arrives).attempt.phase = .awaitingApproval) := by
  obtain ⟨io, hturn⟩ := hears_error h hheard
  rw [hturn]
  have hopen : Open { a.session with io, state := waitsFor text } first :=
    ⟨h.isOpen.plain, waiting_waitsFor text, h.isOpen.hash, h.isOpen.request⟩
  have hrequested := h.requested
  rcases hknown with rfl | rfl | rfl | rfl
  · exact ⟨⟨rfl, hopen, hrequested, fun h => Awaiting.noConfusion h⟩, fun _ => rfl⟩
  · exact ⟨⟨rfl, hopen, hrequested, fun h => Awaiting.noConfusion h⟩,
      fun h => Awaiting.noConfusion h⟩
  · exact ⟨⟨rfl, hopen, hrequested, fun _ => rfl⟩, fun h => Awaiting.noConfusion h⟩
  · exact ⟨⟨rfl, hopen, hrequested, fun _ => rfl⟩, fun h => Awaiting.noConfusion h⟩

/-- On another one it ends. -/
theorem hears_unknown {a : Attempt} {first : LoginRequest} {awaiting : Awaiting}
    {arrives : Attempt.Arrives} {text : String} (h : Ready a first awaiting)
    (hunknown : Unknown text)
    (hheard : viewerHeard env a.session arrives.incoming = some (HostSession.loginError text)) :
    (a.onNetwork env (some first) awaiting arrives).attempt.isEnded = true := by
  obtain ⟨io, hturn⟩ := hears_error h hheard
  rw [hturn]
  rcases hunknown with rfl | rfl <;> rfl

theorem Flow.tail {x : InFlight} {rest : List InFlight} {viewer : Attempt} {toHost : List Message}
    (h : Flow s) (hflight : s.toViewer = x :: rest) :
    Flow { s with viewer, toViewer := rest, toHost } := by
  obtain ⟨horder, hlast⟩ := h
  rw [hflight] at horder hlast
  exact ⟨(List.pairwise_cons.mp horder).2, fun y hy => hlast y (List.mem_cons_of_mem _ hy)⟩

/-- Behind a record of a host that has stopped waiting there are only such. -/
theorem Flow.after_last {x : InFlight} {rest : List InFlight} {viewer : Attempt} {toHost : List Message}
    (h : Flow s) (hflight : s.toViewer = x :: rest) (hdead : x.live = false) :
    Stand P { s with viewer, toViewer := rest, toHost } := by
  obtain ⟨horder, hlast⟩ := h
  rw [hflight] at horder hlast
  refine .finished (hlast x List.mem_cons_self hdead) fun y hy => ?_
  by_contra hlive
  have := (List.pairwise_cons.mp horder).1 y hy (Bool.not_eq_false _ ▸ hlive)
  rw [hdead] at this
  cases this

/-- What a turn on the network does to where the sides are. -/
theorem Stand.hears_step {request : Option LoginRequest} {awaiting : Awaiting} {turn : Turn}
    {taken rest : List InFlight} {arrives : Attempt.Arrives} (h : Stand P s) (hflow : Flow s)
    (hP : ∀ text, P text → Known text ∨ Unknown text) (hsetup : Accepted env.setup)
    (hstage : s.viewer.stage = .looping request awaiting)
    (hturn : turn = s.viewer.onNetwork env request awaiting arrives)
    (hflight : s.toViewer = taken ++ rest)
    (htaken : taken.map (·.message)
      = (viewerHeard env s.viewer.session arrives.incoming).toList) :
    Stand P { s with
      viewer := turn.attempt
      toViewer := rest
      toHost := s.toHost ++ viewerSent turn.records } := by
  subst hturn
  -- nothing heard ends the attempt; else it hears the first in flight
  rcases taken_cases htaken with ⟨-, hheard⟩ | ⟨x, rfl, hheard⟩
  · exact .ended (onNetwork_unheard hheard)
  cases hlive : x.live with
  | false => exact hflow.after_last hflight hlive
  | true =>
    cases h with
    | ended hended => exact absurd hended (looping_unended hstage)
    | finished hhost hdead =>
      have := hdead x (by rw [hflight]; exact List.mem_cons_self)
      rw [hlive] at this
      cases this
    -- the first in flight is the challenge
    | greeted h =>
      obtain ⟨hash, dead, hchallenge, hhello, hdead⟩ := h.toViewer
      have hhead := hflight.symm.trans hhello
      cases hhead
      obtain ⟨rfl, rfl⟩ := h.looping hstage
      rcases hears_challenge hsetup h.state h.request hchallenge hheard with
        ⟨first, hready⟩ | ⟨hended, -⟩
      · refine .talking first .network hready fun y hy hlive => ?_
        rw [hdead y hy] at hlive
        cases hlive
      · exact .ended hended
    | talking first awaiting' hready hbenign =>
      -- a benign message is a text of the host or a probe
      have hboth := hstage.symm.trans hready.stage
      cases hboth
      have hrest : ∀ y ∈ rest, y.live = true → Benign P y.message := fun y hy =>
        hbenign y (by rw [hflight]; exact List.mem_cons_of_mem _ hy)
      rcases hbenign x (by rw [hflight]; exact List.mem_cons_self) hlive with
        ⟨text, htext, hmessage⟩ | ⟨probe, hclient, hmessage⟩
      · rw [hmessage] at hheard
        rcases hP text htext with hknown | hunknown
        · exact .talking first _ (hears_known hready hknown hheard).1 hrest
        · exact .ended (hears_unknown hready hunknown hheard)
      · rw [hmessage] at hheard
        exact .talking first _ (hears_probe hready hclient hheard) hrest

/-! #### Steps of the pair -/

/-- What the host says at a step, where `P` allows it. -/
def Says (P : String → Prop) (s : Pair) (env : Fixtures) : Label → Prop
  | .host heard answers =>
    (∀ message request text, heard = some message →
      message.union = some (.loginRequest request) →
      (s.host.auth.login env.sha256 answers request).action = .error text false → P text) ∧
    (∀ message code text, heard = some message → message.union = some (.auth2fa code) →
      (s.host.auth.secondFactor answers code).action = .error text false → P text)
  | .viewer _ | .hears _ | .hostCloses => True

/-- **A step keeps the sides together.** -/
theorem sync_step {l : Label} (h : Sync P s) (hP : ∀ text, P text → Known text ∨ Unknown text)
    (hknown : ∀ text, Known text → P text) (hsetup : Accepted env.setup) (hspoken : Says P s env l)
    (hstep : Step env s l s') : Sync P s' := by
  obtain ⟨hflow, huser, hstand⟩ := h
  have happroval : P "No Password Access" := hknown _ (.inl rfl)
  cases hstep with
  | viewer hstep hlabel =>
    exact ⟨⟨hflow.order, hflow.last⟩, fromUser_step huser hstep,
      hstand.viewer_step huser hstep hlabel⟩
  | @hears request awaiting turn taken rest arrives hstage hturn hflight htaken =>
    refine ⟨?_, ?_, hstand.hears_step hflow hP hsetup hstage hturn hflight htaken⟩
    · rcases taken_cases htaken with ⟨rfl, -⟩ | ⟨x, rfl, -⟩
      · obtain rfl : s.toViewer = rest := hflight
        exact ⟨hflow.order, hflow.last⟩
      · exact hflow.tail hflight
    · intro q hq
      have hqueue : turn.attempt.queue = s.viewer.queue := by
        rw [hturn]
        exact onNetwork_queue _ _ _ _
      exact huser q (hqueue ▸ hq)
  | @host turn rest waited answers expired sends hallow hflight hturn =>
    -- before its first login the host has heard nothing
    have htame : Tame P s.host.auth turn := by
      rw [hturn]
      exact recvNotified_tame s.host waited hspoken.1 hspoken.2
        (fun text h => hknown text (told_pollApproval h)) happroval
    refine ⟨hflow.host_turn htame, huser, hstand.host_turn htame fun hgreeted => ?_⟩
    rw [hgreeted.toHost] at hflight
    obtain ⟨hnone, hrest⟩ := List.append_eq_nil_iff.mp hflight.symm
    have hheard : hostHeard env s.host waited = none := by
      cases hh : hostHeard env s.host waited with
      | none => rfl
      | some =>
        rw [hh] at hnone
        cases hnone
    refine ⟨hrest, ?_⟩
    rcases hgreeted.host with hstate | hdead
    · rw [hturn]
      exact recvNotified_idle s.host waited hstate hheard
    · exact .inl fun hlive => hdead (htame hlive).1
  | @hostCloses turn sends hturn =>
    -- a host that closed is dead
    have hdead : ¬ turn.session.auth.Live := by
      rw [hturn]
      exact close_not_live sends
    have htame : Tame P s.host.auth turn := .of_dead hdead
    exact ⟨hflow.host_turn htame, huser,
      hstand.host_turn htame fun hgreeted => ⟨hgreeted.toHost, .inl hdead⟩⟩

theorem sync_start {s : Pair} (h : Starts env s) : Sync P s := by
  obtain ⟨wire, hviewer⟩ := h.viewer
  obtain ⟨wire', config, challenge, hlength, hhost⟩ := h.host
  have hnew := HostSession.fromEstablished_new hhost
  refine
    { flow := ⟨?_, ?_⟩
      user := ?_
      stand := .greeted
        { stage := ?_, state := ?_, request := ?_, host := .inl hnew.2.1, toHost := h.toHost
          toViewer := ⟨s.host.auth.hash, [], ?_, h.toViewer, ?_⟩ } }
  · rw [h.toViewer]
    exact List.pairwise_singleton _ _
  · intro x hx hdead
    rw [h.toViewer] at hx
    obtain rfl := List.mem_singleton.mp hx
    cases hdead
  · intro q hq
    rw [hviewer] at hq
    cases hq
  · rw [hviewer]
    unfold Attempt.start
    dsimp only
    split
    · exact .inl rfl
    · exact .inr rfl
  · rw [hviewer]
    rfl
  · rw [hviewer]
    rfl
  · intro hempty
    rw [fromEstablished_challenge hhost] at hempty
    subst hempty
    cases hlength
  · intro x hx
    cases hx

end Steps

/-! ### Agreement -/

/-- The host has an answer that the viewer understands: its policy asks for no
password, or one is given, and its provider supports the code that is sent. -/
def Answerable (s : Pair) : Label → Prop
  | .host (some message) answers =>
    match message.union with
    | some (.loginRequest request) =>
      s.host.auth.config.policy = .passwordOnly → request.password ≠ []
    | some (.auth2fa _) => s.host.auth.state = .await2Fa → answers.factor ≠ .unsupported
    | _ => True
  | _ => True

/-- A host with such answers says what the viewer knows. -/
theorem says_known {s s' : Pair} {l : Label} (h : Answerable s l) (hstep : Step env s l s') :
    Says Known s env l := by
  cases hstep with
  | viewer | hears | hostCloses => trivial
  | host waited answers expired sends hallow hflight hturn =>
    refine ⟨fun message request text hheard hunion htold => ?_,
      fun message code text hheard hunion htold => ?_⟩
    · rw [hheard] at h
      simp only [Answerable, hunion] at h
      rcases told_login hallow htold with hknown | ⟨-, hpolicy, hpassword⟩
      · exact hknown
      · exact absurd hpassword (h hpolicy)
    · rw [hheard] at h
      simp only [Answerable, hunion] at h
      rcases told_secondFactor hallow htold with hknown | ⟨-, hstate, hfactor⟩
      · exact hknown
      · exact absurd hfactor (h hstate)

/-- Any host says one of the six texts. -/
theorem says_any {s s' : Pair} {l : Label} (hstep : Step env s l s') :
    Says (fun text => Known text ∨ Unknown text) s env l := by
  cases hstep with
  | viewer | hears | hostCloses => trivial
  | host waited answers expired sends hallow hflight hturn =>
    refine ⟨fun message request text _ _ htold => ?_, fun message code text _ _ htold => ?_⟩
    · exact (told_login hallow htold).imp_right And.left
    · exact (told_secondFactor hallow htold).imp_right And.left

/-- The loop waits, and the login can go on from here: for a password any one is
accepted, for a code the session sends it, and meanwhile the host may let the
viewer in. -/
def Waits (env : Fixtures) (a : Attempt) : Prop :=
  ∃ first awaiting, a.stage = .looping (some first) awaiting ∧
    (awaiting = .network → a.phase = .awaitingApproval) ∧
    (awaiting = .password → ∀ password, password ≠ [] → ∃ response,
      a.session.checkLogin env.sha256 first (some password)
        = .ok { first with password := response }) ∧
    (awaiting = .secondFactor → a.session.state = .await2Fa) ∧
    ∀ info echo, (a.session.dispatch env.box env.proto
      (.of (.loginResponse { union := some (.peerInfo info) })) echo).result
        = some (.ok (.authorized info))

theorem Ready.waits {a : Attempt} {first : LoginRequest} {awaiting : Awaiting}
    (h : Ready a first awaiting) (hphase : awaiting = .network → a.phase = .awaitingApproval) :
    Waits env a := by
  obtain ⟨-, hactive, -⟩ := h.isOpen.state.ne
  exact ⟨first, awaiting, h.stage, hphase,
    fun _ password hpassword => h.isOpen.checkLogin fun hempty => hpassword (Option.some.inj hempty),
    h.factor, fun _ _ => dispatch_peerInfo hactive h.requested⟩

/-- What a step has to do for the sides to agree. -/
structure Agrees (env : Fixtures) (s s' : Pair) (l : Label) : Prop where
  /-- after an error of a host that waits, the viewer waits -/
  waits : ∀ text, l = .hears [⟨HostSession.loginError text, true⟩] → Waits env s'.viewer
  /-- a record of a host that waits ends the attempt only with the connection -/
  hears : ∀ x, l = .hears [x] → x.live = true ∨ s.host.auth.Live → s'.viewer.isEnded = true →
    s'.viewer.session.io.wire = none
  /-- nor does a command of the user, other than a refusal -/
  takes : ∀ queued records ended, l = .viewer (.takes queued records ended) →
    s.viewer.isEnded = false → s'.viewer.isEnded = true → s.host.auth.Live →
      queued.command = .continueInsecure false ∨ s'.viewer.session.io.wire = none

theorem agrees_hears {s : Pair} {request : Option LoginRequest} {awaiting : Awaiting}
    {x : InFlight} {rest : List InFlight} {arrives : Attempt.Arrives} (h : Sync Known s)
    (hsetup : Accepted env.setup) (hstage : s.viewer.stage = .looping request awaiting)
    (hflight : s.toViewer = x :: rest) (hlive : x.live = true)
    (hheard : viewerHeard env s.viewer.session arrives.incoming = some x.message) :
    let attempt := (s.viewer.onNetwork env request awaiting arrives).attempt
    ((∃ text, x.message = HostSession.loginError text) → Waits env attempt) ∧
      (attempt.isEnded = true → attempt.session.io.wire = none) := by
  have hmem : x ∈ s.toViewer := hflight ▸ List.mem_cons_self
  cases h.stand with
  | ended hended => exact absurd hended (looping_unended hstage)
  | finished hhost hdead =>
    have := hdead x hmem
    rw [hlive] at this
    cases this
  | greeted h =>
    obtain ⟨hash, dead, hchallenge, hhello, -⟩ := h.toViewer
    have hhead := hflight.symm.trans hhello
    cases hhead
    refine ⟨fun ⟨_, htext⟩ => (by cases htext), fun hended => ?_⟩
    obtain ⟨rfl, rfl⟩ := h.looping hstage
    rcases hears_challenge hsetup h.state h.request hchallenge hheard with
      ⟨first, hready⟩ | ⟨-, hwire⟩
    · exact absurd hended hready.unended
    · exact hwire
  | talking first awaiting' hready hbenign =>
    have hboth := hstage.symm.trans hready.stage
    cases hboth
    -- a known text makes the viewer wait, a probe leaves it as it was
    rcases hbenign x hmem hlive with ⟨text, hknown, hmessage⟩ | ⟨probe, hclient, hmessage⟩
    · rw [hmessage] at hheard
      obtain ⟨hafter, hphase⟩ := hears_known hready hknown hheard
      exact ⟨fun _ => hafter.waits hphase, (absurd · hafter.unended)⟩
    · rw [hmessage] at hheard ⊢
      have hafter := hears_probe hready hclient hheard
      exact ⟨fun ⟨_, htext⟩ => (by cases htext), (absurd · hafter.unended)⟩

theorem agrees_takes {s : Pair} {queued : Queued} {records : List WireRecord} {ended : Bool}
    {attempt : Attempt} {P : String → Prop} (h : Sync P s) (hlive : s.host.auth.Live)
    (hopen : s.viewer.isEnded = false) (hended : attempt.isEnded = true)
    (hstep : Attempt.Step env s.viewer (.takes queued records ended) attempt) :
    queued.command = .continueInsecure false ∨ attempt.session.io.wire = none := by
  cases hstep with
  | @confirm queued rest hstage hqueue =>
    -- only the refusal ends the attempt here
    cases hcommand : queued.command with
    | continueInsecure allow =>
      cases allow with
      | true =>
        rw [hcommand] at hended
        cases hended
      | false => exact .inl rfl
    | password | secondFactor =>
      rw [hcommand] at hended
      have : s.viewer.isEnded = true := hended
      rw [hopen] at this
      cases this
  | @command request awaiting queued rest turn sending hstage hawaiting hqueue hturn =>
    -- it ends only where the message could not be sent
    refine .inr ?_
    cases h.stand with
    | ended h =>
      rw [hopen] at h
      cases h
    | finished hhost => exact absurd hlive hhost
    | greeted h =>
      exact absurd (h.looping hstage).2 hawaiting
    | talking first awaiting' hready hbenign =>
      have hboth := hstage.symm.trans hready.stage
      cases hboth
      obtain ⟨call, hcall⟩ := h.user queued (hqueue ▸ List.mem_cons_self)
      subst hturn
      have hpopped : Ready { s.viewer with queue := rest } first awaiting :=
        ⟨hready.stage, hready.isOpen, hready.requested, hready.factor⟩
      rcases @onCommand_ready env _ _ _ _ _ sending hpopped hcall with ⟨next, hnext⟩ | ⟨-, hwire⟩
      · exact absurd hended hnext.unended
      · exact hwire

/-- **While the host says what the viewer knows, a step keeps the agreement.** -/
theorem Sync.agrees {s s' : Pair} {l : Label} (h : Sync Known s) (hsetup : Accepted env.setup)
    (hstep : Step env s l s') : Agrees env s s' l := by
  cases hstep with
  | @viewer label attempt hstep hlabel =>
    refine ⟨fun _ hl => (by cases hl), fun _ hl => (by cases hl),
      fun queued records ended hl hopen hended hlive => ?_⟩
    cases hl
    exact agrees_takes h hlive hopen hended hstep
  | @hears request awaiting turn taken rest arrives hstage hturn hflight htaken =>
    refine ⟨fun text hl => ?_, fun x hl hlive hended => ?_, fun _ _ _ hl => (by cases hl)⟩
    · cases hl
      rcases taken_cases htaken with ⟨h, -⟩ | ⟨x, hx, hheard⟩
      · cases h
      · cases hx
        rw [hturn]
        exact (agrees_hears h hsetup hstage hflight rfl hheard).1 ⟨text, rfl⟩
    · cases hl
      rcases taken_cases htaken with ⟨h, -⟩ | ⟨y, hy, hheard⟩
      · cases h
      · cases hy
        have hmem : x ∈ s.toViewer := hflight ▸ List.mem_cons_self
        have hx : x.live = true := by
          rcases hlive with hx | hhost
          · exact hx
          · by_contra hdead
            exact h.flow.last x hmem (Bool.eq_false_iff.mpr hdead) hhost
        subst hturn
        exact (agrees_hears h hsetup hstage hflight hx hheard).2 hended
  | host | hostCloses =>
    exact ⟨fun _ hl => (by cases hl), fun _ hl => (by cases hl), fun _ _ _ hl => (by cases hl)⟩

/-- An error that the viewer does not know ends the attempt. -/
theorem Sync.disagrees {s s' : Pair} {text : String}
    (h : Sync (fun text => Known text ∨ Unknown text) s) (hunknown : Unknown text)
    (hstep : Step env s (.hears [⟨HostSession.loginError text, true⟩]) s') :
    s'.viewer.isEnded = true := by
  generalize hl : Label.hears [⟨HostSession.loginError text, true⟩] = l at hstep
  cases hstep with
  | viewer | host | hostCloses => cases hl
  | @hears request awaiting turn taken rest arrives hstage hturn hflight htaken =>
    cases hl
    have hheard : viewerHeard env s.viewer.session arrives.incoming
        = some (HostSession.loginError text) := by
      rcases taken_cases htaken with ⟨h, -⟩ | ⟨x, hx, hheard⟩
      · cases h
      · cases hx
        exact hheard
    have hmem : (⟨HostSession.loginError text, true⟩ : InFlight) ∈ s.toViewer :=
      hflight ▸ List.mem_cons_self
    cases h.stand with
    | ended hended => exact absurd hended (looping_unended hstage)
    | finished hhost hdead =>
      have := hdead _ hmem
      cases this
    | greeted h =>
      obtain ⟨hash, dead, -, hhello, -⟩ := h.toViewer
      have hhead := hflight.symm.trans hhello
      cases hhead
    | talking first awaiting' hready hbenign =>
      have hboth := hstage.symm.trans hready.stage
      cases hboth
      subst hturn
      exact hears_unknown hready hunknown hheard

/-- **A viewer goes on waiting with a host that waits**, as long as the host is
never left to say that a password is missing or a code unsupported; on these two
errors the viewer ends the attempt, in every run. -/
theorem login_agreement {s s' s'' : Pair} {ls : List Label} {l : Label} (hstart : Starts env s)
    (hrun : Run (Step env) s ls s') (hstep : Step env s' l s'') :
    (Run (Where (Step env) Answerable) s ls s' → Agrees env s' s'' l) ∧
      ∀ text, Unknown text → l = .hears [⟨HostSession.loginError text, true⟩] →
        s''.viewer.isEnded = true ∧ ¬ Agrees env s' s'' l := by
  refine ⟨fun hanswerable => ?_, fun text hunknown hl => ?_⟩
  · have hsync : Sync Known s' := hanswerable.invariant (I := Sync Known)
      (fun _ _ _ hs h => sync_step hs (fun _ => .inl) (fun _ => id) hstart.setup
        (says_known h.1 h.2) h.2) (sync_start hstart)
    exact hsync.agrees hstart.setup hstep
  · have hsync : Sync (fun text => Known text ∨ Unknown text) s' := hrun.invariant (I := Sync _)
      (fun _ _ _ hs h => sync_step hs (fun _ => id) (fun _ => .inl) hstart.setup (says_any h) h)
      (sync_start hstart)
    subst hl
    have hended := hsync.disagrees hunknown hstep
    refine ⟨hended, fun hagrees => ?_⟩
    obtain ⟨first, awaiting, hstage, -⟩ := hagrees.waits text rfl
    exact absurd hended (looping_unended hstage)

/-! ### A host that asks for a password -/

def deskConfig : HostAuthConfig where
  acceptedTargets := ["desk"]
  salt := ""
  passwords := { values := [utf8 "b"] }
  policy := .passwordOnly
  ceiling := {}
  passwordPermissions := {}
  peerInfo := {}

/-- A viewer with this password, and a table for the records of both sides. -/
def deskEnv (password : Bytes) : Fixtures where
  box := .padding
  proto := .table [(Attempt.challenge, [0]), (Attempt.request [], [1]),
    (Attempt.request Attempt.answerA, [2]), (HostSession.loginError "Empty Password", [3]),
    (HostSession.loginError "Wrong Password", [4])]
  sha256 := id
  setup := { Attempt.plainSetup with password := password, confirmInsecure := false }
  decoders := Attempt.plainDecoders

/-- A viewer and this host, about to log in with a password. -/
def deskPair (password : Bytes) : Pair where
  viewer := .start (deskEnv password) Attempt.plainPeer
  host :=
    { io := .new Attempt.plainPeer.wire none
      auth := { config := deskConfig, hash := { salt := "", challenge := "c0ffee" },
                state := .awaitLogin, request := none, grant := {} }
      security := Attempt.plainPeer.security
      permissions := {}
      ready := false }
  toViewer := [⟨Attempt.challenge, true⟩]
  toHost := []

theorem deskPair_starts {password : Bytes} (h : password.length ≤ 4096) :
    Starts (deskEnv password) (deskPair password) where
  setup :=
    { username := (by decide : "desk" ≠ "" ∧ "desk".utf8ByteSize ≤ 512)
      localId := (by decide : "viewer" ≠ "" ∧ "viewer".utf8ByteSize ≤ 512)
      localName := (by decide : "".utf8ByteSize ≤ 512)
      password := h
      requestedFps := (by decide : 1 ≤ 60 ∧ 60 ≤ 240) }
  viewer := ⟨_, rfl⟩
  host := ⟨Attempt.plainPeer, deskConfig, "c0ffee", by decide, rfl⟩
  toViewer := rfl
  toHost := rfl

/-- The providers of a host without a second factor. -/
def allowed : Answers where
  allow := .ok ()
  approval := .pending
  required := false
  factor := .unsupported

/-- The wrong password is answered with an error after which the viewer waits. -/
theorem login_agreement_wrong :
    ∃ s s' s'' ls l, Starts (deskEnv (utf8 "a")) s ∧ Run (Step (deskEnv (utf8 "a"))) s ls s' ∧
      l = .hears [⟨HostSession.loginError "Wrong Password", true⟩] ∧
      Step (deskEnv (utf8 "a")) s' l s'' ∧ Agrees (deskEnv (utf8 "a")) s' s'' l := by
  let env := deskEnv (utf8 "a")
  have hstart := @deskPair_starts (utf8 "a") (by decide)
  have hchallenged := Run.single (show Where (Step env) Answerable (deskPair (utf8 "a")) (.hears [_]) _ from
    ⟨trivial, @Step.hears env _ _ _ _ [_] [] (Attempt.frame [0]) rfl rfl rfl rfl⟩)
  have hasked := hchallenged.snoc (show Where (Step env) Answerable _
    (.host (some (Attempt.request Attempt.answerA)) allowed) _ from
      ⟨fun _ => List.cons_ne_nil _ _,
        @Step.host env _ _ [] (.incoming (.frame [2])) allowed false [.sent] rfl rfl rfl⟩)
  obtain ⟨s', hasked, s'', hstep⟩ : ∃ s', Run (Where (Step env) Answerable) _ _ s' ∧
      ∃ s'', Step env s' (.hears [⟨HostSession.loginError "Wrong Password", true⟩]) s'' :=
    ⟨_, hasked, _, .hears (Attempt.frame [4]) rfl rfl rfl rfl⟩
  have hrun := hasked.mono fun _ _ _ h => h.2
  exact ⟨_, _, _, _, _, hstart, hrun, rfl, hstep, (login_agreement hstart hrun hstep).1 hasked⟩

/-- A viewer without a password is told that it is missing, and ends. -/
theorem empty_disagrees :
    ∃ s s' s'' ls l, Starts (deskEnv []) s ∧ Run (Step (deskEnv [])) s ls s' ∧
      Step (deskEnv []) s' l s'' ∧ s''.host.auth.Live ∧ ¬ Agrees (deskEnv []) s' s'' l := by
  let env := deskEnv []
  have hstart := @deskPair_starts [] (by decide)
  have hchallenged := Run.single
    (@Step.hears env (deskPair []) _ _ _ [_] [] (Attempt.frame [0]) rfl rfl rfl rfl)
  have hasked := hchallenged.snoc
    (@Step.host env _ _ [] (.incoming (.frame [1])) allowed false [.sent] rfl rfl rfl)
  refine ⟨_, _, _, _, _, hstart, hasked,
    @Step.hears env _ _ _ _ [⟨HostSession.loginError "Empty Password", true⟩] []
      (Attempt.frame [3]) rfl rfl rfl rfl, ⟨by decide, by decide⟩, fun hagrees => ?_⟩
  obtain ⟨first, awaiting, hstage, -⟩ := hagrees.waits _ rfl
  exact looping_unended hstage (by decide)

end Viewer

end LoginDialogue

end RdEngine
