/-
RdEngine/Viewer/FirstLogin.lean

The login requests of a viewer: what a turn can send, and what the first request
of a whole run carries.

It goes out right behind the first challenge, with the response to the password
of the setup, or with none if that is empty (`first_login`).
-/
import RdEngine.LoginAgreement

namespace RdEngine

namespace Viewer

open Lts

/-- The login request that a record sends. -/
def loginOf : WireRecord → Option LoginRequest
  | .sent ⟨some (.loginRequest request)⟩ => some request
  | _ => none

/-- The challenge that a record brings. -/
def challengeOf : WireRecord → Option Hash
  | .received ⟨some (.hash hash)⟩ => some hash
  | _ => none

def logins (records : List WireRecord) : List LoginRequest := records.filterMap loginOf

def challenges (records : List WireRecord) : List Hash := records.filterMap challengeOf

theorem logins_append (records more : List WireRecord) :
    logins (records ++ more) = logins records ++ logins more := List.filterMap_append ..

theorem challenges_append (records more : List WireRecord) :
    challenges (records ++ more) = challenges records ++ challenges more :=
  List.filterMap_append ..

/-- What the password of the setup makes of the first challenge. -/
def initialResponse (sha256 : Bytes → Bytes) (password : Bytes) (hash : Hash) : Bytes :=
  if password.isEmpty then []
  else passwordResponse sha256 (saltedPassword sha256 password hash.salt) hash.challenge

end Viewer

open Viewer

/-! ### Calls of the session -/

namespace ViewerSession

variable {box : SecretBox} {proto : Protobuf Message} {sha256 : Bytes → Bytes}

/-- A turn on a record: it sends no login request; a challenge is one that it has
waited for; and after an error of the host it waits for none. -/
structure Dispatched (session : ViewerSession) (message : Message)
    (turn : ViewerTurn ViewerEvent) : Prop where
  logins : logins turn.records = []
  challenges : challenges turn.records = []
  challenge : turn.result = some (.ok .challenge) → session.state = .awaitHash ∧
    ∃ hash, message = .of (.hash hash) ∧ turn.records = [] ∧
      turn.session = { session with hash := some hash, state := .awaitLogin }
  unchallenged : turn.result ≠ some (.ok .challenge) → (∀ hash, message ≠ .of (.hash hash)) ∨
    (∃ e, turn.result = some (.error e)) ∨ turn.result = some (.ok (.payload message))
  rejected : ∀ error, turn.result = some (.ok (.loginError error)) →
    turn.session.state ≠ .awaitHash

/-- A turn that ends at once, with another event. -/
theorem Dispatched.of_done {session session' : ViewerSession} {message : Message}
    {event : ViewerEvent} (hchallenge : event ≠ .challenge)
    (herror : ∀ error, event = .loginError error → session'.state ≠ .awaitHash)
    (hmessage : (∀ hash, message ≠ .of (.hash hash)) ∨ event = .payload message) :
    Dispatched session message (session'.done (.ok event)) where
  logins := rfl
  challenges := rfl
  challenge h := absurd (Except.ok.inj (Option.some.inj h)) hchallenge
  unchallenged _ := hmessage.imp_right fun h => .inr (by rw [h]; rfl)
  rejected error h := herror error (Except.ok.inj (Option.some.inj h))

theorem Dispatched.of_error {session session' : ViewerSession} {message : Message} (e : IoError) :
    Dispatched session message (session'.done (.error e)) where
  logins := rfl
  challenges := rfl
  challenge h := by cases h
  unchallenged _ := .inr (.inl ⟨e, rfl⟩)
  rejected error h := by cases h

theorem not_hash {message : Message} {union : MessageUnion} (hunion : message.union = some union)
    (hother : ∀ hash, union ≠ .hash hash) (hash : Hash) : message ≠ .of (.hash hash) := by
  rintro rfl
  exact hother hash (Option.some.inj hunion).symm

theorem dispatched_admitRecord (session : ViewerSession) (message : Message) :
    Dispatched session message (session.admitRecord message) := by
  unfold admitRecord
  split
  · next hunion =>
    refine .of_done ?_ (fun error h => ?_) (.inl (not_hash hunion fun _ => MessageUnion.noConfusion))
    · split <;> exact ViewerEvent.noConfusion
    · split at h <;> cases h
  · next hunion =>
    have hmessage := not_hash hunion fun _ => MessageUnion.noConfusion
    split <;> exact .of_done ViewerEvent.noConfusion (fun _ h => by cases h) (.inl hmessage)
  · next hunion =>
    have hmessage := not_hash hunion fun _ => MessageUnion.noConfusion
    split <;> exact .of_done ViewerEvent.noConfusion (fun _ h => by cases h) (.inl hmessage)
  · split
    · exact .of_done ViewerEvent.noConfusion (fun _ h => by cases h) (.inr rfl)
    · exact .of_error _

theorem dispatched_loginResponse (session : ViewerSession) {message : Message}
    (hmessage : ∀ hash, message ≠ .of (.hash hash)) (response : LoginResponse) :
    Dispatched session message (session.loginResponse response) := by
  unfold loginResponse
  split
  · split
    · exact .of_done ViewerEvent.noConfusion (fun _ _ => ViewerState.noConfusion) (.inl hmessage)
    · refine .of_done ViewerEvent.noConfusion (fun _ _ => ?_) (.inl hmessage)
      dsimp only
      split_ifs <;> exact ViewerState.noConfusion
  · split
    · exact .of_error _
    · exact .of_done ViewerEvent.noConfusion (fun _ h => by cases h) (.inl hmessage)
  · exact .of_error _

theorem dispatched_probe (session : ViewerSession) {message : Message} {probe : TestDelay}
    (hunion : message.union = some (.testDelay probe)) (answer : SendAnswer) :
    Dispatched session message
      (session.sendThen box proto message answer id ViewerEvent.progress) := by
  have hmessage := message_eq hunion
  subst hmessage
  have hother := not_hash hunion fun _ => MessageUnion.noConfusion
  unfold sendThen
  split
  · exact ⟨rfl, rfl, fun h => (by cases h), fun _ => .inl hother, fun _ h => (by cases h)⟩
  · exact ⟨rfl, rfl, fun h => (by cases h), fun _ => .inl hother, fun _ h => (by cases h)⟩
  · exact ⟨rfl, rfl, fun h => (by cases h), fun _ => .inl hother, fun _ h => (by cases h)⟩

/-- **What a turn on a record does about logins.** -/
theorem dispatched_dispatch (session : ViewerSession) (message : Message) (answer : SendAnswer) :
    Dispatched session message (session.dispatch box proto message answer) := by
  have hadmit := dispatched_admitRecord session message
  -- only a hash taken while it is awaited counts as a challenge
  have hprogress : (∀ hash, message ≠ .of (.hash hash)) →
      Dispatched session message (session.done (.ok .progress)) :=
    fun h => .of_done ViewerEvent.noConfusion (fun _ h => by cases h) (.inl h)
  unfold dispatch
  split
  · next hclose =>
    refine .of_done ViewerEvent.noConfusion (fun _ h => by cases h) (.inl ?_)
    rintro hash rfl
    cases hclose
  split
  · next hunion =>
    have hmessage := not_hash hunion fun _ => MessageUnion.noConfusion
    split
    · exact .of_done ViewerEvent.noConfusion (fun _ h => by cases h) (.inl hmessage)
    · split
      · exact dispatched_probe session hunion answer
      · exact hprogress hmessage
  · next hunion =>
    refine hprogress fun hash hmessage => ?_
    rw [hmessage] at hunion
    cases hunion
  · next hunion =>
    split
    · exact hprogress (not_hash hunion fun _ => MessageUnion.noConfusion)
    · exact hadmit
  · next hash hunion =>
    split
    · next hstate =>
      split
      · exact .of_error _
      · refine ⟨rfl, rfl, fun _ => ⟨hstate, hash, message_eq hunion, rfl, rfl⟩, fun h => ?_,
          fun _ h => (by cases h)⟩
        exact absurd rfl h
    · exact hadmit
  · next response hunion =>
    split
    · exact dispatched_loginResponse session
        (not_hash hunion fun _ => MessageUnion.noConfusion) response
    · exact hadmit
  · exact hadmit

/-- What a receive does about logins; it may end the session. -/
structure Received (session : ViewerSession) (turn : ViewerTurn ViewerEvent) : Prop where
  logins : logins turn.records = []
  challenge : turn.result = some (.ok .challenge) → session.state = .awaitHash ∧
    ∃ hash io, turn.records = [.received (.of (.hash hash))] ∧
      turn.session = { session with io, hash := some hash, state := .awaitLogin }
  unchallenged : turn.result ≠ some (.ok .challenge) → challenges turn.records = [] ∨
    (∃ e, turn.result = some (.error e)) ∨ ∃ message, turn.result = some (.ok (.payload message))
  rejected : ∀ error, turn.result = some (.ok (.loginError error)) →
    turn.session.state ≠ .awaitHash

theorem Dispatched.heard {session : ViewerSession} {message : Message} {io : SessionIo}
    {turn : ViewerTurn ViewerEvent} (h : Dispatched { session with io } message turn) :
    Received session (turn.heard message) := by
  refine ⟨?_, fun hresult => ?_, fun hresult => ?_, h.rejected⟩
  · exact (List.filterMap_cons_none rfl).trans h.logins
  · obtain ⟨hstate, hash, rfl, hrecords, hsession⟩ := h.challenge hresult
    refine ⟨hstate, hash, io, ?_, hsession⟩
    exact congrArg (List.cons _) hrecords
  · rcases h.unchallenged hresult with hother | hends
    · refine .inl ((List.filterMap_cons_none ?_).trans h.challenges)
      unfold challengeOf
      split
      · next hash heq => exact absurd (WireRecord.received.inj heq) (hother hash)
      · rfl
    · exact .inr (hends.imp_right fun hpayload => ⟨message, hpayload⟩)

theorem received_recvInner (session : ViewerSession) (incoming : Incoming) (answer : SendAnswer) :
    Received session (session.recvInner box proto incoming answer) := by
  have hquiet : ∀ (session' : ViewerSession) (result : Except IoError ViewerEvent),
      (∀ event, result = .ok event → event = .closed) →
      Received session (session'.done result) := by
    intro session' result h
    refine ⟨rfl, fun hresult => ?_, fun _ => .inl rfl, fun error hresult => ?_⟩
    · cases h _ (Option.some.inj hresult)
    · cases h _ (Option.some.inj hresult)
  unfold recvInner
  split
  · exact hquiet _ _ fun event h => (Except.ok.inj h).symm
  · dsimp only
    split
    · exact (dispatched_dispatch _ _ answer).heard
    · exact hquiet _ _ fun event h => (Except.ok.inj h).symm
    · exact hquiet _ _ fun event h => by cases h
    · exact hquiet _ _ fun event h => by cases h

/-- **What a receive does about logins.** -/
theorem received_recv (session : ViewerSession) (incoming : Incoming) (answer : SendAnswer) :
    Received session (session.recv box proto incoming answer) := by
  have h := @received_recvInner box proto session incoming answer
  have hcleared : (session.recvInner box proto incoming answer).result ≠ some (.ok .challenge) →
      Received session { session.recvInner box proto incoming answer with
        session := (session.recvInner box proto incoming answer).session.terminate } :=
    fun hother => ⟨h.logins, fun hresult => absurd hresult hother, h.unchallenged,
      fun _ _ => ViewerState.noConfusion⟩
  unfold recv
  dsimp only
  split
  · next hresult =>
    refine hcleared ?_
    rw [hresult]
    exact fun h => by cases h
  · split
    · next hclosed =>
      refine hcleared fun hresult => ?_
      obtain ⟨-, hash, io, -, hsession⟩ := h.challenge hresult
      rw [hsession] at hclosed
      cases hclosed
    · exact h

/-- Once a session has its challenge it waits for none. -/
theorem Move.hashed {session session' : ViewerSession} {records : List WireRecord}
    (h : Move session session' records) (hstate : session.state ≠ .awaitHash) :
    session'.state ≠ .awaitHash := by
  cases h with
  | keep | report => exact hstate
  | clear _ hcleared =>
    rw [hcleared.state]
    exact ViewerState.noConfusion
  | challenge _ hawaits => exact absurd hawaits hstate
  | answered _ _ _ _ _ hwaits => exact hwaits.ne.1
  | authorized | requested => exact ViewerState.noConfusion

theorem checkLogin_response {session : ViewerSession} {request request' : LoginRequest}
    {password : Option Bytes} (h : session.checkLogin sha256 request password = .ok request') :
    ∃ hash response, session.hash = some hash ∧
      passwordField sha256 hash password = .ok response ∧
      request' = { request with password := response } := by
  unfold checkLogin at h
  split at h
  · cases h
  · split at h
    · cases h
    · next hash hhash =>
      split_ifs at h
      split at h
      · cases h
      · next response hresponse =>
        exact ⟨hash, response, hhash, hresponse, (Except.ok.inj h).symm⟩

/-- A send of the session puts its record on the wire, or fails. -/
theorem sends_cases {session : ViewerSession} {message : Message} {answer : SendAnswer}
    {next : ViewerSession → ViewerSession} :
    let turn := orTerminate (session.sendThen box proto message answer next ())
    turn.records = [] ∧ turn.result ≠ some (.ok ()) ∨
      turn.records = [.sent message] ∧ turn.result = some (.ok ()) ∧
        ∃ io, turn.session = next { session with io } := by
  dsimp only
  unfold sendThen
  split
  · exact .inl ⟨rfl, fun h => by cases h⟩
  · exact .inl ⟨rfl, fun h => by cases h⟩
  · exact .inr ⟨rfl, rfl, _, rfl⟩

/-- **A login puts its request on the wire, with the response to the password, or
fails.** -/
theorem login_cases (session : ViewerSession) (request : LoginRequest) (password : Option Bytes)
    (expired : Bool) (answer : SendAnswer) :
    let turn := session.login box proto sha256 request password expired answer
    turn.records = [] ∧ turn.result ≠ some (.ok ()) ∨
      turn.result = some (.ok ()) ∧ turn.session.state = .awaitLogin ∧
        ∃ hash response, session.hash = some hash ∧
          passwordField sha256 hash password = .ok response ∧
          turn.records = [.sent (.of (.loginRequest { request with password := response }))] := by
  dsimp only
  unfold login
  split
  · exact .inl ⟨rfl, fun h => by cases h⟩
  · split
    · exact .inl ⟨rfl, fun h => by cases h⟩
    · next request' hcheck =>
      obtain ⟨hash, response, hhash, hresponse, rfl⟩ := checkLogin_response hcheck
      rcases sends_cases with hfails | ⟨hrecords, hresult, io, hsession⟩
      · exact .inl hfails
      · refine .inr ⟨hresult, ?_, hash, response, hhash, hresponse, hrecords⟩
        rw [hsession]

/-- A second factor is no login. -/
theorem logins_sendSecondFactor (session : ViewerSession) (code : String) (expired : Bool)
    (answer : SendAnswer) :
    logins (session.sendSecondFactor box proto code expired answer).records = [] ∧
      challenges (session.sendSecondFactor box proto code expired answer).records = [] := by
  unfold sendSecondFactor
  split
  · exact ⟨rfl, rfl⟩
  · split
    · exact ⟨rfl, rfl⟩
    · rcases sends_cases with ⟨hrecords, -⟩ | ⟨hrecords, -⟩
      · rw [hrecords]
        exact ⟨rfl, rfl⟩
      · rw [hrecords]
        exact ⟨rfl, rfl⟩

end ViewerSession

/-! ### Turns of the loop -/

namespace Viewer

open Lts

theorem passwordField_initial (sha256 : Bytes → Bytes) (hash : Hash) (password : Bytes) :
    ViewerSession.passwordField sha256 hash (if password.isEmpty then none else some password)
      = .ok (initialResponse sha256 password hash) := by
  cases password <;> rfl

namespace Attempt

variable {env : Fixtures}

/-- A login that goes out lets the loop go on; otherwise the attempt is over. -/
theorem afterLogin_cases (a : Attempt) (first : LoginRequest) (password : Option Bytes)
    (sending : Sending) (stage : Stage) (phase : Phase) :
    let turn := a.afterSend (a.login env first password sending) stage phase
    turn.attempt.isEnded = true ∧ turn.records = [] ∨
      ∃ session hash response, a.session.hash = some hash ∧
        ViewerSession.passwordField env.sha256 hash password = .ok response ∧
        session.state = .awaitLogin ∧
        turn = ⟨{ a with session, stage, phase },
          [.sent (.of (.loginRequest { first with password := response }))]⟩ := by
  have h := @ViewerSession.login_cases env.box env.proto env.sha256 a.session first password
    sending.expired sending.answer
  dsimp only at h ⊢
  unfold afterSend login
  rcases h with ⟨hrecords, hresult⟩ | ⟨hresult, hstate, hash, response, hhash, hresponse, hrecords⟩
  · left
    dsimp only
    split
    · exact ⟨rfl, hrecords⟩
    · exact ⟨rfl, hrecords⟩
    · next h => exact absurd h hresult
  · right
    rw [hresult]
    exact ⟨_, hash, response, hhash, hresponse, hstate, by rw [hrecords]⟩

theorem afterCode_cases (a : Attempt) (code : String) (sending : Sending) (stage : Stage)
    (phase : Phase) :
    let turn := a.afterSend (a.sendSecondFactor env code sending) stage phase
    logins turn.records = [] ∧ challenges turn.records = [] ∧
      (turn.attempt.isEnded = true ∨
        turn.attempt = { a with
          session := (a.sendSecondFactor env code sending).session, stage, phase }) := by
  obtain ⟨hlogins, hchallenges⟩ := @ViewerSession.logins_sendSecondFactor env.box env.proto
    a.session code sending.expired sending.answer
  dsimp only
  unfold afterSend sendSecondFactor
  dsimp only
  split
  · exact ⟨hlogins, hchallenges, .inl rfl⟩
  · exact ⟨hlogins, hchallenges, .inl rfl⟩
  · exact ⟨hlogins, hchallenges, .inr rfl⟩

/-- What a turn on a record of the peer can do. -/
inductive Hears (env : Fixtures) (a : Attempt) (request : Option LoginRequest)
    (awaiting : Awaiting) (arrives : Arrives) : Turn → Prop
  | ends {turn : Turn} (hended : turn.attempt.isEnded = true) (hlogins : logins turn.records = []) :
      Hears env a request awaiting arrives turn
  /-- the challenge, and the login that answers it -/
  | answers {session : ViewerSession} {first : LoginRequest} {hash : Hash}
      (hbefore : a.session.state = .awaitHash) (hstate : session.state = .awaitLogin) :
      Hears env a request awaiting arrives
        ⟨{ a with session, stage := .looping (some first) awaiting },
          [.received (.of (.hash hash)), .sent (.of (.loginRequest
            { first with password := initialResponse env.sha256 env.setup.password hash }))]⟩
  /-- an error of the host, after which the loop waits -/
  | rejected {session : ViewerSession} {records : List WireRecord} {error : String}
      {next : Awaiting} {phase : Phase} (hstate : session.state ≠ .awaitHash)
      (hlogins : logins records = []) (hchallenges : challenges records = [])
      (hresult : (a.received env arrives).result = some (.ok (.loginError error)))
      (hnext : next = .password → error = "Wrong Password")
      (hphase : phase = .awaitingPassword → next = .password) :
      Hears env a request awaiting arrives
        ⟨{ a with session, stage := .looping request next, phase }, records⟩
  | idles {session : ViewerSession} {records : List WireRecord}
      (hstate : a.session.state ≠ .awaitHash → session.state ≠ .awaitHash)
      (hlogins : logins records = []) (hchallenges : challenges records = []) :
      Hears env a request awaiting arrives ⟨{ a with session }, records⟩

theorem hears_loginError {a : Attempt} {request : Option LoginRequest} {awaiting : Awaiting}
    {arrives : Arrives} {session : ViewerSession} {records : List WireRecord} {error : String}
    {sessionId : Nat} {sending : Sending} (hstate : session.state ≠ .awaitHash)
    (hlogins : logins records = []) (hchallenges : challenges records = [])
    (hresult : (a.received env arrives).result = some (.ok (.loginError error))) :
    let next := { a with session }.onEvent env request awaiting (.loginError error) sessionId sending
    Hears env a request awaiting arrives ⟨next.attempt, records ++ next.records⟩ := by
  dsimp only
  unfold onEvent
  dsimp only
  split
  · rw [List.append_nil]
    exact .rejected hstate hlogins hchallenges hresult (fun h => by cases h) fun h => by cases h
  split
  · next herror =>
    rw [List.append_nil]
    exact .rejected hstate hlogins hchallenges hresult (fun _ => herror) fun _ => rfl
  split
  · rw [List.append_nil]
    refine .rejected hstate hlogins hchallenges hresult (fun h => by cases h) fun h => ?_
    split at h <;> cases h
  · rw [List.append_nil]
    exact .ends rfl hlogins

theorem hears_challenge {a : Attempt} {request : Option LoginRequest} {awaiting : Awaiting}
    {arrives : Arrives} {hash : Hash} {io : SessionIo} {sessionId : Nat} {sending : Sending}
    (hbefore : a.session.state = .awaitHash) :
    let session := { a.session with io, hash := some hash, state := .awaitLogin }
    let next := { a with session }.onEvent env request awaiting .challenge sessionId sending
    Hears env a request awaiting arrives
      ⟨next.attempt, [.received (.of (.hash hash))] ++ next.records⟩ := by
  dsimp only
  unfold onEvent
  dsimp only
  rcases afterLogin_cases _ _ _ _ _ _ with ⟨hended, hrecords⟩ |
    ⟨session, hash', response, hhash, hresponse, hstate, hturn⟩
  · rw [hrecords]
    exact .ends hended rfl
  · rw [hturn]
    obtain rfl : hash = hash' := Option.some.inj hhash
    rw [passwordField_initial] at hresponse
    obtain rfl := Except.ok.inj hresponse
    exact .answers hbefore hstate

/-- **What a turn on the network does about logins.** -/
theorem hears_onNetwork (a : Attempt) (request : Option LoginRequest) (awaiting : Awaiting)
    (arrives : Arrives) :
    Hears env a request awaiting arrives (a.onNetwork env request awaiting arrives) := by
  have hrecv : ViewerSession.Received a.session (a.received env arrives) :=
    ViewerSession.received_recv a.session arrives.incoming arrives.echo
  have hmove : ViewerSession.Move a.session (a.received env arrives).session
      (a.received env arrives).records :=
    ViewerSession.recv_move a.session arrives.incoming arrives.echo
  have hends : ∀ turn : Turn, turn.attempt.isEnded = true →
      turn.records = (a.received env arrives).records → Hears env a request awaiting arrives turn :=
    fun turn hended hrecords => .ends hended (by rw [hrecords]; exact hrecv.logins)
  -- only a challenge brings a challenge
  have hother : (∀ e, (a.received env arrives).result ≠ some (.error e)) →
      (∀ message, (a.received env arrives).result ≠ some (.ok (.payload message))) →
      (a.received env arrives).result ≠ some (.ok .challenge) →
      challenges (a.received env arrives).records = [] := by
    intro herror hpayload hchallenge
    rcases hrecv.unchallenged hchallenge with h | ⟨e, h⟩ | ⟨message, h⟩
    · exact h
    · exact absurd h (herror e)
    · exact absurd h (hpayload message)
  unfold onNetwork
  dsimp only
  cases hresult : (a.received env arrives).result with
  | none => exact hends _ rfl rfl
  | some result =>
    cases result with
    | error e => exact hends _ rfl rfl
    | ok event =>
      rw [hresult] at hother
      dsimp only
      cases event with
      | challenge =>
        obtain ⟨hbefore, hash, io, hrecords, hsession⟩ := hrecv.challenge hresult
        rw [hrecords, hsession]
        exact hears_challenge hbefore
      | loginError error =>
        exact hears_loginError (hrecv.rejected error hresult) hrecv.logins
          (hother (fun _ h => by cases h) (fun _ h => by cases h) fun h => by cases h) hresult
      | progress | preAuthControl =>
        refine List.append_nil _ ▸ .idles (hmove.hashed) hrecv.logins ?_
        exact hother (fun _ h => by cases h) (fun _ h => by cases h) fun h => by cases h
      | authorized =>
        unfold onEvent
        dsimp only
        split
        · exact hends _ rfl (List.append_nil _)
        · exact hends _ rfl (List.append_nil _)
      | closed | permissionChanged | payload => exact hends _ rfl (List.append_nil _)

/-- What a turn that takes a command can do. -/
inductive Takes (env : Fixtures) (a : Attempt) (request : Option LoginRequest)
    (command : AuthCommand) : Turn → Prop
  | drops (hawaits : a.awaits command = false) : Takes env a request command ⟨a, []⟩
  | ends {turn : Turn} (hended : turn.attempt.isEnded = true) (hlogins : logins turn.records = []) :
      Takes env a request command turn
  | codes {session : ViewerSession} {records : List WireRecord} {code : Bytes}
      (hcommand : command = .secondFactor code)
      (hstate : a.session.state ≠ .awaitHash → session.state ≠ .awaitHash)
      (hlogins : logins records = []) (hchallenges : challenges records = []) :
      Takes env a request command
        ⟨{ a with session, stage := .looping request .network, phase := .authenticating }, records⟩
  | passwords {session : ViewerSession} {first : LoginRequest} {hash : Hash}
      {password response : Bytes} (hcommand : command = .password password)
      (hrequest : request = some first)
      (hresponse : ViewerSession.passwordField env.sha256 hash (some password) = .ok response)
      (hstate : session.state = .awaitLogin) :
      Takes env a request command
        ⟨{ a with session, stage := .looping request .network, phase := .authenticating },
          [.sent (.of (.loginRequest { first with password := response }))]⟩

/-- **What a turn on a command does about logins.** -/
theorem takes_onCommand {a : Attempt} {request : Option LoginRequest} {awaiting : Awaiting}
    (hstage : a.stage = .looping request awaiting) (command : AuthCommand) (sending : Sending) :
    Takes env a request command (a.onCommand env request awaiting command sending) := by
  cases hawaits : a.awaits command with
  | false =>
    rw [onCommand_dropped hstage hawaits]
    exact .drops hawaits
  | true =>
    unfold onCommand
    split
    · next password =>
      cases request with
      | none => exact .ends rfl rfl
      | some first =>
        dsimp only
        rcases afterLogin_cases a first (some password) sending (.looping (some first) .network)
          .authenticating with ⟨hended, hrecords⟩ | ⟨session, hash, response, -, hresponse, hstate, hturn⟩
        · exact .ends hended (by rw [hrecords]; rfl)
        · rw [hturn]
          exact .passwords rfl rfl hresponse hstate
    · next code =>
      split
      · exact .ends rfl rfl
      · next text _ =>
        obtain ⟨hlogins, hchallenges, hended | hattempt⟩ :=
          @afterCode_cases env a text sending (.looping request .network) .authenticating
        · exact .ends hended hlogins
        · have hmove : ViewerSession.Move a.session (a.sendSecondFactor env text sending).session
              (a.sendSecondFactor env text sending).records :=
            ViewerSession.sendSecondFactor_move a.session text sending.expired sending.answer
          generalize a.afterSend (a.sendSecondFactor env text sending)
            (.looping request .network) .authenticating = turn at hlogins hchallenges hattempt
          obtain ⟨attempt, records⟩ := turn
          obtain rfl : attempt = _ := hattempt
          exact .codes rfl hmove.hashed hlogins hchallenges
    · next hpassword hcode =>
      -- what is awaited is a password or a code
      unfold awaits at hawaits
      rw [hstage] at hawaits
      cases command with
      | password => cases awaiting <;> first | exact absurd rfl (hpassword _ · rfl) | cases hawaits
      | secondFactor => cases awaiting <;> first | exact absurd rfl (hcode _ · rfl) | cases hawaits
      | continueInsecure => cases awaiting <;> cases hawaits

/-! ### The first login -/

/-- The first challenge, and right behind it the first login request. -/
def FirstExchange (records : List WireRecord) (hash : Hash) (request : LoginRequest) : Prop :=
  ∃ before after, logins before = [] ∧ challenges before = [] ∧
    records = before ++ .received (.of (.hash hash)) :: .sent (.of (.loginRequest request)) :: after

theorem FirstExchange.append {records : List WireRecord} {hash : Hash} {request : LoginRequest}
    (h : FirstExchange records hash request) (more : List WireRecord) :
    FirstExchange (records ++ more) hash request := by
  obtain ⟨before, after, hlogins, hchallenges, rfl⟩ := h
  exact ⟨before, after ++ more, hlogins, hchallenges, by simp⟩

/-- There is but one first login request. -/
theorem FirstExchange.logins_eq {records : List WireRecord} {hash : Hash} {request : LoginRequest}
    (h : FirstExchange records hash request) : (logins records).head? = some request := by
  obtain ⟨before, after, hlogins, -, rfl⟩ := h
  rw [logins_append, hlogins]
  rfl

/-- Nothing was asked yet, or nothing will be. -/
structure Unasked (a : Attempt) (records : List WireRecord) : Prop where
  logins : logins records = []
  challenges : a.isEnded = false → challenges records = []
  stage : a.stage = .confirming ∨ (∃ awaiting, a.stage = .looping none awaiting) ∨
    a.isEnded = true

/-- The login dialogue has not begun, or has begun as it should. -/
def Begins (env : Fixtures) (a : Attempt) (records : List WireRecord) : Prop :=
  Unasked a records ∨ ∃ hash request, FirstExchange records hash request ∧
    request.password = initialResponse env.sha256 env.setup.password hash

theorem Unasked.looping {a : Attempt} {records : List WireRecord} {awaiting : Awaiting}
    {request : Option LoginRequest} (h : Unasked a records)
    (hstage : a.stage = .looping request awaiting) : a.isEnded = false ∧ request = none := by
  have hopen : a.isEnded = false := by
    rw [isEnded, hstage]
  refine ⟨hopen, ?_⟩
  rcases h.stage with hconfirming | ⟨_, hlooping⟩ | hended
  · cases hstage.symm.trans hconfirming
  · exact (Stage.looping.inj (hstage.symm.trans hlooping)).1
  · exact absurd hended (ne_true_of_eq_false hopen)

theorem Unasked.ended {a a' : Attempt} {records more : List WireRecord} (h : Unasked a records)
    (hended : a'.isEnded = true) (hmore : Viewer.logins more = []) :
    Begins env a' (records ++ more) := by
  refine .inl ⟨?_, fun hopen => absurd hended (ne_true_of_eq_false hopen), .inr (.inr hended)⟩
  rw [logins_append, h.logins, hmore]
  rfl

theorem Unasked.open {a a' : Attempt} {records more : List WireRecord} (h : Unasked a records)
    (hopen : a.isEnded = false) (hlogins : Viewer.logins more = [])
    (hchallenges : Viewer.challenges more = [])
    (hstage : a'.stage = .confirming ∨ (∃ awaiting, a'.stage = .looping none awaiting) ∨
      a'.isEnded = true) :
    Begins env a' (records ++ more) := by
  refine .inl ⟨?_, fun _ => ?_, hstage⟩
  · rw [logins_append, h.logins, hlogins]
    rfl
  · rw [challenges_append, h.challenges hopen, hchallenges]
    rfl

theorem begins_step {a a' : Attempt} {records : List WireRecord} {l : Label}
    (hs : Begins env a records) (hstep : Step env a l a') : Begins env a' (records ++ l.records) := by
  rcases hs with h | ⟨hash, request, hfirst, hresponse⟩
  -- once the first login is among the records it stays there
  swap
  · exact .inr ⟨hash, request, hfirst.append _, hresponse⟩
  cases hstep with
  | call call =>
    have hstage := call_stage a call
    have hended : (a.call call).1.isEnded = a.isEnded := by
      unfold isEnded
      rw [hstage]
    refine .inl ⟨?_, fun hopen => ?_, ?_⟩
    · exact (congrArg Viewer.logins (List.append_nil records)).trans h.logins
    · exact (congrArg Viewer.challenges (List.append_nil records)).trans
        (h.challenges (hended ▸ hopen))
    · rw [hstage, hended]
      exact h.stage
  | @confirm queued rest hstage hqueue =>
    -- nothing is written while the connection is to be confirmed
    have hopen : a.isEnded = false := by
      rw [isEnded, hstage]
    refine h.open hopen rfl rfl ?_
    cases queued.command with
    | continueInsecure accepted =>
      cases accepted with
      | true => exact .inr (.inl ⟨_, rfl⟩)
      | false => exact .inr (.inr rfl)
    | password | secondFactor => exact .inl hstage
  | @command request awaiting queued rest turn sending hstage hawaiting hqueue hturn =>
    -- without a request there is no proof to send, only a code
    obtain ⟨hopen, rfl⟩ := h.looping hstage
    have htakes := @takes_onCommand env { a with queue := rest } none awaiting hstage
      queued.command sending
    rw [← hturn] at htakes
    cases htakes with
    | drops => exact h.open hopen rfl rfl (.inr (.inl ⟨awaiting, hstage⟩))
    | ends hended hlogins => exact h.ended hended hlogins
    | codes _ _ hlogins hchallenges => exact h.open hopen hlogins hchallenges (.inr (.inl ⟨_, rfl⟩))
    | passwords _ hrequest => cases hrequest
  | @network request awaiting turn arrives hstage hturn =>
    obtain ⟨hopen, rfl⟩ := h.looping hstage
    have hhears := @hears_onNetwork env a none awaiting arrives
    rw [← hturn] at hhears
    cases hhears with
    | ends hended hlogins => exact h.ended hended hlogins
    -- the first challenge, and the first login with its answer
    | answers => exact .inr ⟨_, _, ⟨records, [], h.logins, h.challenges hopen, rfl⟩, rfl⟩
    | rejected _ hlogins hchallenges =>
      exact h.open hopen hlogins hchallenges (.inr (.inl ⟨_, rfl⟩))
    | idles _ hlogins hchallenges =>
      exact h.open hopen hlogins hchallenges (.inr (.inl ⟨awaiting, hstage⟩))
  | cancel | hangUp => exact h.ended rfl rfl

/-- The records of a whole run. -/
def recordsOf (ls : List Label) : List WireRecord := ls.flatMap Label.records

/-- **The first login request of a run answers the first challenge, with the response
to the password of the setup.** -/
theorem first_login {wire : Established} {a : Attempt} {ls : List Label}
    (hrun : Run (Step env) (start env wire) ls a) (hsent : logins (recordsOf ls) ≠ []) :
    ∃ hash request, FirstExchange (recordsOf ls) hash request ∧
      request.password = initialResponse env.sha256 env.setup.password hash := by
  have hstart : Begins env (start env wire) [] := by
    refine .inl ⟨rfl, fun _ => rfl, ?_⟩
    unfold start
    dsimp only
    split
    · exact .inl rfl
    · exact .inr (.inl ⟨_, rfl⟩)
  have hstep : ∀ ls a l a', Begins env a (recordsOf ls) → Step env a l a' →
      Begins env a' (recordsOf (ls ++ [l])) := by
    intro ls a l a' hs h
    rw [recordsOf, List.flatMap_append, List.flatMap_singleton]
    exact begins_step hs h
  have hbegins := hrun.history (P := fun ls a => Begins env a (recordsOf ls)) hstep hstart
  rcases hbegins with h | h
  · exact absurd h.logins hsent
  · exact h

end Attempt

end Viewer

end RdEngine
