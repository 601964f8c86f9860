/-
RdEngine/SessionSafety.lean

Safety of the viewer's session over whole runs: any sequence of `recv`,
`login`, `send_second_factor` and `close` calls, whatever arrives and however
the sends end.

`Move` says once what a call can do to a session; the lemmas named after the
calls show that each is such a move.  `Phase` ties the state to the records
that crossed the wire, and every move keeps it.  The result is
`viewerSession_safe`.
-/
import RdEngine.Lib.Runs
import RdEngine.Session

namespace RdEngine

namespace ViewerSession

/-- Nothing is left: the wire, the challenge, the request, the reports and the
permissions are cleared. -/
structure Cleared (session : ViewerSession) : Prop where
  state : session.state = .closed
  io : session.io = ⟨none, none⟩
  hash : session.hash = none
  request : session.request = none
  permissions : session.permissions = {}
  reports : session.permissionReports = []
  peerInfo : session.peerInfo = none

theorem terminate_cleared (session : ViewerSession) : session.terminate.Cleared :=
  ⟨rfl, rfl, rfl, rfl, rfl, rfl, rfl⟩

theorem Cleared.terminate_eq {session : ViewerSession} (h : session.Cleared) :
    session.terminate = session := by
  obtain ⟨io, security, state, hash, request, permissions, reports, peerInfo⟩ := session
  obtain ⟨rfl, rfl, rfl, rfl, rfl, rfl, rfl⟩ := h
  rfl

/-! ### What a call can do -/

/-- The states that wait for a login or for its outcome. -/
def Waiting (state : ViewerState) : Prop :=
  state = .awaitLogin ∨ state = .awaitApproval ∨ state = .await2Fa

theorem Waiting.ne {state : ViewerState} (h : Waiting state) :
    state ≠ .awaitHash ∧ state ≠ .active ∧ state ≠ .closed := by
  rcases h with rfl | rfl | rfl <;> decide

/-- What one call can do to a session: nothing but use the wire, clear it, or
one of the five changes that carry the login dialogue. -/
inductive Move (session : ViewerSession) : ViewerSession → List WireRecord → Prop
  | keep (io : SessionIo) (records : List WireRecord) :
      (session.state = .closed → io = session.io) →
      Move session { session with io := io } records
  | clear {session' : ViewerSession} (records : List WireRecord) :
      session'.Cleared → Move session session' records
  | challenge (io : SessionIo) {hash : Hash} :
      session.state = .awaitHash → hash.challenge ≠ "" →
      Move session { session with io := io, hash := some hash, state := .awaitLogin }
        [.received (.of (.hash hash))]
  | report (io : SessionIo) (permissions : Permissions) (reports : List PermissionInfo)
      (records : List WireRecord) :
      session.state ≠ .closed →
      Move session
        { session with io := io, permissions := permissions, permissionReports := reports } records
  | answered (io : SessionIo) {state : ViewerState} (records : List WireRecord) :
      session.state ≠ .active → session.state ≠ .closed → session.request.isSome → Waiting state →
      Move session { session with io := io, state := state } records
  | authorized (io : SessionIo) {response : LoginResponse} {info : PeerInfo} :
      session.state ≠ .closed → session.request.isSome → response.union = some (.peerInfo info) →
      Move session { session with io := io, state := .active, peerInfo := some info }
        [.received (.of (.loginResponse response))]
  | requested (io : SessionIo) {request : LoginRequest} :
      Waiting session.state → session.hash.isSome →
      (∀ first, session.request = some first → sameIdentity first request = true) →
      Move session
        { session with
          io := io, request := some { request with password := [] }, state := .awaitLogin }
        [.sent (.of (.loginRequest request))]

variable {box : SecretBox} {proto : Protobuf Message} {sha256 : Bytes → Bytes}

/-- A message is determined by its member. -/
theorem message_eq {message : Message} {union : MessageUnion} (h : message.union = some union) :
    message = .of union := by
  obtain ⟨_⟩ := message
  cases h
  rfl

/-- An event that belongs to the authenticated session. -/
def isAuthenticated : ViewerEvent → Bool
  | .payload _ | .permissionChanged _ => true
  | _ => false

/-- A turn that does not end the session is a move, and gives nothing of the
authenticated session unless it was active. -/
structure Fair (session : ViewerSession) (turn : ViewerTurn ViewerEvent) : Prop where
  move : (∀ e, turn.result ≠ some (.error e)) → turn.session.state ≠ .closed →
    Move session turn.session turn.records
  quiet : ∀ event, turn.result = some (.ok event) → isAuthenticated event = true →
    session.state = .active

theorem Fair.of_error (session session' : ViewerSession) (e : IoError) (message : Message) :
    Fair session ((session'.done (.error e)).heard message) where
  move h := absurd rfl (h e)
  quiet event h := by cases h

theorem Fair.of_shut {session session' : ViewerSession} {result : Except IoError ViewerEvent}
    (message : Message) (h : ∀ event, result = .ok event → isAuthenticated event = false) :
    Fair session ((session'.shut.done result).heard message) where
  move _ hne := absurd rfl hne
  quiet event he hp := by
    have hf := h event (Option.some.inj he)
    rw [hp] at hf
    exact Bool.noConfusion hf

theorem Fair.of_done {session session' : ViewerSession} {event : ViewerEvent} (message : Message)
    (hmove : Move session session' [.received message])
    (hquiet : isAuthenticated event = true → session.state = .active) :
    Fair session ((session'.done (.ok event)).heard message) where
  move _ _ := hmove
  quiet event' he hp := by
    obtain rfl := Except.ok.inj (Option.some.inj he)
    exact hquiet hp

theorem admit_fair (session : ViewerSession) (io : SessionIo) (message : Message)
    (hopen : session.state ≠ .closed) :
    Fair session (({ session with io := io }.admitRecord message).heard message) := by
  have hkeep : Move session { session with io := io } [.received message] :=
    .keep io _ fun h => absurd h hopen
  -- a payload passes only when the session is active, and ends it otherwise
  have hpayload : Fair session ((if session.state = .active then
      ({ session with io := io } : ViewerSession).done (.ok (.payload message))
      else ({ session with io := io } : ViewerSession).shut.done
        (.error (failure "Application payload before authentication"))).heard message) := by
    split
    · next hactive => exact .of_done message hkeep fun _ => hactive
    · exact .of_shut message fun event h => by cases h
  have hnotice : Fair session ((if session.state = .active then
      ({ session with io := io } : ViewerSession).done (.ok (.payload message))
      else ({ session with io := io } : ViewerSession).done
        (.ok (.preAuthControl message))).heard message) := by
    split
    · next hactive => exact .of_done message hkeep fun _ => hactive
    · exact .of_done message hkeep fun h => Bool.noConfusion h
  unfold admitRecord
  split
  · next info _ =>
    refine .of_done message ?_ ?_
    · unfold recordPermission
      split
      · exact hkeep
      · exact .report io _ _ _ hopen
    · have hstate : ({ session with io := io }.recordPermission info).state = session.state := by
        unfold recordPermission; split <;> rfl
      rw [hstate]
      split
      · next hactive => exact fun _ => hactive
      · exact fun h => Bool.noConfusion h
  · exact hnotice
  · exact hnotice
  · exact hpayload

theorem loginResponse_fair (session : ViewerSession) (io : SessionIo) {message : Message}
    {response : LoginResponse} (hmessage : message = .of (.loginResponse response))
    (hopen : session.state ≠ .closed) (hactive : session.state ≠ .active) :
    Fair session (({ session with io := io }.loginResponse response).heard message) := by
  unfold loginResponse
  rcases hunion : response.union with - | ⟨error | info⟩
  · exact .of_shut message fun event h => by cases h
  · by_cases hnone : session.request.isNone
    · simp only [hnone, if_true]
      exact .of_shut message fun event h => by cases h; rfl
    · simp only [hnone, if_false, Bool.false_eq_true]
      refine .of_done message (.answered io _ hactive hopen ?_ ?_) fun h => Bool.noConfusion h
      · simpa [Option.isSome_iff_ne_none] using hnone
      · unfold Waiting
        split_ifs <;> simp
  · by_cases hnone : session.request.isNone
    · simp only [hnone, if_true]
      exact .of_error _ _ _ _
    · simp only [hnone, if_false, Bool.false_eq_true]
      refine .of_done message ?_ fun h => Bool.noConfusion h
      rw [hmessage]
      exact .authorized io hopen (by simpa [Option.isSome_iff_ne_none] using hnone) hunion

theorem sendThen_fair (session : ViewerSession) (io : SessionIo) (message reply : Message)
    (answer : SendAnswer) (hopen : session.state ≠ .closed) :
    Fair session
      (({ session with io := io }.sendThen box proto reply answer id
        ViewerEvent.progress).heard message) := by
  have hmove : ∀ records, Move session ({ session with io := io }.sendThen box proto reply answer
      id ViewerEvent.progress).session records := by
    intro records
    unfold sendThen
    split <;> exact .keep _ _ fun h => absurd h hopen
  refine ⟨fun _ _ => hmove _, fun event he hp => ?_⟩
  have hevent : event = .progress := by
    unfold sendThen ViewerTurn.heard at he
    split at he
    · cases he
    · cases he
    · exact (Except.ok.inj (Option.some.inj he)).symm
  rw [hevent] at hp
  exact Bool.noConfusion hp

theorem dispatch_fair (session : ViewerSession) (io : SessionIo) (message : Message)
    (answer : SendAnswer) (hopen : session.state ≠ .closed) :
    Fair session
      (({ session with io := io }.dispatch box proto message answer).heard message) := by
  have hkeep : Move session { session with io := io } [.received message] :=
    .keep io _ fun h => absurd h hopen
  have hadmit := admit_fair session io message hopen
  have hprogress : Fair session
      ((({ session with io := io } : ViewerSession).done (.ok .progress)).heard message) :=
    .of_done message hkeep fun h => Bool.noConfusion h
  unfold dispatch
  split
  · exact .of_shut message fun event h => by cases h; rfl
  · split
    · -- a probe: payload when active, otherwise answered or ignored
      split
      · next hactive => exact .of_done message hkeep fun _ => hactive
      · split
        · exact sendThen_fair session io message message answer hopen
        · exact hprogress
    · exact hprogress
    · split
      · exact hprogress
      · exact hadmit
    -- a challenge counts only while the session waits for it
    · next hash hunion =>
      split
      · next hstate =>
        split
        · exact .of_shut message fun event h => by cases h
        · next hne =>
          refine .of_done message ?_ fun h => Bool.noConfusion h
          rw [message_eq hunion]
          exact .challenge io hstate hne
      · exact hadmit
    · next response hunion =>
      split
      · next hactive => exact loginResponse_fair session io (message_eq hunion) hopen hactive
      · exact hadmit
    · exact hadmit

/-! ### The calls are moves -/

theorem recvInner_fair (box : SecretBox) (proto : Protobuf Message) (session : ViewerSession) (incoming : Incoming) (answer : SendAnswer) :
    Fair session (session.recvInner box proto incoming answer) := by
  have hshut : ∀ (session' : ViewerSession) (result : Except IoError ViewerEvent),
      (∀ event, result = .ok event → isAuthenticated event = false) →
      Fair session (session'.shut.done result) := by
    intro session' result h
    refine ⟨fun _ hne => absurd rfl hne, fun event he hp => ?_⟩
    have hf := h event (Option.some.inj he)
    rw [hp] at hf
    exact Bool.noConfusion hf
  unfold recvInner
  split
  · next hclosed =>
    refine ⟨fun _ hne => absurd hclosed hne, fun event he hp => ?_⟩
    cases he
    exact Bool.noConfusion hp
  · next hopen =>
    dsimp only
    split
    · exact dispatch_fair session _ _ answer hopen
    · exact hshut _ _ fun event h => by cases h; rfl
    · exact hshut _ _ fun event h => by cases h
    · exact hshut _ _ fun event h => by cases h

/-- An error of `recv`, or the closed state, is the end of the session. -/
theorem recv_ends (session : ViewerSession) (incoming : Incoming) (answer : SendAnswer)
    (h : (∃ e, (session.recv box proto incoming answer).result = some (.error e)) ∨
      (session.recv box proto incoming answer).session.state = .closed) :
    (session.recv box proto incoming answer).session.Cleared := by
  unfold recv at h ⊢
  generalize session.recvInner box proto incoming answer = turn at *
  rcases hresult : turn.result with - | e | event
  · by_cases hclosed : turn.session.state = .closed
    · simpa only [hresult, hclosed, if_true] using terminate_cleared turn.session
    · simp [hresult, hclosed] at h
  · simpa only [hresult] using terminate_cleared turn.session
  · by_cases hclosed : turn.session.state = .closed
    · simpa only [hresult, hclosed, if_true] using terminate_cleared turn.session
    · simp [hresult, hclosed] at h

theorem recv_result (session : ViewerSession) (incoming : Incoming) (answer : SendAnswer) :
    (session.recv box proto incoming answer).result =
      (session.recvInner box proto incoming answer).result := by
  unfold recv
  dsimp only
  split
  · rfl
  · split <;> rfl

theorem recv_move (session : ViewerSession) (incoming : Incoming) (answer : SendAnswer) :
    Move session (session.recv box proto incoming answer).session
      (session.recv box proto incoming answer).records := by
  have hfair := recvInner_fair box proto session incoming answer
  unfold recv
  dsimp only
  split
  · exact .clear _ (terminate_cleared _)
  · next hresult =>
    split
    · exact .clear _ (terminate_cleared _)
    · next hne => exact hfair.move (fun e => hresult e) hne

theorem sendThen_move {α : Type} (session : ViewerSession) (message : Message)
    (answer : SendAnswer) (next : ViewerSession → ViewerSession) (value : α)
    (hopen : session.state ≠ .closed)
    (hnext : ∀ io, Move session (next { session with io := io }) [.sent message]) :
    Move session (session.sendThen box proto message answer next value).session
      (session.sendThen box proto message answer next value).records := by
  unfold sendThen
  split
  · exact .keep _ _ fun h => absurd h hopen
  · exact .keep _ _ fun h => absurd h hopen
  · exact hnext _

theorem orTerminate_move {α : Type} {session : ViewerSession} {turn : ViewerTurn α}
    (h : Move session turn.session turn.records) :
    Move session (orTerminate turn).session (orTerminate turn).records := by
  unfold orTerminate
  split
  · exact .clear _ (terminate_cleared _)
  · exact h

/-- What `checkLogin` lets pass. -/
theorem checkLogin_ok {session : ViewerSession} {request request' : LoginRequest}
    {password : Option Bytes} (h : session.checkLogin sha256 request password = .ok request') :
    Waiting session.state ∧ session.hash.isSome ∧
      ∀ first, session.request = some first → sameIdentity first request' = true := by
  unfold checkLogin at h
  split at h
  · cases h
  · next hstate =>
    split at h
    · cases h
    · next hash hhash =>
      split_ifs at h with _ _ hsame
      split at h
      · cases h
      · cases h
        refine ⟨?_, by rw [hhash]; rfl, fun first hfirst => ?_⟩
        · unfold Waiting
          by_contra hne
          exact hstate ⟨fun h => hne (.inl h), fun h => hne (.inr (.inl h)),
            fun h => hne (.inr (.inr h))⟩
        · rw [hfirst] at hsame
          simpa [sameIdentity] using hsame

theorem login_move (session : ViewerSession) (request : LoginRequest) (password : Option Bytes)
    (expired : Bool) (answer : SendAnswer) :
    Move session (session.login box proto sha256 request password expired answer).session
      (session.login box proto sha256 request password expired answer).records := by
  unfold login
  split
  · exact .clear _ (terminate_cleared _)
  · split
    · exact .keep session.io [] fun _ => rfl
    · next request' hcheck =>
      obtain ⟨hwait, hhash, hsame⟩ := checkLogin_ok hcheck
      exact orTerminate_move (sendThen_move session _ answer _ () hwait.ne.2.2
        fun io => .requested io hwait hhash hsame)

theorem sendSecondFactor_move (session : ViewerSession) (code : String) (expired : Bool)
    (answer : SendAnswer) :
    Move session (session.sendSecondFactor box proto code expired answer).session
      (session.sendSecondFactor box proto code expired answer).records := by
  unfold sendSecondFactor
  split
  · exact .clear _ (terminate_cleared _)
  · split
    · exact .keep session.io [] fun _ => rfl
    · next hstate =>
      have hopen : session.state ≠ .closed := fun h => hstate (by rw [h]; exact ViewerState.noConfusion)
      exact orTerminate_move (sendThen_move session _ answer id () hopen
        fun io => .keep io _ fun h => absurd h hopen)

theorem close_move (session : ViewerSession) (answer : SendAnswer) :
    Move session (session.close box proto answer).session
      (session.close box proto answer).records := by
  unfold close
  split
  · exact .keep session.io [] fun _ => rfl
  · next hopen =>
    dsimp only
    split
    · exact sendThen_move session _ answer id () hopen fun io => .keep io _ fun h => absurd h hopen
    · exact .clear _ (terminate_cleared _)

/-! ### Runs -/

/-- A call of the session's interface, with what the connection does in it. -/
inductive Call where
  | recv (incoming : Incoming) (answer : SendAnswer)
  | login (request : LoginRequest) (password : Option Bytes) (expired : Bool) (answer : SendAnswer)
  | secondFactor (code : String) (expired : Bool) (answer : SendAnswer)
  | close (answer : SendAnswer)

section Runs

variable (box : SecretBox) (proto : Protobuf Message) (sha256 : Bytes → Bytes)

/-- The session after a call, and the records of the call. -/
def call (session : ViewerSession) : Call → ViewerSession × List WireRecord
  | .recv incoming answer =>
    let turn := session.recv box proto incoming answer
    (turn.session, turn.records)
  | .login request password expired answer =>
    let turn := session.login box proto sha256 request password expired answer
    (turn.session, turn.records)
  | .secondFactor code expired answer =>
    let turn := session.sendSecondFactor box proto code expired answer
    (turn.session, turn.records)
  | .close answer =>
    let turn := session.close box proto answer
    (turn.session, turn.records)

/-- A session, with the records that crossed its wire so far. -/
def observeStep (o : ViewerSession × List WireRecord) (c : Call) :
    ViewerSession × List WireRecord :=
  ((o.1.call box proto sha256 c).1, o.2 ++ (o.1.call box proto sha256 c).2)

/-- The calls, one after the other, and the records of the wire. -/
def observe (session : ViewerSession) (calls : List Call) : ViewerSession × List WireRecord :=
  calls.foldl (observeStep box proto sha256) (session, [])

end Runs

theorem call_move (session : ViewerSession) (c : Call) :
    Move session (session.call box proto sha256 c).1 (session.call box proto sha256 c).2 := by
  cases c with
  | recv incoming answer => exact recv_move session incoming answer
  | login request password expired answer =>
    exact login_move session request password expired answer
  | secondFactor code expired answer => exact sendSecondFactor_move session code expired answer
  | close answer => exact close_move session answer

/-! ### The phase and the records -/

/-- A challenge was received, and then a login request was sent. -/
def Requested (log : List WireRecord) : Prop :=
  ∃ l₁ l₂ l₃ hash request, hash.challenge ≠ "" ∧
    log = l₁ ++ WireRecord.received (Message.of (.hash hash)) :: l₂ ++
      WireRecord.sent (Message.of (.loginRequest request)) :: l₃

/-- After that, a login response with the peer's information was received. -/
def LoggedIn (log : List WireRecord) : Prop :=
  ∃ l₁ l₂ response info, response.union = some (.peerInfo info) ∧ Requested l₁ ∧
    log = l₁ ++ WireRecord.received (Message.of (.loginResponse response)) :: l₂

theorem Requested.append {log : List WireRecord} (h : Requested log) (more : List WireRecord) :
    Requested (log ++ more) := by
  obtain ⟨l₁, l₂, l₃, hash, request, hne, rfl⟩ := h
  exact ⟨l₁, l₂, l₃ ++ more, hash, request, hne, by simp⟩

theorem LoggedIn.append {log : List WireRecord} (h : LoggedIn log) (more : List WireRecord) :
    LoggedIn (log ++ more) := by
  obtain ⟨l₁, l₂, response, info, hinfo, hreq, rfl⟩ := h
  exact ⟨l₁, l₂ ++ more, response, info, hinfo, hreq, by simp⟩

/-- The state of a session, related to the records of its run. -/
structure Phase (log : List WireRecord) (session : ViewerSession) : Prop where
  fresh : session.state = .awaitHash → session.hash = none ∧ session.request = none
  challenged : ∀ hash, session.hash = some hash →
    hash.challenge ≠ "" ∧ .received (.of (.hash hash)) ∈ log
  requested : session.request.isSome → Requested log
  active : session.state = .active → LoggedIn log
  closed : session.state = .closed → session.Cleared

theorem Phase.step {log records : List WireRecord} {session session' : ViewerSession}
    (h : Phase log session) (hmove : Move session session' records) :
    Phase (log ++ records) session' := by
  have hchallenged : ∀ hash, session.hash = some hash →
      hash.challenge ≠ "" ∧ .received (.of (.hash hash)) ∈ log ++ records := fun hash hh =>
    ⟨(h.challenged hash hh).1, List.mem_append_left _ (h.challenged hash hh).2⟩
  cases hmove with
  | keep io _ hio =>
    refine ⟨h.fresh, hchallenged, fun hr => (h.requested hr).append _,
      fun ha => (h.active ha).append _, fun hc => ?_⟩
    rw [hio hc]
    exact h.closed hc
  | clear _ hcleared =>
    refine ⟨fun hs => ?_, fun hash hh => ?_, fun hr => ?_, fun hs => ?_, fun _ => hcleared⟩
    · rw [hcleared.state] at hs; cases hs
    · rw [hcleared.hash] at hh; cases hh
    · rw [hcleared.request] at hr; cases hr
    · rw [hcleared.state] at hs; cases hs
  -- the challenge just received is the last record
  | challenge io hstate hne =>
    refine ⟨fun hs => ?_, fun hash hh => ?_, fun hr => (h.requested hr).append _, fun hs => ?_,
      fun hs => ?_⟩
    · cases hs
    · obtain rfl := Option.some.inj hh
      exact ⟨hne, List.mem_append_right _ (List.mem_singleton.mpr rfl)⟩
    · cases hs
    · cases hs
  | report io permissions reports _ hopen =>
    exact ⟨h.fresh, hchallenged, fun hr => (h.requested hr).append _,
      fun ha => (h.active ha).append _, fun hc => absurd hc hopen⟩
  | answered io _ hactive hopen hreq hwait =>
    obtain ⟨hhash, hact, hclosed⟩ := hwait.ne
    exact ⟨fun hs => absurd hs hhash, hchallenged, fun hr => (h.requested hr).append _,
      fun hs => absurd hs hact, fun hs => absurd hs hclosed⟩
  -- the answer of the peer comes behind the request
  | authorized io hopen hreq hinfo =>
    refine ⟨fun hs => ?_, hchallenged, fun hr => (h.requested hr).append _, fun _ => ?_,
      fun hs => ?_⟩
    · cases hs
    · exact ⟨log, [], _, _, hinfo, h.requested hreq, rfl⟩
    · cases hs
  -- the request comes behind the challenge it answers
  | requested io hwait hhash hsame =>
    refine ⟨fun hs => ?_, hchallenged, fun _ => ?_, fun hs => ?_, fun hs => ?_⟩
    · cases hs
    · obtain ⟨hash, hh⟩ := Option.isSome_iff_exists.mp hhash
      obtain ⟨hne, hmem⟩ := h.challenged hash hh
      obtain ⟨l₁, l₂, hlog⟩ := List.append_of_mem hmem
      exact ⟨l₁, l₂, [], hash, _, hne, by rw [hlog]⟩
    · cases hs
    · cases hs

theorem observe_phase (box : SecretBox) (proto : Protobuf Message) (sha256 : Bytes → Bytes)
    (established : Established) (calls : List Call) :
    Phase ((fromEstablished established).observe box proto sha256 calls).2
      ((fromEstablished established).observe box proto sha256 calls).1 := by
  refine Lts.foldl_invariant (I := fun o : ViewerSession × List WireRecord => Phase o.2 o.1) ?_
    (fun o c h => h.step (call_move o.1 c)) calls
  refine ⟨fun _ => ⟨rfl, rfl⟩, fun hash hh => ?_, fun hr => ?_, fun hs => ?_, fun hs => ?_⟩
  · cases hh
  · cases hr
  · cases hs
  · cases hs

/-! ### What is fixed once set -/

theorem sameIdentity_iff {first request : LoginRequest} :
    sameIdentity first request = true ↔ first.username = request.username ∧
      first.myId = request.myId ∧ first.sessionId = request.sessionId := by
  simp [sameIdentity]

/-- From one session to a later one: the challenge and the identity of the
login, once set, are the same until the session is closed, and a closed
session is left as it is. -/
structure Fixed (session later : ViewerSession) : Prop where
  hash : ∀ hash, session.hash = some hash → later.hash = some hash ∨ later.Cleared
  identity : ∀ first, session.request = some first →
    (∃ request, later.request = some request ∧ sameIdentity first request = true) ∨ later.Cleared
  closed : session.Cleared → later = session

theorem Fixed.refl (session : ViewerSession) : Fixed session session where
  hash _ h := .inl h
  identity first h := .inl ⟨first, h, sameIdentity_iff.mpr ⟨rfl, rfl, rfl⟩⟩
  closed _ := rfl

theorem Fixed.trans {s₁ s₂ s₃ : ViewerSession} (h : Fixed s₁ s₂) (h' : Fixed s₂ s₃) :
    Fixed s₁ s₃ := by
  have hkeep : s₂.Cleared → s₃.Cleared := fun hc => (h'.closed hc).symm ▸ hc
  refine ⟨fun hash hh => ?_, fun first hf => ?_, fun hc => ?_⟩
  · rcases h.hash hash hh with h₂ | h₂
    · exact h'.hash hash h₂
    · exact .inr (hkeep h₂)
  · rcases h.identity first hf with ⟨second, h₂, hsame⟩ | h₂
    · rcases h'.identity second h₂ with ⟨third, h₃, hsame'⟩ | h₃
      · rw [sameIdentity_iff] at hsame hsame'
        exact .inl ⟨third, h₃, sameIdentity_iff.mpr ⟨hsame.1.trans hsame'.1,
          hsame.2.1.trans hsame'.2.1, hsame.2.2.trans hsame'.2.2⟩⟩
      · exact .inr h₃
    · exact .inr (hkeep h₂)
  · have h₂ := h.closed hc
    rw [h'.closed (h₂.symm ▸ hc), h₂]

/-- No call leaves the closed state, or changes anything in it. -/
theorem call_cleared {session : ViewerSession} (h : session.Cleared) (c : Call) :
    (session.call box proto sha256 c).1 = session := by
  cases c with
  | recv incoming answer =>
    have hinner : session.recvInner box proto incoming answer = session.done (.ok .closed) := by
      rw [recvInner, if_pos h.state]
    have hstate : (session.done (.ok ViewerEvent.closed)).session.state = .closed := h.state
    simp only [call, recv, hinner, done, h.state, if_true]
    exact h.terminate_eq
  | login request password expired answer =>
    have hcheck : session.checkLogin sha256 request password =
        .error (failure "Login is not allowed in this state") := by
      rw [checkLogin, if_pos (by rw [h.state]; decide)]
    cases expired with
    | false => simp only [call, login, hcheck, Bool.false_eq_true, if_false]; rfl
    | true => exact h.terminate_eq
  | secondFactor code expired answer =>
    cases expired with
    | false =>
      have hne : session.state ≠ .await2Fa := by rw [h.state]; decide
      simp only [call, sendSecondFactor, if_pos hne, Bool.false_eq_true, if_false]
      rfl
    | true => exact h.terminate_eq
  | close answer =>
    simp only [call, close, if_pos h.state]
    rfl

theorem Phase.fixed {log records : List WireRecord} {session session' : ViewerSession}
    (h : Phase log session) (hmove : Move session session' records)
    (hclosed : session.Cleared → session' = session) : Fixed session session' := by
  have hsame : session'.hash = session.hash → session'.request = session.request →
      Fixed session session' := fun hh hr =>
    ⟨fun hash h => .inl (hh.trans h),
      fun first hf => .inl ⟨first, hr.trans hf, sameIdentity_iff.mpr ⟨rfl, rfl, rfl⟩⟩, hclosed⟩
  cases hmove with
  | keep io _ _ => exact hsame rfl rfl
  | clear _ hcleared => exact ⟨fun _ _ => .inr hcleared, fun _ _ => .inr hcleared, hclosed⟩
  | challenge io hstate hne =>
    obtain ⟨hhash, hrequest⟩ := h.fresh hstate
    refine ⟨fun hash hh => ?_, fun first hf => ?_, hclosed⟩
    · rw [hhash] at hh; cases hh
    · rw [hrequest] at hf; cases hf
  | report io _ _ _ _ => exact hsame rfl rfl
  | answered io _ _ _ _ _ => exact hsame rfl rfl
  | authorized io _ _ _ => exact hsame rfl rfl
  | requested io _ _ hidentity =>
    exact ⟨fun hash h => .inl h, fun first hf => .inl ⟨_, rfl, hidentity first hf⟩, hclosed⟩

theorem observe_fixed (box : SecretBox) (proto : Protobuf Message) (sha256 : Bytes → Bytes)
    (established : Established) (calls more : List Call) :
    Fixed ((fromEstablished established).observe box proto sha256 calls).1
      ((fromEstablished established).observe box proto sha256 (calls ++ more)).1 := by
  induction more using List.reverseRecOn with
  | nil => rw [List.append_nil]; exact .refl _
  | append_singleton more c ih =>
    have hphase := observe_phase box proto sha256 established (calls ++ more)
    rw [← List.append_assoc]
    unfold observe at hphase ih ⊢
    rw [List.foldl_append]
    exact ih.trans (hphase.fixed (call_move _ c) fun hc => call_cleared hc c)

/-! ### Failures of the caller's calls -/

theorem orTerminate_error {α : Type} {turn : ViewerTurn α} {e : IoError}
    (h : (orTerminate turn).result = some (.error e)) : (orTerminate turn).session.Cleared := by
  unfold orTerminate at h ⊢
  split
  · exact terminate_cleared _
  · next hresult =>
    split at h
    · next e' he => exact absurd he (hresult e')
    · exact absurd h (hresult e)

theorem login_fails {session : ViewerSession} {request : LoginRequest} {password : Option Bytes}
    {expired : Bool} {answer : SendAnswer} {e : IoError}
    (h : (session.login box proto sha256 request password expired answer).result =
      some (.error e)) :
    (session.login box proto sha256 request password expired answer).session.Cleared ∨
    (expired = false ∧ session.checkLogin sha256 request password = .error e ∧
      (session.login box proto sha256 request password expired answer).session = session) := by
  cases expired with
  | true => exact .inl (terminate_cleared _)
  | false =>
    rcases hcheck : session.checkLogin sha256 request password with e' | request'
    · simp only [login, hcheck, Bool.false_eq_true, if_false] at h ⊢
      obtain rfl := Except.error.inj (Option.some.inj h)
      exact .inr ⟨trivial, rfl, rfl⟩
    · simp only [login, hcheck, Bool.false_eq_true, if_false] at h ⊢
      exact .inl (orTerminate_error h)

theorem sendSecondFactor_fails {session : ViewerSession} {code : String} {expired : Bool}
    {answer : SendAnswer} {e : IoError}
    (h : (session.sendSecondFactor box proto code expired answer).result = some (.error e)) :
    (session.sendSecondFactor box proto code expired answer).session.Cleared ∨
    (expired = false ∧ session.state ≠ .await2Fa ∧
      (session.sendSecondFactor box proto code expired answer).session = session) := by
  cases expired with
  | true => exact .inl (terminate_cleared _)
  | false =>
    by_cases hstate : session.state ≠ .await2Fa
    · simp only [sendSecondFactor, if_pos hstate, Bool.false_eq_true, if_false]
      exact .inr ⟨trivial, hstate, rfl⟩
    · simp only [sendSecondFactor, if_neg hstate, Bool.false_eq_true, if_false] at h ⊢
      exact .inl (orTerminate_error h)

theorem close_ends {log : List WireRecord} {session : ViewerSession} (hphase : Phase log session)
    {answer : SendAnswer} (h : (session.close box proto answer).result ≠ none) :
    (session.close box proto answer).session.Cleared := by
  unfold close at h ⊢
  split
  · next hclosed => exact hphase.closed hclosed
  · next hopen =>
    rw [if_neg hopen] at h
    dsimp only at h ⊢
    split
    · next hnone => simp only [hnone, ne_eq, not_true_eq_false] at h
    · exact terminate_cleared _

/-! ### The session is safe -/

/-- What holds of a session reached with these records, and of any next call.
A login or a second-factor code that is rejected before the send leaves the
session as it is; every other failure ends it. -/
structure Safe (box : SecretBox) (proto : Protobuf Message) (sha256 : Bytes → Bytes)
    (log : List WireRecord) (session : ViewerSession) : Prop where
  active : session.state = .active → LoggedIn log
  quiet : ∀ incoming answer event,
    (session.recv box proto incoming answer).result = some (.ok event) →
    isAuthenticated event = true → LoggedIn log
  denied : session.state ≠ .active →
    session.effectivePermissions = {} ∧ ∃ e, session.intoAuthenticatedParts = .error e
  recvFails : ∀ incoming answer e,
    (session.recv box proto incoming answer).result = some (.error e) →
    (session.recv box proto incoming answer).session.Cleared
  loginExpired : ∀ request password answer,
    (session.login box proto sha256 request password true answer).session.Cleared
  loginFails : ∀ request password expired answer e,
    (session.login box proto sha256 request password expired answer).result = some (.error e) →
    session.checkLogin sha256 request password ≠ .error e →
    (session.login box proto sha256 request password expired answer).session.Cleared
  loginRejected : ∀ request password answer e,
    session.checkLogin sha256 request password = .error e →
    (session.login box proto sha256 request password false answer) = session.done (.error e)
  secondFactorExpired : ∀ code answer,
    (session.sendSecondFactor box proto code true answer).session.Cleared
  secondFactorFails : ∀ code expired answer e, session.state = .await2Fa →
    (session.sendSecondFactor box proto code expired answer).result = some (.error e) →
    (session.sendSecondFactor box proto code expired answer).session.Cleared
  closes : ∀ answer, (session.close box proto answer).result ≠ none →
    (session.close box proto answer).session.Cleared
  closed : session.state = .closed →
    session.Cleared ∧ ∀ c, (session.call box proto sha256 c).1 = session

theorem Phase.safe {log : List WireRecord} {session : ViewerSession} (h : Phase log session) :
    Safe box proto sha256 log session where
  active := h.active
  quiet incoming answer event hresult hevent := by
    rw [recv_result] at hresult
    exact h.active ((recvInner_fair box proto session incoming answer).quiet event hresult hevent)
  denied hne := by
    refine ⟨if_neg hne, failure "Session is not authenticated", ?_⟩
    rw [intoAuthenticatedParts, if_pos hne]
  recvFails incoming answer e he := recv_ends session incoming answer (.inl ⟨e, he⟩)
  loginExpired request password answer := terminate_cleared _
  loginFails request password expired answer e he hcheck := by
    rcases login_fails he with hc | ⟨-, hrejected, -⟩
    · exact hc
    · exact absurd hrejected hcheck
  loginRejected request password answer e hcheck := by
    simp only [login, hcheck, Bool.false_eq_true, if_false]
  secondFactorExpired code answer := terminate_cleared _
  secondFactorFails code expired answer e hstate he := by
    rcases sendSecondFactor_fails he with hc | ⟨-, hne, -⟩
    · exact hc
    · exact absurd hstate hne
  closes answer hresult := close_ends h hresult
  closed hclosed := ⟨h.closed hclosed, call_cleared (h.closed hclosed)⟩

/-- **Viewer session safety**: every session reached from an established
connection by any calls is safe, and what it has fixed stays fixed in every
continuation of the run. -/
theorem viewerSession_safe (box : SecretBox) (proto : Protobuf Message) (sha256 : Bytes → Bytes)
    (established : Established) (calls : List Call) :
    Safe box proto sha256 ((fromEstablished established).observe box proto sha256 calls).2
      ((fromEstablished established).observe box proto sha256 calls).1 ∧
    ∀ more, Fixed ((fromEstablished established).observe box proto sha256 calls).1
      ((fromEstablished established).observe box proto sha256 (calls ++ more)).1 :=
  ⟨(observe_phase box proto sha256 established calls).safe,
    observe_fixed box proto sha256 established calls⟩

end ViewerSession

end RdEngine
