/-
RdEngine/Host/ServingSafety.lean

What the serving host never does.

The connections are those of `HostStep`, so what is known of a click holds of the
whole host (`Server.Step.host`): a screen is opened, and a record is written or an
input injected, only for a connection its operator allowed (`serving_allowed`).

The grant of the connection is that of its session from the login on (`Armed`,
`Served`).
-/
import RdEngine.Host.ApprovalIsolation
import RdEngine.Host.Serving

namespace RdEngine

/-! ### A grant stays within the ceiling -/

/-- The keyboard is granted only within this ceiling. -/
structure HostAuthentication.Capped (ceiling : Permissions) (auth : HostAuthentication) : Prop where
  config : auth.config.ceiling = ceiling
  grant : auth.grant.keyboard = true → ceiling.keyboard = true

namespace HostAuthentication.Capped

variable {ceiling : Permissions} {auth : HostAuthentication} {env : Answers}

theorem close (h : Capped ceiling auth) : Capped ceiling auth.close := ⟨h.config, nofun⟩

theorem after {turn : AuthTurn} (h : Capped ceiling turn.auth) (events : List AuthEvent) :
    Capped ceiling (turn.after events).auth := h

theorem error (h : Capped ceiling auth) (message : String) (terminal : Bool) :
    Capped ceiling (auth.error message terminal).auth := by
  cases terminal with
  | false => exact h
  | true => exact h.close

theorem within (h : Capped ceiling auth) (grant : Permissions) :
    Capped ceiling { auth with grant := grant.intersect auth.config.ceiling } := by
  refine ⟨h.config, fun hkeyboard => ?_⟩
  have hboth : (grant.keyboard && auth.config.ceiling.keyboard) = true := hkeyboard
  rw [h.config] at hboth
  exact (Bool.and_eq_true_iff.mp hboth).2

theorem authorize (h : Capped ceiling auth) : Capped ceiling auth.authorize.auth := by
  refine ⟨h.config, fun hkeyboard => h.grant ?_⟩
  unfold HostAuthentication.authorize at hkeyboard
  cases hoptions : auth.request.bind (·.option) with
  | none =>
    rw [hoptions] at hkeyboard
    exact hkeyboard
  | some options =>
    rw [hoptions] at hkeyboard
    have happlied : (applyOptions auth.grant options).keyboard = true := hkeyboard
    -- an option only takes away
    simp only [applyOptions] at happlied
    split at happlied
    · cases happlied
    · exact happlied

theorem afterPrimary (h : Capped ceiling auth) : Capped ceiling (auth.afterPrimary env).auth := by
  unfold HostAuthentication.afterPrimary
  split
  · exact ⟨h.config, h.grant⟩
  · exact h.authorize

theorem pollApproval (h : Capped ceiling auth) : Capped ceiling (auth.pollApproval env).auth := by
  unfold HostAuthentication.pollApproval
  split
  · exact h
  split
  · exact h
  split
  · exact h
  · exact (h.error _ _).after _
  · next grant _ => exact (h.within grant).afterPrimary

theorem loginPrimary (h : Capped ceiling auth) (request : LoginRequest) (nonempty valid : Bool) :
    Capped ceiling (auth.loginPrimary env request nonempty valid).auth := by
  unfold HostAuthentication.loginPrimary
  rw [AuthTurn.after_auth]
  split
  · have hlatched : Capped ceiling { auth with
        request := some { request with password := [], osLogin := {} } } := ⟨h.config, h.grant⟩
    exact (hlatched.within _).afterPrimary
  split
  · refine Capped.error ?_ _ _
    exact ⟨h.config, h.grant⟩
  · have hasked : Capped ceiling (HostAuthentication.pollApproval { auth with
        state := .awaitApproval
        request := some { request with password := [], osLogin := {} } } env).auth :=
      Capped.pollApproval ⟨h.config, h.grant⟩
    dsimp only
    split
    · exact (hasked.error _ _).after _
    · exact hasked

theorem login (h : Capped ceiling auth) (sha256 : Bytes → Bytes) (request : LoginRequest) :
    Capped ceiling (auth.login sha256 env request).auth := by
  unfold HostAuthentication.login
  split
  · exact h
  split
  · exact h
  split
  · exact h.error _ _
  split
  · exact h.error _ _
  split_ifs
  · exact h.error _ _
  · exact h.error _ _
  · exact h.error _ _
  unfold HostAuthentication.loginAccepted
  have hawaits : Capped ceiling { auth with state := .awaitLogin } := ⟨h.config, h.grant⟩
  split
  · split
    · exact (hawaits.error _ _).after _
    · exact (hawaits.loginPrimary _ _ _).after _
  · exact hawaits.loginPrimary _ _ _

theorem secondFactor (h : Capped ceiling auth) (code : Auth2FA) :
    Capped ceiling (auth.secondFactor env code).auth := by
  unfold HostAuthentication.secondFactor
  split
  · exact h
  split
  · exact (h.error _ _).after _
  split
  · exact h.authorize
  · exact (h.error _ _).after _
  · exact (h.error _ _).after _

end HostAuthentication.Capped

/-- A session that has just started has granted nothing. -/
theorem HostSession.fromEstablished_grant {box : SecretBox} {proto : Protobuf Message}
    {wire : Established} {config : HostAuthConfig} {challenge : String} {answer : SendAnswer}
    {session : HostSession}
    (h : fromEstablished box proto wire config challenge answer = some (.ok session)) :
    session.auth.grant = {} := by
  unfold fromEstablished at h
  rcases hauth : HostAuthentication.new config challenge with e | auth
  · rw [hauth] at h
    cases h
  have hnew : auth.grant = {} := by
    unfold HostAuthentication.new at hauth
    split_ifs at hauth
    cases hauth
    rfl
  simp only [hauth] at h
  rcases hsend : (SessionIo.new wire.wire wire.prefetched).send box proto (hello auth) answer with
    ⟨io, - | ⟨e | ⟨⟩⟩⟩
  · rw [hsend] at h
    cases h
  · rw [hsend] at h
    cases h
  · rw [hsend] at h
    cases h
    exact hnew

namespace Host

open Lts

variable {box : SecretBox} {proto : Protobuf Message} {sha256 : Bytes → Bytes}

/-! ### What the operator armed -/

section Armed

variable {options : HostOptions} {s t : HostState} {l : HostLabel}

/-- A session that can be granted no more than is armed. -/
def ArmedSession (options : HostOptions) (session : HostSession) : Prop :=
  (∃ log, HostSession.Phase log session) ∧ session.auth.Capped (localPermissions options)

/-- The keyboard is granted only where the operator armed it. -/
def Armed (options : HostOptions) (s : HostState) : Prop :=
  match s.task with
  | .waiting _ session _ => ArmedSession options session
  | .returning _ turn _ => ArmedSession options turn.session
  | .serving _ parts =>
    parts.context.permissions.keyboard = true → (localPermissions options).keyboard = true
  | _ => True

theorem armed_call {session : HostSession} {grant : LocalGrant} {epoch : Nat} {waited : Waited}
    {expired : Bool} {sends : List SendAnswer} (h : ArmedSession options session) :
    ArmedSession options (session.recvWithApproval box proto sha256 waited
      (answers options grant epoch) expired sends).session := by
  obtain ⟨⟨log, hphase⟩, hcapped⟩ := h
  have hsettled : HostSession.Settled session.auth log (session.call box proto sha256
      (.recvWithApproval waited (answers options grant epoch) expired sends)) :=
    HostSession.call_settled hphase _
  refine ⟨⟨_, hsettled.phase⟩, ?_⟩
  exact (HostSession.recvWithApproval_drives hcapped (fun _ h => h.close) hcapped.pollApproval
    (hcapped.login sha256) hcapped.secondFactor waited expired sends).auth

theorem armed_returned {epoch turns : Nat} {turn : HostTurn HostEvent}
    {result : Except IoError HostEvent} (h : ArmedSession options turn.session) :
    Armed options (s.onReturn epoch turn turns result) := by
  cases result with
  | error e => trivial
  | ok event =>
    cases event with
    | awaitApproval | progress | unsupported => exact h
    | closed | loginRejected => trivial
    | authorized permissions =>
      obtain ⟨⟨log, hphase⟩, hcapped⟩ := h
      dsimp only [HostState.onReturn, HostState.onEvent]
      cases hparts : turn.session.intoAuthenticatedParts with
      | error e => trivial
      | ok parts =>
        -- the grant that is handed over is the machine's
        intro hkeyboard
        rw [(hphase.handed hparts).2.2] at hkeyboard
        exact hcapped.grant hkeyboard

/-- **The grant of a connection is armed**, whatever the step. -/
theorem Armed.step (h : Armed options s) (hstep : HostStep box proto sha256 options s l t) :
    Armed options t := by
  unfold Armed at h
  cases hstep with
  | approve requestId allow =>
    rcases approve_cases s requestId allow with hnone | ⟨_, _, _, _, hfirst⟩
    · rw [hnone]
      exact h
    · rw [hfirst]
      exact h
  | notify | requestClose | otherRequest => exact h
  | accept | draw | clear | gone | leave | stop => trivial
  | established htask hstart =>
    obtain ⟨hconfig, -⟩ := HostSession.fromEstablished_new hstart
    have hgrant := HostSession.fromEstablished_grant hstart
    refine ⟨⟨_, HostSession.fromEstablished_phase hstart⟩, by rw [hconfig]; rfl, ?_⟩
    rw [hgrant]
    nofun
  | call waited expired sends htask _ =>
    rw [htask] at h
    exact armed_call h
  | returned htask _ =>
    rw [htask] at h
    exact armed_returned h

end Armed

/-! ### The connections of the whole host -/

section Connections

variable {options : StartOptions} {selection : CodecSelection} {s t : Server} {l : Label}
  {p p' : PeerSession} {k : PeerSession.Label}

@[simp] theorem peerStep_approval : (s.peerStep p p' k).approval = s.approval := by cases k <;> rfl

@[simp] theorem peerStep_session : (s.peerStep p p' k).session = some p' := by cases k <;> rfl

@[simp] theorem peerStep_past : (s.peerStep p p' k).past = s.past := by cases k <;> rfl

@[simp] theorem peerStep_stage : (s.peerStep p p' k).stage = s.stage := by cases k <;> rfl

@[simp] theorem peerStep_due : (s.peerStep p p' k).due = s.due := by cases k <;> rfl

@[simp] theorem peerStep_origin : (s.peerStep p p' k).origin = s.origin := by cases k <;> rfl

/-- A step without a label of the connections leaves them alone. -/
theorem Server.Step.approval_eq (h : Server.Step box proto sha256 options selection s l t)
    (hl : l.host? = none) : t.approval = s.approval := by
  cases h with
  | peer => exact peerStep_approval
  | begins | cancelsPeer | probes | binds | updates | finishes | panics | closeTakes | closeJoins
  | closeJoinsPanicked | closeDropped | closeReturns => rfl
  | _ => cases hl

/-- **The connections are those of the login.** -/
theorem Server.Step.host {label : HostLabel}
    (h : Server.Step box proto sha256 options selection s l t) (hl : l.host? = some label) :
    HostStep box proto sha256 options.toHostOptions s.approval label t.approval := by
  cases h with
  | foreign _ hstep | authenticates _ _ _ hstep =>
    cases hl
    exact hstep
  | probeFails _ _ hstep | bindFails _ hstep | acceptFails _ _ _ hstep | closes _ _ _ _ hstep
  | accepts _ _ _ hstep | clears _ _ hstep | abandons _ _ _ _ hstep | noCodec _ _ _ _ _ hstep
  | peerReturns _ _ _ _ _ hstep | leaves _ _ _ _ hstep | givesUp _ _ _ _ hstep =>
    cases hl
    exact hstep
  | hears _ _ htask hresult =>
    cases hl
    exact .returned htask hresult
  | _ => cases hl

/-- A run of the host from its start. -/
abbrev ServerRun (box : SecretBox) (proto : Protobuf Message) (sha256 : Bytes → Bytes)
    (options : StartOptions) (selection : CodecSelection) (nextRequest : Nat) (ls : List Label)
    (s : Server) : Prop :=
  Run (Server.Step box proto sha256 options selection) (.start options nextRequest) ls s

variable {nextRequest : Nat} {ls : List Label}

theorem ServerRun.host (h : ServerRun box proto sha256 options selection nextRequest ls s) :
    HostRun box proto sha256 options.toHostOptions (.initial nextRequest)
      (ls.filterMap Label.host?) s.approval :=
  Run.project Server.approval Label.host? (fun _ _ _ hstep hl => hstep.approval_eq hl)
    (fun _ _ _ _ hstep hl => hstep.host hl) h

end Connections

/-! ### The reader of a session -/

namespace Reader

variable {reader : Reader} {s : ReaderState}

/-- One more turn of a reader that goes on. -/
theorem readPeer_snoc {inputs : List ReaderInput} (h : (reader.readPeer s inputs).2 = none)
    (input : ReaderInput) :
    reader.readPeer s (inputs ++ [input]) = reader.turn (reader.readPeer s inputs).1 input := by
  induction inputs generalizing s with
  | nil =>
    rw [List.nil_append, readPeer, readPeer]
    rcases reader.turn s input with ⟨t, - | result⟩ <;> rfl
  | cons first inputs ih =>
    rw [List.cons_append, readPeer]
    rw [readPeer] at h ⊢
    rcases hfirst : reader.turn s first with ⟨t, - | result⟩
    · rw [hfirst] at h
      exact ih h
    · rw [hfirst] at h
      cases h

/-- The sink of an unarmed reader is never called. -/
theorem turn_calls (h : ¬ reader.Armed) (s : ReaderState) (input : ReaderInput) :
    (reader.turn s input).1.calls = s.calls := by
  by_cases hinput : input.isInput = true
  · cases input with
    | cancelled | failed => cases hinput
    | received message room =>
      rw [turn_unarmed h s hinput room]
  · exact (turn_same ⟨rfl, rfl⟩ ((Bool.not_eq_true _).mp hinput)).2

theorem Armed.both (h : reader.Armed) :
    reader.permissions.keyboard = true ∧ reader.inputSink.isSome = true := by
  unfold Armed sink at h
  cases hsink : reader.inputSink with
  | none =>
    rw [hsink] at h
    cases h
  | some sink =>
    rw [hsink] at h
    refine ⟨?_, rfl⟩
    cases hkeyboard : reader.permissions.keyboard with
    | false =>
      rw [hkeyboard] at h
      cases h
    | true => rfl

end Reader

namespace PeerSession

theorem goes {p : PeerSession} (hreader : p.readerIsOver = false) : p.readerResult = none := by
  unfold PeerSession.readerIsOver at hreader
  rw [Bool.or_eq_false_iff] at hreader
  exact Option.not_isSome_iff_eq_none.mp (Bool.not_eq_true _ ▸ hreader.2)

theorem heard_reads {p : PeerSession} (hreader : p.readerIsOver = false)
    (input : ReaderInput) :
    ({ p with inputs := p.inputs ++ [input] } : PeerSession).heard
        = (p.reader.turn p.heard input).1 ∧
      ({ p with inputs := p.inputs ++ [input] } : PeerSession).readerResult
        = (p.reader.turn p.heard input).2 := by
  have hturn := Reader.readPeer_snoc (PeerSession.goes hreader) input
  exact ⟨congrArg Prod.fst hturn, congrArg Prod.snd hturn⟩

end PeerSession

/-! ### Only for a connection that was allowed -/

section Exposure

variable {options : StartOptions} {selection : CodecSelection} {s t : Server} {l : Label}
  {nextRequest : Nat} {ls : List Label}

/-- An action reaches the injection sink. -/
def Injects (s t : Server) : Prop :=
  ∃ p p', s.session = some p ∧ t.session = some p' ∧ p'.heard.calls ≠ p.heard.calls

/-- The screen is opened, a record is written, or an input injected. -/
def Exposes (s t : Server) : Label → Prop
  | .peer .opens | .peer (.writes _ _) => True
  | .peer (.reads _) => Injects s t
  | _ => False

/-- A session serves the connection that was authorized, with its grant. -/
def Served (options : StartOptions) (s : Server) : Prop :=
  ∀ p, s.session = some p → ∃ epoch parts, s.approval.task = .serving epoch parts ∧
    p.reader.permissions = parts.context.permissions ∧ p.reader.inputSink = options.inputSink

/-- The two tasks keep to their reader. -/
theorem reader_eq {stopped : Bool} {p p' : PeerSession} {k : PeerSession.Label}
    (h : PeerSession.Step stopped p k p') : p'.reader = p.reader := by cases h <;> rfl

theorem foreign_task {options : HostOptions} {s t : HostState} {l : HostLabel}
    (hl : l.isForeign = true) (h : HostStep box proto sha256 options s l t) : t.task = s.task := by
  cases h with
  | approve requestId allow =>
    rcases approve_cases s requestId allow with hnone | ⟨_, _, _, _, hfirst⟩
    · rw [hnone]
    · rw [hfirst]
  | notify | requestClose | otherRequest => rfl
  | _ => cases hl

/-- What a login step finds is no served connection. -/
theorem login_task {options : HostOptions} {s t : HostState} {l : HostLabel}
    (hl : l.isForeign = false) (hgone : l ≠ .gone) (h : HostStep box proto sha256 options s l t)
    (epoch : Nat) (parts : AuthenticatedParts) : s.task ≠ .serving epoch parts := by
  intro hserving
  cases h with
  | approve | notify | requestClose | otherRequest => cases hl
  | gone => exact hgone rfl
  | stop htask =>
    rw [hserving] at htask
    rcases htask with htask | htask <;> cases htask
  | accept _ htask | draw htask _ | clear htask | established htask _ | call _ _ _ htask _
  | returned htask _ | leave htask =>
    rw [hserving] at htask
    cases htask

/-- Without a session in both there is nothing to serve. -/
theorem Served.login (h : Served options s) {k : HostLabel} {u : HostState}
    (hstep : HostStep box proto sha256 options.toHostOptions s.approval k u)
    (hl : k.isForeign = false) (hgone : k ≠ .gone) (hsession : t.session = s.session) :
    Served options t := by
  intro p hp
  obtain ⟨epoch, parts, htask, -⟩ := h p (hsession.symm.trans hp)
  exact absurd htask (login_task hl hgone hstep epoch parts)

theorem Served.step (h : Served options s)
    (hstep : Server.Step box proto sha256 options selection s l t) : Served options t := by
  cases hstep with
  -- neither the operator nor the changes shown touch the task
  | foreign hl hstep =>
    intro p hp
    obtain ⟨epoch, parts, htask, hreader⟩ := h p hp
    exact ⟨epoch, parts, (foreign_task hl hstep).trans htask, hreader⟩
  | probes | binds | updates | finishes | panics | closeTakes | closeJoins | closeJoinsPanicked
  | closeDropped | closeReturns => exact h
  | accepts _ _ _ hstep | clears _ _ hstep | leaves _ _ _ _ hstep =>
    exact h.login hstep rfl nofun rfl
  | probeFails _ _ hstep | bindFails _ hstep | acceptFails _ _ _ hstep | closes _ _ _ _ hstep
  | givesUp _ _ _ _ hstep => exact h.login hstep rfl nofun rfl
  | authenticates _ _ hl hstep =>
    refine h.login hstep ?_ ?_ rfl
    · cases hstep <;> first | rfl | cases hl
    · rintro rfl
      cases hl
  | hears _ _ htask hresult =>
    have hreturned : HostStep box proto sha256 options.toHostOptions s.approval .returned _ :=
      .returned htask hresult
    exact h.login hreturned rfl nofun rfl
  | abandons _ _ hlogin =>
    intro p hp
    obtain ⟨epoch, parts, htask, -⟩ := h p hp
    exact absurd htask (hlogin epoch parts)
  | noCodec _ _ _ hsession =>
    intro p hp
    exact nomatch hsession.symm.trans hp
  -- the peer is served for the login that the task holds
  | begins _ _ htask =>
    intro p hp
    cases hp
    exact ⟨_, _, htask, rfl, rfl⟩
  -- the reader of the session keeps its parts
  | peer hsession hstep =>
    intro p hp
    obtain ⟨epoch, parts, htask, hreader⟩ := h _ hsession
    rw [peerStep_session] at hp
    cases hp
    rw [peerStep_approval, reader_eq hstep]
    exact ⟨epoch, parts, htask, hreader⟩
  | cancelsPeer _ hsession =>
    intro p hp
    cases hp
    obtain ⟨epoch, parts, htask, hreader⟩ := h _ hsession
    exact ⟨epoch, parts, htask, hreader⟩
  | peerReturns =>
    intro p hp
    cases hp

/-- The host serves a connection whenever it exposes anything. -/
theorem exposes_session (hstep : Server.Step box proto sha256 options selection s l t)
    (hexposes : Exposes s t l) : ∃ p, s.session = some p := by
  cases hstep with
  | peer hsession => exact ⟨_, hsession⟩
  | _ => cases hexposes

theorem injects_armed (hstep : Server.Step box proto sha256 options selection s l t)
    (hexposes : Exposes s t l) (hinjects : Injects s t) :
    ∃ p, s.session = some p ∧ p.reader.Armed := by
  obtain ⟨p, p', hp, hp', hcalls⟩ := hinjects
  refine ⟨p, hp, Classical.byContradiction fun hunarmed => hcalls ?_⟩
  cases hstep with
  | @peer own own' _ hsession hstep =>
    obtain rfl : p = own := Option.some.inj (hp.symm.trans hsession)
    obtain rfl : own' = p' := Option.some.inj (peerStep_session.symm.trans hp')
    cases hstep with
    | reads hreader =>
      rw [(PeerSession.heard_reads hreader _).1]
      exact Reader.turn_calls hunarmed _ _
    | _ => rfl
  | _ => cases hexposes

theorem served_start (options : StartOptions) (nextRequest : Nat) :
    Served options (.start options nextRequest) :=
  fun _ hp => nomatch (show none = some _ from hp)

theorem ServerRun.served (h : ServerRun box proto sha256 options selection nextRequest ls s) :
    Served options s :=
  Run.invariant (I := Served options) (fun _ _ _ hI hstep => hI.step hstep) h
    (served_start options nextRequest)

theorem ServerRun.armed (h : ServerRun box proto sha256 options selection nextRequest ls s) :
    Armed options.toHostOptions s.approval :=
  Run.invariant (I := Armed options.toHostOptions) (fun _ _ _ hI hstep => hI.step hstep) h.host
    trivial

theorem ServerRun.isolated (h : ServerRun box proto sha256 options selection nextRequest ls s) :
    Isolated box proto sha256 options.toHostOptions (.initial nextRequest)
      (ls.filterMap Label.host?) s.approval :=
  Run.history (P := Isolated box proto sha256 options.toHostOptions (.initial nextRequest))
    (fun _ _ _ _ hP hstep => hP.step hstep) h.host (isolated_initial nextRequest)

/-- **Nothing of the machine is given away without its operator.**  When the screen is
opened, a record written or an input injected, it is for a connection that the first
decision about its own request allowed, while that request was pending; and an input is
injected only where the operator armed it. -/
theorem serving_allowed (h : ServerRun box proto sha256 options selection nextRequest ls s)
    (hstep : Server.Step box proto sha256 options selection s l t) (hexposes : Exposes s t l) :
    ∃ epoch parts, s.approval.task = .serving epoch parts ∧
      Allowed box proto sha256 options.toHostOptions (.initial nextRequest) epoch
        (ls.filterMap Label.host?) s.approval ∧
      (Injects s t → options.inputInjection = true ∧ options.inputSink.isSome = true) := by
  obtain ⟨p, hp⟩ := exposes_session hstep hexposes
  obtain ⟨epoch, parts, htask, hpermissions, hsink⟩ := h.served p hp
  have hcurrent := h.isolated.current
  rw [Current, htask] at hcurrent
  refine ⟨epoch, parts, htask, hcurrent.2.2, fun hinjects => ?_⟩
  obtain ⟨own, hown, harmed⟩ := injects_armed hstep hexposes hinjects
  obtain rfl : p = own := Option.some.inj (hp.symm.trans hown)
  obtain ⟨hkeyboard, hsome⟩ := harmed.both
  have hlocal := h.armed
  rw [Armed, htask] at hlocal
  have hboth : (options.inputInjection && options.inputSink.isSome) = true :=
    hlocal (hpermissions ▸ hkeyboard)
  exact Bool.and_eq_true_iff.mp hboth

end Exposure

/-! ### A run: the screen is opened for a peer that was allowed -/

/-- A plain connection whose first record is the login of a viewer that decodes H.264. -/
def viewerLogin : Established where
  wire := .fromStream
  security := .legacyPlain false
  prefetched := some (.of (.loginRequest {
    username := "desk"
    myId := "viewer"
    option := some { supportedDecoding := some { abilityH264 := 1 } } }))

def deskStart : StartOptions := { desk with listenPort := 21118, fps := 60, bitrate := 8000000 }

/-- A peer logs in and is shown. -/
def loginRun : List Label :=
  [.host .accept, .host .draw, .host .clear, .serves, .host .established, .host .call,
    .host .returned, .serves]

/-- The peer is allowed under this text, and begins to be served. -/
def allowRun (request : String) : List Label :=
  [.host (.approve request true true), .host .notify, .host .call, .host .returned, .serves,
    .serves]

/-- The texts of the first two tokens. -/
def nextText : Nat → String
  | 0 => "1"
  | _ => "2"

/-- The host begins to listen; a peer logs in and is shown. -/
def shownRun : List Label := [.serves, .serves] ++ loginRun

/-- It is allowed, and begins to be served. -/
def consentRun : List Label := allowRun "1"

/-- A peer is shown, allowed and begins to be served. -/
def servedRun : List Label := shownRun ++ consentRun

/-- The loop of `serve` waits for a connection, and `n` tokens were drawn. -/
def listening (n : Nat) (past : List Capture) (snapshot : HostSnapshot) (origin : String)
    (left : Except HostError Unit) : Server :=
  { approval := .initial n, stage := .serving ⟨true, false⟩, past, snapshot, origin, left }

/-- The peer of the last token was allowed, and its two tasks have not begun. -/
def begun (n : Nat) (parts : AuthenticatedParts) (codec : Codec) (reader : Reader)
    (past : List Capture) (snapshot : HostSnapshot) (origin : String)
    (left : Except HostError Unit) : Server :=
  { approval := { HostState.initial n with task := .serving n parts },
    stage := .serving ⟨true, false⟩, session := some { codec, reader }, past, snapshot, origin,
    left }

section Sessions

variable {n : Nat} {parts : AuthenticatedParts} {codec : Codec} {reader : Reader}
  {past : List Capture} {snapshot : HostSnapshot} {origin : String} {left : Except HostError Unit}

/-- A peer logs in, is shown, and is allowed. -/
theorem login_run (hn : n < 2) : ∃ s parts codec reader snapshot' origin' left',
    Run (Server.Step .padding deskRecords id deskStart .auto)
      (listening n past snapshot origin left) loginRun s ∧
    s.snapshot.approvalRequest = nextText n ∧ (s.approval.approve (nextText n) true).2 = true ∧
    Run (Server.Step .padding deskRecords id deskStart .auto) s (allowRun (nextText n))
      (begun (n + 1) parts codec reader past snapshot' origin' left') := by
  have hdraw : n + 1 < 2 ^ 64 := by omega
  have hlogin : Run (Server.Step .padding deskRecords id deskStart .auto)
      (listening n past snapshot origin left) loginRun _ :=
    .cons (.accepts "viewer:1" rfl rfl (.accept ⟨"", ""⟩ rfl)) <|
    .cons (.authenticates rfl rfl rfl (.draw rfl hdraw)) <|
    .cons (.clears rfl rfl (.clear rfl)) <| .cons (.updates rfl nofun) <|
    .cons (.authenticates rfl rfl rfl
      (@HostStep.established _ _ _ _ _ _ _ viewerLogin "" "c0ffee" .sent _ rfl rfl)) <|
    .cons (.authenticates rfl rfl rfl (.call (.incoming .ended) false [] rfl nofun)) <|
    .cons (.hears rfl rfl rfl rfl) <| .single (.updates rfl nofun)
  dsimp only [listening, HostState.initial] at hlogin
  -- the operator's text is read as a number, so each of the tokens is a case of its own
  obtain rfl | rfl : n = 0 ∨ n = 1 := by omega
  all_goals
    exact ⟨_, _, _, _, _, _, _, hlogin, rfl, rfl,
      .cons (.foreign rfl (.approve _ _ true)) <| .cons (.foreign rfl (.notify Nat.one_pos)) <|
      .cons (.authenticates rfl rfl rfl
        (.call .notified false (List.replicate 5 .sent) rfl fun _ => rfl)) <|
      .cons (.hears rfl rfl rfl rfl) <| .cons (.updates rfl nofun) <|
      .single (.begins rfl rfl rfl rfl rfl)⟩

theorem begun_opens : ∃ s, Server.Step .padding deskRecords id deskStart .auto
    (begun n parts codec reader past snapshot origin left) (.peer .opens) s :=
  ⟨_, .peer rfl (.opens rfl rfl)⟩

end Sessions

theorem listening_start : ∃ snapshot,
    ServerRun .padding deskRecords id deskStart .auto 0 [.serves, .serves]
      (listening 0 [] snapshot "" (.ok ())) :=
  ⟨_, .cons (@Server.Step.probes _ _ _ _ _ _ (some ⟨true, false⟩) _ rfl rfl) <|
    .single (.binds rfl)⟩

theorem shownRun_consent : ∃ s t u,
    ServerRun .padding deskRecords id deskStart .auto 0 shownRun s ∧
    s.snapshot.approvalRequest = "1" ∧ (s.approval.approve "1" true).2 = true ∧
    ServerRun .padding deskRecords id deskStart .auto 0 servedRun t ∧
    Server.Step .padding deskRecords id deskStart .auto t (.peer .opens) u := by
  obtain ⟨_, hstart⟩ := listening_start
  obtain ⟨s, _, _, _, _, _, _, hlogin, hshown, hrecorded, hallow⟩ := login_run Nat.two_pos
  have hshownRun := hstart.append hlogin
  obtain ⟨_, hopens⟩ := begun_opens
  exact ⟨s, _, _, hshownRun, hshown, hrecorded, hshownRun.append hallow, hopens⟩

theorem servedRun_opens : ∃ s t,
    ServerRun .padding deskRecords id deskStart .auto 0 servedRun s ∧
    Server.Step .padding deskRecords id deskStart .auto s (.peer .opens) t := by
  obtain ⟨_, s, t, -, -, -, h, hopens⟩ := shownRun_consent
  exact ⟨s, t, h, hopens⟩

theorem serving_allowed_opens : ∃ s t,
    ServerRun .padding deskRecords id deskStart .auto 0 servedRun s ∧
    Server.Step .padding deskRecords id deskStart .auto s (.peer .opens) t ∧
    ∃ epoch parts, s.approval.task = .serving epoch parts ∧
      Allowed .padding deskRecords id deskStart.toHostOptions (.initial 0) epoch
        (servedRun.filterMap Label.host?) s.approval ∧
      (Injects s t → deskStart.inputInjection = true ∧ deskStart.inputSink.isSome = true) := by
  obtain ⟨s, t, h, hopens⟩ := servedRun_opens
  exact ⟨s, t, h, hopens, serving_allowed h hopens trivial⟩

end Host

end RdEngine
