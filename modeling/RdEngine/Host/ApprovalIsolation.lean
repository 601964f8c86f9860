/-
RdEngine/Host/ApprovalIsolation.lean

A click decides about one connection only.

A session of the host can be authorized by nothing but the local approval
(`Clicked`).  The approval is asked about the session's own token, and a decision
is recorded only for the token that is pending, so it is enough to follow the
shared grant through the life of one token (`Held`): nothing is decided about a
token before it is drawn, and the first decision about it stays until its
connection is over.  The result is `approval_isolated`.
-/
import RdEngine.Lib.Runs
import RdEngine.HostSessionSafety
import RdEngine.Host.Approval

namespace RdEngine

/-! ### What a call makes of the machine -/

/-- The machine after a call satisfies `P`, and waits for an approval if the call
says so. -/
structure HostSession.Drives (P : HostAuthentication → Prop) (turn : HostTurn HostEvent) :
    Prop where
  auth : P turn.session.auth
  waits : turn.result = some (.ok .awaitApproval) → turn.session.auth.state = .awaitApproval

namespace HostSession

section Drives

variable {box : SecretBox} {proto : Protobuf Message} {sha256 : Bytes → Bytes}
  {P : HostAuthentication → Prop} {session : HostSession} {turn : HostTurn HostEvent}

theorem Drives.after (h : Drives P turn) (records : List HostRecord) :
    Drives P (turn.after records) := ⟨h.auth, h.waits⟩

theorem Drives.settle (h : Drives P turn) (hclose : ∀ auth, P auth → P auth.close) :
    Drives P (settle turn) := by
  obtain ⟨session, - | ⟨e | event⟩, records⟩ := turn
  · exact h
  · exact ⟨hclose _ h.auth, nofun⟩
  · show Drives P (if session.auth.state = .closed then _ else _)
    split
    · next hclosed =>
      refine ⟨hclose _ h.auth, fun hwaits => ?_⟩
      exact nomatch hclosed.symm.trans (h.waits hwaits)
    · exact h

theorem sendThen_drives (h : P session.auth) {message : Message} {answers : List SendAnswer}
    {next : HostSession → List SendAnswer → HostTurn HostEvent}
    (hnext : ∀ io answers, Drives P (next { session with io := io } answers)) :
    Drives P (session.sendThen box proto message answers next) := by
  unfold sendThen
  rcases session.io.send box proto message (answers.headD .dropped) with ⟨io, - | ⟨e | ⟨⟩⟩⟩
  · exact ⟨h, nofun⟩
  · exact ⟨h, nofun⟩
  · exact (hnext io answers.tail).after _

theorem sendReports_drives (permissions : Permissions) (reports : List Message)
    (answers : List SendAnswer) {session : HostSession} (h : P session.auth) :
    Drives P (sendReports box proto permissions reports session answers) := by
  induction reports generalizing session answers with
  | nil => exact ⟨h, nofun⟩
  | cons report reports ih => exact sendThen_drives h fun io answers => ih answers h

theorem applyTurn_drives {turn : AuthTurn} (hturn : Answered session.auth turn) (h : P turn.auth)
    (hclose : ∀ auth, P auth → P auth.close) (answers : List SendAnswer) :
    Drives P (session.applyTurn box proto turn answers) := by
  refine Drives.after (Drives.settle ?_ hclose) _
  obtain ⟨auth', action, events⟩ := turn
  change P auth' at h
  cases action with
  | ignored => exact ⟨h, nofun⟩
  | pendingApproval =>
    change session.auth.Live ∧ auth'.state = .awaitApproval at hturn
    have hwaits : ∀ io, Drives P
        (({ session with auth := auth', io := io } : HostSession).done (.ok .awaitApproval)) :=
      fun io => ⟨h, fun _ => hturn.2⟩
    dsimp only [applyInner]
    split_ifs
    · exact sendThen_drives h fun io _ => hwaits io
    · exact hwaits session.io
  | error message terminal =>
    dsimp only [applyInner]
    refine sendThen_drives ?_ fun io _ => ?_
    · exact h
    · exact ⟨h, nofun⟩
  | authorized info permissions =>
    dsimp only [applyInner]
    refine sendThen_drives ?_ fun io answers => ?_
    · exact h
    · exact sendReports_drives permissions (permissionReports permissions) answers h

/-- **What every answer of the machine keeps, a call keeps.** -/
theorem recvWithApproval_drives {env : Answers} (hsame : P session.auth)
    (hclose : ∀ auth, P auth → P auth.close) (hpoll : P (session.auth.pollApproval env).auth)
    (hlogin : ∀ request, P (session.auth.login sha256 env request).auth)
    (hfactor : ∀ code, P (session.auth.secondFactor env code).auth)
    (waited : Waited) (expired : Bool) (answers : List SendAnswer) :
    Drives P (session.recvWithApproval box proto sha256 waited env expired answers) := by
  refine Drives.settle ?_ hclose
  unfold recvInner
  split
  · exact ⟨hsame, nofun⟩
  cases waited with
  | dropped => exact ⟨hsame, nofun⟩
  | notified =>
    dsimp only [pollApproval]
    split
    · exact ⟨hclose _ hsame, nofun⟩
    · exact applyTurn_drives (HostAuthentication.answered_pollApproval ..) hpoll hclose answers
  | incoming incoming =>
    dsimp only
    rcases session.io.recv box proto incoming with ⟨io, - | ⟨e | - | message⟩⟩
    · exact ⟨hclose _ hsame, nofun⟩
    · exact ⟨hclose _ hsame, nofun⟩
    · exact ⟨hclose _ hsame, nofun⟩
    refine Drives.after ?_ _
    -- what every other message comes to
    have hrefused : Drives P (if session.auth.state ≠ .authorized then
        ({ session with io := io } : HostSession).sendThen box proto
          (loginError "Connection not allowed") answers fun session _ =>
            session.closeAuth.done (.error (failure "Application payload before authentication"))
        else ({ session with io := io } : HostSession).done (.ok HostEvent.unsupported)) := by
      split
      · refine sendThen_drives ?_ fun io _ => ?_
        · exact hsame
        · exact ⟨hclose _ hsame, nofun⟩
      · exact ⟨hsame, nofun⟩
    unfold dispatch
    split
    · exact ⟨hclose _ hsame, nofun⟩
    cases message.union with
    | none => exact ⟨hsame, nofun⟩
    | some union =>
      cases union with
      | testDelay probe =>
        dsimp only
        split
        · refine sendThen_drives ?_ fun io _ => ?_
          · exact hsame
          · exact ⟨hsame, nofun⟩
        · exact ⟨hsame, nofun⟩
      | loginRequest request =>
        have hanswered := HostAuthentication.answered_login sha256 session.auth env request
        dsimp only
        refine applyTurn_drives ?_ (hlogin request) hclose answers
        exact hanswered
      | auth2fa code =>
        have hanswered := HostAuthentication.answered_secondFactor session.auth env code
        dsimp only
        refine applyTurn_drives ?_ (hfactor code) hclose answers
        exact hanswered
      | _ => exact hrefused

end Drives

end HostSession

/-! ### Only a click authorizes -/

/-- The providers of a host that knows no password and no second factor. -/
structure Answers.ClickOnly (env : Answers) : Prop where
  allow : ∃ message, env.allow = .error message
  required : env.required = false

/-- What the machine of a host that only knows clicks can come to: nothing new, an end,
the wait for the approval, or an authorization by it. -/
structure Clicked (auth : HostAuthentication) (env : Answers) (next : HostAuthentication) :
    Prop where
  config : next.config = auth.config
  state : next.state = auth.state ∨ next.state = .closed ∨ next.state = .awaitApproval ∨
    (next.state = .authorized ∧ ∃ grant, env.approval = .approved grant)

namespace Clicked

variable {auth next : HostAuthentication} {env : Answers}

theorem close (h : Clicked auth env next) : Clicked auth env next.close :=
  ⟨h.config, .inr (.inl rfl)⟩

theorem refl (auth : HostAuthentication) (env : Answers) : Clicked auth env auth :=
  ⟨rfl, .inl rfl⟩

theorem poll (henv : env.ClickOnly) {self : HostAuthentication} (hconfig : self.config = auth.config)
    (hstate : self.state = auth.state ∨ self.state = .awaitApproval) :
    Clicked auth env (self.pollApproval env).auth := by
  have hkept : Clicked auth env self := ⟨hconfig, hstate.imp id fun h => .inr (.inl h)⟩
  unfold HostAuthentication.pollApproval
  split
  · exact hkept
  cases self.request with
  | none => exact hkept
  | some request =>
    cases happroval : env.approval with
    | pending => exact hkept
    | denied => exact ⟨hconfig, .inr (.inl rfl)⟩
    | approved grant =>
      dsimp only [HostAuthentication.afterPrimary]
      rw [henv.required]
      exact ⟨hconfig, .inr (.inr (.inr ⟨rfl, grant, happroval⟩))⟩

theorem login (henv : env.ClickOnly) (hpolicy : auth.config.policy = .clickOnly)
    (sha256 : Bytes → Bytes) (request : LoginRequest) :
    Clicked auth env (auth.login sha256 env request).auth := by
  have hclosed : Clicked auth env auth.close := (refl auth env).close
  unfold HostAuthentication.login
  split
  · exact refl auth env
  split
  · exact refl auth env
  split
  · exact hclosed
  split
  · exact hclosed
  split_ifs
  · exact hclosed
  · exact hclosed
  · exact hclosed
  -- without passwords a login is a question to the approval
  unfold HostAuthentication.loginAccepted
  rw [if_neg (by simp [hpolicy])]
  unfold HostAuthentication.loginPrimary
  simp only [Bool.false_eq_true, if_false, hpolicy, reduceCtorEq, AuthTurn.after_auth, false_and,
    and_false]
  have hasked : Clicked auth env (HostAuthentication.pollApproval { auth with
      state := .awaitApproval, request := some { request with password := [], osLogin := {} } }
      env).auth := poll henv rfl (.inr rfl)
  exact hasked

theorem secondFactor (henv : env.ClickOnly) (auth : HostAuthentication) (code : Auth2FA) :
    Clicked auth env (auth.secondFactor env code).auth := by
  obtain ⟨message, hallow⟩ := henv.allow
  unfold HostAuthentication.secondFactor
  split
  · exact refl auth env
  · rw [hallow]
    exact refl auth env

end Clicked

namespace Host

open Lts

variable {box : SecretBox} {proto : Protobuf Message} {sha256 : Bytes → Bytes}
  {options : HostOptions}

theorem answers_clickOnly (options : HostOptions) (grant : LocalGrant) (epoch : Nat) :
    (answers options grant epoch).ClickOnly := ⟨⟨_, rfl⟩, rfl⟩

/-- A call of a session that relies on the click. -/
theorem call_clicked {session : HostSession} (hpolicy : session.auth.config.policy = .clickOnly)
    (grant : LocalGrant) (epoch : Nat) (waited : Waited) (expired : Bool)
    (sends : List SendAnswer) :
    HostSession.Drives (Clicked session.auth (answers options grant epoch))
      (session.recvWithApproval box proto sha256 waited (answers options grant epoch) expired
        sends) := by
  have henv := answers_clickOnly options grant epoch
  exact HostSession.recvWithApproval_drives (.refl ..) (fun _ h => h.close)
    (Clicked.poll henv rfl (.inl rfl)) (Clicked.login henv hpolicy sha256)
    (Clicked.secondFactor henv session.auth) waited expired sends

/-- A call of a closed session leaves it closed. -/
theorem call_closed {session : HostSession} (hclosed : session.auth.state = .closed)
    (waited : Waited) (env : Answers) (expired : Bool) (sends : List SendAnswer) :
    (session.recvWithApproval box proto sha256 waited env expired sends).session.auth.state
      = .closed := by
  unfold HostSession.recvWithApproval HostSession.recvNotified HostSession.recvInner
  rw [if_pos hclosed]
  show (if session.auth.state = .closed then _ else _ : HostTurn HostEvent).session.auth.state
    = .closed
  rw [if_pos hclosed]
  rfl

/-! ### What the history says of a token -/

/-- A decision that was recorded for this token. -/
def HostLabel.decides (epoch : Nat) : HostLabel → Prop
  | .approve requestId _ true => Text.parseU64 requestId.toList = some epoch
  | _ => False

/-- The machine of the session that a task drives, with its token. -/
def Task.session? : Task → Option (Nat × HostAuthentication)
  | .waiting epoch session _ => some (epoch, session.auth)
  | .returning epoch turn _ => some (epoch, turn.session.auth)
  | _ => none

/-- The request is the pending one: its session waits for the approval, and the
operator may decide about it. -/
def Pending (epoch : Nat) (s : HostState) : Prop :=
  s.grant.epoch = epoch ∧ ∃ auth, s.task.session? = some (epoch, auth) ∧
    auth.state = .awaitApproval

/-- The session of this token has been authorized. -/
def Authorized (epoch : Nat) (s : HostState) : Prop :=
  (∃ auth, s.task.session? = some (epoch, auth) ∧ auth.state = .authorized) ∨
    ∃ parts, s.task = .serving epoch parts

section History

variable (box proto sha256 options)

/-- A run of the host from its start. -/
abbrev HostRun (start : HostState) (es : List HostLabel) (s : HostState) : Prop :=
  Run (HostStep box proto sha256 options) start es s

/-- The first and only decision about the token was to allow it, and was made
while its request was pending, in the connection that is still there. -/
def Allowed (start : HostState) (epoch : Nat) (es : List HostLabel) (s : HostState) : Prop :=
  ∃ before requestId after t, es = before ++ .approve requestId true true :: after ∧
    Text.parseU64 requestId.toList = some epoch ∧
    HostRun box proto sha256 options start before t ∧ Pending epoch t ∧
    HostRun box proto sha256 options t (.approve requestId true true :: after) s ∧
    (∀ l ∈ before, ¬ l.decides epoch) ∧ ∀ l ∈ after, ¬ l.decides epoch ∧ l ≠ .leave

/-- The shared grant in the life of one token. -/
inductive Held (start : HostState) (epoch : Nat) (es : List HostLabel) (s : HostState)
    (auth : HostAuthentication) : Prop
  | fresh : s.grant = {} → (∀ l ∈ es, ¬ l.decides epoch) → auth.state ≠ .authorized →
      Held start epoch es s auth
  | asked : s.grant = ⟨epoch, 0⟩ → (∀ l ∈ es, ¬ l.decides epoch) →
      auth.state = .awaitApproval → Held start epoch es s auth
  | allowed : s.grant = ⟨epoch, 1⟩ → Allowed box proto sha256 options start epoch es s →
      Held start epoch es s auth
  | denied : s.grant = ⟨epoch, 2⟩ → auth.state = .awaitApproval → Held start epoch es s auth
  | closed : s.grant.epoch = epoch → auth.state = .closed → Held start epoch es s auth

/-- What the history says of the token the task has drawn. -/
def Current (start : HostState) (es : List HostLabel) (s : HostState) : Prop :=
  match s.task with
  | .listening | .connected _ | .stopped => s.grant = {}
  | .drawn _ epoch | .accepting _ epoch =>
    0 < epoch ∧ epoch ≤ s.nextRequest ∧ s.grant = {} ∧ ∀ l ∈ es, ¬ l.decides epoch
  | .waiting epoch session _ =>
    0 < epoch ∧ epoch ≤ s.nextRequest ∧ session.auth.config.policy = .clickOnly ∧
      Held box proto sha256 options start epoch es s session.auth
  | .returning epoch turn _ =>
    0 < epoch ∧ epoch ≤ s.nextRequest ∧ turn.session.auth.config.policy = .clickOnly ∧
      Held box proto sha256 options start epoch es s turn.session.auth ∧
      (turn.result = some (.ok .awaitApproval) → turn.session.auth.state = .awaitApproval)
  | .serving epoch _ =>
    s.grant = {} ∧ 0 < epoch ∧ Allowed box proto sha256 options start epoch es s
  | .leaving => True

/-- The invariant of every run. -/
structure Isolated (start : HostState) (es : List HostLabel) (s : HostState) : Prop where
  run : HostRun box proto sha256 options start es s
  pending : s.grant.epoch ≤ s.nextRequest
  decided : ∀ epoch, ∀ l ∈ es, l.decides epoch → epoch ≤ s.nextRequest
  current : Current box proto sha256 options start es s

end History

/-! ### Steps -/

variable {start s t : HostState} {epoch : Nat} {es : List HostLabel} {l : HostLabel}
  {auth : HostAuthentication}

theorem undecided_snoc (h : ∀ l ∈ es, ¬ l.decides epoch) (hl : ¬ l.decides epoch) :
    ∀ l' ∈ es ++ [l], ¬ l'.decides epoch := by
  intro l' hmem
  rcases List.mem_append.mp hmem with hbefore | hlast
  · exact h l' hbefore
  · rwa [List.mem_singleton.mp hlast]

theorem Allowed.snoc (h : Allowed box proto sha256 options start epoch es s)
    (hstep : HostStep box proto sha256 options s l t) (hl : ¬ l.decides epoch)
    (hleave : l ≠ .leave) : Allowed box proto sha256 options start epoch (es ++ [l]) t := by
  obtain ⟨before, requestId, after, u, rfl, hparse, hbefore, hpending, hafter, hfirst, honly⟩ := h
  refine ⟨before, requestId, after ++ [l], u, by simp, hparse, hbefore, hpending,
    hafter.snoc hstep, hfirst, ?_⟩
  intro l' hmem
  rcases List.mem_append.mp hmem with hold | hlast
  · exact honly l' hold
  · rw [List.mem_singleton.mp hlast]
    exact ⟨hl, hleave⟩

theorem Held.snoc (h : Held box proto sha256 options start epoch es s auth)
    (hstep : HostStep box proto sha256 options s l t) (hgrant : t.grant = s.grant)
    (hl : ¬ l.decides epoch) (hleave : l ≠ .leave) :
    Held box proto sha256 options start epoch (es ++ [l]) t auth := by
  cases h with
  | fresh hclear hnone hstate => exact .fresh (hgrant.trans hclear) (undecided_snoc hnone hl) hstate
  | asked hasked hnone hstate => exact .asked (hgrant.trans hasked) (undecided_snoc hnone hl) hstate
  | allowed hallow hdone => exact .allowed (hgrant.trans hallow) (hdone.snoc hstep hl hleave)
  | denied hdeny hstate => exact .denied (hgrant.trans hdeny) hstate
  | closed hepoch hstate => exact .closed (by rw [hgrant]; exact hepoch) hstate

/-- Nothing is decided about a token that is still to be drawn. -/
theorem Isolated.undecided (h : Isolated box proto sha256 options start es s)
    (hepoch : s.nextRequest < epoch) : ∀ l ∈ es, ¬ l.decides epoch :=
  fun l hmem hdecides => absurd (h.decided epoch l hmem hdecides) (Nat.not_le_of_lt hepoch)

/-- A step of anybody but the serving task, and no decision. -/
theorem Current.keep (h : Current box proto sha256 options start es s)
    (hstep : HostStep box proto sha256 options s l t) (htask : t.task = s.task)
    (hgrant : t.grant = s.grant) (hnext : s.nextRequest ≤ t.nextRequest)
    (hl : ∀ epoch, ¬ l.decides epoch) (hleave : l ≠ .leave) :
    Current box proto sha256 options start (es ++ [l]) t := by
  unfold Current at h ⊢
  rw [htask]
  split at h
  · exact hgrant.trans h
  · exact hgrant.trans h
  · exact hgrant.trans h
  · obtain ⟨hpos, hle, hclear, hnone⟩ := h
    exact ⟨hpos, hle.trans hnext, hgrant.trans hclear, undecided_snoc hnone (hl _)⟩
  · obtain ⟨hpos, hle, hclear, hnone⟩ := h
    exact ⟨hpos, hle.trans hnext, hgrant.trans hclear, undecided_snoc hnone (hl _)⟩
  · obtain ⟨hpos, hle, hpolicy, hheld⟩ := h
    exact ⟨hpos, hle.trans hnext, hpolicy, hheld.snoc hstep hgrant (hl _) hleave⟩
  · obtain ⟨hpos, hle, hpolicy, hheld, hwaits⟩ := h
    exact ⟨hpos, hle.trans hnext, hpolicy, hheld.snoc hstep hgrant (hl _) hleave, hwaits⟩
  · obtain ⟨hclear, hpos, hallowed⟩ := h
    exact ⟨hgrant.trans hclear, hpos, hallowed.snoc hstep (hl _) hleave⟩
  · trivial

/-- What `approve` does: nothing, or the first decision about the pending token. -/
theorem approve_cases (s : HostState) (requestId : String) (allow : Bool) :
    s.approve requestId allow = (s, false) ∨
      ∃ epoch, Text.parseU64 requestId.toList = some epoch ∧ epoch ≠ 0 ∧ s.grant = ⟨epoch, 0⟩ ∧
        s.approve requestId allow = ({ s with
          grant := ⟨epoch, if allow then 1 else 2⟩, notifying := s.notifying + 1 }, true) := by
  unfold HostState.approve
  cases hparse : Text.parseU64 requestId.toList with
  | none => exact .inl rfl
  | some epoch =>
    dsimp only
    by_cases hcancelled : s.cancelled = true
    · rw [if_pos hcancelled]
      exact .inl rfl
    rw [if_neg hcancelled]
    rcases hdecide : s.grant.decide epoch allow with ⟨grant, - | -⟩
    · exact .inl rfl
    · obtain ⟨hzero, hpending, hgrant⟩ := LocalGrant.decide_recorded
        (congrArg Prod.snd hdecide)
      rw [hdecide] at hgrant
      obtain rfl : grant = _ := hgrant
      exact .inr ⟨epoch, rfl, hzero, hpending, rfl⟩

/-- The decision of a token, in the life of its request. -/
theorem Held.decide (h : Held box proto sha256 options start epoch es s auth)
    (hrun : HostRun box proto sha256 options start es s) {requestId : String} {allow : Bool}
    (hparse : Text.parseU64 requestId.toList = some epoch) (hgrant : s.grant = ⟨epoch, 0⟩)
    (hepoch : epoch ≠ 0) (htask : s.task.session? = some (epoch, auth))
    (hstep : HostStep box proto sha256 options s (.approve requestId allow true) t)
    (ht : t.grant = ⟨epoch, if allow then 1 else 2⟩) :
    Held box proto sha256 options start epoch (es ++ [.approve requestId allow true]) t auth := by
  cases h with
  | fresh hclear => exact absurd (congrArg LocalGrant.epoch (hclear.symm.trans hgrant)).symm hepoch
  | asked _ hnone hstate =>
    cases allow with
    | false => exact .denied ht hstate
    | true =>
      refine .allowed ht ⟨es, requestId, [], s, rfl, hparse, hrun, ?_, .single hstep, hnone, ?_⟩
      · exact ⟨congrArg LocalGrant.epoch hgrant, auth, htask, hstate⟩
      · exact fun _ hmem => absurd hmem List.not_mem_nil
  | allowed hallow => exact nomatch hallow.symm.trans hgrant
  | denied hdeny => exact nomatch hdeny.symm.trans hgrant
  | closed _ hstate => exact .closed (congrArg LocalGrant.epoch ht) hstate

/-- Only the token of the task can be the pending one. -/
theorem Held.epoch_eq (h : Held box proto sha256 options start epoch es s auth) {pending : Nat}
    (hgrant : s.grant = ⟨pending, 0⟩) (hpending : pending ≠ 0) : epoch = pending := by
  have hepoch : s.grant.epoch = pending := congrArg LocalGrant.epoch hgrant
  cases h with
  | fresh hclear => exact absurd (hepoch.symm.trans (congrArg LocalGrant.epoch hclear)) hpending
  | asked hasked => exact (congrArg LocalGrant.epoch hasked).symm.trans hepoch
  | allowed hallow => exact (congrArg LocalGrant.epoch hallow).symm.trans hepoch
  | denied hdeny => exact (congrArg LocalGrant.epoch hdeny).symm.trans hepoch
  | closed hown => exact hown.symm.trans hepoch

theorem Current.decide (h : Current box proto sha256 options start es s)
    (hrun : HostRun box proto sha256 options start es s) {requestId : String} {allow : Bool}
    (hparse : Text.parseU64 requestId.toList = some epoch) (hgrant : s.grant = ⟨epoch, 0⟩)
    (hepoch : epoch ≠ 0)
    (hstep : HostStep box proto sha256 options s (.approve requestId allow true) t)
    (ht : t.grant = ⟨epoch, if allow then 1 else 2⟩) (htask : t.task = s.task)
    (hnext : s.nextRequest ≤ t.nextRequest) :
    Current box proto sha256 options start (es ++ [.approve requestId allow true]) t := by
  have hpending : s.grant ≠ {} := fun hclear =>
    hepoch (congrArg LocalGrant.epoch (hgrant.symm.trans hclear))
  unfold Current at h ⊢
  rw [htask]
  split at h
  · exact absurd h hpending
  · exact absurd h hpending
  · exact absurd h hpending
  · exact absurd h.2.2.1 hpending
  · exact absurd h.2.2.1 hpending
  · next own session left hown =>
    obtain ⟨hpos, hle, hpolicy, hheld⟩ := h
    obtain rfl := hheld.epoch_eq hgrant hepoch
    exact ⟨hpos, hle.trans hnext, hpolicy,
      hheld.decide hrun hparse hgrant hepoch (by rw [hown]; rfl) hstep ht⟩
  · next own turn left hown =>
    obtain ⟨hpos, hle, hpolicy, hheld, hwaits⟩ := h
    obtain rfl := hheld.epoch_eq hgrant hepoch
    exact ⟨hpos, hle.trans hnext, hpolicy,
      hheld.decide hrun hparse hgrant hepoch (by rw [hown]; rfl) hstep ht, hwaits⟩
  · exact absurd h.1 hpending
  · trivial

/-- Without a recorded approval for its own token no session is authorized. -/
theorem unallowed {next : HostAuthentication} {grant : LocalGrant}
    (h : Clicked auth (answers options grant epoch) next) (hgrant : grant ≠ ⟨epoch, 1⟩) :
    next.state = auth.state ∨ next.state = .closed ∨ next.state = .awaitApproval := by
  rcases h.state with hsame | hclosed | hwaits | ⟨-, given, happroval⟩
  · exact .inl hsame
  · exact .inr (.inl hclosed)
  · exact .inr (.inr hwaits)
  · exact absurd (check_approved happroval).1 hgrant

/-- **A call of the session**, which asks about its own token alone. -/
theorem Held.call {session : HostSession} {waited : Waited} {expired : Bool}
    {sends : List SendAnswer}
    (h : Held box proto sha256 options start epoch es s session.auth)
    (hpolicy : session.auth.config.policy = .clickOnly)
    (hstep : HostStep box proto sha256 options s .call t) (hgrant : t.grant = s.grant) :
    Held box proto sha256 options start epoch (es ++ [.call]) t
      (session.recvWithApproval box proto sha256 waited (answers options s.grant epoch) expired
        sends).session.auth := by
  have hclicked : Clicked session.auth (answers options s.grant epoch) (session.recvWithApproval
      box proto sha256 waited (answers options s.grant epoch) expired sends).session.auth :=
    (call_clicked hpolicy s.grant epoch waited expired sends).auth
  -- only an allowed grant of this epoch lets the session go on
  cases h with
  | fresh hclear hnone hstate =>
    refine .fresh (hgrant.trans hclear) (undecided_snoc hnone not_false) ?_
    have hother : s.grant ≠ ⟨epoch, 1⟩ := by rw [hclear]; exact fun h => nomatch h
    rcases unallowed hclicked hother with hsame | hclosed | hwaits
    · rwa [hsame]
    · rw [hclosed]; nofun
    · rw [hwaits]; nofun
  | asked hasked hnone hstate =>
    have hother : s.grant ≠ ⟨epoch, 1⟩ := by rw [hasked]; exact fun h => nomatch h
    have hepoch : t.grant.epoch = epoch := congrArg LocalGrant.epoch (hgrant.trans hasked)
    rcases unallowed hclicked hother with hsame | hclosed | hwaits
    · exact .asked (hgrant.trans hasked) (undecided_snoc hnone not_false) (hsame.trans hstate)
    · exact .closed hepoch hclosed
    · exact .asked (hgrant.trans hasked) (undecided_snoc hnone not_false) hwaits
  | allowed hallow hdone =>
    exact .allowed (hgrant.trans hallow) (hdone.snoc hstep not_false nofun)
  | denied hdeny hstate =>
    have hother : s.grant ≠ ⟨epoch, 1⟩ := by rw [hdeny]; exact fun h => nomatch h
    have hepoch : t.grant.epoch = epoch := congrArg LocalGrant.epoch (hgrant.trans hdeny)
    rcases unallowed hclicked hother with hsame | hclosed | hwaits
    · exact .denied (hgrant.trans hdeny) (hsame.trans hstate)
    · exact .closed hepoch hclosed
    · exact .denied (hgrant.trans hdeny) hwaits
  | closed hepoch hstate =>
    exact .closed (by rw [hgrant]; exact hepoch) (call_closed hstate waited _ expired sends)

theorem authorized_of_parts {session : HostSession} {parts : AuthenticatedParts}
    (h : session.intoAuthenticatedParts = .ok parts) : session.auth.state = .authorized := by
  unfold HostSession.intoAuthenticatedParts at h
  split at h
  · cases h
  · next hready => exact not_not.mp (not_or.mp hready).1

/-- An authorized session holds the approval of its token. -/
theorem Held.of_authorized (h : Held box proto sha256 options start epoch es s auth)
    (hstate : auth.state = .authorized) :
    Allowed box proto sha256 options start epoch es s := by
  cases h with
  | fresh _ _ hother => exact absurd hstate hother
  | asked _ _ hother => exact nomatch hstate.symm.trans hother
  | allowed _ hdone => exact hdone
  | denied _ hother => exact nomatch hstate.symm.trans hother
  | closed _ hother => exact nomatch hstate.symm.trans hother

/-- The request becomes the pending one; a decision that is there stays. -/
theorem Held.await (h : Held box proto sha256 options start epoch es s auth)
    (hwaits : auth.state = .awaitApproval)
    (hstep : HostStep box proto sha256 options s .returned t)
    (ht : t.grant = { s.grant with epoch := epoch }) :
    Held box proto sha256 options start epoch (es ++ [.returned]) t auth := by
  cases h with
  | fresh hclear hnone _ =>
    exact .asked (by rw [ht, hclear]) (undecided_snoc hnone not_false) hwaits
  | asked hasked hnone _ =>
    exact .asked (by rw [ht, hasked]) (undecided_snoc hnone not_false) hwaits
  | allowed hallow hdone => exact .allowed (by rw [ht, hallow]) (hdone.snoc hstep not_false nofun)
  | denied hdeny _ => exact .denied (by rw [ht, hdeny]) hwaits
  | closed _ hclosed => exact nomatch hwaits.symm.trans hclosed

theorem decided_snoc (h : Isolated box proto sha256 options start es s)
    (hl : ∀ epoch, l.decides epoch → epoch ≤ s.nextRequest) (hnext : s.nextRequest ≤ t.nextRequest) :
    ∀ epoch, ∀ l' ∈ es ++ [l], l'.decides epoch → epoch ≤ t.nextRequest := by
  intro epoch l' hmem hdecides
  rcases List.mem_append.mp hmem with hbefore | hlast
  · exact (h.decided epoch l' hbefore hdecides).trans hnext
  · rw [List.mem_singleton.mp hlast] at hdecides
    exact (hl epoch hdecides).trans hnext

theorem Current.returned (h : Current box proto sha256 options start es s) {left : Nat}
    {turn : HostTurn HostEvent} {result : Except IoError HostEvent}
    (htask : s.task = .returning epoch turn left) (hresult : turn.result = some result)
    (hle : s.grant.epoch ≤ s.nextRequest)
    (hstep : HostStep box proto sha256 options s .returned (s.onReturn epoch turn left result)) :
    (s.onReturn epoch turn left result).nextRequest = s.nextRequest ∧
      (s.onReturn epoch turn left result).grant.epoch ≤ s.nextRequest ∧
      Current box proto sha256 options start (es ++ [.returned])
        (s.onReturn epoch turn left result) := by
  simp only [Current, htask] at h
  obtain ⟨hpos, hdrawn, hpolicy, hheld, hwaits⟩ := h
  cases result with
  | error e => exact ⟨rfl, hle, trivial⟩
  | ok event =>
    cases event with
    | awaitApproval =>
      exact ⟨rfl, hdrawn, hpos, hdrawn, hpolicy, hheld.await (hwaits hresult) hstep rfl⟩
    | progress | unsupported =>
      exact ⟨rfl, hle, hpos, hdrawn, hpolicy, hheld.snoc hstep rfl not_false nofun⟩
    | closed | loginRejected => exact ⟨rfl, hle, trivial⟩
    | authorized permissions =>
      dsimp only [HostState.onReturn, HostState.onEvent] at hstep ⊢
      cases hparts : turn.session.intoAuthenticatedParts with
      | error e => exact ⟨rfl, Nat.zero_le _, trivial⟩
      | ok parts =>
        rw [hparts] at hstep
        have hallowed := hheld.of_authorized (authorized_of_parts hparts)
        exact ⟨rfl, Nat.zero_le _, rfl, hpos, hallowed.snoc hstep not_false nofun⟩

/-- **Every step keeps the requests apart.** -/
theorem Isolated.step (h : Isolated box proto sha256 options start es s)
    (hstep : HostStep box proto sha256 options s l t) :
    Isolated box proto sha256 options start (es ++ [l]) t := by
  have hrun := h.run.snoc hstep
  have hcurrent := h.current
  cases hstep with
  | approve requestId allow =>
    -- the first decision about the token that is pending, or none
    have hstep : HostStep box proto sha256 options s _ _ := .approve s requestId allow
    rcases approve_cases s requestId allow with hnone | ⟨epoch, hparse, hzero, hpending, hfirst⟩
    · rw [hnone] at hrun hstep ⊢
      exact ⟨hrun, h.pending, decided_snoc h (fun _ hl => hl.elim) le_rfl,
        hcurrent.keep hstep rfl rfl le_rfl (fun _ => not_false) nofun⟩
    · have hdrawn : epoch ≤ s.nextRequest := by
        have hle := h.pending
        rwa [hpending] at hle
      rw [hfirst] at hrun hstep ⊢
      refine ⟨hrun, hdrawn, decided_snoc h (fun other hl => ?_) le_rfl,
        hcurrent.decide h.run hparse hpending hzero hstep rfl rfl le_rfl⟩
      rwa [← Option.some.inj (hparse.symm.trans hl)]
  | notify hpos =>
    exact ⟨hrun, h.pending, decided_snoc h (fun _ hl => hl.elim) le_rfl,
      hcurrent.keep (.notify hpos) rfl rfl le_rfl (fun _ => not_false) nofun⟩
  | requestClose =>
    exact ⟨hrun, h.pending, decided_snoc h (fun _ hl => hl.elim) le_rfl,
      hcurrent.keep (.requestClose s) rfl rfl le_rfl (fun _ => not_false) nofun⟩
  | otherRequest hnext =>
    exact ⟨hrun, h.pending.trans (Nat.le_succ _),
      decided_snoc h (fun _ hl => hl.elim) (Nat.le_succ _),
      hcurrent.keep (.otherRequest hnext) rfl rfl (Nat.le_succ _) (fun _ => not_false) nofun⟩
  | accept socket htask =>
    rw [Current, htask] at hcurrent
    exact ⟨hrun, h.pending, decided_snoc h (fun _ hl => hl.elim) le_rfl, hcurrent⟩
  | draw htask hnext =>
    -- nobody can have decided about a token that was not drawn
    rw [Current, htask] at hcurrent
    refine ⟨hrun, h.pending.trans (Nat.le_succ _),
      decided_snoc h (fun _ hl => hl.elim) (Nat.le_succ _), Nat.succ_pos _, le_rfl, hcurrent, ?_⟩
    exact undecided_snoc (h.undecided (Nat.lt_succ_self _)) not_false
  | clear htask =>
    rw [Current, htask] at hcurrent
    obtain ⟨hpos, hle, -, hnone⟩ := hcurrent
    exact ⟨hrun, Nat.zero_le _, decided_snoc h (fun _ hl => hl.elim) le_rfl, hpos, hle, rfl,
      undecided_snoc hnone not_false⟩
  | established htask hstart =>
    rw [Current, htask] at hcurrent
    obtain ⟨hpos, hle, hclear, hnone⟩ := hcurrent
    obtain ⟨hconfig, hstate, -⟩ := HostSession.fromEstablished_new hstart
    refine ⟨hrun, h.pending, decided_snoc h (fun _ hl => hl.elim) le_rfl, hpos, hle, ?_,
      .fresh hclear (undecided_snoc hnone not_false) ?_⟩
    · rw [hconfig]; rfl
    · rw [hstate]; nofun
  | @call epoch session left waited expired sends htask hpermit =>
    -- the session asks for the decision about its own token
    rw [Current, htask] at hcurrent
    obtain ⟨hpos, hle, hpolicy, hheld⟩ := hcurrent
    have hdrives : HostSession.Drives (Clicked session.auth (answers options s.grant epoch))
        (session.recvWithApproval box proto sha256 waited (answers options s.grant epoch) expired
          sends) := call_clicked hpolicy s.grant epoch waited expired sends
    refine ⟨hrun, h.pending, decided_snoc h (fun _ hl => hl.elim) le_rfl, hpos, hle, ?_,
      hheld.call hpolicy (.call waited expired sends htask hpermit) rfl, hdrives.waits⟩
    rw [hdrives.auth.config, hpolicy]
  | returned htask hresult =>
    obtain ⟨hnext, hle, hkept⟩ := hcurrent.returned htask hresult h.pending (.returned htask hresult)
    exact ⟨hrun, hle.trans hnext.ge, decided_snoc h (fun _ hl => hl.elim) hnext.ge, hkept⟩
  | gone hbusy =>
    exact ⟨hrun, h.pending, decided_snoc h (fun _ hl => hl.elim) le_rfl, trivial⟩
  | leave htask =>
    exact ⟨hrun, Nat.zero_le _, decided_snoc h (fun _ hl => hl.elim) le_rfl, rfl⟩
  | stop htask =>
    exact ⟨hrun, Nat.zero_le _, decided_snoc h (fun _ hl => hl.elim) le_rfl, rfl⟩

theorem isolated_initial (nextRequest : Nat) :
    Isolated box proto sha256 options (.initial nextRequest) [] (.initial nextRequest) where
  run := .nil _
  pending := Nat.zero_le _
  decided _ _ hmem := absurd hmem List.not_mem_nil
  current := rfl

/-- **An authorization rests on the click for its own request**: on the first
decision about its token, made while the request was pending, in the connection
that was authorized, whatever else the operator and other peers did. -/
theorem approval_isolated {nextRequest : Nat}
    (h : HostRun box proto sha256 options (.initial nextRequest) es s)
    (hauthorized : Authorized epoch s) :
    Allowed box proto sha256 options (.initial nextRequest) epoch es s := by
  have hisolated : Isolated box proto sha256 options (.initial nextRequest) es s :=
    Run.history (P := Isolated box proto sha256 options (.initial nextRequest))
      (fun _ _ _ _ hP hstep => hP.step hstep) h (isolated_initial nextRequest)
  have hcurrent := hisolated.current
  rcases hauthorized with ⟨auth, hsession, hstate⟩ | ⟨parts, htask⟩
  · cases htask : s.task with
    | waiting own session left =>
      rw [htask] at hsession
      cases hsession
      rw [Current, htask] at hcurrent
      exact hcurrent.2.2.2.of_authorized hstate
    | returning own turn left =>
      rw [htask] at hsession
      cases hsession
      rw [Current, htask] at hcurrent
      exact hcurrent.2.2.2.1.of_authorized hstate
    | _ => rw [htask] at hsession; cases hsession
  · rw [Current, htask] at hcurrent
    exact hcurrent.2.2

/-! ### A run: the first peer is allowed -/

/-- A host that only shows its screen. -/
def desk : HostOptions where
  id := "desk"
  width := 1920
  height := 1080
  platform := "Linux"
  inputInjection := false
  inputSink := none

/-- The records its session sends: the challenge and a success. -/
def deskRecords : Protobuf Message := .table [
  (.of (.hash { challenge := "c0ffee" }), [0]),
  (.of (.loginResponse { union := some (.peerInfo (peerInfo desk)) }), [1]),
  (.ofMisc (.permissionInfo { permission := .known .keyboard }), [2]),
  (.ofMisc (.permissionInfo { permission := .known .clipboard }), [3]),
  (.ofMisc (.permissionInfo { permission := .known .audio }), [4]),
  (.ofMisc (.permissionInfo { permission := .known .file }), [5])]

/-- The peer logs in, becomes the pending request, is allowed by its number and served. -/
def allowedRun : List HostLabel :=
  [.accept, .draw, .clear, .established, .call, .returned, .approve "1" true true, .notify, .call,
    .returned]

theorem approval_isolated_allowed : ∃ s,
    HostRun .padding deskRecords id desk (.initial 0) allowedRun s ∧ Authorized 1 s ∧
    Allowed .padding deskRecords id desk (.initial 0) 1 allowedRun s := by
  have h : HostRun .padding deskRecords id desk (.initial 0) allowedRun _ :=
    .cons (.accept ⟨"", ""⟩ rfl) <| .cons (.draw rfl (by decide)) <| .cons (.clear rfl) <|
    .cons (@HostStep.established _ _ _ _ _ _ _ HostSession.loggedIn "" "c0ffee" .sent _ rfl rfl) <|
    .cons (.call (.incoming .ended) false [] rfl nofun) <| .cons (.returned rfl rfl) <|
    .cons (.approve _ "1" true) <| .cons (.notify Nat.one_pos) <|
    .cons (.call .notified false (List.replicate 5 .sent) rfl fun _ => rfl) <|
    .cons (.returned rfl rfl) <| .nil _
  exact ⟨_, h, .inr ⟨_, rfl⟩, approval_isolated h (.inr ⟨_, rfl⟩)⟩

end Host

end RdEngine

