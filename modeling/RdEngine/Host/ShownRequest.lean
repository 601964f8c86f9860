/-
RdEngine/Host/ShownRequest.lean

The operator decides about the connection that was shown.

The operator reads the pending request in the snapshot, with the address of its
connection, and decides about it with the text alone.  In between the connection may
have gone and another one come.  A token is drawn once, so a decision that is recorded
is about the connection that has drawn it (`About`), and what the snapshot shows of a
token is the address of that connection (`Shows`).
-/
import RdEngine.AddressText
import RdEngine.Host.ServingSafety

namespace RdEngine

namespace Host

open Lts

/-- The text of a token is read as the token. -/
theorem parseU64_requestText {epoch : Nat} (h : epoch < 2 ^ 64) :
    Text.parseU64 (requestText epoch).toList = some epoch := by
  obtain ⟨hne, hdigits, hvalue⟩ := decimal_toString epoch
  rw [AddrParser.toList_toString] at hne hdigits hvalue
  rw [requestText, String.toList_ofList]
  unfold Text.parseU64
  have hplus : (Nat.toDigits 10 epoch).head? ≠ some '+' := by
    intro hhead
    have hplus := hdigits '+' (List.mem_of_mem_head? hhead)
    exact absurd hplus (by decide)
  rw [if_neg hplus, if_neg, hvalue]
  rintro (hnil | hother | hlarge)
  · exact hne hnil
  · rw [Bool.not_eq_true', List.all_eq_false] at hother
    obtain ⟨c, hc, hnot⟩ := hother
    exact hnot (hdigits c hc)
  · exact absurd hlarge (by rw [hvalue]; omega)

/-! ### One token -/

/-- The token that a connection has drawn, up to its login. -/
def Task.token? : Task → Option Nat
  | .drawn _ epoch | .accepting _ epoch | .waiting epoch _ _ | .returning epoch _ _ => some epoch
  | _ => none

/-- The token is that of the connection, or may still be decided about. -/
def Alive (epoch : Nat) (s : HostState) : Prop :=
  s.grant.epoch = epoch ∨ s.task.token? = some epoch

section Token

variable {box : SecretBox} {proto : Protobuf Message} {sha256 : Bytes → Bytes}
  {options : HostOptions} {s t : HostState} {l : HostLabel} {epoch : Nat}

theorem HostStep.nextRequest_le (h : HostStep box proto sha256 options s l t) :
    s.nextRequest ≤ t.nextRequest := by
  cases h with
  | approve requestId allow =>
    rcases approve_cases s requestId allow with hsame | ⟨_, _, _, _, hfirst⟩
    · rw [hsame]
    · rw [hfirst]
  | otherRequest | draw => exact Nat.le_succ _
  | @returned epoch turn left result =>
    rcases result with e | event
    · exact le_rfl
    cases event with
    | authorized permissions =>
      dsimp only [HostState.onReturn, HostState.onEvent]
      split <;> exact le_rfl
    | _ => exact le_rfl
  | _ => exact le_rfl

/-- **No step but its draw brings a token to life.** -/
theorem HostStep.alive (h : HostStep box proto sha256 options s l t) (hpos : 0 < epoch)
    (hdrawn : epoch ≤ s.nextRequest) (halive : Alive epoch t) : Alive epoch s := by
  have hcleared : ∀ {grant : LocalGrant}, grant = {} → grant.epoch ≠ epoch := by
    rintro _ rfl
    exact Nat.ne_of_lt hpos
  cases h with
  | approve requestId allow =>
    rcases approve_cases s requestId allow with hsame | ⟨_, _, _, hgrant, hfirst⟩
    · rwa [hsame] at halive
    · rw [hfirst] at halive
      refine halive.imp (fun hepoch => ?_) id
      rw [hgrant]
      exact hepoch
  | notify | requestClose | otherRequest => exact halive
  | accept => exact halive.imp id nofun
  | draw =>
    -- a token drawn now is new, and this one was drawn before
    refine halive.imp id fun htoken => ?_
    have hnew : s.nextRequest + 1 = epoch := Option.some.inj htoken
    omega
  | clear htask =>
    refine halive.elim (fun hepoch => absurd hepoch (hcleared rfl)) fun htoken => .inr ?_
    rw [htask]
    exact htoken
  -- the token stays with its task
  | established htask | call _ _ _ htask =>
    refine halive.imp id fun htoken => ?_
    rw [htask]
    exact htoken
  | @returned own turn left result htask =>
    have hown : Task.token? s.task = some own := by rw [htask]; rfl
    rcases result with e | event
    · exact halive.imp id nofun
    cases event with
    -- the grant opens for the token of the task
    | awaitApproval =>
      refine .inr (hown.trans ?_)
      rcases halive with hepoch | htoken
      · exact congrArg some hepoch
      · exact htoken
    | authorized permissions =>
      dsimp only [HostState.onReturn, HostState.onEvent] at halive
      split at halive <;>
        exact halive.elim (fun hepoch => absurd hepoch (hcleared rfl)) nofun
    | closed | loginRejected => exact halive.imp id nofun
    | progress | unsupported =>
      exact halive.imp id fun htoken => hown.trans htoken
  | gone => exact halive.imp id nofun
  | leave | stop => exact halive.elim (fun hepoch => absurd hepoch (hcleared rfl)) nofun

/-- A token is a 64-bit number. -/
theorem HostStep.token_lt (h : HostStep box proto sha256 options s l t)
    (hlt : ∀ epoch, s.task.token? = some epoch → epoch < 2 ^ 64) {epoch : Nat}
    (htoken : t.task.token? = some epoch) : epoch < 2 ^ 64 := by
  cases h with
  | approve requestId allow =>
    rcases approve_cases s requestId allow with hsame | ⟨_, _, _, _, hfirst⟩
    · rw [hsame] at htoken
      exact hlt _ htoken
    · rw [hfirst] at htoken
      exact hlt _ htoken
  | notify | requestClose | otherRequest => exact hlt _ htoken
  | draw _ hnext =>
    cases htoken
    exact hnext
  | clear htask | established htask | call _ _ _ htask =>
    rw [htask] at hlt
    exact hlt _ htoken
  | @returned own turn left result htask =>
    rw [htask] at hlt
    rcases result with e | event
    · cases htoken
    cases event with
    | awaitApproval | progress | unsupported => exact hlt _ htoken
    | authorized permissions =>
      dsimp only [HostState.onReturn, HostState.onEvent] at htoken
      split at htoken <;> cases htoken
    | closed | loginRejected => cases htoken
  | accept | gone | leave | stop => cases htoken

end Token

/-! ### The connection of a token -/

variable {box : SecretBox} {proto : Protobuf Message} {sha256 : Bytes → Bytes}
  {options : StartOptions} {selection : CodecSelection} {s t u : Server} {l : Label}
  {nextRequest epoch : Nat} {ls new later : List Label} {origin : String}

/-- As long as the token is alive, its connection is there, which comes from `origin`;
`new` is what has happened since. -/
structure About (epoch : Nat) (origin : String) (new : List Label) (s : Server) : Prop where
  pos : 0 < epoch
  lt : epoch < 2 ^ 64
  drawn : epoch ≤ s.approval.nextRequest
  same : Alive epoch s.approval → .host .accept ∉ new ∧ s.origin = origin

theorem About.here (h : About epoch origin new s) : About epoch origin [] s :=
  ⟨h.pos, h.lt, h.drawn, fun halive => ⟨List.not_mem_nil, (h.same halive).2⟩⟩

/-- Only the next connection has another origin. -/
theorem Server.Step.origin_eq (h : Server.Step box proto sha256 options selection s l t)
    (hl : l ≠ .host .accept) : t.origin = s.origin := by
  cases h with
  | accepts => exact absurd rfl hl
  | peer => exact peerStep_origin
  | _ => rfl

/-- **What is known of a token stays true.** -/
theorem About.step (h : About epoch origin new s)
    (hidle : s.approval.task = .listening → s.approval.grant = {})
    (hstep : Server.Step box proto sha256 options selection s l t) :
    About epoch origin (new ++ [l]) t := by
  -- every step but the next connection keeps the origin
  have hold : ∀ {k : HostLabel}, l.host? = some k → k ≠ .accept →
      About epoch origin (new ++ [l]) t := by
    intro k hk haccept
    have hhost := hstep.host hk
    refine ⟨h.pos, h.lt, h.drawn.trans hhost.nextRequest_le, fun halive => ?_⟩
    obtain ⟨hnone, horigin⟩ := h.same (hhost.alive h.pos h.drawn halive)
    have hl : l ≠ .host .accept := by
      rintro rfl
      exact haccept (Option.some.inj hk).symm
    refine ⟨?_, (hstep.origin_eq hl).trans horigin⟩
    rw [List.mem_append, List.mem_singleton, not_or]
    exact ⟨hnone, hl.symm⟩
  cases hlabel : l.host? with
  | none =>
    have hsame := hstep.approval_eq hlabel
    have hl : l ≠ .host .accept := by
      rintro rfl
      cases hlabel
    refine ⟨h.pos, h.lt, hsame ▸ h.drawn, fun halive => ?_⟩
    obtain ⟨hnone, horigin⟩ := h.same (hsame ▸ halive)
    refine ⟨?_, (hstep.origin_eq hl).trans horigin⟩
    rw [List.mem_append, List.mem_singleton, not_or]
    exact ⟨hnone, hl.symm⟩
  | some k =>
    by_cases haccept : k = .accept
    · -- the next connection comes when nothing is pending
      subst haccept
      have hhost := hstep.host hlabel
      refine ⟨h.pos, h.lt, h.drawn.trans hhost.nextRequest_le, fun halive => ?_⟩
      generalize s.approval = a, t.approval = b at hhost halive hidle
      cases hhost with
      | accept socket htask =>
        rcases halive with hepoch | htoken
        · have hnone : a.grant.epoch = 0 := congrArg LocalGrant.epoch (hidle htask)
          exact absurd (hnone.symm.trans hepoch) (Nat.ne_of_lt h.pos)
        · cases htoken
    · exact hold hlabel haccept

/-! ### What is shown -/

/-- What the snapshot shows, or is about to show, is true of its token. -/
structure Shows (s : Server) : Prop where
  token : ∀ epoch, s.approval.task.token? = some epoch → epoch < 2 ^ 64
  request : s.snapshot.approvalRequest = "" ∨ ∃ epoch,
    s.snapshot.approvalRequest = requestText epoch ∧ About epoch s.snapshot.approvalOrigin [] s
  due : ∀ epoch origin, .awaiting epoch origin ∈ s.due → About epoch origin [] s

/-- A step that shows no request. -/
theorem Shows.keep (h : Shows s)
    (hidle : s.approval.task = .listening → s.approval.grant = {})
    (hstep : Server.Step box proto sha256 options selection s l t)
    (hrequest : t.snapshot.approvalRequest = s.snapshot.approvalRequest)
    (horigin : t.snapshot.approvalOrigin = s.snapshot.approvalOrigin)
    (hdue : ∀ epoch origin, .awaiting epoch origin ∈ t.due → .awaiting epoch origin ∈ s.due) :
    Shows t where
  token epoch htoken := by
    cases hlabel : l.host? with
    | none =>
      rw [hstep.approval_eq hlabel] at htoken
      exact h.token epoch htoken
    | some k => exact (hstep.host hlabel).token_lt h.token htoken
  request := by
    rw [hrequest, horigin]
    exact h.request.imp id fun ⟨epoch, htext, habout⟩ => ⟨epoch, htext, (habout.step hidle hstep).here⟩
  due epoch origin hmem := ((h.due epoch origin (hdue epoch origin hmem)).step hidle hstep).here

theorem awaiting_not_failed (epoch : Nat) (origin : String) (result : Except HostError Unit) :
    .awaiting epoch origin ∉ failed result := by
  rcases result with error | ⟨⟩ <;> simp [failed]

/-- **Every step keeps the snapshot true.** -/
theorem Shows.step (h : Shows s)
    (hidle : s.approval.task = .listening → s.approval.grant = {})
    (htoken : ∀ epoch, s.approval.task.token? = some epoch →
      0 < epoch ∧ epoch ≤ s.approval.nextRequest)
    (hstep : Server.Step box proto sha256 options selection s l t) : Shows t := by
  have hkeep := h.keep hidle hstep
  have hstep' := hstep
  cases hstep' with
  | @peer p p' k _ _ => cases k with
    | writes message unit => cases unit <;> exact hkeep rfl rfl fun _ _ => id
    | _ => exact hkeep rfl rfl fun _ _ => id
  | clears | finishes => exact hkeep rfl rfl fun _ _ hmem => by simp at hmem
  | givesUp => exact hkeep rfl rfl fun _ _ hmem => by simp at hmem
  | leaves =>
    refine hkeep rfl rfl fun epoch origin hmem => ?_
    have hfailed := awaiting_not_failed epoch origin s.left
    simp [hfailed] at hmem
  | @hears codecs epoch turns turn result hstage hdue htask hresult =>
    -- only the event that awaits the approval is due with a token, and it is the task's own
    have hhost : HostStep box proto sha256 options.toHostOptions s.approval .returned
        (s.approval.onReturn epoch turn turns result) := .returned htask hresult
    have hown : s.approval.task.token? = some epoch := by rw [htask]; rfl
    have habout : About epoch s.origin [] s :=
      ⟨(htoken epoch hown).1, h.token epoch hown, (htoken epoch hown).2,
        fun _ => ⟨List.not_mem_nil, rfl⟩⟩
    refine ⟨fun other hother => hhost.token_lt h.token hother, ?_, fun shownEpoch origin hmem => ?_⟩
    · exact h.request.imp id fun ⟨other, htext, hother⟩ =>
        ⟨other, htext, (hother.step hidle hstep).here⟩
    · have hboth : shownEpoch = epoch ∧ origin = s.origin := by
        rcases result with e | event
        · simp [shown] at hmem
        · cases event <;> simp [shown] at hmem
          exact hmem
      obtain ⟨rfl, rfl⟩ := hboth
      exact (habout.step hidle hstep).here
  | @updates change rest hdue hstage =>
    -- the change that is due first is shown
    have hrest : ∀ epoch origin, .awaiting epoch origin ∈ rest → .awaiting epoch origin ∈ s.due := by
      intro epoch origin hmem
      rw [hdue]
      exact List.mem_cons_of_mem _ hmem
    cases change with
    | awaiting epoch origin =>
      have habout := h.due epoch origin (by rw [hdue]; exact List.mem_cons_self)
      exact ⟨h.token, .inr ⟨epoch, rfl, (habout.step hidle hstep).here⟩, fun other from' hmem =>
        ((h.due other from' (hrest other from' hmem)).step hidle hstep).here⟩
    | cleared =>
      exact ⟨h.token, .inl rfl, fun other from' hmem =>
        ((h.due other from' (hrest other from' hmem)).step hidle hstep).here⟩
    | _ => exact hkeep rfl rfl hrest
  | _ => exact hkeep rfl rfl fun _ _ => id

theorem Isolated.idle {start s : HostState} {es : List HostLabel} {options : HostOptions}
    (h : Isolated box proto sha256 options start es s) (htask : s.task = .listening) :
    s.grant = {} := by
  have hcurrent := h.current
  rw [Current, htask] at hcurrent
  exact hcurrent

theorem Isolated.token {start s : HostState} {es : List HostLabel} {options : HostOptions}
    (h : Isolated box proto sha256 options start es s) (htoken : s.task.token? = some epoch) :
    0 < epoch ∧ epoch ≤ s.nextRequest := by
  have hcurrent := h.current
  rw [Current] at hcurrent
  cases htask : s.task <;> rw [htask] at hcurrent htoken <;> cases htoken <;>
    exact ⟨hcurrent.1, hcurrent.2.1⟩

theorem ServerRun.shows (h : ServerRun box proto sha256 options selection nextRequest ls s) :
    Shows s :=
  (Run.history
    (P := fun ls s => ServerRun box proto sha256 options selection nextRequest ls s ∧ Shows s)
    (fun _ _ _ _ hP hstep => ⟨hP.1.snoc hstep,
      hP.2.step hP.1.isolated.idle (fun _ => hP.1.isolated.token) hstep⟩) h
    ⟨.nil _, nofun, .inl rfl, fun _ _ hmem => absurd hmem List.not_mem_nil⟩).2

/-- **A decision is about the connection that was shown.**  When a decision about the
request that the snapshot shows is recorded, however much later, no other connection was
accepted since, and the one it is recorded for comes from the address that was shown. -/
theorem shown_origin {allow : Bool}
    (h : ServerRun box proto sha256 options selection nextRequest ls s)
    (hlater : Run (Server.Step box proto sha256 options selection) s later t)
    (hdecides : Server.Step box proto sha256 options selection t
      (.host (.approve s.snapshot.approvalRequest allow true)) u) :
    .host .accept ∉ later ∧ t.origin = s.snapshot.approvalOrigin ∧
      ∃ epoch, s.snapshot.approvalRequest = requestText epoch ∧
        u.approval.grant = ⟨epoch, if allow then 1 else 2⟩ := by
  have hhost := hdecides.host rfl
  obtain ⟨epoch, hparse, hgrant, hnext⟩ : ∃ epoch,
      Text.parseU64 s.snapshot.approvalRequest.toList = some epoch ∧
        t.approval.grant = ⟨epoch, 0⟩ ∧ u.approval.grant = ⟨epoch, if allow then 1 else 2⟩ := by
    generalize hrecorded : true = recorded at hhost
    generalize t.approval = a, u.approval = b at hhost
    cases hhost with
    | approve =>
      rcases approve_cases a s.snapshot.approvalRequest allow with
        hsame | ⟨epoch, hparse, -, hgrant, hfirst⟩
      · rw [hsame] at hrecorded
        cases hrecorded
      · rw [hfirst]
        exact ⟨epoch, hparse, hgrant, rfl⟩
  rcases h.shows.request with hnone | ⟨shownEpoch, htext, habout⟩
  · rw [hnone] at hparse
    cases hparse
  obtain rfl : shownEpoch = epoch := by
    rw [htext, parseU64_requestText habout.lt] at hparse
    exact Option.some.inj hparse
  -- the run on from what is shown
  have hlast := (Run.history
    (P := fun new v => ServerRun box proto sha256 options selection nextRequest (ls ++ new) v ∧
      About shownEpoch s.snapshot.approvalOrigin new v)
    (fun new v w k hP hstep => by
      refine ⟨?_, hP.2.step hP.1.isolated.idle hstep⟩
      rw [← List.append_assoc]
      exact hP.1.snoc hstep)
    hlater ⟨by rwa [List.append_nil], habout⟩).2
  obtain ⟨hnone, horigin⟩ := hlast.same (.inl (congrArg LocalGrant.epoch hgrant))
  exact ⟨hnone, horigin, shownEpoch, htext, hnext⟩

theorem shown_origin_allows : ∃ s u,
    ServerRun .padding deskRecords id deskStart .auto 0 shownRun s ∧
    Server.Step .padding deskRecords id deskStart .auto s
      (.host (.approve s.snapshot.approvalRequest true true)) u ∧
    s.origin = s.snapshot.approvalOrigin := by
  obtain ⟨s, _, _, h, hshown, hrecords, -⟩ := shownRun_consent
  have hstep := @HostStep.approve .padding deskRecords id deskStart.toHostOptions s.approval
    s.snapshot.approvalRequest true
  rw [hshown, hrecords, ← hshown] at hstep
  have hdecides := @Server.Step.foreign .padding deskRecords id deskStart .auto s _ _ rfl hstep
  exact ⟨s, _, h, hdecides, (shown_origin h (.nil _) hdecides).2.1⟩

end Host

end RdEngine
