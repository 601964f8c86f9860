/-
RdEngine/Host/Captures.lean

What a serving host says of its captures is true.

A capture is in the hands of the sender of its session; when it leaves them in doubt,
the flag is up from then on (`Sender.Holds`).  `peer` returns a doubt as an error, and
after that error no connection is accepted (`Kept`).  So the captures come one by one:
none is opened before all others are gone (`captures_one_by_one`).

The task takes the flag over into the snapshot at its end, as the last change
(`Ending`), so a success of `close` says that no capture is left.  An error says that
one was not confirmed, as long as nothing panics (`close_truthful`).
-/
import RdEngine.Host.ServingSafety

namespace RdEngine

namespace Host

open Lts

/-! ### One session -/

/-- Whether this is a doubt about the capture. -/
def PeerSession.Label.isDoubt : PeerSession.Label → Bool
  | .doubts => true
  | _ => false

/-- What the sender holds of the screen; `unreclaimed` is the flag. -/
def Sender.Holds (unreclaimed : Bool) : Sender → Capture → Prop
  | .created, capture => capture = .unopened
  | .opening, capture => capture = .opening
  | .looping, capture | .sending _ _, capture => capture = .live
  | .closing _, capture => capture = .closing
  | .returned result, capture => capture.isGone = true ∨
      capture = .unconfirmed ∧ result = .error .reclamationUnconfirmed ∧ unreclaimed = true
  | .panicked, capture => capture.isGone = true ∨ capture = .unconfirmed

/-- A flag that goes up takes nothing back. -/
theorem Sender.Holds.raise {sender : Sender} {capture : Capture} {u v : Bool}
    (h : sender.Holds u capture) (huv : u = true → v = true) : sender.Holds v capture := by
  cases sender with
  | returned result =>
    exact h.imp id fun hdoubt => ⟨hdoubt.1, hdoubt.2.1, huv hdoubt.2.2⟩
  | _ => exact h

variable {stopped u : Bool} {p p' : PeerSession} {k : PeerSession.Label}

/-- **What a step of the two tasks does to the capture.** -/
theorem PeerSession.Step.holds (h : PeerSession.Step stopped p k p')
    (hholds : p.sender.Holds u p.capture) : p'.sender.Holds (u || k.isDoubt) p'.capture := by
  cases h with
  | reads | readerPanics =>
    refine hholds.raise fun hu => ?_
    rw [hu]
    rfl
  | skips hsender =>
    rw [hsender] at hholds
    exact .inl (by rw [show p.capture = .unopened from hholds]; rfl)
  | opens | opened => exact rfl
  | openRefused | closes => exact .inl rfl
  | openUnconfirmed | closeFails => exact .inr ⟨rfl, rfl, Bool.or_true u⟩
  | takesKeyframe hsender =>
    rw [hsender] at hholds
    show p.sender.Holds _ _
    rw [hsender]
    exact hholds
  | takesReply hsender | yields hsender | writes hsender =>
    rw [hsender] at hholds
    exact hholds
  | loopCancelled | keyframeFails | queueEnds | yieldsInvalid | publisherEnds | publisherFails
  | writeCancelled | writeFails => exact rfl
  | senderPanics =>
    show Capture.isGone (if _ then _ else _) = true ∨ (if _ then _ else _) = Capture.unconfirmed
    split
    · exact .inl rfl
    · exact .inr rfl

/-- A doubt is what `peer` returns. -/
theorem PeerSession.outcome_doubt (hover : p.sender.isOver = true)
    (hholds : p.sender.Holds u p.capture) (cancelled : Bool) :
    p.capture.isGone = true ∨ p.capture = .unconfirmed ∧
      p.outcome cancelled = .error .reclamationUnconfirmed ∧
        (u || (p.sender matches .panicked)) = true := by
  unfold PeerSession.outcome
  cases hsender : p.sender with
  | returned result =>
    rw [hsender] at hholds
    refine hholds.imp id fun ⟨hcapture, hresult, hu⟩ => ⟨hcapture, ?_, by rw [hu]; rfl⟩
    rw [hresult]
    rfl
  | panicked =>
    rw [hsender] at hholds
    exact hholds.imp id fun hcapture => ⟨hcapture, rfl, Bool.or_true u⟩
  | _ =>
    rw [hsender] at hover
    cases hover

/-! ### All sessions -/

/-- The captures of the host, the oldest first. -/
def Server.captures (s : Server) : List Capture :=
  s.past ++ (s.session.map (·.capture)).toList

/-- Nothing is left of the captures of earlier sessions. -/
def Server.AllGone (s : Server) : Prop := ∀ c ∈ s.past, c.isGone = true

/-- The host is on its way out with a doubt. -/
def Server.GivingUp (s : Server) : Prop :=
  s.approval.task = .leaving ∧ s.left = .error .reclamationUnconfirmed ∨ s.approval.task = .stopped

/-- A doubt is about the last capture alone, and nothing comes after it. -/
structure Kept (s : Server) : Prop where
  session : ∀ p, s.session = some p → s.AllGone ∧ p.sender.Holds s.unreclaimed p.capture
  past : s.AllGone ∨ s.unreclaimed = true ∧ s.GivingUp ∧
    ∃ older, s.past = older ++ [.unconfirmed] ∧ ∀ c ∈ older, c.isGone = true

variable {box : SecretBox} {proto : Protobuf Message} {sha256 : Bytes → Bytes}
  {options : StartOptions} {selection : CodecSelection} {s t : Server} {l : Label}
  {nextRequest : Nat} {ls : List Label}

theorem peerStep_unreclaimed :
    (s.peerStep p p' k).unreclaimed = (s.unreclaimed || k.isDoubt) := by
  cases k with
  | doubts => exact (Bool.or_true _).symm
  | _ => exact (Bool.or_false _).symm

/-- A step that leaves the captures alone. -/
theorem Kept.keep (h : Kept s) (hsession : t.session = s.session) (hpast : t.past = s.past)
    (hflag : s.unreclaimed = true → t.unreclaimed = true)
    (hleaving : s.GivingUp → s.unreclaimed = true → t.GivingUp) : Kept t where
  session p hp := by
    obtain ⟨hgone, hholds⟩ := h.session p (hsession.symm.trans hp)
    exact ⟨by rw [Server.AllGone, hpast]; exact hgone, hholds.raise hflag⟩
  past := by
    rw [Server.AllGone, hpast]
    refine h.past.imp id fun ⟨hdoubt, hup, hlast⟩ => ⟨hflag hdoubt, hleaving hup hdoubt, hlast⟩

/-- A connection is served only by a host without doubts. -/
theorem Kept.gone (h : Kept s) (hup : ¬ s.GivingUp) : s.AllGone :=
  h.past.resolve_right fun hdoubt => hup hdoubt.2.1

theorem stop_task {options : HostOptions} {s t : HostState}
    (h : HostStep box proto sha256 options s .stop t) : t.task = .stopped := by
  cases h
  rfl

theorem gone_task {options : HostOptions} {s t : HostState}
    (h : HostStep box proto sha256 options s .gone t) :
    s.task.busy = true ∧ t.task = .leaving := by
  cases h with
  | gone hbusy => exact ⟨hbusy, rfl⟩

/-- A connection goes on only where the host is not on its way out. -/
theorem not_givingUp {k : HostLabel} {u : HostState}
    (h : HostStep box proto sha256 options.toHostOptions s.approval k u)
    (hk : k.isForeign = false) (hleave : k ≠ .leave) (hstop : k ≠ .stop) : ¬ s.GivingUp := by
  have htask : s.approval.task ≠ .leaving ∧ s.approval.task ≠ .stopped := by
    cases h with
    | approve | notify | requestClose | otherRequest => cases hk
    | leave => exact absurd rfl hleave
    | stop => exact absurd rfl hstop
    | gone hbusy =>
      constructor <;> intro htask <;> rw [htask] at hbusy <;> cases hbusy
    | accept _ htask | draw htask _ | clear htask | established htask _ | call _ _ _ htask _
    | returned htask _ =>
      rw [htask]
      exact ⟨nofun, nofun⟩
  rintro (⟨hleaving, -⟩ | hstopped)
  · exact htask.1 hleaving
  · exact htask.2 hstopped

/-- **Every step keeps the account of the captures.** -/
theorem Kept.step (h : Kept s) (hstep : Server.Step box proto sha256 options selection s l t) :
    Kept t := by
  cases hstep with
  | foreign hl hstep =>
    -- the calls of the operator do not move the task
    refine h.keep rfl rfl id fun hup _ => ?_
    show _ ∧ _ ∨ _
    rw [foreign_task hl hstep]
    exact hup
  | probes | binds | updates | finishes | panics | closeTakes | closeJoins | closeDropped
  | closeReturns => exact h.keep rfl rfl id fun hup _ => hup
  | closeJoinsPanicked => exact h.keep rfl rfl (fun _ => rfl) fun hup _ => hup
  | probeFails _ _ hstep | bindFails _ hstep | acceptFails _ _ _ hstep | closes _ _ _ _ hstep
  | givesUp _ _ _ _ hstep =>
    exact h.keep rfl rfl id fun _ _ => .inr (stop_task hstep)
  | accepts _ _ _ hstep | clears _ _ hstep =>
    exact h.keep rfl rfl id fun hup _ => absurd hup (not_givingUp hstep rfl nofun nofun)
  | authenticates _ _ hl hstep =>
    refine h.keep rfl rfl id fun hup _ => absurd hup (not_givingUp hstep ?_ ?_ ?_)
    · cases hstep <;> first | rfl | cases hl
    · rintro rfl
      cases hl
    · rintro rfl
      cases hl
  | hears _ _ htask hresult =>
    have hreturned : HostStep box proto sha256 options.toHostOptions s.approval .returned _ :=
      .returned htask hresult
    exact h.keep rfl rfl id fun hup _ => absurd hup (not_givingUp hreturned rfl nofun nofun)
  | abandons _ _ _ _ hstep | noCodec _ _ _ _ _ hstep =>
    exact h.keep rfl rfl id fun hup _ => absurd hup (not_givingUp hstep rfl nofun nofun)
  | begins _ _ htask =>
    -- a peer is served only while no doubt has ended the loop
    have hgone : s.AllGone := h.gone fun hup => by
      rcases hup with ⟨hleaving, -⟩ | hstopped
      · exact nomatch htask.symm.trans hleaving
      · exact nomatch htask.symm.trans hstopped
    refine ⟨fun p hp => ?_, .inl hgone⟩
    cases hp
    exact ⟨hgone, rfl⟩
  | @peer p p' k hsession hstep =>
    obtain ⟨hgone, hholds⟩ := h.session p hsession
    have hall : (s.peerStep p p' k).AllGone := by
      rw [Server.AllGone, peerStep_past]
      exact hgone
    refine ⟨fun q hq => ⟨hall, ?_⟩, .inl hall⟩
    obtain rfl : p' = q := Option.some.inj (peerStep_session.symm.trans hq)
    rw [peerStep_unreclaimed]
    exact hstep.holds hholds
  | cancelsPeer _ hsession =>
    obtain ⟨hgone, hholds⟩ := h.session _ hsession
    refine ⟨fun q hq => ?_, .inl hgone⟩
    cases hq
    exact ⟨hgone, hholds⟩
  | @peerReturns _ p u _ hsession _ _ hover hstep =>
    -- the capture of the session becomes one of the past
    obtain ⟨hgone, hholds⟩ := h.session p hsession
    refine ⟨fun q hq => (nomatch (show none = some q from hq)), ?_⟩
    rcases PeerSession.outcome_doubt hover hholds s.approval.cancelled with hlast | hdoubt
    · refine .inl fun c hc => ?_
      rcases List.mem_append.mp hc with hold | hnew
      · exact hgone c hold
      · rw [List.mem_singleton.mp hnew]
        exact hlast
    · obtain ⟨hcapture, houtcome, hflag⟩ := hdoubt
      refine .inr ⟨hflag, .inl ⟨(gone_task hstep).2, houtcome⟩, s.past, ?_, hgone⟩
      rw [← hcapture]
  | leaves _ _ htask hleft hstep =>
    -- a doubt would have ended the task
    refine h.keep rfl rfl id fun hup _ => ?_
    rcases hup with ⟨-, hdoubt⟩ | hstopped
    · exact absurd hdoubt hleft
    · exact nomatch htask.symm.trans hstopped

theorem kept_start (options : StartOptions) (nextRequest : Nat) :
    Kept (.start options nextRequest) where
  session _ hp := nomatch (show none = some _ from hp)
  past := .inl fun _ hc => absurd hc List.not_mem_nil

theorem ServerRun.kept (h : ServerRun box proto sha256 options selection nextRequest ls s) :
    Kept s :=
  Run.invariant (I := Kept) (fun _ _ _ hI hstep => hI.step hstep) h (kept_start options nextRequest)

/-! ### Runs: peers that go, and a doubt -/

/-- The screen is opened; the peer goes, and the host listens again. -/
def goneRun : List Label :=
  [.peer .opens, .peer .silent, .peer (.reads .failed), .peer .silent, .peer .silent, .serves,
    .host .gone, .host .leave, .serves, .serves, .serves]

/-- The publisher cannot say what is left of the screen; the peer goes, and so does the host. -/
def doubtRun : List Label :=
  [.peer .opens, .peer .doubts, .peer (.reads .failed), .serves, .host .gone, .host .stop, .serves,
    .serves, .serves, .serves, .serves, .host .requestClose, .serves, .serves]

/-- The host is closed while it listens. -/
def closeRun : List Label :=
  [.host .requestClose, .serves, .host .stop, .serves, .serves, .serves, .serves]

section Sessions

variable {n : Nat} {parts : AuthenticatedParts} {codec : Codec} {reader : Reader}
  {past : List Capture} {snapshot : HostSnapshot} {origin : String} {left : Except HostError Unit}

/-- The connection is lost. -/
theorem PeerSession.Step.fails {stopped : Bool} {p : PeerSession}
    (hreader : p.readerIsOver = false) :
    PeerSession.Step stopped p (.reads .failed) { p with inputs := p.inputs ++ [.failed] } :=
  .reads hreader (by rintro ⟨⟩) (by rintro _ _ ⟨⟩)

/-- The capture of a peer that goes is reclaimed. -/
theorem gone_run : ∃ snapshot' left', Run (Server.Step .padding deskRecords id deskStart .auto)
    (begun n parts codec reader past snapshot origin left) goneRun
    (listening n (past ++ [.reclaimed]) snapshot' origin left') := by
  have hopens : Server.Step .padding deskRecords id deskStart .auto
      (begun n parts codec reader past snapshot origin left) (.peer .opens) _ :=
    .peer rfl (.opens rfl rfl)
  have hopened := (Run.single hopens).snoc (.peer rfl (.opened rfl))
  -- the reader is over, so the sender closes the publisher
  have hfailed := hopened.snoc (.peer rfl (.fails rfl))
  have hclosed := (hfailed.snoc (.peer rfl (.queueEnds rfl rfl rfl))).snoc
    (.peer rfl (.closes rfl))
  -- both tasks are over, so `peer` returns
  have hcancelled := hclosed.snoc (.cancelsPeer rfl rfl rfl)
  have hgone := hcancelled.snoc (.peerReturns rfl rfl rfl rfl rfl (.gone rfl))
  have hleft := hgone.snoc (.leaves rfl rfl rfl nofun (.leave rfl))
  have hdue := ((hleft.snoc (.updates rfl nofun)).snoc (.updates rfl nofun)).snoc
    (.updates rfl nofun)
  exact ⟨_, _, hdue⟩

/-- A host that is closed while it listens answers so. -/
theorem close_run : ∃ s, Run (Server.Step .padding deskRecords id deskStart .auto)
      (listening n past snapshot origin left) closeRun s ∧ s.past = past ∧
    Server.Step .padding deskRecords id deskStart .auto s (.closeReturns (.ok ())) s := by
  have hclose : Server.Step .padding deskRecords id deskStart .auto
      (listening n past snapshot origin left) (.host .requestClose) _ :=
    .foreign rfl (.requestClose _)
  have htaken := (Run.single hclose).snoc (.closeTakes rfl rfl)
  have hstopped := htaken.snoc (.closes rfl rfl rfl rfl (.stop (.inl rfl)))
  have hfinished := hstopped.snoc (.finishes rfl rfl)
  have hdue := (hfinished.snoc (.updates rfl nofun)).snoc (.updates rfl nofun)
  exact ⟨_, hdue.snoc (.closeJoins rfl rfl rfl), rfl, .closeReturns rfl rfl⟩

/-- A host that is in doubt gives up, and its close says so. -/
theorem doubt_run : ∃ s, Run (Server.Step .padding deskRecords id deskStart .auto)
      (begun n parts codec reader past snapshot origin left) doubtRun s ∧
    s.stage = .finished ∧ s.due = [] ∧
    Server.Step .padding deskRecords id deskStart .auto s
      (.closeReturns (.error .reclamationUnconfirmed)) s := by
  have hopens : Server.Step .padding deskRecords id deskStart .auto
      (begun n parts codec reader past snapshot origin left) (.peer .opens) _ :=
    .peer rfl (.opens rfl rfl)
  have hdoubt := (Run.single hopens).snoc (.peer rfl (.openUnconfirmed rfl))
  have hfailed := hdoubt.snoc (.peer rfl (.fails rfl))
  have hcancelled := hfailed.snoc (.cancelsPeer rfl rfl rfl)
  have hgone := hcancelled.snoc (.peerReturns rfl rfl rfl rfl rfl (.gone rfl))
  have hstopped := hgone.snoc (.givesUp rfl rfl rfl rfl (.stop (.inr rfl)))
  have hshown := (hstopped.snoc (.updates rfl nofun)).snoc (.updates rfl nofun)
  have hfinished := hshown.snoc (.finishes rfl rfl)
  have hdue := (hfinished.snoc (.updates rfl nofun)).snoc (.updates rfl nofun)
  have hclose := hdue.snoc (.foreign rfl (.requestClose _))
  have hjoined := (hclose.snoc (.closeTakes rfl rfl)).snoc (.closeJoins rfl rfl rfl)
  exact ⟨_, hjoined, rfl, rfl, .closeReturns rfl rfl⟩

end Sessions

/-- The first peer is gone, and the next one is allowed. -/
def againRun : List Label := servedRun ++ goneRun ++ loginRun ++ allowRun "2"

/-- The first peer is gone, and the host is closed. -/
def closedRun : List Label := servedRun ++ goneRun ++ closeRun

/-- The publisher of the first peer leaves a doubt, and the host is closed. -/
def doubtedRun : List Label := servedRun ++ doubtRun

theorem gone_served : ∃ snapshot origin left,
    ServerRun .padding deskRecords id deskStart .auto 0 (servedRun ++ goneRun)
      (listening 1 [.reclaimed] snapshot origin left) := by
  obtain ⟨_, hstart⟩ := listening_start
  obtain ⟨_, _, _, _, _, _, _, hlogin, -, -, hallow⟩ := login_run Nat.two_pos
  obtain ⟨_, _, hgone⟩ := gone_run
  exact ⟨_, _, _, ((hstart.append hlogin).append hallow).append hgone⟩

/-! ### What is left of the captures -/

/-- **The captures come one by one.**  All but the last are gone, whatever tasks panic,
whoever closes the host, and whatever a publisher answers; so when one is opened, every
other was refused, never opened, or confirmed to be reclaimed. -/
theorem captures_one_by_one
    (h : ServerRun box proto sha256 options selection nextRequest ls s) :
    (∃ older last, s.captures = older ++ Option.toList last ∧ ∀ c ∈ older, c.isGone = true) ∧
      ∀ t, Server.Step box proto sha256 options selection s (.peer .opens) t → s.AllGone := by
  have hkept := h.kept
  constructor
  · cases hsession : s.session with
    | some p => exact ⟨s.past, some p.capture, by rw [Server.captures, hsession]; rfl,
        (hkept.session p hsession).1⟩
    | none =>
      have hcaptures : s.captures = s.past := by
        rw [Server.captures, hsession]
        exact List.append_nil _
      rw [hcaptures]
      rcases hkept.past with hgone | ⟨-, -, older, hpast, holder⟩
      · exact ⟨s.past, none, (List.append_nil _).symm, hgone⟩
      · exact ⟨older, some .unconfirmed, hpast, holder⟩
  · intro t hstep
    obtain ⟨p, hp⟩ := exposes_session hstep trivial
    exact (hkept.session p hp).1

theorem captures_one_by_one_opens : ∃ s t,
    ServerRun .padding deskRecords id deskStart .auto 0 againRun s ∧ s.past = [.reclaimed] ∧
    Server.Step .padding deskRecords id deskStart .auto s (.peer .opens) t ∧ s.AllGone := by
  obtain ⟨_, _, _, hgone⟩ := gone_served
  obtain ⟨_, _, _, _, _, _, _, hlogin, -, -, hallow⟩ := login_run Nat.one_lt_two
  have h : ServerRun .padding deskRecords id deskStart .auto 0 againRun _ :=
    (hgone.append hlogin).append hallow
  obtain ⟨t, hopens⟩ := begun_opens
  exact ⟨_, t, h, rfl, hopens, (captures_one_by_one h).2 t hopens⟩

/-! ### The end -/

def Stage.isOver : Stage → Bool
  | .returned _ | .finished => true
  | _ => false

/-- What the task does last. -/
structure Ending (s : Server) : Prop where
  stopped : s.stage.isOver = true → s.approval.task = .stopped
  early : s.stage ≠ .finished → s.stage ≠ .panicked → ∀ error safe, .ended error safe ∉ s.due
  due : s.stage = .finished → ∃ error, s.due <:+ [.cleared, .ended error (!s.unreclaimed)]
  closed : s.snapshot.closed = true → s.stage = .finished ∧ s.due = [] ∧ s.unreclaimed = false
  ended : s.stage = .finished → s.due = [] → s.snapshot.closed = !s.unreclaimed

theorem update_closed {snapshot : HostSnapshot} {change : Update}
    (h : ∀ error safe, change ≠ .ended error safe) :
    (snapshot.update change).closed = snapshot.closed := by
  cases change with
  | ended error safe => exact absurd rfl (h error safe)
  | _ => rfl

/-- A step of a task that is not over, and does not come to its end. -/
theorem Ending.go (h : Ending s) (hs : s.stage ≠ .finished) (ht : t.stage ≠ .finished)
    (hstopped : t.stage.isOver = true → t.approval.task = .stopped)
    (hdue : ∀ error safe, .ended error safe ∉ t.due)
    (hclosed : t.snapshot.closed = s.snapshot.closed) : Ending t where
  stopped := hstopped
  early _ _ := hdue
  due hover := absurd hover ht
  closed hover := absurd (h.closed (hclosed ▸ hover)).1 hs
  ended hover := absurd hover ht

theorem Ending.keep (h : Ending s) (hstage : t.stage = s.stage) (hdue : t.due = s.due)
    (htask : t.approval.task = s.approval.task) (hclosed : t.snapshot.closed = s.snapshot.closed)
    (hflag : t.unreclaimed = s.unreclaimed ∨ s.stage ≠ .finished) : Ending t := by
  have hflag' : s.stage = .finished → t.unreclaimed = s.unreclaimed := fun hover =>
    hflag.resolve_right fun hnot => hnot hover
  refine ⟨?_, ?_, ?_, ?_, ?_⟩
  · rw [hstage, htask]
    exact h.stopped
  · rw [hstage, hdue]
    exact h.early
  · rw [hstage, hdue]
    intro hover
    rw [hflag' hover]
    exact h.due hover
  · rw [hstage, hdue, hclosed]
    intro hc
    obtain ⟨hover, hrest, hdown⟩ := h.closed hc
    exact ⟨hover, hrest, (hflag' hover).trans hdown⟩
  · rw [hstage, hdue, hclosed]
    intro hover
    rw [hflag' hover]
    exact h.ended hover

/-- Nobody is served any more. -/
theorem Served.none (h : Served options s) (htask : s.approval.task = .stopped) :
    s.session = none := by
  rw [← Option.not_isSome_iff_eq_none]
  intro hsome
  obtain ⟨p, hp⟩ := Option.isSome_iff_exists.mp hsome
  obtain ⟨epoch, parts, hserving, -⟩ := h p hp
  exact nomatch hserving.symm.trans htask

theorem Ending.update (h : Ending s) {change : Update} {rest : List Update}
    (hdue : s.due = change :: rest) (hstage : s.stage ≠ .panicked)
    (ht : t = { s with snapshot := s.snapshot.update change, due := rest }) : Ending t := by
  subst ht
  by_cases hover : s.stage = .finished
  · obtain ⟨error, hsuffix⟩ := h.due hover
    have hopen : s.snapshot.closed = false := by
      rw [← Bool.not_eq_true]
      intro hc
      rw [(h.closed hc).2.1] at hdue
      cases hdue
    rw [hdue] at hsuffix
    -- the last two changes, one after the other
    rcases List.suffix_cons_iff.mp hsuffix with hall | hlast
    · obtain ⟨rfl, rfl⟩ := List.cons.inj hall
      refine ⟨h.stopped, fun hnot => absurd hover hnot, fun _ => ⟨error, List.suffix_cons _ _⟩,
        fun hc => ?_, nofun⟩
      exact nomatch hopen.symm.trans hc
    · have hend : change = .ended error (!s.unreclaimed) ∧ rest = [] := by
        rcases List.suffix_cons_iff.mp hlast with hall | hnone
        · exact List.cons.inj hall
        · exact nomatch List.suffix_nil.mp hnone
      obtain ⟨rfl, rfl⟩ := hend
      refine ⟨h.stopped, fun hnot => absurd hover hnot, fun _ => ⟨error, List.nil_suffix⟩,
        fun hc => ⟨hover, rfl, ?_⟩, fun _ _ => rfl⟩
      have hsafe : (!s.unreclaimed) = true := hc
      rwa [Bool.not_eq_true'] at hsafe
  · have hearly := h.early hover hstage
    rw [hdue] at hearly
    refine h.go hover hover h.stopped (fun error safe hmem => ?_) (update_closed ?_)
    · exact hearly error safe (List.mem_cons_of_mem _ hmem)
    · rintro error safe rfl
      exact hearly error safe List.mem_cons_self

/-- **Every step keeps the end in order.** -/
theorem Ending.step (h : Ending s) (hserved : Served options s)
    (hstep : Server.Step box proto sha256 options selection s l t) : Ending t := by
  -- a peer is served only before the loop has finished
  have hpeer : ∀ p, s.session = some p → s.stage ≠ .finished := by
    intro p hp hover
    exact nomatch hp.symm.trans (hserved.none (h.stopped (by rw [hover]; rfl)))
  cases hstep with
  | foreign hl hstep => exact h.keep rfl rfl (foreign_task hl hstep) rfl (.inl rfl)
  -- the stages that lead on to another
  | probes hstage | binds hstage =>
    refine h.go (by rw [hstage]; nofun) nofun nofun (h.early ?_ ?_) rfl <;> rw [hstage] <;> nofun
  | probeFails hstage _ hstep | bindFails hstage hstep =>
    refine h.go (by rw [hstage]; nofun) nofun (fun _ => stop_task hstep) (h.early ?_ ?_) rfl <;>
      rw [hstage] <;> nofun
  -- the failures that end the loop
  | acceptFails hstage hdue _ hstep | closes hstage hdue _ _ hstep =>
    refine h.go (by rw [hstage]; nofun) nofun (fun _ => stop_task hstep) (h.early ?_ ?_) rfl <;>
      rw [hstage] <;> nofun
  | accepts _ hstage | authenticates hstage | abandons hstage | noCodec hstage | begins hstage
  | peerReturns hstage =>
    refine h.go (by rw [hstage]; nofun) (by rw [hstage]; nofun) ?_ (h.early ?_ ?_) rfl <;>
      rw [hstage] <;> nofun
  | clears hstage =>
    refine h.go (by rw [hstage]; nofun) (by rw [hstage]; nofun) ?_ ?_ rfl
    · rw [hstage]; nofun
    · simp
  | @hears codecs epoch turns turn result hstage =>
    refine h.go (by rw [hstage]; nofun) (by rw [hstage]; nofun) ?_ ?_ rfl
    · rw [hstage]; nofun
    · rcases result with e | event
      · simp [shown]
      · cases event <;> simp [shown]
  | leaves hstage =>
    refine h.go (by rw [hstage]; nofun) (by rw [hstage]; nofun) ?_ ?_ rfl
    · rw [hstage]; nofun
    · rcases s.left with error | ⟨⟩ <;> simp [failed]
  | givesUp hstage _ _ _ hstep =>
    refine h.go (by rw [hstage]; nofun) nofun (fun _ => stop_task hstep) ?_ rfl
    simp
  | peer hsession =>
    refine h.keep peerStep_stage peerStep_due (by rw [peerStep_approval]) ?_
      (.inr (hpeer _ hsession))
    rename_i k _
    cases k with
    | writes message unit => cases unit <;> rfl
    | _ => rfl
  | cancelsPeer => exact h.keep rfl rfl rfl rfl (.inl rfl)
  | updates hdue hstage => exact h.update hdue hstage rfl
  -- from here on everything is decided
  | finishes hstage =>
    refine ⟨fun _ => h.stopped (by rw [hstage]; rfl), fun hnot => absurd rfl hnot,
      fun _ => ⟨_, List.suffix_rfl⟩, fun hc => ?_, nofun⟩
    exact nomatch hstage.symm.trans (h.closed hc).1
  | panics hrunning =>
    refine ⟨nofun, fun _ hnot => absurd rfl hnot, nofun, fun hc => ?_, nofun⟩
    obtain ⟨hover, hdue, -⟩ := h.closed hc
    exact absurd hdue (hrunning hover)
  | closeTakes | closeJoins | closeDropped => exact h.keep rfl rfl rfl rfl (.inl rfl)
  | closeJoinsPanicked _ hstage =>
    exact h.keep rfl rfl rfl rfl (.inr (by rw [hstage]; nofun))
  | closeReturns => exact h

theorem ending_start (options : StartOptions) (nextRequest : Nat) :
    Ending (.start options nextRequest) :=
  ⟨nofun, fun _ _ _ _ => List.not_mem_nil, nofun, nofun, nofun⟩

theorem ServerRun.ending (h : ServerRun box proto sha256 options selection nextRequest ls s) :
    Ending s :=
  (Run.invariant (I := fun s => Served options s ∧ Ending s)
    (fun _ _ _ hI hstep => ⟨hI.1.step hstep, hI.2.step hI.1 hstep⟩) h
    ⟨served_start options nextRequest, ending_start options nextRequest⟩).2

/-! ### What a doubt rests on -/

def Label.isPanic : Label → Bool
  | .panics | .peer .panics => true
  | _ => false

/-- A panic of one of the host's tasks. -/
def Panicked (ls : List Label) : Prop := ∃ l ∈ ls, l.isPanic = true

instance (ls : List Label) : Decidable (Panicked ls) :=
  inferInstanceAs (Decidable (∃ l ∈ ls, l.isPanic = true))

theorem Panicked.more (h : Panicked ls) (l : Label) : Panicked (ls ++ [l]) := by
  obtain ⟨p, hmem, hp⟩ := h
  exact ⟨p, List.mem_append_left _ hmem, hp⟩

theorem panicked_now (ls : List Label) {l : Label} (h : l.isPanic = true) : Panicked (ls ++ [l]) :=
  ⟨l, List.mem_append_right _ (List.mem_singleton.mpr rfl), h⟩

/-- The flag is up for a capture that was not confirmed, or for a panic. -/
structure Doubted (ls : List Label) (s : Server) : Prop where
  flag : s.unreclaimed = true → Panicked ls ∨ .unconfirmed ∈ s.captures
  sender : ∀ p, s.session = some p → (p.sender matches .panicked) = true → Panicked ls
  stage : s.stage = .panicked → Panicked ls

/-- A capture in doubt stays one. -/
theorem PeerSession.Step.doubted (h : PeerSession.Step stopped p k p')
    (hholds : p.sender.Holds u p.capture) (hcapture : p.capture = .unconfirmed) :
    p'.capture = .unconfirmed := by
  have hsender : ∀ {sender}, p.sender = sender → sender.Holds u .unconfirmed := by
    rintro _ rfl
    rw [← hcapture]
    exact hholds
  cases h with
  | reads | readerPanics | skips | takesReply | takesKeyframe | yields | writes => exact hcapture
  | openUnconfirmed | closeFails => rfl
  | opens h | openRefused h | opened h | loopCancelled h | keyframeFails h | queueEnds h
  | yieldsInvalid h | publisherEnds h | publisherFails h | writeCancelled h | writeFails h
  | closes h => exact nomatch hsender h
  | senderPanics =>
    show (if _ then _ else _) = Capture.unconfirmed
    rw [if_neg (by rw [hcapture]; nofun)]

theorem Doubted.keep (h : Doubted ls s) (hflag : t.unreclaimed = s.unreclaimed)
    (hcaptures : .unconfirmed ∈ s.captures → .unconfirmed ∈ t.captures)
    (hsender : ∀ p, t.session = some p → (p.sender matches .panicked) = true →
      ∃ q, s.session = some q ∧ (q.sender matches .panicked) = true)
    (hstage : t.stage = .panicked → s.stage = .panicked) : Doubted (ls ++ [l]) t where
  flag hup := (h.flag (hflag ▸ hup)).imp (·.more l) hcaptures
  sender p hp hpanicked := by
    obtain ⟨q, hq, hold⟩ := hsender p hp hpanicked
    exact (h.sender q hq hold).more l
  stage hpanicked := (h.stage (hstage hpanicked)).more l

theorem Doubted.pass (h : Doubted ls s) (hflag : t.unreclaimed = s.unreclaimed)
    (hsession : t.session = s.session) (hpast : t.past = s.past)
    (hstage : t.stage = .panicked → s.stage = .panicked) : Doubted (ls ++ [l]) t := by
  refine h.keep hflag (fun hmem => ?_) (fun p hp hpanicked => ⟨p, hsession ▸ hp, hpanicked⟩) hstage
  rwa [Server.captures, hsession, hpast]

/-- **Every step keeps the account of the doubts.** -/
theorem Doubted.step (h : Doubted ls s) (hkept : Kept s)
    (hstep : Server.Step box proto sha256 options selection s l t) : Doubted (ls ++ [l]) t := by
  cases hstep with
  | foreign | accepts | authenticates | clears | hears | abandons | noCodec | leaves | updates
  | closeTakes | closeJoins | closeDropped | closeReturns => exact h.pass rfl rfl rfl id
  | probes | probeFails | binds | bindFails | acceptFails | closes | givesUp | finishes =>
    exact h.pass rfl rfl rfl nofun
  | begins _ _ _ hsession =>
    -- the new session has opened nothing, and its task runs
    refine h.keep rfl (fun hmem => ?_) (fun p hp hpanicked => ?_) id
    · refine List.mem_append_left _ ?_
      rw [Server.captures, hsession] at hmem
      exact (List.append_nil s.past).subst hmem
    · cases hp
      cases hpanicked
  | @peer p p' k hsession hstep =>
    -- only the capture and the tasks of the session may change
    have hcaptures : s.captures = s.past ++ [p.capture] := by
      rw [Server.captures, hsession]
      rfl
    have hcaptures' : (s.peerStep p p' k).captures = s.past ++ [p'.capture] := by
      rw [Server.captures, peerStep_session, peerStep_past]
      rfl
    have hstay : .unconfirmed ∈ s.captures → .unconfirmed ∈ (s.peerStep p p' k).captures := by
      rw [hcaptures, hcaptures', List.mem_append, List.mem_append, List.mem_singleton,
        List.mem_singleton]
      exact Or.imp id fun hlast =>
        (hstep.doubted (hkept.session p hsession).2 hlast.symm).symm
    refine ⟨fun hup => ?_, fun q hq hpanicked => ?_, fun hstage => ?_⟩
    · rw [peerStep_unreclaimed, Bool.or_eq_true] at hup
      rcases hup with hold | hnew
      · exact (h.flag hold).imp (·.more _) hstay
      · right
        rw [hcaptures']
        -- the flag goes up only where a call leaves its capture in doubt
        cases hstep with
        | openUnconfirmed | closeFails =>
          exact List.mem_append_right _ (List.mem_singleton.mpr rfl)
        | _ => cases hnew
    · obtain rfl : p' = q := Option.some.inj (peerStep_session.symm.trans hq)
      by_cases hold : (p.sender matches .panicked) = true
      · exact (h.sender p hsession hold).more _
      · cases hstep with
        | senderPanics => exact panicked_now ls rfl
        | reads | readerPanics | takesKeyframe => exact absurd hpanicked hold
        | _ => cases hpanicked
    · rw [peerStep_stage] at hstage
      exact (h.stage hstage).more _
  | cancelsPeer _ hsession =>
    refine h.keep rfl (fun hmem => ?_) (fun q hq hpanicked => ?_) id
    · rw [Server.captures, hsession] at hmem
      exact hmem
    · cases hq
      exact ⟨_, hsession, hpanicked⟩
  | @peerReturns _ p _ _ hsession =>
    -- its capture joins the past; the flag goes up for a task that panicked
    refine ⟨fun hup => ?_, fun q hq => (nomatch (show none = some q from hq)),
      fun hstage => (h.stage hstage).more _⟩
    rcases Bool.or_eq_true_iff.mp hup with hold | hnew
    · refine (h.flag hold).imp (·.more _) fun hmem => ?_
      rw [Server.captures, hsession] at hmem
      exact List.mem_append_left _ hmem
    · exact .inl ((h.sender p hsession hnew).more _)
  | panics =>
    exact ⟨fun _ => .inl (panicked_now ls rfl), fun _ _ _ => panicked_now ls rfl,
      fun _ => panicked_now ls rfl⟩
  | closeJoinsPanicked _ hstage =>
    have hpanicked := h.stage hstage
    exact ⟨fun _ => .inl (hpanicked.more _), fun _ _ _ => hpanicked.more _,
      fun _ => hpanicked.more _⟩

theorem ServerRun.doubted (h : ServerRun box proto sha256 options selection nextRequest ls s) :
    Doubted ls s :=
  (Run.history (P := fun ls s => Kept s ∧ Doubted ls s)
    (fun _ _ _ _ hP hstep => ⟨hP.1.step hstep, hP.2.step hP.1 hstep⟩) h
    ⟨kept_start options nextRequest, nofun,
      fun _ hp => (nomatch (show none = some _ from hp)), nofun⟩).2

/-! ### What `close` says -/

/-- A host that is closed stays so, and opens nothing. -/
theorem closed_step (hserved : Served options s) (hending : Ending s)
    (hclosed : s.snapshot.closed = true)
    (hstep : Server.Step box proto sha256 options selection s l t) :
    t.snapshot.closed = true ∧ l ≠ .peer .opens := by
  obtain ⟨hover, hdue, -⟩ := hending.closed hclosed
  have hnone := hserved.none (hending.stopped (by rw [hover]; rfl))
  cases hstep with
  | foreign | closeTakes | closeJoins | closeJoinsPanicked | closeDropped | closeReturns =>
    exact ⟨hclosed, nofun⟩
  | peer hsession => exact nomatch hnone.symm.trans hsession
  | updates hrest => exact nomatch hdue.symm.trans hrest
  | panics hrunning => exact absurd hdue (hrunning hover)
  | probes hstage | probeFails hstage | binds hstage | bindFails hstage | accepts _ hstage
  | acceptFails hstage | closes hstage | authenticates hstage | clears hstage | hears hstage
  | abandons hstage | noCodec hstage | begins hstage | cancelsPeer hstage | peerReturns hstage
  | leaves hstage | givesUp hstage | finishes hstage => exact nomatch hover.symm.trans hstage

/-- **`close` tells the truth about the screen.**  After a success of `close` no capture is
left, and none is opened any more.  Where the task has come to its end and nothing has
panicked, an error means that a capture was not confirmed to be reclaimed. -/
theorem close_truthful {result : Except HostError Unit}
    (h : ServerRun box proto sha256 options selection nextRequest ls s)
    (hreturns : Server.Step box proto sha256 options selection s (.closeReturns result) t) :
    (result = .ok () → ∀ later u,
        Run (Server.Step box proto sha256 options selection) t later u →
        (∀ c ∈ u.captures, c.isGone = true) ∧ .peer .opens ∉ later) ∧
      (s.stage = .finished → s.due = [] → ¬ Panicked ls → result ≠ .ok () →
        .unconfirmed ∈ s.captures) := by
  cases hreturns with
  | closeReturns =>
    constructor
    · intro hok later u hlater
      have hclosed : s.snapshot.closed = true := by
        unfold Server.closeResult at hok
        split at hok
        · cases hok
        · next hno =>
          rw [Bool.or_eq_true, not_or] at hno
          simpa using hno.2
      -- the host stays closed, and so without a session
      have hlast := Run.history
        (P := fun later u => ServerRun box proto sha256 options selection nextRequest (ls ++ later) u
          ∧ u.snapshot.closed = true ∧ .peer .opens ∉ later)
        (fun later u l v hP hstep => by
          obtain ⟨hrun, hc, hnone⟩ := hP
          have hnext := closed_step hrun.served hrun.ending hc hstep
          refine ⟨by rw [← List.append_assoc]; exact hrun.snoc hstep, hnext.1, ?_⟩
          rw [List.mem_append, List.mem_singleton, not_or]
          exact ⟨hnone, hnext.2.symm⟩)
        hlater ⟨by rw [List.append_nil]; exact h, hclosed, List.not_mem_nil⟩
      obtain ⟨hrun, hc, hnone⟩ := hlast
      obtain ⟨hover, -, hdown⟩ := hrun.ending.closed hc
      have hsession := hrun.served.none (hrun.ending.stopped (by rw [hover]; rfl))
      have hgone : u.AllGone := hrun.kept.past.resolve_right fun hdoubt =>
        nomatch hdown.symm.trans hdoubt.1
      refine ⟨?_, hnone⟩
      rw [Server.captures, hsession]
      intro c hc
      exact hgone c ((List.append_nil u.past).subst hc)
    · intro hover hdue hcalm herror
      have hclosed := h.ending.ended hover hdue
      have hflag : s.unreclaimed = true := by
        rw [← Bool.not_eq_false]
        intro hdown
        apply herror
        unfold Server.closeResult
        rw [hclosed, hdown]
        rfl
      exact (h.doubted.flag hflag).resolve_left hcalm

theorem close_truthful_reclaimed :
    (∃ s, ServerRun .padding deskRecords id deskStart .auto 0 closedRun s ∧
      s.past = [.reclaimed] ∧
      Server.Step .padding deskRecords id deskStart .auto s (.closeReturns (.ok ())) s ∧
      ∀ later u, Run (Server.Step .padding deskRecords id deskStart .auto) s later u →
        (∀ c ∈ u.captures, c.isGone = true) ∧ .peer .opens ∉ later) ∧
    ∃ s, ServerRun .padding deskRecords id deskStart .auto 0 doubtedRun s ∧
      Server.Step .padding deskRecords id deskStart .auto s
        (.closeReturns (.error .reclamationUnconfirmed)) s ∧ .unconfirmed ∈ s.captures := by
  constructor
  · obtain ⟨_, _, _, hgone⟩ := gone_served
    obtain ⟨s, hclose, hpast, hreturns⟩ := close_run
    have h : ServerRun .padding deskRecords id deskStart .auto 0 closedRun s := hgone.append hclose
    exact ⟨s, h, hpast, hreturns, (close_truthful h hreturns).1 rfl⟩
  · obtain ⟨_, hstart⟩ := listening_start
    obtain ⟨_, _, _, _, _, _, _, hlogin, -, -, hallow⟩ := login_run Nat.two_pos
    obtain ⟨s, hdoubt, hstage, hdue, hreturns⟩ := doubt_run
    have h : ServerRun .padding deskRecords id deskStart .auto 0 doubtedRun s :=
      ((hstart.append hlogin).append hallow).append hdoubt
    have hcalm : ¬ Panicked doubtedRun := by decide
    exact ⟨s, h, hreturns, (close_truthful h hreturns).2 hstage hdue hcalm nofun⟩

end Host

end RdEngine
