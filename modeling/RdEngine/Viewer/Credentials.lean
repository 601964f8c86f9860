/-
RdEngine/Viewer/Credentials.lean

What a viewer of an unverified peer sends of its user's secrets, and when.

Nothing goes out before the user has let the connection go on, nor after a
refusal, in any run (`decisions_met`).  A command that comes too early waits in
the queue, though, and the loop does not look at when it came: a password may be
sent that nobody had asked for when it was submitted (`credentials_lawful`).
-/
import RdEngine.Viewer.Authenticate

namespace RdEngine

namespace Viewer

open Lts

/-! ### Labels -/

/-- A login request or a second factor. -/
def isCredential (message : Message) : Bool :=
  match message.union with
  | some (.loginRequest _) | some (.auth2fa _) => true
  | _ => false

def wrote : WireRecord → Bool
  | .sent _ => true
  | .received _ => false

def wroteCredential : WireRecord → Bool
  | .sent message => isCredential message
  | .received _ => false

/-- The command carries a password or a code. -/
def AuthCommand.isSecret : AuthCommand → Bool
  | .password _ | .secondFactor _ => true
  | .continueInsecure _ => false

namespace Attempt

def Label.taken : Label → Option Queued
  | .takes queued _ _ => some queued
  | .calls _ _ | .hears _ | .stops => none

def Label.isTurn : Label → Bool
  | .takes _ _ _ | .hears _ => true
  | .calls _ _ | .stops => false

/-- The turn ends the attempt. -/
def Label.ends : Label → Bool
  | .takes _ _ ended => ended
  | .calls _ _ | .hears _ | .stops => false

def Label.writes (l : Label) : Bool := l.records.any wrote

def Label.credential (l : Label) : Bool := l.records.any wroteCredential

/-- The decision about the peer that is taken off the queue. -/
def Label.decision (l : Label) : Option Bool :=
  match l.taken with
  | some ⟨.continueInsecure allow, _⟩ => some allow
  | _ => none

/-- A secret is taken that was not awaited when it was submitted. -/
def Label.isStale (l : Label) : Bool := l.taken.any fun q => q.command.isSecret && !q.awaited

/-! ### The law -/

/-- The first decision rules: nothing is written without it, and a refusal ends
the attempt, so that nothing is done after it. -/
def decisions : Monitor Label (Option Bool) where
  start := none
  after first l := first <|> l.decision
  allows first l :=
    (l.writes = true → first = some true) ∧ (first = some false → l.isTurn = false)
      ∧ (first = none → l.decision = some false → l.ends = true)

/-- What was taken from the queue so far. -/
structure Taken where
  confirmed : Bool := false
  refused : Bool := false

/-- No secret is sent unless `continue_insecure(true)` was taken, a
`continue_insecure(false)` ends the attempt, and no stale secret is sent. -/
def law : Monitor Label Taken where
  start := {}
  after taken l :=
    ⟨taken.confirmed || l.decision == some true, taken.refused || l.decision == some false⟩
  allows taken l :=
    (l.credential = true → taken.confirmed = true) ∧ (l.writes = true → taken.refused = false)
      ∧ (l.decision = some false → l.writes = false ∧ l.ends = true)
      ∧ (l.isStale = true → l.credential = false)

/-- The loop takes no refusal, and no stale secret of the kind it awaits. -/
def Heeds (a : Attempt) (l : Label) : Prop :=
  ∀ q, l.taken = some q →
    (q.command = .continueInsecure false → a.stage = .confirming) ∧
      (q.command.isSecret = true → q.awaited = false → a.awaits q.command = false)

/-! ### Turns -/

variable {env : Fixtures}

theorem afterSend_stage (a : Attempt) (turn : ViewerTurn Unit) {stage : Stage} (phase : Phase)
    (hstage : stage ≠ .confirming) : (a.afterSend turn stage phase).attempt.stage ≠ .confirming := by
  unfold afterSend
  dsimp only
  split
  · exact Stage.noConfusion
  · exact Stage.noConfusion
  · exact hstage

/-- A command that is not awaited is dropped. -/
theorem onCommand_dropped {a : Attempt} {request : Option LoginRequest} {awaiting : Awaiting}
    {command : AuthCommand} {sending : Sending} (hstage : a.stage = .looping request awaiting)
    (h : a.awaits command = false) :
    a.onCommand env request awaiting command sending = ⟨a, []⟩ := by
  unfold awaits at h
  rw [hstage] at h
  cases command <;> cases awaiting <;> first | rfl | cases h

theorem onCommand_stage {a : Attempt} {request : Option LoginRequest} {awaiting : Awaiting}
    {command : AuthCommand} {sending : Sending} (hstage : a.stage = .looping request awaiting) :
    (a.onCommand env request awaiting command sending).attempt.stage ≠ .confirming := by
  have hsame : a.stage ≠ .confirming := by
    rw [hstage]
    exact Stage.noConfusion
  cases hawaits : a.awaits command with
  | false =>
    rw [onCommand_dropped hstage hawaits]
    exact hsame
  | true =>
    unfold onCommand
    split
    · split
      · exact Stage.noConfusion
      · exact afterSend_stage _ _ _ Stage.noConfusion
    · split
      · exact Stage.noConfusion
      · exact afterSend_stage _ _ _ Stage.noConfusion
    · exact hsame

theorem onEvent_stage {a : Attempt} {request : Option LoginRequest} {awaiting : Awaiting}
    {event : ViewerEvent} {sessionId : Nat} {sending : Sending}
    (hstage : a.stage = .looping request awaiting) :
    (a.onEvent env request awaiting event sessionId sending).attempt.stage ≠ .confirming := by
  have hsame : a.stage ≠ .confirming := by
    rw [hstage]
    exact Stage.noConfusion
  cases event with
  | challenge => exact afterSend_stage _ _ _ Stage.noConfusion
  | authorized =>
    unfold onEvent
    dsimp only
    split <;> exact Stage.noConfusion
  | loginError =>
    unfold onEvent
    dsimp only
    split_ifs <;> exact Stage.noConfusion
  | progress | preAuthControl => exact hsame
  | closed | permissionChanged | payload => exact Stage.noConfusion

theorem onNetwork_stage {a : Attempt} {request : Option LoginRequest} {awaiting : Awaiting}
    {arrives : Arrives} (hstage : a.stage = .looping request awaiting) :
    (a.onNetwork env request awaiting arrives).attempt.stage ≠ .confirming := by
  unfold onNetwork
  dsimp only
  split
  · exact Stage.noConfusion
  · exact Stage.noConfusion
  · exact onEvent_stage hstage

/-! ### Decisions -/

/-- Only the confirmation is undecided; the loop was let through. -/
structure Decided (first : Option Bool) (a : Attempt) : Prop where
  confirming : a.stage = .confirming → first = none
  looping : ∀ request awaiting, a.stage = .looping request awaiting → first = some true

theorem decided_ended {first : Option Bool} {a : Attempt} (h : a.isEnded = true) :
    Decided first a := by
  refine ⟨fun hstage => ?_, fun _ _ hstage => ?_⟩
  all_goals
    rw [isEnded, hstage] at h
    cases h

theorem decided_through {a : Attempt} (h : a.stage ≠ .confirming) : Decided (some true) a :=
  ⟨fun hstage => absurd hstage h, fun _ _ _ => rfl⟩

theorem trySend_stage (a : Attempt) (command : AuthCommand) :
    (a.trySend command).1.stage = a.stage := by
  unfold trySend
  split
  · rfl
  · split <;> rfl

theorem call_stage (a : Attempt) (call : UserCall) : (a.call call).1.stage = a.stage := by
  unfold Attempt.call
  split
  · rfl
  · exact trySend_stage a _

theorem decided_step {first : Option Bool} {a a' : Attempt} {l : Label} (hs : Decided first a)
    (h : Step env a l a') :
    decisions.allows first l ∧ Decided (decisions.after first l) a' := by
  cases h with
  | call call =>
    refine ⟨⟨fun h => absurd h Bool.false_ne_true, fun _ => rfl, fun _ h => absurd h (by
      simp [Label.decision, Label.taken])⟩, ?_⟩
    have hsame := call_stage a call
    have hafter : decisions.after first (.calls call (a.call call).2) = first := by
      cases first <;> rfl
    rw [hafter]
    exact ⟨fun h => hs.confirming (hsame ▸ h), fun r w h => hs.looping r w (hsame ▸ h)⟩
  | @confirm queued rest hstage hqueue =>
    -- the first decision; a secret decides nothing
    have hfirst := hs.confirming hstage
    subst hfirst
    obtain ⟨command, awaited⟩ := queued
    refine ⟨⟨fun h => absurd h Bool.false_ne_true, fun h => absurd h (by decide), fun _ h => ?_⟩, ?_⟩
    · match command with
      | .continueInsecure true => simp [Label.decision, Label.taken] at h
      | .continueInsecure false => rfl
      | .password _ | .secondFactor _ => simp [Label.decision, Label.taken] at h
    · match command with
      | .continueInsecure true => exact decided_through Stage.noConfusion
      | .continueInsecure false => exact decided_ended rfl
      | .password _ | .secondFactor _ => exact ⟨fun _ => rfl, fun r w h => hs.looping r w h⟩
  | @command request awaiting queued rest turn sending hstage hawaiting hqueue hturn =>
    -- confirmed before, so nothing is decided any more
    have hfirst := hs.looping _ _ hstage
    subst hfirst
    refine ⟨⟨fun _ => rfl, fun h => absurd h (by decide), fun h => absurd h (by decide)⟩,
      decided_through ?_⟩
    rw [hturn]
    exact onCommand_stage hstage
  | @network request awaiting turn arrives hstage hturn =>
    have hfirst := hs.looping _ _ hstage
    subst hfirst
    refine ⟨⟨fun _ => rfl, fun h => absurd h (by decide), fun h => absurd h (by decide)⟩,
      decided_through ?_⟩
    rw [hturn]
    exact onNetwork_stage hstage
  | cancel =>
    exact ⟨⟨fun h => absurd h Bool.false_ne_true, fun _ => rfl, fun _ h => absurd h (by
      simp [Label.decision, Label.taken])⟩, decided_ended rfl⟩
  | hangUp =>
    exact ⟨⟨fun h => absurd h Bool.false_ne_true, fun _ => rfl, fun _ h => absurd h (by
      simp [Label.decision, Label.taken])⟩, decided_ended rfl⟩

theorem decided_start (wire : Established) (hconfirm : env.setup.confirmInsecure = true) :
    Decided none (start env wire) := by
  have hstage : (start env wire).stage = .confirming := if_pos hconfirm
  refine ⟨fun _ => rfl, fun _ _ h => ?_⟩
  rw [hstage] at h
  cases h

/-! ### The law, where every turn heeds -/

/-- What was taken, by where the attempt is. -/
structure Entitled (taken : Taken) (a : Attempt) : Prop where
  confirming : a.stage = .confirming → taken = {}
  looping : ∀ request awaiting, a.stage = .looping request awaiting →
    taken = { confirmed := true, refused := false }

theorem entitled_ended {taken : Taken} {a : Attempt} (h : a.isEnded = true) :
    Entitled taken a := by
  refine ⟨fun hstage => ?_, fun _ _ hstage => ?_⟩
  all_goals
    rw [isEnded, hstage] at h
    cases h

theorem entitled_through {a : Attempt} (h : a.stage ≠ .confirming) :
    Entitled { confirmed := true, refused := false } a :=
  ⟨fun hstage => absurd hstage h, fun _ _ _ => rfl⟩

/-- A label without a command and without records. -/
theorem law_idle {taken : Taken} {l : Label} (hrecords : l.records = []) (htaken : l.taken = none) :
    law.allows taken l ∧ law.after taken l = taken := by
  have hwrites : l.writes = false := by rw [Label.writes, hrecords, List.any_nil]
  have hcredential : l.credential = false := by rw [Label.credential, hrecords, List.any_nil]
  have hdecision : l.decision = none := by rw [Label.decision, htaken]
  have hstale : l.isStale = false := by rw [Label.isStale, htaken]; rfl
  refine ⟨?_, ?_⟩
  · simp [law, hwrites, hcredential, hdecision, hstale]
  · simp [law, hdecision]

theorem decision_ne {queued : Queued} {records : List WireRecord} {ended : Bool}
    (h : queued.command ≠ .continueInsecure false) :
    Label.decision (.takes queued records ended) ≠ some false := by
  obtain ⟨command, awaited⟩ := queued
  match command with
  | .continueInsecure true => simp [Label.decision, Label.taken]
  | .continueInsecure false => exact absurd rfl h
  | .password _ | .secondFactor _ => simp [Label.decision, Label.taken]

theorem entitled_step {taken : Taken} {a a' : Attempt} {l : Label} (hs : Entitled taken a)
    (h : Where (Step env) Heeds a l a') :
    law.allows taken l ∧ Entitled (law.after taken l) a' := by
  obtain ⟨hheeds, h⟩ := h
  cases h with
  | call call =>
    -- a call moves no stage and takes nothing
    obtain ⟨hallows, hafter⟩ := @law_idle taken (.calls call (a.call call).2) rfl rfl
    refine ⟨hallows, ?_⟩
    have hsame := call_stage a call
    rw [hafter]
    exact ⟨fun h => hs.confirming (hsame ▸ h), fun r w h => hs.looping r w (hsame ▸ h)⟩
  | @confirm queued rest hstage hqueue =>
    -- the first decision; everything else is dropped until it comes
    have htaken := hs.confirming hstage
    subst htaken
    obtain ⟨command, awaited⟩ := queued
    match command with
    | .continueInsecure true =>
      refine ⟨⟨fun h => absurd h Bool.false_ne_true, fun _ => rfl, fun h => absurd h (by simp
        [Label.decision, Label.taken]), fun _ => rfl⟩, entitled_through Stage.noConfusion⟩
    | .continueInsecure false =>
      exact ⟨⟨fun h => absurd h Bool.false_ne_true, fun _ => rfl, fun _ => ⟨rfl, rfl⟩,
        fun _ => rfl⟩, entitled_ended rfl⟩
    | .password _ | .secondFactor _ =>
      exact ⟨⟨fun h => absurd h Bool.false_ne_true, fun _ => rfl, fun _ => ⟨rfl, by simp_all
        [Label.decision, Label.taken]⟩, fun _ => rfl⟩, ⟨fun _ => rfl, fun r w h => hs.looping r w h⟩⟩
  | @command request awaiting queued rest turn sending hstage hawaiting hqueue hturn =>
    -- confirmed before; `Heeds` says that no refusal comes and no stale secret is sent
    have htaken := hs.looping _ _ hstage
    subst htaken
    obtain ⟨hrefusal, hstale⟩ := hheeds queued rfl
    have hnot : queued.command ≠ .continueInsecure false := by
      intro hcommand
      have := hstage.symm.trans (hrefusal hcommand)
      cases this
    have hdecision : Label.decision (.takes queued turn.records turn.attempt.isEnded)
        ≠ some false := decision_ne hnot
    refine ⟨⟨fun _ => rfl, fun _ => rfl, fun h => absurd h hdecision, fun h => ?_⟩, ?_⟩
    · obtain ⟨hsecret, hawaited⟩ : queued.command.isSecret = true ∧ queued.awaited = false := by
        simpa [Label.isStale, Label.taken] using h
      have hdropped := @onCommand_dropped env { a with queue := rest } request awaiting
        queued.command sending hstage (hstale hsecret hawaited)
      rw [hturn, hdropped]
      rfl
    · have hafter : law.after { confirmed := true, refused := false }
          (.takes queued turn.records turn.attempt.isEnded)
            = { confirmed := true, refused := false } := by
        simp [law, hdecision]
      rw [hafter]
      refine entitled_through ?_
      rw [hturn]
      exact onCommand_stage hstage
  | @network request awaiting turn arrives hstage hturn =>
    -- the network takes nothing of the user
    have htaken := hs.looping _ _ hstage
    subst htaken
    refine ⟨⟨fun _ => rfl, fun _ => rfl, fun h => absurd h (by simp [Label.decision, Label.taken]),
      fun h => absurd h Bool.false_ne_true⟩, ?_⟩
    refine entitled_through ?_
    rw [hturn]
    exact onNetwork_stage hstage
  | cancel =>
    obtain ⟨hallows, -⟩ := @law_idle taken .stops rfl rfl
    exact ⟨hallows, entitled_ended rfl⟩
  | hangUp =>
    obtain ⟨hallows, -⟩ := @law_idle taken .stops rfl rfl
    exact ⟨hallows, entitled_ended rfl⟩

/-- A turn that does not heed, and then takes a refusal or sends a credential,
breaks the law. -/
theorem heedless_step {taken : Taken} {a a' : Attempt} {l : Label} (h : Step env a l a')
    (hheedless : ¬ Heeds a l) (hdone : l.decision = some false ∨ l.credential = true) :
    ¬ law.allows taken l := by
  rintro ⟨-, -, hends, hsends⟩
  cases h with
  | call | network | cancel | hangUp =>
    refine hheedless fun q hq => ?_
    cases hq
  | @confirm queued rest hstage hqueue =>
    refine hheedless fun q hq => ⟨fun _ => hstage, fun hsecret _ => ?_⟩
    cases hq
    unfold awaits
    rw [hstage]
    obtain ⟨command, awaited⟩ := queued
    cases command with
    | continueInsecure => cases hsecret
    | _ => rfl
  | @command request awaiting queued rest turn sending hstage hawaiting hqueue hturn =>
    by_cases hcommand : queued.command = .continueInsecure false
    · -- a refusal in the loop is dropped
      have hdropped := @onCommand_dropped env { a with queue := rest } request awaiting
        queued.command sending hstage (by simp [awaits, hstage, hcommand])
      have hdecision : Label.decision (.takes queued turn.records turn.attempt.isEnded)
          = some false := by
        obtain ⟨command, awaited⟩ := queued
        obtain rfl : command = .continueInsecure false := hcommand
        rfl
      have hended := (hends hdecision).2
      rw [hturn, hdropped] at hended
      have : a.isEnded = true := hended
      rw [isEnded, hstage] at this
      cases this
    · -- otherwise a stale secret is sent
      rcases hdone with hdone | hdone
      · exact decision_ne hcommand hdone
      · refine hheedless fun q hq => ?_
        cases hq
        refine ⟨fun h => absurd h hcommand, fun hsecret hawaited => ?_⟩
        have hstale : Label.isStale (.takes queued turn.records turn.attempt.isEnded) = true := by
          simp [Label.isStale, Label.taken, hsecret, hawaited]
        rw [hsends hstale] at hdone
        cases hdone

/-- **A viewer of an unverified peer sends nothing before its user lets the
connection go on, and does nothing after a refusal.**  It also keeps the whole law
in the runs whose turns all heed; a turn that does not, and takes a refusal or sends
a credential, breaks it. -/
theorem credentials_lawful {wire : Established} {a : Attempt} {ls : List Label}
    (hconfirm : env.setup.confirmInsecure = true) (hrun : Run (Step env) (start env wire) ls a) :
    decisions.Met ls
      ∧ (Run (Where (Step env) Heeds) (start env wire) ls a → law.Met ls)
      ∧ ∀ l a', Step env a l a' → ¬ Heeds a l → l.decision = some false ∨ l.credential = true →
        ¬ law.Met (ls ++ [l]) := by
  refine ⟨?_, fun hheeds => ?_, fun l a' hstep hheedless hdone hmet => ?_⟩
  · exact (decisions.met_run (fun _ _ _ _ hs h => decided_step hs h) hrun
      (decided_start wire hconfirm)).1
  · refine (law.met_run (fun _ _ _ _ hs h => entitled_step hs h) hheeds ?_).1
    have hstage : (start env wire).stage = .confirming := if_pos hconfirm
    refine ⟨fun _ => rfl, fun _ _ h => ?_⟩
    rw [hstage] at h
    cases h
  · exact heedless_step hstep hheedless hdone (law.met_snoc.mp hmet).2

/-! ### Two runs -/

/-- A direct connection to a peer that states no identity. -/
def plainPeer : Established where
  wire := .fromStream
  security := .legacyPlain false
  prefetched := none

def plainSetup : Setup where
  username := "desk"
  localId := "viewer"
  localName := ""
  password := []
  requestedFps := 60
  imageQuality := .balanced
  clipboardEnabled := false
  confirmInsecure := true
  compress := id
  decompressWithLimit bytes _ := some bytes

def plainDecoders : Decoders := ⟨true, false⟩

def challenge : Message := .of (.hash { challenge := "c0ffee" })

def wrongPassword : Message := .of (.loginResponse { union := some (.error "Wrong Password") })

/-- The login request, with this response in it. -/
def request (response : Bytes) : Message :=
  .of (.loginRequest { loginRequest plainSetup plainDecoders 1 with password := response })

/-- The response to the password `a`, where the digest is the identity. -/
def answerA : Bytes := utf8 "ac0ffee"

def plainEnv : Fixtures where
  box := .padding
  proto := .table [(challenge, [0]), (wrongPassword, [1]), (request [], [2]), (request answerA, [3])]
  sha256 := id
  setup := plainSetup
  decoders := plainDecoders

/-- A record of the peer, in a connection that works. -/
def frame (bytes : Bytes) : Arrives := { incoming := .frame bytes, sessionId := 1 }

/-- A turn that takes no command heeds all. -/
theorem heeds_of_none {a : Attempt} {l : Label} (h : l.taken = none) : Heeds a l := by
  intro q hq
  rw [h] at hq
  cases hq

/-- So does one that takes a command that was awaited, and no refusal. -/
theorem heeds_of_awaited {a : Attempt} {l : Label} {q : Queued} (h : l.taken = some q)
    (hawaited : q.awaited = true) (hcommand : q.command ≠ .continueInsecure false) :
    Heeds a l := by
  intro q' hq
  rw [h] at hq
  cases hq
  refine ⟨fun hrefusal => absurd hrefusal hcommand, fun _ hstale => ?_⟩
  rw [hawaited] at hstale
  cases hstale

/-- A user who lets the connection go on, and submits a password when asked. -/
theorem credentials_lawful_asked :
    ∃ a ls, Run (Step plainEnv) (start plainEnv plainPeer) ls a ∧ law.Met ls
      ∧ ∃ l ∈ ls, l.isStale = false ∧ l.taken.isSome = true ∧ l.credential = true := by
  have hcalled := Run.single (show Where (Step plainEnv) Heeds (start plainEnv plainPeer)
    (.calls (.continueInsecure true) _) _ from ⟨heeds_of_none rfl, .call _⟩)
  have hconfirmed := hcalled.snoc (show Where (Step plainEnv) Heeds _
    (.takes ⟨.continueInsecure true, true⟩ _ _) _ from
      ⟨heeds_of_awaited rfl rfl (by decide), .confirm rfl rfl⟩)
  have hasked := (hconfirmed.snoc (show Where (Step plainEnv) Heeds _ (.hears _) _ from
    ⟨heeds_of_none rfl, .network (frame [0]) rfl rfl⟩)).snoc
      (show Where (Step plainEnv) Heeds _ (.hears _) _ from
        ⟨heeds_of_none rfl, .network (frame [1]) rfl rfl⟩)
  have hsubmitted := hasked.snoc (show Where (Step plainEnv) Heeds _
    (.calls (.submitPassword "a") _) _ from ⟨heeds_of_none rfl, .call _⟩)
  have hrun := hsubmitted.snoc (show Where (Step plainEnv) Heeds _
    (.takes ⟨.password (utf8 "a"), true⟩ _ _) _ from
      ⟨heeds_of_awaited rfl rfl (by decide), .command {} rfl (by decide) rfl rfl⟩)
  have hplain := hrun.mono fun _ _ _ h => h.2
  refine ⟨_, _, hplain, (credentials_lawful rfl hplain).2.1 hrun, _,
    List.mem_append_right _ (List.mem_singleton_self _), rfl, rfl, rfl⟩

/-- A password is submitted while the first login is on its way: it is sent as
soon as another one is asked for. -/
theorem stale_sent :
    ∃ a ls, Run (Step plainEnv) (start plainEnv plainPeer) ls a ∧ ¬ law.Met ls := by
  have hconfirmed := (Run.single (@Step.call plainEnv (start plainEnv plainPeer)
    (.continueInsecure true))).snoc (.confirm rfl rfl)
  have hsubmitted := hconfirmed.snoc (.call (.submitPassword "a"))
  have hasked := (hsubmitted.snoc (.network (frame [0]) rfl rfl)).snoc
    (.network (frame [1]) rfl rfl)
  have hrun := hasked.snoc (.command {} rfl (by decide) rfl rfl)
  refine ⟨_, _, hrun, fun hmet => ?_⟩
  have hlast := (law.met_snoc.mp hmet).2.2.2.2 rfl
  cases hlast

end Attempt

end Viewer

end RdEngine
