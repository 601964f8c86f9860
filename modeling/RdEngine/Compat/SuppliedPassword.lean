/-
RdEngine/Compat/SuppliedPassword.lean

The password that `session_add` is given: the first authentication that
`session_start` leads to, and the prompts that say a password is wrong.

A start moves the password out of the session.  A VNC server is answered with it;
the options of a RustDesk viewer carry an empty one instead, and nothing hands it
on later.  The prompt goes by what was supplied and submitted, not by what was
sent, so after a supplied password it says that it is wrong although none was sent
(`supplied_password`).
-/
import RdEngine.Compat.PasswordPrompts
import RdEngine.Compat.StartFailures
import RdEngine.Viewer.FirstLogin
import RdEngine.Vnc.FirstResponse

namespace RdEngine

namespace Compat

open Lts Dialogue
open Viewer (Fixtures Attempt)

/-! ### Up to the start -/

/-- A call that neither starts nor closes the session. -/
def Call.Spares (id : String) : Call → Prop
  | .begins other _ | .closes other => other ≠ id
  | .adds _ _ _ _ | .setsViewOnly _ _ | .finishes _ _ | .shows _ _ => True

/-- The session of this id, and the password it still has. -/
def Stores (registry : Registry) (id password : String) : Prop :=
  ∃ session, registry.get id = some session ∧ session.password = password

theorem get_cons_ne {registry : Registry} {id : String} {session : CompatSession}
    (h : session.id ≠ id) : Registry.get (session :: registry) id = registry.get id :=
  List.find?_cons_of_neg fun hid => h (eq_of_beq hid)

theorem get_cons_eq (registry : Registry) (session : CompatSession) :
    Registry.get (session :: registry) session.id = some session :=
  List.find?_cons_of_pos (beq_self_eq_true _)

theorem get_modify_ne {registry : Registry} {id other : String}
    {f : CompatSession → CompatSession} (h : other ≠ id) (hf : ∀ session, (f session).id = session.id) :
    (registry.modify other f).get id = registry.get id := by
  induction registry with
  | nil => rfl
  | cons first rest ih =>
    have hrest : ∀ session : CompatSession, session.id = first.id →
        first.id ≠ id ∨ session = first →
        Registry.get (session :: Registry.modify rest other f) id
          = Registry.get (first :: rest) id := by
      intro session hsame hchanged
      by_cases hid : first.id = id
      · rcases hchanged with hne | rfl
        · exact absurd hid hne
        · rw [← hid, get_cons_eq, get_cons_eq]
      · rw [get_cons_ne hid, get_cons_ne (hsame ▸ hid), ih]
    rw [Registry.modify, List.map_cons]
    split
    · next hid => exact hrest _ (hf first) (.inl fun hsame => h ((eq_of_beq hid).symm.trans hsame))
    · exact hrest _ rfl (.inr rfl)

theorem get_remove_ne {registry : Registry} {id other : String} (h : other ≠ id) :
    (registry.remove other).get id = registry.get id := by
  unfold Registry.get Registry.remove
  rw [List.find?_filter]
  refine congrArg (List.find? · registry) (funext fun session => ?_)
  by_cases hid : session.id = id
  · have hother : session.id ≠ other := fun hsame => h (hsame.symm.trans hid)
    simp [hid, h.symm]
  · simp [hid]

section Stores

variable {registry : Registry} {id password : String}

theorem Stores.modify (h : Stores registry id password) (other : String)
    {f : CompatSession → CompatSession} (hid : ∀ session, (f session).id = session.id)
    (hpassword : other ≠ id ∨ ∀ session, (f session).password = session.password) :
    Stores (registry.modify other f) id password := by
  obtain ⟨session, hget, hsame⟩ := h
  by_cases hother : other = id
  · subst hother
    refine ⟨f session, get_modify hget hid, ?_⟩
    exact (hpassword.resolve_left (absurd rfl ·) session).trans hsame
  · exact ⟨session, (get_modify_ne hother hid).trans hget, hsame⟩

theorem stores_run (h : Stores registry id password) {call : Call} (hcall : call.Spares id) :
    Stores (call.run registry).1 id password := by
  cases call with
  | adds other peerTarget options generation =>
    unfold Call.run
    dsimp only
    split
    · next added hadd =>
      -- an id is given out once, so this is another session
      obtain ⟨hnew, habsent⟩ := add_eq hadd
      obtain ⟨session, hget, hsame⟩ := h
      have hne : added.id ≠ id := by
        rw [(newSession_eq hnew).1]
        rintro rfl
        rw [habsent] at hget
        cases hget
      exact ⟨session, (get_cons_ne hne).trans hget, hsame⟩
    · exact h
  | setsViewOnly other enabled =>
    show Stores (sessionSetViewOnly other enabled registry).1 id password
    unfold sessionSetViewOnly
    split
    · exact h
    · split
      · exact h
      · exact h.modify other (fun _ => rfl) (.inr fun _ => rfl)
  | begins other localId =>
    -- only the start of this very session would take the password
    show Stores (sessionStart.begin other localId registry).1 id password
    unfold sessionStart.begin
    split
    · exact h
    · split
      · exact h
      · split
        · exact h
        · exact h.modify other (fun _ => rfl) (.inl hcall)
  | finishes opening viewer =>
    show Stores (sessionStart.finish opening viewer registry).1 id password
    unfold sessionStart.finish
    split
    · exact h
    · split
      · exact h.modify opening.id (fun _ => rfl) (.inr fun _ => rfl)
      · exact h.modify opening.id (fun _ => rfl) (.inr fun _ => rfl)
  | shows other phase =>
    refine Stores.modify h other (fun session => ?_) (.inr fun session => ?_)
    · split <;> rfl
    · split <;> rfl
  | closes other =>
    obtain ⟨session, hget, hsame⟩ := h
    exact ⟨session, (get_remove_ne hcall).trans hget, hsame⟩

theorem stores_runs {calls : List Call} (hcalls : ∀ call ∈ calls, call.Spares id)
    (h : Stores registry id password) :
    Stores (Observers.run Call.run calls registry).1 id password := by
  induction calls generalizing registry with
  | nil => exact h
  | cons call calls ih =>
    rw [List.forall_mem_cons] at hcalls
    exact ih hcalls.2 (stores_run h hcalls.1)

/-- **What a start takes over of the password**: it is carried beside the options, which
have an empty one. -/
theorem begin_password {localId : String} {registry' : Registry} {o : Opening}
    (h : Stores registry id password)
    (hbegin : sessionStart.begin id localId registry = (registry', .inr o)) :
    o.password = password ∧ o.options.password = "" := by
  obtain ⟨session, hget, hsame⟩ := h
  rcases begin_cases id localId registry with ⟨result, hends⟩ | ⟨found, hfound, -, -, htakes⟩
  · have := hbegin.symm.trans hends
    cases this
  · obtain rfl := Option.some.inj (hget.symm.trans hfound)
    have hopening := hbegin.symm.trans htakes
    obtain rfl : o = opening localId session := Sum.inr.inj (Prod.mk.inj hopening).2
    exact ⟨hsame, rfl⟩

end Stores

/-! ### The first authentication -/

/-- An engine's setup, with the options of its start. -/
def ViewerOptions.setup (options : ViewerOptions) (confirmInsecure : Bool)
    (compress : Bytes → Bytes) (decompressWithLimit : Bytes → Nat → Option Bytes) :
    Viewer.Setup where
  username := options.username
  localId := options.localId
  localName := options.localName
  password := utf8 options.password
  requestedFps := options.requestedFps
  imageQuality := options.imageQuality
  clipboardEnabled := options.clipboardEnabled
  confirmInsecure
  compress
  decompressWithLimit

/-- The password that `VncLiveSession::open` is given. -/
def Opening.vncPassword (o : Opening) : Option Bytes :=
  if o.password.isEmpty then none else some (utf8 o.password)

/-- The first authentication after a start: the response that goes out, and the one
that the password is due. -/
inductive FirstAttempt (env : Fixtures) (o : Opening) (password : Bytes) : Bytes → Bytes → Prop
  /-- the login on the first challenge, in any run of the engine -/
  | rustDesk {confirmInsecure : Bool} {compress : Bytes → Bytes}
      {decompressWithLimit : Bytes → Nat → Option Bytes} {wire : Established} {a : Attempt}
      {ls : List Attempt.Label} {hash : Hash} {request : LoginRequest}
      (hroute : (∃ address, o.route = .direct address) ∨ ∃ id, o.route = .rendezvous id)
      (hsetup : env.setup = o.options.setup confirmInsecure compress decompressWithLimit)
      (hrun : Run (Attempt.Step env) (.start env wire) ls a)
      (hfirst : Attempt.FirstExchange (Attempt.recordsOf ls) hash request) :
      FirstAttempt env o password request.password
        (passwordResponse env.sha256 (saltedPassword env.sha256 password hash.salt) hash.challenge)
  /-- the response to a server that asks for a password, wherever the connection fails -/
  | vnc {host : String} {port : UInt16} {greeting answer response more : Bytes}
      {challenge : FixedBytes 16} {rest : List (Option UInt8)}
      {result : Except Vnc.VncFault Vnc.ServerInfo}
      (hroute : o.route = .scheme .vnc host port) (hgreeting : Vnc.Greeting greeting answer)
      (hexec : Prog.Exec (Vnc.handshake o.vncPassword)
        ((greeting ++ challenge.1).map some ++ rest) (answer ++ response ++ more) result)
      (hlength : response.length = 16) :
      FirstAttempt env o password response (Vnc.Auth.answerChallenge password challenge)

theorem first_response {env : Fixtures} (hdigest : ∀ bytes, (env.sha256 bytes).length = 32)
    {o : Opening} {password : String} (hpassword : password ≠ "") (ho : o.password = password)
    (hoptions : o.options.password = "") {response due : Bytes}
    (h : FirstAttempt env o (utf8 password) response due) :
    response = due ↔ ∃ host port, o.route = .scheme .vnc host port := by
  cases h with
  | @rustDesk _ _ _ _ a ls hash request hroute hsetup hrun hfirst =>
    -- the first login of the viewer answers with no password at all
    have hsent : Viewer.logins (Attempt.recordsOf ls) ≠ [] := by
      intro hnone
      have := hfirst.logins_eq
      rw [hnone] at this
      cases this
    obtain ⟨hash', request', hfirst', hresponse⟩ := Attempt.first_login hrun hsent
    obtain rfl : request = request' :=
      Option.some.inj (hfirst.logins_eq.symm.trans hfirst'.logins_eq)
    have hempty : env.setup.password = [] := by
      rw [hsetup]
      show utf8 o.options.password = []
      rw [hoptions]
      rfl
    rw [hempty] at hresponse
    refine iff_of_false (fun hsame => ?_) ?_
    · have hlength := hdigest (saltedPassword env.sha256 (utf8 password) hash.salt
        ++ utf8 hash.challenge)
      rw [show env.sha256 _ = request.password from hsame.symm, hresponse] at hlength
      cases hlength
    · rintro ⟨host, port, hvnc⟩
      rcases hroute with ⟨address, hroute⟩ | ⟨id, hroute⟩
      · cases hvnc.symm.trans hroute
      · cases hvnc.symm.trans hroute
  -- VNC hands the supplied password to the challenge
  | @vnc host port _ _ _ _ _ _ _ hroute hgreeting hexec hlength =>
    have hsome : o.vncPassword = some (utf8 password) := by
      unfold Opening.vncPassword
      rw [ho, if_neg fun hempty => hpassword (String.isEmpty_iff.mp hempty)]
    rw [hsome] at hexec
    exact iff_of_true (Vnc.responds hgreeting hexec hlength) ⟨host, port, hroute⟩

/-! ### What the pump remembers of passwords -/

namespace PumpedSession

/-- Whether a password was supplied, and how many were submitted. -/
def counted (session : PumpedSession) : Bool × UInt64 :=
  (session.initialPasswordSupplied, session.loginAttempts)

/-- **A look changes neither.** -/
theorem counted_pollEvents (toText : List JsonObject → String) (snapshot : ViewerSnapshot)
    (peer : Option PeerReport) (limit : UInt32) (session : PumpedSession) :
    (session.pollEvents toText snapshot peer limit).1.counted = session.counted := by
  have hstages : ((stages toText snapshot peer) session).1.counted = session.counted := by
    refine keeps_then (fun s => ?_) (keeps_then (fun s => ?_)
      (keeps_then (fun s => ?_) (keeps_then (fun s => ?_)
        (keeps_then (fun s => ?_)
          (keeps_then (fun s => ?_) fun s => rfl))))) session
    · unfold prompt
      dsimp only
      split <;> rfl
    · unfold announce
      split <;> rfl
    · unfold tellDisplay
      dsimp only
      split <;> rfl
    · unfold tellPermission
      split <;> rfl
    · unfold tellCodec
      split <;> rfl
    · unfold tellClose
      split <;> rfl
  exact hstages

theorem mem_promptDue {snapshot : ViewerSnapshot} {session : PumpedSession} {event : UiEvent}
    (h : event ∈ promptDue snapshot session) :
    snapshot.phase = .awaitingPassword ∧ PasswordPrompts.reportsWrong event = session.isRetry := by
  unfold promptDue at h
  split at h
  · next hdue =>
    obtain rfl := List.mem_singleton.mp h
    refine ⟨hdue.1, ?_⟩
    cases session.isRetry <;> rfl
  · cases h

end PumpedSession

end Compat

/-! ### Prompts that say a password is wrong -/

namespace PasswordPrompts

open Compat Lts
open Viewer

variable {env : Fixtures} {toText : List JsonObject → String}

theorem presented_eq (record : WireRecord) :
    presented record = (loginOf record).map fun request => !request.password.isEmpty := by
  unfold presented loginOf
  split <;> simp_all

theorem lastPresented_eq (before : Bool) (records : List WireRecord) :
    lastPresented before records =
      (((logins records).map fun request => !request.password.isEmpty).getLast?).getD before := by
  have hsame : records.filterMap presented
      = (logins records).map fun request => !request.password.isEmpty := by
    rw [logins, List.map_filterMap]
    exact List.filterMap_congr fun record _ => presented_eq record
  rw [lastPresented, hsame]

theorem lastPresented_of_nil {before : Bool} {records : List WireRecord}
    (h : logins records = []) : lastPresented before records = before := by
  rw [lastPresented_eq, h]
  rfl

/-- A submitted password. -/
def isSubmitted (queued : Queued) : Bool :=
  match queued.command with
  | .password _ => true
  | .secondFactor _ | .continueInsecure _ => false

namespace Watch

/-- A step takes a submitted password off the queue only where the loop awaits one. -/
def Heedful (s s' : Watch) : Prop :=
  ∀ queued, s.attempt.queue = queued :: s'.attempt.queue → isSubmitted queued = true →
    s.attempt.awaits queued.command = true

/-- The steps that drop no submitted password. -/
def Careful (env : Fixtures) (toText : List JsonObject → String) (s : Watch) (l : Label)
    (s' : Watch) : Prop :=
  Step env toText s l s' ∧ Heedful s s'

/-- A look finds no submitted password on its way: none waits in the queue, and the
login is not over. -/
def Settled (s : Watch) : Prop :=
  s.attempt.isEnded = false ∧ ∀ queued ∈ s.attempt.queue, isSubmitted queued = false

/-! #### The attempt -/

/-- What is known of an attempt, of whether its last login carried a password, and of
whether the last rejection answered such a one. -/
structure Known (a : Attempt) (presented refused : Bool) : Prop where
  hashed : a.isEnded = false → presented = true → a.session.state ≠ .awaitHash
  asking : ∀ request awaiting, a.stage = .looping request awaiting → awaiting ≠ .network →
    a.session.state ≠ .awaitHash
  refused : ∀ request, a.stage = .looping request .password → refused = presented
  phase : a.phase = .awaitingPassword →
    a.isEnded = true ∨ ∃ request, a.stage = .looping request .password

theorem known_ended {a : Attempt} {presented refused : Bool} (h : a.isEnded = true) :
    Known a presented refused := by
  refine ⟨fun hopen => absurd h (ne_true_of_eq_false hopen), fun request awaiting hstage => ?_,
    fun request hstage => ?_, fun _ => .inl h⟩
  · rw [Attempt.isEnded, hstage] at h
    cases h
  · rw [Attempt.isEnded, hstage] at h
    cases h

/-- A turn after which the loop waits for the peer. -/
theorem known_network {a : Attempt} {presented refused : Bool} {request : Option LoginRequest}
    (hstage : a.stage = .looping request .network) (hphase : a.phase ≠ .awaitingPassword)
    (hhashed : presented = true → a.session.state ≠ .awaitHash) : Known a presented refused := by
  refine ⟨fun _ => hhashed, fun _ _ hlooping hawaiting => ?_, fun _ hlooping => ?_,
    fun h => absurd h hphase⟩
  · cases hstage.symm.trans hlooping
    exact absurd rfl hawaiting
  · cases hstage.symm.trans hlooping

theorem looping_open {a : Attempt} {request : Option LoginRequest} {awaiting : Awaiting}
    (hstage : a.stage = .looping request awaiting) : a.isEnded = false := by
  rw [Attempt.isEnded, hstage]

/-- The response to a submitted password is not empty. -/
theorem response_ne_nil {sha256 : Bytes → Bytes} (hdigest : ∀ bytes, (sha256 bytes).length = 32)
    {hash : Hash} {password response : Bytes}
    (h : ViewerSession.passwordField sha256 hash (some password) = .ok response) :
    response.isEmpty = false := by
  cases password with
  | nil => cases h
  | cons byte bytes =>
    obtain rfl := Except.ok.inj h
    cases hempty : (passwordResponse sha256 (saltedPassword sha256 (byte :: bytes) hash.salt)
        hash.challenge).isEmpty with
    | false => rfl
    | true =>
      have hlength := hdigest (saltedPassword sha256 (byte :: bytes) hash.salt
        ++ utf8 hash.challenge)
      have hnil := List.isEmpty_iff.mp hempty
      rw [show sha256 _ = [] from hnil] at hlength
      cases hlength

theorem lastPresented_login {before : Bool} {records : List WireRecord} {request : LoginRequest}
    (h : logins records = [request]) :
    lastPresented before records = !request.password.isEmpty := by
  rw [lastPresented_eq, h]
  rfl

section Attempt

variable {a a' : Attempt} {presented refused : Bool} {l : Attempt.Label}

theorem known_call (h : Known a presented refused) (call : UserCall) :
    Known (a.call call).1 presented refused := by
  have hsame : (a.call call).1.session = a.session ∧ (a.call call).1.phase = a.phase := by
    unfold Attempt.call
    split
    · exact ⟨rfl, rfl⟩
    · unfold Attempt.trySend
      split
      · exact ⟨rfl, rfl⟩
      · split <;> exact ⟨rfl, rfl⟩
  have hstage := Attempt.call_stage a call
  have hended : (a.call call).1.isEnded = a.isEnded := by
    unfold Attempt.isEnded
    rw [hstage]
  constructor
  · rw [hended, hsame.1]
    exact h.hashed
  · rw [hstage, hsame.1]
    exact h.asking
  · rw [hstage]
    exact h.refused
  · rw [hended, hstage, hsame.2]
    exact h.phase

/-- A turn of the loop that takes nothing from the peer. -/
theorem known_turn (h : Known a presented refused) (hstep : Attempt.Step env a l a')
    (hown : l.isNetwork = false) : Known a' (lastPresented presented l.records) refused := by
  cases hstep with
  | call call => exact known_call h call
  | @confirm queued rest hstage hqueue =>
    have hopen : a.isEnded = false := by
      rw [Attempt.isEnded, hstage]
    cases queued.command with
    | continueInsecure accepted =>
      cases accepted with
      | true => exact known_network rfl Phase.noConfusion (h.hashed hopen)
      | false => exact known_ended rfl
    | password | secondFactor => exact ⟨h.hashed, h.asking, h.refused, h.phase⟩
  | @command request awaiting queued rest turn sending hstage hawaiting hqueue hturn =>
    have htakes := @Attempt.takes_onCommand env { a with queue := rest } request awaiting hstage
      queued.command sending
    rw [← hturn] at htakes
    cases htakes with
    | drops => exact ⟨h.hashed, h.asking, h.refused, h.phase⟩
    | ends hended => exact known_ended hended
    | codes _ hstate hlogins =>
      rw [Attempt.Label.records, lastPresented_of_nil hlogins]
      exact known_network rfl Phase.noConfusion fun hpresented =>
        hstate (h.hashed (looping_open hstage) hpresented)
    | passwords _ _ _ hstate =>
      refine known_network rfl Phase.noConfusion fun _ => ?_
      rw [hstate]
      exact ViewerState.noConfusion
  | network => cases hown
  | cancel | hangUp => exact known_ended rfl

theorem rejects_of_result {arrives : Attempt.Arrives}
    (h : (a.received env arrives).result = some (.ok (.loginError "Wrong Password"))) :
    rejects env a arrives = true := by
  unfold rejects
  rw [h]
  rfl

/-- A turn that takes a record from the peer. -/
theorem known_hear (h : Known a presented refused) {request : Option LoginRequest}
    {awaiting : Awaiting} {arrives : Attempt.Arrives}
    (hstage : a.stage = .looping request awaiting) {turn : Turn}
    (hhears : Attempt.Hears env a request awaiting arrives turn) :
    Known turn.attempt (lastPresented presented turn.records)
      (if rejects env a arrives then presented else refused) := by
  cases hhears with
  | ends hended => exact known_ended hended
  | @answers session first hash hbefore hstate =>
    have hnot : session.state ≠ .awaitHash := by
      rw [hstate]
      exact ViewerState.noConfusion
    -- before the challenge nothing but the peer is awaited
    have hpassword : awaiting ≠ .password := by
      rintro rfl
      exact h.asking _ _ hstage (by decide) hbefore
    refine ⟨fun _ _ => hnot, fun _ _ _ _ => hnot, fun _ hlooping => ?_, fun hphase => ?_⟩
    · cases hlooping
      exact absurd rfl hpassword
    · rcases h.phase hphase with hended | ⟨_, hlooping⟩
      · exact absurd hended (ne_true_of_eq_false (looping_open hstage))
      · cases hstage.symm.trans hlooping
        exact absurd rfl hpassword
  | @rejected session records error next phase hstate hlogins _ hresult hnext hphase =>
    rw [lastPresented_of_nil hlogins]
    refine ⟨fun _ _ => hstate, fun _ _ _ _ => hstate, fun _ hlooping => ?_, fun hawaits => ?_⟩
    · cases hlooping
      obtain rfl := hnext rfl
      exact if_pos (rejects_of_result hresult)
    · cases hphase hawaits
      exact .inr ⟨request, rfl⟩
  | idles hstate hlogins =>
    rw [lastPresented_of_nil hlogins]
    refine ⟨fun hopen hpresented => hstate (h.hashed hopen hpresented),
      fun _ _ hlooping hawaiting => hstate (h.asking _ _ hlooping hawaiting),
      fun _ hlooping => ?_, h.phase⟩
    have hsame := h.refused _ hlooping
    split
    · rfl
    · exact hsame

/-! #### A password that was submitted -/

/-- A password that was submitted waits in the queue, or was sent, or the login is over. -/
def Counted (a : Attempt) (presented : Bool) : Prop :=
  (∃ queued ∈ a.queue, isSubmitted queued = true) ∨ presented = true ∨ a.isEnded = true

theorem call_queue (a : Attempt) (call : UserCall) : a.queue ⊆ (a.call call).1.queue := by
  unfold Attempt.call
  split
  · exact List.Subset.refl _
  · unfold Attempt.trySend
    split
    · exact List.Subset.refl _
    · split
      · exact List.Subset.refl _
      · exact List.subset_append_left _ _

theorem counted_call (h : Counted a presented) (call : UserCall) :
    Counted (a.call call).1 presented := by
  rcases h with ⟨queued, hmem, hsubmitted⟩ | hpresented | hended
  · exact .inl ⟨queued, call_queue a call hmem, hsubmitted⟩
  · exact .inr (.inl hpresented)
  · refine .inr (.inr ?_)
    unfold Attempt.isEnded
    rw [Attempt.call_stage]
    exact hended

/-- A password that is accepted waits in the queue. -/
theorem counted_submit {password : String} (h : (a.call (.submitPassword password)).2 = .ok ()) :
    Counted (a.call (.submitPassword password)).1 presented := by
  refine .inl ?_
  unfold Attempt.call at h ⊢
  generalize hcommand : UserCall.command (.submitPassword password) = command at h ⊢
  cases command with
  | error e => cases h
  | ok command =>
    have hpassword : command = .password (utf8 password) := by
      unfold UserCall.command at hcommand
      dsimp only at hcommand
      split at hcommand
      · cases hcommand
      · exact (Except.ok.inj hcommand).symm
    subst hpassword
    unfold Attempt.trySend at h ⊢
    dsimp only at h ⊢
    split at h
    · cases h
    · split at h
      · cases h
      · next hspace =>
        rw [if_neg hspace]
        exact ⟨_, List.mem_append_right _ (List.mem_singleton_self _), rfl⟩

/-- What is left behind the head of the queue. -/
theorem counted_rest {queued : Queued} {rest : List Queued} (hopen : a.isEnded = false)
    (hqueue : a.queue = queued :: rest) (hother : isSubmitted queued = false)
    (h : Counted a presented) : (∃ queued ∈ rest, isSubmitted queued = true) ∨ presented = true := by
  rcases h with ⟨found, hmem, hsubmitted⟩ | hpresented | hended
  · rw [hqueue] at hmem
    rcases List.mem_cons.mp hmem with rfl | hmem
    · exact absurd hsubmitted (ne_true_of_eq_false hother)
    · exact .inl ⟨found, hmem, hsubmitted⟩
  · exact .inr hpresented
  · exact absurd hended (ne_true_of_eq_false hopen)

/-- **A password that is taken is sent, if none is dropped.** -/
theorem counted_turn (hdigest : ∀ bytes, (env.sha256 bytes).length = 32)
    (hc : Counted a presented) (hstep : Attempt.Step env a l a') (hown : l.isNetwork = false)
    (hheeds : ∀ queued, a.queue = queued :: a'.queue → isSubmitted queued = true →
      a.awaits queued.command = true) : Counted a' (lastPresented presented l.records) := by
  cases hstep with
  | call call => exact counted_call hc call
  | @confirm queued rest hstage hqueue =>
    -- nobody submits a password while the connection is to be confirmed
    have hopen : a.isEnded = false := by
      rw [Attempt.isEnded, hstage]
    have hrest : (Attempt.confirm { a with queue := rest } queued.command).queue = rest :=
      LoginDialogue.confirm_queue _ _
    have hother : isSubmitted queued = false := by
      rw [← Bool.not_eq_true]
      intro hsubmitted
      have hawaits := hheeds queued (hqueue.trans (by rw [hrest])) hsubmitted
      unfold isSubmitted at hsubmitted
      unfold Attempt.awaits at hawaits
      rw [hstage] at hawaits
      split at hsubmitted
      · next hpassword =>
        rw [hpassword] at hawaits
        cases hawaits
      · cases hsubmitted
      · cases hsubmitted
    rcases counted_rest hopen hqueue hother hc with ⟨found, hmem, hsubmitted⟩ | hpresented
    · exact .inl ⟨found, hrest.symm ▸ hmem, hsubmitted⟩
    · exact .inr (.inl hpresented)
  | @command request awaiting queued rest turn sending hstage hawaiting hqueue hturn =>
    have hopen := looping_open hstage
    have hrest : turn.attempt.queue = rest := by
      rw [hturn, LoginDialogue.onCommand_queue]
    have htakes := @Attempt.takes_onCommand env { a with queue := rest } request awaiting hstage
      queued.command sending
    rw [← hturn] at htakes
    cases htakes with
    | drops hawaits =>
      -- a password is not dropped, for it was awaited
      have hother : isSubmitted queued = false := by
        rw [← Bool.not_eq_true]
        intro hsubmitted
        have hawaited := hheeds queued (hqueue.trans (by rw [hrest])) hsubmitted
        have : a.awaits queued.command = false := hawaits
        rw [hawaited] at this
        cases this
      rcases counted_rest hopen hqueue hother hc with hwaits | hpresented
      · exact .inl hwaits
      · exact .inr (.inl hpresented)
    | ends hended => exact .inr (.inr hended)
    | codes hcommand _ hlogins =>
      -- a code is no password
      have hother : isSubmitted queued = false := by
        unfold isSubmitted
        rw [hcommand]
      rw [Attempt.Label.records, lastPresented_of_nil hlogins]
      rcases counted_rest hopen hqueue hother hc with hwaits | hpresented
      · exact .inl hwaits
      · exact .inr (.inl hpresented)
    | passwords _ _ hresponse =>
      -- the proof of the password is what was presented last
      refine .inr (.inl ?_)
      rw [Attempt.Label.records, lastPresented_login rfl, response_ne_nil hdigest hresponse]
      rfl
  | network => cases hown
  | cancel | hangUp => exact .inr (.inr rfl)

theorem counted_hear (h : Known a presented refused) (hc : Counted a presented)
    {request : Option LoginRequest} {awaiting : Awaiting} {arrives : Attempt.Arrives}
    (hstage : a.stage = .looping request awaiting) {turn : Turn}
    (hhears : Attempt.Hears env a request awaiting arrives turn) :
    Counted turn.attempt (lastPresented presented turn.records) := by
  have hopen := looping_open hstage
  cases hhears with
  | ends hended => exact .inr (.inr hended)
  | answers hbefore =>
    -- a password that was sent answers a challenge that came before
    rcases hc with hwaits | hpresented | hended
    · exact .inl hwaits
    · exact absurd hbefore (h.hashed hopen hpresented)
    · exact absurd hended (ne_true_of_eq_false hopen)
  | rejected _ hlogins =>
    rw [lastPresented_of_nil hlogins]
    rcases hc with hwaits | hpresented | hended
    · exact .inl hwaits
    · exact .inr (.inl hpresented)
    · exact absurd hended (ne_true_of_eq_false hopen)
  | idles _ hlogins =>
    rw [lastPresented_of_nil hlogins]
    exact hc

end Attempt

/-! #### Beside the pump -/

/-- No password was supplied, and what was submitted is counted. -/
structure Truthful (s : Watch) : Prop where
  known : Known s.attempt s.presented s.refused
  pump : ∃ session, s.pump = .ohos session ∧ session.initialPasswordSupplied = false ∧
    (session.loginAttempts > 0 → Counted s.attempt s.presented)

theorem Truthful.step {s s' : Watch} {l : Label}
    (hdigest : ∀ bytes, (env.sha256 bytes).length = 32) (h : Truthful s)
    (hstep : Careful env toText s l s') : Truthful s' := by
  obtain ⟨hknown, session, hpump, hsupplied, hcounted⟩ := h
  obtain ⟨hstep, hheeds⟩ := hstep
  cases hstep with
  | submit password =>
    -- an accepted password is counted as an attempt
    refine ⟨known_call hknown _, ?_⟩
    unfold submit
    dsimp only
    split
    · next hok =>
      rw [hpump]
      exact ⟨session.loggedIn, rfl, hsupplied, fun _ => counted_submit hok⟩
    · exact ⟨session, hpump, hsupplied, fun hattempts => counted_call (hcounted hattempts) _⟩
  | call call =>
    exact ⟨known_call hknown call, session, hpump, hsupplied,
      fun hattempts => counted_call (hcounted hattempts) call⟩
  | turn hturn hown =>
    exact ⟨known_turn hknown hturn hown, session, hpump, hsupplied,
      fun hattempts => counted_turn hdigest (hcounted hattempts) hturn hown hheeds⟩
  | @hear request awaiting arrives hstage =>
    have hhears := @Attempt.hears_onNetwork env s.attempt request awaiting arrives
    exact ⟨known_hear hknown hstage hhears, session, hpump, hsupplied,
      fun hattempts => counted_hear hknown (hcounted hattempts) hstage hhears⟩
  | shows hphase =>
    exact ⟨⟨hknown.hashed, hknown.asking, hknown.refused, fun h => absurd h hphase⟩, session, hpump,
      hsupplied, hcounted⟩
  | look rest peer limit =>
    -- a look tells events and counts nothing
    have hkept := PumpedSession.counted_pollEvents toText (s.snapshot rest) peer limit session
    refine ⟨hknown, (session.pollEvents toText (s.snapshot rest) peer limit).1, ?_, ?_, ?_⟩
    · show (PermissionEvents.look toText (s.snapshot rest) peer limit s.pump).1 = _
      rw [hpump]
      rfl
    · exact (congrArg Prod.fst hkept).trans hsupplied
    · exact fun hattempts => hcounted (lt_of_lt_of_eq hattempts (congrArg Prod.snd hkept))

theorem Truthful.start (wire : Established) {session : CompatSession} (hpassword : session.password = "") :
    Truthful { attempt := .start env wire, pump := .ohos (.new session) } where
  known := by
    refine ⟨fun _ h => (by cases h), fun _ _ hstage hawaiting => ?_, fun _ hstage => ?_,
      fun hphase => ?_⟩
    · unfold Attempt.start at hstage
      dsimp only at hstage
      split at hstage
      · cases hstage
      · cases hstage
        exact absurd rfl hawaiting
    · unfold Attempt.start at hstage
      dsimp only at hstage
      split at hstage <;> cases hstage
    · unfold Attempt.start at hphase
      dsimp only at hphase
      split at hphase <;> cases hphase
  pump := ⟨.new session, rfl, by simp [PumpedSession.new, hpassword],
    fun h => absurd h (UInt64.lt_irrefl 0)⟩

theorem prompts_ohos {s : Watch} {session : PumpedSession} (hpump : s.pump = .ohos session)
    (rest : ViewerSnapshot) (peer : Option PeerReport) :
    s.prompts toText rest peer = PumpedSession.promptDue (s.snapshot rest) session := by
  unfold prompts
  rw [hpump]
  exact PumpedSession.stages_prompts session

/-- **A wrong password is reported only where one was sent**, if none was supplied, none
is dropped, and none is on its way. -/
theorem Truthful.reports {s : Watch} (h : Truthful s) (hsettled : s.Settled)
    {rest : ViewerSnapshot} {peer : Option PeerReport} {event : UiEvent}
    (hevent : event ∈ s.prompts toText rest peer) (hwrong : reportsWrong event = true) :
    s.refused = true := by
  obtain ⟨hknown, session, hpump, hsupplied, hcounted⟩ := h
  obtain ⟨hopen, hqueue⟩ := hsettled
  rw [prompts_ohos hpump] at hevent
  obtain ⟨hphase, hretry⟩ := PumpedSession.mem_promptDue hevent
  rw [hretry, PumpedSession.isRetry, hsupplied, Bool.false_or, decide_eq_true_iff] at hwrong
  have hpresented : s.presented = true := by
    rcases hcounted hwrong with ⟨queued, hmem, hsubmitted⟩ | hpresented | hended
    · exact absurd hsubmitted (ne_true_of_eq_false (hqueue queued hmem))
    · exact hpresented
    · exact absurd hended (ne_true_of_eq_false hopen)
  rcases hknown.phase hphase with hended | ⟨request, hstage⟩
  · exact absurd hended (ne_true_of_eq_false hopen)
  · exact (hknown.refused request hstage).trans hpresented

/-! #### A password that was supplied -/

/-- A password was supplied, and none was submitted: none is sent. -/
structure Unsent (s : Watch) : Prop where
  queue : ∀ queued ∈ s.attempt.queue, isSubmitted queued = false
  presented : s.presented = false
  refused : s.refused = false
  pump : ∃ session, s.pump = .ohos session ∧ session.initialPasswordSupplied = true

theorem queue_call {a : Attempt} {call : UserCall} (hcall : ∀ password, call ≠ .submitPassword password)
    (h : ∀ queued ∈ a.queue, isSubmitted queued = false) :
    ∀ queued ∈ (a.call call).1.queue, isSubmitted queued = false := by
  unfold Attempt.call
  cases hcommand : call.command with
  | error => exact h
  | ok command =>
    have hother : ∀ awaited, isSubmitted ⟨command, awaited⟩ = false := by
      intro awaited
      cases call with
      | submitPassword password => exact absurd rfl (hcall password)
      | submitSecondFactor code =>
        unfold UserCall.command at hcommand
        dsimp only at hcommand
        split at hcommand
        · cases hcommand
        · cases hcommand
          rfl
      | continueInsecure allow =>
        cases hcommand
        rfl
    dsimp only
    unfold Attempt.trySend
    split
    · exact h
    · split
      · exact h
      · intro queued hmem
        rcases List.mem_append.mp hmem with hmem | hmem
        · exact h queued hmem
        · obtain rfl := List.mem_singleton.mp hmem
          exact hother _

/-- What a turn without a submitted password sends carries none. -/
theorem unsent_turn {a a' : Attempt} {l : Attempt.Label}
    (hqueue : ∀ queued ∈ a.queue, isSubmitted queued = false)
    (hstep : Attempt.Step env a l a') (hown : l.isNetwork = false)
    (hcall : ∀ call result, l ≠ .calls call result) :
    lastPresented false l.records = false ∧ a'.queue ⊆ a.queue := by
  cases hstep with
  | call call => exact absurd rfl (hcall _ _)
  | @confirm queued rest hstage hqueued =>
    rw [LoginDialogue.confirm_queue, hqueued]
    exact ⟨rfl, List.subset_cons_self _ _⟩
  | @command request awaiting queued rest turn sending hstage hawaiting hqueued hturn =>
    refine ⟨?_, ?_⟩
    · have htakes := @Attempt.takes_onCommand env { a with queue := rest } request awaiting hstage
        queued.command sending
      rw [← hturn] at htakes
      cases htakes with
      | drops => rfl
      | ends _ hlogins => exact lastPresented_of_nil hlogins
      | codes _ _ hlogins => exact lastPresented_of_nil hlogins
      | passwords hcommand =>
        have hother := hqueue queued (hqueued ▸ List.mem_cons_self)
        unfold isSubmitted at hother
        rw [hcommand] at hother
        cases hother
    · rw [hturn, LoginDialogue.onCommand_queue, hqueued]
      exact List.subset_cons_self _ _
  | network => cases hown
  | cancel | hangUp => exact ⟨rfl, List.Subset.refl _⟩

theorem unsent_hear (hempty : env.setup.password = []) {a : Attempt}
    {request : Option LoginRequest} {awaiting : Awaiting} {arrives : Attempt.Arrives} {turn : Turn}
    (hhears : Attempt.Hears env a request awaiting arrives turn) :
    lastPresented false turn.records = false := by
  cases hhears with
  | ends _ hlogins => exact lastPresented_of_nil hlogins
  | answers =>
    rw [lastPresented_login rfl, initialResponse, hempty]
    rfl
  | rejected _ hlogins => exact lastPresented_of_nil hlogins
  | idles _ hlogins => exact lastPresented_of_nil hlogins

theorem Unsent.step {s s' : Watch} {l : Label} (hempty : env.setup.password = []) (h : Unsent s)
    (hlabel : l ≠ .submits) (hstep : Step env toText s l s') : Unsent s' := by
  obtain ⟨hqueue, hpresented, hrefused, hpump⟩ := h
  cases hstep with
  | submit => exact absurd rfl hlabel
  | call call hcall => exact ⟨queue_call hcall hqueue, hpresented, hrefused, hpump⟩
  | turn hturn hown hcall =>
    obtain ⟨hlast, hsubset⟩ := unsent_turn hqueue hturn hown hcall
    refine ⟨fun queued hmem => hqueue queued (hsubset hmem), ?_, hrefused, hpump⟩
    rw [hpresented]
    exact hlast
  | @hear request awaiting arrives hstage =>
    have hhears := @Attempt.hears_onNetwork env s.attempt request awaiting arrives
    refine ⟨?_, ?_, ?_, hpump⟩
    · intro queued hmem
      refine hqueue queued ?_
      rwa [hear, LoginDialogue.onNetwork_queue] at hmem
    · show lastPresented s.presented _ = false
      rw [hpresented]
      exact unsent_hear hempty hhears
    · show (if rejects env s.attempt arrives then s.presented else s.refused) = false
      rw [hpresented, hrefused, ite_self]
  | shows => exact ⟨hqueue, hpresented, hrefused, hpump⟩
  | look rest peer limit =>
    obtain ⟨session, hpump, hsupplied⟩ := hpump
    have hkept := PumpedSession.counted_pollEvents toText (s.snapshot rest) peer limit session
    refine ⟨hqueue, hpresented, hrefused,
      (session.pollEvents toText (s.snapshot rest) peer limit).1, ?_, ?_⟩
    · show (PermissionEvents.look toText (s.snapshot rest) peer limit s.pump).1 = _
      rw [hpump]
      rfl
    · exact (congrArg Prod.fst hkept).trans hsupplied

/-- **After a supplied password every prompt says that it is wrong**, and none was sent. -/
theorem Unsent.reports {s : Watch} (h : Unsent s) {rest : ViewerSnapshot}
    {peer : Option PeerReport} {event : UiEvent} (hevent : event ∈ s.prompts toText rest peer) :
    reportsWrong event = true ∧ s.refused = false := by
  obtain ⟨-, -, hrefused, session, hpump, hsupplied⟩ := h
  rw [prompts_ohos hpump] at hevent
  obtain ⟨-, hretry⟩ := PumpedSession.mem_promptDue hevent
  refine ⟨?_, hrefused⟩
  rw [hretry, PumpedSession.isRetry, hsupplied, Bool.true_or]

end Watch

end PasswordPrompts

/-! ### The password that was supplied -/

namespace Compat

open Lts PasswordPrompts
open Viewer (Fixtures Attempt)

/-- The attempt beside the pump of a session that was added so. -/
def watched (env : Fixtures) (wire : Established) (session : CompatSession) : Watch where
  attempt := .start env wire
  pump := .ohos (.new session)

/-- **The first authentication after a start answers with the supplied password exactly on
a VNC route.**  Where none was supplied, and none of those submitted is dropped, a wrong
password is reported by every look that finds none on its way only where a password was
sent; where one was supplied, every prompt reports a wrong password before any was sent. -/
theorem supplied_password {env : Fixtures} {toText : List JsonObject → String}
    (hdigest : ∀ bytes, (env.sha256 bytes).length = 32) {id peerTarget localId : String}
    {options : AddOptions} {generation : Nat} {registry registry' : Registry}
    {session : CompatSession} {calls : List Call} {o : Opening}
    (hadd : sessionAdd id peerTarget (some options) generation registry = .ok session)
    (hcalls : ∀ call ∈ calls, call.Spares id)
    (hbegin : sessionStart.begin id localId
      (Observers.run Call.run calls (session :: registry)).1 = (registry', .inr o)) :
    (session.password ≠ "" → ∀ response due,
      FirstAttempt env o (utf8 session.password) response due →
        (response = due ↔ ∃ host port, o.route = .scheme .vnc host port)) ∧
      ∀ (wire : Established) (ls : List Watch.Label) (s : Watch) (rest : ViewerSnapshot)
        (peer : Option PeerReport), ∀ event ∈ s.prompts toText rest peer,
        (session.password = "" →
          Run (Watch.Careful env toText) (watched env wire session) ls s → s.Settled →
            reportsWrong event = true → s.refused = true) ∧
          (session.password ≠ "" → ∀ confirmInsecure compress decompressWithLimit,
            env.setup = o.options.setup confirmInsecure compress decompressWithLimit →
            Run (Watch.Step env toText) (watched env wire session) ls s →
            Watch.Label.submits ∉ ls → reportsWrong event = true ∧ s.refused = false) := by
  have hid : session.id = id := (newSession_eq (add_eq hadd).1).1
  have hstored : Stores (session :: registry) id session.password := by
    refine ⟨session, ?_, rfl⟩
    rw [← hid]
    exact get_cons_eq registry session
  obtain ⟨hpassword, hoptions⟩ := begin_password (stores_runs hcalls hstored) hbegin
  refine ⟨fun hne response due h => first_response hdigest hne hpassword hoptions h,
    fun wire ls s rest peer event hevent => ⟨fun hnone hrun hsettled hwrong => ?_,
      fun hne confirmInsecure compress decompressWithLimit hsetup hrun hlabels => ?_⟩⟩
  -- no password was supplied: a report of a wrong one follows a refusal
  · have htruthful : Watch.Truthful s :=
      hrun.invariant (fun _ _ _ h hstep => h.step hdigest hstep)
        (Watch.Truthful.start wire hnone)
    exact htruthful.reports hsettled hevent hwrong
  -- one was supplied but not handed to the login, so nothing was refused
  · have hempty : env.setup.password = [] := by
      rw [hsetup]
      show utf8 o.options.password = []
      rw [hoptions]
      rfl
    have hstart : Watch.Unsent (watched env wire session) := by
      refine ⟨fun queued hmem => (by cases hmem), rfl, rfl, _, rfl, ?_⟩
      show (!session.password.isEmpty) = true
      rw [Bool.not_eq_true', ← Bool.not_eq_true]
      exact fun h => hne (String.isEmpty_iff.mp h)
    have hothers : ∀ l ∈ ls, l ≠ Watch.Label.submits := by
      rintro l hl rfl
      exact hlabels hl
    have hunsent : Watch.Unsent s :=
      hrun.keeps (fun _ _ _ h hlabel hstep => h.step hempty hlabel hstep) hothers hstart
    exact hunsent.reports hevent

/-! ### A session with a password, and one without -/

/-- SHA-256 of `a`, and the response to it. -/
def saltedA : Bytes :=
  [202, 151, 129, 18, 202, 27, 189, 202, 250, 194, 49, 179, 154, 35, 220, 77, 167, 134, 239, 248,
    20, 124, 78, 114, 185, 128, 119, 133, 175, 238, 72, 187]

def responseA : Bytes :=
  [74, 176, 179, 75, 214, 243, 0, 217, 194, 132, 222, 199, 139, 31, 11, 178, 121, 197, 81, 144,
    72, 127, 1, 111, 40, 67, 196, 107, 155, 157, 242, 244]

/-- SHA-256 where it is needed. -/
def digestA (bytes : Bytes) : Bytes :=
  if bytes = utf8 "a" then saltedA
  else if bytes = saltedA ++ utf8 "c0ffee" then responseA
  else List.replicate 32 0

theorem length_digestA (bytes : Bytes) : (digestA bytes).length = 32 := by
  unfold digestA
  split
  · rfl
  · split <;> rfl

/-- The session of a peer id. -/
def peerSession (password : String) : CompatSession :=
  storedSession (.rendezvous "desk") password false

/-- The session of a VNC server. -/
def serverSession (password : String) : CompatSession :=
  { storedSession (.scheme .vnc "desk" 5900) password false with target := "vnc://desk" }

theorem unlocked_added :
    sessionAdd "s" "desk" (some { password := some "" }) 1 [] = .ok (peerSession "") := rfl

theorem server_added :
    sessionAdd "s" "vnc://desk" (some { password := some "a" }) 1 [] = .ok (serverSession "a") := rfl

/-- The setup of the engine that a start spawns for it. -/
def peerSetup : Viewer.Setup :=
  (viewerOptions "viewer" (peerSession "")).setup true id fun bytes _ => some bytes

def peerFirst : LoginRequest := Viewer.loginRequest peerSetup Attempt.plainDecoders 1

def peerRequest (response : Bytes) : Message :=
  .of (.loginRequest { peerFirst with password := response })

def peerEnv : Fixtures where
  box := .padding
  proto := .table [(Attempt.challenge, [0]), (Attempt.wrongPassword, [1]),
    (peerRequest [], [2]), (peerRequest responseA, [3])]
  sha256 := digestA
  setup := peerSetup
  decoders := Attempt.plainDecoders

/-- The user lets the connection go on. -/
def peerConfirmed : Attempt :=
  { Attempt.start peerEnv Attempt.plainPeer with
    stage := .looping none .network, phase := .authenticating }

/-- The first login has gone out. -/
def peerLogin : Attempt :=
  (peerConfirmed.onNetwork peerEnv none .network (Attempt.frame [0])).attempt

/-- The peer has called the password wrong. -/
def peerAsking : Attempt :=
  (peerLogin.onNetwork peerEnv (some peerFirst) .network (Attempt.frame [1])).attempt

def peerSubmitted : Attempt := (peerAsking.call (.submitPassword "a")).1

def peerAnswering : Viewer.Turn :=
  Attempt.onCommand peerEnv { peerSubmitted with queue := [] } (some peerFirst) .password
    (.password (utf8 "a")) {}

def peerAskingAgain : Attempt :=
  (peerAnswering.attempt.onNetwork peerEnv (some peerFirst) .network (Attempt.frame [1])).attempt

theorem heedful_of_other {s s' : Watch}
    (h : ∀ queued, s.attempt.queue.head? = some queued → isSubmitted queued = false) :
    Watch.Heedful s s' := by
  intro queued hqueue hsubmitted
  rw [h queued (by rw [hqueue]; rfl)] at hsubmitted
  cases hsubmitted

theorem heedful_of_nil {s s' : Watch} (h : s.attempt.queue = []) : Watch.Heedful s s' := by
  refine heedful_of_other fun queued hhead => ?_
  rw [h] at hhead
  cases hhead

theorem runs_peerAsking (session : CompatSession) :
    ∃ ls, Run (Watch.Careful peerEnv fun _ => "") (watched peerEnv Attempt.plainPeer session) ls
        { attempt := peerAsking, pump := .ohos (.new session), entry := 1 } ∧
      Watch.Label.submits ∉ ls := by
  let called := (Attempt.call (.start peerEnv Attempt.plainPeer) (.continueInsecure true)).1
  have hcalled : Watch.Careful peerEnv (fun _ => "") (watched peerEnv Attempt.plainPeer session)
      .calls { attempt := called, pump := .ohos (.new session) } :=
    ⟨.call _ (.continueInsecure true) fun _ => Viewer.UserCall.noConfusion, heedful_of_nil rfl⟩
  have hconfirms : Attempt.Step peerEnv called (.takes ⟨.continueInsecure true, true⟩ [] false)
      peerConfirmed := .confirm rfl rfl
  have hconfirmed : Watch.Careful peerEnv (fun _ => "")
      { attempt := called, pump := .ohos (.new session) } .turns
      { attempt := peerConfirmed, pump := .ohos (.new session) } := by
    refine ⟨@Watch.Step.turn _ _ { attempt := called, pump := .ohos (.new session) } _ _ hconfirms
      rfl fun _ _ => Attempt.Label.noConfusion, heedful_of_other fun queued hhead => ?_⟩
    obtain rfl := Option.some.inj hhead
    rfl
  have hlogin : Watch.Careful peerEnv (fun _ => "")
      { attempt := peerConfirmed, pump := .ohos (.new session) } .hears
      { attempt := peerLogin, pump := .ohos (.new session) } :=
    ⟨.hear (Attempt.frame [0]) rfl, heedful_of_nil rfl⟩
  have hasking : Watch.Careful peerEnv (fun _ => "")
      { attempt := peerLogin, pump := .ohos (.new session) } .hears
      { attempt := peerAsking, pump := .ohos (.new session), entry := 1 } :=
    ⟨.hear (Attempt.frame [1]) rfl, heedful_of_nil rfl⟩
  refine ⟨_, .cons hcalled <| .cons hconfirmed <| .cons hlogin <| .single hasking, fun hmem => ?_⟩
  simp at hmem

/-- The user submits the password, which is called wrong in its turn. -/
theorem runs_peerAskingAgain :
    ∃ ls, Run (Watch.Careful peerEnv fun _ => "")
      (watched peerEnv Attempt.plainPeer (peerSession "")) ls
      { attempt := peerAskingAgain, pump := .ohos (PumpedSession.new (peerSession "")).loggedIn,
        entry := 2, presented := true, refused := true } := by
  obtain ⟨ls, hasking, -⟩ := runs_peerAsking (peerSession "")
  let pump : Pump := .ohos (PumpedSession.new (peerSession "")).loggedIn
  have hsubmits : Watch.Careful peerEnv (fun _ => "")
      { attempt := peerAsking, pump := .ohos (.new (peerSession "")), entry := 1 } .submits
      { attempt := peerSubmitted, pump, entry := 1 } := ⟨.submit _ "a", heedful_of_nil rfl⟩
  have htakes : Attempt.Step peerEnv peerSubmitted
      (.takes ⟨.password (utf8 "a"), true⟩ peerAnswering.records peerAnswering.attempt.isEnded)
      peerAnswering.attempt := .command {} rfl (by decide) rfl rfl
  have hanswers : Watch.Careful peerEnv (fun _ => "")
      { attempt := peerSubmitted, pump, entry := 1 } .turns
      { attempt := peerAnswering.attempt, pump, entry := 1, presented := true } := by
    refine ⟨@Watch.Step.turn _ _ { attempt := peerSubmitted, pump := pump, entry := 1 } _ _ htakes
      rfl fun _ _ => Attempt.Label.noConfusion, fun queued hqueue _ => ?_⟩
    obtain rfl := (List.cons.inj hqueue).1
    rfl
  have hrejected : Watch.Careful peerEnv (fun _ => "")
      { attempt := peerAnswering.attempt, pump, entry := 1, presented := true } .hears
      { attempt := peerAskingAgain, pump, entry := 2, presented := true, refused := true } :=
    ⟨.hear (Attempt.frame [1]) rfl, heedful_of_nil rfl⟩
  exact ⟨_, ((hasking.snoc hsubmits).snoc hanswers).snoc hrejected⟩

/-- A VNC server that asks for a password gets the response to the one supplied; and a
peer that refuses the password submitted, where none was supplied, is reported. -/
theorem supplied_password_desk :
    (∃ o response due, o.route = .scheme .vnc "desk" 5900 ∧
        FirstAttempt peerEnv o (utf8 "a") response due ∧ response = due) ∧
      ∃ ls s, Run (Watch.Careful peerEnv fun _ => "")
          (watched peerEnv Attempt.plainPeer (peerSession "")) ls s ∧
        ∃ event ∈ s.prompts (fun _ => "") { phase := .closed } none,
          reportsWrong event = true ∧ s.refused = true := by
  refine ⟨?_, ?_⟩
  · obtain ⟨version, hbanner⟩ := @Vnc.parseBanner_banner 8 (by decide)
    have hgreeting := @Vnc.Greeting.offered (Vnc.banner (Vnc.SecurityServer.minorDigits 8)) [1, 2]
      version 8 rfl hbanner (by decide) (by decide) (by decide)
    let challenge : FixedBytes 16 := ⟨List.replicate 16 0, rfl⟩
    have hexec := Vnc.exec_responds hgreeting (utf8 "a") challenge .panicked
    have hattempt : FirstAttempt peerEnv (opening "viewer" (serverSession "a")) (utf8 "a")
        (Vnc.Auth.answerChallenge (utf8 "a") challenge)
        (Vnc.Auth.answerChallenge (utf8 "a") challenge) := by
      refine @FirstAttempt.vnc _ _ _ "desk" 5900 _ _ _ [] challenge [] (.error .panicked) rfl
        hgreeting ?_
        (Vnc.Auth.length_answerChallenge _ _)
      rw [List.append_nil, List.append_nil]
      exact hexec
    have hsupplied := (@supplied_password peerEnv (fun _ => "") length_digestA _ _ "viewer" _ _ _ _
      _ [] _ server_added (fun call hcall => absurd hcall List.not_mem_nil) rfl).1 (by decide)
    exact ⟨_, _, _, rfl, hattempt, (hsupplied _ _ hattempt).mpr ⟨"desk", 5900, rfl⟩⟩
  · obtain ⟨ls, hrun⟩ := runs_peerAskingAgain
    have hsupplied := (@supplied_password peerEnv (fun _ => "") length_digestA _ _ "viewer" _ _ _ _
      _ [] _ unlocked_added (fun call hcall => absurd hcall List.not_mem_nil) rfl).2
    refine ⟨ls, _, hrun, _, List.mem_cons_self, rfl, ?_⟩
    refine (hsupplied _ _ _ { phase := .closed } none _ List.mem_cons_self).1 rfl hrun
      ⟨rfl, fun queued hmem => ?_⟩ rfl
    cases hmem

/-- The login to a peer goes out without the password that was supplied, and the pump
says that the password is wrong. -/
theorem password_unsent :
    (∃ o response due, sessionStart.begin "s" "viewer" [peerSession "a"]
          = ([begun (peerSession "a")], .inr o) ∧ o.route = .rendezvous "desk" ∧
        FirstAttempt peerEnv o (utf8 "a") response due ∧ response = [] ∧ due = responseA) ∧
      ∃ ls s, Run (Watch.Step peerEnv fun _ => "")
          (watched peerEnv Attempt.plainPeer (peerSession "a")) ls s ∧
        ∃ event ∈ s.prompts (fun _ => "") { phase := .closed } none,
          reportsWrong event = true ∧ s.refused = false := by
  refine ⟨?_, ?_⟩
  · have hconfirmed := (Run.single (@Attempt.Step.call peerEnv
      (.start peerEnv Attempt.plainPeer) (.continueInsecure true))).snoc (.confirm rfl rfl)
    have hrun := hconfirmed.snoc (.network (Attempt.frame [0]) rfl rfl)
    exact ⟨opening "viewer" (peerSession "a"), _, _, rfl, rfl,
      .rustDesk (.inr ⟨_, rfl⟩) rfl hrun ⟨[], [], rfl, rfl, rfl⟩, rfl, rfl⟩
  · obtain ⟨ls, hrun, -⟩ := runs_peerAsking (peerSession "a")
    exact ⟨ls, _, hrun.mono fun _ _ _ h => h.1, _, List.mem_cons_self, rfl, rfl⟩

end Compat

end RdEngine
