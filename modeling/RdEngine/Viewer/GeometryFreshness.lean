/-
RdEngine/Viewer/GeometryFreshness.lean

Whether the geometry a mouse event is placed on is the peer's latest.

The receive task publishes the geometry of each `SwitchDisplay` at once.  The
feed task publishes the geometry of a record when it opens a decoder for it, and
that record may have been queued before the switch.  What the code guarantees is
that the published geometry is the peer's latest as long as no other geometry
arrives while the feed task is about to publish, or while a record waits that
needs a new decoder (`geometry_fresh`).
-/
import RdEngine.Viewer.Footprint
import RdEngine.Viewer.Progress

namespace RdEngine

namespace Viewer

open Lts Threads

/-! ### What each task knows -/

/-- Where the feed task is with the record it has taken: its codec and geometry
not yet compared with the contract, its decoder being opened, its geometry
published and the contract not yet kept. -/
inductive Feeding where
  | idle
  | taken (record : VideoRecord)
  | opening (record : VideoRecord)
  | published (record : VideoRecord)

/-- `source` is the geometry the run or receive task set last; `begun`, that the
run task has spawned the others, or that one of these has begun. -/
structure Sight where
  source : Option Geometry
  begun : Bool
  feeding : Feeding

def unseen : Sight := ⟨none, false, .idle⟩

/-- The receive task, when it has taken up a geometry. -/
def receiveAt (source : Geometry) : Sight := ⟨some source, true, .idle⟩

/-- The feed task, at this point of its turn. -/
def feedAt (feeding : Feeding) : Sight := ⟨none, true, feeding⟩

/-- The contract a record asks for. -/
def VideoRecord.contract (record : VideoRecord) : VideoCodec × Geometry :=
  (record.codec, record.geometry)

/-- What `run` has seen, and what it may do then. -/
def runSight : Ghost Access.Answer Sight where
  next
    | g, .setGeometry geometry, _ => { g with source := some geometry }
    | g, .spawn _ _, _ => { g with begun := true }
    | g, _, _ => g
  admits
    | g, .setGeometry _ => g.begun = false
    | g, .spawn _ source => g.begun = false ∧ g.source = some source
    | _, a => runAccess a = true

/-- What the receive task has seen, and what it may do then. -/
def receiveSight : Ghost Access.Answer Sight where
  next
    | g, .setGeometry geometry, _ => { g with source := some geometry }
    | g, _, _ => g
  admits
    | g, .sendVideo record => g.begun = true ∧ g.source = some record.geometry
    | g, a => g.begun = true ∧ receiveAccess a = true

/-- Where an access leaves the feed task; whatever ends its turn leaves it idle. -/
def Feeding.after : Feeding → (a : Access) → a.Answer → Feeding
  | _, .recvVideo, .record record => .taken record
  | .taken record, .contract, answer =>
    if answer = some record.contract then .idle else .opening record
  | .opening record, .setGeometry _, _ => .published record
  | .published _, .setContract _, _ => .idle
  | _, .closeDecoder, .error _ => .idle
  | _, .openDecoder _ _ _, .error _ => .idle
  | _, .isCancelled, true => .idle
  | feeding, _, _ => feeding

/-- What the feed task may do at this point of its turn. -/
def Feeding.admits : Feeding → Access → Prop
  | .idle, .setGeometry _ | .idle, .setContract _ => False
  | .idle, a => feedAccess a = true
  | .taken _, a => a = .contract
  | .opening record, .setGeometry geometry => geometry = record.geometry
  | .opening record, a =>
    a = .closeDecoder ∨ a = .isCancelled ∨
      a = .openDecoder record.codec record.geometry.width record.geometry.height
  | .published record, a => a = .setContract record.contract

/-- What the feed task has seen, and what it may do then. -/
def feedSight : Ghost Access.Answer Sight where
  next g a answer := { g with feeding := g.feeding.after a answer }
  admits g a := g.begun = true ∧ g.feeding.admits a

/-- The ghost states of the tasks; callers and the write task stay within their
footprints. -/
def sight : Task → Ghost Access.Answer Sight
  | .run => runSight
  | .receive => receiveSight
  | .feed => feedSight
  | task => ⟨fun g _ _ => g, fun _ a => task.access a = true⟩

/-- `run` ends before it has begun a stream, or it returns. -/
def RunResult (g : Sight) (outcome : Outcome) : Prop :=
  (∃ result, outcome = .returned result) ∨ g.begun = false

/-- Where the receive task may be between its accesses. -/
def ReceiveResult (g : Sight) : Outcome → Prop
  | .waiting => g.begun = false
  | .receiving _ source => g.begun = true ∧ g.source = some source
  | _ => True

/-- The feed task ends at the start of a turn. -/
def FeedResult (g : Sight) (outcome : Outcome) : Prop :=
  g.feeding = .idle ∧ (g.begun = true ∨ outcome = .waiting)

def SightResult : Task → Sight → Outcome → Prop
  | .run => RunResult
  | .receive => ReceiveResult
  | .feed => FeedResult
  | _ => fun _ _ => True

/-! ### The run task -/

theorem follows_serve (decoders : Decoders) (context : Context) {g : Sight}
    (hg : g.begun = false) : Follows runSight RunResult g (serve decoders context) := by
  have hfinish : ∀ result, Follows runSight RunResult g (finish result) :=
    fun result => ⟨rfl, fun _ => ⟨rfl, fun _ => .inl ⟨result, rfl⟩⟩⟩
  have hsupervise : ∀ (g : Sight) (first : Except ViewerError Unit),
      Follows runSight RunResult g (supervise first) := fun g =>
    follows_supervise (fun a ha => by cases a <;> first | exact runAccess_of_supervise ha | cases ha)
      (fun a answer ha => by cases a <;> first | rfl | cases ha) fun result => .inl ⟨result, rfl⟩
  rw [serve]
  split
  · exact hfinish _
  · exact ⟨hg, fun _ => ⟨rfl, fun _ => ⟨rfl, fun _ => ⟨rfl, fun _ => ⟨rfl, fun _ =>
      ⟨⟨hg, rfl⟩, fun _ => ⟨rfl, fun _ => hsupervise _ _⟩⟩⟩⟩⟩⟩⟩

theorem followsLogin_sight (setup : Setup) {g : Sight} (hg : g.begun = false) :
    FollowsLogin setup runSight RunResult (fun _ => True) g where
  quiet a ha := by cases a <;> first | exact runAccess_of_login ha | cases ha
  still a answer ha := by cases a <;> first | rfl | cases ha
  fresh _ _ := trivial
  login _ _ _ := rfl
  loggedIn _ _ _ := rfl
  parts := rfl
  noParts _ := rfl
  serve decoders context := follows_serve decoders context hg
  returned result := .inl ⟨result, rfl⟩
  confirming _ := .inr hg
  authenticating _ _ _ _ := .inr hg

/-! ### The receive task -/

theorem follows_receiveExit (source : Geometry) (result : Except ViewerError Unit) :
    Follows receiveSight ReceiveResult (receiveAt source) (exit result) :=
  ⟨⟨rfl, rfl⟩, fun _ => trivial⟩

theorem follows_stored {source : Geometry} {P : Access → Bool} {p : Program Unit}
    (hP : ∀ a, P a = true → noteAccess a = true ∨ optionAccess a = true) (hp : Within P p)
    (decoders : Decoders) :
    Follows receiveSight ReceiveResult (receiveAt source)
      (p.bind fun _ => .ret (.receiving decoders source)) := by
  refine Follows.bind (Q := fun g _ => g = receiveAt source) ?_ fun g _ hg => ?_
  · refine hp.follows (fun a ha => ?_) (fun a answer ha => ?_) fun _ => rfl
    · rcases hP a ha with ha | ha <;> cases a <;> first | exact ⟨rfl, rfl⟩ | cases ha
    · rcases hP a ha with ha | ha <;> cases a <;> first | rfl | cases ha
  · subst hg
    exact ⟨rfl, rfl⟩

/-- A record is queued with the geometry that is the task's at that time. -/
theorem follows_receiveVideo (decoders : Decoders) (source : Geometry) (frame : VideoFrame) :
    Follows receiveSight ReceiveResult (receiveAt source)
      (receiveVideo decoders source frame) := by
  have hexit := follows_receiveExit source
  rw [receiveVideo]
  split
  · exact hexit _
  · split
    · exact hexit _
    · dsimp only
      split
      · exact ⟨rfl, rfl⟩
      · split
        · exact hexit _
        · split
          · exact hexit _
          · refine Follows.bind (Q := fun g _ => g = receiveAt source) ?_ fun g admitted hg => ?_
            · refine ⟨⟨rfl, rfl⟩, fun slot => ?_⟩
              cases slot with
              | false => rfl
              | true => exact ⟨⟨rfl, rfl⟩, fun _ => rfl⟩
            · subst hg
              split
              · refine ⟨⟨rfl, rfl⟩, fun answer => ?_⟩
                cases answer with
                | sent => exact ⟨rfl, rfl⟩
                | closed => exact hexit _
                | cancelled => exact hexit _
              · exact hexit _

theorem follows_receiveTurn (setup : Setup) (decoders : Decoders) (source : Geometry) :
    Follows receiveSight ReceiveResult (receiveAt source)
      (receiveTurn setup decoders source) := by
  have hexit := follows_receiveExit source
  have hstay : Follows receiveSight ReceiveResult (receiveAt source)
      (.ret (.receiving decoders source)) := ⟨rfl, rfl⟩
  refine ⟨⟨rfl, rfl⟩, fun arrival => ?_⟩
  cases arrival with
  | cancelled => exact hexit _
  | failed => exact hexit _
  | ended => exact hexit _
  | message message =>
    show Follows _ _ _ (receiveMessage setup decoders source message)
    rw [receiveMessage.eq_def]
    split
    · exact follows_receiveVideo _ _ _
    · split
      · exact hstay
      · refine ⟨⟨rfl, rfl⟩, fun sent => ?_⟩
        dsimp only [Prog.bind]
        split
        · exact hstay
        · exact hexit _
    · rw [receiveMisc.eq_def]
      split
      · exact follows_stored (fun _ => .inl) (within_receivePermission _) decoders
      · exact hexit _
      · split
        · exact hexit _
        · exact ⟨⟨rfl, rfl⟩, fun _ => ⟨rfl, rfl⟩⟩
      · exact follows_stored (fun _ => .inr) (within_receiveOption _) decoders
      · exact hstay
    · exact follows_stored (fun _ => .inl) (within_receiveClipboards (fun _ => rfl) _ _) decoders
    · exact follows_stored (fun _ => .inl) (within_receiveClipboards (fun _ => rfl) _ _) decoders
    · exact hstay

/-! ### The feed task -/

theorem follows_submitted {p : Program Outcome} (hp : Within submitAccess p) :
    Follows feedSight FeedResult (feedAt .idle) p := by
  refine hp.follows (fun a ha => ?_) (fun a answer ha => ?_) fun _ => ⟨rfl, .inl rfl⟩
  · refine ⟨rfl, ?_⟩
    cases a <;> first | exact feedAccess_of_submit ha | cases ha
  · cases a with
    | closeDecoder => cases answer <;> rfl
    | isCancelled => cases answer <;> rfl
    | recvVideo | openDecoder | setContract => cases ha
    | _ => rfl

/-- The feed task publishes the geometry of the record it has taken, and only
when the record needs a new decoder. -/
theorem follows_feedTurn : Follows feedSight FeedResult (feedAt .idle) feedTurn := by
  have hexit : ∀ result, Follows feedSight FeedResult (feedAt .idle) (exitFeed result) :=
    fun result => follows_submitted (within_exitFeed result)
  have hsubmit : ∀ record frames,
      Follows feedSight FeedResult (feedAt .idle) (submitFrames record frames) :=
    fun record frames => follows_submitted (within_submitFrames record frames)
  refine ⟨⟨rfl, rfl⟩, fun arrival => ?_⟩
  cases arrival with
  | cancelled | closed => exact hexit _
  | stopped error => exact hexit _
  | record record =>
    refine ⟨⟨rfl, rfl⟩, fun contract => ?_⟩
    dsimp only [Prog.bind]
    split
    -- the contract of the decoder that is open
    · rename_i hcontract
      have hidle : feedSight.next (feedAt (.taken record)) .contract contract = feedAt .idle := by
        show feedAt (if contract = some record.contract then .idle else .opening record) = _
        rw [if_pos (show contract = some record.contract from hcontract)]
      exact hidle ▸ hsubmit _ _
    · rename_i hcontract
      -- another contract: the old decoder goes before the new one is opened
      have hopening : feedSight.next (feedAt (.taken record)) .contract contract
          = feedAt (.opening record) := by
        show feedAt (if contract = some record.contract then .idle else .opening record) = _
        rw [if_neg (show ¬ contract = some record.contract from hcontract)]
      refine hopening ▸ ⟨⟨rfl, .inl rfl⟩, fun torn => ?_⟩
      cases torn with
      | error error => exact hexit _
      | ok torn =>
        refine ⟨⟨rfl, .inr (.inl rfl)⟩, fun cancelled => ?_⟩
        cases cancelled with
        | true => exact hexit _
        | false =>
          refine ⟨⟨rfl, .inr (.inr rfl)⟩, fun opened => ?_⟩
          cases opened with
          | error error => exact hexit _
          | ok opened =>
            exact ⟨⟨rfl, rfl⟩, fun _ => ⟨⟨rfl, rfl⟩, fun _ => hsubmit _ _⟩⟩

/-! ### What changes geometry and video -/

/-- The accesses that change a geometry, the queued records, the contract or the
set of tasks. -/
inductive Scene : (a : Access) → a.Answer → Prop
  | setGeometry (geometry : Geometry) : Scene (.setGeometry geometry) ()
  | sendVideo (record : VideoRecord) : Scene (.sendVideo record) .sent
  | recvVideo (record : VideoRecord) : Scene .recvVideo (.record record)
  | closeVideo : Scene .closeVideo ()
  | setContract (contract : VideoCodec × Geometry) : Scene (.setContract contract) ()
  | spawn (decoders : Decoders) (source : Geometry) : Scene (.spawn decoders source) ()

/-- Two states that do not differ in what is shown. -/
structure SameScene (s s' : State) : Prop where
  geometry : s'.geometry = s.geometry
  authoritative : s'.authoritative = s.authoritative
  video : s'.video = s.video
  contract : s'.contract = s.contract
  spawned : s'.spawned = s.spawned

theorem sameScene_effect (task : Task) (s : State) {a : Access} {answer : a.Answer}
    (h : ¬ Scene a answer) : SameScene s (effect task s a answer) := by
  cases a with
  | setGeometry geometry => exact absurd (Scene.setGeometry geometry) h
  | setContract contract => exact absurd (Scene.setContract contract) h
  | spawn decoders source => exact absurd (Scene.spawn decoders source) h
  | closeVideo => exact absurd Scene.closeVideo h
  | sendVideo record =>
    match answer, h with
    | .sent, h => exact absurd (Scene.sendVideo record) h
    | .closed, _ | .cancelled, _ => exact ⟨rfl, rfl, rfl, rfl, rfl⟩
  | recvVideo =>
    match answer, h with
    | .record record, h => exact absurd (Scene.recvVideo record) h
    | .stopped _, _ | .closed, _ | .cancelled, _ => exact ⟨rfl, rfl, rfl, rfl, rfl⟩
  | trySend queue message =>
    match answer with
    | .ok () => cases queue <;> exact ⟨rfl, rfl, rfl, rfl, rfl⟩
    | .error _ => exact ⟨rfl, rfl, rfl, rfl, rfl⟩
  | recv queue =>
    match answer with
    | .message e => cases queue <;> exact ⟨rfl, rfl, rfl, rfl, rfl⟩
    | .empty | .closed => exact ⟨rfl, rfl, rfl, rfl, rfl⟩
  | setRemote kind value => cases kind <;> exact ⟨rfl, rfl, rfl, rfl, rfl⟩
  | acquireSlot | acquireBytes | login | sendSecondFactor | send | awaitFirst | joinNext =>
    cases answer <;> exact ⟨rfl, rfl, rfl, rfl, rfl⟩
  | _ => exact ⟨rfl, rfl, rfl, rfl, rfl⟩

/-! ### Queued records -/

/-- The contract of the decoder that is open, kept or not. -/
def Feeding.contract : Feeding → State → Option (VideoCodec × Geometry)
  | .published record, _ => some record.contract
  | _, s => s.contract

/-- A record taken either needs no new decoder, or its geometry is the latest and
no record behind it belongs to the decoder that is open. -/
def Feeding.Shows : Feeding → List VideoRecord → State → Prop
  | .taken record, old, s =>
    s.contract = some record.contract ∨ (s.authoritative = some record.geometry ∧ old = [])
  | .opening record, old, s => s.authoritative = some record.geometry ∧ old = []
  | _, _, _ => True

/-- The queue begins with records of the open decoder; all others have the latest
geometry. -/
def Ordered (feeding : Feeding) (s : State) : Prop :=
  ∃ old new, s.video = old ++ new ∧ (∀ r ∈ old, feeding.contract s = some r.contract) ∧
    (∀ r ∈ new, s.authoritative = some r.geometry) ∧ feeding.Shows old s

theorem Ordered.congr {feeding : Feeding} {s s' : State} (h : Ordered feeding s)
    (hvideo : s'.video = s.video) (hcontract : s'.contract = s.contract)
    (hauth : s'.authoritative = s.authoritative) : Ordered feeding s' := by
  obtain ⟨old, new, hsplit, hold, hnew, hshows⟩ := h
  refine ⟨old, new, hvideo.trans hsplit, fun r hr => ?_, fun r hr => hauth.trans (hnew r hr), ?_⟩
  · have := hold r hr
    cases feeding <;> first | exact this | exact hcontract.trans this
  · cases feeding with
    | taken record =>
      rw [Feeding.Shows, hcontract, hauth]
      exact hshows
    | opening record =>
      rw [Feeding.Shows, hauth]
      exact hshows
    | idle | published => trivial

theorem Ordered.idle {feeding : Feeding} {s : State} (h : Ordered feeding s)
    (hfeeding : ∀ record, feeding ≠ .published record) : Ordered .idle s := by
  obtain ⟨old, new, hsplit, hold, hnew, -⟩ := h
  refine ⟨old, new, hsplit, fun r hr => ?_, hnew, trivial⟩
  have := hold r hr
  cases feeding with
  | published record => exact absurd rfl (hfeeding record)
  | _ => exact this

theorem Ordered.send {feeding : Feeding} {s : State} {record : VideoRecord} (h : Ordered feeding s)
    (hrecord : s.authoritative = some record.geometry) :
    Ordered feeding { s with video := s.video ++ [record] } := by
  obtain ⟨old, new, hsplit, hold, hnew, hshows⟩ := h
  refine ⟨old, new ++ [record], ?_, ?_, fun r hr => ?_, ?_⟩
  · show s.video ++ [record] = _
    rw [hsplit, List.append_assoc]
  · cases feeding <;> exact hold
  · rw [List.mem_append, List.mem_singleton] at hr
    rcases hr with hr | rfl
    · exact hnew r hr
    · exact hrecord
  · cases feeding <;> exact hshows

theorem Ordered.take {s : State} {record : VideoRecord} (h : Ordered .idle s)
    (hhead : s.video.head? = some record) :
    Ordered (.taken record) { s with video := s.video.tail } := by
  obtain ⟨old, new, hsplit, hold, hnew, -⟩ := h
  cases old with
  | nil =>
    rw [List.nil_append] at hsplit
    obtain ⟨rest, hrest⟩ := List.head?_eq_some_iff.mp hhead
    refine ⟨[], s.video.tail, rfl, (fun r hr => nomatch hr), fun r hr => ?_, .inr ⟨?_, rfl⟩⟩
    · exact hnew r (hsplit ▸ List.mem_of_mem_tail hr)
    · refine hnew record ?_
      rw [← hsplit, hrest]
      exact List.mem_cons_self
  | cons first old =>
    rw [hsplit] at hhead
    cases hhead
    refine ⟨old, new, ?_, fun r hr => hold r (List.mem_cons_of_mem _ hr), hnew,
      .inl (hold _ List.mem_cons_self)⟩
    show s.video.tail = _
    rw [hsplit]
    rfl

theorem Ordered.compare {s : State} {record : VideoRecord} (h : Ordered (.taken record) s) :
    Ordered ((Feeding.taken record).after .contract s.contract) s := by
  show Ordered (if s.contract = some record.contract then .idle else .opening record) s
  split
  · exact h.idle fun _ hf => nomatch hf
  · rename_i hcontract
    obtain ⟨old, new, hsplit, hold, hnew, hshows⟩ := h
    exact ⟨old, new, hsplit, hold, hnew, hshows.resolve_left hcontract⟩

/-- Publishing the record's geometry, and keeping its contract. -/
theorem Ordered.publish {s s' : State} {record : VideoRecord} (h : Ordered (.opening record) s)
    (hvideo : s'.video = s.video) (hauth : s'.authoritative = s.authoritative) :
    Ordered (.published record) s' := by
  obtain ⟨old, new, hsplit, -, hnew, -, rfl⟩ := h
  exact ⟨[], new, hvideo.trans hsplit, (fun r hr => nomatch hr),
    fun r hr => hauth.trans (hnew r hr), trivial⟩

theorem Ordered.keep {s : State} {record : VideoRecord} (h : Ordered (.published record) s) :
    Ordered .idle { s with contract := some record.contract } := by
  obtain ⟨old, new, hsplit, hold, hnew, -⟩ := h
  exact ⟨old, new, hsplit, hold, hnew, trivial⟩

/-! ### The invariant -/

/-- The geometry is the latest, and every task that may set one knows why. -/
structure Fresh (run receive feed : Sight) (s : State) : Prop where
  geometry : s.geometry = s.authoritative
  unspawned : run.begun = false → s.spawned = none ∧ run.source = s.authoritative
  spawned : ∀ decoders source, s.spawned = some (decoders, source) → receive.begun = false →
    s.authoritative = some source
  source : receive.begun = true → receive.source = s.authoritative
  asleep : s.spawned = none →
    receive.begun = false ∧ feed.begun = false ∧ feed.feeding = .idle ∧ s.video = []
  video : Ordered feed.feeding s

theorem Fresh.same {run receive feed : Sight} {s s' : State} (h : Fresh run receive feed s)
    (hs : SameScene s s') : Fresh run receive feed s' where
  geometry := by rw [hs.geometry, hs.authoritative, h.geometry]
  unspawned hbegun := by
    rw [hs.spawned, hs.authoritative]
    exact h.unspawned hbegun
  spawned decoders source hspawned hbegun := by
    rw [hs.authoritative]
    exact h.spawned decoders source (hs.spawned ▸ hspawned) hbegun
  source hbegun := by rw [hs.authoritative, h.source hbegun]
  asleep hspawned := by
    rw [hs.video]
    exact h.asleep (hs.spawned ▸ hspawned)
  video := h.video.congr hs.video hs.contract hs.authoritative

/-- Without queued records there is nothing to be ordered. -/
theorem ordered_nil {s : State} (h : s.video = []) : Ordered .idle s :=
  ⟨[], [], h, (fun _ hr => nomatch hr), (fun _ hr => nomatch hr), trivial⟩

/-- The run task sets a geometry, and spawns, only before the others begin. -/
theorem Fresh.runStep {run receive feed : Sight} {s : State} {a : Access} {answer : a.Answer}
    (h : Fresh run receive feed s) (hadmits : runSight.admits run a) :
    Fresh (runSight.next run a answer) receive feed (effect .run s a answer) := by
  by_cases hscene : Scene a answer
  · cases hscene with
    | setGeometry geometry =>
      obtain ⟨hnone, -⟩ := h.unspawned hadmits
      obtain ⟨hreceive, hfeed, hidle, hvideo⟩ := h.asleep hnone
      refine ⟨rfl, fun _ => ⟨hnone, rfl⟩, fun decoders source hspawned => ?_, fun hbegun => ?_,
        fun _ => h.asleep hnone, hidle ▸ ordered_nil hvideo⟩
      · rw [show s.spawned = some (decoders, source) from hspawned] at hnone
        cases hnone
      · rw [hreceive] at hbegun
        cases hbegun
    | spawn decoders source =>
      obtain ⟨hnone, hsource⟩ := h.unspawned hadmits.1
      refine ⟨h.geometry, (fun hbegun => nomatch hbegun), fun decoders' source' hspawned _ => ?_,
        h.source, (fun hspawned => nomatch hspawned), h.video.congr rfl rfl rfl⟩
      cases hspawned
      exact hsource.symm.trans hadmits.2
    | sendVideo | recvVideo | closeVideo | setContract => cases hadmits
  · have hnext : runSight.next run a answer = run := by
      cases a with
      | setGeometry geometry => exact absurd (Scene.setGeometry geometry) hscene
      | spawn decoders source => exact absurd (Scene.spawn decoders source) hscene
      | _ => rfl
    rw [hnext]
    exact h.same (sameScene_effect .run s hscene)

/-- The receive task queues records of the latest geometry; a geometry it sets
while `hsettled` holds makes no queued record a wrong one. -/
theorem Fresh.receiveStep {run receive feed : Sight} {s : State} {a : Access} {answer : a.Answer}
    (h : Fresh run receive feed s) (hadmits : receiveSight.admits receive a)
    (hsettled : ∀ geometry, a = .setGeometry geometry →
      s.geometry = some geometry ∨ Ordered feed.feeding (s.setGeometry .receive geometry)) :
    Fresh run (receiveSight.next receive a answer) feed (effect .receive s a answer) := by
  have hbegun : receive.begun = true := by cases a <;> exact hadmits.1
  have hawake : s.spawned ≠ none := by
    intro hnone
    rw [(h.asleep hnone).1] at hbegun
    cases hbegun
  have hrun : run.begun ≠ false := fun hfalse => hawake (h.unspawned hfalse).1
  by_cases hscene : Scene a answer
  · cases hscene with
    | setGeometry geometry =>
      refine ⟨rfl, fun hfalse => absurd hfalse hrun, fun _ _ _ hfalse => ?_, fun _ => rfl,
        fun hnone => absurd hnone hawake, ?_⟩
      · rw [show receive.begun = false from hfalse] at hbegun
        cases hbegun
      · rcases hsettled geometry rfl with hsame | hordered
        · exact h.video.congr rfl rfl (hsame.symm.trans h.geometry)
        · exact hordered
    | sendVideo record =>
      have hsource : receive.source = some record.geometry := hadmits.2
      refine ⟨h.geometry, fun hfalse => absurd hfalse hrun, h.spawned, h.source,
        fun hnone => absurd hnone hawake, ?_⟩
      exact h.video.send ((h.source hbegun).symm.trans hsource)
    | recvVideo | closeVideo | setContract | spawn => cases hadmits.2
  · have hnext : receiveSight.next receive a answer = receive := by
      cases a with
      | setGeometry geometry => exact absurd (Scene.setGeometry geometry) hscene
      | _ => rfl
    rw [hnext]
    exact h.same (sameScene_effect .receive s hscene)

/-- What the feed task does between the accesses of `Scene`. -/
theorem Ordered.after {feeding : Feeding} {s : State} {a : Access} {answer : a.Answer}
    (h : Ordered feeding s) (hadmits : feeding.admits a) (hallowed : allowed s a answer)
    (hscene : ¬ Scene a answer) : Ordered (feeding.after a answer) s := by
  cases feeding with
  | idle =>
    cases a with
    | recvVideo =>
      cases answer with
      | record record => exact absurd (Scene.recvVideo record) hscene
      | stopped | closed | cancelled => exact h
    | closeDecoder | openDecoder | isCancelled => cases answer <;> exact h
    | _ => exact h
  | taken record =>
    obtain rfl : a = .contract := hadmits
    obtain rfl : answer = s.contract := hallowed
    exact h.compare
  | opening record =>
    have hidle : Ordered .idle s := h.idle fun _ hf => nomatch hf
    cases a with
    | setGeometry geometry => exact absurd (Scene.setGeometry geometry) hscene
    | closeDecoder | openDecoder =>
      cases answer with
      | ok => exact h
      | error => exact hidle
    | isCancelled =>
      cases answer with
      | false => exact h
      | true => exact hidle
    | _ => rcases hadmits with ha | ha | ha <;> cases ha
  | published record =>
    obtain rfl : a = .setContract record.contract := hadmits
    exact absurd (Scene.setContract record.contract) hscene

/-- The feed task publishes only the latest geometry. -/
theorem Fresh.feedStep {run receive feed : Sight} {s : State} {a : Access} {answer : a.Answer}
    (h : Fresh run receive feed s) (hadmits : feedSight.admits feed a)
    (hallowed : allowed s a answer) :
    Fresh run receive (feedSight.next feed a answer) (effect .feed s a answer) := by
  obtain ⟨hbegun, hfeeding⟩ := hadmits
  have hawake : s.spawned ≠ none := by
    intro hnone
    rw [(h.asleep hnone).2.1] at hbegun
    cases hbegun
  -- only the geometry and the queue are left to show
  have hrest : ∀ {s' : State} {feeding : Feeding}, s'.geometry = s'.authoritative →
      s'.authoritative = s.authoritative → s'.spawned = s.spawned → Ordered feeding s' →
      Fresh run receive { feed with feeding := feeding } s' := by
    intro s' feeding hgeometry hauth hspawned hvideo
    refine ⟨hgeometry, fun hfalse => ?_, fun decoders source hs hfalse => ?_, fun htrue => ?_,
      fun hnone => ?_, hvideo⟩
    · rw [hauth, hspawned]
      exact h.unspawned hfalse
    · rw [hauth]
      exact h.spawned decoders source (hspawned ▸ hs) hfalse
    · rw [hauth]
      exact h.source htrue
    · exact absurd (hspawned ▸ hnone) hawake
  have hvideo := h.video
  by_cases hscene : Scene a answer
  · cases hscene with
    | setGeometry geometry =>
      cases hf : feed.feeding with
      | idle => rw [hf] at hfeeding; cases hfeeding
      | taken | published => rw [hf] at hfeeding; cases hfeeding
      | opening record =>
        rw [hf] at hfeeding hvideo
        obtain rfl : geometry = record.geometry := hfeeding
        obtain ⟨-, -, -, -, -, hauth, -⟩ := id hvideo
        refine hrest hauth.symm rfl rfl ?_
        rw [hf]
        exact hvideo.publish rfl rfl
    | recvVideo record =>
      cases hf : feed.feeding with
      | idle =>
        rw [hf] at hvideo
        exact hrest h.geometry rfl rfl (hvideo.take hallowed.2)
      | taken | published => rw [hf] at hfeeding; cases hfeeding
      | opening => rw [hf] at hfeeding; rcases hfeeding with ha | ha | ha <;> cases ha
    | closeVideo =>
      cases hf : feed.feeding with
      | idle =>
        refine hrest h.geometry rfl rfl ?_
        rw [hf]
        exact ordered_nil rfl
      | taken | published => rw [hf] at hfeeding; cases hfeeding
      | opening => rw [hf] at hfeeding; rcases hfeeding with ha | ha | ha <;> cases ha
    | setContract contract =>
      cases hf : feed.feeding with
      | idle | taken => rw [hf] at hfeeding; cases hfeeding
      | opening => rw [hf] at hfeeding; rcases hfeeding with ha | ha | ha <;> cases ha
      | published record =>
        rw [hf] at hfeeding hvideo
        cases hfeeding
        refine hrest h.geometry rfl rfl ?_
        rw [hf]
        exact hvideo.keep
    | sendVideo | spawn =>
      cases hf : feed.feeding with
      | idle | taken | published => rw [hf] at hfeeding; cases hfeeding
      | opening => rw [hf] at hfeeding; rcases hfeeding with ha | ha | ha <;> cases ha
  · have hs := sameScene_effect .feed s hscene
    refine hrest (by rw [hs.geometry, hs.authoritative, h.geometry]) hs.authoritative hs.spawned ?_
    exact (hvideo.after hfeeding hallowed hscene).congr hs.video hs.contract hs.authoritative

theorem Fresh.receiveBegins {run receive feed : Sight} {s : State} {source : Geometry}
    (h : Fresh run receive feed s) (hawake : s.spawned ≠ none)
    (hsource : s.authoritative = some source) : Fresh run (receiveAt source) feed s where
  geometry := h.geometry
  unspawned := h.unspawned
  spawned _ _ _ hfalse := nomatch hfalse
  source _ := hsource.symm
  asleep hnone := absurd hnone hawake
  video := h.video

theorem Fresh.feedBegins {run receive feed : Sight} {s : State} (h : Fresh run receive feed s)
    (hawake : s.spawned ≠ none) (hidle : feed.feeding = .idle) :
    Fresh run receive (feedAt .idle) s where
  geometry := h.geometry
  unspawned := h.unspawned
  spawned := h.spawned
  source := h.source
  asleep hnone := absurd hnone hawake
  video := hidle ▸ h.video

/-! ### When the geometry may change -/

/-- The feed task's own load of its contract answers what it has kept. -/
def Misreads (contract : Option (VideoCodec × Geometry)) : (a : Access) → a.Answer → Prop
  | .contract, answer => answer ≠ contract
  | _, _ => False

def Publishes : Access → Prop
  | .setGeometry _ => True
  | _ => False

/-- The contract of the decoder that is open: the feed task keeps it right after
it has published the geometry. -/
def openContract (c : Config Access.Answer Outcome State Task) : Option (VideoCodec × Geometry) :=
  match c.threads .feed with
  | .access (.setContract contract) _ => some contract
  | _ => c.shared.contract

/-- The receive task takes over another geometry only while the feed task is not
about to publish one and no queued record needs a new decoder. -/
def SwitchesSettled (c : Config Access.Answer Outcome State Task)
    (l : Label Access.Answer Task) : Prop :=
  ∀ geometry, l = .access .receive (.setGeometry geometry) () →
    c.shared.geometry ≠ some geometry →
    Checked (Misreads c.shared.contract) Publishes (c.threads .feed) ∧
      ∀ record ∈ c.shared.video, openContract c = some record.contract

/-- While a decoder is being opened, the feed task is about to publish. -/
theorem opening_publishes {contract : Option (VideoCodec × Geometry)} {record : VideoRecord}
    {g : Sight} {p : Program Outcome} (h : Follows feedSight FeedResult g p)
    (hg : g.feeding = .opening record) : ¬ Checked (Misreads contract) Publishes p := by
  induction p generalizing g with
  | ret outcome =>
    have hidle : g.feeding = .idle := h.1
    rw [hg] at hidle
    cases hidle
  | access a rest ih =>
    intro hchecked
    obtain ⟨⟨-, hadmits⟩, hrest⟩ := h
    rw [hg] at hadmits
    -- the answer that lets the task go on leaves it opening the decoder
    have hgo : ∀ answer, (Feeding.opening record).after a answer = .opening record →
        ¬ Misreads contract a answer → False := by
      intro answer hafter hreads
      refine ih answer (hrest answer) ?_ (hchecked.2 answer hreads)
      show g.feeding.after a answer = _
      rw [hg, hafter]
    cases a with
    | setGeometry geometry => exact hchecked.1 trivial
    | closeDecoder => exact hgo (.ok ()) rfl id
    | openDecoder codec width height => exact hgo (.ok ()) rfl id
    | isCancelled => exact hgo false rfl id
    | _ => rcases hadmits with ha | ha | ha <;> cases ha

/-- A record that was taken without being about to publish needs no decoder. -/
theorem taken_matches {contract : Option (VideoCodec × Geometry)} {record : VideoRecord}
    {g : Sight} {p : Program Outcome} (h : Follows feedSight FeedResult g p)
    (hg : g.feeding = .taken record) (hchecked : Checked (Misreads contract) Publishes p) :
    contract = some record.contract := by
  cases p with
  | ret outcome =>
    have hidle : g.feeding = .idle := h.1
    rw [hg] at hidle
    cases hidle
  | access a rest =>
    obtain ⟨⟨-, hadmits⟩, hrest⟩ := h
    rw [hg] at hadmits
    obtain rfl : a = .contract := hadmits
    by_contra hne
    have hopening : (feedSight.next g .contract contract).feeding = .opening record := by
      show g.feeding.after .contract contract = _
      rw [hg]
      exact if_neg hne
    exact opening_publishes (hrest contract) hopening
      (hchecked.2 contract fun hmis => hmis rfl)

/-- The contract of the open decoder, as the feed task's ghost state has it. -/
theorem openContract_eq {c : Config Access.Answer Outcome State Task} {g : Sight}
    (h : Follows feedSight FeedResult g (c.threads .feed)) :
    openContract c = g.feeding.contract c.shared := by
  rw [openContract]
  cases hp : c.threads .feed with
  | ret outcome =>
    rw [hp] at h
    rw [show g.feeding = .idle from h.1]
    rfl
  | access a rest =>
    rw [hp] at h
    obtain ⟨⟨-, hadmits⟩, -⟩ := h
    cases hg : g.feeding with
    | idle =>
      rw [hg] at hadmits
      cases a <;> first | rfl | cases hadmits
    | taken record =>
      rw [hg] at hadmits
      obtain rfl : a = .contract := hadmits
      rfl
    | opening record =>
      rw [hg] at hadmits
      cases a with
      | setContract contract => rcases hadmits with ha | ha | ha <;> cases ha
      | _ => rfl
    | published record =>
      rw [hg] at hadmits
      obtain rfl : a = .setContract record.contract := hadmits
      rfl

/-- A geometry may change when no record that is taken or queued needs a new
decoder. -/
theorem ordered_switch {c : Config Access.Answer Outcome State Task} {g : Sight}
    (h : Follows feedSight FeedResult g (c.threads .feed))
    (hchecked : Checked (Misreads c.shared.contract) Publishes (c.threads .feed))
    (hqueue : ∀ record ∈ c.shared.video, openContract c = some record.contract)
    (geometry : Geometry) : Ordered g.feeding (c.shared.setGeometry .receive geometry) := by
  refine ⟨c.shared.video, [], (List.append_nil _).symm, fun record hrecord => ?_,
    (fun _ hr => nomatch hr), ?_⟩
  · rw [← hqueue record hrecord, openContract_eq h]
    cases g.feeding <;> rfl
  · cases hg : g.feeding with
    | idle | published => trivial
    | taken record => exact .inl (taken_matches h hg hchecked)
    | opening record => exact absurd hchecked (opening_publishes h hg)

/-! ### Every run -/

theorem tracked_sight (setup : Setup) :
    Tracked (engine setup) SwitchesSettled sight SightResult
      (fun g s => Fresh (g .run) (g .receive) (g .feed) s) where
  access := by
    rintro c g task a rest answer s' hC - hfollows hI hadmits ⟨hallowed, rfl⟩
    cases task with
    | run =>
      simp only [Function.update_self, Function.update_of_ne, ne_eq, reduceCtorEq,
        not_false_eq_true]
      exact hI.runStep hadmits
    | receive =>
      have hsettled : ∀ geometry, a = .setGeometry geometry →
          c.shared.geometry = some geometry ∨
            Ordered (g .feed).feeding (c.shared.setGeometry .receive geometry) := by
        rintro geometry rfl
        by_cases hsame : c.shared.geometry = some geometry
        · exact .inl hsame
        · obtain ⟨hchecked, hqueue⟩ := hC geometry rfl hsame
          exact .inr (ordered_switch (hfollows .feed) hchecked hqueue geometry)
      simp only [Function.update_self, Function.update_of_ne, ne_eq, reduceCtorEq,
        not_false_eq_true]
      exact hI.receiveStep hadmits hsettled
    | feed =>
      simp only [Function.update_self, Function.update_of_ne, ne_eq, reduceCtorEq,
        not_false_eq_true]
      exact hI.feedStep hadmits hallowed
    | write | caller =>
      have hscene : ¬ Scene a answer := by
        intro hscene
        cases hscene <;> cases hadmits
      simp only [Function.update_of_ne, ne_eq, reduceCtorEq, not_false_eq_true]
      exact hI.same (sameScene_effect _ c.shared hscene)
  start := by
    intro g s task outcome program hI hresult hstart
    have hprogram := start_within hstart
    cases task with
    | run =>
      -- the run task begins nothing once it has spawned the others
      have hbegun : (g .run).begun = false := by
        rcases hresult with ⟨result, rfl⟩ | hbegun
        · cases hstart
        · exact hbegun
      refine ⟨g .run, ?_, by rwa [Function.update_eq_self]⟩
      have hlogin := followsLogin_sight setup hbegun
      cases hstart with
      | run => exact hlogin.runStart
      | confirm => exact hlogin.confirmTurn _
      | authenticate => exact hlogin.authTurn _ (fun _ _ => trivial) _
    | receive =>
      have hbegins : ∀ source, s.spawned ≠ none → s.authoritative = some source →
          Fresh (Function.update g .receive (receiveAt source) .run)
            (Function.update g .receive (receiveAt source) .receive)
            (Function.update g .receive (receiveAt source) .feed) s := by
        intro source hawake hsource
        simp only [Function.update_self, Function.update_of_ne, ne_eq, reduceCtorEq,
          not_false_eq_true]
        exact hI.receiveBegins hawake hsource
      cases hstart with
      | spawnReceive hspawned =>
        refine ⟨receiveAt _, follows_receiveTurn setup _ _, hbegins _ ?_ ?_⟩
        · rw [hspawned]
          exact Option.some_ne_none _
        · exact hI.spawned _ _ hspawned hresult
      | receive =>
        refine ⟨receiveAt _, follows_receiveTurn setup _ _, hbegins _ ?_ ?_⟩
        · exact fun hnone => absurd ((hI.asleep hnone).1.symm.trans hresult.1) (by decide)
        · exact (hI.source hresult.1).symm.trans hresult.2
    | feed =>
      obtain ⟨hidle, hbegun⟩ := hresult
      have hawake : s.spawned ≠ none := by
        intro hnone
        cases hstart with
        | spawnFeed hsome =>
          rw [hnone] at hsome
          cases hsome
        | feed =>
          rcases hbegun with hbegun | hwaiting
          · exact absurd ((hI.asleep hnone).2.1.symm.trans hbegun) (by decide)
          · cases hwaiting
      refine ⟨feedAt .idle, ?_, ?_⟩
      · cases hstart with
        | spawnFeed | feed => exact follows_feedTurn
      · simp only [Function.update_self, Function.update_of_ne, ne_eq, reduceCtorEq,
          not_false_eq_true]
        exact hI.feedBegins hawake hidle
    | write =>
      refine ⟨g .write, hprogram.follows (fun _ ha => ha) (fun _ _ _ => rfl) fun _ => trivial, ?_⟩
      rwa [Function.update_eq_self]
    | caller n =>
      refine ⟨g (.caller n), hprogram.follows (fun _ ha => ha) (fun _ _ _ => rfl)
        fun _ => trivial, ?_⟩
      rwa [Function.update_eq_self]

theorem fresh_initial (setup : Setup) :
    Followed sight SightResult (fun g s => Fresh (g .run) (g .receive) (g .feed) s)
      (initial setup) := by
  refine ⟨fun _ => unseen, fun task => ?_, rfl, fun _ => ⟨rfl, rfl⟩, (fun _ _ h => nomatch h),
    (fun h => nomatch h), fun _ => ⟨rfl, rfl, rfl, rfl⟩, ordered_nil rfl⟩
  cases task with
  | run => exact .inr rfl
  | receive => exact rfl
  | feed => exact ⟨rfl, .inr rfl⟩
  | write | caller => exact trivial

/-- **The geometry that input is placed on is the peer's latest**, in a run whose
geometry changes only while no record that was taken or queued needs a new
decoder. -/
theorem geometry_fresh {setup : Setup} {c : Config Access.Answer Outcome State Task}
    {ls : List (Label Access.Answer Task)}
    (hrun : Run (Where (Step (engine setup)) SwitchesSettled) (initial setup) ls c) :
    c.shared.geometry = c.shared.authoritative := by
  obtain ⟨g, -, hI⟩ := (tracked_sight setup).run hrun (fresh_initial setup)
  exact hI.geometry

theorem settled_calm (c : Config Access.Answer Outcome State Task)
    (l : Label Access.Answer Task) (h : Calm l) : SwitchesSettled c l := by
  rintro geometry rfl
  exact absurd rfl h

/-- The first record of a session has its decoder opened, and then the receive task has taken
a switch to the second display. -/
theorem leads_switching : ∃ c : Config Access.Answer Outcome State Task,
    Leads Calm sampleSetup (initial sampleSetup) c ∧ c.shared.video = [] ∧
      (∀ contract, Checked (Misreads contract) Publishes (c.threads .feed)) ∧
      c.threads .receive = .access (.setGeometry otherGeometry) fun _ =>
        .ret (.receiving sampleDecoders otherGeometry) := by
  have received := leads_sampleSession.turn rfl (Start.spawnReceive rfl) trivial
    (alone_sampleVideo rfl (by decide) (by decide) rfl (by decide))
  have published := received.turn rfl (Start.spawnFeed rfl) trivial
    (alone_publish rfl rfl (by decide))
  have switching := published.turn rfl (Start.receive _ _ _) trivial
    (.access (.message (.ofMisc (.switchDisplay
      { display := 1, x := 1920, width := 1280, height := 720 }))) ⟨rfl, rfl⟩ trivial (.refl _ _))
  refine ⟨_, switching, rfl, fun contract => ⟨id, fun _ _ => ?_⟩, rfl⟩
  exact (within_submitFrames sampleRecord sampleFrames).checked fun a ha => by
    cases a <;> first | rfl | cases ha

/-- Nothing is left to be published when the switch arrives. -/
theorem geometry_fresh_first : ∃ (c : Config Access.Answer Outcome State Task)
    (ls : List (Label Access.Answer Task)),
    Run (Where (Step (engine sampleSetup)) SwitchesSettled) (initial sampleSetup) ls c ∧
      c.shared.geometry = some otherGeometry ∧ c.shared.geometry = c.shared.authoritative := by
  obtain ⟨c, hleads, hvideo, hchecked, hreceive⟩ := leads_switching
  obtain ⟨ls, hrun⟩ := hleads.where settled_calm
  have hsettled : SwitchesSettled c (.access .receive (.setGeometry otherGeometry) ()) := by
    rintro geometry - -
    refine ⟨hchecked _, ?_⟩
    rw [hvideo]
    exact nofun
  have hswitched := hrun.append (.single ⟨hsettled, .access hreceive ⟨trivial, rfl⟩⟩)
  exact ⟨_, _, hswitched, rfl, geometry_fresh hswitched⟩

/-- A record of the first display waits when the peer switches to the second; then
the feed task opens its first decoder. -/
theorem leads_stale : ∃ c : Config Access.Answer Outcome State Task,
    Leads (fun _ => True) sampleSetup (initial sampleSetup) c ∧
      c.shared.geometry = some sampleGeometry ∧ c.shared.authoritative = some otherGeometry := by
  have received := leads_sampleSession.turn rfl (Start.spawnReceive rfl) trivial
    (alone_sampleVideo rfl (by decide) (by decide) rfl (by decide))
  have switched := (received.mono fun _ _ => trivial).turn (Config.set_threads ..)
    (Start.receive _ _ _) trivial (alone_switch rfl)
  have published := switched.turn rfl (Start.spawnFeed rfl) trivial
    ((alone_publish rfl rfl (by decide)).mono fun _ _ => trivial)
  exact ⟨_, published, rfl, rfl⟩

/-- The older geometry is restored. -/
theorem geometry_stale : ¬ ∀ (setup : Setup) (c : Config Access.Answer Outcome State Task)
    (ls : List (Label Access.Answer Task)), Run (Step (engine setup)) (initial setup) ls c →
    c.shared.geometry = c.shared.authoritative := by
  intro h
  obtain ⟨c, hleads, hgeometry, hauth⟩ := leads_stale
  obtain ⟨ls, hrun⟩ := hleads.run
  have := h sampleSetup c ls hrun
  rw [hgeometry, hauth] at this
  exact absurd this (by decide)

end Viewer

end RdEngine
