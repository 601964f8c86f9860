/-
RdEngine/Platform/KeyUnits.lean

What the pump of the screen publisher puts into a packet.

`Step` does not show what the encoder delivered: it is what the SDK answers when
a buffer is examined.  `Watched` is the same relation with these answers beside
the label, and every run is a watched one (`watched_of_run`).

Along a watched run the parameters hold the last set of each kind that was seen,
and the bytes of the outputs since the last packet (`Gathered`), until one of
them is a picture; then what is to be queued is all of these, with the sets
before the picture if decoding can begin at it (`Assembled`).
-/
import RdEngine.Platform.AnnexB
import RdEngine.Platform.PublisherCredit

namespace RdEngine

namespace OhosPublisher

open Lts

/-! ### The units of some bytes -/

open Classical in
/-- The units some bytes fall into, if they do. -/
noncomputable def units (data : Bytes) : List Bytes :=
  if h : ∃ us, Units us ∧ us.flatten = data then h.choose else []

theorem units_eq {us : List Bytes} {data : Bytes} (hus : Units us) (h : us.flatten = data) :
    units data = us := by
  have hex : ∃ us, Units us ∧ us.flatten = data := ⟨us, hus, h⟩
  rw [units, dif_pos hex]
  exact units_unique hex.choose_spec.1 hus (hex.choose_spec.2.trans h.symm)

theorem units_nil : units [] = [] := @units_eq [] [] trivial rfl

/-- The last parameter set of a kind among some units. -/
def latestSet (codec : Codec) (slot : Fin 3) (us : List Bytes) : Option Bytes :=
  Latest.latest (setOf codec) (some slot) us

/-- The sets a picture of the codec needs. -/
def slots : Codec → List (Fin 3)
  | .h264 => [1, 2]
  | .h265 => [0, 1, 2]

theorem latestSet_append (codec : Codec) (slot : Fin 3) (us vs : List Bytes) :
    latestSet codec slot (us ++ vs)
      = ((latestSet codec slot vs).map some).getD (latestSet codec slot us) := by
  induction vs using List.reverseRecOn with
  | nil =>
    rw [List.append_nil]
    rfl
  | append_singleton vs unit ih =>
    unfold latestSet at ih ⊢
    rw [← List.append_assoc, Latest.latest_snoc, Latest.latest_snoc, ih]
    split
    · rfl
    · rfl

/-! ### What the encoder delivered -/

/-- What happened in a step, and what was read of the encoder. -/
abbrev Happening := Label × Option OutputAnswers

/-- A step, with what the pump reads of the encoder in it. -/
inductive Watched (config : PublisherConfig) : Publisher → Happening → Publisher → Prop
  | examines {p : Publisher} {buffer : Buffer} {sdk : OutputAnswers}
      (hpump : p.pump = .holding buffer) :
      Watched config p (.examines, some sdk)
        { p with
          pump := .found buffer (examine config p.parameters buffer sdk)
          parameters := (examine config p.parameters buffer sdk).parameters p.parameters }
  | other {p p' : Publisher} {l : Label} (hstep : Step config p l p') (hl : l ≠ .examines) :
      Watched config p (l, none) p'

theorem Watched.step {config : PublisherConfig} {p p' : Publisher} {e : Happening}
    (h : Watched config p e p') : Step config p e.1 p' := by
  cases h with
  | examines hpump => exact .examines hpump
  | other hstep => exact hstep

theorem Step.watched {config : PublisherConfig} {p p' : Publisher} {l : Label}
    (h : Step config p l p') : ∃ o, Watched config p (l, o) p' := by
  by_cases hl : l = .examines
  · subst hl
    cases h with
    | examines hpump => exact ⟨_, .examines hpump⟩
  · exact ⟨none, .other h hl⟩

/-- Every run is a watched one. -/
theorem watched_of_run {config : PublisherConfig} {p p' : Publisher} {ls : List Label}
    (h : Run (Step config) p ls p') :
    ∃ es, es.map Prod.fst = ls ∧ Run (Watched config) p es p' := by
  induction h with
  | nil p => exact ⟨[], rfl, .nil p⟩
  | cons hstep _ ih =>
    obtain ⟨o, hwatched⟩ := hstep.watched
    obtain ⟨es, rfl, hrun⟩ := ih
    exact ⟨(_, o) :: es, rfl, .cons hwatched hrun⟩

/-- The outputs that were examined. -/
def outputs (es : List Happening) : List OutputAnswers := es.filterMap Prod.snd

/-- The units of all of them. -/
noncomputable def seen (es : List Happening) : List Bytes :=
  (outputs es).flatMap fun output => units output.data

/-- The outputs that were examined since the last packet. -/
def sincePacket : List Happening → List OutputAnswers :=
  List.foldl (fun outputs e => if e.1.queued.isSome then [] else outputs ++ e.2.toList) []

theorem seen_snoc (es : List Happening) (l : Label) (o : Option OutputAnswers) :
    seen (es ++ [(l, o)]) = seen es ++ o.toList.flatMap fun output => units output.data := by
  unfold seen outputs
  rw [filterMap_snoc, List.flatMap_append]

theorem sincePacket_snoc (es : List Happening) (e : Happening) :
    sincePacket (es ++ [e])
      = if e.1.queued.isSome then [] else sincePacket es ++ e.2.toList := by
  unfold sincePacket
  rw [List.foldl_append]
  rfl

/-! ### Examining an output -/

/-- The bytes of an output are units, and the parameters have seen them. -/
structure Sees (codec : Codec) (p : Parameters) (data : Bytes) (p' : Parameters) : Prop where
  units : Units (units data)
  whole : (OhosPublisher.units data).flatten = data
  sets : ∀ slot, p'.sets slot
    = ((latestSet codec slot (OhosPublisher.units data)).map some).getD (p.sets slot)

theorem sees_nil (codec : Codec) (p : Parameters) : Sees codec p [] p := by
  refine ⟨?_, ?_, fun slot => ?_⟩
  · rw [units_nil]
    trivial
  · rw [units_nil]
    rfl
  · rw [units_nil]
    rfl

/-- The picture made of an output. -/
structure Makes (config : PublisherConfig) (p p' : Parameters) (sdk : OutputAnswers)
    (picture : Picture) : Prop where
  sees : Sees config.codec p sdk.data p'
  vcl : ∃ unit ∈ units sdk.data, Vcl config.codec unit
  key : picture.key = true ↔ ∃ unit ∈ units sdk.data, RandomAccess config.codec unit
  pending : p'.pending = p.pending
  owned : picture.owned = p.pending ++ (if picture.key then p'.prepend else []) ++ sdk.data
  complete : picture.key = true → ∀ slot ∈ slots config.codec, (p'.sets slot).isSome = true
  length : picture.length ≤ config.maxQueuedBytes

/-- What is found in an output. -/
def Found.Tells (config : PublisherConfig) (p : Parameters) (sdk : OutputAnswers) : Found → Prop
  | .failed _ => True
  | .metadata p' next => next = .ok false → Sees config.codec p sdk.data p'
      ∧ (∀ unit ∈ units sdk.data, ¬ Vcl config.codec unit) ∧ p'.pending = p.pending ++ sdk.data
  | .picture p' image => Makes config p p' sdk image

theorem sees_of_ok {codec : Codec} {p p' : Parameters} {vcl key : Bool} {data : Bytes}
    (h : p.inspect codec data = .ok (p', vcl, key)) :
    Sees codec p data p' ∧ p'.pending = p.pending
      ∧ (vcl = true ↔ ∃ unit ∈ units data, Vcl codec unit)
      ∧ (key = true ↔ ∃ unit ∈ units data, RandomAccess codec unit) := by
  obtain ⟨us, hflatten, hinspected⟩ := inspected_of_ok h
  have heq := units_eq hinspected.units hflatten
  rw [heq]
  refine ⟨⟨?_, ?_, fun slot => ?_⟩, hinspected.pending, hinspected.vcl, hinspected.key⟩
  · rw [heq]
    exact hinspected.units
  · rw [heq]
    exact hflatten
  · rw [heq]
    exact hinspected.sets slot

/-- A key picture has all the sets. -/
theorem complete_of_length {codec : Codec} {p : Parameters} {n : Nat}
    (h : p.length codec = .ok n) : ∀ slot ∈ slots codec, (p.sets slot).isSome = true := by
  cases codec with
  | h264 =>
    obtain ⟨sps, pps, h1, h2, -⟩ := sets_of_length_h264 h
    simp [slots, h1, h2]
  | h265 =>
    obtain ⟨vps, sps, pps, h0, h1, h2, -⟩ := sets_of_length_h265 h
    simp [slots, h0, h1, h2]

theorem Examined.tells {config : PublisherConfig} {p : Parameters} {buffer : Buffer}
    {sdk : OutputAnswers} {found : Found} (h : Examined config p buffer sdk found) :
    found.Tells config p sdk := by
  cases h with
  | failed error => trivial
  | empty hsize =>
    have hdata : sdk.data = [] := List.eq_nil_of_length_eq_zero (by rw [sdk.read, hsize]; rfl)
    intro _
    rw [hdata, units_nil, List.append_nil]
    exact ⟨sees_nil _ _, nofun, rfl⟩
  | ended hinspect =>
    intro hnext
    cases hnext
  | kept hinspect =>
    obtain ⟨hsees, hpending, hvcl, -⟩ := sees_of_ok hinspect
    intro _
    refine ⟨⟨hsees.units, hsees.whole, hsees.sets⟩, ?_, by rw [← hpending]⟩
    intro unit hunit hvclUnit
    exact Bool.false_ne_true (hvcl.mpr ⟨unit, hunit, hvclUnit⟩)
  | @picture p' key eos header hinspect hheader hlength =>
    obtain ⟨hsees, hpending, hvcl, hkey⟩ := sees_of_ok hinspect
    refine ⟨hsees, hvcl.mp rfl, hkey, hpending, ?_, fun htruekey => ?_, hlength⟩
    · rw [hpending]
    · change key = true at htruekey
      rw [htruekey] at hheader
      exact complete_of_length hheader

theorem examine_tells (config : PublisherConfig) (p : Parameters) (buffer : Buffer)
    (sdk : OutputAnswers) : (examine config p buffer sdk).Tells config p sdk :=
  (examine_cases config p buffer sdk).tells

/-! ### Along a run -/

/-- An output without a picture. -/
structure IsMetadata (codec : Codec) (output : OutputAnswers) : Prop where
  units : Units (units output.data)
  whole : (OhosPublisher.units output.data).flatten = output.data
  plain : ∀ unit ∈ OhosPublisher.units output.data, ¬ Vcl codec unit

/-- After the units `us` were seen, the outputs since the last packet are kept. -/
structure Gathered (config : PublisherConfig) (us : List Bytes) (since : List OutputAnswers)
    (p : Parameters) : Prop where
  sets : ∀ slot, p.sets slot = latestSet config.codec slot us
  pending : p.pending = since.flatMap OutputAnswers.data
  metadata : ∀ output ∈ since, IsMetadata config.codec output

/-- After the units `us` were seen, a picture is what was delivered since the last
packet, with the sets that its last output needs before that output. -/
structure Assembled (config : PublisherConfig) (us : List Bytes) (earlier : List OutputAnswers)
    (last : OutputAnswers) (picture : Picture) : Prop where
  metadata : ∀ output ∈ earlier, IsMetadata config.codec output
  units : Units (units last.data)
  whole : (OhosPublisher.units last.data).flatten = last.data
  vcl : ∃ unit ∈ OhosPublisher.units last.data, Vcl config.codec unit
  key : picture.key = true ↔ ∃ unit ∈ OhosPublisher.units last.data, RandomAccess config.codec unit
  complete : picture.key = true →
    ∀ slot ∈ slots config.codec, (latestSet config.codec slot us).isSome = true
  owned : picture.owned = earlier.flatMap OutputAnswers.data
    ++ (if picture.key then
        (slots config.codec).flatMap fun slot => (latestSet config.codec slot us).getD []
      else [])
    ++ last.data
  size : picture.owned.length ≤ config.maxQueuedBytes

/-- The pump has no picture, and may get one. -/
def Pump.Gathers : Pump → Prop
  | .selecting | .settingRate | .askingKeyframe none | .holding _ | .freeing _ (.ok false) => True
  | _ => False

/-- What the pump carries. -/
structure Carries (config : PublisherConfig) (us : List Bytes) (since : List OutputAnswers)
    (pump : Pump) (p : Parameters) : Prop where
  gathers : pump.Gathers → Gathered config us since p
  ready : ∀ picture, pump.picture = some picture →
    (∀ slot, p.sets slot = latestSet config.codec slot us)
      ∧ ∃ earlier last, since = earlier ++ [last] ∧ Assembled config us earlier last picture

section

variable {config : PublisherConfig} {us : List Bytes} {since : List OutputAnswers} {pump : Pump}
  {p p' : Parameters} {picture : Picture} {sdk : OutputAnswers}

theorem carries_done (result : Except PublisherError Unit) :
    Carries config us since (.done result) p := ⟨nofun, nofun⟩

theorem Gathered.carries (h : Gathered config us since p) (hpump : pump.picture = none) :
    Carries config us since pump p :=
  ⟨fun _ => h, fun _ hpicture => absurd (hpump.symm.trans hpicture) nofun⟩

theorem Carries.retains (h : Carries config us since pump p) {pump' : Pump}
    (hpicture : pump.picture = some picture) (hpicture' : pump'.picture = some picture) :
    Carries config us since pump' p := by
  refine ⟨fun hgathers => ?_, fun picture' hsome => ?_⟩
  · cases pump' with
    | askingKeyframe waiting =>
      obtain rfl : waiting = some picture := hpicture'
      exact hgathers.elim
    | waiting | copying | copied => exact hgathers.elim
    | selecting | settingRate | holding | freeing | done => cases hpicture'
  · obtain rfl := Option.some.inj (hpicture'.symm.trans hsome)
    exact h.ready picture hpicture

/-- What is seen on top of what is known. -/
theorem Gathered.sees (h : Gathered config us since p) (hsees : Sees config.codec p sdk.data p')
    (slot : Fin 3) :
    p'.sets slot = latestSet config.codec slot (us ++ units sdk.data) := by
  rw [hsees.sets, h.sets, latestSet_append]

/-- Metadata is kept for the next picture. -/
theorem Gathered.metadata_snoc (h : Gathered config us since p)
    (hsees : Sees config.codec p sdk.data p')
    (hplain : ∀ unit ∈ units sdk.data, ¬ Vcl config.codec unit)
    (hpending : p'.pending = p.pending ++ sdk.data) :
    Gathered config (us ++ units sdk.data) (since ++ [sdk]) p' where
  sets := h.sees hsees
  pending := by
    rw [hpending, h.pending, List.flatMap_append, List.flatMap_singleton]
  metadata := by
    intro output houtput
    rcases List.mem_append.mp houtput with hold | hnew
    · exact h.metadata output hold
    · obtain rfl := List.mem_singleton.mp hnew
      exact ⟨hsees.units, hsees.whole, hplain⟩

theorem prepend_eq {codec : Codec} (hfits : p.Fits codec) :
    p.prepend = (slots codec).flatMap fun slot => (p.sets slot).getD [] := by
  cases codec with
  | h264 =>
    have hnone : p.sets 0 = none := hfits rfl
    simp [Parameters.prepend, slots, hnone]
  | h265 => rfl

/-- A picture is put together of what was kept. -/
theorem Gathered.assembled (h : Gathered config us since p) (hmakes : Makes config p p' sdk picture)
    (hfits : p'.Fits config.codec) (hwhole : picture.Whole) :
    Assembled config (us ++ units sdk.data) since sdk picture where
  metadata := h.metadata
  units := hmakes.sees.units
  whole := hmakes.sees.whole
  vcl := hmakes.vcl
  key := hmakes.key
  complete := by
    intro hkey slot hslot
    rw [← h.sees hmakes.sees]
    exact hmakes.complete hkey slot hslot
  owned := by
    simp only [← h.sees hmakes.sees, ← h.pending, ← prepend_eq hfits]
    exact hmakes.owned
  size := hwhole.trans_le hmakes.length

end

section

variable {config : PublisherConfig} {es : List Happening} {p p' : Publisher} {e : Happening}

/-- The next output is examined. -/
theorem Gathered.examined {us : List Bytes} {since : List OutputAnswers}
    (h : Gathered config us since p.parameters) (hfits : p.parameters.Fits config.codec)
    (buffer : Buffer) (sdk : OutputAnswers) :
    Carries config (us ++ units sdk.data) (since ++ [sdk])
      (.found buffer (examine config p.parameters buffer sdk))
      ((examine config p.parameters buffer sdk).parameters p.parameters) := by
  have htells := examine_tells config p.parameters buffer sdk
  have hsound : (examine config p.parameters buffer sdk).Sound config buffer := examine_sound hfits
  cases hfound : examine config p.parameters buffer sdk with
  | failed error => exact carries_done _
  | metadata parameters next =>
    rw [hfound] at htells
    refine ⟨fun hgathers => ?_, nofun⟩
    have hnext : next = .ok false := by
      rcases next with error | eos
      · exact hgathers.elim
      · cases eos with
        | true => exact hgathers.elim
        | false => rfl
    obtain ⟨hsees, hplain, hpending⟩ := htells hnext
    exact h.metadata_snoc hsees hplain hpending
  | picture parameters picture =>
    rw [hfound] at htells hsound
    have hassembled := h.assembled htells hsound.1 hsound.2.1
    refine ⟨fun hgathers => hgathers.elim, fun picture' hpicture => ?_⟩
    cases hpicture
    exact ⟨h.sees htells.sees, since, sdk, rfl, hassembled⟩

/-- A step in which no output is examined, and no packet is queued. -/
theorem Carries.step_quiet {l : Label} {us : List Bytes} {since : List OutputAnswers}
    (h : Carries config us since p.pump p.parameters) (hstep : Step config p l p')
    (hl : l ≠ .examines) (hqueued : l.queued = none) :
    Carries config us since p'.pump p'.parameters := by
  have hgathers : ∀ {pump : Pump}, p.pump = pump → pump.Gathers →
      Gathered config us since p.parameters := fun hpump hgather => h.gathers (hpump ▸ hgather)
  cases hstep with
  | selects hpump | setsRate hpump | asked hpump =>
    exact (hgathers hpump trivial).carries (Pump.picture_selected _).1
  | @frees buffer next code hpump =>
    refine ⟨fun hgather => ?_, fun picture hpicture => ?_⟩
    · refine hgathers hpump ?_
      -- the pump goes on only if the buffer was freed, and it was to go on
      generalize check "OH_VideoEncoder_FreeOutputBuffer" code = freed at hgather
      rcases freed with error | done
      · exact hgather.elim
      · rcases next with error | eos
        · exact hgather.elim
        · cases eos with
          | true => exact hgather.elim
          | false => trivial
    · exact absurd ((Pump.picture_freed _ _).1.symm.trans hpicture) nofun
  | @charges picture hpump =>
    show Carries config us since (Pump.credited picture (p.shared.charge config picture).2) _
    cases (p.shared.charge config picture).2 with
    | stop => exact carries_done _
    | askKeyframe | waits | charged =>
      exact h.retains (show p.pump.picture = some picture by rw [hpump]; rfl) rfl
  | @askedWaiting picture hpump | @copies picture code hpump =>
    exact h.retains (show p.pump.picture = some picture by rw [hpump]; rfl) rfl
  | setRateFails | askFails | givesUp => exact carries_done _
  | examines => exact absurd rfl hl
  | queues => cases hqueued
  | output | captureState | fail | requestClose | requestKeyframe | clear | recv | receives
  | drops => exact h

theorem seen_quiet {l : Label} : seen (es ++ [(l, none)]) = seen es := by
  rw [seen_snoc]
  exact List.append_nil _

/-- The packet is queued, and nothing is kept any longer. -/
theorem Carries.queued {picture : Picture} {us : List Bytes} {since : List OutputAnswers}
    {pump : Pump} {q : Parameters} (h : Carries config us since pump q)
    (hpicture : pump.picture = some picture) :
    Gathered config us [] { q with pending := [] } :=
  ⟨(h.ready picture hpicture).1, rfl, nofun⟩

theorem Carries.step (h : Carries config (seen es) (sincePacket es) p.pump p.parameters)
    (hfits : p.parameters.Fits config.codec) (hstep : Watched config p e p') :
    Carries config (seen (es ++ [e])) (sincePacket (es ++ [e])) p'.pump p'.parameters := by
  cases hstep with
  | @examines buffer sdk hpump =>
    have hseen : seen (es ++ [(.examines, some sdk)]) = seen es ++ units sdk.data := by
      rw [seen_snoc, Option.toList_some, List.flatMap_singleton]
    rw [sincePacket_snoc, hseen]
    exact (h.gathers (by rw [hpump]; trivial)).examined hfits buffer sdk
  | @other _ l hstep hl =>
    rw [sincePacket_snoc, seen_quiet]
    cases hqueued : l.queued with
    | none =>
      show Carries config (seen es) (sincePacket es ++ []) _ _
      rw [List.append_nil]
      exact h.step_quiet hstep hl hqueued
    | some picture =>
      cases hstep with
      | @queues picture freed hpump hgives =>
        refine (h.queued (show p.pump.picture = some picture by rw [hpump]; rfl)).carries ?_
        dsimp only
        split <;> rfl
      | _ => cases hqueued

/-- Whatever was examined, the pump carries it. -/
theorem carries_run (hrun : Run (Watched config) .opened es p) :
    Carries config (seen es) (sincePacket es) p.pump p.parameters ∧ Whole config p := by
  refine hrun.history (P := fun es p => Carries config (seen es) (sincePacket es) p.pump p.parameters
    ∧ Whole config p) ?_ ⟨?_, fun _ => rfl, nofun⟩
  · rintro es p e p' ⟨hcarries, hwhole⟩ hstep
    exact ⟨hcarries.step hwhole.parameters hstep, hwhole.step hstep.step⟩
  · exact Gathered.carries ⟨fun _ => rfl, rfl, nofun⟩ rfl

end

/-- **Units and packets**: what `inspect` accepts are units, and what it says of them is
true; and in every run of the publisher a packet is all that was delivered since the
packet before, with the parameter sets seen last before a picture at which decoding can
begin. -/
theorem units_assembled :
    (∀ (codec : Codec) (p : Parameters) (data : Bytes),
      (∃ error, p.inspect codec data = .error error) ∨
      ∃ p' vcl key us, p.inspect codec data = .ok (p', vcl, key)
        ∧ us.flatten = data ∧ Inspected codec p us p' vcl key)
    ∧ ∀ (config : PublisherConfig) (before after : List Happening) (picture : Picture)
      (o : Option OutputAnswers) (p : Publisher),
      Run (Watched config) .opened (before ++ (.queues picture, o) :: after) p →
      ∃ earlier last, sincePacket before = earlier ++ [last]
        ∧ Assembled config (seen before) earlier last picture := by
  refine ⟨fun codec p data => ?_, fun config before after picture o p hrun => ?_⟩
  · cases h : p.inspect codec data with
    | error error => exact .inl ⟨error, rfl⟩
    | ok found =>
      obtain ⟨us, hflatten, hinspected⟩ := inspected_of_ok h
      exact .inr ⟨found.1, found.2.1, found.2.2, us, rfl, hflatten, hinspected⟩
  · obtain ⟨q, hbefore, hafter⟩ := hrun.split
    have hcarries := (carries_run hbefore).1
    cases hafter with
    | cons hstep hrest =>
      cases hstep with
      | other hstep hl =>
        cases hstep with
        | queues hpump hgives => exact (hcarries.ready picture (by rw [hpump]; rfl)).2

/-! #### A key picture after its sets -/

def keyConfig : PublisherConfig := ⟨.h264, 1280, 720, 30, 1000, 1, 64⟩

def setsAnswers : OutputAnswers := ⟨0, 0, 8, 0, 8, 8, 1, [0, 0, 1, 0x67, 0, 0, 1, 0x68], rfl⟩

def keyAnswers : OutputAnswers := ⟨0, 40, 4, 0, 0, 4, 1, [0, 0, 1, 0x65], rfl⟩

/-- The parameters after the sets, which are kept as well. -/
def setsSeen (pending : Bytes) : Parameters :=
  ⟨Function.update (Function.update (fun _ => none) 1 (some [0, 0, 1, 0x67])) 2
    (some [0, 0, 1, 0x68]), pending⟩

def keyPicture : Picture :=
  ⟨⟨8, 2⟩, [0, 0, 1, 0x67, 0, 0, 1, 0x68] ++ [0, 0, 1, 0x67, 0, 0, 1, 0x68] ++ [0, 0, 1, 0x65],
    20, 40, true, false⟩

theorem examine_sets :
    examine keyConfig .empty ⟨7, 1⟩ setsAnswers
      = .metadata (setsSeen setsAnswers.data) (.ok false) := by
  have hinspect : Parameters.empty.inspect .h264 [0, 0, 1, 0x67, 0, 0, 1, 0x68]
      = .ok (setsSeen [], false, false) := by
    rw [Parameters.inspect, if_neg (by decide)]
    simp [Parameters.inspectFrom, startCode, untilStart, Parameters.nal, maxHeader]
    rfl
  simp [examine, check, setsAnswers, keyConfig, hinspect]
  rfl

theorem examine_key :
    examine keyConfig (setsSeen setsAnswers.data) ⟨8, 2⟩ keyAnswers
      = .picture (setsSeen setsAnswers.data) keyPicture := by
  have hinspect : (setsSeen setsAnswers.data).inspect .h264 [0, 0, 1, 0x65]
      = .ok (setsSeen setsAnswers.data, true, true) := by
    rw [Parameters.inspect, if_neg (by decide)]
    simp [Parameters.inspectFrom, startCode, untilStart, Parameters.nal]
    rfl
  have hlength : (setsSeen setsAnswers.data).length .h264 = .ok 8 := rfl
  simp [examine, check, keyAnswers, keyConfig, hinspect, hlength]
  rfl

theorem Watched.finds {config : PublisherConfig} {p : Publisher} {buffer : Buffer}
    {sdk : OutputAnswers} {found : Found} (hpump : p.pump = .holding buffer)
    (hfound : examine config p.parameters buffer sdk = found) :
    Watched config p (.examines, some sdk)
      { p with pump := .found buffer found, parameters := found.parameters p.parameters } := by
  subst hfound
  exact .examines hpump

theorem units_assembled_key : ∃ before p, Run (Watched keyConfig) .opened
      (before ++ (.queues keyPicture, none) :: []) p
    ∧ ∃ earlier last, sincePacket before = earlier ++ [last]
      ∧ Assembled keyConfig (seen before) earlier last keyPicture := by
  have hposted := (Run.single (Watched.other (@Step.captureState keyConfig .opened 0) nofun)).snoc
    (.other (@Step.output keyConfig _ ⟨7, 1⟩) nofun)
  have htaken := (hposted.snoc (.other (.selects rfl) nofun)).snoc (.other (.setsRate rfl) nofun)
  have hsets := htaken.snoc (@Watched.finds keyConfig _ ⟨7, 1⟩ setsAnswers _ rfl examine_sets)
  have hfreed := hsets.snoc (.other (@Step.frees keyConfig _ _ _ 0 rfl) nofun)
  have hagain := (hfreed.snoc (.other (@Step.output keyConfig _ ⟨8, 2⟩) nofun)).snoc
    (.other (.selects rfl) nofun)
  have hkey := hagain.snoc (@Watched.finds keyConfig _ ⟨8, 2⟩ keyAnswers _ rfl examine_key)
  have hcharged := hkey.snoc (.other (@Step.charges keyConfig _ keyPicture rfl) nofun)
  have hcopied := hcharged.snoc (.other (@Step.copies keyConfig _ keyPicture 0 rfl) nofun)
  have hrun := hcopied.snoc (.other (@Step.queues keyConfig _ keyPicture _ rfl rfl) nofun)
  exact ⟨_, _, hrun, units_assembled.2 _ _ _ _ _ _ hrun⟩

end OhosPublisher

end RdEngine
