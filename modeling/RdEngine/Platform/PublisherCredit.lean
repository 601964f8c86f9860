/-
RdEngine/Platform/PublisherCredit.lean

The queue of the screen publisher is a queue with credit.

A picture is charged before it is copied; its packet is queued, taken by the
consumer with the credit, and released by the guard's drop, whenever that is.
The charge is the length that was computed before the copy: it is the length of
the packet, as a stream of the older codec never has a set in the first slot
(`examine_whole`).
-/
import RdEngine.Platform.OhosPublisher
import RdEngine.Lib.Credits
import Mathlib.Algebra.Order.BigOperators.Group.List

namespace RdEngine

namespace OhosPublisher

open Lts

/-! ### The length of a picture -/

/-- The picture's credit is its length. -/
def Picture.Whole (picture : Picture) : Prop := picture.owned.length = picture.length

theorem nal_slot_ne {header : UInt8} {next : Option UInt8} :
    (Parameters.nal .h264 header next).slot ≠ some 0 := by
  unfold Parameters.nal
  dsimp only
  split_ifs <;> simp

/-- Only the newer codec fills the first slot. -/
theorem Parameters.Fits.update {codec : Codec} {p : Parameters} {header : UInt8}
    {next : Option UInt8} {slot : Fin 3} {set : Bytes} (h : p.Fits codec)
    (hslot : (nal codec header next).slot = some slot) :
    Fits codec { p with sets := Function.update p.sets slot (some set) } := by
  rintro rfl
  have hne : (0 : Fin 3) ≠ slot := by
    rintro rfl
    exact nal_slot_ne hslot
  show Function.update p.sets slot (some set) 0 = none
  rw [Function.update_of_ne hne]
  exact h rfl

theorem inspectFrom_fits {codec : Codec} {p : Parameters} {vcl key : Bool} {rest : Bytes}
    {p' : Parameters} {found : Bool × Bool} (hfits : p.Fits codec)
    (h : p.inspectFrom codec vcl key rest = .ok (p', found)) : p'.Fits codec := by
  fun_induction Parameters.inspectFrom codec p vcl key rest with
  | case1 =>
    cases h
    exact hfits
  | case2 | case3 | case5 => cases h
  | case4 p vcl key rest hrest skip hskip length unit hvalid vcl' key' hslot ih => exact ih hfits h
  | case6 p vcl key rest hrest skip hskip length unit hvalid vcl' key' slot hslot hlength ih =>
    exact ih (hfits.update hslot) h

theorem inspect_fits {codec : Codec} {p p' : Parameters} {data : Bytes} {found : Bool × Bool}
    (hfits : p.Fits codec) (h : p.inspect codec data = .ok (p', found)) : p'.Fits codec := by
  unfold Parameters.inspect at h
  split_ifs at h
  exact inspectFrom_fits hfits h

/-- A key picture of the older codec needs two sets. -/
theorem sets_of_length_h264 {p : Parameters} {n : Nat} (h : p.length .h264 = .ok n) :
    ∃ sps pps, p.sets 1 = some sps ∧ p.sets 2 = some pps ∧ n = sps.length + pps.length := by
  unfold Parameters.length at h
  cases h1 : p.sets 1 with
  | none => simp [h1, bind, Except.bind] at h
  | some sps =>
    cases h2 : p.sets 2 with
    | none => simp [h1, h2, List.foldlM, bind, Except.bind] at h
    | some pps =>
      simp [h1, h2, List.foldlM, bind, Except.bind, pure, Except.pure] at h
      exact ⟨sps, pps, rfl, rfl, h.symm⟩

/-- One of the newer codec needs three. -/
theorem sets_of_length_h265 {p : Parameters} {n : Nat} (h : p.length .h265 = .ok n) :
    ∃ vps sps pps, p.sets 0 = some vps ∧ p.sets 1 = some sps ∧ p.sets 2 = some pps ∧
      n = vps.length + sps.length + pps.length := by
  unfold Parameters.length at h
  cases h0 : p.sets 0 with
  | none => simp [h0, bind, Except.bind] at h
  | some vps =>
    cases h1 : p.sets 1 with
    | none => simp [h0, h1, List.foldlM, bind, Except.bind] at h
    | some sps =>
      cases h2 : p.sets 2 with
      | none => simp [h0, h1, h2, List.foldlM, bind, Except.bind] at h
      | some pps =>
        simp [h0, h1, h2, List.foldlM, bind, Except.bind, pure, Except.pure] at h
        exact ⟨vps, sps, pps, rfl, rfl, rfl, h.symm⟩

/-- The sets a key picture needs are the sets there are. -/
theorem length_prepend {codec : Codec} {p : Parameters} {n : Nat} (hfits : p.Fits codec)
    (h : p.length codec = .ok n) : p.prepend.length = n := by
  cases codec with
  | h264 =>
    obtain ⟨sps, pps, h1, h2, rfl⟩ := sets_of_length_h264 h
    simp [Parameters.prepend, hfits rfl, h1, h2]
  | h265 =>
    obtain ⟨vps, sps, pps, h0, h1, h2, rfl⟩ := sets_of_length_h265 h
    simp [Parameters.prepend, h0, h1, h2, Nat.add_assoc]

/-- What an examined buffer has: parameters of the codec, and a picture of its
length. -/
def Found.Sound (config : PublisherConfig) (buffer : Buffer) : Found → Prop
  | .failed _ => True
  | .metadata p _ => p.Fits config.codec
  | .picture p image => p.Fits config.codec ∧ image.Whole ∧ image.buffer = buffer

/-- What `examine` comes to: an error, an output without data, one without a picture that
ends the stream or is kept, or a picture. -/
inductive Examined (config : PublisherConfig) (p : Parameters) (buffer : Buffer)
    (sdk : OutputAnswers) : Found → Prop
  | failed (error : PublisherError) : Examined config p buffer sdk (.failed error)
  | empty {next : Except PublisherError Bool} (hsize : sdk.size = 0) :
      Examined config p buffer sdk (.metadata p next)
  | ended {p' : Parameters} {key : Bool}
      (hinspect : p.inspect config.codec sdk.data = .ok (p', false, key)) :
      Examined config p buffer sdk (.metadata p' (.ok true))
  | kept {p' : Parameters} {key : Bool}
      (hinspect : p.inspect config.codec sdk.data = .ok (p', false, key)) :
      Examined config p buffer sdk
        (.metadata { p' with pending := p'.pending ++ sdk.data } (.ok false))
  | picture {p' : Parameters} {key eos : Bool} {header : Nat}
      (hinspect : p.inspect config.codec sdk.data = .ok (p', true, key))
      (hheader : (if key then p'.length config.codec else .ok 0) = .ok header)
      (hlength : sdk.size.toNat + (header + p'.pending.length) ≤ config.maxQueuedBytes) :
      Examined config p buffer sdk (.picture p'
        { buffer
          owned := p'.pending ++ (if key then p'.prepend else []) ++ sdk.data
          length := sdk.size.toNat + (header + p'.pending.length)
          ptsUs := sdk.ptsUs
          key
          eos })

/-- What `examine` does with an output whose data it has inspected. -/
theorem examined_of_inspect {config : PublisherConfig} {p p' : Parameters} {buffer : Buffer}
    {sdk : OutputAnswers} {vcl key : Bool} (eos : Bool)
    (hinspect : p.inspect config.codec sdk.data = .ok (p', vcl, key)) :
    Examined config p buffer sdk
      (if !vcl then
        if eos then .metadata p' (.ok true)
        else if sdk.size > (maxHeader - p'.pending.length : Nat) then .failed .outputTooLarge
        else .metadata { p' with pending := p'.pending ++ sdk.data } (.ok false)
      else if sdk.flags &&& (4 ||| 16) != 0 then .failed .unexpectedDiscard
      else match (if key then p'.length config.codec else .ok 0) with
      | .error error => .failed error
      | .ok header =>
        if sdk.size.toNat + (header + p'.pending.length) > config.maxQueuedBytes then
          .failed .outputTooLarge
        else
          .picture p'
            { buffer
              owned := p'.pending ++ (if key then p'.prepend else []) ++ sdk.data
              length := sdk.size.toNat + (header + p'.pending.length)
              ptsUs := sdk.ptsUs
              key
              eos }) := by
  cases vcl with
  | false =>
    -- no picture in the buffer: parameter sets, kept for the next picture
    rw [if_pos (show (!false) = true from rfl)]
    split
    · exact .ended hinspect
    · split
      · exact .failed _
      · exact .kept hinspect
  | true =>
    -- a picture, with what was kept for it in front
    rw [if_neg (show ¬ (!true) = true from Bool.false_ne_true)]
    split
    · exact .failed _
    · cases hheader : (if key then p'.length config.codec else .ok 0) with
      | error error => exact .failed error
      | ok header =>
        dsimp only
        split
        · exact .failed _
        · next hlength => exact .picture hinspect hheader (Nat.le_of_not_gt hlength)

theorem examine_cases (config : PublisherConfig) (p : Parameters) (buffer : Buffer)
    (sdk : OutputAnswers) : Examined config p buffer sdk (examine config p buffer sdk) := by
  unfold examine
  by_cases haddress : buffer.address = 0
  · rw [if_pos haddress]
    exact .failed _
  rw [if_neg haddress]
  cases check "OH_AVBuffer_GetBufferAttr" sdk.getBufferAttr with
  | error error => exact .failed error
  | ok =>
    dsimp only
    by_cases hnegative : sdk.offset < 0 ∨ sdk.size < 0
    · rw [if_pos hnegative]
      exact .failed _
    rw [if_neg hnegative]
    by_cases hsize : sdk.size = 0
    · rw [if_pos hsize]
      exact .empty hsize
    rw [if_neg hsize]
    by_cases hlarge : sdk.size > config.maxQueuedBytes
    · rw [if_pos hlarge]
      exact .failed _
    rw [if_neg hlarge]
    by_cases hcapacity : sdk.capacity < 0 ∨ sdk.offset + sdk.size > sdk.capacity
    · rw [if_pos hcapacity]
      exact .failed _
    rw [if_neg hcapacity]
    by_cases hnull : sdk.address = 0
    · rw [if_pos hnull]
      exact .failed _
    rw [if_neg hnull]
    cases hinspect : p.inspect config.codec sdk.data with
    | error error => exact .failed error
    | ok inspected => exact examined_of_inspect _ hinspect

theorem Examined.sound {config : PublisherConfig} {p : Parameters} {buffer : Buffer}
    {sdk : OutputAnswers} {found : Found} (h : Examined config p buffer sdk found)
    (hfits : p.Fits config.codec) : found.Sound config buffer := by
  cases h with
  | failed error => trivial
  | empty => exact hfits
  | ended hinspect => exact inspect_fits hfits hinspect
  | @kept p' key hinspect =>
    have hfits' : p'.Fits config.codec := inspect_fits hfits hinspect
    exact hfits'
  | @picture p' key eos header hinspect hheader =>
    have hfits' : p'.Fits config.codec := inspect_fits hfits hinspect
    refine ⟨hfits', ?_, rfl⟩
    have hprepend : (if key then p'.prepend else []).length = header := by
      cases key with
      | false =>
        cases hheader
        rfl
      | true => exact length_prepend hfits' hheader
    show List.length (p'.pending ++ (if key then p'.prepend else []) ++ sdk.data)
      = sdk.size.toNat + (header + p'.pending.length)
    rw [List.length_append, List.length_append, hprepend, sdk.read]
    omega

theorem examine_sound {config : PublisherConfig} {p : Parameters} {buffer : Buffer}
    {sdk : OutputAnswers} (hfits : p.Fits config.codec) :
    (examine config p buffer sdk).Sound config buffer :=
  (examine_cases config p buffer sdk).sound hfits

theorem Found.Sound.fits {config : PublisherConfig} {buffer : Buffer} {p : Parameters}
    {found : Found} (h : found.Sound config buffer) (hfits : p.Fits config.codec) :
    (found.parameters p).Fits config.codec := by
  cases found with
  | failed => exact hfits
  | metadata => exact h
  | picture => exact h.1

/-! ### Histories -/

/-- The buffer of a queued output. -/
def Label.posted : Label → Option Buffer
  | .output buffer true => some buffer
  | _ => none

/-- The buffer the pump takes. -/
def Label.taken : Label → Option Buffer
  | .selects (.buffer buffer) => some buffer
  | _ => none

/-- The picture the pump queues. -/
def Label.queued : Label → Option Picture
  | .queues picture => some picture
  | _ => none

/-- The unit the consumer receives. -/
def Label.received : Label → Option EncodedUnit
  | .recv (.unit unit) => some unit
  | _ => none

/-- The buffers the encoder delivered, in their order. -/
def posted (es : List Label) : List Buffer := es.filterMap Label.posted

/-- The buffers the pump took in a run. -/
def taken (es : List Label) : List Buffer := es.filterMap Label.taken

def queued (es : List Label) : List Picture := es.filterMap Label.queued

/-- The units received, in their order. -/
def received (es : List Label) : List EncodedUnit := es.filterMap Label.received

/-! ### What the critical sections leave alone -/

/-- The picture the pump holds credit for. -/
def Pump.charged : Pump → Option Picture
  | .copying picture | .copied picture _ => some picture
  | _ => none

/-- The picture the pump has. -/
def Pump.picture : Pump → Option Picture
  | .askingKeyframe asker => asker
  | .waiting picture | .copying picture | .copied picture _ => some picture
  | _ => none

/-- The buffer the pump has. -/
def Pump.buffer : Pump → Option Buffer
  | .holding buffer | .freeing buffer _ => some buffer
  | pump => pump.picture.map Picture.buffer

/-- The queue and its counters. -/
def State.core (s : State) : List Packet × Credits.Account × Bool :=
  (s.queue, ⟨s.units, s.bytes⟩, s.closing)

theorem output_core (s : State) (buffer : Buffer) : (s.output buffer).1.core = s.core := by
  unfold State.output
  split_ifs <;> rfl

theorem selectBuffer_core (s : State) : s.selectBuffer.1.core = s.core := by
  unfold State.selectBuffer
  split_ifs
  · rfl
  · split <;> rfl
  · rfl

theorem selectRated_core (s : State) : s.selectRated.1.core = s.core := by
  unfold State.selectRated
  split_ifs
  · rfl
  · rfl
  · exact selectBuffer_core s

theorem select_core (s : State) : s.select.1.core = s.core := by
  unfold State.select
  split_ifs
  · rfl
  · rfl
  · exact selectRated_core s

theorem requestKeyframe_core (s : State) : s.requestKeyframe.1.core = s.core := by
  unfold State.requestKeyframe
  split
  · rfl
  · split <;> rfl

/-- After a look for a buffer the pump has no picture, and no credit. -/
theorem Pump.picture_selected (selected : State.Selected) :
    (Pump.selected selected).picture = none ∧ (Pump.selected selected).charged = none := by
  cases selected <;> exact ⟨rfl, rfl⟩

theorem Pump.picture_freed (freed : Except PublisherError Unit) (next : Except PublisherError Bool) :
    (Pump.freed freed next).picture = none ∧ (Pump.freed freed next).charged = none := by
  rcases freed with error | done
  · exact ⟨rfl, rfl⟩
  · rcases next with error | eos
    · exact ⟨rfl, rfl⟩
    · cases eos <;> exact ⟨rfl, rfl⟩

theorem release_eq {s t : State} {n : Nat} (h : s.release n = some t) :
    t = { s with units := s.units - 1, bytes := s.bytes - n } := by
  unfold State.release at h
  split at h
  · cases h
    rfl
  · cases h

theorem release_isSome {s : State} {n : Nat} (hunits : 1 ≤ s.units) (hbytes : n ≤ s.bytes) :
    (s.release n).isSome = true := by
  unfold State.release
  rw [if_pos ⟨hunits, hbytes⟩]
  rfl

theorem drain_eq {s t : State} {queue : List Packet} (h : s.drain queue = some t) :
    t = { s with
      queue := [], units := s.units - queue.length
      bytes := s.bytes - (queue.map Packet.size).sum } := by
  induction queue generalizing s with
  | nil =>
    cases h
    rfl
  | cons packet queue ih =>
    unfold State.drain at h
    cases hrelease : s.release packet.data.length with
    | none =>
      rw [hrelease] at h
      cases h
    | some r =>
      rw [hrelease] at h
      rw [ih h, release_eq hrelease, List.length_cons, List.map_cons, List.sum_cons]
      congr 1
      · show s.units - 1 - queue.length = _
        omega
      · show s.bytes - packet.data.length - _ = _
        unfold Packet.size
        omega

/-- Draining never underflows if the packets hold their credit. -/
theorem drain_isSome {s : State} {queue : List Packet} (hunits : queue.length ≤ s.units)
    (hbytes : (queue.map Packet.size).sum ≤ s.bytes) : (s.drain queue).isSome = true := by
  induction queue generalizing s with
  | nil => rfl
  | cons packet queue ih =>
    rw [List.length_cons] at hunits
    rw [List.map_cons, List.sum_cons] at hbytes
    unfold Packet.size at hbytes
    unfold State.drain State.release
    rw [if_pos ⟨by omega, by omega⟩]
    refine ih ?_ ?_
    · show queue.length ≤ s.units - 1
      omega
    · show _ ≤ s.bytes - packet.data.length
      unfold Packet.size
      omega

theorem clear_eq {s t : State} {quarantined : Bool} (h : s.clear quarantined = some t) :
    t.queue = [] ∧ t.units = s.units - s.queue.length
      ∧ t.bytes = s.bytes - (s.queue.map Packet.size).sum ∧ t.closing = true ∧ t.outputs = [] := by
  unfold State.clear at h
  cases hdrain : State.drain { s with closing := true, quarantined, closed := !quarantined } s.queue
    with
  | none =>
    rw [hdrain] at h
    cases h
  | some r =>
    rw [hdrain] at h
    cases h
    rw [drain_eq hdrain]
    exact ⟨rfl, rfl, rfl, rfl, rfl⟩

theorem recv_unit {s : State} {unit : EncodedUnit} (h : s.recv.2 = .unit unit) :
    s.closing = false ∧ ∃ queue, s.queue = unit.packet :: queue ∧ s.recv.1 = { s with queue } := by
  unfold State.recv at h ⊢
  cases hfailure : s.failure with
  | some error =>
    rw [hfailure] at h
    cases h
  | none =>
    rw [hfailure] at h
    dsimp only at h ⊢
    by_cases hclosing : s.closing = true
    · rw [if_pos hclosing] at h
      cases h
    · rw [if_neg hclosing] at h ⊢
      rw [Bool.not_eq_true] at hclosing
      cases hqueue : s.queue with
      | nil =>
        rw [hqueue] at h
        cases h
      | cons packet queue =>
        rw [hqueue] at h
        cases h
        exact ⟨hclosing, queue, rfl, rfl⟩

/-! ### The queue with credit -/

def PublisherConfig.queueLimits (config : PublisherConfig) : Credits.Limits :=
  ⟨config.maxQueuedUnits, config.maxQueuedBytes⟩

/-- The queue with credit: the pump holds some while it copies, the guards hold
what was received. -/
def queueOf (es : List Label) (p : Publisher) : Credits.Queue Packet where
  account := ⟨p.shared.units, p.shared.bytes⟩
  queue := p.shared.queue
  copying := (p.pump.charged.toList.map Picture.packet : List Packet)
  leases := (p.guards.map EncodedUnit.packet : List Packet)
  put := (queued es).map Picture.packet
  taken := (received es).map EncodedUnit.packet
  closed := p.shared.closing

/-- The pump's parameters are of its codec, and its picture is as long as it was
said to be. -/
structure Whole (config : PublisherConfig) (p : Publisher) : Prop where
  parameters : p.parameters.Fits config.codec
  picture : ∀ picture, p.pump.picture = some picture → picture.Whole

theorem Whole.step {config : PublisherConfig} {p p' : Publisher} {l : Label}
    (h : Whole config p) (hstep : Step config p l p') : Whole config p' := by
  cases hstep with
  | @examines buffer sdk hpump =>
    -- the picture is whole because `examine` found it so
    have hsound : (examine config p.parameters buffer sdk).Sound config buffer :=
      examine_sound h.parameters
    refine ⟨hsound.fits h.parameters, ?_⟩
    cases hfound : examine config p.parameters buffer sdk with
    | failed error => exact nofun
    | metadata parameters next => exact nofun
    | picture parameters picture =>
      rw [hfound] at hsound
      intro picture' hpicture
      cases hpicture
      exact hsound.2.1
  | selects hpump | setsRate hpump | asked hpump =>
    refine ⟨h.parameters, fun picture hpicture => ?_⟩
    exact absurd ((Pump.picture_selected _).1.symm.trans hpicture) nofun
  | frees hpump =>
    refine ⟨h.parameters, fun picture hpicture => ?_⟩
    exact absurd ((Pump.picture_freed _ _).1.symm.trans hpicture) nofun
  | @charges picture hpump =>
    -- the same picture, charged or waiting
    have hwhole : picture.Whole := h.picture picture (by rw [hpump]; rfl)
    refine ⟨h.parameters, fun picture' hpicture => ?_⟩
    change (Pump.credited picture _).picture = some picture' at hpicture
    cases hcredit : (p.shared.charge config picture).2 with
    | stop =>
      rw [hcredit] at hpicture
      cases hpicture
    | askKeyframe | waits | charged =>
      rw [hcredit] at hpicture
      cases hpicture
      exact hwhole
  | @askedWaiting picture hpump | @copies picture code hpump =>
    have hwhole : picture.Whole := h.picture picture (by rw [hpump]; rfl)
    refine ⟨h.parameters, fun picture' hpicture => ?_⟩
    cases hpicture
    exact hwhole
  | setRateFails | askFails | givesUp => exact ⟨h.parameters, nofun⟩
  | queues hpump hgives =>
    refine ⟨h.parameters, fun picture' hpicture => ?_⟩
    dsimp only at hpicture
    split at hpicture <;> cases hpicture
  | output | captureState | fail | requestClose | requestKeyframe | clear | recv | receives
  | drops => exact ⟨h.parameters, h.picture⟩

section

variable {config : PublisherConfig} {es : List Label} {p p' : Publisher} {l : Label}

theorem queueOf_snoc (hqueued : l.queued = none) (hreceived : l.received = none) :
    queueOf (es ++ [l]) p = queueOf es p := by
  unfold queueOf queued received
  rw [filterMap_snoc, filterMap_snoc, hqueued, hreceived, Option.toList_none, List.append_nil,
    Option.toList_none, List.append_nil]

theorem queueOf_core (hcore : p'.shared.core = p.shared.core)
    (hcharged : p'.pump.charged = p.pump.charged) (hguards : p'.guards = p.guards) :
    queueOf es p' = queueOf es p := by
  simp only [State.core, Prod.mk.injEq, Credits.Account.mk.injEq] at hcore
  obtain ⟨hqueue, ⟨hunits, hbytes⟩, hclosing⟩ := hcore
  unfold queueOf
  rw [hqueue, hunits, hbytes, hclosing, hcharged, hguards]

/-- A step that leaves the queue and its counters alone. -/
theorem refines_quiet (hcore : p'.shared.core = p.shared.core)
    (hcharged : p'.pump.charged = p.pump.charged) (hguards : p'.guards = p.guards)
    (hqueued : l.queued = none) (hreceived : l.received = none) :
    ∃ ops, Run (Credits.Step config.queueLimits Packet.size) (queueOf es p) ops
      (queueOf (es ++ [l]) p') := by
  rw [queueOf_snoc hqueued hreceived, queueOf_core hcore hcharged hguards]
  exact ⟨[], .nil _⟩

/-- The pump's picture holds its credit alone. -/
theorem copying_of_charged {picture : Picture} (h : p.pump.charged = some picture) :
    (queueOf es p).copying = picture.packet ::ₘ 0 := by
  show ((p.pump.charged.toList.map Picture.packet : List Packet) : Multiset Packet) = _
  rw [h]
  rfl

/-- A guard that is dropped holds its credit. -/
theorem leases_of_guards {unit : EncodedUnit} {before after : List EncodedUnit}
    (h : p.guards = before ++ unit :: after) :
    (queueOf es p).leases
      = unit.packet ::ₘ ((before ++ after).map EncodedUnit.packet : List Packet) := by
  show ((p.guards.map EncodedUnit.packet : List Packet) : Multiset Packet) = _
  rw [h, Credits.coe_map_middle]

theorem charge_cases (config : PublisherConfig) (s : State) (picture : Picture) :
    ((s.charge config picture).1.core = s.core
        ∧ (Pump.credited picture (s.charge config picture).2).charged = none)
      ∨ config.queueLimits.Room ⟨s.units, s.bytes⟩ picture.length
        ∧ s.charge config picture
          = ({ s with units := s.units + 1, bytes := s.bytes + picture.length }, .charged) := by
  unfold State.charge
  split_ifs with hfull
  · exact .inl ⟨rfl, rfl⟩
  · exact .inl ⟨rfl, rfl⟩
  · exact .inl ⟨rfl, rfl⟩
  · exact .inl ⟨rfl, rfl⟩
  · rw [not_or, ge_iff_le, not_le, not_lt] at hfull
    exact .inr ⟨hfull, rfl⟩

/-- **Each step is one of a queue with credit.** -/
theorem step_refines (h : Whole config p) (hstep : Step config p l p') :
    ∃ ops, Run (Credits.Step config.queueLimits Packet.size) (queueOf es p) ops
      (queueOf (es ++ [l]) p') := by
  cases hstep with
  | output => exact refines_quiet (output_core _ _) rfl rfl rfl rfl
  | captureState | fail => exact refines_quiet rfl rfl rfl rfl rfl
  | requestKeyframe => exact refines_quiet (requestKeyframe_core _) rfl rfl rfl rfl
  | recv hwaits =>
    refine refines_quiet rfl rfl rfl rfl ?_
    cases hrecv : p.shared.recv.2 with
    | unit unit => exact absurd hrecv (hwaits unit)
    | failed | ended | waits => rfl
  | selects hpump =>
    refine refines_quiet (select_core _) ?_ rfl rfl rfl
    rw [hpump]
    exact (Pump.picture_selected _).2
  | setsRate hpump =>
    refine refines_quiet (selectRated_core _) ?_ rfl rfl rfl
    rw [hpump]
    exact (Pump.picture_selected _).2
  | asked hpump =>
    refine refines_quiet (selectBuffer_core _) ?_ rfl rfl rfl
    rw [hpump]
    exact (Pump.picture_selected _).2
  | setRateFails hpump | askedWaiting hpump | askFails hpump =>
    refine refines_quiet rfl ?_ rfl rfl rfl
    rw [hpump]
    rfl
  | @examines buffer sdk hpump =>
    refine refines_quiet rfl ?_ rfl rfl rfl
    rw [hpump]
    cases examine config p.parameters buffer sdk <;> rfl
  | frees hpump =>
    refine refines_quiet rfl ?_ rfl rfl rfl
    rw [hpump]
    exact (Pump.picture_freed _ _).2
  | copies hpump =>
    refine refines_quiet rfl ?_ rfl rfl rfl
    rw [hpump]
    rfl
  | requestClose =>
    rw [queueOf_snoc rfl rfl]
    exact ⟨_, .single .close⟩
  | @clear quarantined shared hclear =>
    obtain ⟨hqueue, hunits, hbytes, hclosing, -⟩ := clear_eq hclear
    have hdrain : Credits.Step config.queueLimits Packet.size (queueOf es p) .drain _ := .drain rfl
    rw [queueOf_snoc rfl rfl]
    refine ⟨_, .single (?_ : Credits.Step _ _ _ .drain _)⟩
    unfold queueOf at hdrain ⊢
    rw [hqueue, hunits, hbytes, hclosing]
    exact hdrain
  | @receives unit hunit =>
    obtain ⟨-, queue, hqueue, hrecv⟩ := recv_unit hunit
    have htake : Credits.Step config.queueLimits Packet.size (queueOf es p) (.take unit.packet) _ :=
      .take hqueue
    refine ⟨_, .single (?_ : Credits.Step _ _ _ (.take unit.packet) _)⟩
    have hreceived : received (es ++ [.recv (.unit unit)]) = received es ++ [unit] :=
      filterMap_snoc _ _ _
    have hqueued : queued (es ++ [.recv (.unit unit)]) = queued es := filterMap_quiet rfl
    unfold queueOf at htake ⊢
    rw [hreceived, hqueued, hrecv]
    dsimp only
    rw [Credits.coe_map_snoc, List.map_append]
    exact htake
  | @drops unit before after shared hguards hrelease =>
    have hdrop : Credits.Step config.queueLimits Packet.size (queueOf es p)
      (.release unit.packet) _ := .release (leases_of_guards hguards)
    rw [queueOf_snoc rfl rfl]
    refine ⟨_, .single (?_ : Credits.Step _ _ _ (.release unit.packet) _)⟩
    rw [release_eq hrelease, unit.charged]
    exact hdrop
  | @charges picture hpump =>
    rw [queueOf_snoc rfl rfl]
    -- the credit taken is the length of the packet to come
    obtain ⟨hcore, hnone⟩ | ⟨hroom, hcharge⟩ := charge_cases config p.shared picture
    · have hcharged : p.pump.charged = none := by
        rw [hpump]
        rfl
      have hquiet : queueOf es { p with
          shared := (p.shared.charge config picture).1
          pump := .credited picture (p.shared.charge config picture).2 } = queueOf es p :=
        queueOf_core hcore (hnone.trans hcharged.symm) rfl
      rw [hquiet]
      exact ⟨[], .nil _⟩
    · have hwhole : picture.packet.size = picture.length := h.picture picture (by rw [hpump]; rfl)
      rw [← hwhole] at hroom
      have hstep : Credits.Step config.queueLimits Packet.size (queueOf es p)
        (.charge picture.packet) _ := .charge hroom
      refine ⟨_, .single (?_ : Credits.Step _ _ _ (.charge picture.packet) _)⟩
      rw [hcharge]
      unfold queueOf at hstep ⊢
      rw [hpump, hwhole] at hstep
      rw [hpump]
      exact hstep
  | @givesUp picture freed shared hpump hgives hrelease =>
    have hcharged : p.pump.charged = some picture := by
      rw [hpump]
      rfl
    have hwhole : picture.packet.size = picture.length := h.picture picture (by rw [hpump]; rfl)
    have hdrop : Credits.Step config.queueLimits Packet.size (queueOf es p)
      (.uncharge picture.packet) _ := .uncharge (copying_of_charged hcharged)
    rw [queueOf_snoc rfl rfl]
    refine ⟨_, .single (?_ : Credits.Step _ _ _ (.uncharge picture.packet) _)⟩
    rw [release_eq hrelease, ← hwhole]
    exact hdrop
  | @queues picture freed hpump hgives =>
    have hcharged : p.pump.charged = some picture := by
      rw [hpump]
      rfl
    have hclosing : p.shared.closing = false := by
      have hstopped := (Bool.or_eq_false_iff.mp hgives).2
      exact (Bool.or_eq_false_iff.mp hstopped).1
    have hput : Credits.Step config.queueLimits Packet.size (queueOf es p)
      (.enqueue picture.packet) _ := .enqueue (copying_of_charged hcharged) hclosing
    refine ⟨_, .single (?_ : Credits.Step _ _ _ (.enqueue picture.packet) _)⟩
    have hqueued : queued (es ++ [.queues picture]) = queued es ++ [picture] :=
      filterMap_snoc _ _ _
    have hreceived : received (es ++ [.queues picture]) = received es := filterMap_quiet rfl
    unfold queueOf at hput ⊢
    rw [hqueued, hreceived, List.map_append]
    cases picture.eos <;> exact hput

end

/-! ### The order of the encoder -/

/-- The pump takes the buffers in the order they were posted, and queues their
pictures in that order. -/
structure Ordered (es : List Label) (p : Publisher) : Prop where
  outputs : taken es ++ p.shared.outputs <+: posted es
  kept : p.shared.closing = false → taken es ++ p.shared.outputs = posted es
  pictures : ((queued es).map Picture.buffer ++ p.pump.buffer.toList).Sublist (taken es)

section

variable {config : PublisherConfig} {es : List Label} {p p' : Publisher} {l : Label}

theorem Ordered.quiet (h : Ordered es p) (houtputs : p'.shared.outputs = p.shared.outputs)
    (hclosing : p'.shared.closing = false → p.shared.closing = false)
    (hbuffer : p'.pump.buffer = p.pump.buffer ∨ p'.pump.buffer = none)
    (hposted : l.posted = none) (htaken : l.taken = none) (hqueued : l.queued = none) :
    Ordered (es ++ [l]) p' := by
  have hp : posted (es ++ [l]) = posted es := by
    rw [posted, filterMap_snoc, hposted]
    exact List.append_nil _
  have ht : taken (es ++ [l]) = taken es := by
    rw [taken, filterMap_snoc, htaken]
    exact List.append_nil _
  have hq : queued (es ++ [l]) = queued es := by
    rw [queued, filterMap_snoc, hqueued]
    exact List.append_nil _
  refine ⟨?_, fun hopen => ?_, ?_⟩
  · rw [hp, ht, houtputs]
    exact h.outputs
  · rw [hp, ht, houtputs]
    exact h.kept (hclosing hopen)
  · rw [ht, hq]
    refine List.Sublist.trans ?_ h.pictures
    obtain hbuffer | hbuffer := hbuffer
    · rw [hbuffer]
    · rw [hbuffer, Option.toList_none, List.append_nil]
      exact List.sublist_append_left _ _

/-- What a look for a buffer finds. -/
def Finds (s s' : State) (selected : State.Selected) : Prop :=
  (∃ buffer outputs, selected = .buffer buffer ∧ s.outputs = buffer :: outputs
      ∧ s'.outputs = outputs ∧ s.closing = false)
    ∨ s'.outputs = s.outputs ∧ (Label.selects selected).taken = none
      ∧ (Pump.selected selected).buffer = none

theorem selectBuffer_finds (s : State) : Finds s s.selectBuffer.1 s.selectBuffer.2 := by
  unfold State.selectBuffer
  split_ifs with hstopped
  · exact .inr ⟨rfl, rfl, rfl⟩
  · rw [State.stopped, Bool.or_eq_true, not_or, Bool.not_eq_true] at hstopped
    cases houtputs : s.outputs with
    | nil => exact .inr ⟨rfl, rfl, rfl⟩
    | cons buffer outputs => exact .inl ⟨buffer, outputs, rfl, houtputs, rfl, hstopped.1⟩
  · exact .inr ⟨rfl, rfl, rfl⟩

theorem selectRated_finds (s : State) : Finds s s.selectRated.1 s.selectRated.2 := by
  unfold State.selectRated
  split_ifs
  · exact .inr ⟨rfl, rfl, rfl⟩
  · exact .inr ⟨rfl, rfl, rfl⟩
  · exact selectBuffer_finds s

theorem select_finds (s : State) : Finds s s.select.1 s.select.2 := by
  unfold State.select
  split_ifs
  · exact .inr ⟨rfl, rfl, rfl⟩
  · exact .inr ⟨rfl, rfl, rfl⟩
  · exact selectRated_finds s

/-- The pump takes the next buffer, or none. -/
theorem Ordered.selects {s : State} {selected : State.Selected} (h : Ordered es p)
    (hbuffer : p.pump.buffer = none) (hfinds : Finds p.shared s selected)
    (hclosing : s.closing = p.shared.closing) :
    Ordered (es ++ [.selects selected]) { p with shared := s, pump := .selected selected } := by
  obtain ⟨buffer, outputs, rfl, houtputs, houtputs', hopen⟩ | ⟨houtputs, htaken, hnone⟩ := hfinds
  · have ht : taken (es ++ [.selects (.buffer buffer)]) = taken es ++ [buffer] :=
      filterMap_snoc _ _ _
    have hp : posted (es ++ [.selects (.buffer buffer)]) = posted es := filterMap_quiet rfl
    have hq : queued (es ++ [.selects (.buffer buffer)]) = queued es := filterMap_quiet rfl
    have hkept := h.kept hopen
    rw [houtputs] at hkept
    have hall : taken es ++ [buffer] ++ s.outputs = posted es := by
      rw [houtputs', List.append_assoc, List.singleton_append, hkept]
    refine ⟨?_, fun _ => ?_, ?_⟩
    · rw [ht, hp, hall]
    · rw [ht, hp, hall]
    · rw [ht, hq]
      have hpictures := h.pictures
      rw [hbuffer, Option.toList_none, List.append_nil] at hpictures
      exact hpictures.append (List.Sublist.refl [buffer])
  · exact h.quiet houtputs (fun hopen => hclosing ▸ hopen) (.inr hnone) rfl htaken rfl

theorem output_cases (s : State) (buffer : Buffer) :
    ((s.output buffer).1.outputs = s.outputs ∧ (s.output buffer).2 = false)
      ∨ (s.output buffer).1.outputs = s.outputs ++ [buffer] ∧ (s.output buffer).2 = true
        ∧ s.closing = false := by
  unfold State.output
  split_ifs with hstopped
  · exact .inl ⟨rfl, rfl⟩
  · exact .inl ⟨rfl, rfl⟩
  · exact .inl ⟨rfl, rfl⟩
  · rw [State.stopped, Bool.or_eq_true, not_or, Bool.not_eq_true] at hstopped
    exact .inr ⟨rfl, rfl, hstopped.1⟩

theorem closing_of_core {s t : State} (h : s.core = t.core) : s.closing = t.closing := by
  simp only [State.core, Prod.mk.injEq] at h
  exact h.2.2

theorem Ordered.step (h : Ordered es p) (hwhole : Whole config p) (hstep : Step config p l p') :
    Ordered (es ++ [l]) p' := by
  cases hstep with
  -- only `output`, the turns of the pump that find a buffer, and `clear` touch the queue
  | @output buffer =>
    obtain ⟨houtputs, hqueued⟩ | ⟨houtputs, hqueued, hopen⟩ := output_cases p.shared buffer
    · rw [hqueued]
      refine h.quiet houtputs (fun hopen => ?_) (.inl rfl) rfl rfl rfl
      exact (closing_of_core (output_core p.shared buffer)).symm.trans hopen
    -- the buffer joins the queue
    · rw [hqueued]
      have hp : posted (es ++ [.output buffer true]) = posted es ++ [buffer] :=
        filterMap_snoc _ _ _
      have ht : taken (es ++ [.output buffer true]) = taken es := filterMap_quiet rfl
      have hq : queued (es ++ [.output buffer true]) = queued es := filterMap_quiet rfl
      have hall : taken es ++ (p.shared.output buffer).1.outputs = posted es ++ [buffer] := by
        rw [houtputs, ← List.append_assoc, h.kept hopen]
      refine ⟨?_, fun _ => ?_, ?_⟩
      · rw [hp, ht, hall]
      · rw [hp, ht, hall]
      · rw [ht, hq]
        exact h.pictures
  | selects hpump =>
    exact h.selects (by rw [hpump]; rfl) (select_finds _) (closing_of_core (select_core _))
  | setsRate hpump =>
    exact h.selects (by rw [hpump]; rfl) (selectRated_finds _)
      (closing_of_core (selectRated_core _))
  | asked hpump =>
    exact h.selects (by rw [hpump]; rfl) (selectBuffer_finds _)
      (closing_of_core (selectBuffer_core _))
  | @examines buffer sdk hpump =>
    -- the picture found is the one of the buffer in the hand
    refine h.quiet rfl id ?_ rfl rfl rfl
    have hsound : (examine config p.parameters buffer sdk).Sound config buffer :=
      examine_sound hwhole.parameters
    rw [hpump]
    cases hfound : examine config p.parameters buffer sdk with
    | failed error => exact .inr rfl
    | metadata parameters next => exact .inl rfl
    | picture parameters picture =>
      rw [hfound] at hsound
      exact .inl (congrArg some hsound.2.2)
  | @frees buffer next code hpump =>
    refine h.quiet rfl id (.inr ?_) rfl rfl rfl
    rcases check "OH_VideoEncoder_FreeOutputBuffer" code with error | done
    · rfl
    · rcases next with error | eos
      · rfl
      · cases eos <;> rfl
  | @charges picture hpump =>
    -- whether it is charged or waits, the picture stays in the hand
    have hsame : (p.shared.charge config picture).1.outputs = p.shared.outputs
        ∧ (p.shared.charge config picture).1.closing = p.shared.closing := by
      unfold State.charge
      split_ifs <;> exact ⟨rfl, rfl⟩
    refine h.quiet hsame.1 (fun hopen => hsame.2.symm.trans hopen) ?_ rfl rfl rfl
    rw [hpump]
    cases (p.shared.charge config picture).2 with
    | stop => exact .inr rfl
    | askKeyframe | waits | charged => exact .inl rfl
  | askedWaiting hpump | copies hpump =>
    refine h.quiet rfl id (.inl ?_) rfl rfl rfl
    rw [hpump]
    rfl
  | setRateFails | askFails => exact h.quiet rfl id (.inr rfl) rfl rfl rfl
  | givesUp hpump hgives hrelease =>
    rw [release_eq hrelease]
    exact h.quiet rfl id (.inr rfl) rfl rfl rfl
  | @queues picture freed hpump hgives =>
    -- the hand empties into the queue of pictures
    have hp : posted (es ++ [.queues picture]) = posted es := filterMap_quiet rfl
    have ht : taken (es ++ [.queues picture]) = taken es := filterMap_quiet rfl
    have hq : queued (es ++ [.queues picture]) = queued es ++ [picture] := filterMap_snoc _ _ _
    refine ⟨?_, fun hopen => ?_, ?_⟩
    · rw [hp, ht]
      exact h.outputs
    · rw [hp, ht]
      exact h.kept hopen
    · have hpictures := h.pictures
      rw [hpump] at hpictures
      have hbuffer : (if picture.eos = true then Pump.done (.ok ()) else .selecting).buffer = none := by
        cases picture.eos <;> rfl
      rw [ht, hq, hbuffer, List.map_append, Option.toList_none, List.append_nil]
      exact hpictures
  | @clear quarantined shared hclear =>
    -- the queue is dropped, and what was taken stays taken
    obtain ⟨-, -, -, hclosing, houtputs⟩ := clear_eq hclear
    have hp : posted (es ++ [.clear quarantined]) = posted es := filterMap_quiet rfl
    have ht : taken (es ++ [.clear quarantined]) = taken es := filterMap_quiet rfl
    have hq : queued (es ++ [.clear quarantined]) = queued es := filterMap_quiet rfl
    refine ⟨?_, fun hopen => absurd (hclosing.symm.trans hopen) nofun, ?_⟩
    · rw [hp, ht]
      show taken es ++ shared.outputs <+: posted es
      rw [houtputs, List.append_nil]
      exact (List.prefix_append _ _).trans h.outputs
    · rw [ht, hq]
      exact h.pictures
  | requestClose => exact h.quiet rfl nofun (.inl rfl) rfl rfl rfl
  | requestKeyframe =>
    have hsame : p.shared.requestKeyframe.1.outputs = p.shared.outputs
        ∧ p.shared.requestKeyframe.1.closing = p.shared.closing := by
      unfold State.requestKeyframe
      split
      · exact ⟨rfl, rfl⟩
      · split <;> exact ⟨rfl, rfl⟩
    exact h.quiet hsame.1 (fun hopen => hsame.2.symm.trans hopen) (.inl rfl) rfl rfl rfl
  | receives hunit =>
    obtain ⟨-, queue, -, hrecv⟩ := recv_unit hunit
    rw [hrecv]
    exact h.quiet rfl id (.inl rfl) rfl rfl rfl
  | drops hguards hrelease =>
    rw [release_eq hrelease]
    exact h.quiet rfl id (.inl rfl) rfl rfl rfl
  | captureState | fail | recv => exact h.quiet rfl id (.inl rfl) rfl rfl rfl

end

/-! ### The publisher's credit -/

/-- What holds of a publisher in every state, with the steps that led to it. -/
structure Credited (config : PublisherConfig) (es : List Label) (p : Publisher) : Prop where
  /-- The counters are those of the queue, of the guards and of the pump. -/
  units : p.shared.units
    = p.shared.queue.length + p.guards.length + p.pump.charged.toList.length
  bytes : p.shared.bytes = (p.shared.queue.map Packet.size).sum
    + (p.guards.map EncodedUnit.chargedBytes).sum + (p.pump.charged.toList.map Picture.length).sum
  within : p.shared.units ≤ config.maxQueuedUnits ∧ p.shared.bytes ≤ config.maxQueuedBytes
  /-- Whoever gives credit back can do so. -/
  drops : ∀ unit ∈ p.guards, (p.shared.release unit.chargedBytes).isSome = true
  clears : ∀ quarantined, (p.shared.clear quarantined).isSome = true
  givesUp : ∀ picture, p.pump.charged = some picture →
    (p.shared.release picture.length).isSome = true
  /-- Packets are received in the order they were queued, each at most once. -/
  order : (received es).map EncodedUnit.packet ++ p.shared.queue
    <+: (queued es).map Picture.packet
  /-- They are queued in the order the encoder delivered them. -/
  encoded : ((queued es).map Picture.buffer).Sublist (posted es)

/-- **The credit of the publisher**, for every interleaving of the pump, the
consumer, the guards and whoever closes, fails or clears. -/
theorem publisher_credited {config : PublisherConfig} {es : List Label} {p : Publisher}
    (hrun : Run (Step config) .opened es p) : Credited config es p := by
  have hall : (∃ ops, Run (Credits.Step config.queueLimits Packet.size) .empty ops (queueOf es p))
      ∧ Whole config p ∧ Ordered es p := by
    refine hrun.history (P := fun es p => (∃ ops, Run (Credits.Step config.queueLimits Packet.size)
      .empty ops (queueOf es p)) ∧ Whole config p ∧ Ordered es p) ?_ ?_
    · rintro es p l p' ⟨⟨ops, hops⟩, hwhole, hordered⟩ hstep
      obtain ⟨ops', hops'⟩ := step_refines hwhole hstep
      exact ⟨⟨ops ++ ops', hops.append hops'⟩, hwhole.step hstep, hordered.step hwhole hstep⟩
    · exact ⟨⟨[], .nil _⟩, ⟨fun _ => rfl, nofun⟩,
        ⟨List.prefix_rfl, fun _ => rfl, List.Sublist.refl _⟩⟩
  obtain ⟨⟨ops, hops⟩, hwhole, hordered⟩ := hall
  have hsound := Credits.sound_run hops
  have hcharged : ∀ picture, p.pump.charged = some picture → picture.Whole := by
    intro picture hpicture
    refine hwhole.picture picture ?_
    cases hpump : p.pump with
    | copying | copied =>
      rw [hpump] at hpicture
      exact hpicture
    | _ =>
      rw [hpump] at hpicture
      cases hpicture
  have hguards : (p.guards.map EncodedUnit.packet).map Packet.size
      = p.guards.map EncodedUnit.chargedBytes := by
    rw [List.map_map]
    exact List.map_congr_left fun unit _ => unit.charged.symm
  have hcopying : (p.pump.charged.toList.map Picture.packet).map Packet.size
      = p.pump.charged.toList.map Picture.length := by
    rw [List.map_map]
    exact List.map_congr_left fun picture hpicture => hcharged picture (Option.mem_toList.mp hpicture)
  have hunits := hsound.account.units
  have hbytes := hsound.account.bytes
  have hholders : (queueOf es p).holders
      = ((p.shared.queue ++ p.guards.map EncodedUnit.packet
          ++ p.pump.charged.toList.map Picture.packet : List Packet) : Multiset Packet) := rfl
  rw [hholders, Multiset.coe_card, List.length_append, List.length_append, List.length_map,
    List.length_map] at hunits
  rw [hholders, Multiset.map_coe, Multiset.sum_coe, List.map_append, List.map_append,
    List.sum_append, List.sum_append, hguards, hcopying] at hbytes
  change p.shared.units = _ at hunits
  change p.shared.bytes = _ at hbytes
  refine
    { units := hunits
      bytes := hbytes
      within := hsound.within
      drops := ?_
      clears := ?_
      givesUp := ?_
      order := hsound.queued
      encoded := ?_ }
  · intro unit hunit
    have hle := List.single_le_sum (fun _ _ => Nat.zero_le _) _
      (List.mem_map_of_mem (f := EncodedUnit.chargedBytes) hunit)
    have hpos := List.length_pos_of_mem hunit
    exact release_isSome (by omega) (by omega)
  · intro quarantined
    unfold State.clear
    have hdrain : (State.drain { p.shared with closing := true, quarantined, closed := !quarantined }
        p.shared.queue).isSome = true :=
      drain_isSome (by show _ ≤ p.shared.units; omega) (by show _ ≤ p.shared.bytes; omega)
    obtain ⟨t, ht⟩ := Option.isSome_iff_exists.mp hdrain
    rw [ht]
    rfl
  · intro picture hpicture
    rw [hpicture] at hunits hbytes
    simp only [Option.toList_some, List.length_singleton, List.map_singleton,
      List.sum_singleton] at hunits hbytes
    exact release_isSome (by omega) (by omega)
  · refine List.Sublist.trans ?_ ((List.prefix_append _ _).trans hordered.outputs).sublist
    exact (List.sublist_append_left _ _).trans hordered.pictures

/-- A publisher of one picture at a time. -/
def sampleConfig : PublisherConfig := ⟨.h264, 1280, 720, 30, 1000, 1, 16⟩

/-- A picture of a stream without metadata. -/
def sampleAnswers : OutputAnswers :=
  ⟨0, 40, 4, 0, 0, 4, 1, [0, 0, 1, 0x41], rfl⟩

def samplePicture : Picture := ⟨⟨7, 1⟩, [0, 0, 1, 0x41], 4, 40, false, false⟩

theorem inspect_sample :
    Parameters.empty.inspect .h264 [0, 0, 1, 0x41] = .ok (.empty, true, false) := by
  rw [Parameters.inspect, if_neg (by decide)]
  simp [Parameters.inspectFrom, startCode, untilStart, Parameters.nal]
  rfl

theorem examine_sample :
    examine sampleConfig .empty ⟨7, 1⟩ sampleAnswers = .picture .empty samplePicture := by
  simp [examine, check, sampleAnswers, sampleConfig, inspect_sample]
  rfl

/-- A guard that outlives the teardown. -/
theorem publisher_credited_cleared : ∃ es p unit, Run (Step sampleConfig) .opened es p
    ∧ p.guards = [unit] ∧ p.shared.closed = true ∧ p.shared.units = 1
    ∧ Credited sampleConfig es p := by
  have hposted := (Run.single (@Step.captureState sampleConfig .opened 0)).snoc
    (@Step.output sampleConfig _ ⟨7, 1⟩)
  have htaken := (hposted.snoc (.selects rfl)).snoc (.setsRate rfl)
  have hwaiting := htaken.snoc (@Step.examines sampleConfig _ ⟨7, 1⟩ sampleAnswers rfl)
  have hcopied := (hwaiting.snoc (@Step.charges sampleConfig _ samplePicture
    (congrArg (Pump.found ⟨7, 1⟩) examine_sample))).snoc (@Step.copies sampleConfig _ _ 0 rfl)
  have hreceived := (hcopied.snoc (.queues rfl rfl)).snoc (.receives rfl)
  have hrun := (hreceived.snoc .requestClose).snoc (@Step.clear sampleConfig _ false _ rfl)
  exact ⟨_, _, _, hrun, rfl, rfl, rfl, publisher_credited hrun⟩

end OhosPublisher

end RdEngine
