/-
RdEngine/Platform/EncoderLoans.lean

The native encoder of Windows and what it borrows and lends: `NativeNvenc` in
`platform/windows_native.rs`.

A picture that is encoded stays with the driver as a loan, and its capture frame has to
stay where it is until the loan is given back, or, where the driver could not clean up
after a failed encode, until the encoder is shut down.  Four members keep account of
this: the encoder itself, a loan that is still out, a frame that is kept, and whether
that frame waits for the shutdown.

Every call takes what the native functions answer, and records the native functions it
calls.  A monitor (`loans`) says what they may be called with, and what the encoder
keeps agrees with its ledger after every call (`Linked`).
-/
import RdEngine.Lib.Monitors
import RdEngine.Platform.WindowsOpen
import RdEngine.Platform.DesktopDuplication

namespace RdEngine

namespace EncoderLoans

open WindowsPublisher (ProducerError QueuedUnit)
open WindowsHost (NvStatus mapNv)
open DesktopDuplication (LeaseReleaseResult)
open Lts

/-! ### Frames and loans -/

/-- A capture frame; a number tells the frames apart that are passed to the encoder.
The lease is there until it is released, or given to the owner of the capture. -/
structure NativeFrame where
  number : Nat
  lease : Bool := true
deriving DecidableEq

/-- `RdNvencOutputLoan`, of the picture of a frame. -/
structure OutputLoan where
  number : Nat
  data : Option Bytes
  size : UInt64
  timestamp : UInt64
  pictureType : UInt32
deriving DecidableEq

/-- The native functions that are called, with the frame they are about. -/
inductive NativeCall where
  | encodeTexture (number : Nat) (status : NvStatus)
  | releaseOutput (number : Nat) (status : NvStatus)
  | setBitrate (status : NvStatus)
  | shutdown (status : NvStatus)
  /-- the lease of a frame, which it then does not have any more -/
  | releaseFrame (number : Nat)
deriving DecidableEq

namespace NativeFrame

/-- `release`: the frame gives its lease back, once. -/
def release (frame : NativeFrame) (answer : LeaseReleaseResult) :
    NativeFrame × List NativeCall × Except ProducerError Unit :=
  if frame.lease then
    ({ frame with lease := false }, [.releaseFrame frame.number],
      match answer with
      | .released => .ok ()
      | .transferredToOwner error => .error error)
  else (frame, [], .error .closed)

/-- `Drop`. -/
def drop (frame : NativeFrame) : List NativeCall :=
  if frame.lease then [.releaseFrame frame.number] else []

end NativeFrame

/-- The slot, what is called, and the result. -/
def releaseFrameOrRestore (slot : Option NativeFrame) (frame : NativeFrame)
    (answer : LeaseReleaseResult) :
    Option NativeFrame × List NativeCall × Except ProducerError Unit :=
  match frame.release answer with
  | (frame, log, .error error) => (if frame.lease then some frame else slot, log, .error error)
  | (_, log, .ok ()) => (slot, log, .ok ())

/-! ### The encoder -/

/-- `NativeNvenc`, without its capability and its configuration. -/
structure NativeNvenc where
  raw : Bool := true
  pendingOutput : Option OutputLoan := none
  quarantinedFrame : Option NativeFrame := none
  frameRequiresShutdown : Bool := false
deriving DecidableEq

/-- What a native encode answers: a status, and with `ok` a loan. -/
structure EncodeAnswer where
  status : NvStatus
  data : Option Bytes
  size : UInt64
  timestamp : UInt64
  pictureType : UInt32

def usizeMax : Nat := 2 ^ 64 - 1

namespace NativeNvenc

/-- `retry_output_reclamation`. -/
def retryOutputReclamation (e : NativeNvenc) (release : NvStatus) (lease : LeaseReleaseResult) :
    NativeNvenc × List NativeCall × Except ProducerError Unit :=
  match e.pendingOutput with
  | none =>
    if e.frameRequiresShutdown then (e, [], .error .reclamationUnconfirmed)
    else match e.quarantinedFrame with
    | some frame =>
      let (slot, log, result) := releaseFrameOrRestore none frame lease
      ({ e with quarantinedFrame := slot }, log, result)
    | none => (e, [], .ok ())
  | some loan =>
    if !e.raw then (e, [], .error .closed)
    else
      let call := NativeCall.releaseOutput loan.number release
      if release ≠ .ok then (e, [call], .error (mapNv release))
      else match e.quarantinedFrame with
      | none => ({ e with pendingOutput := none }, [call], .error .reclamationUnconfirmed)
      | some frame =>
        let (slot, log, result) := releaseFrameOrRestore none frame lease
        ({ e with
            pendingOutput := none
            quarantinedFrame := slot
            frameRequiresShutdown := if result = .ok () then false else e.frameRequiresShutdown },
          call :: log, result)

/-- `set_bitrate`. -/
def setBitrate (e : NativeNvenc) (bitrate : UInt32) (status : NvStatus) :
    NativeNvenc × List NativeCall × Except ProducerError Unit :=
  if bitrate = 0 then (e, [], .error .invalidConfig)
  else if !e.raw then (e, [], .error .closed)
  else if e.pendingOutput.isSome ∨ e.quarantinedFrame.isSome then
    (e, [], .error .reclamationUnconfirmed)
  else (e, [.setBitrate status], if status = .ok then .ok () else .error .encoderFailed)

/-- The frame is given back, and then the call ends as it would. -/
def giveBack (e : NativeNvenc) (log : List NativeCall) (frame : NativeFrame)
    (lease : LeaseReleaseResult) (result : Except ProducerError QueuedUnit) :
    NativeNvenc × List NativeCall × Except ProducerError QueuedUnit :=
  match releaseFrameOrRestore e.quarantinedFrame frame lease with
  | (slot, calls, .error error) => ({ e with quarantinedFrame := slot }, log ++ calls, .error error)
  | (slot, calls, .ok ()) => ({ e with quarantinedFrame := slot }, log ++ calls, result)

/-- `encode_texture`. -/
def encodeTexture (e : NativeNvenc) (frame : NativeFrame) (answer : EncodeAnswer)
    (release : NvStatus) (lease : LeaseReleaseResult) :
    NativeNvenc × List NativeCall × Except ProducerError QueuedUnit :=
  if e.pendingOutput.isSome ∨ e.quarantinedFrame.isSome then
    (e, frame.drop, .error .reclamationUnconfirmed)
  else if !e.raw then (e, frame.drop, .error .closed)
  else
    let encode := NativeCall.encodeTexture frame.number answer.status
    if answer.status ≠ .ok then
      if answer.status = .cleanupFailed then
        ({ e with quarantinedFrame := some frame, frameRequiresShutdown := true }, [encode],
          .error .reclamationUnconfirmed)
      else e.giveBack [encode] frame lease (.error (mapNv answer.status))
    else
      let loan : OutputLoan :=
        ⟨frame.number, answer.data, answer.size, answer.timestamp, answer.pictureType⟩
      -- whether the loan is read or not, it is released next
      let calls := [encode, .releaseOutput loan.number release]
      if release ≠ .ok then
        ({ e with pendingOutput := some loan, quarantinedFrame := some frame }, calls,
          .error .reclamationUnconfirmed)
      else
        e.giveBack calls frame lease <|
          match loan.data with
          | none => .error .emptyAccessUnit
          | some data =>
            if loan.size = 0 ∨ loan.size.toNat > usizeMax then .error .emptyAccessUnit
            else if loan.timestamp.toNat ≥ 2 ^ 63 then .error .invalidTimestamp
            else .ok ⟨data.take loan.size.toNat, loan.timestamp.toNat, loan.pictureType = 3⟩

/-- The rest of `close`, when no encoder is left. -/
def closeFrame (e : NativeNvenc) (log : List NativeCall) (lease : LeaseReleaseResult) :
    NativeNvenc × List NativeCall × Except ProducerError Unit :=
  match e.quarantinedFrame with
  | none => ({ e with frameRequiresShutdown := false }, log, .ok ())
  | some frame =>
    match releaseFrameOrRestore none frame lease with
    | (slot, calls, .error error) => ({ e with quarantinedFrame := slot }, log ++ calls, .error error)
    | (slot, calls, .ok ()) =>
      ({ e with quarantinedFrame := slot, frameRequiresShutdown := false }, log ++ calls, .ok ())

/-- The rest of `close`, when no loan is left. -/
def closeEncoder (e : NativeNvenc) (log : List NativeCall) (shutdown : NvStatus)
    (lease : LeaseReleaseResult) : NativeNvenc × List NativeCall × Except ProducerError Unit :=
  if e.raw then
    let log := log ++ [.shutdown shutdown]
    if shutdown ≠ .ok then (e, log, .error (mapNv shutdown))
    else { e with raw := false }.closeFrame log lease
  else e.closeFrame log lease

/-- `close`. -/
def close (e : NativeNvenc) (release shutdown : NvStatus) (lease : LeaseReleaseResult) :
    NativeNvenc × List NativeCall × Except ProducerError Unit :=
  match e.pendingOutput with
  | none => e.closeEncoder [] shutdown lease
  | some loan =>
    if !e.raw then (e, [], .error .reclamationUnconfirmed)
    else
      let log := [NativeCall.releaseOutput loan.number release]
      if release ≠ .ok then (e, log, .error .reclamationUnconfirmed)
      else { e with pendingOutput := none }.closeEncoder log shutdown lease

end NativeNvenc

/-! ### Runs of calls -/

/-- A call, with what the native functions answer during it. -/
inductive Call where
  | encodeTexture (answer : EncodeAnswer) (release : NvStatus) (lease : LeaseReleaseResult)
  | retryOutputReclamation (release : NvStatus) (lease : LeaseReleaseResult)
  | setBitrate (bitrate : UInt32) (status : NvStatus)
  | close (release shutdown : NvStatus) (lease : LeaseReleaseResult)

/-- An encoder, the number of frames that were passed to it, and the native functions
that were called. -/
structure Machine where
  encoder : NativeNvenc := {}
  frames : Nat := 0
  log : List NativeCall := []

/-- The encoder after a call, and what is called during it. -/
def NativeNvenc.call (e : NativeNvenc) (frames : Nat) : Call → NativeNvenc × List NativeCall
  | .encodeTexture answer release lease =>
    let (e, log, _) := e.encodeTexture ⟨frames, true⟩ answer release lease
    (e, log)
  | .retryOutputReclamation release lease =>
    let (e, log, _) := e.retryOutputReclamation release lease
    (e, log)
  | .setBitrate bitrate status =>
    let (e, log, _) := e.setBitrate bitrate status
    (e, log)
  | .close release shutdown lease =>
    let (e, log, _) := e.close release shutdown lease
    (e, log)

/-- Every encode is passed a frame of its own. -/
def Call.frames : Call → Nat
  | .encodeTexture .. => 1
  | _ => 0

/-- A call of the encoder, with what it does to the native side. -/
def Machine.call (m : Machine) (c : Call) : Machine where
  encoder := (m.encoder.call m.frames c).1
  frames := m.frames + c.frames
  log := m.log ++ (m.encoder.call m.frames c).2

/-- Any calls, one after the other, on a new encoder. -/
def run (calls : List Call) : Machine := calls.foldl Machine.call {}

/-! ### The ledger -/

/-- What the native calls so far leave open. -/
structure Ledger where
  /-- frames from here on were not passed yet -/
  fresh : Nat := 0
  /-- a loan that was not released -/
  loan : Option Nat := none
  /-- a frame that the driver could not let go of, with no shutdown since -/
  unclean : Option Nat := none
  /-- a frame that was encoded, and not released -/
  held : Option Nat := none
deriving DecidableEq

theorem Ledger.idle {b : Ledger} (hloan : b.loan = none) (hunclean : b.unclean = none)
    (hheld : b.held = none) : b = { fresh := b.fresh } := by
  cases b
  cases hloan
  cases hunclean
  cases hheld
  rfl

/-- The ledger after one more native call. -/
def Ledger.after (b : Ledger) : NativeCall → Ledger
  | .encodeTexture number status =>
    { fresh := number + 1
      loan := if status = .ok then some number else b.loan
      unclean := if status = .cleanupFailed then some number else b.unclean
      held := some number }
  | .releaseOutput _ status => if status = .ok then { b with loan := none } else b
  | .setBitrate _ => b
  | .shutdown status => if status = .ok then { b with loan := none, unclean := none } else b
  | .releaseFrame number => { b with held := b.held.filter (· ≠ number) }

/-- What the native functions may be called with.  Frames are new when they are encoded,
a loan is released while it is out, and the frame of a loan, or one that the driver could
not let go of, stays where it is. -/
def Ledger.Allows (b : Ledger) : NativeCall → Prop
  | .encodeTexture number _ =>
    b.fresh ≤ number ∧ b.loan = none ∧ b.unclean = none ∧ b.held = none
  | .releaseOutput number _ => b.loan = some number
  | .setBitrate _ => b.loan = none ∧ b.unclean = none ∧ b.held = none
  | .shutdown _ => b.loan = none
  | .releaseFrame number => b.loan ≠ some number ∧ b.unclean ≠ some number

/-- The ledger as a monitor of the native calls. -/
def loans : Monitor NativeCall Ledger where
  start := {}
  after := Ledger.after
  allows := Ledger.Allows

/-- What the encoder keeps is what the ledger says. -/
structure Linked (b : Ledger) (e : NativeNvenc) (frames : Nat) : Prop where
  fresh : b.fresh ≤ frames
  loan : b.loan = e.pendingOutput.map OutputLoan.number
  held : b.held = e.quarantinedFrame.map NativeFrame.number
  /-- the frame of a loan is kept -/
  lent : ∀ n, b.loan = some n → b.held = some n ∧ b.unclean = none
  unclean : ∀ n, b.unclean = some n → b.held = some n ∧ e.frameRequiresShutdown = true
  raw : b.loan ≠ none ∨ b.held ≠ none → e.raw = true
  leased : ∀ frame, e.quarantinedFrame = some frame → frame.lease = true ∧ frame.number < frames

/-- A call keeps to the rules, and to the ledger. -/
def Keeps (b : Ledger) (frames : Nat) (e : NativeNvenc) (log : List NativeCall) : Prop :=
  loans.Accepts b log ∧ Linked (log.foldl Ledger.after b) e frames

section

variable {b : Ledger} {e : NativeNvenc} {frames : Nat}

/-- A frame with a lease loses it, whatever the answer. -/
theorem releaseFrameOrRestore_leased (slot : Option NativeFrame) {frame : NativeFrame}
    (h : frame.lease = true) (answer : LeaseReleaseResult) :
    ∃ result, releaseFrameOrRestore slot frame answer =
      (slot, [.releaseFrame frame.number], result) := by
  unfold releaseFrameOrRestore NativeFrame.release
  rw [if_pos h]
  cases answer with
  | released => exact ⟨_, rfl⟩
  | transferredToOwner error => exact ⟨_, rfl⟩

theorem linked_idle (h : Linked b e frames) (hloan : e.pendingOutput = none)
    (hframe : e.quarantinedFrame = none) : b = { fresh := b.fresh } := by
  have hloan' : b.loan = none := by rw [h.loan, hloan]; rfl
  have hheld : b.held = none := by rw [h.held, hframe]; rfl
  have hunclean : b.unclean = none := by
    cases hunclean : b.unclean with
    | none => rfl
    | some n => cases (h.unclean n hunclean).1.symm.trans hheld
  exact Ledger.idle hloan' hunclean hheld

theorem linked_free {fresh : Nat} (hfresh : fresh ≤ frames) (hloan : e.pendingOutput = none)
    (hframe : e.quarantinedFrame = none) : Linked { fresh } e frames where
  fresh := hfresh
  loan := by rw [hloan]; rfl
  held := by rw [hframe]; rfl
  lent := fun _ h => by cases h
  unclean := fun _ h => by cases h
  raw := fun h => by simp at h
  leased := fun _ h => by cases hframe.symm.trans h

theorem keeps_nothing (h : Linked b e frames) : Keeps b frames e [] := ⟨trivial, h⟩

theorem Keeps.append {log log' : List NativeCall} (h : loans.Accepts b log)
    (h' : Keeps (log.foldl Ledger.after b) frames e log') : Keeps b frames e (log ++ log') :=
  ⟨(loans.accepts_append).mpr ⟨h, h'.1⟩, by rw [List.foldl_append]; exact h'.2⟩

/-- The frame that is kept is given back, once nothing waits for it. -/
theorem keeps_released {frame : NativeFrame} (hfresh : b.fresh ≤ frames) (hloan : b.loan = none)
    (hunclean : b.unclean = none) (hheld : b.held = some frame.number)
    (hpending : e.pendingOutput = none) (hframe : e.quarantinedFrame = none) :
    Keeps b frames e [.releaseFrame frame.number] := by
  have hafter : b.after (.releaseFrame frame.number) = { fresh := b.fresh } := by
    unfold Ledger.after
    rw [hheld]
    simp [hloan, hunclean]
  refine ⟨⟨⟨by rw [hloan]; simp, by rw [hunclean]; simp⟩, trivial⟩, ?_⟩
  rw [List.foldl_cons, List.foldl_nil, hafter]
  exact linked_free hfresh hpending hframe

theorem keeps_retry (h : Linked b e frames) (release : NvStatus) (lease : LeaseReleaseResult) :
    Keeps b frames (e.retryOutputReclamation release lease).1
      (e.retryOutputReclamation release lease).2.1 := by
  unfold NativeNvenc.retryOutputReclamation
  rcases hpending : e.pendingOutput with - | loan
  -- nothing is lent, so at most a frame is held
  · have hloan : b.loan = none := by rw [h.loan, hpending]; rfl
    dsimp only
    split
    · exact keeps_nothing h
    · next hshutdown =>
      have hunclean : b.unclean = none := by
        cases hunclean : b.unclean with
        | none => rfl
        | some n => exact absurd (h.unclean n hunclean).2 hshutdown
      rcases hframe : e.quarantinedFrame with - | frame
      · exact keeps_nothing h
      · have hheld : b.held = some frame.number := by rw [h.held, hframe]; rfl
        obtain ⟨result, hrelease⟩ :=
          releaseFrameOrRestore_leased none (h.leased frame hframe).1 lease
        dsimp only
        rw [hrelease]
        exact keeps_released h.fresh hloan hunclean hheld rfl rfl
  -- the output is released before the frame
  · have hloan : b.loan = some loan.number := by rw [h.loan, hpending]; rfl
    obtain ⟨hheld, hunclean⟩ := h.lent loan.number hloan
    have hraw : e.raw = true := h.raw (.inl (by rw [hloan]; simp))
    dsimp only
    rw [if_neg (by simp [hraw])]
    split
    · next hrelease =>
      refine ⟨⟨hloan, trivial⟩, ?_⟩
      rw [List.foldl_cons, List.foldl_nil, Ledger.after, if_neg hrelease]
      exact h
    · next hrelease =>
      rw [not_not] at hrelease
      subst hrelease
      rcases hframe : e.quarantinedFrame with - | frame
      · rw [h.held, hframe] at hheld
        cases hheld
      · have hheld' : b.held = some frame.number := by rw [h.held, hframe]; rfl
        obtain ⟨result, hrelease⟩ :=
          releaseFrameOrRestore_leased none (h.leased frame hframe).1 lease
        dsimp only
        rw [hrelease]
        exact Keeps.append (show loans.Accepts b [.releaseOutput loan.number .ok] from ⟨hloan, trivial⟩)
          (keeps_released h.fresh rfl hunclean hheld' rfl rfl)

theorem keeps_setBitrate (h : Linked b e frames) (bitrate : UInt32) (status : NvStatus) :
    Keeps b frames (e.setBitrate bitrate status).1 (e.setBitrate bitrate status).2.1 := by
  unfold NativeNvenc.setBitrate
  split
  · exact keeps_nothing h
  split
  · exact keeps_nothing h
  split
  · exact keeps_nothing h
  · next hidle =>
    rw [not_or, Option.not_isSome_iff_eq_none, Option.not_isSome_iff_eq_none] at hidle
    have hledger := linked_idle h hidle.1 hidle.2
    refine ⟨⟨?_, trivial⟩, h⟩
    rw [hledger]
    exact ⟨rfl, rfl, rfl⟩

/-- A frame that is refused is dropped; it is none of those the encoder keeps. -/
theorem keeps_refused (h : Linked b e frames) :
    Keeps b (frames + 1) e (NativeFrame.drop ⟨frames, true⟩) := by
  have hother : ∀ n, b.held = some n → n < frames := by
    intro n hheld
    rw [h.held] at hheld
    obtain ⟨frame, hframe, rfl⟩ := Option.map_eq_some_iff.mp hheld
    exact (h.leased frame hframe).2
  have hheld : b.held.filter (· ≠ frames) = b.held := by
    cases hheld : b.held with
    | none => rfl
    | some n =>
      have hne : n ≠ frames := (hother n hheld).ne
      simp [Option.filter, hne]
  refine ⟨⟨⟨fun hloan => ?_, fun hunclean => ?_⟩, trivial⟩, ?_⟩
  · exact absurd (hother frames (h.lent frames hloan).1) (lt_irrefl _)
  · exact absurd (hother frames (h.unclean frames hunclean).1) (lt_irrefl _)
  · show Linked { b with held := b.held.filter (· ≠ frames) } e (frames + 1)
    rw [hheld]
    exact { h with
      fresh := h.fresh.trans (Nat.le_succ _)
      leased := fun frame hframe =>
        ⟨(h.leased frame hframe).1, (h.leased frame hframe).2.trans (Nat.lt_succ_self _)⟩ }

/-- The frame of an encode is given back when nothing is left of it. -/
theorem keeps_giveBack {log : List NativeCall} (hpending : e.pendingOutput = none)
    (hframe : e.quarantinedFrame = none) (hlog : loans.Accepts b log)
    (hledger : log.foldl Ledger.after b = ⟨frames + 1, none, none, some frames⟩)
    (lease : LeaseReleaseResult) (result : Except ProducerError QueuedUnit) :
    Keeps b (frames + 1) (e.giveBack log ⟨frames, true⟩ lease result).1
      (e.giveBack log ⟨frames, true⟩ lease result).2.1 := by
  obtain ⟨released, hrelease⟩ :=
    releaseFrameOrRestore_leased e.quarantinedFrame (show (⟨frames, true⟩ : NativeFrame).lease from rfl)
      lease
  have hreleased : Keeps (log.foldl Ledger.after b) (frames + 1)
      { e with quarantinedFrame := e.quarantinedFrame } [.releaseFrame frames] := by
    rw [hledger]
    exact @keeps_released _ _ _ ⟨frames, true⟩ le_rfl rfl rfl rfl hpending hframe
  unfold NativeNvenc.giveBack
  rw [hrelease]
  cases released with
  | ok => exact Keeps.append hlog hreleased
  | error => exact Keeps.append hlog hreleased

theorem keeps_encodeTexture (h : Linked b e frames) (answer : EncodeAnswer) (release : NvStatus)
    (lease : LeaseReleaseResult) :
    Keeps b (frames + 1) (e.encodeTexture ⟨frames, true⟩ answer release lease).1
      (e.encodeTexture ⟨frames, true⟩ answer release lease).2.1 := by
  unfold NativeNvenc.encodeTexture
  split
  -- busy: a bitstream or a texture is still out
  · exact keeps_refused h
  next hidle =>
  rw [not_or, Option.not_isSome_iff_eq_none, Option.not_isSome_iff_eq_none] at hidle
  obtain ⟨hpending, hframe⟩ := hidle
  split
  · exact keeps_refused h
  next hraw =>
  rw [Bool.not_eq_true', Bool.not_eq_false] at hraw
  -- idle, so the books are empty and the frame may be lent
  have hledger := linked_idle h hpending hframe
  have hallows : b.Allows (.encodeTexture frames answer.status) := by
    rw [hledger]
    exact ⟨h.fresh, rfl, rfl, rfl⟩
  split
  · next hstatus =>
    have hafter : b.after (.encodeTexture frames answer.status) =
        ⟨frames + 1, none, if answer.status = .cleanupFailed then some frames else none,
          some frames⟩ := by
      rw [hledger, Ledger.after, if_neg hstatus]
    split
    · next hcleanup =>
      -- the cleanup failed: the frame is kept as unclean
      rw [if_pos hcleanup] at hafter
      refine ⟨⟨hallows, trivial⟩, ?_⟩
      rw [List.foldl_cons, List.foldl_nil, hafter]
      exact {
        fresh := le_rfl
        loan := by rw [hpending]; rfl
        held := rfl
        lent := fun _ hloan => by cases hloan
        unclean := fun n hn => ⟨hn, rfl⟩
        raw := fun _ => hraw
        leased := by
          intro frame hsome
          cases hsome
          exact ⟨rfl, Nat.lt_succ_self _⟩ }
    · next hcleanup =>
      rw [if_neg hcleanup] at hafter
      exact @keeps_giveBack b e frames [.encodeTexture frames answer.status] hpending hframe
        ⟨hallows, trivial⟩ hafter lease _
  · next hstatus =>
    rw [not_not] at hstatus
    have hafter : b.after (.encodeTexture frames answer.status) =
        ⟨frames + 1, some frames, none, some frames⟩ := by
      rw [hledger, Ledger.after, hstatus]
      rfl
    have haccepts : loans.Accepts b [.encodeTexture frames answer.status,
        .releaseOutput frames release] := by
      refine ⟨hallows, ?_, trivial⟩
      show Ledger.Allows (b.after (.encodeTexture frames answer.status))
        (.releaseOutput frames release)
      rw [hafter]
      rfl
    dsimp only
    split
    · next hrelease =>
      -- the output was not released: it is still lent
      refine ⟨haccepts, ?_⟩
      rw [List.foldl_cons, List.foldl_cons, List.foldl_nil, hafter, Ledger.after, if_neg hrelease]
      exact {
        fresh := le_rfl
        loan := rfl
        held := rfl
        lent := fun n hn => ⟨hn, rfl⟩
        unclean := fun _ hunclean => by cases hunclean
        raw := fun _ => hraw
        leased := by
          intro frame hsome
          cases hsome
          exact ⟨rfl, Nat.lt_succ_self _⟩ }
    · next hrelease =>
      rw [not_not] at hrelease
      refine keeps_giveBack hpending hframe haccepts ?_ lease _
      rw [List.foldl_cons, List.foldl_cons, List.foldl_nil, hafter, hrelease]
      rfl

/-- The end of a close, once neither a loan nor an encoder is left. -/
theorem keeps_closeFrame (hfresh : b.fresh ≤ frames) (hloan : b.loan = none)
    (hunclean : b.unclean = none) (hheld : b.held = e.quarantinedFrame.map NativeFrame.number)
    (hleased : ∀ frame, e.quarantinedFrame = some frame → frame.lease = true)
    (hpending : e.pendingOutput = none) (log : List NativeCall) (lease : LeaseReleaseResult) :
    ∃ e' calls result, e.closeFrame log lease = (e', log ++ calls, result) ∧
      Keeps b frames e' calls ∧ e'.pendingOutput = none ∧ e'.raw = e.raw ∧
      e'.quarantinedFrame = none := by
  unfold NativeNvenc.closeFrame
  rcases hframe : e.quarantinedFrame with - | frame
  · rw [hframe] at hheld
    refine ⟨⟨e.raw, e.pendingOutput, none, false⟩, [], .ok (), by rw [List.append_nil],
      ⟨trivial, ?_⟩, hpending, rfl, rfl⟩
    rw [List.foldl_nil, Ledger.idle hloan hunclean hheld]
    exact linked_free hfresh hpending rfl
  · rw [hframe] at hheld
    obtain ⟨result, hrelease⟩ :=
      releaseFrameOrRestore_leased none (hleased frame hframe) lease
    dsimp only
    rw [hrelease]
    have hreleased : ∀ requires, Keeps b frames
        ⟨e.raw, e.pendingOutput, none, requires⟩ [.releaseFrame frame.number] :=
      fun requires => keeps_released hfresh hloan hunclean hheld hpending rfl
    cases result with
    | ok => exact ⟨_, _, _, rfl, hreleased _, hpending, rfl, rfl⟩
    | error => exact ⟨_, _, _, rfl, hreleased _, hpending, rfl, rfl⟩

/-- What a close does once no loan is left. -/
theorem keeps_closeEncoder (h : Linked b e frames) (hpending : e.pendingOutput = none)
    (log : List NativeCall) (shutdown : NvStatus) (lease : LeaseReleaseResult) :
    ∃ e' calls result, e.closeEncoder log shutdown lease = (e', log ++ calls, result) ∧
      Keeps b frames e' calls ∧ (result = .ok () →
        e'.pendingOutput = none ∧ e'.raw = false ∧ e'.quarantinedFrame = none) := by
  have hloan : b.loan = none := by rw [h.loan, hpending]; rfl
  have hleased : ∀ frame, e.quarantinedFrame = some frame → frame.lease = true :=
    fun frame hframe => (h.leased frame hframe).1
  unfold NativeNvenc.closeEncoder
  cases hraw : e.raw with
  | true =>
    -- the encoder is shut down first; a failure keeps everything
    rw [if_pos rfl]
    dsimp only
    split
    · next hshutdown =>
      refine ⟨_, _, _, rfl, ⟨⟨hloan, trivial⟩, ?_⟩, fun hok => by cases hok⟩
      rw [List.foldl_cons, List.foldl_nil, Ledger.after, if_neg hshutdown]
      exact h
    · next hshutdown =>
      rw [not_not] at hshutdown
      obtain ⟨e', calls, result, heq, hkeeps, hpending', hraw', hframe'⟩ :=
        keeps_closeFrame (b := { b with loan := none, unclean := none })
          (e := { e with raw := false }) h.fresh rfl rfl h.held hleased hpending
          (log ++ [.shutdown shutdown]) lease
      refine ⟨e', .shutdown shutdown :: calls, result, ?_, ?_, fun _ => ⟨hpending', hraw', hframe'⟩⟩
      · rw [heq, List.append_assoc]
        rfl
      · refine Keeps.append (show loans.Accepts b [.shutdown shutdown] from ⟨hloan, trivial⟩) ?_
        rw [List.foldl_cons, List.foldl_nil, Ledger.after, if_pos hshutdown]
        exact hkeeps
  | false =>
    -- no encoder is left, so nothing is lent and no frame is held for it
    rw [if_neg (by simp)]
    have hheld : b.held = none := by
      by_contra hheld
      exact absurd (h.raw (.inr hheld)) (by simp [hraw])
    have hunclean : b.unclean = none := by
      cases hunclean : b.unclean with
      | none => rfl
      | some n => cases (h.unclean n hunclean).1.symm.trans hheld
    obtain ⟨e', calls, result, heq, hkeeps, hpending', hraw', hframe'⟩ :=
      keeps_closeFrame h.fresh hloan hunclean h.held hleased hpending log lease
    exact ⟨e', calls, result, heq, hkeeps, fun _ => ⟨hpending', hraw'.trans hraw, hframe'⟩⟩

theorem keeps_close (h : Linked b e frames) (release shutdown : NvStatus)
    (lease : LeaseReleaseResult) :
    Keeps b frames (e.close release shutdown lease).1 (e.close release shutdown lease).2.1 ∧
      ((e.close release shutdown lease).2.2 = .ok () →
        (e.close release shutdown lease).1.pendingOutput = none ∧
        (e.close release shutdown lease).1.raw = false ∧
        (e.close release shutdown lease).1.quarantinedFrame = none) := by
  unfold NativeNvenc.close
  rcases hpending : e.pendingOutput with - | loan
  · obtain ⟨e', calls, result, heq, hkeeps, hok⟩ :=
      keeps_closeEncoder h hpending [] shutdown lease
    dsimp only
    rw [heq]
    exact ⟨hkeeps, hok⟩
  · have hloan : b.loan = some loan.number := by rw [h.loan, hpending]; rfl
    obtain ⟨hheld, hunclean⟩ := h.lent loan.number hloan
    have hraw : e.raw = true := h.raw (.inl (by rw [hloan]; simp))
    dsimp only
    rw [if_neg (by simp [hraw])]
    split
    -- the output was not released, so the close stops here
    · next hrelease =>
      refine ⟨⟨⟨hloan, trivial⟩, ?_⟩, fun hok => by cases hok⟩
      rw [List.foldl_cons, List.foldl_nil, Ledger.after, if_neg hrelease]
      exact h
    · next hrelease =>
      rw [not_not] at hrelease
      have hreleased : Linked { b with loan := none }
          ⟨e.raw, none, e.quarantinedFrame, e.frameRequiresShutdown⟩ frames := {
        fresh := h.fresh
        loan := rfl
        held := h.held
        lent := fun _ hn => by cases hn
        unclean := fun n hn => by cases hunclean.symm.trans hn
        raw := fun _ => hraw
        leased := h.leased }
      obtain ⟨e', calls, result, heq, hkeeps, hok⟩ :=
        keeps_closeEncoder hreleased rfl [.releaseOutput loan.number release] shutdown lease
      rw [heq]
      refine ⟨Keeps.append (show loans.Accepts b [.releaseOutput loan.number release] from
        ⟨hloan, trivial⟩) ?_, hok⟩
      rw [List.foldl_cons, List.foldl_nil, Ledger.after, if_pos hrelease]
      exact hkeeps

theorem keeps_call (h : Linked b e frames) (c : Call) :
    Keeps b (frames + c.frames) (e.call frames c).1 (e.call frames c).2 := by
  cases c with
  | encodeTexture answer release lease => exact keeps_encodeTexture h answer release lease
  | retryOutputReclamation release lease => exact keeps_retry h release lease
  | setBitrate bitrate status => exact keeps_setBitrate h bitrate status
  | close release shutdown lease => exact (keeps_close h release shutdown lease).1

/-! ### The discipline -/

theorem met_run (calls : List Call) :
    loans.Met (run calls).log ∧
      Linked (loans.account (run calls).log) (run calls).encoder (run calls).frames := by
  refine foldl_invariant (I := fun m : Machine =>
    loans.Met m.log ∧ Linked (loans.account m.log) m.encoder m.frames)
    ⟨loans.met_nil, linked_free le_rfl rfl rfl⟩ ?_ calls
  rintro m c ⟨hmet, hlinked⟩
  obtain ⟨haccepts, hlinked'⟩ := keeps_call hlinked c
  refine ⟨hmet.append loans haccepts, ?_⟩
  show Linked (loans.account (m.log ++ _)) _ _
  rw [loans.account_append]
  exact hlinked'

/-- A loan that is out is one of a frame that was passed. -/
theorem loan_lt_fresh {log : List NativeCall} (h : loans.Met log) :
    ∀ n, (loans.account log).loan = some n → n < (loans.account log).fresh := by
  refine (loans.met_iff_accepts.mp h).invariant loans
    (I := fun b : Ledger => ∀ n, b.loan = some n → n < b.fresh) ?_ (fun n hn => by cases hn)
  intro b call hb hallows n hn
  cases call with
  | encodeTexture number status =>
    show n < number + 1
    by_cases hstatus : status = .ok
    · have hsome : (some number : Option Nat) = some n := (if_pos hstatus).symm.trans hn
      cases hsome
      exact Nat.lt_succ_self _
    · have hold : b.loan = some n := (if_neg hstatus).symm.trans hn
      cases hallows.2.1.symm.trans hold
  | releaseOutput number status =>
    by_cases hstatus : status = .ok
    · rw [show loans.after b (.releaseOutput number status) = { b with loan := none } from
        if_pos hstatus] at hn
      cases hn
    · rw [show loans.after b (.releaseOutput number status) = b from if_neg hstatus] at hn ⊢
      exact hb n hn
  | setBitrate status => exact hb n hn
  | shutdown status =>
    by_cases hstatus : status = .ok
    · rw [show loans.after b (.shutdown status) = { b with loan := none, unclean := none } from
        if_pos hstatus] at hn
      cases hn
    · rw [show loans.after b (.shutdown status) = b from if_neg hstatus] at hn ⊢
      exact hb n hn
  | releaseFrame number => exact hb n hn

/-- A loan that is not out does not come back. -/
theorem stays_released (n : Nat) (b : Ledger) (call : NativeCall)
    (h : n < b.fresh ∧ b.loan ≠ some n) (hallows : loans.allows b call) :
    n < (loans.after b call).fresh ∧ (loans.after b call).loan ≠ some n := by
  obtain ⟨hfresh, hloan⟩ := h
  cases call with
  | encodeTexture number status =>
    have hlt : n < number := hfresh.trans_le hallows.1
    refine ⟨Nat.lt_succ_of_lt hlt, ?_⟩
    show (if status = .ok then some number else b.loan) ≠ some n
    split
    · simpa using hlt.ne'
    · exact hloan
  | releaseOutput number status =>
    by_cases hstatus : status = .ok
    · rw [show loans.after b (.releaseOutput number status) = { b with loan := none } from
        if_pos hstatus]
      exact ⟨hfresh, by simp⟩
    · rw [show loans.after b (.releaseOutput number status) = b from if_neg hstatus]
      exact ⟨hfresh, hloan⟩
  | setBitrate status => exact ⟨hfresh, hloan⟩
  | shutdown status =>
    by_cases hstatus : status = .ok
    · rw [show loans.after b (.shutdown status) = { b with loan := none, unclean := none } from
        if_pos hstatus]
      exact ⟨hfresh, by simp⟩
    · rw [show loans.after b (.shutdown status) = b from if_neg hstatus]
      exact ⟨hfresh, hloan⟩
  | releaseFrame number => exact ⟨hfresh, hloan⟩

theorem released_once {before after : List NativeCall} {n : Nat}
    (h : loans.Met (before ++ .releaseOutput n .ok :: after)) :
    ∀ status, .releaseOutput n status ∉ after := by
  intro status hmem
  have haccepts := loans.met_iff_accepts.mp h
  obtain ⟨hbefore, hallows, hafter⟩ := loans.accepts_append.mp haccepts
  have hloan : (loans.account before).loan = some n := hallows
  have hn := loan_lt_fresh (loans.met_iff_accepts.mpr hbefore) n hloan
  obtain ⟨b, ⟨-, hb⟩, hallowed⟩ := hafter.forall_mem loans (stays_released n)
    ⟨hn, by simp [loans, Ledger.after]⟩ _ hmem
  exact hb hallowed

end

/-- What is promised of an encoder after some calls. -/
structure Disciplined (m : Machine) : Prop where
  /-- nothing starts and no frame is released while it must not be -/
  met : loans.Met m.log
  /-- a loan is not touched after it was released -/
  once : ∀ before n after, m.log = before ++ .releaseOutput n .ok :: after →
    ∀ status, .releaseOutput n status ∉ after
  /-- the loan that is out is the one the encoder knows of -/
  known : m.encoder.pendingOutput.map OutputLoan.number = (loans.account m.log).loan
  /-- the frame that has to stay is the encoder's, with its lease -/
  owned : ∀ n, (loans.account m.log).loan = some n ∨ (loans.account m.log).unclean = some n →
    m.encoder.quarantinedFrame = some ⟨n, true⟩
  /-- a close that succeeds leaves nothing -/
  closed : ∀ release shutdown lease, (m.encoder.close release shutdown lease).2.2 = .ok () →
    (m.encoder.close release shutdown lease).1.pendingOutput = none ∧
    (m.encoder.close release shutdown lease).1.raw = false ∧
    (m.encoder.close release shutdown lease).1.quarantinedFrame = none

/-- **The discipline of loans**, after any calls and with any answers of the native
functions. -/
theorem loan_discipline (calls : List Call) : Disciplined (run calls) := by
  obtain ⟨hmet, hlinked⟩ := met_run calls
  exact {
    met := hmet
    once := fun before n after hlog => released_once (hlog ▸ hmet)
    known := hlinked.loan.symm
    owned := by
      intro n hn
      have hheld : (loans.account (run calls).log).held = some n :=
        hn.elim (fun hloan => (hlinked.lent n hloan).1) fun hunclean => (hlinked.unclean n hunclean).1
      rw [hlinked.held] at hheld
      obtain ⟨frame, hframe, rfl⟩ := Option.map_eq_some_iff.mp hheld
      rw [hframe, ← (hlinked.leased frame hframe).1]
    closed := fun release shutdown lease => (keeps_close hlinked release shutdown lease).2 }

end EncoderLoans

end RdEngine
