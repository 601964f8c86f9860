/-
RdEngine/Platform/DesktopDuplication.lean

Desktop duplication: the native layer (`rd_desktop_duplication.cpp`) and the owners
of its objects in `platform/windows_native.rs`.

The native layer has one capture, and one lease at most, which is allocated with
a frame and freed when the frame is released.  Every call takes what the graphics
API answers to it.  A call that is passed a pointer which was freed before is not
defined (`none`).  On the side of Rust a lease belongs to a `NativeFrame`, or to
the `CaptureOwner` that all frames and the capture share; `System` is these together.
-/
import RdEngine.Lib.Heap
import RdEngine.Platform.MediaColor

namespace RdEngine

namespace DesktopDuplication

open Cells WindowsPublisher

/-! ### Results of the graphics API -/

/-- `HRESULT`. -/
abbrev HResult := UInt32

namespace HResult

/-- The results that are told apart. -/
def sOk : HResult := 0
def invalidCall : HResult := 0x887A0001
def notFound : HResult := 0x887A0002
def dxgiUnsupported : HResult := 0x887A0004
def deviceRemoved : HResult := 0x887A0005
def deviceReset : HResult := 0x887A0007
def accessLost : HResult := 0x887A0026
def waitTimeout : HResult := 0x887A0027
def sessionDisconnected : HResult := 0x887A0028
def eInvalidArg : HResult := 0x80070057
def ePointer : HResult := 0x80004003
def eNoInterface : HResult := 0x80004002
def eNotImpl : HResult := 0x80004001

/-- `FAILED`: the sign bit. -/
def failed (hr : HResult) : Bool := hr ≥ 0x80000000

def isTerminalDuplicationInvalidation (hr : HResult) : Bool :=
  hr = accessLost ∨ hr = sessionDisconnected ∨ hr = deviceRemoved ∨ hr = deviceReset

def isSafeNoFrameState (hr : HResult) : Bool := hr = invalidCall

/-- An answer of `ReleaseFrame` that leaves open whether the frame was released. -/
def uncertain (hr : HResult) : Bool :=
  hr ≠ sOk ∧ !hr.isTerminalDuplicationInvalidation ∧ !hr.isSafeNoFrameState

end HResult

/-- `rd_dd_status`. -/
inductive Status where
  | ok | wouldBlock | accessLost | geometryChanged | unsupportedFormat | leaseOutstanding
  | reclamationUncertain | notFound | invalidArgument | unsupported | d3dFailure | colorChanged
deriving Repr, DecidableEq

/-- `status_from_hresult`; a result that is not known is a failure. -/
def statusFromHresult (hr : HResult) : Status :=
  if hr = .waitTimeout then .wouldBlock
  else if hr.isTerminalDuplicationInvalidation then .accessLost
  else if hr = .notFound then .notFound
  else if hr = .eInvalidArg ∨ hr = .ePointer then .invalidArgument
  else if hr = .eNoInterface ∨ hr = .eNotImpl ∨ hr = .dxgiUnsupported then .unsupported
  else .d3dFailure

/-! ### Descriptions -/

/-- `LUID`: the number of an adapter, in two halves. -/
structure Luid where
  lowPart : UInt32
  highPart : Int
deriving Repr, DecidableEq

/-- `RECT`: the place of a display on the desktop. -/
structure Rect where
  left : Int
  top : Int
  right : Int
  bottom : Int
deriving Repr, DecidableEq

inductive Rotation where
  | unspecified | identity | rotate90 | rotate180 | rotate270
deriving Repr, DecidableEq

def rotationNeedsCopy (rotation : Rotation) : Bool :=
  rotation = .rotate90 ∨ rotation = .rotate180 ∨ rotation = .rotate270

/-- Equality of floating point numbers, given by their bits: the zeros are equal,
and no NaN is equal to anything. -/
def floatEq (a b : UInt32) : Bool :=
  let magnitude (bits : UInt32) := bits &&& 0x7FFFFFFF
  let isNaN (bits : UInt32) : Bool := magnitude bits > 0x7F800000
  !isNaN a && !isNaN b && (a == b || magnitude a == 0 && magnitude b == 0)

/-- What is read of a `DXGI_OUTPUT_DESC1`; luminances are the bits of floats. -/
structure OutputDesc where
  attachedToDesktop : Bool
  desktopCoordinates : Rect
  rotation : Rotation
  colorSpace : UInt32
  bitsPerColor : UInt32
  minLuminance : UInt32
  maxLuminance : UInt32
  maxFullFrameLuminance : UInt32
deriving Repr, DecidableEq

def sameDisplayColorCapability (a b : OutputDesc) : Bool :=
  a.colorSpace = b.colorSpace && a.bitsPerColor = b.bitsPerColor &&
    floatEq a.minLuminance b.minLuminance && floatEq a.maxLuminance b.maxLuminance &&
    floatEq a.maxFullFrameLuminance b.maxFullFrameLuminance

def formatBgra8 : UInt32 := 1
def formatRgb10A2 : UInt32 := 2

/-- The format of a texture: that of `DXGI_FORMAT` to that of the interface, if known. -/
def abiFormat (format : UInt32) : UInt32 :=
  if format = 87 then formatBgra8 else if format = 24 then formatRgb10A2 else 0

/-! ### The native layer -/

/-- `rd_dd_capture`, from `rd_dd_open` on.  The mode is that of the duplication. -/
structure RdDdCapture where
  device : Nat
  modeWidth : UInt32
  modeHeight : UInt32
  adapterLuid : Luid
  desktopRect : Rect
  rotation : Rotation
  colorDesc : OutputDesc
  qpcFrequency : UInt64
  outstanding : Option Nat := none
  /-- `uncertain_resource` is there -/
  uncertainResource : Bool := false
  accessLost : Bool := false
  reclamationUncertain : Bool := false
deriving Repr, DecidableEq

/-- A frame as the native layer reports it; no pointer is null pointer. -/
structure RdDdFrame where
  pixelFormat : UInt32
  width : UInt32
  height : UInt32
  adapterLuid : Luid
  qpcTimestamp : UInt64
  qpcFrequency : UInt64
  qpcIsDxgiPresentTime : UInt32
  accumulatedFrames : UInt32
  dxgiColorSpaceType : UInt32
  bitsPerColor : UInt32
  displayMinLuminanceNits : UInt32
  displayMaxLuminanceNits : UInt32
  displayMaxFullFrameLuminanceNits : UInt32
  d3d11Texture2d : Option Nat
  d3d11Device : Option Nat
  lease : Option Nat
deriving Repr, DecidableEq

/-- The memory of the native layer: the capture until it is deleted, and the leases.
`captureFrees` is a history variable. -/
structure Native where
  capture : Option RdDdCapture
  leases : Heap
  captureFrees : Nat := 0
deriving Repr, DecidableEq

/-- What the graphics API answers while a frame is acquired. -/
structure Acquisition where
  /-- `ReleaseFrame` of a frame that an earlier acquisition could not release -/
  internal : HResult := .sOk
  getDesc : HResult := .sOk
  current : OutputDesc
  acquireNextFrame : HResult := .sOk
  accumulatedFrames : UInt32 := 1
  lastPresentTime : UInt64
  queryInterface : HResult := .sOk
  texture : Nat
  format : UInt32
  width : UInt32
  height : UInt32
  /-- there is memory for a lease -/
  allocates : Bool := true
  /-- `ReleaseFrame` of a frame that is not handed out -/
  releaseFrame : HResult := .sOk

namespace RdDdCapture

/-- `retry_internal_reclamation`: a frame whose release was in doubt is released again. -/
def retryInternalReclamation (c : RdDdCapture) (hr : HResult) : RdDdCapture × Status :=
  if !c.reclamationUncertain ∨ c.outstanding.isSome ∨ !c.uncertainResource then (c, .ok)
  else if hr = .sOk then ({ c with uncertainResource := false, reclamationUncertain := false }, .ok)
  else if hr.isTerminalDuplicationInvalidation ∨ hr.isSafeNoFrameState then
    ({ c with uncertainResource := false, reclamationUncertain := false, accessLost := true },
      .accessLost)
  else (c, .reclamationUncertain)

/-- A frame that is not handed out is released at once, with this status. -/
def abandonFrame (c : RdDdCapture) (hr : HResult) (status : Status) : RdDdCapture × Status :=
  if hr = .sOk then (c, status)
  else if hr.isTerminalDuplicationInvalidation ∨ hr.isSafeNoFrameState then
    ({ c with accessLost := true }, .accessLost)
  else ({ c with reclamationUncertain := true, uncertainResource := true }, .reclamationUncertain)

/-- The frame that belongs to a lease. -/
def frame (c : RdDdCapture) (a : Acquisition) (lease : Nat) : RdDdFrame where
  pixelFormat := abiFormat a.format
  width := a.width
  height := a.height
  adapterLuid := c.adapterLuid
  qpcTimestamp := a.lastPresentTime
  qpcFrequency := c.qpcFrequency
  qpcIsDxgiPresentTime := 1
  accumulatedFrames := a.accumulatedFrames
  dxgiColorSpaceType := c.colorDesc.colorSpace
  bitsPerColor := c.colorDesc.bitsPerColor
  displayMinLuminanceNits := c.colorDesc.minLuminance
  displayMaxLuminanceNits := c.colorDesc.maxLuminance
  displayMaxFullFrameLuminanceNits := c.colorDesc.maxFullFrameLuminance
  d3d11Texture2d := some a.texture
  d3d11Device := some c.device
  lease := some lease

/-- `rd_dd_acquire` up to the texture: the status with which it ends before. -/
def acquireTexture (c : RdDdCapture) (a : Acquisition) : RdDdCapture × Status :=
  if a.getDesc.failed then
    ({ c with accessLost := c.accessLost || a.getDesc.isTerminalDuplicationInvalidation },
      statusFromHresult a.getDesc)
  else if !a.current.attachedToDesktop ∨ rotationNeedsCopy a.current.rotation ∨
      a.current.rotation ≠ c.rotation ∨ a.current.desktopCoordinates ≠ c.desktopRect then
    (c, .geometryChanged)
  else if !sameDisplayColorCapability a.current c.colorDesc then (c, .colorChanged)
  else if a.acquireNextFrame.failed then
    ({ c with accessLost := c.accessLost || a.acquireNextFrame.isTerminalDuplicationInvalidation },
      statusFromHresult a.acquireNextFrame)
  else if a.accumulatedFrames = 0 ∨ a.lastPresentTime = 0 then
    c.abandonFrame a.releaseFrame .wouldBlock
  else
    let validation :=
      if a.queryInterface.failed then statusFromHresult a.queryInterface
      else if abiFormat a.format = 0 then .unsupportedFormat
      else if a.width ≠ c.modeWidth ∨ a.height ≠ c.modeHeight then .geometryChanged
      else .ok
    if validation ≠ .ok then c.abandonFrame a.releaseFrame validation
    else if !a.allocates then c.abandonFrame a.releaseFrame .d3dFailure
    else (c, .ok)

end RdDdCapture

namespace Native

/-- `rd_dd_acquire`: a frame, or the status without one. -/
def rdDdAcquire (n : Native) (a : Acquisition) : Option (Native × Except Status RdDdFrame) := do
  let c ← n.capture
  if c.accessLost then return (n, .error .accessLost)
  if c.outstanding.isSome then
    return (n, .error (if c.reclamationUncertain then .reclamationUncertain else .leaseOutstanding))
  let (c, retry) :=
    if c.reclamationUncertain then c.retryInternalReclamation a.internal else (c, .ok)
  if retry ≠ .ok then return ({ n with capture := some c }, .error retry)
  let (c, status) := c.acquireTexture a
  if status ≠ .ok then return ({ n with capture := some c }, .error status)
  let lease := n.leases.next
  return ({ n with capture := some { c with outstanding := some lease }, leases := n.leases.alloc },
    .ok (c.frame a lease))

/-- `rd_dd_release`, of a lease whose owner is the capture. -/
def rdDdRelease (n : Native) (lease : Nat) (hr : HResult) : Option (Native × Status) := do
  guard (lease ∈ n.leases.live)
  let c ← n.capture
  if c.outstanding ≠ some lease then return (n, .invalidArgument)
  if hr.uncertain then
    return ({ n with capture := some { c with reclamationUncertain := true } },
      .reclamationUncertain)
  let leases ← n.leases.free lease
  let c := { c with
    outstanding := none
    reclamationUncertain := false
    accessLost := c.accessLost || hr ≠ .sOk }
  return ({ n with capture := some c, leases }, .ok)

/-- `rd_dd_close`; its mutex is not held any more when the capture is deleted. -/
def rdDdClose (n : Native) (internal : HResult) : Option (Native × Status) := do
  let c ← n.capture
  if c.outstanding.isSome then
    return (n, if c.reclamationUncertain then .reclamationUncertain else .leaseOutstanding)
  let (c, retry) := if c.reclamationUncertain then c.retryInternalReclamation internal else (c, .ok)
  if retry = .reclamationUncertain then return ({ n with capture := some c }, retry)
  return ({ n with capture := none, captureFrees := n.captureFrees + 1 }, .ok)

end Native

/-! ### The owner -/

def mapDdStatus : Status → ProducerError
  | .reclamationUncertain | .leaseOutstanding => .reclamationUnconfirmed
  | .geometryChanged => .sourceResolutionChanged
  | .unsupportedFormat => .sourceFormatChanged
  | .colorChanged => .colorContractChanged
  | .invalidArgument => .invalidConfig
  | .unsupported => .unsupportedDirectInput
  | .accessLost => .captureAccessLost
  | .notFound | .d3dFailure | .wouldBlock | .ok => .captureFailed

/-- `CaptureOwnerState`: whether the pointer to the capture is still there, and a lease
whose release was ambiguous. -/
structure CaptureOwner where
  capture : Bool
  orphanedLease : Option Nat
deriving Repr, DecidableEq

/-- What the release of a lease comes to: it is released, or its owner keeps it. -/
inductive LeaseReleaseResult where
  | released
  | transferredToOwner (error : ProducerError)
deriving Repr, DecidableEq

namespace CaptureOwner

/-- An owner without an orphaned lease. -/
def new : CaptureOwner := ⟨true, none⟩

/-- `retry_orphaned_locked`: a lease that was kept is released before anything else. -/
def retryOrphanedLocked (o : CaptureOwner) (n : Native) (hr : HResult) :
    Option (Native × CaptureOwner × Except ProducerError Unit) :=
  match o.orphanedLease with
  | none => some (n, o, .ok ())
  | some lease => do
    let (n, status) ← n.rdDdRelease lease hr
    if status = .ok then return (n, { o with orphanedLease := none }, .ok ())
    else return (n, o, .error (mapDdStatus status))

/-- `acquire`: the next frame, once no lease is left over. -/
def acquire (o : CaptureOwner) (n : Native) (orphan : HResult) (a : Acquisition) :
    Option (Native × CaptureOwner × Except ProducerError (Except Status RdDdFrame)) := do
  let (n, o, retried) ← o.retryOrphanedLocked n orphan
  match retried with
  | .error error => return (n, o, .error error)
  | .ok () =>
    if o.capture then
      let (n, result) ← n.rdDdAcquire a
      return (n, o, .ok result)
    else return (n, o, .error .closed)

/-- `release_lease`; a lease that cannot be released is kept, and only one is. -/
def releaseLease (o : CaptureOwner) (n : Native) (lease : Nat) (hr : HResult) :
    Option (Native × CaptureOwner × LeaseReleaseResult) :=
  if o.orphanedLease.isSome then
    some (n, o, .transferredToOwner .reclamationUnconfirmed)
  else do
    let (n, status) ← n.rdDdRelease lease hr
    if status = .ok then return (n, o, .released)
    else return (n, { o with orphanedLease := some lease }, .transferredToOwner (mapDdStatus status))

/-- `close`: the orphan first, and then the capture. -/
def close (o : CaptureOwner) (n : Native) (orphan internal : HResult) :
    Option (Native × CaptureOwner × Except ProducerError Unit) := do
  let (n, o, retried) ← o.retryOrphanedLocked n orphan
  match retried with
  | .error error => return (n, o, .error error)
  | .ok () =>
    if o.capture then
      let (n, status) ← n.rdDdClose internal
      if status = .ok then return (n, { o with capture := false }, .ok ())
      else return (n, o, .error (mapDdStatus status))
    else return (n, o, .error .closed)

/-- `Drop`: an orphan that cannot be released is left where it is, with the capture. -/
def drop (o : CaptureOwner) (n : Native) (orphan internal : HResult) : Option Native := do
  let (n, o, retried) ← o.retryOrphanedLocked n orphan
  match retried with
  | .error _ => return n
  | .ok () =>
    if o.capture then return (← n.rdDdClose internal).1
    else return n

end CaptureOwner

/-! ### Frames -/

/-- Diagnostics of a display; luminances are the bits of floats. -/
structure DisplayDiagnostics where
  rawDxgiColorSpaceType : UInt32
  bitsPerColor : UInt32
  minLuminanceNits : UInt32
  maxLuminanceNits : UInt32
  maxFullFrameLuminanceNits : UInt32
deriving Repr, DecidableEq

structure CaptureInfo where
  descriptor : TextureDescriptor
  qpcFrequency : UInt64
  display : DisplayDiagnostics
deriving DecidableEq

/-- A frame of the capture, with its lease. -/
structure NativeFrame where
  texture : Nat
  device : Nat
  lease : Option Nat
  descriptor : TextureDescriptor
  ptsUs : Int
  accumulatedFrames : UInt32
  display : DisplayDiagnostics
deriving DecidableEq

/-- The number of an adapter, in one piece. -/
def luid (raw : Luid) : Int := raw.highPart * 2 ^ 32 + raw.lowPart.toNat

/-- The format of a texture, where it is one that can be encoded. -/
def nativeFormat (pixelFormat : UInt32) : Except ProducerError DxgiFormat :=
  if pixelFormat = formatBgra8 then .ok .b8g8r8a8Unorm
  else if pixelFormat = formatRgb10A2 then .ok .r10g10b10a2Unorm
  else .error .sourceFormatChanged

/-- The checks of `from_raw`, in their order. -/
def NativeFrame.check (raw : RdDdFrame) (expected : CaptureInfo) (expectedDevice : Nat)
    (firstEmittedQpc : Option UInt64) : Except ProducerError NativeFrame := do
  if raw.qpcIsDxgiPresentTime ≠ 1 ∨ raw.qpcFrequency = 0 then throw .invalidTimestamp
  let format ← nativeFormat raw.pixelFormat
  if hwidth : raw.width.toNat = 0 then throw .sourceResolutionChanged
  else if hheight : raw.height.toNat = 0 then throw .sourceResolutionChanged
  else
    let color ← sourceColor format raw.dxgiColorSpaceType raw.bitsPerColor
    if raw.qpcFrequency ≠ expected.qpcFrequency ∨
        raw.width.toNat ≠ expected.descriptor.width ∨
        raw.height.toNat ≠ expected.descriptor.height ∨ format ≠ expected.descriptor.format ∨
        luid raw.adapterLuid ≠ expected.descriptor.adapterLuid ∨
        color ≠ expected.descriptor.sourceColor ∨
        raw.dxgiColorSpaceType ≠ expected.display.rawDxgiColorSpaceType ∨
        raw.bitsPerColor ≠ expected.display.bitsPerColor then throw .colorContractChanged
    let base := firstEmittedQpc.getD raw.qpcTimestamp
    if raw.qpcTimestamp < base then throw .invalidTimestamp
    -- the product fits in 128 bits
    let pts := (raw.qpcTimestamp.toNat - base.toNat) * 1000000 / raw.qpcFrequency.toNat
    if pts ≥ 2 ^ 63 then throw .invalidTimestamp
    let some texture := raw.d3d11Texture2d | throw .nullD3dResource
    let some device := raw.d3d11Device | throw .nullD3dResource
    if device ≠ expectedDevice then throw .adapterMismatch
    let some lease := raw.lease | throw .nullD3dResource
    return {
      texture := texture
      device := device
      lease := some lease
      descriptor := {
        width := raw.width.toNat
        height := raw.height.toNat
        format := format
        arraySlice := 0
        mipLevel := 0
        adapterLuid := luid raw.adapterLuid
        sourceColor := color
        width_pos := Nat.pos_of_ne_zero hwidth
        height_pos := Nat.pos_of_ne_zero hheight }
      ptsUs := pts
      accumulatedFrames := raw.accumulatedFrames
      display := {
        rawDxgiColorSpaceType := raw.dxgiColorSpaceType
        bitsPerColor := raw.bitsPerColor
        minLuminanceNits := raw.displayMinLuminanceNits
        maxLuminanceNits := raw.displayMaxLuminanceNits
        maxFullFrameLuminanceNits := raw.displayMaxFullFrameLuminanceNits } }

/-- A frame that is refused gives its lease back. -/
def retainFailedFrame (o : CaptureOwner) (n : Native) (raw : RdDdFrame) (hr : HResult) :
    Option (Native × CaptureOwner) :=
  match raw.lease with
  | some lease => do
    let (n, o, _) ← o.releaseLease n lease hr
    return (n, o)
  | none => some (n, o)

/-- `from_raw`: a frame that fails a check is released. -/
def NativeFrame.fromRaw (o : CaptureOwner) (n : Native) (raw : RdDdFrame) (expected : CaptureInfo)
    (expectedDevice : Nat) (firstEmittedQpc : Option UInt64) (hr : HResult) :
    Option (Native × CaptureOwner × Except ProducerError NativeFrame) :=
  match NativeFrame.check raw expected expectedDevice firstEmittedQpc with
  | .ok frame => some (n, o, .ok frame)
  | .error error => do
    let (n, o) ← retainFailedFrame o n raw hr
    return (n, o, .error error)

/-! ### The capture -/

/-- `DesktopDuplicationCapture`, without the owner it shares with its frames. -/
structure DesktopDuplicationCapture where
  device : Nat
  info : CaptureInfo
  firstEmittedQpc : Option UInt64 := none
deriving DecidableEq

/-- What belongs to one capture that was opened.  The owner is there as long as the
capture or a frame is, and is dropped with the last of them. -/
structure System where
  native : Native
  owner : Option CaptureOwner
  capture : Option DesktopDuplicationCapture
  frames : List NativeFrame

/-- What a user of the capture and its frames does, and what the graphics API answers.
`orphan` is the answer about a lease that was ambiguous before. -/
inductive Call where
  | nextTexture (orphan : HResult) (acquisition : Acquisition) (failed : HResult)
  | retryReclamation (orphan : HResult)
  | close (orphan internal : HResult)
  /-- `NativeFrame::release` -/
  | release (frame : Nat) (hr : HResult)
  | dropFrame (frame : Nat) (hr orphan internal : HResult)
  | dropCapture (orphan internal : HResult)

namespace System

/-- `DesktopDuplicationCapture::open` has succeeded. -/
def opened (capture : RdDdCapture) (info : CaptureInfo) : System where
  native :=
    { capture := some { capture with
        outstanding := none, uncertainResource := false, accessLost := false,
        reclamationUncertain := false }
      leases := .empty }
  owner := some .new
  capture := some { device := capture.device, info }
  frames := []

/-- `next_texture`. -/
def nextTexture (s : System) (o : CaptureOwner) (c : DesktopDuplicationCapture) (orphan : HResult)
    (a : Acquisition) (failed : HResult) :
    Option (System × Except ProducerError (Option NativeFrame)) := do
  let (native, owner, acquired) ← o.acquire s.native orphan a
  let s := { s with native, owner := some owner }
  match acquired with
  | .error error => return (s, .error error)
  | .ok (.error .wouldBlock) => return (s, .ok none)
  | .ok (.error status) => return (s, .error (mapDdStatus status))
  | .ok (.ok raw) =>
    let (native, owner, made) ←
      NativeFrame.fromRaw owner s.native raw c.info c.device c.firstEmittedQpc failed
    let s := { s with native, owner := some owner }
    match made with
    | .error error => return (s, .error error)
    | .ok frame =>
      let c := { c with firstEmittedQpc := c.firstEmittedQpc <|> some raw.qpcTimestamp }
      return ({ s with capture := some c, frames := s.frames ++ [frame] }, .ok (some frame))

/-- The frame gives its lease away. -/
def releaseFrame (s : System) (o : CaptureOwner) (index : Nat) (frame : NativeFrame)
    (hr : HResult) : Option System :=
  match frame.lease with
  | none => some s
  | some lease => do
    let (native, owner, _) ← o.releaseLease s.native lease hr
    return { s with
      native
      owner := some owner
      frames := s.frames.set index { frame with lease := none } }

/-- The owner is dropped with the last that shares it. -/
def dropOwner (s : System) (orphan internal : HResult) : Option System :=
  match s.owner with
  | none => some s
  | some owner =>
    if s.capture.isNone ∧ s.frames = [] then do
      let native ← owner.drop s.native orphan internal
      return { s with native, owner := none }
    else some s

/-- A call; one on a capture or a frame that is gone cannot be made, and does nothing. -/
def call (s : System) : Call → Option System
  | .nextTexture orphan a failed =>
    match s.owner, s.capture with
    | some owner, some capture => (s.nextTexture owner capture orphan a failed).map Prod.fst
    | _, _ => some s
  | .retryReclamation orphan =>
    match s.owner, s.capture with
    | some owner, some _ => do
      let (native, owner, _) ← owner.retryOrphanedLocked s.native orphan
      return { s with native, owner := some owner }
    | _, _ => some s
  | .close orphan internal =>
    match s.owner, s.capture with
    | some owner, some _ => do
      let (native, owner, _) ← owner.close s.native orphan internal
      return { s with native, owner := some owner }
    | _, _ => some s
  | .release index hr =>
    match s.owner, s.frames[index]? with
    | some owner, some frame => s.releaseFrame owner index frame hr
    | _, _ => some s
  | .dropFrame index hr orphan internal =>
    match s.owner, s.frames[index]? with
    | some owner, some frame => do
      let s ← s.releaseFrame owner index frame hr
      { s with frames := s.frames.eraseIdx index }.dropOwner orphan internal
    | _, _ => some s
  | .dropCapture orphan internal => { s with capture := none }.dropOwner orphan internal

/-- The calls of a run, one after the other. -/
def run (s : System) (calls : List Call) : Option System := calls.foldlM call s

end System

end DesktopDuplication

end RdEngine
