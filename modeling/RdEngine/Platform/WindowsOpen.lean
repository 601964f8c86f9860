/-
RdEngine/Platform/WindowsOpen.lean

How the Windows publisher is opened and probed (`platform/windows_host_publisher.rs`),
down to the native calls that create and close a capture and an encoder.

What the native calls answer is arbitrary.  `Objects` says which native objects there
are, and how each attempt to close one ended: a value that is dropped closes its
object, and nobody looks at the result.
-/
import RdEngine.Platform.DesktopDuplication

namespace RdEngine

namespace WindowsHost

open WindowsPublisher (ProducerError PublisherError mapProducer)
open DesktopDuplication (Status Luid mapDdStatus luid nativeFormat DisplayDiagnostics CaptureInfo)

/-! ### Configurations -/

/-- `NonZeroU32`. -/
abbrev NonZeroU32 := { n : Nat // 0 < n ∧ n < 2 ^ 32 }

/-- Of an integer that is cast to 32 bits. -/
def nonZeroU32 (n : Int) : Option NonZeroU32 :=
  let bits := (n % 2 ^ 32).toNat
  if h : 0 < bits ∧ bits < 2 ^ 32 then some ⟨bits, h⟩ else none

inductive Codec where
  | h264 | h265
deriving Repr, DecidableEq

inductive PublisherBackend where
  | auto | dxgiNvenc
deriving Repr, DecidableEq

structure PublisherConfig where
  codec : Codec
  width : Int
  height : Int
  fps : Nat
  bitrate : Int
  autoBitrate : Bool
  maxQueuedUnits : Nat
  maxQueuedBytes : Nat
  backend : PublisherBackend
  outputIndex : Nat
deriving Repr, DecidableEq

/-- `ProducerConfig`: none of its numbers is zero. -/
structure ProducerConfig where
  codec : Codec
  width : NonZeroU32
  height : NonZeroU32
  fpsNumerator : NonZeroU32
  fpsDenominator : NonZeroU32
  bitrate : NonZeroU32
  sourceColor : MediaColorContract
  encodedColor : MediaColorContract
deriving DecidableEq

/-- `resources_unconfirmed`: the error may have left something behind. -/
def resourcesUnconfirmed : PublisherError → Bool
  | .workerFailed | .reclamationUnconfirmed => true
  | _ => false

def validateConfig (config : PublisherConfig) : Except PublisherError Unit :=
  if config.width ≤ 0 ∨ config.height ≤ 0 ∨ config.fps = 0 ∨ config.fps > 240 ∨
      config.bitrate ≤ 0 ∨ config.bitrate > 200000000 ∨ config.maxQueuedUnits = 0 ∨
      config.maxQueuedUnits > 64 ∨ config.maxQueuedBytes = 0 ∨
      config.maxQueuedBytes > 64 * 1024 * 1024 then .error .invalidConfig
  else .ok ()

/-- There is one backend on Windows, under both names. -/
def selectBackend : PublisherBackend → Except PublisherError Unit
  | .auto | .dxgiNvenc => .ok ()

/-- What the encoder is opened with, for this capture. -/
def nativeConfig (config : PublisherConfig) (info : CaptureInfo) :
    Except PublisherError ProducerConfig := do
  let some width := nonZeroU32 config.width | throw .invalidConfig
  let some height := nonZeroU32 config.height | throw .invalidConfig
  if width.val ≠ info.descriptor.width ∨ height.val ≠ info.descriptor.height then
    throw .invalidConfig
  let some fps := nonZeroU32 config.fps | throw .invalidConfig
  let some bitrate := nonZeroU32 config.bitrate | throw .invalidConfig
  let encoded ← encodedColor info.descriptor.sourceColor
  return {
    codec := config.codec
    width := width
    height := height
    fpsNumerator := fps
    fpsDenominator := ⟨1, by decide⟩
    bitrate := bitrate
    sourceColor := info.descriptor.sourceColor
    encodedColor := encoded }

/-! ### Native objects -/

/-- What a call of the encoder answers. -/
inductive NvStatus where
  | ok | invalidArgument | unsupported | dllNotFound | driverTooOld | nvencError | d3d11Error
  | outOfMemory | busy | cleanupFailed | internalError
deriving Repr, DecidableEq

def mapNv : NvStatus → ProducerError
  | .invalidArgument => .invalidConfig
  | .unsupported => .capabilityExceeded
  | .dllNotFound | .driverTooOld => .backendUnavailable
  | .d3d11Error => .adapterMismatch
  | .busy | .cleanupFailed => .reclamationUnconfirmed
  | .outOfMemory | .nvencError | .internalError | .ok => .encoderFailed

/-- An output, by its adapter and its number there. -/
structure OutputId where
  adapterLuid : Int
  outputIndex : Nat
deriving Repr, DecidableEq

/-- What `rd_dd_get_capture_info` reports; luminances are the bits of floats. -/
structure RdDdCaptureInfo where
  pixelFormat : UInt32
  width : UInt32
  height : UInt32
  adapterLuid : Luid
  qpcFrequency : UInt64
  dxgiColorSpaceType : UInt32
  bitsPerColor : UInt32
  displayMinLuminanceNits : UInt32
  displayMaxLuminanceNits : UInt32
  displayMaxFullFrameLuminanceNits : UInt32
  reserved : UInt32
  d3d11Device : Option Nat
deriving Repr, DecidableEq

/-- The colors, as the encoder writes them into the stream. -/
structure RdNvencColorConfig where
  videoFullRange : Bool
  colorPrimaries : Nat
  transferCharacteristics : Nat
  matrixCoefficients : Nat
  videoFormat : Nat
deriving Repr, DecidableEq

/-- What `rd_nvenc_create` is asked for; no metadata is metadata that is not enabled. -/
structure RdNvencCreateDesc where
  codec : Codec
  inputFormat : Nat
  width : NonZeroU32
  height : NonZeroU32
  fpsNum : NonZeroU32
  fpsDen : NonZeroU32
  bitrateBps : NonZeroU32
  gopLength : Nat
  color : RdNvencColorConfig
  hdrStatic : Option HdrStaticMetadata
deriving DecidableEq

/-- What the native calls answer.  A call that creates an object may also leave the
pointer null; the closes of an object are answered in their order. -/
structure Native where
  enumerateOutputs : Except ProducerError (List OutputId)
  ddOpen : OutputId → Status × Bool
  ddGetCaptureInfo : Except Status RdDdCaptureInfo
  nvencCreate : Nat → RdNvencCreateDesc → NvStatus × Bool
  ddClose : Nat → Status
  nvencShutdown : Nat → NvStatus

/-- A native object: whether there is one, and how the attempts to close it ended. -/
structure NativeObject where
  created : Bool := false
  closes : List Bool := []
deriving Repr, DecidableEq

/-- The last close of the object succeeded. -/
def NativeObject.Confirmed (o : NativeObject) : Prop := o.closes.getLast? = some true

def NativeObject.CloseFailed (o : NativeObject) : Prop := o.closes.getLast? = some false

/-- The object is closed once more. -/
def NativeObject.close (o : NativeObject) (ok : Bool) : NativeObject :=
  { o with closes := o.closes ++ [ok] }

/-- The native objects of one call. -/
structure Objects where
  capture : NativeObject := {}
  encoder : NativeObject := {}
deriving Repr, DecidableEq

namespace Objects

variable (native : Native) (w : Objects)

/-- `rd_dd_close`. -/
def ddClose : Objects × Status :=
  let status := native.ddClose w.capture.closes.length
  ({ w with capture := w.capture.close (status = .ok) }, status)

/-- `rd_nvenc_shutdown`. -/
def nvencShutdown : Objects × NvStatus :=
  let status := native.nvencShutdown w.encoder.closes.length
  ({ w with encoder := w.encoder.close (status = .ok) }, status)

/-- A capture that was not closed is dropped, and its owner with it. -/
def dropCapture : Objects := (w.ddClose native).1

/-- An encoder that was not closed is dropped. -/
def dropEncoder : Objects := (w.nvencShutdown native).1

end Objects

/-! ### The capture -/

/-- What the native capture tells of itself, once it is checked. -/
def captureInfo (raw : RdDdCaptureInfo) : Except ProducerError CaptureInfo := do
  if raw.qpcFrequency = 0 ∨ raw.reserved ≠ 0 then throw .invalidTimestamp
  let format ← nativeFormat raw.pixelFormat
  if hwidth : raw.width.toNat = 0 then throw .sourceResolutionChanged
  else if hheight : raw.height.toNat = 0 then throw .sourceResolutionChanged
  else
    let color ← sourceColor format raw.dxgiColorSpaceType raw.bitsPerColor
    return {
      descriptor := {
        width := raw.width.toNat
        height := raw.height.toNat
        format := format
        arraySlice := 0
        mipLevel := 0
        adapterLuid := luid raw.adapterLuid
        sourceColor := color
        width_pos := Nat.pos_of_ne_zero hwidth
        height_pos := Nat.pos_of_ne_zero hheight }
      qpcFrequency := raw.qpcFrequency
      display := {
        rawDxgiColorSpaceType := raw.dxgiColorSpaceType
        bitsPerColor := raw.bitsPerColor
        minLuminanceNits := raw.displayMinLuminanceNits
        maxLuminanceNits := raw.displayMaxLuminanceNits
        maxFullFrameLuminanceNits := raw.displayMaxFullFrameLuminanceNits } }

/-- `DesktopDuplicationCapture`, which owns the native capture. -/
structure Capture where
  device : Nat
  info : CaptureInfo
deriving DecidableEq

structure DesktopDuplicationOpenError where
  error : ProducerError
  validationError : ProducerError
  /-- the native capture, when it could not be closed -/
  quarantine : Bool
deriving Repr, DecidableEq

namespace DesktopDuplicationOpenError

/-- The error, with nothing left behind. -/
def plain (error : ProducerError) : DesktopDuplicationOpenError := ⟨error, error, false⟩

/-- The capture is closed at once; if that fails it is kept. -/
def afterOpen (native : Native) (w : Objects) (validationError : ProducerError) :
    Objects × DesktopDuplicationOpenError :=
  let (w, status) := w.ddClose native
  if status = .ok then (w, plain validationError)
  else (w, ⟨.reclamationUnconfirmed, validationError, true⟩)

end DesktopDuplicationOpenError

/-- What the native capture says of itself, as far as it is acceptable. -/
def describe (native : Native) : Except ProducerError Capture :=
  match native.ddGetCaptureInfo with
  | .error status => .error (mapDdStatus status)
  | .ok raw =>
    match captureInfo raw with
    | .error error => .error error
    | .ok info =>
      match raw.d3d11Device with
      | none => .error .nullD3dResource
      | some device => .ok { device, info }

/-- `DesktopDuplicationCapture::open`. -/
def openCapture (native : Native) (w : Objects) (output : OutputId) :
    Objects × Except DesktopDuplicationOpenError Capture :=
  match native.ddOpen output with
  | (.ok, false) => (w, .error (.plain .captureFailed))
  | (.ok, true) =>
    let w := { w with capture := { created := true } }
    match describe native with
    | .error error =>
      let (w, failure) := DesktopDuplicationOpenError.afterOpen native w error
      (w, .error failure)
    | .ok capture => (w, .ok capture)
  | (status, _) => (w, .error (.plain (mapDdStatus status)))

/-! ### The encoder -/

structure EncoderMode where
  width : NonZeroU32
  height : NonZeroU32
  fpsNumerator : NonZeroU32
  fpsDenominator : NonZeroU32
deriving DecidableEq

structure EncoderCapabilities where
  codec : Codec
  adapterLuid : Int
  inputFormat : DxgiFormat
  inputColor : MediaColorContract
  outputColor : MediaColorContract
  supportedModes : List EncoderMode
  acceptsDirectD3d11Resource : Bool
  supportsMain10 : Bool
  supportsHdrStaticMetadata : Bool
deriving DecidableEq

def ProducerConfig.mode (config : ProducerConfig) : EncoderMode where
  width := config.width
  height := config.height
  fpsNumerator := config.fpsNumerator
  fpsDenominator := config.fpsDenominator

def capability (config : ProducerConfig) (descriptor : TextureDescriptor) :
    EncoderCapabilities where
  codec := config.codec
  adapterLuid := descriptor.adapterLuid
  inputFormat := descriptor.format
  inputColor := descriptor.sourceColor
  outputColor := config.encodedColor
  supportedModes := [config.mode]
  acceptsDirectD3d11Resource := true
  supportsMain10 := descriptor.format = .p010 ∨ descriptor.format = .r10g10b10a2Unorm
  supportsHdrStaticMetadata := config.codec = .h265 ∧
    (descriptor.format = .p010 ∨ descriptor.format = .r10g10b10a2Unorm)

def nvInputFormat : DxgiFormat → Except ProducerError Nat
  | .nv12 => .ok 1
  | .p010 => .ok 2
  | .b8g8r8a8Unorm => .ok 3
  | .r8g8b8a8Unorm => .ok 4
  | .r10g10b10a2Unorm => .ok 5
  | .r16g16b16a16Float => .error .unsupportedDirectInput

def vui (color : MediaColorContract) : Except ProducerError RdNvencColorConfig := do
  let primaries ←
    match color.colorimetry.primaries with
    | .bt709 => .ok 1
    | .bt2020 => .ok 9
    | _ => .error .colorContractChanged
  let transfer ←
    match color.colorimetry.transfer with
    | .bt709 => .ok 1
    | .gamma22 => .ok 4
    | .srgb => .ok 13
    | .pq => .ok 16
    | .hlg => .ok 18
    | _ => .error .colorContractChanged
  let matrix ←
    match color.colorimetry.matrix with
    | .identity => .ok 0
    | .bt709 => .ok 1
    | .bt2020NonConstantLuminance => .ok 9
    | .bt2020ConstantLuminance => .ok 10
    | .unspecified => .error .colorContractChanged
  return {
    videoFullRange := color.colorimetry.range = .full
    colorPrimaries := primaries
    transferCharacteristics := transfer
    matrixCoefficients := matrix
    videoFormat := 5 }

/-- The metadata of a picture with a high dynamic range, where they are valid. -/
def hdrStatic : Option HdrStaticMetadata → Except ProducerError (Option HdrStaticMetadata)
  | none => .ok none
  | some metadata =>
    if metadata.isValid then .ok (some metadata) else .error .unsupportedHdrMetadata

structure NativeNvencOpenError where
  error : ProducerError
  /-- the native encoder, when it was not cleaned up -/
  quarantine : Bool
deriving Repr, DecidableEq

/-- `NativeNvenc`, which owns the native encoder. -/
structure NativeNvenc where
  capability : EncoderCapabilities
  config : ProducerConfig
deriving DecidableEq

/-- The checks of `NativeNvenc::new`, up to the description of the encoder. -/
def createDesc (config : ProducerConfig) (capture : Capture) :
    Except ProducerError RdNvencCreateDesc := do
  let descriptor := capture.info.descriptor
  if descriptor.width ≠ config.width.val ∨ descriptor.height ≠ config.height.val ∨
      descriptor.sourceColor ≠ config.sourceColor then throw .invalidConfig
  let source := config.sourceColor
  let encoded := config.encodedColor
  if source.colorimetry.primaries ≠ encoded.colorimetry.primaries ∨
      source.colorimetry.transfer ≠ encoded.colorimetry.transfer ∨
      source.hdrStatic ≠ encoded.hdrStatic ∨
      source.storage.bitDepth ≠ encoded.storage.bitDepth then throw .colorContractChanged
  validateEncodedTransport encoded
  let inputFormat ← nvInputFormat descriptor.format
  let color ← vui encoded
  let metadata ← hdrStatic encoded.hdrStatic
  return {
    codec := config.codec
    inputFormat := inputFormat
    width := config.width
    height := config.height
    fpsNum := config.fpsNumerator
    fpsDen := config.fpsDenominator
    bitrateBps := config.bitrate
    gopLength := (config.fpsNumerator.val + config.fpsDenominator.val - 1)
      / config.fpsDenominator.val
    color := color
    hdrStatic := metadata }

/-- `NativeNvenc::new`.  A call that fails may still leave an encoder behind, which it
could not clean up. -/
def newNvenc (native : Native) (w : Objects) (config : ProducerConfig) (capture : Capture) :
    Objects × Except NativeNvencOpenError NativeNvenc :=
  match createDesc config capture with
  | .error error => (w, .error ⟨error, false⟩)
  | .ok desc =>
    match native.nvencCreate capture.device desc with
    | (.ok, false) => (w, .error ⟨.encoderFailed, false⟩)
    | (.ok, true) =>
      ({ w with encoder := { created := true } },
        .ok ⟨WindowsHost.capability config capture.info.descriptor, config⟩)
    | (.cleanupFailed, false) => (w, .error ⟨.reclamationUnconfirmed, false⟩)
    | (.cleanupFailed, true) =>
      ({ w with encoder := { created := true, closes := [false] } },
        .error ⟨.reclamationUnconfirmed, true⟩)
    | (status, _) => (w, .error ⟨mapNv status, false⟩)

/-- `validate_capability`: the encoder does what the configuration asks for. -/
def validateCapability (c : ProducerConfig) (p : EncoderCapabilities) :
    Except ProducerError Unit := do
  if p.codec ≠ c.codec then throw .invalidConfig
  if !p.acceptsDirectD3d11Resource then throw .unsupportedDirectInput
  if p.inputFormat.storage ≠ p.inputColor.storage ∨ p.inputColor ≠ c.sourceColor then
    throw .colorContractChanged
  if c.mode ∉ p.supportedModes then throw .capabilityExceeded
  validateFormatColor p.inputFormat p.inputColor
  if !c.sourceColor.sourcePreserved ∨ !c.sourceColor.colorimetry.isExplicit then
    throw .colorContractChanged
  let source := c.sourceColor.storage.bitDepth
  let encoded := c.encodedColor.storage.bitDepth
  if source ≠ 8 ∧ source ≠ 10 ∨ encoded ≠ 8 ∧ encoded ≠ 10 then throw .unsupportedBitDepth
  if c.sourceColor.colorimetry.primaries ≠ c.encodedColor.colorimetry.primaries ∨
      c.sourceColor.colorimetry.transfer ≠ c.encodedColor.colorimetry.transfer ∨
      c.sourceColor.hdrStatic ≠ c.encodedColor.hdrStatic ∨ source ≠ encoded then
    throw .colorContractChanged
  if (source = 10 ∨ encoded = 10) ∧ !p.supportsMain10 then throw .unsupportedBitDepth
  validateEncodedTransport c.encodedColor
  let some colorClass := classifyNegotiated c.encodedColor p.outputColor
    | throw .colorContractChanged
  if c.encodedColor.colorimetry.transfer = .pq ∨ c.encodedColor.colorimetry.transfer = .hlg then
    if colorClass ≠ .hdr10Pq ∧ colorClass ≠ .hlg10 then throw .colorContractChanged
    if c.encodedColor.hdrStatic.isSome ∧ !p.supportsHdrStaticMetadata then
      throw .unsupportedHdrMetadata
  else if c.encodedColor.hdrStatic.isSome then throw .colorContractChanged

/-! ### Opening -/

/-- The native object that a failed open keeps. -/
inductive OpenQuarantine where
  | capture | encoder
deriving Repr, DecidableEq

/-- `OpenFailure`: why an open failed, and what it left behind. -/
structure OpenFailure where
  error : PublisherError
  quarantine : Option OpenQuarantine
deriving Repr, DecidableEq

/-- A failure that left nothing behind. -/
def OpenFailure.plain (error : PublisherError) : OpenFailure := ⟨error, none⟩

/-- The producer, which owns the capture and the encoder. -/
structure Pipeline where
  capture : Capture
  encoder : NativeNvenc
  config : ProducerConfig
deriving DecidableEq

def output (native : Native) (index : Nat) : Except PublisherError OutputId :=
  match native.enumerateOutputs with
  | .error error => .error (mapProducer error)
  | .ok outputs =>
    match outputs[index]? with
    | none => .error .outputNotFound
    | some output => .ok output

/-- `NativePublisher::open`: an encoder that cannot serve is dropped, and the capture. -/
def openPipeline (native : Native) (w : Objects) (capture : Capture) (encoder : NativeNvenc)
    (config : ProducerConfig) : Objects × Except ProducerError Pipeline :=
  match validateCapability config encoder.capability with
  | .error error => ((w.dropEncoder native).dropCapture native, .error error)
  | .ok () => (w, .ok ⟨capture, encoder, config⟩)

/-- `open_native`: the capture is opened, then the encoder on it, then both are checked. -/
def openNative (native : Native) (config : PublisherConfig) :
    Objects × Except OpenFailure Pipeline :=
  let w : Objects := {}
  match selectBackend config.backend with
  | .error error => (w, .error (.plain error))
  | .ok () =>
    match output native config.outputIndex with
    | .error error => (w, .error (.plain error))
    | .ok selected =>
      match openCapture native w selected with
      | (w, .error failure) =>
        (w, .error {
          error :=
            if failure.error = .reclamationUnconfirmed then .reclamationUnconfirmed
            else .captureFailed
          quarantine := if failure.quarantine then some .capture else none })
      | (w, .ok capture) =>
        match nativeConfig config capture.info with
        | .error error => (w.dropCapture native, .error (.plain error))
        | .ok producer =>
          match newNvenc native w producer capture with
          | (w, .error failure) =>
            (w.dropCapture native, .error {
              error :=
                if failure.error = .reclamationUnconfirmed then .reclamationUnconfirmed
                else .encoderFailed
              quarantine := if failure.quarantine then some .encoder else none })
          | (w, .ok encoder) =>
            match openPipeline native w capture encoder producer with
            | (w, .error error) => (w, .error (.plain (mapProducer error)))
            | (w, .ok pipeline) => (w, .ok pipeline)

/-! ### Closing and probing -/

/-- `CloseQuarantine`, which drops nothing. -/
structure CloseQuarantine where
  encoderClosed : Bool := false
  captureClosed : Bool := false
  lastError : ProducerError := .reclamationUnconfirmed
deriving Repr, DecidableEq

/-- The encoder is closed before the capture. -/
def CloseQuarantine.retry (q : CloseQuarantine) (native : Native) (w : Objects) :
    Objects × Except CloseQuarantine Unit :=
  let (w, encoder) := if q.encoderClosed then (w, .ok) else w.nvencShutdown native
  if encoder ≠ .ok then (w, .error { q with lastError := mapNv encoder })
  else
    let (w, capture) := if q.captureClosed then (w, .ok) else w.ddClose native
    if capture ≠ .ok then
      (w, .error { q with encoderClosed := true, lastError := mapDdStatus capture })
    else (w, .ok ())

/-- `close_native`: one more attempt, after which the quarantine is gone. -/
def closeNative (native : Native) (w : Objects) : Objects × Except PublisherError Unit :=
  match CloseQuarantine.retry {} native w with
  | (w, .ok ()) => (w, .ok ())
  | (w, .error quarantine) =>
    match quarantine.retry native w with
    | (w, .ok ()) => (w, .ok ())
    | (w, .error _) => (w, .error .reclamationUnconfirmed)

/-- A quarantine that is dropped tries once more. -/
def OpenQuarantine.drop (native : Native) (w : Objects) : OpenQuarantine → Objects
  | .capture => w.dropCapture native
  | .encoder => w.dropEncoder native

/-- `probe_codec`: whether a codec can be opened; what was opened is closed again. -/
def probeCodec (native : Native) (config : PublisherConfig) (codec : Codec) : Objects × Bool :=
  match openNative native { config with codec } with
  | (w, .error failure) =>
    (match failure.quarantine with
      | some quarantine => quarantine.drop native w
      | none => w, false)
  | (w, .ok _) =>
    match closeNative native w with
    | (w, .ok ()) => (w, true)
    | (w, .error _) => (w, false)

/-! ### The publisher -/

/-- What `Publisher::open` returns: with the worker, or with what its open has left. -/
structure Publisher where
  worker : Bool
  openQuarantine : Option OpenQuarantine
deriving Repr, DecidableEq

/-- `Publisher::open`; `spawns` says whether the thread of the worker is there. -/
def openPublisher (native : Native) (config : PublisherConfig) (spawns : Bool) :
    Objects × Except PublisherError Publisher :=
  match validateConfig config with
  | .error error => ({}, .error error)
  | .ok () =>
    match selectBackend config.backend with
    | .error error => ({}, .error error)
    | .ok () =>
      if !spawns then ({}, .error .workerStartFailed)
      else
        match openNative native config with
        | (w, .ok _) => (w, .ok ⟨true, none⟩)
        | (w, .error failure) =>
          if failure.error = .reclamationUnconfirmed ∧ failure.quarantine.isSome then
            (w, .ok ⟨false, failure.quarantine⟩)
          else (w, .error failure.error)

end WindowsHost

end RdEngine
