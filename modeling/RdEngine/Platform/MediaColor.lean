/-
RdEngine/Platform/MediaColor.lean

Pixel and color contracts (`media_color.rs`), and what the Windows backend makes of
them: the contract of a desktop texture, of the stream that is encoded from it, and
the description that goes to the encoder.
-/
import RdEngine.Platform.WindowsPublisher

namespace RdEngine

open WindowsPublisher (ProducerError PublisherError)

/-! ### Contracts -/

inductive ChromaSubsampling where
  | cs444 | cs422 | cs420 | monochrome
deriving Repr, DecidableEq

inductive NumericRepresentation where
  | unsignedNormalized | signedNormalized | unsignedInteger | signedInteger | floatingPoint
deriving Repr, DecidableEq

/-- `PixelStorage`: how the components of a pixel are kept. -/
structure PixelStorage where
  bitDepth : UInt8
  subsampling : ChromaSubsampling
  numericRepresentation : NumericRepresentation
deriving Repr, DecidableEq

def PixelStorage.isExplicit (storage : PixelStorage) : Bool :=
  8 ≤ storage.bitDepth && storage.bitDepth ≤ 16

inductive ColorPrimaries where
  | unspecified | bt709 | bt2020 | displayP3
deriving Repr, DecidableEq

inductive TransferCharacteristics where
  | unspecified | srgb | bt709 | bt1886 | gamma22 | pq | hlg | scrgb
deriving Repr, DecidableEq

inductive MatrixCoefficients where
  | unspecified | identity | bt709 | bt2020NonConstantLuminance | bt2020ConstantLuminance
deriving Repr, DecidableEq

inductive ColorRange where
  | unspecified | limited | full
deriving Repr, DecidableEq

/-- `Colorimetry`: what the components of a pixel mean. -/
structure Colorimetry where
  primaries : ColorPrimaries
  transfer : TransferCharacteristics
  matrix : MatrixCoefficients
  range : ColorRange
deriving Repr, DecidableEq

namespace Colorimetry

/-- `is_explicit`: nothing is left to be guessed. -/
def isExplicit (c : Colorimetry) : Bool :=
  c.primaries ≠ .unspecified ∧ c.transfer ≠ .unspecified ∧ c.matrix ≠ .unspecified ∧
    c.range ≠ .unspecified

def isExplicitBt2020 (c : Colorimetry) : Bool :=
  c.isExplicit ∧ c.primaries = .bt2020 ∧
    (c.matrix = .bt2020NonConstantLuminance ∨ c.matrix = .bt2020ConstantLuminance)

end Colorimetry

structure Chromaticity where
  x : UInt16
  y : UInt16
deriving Repr, DecidableEq

/-- `MasteringDisplay`: what the picture was made on. -/
structure MasteringDisplay where
  red : Chromaticity
  green : Chromaticity
  blue : Chromaticity
  whitePoint : Chromaticity
  maxLuminance : UInt32
  minLuminance : UInt32
deriving Repr, DecidableEq

def MasteringDisplay.isValid (display : MasteringDisplay) : Bool :=
  [display.red, display.green, display.blue, display.whitePoint].all
      (fun point => point.x ≤ 50000 && point.y ≤ 50000) ∧
    display.maxLuminance > display.minLuminance ∧ display.maxLuminance ≠ 0

structure ContentLight where
  maxCll : UInt16
  maxFall : UInt16
deriving Repr, DecidableEq

/-- `is_valid`; no average is above the peak. -/
def ContentLight.isValid (light : ContentLight) : Bool :=
  light.maxCll ≠ 0 ∧ light.maxFall ≠ 0 ∧ light.maxFall ≤ light.maxCll

structure HdrStaticMetadata where
  masteringDisplay : MasteringDisplay
  contentLight : ContentLight
deriving Repr, DecidableEq

def HdrStaticMetadata.isValid (metadata : HdrStaticMetadata) : Bool :=
  metadata.masteringDisplay.isValid && metadata.contentLight.isValid

/-- `MediaColorContract`: what both ends hold a picture to. -/
structure MediaColorContract where
  storage : PixelStorage
  colorimetry : Colorimetry
  hdrStatic : Option HdrStaticMetadata
  sourcePreserved : Bool
deriving Repr, DecidableEq

inductive NegotiatedColorClass where
  | sdr | sdr10 | hdr10Pq | hlg10 | scrgbLinear
deriving Repr, DecidableEq

/-- The class of one contract of both ends, if there is an exact usable agreement. -/
def classifyNegotiated (producer consumer : MediaColorContract) : Option NegotiatedColorClass :=
  if producer ≠ consumer ∨ !producer.storage.isExplicit ∨ !producer.colorimetry.isExplicit ∨
      !producer.sourcePreserved then none
  else
    let color := producer.colorimetry
    let tenBit420Unorm := producer.storage = ⟨10, .cs420, .unsignedNormalized⟩
    let eightBitUnorm := producer.storage.bitDepth = 8 ∧
      producer.storage.numericRepresentation = .unsignedNormalized
    let scrgbFp16 := producer.storage = ⟨16, .cs444, .floatingPoint⟩ ∧ color.primaries = .bt709 ∧
      color.matrix = .identity ∧ color.range = .full
    let hdrBase := tenBit420Unorm ∧ color.isExplicitBt2020
    match color.transfer with
    | .pq =>
      if hdrBase ∧ producer.hdrStatic.any HdrStaticMetadata.isValid then some .hdr10Pq else none
    | .hlg =>
      if hdrBase ∧ producer.hdrStatic.all HdrStaticMetadata.isValid then some .hlg10 else none
    | .scrgb => if scrgbFp16 ∧ producer.hdrStatic.isNone then some .scrgbLinear else none
    | _ =>
      if producer.hdrStatic.isSome then none
      else if tenBit420Unorm then some .sdr10
      else if eightBitUnorm then some .sdr
      else none

/-! ### Textures -/

inductive DxgiFormat where
  | b8g8r8a8Unorm | r8g8b8a8Unorm | r10g10b10a2Unorm | r16g16b16a16Float | nv12 | p010
deriving Repr, DecidableEq

def DxgiFormat.componentBits : DxgiFormat → UInt8
  | .b8g8r8a8Unorm | .r8g8b8a8Unorm | .nv12 => 8
  | .r10g10b10a2Unorm | .p010 => 10
  | .r16g16b16a16Float => 16

def DxgiFormat.storage (format : DxgiFormat) : PixelStorage where
  bitDepth := format.componentBits
  subsampling :=
    match format with
    | .nv12 | .p010 => .cs420
    | _ => .cs444
  numericRepresentation :=
    match format with
    | .r16g16b16a16Float => .floatingPoint
    | _ => .unsignedNormalized

/-- Width and height are not zero. -/
structure TextureDescriptor where
  width : Nat
  height : Nat
  format : DxgiFormat
  arraySlice : Nat
  mipLevel : Nat
  adapterLuid : Int
  sourceColor : MediaColorContract
  width_pos : 0 < width
  height_pos : 0 < height
deriving DecidableEq

/-- The color spaces of the two kinds of desktop. -/
def dxgiRgbFullG22P709 : UInt32 := 0
def dxgiRgbFullG2084P2020 : UInt32 := 12

/-- The contract of a desktop texture. -/
def sourceColor (format : DxgiFormat) (rawColorSpace bitsPerColor : UInt32) :
    Except ProducerError MediaColorContract :=
  let contract (primaries : ColorPrimaries) (transfer : TransferCharacteristics) :
      MediaColorContract :=
    { storage := format.storage
      colorimetry := ⟨primaries, transfer, .identity, .full⟩
      hdrStatic := none
      sourcePreserved := true }
  if format = .b8g8r8a8Unorm ∧ rawColorSpace = dxgiRgbFullG22P709 ∧ bitsPerColor ≥ 8 then
    .ok (contract .bt709 .gamma22)
  else if format = .r10g10b10a2Unorm ∧ rawColorSpace = dxgiRgbFullG2084P2020 ∧
      bitsPerColor ≥ 10 then
    .ok (contract .bt2020 .pq)
  else if format = .r10g10b10a2Unorm ∧ rawColorSpace = dxgiRgbFullG22P709 ∧ bitsPerColor ≥ 10 then
    .ok (contract .bt709 .gamma22)
  else .error .colorContractChanged

/-! ### The encoded stream -/

/-- The contract of the stream that is encoded from a texture. -/
def encodedColor (source : MediaColorContract) : Except PublisherError MediaColorContract := do
  let storage ←
    if source.storage.bitDepth = 8 then .ok DxgiFormat.nv12.storage
    else if source.storage.bitDepth = 10 then .ok DxgiFormat.p010.storage
    else .error .invalidConfig
  let matrix ←
    match source.colorimetry.primaries with
    | .bt709 => .ok .bt709
    | .bt2020 => .ok .bt2020NonConstantLuminance
    | _ => .error .invalidConfig
  return { source with
    storage := storage
    colorimetry := { source.colorimetry with range := .limited, matrix := matrix } }

/-- What this encoder can transport. -/
def validateEncodedTransport (color : MediaColorContract) : Except ProducerError Unit :=
  let matrixMatchesPrimaries : Bool :=
    match color.colorimetry.primaries with
    | .bt709 => decide (color.colorimetry.matrix = .bt709)
    | .bt2020 =>
      color.colorimetry.matrix = .bt2020NonConstantLuminance ∨
        color.colorimetry.matrix = .bt2020ConstantLuminance
    | _ => false
  if color.storage.subsampling ≠ .cs420 ∨
      color.storage.numericRepresentation ≠ .unsignedNormalized ∨
      !matrixMatchesPrimaries ∨ (classifyNegotiated color color).isNone then
    .error .colorContractChanged
  else .ok ()

/-- `validate_format_color`: the format and the color fit together. -/
def validateFormatColor (format : DxgiFormat) (color : MediaColorContract) :
    Except ProducerError Unit :=
  let valid : Bool :=
    match format with
    | .b8g8r8a8Unorm | .r8g8b8a8Unorm | .r10g10b10a2Unorm | .r16g16b16a16Float =>
      color.storage.subsampling = .cs444 ∧ color.colorimetry.matrix = .identity ∧
        color.colorimetry.range = .full
    | .nv12 | .p010 =>
      color.storage.subsampling = .cs420 ∧
        (color.colorimetry.matrix = .bt709 ∨
          color.colorimetry.matrix = .bt2020NonConstantLuminance ∨
          color.colorimetry.matrix = .bt2020ConstantLuminance)
  if valid then .ok () else .error .colorContractChanged

end RdEngine
