/-
RdEngine/Host/Video.lean

What the host sends on an authenticated connection (`host.rs`): the options it
starts with, the codec it chooses for its viewer, and the message it makes of an
encoded unit, with the fields `message.proto` writes for it.
-/
import RdEngine.Host.Reader
import RdEngine.Lib.WireFormat

namespace RdEngine

/-! ### The fields of a video frame -/

def EncodedVideoFrame.fields (frame : EncodedVideoFrame) : List WireFormat.Field :=
  WireFormat.bytes 1 frame.data ++ WireFormat.bool 2 frame.key ++ WireFormat.int64 3 frame.pts

/-- `EncodedVideoFrames`. -/
def framesFields (frames : List EncodedVideoFrame) : List WireFormat.Field :=
  frames.flatMap fun frame => WireFormat.message 1 frame.fields

def VideoFrameUnion.fields : VideoFrameUnion → List WireFormat.Field
  | .h264s frames => WireFormat.message 10 (framesFields frames)
  | .h265s frames => WireFormat.message 11 (framesFields frames)
  | .other field payload => [⟨field, .bytes payload⟩]

def VideoFrame.fields (frame : VideoFrame) : List WireFormat.Field :=
  WireFormat.int64 14 frame.display ++ frame.union.elim [] VideoFrameUnion.fields

/-- The bytes of a message with a video frame. -/
def VideoFrame.messageBytes (frame : VideoFrame) : Bytes :=
  WireFormat.encode (WireFormat.message 6 frame.fields)

namespace Host

/-! ### The options -/

/-- The options, with those only the start and the publisher look at. -/
structure StartOptions extends HostOptions where
  listenPort : Nat
  fps : Nat
  bitrate : Int

/-- What `Host::start` asks of its options. -/
def StartOptions.check (options : StartOptions) : Except HostError Unit :=
  if options.id.isEmpty ∨ options.id.utf8ByteSize > 512 ∨ options.listenPort = 0
      ∨ ¬(1 ≤ options.width ∧ options.width ≤ 8192)
      ∨ ¬(1 ≤ options.height ∧ options.height ≤ 8192)
      ∨ options.width * options.height > 33554432
      ∨ ¬(1 ≤ options.fps ∧ options.fps ≤ 240)
      ∨ ¬(100000 ≤ options.bitrate ∧ options.bitrate ≤ 200000000)
      ∨ options.platform.isEmpty then
    .error .invalidOptions
  else .ok ()

theorem StartOptions.check_ok {options : StartOptions} (h : options.check = .ok ()) :
    (1 ≤ options.width ∧ options.width ≤ 8192) ∧
      (1 ≤ options.height ∧ options.height ≤ 8192) := by
  unfold StartOptions.check at h
  split at h
  · cases h
  · next hchecks =>
    simp only [not_or, not_not] at hchecks
    exact ⟨hchecks.2.2.2.1, hchecks.2.2.2.2.1⟩

/-! ### The codec -/

inductive Codec where
  | h264 | h265
  deriving DecidableEq, Repr

/-- The encoders the platform has and the operator selected. -/
structure Encoders where
  h264 : Bool
  h265 : Bool
  deriving DecidableEq, Repr

/-- The codec of a session, from the options its peer logged in with. -/
def chooseCodec (codecs : Encoders) (options : Option OptionMessage) : Except HostError Codec :=
  match options.bind (·.supportedDecoding) with
  | none => .error .noCommonCodec
  | some decoding =>
    if codecs.h264 ∧ decoding.abilityH264 > 0 ∧ decoding.prefer.enumValue = some .h264 then
      .ok .h264
    else if codecs.h265 ∧ decoding.abilityH265 > 0 then .ok .h265
    else if codecs.h264 ∧ decoding.abilityH264 > 0 then .ok .h264
    else .error .noCommonCodec

/-! ### Units -/

/-- An encoded access unit of the publisher. -/
structure EncodedUnit where
  data : Bytes
  ptsUs : Int64
  key : Bool
  deriving DecidableEq

/-- The frame of a unit; its time is in milliseconds. -/
def unitFrame (unit : EncodedUnit) : EncodedVideoFrame where
  data := unit.data
  key := unit.key
  pts := (unit.ptsUs / 1000).toInt

/-- The frames, under their codec. -/
def codecUnion : Codec → List EncodedVideoFrame → VideoFrameUnion
  | .h264, frames => .h264s frames
  | .h265, frames => .h265s frames

/-- `video`: the message of a unit, where the unit is acceptable. -/
def video (unit : EncodedUnit) (codec : Codec) : Except HostError Message :=
  if unit.data.isEmpty ∨ unit.data.length > 32 * 1024 * 1024 ∨ unit.ptsUs < 0 then
    .error .invalidAccessUnit
  else .ok (.of (.videoFrame { union := some (codecUnion codec [unitFrame unit]) }))

/-- A unit that becomes a message. -/
structure Sendable (unit : EncodedUnit) : Prop where
  nonempty : unit.data ≠ []
  length_le : unit.data.length ≤ 32 * 1024 * 1024
  pts_nonneg : 0 ≤ unit.ptsUs.toInt

theorem video_ok {unit : EncodedUnit} {codec : Codec} {message : Message}
    (h : video unit codec = .ok message) :
    Sendable unit ∧
      message = .of (.videoFrame { union := some (codecUnion codec [unitFrame unit]) }) := by
  unfold video at h
  split at h
  · cases h
  · next hchecks =>
    simp only [not_or, List.isEmpty_iff, Int64.not_lt] at hchecks
    obtain ⟨hdata, hlength, hpts⟩ := hchecks
    exact ⟨⟨hdata, le_of_not_gt hlength, Int64.le_iff_toInt_le.mp hpts⟩,
      (Except.ok.inj h).symm⟩

/-! ### Time stamps -/

theorem unitFrame_pts (unit : EncodedUnit) :
    (unitFrame unit).pts = unit.ptsUs.toInt.tdiv 1000 :=
  Int64.toInt_div_of_ne_right _ _ (by decide)

theorem Sendable.pts_eq {unit : EncodedUnit} (h : Sendable unit) :
    (unitFrame unit).pts = unit.ptsUs.toInt / 1000 := by
  rw [unitFrame_pts, Int.tdiv_eq_ediv_of_nonneg h.pts_nonneg]

/-! ### Size -/

theorem length_frameFields_le {frame : EncodedVideoFrame}
    (h : frame.data.length ≤ 32 * 1024 * 1024) :
    (WireFormat.encode frame.fields).length ≤ frame.data.length + 18 := by
  have hdata : (WireFormat.encode (WireFormat.bytes 1 frame.data)).length ≤ frame.data.length + 5 :=
    WireFormat.length_bytes_le (by decide) (by omega)
  have hkey : (WireFormat.encode (WireFormat.bool 2 frame.key)).length ≤ 2 :=
    WireFormat.length_bool_le (by decide)
  have hpts : (WireFormat.encode (WireFormat.int64 3 frame.pts)).length ≤ 11 :=
    WireFormat.length_int64_le (by decide)
  rw [EncodedVideoFrame.fields, WireFormat.length_encode_append, WireFormat.length_encode_append]
  omega

/-- A message with one unit is little longer than the unit. -/
theorem length_messageBytes_le {codec : Codec} {frame : EncodedVideoFrame}
    (h : frame.data.length ≤ 32 * 1024 * 1024) :
    (VideoFrame.messageBytes { union := some (codecUnion codec [frame]) }).length
      ≤ frame.data.length + 33 := by
  have hframe := length_frameFields_le h
  have hframes : (WireFormat.encode (framesFields [frame])).length
      ≤ (WireFormat.encode frame.fields).length + 5 := by
    rw [framesFields, List.flatMap_cons, List.flatMap_nil, List.append_nil]
    exact WireFormat.length_message_le (by decide) (by omega)
  have hunion : (WireFormat.encode (codecUnion codec [frame]).fields).length
      ≤ (WireFormat.encode (framesFields [frame])).length + 5 := by
    cases codec with
    | h264 => exact WireFormat.length_message_le (by decide) (by omega)
    | h265 => exact WireFormat.length_message_le (by decide) (by omega)
  have hfields : VideoFrame.fields { union := some (codecUnion codec [frame]) }
      = (codecUnion codec [frame]).fields := rfl
  have hmessage : (WireFormat.encode (WireFormat.message 6 (codecUnion codec [frame]).fields)).length
      ≤ (WireFormat.encode (codecUnion codec [frame]).fields).length + 5 :=
    WireFormat.length_message_le (by decide) (by omega)
  rw [VideoFrame.messageBytes, hfields]
  omega

end Host

end RdEngine
