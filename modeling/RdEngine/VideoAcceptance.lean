/-
RdEngine/VideoAcceptance.lean

A host's video and the viewer it is sent to.  The two ends are written apart: the
host chooses the codec, numbers the display and cuts the time stamps, the viewer
checks the codec, the display, the limits and the time stamps again.  Here the two
are put together: what the host sends, the viewer takes (`video_acceptable`).
-/
import RdEngine.Host.Video
import RdEngine.Platform.OhosDecoder
import RdEngine.TransportOrder
import RdEngine.Viewer.Tasks

namespace RdEngine

namespace VideoAcceptance

open Threads Host Viewer

/-! ### The two ends -/

/-- The codec, as the viewer names it. -/
def viewerCodec : Codec → Viewer.VideoCodec
  | .h264 => .h264
  | .h265 => .h265

/-- The viewer has a decoder for the codec, and so has advertised it. -/
def Advertised (decoders : Decoders) : Codec → Prop
  | .h264 => decoders.h264 = true
  | .h265 => decoders.h265 = true

/-- The one screen of a host. -/
def screen (options : HostOptions) : Geometry := ⟨0, 0, 0, options.width, options.height⟩

/-- The reader a host starts for its peer. -/
def peerReader (options : HostOptions) (permissions : Permissions) : Reader where
  width := options.width
  height := options.height
  permissions := permissions
  inputSink := options.inputSink

/-- The messages a host sends on an authenticated connection: its reader's replies
and the units of its publisher. -/
inductive Sends (reader : Reader) (codec : Codec) : Message → Prop
  | reply {s s' : ReaderState} {received message : Message} :
      reader.onMessage s received = (s', .next (some (.reply message))) →
      Sends reader codec message
  | video {unit : EncodedUnit} {message : Message} :
      video unit codec = .ok message → Sends reader codec message

/-! ### What the viewer does with what it takes -/

/-- The record the viewer makes of a unit. -/
def record (options : HostOptions) (codec : Codec) (unit : EncodedUnit) : VideoRecord where
  codec := viewerCodec codec
  geometry := screen options
  frames := [unitFrame unit]
  bytes := unit.data.length

/-- A record that passed the checks of the receive task waits for the feeder. -/
def admitVideo (decoders : Decoders) (record : VideoRecord) : Program Outcome := do
  if ← acquireSlot.both (acquireBytes record.bytes) then
    match (← call (.sendVideo record) : VideoSent) with
    | .sent => return .receiving decoders record.geometry
    | .closed => exit (.error .closed)
    | .cancelled => exit (.ok ())
  else exit (.ok ())

/-- Frames whose time stamps fit go to the decoder. -/
def push (record : VideoRecord) : List EncodedVideoFrame → Program Outcome
  | [] => do
    call (.release record.bytes)
    return .feeding
  | frame :: frames => do
    if ← isCancelled then exitFeed (.ok ())
    else
      match (← call (.submit frame) : Except Viewer.DecoderError Unit) with
      | .ok () => push record frames
      | .error error => do
        if ← isCancelled then exitFeed (.ok ()) else exitFeed (.error (.decoder error))

/-- The decoder the feeder opens for a record. -/
def decoderConfig (record : VideoRecord) : OhosDecoder.DecoderConfig where
  codec := match record.codec with
    | .h264 => .h264
    | .h265 => .h265
  width := record.geometry.width
  height := record.geometry.height
  maxQueuedUnits := 2
  maxQueuedBytes := videoBytes

/-- The access unit the feeder submits for a frame. -/
def accessUnit (frame : EncodedVideoFrame) : OhosDecoder.AccessUnit where
  bytes := frame.data
  ptsUs := frame.pts * 1000
  kind := .frame frame.key

/-- The time stamp, in microseconds, under which a unit is decoded. -/
def decodedPts (unit : EncodedUnit) : Int := (accessUnit (unitFrame unit)).ptsUs

/-- A decoder that takes units. -/
structure Running (s : OhosDecoder.State) : Prop where
  closing : s.closing = false
  closed : s.stats.closed = false
  failure : s.stats.failure = none
  eos : s.eosAccepted = false

/-- The decoder of a record opens, and takes the unit as soon as there is room. -/
structure Decodes (record : VideoRecord) (unit : OhosDecoder.AccessUnit) : Prop where
  opens : OhosDecoder.Shared.new (decoderConfig record) = .ok {}
  waits : ∀ {s : OhosDecoder.State}, Running s →
    s.rejection (decoderConfig record) unit = none ∨
      s.rejection (decoderConfig record) unit = some .backpressure
  takes : ∀ {s : OhosDecoder.State}, Running s → s.reservedUnits = 0 → s.reservedBytes = 0 →
    s.rejection (decoderConfig record) unit = none

/-- A message is within the transport's limit: an open writer sends it whole, and
a reader that agrees with the writer gets it back. -/
structure Carried (box : SecretBox) (proto : Protobuf Message) (message : Message) : Prop where
  size : proto.computeSize message ≤ maxMessageBytes
  sent : ∀ {decoder : BytesCodec × Option Encrypt} {writer : WireWriter}, writer.closed = false →
    Agree decoder writer.codec writer.cipher →
    ∃ frame decoder', (WireReader.decoder box proto).decode decoder frame =
        .item message decoder' [] ∧
      ∀ stop, (writer.send box proto message frame.length stop).bytes = frame ∧
        (writer.send box proto message frame.length stop).result = .ok

/-! ### The receive loop -/

/-- A program can end with a result. -/
inductive Returns : Program Outcome → Outcome → Prop
  | ret (outcome : Outcome) : Returns (.ret outcome) outcome
  | access {a : Access} {rest : a.Answer → Program Outcome} {outcome : Outcome}
      (answer : a.Answer) : Returns (rest answer) outcome → Returns (.access a rest) outcome

/-- The receive loop reads messages one by one, as long as it goes on. -/
inductive Reads (setup : Setup) : Outcome → List Message → Outcome → Prop
  | nil (outcome : Outcome) : Reads setup outcome [] outcome
  | cons {decoders : Decoders} {source : Geometry} {message : Message} {messages : List Message}
      {next last : Outcome} :
      Returns (receiveMessage setup decoders source message) next →
      Reads setup next messages last →
      Reads setup (.receiving decoders source) (message :: messages) last

/-- The loop goes on with the host's screen, or the session was closed from this
side: by the user, or because the feeder is gone. -/
def Kept (decoders : Decoders) (options : HostOptions) (outcome : Outcome) : Prop :=
  outcome = .receiving decoders (screen options) ∨ outcome = .returned (.ok ()) ∨
    outcome = .returned (.error .closed)

/-! ### Acceptance -/

/-- A unit of the host passes every check of the viewer. -/
structure UnitAccepted (setup : Setup) (decoders : Decoders) (options : HostOptions)
    (codec : Codec) (unit : EncodedUnit) (message : Message) : Prop where
  received : receiveMessage setup decoders (screen options) message =
    admitVideo decoders (record options codec unit)
  /-- The whole byte budget is enough for it. -/
  budget : (record options codec unit).bytes ≤ videoBytes
  fed : submitFrames (record options codec unit) (record options codec unit).frames =
    push (record options codec unit) (record options codec unit).frames
  decoded : Decodes (record options codec unit) (accessUnit (unitFrame unit))
  close : decodedPts unit ≤ unit.ptsUs.toInt ∧ unit.ptsUs.toInt < decodedPts unit + 1000
  carried : ∀ {box : SecretBox} {proto : Protobuf Message} {frame : VideoFrame},
    box.Ideal → proto.Lawful → message = .of (.videoFrame frame) →
    proto.writeToBytes message = .ok frame.messageBytes → Carried box proto message

/-- What a host sends is what its viewer takes. -/
structure Accepted (setup : Setup) (decoders : Decoders) (options : HostOptions)
    (permissions : Permissions) (codec : Codec) : Prop where
  advertised : Advertised decoders codec
  agreed : sourceGeometry (peerInfo options) = .ok (screen options)
  kept : ∀ {messages : List Message} {outcome : Outcome},
    (∀ message ∈ messages, Sends (peerReader options permissions) codec message) →
    Reads setup (.receiving decoders (screen options)) messages outcome →
    Kept decoders options outcome
  accepted : ∀ {unit : EncodedUnit} {message : Message}, video unit codec = .ok message →
    UnitAccepted setup decoders options codec unit message
  ordered : ∀ {unit later : EncodedUnit} {message next : Message},
    video unit codec = .ok message → video later codec = .ok next →
    unit.ptsUs ≤ later.ptsUs → decodedPts unit ≤ decodedPts later

/-! ### The codec -/

/-- The ability an advertisement has for a codec. -/
def ability (decoding : SupportedDecoding) : Codec → Int
  | .h264 => decoding.abilityH264
  | .h265 => decoding.abilityH265

theorem ability_of_chooseCodec {codecs : Encoders} {option : OptionMessage}
    {decoding : SupportedDecoding} {codec : Codec}
    (hdecoding : option.supportedDecoding = some decoding)
    (h : chooseCodec codecs (some option) = .ok codec) : 0 < ability decoding codec := by
  rw [chooseCodec, Option.bind_some, hdecoding] at h
  dsimp only at h
  split at h
  · next hprefers =>
    obtain rfl := Except.ok.inj h
    exact hprefers.2.1
  split at h
  · next h265 =>
    obtain rfl := Except.ok.inj h
    exact h265.2
  split at h
  · next h264 =>
    obtain rfl := Except.ok.inj h
    exact h264.2
  · cases h

/-- **A host chooses a codec its viewer advertised.** -/
theorem advertised_of_chooseCodec {codecs : Encoders} {setup : Setup} {decoders : Decoders}
    {sessionId : Nat} {password : Bytes} {codec : Codec}
    (h : chooseCodec codecs (SessionClaims.from
      { loginRequest setup decoders sessionId with password := password }).options = .ok codec) :
    Advertised decoders codec := by
  have hability : 0 < ability (supportedDecoding decoders) codec :=
    @ability_of_chooseCodec _ (loginOption setup decoders) _ _ rfl h
  have hpresent : ∀ present : Bool, 0 < (if present then (1 : Int) else 0) → present = true := by
    decide
  cases codec with
  | h264 => exact hpresent _ hability
  | h265 => exact hpresent _ hability

/-! ### The screen -/

section Screen

variable {options : HostOptions} {setup : Setup} {decoders : Decoders} {codec : Codec}

/-- A viewer reads the host's screen off the login response. -/
theorem sourceGeometry_peerInfo (hwidth : 1 ≤ options.width) (hheight : 1 ≤ options.height) :
    sourceGeometry (peerInfo options) = .ok (screen options) := by
  have hsize : ¬(options.width ≤ 0 ∨ options.height ≤ 0) := by omega
  simp [sourceGeometry, peerInfo, hsize, screen]

/-- What a host's reader replies: a probe of its peer, or its one screen. -/
theorem reply_cases {reader : Reader} {s s' : ReaderState} {received message : Message}
    (h : reader.onMessage s received = (s', .next (some (.reply message)))) :
    (∃ probe, probe.fromClient = true ∧ message = .of (.testDelay probe)) ∨
      message = .ofMisc (.switchDisplay { width := reader.width, height := reader.height }) := by
  have hreply : ∀ {t t' : ReaderState} {output : Option Control},
      (t, Reaction.next output) = (t', .next (some (.reply message))) →
      output = some (.reply message) := by
    intro t t' output heq
    exact Reaction.next.inj (Prod.mk.inj heq).2
  -- an event is answered by nothing
  have hinput : ∀ union, reader.onInput s union ≠ (s', .next (some (.reply message))) := by
    intro union hunion
    unfold Reader.onInput at hunion
    split at hunion
    · cases (Prod.mk.inj hunion).2
    · split at hunion
      · cases hreply hunion
      · split at hunion <;> cases hreply hunion
  obtain ⟨- | union⟩ := received
  · cases hreply h
  cases union with
  | testDelay probe =>
    have houtput := hreply h
    split at houtput
    · next hclient =>
      obtain rfl := Control.reply.inj (Option.some.inj houtput)
      exact .inl ⟨probe, hclient, rfl⟩
    · cases houtput
  | misc misc =>
    obtain ⟨- | union⟩ := misc
    · cases hreply h
    cases union with
    | refreshVideo | refreshVideoDisplay =>
      have houtput := hreply h
      split at houtput <;> cases houtput
    | messageQuery display =>
      have houtput := hreply h
      split at houtput
      · obtain rfl := Control.reply.inj (Option.some.inj houtput)
        exact .inr rfl
      · cases houtput
    | captureDisplays add sub set =>
      change (if (add ++ set).any (· ≠ 0) then _ else if 0 ∈ sub then _ else _) = _ at h
      split at h
      · cases (Prod.mk.inj h).2
      · split at h
        · cases (Prod.mk.inj h).2
        · cases hreply h
    | closeReason | changeResolution | changeDisplayResolution => cases (Prod.mk.inj h).2
    | chatMessage | switchDisplay | permissionInfo | option | other => cases hreply h
  | mouseEvent event => exact absurd h (hinput _)
  | keyEvent event => exact absurd h (hinput _)
  | _ => cases hreply h

/-! ### One message -/

/-- A unit is admitted to the feeder's queue. -/
theorem receive_video {unit : EncodedUnit} (hunit : Sendable unit)
    (hadvertised : Advertised decoders codec) :
    receiveMessage setup decoders (screen options)
        (.of (.videoFrame { union := some (codecUnion codec [unitFrame unit]) })) =
      admitVideo decoders (record options codec unit) := by
  have hdecodable : decodable decoders (some (codecUnion codec [unitFrame unit])) =
      some (viewerCodec codec, [unitFrame unit]) := by
    cases codec with
    | h264 => exact if_pos hadvertised
    | h265 => exact if_pos hadvertised
  have hvalid : ¬([unitFrame unit].length > maxUnitsPerRecord ∨
      [unitFrame unit].any (·.data.isEmpty) = true) := by
    have hdata : (unitFrame unit).data.isEmpty = false := by
      rw [List.isEmpty_eq_false_iff]
      exact hunit.nonempty
    simp [maxUnitsPerRecord, hdata]
  have hlength : ([unitFrame unit].map (·.data.length)).sum = unit.data.length := by
    simp [unitFrame]
  have hdisplay : ¬((0 : Int) ≠ (screen options).display) := not_not.mpr rfl
  have hbudget : ¬unit.data.length > videoBytes := not_lt.mpr hunit.length_le
  change receiveVideo decoders (screen options) _ = _
  unfold receiveVideo
  rw [if_neg hdisplay]
  dsimp only
  rw [hdecodable]
  dsimp only
  rw [if_neg (show ¬[unitFrame unit].isEmpty = true from Bool.false_ne_true), if_neg hvalid,
    hlength, if_neg hbudget]
  refine congrArg (Prog.bind _) (funext fun admitted => ?_)
  cases admitted with
  | false => rfl
  | true =>
    refine congrArg (Prog.access _) (funext fun answer => ?_)
    cases answer with
    | sent | closed | cancelled => rfl

/-- The host's screen stays the viewer's source. -/
theorem receive_switchDisplay (hwidth : 1 ≤ options.width) (hheight : 1 ≤ options.height) :
    receiveMessage setup decoders (screen options)
        (.ofMisc (.switchDisplay { width := options.width, height := options.height })) =
      .access (.setGeometry (screen options)) fun _ =>
        .ret (.receiving decoders (screen options)) := by
  have hsize : ¬(options.width ≤ 0 ∨ options.height ≤ 0 ∨ (0 : Int) < 0) := by omega
  change (if options.width ≤ 0 ∨ options.height ≤ 0 ∨ (0 : Int) < 0 then _ else _) = _
  rw [if_neg hsize]
  rfl

/-! ### A run of the receive loop -/

/-- Whatever it is answered, a program ends with a result that satisfies `P`. -/
def Ends (P : Outcome → Prop) : Program Outcome → Prop
  | .ret outcome => P outcome
  | .access _ rest => ∀ answer, Ends P (rest answer)

theorem Returns.of_ends {P : Outcome → Prop} {p : Program Outcome} {outcome : Outcome}
    (h : Returns p outcome) (hp : Ends P p) : P outcome := by
  induction h with
  | ret outcome => exact hp
  | access answer _ ih => exact ih (hp answer)

/-- A record that is admitted leaves the source alone. -/
theorem admit_kept (unit : EncodedUnit) :
    Ends (Kept decoders options) (admitVideo decoders (record options codec unit)) := by
  intro slot
  cases slot with
  | false => exact fun _ => .inr (.inl rfl)
  | true =>
    intro budget
    cases budget with
    | false => exact fun _ => .inr (.inl rfl)
    | true =>
      intro answer
      cases answer with
      | sent => exact .inl rfl
      | closed => exact fun _ => .inr (.inr rfl)
      | cancelled => exact fun _ => .inr (.inl rfl)

theorem receive_kept {reader : Reader} {message : Message} (hreader : reader.width = options.width ∧
      reader.height = options.height) (hwidth : 1 ≤ options.width) (hheight : 1 ≤ options.height)
    (hadvertised : Advertised decoders codec) (h : Sends reader codec message) :
    Ends (Kept decoders options) (receiveMessage setup decoders (screen options) message) := by
  cases h with
  | video hvideo =>
    obtain ⟨hunit, rfl⟩ := video_ok hvideo
    rw [receive_video hunit hadvertised]
    exact admit_kept _
  | reply hreply =>
    rcases reply_cases hreply with ⟨probe, hclient, rfl⟩ | rfl
    · -- the echo of the viewer's own probe is not answered again
      change Ends _ (if probe.fromClient then _ else _)
      rw [if_pos hclient]
      exact .inl rfl
    · rw [hreader.1, hreader.2, receive_switchDisplay hwidth hheight]
      exact fun _ => .inl rfl

/-- **The receive loop goes on through all that a host sends**, and its source stays
the host's screen. -/
theorem reads_kept {reader : Reader} {messages : List Message} {first last : Outcome}
    (hreader : reader.width = options.width ∧ reader.height = options.height)
    (hwidth : 1 ≤ options.width) (hheight : 1 ≤ options.height)
    (hadvertised : Advertised decoders codec)
    (hsends : ∀ message ∈ messages, Sends reader codec message)
    (hreads : Reads setup first messages last) (hfirst : Kept decoders options first) :
    Kept decoders options last := by
  induction hreads with
  | nil outcome => exact hfirst
  | @cons own source message messages next last hreturns _ ih =>
    obtain ⟨rfl, rfl⟩ : own = decoders ∧ source = screen options := by
      rcases hfirst with h | h | h
      · exact Outcome.receiving.inj h
      · cases h
      · cases h
    have hnext : Kept own options next := hreturns.of_ends
      (receive_kept hreader hwidth hheight hadvertised (hsends _ List.mem_cons_self))
    exact ih (fun message hmem => hsends message (List.mem_cons_of_mem _ hmem)) hnext

/-! ### The feeder and its decoder -/

/-- Milliseconds fit back into a word of microseconds, and lose less than one. -/
theorem decodedPts_eq {unit : EncodedUnit} (hunit : Sendable unit) :
    decodedPts unit = unit.ptsUs.toInt / 1000 * 1000 := by
  change (unitFrame unit).pts * 1000 = _
  rw [hunit.pts_eq]

theorem timestampFits_unitFrame {unit : EncodedUnit} (hunit : Sendable unit) :
    timestampFits (unitFrame unit).pts = true := by
  have hword := unit.ptsUs.toInt_lt
  have hpts := hunit.pts_nonneg
  rw [timestampFits, decide_eq_true_eq, hunit.pts_eq]
  omega

theorem submitFrames_eq {record : VideoRecord} {frames : List EncodedVideoFrame}
    (h : ∀ frame ∈ frames, timestampFits frame.pts = true) :
    submitFrames record frames = push record frames := by
  induction frames with
  | nil => rfl
  | cons frame frames ih =>
    have hfits : timestampFits frame.pts = true := h frame List.mem_cons_self
    have hrest := ih fun other hother => h other (List.mem_cons_of_mem _ hother)
    rw [submitFrames, push, hfits, hrest]
    rfl

theorem record_decodes {unit : EncodedUnit} (hunit : Sendable unit) (hwidth : 1 ≤ options.width)
    (hheight : 1 ≤ options.height) :
    Decodes (record options codec unit) (accessUnit (unitFrame unit)) := by
  have hlimits : ¬(options.width ≤ 0 ∨ options.height ≤ 0 ∨ 2 = 0 ∨ 2 > 64 ∨ videoBytes = 0 ∨
      videoBytes > 64 * 1024 * 1024) := by
    unfold videoBytes
    omega
  have hlength := hunit.length_le
  have hvalid : OhosDecoder.State.invalid (accessUnit (unitFrame unit)) = false := by
    have hdata : unit.data.isEmpty = false := List.isEmpty_eq_false_iff.mpr hunit.nonempty
    change (unit.data.isEmpty || decide (unit.data.length > 2 ^ 31 - 1)) = false
    rw [hdata, Bool.false_or, decide_eq_false_iff_not]
    omega
  have hfits : ¬unit.data.length > videoBytes := by unfold videoBytes; omega
  have hrejection : ∀ {s : OhosDecoder.State}, Running s →
      s.rejection (decoderConfig (record options codec unit)) (accessUnit (unitFrame unit)) =
        if s.reservedUnits ≥ 2 ∨ unit.data.length > videoBytes - s.reservedBytes then
          some .backpressure else none := by
    intro s hs
    unfold OhosDecoder.State.rejection
    rw [if_neg (by simp [hs.closing, hs.closed]), hs.failure]
    dsimp only
    rw [if_neg (by simp [hs.eos]), if_neg (by simp [hvalid])]
    exact if_neg hfits
  refine ⟨if_neg hlimits, fun hs => ?_, fun hs hunits hbytes => ?_⟩
  · rw [hrejection hs]
    split
    · exact .inr rfl
    · exact .inl rfl
  · rw [hrejection hs, hunits, hbytes]
    exact if_neg (by omega)

/-! ### The transport -/

theorem message_carried {unit : EncodedUnit} (hunit : Sendable unit) {box : SecretBox}
    {proto : Protobuf Message} {frame : VideoFrame}
    (hframe : frame = { union := some (codecUnion codec [unitFrame unit]) }) (hbox : box.Ideal)
    (hproto : proto.Lawful)
    (hwrite : proto.writeToBytes (.of (.videoFrame frame)) = .ok frame.messageBytes) :
    Carried box proto (.of (.videoFrame frame)) := by
  have hlength : frame.messageBytes.length ≤ unit.data.length + 33 := by
    rw [hframe]
    exact length_messageBytes_le hunit.length_le
  have hunitLength := hunit.length_le
  have hsize : proto.computeSize (.of (.videoFrame frame)) ≤ maxMessageBytes := by
    rw [← hproto.length_write hwrite, maxMessageBytes]
    omega
  refine ⟨hsize, fun {decoder writer} hopen hagree => ?_⟩
  rcases hencode : writer.codec.encode (encipher box writer.cipher frame.messageBytes).1 [] with
    e | bytes
  · have hsealed := encipher_length hbox writer.cipher frame.messageBytes
    refine absurd hencode (BytesCodec.encode_ne_error ?_ e)
    exact hsealed.trans (by rw [macBytes]; omega)
  obtain ⟨decoder', hdecode, -⟩ := decode_frame hbox hproto hagree hsize hwrite hencode
  refine ⟨bytes, decoder', hdecode, fun stop => ?_⟩
  have hsend : writer.send box proto (.of (.videoFrame frame)) bytes.length stop =
      ⟨{ writer with cipher := (encipher box writer.cipher frame.messageBytes).2.2 }, true,
        (encipher box writer.cipher frame.messageBytes).2.1, bytes, .ok⟩ := by
    unfold WireWriter.send
    rw [if_neg (by rw [hopen]; exact Bool.false_ne_true), if_neg (not_lt.mpr hsize), hwrite]
    simp only [hencode, le_refl, if_true]
  rw [hsend]
  exact ⟨rfl, rfl⟩

/-! ### Acceptance -/

theorem unit_accepted {unit : EncodedUnit} {message : Message} (hwidth : 1 ≤ options.width)
    (hheight : 1 ≤ options.height) (hadvertised : Advertised decoders codec)
    (h : video unit codec = .ok message) :
    UnitAccepted setup decoders options codec unit message := by
  obtain ⟨hunit, rfl⟩ := video_ok h
  refine ⟨receive_video hunit hadvertised, hunit.length_le, ?_, record_decodes hunit hwidth hheight,
    ?_, ?_⟩
  · apply submitFrames_eq
    intro frame hframe
    obtain rfl := List.mem_singleton.mp hframe
    exact timestampFits_unitFrame hunit
  · rw [decodedPts_eq hunit]
    omega
  · intro box proto frame hbox hproto hmessage hwrite
    obtain rfl : _ = frame :=
      MessageUnion.videoFrame.inj (Option.some.inj (Message.mk.inj hmessage))
    exact message_carried hunit rfl hbox hproto hwrite

end Screen

/-- **Host video is acceptable to its viewer**: for every configuration a host
starts with, every viewer that logs in, and every codec the host chooses for it, the
codec was advertised, the viewer's source is the host's screen after whatever the host
sends, and every unit that becomes a message passes the transport, the receive task,
the feeder and the decoder's admission, in the order of its time stamps. -/
theorem video_acceptable {options : StartOptions} {codecs : Encoders} {setup : Setup}
    {decoders : Decoders} {sessionId : Nat} {password : Bytes} {codec : Codec}
    (hcheck : options.check = .ok ())
    (hcodec : chooseCodec codecs (SessionClaims.from
      { loginRequest setup decoders sessionId with password := password }).options = .ok codec)
    (permissions : Permissions) :
    Accepted setup decoders options.toHostOptions permissions codec := by
  obtain ⟨⟨hwidth, -⟩, hheight, -⟩ := StartOptions.check_ok hcheck
  have hadvertised := advertised_of_chooseCodec hcodec
  refine ⟨hadvertised, sourceGeometry_peerInfo hwidth hheight, ?_,
    unit_accepted hwidth hheight hadvertised, ?_⟩
  · intro messages outcome hsends hreads
    exact reads_kept ⟨rfl, rfl⟩ hwidth hheight hadvertised hsends hreads (.inl rfl)
  · intro unit later message next hunit hlater hle
    rw [decodedPts_eq (video_ok hunit).1, decodedPts_eq (video_ok hlater).1]
    have hpts := Int64.le_iff_toInt_le.mp hle
    omega

/-! ### A desk and its viewer -/

def desk : StartOptions where
  id := "desk"
  width := 1920
  height := 1080
  platform := "Windows"
  inputInjection := false
  inputSink := none
  listenPort := 21118
  fps := 60
  bitrate := 20000000

def visitor : Setup where
  username := "desk"
  localId := "visitor"
  localName := ""
  password := []
  requestedFps := 60
  imageQuality := .balanced
  clipboardEnabled := false
  confirmInsecure := false
  compress := id
  decompressWithLimit bytes _ := some bytes

def keyUnit : EncodedUnit := ⟨[0, 0, 0, 1, 0x65], 16683, true⟩

def keyFrame : VideoFrame := { union := some (codecUnion .h264 [unitFrame keyUnit]) }

/-- The protobuf library at one message. -/
def keyProto : Protobuf Message := .table [(.of (.videoFrame keyFrame), keyFrame.messageBytes)]

theorem video_acceptable_desk :
    Accepted visitor ⟨true, false⟩ desk.toHostOptions {} .h264 ∧
      Carried .padding keyProto (.of (.videoFrame keyFrame)) := by
  have haccepted : Accepted visitor ⟨true, false⟩ desk.toHostOptions {} .h264 :=
    @video_acceptable desk ⟨true, true⟩ visitor ⟨true, false⟩ 1 [] .h264 rfl rfl {}
  have hwrite : keyProto.writeToBytes (.of (.videoFrame keyFrame)) = .ok keyFrame.messageBytes := by
    simp [keyProto, Protobuf.table]
  have hlawful : keyProto.Lawful := Protobuf.table_lawful (List.nodup_singleton _)
  have hkey : UnitAccepted visitor ⟨true, false⟩ desk.toHostOptions .h264 keyUnit
      (.of (.videoFrame keyFrame)) := haccepted.accepted rfl
  exact ⟨haccepted, hkey.carried SecretBox.padding_ideal hlawful rfl hwrite⟩

end VideoAcceptance

end RdEngine
