/-
RdEngine/FrameCodec.lean

`BytesCodec` as the streams use it: the decoder and the encoder work in place,
on a codec and a buffer they are given `&mut`, so that what a refusal leaves
behind can be read off (`decodeInPlace`, `encodeInPlace`), and a reader feeds
one decoder chunk by chunk.

`decodeInPlace_eq` connects the decoder in place with `BytesCodec.decode`, so
the rules of incremental decoders apply to it; what is added here is that a
head declares what its bytes say (`headOf`), and that a codec only waits for a
payload that is not empty (`Stands`), which is why every frame shortens the
buffer.
-/
import RdEngine.BytesCodec

namespace RdEngine

open Incremental

namespace BytesCodec

/-! ### In place -/

/-- `decode_head`, with what it leaves of the buffer. -/
def decodeHeadInPlace (codec : BytesCodec) (src : Bytes) :
    Except IoError (Option Nat) × Bytes :=
  if src = [] then (.ok none, src)
  else
    let headLen := (src.getD 0 0 &&& 0x3).toNat + 1
    if src.length < headLen then (.ok none, src)
    else
      let n := headValue headLen src >>> 2
      if n > codec.maxPacketLength then (.error ⟨.invalidData, "Too big packet"⟩, src)
      else (.ok (some n), src.drop headLen)

/-- The second half of `decode`, with the payload's length at hand: the codec
goes back to a head only when the payload is there. -/
def decodeDataInPlace (codec : BytesCodec) (n : Nat) (src : Bytes) :
    Except IoError (Option Bytes) × BytesCodec × Bytes :=
  if src.length < n then (.ok none, codec, src)
  else (.ok (some (src.take n)), { codec with state := .head }, src.drop n)

/-- `decode`, with what it leaves of the codec and the buffer. -/
def decodeInPlace (codec : BytesCodec) (src : Bytes) :
    Except IoError (Option Bytes) × BytesCodec × Bytes :=
  if codec.raw then
    if src ≠ [] then (.ok (some src), codec, []) else (.ok none, codec, src)
  else
    match codec.state with
    | .head =>
      match codec.decodeHeadInPlace src with
      | (.error e, src) => (.error e, codec, src)
      | (.ok none, src) => (.ok none, codec, src)
      | (.ok (some n), src) => ({ codec with state := .data n } : BytesCodec).decodeDataInPlace n src
    | .data n => codec.decodeDataInPlace n src

/-- The head goes into the buffer, or nothing does. -/
def encodeHeadInPlace (len : Nat) (buf : Bytes) : Except IoError Unit × Bytes :=
  if len ≤ 0x3F then (.ok (), buf ++ Words.le 1 (len <<< 2))
  else if len ≤ 0x3FFF then (.ok (), buf ++ Words.le 2 (len <<< 2 ||| 0x1))
  else if len ≤ 0x3FFFFF then
    let h := len <<< 2 ||| 0x2
    (.ok (), buf ++ Words.le 2 (h &&& 0xFFFF) ++ Words.le 1 (h >>> 16))
  else if len ≤ 0x3FFFFFFF then (.ok (), buf ++ Words.le 4 (len <<< 2 ||| 0x3))
  else (.error ⟨.invalidInput, "Overflow"⟩, buf)

/-- `encode`, with what it leaves of the buffer, whether or not it succeeds. -/
def encodeInPlace (codec : BytesCodec) (data buf : Bytes) : Except IoError Unit × Bytes :=
  if codec.raw then (.ok (), buf ++ data)
  else
    match encodeHeadInPlace data.length buf with
    | (.error e, buf) => (.error e, buf)
    | (.ok (), buf) => (.ok (), buf ++ data)

/-- The payloads one after the other, into one buffer. -/
def encodeAll (codec : BytesCodec) : List Bytes → Bytes → Except IoError Unit × Bytes
  | [], buf => (.ok (), buf)
  | data :: later, buf =>
    match codec.encodeInPlace data buf with
    | (.error e, buf) => (.error e, buf)
    | (.ok (), buf) => codec.encodeAll later buf

/-! ### In place is the same decoder -/

theorem decodeHeadInPlace_eq (codec : BytesCodec) (src : Bytes) :
    codec.decodeHeadInPlace src =
      match codec.decodeHead src with
      | .error e => (.error e, src)
      | .ok none => (.ok none, src)
      | .ok (some (n, rest)) => (.ok (some n), rest) := by
  unfold decodeHeadInPlace decodeHead
  by_cases hnil : src = []
  · simp only [if_pos hnil]
  · simp only [if_neg hnil]
    split_ifs <;> rfl

theorem decodeDataInPlace_eq (codec s : BytesCodec) (n : Nat) (src buf : Bytes) :
    ({ codec with state := .data n } : BytesCodec).decodeDataInPlace n src =
      (codec.finish n src).inPlace s buf := by
  unfold decodeDataInPlace finish decodeData
  split_ifs <;> rfl

theorem decodeInPlace_eq (codec : BytesCodec) (src : Bytes) :
    codec.decodeInPlace src = (codec.decode src).inPlace codec src := by
  unfold decodeInPlace decode
  split_ifs with hraw hsrc
  · rfl
  · rfl
  · rcases hs : codec.state with - | n
    · simp only [decodeHeadInPlace_eq]
      rcases codec.decodeHead src with e | - | ⟨n, rest⟩
      · rfl
      · rfl
      · exact decodeDataInPlace_eq codec codec n rest src
    · have hcodec : codec = { codec with state := .data n } := by rw [← hs]
      have heq := decodeDataInPlace_eq codec codec n src src
      rw [← hcodec] at heq
      exact heq

/-! ### What a head declares -/

/-- What the head at the front of a buffer says, once it is complete: how many
bytes it takes, and the length of the payload.  The two low bits of its first
byte are the number of bytes that follow, and the whole, least significant byte
first, is the length in the bits above them. -/
def headOf (src : Bytes) : Option (Nat × Nat) :=
  let headLen := (src.getD 0 0).toNat % 4 + 1
  if src.length < headLen then none else some (headLen, Words.ofLe (src.take headLen) / 4)

theorem headOf_length {src : Bytes} {headLen n : Nat} (h : headOf src = some (headLen, n)) :
    0 < headLen ∧ headLen ≤ 4 ∧ headLen ≤ src.length := by
  unfold headOf at h
  dsimp only at h
  split_ifs at h with hlen
  cases h
  omega

theorem headLen_eq (b : UInt8) : (b &&& 0x3).toNat + 1 = b.toNat % 4 + 1 := by
  have hand : b.toNat &&& 3 = b.toNat % 4 := by
    rw [show (3 : Nat) = 2 ^ 2 - 1 from rfl, Nat.and_two_pow_sub_one_eq_mod]
  simpa using hand

/-- The bytes of a head read as one number, whatever its width. -/
theorem headValue_eq {headLen : Nat} {src : Bytes} (h0 : 0 < headLen) (h4 : headLen ≤ 4)
    (hlen : headLen ≤ src.length) : headValue headLen src = Words.ofLe (src.take headLen) := by
  obtain ⟨tag, rfl⟩ : ∃ tag, headLen = tag + 1 := ⟨headLen - 1, by omega⟩
  have htake : (src.take (tag + 1)).length = tag + 1 := by
    rw [List.length_take, Nat.min_eq_left hlen]
  have hbytes := Words.le_ofLe (src.take (tag + 1))
  have hlt := Words.ofLe_lt (src.take (tag + 1))
  rw [htake] at hbytes hlt
  conv_lhs => rw [← List.take_append_drop (tag + 1) src, ← hbytes]
  exact headValue_le (by omega) hlt _

theorem decodeHeadInPlace_headOf (codec : BytesCodec) (src : Bytes) :
    codec.decodeHeadInPlace src =
      match headOf src with
      | none => (.ok none, src)
      | some (headLen, n) =>
        if n > codec.maxPacketLength then (.error ⟨.invalidData, "Too big packet"⟩, src)
        else (.ok (some n), src.drop headLen) := by
  unfold decodeHeadInPlace headOf
  by_cases hnil : src = []
  · subst hnil
    rfl
  · simp only [if_neg hnil, headLen_eq]
    by_cases hlen : src.length < (src.getD 0 0).toNat % 4 + 1
    · simp only [if_pos hlen]
    · simp only [if_neg hlen]
      rw [headValue_eq (Nat.succ_pos _) (by omega) (by omega), Nat.shiftRight_eq_div_pow]

/-! ### Every frame takes something off the buffer -/

/-- A codec stands at a head, or waits for a payload that is not empty: of an
empty payload everything is there as soon as its head is. -/
def Stands (codec : BytesCodec) : Prop :=
  match codec.state with
  | .head => True
  | .data n => 0 < n

/-- A codec and the buffer it reads from, in any run: bytes arrive, the codec
is polled, and its owner changes its settings. -/
inductive Reached : BytesCodec → Bytes → Prop
  | new : Reached new []
  | arrive {codec : BytesCodec} {src : Bytes} (chunk : Bytes) :
      Reached codec src → Reached codec (src ++ chunk)
  | poll {codec : BytesCodec} {src : Bytes} : Reached codec src →
      Reached (codec.decodeInPlace src).2.1 (codec.decodeInPlace src).2.2
  | setRaw {codec : BytesCodec} {src : Bytes} : Reached codec src → Reached codec.setRaw src
  | setMaxPacketLength {codec : BytesCodec} {src : Bytes} (n : Nat) :
      Reached codec src → Reached (codec.setMaxPacketLength n) src

theorem Stands.of_state {codec t : BytesCodec} (h : codec.Stands) (heq : t.state = codec.state) :
    t.Stands := by
  unfold Stands at *
  rwa [heq]

theorem stands_decodeDataInPlace (codec : BytesCodec) (n : Nat) (src : Bytes)
    (hs : codec.state = .data n) : (codec.decodeDataInPlace n src).2.1.Stands := by
  unfold decodeDataInPlace
  split_ifs with hlen
  · simp only [Stands, hs]
    omega
  · exact trivial

/-- A codec that waits for a payload has no room for an empty one. -/
theorem Stands.decodeInPlace {codec : BytesCodec} (h : codec.Stands) (src : Bytes) :
    (codec.decodeInPlace src).2.1.Stands := by
  unfold BytesCodec.decodeInPlace
  split_ifs with hraw hsrc
  · exact h
  · exact h
  · rcases hs : codec.state with - | n
    · rcases hd : codec.decodeHeadInPlace src with ⟨e | - | n, rest⟩
      · exact h
      · exact h
      · exact stands_decodeDataInPlace _ n rest rfl
    · exact stands_decodeDataInPlace codec n src hs

theorem Reached.stands {codec : BytesCodec} {src : Bytes} (h : Reached codec src) :
    codec.Stands := by
  induction h with
  | new => exact trivial
  | arrive _ _ ih => exact ih
  | poll _ ih => exact ih.decodeInPlace _
  | setRaw _ ih => exact ih.of_state rfl
  | setMaxPacketLength _ _ ih => exact ih.of_state rfl

/-- A head takes its bytes off the buffer. -/
theorem decodeHeadInPlace_shorter {codec : BytesCodec} {src rest : Bytes} {n : Nat}
    (h : codec.decodeHeadInPlace src = (.ok (some n), rest)) : rest.length < src.length := by
  rw [decodeHeadInPlace_headOf] at h
  rcases hd : headOf src with - | ⟨headLen, m⟩
  · simp [hd] at h
  · have hhead := headOf_length hd
    simp only [hd] at h
    split_ifs at h
    · cases h
    · cases h
      rw [List.length_drop]
      omega

theorem decodeDataInPlace_item {codec t : BytesCodec} {n : Nat} {src rest data : Bytes}
    (h : codec.decodeDataInPlace n src = (.ok (some data), t, rest)) :
    rest.length + n = src.length := by
  unfold decodeDataInPlace at h
  split_ifs at h with hlen
  · cases h
  · cases h
    rw [List.length_drop]
    omega

theorem Stands.shorter {codec t : BytesCodec} {src rest data : Bytes} (hs : codec.Stands)
    (h : codec.decodeInPlace src = (.ok (some data), t, rest)) : rest.length < src.length := by
  unfold BytesCodec.decodeInPlace at h
  split_ifs at h with hraw hsrc
  · cases h
    exact List.length_pos_iff.mpr hsrc
  · cases h
  · unfold Stands at hs
    rcases hstate : codec.state with - | n
    · rw [hstate] at h
      rcases hd : codec.decodeHeadInPlace src with ⟨e | - | n, src'⟩
      · simp [hd] at h
      · simp [hd] at h
      · simp only [hd] at h
        have hhead := decodeHeadInPlace_shorter hd
        have hdata := decodeDataInPlace_item h
        omega
    · rw [hstate] at h hs
      have hdata := decodeDataInPlace_item h
      simp only at hs
      omega

/-- A poll that finds nothing finds nothing again. -/
theorem decodeInPlace_of_none {codec t : BytesCodec} {src rest : Bytes}
    (h : codec.decodeInPlace src = (.ok none, t, rest)) :
    t.decodeInPlace rest = (.ok none, t, rest) := by
  rw [decodeInPlace_eq] at h ⊢
  rcases hd : codec.decode src with e | ⟨t', rest'⟩ | ⟨x, t', rest'⟩
  · rw [hd] at h
    cases h
  · rw [hd] at h
    cases h
    have hwait : t.decode rest = .wait t rest := by
      by_cases hraw : codec.raw = true
      · unfold decode at hd
        rw [if_pos hraw] at hd
        split_ifs at hd with hsrc
        cases hd
        simp only [decode, if_pos hraw, if_neg hsrc]
      · exact decoder.decode_of_wait (Bool.eq_false_iff.mpr hraw) hd
    rw [hwait]
    rfl
  · rw [hd] at h
    cases h

/-- A refusal leaves the codec and the buffer as they are. -/
theorem decodeInPlace_of_error {codec t : BytesCodec} {src rest : Bytes} {e : IoError}
    (h : codec.decodeInPlace src = (.error e, t, rest)) : t = codec ∧ rest = src := by
  rw [decodeInPlace_eq] at h
  rcases hd : codec.decode src with e' | ⟨t', rest'⟩ | ⟨x, t', rest'⟩
  · rw [hd] at h
    cases h
    exact ⟨rfl, rfl⟩
  · rw [hd] at h
    cases h
  · rw [hd] at h
    cases h

/-! ### The round trip -/

theorem encodeInPlace_eq (codec : BytesCodec) (data buf : Bytes) :
    codec.encodeInPlace data buf =
      match codec.encode data buf with
      | .error e => (.error e, buf)
      | .ok out => (.ok (), out) := by
  unfold encodeInPlace encode encodeHeadInPlace encodeHead
  split_ifs <;> first | rfl | simp only [List.append_assoc]

/-- Below the four byte head's limit a frame is written, and it decodes to its payload. -/
theorem encodeInPlace_frame {data : Bytes} (h : data.length < 2 ^ 30) (buf : Bytes) :
    ∃ frame, new.encodeInPlace data buf = (.ok (), buf ++ frame) ∧
      ∀ rest, new.decode (frame ++ rest) = .item data new rest := by
  have hbound : data.length ≤ 0x3FFFFFFF := by omega
  rcases hhead : encodeHead data.length with e | head
  · have herr : new.encode data [] = .error e := by simp [encode, new, hhead]
    exact absurd herr (encode_ne_error hbound e)
  · have hframe : new.encode data [] = .ok (head ++ data) := by simp [encode, new, hhead]
    have hdecode : new.decode (head ++ data) = .item data new [] :=
      decode_encode rfl rfl rfl hframe (by simp only [new]; omega)
    refine ⟨head ++ data, ?_, fun rest => ?_⟩
    · simp [encodeInPlace_eq, encode, new, hhead]
    · rw [decode_append new _ rest rfl, hdecode]
      rfl

theorem encodeInPlace_overflow {codec : BytesCodec} {data : Bytes} (hraw : codec.raw = false)
    (h : 2 ^ 30 ≤ data.length) (buf : Bytes) :
    codec.encodeInPlace data buf = (.error ⟨.invalidInput, "Overflow"⟩, buf) := by
  have h1 : ¬ data.length ≤ 0x3F := by omega
  have h2 : ¬ data.length ≤ 0x3FFF := by omega
  have h3 : ¬ data.length ≤ 0x3FFFFF := by omega
  have h4 : ¬ data.length ≤ 0x3FFFFFFF := by omega
  simp only [encodeInPlace, hraw, Bool.false_eq_true, if_false, encodeHeadInPlace, if_neg h1,
    if_neg h2, if_neg h3, if_neg h4]

/-- The frames of a list of payloads yield the list. -/
theorem encodeAll_yields (payloads : List Bytes) (h : ∀ p ∈ payloads, p.length < 2 ^ 30) :
    ∀ buf, ∃ wire, new.encodeAll payloads buf = (.ok (), buf ++ wire) ∧
      decoder.Yields new wire payloads new [] := by
  induction payloads with
  | nil => exact fun buf => ⟨[], by rw [encodeAll, List.append_nil], .wait rfl rfl⟩
  | cons data later ih =>
    intro buf
    obtain ⟨frame, hframe, hdecode⟩ := encodeInPlace_frame (h data List.mem_cons_self) buf
    obtain ⟨wire, hwire, hyields⟩ := ih (fun p hp => h p (List.mem_cons_of_mem _ hp)) (buf ++ frame)
    refine ⟨frame ++ wire, ?_, .item rfl (hdecode wire) hyields⟩
    rw [encodeAll, hframe, ← List.append_assoc]
    exact hwire

theorem progress : decoder.Progress Stands where
  keeps {codec src t} hs hnext := by
    have hkept := hs.decodeInPlace src
    rw [decodeInPlace_eq] at hkept
    rcases hd : codec.decode src with e | ⟨t', rest⟩ | ⟨x, t', rest⟩
    all_goals
      rw [decoder_decode, hd] at hnext
      rw [hd] at hkept
      cases hnext
      try exact hkept
  shorter {codec src x t rest} hs hd := by
    have hitem : codec.decodeInPlace src = (.ok (some x), t, rest) := by
      rw [decodeInPlace_eq, ← decoder_decode, hd]
      rfl
    exact hs.shorter hitem

/-- The head of a buffer is the head of what the buffer is the beginning of. -/
theorem headOf_append {src : Bytes} {headLen n : Nat} (rest : Bytes)
    (h : headOf src = some (headLen, n)) : headOf (src ++ rest) = some (headLen, n) := by
  have hlen := headOf_length h
  have hfirst : (src ++ rest).getD 0 0 = src.getD 0 0 :=
    List.getD_append _ _ _ _ (by omega)
  unfold headOf at h ⊢
  dsimp only at h ⊢
  split_ifs at h with hshort
  cases h
  rw [hfirst, if_neg (by rw [List.length_append]; omega),
    List.take_append_of_le_length (by omega)]

/-- A buffer that begins as a head does holds the whole head as soon as it is long enough. -/
theorem headOf_prefix {head payload src : Bytes} {n : Nat}
    (hhead : headOf head = some (head.length, n)) (hpre : src <+: head ++ payload) :
    headOf src = if head.length ≤ src.length then some (head.length, n) else none := by
  split_ifs with hlen
  · obtain ⟨more, rfl⟩ := List.prefix_of_prefix_length_le (List.prefix_append head payload) hpre hlen
    exact headOf_append more hhead
  · rcases hsrc : headOf src with - | ⟨headLen, m⟩
    · rfl
    · -- the head it would hold is the head of the whole, which is longer than it
      obtain ⟨more, hmore⟩ := hpre
      have hwhole := headOf_append more hsrc
      rw [hmore, headOf_append payload hhead] at hwhole
      have hfits := (headOf_length hsrc).2.2
      cases hwhole
      exact absurd hfits hlen

/-- Until a head that is over the limit is complete the codec waits, and then it
refuses; it takes nothing off the buffer either way. -/
theorem decodeInPlace_oversize {codec : BytesCodec} {head payload src : Bytes} {n : Nat}
    (hraw : codec.raw = false) (hs : codec.state = .head)
    (hhead : headOf head = some (head.length, n)) (hn : n > codec.maxPacketLength)
    (hpre : src <+: head ++ payload) :
    codec.decodeInPlace src =
      if head.length ≤ src.length then (.error ⟨.invalidData, "Too big packet"⟩, codec, src)
      else (.ok none, codec, src) := by
  simp only [decodeInPlace, hraw, Bool.false_eq_true, if_false, hs, decodeHeadInPlace_headOf,
    headOf_prefix hhead hpre]
  split_ifs with hlen
  · simp only [if_pos hn]
  · rfl

/-- **The frame codec round trip.**  Whatever the chunks, the decoder yields the
payloads that were encoded, and stands at a head with nothing left; a head over
the limit is refused as soon as it is there, with the buffer untouched; a
payload too long for a head is refused with the buffer unchanged; and every poll
waits, refuses, or takes a frame off the buffer, so that polling ends. -/
theorem frames_round_trip :
    (∀ payloads : List Bytes, (∀ p ∈ payloads, p.length < 2 ^ 30) →
      ∃ wire, new.encodeAll payloads [] = (.ok (), wire) ∧
        ∀ chunks : List Bytes, chunks.flatten = wire →
          feed decodeInPlace chunks new [] = (payloads, .ok (), new, [])) ∧
    (∀ (codec : BytesCodec) (head payload src : Bytes) (n : Nat), codec.raw = false →
      codec.state = .head → headOf head = some (head.length, n) → n > codec.maxPacketLength →
      src <+: head ++ payload →
      codec.decodeInPlace src =
        if head.length ≤ src.length then (.error ⟨.invalidData, "Too big packet"⟩, codec, src)
        else (.ok none, codec, src)) ∧
    (∀ (codec : BytesCodec) (data buf : Bytes), codec.raw = false → 2 ^ 30 ≤ data.length →
      codec.encodeInPlace data buf = (.error ⟨.invalidInput, "Overflow"⟩, buf)) ∧
    (∀ (codec : BytesCodec) (src : Bytes), Reached codec src →
      (∀ e t rest, codec.decodeInPlace src = (.error e, t, rest) → t = codec ∧ rest = src) ∧
      (∀ t rest, codec.decodeInPlace src = (.ok none, t, rest) →
        t.decodeInPlace rest = (.ok none, t, rest)) ∧
      (∀ data t rest, codec.decodeInPlace src = (.ok (some data), t, rest) →
        rest.length < src.length) ∧
      (∀ frames t rest, drain decodeInPlace (src.length + 1) codec src = (frames, .ok (), t, rest) →
        t.decodeInPlace rest = (.ok none, t, rest))) := by
  refine ⟨?_, ?_, ?_, ?_⟩
  · intro payloads h
    obtain ⟨wire, hwire, hyields⟩ := encodeAll_yields payloads h []
    refine ⟨wire, hwire, fun chunks hchunks => ?_⟩
    subst hchunks
    exact progress.feed decodeInPlace_eq chunks (s := new) trivial rfl hyields
  · exact fun codec head payload src n => decodeInPlace_oversize
  · exact fun codec data buf hraw h => encodeInPlace_overflow hraw h buf
  · intro codec src h
    refine ⟨fun _ _ _ => decodeInPlace_of_error, fun _ _ => decodeInPlace_of_none,
      fun _ _ _ => h.stands.shorter, fun frames t rest => ?_⟩
    exact drain_ends (I := Stands) (fun s buf hs => hs.decodeInPlace buf) Stands.shorter
      (fun _ => decodeInPlace_of_none) _ h.stands (Nat.lt_succ_self _)

/-- Two payloads, fed byte by byte, and a head over a limit of three bytes. -/
theorem frames_round_trip_bytewise :
    feed decodeInPlace [[8], [7], [9, 4], [5]] new [] = ([[7, 9], [5]], .ok (), new, []) ∧
    (new.setMaxPacketLength 3).decodeInPlace [16, 1] =
      (.error ⟨.invalidData, "Too big packet"⟩, new.setMaxPacketLength 3, [16, 1]) := by
  obtain ⟨wire, hwire, hfeed⟩ := frames_round_trip.1 [[7, 9], [5]] (by decide)
  have hbytes : wire = [8, 7, 9, 4, 5] := by
    have heval : new.encodeAll [[7, 9], [5]] [] = (.ok (), [8, 7, 9, 4, 5]) := by rfl
    rw [heval] at hwire
    cases hwire
    rfl
  refine ⟨hfeed _ (by rw [hbytes]; rfl), ?_⟩
  exact frames_round_trip.2.1 (new.setMaxPacketLength 3) [16] [1, 2, 3, 4] [16, 1] 4 rfl rfl rfl
    (by decide) ⟨[2, 3, 4], rfl⟩

end BytesCodec

end RdEngine
