/-
RdEngine/BytesCodec.lean

The length framing of `bytes_codec.rs`: a head of one to four bytes, whose two
low bits say how long it is and whose other bits are the length of the
payload, then the payload.

`BytesCodec.decoder` is the decoder as an incremental one, so the chunks in
which the stream delivers a frame do not matter, and `decode_encode` is the
round trip.  Buffer capacity (`reserve`) has no effect on the bytes and is
left out.
-/
import RdEngine.Lib.Decoder
import RdEngine.Lib.Words
import RdEngine.Message
import Mathlib.Data.List.GetD
import Mathlib.Tactic.IntervalCases
import Mathlib.Tactic.Ring

namespace RdEngine

open Incremental

/-- The kinds of `io::Error` that are told apart. -/
inductive IoErrorKind where
  | connectionAborted | notConnected | timedOut | invalidData | invalidInput | unexpectedEof
  | other
  deriving DecidableEq, Repr

/-- An `io::Error`, by its kind and text. -/
structure IoError where
  kind : IoErrorKind
  message : String
  deriving DecidableEq, Repr

/-- `DecodeState`: whether the length of the next frame is known. -/
inductive DecodeState where
  | head
  | data (n : Nat)
  deriving DecidableEq, Repr

/-- `BytesCodec`: the framing of a stream, or none of it where it is raw. -/
structure BytesCodec where
  state : DecodeState
  raw : Bool
  maxPacketLength : Nat
  deriving DecidableEq, Repr

namespace BytesCodec

/-- A new codec; its packet length is bounded by `usize::MAX` only. -/
def new : BytesCodec := ⟨.head, false, 2 ^ 64 - 1⟩

def setRaw (codec : BytesCodec) : BytesCodec := { codec with raw := true }

/-- `set_max_packet_length`; the length is checked when the next head is read. -/
def setMaxPacketLength (codec : BytesCodec) (n : Nat) : BytesCodec :=
  { codec with maxPacketLength := n }

/-! ### Decoding -/

/-- The head's bytes as one number, tag bits included. -/
def headValue (headLen : Nat) (src : Bytes) : Nat :=
  let n := (src.getD 0 0).toNat
  let n := if headLen > 1 then n ||| (src.getD 1 0).toNat <<< 8 else n
  let n := if headLen > 2 then n ||| (src.getD 2 0).toNat <<< 16 else n
  if headLen > 3 then n ||| (src.getD 3 0).toNat <<< 24 else n

/-- `decode_head`: the length of a frame in one to four bytes, whose low bits tell how many. -/
def decodeHead (codec : BytesCodec) (src : Bytes) : Except IoError (Option (Nat × Bytes)) :=
  if src = [] then .ok none
  else
    let headLen := (src.getD 0 0 &&& 0x3).toNat + 1
    if src.length < headLen then .ok none
    else
      let n := headValue headLen src >>> 2
      if n > codec.maxPacketLength then .error ⟨.invalidData, "Too big packet"⟩
      else .ok (some (n, src.drop headLen))

/-- `decode_data`: the frame, once it has arrived in whole. -/
def decodeData (n : Nat) (src : Bytes) : Option (Bytes × Bytes) :=
  if src.length < n then none else some (src.take n, src.drop n)

/-- The payload of a frame whose head was read: on success the codec is back
at a head, otherwise it waits for the rest. -/
def finish (codec : BytesCodec) (n : Nat) (src : Bytes) :
    Poll BytesCodec UInt8 Bytes IoError :=
  match decodeData n src with
  | some (data, rest) => .item data { codec with state := .head } rest
  | none => .wait { codec with state := .data n } src

/-- `decode`, on the bytes that have arrived. -/
def decode (codec : BytesCodec) (src : Bytes) : Poll BytesCodec UInt8 Bytes IoError :=
  if codec.raw then
    if src ≠ [] then .item src codec [] else .wait codec src
  else
    match codec.state with
    | .head =>
      match codec.decodeHead src with
      | .error e => .fail e
      | .ok none => .wait codec src
      | .ok (some (n, rest)) => codec.finish n rest
    | .data n => codec.finish n src

/-! ### Encoding -/

/-- The head of a frame, as short as its length allows. -/
def encodeHead (len : Nat) : Except IoError Bytes :=
  if len ≤ 0x3F then .ok (Words.le 1 (len <<< 2))
  else if len ≤ 0x3FFF then .ok (Words.le 2 (len <<< 2 ||| 0x1))
  else if len ≤ 0x3FFFFF then
    let h := len <<< 2 ||| 0x2
    .ok (Words.le 2 (h &&& 0xFFFF) ++ Words.le 1 (h >>> 16))
  else if len ≤ 0x3FFFFFFF then .ok (Words.le 4 (len <<< 2 ||| 0x3))
  else .error ⟨.invalidInput, "Overflow"⟩

/-- `encode`: the frame behind what the buffer holds. -/
def encode (codec : BytesCodec) (data buf : Bytes) : Except IoError Bytes :=
  if codec.raw then .ok (buf ++ data)
  else
    match encodeHead data.length with
    | .ok head => .ok (buf ++ head ++ data)
    | .error e => .error e

/-! ### The decoder is incremental -/

theorem finish_append (codec : BytesCodec) (n : Nat) (buf more : Bytes) (hr : codec.raw = false) :
    codec.finish n (buf ++ more) = (codec.finish n buf).extend decode more := by
  unfold finish decodeData
  by_cases hn : buf.length < n
  · -- the payload is not complete: the codec goes on from the state it saved
    rw [if_pos hn]
    simp only [Poll.extend]
    conv_rhs => unfold decode
    simp only [hr, finish, decodeData, Bool.false_eq_true, if_false]
  · have hn' : ¬ (buf ++ more).length < n := by rw [List.length_append]; omega
    rw [if_neg hn, if_neg hn', List.take_append_of_le_length (by omega),
      List.drop_append_of_le_length (by omega)]
    rfl

theorem headValue_append {headLen : Nat} {buf : Bytes} (more : Bytes) (h0 : 0 < buf.length)
    (h : headLen ≤ buf.length) : headValue headLen (buf ++ more) = headValue headLen buf := by
  have hget : ∀ i, i < buf.length → (buf ++ more).getD i 0 = buf.getD i 0 :=
    fun i hi => List.getD_append _ _ _ _ hi
  have h1 : headLen > 1 → (buf ++ more).getD 1 0 = buf.getD 1 0 := fun hgt => hget 1 (by omega)
  have h2 : headLen > 2 → (buf ++ more).getD 2 0 = buf.getD 2 0 := fun hgt => hget 2 (by omega)
  have h3 : headLen > 3 → (buf ++ more).getD 3 0 = buf.getD 3 0 := fun hgt => hget 3 (by omega)
  simp only [headValue, hget 0 h0]
  split_ifs <;> simp_all only [true_implies]

/-- What the head of a buffer says, it says of every longer one. -/
theorem decodeHead_append (codec : BytesCodec) (buf more : Bytes) :
    codec.decodeHead buf = .ok none ∨ codec.decodeHead (buf ++ more) =
      (codec.decodeHead buf).map (Option.map fun r => (r.1, r.2 ++ more)) := by
  by_cases hnil : buf = []
  · exact .inl (by rw [decodeHead, if_pos hnil])
  · have h0 : 0 < buf.length := List.length_pos_iff.mpr hnil
    have hnil' : buf ++ more ≠ [] := fun h => hnil (List.append_eq_nil_iff.mp h).1
    have hfirst : (buf ++ more).getD 0 0 = buf.getD 0 0 := List.getD_append _ _ _ _ h0
    simp only [decodeHead, if_neg hnil, if_neg hnil', hfirst]
    generalize (buf.getD 0 0 &&& 0x3).toNat + 1 = headLen
    by_cases hlen : buf.length < headLen
    · exact .inl (if_pos hlen)
    · have hlen' : ¬ (buf ++ more).length < headLen := by
        rw [List.length_append]; omega
      refine .inr ?_
      rw [if_neg hlen, if_neg hlen', headValue_append more h0 (by omega),
        List.drop_append_of_le_length (by omega)]
      split <;> rfl

theorem decode_append (codec : BytesCodec) (buf more : Bytes) (hr : codec.raw = false) :
    codec.decode (buf ++ more) = (codec.decode buf).extend decode more := by
  rcases hs : codec.state with - | n
  · rcases decodeHead_append codec buf more with hnone | hmap
    · -- no head yet: the codec polls again on the longer buffer
      have hwait : codec.decode buf = .wait codec buf := by simp [decode, hr, hs, hnone]
      rw [hwait]
      rfl
    · rcases hd : codec.decodeHead buf with e | - | ⟨n, rest⟩
      · simp [decode, hr, hs, hmap, hd, Except.map, Poll.extend]
      · have hwait : codec.decode buf = .wait codec buf := by simp [decode, hr, hs, hd]
        rw [hwait]
        rfl
      · rw [hd] at hmap
        have hmore : codec.decode (buf ++ more) = codec.finish n (rest ++ more) := by
          simp [decode, hr, hs, hmap, Except.map]
        have hbuf : codec.decode buf = codec.finish n rest := by simp [decode, hr, hs, hd]
        rw [hmore, hbuf]
        exact finish_append codec n rest more hr
  · have hall : ∀ src, codec.decode src = codec.finish n src := by
      intro src; simp [decode, hr, hs]
    rw [hall, hall]
    exact finish_append codec n buf more hr

/-- Decoding moves nothing but the codec's state. -/
theorem decode_next {codec t : BytesCodec} {src : Bytes} (h : (codec.decode src).next = some t) :
    t = { codec with state := t.state } := by
  have hfinish : ∀ n rest, (codec.finish n rest).next = some t →
      t = { codec with state := t.state } := by
    intro n rest hn
    unfold finish at hn
    split at hn <;> (cases hn; rfl)
  unfold decode at h
  split_ifs at h
  · cases h; rfl
  · cases h; rfl
  · split at h
    · split at h
      · cases h
      · cases h; rfl
      · exact hfinish _ _ h
    · exact hfinish _ _ h

/-- The framing as an incremental decoder. -/
def decoder : Decoder BytesCodec UInt8 Bytes IoError where
  decode := decode
  ready codec := codec.raw = false
  ready_next hr h := by rw [decode_next h]; exact hr
  decode_append := decode_append

@[simp] theorem decoder_decode : decoder.decode = decode := rfl

/-! ### The round trip -/

/-- A head is its length, tagged with its own width. -/
theorem encodeHead_eq {len : Nat} {head : Bytes} (h : encodeHead len = .ok head) :
    ∃ tag, tag < 4 ∧ len * 4 + tag < 256 ^ (tag + 1) ∧
      head = Words.le (tag + 1) (len * 4 + tag) := by
  have hor : ∀ t, t < 4 → len <<< 2 ||| t = len * 4 + t := by
    intro t ht
    rw [← Nat.shiftLeft_add_eq_or_of_lt (show t < 2 ^ 2 by omega), Nat.shiftLeft_eq]
  unfold encodeHead at h
  split_ifs at h with h1 h2 h3 h4
  · cases h
    exact ⟨0, by omega, by omega, by rw [Nat.shiftLeft_eq]; rfl⟩
  · cases h
    exact ⟨1, by omega, by omega, by rw [hor 1 (by omega)]⟩
  · cases h
    refine ⟨2, by omega, by omega, ?_⟩
    rw [hor 2 (by omega), show (0xFFFF : Nat) = 2 ^ 16 - 1 from rfl,
      Nat.and_two_pow_sub_one_eq_mod, Nat.shiftRight_eq_div_pow]
    exact (congrArg (· ++ _) (Words.le_mod 2 _)).trans (Words.le_append 2 1 _)
  · cases h
    exact ⟨3, by omega, by omega, by rw [hor 3 (by omega)]⟩

theorem headValue_le {tag n : Nat} (htag : tag < 4) (hn : n < 256 ^ (tag + 1)) (rest : Bytes) :
    headValue (tag + 1) (Words.le (tag + 1) n ++ rest) = n := by
  -- each byte read is added above the ones before it
  have hadd : ∀ i lo b, lo < 2 ^ i → lo ||| b <<< i = lo + 2 ^ i * b := by
    intro i lo b hlo
    rw [Nat.or_comm, ← Nat.shiftLeft_add_eq_or_of_lt hlo, Nat.shiftLeft_eq]
    ring
  have h0 : n % 256 < 2 ^ 8 := by omega
  have h1 : n % 256 + 2 ^ 8 * (n / 256 % 256) < 2 ^ 16 := by omega
  have h2 : n % 256 + 2 ^ 8 * (n / 256 % 256) + 2 ^ 16 * (n / 256 / 256 % 256) < 2 ^ 24 := by
    omega
  interval_cases tag
  · simp only [headValue, Words.le]
    simp
    omega
  · simp only [headValue, Words.le]
    simp
    rw [hadd 8 _ _ h0]
    omega
  · simp only [headValue, Words.le]
    simp
    rw [hadd 8 _ _ h0, hadd 16 _ _ h1]
    omega
  · simp only [headValue, Words.le]
    simp
    rw [hadd 8 _ _ h0, hadd 16 _ _ h1, hadd 24 _ _ h2]
    omega

theorem head_tag {tag n : Nat} (htag : tag < 4) (rest : Bytes) :
    ((Words.le (tag + 1) (n * 4 + tag) ++ rest).getD 0 0 &&& 0x3).toNat = tag := by
  have hand : ((n * 4 + tag) % 256) &&& 3 = tag := by
    rw [show (3 : Nat) = 2 ^ 2 - 1 from rfl, Nat.and_two_pow_sub_one_eq_mod]
    omega
  simpa [Words.le] using hand

theorem decodeHead_encodeHead {codec : BytesCodec} {len : Nat} {head : Bytes} (rest : Bytes)
    (h : encodeHead len = .ok head) (hmax : len ≤ codec.maxPacketLength) :
    codec.decodeHead (head ++ rest) = .ok (some (len, rest)) := by
  obtain ⟨tag, htag, hlt, rfl⟩ := encodeHead_eq h
  have hlen : (Words.le (tag + 1) (len * 4 + tag)).length = tag + 1 := Words.le_length _ _
  have hnil : Words.le (tag + 1) (len * 4 + tag) ++ rest ≠ [] := by
    rw [Words.le]; exact List.cons_ne_nil _ _
  have hvalue : headValue (tag + 1) (Words.le (tag + 1) (len * 4 + tag) ++ rest) >>> 2 = len := by
    rw [headValue_le htag hlt, Nat.shiftRight_eq_div_pow]
    omega
  simp only [decodeHead, if_neg hnil, head_tag htag, hvalue]
  rw [if_neg (by rw [List.length_append, hlen]; omega), if_neg (by omega)]
  rw [List.drop_append_of_le_length (by rw [hlen]), List.drop_of_length_le (by rw [hlen]),
    List.nil_append]

theorem encode_ne_error {codec : BytesCodec} {data buf : Bytes} (h : data.length ≤ 0x3FFFFFFF)
    (e : IoError) : codec.encode data buf ≠ .error e := by
  unfold encode encodeHead
  split_ifs <;> intro hcontra <;> cases hcontra

/-- **The frame of a payload decodes to it**, and to nothing else. -/
theorem decode_encode {codec sender : BytesCodec} {data frame : Bytes}
    (hr : codec.raw = false) (hs : codec.state = .head) (hraw : sender.raw = false)
    (h : sender.encode data [] = .ok frame) (hmax : data.length ≤ codec.maxPacketLength) :
    codec.decode frame = .item data codec [] := by
  unfold encode at h
  rcases hhead : encodeHead data.length with e | head
  · simp [hraw, hhead] at h
  · have hframe : frame = head ++ data := by simpa [hraw, hhead] using h.symm
    have hd := decodeHead_encodeHead data hhead hmax
    subst hframe
    have hcodec : ({ codec with state := .head } : BytesCodec) = codec := by rw [← hs]
    have hfinish : codec.finish data.length data = .item data codec [] := by
      rw [finish, hcodec, decodeData, if_neg (lt_irrefl _), List.take_length, List.drop_length]
    rw [decode, if_neg (by rw [hr]; exact Bool.false_ne_true), hs]
    simp only [hd, hfinish]

end BytesCodec

end RdEngine
