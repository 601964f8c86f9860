/-
RdEngine/Platform/AnnexB.lean

The byte stream of the encoder as a sequence of units.

Some bytes are *units* (`Units`) when they fall into pieces that each begin with
a start code, have at least one byte behind it, and end where the next start
code begins.  This says nothing of how the pieces are found, and leaves no
choice (`units_unique`).

`inspect` accepts exactly the bytes that are units of the codec
(`inspect_eq_ok_iff`), and what it says of them is said unit by unit: is one of
them a part of a picture, a random access point, the last of its kind of
parameter set.
-/
import RdEngine.Platform.OhosPublisher
import RdEngine.Lib.Latest
import Mathlib.Data.Nat.Bitwise

namespace RdEngine

namespace OhosPublisher

/-! ### Start codes -/

theorem startCode_cases (data : Bytes) :
    (startCode data = 4 ∧ ∃ rest, data = 0 :: 0 :: 0 :: 1 :: rest)
      ∨ (startCode data = 3 ∧ ∃ rest, data = 0 :: 0 :: 1 :: rest) ∨ startCode data = 0 := by
  unfold startCode
  split
  · exact .inl ⟨rfl, _, rfl⟩
  · exact .inr (.inl ⟨rfl, _, rfl⟩)
  · exact .inr (.inr rfl)

theorem startCode_append {data : Bytes} (h : startCode data ≠ 0) (rest : Bytes) :
    startCode (data ++ rest) = startCode data := by
  obtain ⟨-, tail, rfl⟩ | ⟨-, tail, rfl⟩ | h0 := startCode_cases data
  · rfl
  · rfl
  · exact absurd h0 h

/-- A start code needs no byte behind it to be seen. -/
theorem startCode_take {data : Bytes} {n : Nat} (hn : startCode data ≤ n) :
    startCode (data.take n) = startCode data := by
  obtain ⟨h, tail, rfl⟩ | ⟨h, tail, rfl⟩ | h := startCode_cases data
  · obtain ⟨k, rfl⟩ := Nat.exists_eq_add_of_le (h ▸ hn)
    rw [Nat.add_comm, List.take_succ_cons, List.take_succ_cons, List.take_succ_cons,
      List.take_succ_cons]
    rfl
  · obtain ⟨k, rfl⟩ := Nat.exists_eq_add_of_le (h ▸ hn)
    rw [Nat.add_comm, List.take_succ_cons, List.take_succ_cons, List.take_succ_cons]
    rfl
  · by_contra hne
    apply hne
    have happend := startCode_append (h ▸ hne) (data.drop n)
    rw [List.take_append_drop] at happend
    exact happend.symm

/-- A byte at which a start code begins is zero. -/
theorem head_of_startCode {byte : UInt8} {data : Bytes} (h : startCode (byte :: data) ≠ 0) :
    byte = 0 := by
  obtain ⟨-, rest, hrest⟩ | ⟨-, rest, hrest⟩ | h0 := startCode_cases (byte :: data)
  · exact (List.cons.inj hrest).1
  · exact (List.cons.inj hrest).1
  · exact absurd h0 h

theorem second_of_startCode {byte second : UInt8} {data : Bytes}
    (h : startCode (byte :: data) ≠ 0) (hsecond : (byte :: data)[1]? = some second) :
    second = 0 := by
  obtain ⟨-, rest, hrest⟩ | ⟨-, rest, hrest⟩ | h0 := startCode_cases (byte :: data)
  · rw [hrest] at hsecond
    exact (Option.some.inj hsecond).symm
  · rw [hrest] at hsecond
    exact (Option.some.inj hsecond).symm
  · exact absurd h0 h

theorem startCode_le_length (data : Bytes) : startCode data ≤ data.length := by
  obtain ⟨h, tail, rfl⟩ | ⟨h, tail, rfl⟩ | h := startCode_cases data
  · rw [h, List.length_cons, List.length_cons, List.length_cons, List.length_cons]
    omega
  · rw [h, List.length_cons, List.length_cons, List.length_cons]
    omega
  · omega

/-- No start code begins in `body` where `rest` follows. -/
def Plain (body rest : Bytes) : Prop :=
  ∀ before after, body = before ++ after → after ≠ [] → startCode (after ++ rest) = 0

theorem plain_nil (rest : Bytes) : Plain [] rest := by
  intro before after hsplit hafter
  exact absurd (List.append_eq_nil_iff.mp hsplit.symm).2 hafter

theorem plain_cons {byte : UInt8} {body rest : Bytes} :
    Plain (byte :: body) rest ↔ startCode (byte :: body ++ rest) = 0 ∧ Plain body rest := by
  constructor
  · intro h
    refine ⟨h [] _ rfl (List.cons_ne_nil _ _), ?_⟩
    rintro before after rfl hafter
    exact h (byte :: before) after rfl hafter
  · rintro ⟨hhead, htail⟩ before after hsplit hafter
    rcases List.cons_eq_append_iff.mp hsplit with ⟨rfl, rfl⟩ | ⟨before', rfl, rfl⟩
    · exact hhead
    · exact htail before' after rfl hafter

/-- What the scan finds: the bytes before the next start code, or all there are. -/
theorem untilStart_spec (data : Bytes) :
    Plain (data.take (untilStart data)) (data.drop (untilStart data))
      ∧ (data.drop (untilStart data) = [] ∨ startCode (data.drop (untilStart data)) ≠ 0) := by
  induction data with
  | nil => exact ⟨plain_nil _, .inl rfl⟩
  | cons byte data ih =>
    unfold untilStart
    split
    · rename_i hcode
      rw [List.take_succ_cons, List.drop_succ_cons, plain_cons]
      refine ⟨⟨?_, ih.1⟩, ih.2⟩
      rw [List.cons_append, List.take_append_drop]
      exact hcode
    · rename_i hcode
      exact ⟨plain_nil _, .inr hcode⟩

theorem untilStart_plain {body rest : Bytes} (h : Plain body rest)
    (hrest : rest = [] ∨ startCode rest ≠ 0) : untilStart (body ++ rest) = body.length := by
  induction body with
  | nil =>
    rw [List.nil_append, List.length_nil]
    cases rest with
    | nil => rfl
    | cons byte rest =>
      rw [untilStart, if_neg (hrest.resolve_left (List.cons_ne_nil _ _))]
  | cons byte body ih =>
    obtain ⟨hhead, htail⟩ := plain_cons.mp h
    rw [List.cons_append] at hhead
    rw [List.cons_append, untilStart, if_pos hhead, ih htail, List.length_cons]

/-! ### Units -/

/-- The bytes of a unit behind its start code. -/
def body (unit : Bytes) : Bytes := unit.drop (startCode unit)

/-- Some bytes are one unit where `rest` follows. -/
structure IsUnit (unit rest : Bytes) : Prop where
  starts : startCode unit ≠ 0
  body : body unit ≠ []
  /-- no start code begins before the end -/
  plain : Plain (OhosPublisher.body unit) rest
  /-- and one begins there, or nothing -/
  ends : rest = [] ∨ startCode rest ≠ 0

/-- Consecutive units, and nothing behind them. -/
def Units : List Bytes → Prop
  | [] => True
  | unit :: us => IsUnit unit us.flatten ∧ Units us

theorem IsUnit.length_pos {unit rest : Bytes} (h : IsUnit unit rest) : 0 < unit.length := by
  have hle := startCode_le_length unit
  have hstarts := Nat.pos_of_ne_zero h.starts
  omega

theorem IsUnit.code {unit rest : Bytes} (h : IsUnit unit rest) :
    startCode (unit ++ rest) = startCode unit := startCode_append h.starts rest

/-- The length of a unit as the scan computes it. -/
theorem IsUnit.length {unit rest : Bytes} (h : IsUnit unit rest) :
    startCode unit + 1 + untilStart ((unit ++ rest).drop (startCode unit + 1)) = unit.length := by
  obtain ⟨header, payload, hbody⟩ := List.exists_cons_of_ne_nil h.body
  have hlength : (OhosPublisher.body unit).length = unit.length - startCode unit := by
    rw [OhosPublisher.body, List.length_drop]
  rw [hbody, List.length_cons] at hlength
  have hdrop : (unit ++ rest).drop (startCode unit + 1) = payload ++ rest := by
    rw [← List.drop_drop, List.drop_append_of_le_length (startCode_le_length unit)]
    show (OhosPublisher.body unit ++ rest).drop 1 = _
    rw [hbody]
    rfl
  have hplain := h.plain
  rw [hbody] at hplain
  rw [hdrop, untilStart_plain (plain_cons.mp hplain).2 h.ends]
  omega

/-- **There is one way** for bytes to be units. -/
theorem units_unique {us vs : List Bytes} (hus : Units us) (hvs : Units vs)
    (h : us.flatten = vs.flatten) : us = vs := by
  induction us generalizing vs with
  | nil =>
    cases vs with
    | nil => rfl
    | cons unit vs =>
      have hpos := hvs.1.length_pos
      rw [List.flatten_nil, List.flatten_cons] at h
      rw [(List.append_eq_nil_iff.mp h.symm).1] at hpos
      exact absurd hpos (Nat.lt_irrefl 0)
  | cons unit us ih =>
    cases vs with
    | nil =>
      have hpos := hus.1.length_pos
      rw [List.flatten_nil, List.flatten_cons] at h
      rw [(List.append_eq_nil_iff.mp h).1] at hpos
      exact absurd hpos (Nat.lt_irrefl 0)
    | cons unit' vs =>
      rw [List.flatten_cons, List.flatten_cons] at h
      have hcode : startCode unit = startCode unit' := by
        rw [← hus.1.code, ← hvs.1.code, h]
      have hlength : unit.length = unit'.length := by
        rw [← hus.1.length, ← hvs.1.length, h, hcode]
      obtain ⟨rfl, hrest⟩ := List.append_inj h hlength
      rw [ih hus.2 hvs.2 hrest]

/-- Where a start code begins, and none at the byte behind it, a unit begins. -/
theorem isUnit_take {data : Bytes} {header : UInt8} {rest : Bytes} (hcode : startCode data ≠ 0)
    (hdata : data.drop (startCode data) = header :: rest) (hheader : startCode (header :: rest) = 0) :
    IsUnit (data.take (startCode data + 1 + untilStart rest)) (rest.drop (untilStart rest)) := by
  obtain ⟨hplain, hends⟩ := untilStart_spec rest
  have hsame : startCode (data.take (startCode data + 1 + untilStart rest)) = startCode data :=
    startCode_take (by omega)
  have hbody : body (data.take (startCode data + 1 + untilStart rest))
      = header :: rest.take (untilStart rest) := by
    rw [body, hsame, List.drop_take, hdata]
    have hcount : startCode data + 1 + untilStart rest - startCode data = untilStart rest + 1 := by
      omega
    rw [hcount, List.take_succ_cons]
  refine ⟨hsame.trans_ne hcode, hbody ▸ List.cons_ne_nil _ _, ?_, hends⟩
  rw [hbody, plain_cons]
  refine ⟨?_, hplain⟩
  rw [List.cons_append, List.take_append_drop]
  exact hheader

/-! ### What a unit is -/

/-- The first byte behind the start code. -/
def header (unit : Bytes) : UInt8 := (body unit).headD 0

/-- The type of a unit, as its codec numbers them. -/
def unitType (codec : Codec) (unit : Bytes) : Nat :=
  match codec with
  | .h264 => (header unit).toNat % 32
  | .h265 => (header unit).toNat / 2 % 64

/-- The unit is a part of a coded picture. -/
def Vcl (codec : Codec) (unit : Bytes) : Prop :=
  match codec with
  | .h264 => 1 ≤ unitType .h264 unit ∧ unitType .h264 unit ≤ 5
  | .h265 => unitType .h265 unit ≤ 31

/-- The unit is a part of a picture at which decoding can begin. -/
def RandomAccess (codec : Codec) (unit : Bytes) : Prop :=
  match codec with
  | .h264 => unitType .h264 unit = 5
  | .h265 => 16 ≤ unitType .h265 unit ∧ unitType .h265 unit ≤ 23

/-- The slot of a parameter set: video, sequence, picture. -/
def setOf (codec : Codec) (unit : Bytes) : Option (Fin 3) :=
  match codec with
  | .h264 =>
    if unitType .h264 unit = 7 then some 1 else if unitType .h264 unit = 8 then some 2 else none
  | .h265 =>
    if unitType .h265 unit = 32 then some 0 else if unitType .h265 unit = 33 then some 1
    else if unitType .h265 unit = 34 then some 2 else none

/-- The header is one of the codec. -/
def WellFormed (codec : Codec) (unit : Bytes) : Prop :=
  (header unit).toNat < 128 ∧
    match codec with
    | .h264 => unitType .h264 unit ≠ 0
    | .h265 => ∃ second, (body unit)[1]? = some second ∧ second.toNat % 8 ≠ 0

/-- A unit that `inspect` lets pass. -/
structure Passes (codec : Codec) (unit : Bytes) : Prop where
  wellFormed : WellFormed codec unit
  fits : setOf codec unit ≠ none → unit.length ≤ maxHeader / 3

/-! ### The bits of a header -/

theorem and_31 (byte : UInt8) : (byte &&& 31).toNat = byte.toNat % 32 := by
  rw [UInt8.toNat_and]
  exact Nat.and_two_pow_sub_one_eq_mod byte.toNat 5

theorem shift_and_63 (byte : UInt8) : ((byte >>> 1) &&& 63).toNat = byte.toNat / 2 % 64 := by
  rw [UInt8.toNat_and, UInt8.toNat_shiftRight]
  exact (Nat.and_two_pow_sub_one_eq_mod _ 6).trans (by rw [Nat.shiftRight_eq_div_pow]; rfl)

theorem and_80_eq_zero (byte : UInt8) : byte &&& 0x80 = 0 ↔ byte.toNat < 128 := by
  rw [← UInt8.toNat_inj, UInt8.toNat_and]
  have hlt := byte.toNat_lt
  show byte.toNat &&& 2 ^ 7 = 0 ↔ _
  rw [Nat.and_two_pow, Nat.testBit_eq_decide_div_mod_eq]
  by_cases h : byte.toNat < 128
  · have hzero : byte.toNat / 2 ^ 7 % 2 = 0 := by omega
    rw [hzero]
    exact iff_of_true rfl h
  · have hone : byte.toNat / 2 ^ 7 % 2 = 1 := by omega
    rw [hone]
    exact iff_of_false (by decide) h

theorem and_7_ne_zero (byte : UInt8) : byte &&& 7 ≠ 0 ↔ byte.toNat % 8 ≠ 0 := by
  rw [Ne, ← UInt8.toNat_inj, UInt8.toNat_and]
  have hmod : byte.toNat &&& (7 : UInt8).toNat = byte.toNat % 8 :=
    Nat.and_two_pow_sub_one_eq_mod byte.toNat 3
  rw [hmod]
  rfl

namespace Parameters

/-- What the code computes of a unit. -/
def nalOf (codec : Codec) (unit : Bytes) : Nal := nal codec (header unit) (body unit)[1]?

theorem nalOf_valid {codec : Codec} {unit : Bytes} :
    (nalOf codec unit).valid = true ↔ WellFormed codec unit := by
  cases codec with
  | h264 =>
    show decide (header unit &&& 0x80 = 0 ∧ (header unit &&& 31).toNat ≠ 0) = true ↔ _
    rw [decide_eq_true_iff, and_80_eq_zero, and_31]
    rfl
  | h265 =>
    show decide (header unit &&& 0x80 = 0 ∧ ((body unit)[1]?.any fun byte => byte &&& 7 ≠ 0) = true)
      = true ↔ _
    rw [decide_eq_true_iff, and_80_eq_zero, Option.any_eq_true]
    refine and_congr Iff.rfl (exists_congr fun second => and_congr Iff.rfl ?_)
    rw [decide_eq_true_iff]
    exact and_7_ne_zero second

theorem nalOf_vcl {codec : Codec} {unit : Bytes} :
    (nalOf codec unit).vcl = true ↔ Vcl codec unit := by
  cases codec with
  | h264 =>
    show decide (1 ≤ (header unit &&& 31).toNat ∧ (header unit &&& 31).toNat ≤ 5) = true ↔ _
    rw [decide_eq_true_iff, and_31]
    rfl
  | h265 =>
    show decide (((header unit >>> 1) &&& 63).toNat ≤ 31) = true ↔ _
    rw [decide_eq_true_iff, shift_and_63]
    rfl

theorem nalOf_key {codec : Codec} {unit : Bytes} :
    (nalOf codec unit).key = true ↔ RandomAccess codec unit := by
  cases codec with
  | h264 =>
    show decide ((header unit &&& 31).toNat = 5) = true ↔ _
    rw [decide_eq_true_iff, and_31]
    rfl
  | h265 =>
    show decide (16 ≤ ((header unit >>> 1) &&& 63).toNat ∧ ((header unit >>> 1) &&& 63).toNat ≤ 23)
      = true ↔ _
    rw [decide_eq_true_iff, shift_and_63]
    rfl

theorem nalOf_slot (codec : Codec) (unit : Bytes) :
    (nalOf codec unit).slot = setOf codec unit := by
  cases codec with
  | h264 =>
    show (if (header unit &&& 31).toNat = 7 then some 1
      else if (header unit &&& 31).toNat = 8 then some 2 else none) = _
    rw [and_31]
    rfl
  | h265 =>
    show (if ((header unit >>> 1) &&& 63).toNat = 32 then some 0
      else if ((header unit >>> 1) &&& 63).toNat = 33 then some 1
      else if ((header unit >>> 1) &&& 63).toNat = 34 then some 2 else none) = _
    rw [shift_and_63]
    rfl

/-! ### Inspection -/

/-- A unit is seen: if it is a parameter set, it is kept. -/
def see (codec : Codec) (p : Parameters) (unit : Bytes) : Parameters :=
  { p with sets := fun slot => if setOf codec unit = some slot then some unit else p.sets slot }

theorem see_eq_update {codec : Codec} {p : Parameters} {unit : Bytes} {slot : Fin 3}
    (h : setOf codec unit = some slot) :
    { p with sets := Function.update p.sets slot (some unit) } = p.see codec unit := by
  unfold see
  congr 1
  funext slot'
  rw [h, Function.update_apply]
  by_cases heq : slot' = slot
  · rw [if_pos heq, if_pos (congrArg some heq.symm)]
  · rw [if_neg heq, if_neg fun hsome => heq (Option.some.inj hsome).symm]

theorem see_eq_self {codec : Codec} {p : Parameters} {unit : Bytes}
    (h : setOf codec unit = none) : p.see codec unit = p := by
  unfold see
  simp only [h, reduceCtorEq, if_false]

variable {codec : Codec} {p : Parameters} {vcl key : Bool} {unit rest : Bytes}
  {found : Parameters × Bool × Bool}

theorem inspectFrom_append (h : IsUnit unit rest) :
    p.inspectFrom codec vcl key (unit ++ rest) = .ok found ↔
      Passes codec unit ∧ (p.see codec unit).inspectFrom codec (vcl || (nalOf codec unit).vcl)
        (key || (nalOf codec unit).key) rest = .ok found := by
  obtain ⟨first, payload, hbody⟩ := List.exists_cons_of_ne_nil h.body
  have hne : unit ++ rest ≠ [] := by
    intro hnil
    have hpos := h.length_pos
    rw [(List.append_eq_nil_iff.mp hnil).1] at hpos
    exact absurd hpos (Nat.lt_irrefl 0)
  have hsplit : unit.length = startCode unit + (payload.length + 1) := by
    have hlength := congrArg List.length hbody
    rw [body, List.length_drop, List.length_cons] at hlength
    have hle := startCode_le_length unit
    omega
  have hget : ∀ i, i < unit.length → (unit ++ rest)[i]? = unit[i]? := fun i hi =>
    List.getElem?_append_left hi
  have hbodyAt : ∀ i, unit[startCode unit + i]? = (body unit)[i]? := fun i => by
    rw [body, List.getElem?_drop]
  have hheader : (unit ++ rest).getD (startCode unit) 0 = header unit := by
    rw [List.getD_eq_getElem?_getD, hget _ (by omega), ← Nat.add_zero (startCode unit), hbodyAt,
      header, hbody]
    rfl
  have hnext : (if startCode unit + 1 < unit.length then (unit ++ rest)[startCode unit + 1]?
      else none) = (body unit)[1]? := by
    split
    · rename_i hlt
      rw [hget _ hlt, hbodyAt]
    · rename_i hge
      rw [hbody]
      have hnil : payload = [] := List.eq_nil_of_length_eq_zero (by omega)
      rw [hnil]
      rfl
  -- one turn of the loop, with the unit as its own start code and body
  rw [inspectFrom, dif_neg hne]
  simp only [h.code, h.length, List.drop_left, List.take_left, hheader, hnext]
  rw [if_neg (not_or.mpr ⟨h.starts, by rw [List.length_append]; omega⟩)]
  show (if (!(nalOf codec unit).valid) = true then _ else _) = _ ↔ _
  by_cases hvalid : (nalOf codec unit).valid = true
  · have hwell := nalOf_valid.mp hvalid
    rw [hvalid, if_neg (by decide)]
    cases hslot : setOf codec unit with
    | none =>
      -- no parameter set, so the account is left as it is
      have hpasses : Passes codec unit := ⟨hwell, fun hset => absurd hslot hset⟩
      have hnal : (nal codec (header unit) (body unit)[1]?).slot = none :=
        (nalOf_slot codec unit).trans hslot
      rw [see_eq_self hslot, hnal]
      exact (and_iff_right hpasses).symm
    | some slot =>
      -- a parameter set passes only below the size kept for it
      have hnal : (nal codec (header unit) (body unit)[1]?).slot = some slot :=
        (nalOf_slot codec unit).trans hslot
      rw [hnal]
      show (if unit.length > maxHeader / 3 then _ else _) = _ ↔ _
      split
      · rename_i hlarge
        refine iff_of_false (by simp) fun hboth => ?_
        have hle := hboth.1.fits (by rw [hslot]; exact Option.some_ne_none slot)
        omega
      · rename_i hfits
        rw [see_eq_update hslot]
        exact (and_iff_right ⟨hwell, fun _ => Nat.not_lt.mp hfits⟩).symm
  · rw [Bool.eq_false_of_not_eq_true hvalid, if_pos (by decide)]
    exact iff_of_false (by simp) fun hboth => hvalid (nalOf_valid.mpr hboth.1.wellFormed)

/-- A header of zero bytes is of neither codec. -/
theorem nal_zero {next : Option UInt8} (h : ∀ byte, next = some byte → byte = 0) :
    (nal codec 0 next).valid = false := by
  cases codec with
  | h264 => rfl
  | h265 =>
    cases next with
    | none => rfl
    | some byte =>
      obtain rfl := h byte rfl
      rfl

/-- Where the loop goes on, a unit begins. -/
theorem inspectFrom_starts {data : Bytes} (hne : data ≠ [])
    (h : p.inspectFrom codec vcl key data = .ok found) :
    ∃ unit rest, data = unit ++ rest ∧ IsUnit unit rest := by
  rw [inspectFrom, dif_neg hne] at h
  dsimp only at h
  generalize hunit : nal codec _ _ = unit at h
  split at h
  · cases h
  rename_i hbegins
  obtain ⟨hcode, hlength⟩ := not_or.mp hbegins
  split at h
  · cases h
  rename_i hvalid
  obtain ⟨first, rest, hdata⟩ := List.exists_cons_of_ne_nil
    (List.drop_eq_nil_iff.not.mpr hlength)
  have hdrop : data.drop (startCode data + 1) = rest := by
    rw [← List.drop_drop, hdata]
    rfl
  -- a start code right behind a start code would be a header of zero, which is not valid
  have hheader : startCode (first :: rest) = 0 := by
    by_contra hzero
    obtain rfl := head_of_startCode hzero
    have hget : ∀ i, data[startCode data + i]? = (0 :: rest : Bytes)[i]? := fun i => by
      rw [← hdata, List.getElem?_drop]
    have hfirst : data.getD (startCode data) 0 = 0 := by
      rw [List.getD_eq_getElem?_getD, ← Nat.add_zero (startCode data), hget]
      rfl
    rw [hfirst, hget] at hunit
    refine hvalid ?_
    rw [← hunit, nal_zero]
    · rfl
    · intro byte hbyte
      split at hbyte
      · exact second_of_startCode hzero hbyte
      · cases hbyte
  refine ⟨data.take (startCode data + 1 + untilStart rest), rest.drop (untilStart rest), ?_,
    isUnit_take hcode hdata hheader⟩
  rw [← hdrop, List.drop_drop, List.take_append_drop]

/-- **What the loop accepts** are units, each of which passes. -/
theorem inspectFrom_eq_ok_iff {data : Bytes} :
    p.inspectFrom codec vcl key data = .ok found ↔
      ∃ us, Units us ∧ us.flatten = data ∧ (∀ unit ∈ us, Passes codec unit) ∧
        found = (us.foldl (see codec) p, vcl || us.any fun unit => (nalOf codec unit).vcl,
          key || us.any fun unit => (nalOf codec unit).key) := by
  constructor
  · intro h
    induction hn : data.length using Nat.strong_induction_on generalizing p vcl key data with
    | _ n ih =>
      by_cases hne : data = []
      · rw [inspectFrom, dif_pos hne] at h
        cases h
        exact ⟨[], trivial, hne.symm, nofun, by simp⟩
      · obtain ⟨unit, rest, rfl, hunit⟩ := inspectFrom_starts hne h
        obtain ⟨hpasses, hrest⟩ := (inspectFrom_append hunit).mp h
        have hshorter : rest.length < n := by
          have hpos := hunit.length_pos
          rw [List.length_append] at hn
          omega
        obtain ⟨us, hus, rfl, hall, hfound⟩ := ih _ hshorter hrest rfl
        refine ⟨unit :: us, ⟨hunit, hus⟩, rfl, List.forall_mem_cons.mpr ⟨hpasses, hall⟩, ?_⟩
        rw [hfound, List.foldl_cons, List.any_cons, List.any_cons, Bool.or_assoc, Bool.or_assoc]
  · rintro ⟨us, hus, rfl, hall, rfl⟩
    induction us generalizing p vcl key with
    | nil =>
      rw [List.flatten_nil, inspectFrom, dif_pos rfl]
      simp
    | cons unit us ih =>
      rw [List.forall_mem_cons] at hall
      rw [List.flatten_cons, inspectFrom_append hus.1]
      refine ⟨hall.1, (ih hus.2 hall.2).trans ?_⟩
      rw [List.foldl_cons, List.any_cons, List.any_cons, Bool.or_assoc, Bool.or_assoc]

/-- What the parameters hold of the units seen. -/
theorem foldl_see_sets (us : List Bytes) (slot : Fin 3) :
    (us.foldl (see codec) p).sets slot
      = ((Latest.latest (setOf codec) (some slot) us).map some).getD (p.sets slot) :=
  Latest.foldl_latest (π := fun q : Parameters => q.sets slot) (fun _ _ => rfl) p us

@[simp] theorem foldl_see_pending (us : List Bytes) :
    (us.foldl (see codec) p).pending = p.pending := by
  induction us generalizing p with
  | nil => rfl
  | cons unit us ih => exact ih

/-- A well-formed stream begins with a start code. -/
theorem startCode_of_units {us : List Bytes} (hus : Units us) (hne : us ≠ []) :
    startCode us.flatten ≠ 0 := by
  obtain ⟨unit, us, rfl⟩ := List.exists_cons_of_ne_nil hne
  rw [List.flatten_cons, hus.1.code]
  exact hus.1.starts

/-- **What `inspect` accepts**, and what it says of it. -/
theorem inspect_eq_ok_iff {data : Bytes} :
    p.inspect codec data = .ok found ↔
      ∃ us, Units us ∧ us ≠ [] ∧ us.flatten = data ∧ (∀ unit ∈ us, Passes codec unit) ∧
        found = (us.foldl (see codec) p, us.any fun unit => (nalOf codec unit).vcl,
          us.any fun unit => (nalOf codec unit).key) := by
  unfold inspect
  split
  · rename_i hcode
    refine iff_of_false (by simp) ?_
    rintro ⟨us, hus, hne, rfl, -⟩
    exact startCode_of_units hus hne hcode
  · rename_i hcode
    rw [inspectFrom_eq_ok_iff]
    refine exists_congr fun us => and_congr_right fun _ => ?_
    rw [Bool.false_or, Bool.false_or]
    refine ⟨fun ⟨hflatten, hrest⟩ => ⟨?_, hflatten, hrest⟩, fun ⟨_, hrest⟩ => hrest⟩
    rintro rfl
    exact hcode (hflatten ▸ rfl)

end Parameters

/-- What `inspect` has found in some bytes that are units. -/
structure Inspected (codec : Codec) (p : Parameters) (us : List Bytes) (p' : Parameters)
    (vcl key : Bool) : Prop where
  units : Units us
  vcl : vcl = true ↔ ∃ unit ∈ us, Vcl codec unit
  key : key = true ↔ ∃ unit ∈ us, RandomAccess codec unit
  /-- the last set of each kind, or what there was before -/
  sets : ∀ slot, p'.sets slot
    = ((Latest.latest (setOf codec) (some slot) us).map some).getD (p.sets slot)
  pending : p'.pending = p.pending

theorem inspected_of_ok {codec : Codec} {p p' : Parameters} {vcl key : Bool} {data : Bytes}
    (h : p.inspect codec data = .ok (p', vcl, key)) :
    ∃ us, us.flatten = data ∧ Inspected codec p us p' vcl key := by
  obtain ⟨us, hus, -, hflatten, -, hfound⟩ := Parameters.inspect_eq_ok_iff.mp h
  obtain ⟨rfl, hrest⟩ := Prod.mk.inj hfound
  obtain ⟨rfl, rfl⟩ := Prod.mk.inj hrest
  refine ⟨us, hflatten, hus, ?_, ?_, Parameters.foldl_see_sets us, Parameters.foldl_see_pending us⟩
  · rw [List.any_eq_true]
    exact exists_congr fun unit => and_congr_right fun _ => Parameters.nalOf_vcl
  · rw [List.any_eq_true]
    exact exists_congr fun unit => and_congr_right fun _ => Parameters.nalOf_key

end OhosPublisher

end RdEngine
