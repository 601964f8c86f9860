/-
RdEngine/Utf8.lean

UTF-8 between bytes and texts.

An index into a text counts the bytes of its characters (`Text.size`), and
slicing succeeds exactly between characters (`slice_eq_some_iff`).  Lossy
decoding is exact on what is ASCII: a character below 128 is one byte, decoded by
itself (`fromUtf8Lossy_cons_iff`).  Encoding takes one byte a character on such a
text (`size_eq_length_iff`, `toUTF8_ascii`) and more on any other.
-/
import RdEngine.Text

namespace RdEngine

namespace Text

/-! ### Sizes and boundaries -/

/-- The bytes of a text. -/
def size (text : List Char) : Nat := (text.map Char.utf8Size).sum

@[simp] theorem size_nil : size [] = 0 := rfl

@[simp] theorem size_cons (c : Char) (text : List Char) : size (c :: text) = c.utf8Size + size text := by
  rw [size, List.map_cons, List.sum_cons, size]

@[simp] theorem size_append (text text' : List Char) : size (text ++ text') = size text + size text' := by
  rw [size, List.map_append, List.sum_append, size, size]

theorem size_eq_zero_iff {text : List Char} : size text = 0 ↔ text = [] := by
  cases text with
  | nil => exact iff_of_true rfl rfl
  | cons c text =>
    have hpos := c.utf8Size_pos
    rw [size_cons]
    exact iff_of_false (by omega) (List.cons_ne_nil c text)

theorem splitAtByte_eq_some_iff {n : Nat} {text x y : List Char} :
    splitAtByte n text = some (x, y) ↔ text = x ++ y ∧ size x = n := by
  induction text generalizing n x with
  | nil =>
    cases n with
    | zero =>
      rw [splitAtByte, size_eq_zero_iff]
      constructor
      · rintro ⟨⟩
        exact ⟨rfl, rfl⟩
      · rintro ⟨hxy, rfl⟩
        rw [← show [] = y from hxy]
    | succ n =>
      rw [splitAtByte]
      refine iff_of_false (by simp) ?_
      rintro ⟨hxy, hsize⟩
      obtain ⟨rfl, -⟩ := List.append_eq_nil_iff.mp hxy.symm
      rw [size_nil] at hsize
      omega
  | cons c rest ih =>
    have hpos := c.utf8Size_pos
    cases n with
    | zero =>
      rw [splitAtByte, size_eq_zero_iff]
      constructor
      · rintro ⟨⟩
        exact ⟨rfl, rfl⟩
      · rintro ⟨hxy, rfl⟩
        rw [hxy]
        rfl
    | succ n =>
      rw [splitAtByte]
      constructor
      · intro h
        split_ifs at h with hc
        obtain ⟨⟨x', y'⟩, hrest, heq⟩ := Option.map_eq_some_iff.mp h
        cases heq
        obtain ⟨hrest, hsize⟩ := ih.mp hrest
        refine ⟨congrArg (c :: ·) hrest, ?_⟩
        rw [size_cons, hsize]
        omega
      · rintro ⟨hxy, hsize⟩
        cases x with
        | nil =>
          rw [size_nil] at hsize
          omega
        | cons d x =>
          obtain ⟨rfl, hrest⟩ := List.cons.inj hxy
          rw [size_cons] at hsize
          rw [if_pos (by omega), ih.mpr ⟨hrest, by omega⟩]
          rfl

theorem slice_eq_some_iff {text m : List Char} {start stop : Nat} (h : start ≤ stop) :
    slice text start stop = some m ↔
      ∃ x y, text = x ++ (m ++ y) ∧ size x = start ∧ size x + size m = stop := by
  rw [slice, Option.bind_eq_some_iff]
  constructor
  · rintro ⟨⟨x, rest⟩, hx, hm⟩
    obtain ⟨⟨m', y⟩, hsplit, heq⟩ := Option.map_eq_some_iff.mp hm
    cases heq
    obtain ⟨rfl, hsize⟩ := splitAtByte_eq_some_iff.mp hx
    obtain ⟨hrest, hsize'⟩ := splitAtByte_eq_some_iff.mp hsplit
    refine ⟨x, y, congrArg (x ++ ·) hrest, hsize, ?_⟩
    rw [hsize, hsize']
    omega
  · rintro ⟨x, y, rfl, hx, hm⟩
    refine ⟨(x, m ++ y), splitAtByte_eq_some_iff.mpr ⟨rfl, hx⟩, ?_⟩
    rw [splitAtByte_eq_some_iff.mpr ⟨rfl, show size m = stop - start by omega⟩]
    rfl

/-- An index between characters. -/
def IsBoundary (text : List Char) (n : Nat) : Prop := ∃ x y, text = x ++ y ∧ size x = n

/-- An index between characters of a part is one of the whole. -/
theorem IsBoundary.middle {m : List Char} {k : Nat} (h : IsBoundary m k) (x y : List Char) :
    IsBoundary (x ++ (m ++ y)) (size x + k) := by
  obtain ⟨x', y', rfl, rfl⟩ := h
  exact ⟨x ++ x', y' ++ y, by simp only [List.append_assoc], size_append x x'⟩

/-- Of two beginnings of a text, the smaller is the beginning of the other. -/
theorem append_of_size_le {x y x' y' : List Char} (h : x ++ y = x' ++ y') (hsize : size x ≤ size x') :
    ∃ z, x' = x ++ z := by
  rcases List.append_eq_append_iff.mp h with ⟨z, hx', -⟩ | ⟨z, hx, -⟩
  · exact ⟨z, hx'⟩
  · -- the larger one is no longer: what it has more has no bytes
    rw [hx, size_append] at hsize
    obtain rfl : z = [] := size_eq_zero_iff.mp (by omega)
    exact ⟨[], by rw [hx, List.append_nil, List.append_nil]⟩

theorem slice_isSome_iff {text : List Char} {start stop : Nat} (h : start ≤ stop) :
    (∃ m, slice text start stop = some m) ↔ IsBoundary text start ∧ IsBoundary text stop := by
  constructor
  · rintro ⟨m, hm⟩
    obtain ⟨x, y, rfl, hx, hm⟩ := (slice_eq_some_iff h).mp hm
    exact ⟨⟨x, m ++ y, rfl, hx⟩, ⟨x ++ m, y, by rw [List.append_assoc], by rw [size_append, hm]⟩⟩
  · rintro ⟨⟨x, y, rfl, hx⟩, ⟨x', y', hxy, hx'⟩⟩
    obtain ⟨m, rfl⟩ := append_of_size_le hxy (by omega)
    rw [List.append_assoc] at hxy
    rw [size_append] at hx'
    refine ⟨m, (slice_eq_some_iff h).mpr ⟨x, y', ?_, hx, hx'⟩⟩
    rw [List.append_cancel_left hxy]

/-! ### Lossy decoding and ASCII -/

set_option maxRecDepth 4000 in
theorem isContinuation_iff (b : UInt8) :
    isContinuation b = true ↔ 128 ≤ b.toNat ∧ b.toNat < 192 := by
  have hall : ∀ n : Fin 256, isContinuation (UInt8.ofNat n) = true ↔ 128 ≤ n.1 ∧ n.1 < 192 := by
    decide
  have hb := hall ⟨b.toNat, b.toNat_lt⟩
  rwa [UInt8.ofNat_toNat] at hb

/-- The second byte, where it matters, in numbers. -/
theorem secondInRange_low {first second : UInt8} (h : secondInRange first second = true) :
    128 ≤ second.toNat ∧ second.toNat < 192 ∧ (first.toNat = 0xe0 → 160 ≤ second.toNat) ∧
      (first.toNat = 0xed → second.toNat < 160) ∧ (first.toNat = 0xf0 → 144 ≤ second.toNat) ∧
      (first.toNat = 0xf4 → second.toNat < 144) := by
  have hne : ∀ c : UInt8, first ≠ c → first.toNat ≠ c.toNat :=
    fun c hc heq => hc (UInt8.toNat_inj.mp heq)
  unfold secondInRange at h
  split at h
  · simp only [decide_eq_true_eq, UInt8.le_iff_toNat_le, UInt8.reduceToNat] at h ⊢
    omega
  · simp only [decide_eq_true_eq, UInt8.le_iff_toNat_le, UInt8.reduceToNat] at h ⊢
    omega
  · simp only [decide_eq_true_eq, UInt8.le_iff_toNat_le, UInt8.reduceToNat] at h ⊢
    omega
  · simp only [decide_eq_true_eq, UInt8.le_iff_toNat_le, UInt8.reduceToNat] at h ⊢
    omega
  · next h1 h2 h3 h4 =>
    rw [isContinuation_iff] at h
    have hall := And.intro (hne _ h1) (And.intro (hne _ h2) (And.intro (hne _ h3) (hne _ h4)))
    simp only [UInt8.reduceToNat] at hall
    omega

theorem toNat_ofNat_char {n : Nat} (h : n < 0xd800 ∨ 0xdfff < n ∧ n < 0x110000) :
    (Char.ofNat n).toNat = n := by
  have hvalid : n.isValidChar := h
  rw [Char.ofNat, dif_pos hvalid]
  rfl

/-- A byte that does not stand for itself stands for no ASCII character. -/
theorem lossyChar_toNat {b0 : UInt8} (rest : Bytes) (h : ¬ b0 < 0x80) :
    128 ≤ (lossyChar b0 rest).1.toNat := by
  have hreplacement : 128 ≤ replacement.toNat := by decide
  unfold lossyChar
  dsimp only
  rw [if_neg h]
  split_ifs with h2 hc h3 hs hc' h4 hs' hc2 hc3
  · simp only [UInt8.le_iff_toNat_le, UInt8.reduceToNat] at h2
    rw [isContinuation_iff] at hc
    rw [toNat_ofNat_char] <;> omega
  · exact hreplacement
  · exact hreplacement
  · exact hreplacement
  · simp only [Bool.not_eq_true', Bool.not_eq_false] at hs hc'
    obtain ⟨hlow, hhigh, he0, hed, -, -⟩ := secondInRange_low hs
    simp only [UInt8.le_iff_toNat_le, UInt8.reduceToNat] at h3
    rw [isContinuation_iff] at hc'
    rw [toNat_ofNat_char] <;> omega
  · exact hreplacement
  · exact hreplacement
  · exact hreplacement
  · simp only [Bool.not_eq_true', Bool.not_eq_false] at hs' hc2 hc3
    obtain ⟨hlow, hhigh, -, -, hf0, hf4⟩ := secondInRange_low hs'
    simp only [UInt8.le_iff_toNat_le, UInt8.reduceToNat] at h4
    rw [isContinuation_iff] at hc2 hc3
    rw [toNat_ofNat_char] <;> omega
  · exact hreplacement

/-- Texts from bytes begin with an ASCII character exactly when the bytes do. -/
theorem fromUtf8Lossy_cons_iff {b : UInt8} {rest : Bytes} {c : Char} {text : List Char}
    (hc : c.toNat < 128) :
    fromUtf8Lossy (b :: rest) = c :: text ↔ b.toNat = c.toNat ∧ fromUtf8Lossy rest = text := by
  by_cases hb : b < 0x80
  · have hb' : b.toNat < 128 := UInt8.lt_iff_toNat_lt.mp hb
    have hfirst : lossyChar b rest = (Char.ofNat b.toNat, 1) := if_pos hb
    have hvalue : (Char.ofNat b.toNat).toNat = b.toNat := toNat_ofNat_char (by omega)
    unfold fromUtf8Lossy
    rw [List.length_cons, lossyAmong, hfirst]
    simp only [Nat.sub_self, List.drop_zero, List.cons.injEq]
    refine and_congr ⟨fun h => ?_, fun h => ?_⟩ Iff.rfl
    · rw [← h, hvalue]
    · rw [h, Char.ofNat_toNat]
  · have hb' : 128 ≤ b.toNat := by
      rw [UInt8.lt_iff_toNat_lt] at hb
      exact Nat.le_of_not_lt hb
    refine iff_of_false (fun h => ?_) fun h => by omega
    unfold fromUtf8Lossy at h
    rw [List.length_cons, lossyAmong] at h
    have hfirst := lossyChar_toNat rest hb
    have hlead : (lossyChar b rest).1 = c := (List.cons.inj h).1
    rw [hlead] at hfirst
    omega

/-! ### Encoding -/

theorem toNat_lt_iff {c : Char} : c.toNat < 128 ↔ c.utf8Size = 1 := by
  rw [Char.utf8Size_eq_one_iff, UInt32.le_iff_toNat_le]
  show c.toNat < 128 ↔ c.toNat ≤ 127
  omega

/-- One byte a character is what an ASCII text takes, and no other. -/
theorem size_eq_length_iff {text : List Char} :
    size text = text.length ↔ ∀ c ∈ text, c.toNat < 128 := by
  have hge : ∀ text : List Char, text.length ≤ size text := by
    intro text
    induction text with
    | nil => exact Nat.le_refl 0
    | cons c text ih =>
      have hpos := c.utf8Size_pos
      rw [List.length_cons, size_cons]
      omega
  induction text with
  | nil => exact iff_of_true rfl fun c hc => nomatch hc
  | cons c text ih =>
    have hpos := c.utf8Size_pos
    have hrest := hge text
    rw [List.forall_mem_cons, toNat_lt_iff, size_cons, List.length_cons]
    constructor
    · intro h
      exact ⟨by omega, ih.mp (by omega)⟩
    · rintro ⟨hc, htext⟩
      have hlen := ih.mpr htext
      omega

theorem toList_loop (bytes : ByteArray) (i : Nat) (acc : List UInt8) :
    ByteArray.toList.loop bytes i acc = acc.reverse ++ bytes.data.toList.drop i := by
  induction i, acc using ByteArray.toList.loop.induct bytes with
  | case1 i acc hi ih =>
    have hlt : i < bytes.data.toList.length := by
      rw [Array.length_toList]
      exact hi
    have hget : bytes.get! i = bytes.data.toList[i] := getElem!_pos bytes.data i hi
    rw [ByteArray.toList.loop, if_pos hi, ih, List.drop_eq_getElem_cons hlt, hget, List.reverse_cons,
      List.append_assoc]
    rfl
  | case2 i acc hi =>
    have hge : bytes.data.toList.length ≤ i := by
      rw [Array.length_toList]
      exact Nat.le_of_not_lt hi
    rw [ByteArray.toList.loop, if_neg hi, List.drop_eq_nil_of_le hge, List.append_nil]

/-- The encoding of a text is that of its characters. -/
theorem toUTF8_toList (text : String) :
    text.toUTF8.toList = text.toList.flatMap String.utf8EncodeChar := by
  rw [ByteArray.toList, toList_loop, String.toUTF8_eq_toByteArray, ← String.utf8Encode_toList,
    List.utf8Encode, List.toList_data_toByteArray]
  rfl

theorem utf8ByteSize_eq (text : String) : text.utf8ByteSize = size text.toList := by
  rw [← String.size_toByteArray, ← String.utf8Encode_toList, List.utf8Encode,
    List.size_toByteArray, List.length_flatMap, size]
  simp only [String.length_utf8EncodeChar]

theorem toUTF8_ascii {text : String} (h : ∀ c ∈ text.toList, c.toNat < 128) :
    text.toUTF8.toList = text.toList.map fun c => UInt8.ofNat c.toNat := by
  rw [toUTF8_toList, List.map_eq_flatMap]
  refine List.flatMap_congr fun c hc => ?_
  rw [String.utf8EncodeChar_eq_singleton (toNat_lt_iff.mp (h c hc))]
  rfl

theorem length_toUTF8 (text : String) : text.toUTF8.toList.length = text.utf8ByteSize := by
  rw [toUTF8_toList, utf8ByteSize_eq, List.length_flatMap, size]
  simp only [String.length_utf8EncodeChar]

end Text

end RdEngine
