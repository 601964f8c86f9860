/-
RdEngine/TextBytes.lean

The bytes of a text, and texts from the bytes of a text.

`as_bytes` and `from_utf8_lossy` are inverse on every text: the bytes of a character,
with whatever behind them, are decoded to that character (`lossyChar_utf8EncodeChar`),
so the lossy decoding of what was a text loses nothing (`fromUtf8Lossy_asBytes`).
-/
import RdEngine.Utf8

namespace RdEngine

namespace Text

/-- `as_bytes`. -/
def asBytes (text : List Char) : Bytes := text.flatMap String.utf8EncodeChar

@[simp] theorem asBytes_nil : asBytes [] = [] := rfl

@[simp] theorem asBytes_cons (c : Char) (text : List Char) :
    asBytes (c :: text) = String.utf8EncodeChar c ++ asBytes text := rfl

@[simp] theorem asBytes_append (text text' : List Char) :
    asBytes (text ++ text') = asBytes text ++ asBytes text' :=
  List.flatMap_append

@[simp] theorem length_asBytes (text : List Char) : (asBytes text).length = size text := by
  induction text with
  | nil => rfl
  | cons c text ih =>
    rw [asBytes_cons, List.length_append, ih, String.length_utf8EncodeChar, size_cons]

/-- A text of ASCII has one byte a character, its number. -/
theorem asBytes_ascii {text : List Char} (h : ∀ c ∈ text, c.toNat < 128) :
    asBytes text = text.map fun c => UInt8.ofNat c.toNat := by
  rw [asBytes, List.map_eq_flatMap]
  refine List.flatMap_congr fun c hc => ?_
  rw [String.utf8EncodeChar_eq_singleton (toNat_lt_iff.mp (h c hc))]
  rfl

/-! ### Decoding one character -/

section Bytes

variable {n : Nat}

theorem toNat_ofNat_byte (h : n < 256) : (UInt8.ofNat n).toNat = n := by
  rw [UInt8.toNat_ofNat']
  exact Nat.mod_eq_of_lt h

theorem lt_ofNat {m : Nat} (h : n < 256) (hm : m < 256) : UInt8.ofNat n < UInt8.ofNat m ↔ n < m := by
  rw [UInt8.lt_iff_toNat_lt, toNat_ofNat_byte h, toNat_ofNat_byte hm]

theorem le_ofNat {m : Nat} (h : n < 256) (hm : m < 256) : UInt8.ofNat n ≤ UInt8.ofNat m ↔ n ≤ m := by
  rw [UInt8.le_iff_toNat_le, toNat_ofNat_byte h, toNat_ofNat_byte hm]

theorem not_ascii_ofNat (h : n < 256) (hn : 0x80 ≤ n) : ¬ UInt8.ofNat n < 0x80 :=
  fun hlt => absurd ((lt_ofNat (m := 0x80) h (by omega)).mp hlt) (Nat.not_lt.mpr hn)

/-- A first byte in the range of its kind, and one past it. -/
theorem lead_ofNat {m k : Nat} (hk : k < 256) (hm : m ≤ n) (hn : n ≤ k) :
    UInt8.ofNat m ≤ UInt8.ofNat n ∧ UInt8.ofNat n ≤ UInt8.ofNat k :=
  ⟨(le_ofNat (by omega) (by omega)).mpr hm, (le_ofNat (by omega) hk).mpr hn⟩

theorem not_lead_ofNat {m k : Nat} (h : n < 256) (hn : k < n) :
    ¬ (UInt8.ofNat m ≤ UInt8.ofNat n ∧ UInt8.ofNat n ≤ UInt8.ofNat k) :=
  fun hin => absurd ((le_ofNat h (by omega)).mp hin.2) (Nat.not_le.mpr hn)

theorem isContinuation_ofNat (h : n < 64) : isContinuation (UInt8.ofNat (n + 0x80)) = true := by
  rw [isContinuation_iff, toNat_ofNat_byte (by omega)]
  omega

/-- The second byte of a character whose value is in the range of its first. -/
theorem secondInRange_ofNat {first m : Nat} (hfirst : first < 256) (hm : m < 64)
    (he0 : first = 0xe0 → 0x20 ≤ m) (hed : first = 0xed → m < 0x20) (hf0 : first = 0xf0 → 0x10 ≤ m)
    (hf4 : first = 0xf4 → m < 0x10) :
    secondInRange (UInt8.ofNat first) (UInt8.ofNat (m + 0x80)) = true := by
  have heq : ∀ k, k < 256 → UInt8.ofNat first = UInt8.ofNat k → first = k := by
    intro k hk h
    have h' := congrArg UInt8.toNat h
    rwa [toNat_ofNat_byte hfirst, toNat_ofNat_byte hk] at h'
  have hle : ∀ k, k < 256 → (UInt8.ofNat k ≤ UInt8.ofNat (m + 0x80) ↔ k ≤ m + 0x80) :=
    fun k hk => le_ofNat hk (by omega)
  have hge : ∀ k, k < 256 → (UInt8.ofNat (m + 0x80) ≤ UInt8.ofNat k ↔ m + 0x80 ≤ k) :=
    fun k hk => le_ofNat (by omega) hk
  unfold secondInRange
  split
  · next h =>
    have hmin := he0 (heq 0xe0 (by omega) h)
    exact decide_eq_true ⟨(hle 0xa0 (by omega)).mpr (by omega), (hge 0xbf (by omega)).mpr (by omega)⟩
  · next h =>
    have hmax := hed (heq 0xed (by omega) h)
    exact decide_eq_true ⟨(hle 0x80 (by omega)).mpr (by omega), (hge 0x9f (by omega)).mpr (by omega)⟩
  · next h =>
    have hmin := hf0 (heq 0xf0 (by omega) h)
    exact decide_eq_true ⟨(hle 0x90 (by omega)).mpr (by omega), (hge 0xbf (by omega)).mpr (by omega)⟩
  · next h =>
    have hmax := hf4 (heq 0xf4 (by omega) h)
    exact decide_eq_true ⟨(hle 0x80 (by omega)).mpr (by omega), (hge 0x8f (by omega)).mpr (by omega)⟩
  · exact isContinuation_ofNat hm

theorem low_ofNat (h : n < 64) : (UInt8.ofNat (n + 0x80)).toNat % 64 = n := by
  rw [toNat_ofNat_byte (by omega)]
  omega

variable {a m k : Nat} (behind : Bytes)

theorem lossyChar_one (ha : a < 0x80) : lossyChar (UInt8.ofNat a) behind = (Char.ofNat a, 1) := by
  have hfirst : UInt8.ofNat a < 0x80 := (lt_ofNat (m := 0x80) (by omega) (by omega)).mpr ha
  rw [lossyChar, if_pos hfirst, toNat_ofNat_byte (by omega)]

theorem lossyChar_two (ha : 0xc2 ≤ a) (ha' : a ≤ 0xdf) (hm : m < 64) :
    lossyChar (UInt8.ofNat a) (UInt8.ofNat (m + 0x80) :: behind) =
      (Char.ofNat (a % 32 * 64 + m), 2) := by
  have h1 : ¬ UInt8.ofNat a < 0x80 := not_ascii_ofNat (by omega) (by omega)
  have h2 : 0xc2 ≤ UInt8.ofNat a ∧ UInt8.ofNat a ≤ 0xdf :=
    lead_ofNat (m := 0xc2) (k := 0xdf) (by omega) ha ha'
  unfold lossyChar
  simp only [List.getD_cons_zero, if_neg h1, if_pos h2, isContinuation_ofNat hm, if_true, low_ofNat hm]
  rw [toNat_ofNat_byte (by omega)]

theorem lossyChar_three (ha : 0xe0 ≤ a) (ha' : a ≤ 0xef) (hk : k < 64) (hm : m < 64)
    (he0 : a = 0xe0 → 0x20 ≤ k) (hed : a = 0xed → k < 0x20) :
    lossyChar (UInt8.ofNat a) (UInt8.ofNat (k + 0x80) :: UInt8.ofNat (m + 0x80) :: behind) =
      (Char.ofNat ((a % 16 * 64 + k) * 64 + m), 3) := by
  have h1 : ¬ UInt8.ofNat a < 0x80 := not_ascii_ofNat (by omega) (by omega)
  have h2 : ¬ (0xc2 ≤ UInt8.ofNat a ∧ UInt8.ofNat a ≤ 0xdf) :=
    not_lead_ofNat (m := 0xc2) (k := 0xdf) (by omega) (by omega)
  have h3 : 0xe0 ≤ UInt8.ofNat a ∧ UInt8.ofNat a ≤ 0xef :=
    lead_ofNat (m := 0xe0) (k := 0xef) (by omega) ha ha'
  have hsecond : secondInRange (UInt8.ofNat a) (UInt8.ofNat (k + 0x80)) = true :=
    secondInRange_ofNat (by omega) hk he0 hed (by omega) (by omega)
  unfold lossyChar
  simp only [List.getD_cons_zero, List.getD_cons_succ, if_neg h1, if_neg h2, if_pos h3, hsecond,
    isContinuation_ofNat hm, Bool.not_true, Bool.false_eq_true, if_false, low_ofNat hm, low_ofNat hk]
  rw [toNat_ofNat_byte (by omega)]

theorem lossyChar_four {j : Nat} (ha : 0xf0 ≤ a) (ha' : a ≤ 0xf4) (hj : j < 64) (hk : k < 64)
    (hm : m < 64) (hf0 : a = 0xf0 → 0x10 ≤ j) (hf4 : a = 0xf4 → j < 0x10) :
    lossyChar (UInt8.ofNat a)
        (UInt8.ofNat (j + 0x80) :: UInt8.ofNat (k + 0x80) :: UInt8.ofNat (m + 0x80) :: behind) =
      (Char.ofNat (((a % 8 * 64 + j) * 64 + k) * 64 + m), 4) := by
  have h1 : ¬ UInt8.ofNat a < 0x80 := not_ascii_ofNat (by omega) (by omega)
  have h2 : ¬ (0xc2 ≤ UInt8.ofNat a ∧ UInt8.ofNat a ≤ 0xdf) :=
    not_lead_ofNat (m := 0xc2) (k := 0xdf) (by omega) (by omega)
  have h3 : ¬ (0xe0 ≤ UInt8.ofNat a ∧ UInt8.ofNat a ≤ 0xef) :=
    not_lead_ofNat (m := 0xe0) (k := 0xef) (by omega) (by omega)
  have h4 : 0xf0 ≤ UInt8.ofNat a ∧ UInt8.ofNat a ≤ 0xf4 :=
    lead_ofNat (m := 0xf0) (k := 0xf4) (by omega) ha ha'
  have hsecond : secondInRange (UInt8.ofNat a) (UInt8.ofNat (j + 0x80)) = true :=
    secondInRange_ofNat (by omega) hj (by omega) (by omega) hf0 hf4
  unfold lossyChar
  simp only [List.getD_cons_zero, List.getD_cons_succ, if_neg h1, if_neg h2, if_neg h3, if_pos h4, hsecond,
    isContinuation_ofNat hm, isContinuation_ofNat hk, Bool.not_true, Bool.false_eq_true, if_false,
    low_ofNat hm, low_ofNat hk, low_ofNat hj]
  rw [toNat_ofNat_byte (by omega)]

end Bytes

/-- The bytes of a character are decoded to it, whatever is behind them. -/
theorem lossyChar_utf8EncodeChar (c : Char) (behind : Bytes) :
    ∃ b0 rest, String.utf8EncodeChar c = b0 :: rest ∧
      lossyChar b0 (rest ++ behind) = (c, rest.length + 1) := by
  have hvalid : c.toNat < 0xd800 ∨ 0xdfff < c.toNat ∧ c.toNat < 0x110000 := c.valid
  have hback : ∀ n, n = c.toNat → Char.ofNat n = c := by
    rintro n rfl
    exact Char.ofNat_toNat c
  unfold String.utf8EncodeChar
  dsimp only
  rw [show c.val.toNat = c.toNat from rfl]
  generalize c.toNat = v at *
  split_ifs with h1 h2 h3
  · refine ⟨_, _, rfl, ?_⟩
    rw [List.nil_append, lossyChar_one behind (by omega), hback v rfl]
    rfl
  · refine ⟨_, _, rfl, ?_⟩
    rw [List.cons_append, List.nil_append, lossyChar_two behind (by omega) (by omega) (by omega),
      hback _ (by omega)]
    rfl
  · refine ⟨_, _, rfl, ?_⟩
    rw [List.cons_append, List.cons_append, List.nil_append,
      lossyChar_three behind (by omega) (by omega) (by omega) (by omega) (by omega) (by omega),
      hback _ (by omega)]
    rfl
  · refine ⟨_, _, rfl, ?_⟩
    rw [List.cons_append, List.cons_append, List.cons_append, List.nil_append,
      lossyChar_four behind (by omega) (by omega) (by omega) (by omega) (by omega) (by omega) (by omega),
      hback _ (by omega)]
    rfl

/-! ### Decoding a text -/

/-- The bytes of a text are decoded to it, whatever more characters are asked for. -/
theorem lossyAmong_asBytes (text : List Char) {n : Nat} (h : size text ≤ n) :
    lossyAmong n (asBytes text) = text := by
  induction text generalizing n with
  | nil => cases n <;> rfl
  | cons c text ih =>
    obtain ⟨b0, rest, hc, hchar⟩ := lossyChar_utf8EncodeChar c (asBytes text)
    have hsize : c.utf8Size = rest.length + 1 := by
      rw [← String.length_utf8EncodeChar, hc, List.length_cons]
    rw [size_cons, hsize] at h
    obtain ⟨n, rfl⟩ : ∃ k, n = k + 1 := ⟨n - 1, by omega⟩
    rw [asBytes_cons, hc, List.cons_append, lossyAmong, hchar]
    simp only [Nat.add_sub_cancel, List.drop_left', List.cons.injEq, true_and]
    exact ih (by omega)

/-- Nothing is lost of what was a text. -/
theorem fromUtf8Lossy_asBytes (text : List Char) : fromUtf8Lossy (asBytes text) = text :=
  lossyAmong_asBytes text (by rw [length_asBytes])

theorem asBytes_injective : Function.Injective asBytes :=
  Function.LeftInverse.injective fromUtf8Lossy_asBytes

end Text

end RdEngine
