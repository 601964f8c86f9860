/-
RdEngine/Lib/Base64.lean

Base64 with padding, over any alphabet of sixty-four symbols.

The decoder is strict: it wants the padding, nothing behind it, and no bit set that
encodes nothing.  So a text is decoded exactly if it is an encoding, and then to what it
encodes (`decode_eq_some_iff`).
-/
import Mathlib.Data.List.Nodup
import Mathlib.Tactic.SplitIfs

namespace Base64

/-- Sixty-four symbols, and a padding that is none of them. -/
structure Alphabet where
  symbols : List Char
  pad : Char
  length_symbols : symbols.length = 64
  nodup : symbols.Nodup
  pad_notMem : pad ∉ symbols

namespace Alphabet

variable (α : Alphabet)

/-- The symbol of a number below 64. -/
def symbol (n : Nat) : Char := α.symbols.getD n α.pad

/-- The number of a symbol. -/
def value (c : Char) : Option Nat :=
  if c ∈ α.symbols then some (α.symbols.idxOf c) else none

variable {α} {c : Char} {n : Nat}

theorem symbol_eq (h : n < 64) : ∃ h : n < α.symbols.length, α.symbol n = α.symbols[n] := by
  have h' : n < α.symbols.length := by
    rw [α.length_symbols]
    exact h
  refine ⟨h', ?_⟩
  rw [symbol, List.getD_eq_getElem?_getD, List.getElem?_eq_getElem h', Option.getD_some]

theorem symbol_mem (h : n < 64) : α.symbol n ∈ α.symbols := by
  obtain ⟨h', heq⟩ := symbol_eq (α := α) h
  rw [heq]
  exact List.getElem_mem h'

theorem symbol_ne_pad (h : n < 64) : α.symbol n ≠ α.pad :=
  fun heq => α.pad_notMem (heq ▸ symbol_mem h)

/-- The number of a symbol, and the symbol of a number. -/
theorem value_eq_some_iff : α.value c = some n ↔ n < 64 ∧ α.symbol n = c := by
  unfold value
  constructor
  · intro h
    split_ifs at h with hc
    obtain rfl := Option.some.inj h
    have hlt : α.symbols.idxOf c < 64 := by
      rw [← α.length_symbols]
      exact List.idxOf_lt_length_iff.mpr hc
    obtain ⟨h', heq⟩ := symbol_eq (α := α) hlt
    exact ⟨hlt, heq.trans (List.getElem_idxOf h')⟩
  · rintro ⟨hlt, rfl⟩
    obtain ⟨h', heq⟩ := symbol_eq (α := α) hlt
    rw [if_pos (symbol_mem hlt), heq, α.nodup.idxOf_getElem]

theorem value_symbol (h : n < 64) : α.value (α.symbol n) = some n :=
  value_eq_some_iff.mpr ⟨h, rfl⟩

end Alphabet

variable (α : Alphabet)

/-- Three bytes to four symbols. -/
def encode : List UInt8 → List Char
  | [] => []
  | [a] => [α.symbol (a.toNat / 4), α.symbol (a.toNat % 4 * 16), α.pad, α.pad]
  | [a, b] =>
    [α.symbol (a.toNat / 4), α.symbol (a.toNat % 4 * 16 + b.toNat / 16),
      α.symbol (b.toNat % 16 * 4), α.pad]
  | a :: b :: c :: rest =>
    α.symbol (a.toNat / 4) :: α.symbol (a.toNat % 4 * 16 + b.toNat / 16) ::
      α.symbol (b.toNat % 16 * 4 + c.toNat / 64) :: α.symbol (c.toNat % 64) :: encode rest

/-- The bytes of the last four symbols, of which some may be padding. -/
def decodeLast (w x y z : Char) : Option (List UInt8) :=
  if z ≠ α.pad then none
  else if y ≠ α.pad then
    (α.value w).bind fun w => (α.value x).bind fun x => (α.value y).bind fun y =>
      if y % 4 = 0 then some [.ofNat (w * 4 + x / 16), .ofNat (x % 16 * 16 + y / 4)] else none
  else
    (α.value w).bind fun w => (α.value x).bind fun x =>
      if x % 16 = 0 then some [.ofNat (w * 4 + x / 16)] else none

/-- The three bytes of four symbols. -/
def decodeFour (w x y z : Char) : Option (List UInt8) :=
  (α.value w).bind fun w => (α.value x).bind fun x => (α.value y).bind fun y =>
    (α.value z).bind fun z =>
      some [.ofNat (w * 4 + x / 16), .ofNat (x % 16 * 16 + y / 4), .ofNat (y % 4 * 64 + z)]

/-- Four symbols at a time; only the last four may be padded. -/
def decode : List Char → Option (List UInt8)
  | [] => some []
  | w :: x :: y :: z :: rest =>
    if rest = [] ∧ z = α.pad then decodeLast α w x y z
    else (decodeFour α w x y z).bind fun bytes => (decode rest).map (bytes ++ ·)
  | _ => none

/-! ### What is encoded is decoded -/

variable {α}

theorem decodeFour_encode (a b c : UInt8) :
    decodeFour α (α.symbol (a.toNat / 4)) (α.symbol (a.toNat % 4 * 16 + b.toNat / 16))
      (α.symbol (b.toNat % 16 * 4 + c.toNat / 64)) (α.symbol (c.toNat % 64)) = some [a, b, c] := by
  have ha := a.toNat_lt
  have hb := b.toNat_lt
  have hc := c.toNat_lt
  have h1 : a.toNat / 4 * 4 + (a.toNat % 4 * 16 + b.toNat / 16) / 16 = a.toNat := by omega
  have h2 : (a.toNat % 4 * 16 + b.toNat / 16) % 16 * 16 + (b.toNat % 16 * 4 + c.toNat / 64) / 4 =
      b.toNat := by omega
  have h3 : (b.toNat % 16 * 4 + c.toNat / 64) % 4 * 64 + c.toNat % 64 = c.toNat := by omega
  unfold decodeFour
  rw [Alphabet.value_symbol (by omega), Alphabet.value_symbol (by omega),
    Alphabet.value_symbol (by omega), Alphabet.value_symbol (by omega)]
  simp only [Option.bind_some, h1, h2, h3, UInt8.ofNat_toNat]

theorem decode_encode (bytes : List UInt8) : decode α (encode α bytes) = some bytes := by
  induction bytes using encode.induct with
  | case1 => rfl
  | case2 a =>
    have ha := a.toNat_lt
    have h1 : a.toNat / 4 * 4 + a.toNat % 4 * 16 / 16 = a.toNat := by omega
    rw [encode, decode, if_pos ⟨rfl, rfl⟩, decodeLast, if_neg (not_not_intro rfl),
      if_neg (not_not_intro rfl), Alphabet.value_symbol (by omega),
      Alphabet.value_symbol (by omega)]
    simp only [Option.bind_some, h1, UInt8.ofNat_toNat]
    rw [if_pos (by omega)]
  | case3 a b =>
    have ha := a.toNat_lt
    have hb := b.toNat_lt
    have h1 : a.toNat / 4 * 4 + (a.toNat % 4 * 16 + b.toNat / 16) / 16 = a.toNat := by omega
    have h2 : (a.toNat % 4 * 16 + b.toNat / 16) % 16 * 16 + b.toNat % 16 * 4 / 4 = b.toNat := by
      omega
    rw [encode, decode, if_pos ⟨rfl, rfl⟩, decodeLast, if_neg (not_not_intro rfl),
      if_pos (Alphabet.symbol_ne_pad (by omega)), Alphabet.value_symbol (by omega),
      Alphabet.value_symbol (by omega), Alphabet.value_symbol (by omega)]
    simp only [Option.bind_some, h1, h2, UInt8.ofNat_toNat]
    rw [if_pos (by omega)]
  | case4 a b c rest ih =>
    rw [encode, decode, if_neg fun h => Alphabet.symbol_ne_pad (by omega) h.2, decodeFour_encode,
      Option.bind_some, ih]
    rfl

/-! ### What is decoded was encoded -/

theorem encode_append_three (a b c : UInt8) (rest : List UInt8) :
    encode α (a :: b :: c :: rest) = encode α [a, b, c] ++ encode α rest := rfl

theorem encode_of_decodeFour {w x y z : Char} {bytes : List UInt8}
    (h : decodeFour α w x y z = some bytes) :
    ∃ a b c, bytes = [a, b, c] ∧ encode α bytes = [w, x, y, z] := by
  unfold decodeFour at h
  simp only [Option.bind_eq_some_iff, Alphabet.value_eq_some_iff] at h
  obtain ⟨w, ⟨hw, rfl⟩, x, ⟨hx, rfl⟩, y, ⟨hy, rfl⟩, z, ⟨hz, rfl⟩, hbytes⟩ := h
  obtain rfl := Option.some.inj hbytes
  refine ⟨_, _, _, rfl, ?_⟩
  have htoNat : ∀ n, n < 256 → (UInt8.ofNat n).toNat = n := fun n hn => by
    rw [UInt8.toNat_ofNat']
    exact Nat.mod_eq_of_lt hn
  rw [encode, encode, htoNat _ (by omega), htoNat _ (by omega), htoNat _ (by omega)]
  rw [show (w * 4 + x / 16) / 4 = w by omega,
    show (w * 4 + x / 16) % 4 * 16 + (x % 16 * 16 + y / 4) / 16 = x by omega,
    show (x % 16 * 16 + y / 4) % 16 * 4 + (y % 4 * 64 + z) / 64 = y by omega,
    show (y % 4 * 64 + z) % 64 = z by omega]

theorem encode_of_decodeLast {w x y z : Char} {bytes : List UInt8}
    (h : decodeLast α w x y z = some bytes) : encode α bytes = [w, x, y, z] := by
  have htoNat : ∀ n, n < 256 → (UInt8.ofNat n).toNat = n := fun n hn => by
    rw [UInt8.toNat_ofNat']
    exact Nat.mod_eq_of_lt hn
  unfold decodeLast at h
  split_ifs at h with hz hy
  · simp only [Option.bind_eq_some_iff, Alphabet.value_eq_some_iff] at h
    obtain ⟨w, ⟨hw, rfl⟩, x, ⟨hx, rfl⟩, y, ⟨hy', rfl⟩, hbytes⟩ := h
    split_ifs at hbytes with hlow
    obtain rfl := Option.some.inj hbytes
    rw [encode, htoNat _ (by omega), htoNat _ (by omega), not_not.mp hz]
    rw [show (w * 4 + x / 16) / 4 = w by omega,
      show (w * 4 + x / 16) % 4 * 16 + (x % 16 * 16 + y / 4) / 16 = x by omega,
      show (x % 16 * 16 + y / 4) % 16 * 4 = y by omega]
  · simp only [Option.bind_eq_some_iff, Alphabet.value_eq_some_iff] at h
    obtain ⟨w, ⟨hw, rfl⟩, x, ⟨hx, rfl⟩, hbytes⟩ := h
    split_ifs at hbytes with hlow
    obtain rfl := Option.some.inj hbytes
    rw [encode, htoNat _ (by omega), not_not.mp hz, not_not.mp hy]
    rw [show (w * 4 + x / 16) / 4 = w by omega, show (w * 4 + x / 16) % 4 * 16 = x by omega]

theorem encode_of_decode {text : List Char} {bytes : List UInt8} (h : decode α text = some bytes) :
    encode α bytes = text := by
  induction text using decode.induct (α := α) generalizing bytes with
  | case1 =>
    obtain rfl := Option.some.inj h
    rfl
  | case2 w x y z rest hlast =>
    rw [decode, if_pos hlast] at h
    rw [hlast.1]
    exact encode_of_decodeLast h
  | case3 w x y z rest hlast ih =>
    rw [decode, if_neg hlast] at h
    simp only [Option.bind_eq_some_iff, Option.map_eq_some_iff] at h
    obtain ⟨four, hfour, others, hothers, rfl⟩ := h
    obtain ⟨a, b, c, rfl, hencode⟩ := encode_of_decodeFour hfour
    rw [List.cons_append, List.cons_append, List.cons_append, List.nil_append,
      encode_append_three, hencode, ih hothers]
    rfl
  | case4 text hnil hfour =>
    rw [decode] at h
    · cases h
    · exact hnil
    · exact hfour

/-- A text is decoded exactly if it is an encoding. -/
theorem decode_eq_some_iff {text : List Char} {bytes : List UInt8} :
    decode α text = some bytes ↔ text = encode α bytes :=
  ⟨fun h => (encode_of_decode h).symm, fun h => h ▸ decode_encode bytes⟩

theorem length_encode (bytes : List UInt8) :
    (encode α bytes).length = (bytes.length + 2) / 3 * 4 := by
  induction bytes using encode.induct with
  | case1 => rfl
  | case2 a =>
    simp only [encode, List.length_cons, List.length_nil]
  | case3 a b =>
    simp only [encode, List.length_cons, List.length_nil]
  | case4 a b c rest ih =>
    rw [encode]
    simp only [List.length_cons, ih]
    omega

/-- An encoding is made of symbols and padding. -/
theorem mem_encode {bytes : List UInt8} {c : Char} (h : c ∈ encode α bytes) :
    c ∈ α.symbols ∨ c = α.pad := by
  induction bytes using encode.induct with
  | case1 => cases h
  | case2 a =>
    have ha := a.toNat_lt
    simp only [encode, List.mem_cons, List.not_mem_nil, or_false] at h
    rcases h with rfl | rfl | rfl | rfl
    · exact .inl (Alphabet.symbol_mem (by omega))
    · exact .inl (Alphabet.symbol_mem (by omega))
    · exact .inr rfl
    · exact .inr rfl
  | case3 a b =>
    have ha := a.toNat_lt
    have hb := b.toNat_lt
    simp only [encode, List.mem_cons, List.not_mem_nil, or_false] at h
    rcases h with rfl | rfl | rfl | rfl
    · exact .inl (Alphabet.symbol_mem (by omega))
    · exact .inl (Alphabet.symbol_mem (by omega))
    · exact .inl (Alphabet.symbol_mem (by omega))
    · exact .inr rfl
  | case4 a b c rest ih =>
    have ha := a.toNat_lt
    have hb := b.toNat_lt
    have hc := c.toNat_lt
    simp only [encode, List.mem_cons] at h
    rcases h with rfl | rfl | rfl | rfl | h
    · exact .inl (Alphabet.symbol_mem (by omega))
    · exact .inl (Alphabet.symbol_mem (by omega))
    · exact .inl (Alphabet.symbol_mem (by omega))
    · exact .inl (Alphabet.symbol_mem (by omega))
    · exact ih h

/-! ### The usual alphabet -/

/-- Letters, digits, plus and slash. -/
def original : Alphabet where
  symbols := "ABCDEFGHIJKLMNOPQRSTUVWXYZabcdefghijklmnopqrstuvwxyz0123456789+/".toList
  pad := '='
  length_symbols := by decide
  nodup := by decide
  pad_notMem := by decide

theorem original_ascii {bytes : List UInt8} : ∀ c ∈ encode original bytes, c.toNat < 128 := by
  intro c hc
  have hall : original.symbols.all (fun c => decide (c.toNat < 128)) = true := rfl
  rcases mem_encode hc with h | rfl
  · exact of_decide_eq_true (List.all_eq_true.mp hall c h)
  · decide

example : encode original [77, 97, 110, 77] = "TWFuTQ==".toList := by decide

end Base64
