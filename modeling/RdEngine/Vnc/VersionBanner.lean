/-
RdEngine/Vnc/VersionBanner.lean

What the client's version step does with the twelve bytes a server sends
(`handshake` in `vnc/mod.rs`).

A banner announces a version 3.x when it is `RFB 003.` with three digits and a
newline; the client is to answer it with the highest of its own versions that is
not above it, and to refuse everything else (`VersionStep`).  The step goes by
the lossy text of the bytes: it slices it at fixed places, and reads its numbers
leniently.  So it is as it should be exactly when no character lies across one
of these places, and none of the banners that are read leniently is one that
does not announce a version (`negotiate_version_iff`).
-/
import RdEngine.Utf8
import RdEngine.Vnc.FormatInEffect
import RdEngine.Vnc.Security

namespace RdEngine

open Dialogue

namespace Vnc

open Text
open SecurityServer (minorDigits)

/-! ### The step as it should be -/

/-- The banner of a version 3.x. -/
def Announces (bytes : Bytes) (minor : Nat) : Prop :=
  minor < 1000 ∧ bytes = banner (minorDigits minor)

/-- The minor versions the client speaks. -/
def spoken : List Nat := [3, 7, 8]

/-- The client's run on the twelve bytes of a banner. -/
def versionRun (password : Option Bytes) (bytes : Bytes) :
    Prog.Stop (Option UInt8) UInt8 VncFault (List Char × Nat × SecurityType) :=
  (negotiate password).drive (bytes.map some)

/-- A banner that announces a version is answered with the highest version that
is spoken and not above it, 3.3 being the lowest there is; every other banner is
refused with an error, and nothing panics. -/
structure VersionStep (password : Option Bytes) (bytes : Bytes) : Prop where
  no_panic : (versionRun password bytes).prog ≠ .fail .panicked
  accepts : ∀ minor, Announces bytes minor → ∃ v ∈ spoken,
    (versionRun password bytes).sent = banner (minorDigits v) ∧ (v ≤ minor ∨ v = 3) ∧
      ∀ v' ∈ spoken, v' ≤ minor → v' ≤ v
  refuses : (¬ ∃ minor, Announces bytes minor) →
    ∃ e, versionRun password bytes = ⟨.fail (.error e), [], []⟩

/-! ### The condition -/

/-- The places where the step slices its text are between characters. -/
def Sliceable (text : List Char) : Prop := IsBoundary text 7 ∧ IsBoundary text 8 ∧ IsBoundary text 11

def DigitByte (b : UInt8) : Prop := 48 ≤ b.toNat ∧ b.toNat < 58

/-- The banners the step accepts: between the two numbers any ASCII byte, and a
plus sign in front of a number. -/
def Lenient (bytes : Bytes) : Prop :=
  ∃ f c s₀ s₁ s₂ : UInt8, bytes = [82, 70, 66, 32, f, 48, 51, c, s₀, s₁, s₂, 10] ∧
    (f = 48 ∨ f = 43) ∧ c < 0x80 ∧ (s₀ = 43 ∨ DigitByte s₀) ∧ DigitByte s₁ ∧ DigitByte s₂

/-- The bytes on which the step is as it should be. -/
def VersionStepFits (bytes : Bytes) : Prop :=
  "RFB ".toList <+: fromUtf8Lossy bytes → (fromUtf8Lossy bytes).getLast? = some '\n' →
    Sliceable (fromUtf8Lossy bytes) ∧ (Lenient bytes → ∃ minor, Announces bytes minor)

/-! ### Reading the text -/

/-- What the step makes of the two numbers of its text. -/
def parseNumbers (version first second : List Char) : Except VncFault (List Char × Nat) :=
  match parseU32 first, parseU32 second with
  | some major, some minor =>
    if major ≠ 3 then .error (.error (.protocol (.majorVersion major))) else .ok (version, minor)
  | _, _ => .error (.error (.protocol (.unparsableVersion version)))

theorem sliceable_iff (rest : List Char) :
    Sliceable ("RFB ".toList ++ rest) ↔ ∃ first middle second tail,
      rest = first ++ (middle ++ (second ++ tail)) ∧ size first = 3 ∧ size middle = 1 ∧
        size second = 3 := by
  have hsize : size "RFB ".toList = 4 := by decide
  constructor
  · rintro ⟨⟨x, y, hxy, hx⟩, ⟨x', y', hxy', hx'⟩, ⟨x'', y'', hxy'', hx''⟩⟩
    obtain ⟨first, rfl⟩ := append_of_size_le hxy (by omega)
    obtain ⟨middle, rfl⟩ := append_of_size_le (hxy.symm.trans hxy') (by omega)
    obtain ⟨second, rfl⟩ := append_of_size_le (hxy'.symm.trans hxy'') (by omega)
    simp only [size_append, hsize] at hx hx' hx''
    refine ⟨first, middle, second, y'', ?_, by omega, by omega, by omega⟩
    simpa only [List.append_assoc, List.append_cancel_left_eq] using hxy''
  · rintro ⟨first, middle, second, tail, rfl, hf, hm, hs⟩
    refine ⟨⟨"RFB ".toList ++ first, middle ++ (second ++ tail), ?_, ?_⟩,
      ⟨"RFB ".toList ++ (first ++ middle), second ++ tail, ?_, ?_⟩,
      ⟨"RFB ".toList ++ (first ++ (middle ++ second)), tail, ?_, ?_⟩⟩
    all_goals simp only [List.append_assoc, size_append]
    all_goals omega

/-- A text that slices is read by its numbers. -/
theorem parseBanner_split {bytes : Bytes} {first middle second tail : List Char}
    (htext : fromUtf8Lossy bytes = "RFB ".toList ++ (first ++ (middle ++ (second ++ tail))))
    (hlast : (fromUtf8Lossy bytes).getLast? = some '\n') (hf : size first = 3)
    (hm : size middle = 1) (hs : size second = 3) :
    parseBanner bytes = parseNumbers (first ++ (middle ++ second)) first second := by
  have hversion : slice (fromUtf8Lossy bytes) 4 11 = some (first ++ (middle ++ second)) := by
    rw [slice_eq_some_iff (by decide), htext]
    refine ⟨"RFB ".toList, tail, by simp only [List.append_assoc], by decide, ?_⟩
    simp only [size_append, hf, hm, hs]
    decide
  have hfirst : slice (first ++ (middle ++ second)) 0 3 = some first := by
    rw [slice_eq_some_iff (by decide)]
    exact ⟨[], middle ++ second, rfl, rfl, by rw [size_nil, hf]⟩
  have hsecond : slice (first ++ (middle ++ second)) 4 7 = some second := by
    rw [slice_eq_some_iff (by decide)]
    refine ⟨first ++ middle, [], by simp only [List.append_assoc, List.append_nil], ?_, ?_⟩
    · rw [size_append, hf, hm]
    · rw [size_append, hf, hm, hs]
  have hstarts : "RFB ".toList.isPrefixOf (fromUtf8Lossy bytes) = true := by
    rw [List.isPrefixOf_iff_prefix, htext]
    exact List.prefix_append _ _
  unfold parseBanner
  dsimp only
  rw [hlast, if_neg (by rw [hstarts]; simp), hversion]
  simp only [hfirst, hsecond]
  rfl

/-- A text that does not slice makes the step panic. -/
theorem parseBanner_panics {bytes : Bytes} (hstarts : "RFB ".toList <+: fromUtf8Lossy bytes)
    (hlast : (fromUtf8Lossy bytes).getLast? = some '\n')
    (h : ¬ Sliceable (fromUtf8Lossy bytes)) : parseBanner bytes = .error .panicked := by
  have hstarts' : "RFB ".toList.isPrefixOf (fromUtf8Lossy bytes) = true :=
    List.isPrefixOf_iff_prefix.mpr hstarts
  unfold parseBanner
  dsimp only
  rw [hlast, if_neg (by rw [hstarts']; simp)]
  -- were all three slices there, so would be the places between them
  rcases hversion : slice (fromUtf8Lossy bytes) 4 11 with - | version
  · rfl
  · rcases hfirst : slice version 0 3 with - | first
    · simp only [hfirst]
    · rcases hsecond : slice version 4 7 with - | second
      · simp only [hfirst, hsecond]
      · refine absurd ?_ h
        have hend := ((slice_isSome_iff (by decide)).mp ⟨version, hversion⟩).2
        obtain ⟨x, y, hxy, hx, -⟩ := (slice_eq_some_iff (by decide)).mp hversion
        have hthree := ((slice_isSome_iff (by decide)).mp ⟨first, hfirst⟩).2.middle x y
        have hfour := ((slice_isSome_iff (by decide)).mp ⟨second, hsecond⟩).1.middle x y
        rw [← hxy, hx] at hthree hfour
        exact ⟨hthree, hfour, hend⟩

theorem parseBanner_of_not_banner {bytes : Bytes}
    (h : ¬ ("RFB ".toList <+: fromUtf8Lossy bytes ∧ (fromUtf8Lossy bytes).getLast? = some '\n')) :
    parseBanner bytes = .error (.error (.protocol (.noBanner (fromUtf8Lossy bytes)))) := by
  unfold parseBanner
  dsimp only
  rw [← List.isPrefixOf_iff_prefix] at h
  rw [if_pos]
  rcases hstarts : "RFB ".toList.isPrefixOf (fromUtf8Lossy bytes) with - | -
  · exact .inl rfl
  · exact .inr fun hlast => h ⟨hstarts, hlast⟩

/-! ### The numbers -/

theorem isDigit_iff (c : Char) : isDigit c = true ↔ 48 ≤ c.toNat ∧ c.toNat < 58 := by
  unfold isDigit
  rw [decide_eq_true_eq, Char.le_def, Char.le_def, UInt32.le_iff_toNat_le, UInt32.le_iff_toNat_le]
  show 48 ≤ c.toNat ∧ c.toNat ≤ 57 ↔ _
  omega

/-- A number is read from digits, behind a plus sign or not. -/
theorem parseU32_digits_of_some {text : List Char} {n : Nat} (h : parseU32 text = some n) :
    ∃ digits, (text = digits ∨ text = '+' :: digits) ∧ digits ≠ [] ∧
      (∀ c ∈ digits, isDigit c = true) ∧ decimal digits = n := by
  unfold parseU32 at h
  dsimp only at h
  have hread : ∀ digits : List Char,
      (if digits = [] ∨ !digits.all isDigit ∨ decimal digits ≥ 2 ^ 32 then none
        else some (decimal digits)) = some n →
      digits ≠ [] ∧ (∀ c ∈ digits, isDigit c = true) ∧ decimal digits = n := by
    intro digits hdigits
    split_ifs at hdigits with hbad
    rw [not_or, not_or, Bool.not_eq_true', Bool.not_eq_false, List.all_eq_true] at hbad
    exact ⟨hbad.1, hbad.2.1, Option.some.inj hdigits⟩
  by_cases hplus : text.head? = some '+'
  · rw [if_pos hplus] at h
    obtain ⟨rest, rfl⟩ := List.head?_eq_some_iff.mp hplus
    exact ⟨rest, .inr rfl, hread rest h⟩
  · rw [if_neg hplus] at h
    exact ⟨text, .inl rfl, hread text h⟩

theorem utf8Size_of_isDigit {c : Char} (h : isDigit c = true) : c.utf8Size = 1 := by
  rw [isDigit_iff] at h
  rw [Char.utf8Size_eq_one_iff, UInt32.le_iff_toNat_le]
  show c.toNat ≤ 127
  omega

theorem length_eq_size {text : List Char} (h : ∀ c ∈ text, c.utf8Size = 1) :
    text.length = size text := by
  induction text with
  | nil => rfl
  | cons c text ih =>
    rw [List.length_cons, size_cons, h c List.mem_cons_self,
      ih fun d hd => h d (List.mem_cons_of_mem c hd), Nat.add_comm]

theorem parseU32_three {text : List Char} {n : Nat} (h : parseU32 text = some n)
    (hsize : size text = 3) : ∃ c₀ c₁ c₂, text = [c₀, c₁, c₂] ∧
      (c₀ = '+' ∨ isDigit c₀ = true) ∧ isDigit c₁ = true ∧ isDigit c₂ = true := by
  obtain ⟨digits, htext, -, hall, -⟩ := parseU32_digits_of_some h
  have hlength := length_eq_size fun c hc => utf8Size_of_isDigit (hall c hc)
  rcases htext with rfl | rfl
  · rw [hsize] at hlength
    obtain ⟨c₀, c₁, c₂, rfl⟩ := List.length_eq_three.mp hlength
    exact ⟨c₀, c₁, c₂, rfl, .inr (hall c₀ (by simp)), hall c₁ (by simp), hall c₂ (by simp)⟩
  · have hplus : Char.utf8Size '+' = 1 := by decide
    rw [size_cons, hplus] at hsize
    obtain ⟨c₁, c₂, rfl⟩ := List.length_eq_two.mp (show digits.length = 2 by omega)
    exact ⟨'+', c₁, c₂, rfl, .inl rfl, hall c₁ (by simp), hall c₂ (by simp)⟩

theorem parseU32_eq_three {text : List Char} (h : parseU32 text = some 3) (hsize : size text = 3) :
    text = ['0', '0', '3'] ∨ text = ['+', '0', '3'] := by
  obtain ⟨digits, htext, -, hall, hvalue⟩ := parseU32_digits_of_some h
  have hlength := length_eq_size fun c hc => utf8Size_of_isDigit (hall c hc)
  rcases htext with rfl | rfl
  · rw [hsize] at hlength
    obtain ⟨c₀, c₁, c₂, rfl⟩ := List.length_eq_three.mp hlength
    have h₀ := (isDigit_iff c₀).mp (hall c₀ (by simp))
    have h₁ := (isDigit_iff c₁).mp (hall c₁ (by simp))
    have h₂ := (isDigit_iff c₂).mp (hall c₂ (by simp))
    have hsum : ((0 * 10 + (c₀.toNat - 48)) * 10 + (c₁.toNat - 48)) * 10 + (c₂.toNat - 48) = 3 :=
      hvalue
    left
    rw [Char.toNat_inj.mp (show c₀.toNat = '0'.toNat by show _ = 48; omega),
      Char.toNat_inj.mp (show c₁.toNat = '0'.toNat by show _ = 48; omega),
      Char.toNat_inj.mp (show c₂.toNat = '3'.toNat by show _ = 51; omega)]
  · have hplus : Char.utf8Size '+' = 1 := by decide
    rw [size_cons, hplus] at hsize
    obtain ⟨c₁, c₂, rfl⟩ := List.length_eq_two.mp (show digits.length = 2 by omega)
    have h₁ := (isDigit_iff c₁).mp (hall c₁ (by simp))
    have h₂ := (isDigit_iff c₂).mp (hall c₂ (by simp))
    have hsum : (0 * 10 + (c₁.toNat - 48)) * 10 + (c₂.toNat - 48) = 3 := hvalue
    right
    rw [Char.toNat_inj.mp (show c₁.toNat = '0'.toNat by show _ = 48; omega),
      Char.toNat_inj.mp (show c₂.toNat = '3'.toNat by show _ = 51; omega)]

/-! ### From the text back to the bytes -/

/-- The bytes of an ASCII beginning are its characters. -/
theorem bytes_of_ascii {before tail : List Char} (hascii : ∀ c ∈ before, c.toNat < 128) :
    ∀ {bytes : Bytes}, fromUtf8Lossy bytes = before ++ tail →
      ∃ rest, bytes = before.map (fun c => UInt8.ofNat c.toNat) ++ rest ∧
        fromUtf8Lossy rest = tail := by
  induction before with
  | nil => exact fun h => ⟨_, rfl, h⟩
  | cons c before ih =>
    intro bytes h
    cases bytes with
    | nil => cases h
    | cons b bytes =>
      obtain ⟨hb, hrest⟩ := (fromUtf8Lossy_cons_iff (hascii c List.mem_cons_self)).mp h
      obtain ⟨rest, rfl, htail⟩ := ih (fun d hd => hascii d (List.mem_cons_of_mem c hd)) hrest
      refine ⟨rest, ?_, htail⟩
      rw [List.map_cons, ← hb, UInt8.ofNat_toNat]
      rfl

/-- One byte behind which the text ends in a newline. -/
theorem eq_newline {before : List Char} {rest : Bytes} (hlen : rest.length = 1)
    (h : (before ++ fromUtf8Lossy rest).getLast? = some '\n') : rest = [10] := by
  obtain ⟨b, rfl⟩ := List.length_eq_one_iff.mp hlen
  have htext : fromUtf8Lossy [b] = ['\n'] := by
    have hone : fromUtf8Lossy [b] = [(lossyChar b []).1] := rfl
    rw [hone, List.getLast?_concat] at h
    rw [hone, Option.some.inj h]
  have hb := ((fromUtf8Lossy_cons_iff (by decide)).mp htext).1
  rw [UInt8.toNat_inj.mp (show b.toNat = (10 : UInt8).toNat from hb)]

theorem parseNumbers_ok {version first second version' : List Char} {minor : Nat}
    (h : parseNumbers version first second = .ok (version', minor)) :
    parseU32 first = some 3 ∧ parseU32 second = some minor := by
  unfold parseNumbers at h
  split at h
  · next major minor' hmajor hminor =>
    split_ifs at h with hthree
    cases h
    rw [not_not] at hthree
    exact ⟨hthree ▸ hmajor, hminor⟩
  · cases h

theorem digitByte_of_isDigit {c : Char} (h : isDigit c = true) : DigitByte (UInt8.ofNat c.toNat) := by
  rw [isDigit_iff] at h
  unfold DigitByte
  rw [UInt8.toNat_ofNat', Nat.mod_eq_of_lt (by omega)]
  exact h

theorem ascii_of_isDigit {c : Char} (h : isDigit c = true) : c.toNat < 128 := by
  rw [isDigit_iff] at h
  omega

theorem lenient_of_ok {bytes : Bytes} (hbytes : bytes.length = 12) {version : List Char} {minor : Nat}
    (h : parseBanner bytes = .ok (version, minor)) : Lenient bytes := by
  by_cases hbanner : "RFB ".toList <+: fromUtf8Lossy bytes ∧
      (fromUtf8Lossy bytes).getLast? = some '\n'
  · by_cases hslice : Sliceable (fromUtf8Lossy bytes)
    · obtain ⟨⟨rest, hrest⟩, hlast⟩ := hbanner
      rw [← hrest] at hslice
      obtain ⟨first, middle, second, tail, rfl, hf, hm, hs⟩ := (sliceable_iff rest).mp hslice
      rw [parseBanner_split hrest.symm hlast hf hm hs] at h
      obtain ⟨hmajor, hminor⟩ := parseNumbers_ok h
      -- the second number is three characters, a sign or digits
      obtain ⟨s₀, s₁, s₂, rfl, h₀, h₁, h₂⟩ := parseU32_three hminor hs
      -- one byte stands between the numbers, whatever it is
      obtain ⟨c, rfl, hc⟩ : ∃ c : Char, middle = [c] ∧ c.toNat < 128 := by
        cases middle with
        | nil => cases hm
        | cons c middle =>
          have hpos := c.utf8Size_pos
          rw [size_cons] at hm
          obtain rfl : middle = [] := size_eq_zero_iff.mp (by omega)
          rw [size_nil, Nat.add_zero, Char.utf8Size_eq_one_iff, UInt32.le_iff_toNat_le] at hm
          exact ⟨c, rfl, Nat.lt_succ_of_le hm⟩
      have hascii₀ : s₀.toNat < 128 := h₀.elim (fun hp => by rw [hp]; decide) ascii_of_isDigit
      obtain ⟨f, hfirst, hfc⟩ : ∃ f : Char, first = [f, '0', '3'] ∧ (f = '0' ∨ f = '+') := by
        rcases parseU32_eq_three hmajor hf with rfl | rfl
        · exact ⟨'0', rfl, .inl rfl⟩
        · exact ⟨'+', rfl, .inr rfl⟩
      subst hfirst
      have hasciif : f.toNat < 128 := by
        rcases hfc with rfl | rfl <;> decide
      have htext : fromUtf8Lossy bytes =
          ['R', 'F', 'B', ' ', f, '0', '3', c, s₀, s₁, s₂] ++ tail := hrest.symm
      obtain ⟨rest, rfl, htail⟩ := bytes_of_ascii (by
        simp only [List.mem_cons, List.not_mem_nil, or_false]
        rintro d (rfl | rfl | rfl | rfl | rfl | rfl | rfl | rfl | rfl | rfl | rfl)
        all_goals first
          | decide
          | assumption
          | exact ascii_of_isDigit ‹_›) htext
      -- twelve bytes in all, so one is left for the newline
      have hlen : rest.length = 1 := by
        rw [List.length_append, List.length_map] at hbytes
        simp only [List.length_cons, List.length_nil] at hbytes
        omega
      have hnewline : rest = [10] := by
        rw [htext, ← htail] at hlast
        exact eq_newline hlen hlast
      subst hnewline
      refine ⟨.ofNat f.toNat, .ofNat c.toNat, .ofNat s₀.toNat, .ofNat s₁.toNat, .ofNat s₂.toNat, rfl,
        ?_, ?_, ?_, digitByte_of_isDigit h₁, digitByte_of_isDigit h₂⟩
      · rcases hfc with rfl | rfl
        · exact .inl rfl
        · exact .inr rfl
      · rw [UInt8.lt_iff_toNat_lt, UInt8.toNat_ofNat', Nat.mod_eq_of_lt (by omega)]
        exact hc
      · rcases h₀ with rfl | hdigit
        · exact .inl rfl
        · exact .inr (digitByte_of_isDigit hdigit)
    · rw [parseBanner_panics hbanner.1 hbanner.2 hslice] at h
      cases h
  · rw [parseBanner_of_not_banner hbanner] at h
    cases h

/-- A digit, as the number is read. -/
theorem isDigit_ofNat {b : UInt8} (h : DigitByte b) : isDigit (Char.ofNat b.toNat) = true := by
  obtain ⟨hlow, hhigh⟩ := h
  rw [isDigit_iff, toNat_ofNat_char (by omega)]
  exact ⟨hlow, hhigh⟩

/-- Three characters that may be read as a number. -/
theorem parseU32_isSome {c₀ c₁ c₂ : Char} (h₀ : c₀ = '+' ∨ isDigit c₀ = true)
    (h₁ : isDigit c₁ = true) (h₂ : isDigit c₂ = true) :
    ∃ n, parseU32 [c₀, c₁, c₂] = some n := by
  have hd₁ := (isDigit_iff c₁).mp h₁
  have hd₂ := (isDigit_iff c₂).mp h₂
  have hzero : '0'.toNat = 48 := rfl
  by_cases hplus : c₀ = '+'
  · subst hplus
    refine ⟨decimal [c₁, c₂], if_neg ?_⟩
    rintro (h | h | h)
    · cases h
    · simp [h₁, h₂] at h
    · simp only [List.head?_cons, if_true, List.tail_cons, decimal, List.foldl_cons,
        List.foldl_nil] at h
      omega
  · have h₀ := h₀.resolve_left hplus
    have hd₀ := (isDigit_iff c₀).mp h₀
    have hhead : ¬ [c₀, c₁, c₂].head? = some '+' := fun h => hplus (Option.some.inj h)
    refine ⟨decimal [c₀, c₁, c₂], ?_⟩
    unfold parseU32
    dsimp only
    rw [if_neg hhead, if_neg]
    rintro (h | h | h)
    · cases h
    · simp [h₀, h₁, h₂] at h
    · simp only [decimal, List.foldl_cons, List.foldl_nil] at h
      omega

/-- Everything that is read leniently is accepted. -/
theorem ok_of_lenient {bytes : Bytes} (h : Lenient bytes) :
    ∃ version minor, parseBanner bytes = .ok (version, minor) := by
  obtain ⟨f, c, s₀, s₁, s₂, rfl, hf, hc, h₀, h₁, h₂⟩ := h
  have hdigit : ∀ {b : UInt8}, DigitByte b → b < 0x80 := fun hb =>
    UInt8.lt_iff_toNat_lt.mpr (Nat.lt_trans hb.2 (by decide))
  have htext : fromUtf8Lossy [82, 70, 66, 32, f, 48, 51, c, s₀, s₁, s₂, 10] = "RFB ".toList ++
      ([Char.ofNat f.toNat, '0', '3'] ++ ([Char.ofNat c.toNat] ++ ([Char.ofNat s₀.toNat,
        Char.ofNat s₁.toNat, Char.ofNat s₂.toNat] ++ ['\n']))) := by
    rw [fromUtf8Lossy_ascii]
    · rfl
    · simp only [List.mem_cons, List.not_mem_nil, or_false]
      rintro b (rfl | rfl | rfl | rfl | rfl | rfl | rfl | rfl | rfl | rfl | rfl | rfl)
      all_goals first
        | decide
        | exact hc
        | exact hdigit ‹_›
        | (rcases hf with rfl | rfl <;> decide)
        | exact h₀.elim (fun hp => by rw [hp]; decide) hdigit
  have hsize : ∀ {b : UInt8}, b < 0x80 → (Char.ofNat b.toNat).utf8Size = 1 := by
    intro b hb
    have hlow : b.toNat < 128 := UInt8.lt_iff_toNat_lt.mp hb
    rw [Char.utf8Size_eq_one_iff, UInt32.le_iff_toNat_le]
    show (Char.ofNat b.toNat).toNat ≤ 127
    rw [toNat_ofNat_char (by omega)]
    omega
  have hsign : s₀ < 0x80 := h₀.elim (fun hp => by rw [hp]; decide) hdigit
  have hfirst : parseU32 [Char.ofNat f.toNat, '0', '3'] = some 3 := by
    rcases hf with rfl | rfl <;> decide
  obtain ⟨minor, hsecond⟩ := parseU32_isSome
    (h₀.imp (fun hp => show Char.ofNat s₀.toNat = '+' by rw [hp]; rfl) isDigit_ofNat)
    (isDigit_ofNat h₁) (isDigit_ofNat h₂)
  have hf' : f < 0x80 := by rcases hf with rfl | rfl <;> decide
  have hparse := parseBanner_split htext (by rw [htext]; rfl)
    (by simp only [size_cons, size_nil, hsize hf']; rfl) (by simp only [size_cons, size_nil, hsize hc])
    (by simp only [size_cons, size_nil, hsize hsign, hsize (hdigit h₁), hsize (hdigit h₂)])
  refine ⟨[Char.ofNat f.toNat, '0', '3'] ++ ([Char.ofNat c.toNat] ++ [Char.ofNat s₀.toNat,
    Char.ofNat s₁.toNat, Char.ofNat s₂.toNat]), minor, ?_⟩
  rw [hparse]
  simp only [parseNumbers, hfirst, hsecond]
  rfl

/-! ### The step -/

theorem parseBanner_ne_panicked {bytes : Bytes}
    (h : "RFB ".toList <+: fromUtf8Lossy bytes → (fromUtf8Lossy bytes).getLast? = some '\n' →
      Sliceable (fromUtf8Lossy bytes)) : parseBanner bytes ≠ .error .panicked := by
  by_cases hbanner : "RFB ".toList <+: fromUtf8Lossy bytes ∧
      (fromUtf8Lossy bytes).getLast? = some '\n'
  · have hslice := h hbanner.1 hbanner.2
    obtain ⟨⟨rest, hrest⟩, hlast⟩ := hbanner
    rw [← hrest] at hslice
    obtain ⟨first, middle, second, tail, rfl, hf, hm, hs⟩ := (sliceable_iff rest).mp hslice
    rw [parseBanner_split hrest.symm hlast hf hm hs]
    unfold parseNumbers
    split
    · split_ifs
      · exact fun h => nomatch h
      · exact fun h => nomatch h
    · exact fun h => nomatch h
  · rw [parseBanner_of_not_banner hbanner]
    exact fun h => nomatch h

section Run

variable (password : Option Bytes) {bytes : Bytes}

theorem versionRun_eq (hbytes : bytes.length = 12) :
    versionRun password bytes = Prog.drive (match parseBanner bytes with
      | .error fault => .fail fault
      | .ok (version, minor) => do
        writeAll (versionAnswer minor)
        let security ← negotiateSecurity minor password
        return (version, minor, security)) [] := by
  have h := @drive_readExact _ "version banner" (fun bytes =>
    match parseBanner bytes with
      | .error fault => .fail fault
      | .ok (version, minor) => do
        writeAll (versionAnswer minor)
        let security ← negotiateSecurity minor password
        return (version, minor, security)) _ bytes hbytes.symm []
  rw [List.append_nil] at h
  exact h

theorem versionRun_error (hbytes : bytes.length = 12) {fault : VncFault}
    (h : parseBanner bytes = .error fault) : versionRun password bytes = ⟨.fail fault, [], []⟩ := by
  rw [versionRun_eq password hbytes, h]
  rfl

/-- After the answer the step waits for the next byte of the server. -/
theorem versionRun_ok (hbytes : bytes.length = 12) {version : List Char} {minor : Nat}
    (h : parseBanner bytes = .ok (version, minor)) :
    ∃ k, versionRun password bytes = ⟨.read k, [], versionAnswer minor⟩ := by
  rw [versionRun_eq password hbytes, h]
  simp only [writeAll, Prog.writeAll_bind, Prog.done_bind, Prog.drive_writeAll]
  unfold negotiateSecurity
  split_ifs
  · rw [Prog.bind_assoc]
    obtain ⟨k, hk⟩ := @drive_readExact_short _ "security type"
      (fun code => decidedSecurity password (Words.ofBe code) >>= fun security =>
        pure (version, minor, security)) 4 [] (by decide)
    refine ⟨k, (congrArg (fun stop => stop.after (versionAnswer minor)) hk).trans ?_⟩
    rw [Prog.Stop.after_mk, List.append_nil]
  · rw [Prog.bind_assoc]
    obtain ⟨k, hk⟩ := @drive_readExact_short _ "security count"
      (fun count => securityList password (Words.ofBe count) >>= fun security =>
        pure (version, minor, security)) 1 [] (by decide)
    refine ⟨k, (congrArg (fun stop => stop.after (versionAnswer minor)) hk).trans ?_⟩
    rw [Prog.Stop.after_mk, List.append_nil]

end Run

theorem versionAnswer_eq (minor : Nat) : ∃ v ∈ spoken, versionAnswer minor = banner (minorDigits v) ∧
    (v ≤ minor ∨ v = 3) ∧ ∀ v' ∈ spoken, v' ≤ minor → v' ≤ v := by
  have hspoken : ∀ {v' : Nat}, v' ∈ spoken → v' = 3 ∨ v' = 7 ∨ v' = 8 := by simp [spoken]
  unfold versionAnswer
  split_ifs with h8 h7
  · refine ⟨8, by decide, rfl, .inl h8, fun v' hv' _ => ?_⟩
    rcases hspoken hv' with rfl | rfl | rfl <;> decide
  · refine ⟨7, by decide, rfl, .inl h7.ge, fun v' hv' hle => ?_⟩
    rcases hspoken hv' with rfl | rfl | rfl <;> omega
  · refine ⟨3, by decide, rfl, .inr rfl, fun v' hv' hle => ?_⟩
    rcases hspoken hv' with rfl | rfl | rfl <;> omega

/-- **The version step is as it should be exactly on these bytes.** -/
theorem negotiate_version_iff (password : Option Bytes) (bytes : FixedBytes 12) :
    VersionStep password bytes.1 ↔ VersionStepFits bytes.1 := by
  have hlen := bytes.2
  constructor
  · intro hstep hstarts hlast
    refine ⟨?_, fun hlenient => ?_⟩
    · by_contra hslice
      refine hstep.no_panic ?_
      rw [versionRun_error password hlen (parseBanner_panics hstarts hlast hslice)]
    · by_contra hnone
      obtain ⟨e, hrefused⟩ := hstep.refuses hnone
      obtain ⟨version, minor, hok⟩ := ok_of_lenient hlenient
      obtain ⟨k, hrun⟩ := versionRun_ok password hlen hok
      rw [hrun] at hrefused
      cases hrefused
  · intro hfits
    have hpanic : parseBanner bytes.1 ≠ .error .panicked :=
      parseBanner_ne_panicked fun hstarts hlast => (hfits hstarts hlast).1
    rcases hparse : parseBanner bytes.1 with (e | -) | ⟨version, minor⟩
    · have hrun := versionRun_error password hlen hparse
      refine ⟨by rw [hrun]; exact fun h => (nomatch h), fun minor hminor => ?_, fun _ => ⟨e, hrun⟩⟩
      -- what announces a version is read
      obtain ⟨hlt, hbytes⟩ := hminor
      obtain ⟨version, hok⟩ := parseBanner_banner hlt
      rw [← hbytes, hparse] at hok
      cases hok
    · exact absurd hparse hpanic
    · obtain ⟨k, hrun⟩ := versionRun_ok password hlen hparse
      have hlenient := lenient_of_ok hlen hparse
      obtain ⟨hstarts, hlast⟩ : "RFB ".toList <+: fromUtf8Lossy bytes.1 ∧
          (fromUtf8Lossy bytes.1).getLast? = some '\n' := by
        by_contra hbanner
        rw [parseBanner_of_not_banner hbanner] at hparse
        cases hparse
      have hannounces := (hfits hstarts hlast).2 hlenient
      refine ⟨by rw [hrun]; exact fun h => (nomatch h), fun minor' hminor' => ?_,
        fun hnone => absurd hannounces hnone⟩
      obtain ⟨hlt, hbytes⟩ := hminor'
      obtain ⟨version', hok⟩ := parseBanner_banner hlt
      rw [← hbytes, hparse] at hok
      cases hok
      rw [hrun]
      exact versionAnswer_eq minor

/-- A character across the end of the major version. -/
theorem version_step_panics : ¬ ∀ (password : Option Bytes) (bytes : FixedBytes 12),
    VersionStep password bytes.1 := by
  intro h
  have hstep := h none ⟨[82, 70, 66, 32, 48, 48, 0xc3, 0xa9, 48, 48, 56, 10], rfl⟩
  have hparse : parseBanner [82, 70, 66, 32, 48, 48, 0xc3, 0xa9, 48, 48, 56, 10] =
      .error .panicked := by decide
  refine hstep.no_panic ?_
  rw [versionRun_error none rfl hparse]

end Vnc

end RdEngine
