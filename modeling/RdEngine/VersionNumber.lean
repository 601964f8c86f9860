/-
RdEngine/VersionNumber.lean

The number of a version text (`get_version_number` of `hbb_common`), by which the host
decides whether a peer is told why it waits.

The parts in front of the dash are digits to the base of 1000, except that the last is
counted tenfold to leave room for the patch number behind the dash.  Any text may
come from a peer: the sums of a long one overflow (`number_fits_iff`), and a last part
of three digits runs into the part before it, so that `1.1.100` counts as `1.2.0`
(`version_numbers`).
-/
import RdEngine.HostSession
import RdEngine.Lib.Checked

namespace RdEngine

namespace VersionNumber

open Checked Text

/-! ### With its sums checked -/

/-- `parse::<i64>().unwrap_or(0)`. -/
def parsed (part : List Char) : Int := ((parseI64 part).getD 0).toInt

/-- The numbers in front of the dash. -/
def numbers (first : List Char) : List Int := (first.splitOn '.').map parsed

/-- The number behind the dash, where there is one. -/
def patchOf : List (List Char) → Int
  | [] => 0
  | patch :: _ => parsed patch

/-- `get_version_number`, none where an operation of it overflows. -/
def getVersionNumberChecked (version : List Char) : Option Int :=
  match version.splitOn '-' with
  | [] => some 0
  | first :: others => do
    let last := (numbers first).getLast?.getD 0
    let n ← horner 64 1000 0 (numbers first)
    let n ← signed 64 (n - last)
    let tenfold ← signed 64 (last * 10)
    let n ← signed 64 (n + tenfold)
    match others with
    | [] => some n
    | patch :: _ => signed 64 (n + parsed patch)

/-- What the text counts, in numbers without bounds. -/
def counted (version : List Char) : Int :=
  match version.splitOn '-' with
  | [] => 0
  | first :: others =>
    numeral 1000 0 (numbers first) + 9 * (numbers first).getLast?.getD 0 + patchOf others

/-! ### Texts -/

theorem mem_splitOn {sep : Char} {text part : List Char} (h : part ∈ text.splitOn sep) :
    sep ∉ part ∧ part ⊆ text := by
  induction text generalizing part with
  | nil =>
    rw [List.splitOn_nil, List.mem_singleton] at h
    rw [h]
    simp
  | cons c text ih =>
    rw [List.splitOn_cons_eq_if_modifyHead] at h
    split at h
    · rw [List.mem_cons] at h
      rcases h with rfl | h
      · simp
      · exact ⟨(ih h).1, fun x hx => List.mem_cons_of_mem _ ((ih h).2 hx)⟩
    · next hc =>
      -- the first part grows by the character
      rcases hparts : text.splitOn sep with - | ⟨head, parts⟩
      · rw [hparts] at h
        cases h
      · rw [hparts, List.modifyHead_cons, List.mem_cons] at h
        rcases h with rfl | h
        · have hhead := @ih head (by rw [hparts]; exact List.mem_cons_self)
          refine ⟨?_, List.cons_subset_cons c hhead.2⟩
          rw [List.mem_cons, not_or]
          exact ⟨fun heq => hc (by simp [heq]), hhead.1⟩
        · have hpart := @ih part (by rw [hparts]; exact List.mem_cons_of_mem _ h)
          exact ⟨hpart.1, fun x hx => List.mem_cons_of_mem _ (hpart.2 hx)⟩

/-- `parse::<i64>` of a part without a sign. -/
def unsigned (digits : List Char) : Option Int64 :=
  if digits = [] ∨ !digits.all isDigit then none
  else if decimal digits < 2 ^ 63 then some (Int64.ofInt (decimal digits)) else none

theorem parseI64_of_head {part : List Char} (h : part.head? ≠ some '-') :
    parseI64 part = unsigned (if part.head? = some '+' then part.tail else part) := by
  simp [parseI64, unsigned, h]

theorem parsed_nonneg {part : List Char} (h : '-' ∉ part) : 0 ≤ parsed part := by
  have hhead : part.head? ≠ some '-' := fun heq => h (List.mem_of_mem_head? heq)
  unfold parsed
  rw [parseI64_of_head hhead]
  generalize (if part.head? = some '+' then part.tail else part) = digits
  unfold unsigned
  split
  · decide
  · split
    · next hlt =>
      rw [Option.getD_some, Int64.toInt_ofInt_of_le (by omega) (by omega)]
      exact Int.natCast_nonneg _
    · decide

theorem numbers_nonneg {first : List Char} (h : '-' ∉ first) : ∀ n ∈ numbers first, 0 ≤ n := by
  intro n hn
  obtain ⟨part, hpart, rfl⟩ := List.mem_map.mp hn
  exact parsed_nonneg fun hmem => h ((mem_splitOn hpart).2 hmem)

theorem patchOf_nonneg {parts : List (List Char)} (h : ∀ part ∈ parts, '-' ∉ part) :
    0 ≤ patchOf parts := by
  cases parts with
  | nil => exact le_rfl
  | cons patch others => exact parsed_nonneg (h patch List.mem_cons_self)

/-- The last digit is part of the number. -/
theorem last_le_numeral {digits : List Int} (h : ∀ d ∈ digits, 0 ≤ d) :
    0 ≤ digits.getLast?.getD 0 ∧ digits.getLast?.getD 0 ≤ numeral 1000 0 digits := by
  rcases List.eq_nil_or_concat digits with rfl | ⟨init, last, rfl⟩
  · simp
  · rw [List.concat_eq_append] at h ⊢
    have hlast : 0 ≤ last := h last (by simp)
    have hinit : 0 ≤ numeral 1000 0 init :=
      le_numeral (by decide) le_rfl fun d hd => h d (List.mem_append_left _ hd)
    have hnumeral : numeral 1000 0 (init ++ [last]) = numeral 1000 0 init * 1000 + last := by
      simp [numeral]
    rw [List.getLast?_concat, Option.getD_some, hnumeral]
    omega

/-! ### Overflow -/

/-- The parts of a text, none of which has a sign. -/
theorem splitOn_dash (version : List Char) :
    ∃ first others, version.splitOn '-' = first :: others ∧ (∀ n ∈ numbers first, 0 ≤ n) ∧
      0 ≤ patchOf others := by
  rcases hparts : version.splitOn '-' with - | ⟨first, others⟩
  · exact absurd hparts (List.splitOn_ne_nil _ _)
  · have hdash : ∀ part ∈ first :: others, '-' ∉ part := by
      intro part hpart
      rw [← hparts] at hpart
      exact (mem_splitOn hpart).1
    rw [List.forall_mem_cons] at hdash
    exact ⟨first, others, rfl, numbers_nonneg hdash.1, patchOf_nonneg hdash.2⟩

/-- All the checks are one check of what the text counts. -/
theorem getVersionNumberChecked_eq (version : List Char) :
    getVersionNumberChecked version = signed 64 (counted version) := by
  obtain ⟨first, others, hparts, hnumbers, hpatch⟩ := splitOn_dash version
  obtain ⟨hlast, hle⟩ := last_le_numeral hnumbers
  have hzero : Fits 64 0 := by decide
  have hhorner := horner_eq (w := 64) (show (1 : Int) ≤ 1000 by decide) le_rfl hzero hnumbers
  unfold getVersionNumberChecked counted
  rw [hparts]
  dsimp only
  rw [hhorner]
  set n := numeral 1000 0 (numbers first)
  set last := (numbers first).getLast?.getD 0
  -- the sums only grow, so the first that does not fit is followed by none that does
  by_cases hsum : Fits 64 (n + 9 * last)
  · have hn : Fits 64 n := hsum.mono (by omega) (by omega)
    have hrest : Fits 64 (n - last) := hsum.mono (by omega) (by omega)
    have hten : Fits 64 (last * 10) := hsum.mono (by omega) (by omega)
    have hadd : n - last + last * 10 = n + 9 * last := by omega
    rw [signed_of_fits hn]
    show (signed 64 (n - last)).bind _ = _
    rw [signed_of_fits hrest]
    show (signed 64 (last * 10)).bind _ = _
    rw [signed_of_fits hten]
    show (signed 64 (n - last + last * 10)).bind _ = _
    rw [hadd, signed_of_fits hsum]
    cases others with
    | nil =>
      show some (n + 9 * last) = signed 64 (n + 9 * last + 0)
      rw [add_zero, signed_of_fits hsum]
    | cons patch others => rfl
  · have hend : ¬ Fits 64 (n + 9 * last + patchOf others) :=
      fun h => hsum (h.mono (by omega) (by omega))
    rw [signed_of_not_fits hend]
    by_cases hn : Fits 64 n
    · rw [signed_of_fits hn]
      have hrest : Fits 64 (n - last) := hn.mono (by omega) (by omega)
      show (signed 64 (n - last)).bind _ = none
      rw [signed_of_fits hrest]
      show (signed 64 (last * 10)).bind _ = none
      by_cases hten : Fits 64 (last * 10)
      · rw [signed_of_fits hten]
        have hadd : n - last + last * 10 = n + 9 * last := by omega
        show (signed 64 (n - last + last * 10)).bind _ = none
        rw [hadd, signed_of_not_fits hsum]
        rfl
      · rw [signed_of_not_fits hten]
        rfl
    · rw [signed_of_not_fits hn]
      rfl

/-- **A text overflows unless what it counts is below 2^63.** -/
theorem number_fits_iff (version : List Char) :
    (getVersionNumberChecked version).isSome = true ↔ counted version < 2 ^ 63 := by
  obtain ⟨first, others, hparts, hnumbers, hpatch⟩ := splitOn_dash version
  obtain ⟨hlast, hle⟩ := last_le_numeral hnumbers
  have hzero : 0 ≤ counted version := by
    unfold counted
    rw [hparts]
    dsimp only
    omega
  rw [getVersionNumberChecked_eq, isSome_signed]
  constructor
  · intro h
    exact h.2
  · intro h
    exact ⟨by omega, h⟩

/-! ### The number of a release build -/

theorem ofInt_parsed (part : List Char) : Int64.ofInt (parsed part) = (parseI64 part).getD 0 :=
  Int64.ofInt_toInt _

theorem ofInt_numeral (n : Int) (digits : List Int) :
    Int64.ofInt (numeral 1000 n digits) =
      (digits.map Int64.ofInt).foldl (fun n last => n * 1000 + last) (Int64.ofInt n) := by
  induction digits generalizing n with
  | nil => rfl
  | cons digit digits ih =>
    rw [numeral_cons, ih, List.map_cons, List.foldl_cons, Int64.ofInt_add, Int64.ofInt_mul]
    rfl

/-- A release build counts modulo 2^64. -/
theorem getVersionNumber_eq (version : List Char) :
    getVersionNumber version = Int64.ofInt (counted version) := by
  unfold getVersionNumber counted
  rcases hparts : version.splitOn '-' with - | ⟨first, others⟩
  · rfl
  · have hnumbers : (numbers first).map Int64.ofInt =
        (first.splitOn '.').map fun part => (parseI64 part).getD 0 := by
      unfold numbers
      rw [List.map_map]
      exact List.map_congr_left fun part _ => ofInt_parsed part
    have hlast : ((first.splitOn '.').map fun part => (parseI64 part).getD 0).getLast?.getD 0 =
        Int64.ofInt ((numbers first).getLast?.getD 0) := by
      rw [← hnumbers, List.getLast?_map]
      cases (numbers first).getLast? with
      | none => rfl
      | some last => rfl
    dsimp only
    rw [hlast, ← hnumbers]
    have hn := ofInt_numeral 0 (numbers first)
    set last := (numbers first).getLast?.getD 0
    set n := numeral 1000 0 (numbers first)
    have hsum : ((numbers first).map Int64.ofInt).foldl (fun n last => n * 1000 + last) 0 -
        Int64.ofInt last + Int64.ofInt last * 10 = Int64.ofInt (n + 9 * last) := by
      have hten : n + 9 * last = n - last + last * 10 := by omega
      rw [hten, Int64.ofInt_add, Int64.ofInt_sub, Int64.ofInt_mul, hn]
      rfl
    rw [hsum]
    cases others with
    | nil =>
      show Int64.ofInt (n + 9 * last) = Int64.ofInt (n + 9 * last + 0)
      rw [add_zero]
    | cons patch others =>
      show _ + (parseI64 patch).getD 0 = Int64.ofInt (n + 9 * last + parsed patch)
      rw [Int64.ofInt_add (n + 9 * last), ofInt_parsed]

/-- A text that does not overflow has the same number in every build. -/
theorem toInt_getVersionNumber {version : List Char} (h : Fits 64 (counted version)) :
    (getVersionNumber version).toInt = counted version := by
  obtain ⟨hlow, hhigh⟩ := h
  rw [getVersionNumber_eq]
  exact Int64.toInt_ofInt_of_le hlow hhigh

/-! ### Versions of three numbers -/

/-- Three numbers, and the patch number where there is one. -/
structure Version where
  major : Nat
  minor : Nat
  micro : Nat
  patch : Option Nat := none
  deriving DecidableEq, Repr

namespace Version

/-- Three digits for each number, and one for the patch. -/
structure Small (v : Version) : Prop where
  major : v.major < 1000
  minor : v.minor < 1000
  micro : v.micro < 1000
  patch : v.patch.getD 0 < 10

/-- The order of versions, number by number; no patch is the patch 0. -/
def Before (v w : Version) : Prop :=
  v.major < w.major ∨ v.major = w.major ∧
    (v.minor < w.minor ∨ v.minor = w.minor ∧
      (v.micro < w.micro ∨ v.micro = w.micro ∧ v.patch.getD 0 < w.patch.getD 0))

instance (v w : Version) : Decidable (v.Before w) :=
  inferInstanceAs (Decidable (_ ∨ _ ∧ (_ ∨ _ ∧ (_ ∨ _ ∧ _))))

/-- The first two numbers. -/
def branch (v : Version) : Nat := v.major * 1000 + v.minor

/-- The last number, tenfold, and the patch. -/
def rest (v : Version) : Nat := v.micro * 10 + v.patch.getD 0

/-- The last number of the version on the lower branch does not reach up to the other:
between two branches there is room for a thousand. -/
def Apart (v w : Version) : Prop :=
  (v.branch < w.branch → v.rest < w.rest + 1000 * (w.branch - v.branch)) ∧
    (w.branch < v.branch → w.rest < v.rest + 1000 * (v.branch - w.branch))

instance (v w : Version) : Decidable (v.Apart w) := inferInstanceAs (Decidable (_ ∧ _))

end Version

/-- Decimal digits of a number. -/
def Digits (text : List Char) (n : Nat) : Prop :=
  text ≠ [] ∧ text.all isDigit = true ∧ decimal text = n

instance (text : List Char) (n : Nat) : Decidable (Digits text n) :=
  inferInstanceAs (Decidable (_ ∧ _))

/-- The text is `major.minor.micro`, with `-patch` where there is one. -/
def Spells (text : List Char) (v : Version) : Prop :=
  ∃ a b c, Digits a v.major ∧ Digits b v.minor ∧ Digits c v.micro ∧
    match v.patch with
    | none => text = a ++ '.' :: (b ++ '.' :: c)
    | some patch => ∃ d, Digits d patch ∧ text = a ++ '.' :: (b ++ '.' :: c) ++ '-' :: d

/-- The texts are ordered by their numbers as the versions are. -/
def OrderedAs (text text' : List Char) (v w : Version) : Prop :=
  (getVersionNumber text < getVersionNumber text' ↔ v.Before w) ∧
    (getVersionNumber text' < getVersionNumber text ↔ w.Before v)

section

variable {text text' : List Char} {v w : Version} {n : Nat}

theorem Digits.not_mem (h : Digits text n) {c : Char} (hc : isDigit c = false) : c ∉ text := by
  intro hmem
  have hdigit := List.all_eq_true.mp h.2.1 c hmem
  rw [hc] at hdigit
  cases hdigit

theorem Digits.parsed (h : Digits text n) (hn : n < 2 ^ 63) : parsed text = n := by
  have hdash : text.head? ≠ some '-' :=
    fun heq => h.not_mem (c := '-') (by decide) (List.mem_of_mem_head? heq)
  have hplus : text.head? ≠ some '+' :=
    fun heq => h.not_mem (c := '+') (by decide) (List.mem_of_mem_head? heq)
  obtain ⟨hnil, hdigits, hvalue⟩ := h
  unfold VersionNumber.parsed
  rw [parseI64_of_head hdash, if_neg hplus, unsigned, if_neg (by simp [hnil, hdigits]), hvalue,
    if_pos hn, Option.getD_some]
  exact Int64.toInt_ofInt_of_le (by omega) (by omega)

theorem numbers_dotted {a b c : List Char} (hv : v.Small) (ha : Digits a v.major)
    (hb : Digits b v.minor) (hc : Digits c v.micro) :
    numbers (a ++ '.' :: (b ++ '.' :: c)) = [(v.major : Int), v.minor, v.micro] := by
  have hmajor := hv.major
  have hminor := hv.minor
  have hmicro := hv.micro
  unfold numbers
  rw [List.splitOn_append_cons_self_of_not_mem (ha.not_mem (by decide)),
    List.splitOn_append_cons_self_of_not_mem (hb.not_mem (by decide)),
    List.splitOn_eq_singleton (hc.not_mem (by decide))]
  simp only [List.map_cons, List.map_nil]
  rw [ha.parsed (by omega), hb.parsed (by omega), hc.parsed (by omega)]

theorem counted_of_spells (hv : v.Small) (h : Spells text v) :
    counted text = (1000 * v.branch + v.rest : Nat) := by
  obtain ⟨a, b, c, ha, hb, hc, htext⟩ := h
  have hnumbers := numbers_dotted hv ha hb hc
  have hdash : '-' ∉ a ++ '.' :: (b ++ '.' :: c) := by
    simp only [List.mem_append, List.mem_cons, not_or]
    exact ⟨ha.not_mem (by decide), by decide, hb.not_mem (by decide), by decide,
      hc.not_mem (by decide)⟩
  have hpatch := hv.patch
  unfold counted Version.branch Version.rest
  cases hp : v.patch with
  | none =>
    rw [hp] at htext
    subst htext
    rw [List.splitOn_eq_singleton hdash]
    dsimp only
    rw [hnumbers]
    simp only [numeral_cons, numeral_nil, List.getLast?_cons_cons, List.getLast?_singleton,
      Option.getD_some, Option.getD_none, patchOf]
    push_cast
    omega
  | some patch =>
    rw [hp] at htext hpatch
    obtain ⟨d, hd, rfl⟩ := htext
    rw [List.splitOn_append_cons_self_of_not_mem hdash,
      List.splitOn_eq_singleton (hd.not_mem (by decide))]
    dsimp only
    rw [hnumbers]
    simp only [numeral_cons, numeral_nil, List.getLast?_cons_cons, List.getLast?_singleton,
      Option.getD_some, patchOf]
    rw [Option.getD_some] at hpatch
    rw [hd.parsed (by omega)]
    push_cast
    omega

theorem toInt_of_spells (hv : v.Small) (h : Spells text v) :
    (getVersionNumber text).toInt = (1000 * v.branch + v.rest : Nat) := by
  have hcounted := counted_of_spells hv h
  have hmajor := hv.major
  have hminor := hv.minor
  have hmicro := hv.micro
  have hpatch := hv.patch
  rw [toInt_getVersionNumber, hcounted]
  rw [hcounted]
  unfold Version.branch Version.rest
  constructor <;> omega

/-- The order of versions is that of their branches, and then of the rest. -/
theorem before_iff (hv : v.Small) (hw : w.Small) :
    v.Before w ↔ v.branch < w.branch ∨ v.branch = w.branch ∧ v.rest < w.rest := by
  have hminor := hv.minor
  have hminor' := hw.minor
  have hpatch := hv.patch
  have hpatch' := hw.patch
  unfold Version.Before Version.branch Version.rest
  omega

theorem orderedAs_iff (hv : v.Small) (hw : w.Small) (h : Spells text v) (h' : Spells text' w) :
    OrderedAs text text' v w ↔ v.Apart w := by
  unfold OrderedAs Version.Apart
  rw [Int64.lt_iff_toInt_lt, Int64.lt_iff_toInt_lt, toInt_of_spells hv h, toInt_of_spells hw h',
    before_iff hv hw, before_iff hw hv]
  omega

/-! ### The host -/

/-- The version from which on a peer is told why it waits. -/
def explained : Version := ⟨1, 2, 0, none⟩

theorem explained_small : explained.Small := ⟨by decide, by decide, by decide, by decide⟩

theorem spells_explained : Spells "1.2.0".toList explained :=
  ⟨['1'], ['2'], ['0'], by decide, by decide, by decide, rfl⟩

theorem explainsApproval_iff {auth : HostAuthentication} {request : LoginRequest}
    (hrequest : auth.request = some request) :
    HostSession.explainsApproval auth = true ↔
      ¬ getVersionNumber request.version.toList < getVersionNumber "1.2.0".toList := by
  unfold HostSession.explainsApproval
  rw [hrequest, Option.any_some, decide_eq_true_eq]
  exact Int64.not_lt.symm

end

/-- **The numbers of versions.**  No sum overflows exactly when what the text counts is
below 2^63; two versions are ordered by their numbers exactly when they lie apart; and
a waiting peer is told why exactly from 1.2.0 on, where its version lies apart from that. -/
theorem version_numbers (text text' : List Char) (v w : Version) (auth : HostAuthentication)
    (request : LoginRequest) :
    ((getVersionNumberChecked text).isSome = true ↔ counted text < 2 ^ 63) ∧
    (v.Small → w.Small → Spells text v → Spells text' w →
      (OrderedAs text text' v w ↔ v.Apart w)) ∧
    (auth.request = some request → v.Small → Spells request.version.toList v →
      ((HostSession.explainsApproval auth = true ↔ ¬ v.Before explained) ↔
        v.Apart explained)) := by
  refine ⟨number_fits_iff text, fun hv hw h h' => orderedAs_iff hv hw h h', ?_⟩
  intro hrequest hv h
  have hminor := hv.minor
  have hpatch := hv.patch
  rw [explainsApproval_iff hrequest, not_iff_not, Int64.lt_iff_toInt_lt, toInt_of_spells hv h,
    toInt_of_spells explained_small spells_explained, before_iff hv explained_small]
  unfold Version.Apart
  have hrest : explained.rest = 0 := rfl
  omega

/-- The last version whose number lies below that of 1.2.0. -/
def lastBefore : Version := ⟨1, 1, 99, none⟩

/-- A host that is asked by a peer of that version. -/
def askedBefore : HostAuthentication where
  config := {
    acceptedTargets := ["desk"]
    salt := ""
    passwords := { values := [] }
    policy := .clickOnly
    ceiling := {}
    passwordPermissions := {}
    peerInfo := {} }
  hash := {}
  state := .awaitApproval
  request := some { version := "1.1.99" }
  grant := {}

theorem version_numbers_before :
    (getVersionNumberChecked "1.1.99".toList).isSome = true ∧
    OrderedAs "1.1.99".toList "1.2.0".toList lastBefore explained ∧
    HostSession.explainsApproval askedBefore = false := by
  have hsmall : lastBefore.Small := ⟨by decide, by decide, by decide, by decide⟩
  have hspells : Spells "1.1.99".toList lastBefore :=
    ⟨['1'], ['1'], ['9', '9'], by decide, by decide, by decide, rfl⟩
  have hapart : lastBefore.Apart explained := by decide
  obtain ⟨hfits, horder, hexplains⟩ := version_numbers "1.1.99".toList "1.2.0".toList lastBefore
    explained askedBefore { version := "1.1.99" }
  refine ⟨hfits.mpr (by decide),
    (horder hsmall explained_small hspells spells_explained).mpr hapart, ?_⟩
  have hbefore : lastBefore.Before explained := by decide
  rw [← Bool.not_eq_true, (hexplains rfl hsmall hspells).mpr hapart, not_not]
  exact hbefore

/-- A number of 19 digits overflows, and `1.1.100` counts as `1.2.0`. -/
theorem version_number_runs_over :
    getVersionNumberChecked "9223372036854775807".toList = none ∧
      getVersionNumber "1.1.100".toList = getVersionNumber "1.2.0".toList ∧
      (⟨1, 1, 100, none⟩ : Version).Before ⟨1, 2, 0, none⟩ := by decide

end VersionNumber

end RdEngine
