/-
RdEngine/AddressReaders.lean

How internet addresses are read (`Net.lean`).

Every reader stops at a character that no address goes on with (`_stopsAt`), and
reads characters of its own kind (`_reads`).  So the parts of a socket address can
be told apart at the brackets and colons between them: `readSocketAddr_iff` says
which texts are socket addresses, in terms of those that are IP addresses.
-/
import RdEngine.Lib.Readers
import RdEngine.Net
import RdEngine.Text
import Mathlib.Data.List.TakeWhile

namespace RdEngine

namespace AddrParser

open Readers (StopsAt Reads)

/-! ### Digits -/

/-- The text does not go on with a digit. -/
def NoDigit (radix : Nat) (text : List Char) : Prop :=
  ∀ c tail, text = c :: tail → toDigit radix c = none

theorem noDigit_nil (radix : Nat) : NoDigit radix [] := nofun

theorem noDigit_cons {radix : Nat} {c : Char} {text : List Char} (h : toDigit radix c = none) :
    NoDigit radix (c :: text) := by
  rintro d tail hsplit
  obtain ⟨rfl, -⟩ := List.cons.inj hsplit
  exact h

theorem toDigit_ten_of_sixteen {c : Char} (h : toDigit 16 c = none) : toDigit 10 c = none := by
  unfold toDigit at h ⊢
  dsimp only at h ⊢
  rw [Option.filter_eq_none_iff] at h ⊢
  intro digit hdigit
  have hlarge := h digit hdigit
  rw [decide_eq_true_iff] at hlarge ⊢
  omega

theorem NoDigit.ten {text : List Char} (h : NoDigit 16 text) : NoDigit 10 text :=
  fun c tail hsplit => toDigit_ten_of_sixteen (h c tail hsplit)

/-- The number some digits are. -/
def value (radix : Nat) (digits : List Char) : Nat :=
  digits.foldl (fun value c => value * radix + (toDigit radix c).getD 0) 0

theorem value_snoc (radix : Nat) (digits : List Char) (c : Char) :
    value radix (digits ++ [c]) = value radix digits * radix + (toDigit radix c).getD 0 := by
  unfold value
  rw [List.foldl_append]
  rfl

theorem takeWhile_digits {radix : Nat} {digits rest : List Char}
    (hdigits : ∀ c ∈ digits, (toDigit radix c).isSome = true) (hrest : NoDigit radix rest) :
    (digits ++ rest).takeWhile (fun c => (toDigit radix c).isSome) = digits := by
  rw [List.takeWhile_append_of_pos hdigits]
  cases rest with
  | nil => exact List.append_nil digits
  | cons c tail =>
    rw [List.takeWhile_cons_of_neg, List.append_nil]
    rw [hrest c tail rfl]
    exact Bool.false_ne_true

/-- The digits there are, when they are a number. -/
theorem readNumber_digits {radix bound : Nat} {maxDigits : Option Nat} {allowZeroPrefix : Bool}
    {digits rest : List Char} (hdigits : ∀ c ∈ digits, (toDigit radix c).isSome = true)
    (hrest : NoDigit radix rest) :
    readNumber radix bound maxDigits allowZeroPrefix (digits ++ rest)
      = if digits = [] ∨ (maxDigits.any fun m => digits.length > m) ∨
          (!allowZeroPrefix ∧ digits.head? = some '0' ∧ digits.length > 1) ∨
          bound ≤ value radix digits then none
        else some (value radix digits, rest) := by
  unfold readNumber
  dsimp only
  rw [takeWhile_digits hdigits hrest, List.drop_left]
  rfl

/-- Every text is digits, and something that does not go on with one. -/
theorem exists_digits (radix : Nat) (text : List Char) :
    ∃ digits rest, text = digits ++ rest
      ∧ (∀ c ∈ digits, (toDigit radix c).isSome = true) ∧ NoDigit radix rest := by
  refine ⟨text.takeWhile fun c => (toDigit radix c).isSome,
    text.dropWhile fun c => (toDigit radix c).isSome, List.takeWhile_append_dropWhile.symm,
    fun c hc => List.mem_takeWhile_imp (p := fun c => (toDigit radix c).isSome) hc,
    fun c tail hrest => ?_⟩
  have hhead := List.head?_dropWhile_not (fun c => (toDigit radix c).isSome) text
  rw [hrest] at hhead
  exact Option.not_isSome_iff_eq_none.mp (Bool.eq_false_iff.mp hhead)

/-! ### What follows an address -/

/-- A character that no address goes on with. -/
def Stops (c : Char) : Prop := toDigit 16 c = none ∧ c ≠ ':' ∧ c ≠ '.'

instance (c : Char) : Decidable (Stops c) := inferInstanceAs (Decidable (_ ∧ _))

theorem readNumber_stopsAt {c : Char} {radix : Nat} (hc : toDigit radix c = none) (bound : Nat)
    (maxDigits : Option Nat) (allowZeroPrefix : Bool) :
    StopsAt c (readNumber radix bound maxDigits allowZeroPrefix) := by
  intro text rest
  obtain ⟨digits, left, rfl, hdigits, hleft⟩ := exists_digits radix text
  have hleft' : NoDigit radix (left ++ c :: rest) := by
    cases left with
    | nil => exact noDigit_cons hc
    | cons d left => exact noDigit_cons (hleft d left rfl)
  rw [List.append_assoc, readNumber_digits hdigits hleft', readNumber_digits hdigits hleft]
  split <;> rfl

theorem readNumber_reads (radix bound : Nat) (maxDigits : Option Nat) (allowZeroPrefix : Bool) :
    Reads (fun c => (toDigit radix c).isSome = true)
      (readNumber radix bound maxDigits allowZeroPrefix) := by
  intro text value rest h
  obtain ⟨digits, left, rfl, hdigits, hleft⟩ := exists_digits radix text
  rw [readNumber_digits hdigits hleft] at h
  split at h
  · cases h
  · cases h
    exact ⟨digits, rfl, hdigits⟩

theorem readGivenChar_append {c d : Char} {text : List Char} (h : c ≠ d ∨ text ≠ [])
    (rest : List Char) :
    readGivenChar d (text ++ c :: rest)
      = (readGivenChar d text).map fun p => (p.1, p.2 ++ c :: rest) := by
  cases text with
  | nil => exact if_neg (h.resolve_right fun hne => hne rfl)
  | cons b text =>
    show (if b = d then some ((), text ++ c :: rest) else none) = Option.map _ (ite _ _ _)
    split <;> rfl

theorem readGivenChar_stopsAt {c d : Char} (h : c ≠ d) : StopsAt c (readGivenChar d) :=
  fun _ rest => readGivenChar_append (.inl h) rest

theorem readGivenChar_reads (d : Char) : Reads (· = d) (readGivenChar d) := by
  intro text value rest h
  cases text with
  | nil => cases h
  | cons b text =>
    rw [readGivenChar] at h
    split at h
    · next hb =>
      cases h
      exact ⟨[b], rfl, fun c hc => (List.mem_singleton.mp hc).trans hb⟩
    · cases h

theorem readGivenChar_iff {c : Char} {text rest : List Char} {u : Unit} :
    readGivenChar c text = some (u, rest) ↔ text = c :: rest := by
  cases text with
  | nil => simp [readGivenChar]
  | cons b text =>
    rw [readGivenChar]
    split
    · next hb => simp [hb]
    · next hb => simp [hb]

theorem readSeparator_append {α : Type} {c sep : Char} {index : Nat} {inner : Reader α}
    {text : List Char} (hinner : StopsAt c inner) (h : c ≠ sep ∨ index = 0 ∨ text ≠ [])
    (rest : List Char) :
    readSeparator sep index inner (text ++ c :: rest)
      = (readSeparator sep index inner text).map fun p => (p.1, p.2 ++ c :: rest) := by
  unfold readSeparator
  split
  · exact hinner text rest
  · next hindex =>
    have hgiven : c ≠ sep ∨ text ≠ [] := h.imp_right fun h => h.resolve_left hindex
    rw [readGivenChar_append hgiven rest, Option.map_bind]
    rcases readGivenChar sep text with - | ⟨value, left⟩
    · rfl
    · exact hinner left rest

theorem readSeparator_stopsAt {α : Type} {c sep : Char} {inner : Reader α}
    (hinner : StopsAt c inner) (h : c ≠ sep) (index : Nat) :
    StopsAt c (readSeparator sep index inner) :=
  fun _ rest => readSeparator_append hinner (.inl h) rest

theorem readSeparator_reads {α : Type} {kind : Char → Prop} {sep : Char} {inner : Reader α}
    (hinner : Reads kind inner) (hsep : kind sep) (index : Nat) :
    Reads kind (readSeparator sep index inner) := by
  unfold readSeparator
  by_cases hindex : index = 0
  · simp only [if_pos hindex]
    exact hinner
  · simp only [if_neg hindex]
    exact ((readGivenChar_reads sep).mono fun c hc => hc ▸ hsep).bind fun _ => hinner

/-- A digit, or the dot between numbers. -/
def Dotted (c : Char) : Prop := c = '.' ∨ (toDigit 10 c).isSome = true

theorem readIpv4Addr_stopsAt {c : Char} (hdigit : toDigit 10 c = none) (hdot : c ≠ '.') :
    StopsAt c readIpv4Addr := by
  have hgroup : ∀ index,
      StopsAt c (readSeparator '.' index (readNumber 10 (2 ^ 8) (some 3) false)) :=
    readSeparator_stopsAt (readNumber_stopsAt hdigit _ _ _) hdot
  exact (hgroup 0).bind fun a => (hgroup 1).bind fun b => (hgroup 2).bind fun c =>
    (hgroup 3).bind fun d => .pure (Ipv4Addr.mk #v[.ofNat a, .ofNat b, .ofNat c, .ofNat d])

theorem readIpv4Addr_reads : Reads Dotted readIpv4Addr := by
  have hgroup : ∀ index,
      Reads Dotted (readSeparator '.' index (readNumber 10 (2 ^ 8) (some 3) false)) :=
    readSeparator_reads ((readNumber_reads _ _ _ _).mono fun _ => .inr) (.inl rfl)
  exact (hgroup 0).bind fun a => (hgroup 1).bind fun b => (hgroup 2).bind fun c =>
    (hgroup 3).bind fun d => .pure (Ipv4Addr.mk #v[.ofNat a, .ofNat b, .ofNat c, .ofNat d])

theorem readNumber_noDigit {radix : Nat} {text : List Char} (h : NoDigit radix text) (bound : Nat)
    (maxDigits : Option Nat) (allowZeroPrefix : Bool) :
    readNumber radix bound maxDigits allowZeroPrefix text = none := by
  have hread := @readNumber_digits radix bound maxDigits allowZeroPrefix [] text nofun h
  exact hread.trans (if_pos (.inl rfl))

theorem readSeparator_given {α : Type} {sep : Char} {index : Nat} {inner : Reader α}
    (h : index ≠ 0) (text : List Char) :
    readSeparator sep index inner (sep :: text) = inner text := by
  unfold readSeparator
  rw [if_neg h, readGivenChar, if_pos rfl]
  rfl

/-- One number of an IPv4 address: decimal, of three digits at most, and without leading zeros.
-/
def readOctet (index : Nat) : Reader Nat :=
  readSeparator '.' index (readNumber 10 (2 ^ 8) (some 3) false)

theorem readIpv4Addr_of_octets {a b c d : Nat} {text text₁ text₂ text₃ rest : List Char}
    (ha : readOctet 0 text = some (a, text₁)) (hb : readOctet 1 text₁ = some (b, text₂))
    (hc : readOctet 2 text₂ = some (c, text₃)) (hd : readOctet 3 text₃ = some (d, rest)) :
    readIpv4Addr text = some (⟨#v[.ofNat a, .ofNat b, .ofNat c, .ofNat d]⟩, rest) := by
  unfold readOctet at ha hb hc hd
  unfold readIpv4Addr
  simp only [ha, hb, hc, hd, Option.bind_eq_bind, Option.bind_some]
  rfl

theorem readIpv4Addr_of_octet {text : List Char} (h : readOctet 0 text = none) :
    readIpv4Addr text = none := by
  unfold readOctet at h
  unfold readIpv4Addr
  dsimp only
  rw [h]
  rfl

theorem readIpv4Addr_of_dot {a : Nat} {text rest : List Char}
    (ha : readOctet 0 text = some (a, rest)) (hrest : ∀ tail, rest ≠ '.' :: tail) :
    readIpv4Addr text = none := by
  have hdot : readOctet 1 rest = none := by
    cases rest with
    | nil => rfl
    | cons c tail =>
      have hc : c ≠ '.' := fun hc => hrest tail (hc ▸ rfl)
      unfold readOctet readSeparator
      rw [if_neg Nat.one_ne_zero, readGivenChar, if_neg hc]
      rfl
  unfold readOctet at ha hdot
  unfold readIpv4Addr
  simp only [ha, hdot, Option.bind_eq_bind, Option.bind_some, Option.bind_none]

theorem readIpv4Addr_noDigit {text : List Char} (h : NoDigit 10 text) :
    readIpv4Addr text = none :=
  readIpv4Addr_of_octet (readNumber_noDigit h _ _ _)

/-! #### Groups -/

/-- An IPv4 address in the place of the last two groups. -/
def readEmbedded (limit index : Nat) : Reader Ipv4Addr := fun text =>
  if 0 < limit then readSeparator ':' index readIpv4Addr text else none

/-- One group of an IPv6 address: hexadecimal, of four digits at most. -/
def readGroup (index : Nat) : Reader Nat :=
  readSeparator ':' index (readNumber 16 (2 ^ 16) (some 4) true)

theorem readGroups_embedded {limit index : Nat} {text rest : List Char} {ip : Ipv4Addr}
    (h : readEmbedded limit index text = some (ip, rest)) :
    readGroups (limit + 1) index text = (pairs ip, true, rest) := by
  unfold readEmbedded at h
  rw [readGroups, h]
  rfl

theorem readGroups_group {limit index group : Nat} {text rest : List Char}
    (hembedded : readEmbedded limit index text = none)
    (h : readGroup index text = some (group, rest)) :
    readGroups (limit + 1) index text
      = (.ofNat group :: (readGroups limit (index + 1) rest).1,
        (readGroups limit (index + 1) rest).2) := by
  unfold readEmbedded at hembedded
  unfold readGroup at h
  rw [readGroups, hembedded, h]

theorem readGroups_stop {limit index : Nat} {text : List Char}
    (hembedded : readEmbedded limit index text = none) (h : readGroup index text = none) :
    readGroups (limit + 1) index text = ([], false, text) := by
  unfold readEmbedded at hembedded
  unfold readGroup at h
  rw [readGroups, hembedded, h]

/-- The rule of `readGroups`: nothing is read, or a group and those behind it, or an
IPv4 address, which ends them. -/
theorem readGroups_rule {P : Nat → Nat → List Char → List UInt16 × Bool × List Char → Prop}
    (stop : ∀ limit index text, P limit index text ([], false, text))
    (group : ∀ limit index text group left groups, readGroup index text = some (group, left) →
      P limit (index + 1) left groups →
      P (limit + 1) index text (.ofNat group :: groups.1, groups.2))
    (embedded : ∀ limit index text ip left, 0 < limit →
      readSeparator ':' index readIpv4Addr text = some (ip, left) →
      P (limit + 1) index text (pairs ip, true, left)) :
    ∀ limit index text, P limit index text (readGroups limit index text) := by
  intro limit
  induction limit with
  | zero => exact stop 0
  | succ limit ih =>
    intro index text
    rcases hip : readEmbedded limit index text with - | ⟨ip, left⟩
    · rcases hnumber : readGroup index text with - | ⟨number, left⟩
      · rw [readGroups_stop hip hnumber]
        exact stop _ index text
      · rw [readGroups_group hip hnumber]
        exact group limit index text number left _ hnumber (ih (index + 1) left)
    · rw [readGroups_embedded hip]
      unfold readEmbedded at hip
      split at hip
      · next hlimit => exact embedded limit index text ip left hlimit hip
      · cases hip

theorem readEmbedded_append {c : Char} {limit index : Nat} {text : List Char}
    (hdigit : toDigit 16 c = none) (hdot : c ≠ '.') (h : c ≠ ':' ∨ text ≠ []) (rest : List Char) :
    readEmbedded limit index (text ++ c :: rest)
      = (readEmbedded limit index text).map fun p => (p.1, p.2 ++ c :: rest) := by
  unfold readEmbedded
  split
  · exact readSeparator_append (readIpv4Addr_stopsAt (toDigit_ten_of_sixteen hdigit) hdot)
      (h.imp_right .inr) rest
  · rfl

theorem readGroup_append {c : Char} {index : Nat} {text : List Char}
    (hdigit : toDigit 16 c = none) (h : c ≠ ':' ∨ text ≠ []) (rest : List Char) :
    readGroup index (text ++ c :: rest)
      = (readGroup index text).map fun p => (p.1, p.2 ++ c :: rest) :=
  readSeparator_append (readNumber_stopsAt hdigit _ _ _) (h.imp_right .inr) rest

theorem readEmbedded_nil (limit index : Nat) : readEmbedded limit index [] = none := by
  unfold readEmbedded readSeparator
  split
  · split <;> rfl
  · rfl

theorem readGroup_nil (index : Nat) : readGroup index [] = none := by
  unfold readGroup readSeparator
  split <;> rfl

theorem readGroups_nil (limit index : Nat) : readGroups limit index [] = ([], false, []) := by
  cases limit with
  | zero => rfl
  | succ limit => exact readGroups_stop (readEmbedded_nil limit index) (readGroup_nil index)

/-- What follows makes no difference, unless it may be the colon before a next
group. -/
theorem readGroups_append {c : Char} (hdigit : toDigit 16 c = none) (hdot : c ≠ '.')
    (rest : List Char) : ∀ {limit index : Nat} {text : List Char},
    c ≠ ':' ∨ (readGroups limit index text).2.2 ≠ [] →
    readGroups limit index (text ++ c :: rest)
      = ((readGroups limit index text).1, (readGroups limit index text).2.1,
        (readGroups limit index text).2.2 ++ c :: rest) := by
  intro limit
  induction limit with
  | zero => exact fun _ => rfl
  | succ limit ih =>
    intro index text h
    have htext : c ≠ ':' ∨ text ≠ [] := h.imp_right fun hleft hnil => by
      rw [hnil, readGroups_nil] at hleft
      exact hleft rfl
    have hembedded := @readEmbedded_append c limit index text hdigit hdot htext rest
    have hgroup := @readGroup_append c index text hdigit htext rest
    rcases hip : readEmbedded limit index text with - | ⟨ip, left⟩
    · rw [hip] at hembedded
      rcases hnumber : readGroup index text with - | ⟨group, left⟩
      · rw [hnumber] at hgroup
        rw [readGroups_stop hembedded hgroup, readGroups_stop hip hnumber]
      · rw [hnumber] at hgroup
        rw [readGroups_group hip hnumber] at h ⊢
        rw [readGroups_group hembedded hgroup]
        have hnext := @ih (index + 1) left h
        rw [hnext]
    · rw [hip] at hembedded
      rw [readGroups_embedded hembedded, readGroups_embedded hip]

/-- A digit, or what stands between the parts of an address. -/
def Grouped (c : Char) : Prop := c = ':' ∨ c = '.' ∨ (toDigit 16 c).isSome = true

theorem Dotted.grouped {c : Char} (h : Dotted c) : Grouped c := by
  rcases h with hdot | hdigit
  · exact .inr (.inl hdot)
  · refine .inr (.inr (Option.isSome_iff_ne_none.mpr fun hnone => ?_))
    rw [toDigit_ten_of_sixteen hnone] at hdigit
    cases hdigit

theorem readGroups_reads : ∀ (limit index : Nat) (text : List Char),
    ∃ used, text = used ++ (readGroups limit index text).2.2 ∧ ∀ c ∈ used, Grouped c := by
  refine readGroups_rule
    (P := fun _ _ text groups => ∃ used, text = used ++ groups.2.2 ∧ ∀ c ∈ used, Grouped c)
    (fun _ _ text => ⟨[], rfl, nofun⟩) ?_ ?_
  · rintro limit index text group left groups hnumber ⟨used', hleft, hused'⟩
    have hreads : Reads Grouped (readGroup index) :=
      readSeparator_reads ((readNumber_reads _ _ _ _).mono fun _ h => .inr (.inr h)) (.inl rfl) _
    obtain ⟨used, rfl, hused⟩ := hreads _ _ _ hnumber
    refine ⟨used ++ used', ?_, List.forall_mem_append.mpr ⟨hused, hused'⟩⟩
    rw [List.append_assoc, ← hleft]
  · intro limit index text ip left hlimit hip
    exact readSeparator_reads (readIpv4Addr_reads.mono fun _ => Dotted.grouped) (.inl rfl) _
      _ _ _ hip

/-- The groups behind the zeros that are left out. -/
def readRest (head : List UInt16) : Reader Ipv6Addr := fun text =>
  let tail := readGroups (8 - (head.length + 1)) 0 text
  some (ipv6 (head ++ List.replicate (8 - head.length - tail.1.length) 0 ++ tail.1), tail.2.2)

/-- What follows `head` after the `::` of an IPv6 address. -/
def readTail (head : List UInt16) : Reader Ipv6Addr := fun text =>
  (readGivenChar ':' text).bind fun p => (readGivenChar ':' p.2).bind fun p => readRest head p.2

theorem readIpv6Addr_eq (text : List Char) :
    readIpv6Addr text =
      if (readGroups 8 0 text).1.length = 8 then
        some (ipv6 (readGroups 8 0 text).1, (readGroups 8 0 text).2.2)
      else if (readGroups 8 0 text).2.1 then none
      else readTail (readGroups 8 0 text).1 (readGroups 8 0 text).2.2 := rfl

theorem readTail_stopsAt {c : Char} (hc : Stops c) (head : List UInt16) :
    StopsAt c (readTail head) := by
  have htail : StopsAt c (readRest head) := by
    intro text rest
    unfold readRest
    dsimp only
    rw [readGroups_append hc.1 hc.2.2 rest (.inl hc.2.1)]
    rfl
  exact (readGivenChar_stopsAt hc.2.1).bind fun _ =>
    (readGivenChar_stopsAt hc.2.1).bind fun _ => htail

theorem readTail_reads (head : List UInt16) : Reads Grouped (readTail head) := by
  have hcolon : Reads Grouped (readGivenChar ':') := (readGivenChar_reads ':').mono fun _ => .inl
  have htail : Reads Grouped (readRest head) := by
    intro text value rest h
    obtain ⟨used, htext, hused⟩ := readGroups_reads (8 - (head.length + 1)) 0 text
    cases h
    exact ⟨used, htext, hused⟩
  exact hcolon.bind fun _ => hcolon.bind fun _ => htail

theorem readIpv6Addr_stopsAt {c : Char} (hc : Stops c) : StopsAt c readIpv6Addr := by
  intro text rest
  rw [readIpv6Addr_eq, readIpv6Addr_eq, readGroups_append hc.1 hc.2.2 rest (.inl hc.2.1)]
  dsimp only
  split
  · rfl
  · split
    · rfl
    · exact readTail_stopsAt hc _ _ rest

theorem readIpv6Addr_reads : Reads Grouped readIpv6Addr := by
  intro text value rest h
  obtain ⟨used, htext, hused⟩ := readGroups_reads 8 0 text
  rw [readIpv6Addr_eq] at h
  split at h
  · cases h
    exact ⟨used, htext, hused⟩
  · split at h
    · cases h
    · obtain ⟨used', hleft, hused'⟩ := readTail_reads _ _ _ _ h
      refine ⟨used ++ used', ?_, List.forall_mem_append.mpr ⟨hused, hused'⟩⟩
      rw [List.append_assoc, ← hleft, ← htext]

/-- What begins with an IPv4 address is none of IPv6. -/
theorem readIpv4Addr_of_ipv6 {text : List Char} {r : Ipv6Addr × List Char}
    (h : readIpv6Addr text = some r) : readIpv4Addr text = none := by
  rcases hip : readIpv4Addr text with - | ⟨ip, rest⟩
  · rfl
  · have hembedded : readEmbedded 7 0 text = some (ip, rest) := hip
    rw [readIpv6Addr_eq, readGroups_embedded hembedded] at h
    cases h

end AddrParser

/-! ### Whole texts -/

open AddrParser
open Readers (StopsAt Reads)

/-- The text is this IPv4 address. -/
def Ipv4Text (text : List Char) (ip : Ipv4Addr) : Prop := readIpv4Addr text = some (ip, [])

/-- The text is this IPv6 address. -/
def Ipv6Text (text : List Char) (ip : Ipv6Addr) : Prop := readIpv6Addr text = some (ip, [])

/-- Decimal digits, and the number they are. -/
structure Decimal (digits : List Char) (n : Nat) : Prop where
  ne_nil : digits ≠ []
  isDigit : ∀ c ∈ digits, Text.isDigit c = true
  decimal : Text.decimal digits = n

/-- A decimal port, and not the port zero. -/
structure PortText (digits : List Char) (port : Nat) : Prop where
  decimal : Decimal digits port
  pos : 0 < port
  lt : port < 2 ^ 16

/-- What may stand behind an IPv6 address: a percent sign and the number of a zone. -/
def ZoneText (zone : List Char) (scope : Nat) : Prop :=
  (zone = [] ∧ scope = 0) ∨ ∃ digits, zone = '%' :: digits ∧ Decimal digits scope ∧ scope < 2 ^ 32

theorem parseWith_iff {α : Type} {reader : Reader α} {text : List Char} {value : α} :
    parseWith reader (.ofList text) = some value ↔ reader text = some (value, []) := by
  unfold parseWith
  rw [String.toList_ofList]
  split
  · next heq =>
    rw [heq]
    exact ⟨fun h => by cases h; rfl, fun h => by cases h; rfl⟩
  · next hne =>
    exact ⟨nofun, fun h => absurd h (hne value)⟩

theorem parse_ipv6_iff {text : List Char} {ip : Ipv6Addr} :
    Ipv6Addr.parse (.ofList text) = some ip ↔ Ipv6Text text ip := parseWith_iff

theorem parse_ip_iff {text : List Char} {ip : IpAddr} :
    IpAddr.parse (.ofList text) = some ip
      ↔ (∃ v4, Ipv4Text text v4 ∧ ip = .v4 v4) ∨ ∃ v6, Ipv6Text text v6 ∧ ip = .v6 v6 := by
  unfold IpAddr.parse Ipv4Text Ipv6Text
  rw [parseWith_iff, readIpAddr]
  rcases hv4 : readIpv4Addr text with - | ⟨v4, rest⟩
  · rcases readIpv6Addr text with - | ⟨v6, rest⟩
    · simp
    · simp [eq_comm, and_comm]
  · have hv6 : ∀ v6, readIpv6Addr text ≠ some (v6, []) := fun v6 h => by
      rw [readIpv4Addr_of_ipv6 h] at hv4
      cases hv4
    simp [hv6, eq_comm, and_comm]

/-! #### Decimals -/

theorem toDigit_ten (c : Char) :
    toDigit 10 c = if Text.isDigit c = true then some (c.toNat - '0'.toNat) else none := by
  unfold toDigit Text.isDigit
  dsimp only
  by_cases hdigit : '0' ≤ c ∧ c ≤ '9'
  · have hlt : c.toNat - '0'.toNat < 10 := by
      have hle : c.toNat ≤ '9'.toNat := hdigit.2
      have hnine : '9'.toNat = 57 := rfl
      have hzero : '0'.toNat = 48 := rfl
      omega
    rw [if_pos hdigit, if_pos (decide_eq_true hdigit), Option.filter_some,
      if_pos (decide_eq_true hlt)]
  · have hno : ¬ decide ('0' ≤ c ∧ c ≤ '9') = true := fun h => hdigit (of_decide_eq_true h)
    rw [if_neg hdigit, if_neg hno, Option.filter_eq_none_iff]
    intro digit h
    rw [decide_eq_true_iff]
    split at h
    · cases h
      omega
    · split at h
      · cases h
        omega
      · cases h

theorem isDigit_iff {c : Char} : (toDigit 10 c).isSome = true ↔ Text.isDigit c = true := by
  rw [toDigit_ten]
  split
  · next h => simp [h]
  · next h => simp [h]

theorem value_ten {digits : List Char} (h : ∀ c ∈ digits, Text.isDigit c = true) :
    value 10 digits = Text.decimal digits := by
  unfold value Text.decimal
  refine List.foldl_ext _ _ _ fun n c hc => ?_
  rw [toDigit_ten, if_pos (h c hc)]
  rfl

/-- A number that may begin with zeros is read as its digits. -/
theorem readNumber_iff {bound n : Nat} {text : List Char} :
    readNumber 10 bound none true text = some (n, []) ↔ Decimal text n ∧ n < bound := by
  obtain ⟨digits, rest, rfl, hdigits, hrest⟩ := exists_digits 10 text
  have hall : ∀ c ∈ digits, Text.isDigit c = true := fun c hc => isDigit_iff.mp (hdigits c hc)
  rw [readNumber_digits hdigits hrest, value_ten hall]
  constructor
  · intro h
    split at h
    · cases h
    · next hok =>
      cases h
      simp only [Option.any_none, Bool.false_eq_true, Bool.not_true, false_and, false_or, not_or,
        not_le] at hok
      rw [List.append_nil]
      exact ⟨⟨hok.1, hall, rfl⟩, hok.2⟩
  · rintro ⟨hdecimal, hbound⟩
    have hnil : rest = [] := by
      cases rest with
      | nil => rfl
      | cons c tail =>
        have hc := isDigit_iff.mpr (hdecimal.isDigit c (List.mem_append_right _ List.mem_cons_self))
        rw [hrest c tail rfl] at hc
        cases hc
    subst hnil
    rw [List.append_nil] at hdecimal
    rw [if_neg, hdecimal.decimal]
    rw [hdecimal.decimal]
    simp only [Option.any_none, Bool.false_eq_true, Bool.not_true, false_and, false_or, not_or,
      not_le]
    exact ⟨hdecimal.ne_nil, hbound⟩

theorem readPort_iff {text : List Char} {port : Nat} :
    readPort text = some (port, [])
      ↔ ∃ digits, text = ':' :: digits ∧ Decimal digits port ∧ port < 2 ^ 16 := by
  constructor
  · intro h
    cases text with
    | nil => cases h
    | cons c digits =>
      unfold readPort at h
      rw [readGivenChar] at h
      split at h
      · next hc => exact ⟨digits, by rw [hc], readNumber_iff.mp h⟩
      · cases h
  · rintro ⟨digits, rfl, hdecimal⟩
    exact readNumber_iff.mpr hdecimal

/-! #### Socket addresses -/

theorem readSocketAddrV4_iff {text : List Char} {address : SocketAddr} :
    readSocketAddrV4 text = some (address, [])
      ↔ ∃ host digits ip port, text = host ++ ':' :: digits ∧ Ipv4Text host ip
        ∧ Decimal digits port ∧ port < 2 ^ 16 ∧ address = { ip := .v4 ip, port := .ofNat port } := by
  have hstops : StopsAt ':' readIpv4Addr := readIpv4Addr_stopsAt (by decide) (by decide)
  constructor
  · intro h
    obtain ⟨⟨ip, left⟩, hip, h⟩ := Option.bind_eq_some_iff.mp h
    obtain ⟨⟨port, rest⟩, hport, h⟩ := Option.bind_eq_some_iff.mp h
    cases h
    obtain ⟨digits, rfl, hdecimal, hlt⟩ := readPort_iff.mp hport
    obtain ⟨host, rfl, hhost⟩ := hstops.upTo readIpv4Addr_reads hip
    exact ⟨host, digits, ip, port, rfl, hhost, hdecimal, hlt, rfl⟩
  · rintro ⟨host, digits, ip, port, rfl, hhost, hdecimal, hlt, rfl⟩
    unfold readSocketAddrV4
    rw [hstops.before hhost digits]
    have hport : readPort (':' :: digits) = some (port, []) :=
      readPort_iff.mpr ⟨digits, rfl, hdecimal, hlt⟩
    simp only [hport, Option.bind_eq_bind, Option.bind_some]
    rfl

/-- An address that was read up to a bracket, with or without a zone. -/
theorem readZone_upTo {text text₁ rest : List Char} {ip : Ipv6Addr} {scope : Nat}
    (hip : readIpv6Addr text = some (ip, text₁))
    (hscope : (readScopeId text₁).getD (0, text₁) = (scope, ']' :: rest)) :
    ∃ host zone, text = host ++ (zone ++ ']' :: rest) ∧ Ipv6Text host ip ∧ ZoneText zone scope := by
  have hbracket : StopsAt ']' readIpv6Addr := readIpv6Addr_stopsAt (by decide)
  have hpercent : StopsAt '%' readIpv6Addr := readIpv6Addr_stopsAt (by decide)
  have hnumber : StopsAt ']' (readNumber 10 (2 ^ 32) none true) :=
    readNumber_stopsAt (by decide) _ _ _
  rcases hread : readScopeId text₁ with - | ⟨scope', text₂⟩
  · rw [hread] at hscope
    cases hscope
    obtain ⟨host, rfl, hhost⟩ := hbracket.upTo readIpv6Addr_reads hip
    exact ⟨host, [], rfl, hhost, .inl ⟨rfl, rfl⟩⟩
  · rw [hread] at hscope
    cases hscope
    obtain ⟨⟨_, text₃⟩, hgiven, hzone⟩ := Option.bind_eq_some_iff.mp hread
    obtain rfl := readGivenChar_iff.mp hgiven
    obtain ⟨zone, rfl, hnumber⟩ := hnumber.upTo (readNumber_reads _ _ _ _) hzone
    obtain ⟨host, rfl, hhost⟩ := hpercent.upTo readIpv6Addr_reads hip
    exact ⟨host, '%' :: zone, rfl, hhost, .inr ⟨zone, rfl, readNumber_iff.mp hnumber⟩⟩

theorem readZone_before {host zone : List Char} {ip : Ipv6Addr} {scope : Nat}
    (hhost : Ipv6Text host ip) (hzone : ZoneText zone scope) (rest : List Char) :
    ∃ text₁, readIpv6Addr (host ++ (zone ++ ']' :: rest)) = some (ip, text₁)
      ∧ (readScopeId text₁).getD (0, text₁) = (scope, ']' :: rest) := by
  rcases hzone with ⟨rfl, rfl⟩ | ⟨digits, rfl, hdigits⟩
  · have hbracket : StopsAt ']' readIpv6Addr := readIpv6Addr_stopsAt (by decide)
    exact ⟨_, hbracket.before hhost rest, rfl⟩
  · have hpercent : StopsAt '%' readIpv6Addr := readIpv6Addr_stopsAt (by decide)
    have hnumber : StopsAt ']' (readNumber 10 (2 ^ 32) none true) :=
      readNumber_stopsAt (by decide) _ _ _
    have hscope : readScopeId ('%' :: (digits ++ ']' :: rest)) = some (scope, ']' :: rest) :=
      hnumber.before (readNumber_iff.mpr hdigits) rest
    exact ⟨_, hpercent.before hhost (digits ++ ']' :: rest), by rw [hscope]; rfl⟩

theorem readSocketAddrV6_iff {text : List Char} {address : SocketAddr} :
    readSocketAddrV6 text = some (address, [])
      ↔ ∃ host zone digits ip scope port, text = '[' :: (host ++ (zone ++ ']' :: ':' :: digits))
        ∧ Ipv6Text host ip ∧ ZoneText zone scope ∧ Decimal digits port ∧ port < 2 ^ 16
        ∧ address = { ip := .v6 ip, port := .ofNat port, scopeId := .ofNat scope } := by
  constructor
  · intro h
    obtain ⟨⟨_, text₁⟩, hopen, h⟩ := Option.bind_eq_some_iff.mp h
    obtain rfl := readGivenChar_iff.mp hopen
    obtain ⟨⟨ip, text₂⟩, hip, h⟩ := Option.bind_eq_some_iff.mp h
    dsimp only at h
    rcases hscope : (readScopeId text₂).getD (0, text₂) with ⟨scope, text₃⟩
    rw [hscope] at h
    obtain ⟨⟨_, text₄⟩, hclose, h⟩ := Option.bind_eq_some_iff.mp h
    obtain rfl := readGivenChar_iff.mp hclose
    obtain ⟨⟨port, rest⟩, hport, h⟩ := Option.bind_eq_some_iff.mp h
    cases h
    obtain ⟨digits, rfl, hdecimal, hlt⟩ := readPort_iff.mp hport
    obtain ⟨host, zone, rfl, hhost, hzone⟩ := readZone_upTo hip hscope
    exact ⟨host, zone, digits, ip, scope, port, rfl, hhost, hzone, hdecimal, hlt, rfl⟩
  · rintro ⟨host, zone, digits, ip, scope, port, rfl, hhost, hzone, hdecimal, hlt, rfl⟩
    obtain ⟨text₁, hip, hscope⟩ := readZone_before hhost hzone (':' :: digits)
    have hport : readPort (':' :: digits) = some (port, []) :=
      readPort_iff.mpr ⟨digits, rfl, hdecimal, hlt⟩
    have hopen : ∀ text, readGivenChar '[' ('[' :: text) = some ((), text) := fun _ => rfl
    have hclose : ∀ text, readGivenChar ']' (']' :: text) = some ((), text) := fun _ => rfl
    unfold readSocketAddrV6
    simp only [hopen, hip, hscope, hclose, hport, Option.bind_eq_bind, Option.bind_some]
    rfl

/-- The texts that are socket addresses. -/
theorem parse_socket_iff {text : List Char} {address : SocketAddr} :
    SocketAddr.parse (.ofList text) = some address
      ↔ readSocketAddrV4 text = some (address, []) ∨ readSocketAddrV6 text = some (address, []) := by
  unfold SocketAddr.parse
  rw [parseWith_iff, readSocketAddr]
  rcases hv4 : readSocketAddrV4 text with - | ⟨v4, rest⟩
  · simp
  · have hv6 : readSocketAddrV6 text = none := by
      obtain ⟨⟨ip, left⟩, hip, -⟩ := Option.bind_eq_some_iff.mp hv4
      cases text with
      | nil => rfl
      | cons c text =>
        unfold readSocketAddrV6
        rw [readGivenChar]
        split
        · next hc =>
          rw [hc, readIpv4Addr_noDigit (noDigit_cons (by decide))] at hip
          cases hip
        · rfl
    rw [hv6]
    simp

/-! #### Colons -/

theorem not_colon_dotted {c : Char} (h : Dotted c) : c ≠ ':' := by
  rintro rfl
  rcases h with hdot | hdigit
  · cases hdot
  · exact absurd hdigit (by decide)

theorem Decimal.colon {digits : List Char} {n : Nat} (h : Decimal digits n) : ':' ∉ digits :=
  fun hmem => absurd (h.isDigit ':' hmem) (by decide)

theorem PortText.colon {digits : List Char} {port : Nat} (h : PortText digits port) :
    ':' ∉ digits := h.decimal.colon

theorem PortText.ne_zero {digits : List Char} {port : Nat} (h : PortText digits port) :
    UInt16.ofNat port ≠ 0 := by
  intro hzero
  have hvalue := congrArg UInt16.toNat hzero
  rw [UInt16.toNat_ofNat_of_lt' h.lt] at hvalue
  exact h.pos.ne' hvalue

theorem Ipv4Text.dotted {text : List Char} {ip : Ipv4Addr} (h : Ipv4Text text ip) :
    ∀ c ∈ text, Dotted c := readIpv4Addr_reads.whole h

theorem Ipv4Text.colon {text : List Char} {ip : Ipv4Addr} (h : Ipv4Text text ip) : ':' ∉ text :=
  fun hmem => not_colon_dotted (h.dotted ':' hmem) rfl

theorem Ipv4Text.ne_nil {text : List Char} {ip : Ipv4Addr} (h : Ipv4Text text ip) : text ≠ [] := by
  rintro rfl
  cases h

theorem Ipv6Text.grouped {text : List Char} {ip : Ipv6Addr} (h : Ipv6Text text ip) :
    ∀ c ∈ text, Grouped c := readIpv6Addr_reads.whole h

/-- No bracket stands at the front of an address. -/
theorem not_grouped_bracket : ¬ Grouped '[' := by
  unfold Grouped
  decide

/-- A group behind another takes a colon. -/
theorem readSeparator_colons {α : Type} {index : Nat} {inner : Reader α} {kind : Char → Prop}
    {text rest : List Char} {value : α} (hinner : Reads kind inner)
    (h : readSeparator ':' index inner text = some (value, rest)) :
    rest.count ':' ≤ text.count ':' ∧ (index ≠ 0 → rest.count ':' < text.count ':') := by
  unfold readSeparator at h
  split at h
  · next hindex =>
    obtain ⟨used, rfl, -⟩ := hinner _ _ _ h
    rw [List.count_append]
    exact ⟨Nat.le_add_left _ _, fun hne => absurd hindex hne⟩
  · obtain ⟨⟨_, left⟩, hgiven, h⟩ := Option.bind_eq_some_iff.mp h
    obtain rfl := readGivenChar_iff.mp hgiven
    obtain ⟨used, hused, -⟩ := hinner _ _ _ h
    have hle : rest.count ':' ≤ left.count ':' := by
      rw [show left = used ++ rest from hused, List.count_append]
      exact Nat.le_add_left _ _
    rw [List.count_cons_self]
    exact ⟨hle.trans (Nat.le_succ _), fun _ => Nat.lt_succ_of_le hle⟩

/-- Every group but one or two stands behind a colon. -/
theorem readGroups_colons : ∀ (limit index : Nat) (text : List Char),
    (readGroups limit index text).1.length + (readGroups limit index text).2.2.count ':'
        ≤ text.count ':' + 2
      ∧ (index ≠ 0 → (readGroups limit index text).1.length
        + (readGroups limit index text).2.2.count ':' ≤ text.count ':' + 1) := by
  refine readGroups_rule
    (P := fun _ index text groups =>
      groups.1.length + groups.2.2.count ':' ≤ text.count ':' + 2
        ∧ (index ≠ 0 → groups.1.length + groups.2.2.count ':' ≤ text.count ':' + 1))
    (fun _ index text => ?_) ?_ ?_
  · show 0 + text.count ':' ≤ text.count ':' + 2
      ∧ (index ≠ 0 → 0 + text.count ':' ≤ text.count ':' + 1)
    omega
  -- a group behind another costs a colon; the first one does not
  · intro limit index text group left groups hnumber ih
    obtain ⟨hread, hbehind⟩ := readSeparator_colons (readNumber_reads _ _ _ _) hnumber
    have hnext := ih.2 (Nat.succ_ne_zero index)
    dsimp only
    rw [List.length_cons]
    refine ⟨by omega, fun hindex => ?_⟩
    have hlt := hbehind hindex
    omega
  · intro limit index text ip left hlimit hip
    obtain ⟨hread, hbehind⟩ := readSeparator_colons readIpv4Addr_reads hip
    show 2 + left.count ':' ≤ text.count ':' + 2
      ∧ (index ≠ 0 → 2 + left.count ':' ≤ text.count ':' + 1)
    refine ⟨by omega, fun hindex => ?_⟩
    have hlt := hbehind hindex
    omega

/-- An IPv6 address has a colon, and another. -/
theorem Ipv6Text.colons {text : List Char} {ip : Ipv6Addr} (h : Ipv6Text text ip) :
    2 ≤ text.count ':' := by
  have hcolons := (readGroups_colons 8 0 text).1
  obtain ⟨used, htext, -⟩ := readGroups_reads 8 0 text
  unfold Ipv6Text at h
  rw [readIpv6Addr_eq] at h
  split at h
  · omega
  · split at h
    · cases h
    · obtain ⟨⟨_, text₁⟩, hfirst, h⟩ := Option.bind_eq_some_iff.mp h
      obtain ⟨⟨_, text₂⟩, hsecond, -⟩ := Option.bind_eq_some_iff.mp h
      rw [htext, readGivenChar_iff.mp hfirst, show text₁ = ':' :: text₂ from
        readGivenChar_iff.mp hsecond, List.count_append, List.count_cons_self,
        List.count_cons_self]
      omega

/-- Without a colon there is no port. -/
theorem parse_socket_no_colon {text : List Char} (h : ':' ∉ text) :
    SocketAddr.parse (.ofList text) = none := by
  rw [Option.eq_none_iff_forall_ne_some]
  intro address hparse
  rcases parse_socket_iff.mp hparse with hv4 | hv6
  · obtain ⟨host, digits, ip, port, rfl, -⟩ := readSocketAddrV4_iff.mp hv4
    exact h (List.mem_append_right _ List.mem_cons_self)
  · obtain ⟨host, zone, digits, ip, scope, port, rfl, hhost, -⟩ := readSocketAddrV6_iff.mp hv6
    have hmem : ':' ∈ host := List.count_pos_iff.mp (Nat.zero_lt_of_lt hhost.colons)
    exact h (List.mem_cons_of_mem _ (List.mem_append_left _ hmem))

/-- With one colon, it is an IPv4 address and a port. -/
theorem parse_socket_one_colon {host digits : List Char} {address : SocketAddr}
    (hhost : ':' ∉ host) (hdigits : ':' ∉ digits)
    (h : SocketAddr.parse (.ofList (host ++ ':' :: digits)) = some address) :
    ∃ ip, Ipv4Text host ip := by
  rcases parse_socket_iff.mp h with hv4 | hv6
  · obtain ⟨host', digits', ip, port, heq, hip, -⟩ := readSocketAddrV4_iff.mp hv4
    obtain ⟨rfl, -⟩ := (List.append_cons_inj_of_notMem hhost hdigits).mp heq
    exact ⟨ip, hip⟩
  · obtain ⟨host', zone, digits', ip, scope, port, heq, hip, -⟩ := readSocketAddrV6_iff.mp hv6
    have hcount := congrArg (List.count ':') heq
    have hcolons := hip.colons
    rw [List.count_append, List.count_cons_self, List.count_eq_zero_of_not_mem hhost,
      List.count_eq_zero_of_not_mem hdigits, List.count_cons_of_ne (by decide),
      List.count_append] at hcount
    omega

/-- With one colon, it is no address without a port. -/
theorem parse_ip_one_colon {host digits : List Char} (hhost : ':' ∉ host) (hdigits : ':' ∉ digits) :
    IpAddr.parse (.ofList (host ++ ':' :: digits)) = none := by
  rw [Option.eq_none_iff_forall_ne_some]
  intro ip hparse
  rcases parse_ip_iff.mp hparse with ⟨v4, hv4, -⟩ | ⟨v6, hv6, -⟩
  · exact hv4.colon (List.mem_append_right _ List.mem_cons_self)
  · have hcolons := hv6.colons
    rw [List.count_append, List.count_cons_self, List.count_eq_zero_of_not_mem hhost,
      List.count_eq_zero_of_not_mem hdigits] at hcolons
    omega

theorem parse_ip_no_colon {text : List Char} (h : ':' ∉ text) (hv4 : ∀ ip, ¬ Ipv4Text text ip) :
    IpAddr.parse (.ofList text) = none := by
  rw [Option.eq_none_iff_forall_ne_some]
  intro ip hparse
  rcases parse_ip_iff.mp hparse with ⟨v4, hip, -⟩ | ⟨v6, hip, -⟩
  · exact hv4 v4 hip
  · exact h (List.count_pos_iff.mp (Nat.zero_lt_of_lt hip.colons))

/-- No address begins with a bracket. -/
theorem parse_ip_bracket (text : List Char) : IpAddr.parse (.ofList ('[' :: text)) = none := by
  rw [Option.eq_none_iff_forall_ne_some]
  intro ip hparse
  rcases parse_ip_iff.mp hparse with ⟨v4, hip, -⟩ | ⟨v6, hip, -⟩
  · exact not_grouped_bracket (hip.dotted '[' List.mem_cons_self).grouped
  · exact not_grouped_bracket (hip.grouped '[' List.mem_cons_self)

/-- An IPv6 address is no socket address. -/
theorem parse_socket_ipv6 {text : List Char} {ip : Ipv6Addr} (h : Ipv6Text text ip) :
    SocketAddr.parse (.ofList text) = none := by
  rw [Option.eq_none_iff_forall_ne_some]
  intro address hparse
  rcases parse_socket_iff.mp hparse with hv4 | hv6
  · obtain ⟨host, digits, ip', port, rfl, hip, -⟩ := readSocketAddrV4_iff.mp hv4
    have hread := (readIpv4Addr_stopsAt (c := ':') (by decide) (by decide)).before hip digits
    rw [readIpv4Addr_of_ipv6 h] at hread
    cases hread
  · obtain ⟨host, zone, digits, ip', scope, port, rfl, -⟩ := readSocketAddrV6_iff.mp hv6
    exact not_grouped_bracket (h.grouped '[' List.mem_cons_self)

/-- Nor is one in brackets. -/
theorem parse_socket_bracketed {text : List Char} :
    SocketAddr.parse (.ofList ('[' :: (text ++ [']']))) = none := by
  rw [Option.eq_none_iff_forall_ne_some]
  intro address hparse
  rcases parse_socket_iff.mp hparse with hv4 | hv6
  · obtain ⟨host, digits, ip, port, heq, hip, -⟩ := readSocketAddrV4_iff.mp hv4
    obtain ⟨c, host, rfl⟩ := List.exists_cons_of_ne_nil hip.ne_nil
    obtain ⟨rfl, -⟩ := List.cons.inj heq
    exact not_grouped_bracket (hip.dotted '[' List.mem_cons_self).grouped
  · obtain ⟨host, zone, digits, ip, scope, port, heq, -, -, hdigits, -⟩ :=
      readSocketAddrV6_iff.mp hv6
    have hlast := congrArg List.getLast? heq
    have hne := hdigits.ne_nil
    rw [← List.cons_append, List.getLast?_concat, ← List.cons_append, ← List.append_assoc,
      ← List.singleton_append (l := ':' :: digits), ← List.append_assoc,
      ← List.singleton_append (l := digits), ← List.append_assoc,
      List.getLast?_append_of_ne_nil _ hne] at hlast
    have hmem : ']' ∈ digits := List.mem_of_getLast? hlast.symm
    exact absurd (hdigits.isDigit ']' hmem) (by decide)

end RdEngine
