/-
RdEngine/AddressText.lean

What is printed of an internet address is read back (`readSocketAddr_toText`),
whatever follows: numbers, dotted decimals, groups, and the zeros that are left out
between them.
-/
import RdEngine.AddressReaders
import Mathlib.Data.List.Induction
import Mathlib.Data.Nat.Digits.Defs

namespace RdEngine

namespace AddrParser

/-! ### Printed numbers -/

theorem toDigit_digitChar {radix d : Nat} (hradix : radix = 10 ∨ radix = 16) (hd : d < radix) :
    toDigit radix (Nat.digitChar d) = some d := by
  have hten : ∀ d < 10, toDigit 10 (Nat.digitChar d) = some d := by decide
  have hsixteen : ∀ d < 16, toDigit 16 (Nat.digitChar d) = some d := by decide
  rcases hradix with rfl | rfl
  · exact hten d hd
  · exact hsixteen d hd

/-- A printed number is its digits. -/
theorem toDigits_spec {radix : Nat} (hradix : radix = 10 ∨ radix = 16) (n : Nat) :
    (∀ c ∈ Nat.toDigits radix n, (toDigit radix c).isSome = true)
      ∧ value radix (Nat.toDigits radix n) = n := by
  have hone : 1 < radix := by omega
  induction n using Nat.strong_induction_on with
  | _ n ih =>
    rw [Nat.toDigits_eq_if hone]
    split
    · rename_i hlt
      have hdigit := toDigit_digitChar hradix hlt
      refine ⟨fun c hc => ?_, ?_⟩
      · rw [List.mem_singleton.mp hc, hdigit]
        rfl
      · unfold value
        rw [List.foldl_cons, List.foldl_nil, hdigit]
        show 0 * radix + n = n
        omega
    · rename_i hge
      have hdigit := toDigit_digitChar hradix (Nat.mod_lt n (Nat.zero_lt_of_lt hone))
      obtain ⟨hall, hvalue⟩ := ih (n / radix) (Nat.div_lt_self (by omega) hone)
      refine ⟨fun c hc => ?_, ?_⟩
      · rcases List.mem_append.mp hc with hold | hnew
        · exact hall c hold
        · rw [List.mem_singleton.mp hnew, hdigit]
          rfl
      · rw [value_snoc, hvalue, hdigit, Nat.mul_comm]
        exact Nat.div_add_mod n radix

/-- Only zero is printed with a zero in front. -/
theorem head_toDigits {n : Nat} (h : (Nat.toDigits 10 n).head? = some '0') : n = 0 := by
  induction n using Nat.strong_induction_on with
  | _ n ih =>
    rw [Nat.toDigits_eq_if (by decide)] at h
    split at h
    · rename_i hlt
      have hall : ∀ n < 10, [Nat.digitChar n].head? = some '0' → n = 0 := by decide
      exact hall n hlt h
    · rename_i hge
      obtain ⟨c, digits, hdigits⟩ := List.exists_cons_of_ne_nil
        (Nat.toDigits_ne_nil (n := n / 10) (b := 10))
      rw [hdigits, List.cons_append, List.head?_cons] at h
      have hzero := ih (n / 10) (Nat.div_lt_self (by omega) (by decide)) (by rw [hdigits]; exact h)
      omega

/-- A printed number is read back. -/
theorem readNumber_toDigits {radix bound : Nat} {maxDigits : Option Nat} {allowZeroPrefix : Bool}
    {n : Nat} {rest : List Char} (hradix : radix = 10 ∨ radix = 16) (hbound : n < bound)
    (hmax : ∀ m, maxDigits = some m → 0 < m ∧ n < radix ^ m)
    (hzero : allowZeroPrefix = true ∨ radix = 10) (hrest : NoDigit radix rest) :
    readNumber radix bound maxDigits allowZeroPrefix (Nat.toDigits radix n ++ rest)
      = some (n, rest) := by
  obtain ⟨hall, hvalue⟩ := toDigits_spec hradix n
  rw [readNumber_digits hall hrest, if_neg, hvalue]
  rw [hvalue]
  rintro (hnil | hlong | ⟨hleading, hhead, hlength⟩ | hlarge)
  · exact Nat.toDigits_ne_nil hnil
  · rw [Option.any_eq_true] at hlong
    obtain ⟨m, hm, hgt⟩ := hlong
    obtain ⟨hpos, hlt⟩ := hmax m hm
    have hle := (Nat.length_toDigits_le_iff (by omega : 1 < radix) hpos).mpr hlt
    exact absurd hle (Nat.not_le.mpr (of_decide_eq_true hgt))
  · rcases hzero with rfl | rfl
    · cases hleading
    · rw [head_toDigits hhead, Nat.toDigits_zero] at hlength
      exact absurd hlength (by decide)
  · omega

/-! ### Dotted decimals -/

/-- Digits of a group are no IPv4 address. -/
theorem readIpv4Addr_undotted {digits rest : List Char}
    (hdigits : ∀ c ∈ digits, (toDigit 16 c).isSome = true) (hrest : NoDigit 16 rest)
    (hdot : ∀ tail, rest ≠ '.' :: tail) : readIpv4Addr (digits ++ rest) = none := by
  rcases hoctet : readOctet 0 (digits ++ rest) with - | ⟨a, left⟩
  · exact readIpv4Addr_of_octet hoctet
  · refine readIpv4Addr_of_dot hoctet fun tail htail => ?_
    obtain ⟨used, htext, hused⟩ := readNumber_reads _ _ _ _ _ _ _ hoctet
    rcases List.append_eq_append_iff.mp htext with ⟨more, rfl, hrest'⟩ | ⟨more, rfl, hleft⟩
    · cases more with
      | nil => exact hdot tail (hrest'.trans htail)
      | cons c more =>
        have hc : (toDigit 10 c).isSome = true :=
          hused c (List.mem_append_right _ List.mem_cons_self)
        rw [toDigit_ten_of_sixteen (hrest c (more ++ left) hrest')] at hc
        cases hc
    · cases more with
      | nil => exact hdot tail (hleft.symm.trans htail)
      | cons c more =>
        obtain ⟨rfl, -⟩ := List.cons.inj (hleft.symm.trans htail)
        exact absurd (hdigits '.' (List.mem_append_right _ List.mem_cons_self)) (by decide)

/-- Four numbers with dots between them. -/
def dotted (a b c d : Nat) : List Char :=
  Nat.toDigits 10 a ++ '.' :: (Nat.toDigits 10 b ++ '.' :: (Nat.toDigits 10 c ++
    '.' :: Nat.toDigits 10 d))

theorem readNumber_octet {n : Nat} {rest : List Char} (h : n < 2 ^ 8) (hrest : NoDigit 10 rest) :
    readNumber 10 (2 ^ 8) (some 3) false (Nat.toDigits 10 n ++ rest) = some (n, rest) := by
  refine readNumber_toDigits (.inl rfl) h (fun m hm => ?_) (.inr rfl) hrest
  cases hm
  exact ⟨by decide, by omega⟩

theorem readIpv4Addr_dotted {a b c d : Nat} {rest : List Char} (ha : a < 2 ^ 8) (hb : b < 2 ^ 8)
    (hc : c < 2 ^ 8) (hd : d < 2 ^ 8) (hrest : NoDigit 10 rest) :
    readIpv4Addr (dotted a b c d ++ rest)
      = some (⟨#v[.ofNat a, .ofNat b, .ofNat c, .ofNat d]⟩, rest) := by
  have hdot : ∀ text, NoDigit 10 ('.' :: text) := fun text => noDigit_cons (by decide)
  have hnext : ∀ index n text, index ≠ 0 → n < 2 ^ 8 → NoDigit 10 text →
      readOctet index ('.' :: (Nat.toDigits 10 n ++ text)) = some (n, text) :=
    fun index n text hindex hn htext =>
      (readSeparator_given hindex _).trans (readNumber_octet hn htext)
  unfold dotted
  simp only [List.append_assoc, List.cons_append]
  exact readIpv4Addr_of_octets (readNumber_octet ha (hdot _))
    (hnext 1 b _ (by decide) hb (hdot _)) (hnext 2 c _ (by decide) hc (hdot _))
    (hnext 3 d _ (by decide) hd hrest)

theorem toList_toString (n : Nat) : (toString n).toList = Nat.toDigits 10 n := by
  show (Nat.repr n).toList = Nat.toDigits 10 n
  rw [Nat.repr, String.toList_ofList]

theorem toList_dotted (a b c d : Nat) :
    (".".intercalate [toString a, toString b, toString c, toString d]).toList
      = dotted a b c d := by
  rw [String.toList_intercalate]
  simp only [List.map_cons, List.map_nil, List.intercalate_cons_cons, List.intercalate_singleton,
    toList_toString, List.append_assoc]
  rfl

end AddrParser

open AddrParser

theorem Ipv4Addr.exists_octets (ip : Ipv4Addr) :
    ∃ a b c d : UInt8, ip.octets.toList = [a, b, c, d] := by
  refine ⟨ip.octets[0], ip.octets[1], ip.octets[2], ip.octets[3], ?_⟩
  apply List.ext_getElem
  · simp
  · intro i hi hi'
    simp only [List.length_cons, List.length_nil] at hi'
    have hcases : i = 0 ∨ i = 1 ∨ i = 2 ∨ i = 3 := by omega
    rcases hcases with rfl | rfl | rfl | rfl <;> simp

theorem Ipv4Addr.toList_toText {ip : Ipv4Addr} {a b c d : UInt8}
    (h : ip.octets.toList = [a, b, c, d]) :
    ip.toText.toList = dotted a.toNat b.toNat c.toNat d.toNat := by
  unfold Ipv4Addr.toText
  rw [h]
  exact toList_dotted _ _ _ _

/-- What is printed of an IPv4 address is read back. -/
theorem readIpv4Addr_toText (ip : Ipv4Addr) {rest : List Char} (hrest : NoDigit 10 rest) :
    readIpv4Addr (ip.toText.toList ++ rest) = some (ip, rest) := by
  obtain ⟨a, b, c, d, h⟩ := ip.exists_octets
  rw [Ipv4Addr.toList_toText h,
    readIpv4Addr_dotted a.toNat_lt b.toNat_lt c.toNat_lt d.toNat_lt hrest]
  simp only [UInt8.ofNat_toNat]
  refine congrArg (fun octets => some (Ipv4Addr.mk octets, rest)) ?_
  rw [← Vector.toList_inj, h]
  rfl

namespace AddrParser

/-! ### Groups and zeros -/

/-- No group goes on with this text, and none stands behind a colon in front of it. -/
structure Ends (rest : List Char) : Prop where
  noDigit : NoDigit 16 rest
  noDot : ∀ tail, rest ≠ '.' :: tail
  noGroup : ∀ tail, rest = ':' :: tail → NoDigit 16 tail

theorem ends_nil : Ends [] := ⟨noDigit_nil 16, nofun, nofun⟩

theorem ends_colons (rest : List Char) : Ends (':' :: ':' :: rest) where
  noDigit := noDigit_cons (by decide)
  noDot := fun _ heq => absurd (List.cons.inj heq).1 (by decide)
  noGroup := fun _ heq => (List.cons.inj heq).2 ▸ noDigit_cons (by decide)

/-- No first group is read where there is no digit. -/
theorem NoDigit.stop {rest : List Char} (h : NoDigit 16 rest) (limit : Nat) :
    readGroups limit 0 rest = ([], false, rest) := by
  cases limit with
  | zero => rfl
  | succ limit =>
    have hembedded : readEmbedded limit 0 rest = none := by
      unfold readEmbedded readSeparator
      rw [if_pos rfl, readIpv4Addr_noDigit h.ten, ite_self]
    exact readGroups_stop hembedded (readNumber_noDigit h _ _ _)

theorem Ends.stop {rest : List Char} (h : Ends rest) (limit index : Nat) :
    readGroups limit index rest = ([], false, rest) := by
  cases limit with
  | zero => rfl
  | succ limit =>
    by_cases hindex : index = 0
    · subst hindex
      exact h.noDigit.stop (limit + 1)
    · have hgiven : ∀ {α : Type} {inner : Reader α}, (∀ tail, NoDigit 16 tail → inner tail = none) →
          readSeparator ':' index inner rest = none := by
        intro α inner hinner
        unfold readSeparator
        rw [if_neg hindex]
        cases rest with
        | nil => rfl
        | cons c tail =>
          rw [readGivenChar]
          split
          · next hc => exact hinner tail (h.noGroup tail (hc ▸ rfl))
          · rfl
      have hembedded : readEmbedded limit index rest = none := by
        unfold readEmbedded
        rw [hgiven fun tail htail => readIpv4Addr_noDigit htail.ten, ite_self]
      exact readGroups_stop hembedded (hgiven fun tail htail => readNumber_noDigit htail _ _ _)

/-- Groups behind others. -/
def behind (groups : List UInt16) : List Char :=
  groups.flatMap fun group => ':' :: Nat.toDigits 16 group.toNat

/-- Groups, with colons between them. -/
def joined : List UInt16 → List Char
  | [] => []
  | group :: groups => Nat.toDigits 16 group.toNat ++ behind groups

theorem behind_cons (group : UInt16) (groups : List UInt16) :
    behind (group :: groups) = ':' :: (Nat.toDigits 16 group.toNat ++ behind groups) := rfl

theorem noDigit_behind (groups : List UInt16) {rest : List Char} (h : NoDigit 16 rest) :
    NoDigit 16 (behind groups ++ rest) := by
  cases groups with
  | nil => exact h
  | cons group groups =>
    rw [behind_cons]
    exact noDigit_cons (by decide)

theorem noDot_behind (groups : List UInt16) {rest : List Char} (h : ∀ tail, rest ≠ '.' :: tail)
    (tail : List Char) : behind groups ++ rest ≠ '.' :: tail := by
  cases groups with
  | nil => exact h tail
  | cons group groups =>
    rw [behind_cons]
    exact fun heq => absurd (List.cons.inj heq).1 (by decide)

theorem readGroups_printed {limit index group : Nat} {text rest : List Char}
    (htext : ∀ {α : Type} (inner : Reader α),
      readSeparator ':' index inner text = inner (Nat.toDigits 16 group ++ rest))
    (hgroup : group < 2 ^ 16) (hdigit : NoDigit 16 rest) (hdot : ∀ tail, rest ≠ '.' :: tail) :
    readGroups (limit + 1) index text
      = (.ofNat group :: (readGroups limit (index + 1) rest).1,
        (readGroups limit (index + 1) rest).2) := by
  have hembedded : readEmbedded limit index text = none := by
    unfold readEmbedded
    rw [htext, readIpv4Addr_undotted (toDigits_spec (.inr rfl) group).1 hdigit hdot, ite_self]
  have hread : readGroup index text = some (group, rest) := by
    refine (htext _).trans (readNumber_toDigits (.inr rfl) hgroup (fun m hm => ?_) (.inl rfl) hdigit)
    cases hm
    exact ⟨by decide, by omega⟩
  exact readGroups_group hembedded hread

theorem readGroups_behind {rest : List Char} (hrest : Ends rest) (groups : List UInt16) :
    ∀ {limit index : Nat}, index ≠ 0 → groups.length ≤ limit →
      readGroups limit index (behind groups ++ rest) = (groups, false, rest) := by
  induction groups with
  | nil => exact fun _ _ => hrest.stop _ _
  | cons group groups ih =>
    intro limit index hindex hlength
    obtain ⟨limit, rfl⟩ : ∃ n, limit = n + 1 := ⟨limit - 1, by rw [List.length_cons] at hlength; omega⟩
    have htext : ∀ {α : Type} (inner : Reader α),
        readSeparator ':' index inner (behind (group :: groups) ++ rest)
          = inner (Nat.toDigits 16 group.toNat ++ (behind groups ++ rest)) := by
      intro α inner
      rw [behind_cons, List.cons_append, List.append_assoc]
      exact readSeparator_given hindex _
    rw [readGroups_printed htext group.toNat_lt (noDigit_behind groups hrest.noDigit)
      (noDot_behind groups hrest.noDot), ih (Nat.succ_ne_zero index) (by simpa using hlength),
      UInt16.ofNat_toNat]

theorem readGroups_joined {rest : List Char} (hrest : Ends rest) {groups : List UInt16}
    {limit : Nat} (hlength : groups.length ≤ limit) :
    readGroups limit 0 (joined groups ++ rest) = (groups, false, rest) := by
  cases groups with
  | nil => exact hrest.stop limit 0
  | cons group groups =>
    obtain ⟨limit, rfl⟩ : ∃ n, limit = n + 1 := ⟨limit - 1, by rw [List.length_cons] at hlength; omega⟩
    have htext : ∀ {α : Type} (inner : Reader α),
        readSeparator ':' 0 inner (joined (group :: groups) ++ rest)
          = inner (Nat.toDigits 16 group.toNat ++ (behind groups ++ rest)) := by
      intro α inner
      rw [joined, List.append_assoc]
      rfl
    rw [readGroups_printed htext group.toNat_lt (noDigit_behind groups hrest.noDigit)
      (noDot_behind groups hrest.noDot), readGroups_behind hrest groups Nat.one_ne_zero
      (by simpa using hlength), UInt16.ofNat_toNat]

theorem toList_joined (groups : List UInt16) :
    (":".intercalate (groups.map hexText)).toList = joined groups := by
  have hbehind : ∀ group groups,
      (":".toList).intercalate (((group :: groups).map hexText).map String.toList)
        = Nat.toDigits 16 group.toNat ++ behind groups := by
    intro group groups
    induction groups generalizing group with
    | nil =>
      simp only [List.map_cons, List.map_nil, List.intercalate_singleton, hexText,
        String.toList_ofList]
      exact (List.append_nil _).symm
    | cons next groups ih =>
      simp only [List.map_cons] at ih ⊢
      rw [List.intercalate_cons_cons, ih next, behind_cons, hexText, String.toList_ofList,
        List.append_assoc]
      rfl
  rw [String.toList_intercalate]
  cases groups with
  | nil => rfl
  | cons group groups => exact hbehind group groups

/-! #### The zeros that are left out -/

/-- A step of the search for them. -/
def zerosStep (s : (Nat × Nat) × (Nat × Nat)) (e : UInt16 × Nat) : (Nat × Nat) × (Nat × Nat) :=
  if e.1 = 0 then
    let current := if s.2.2 = 0 then (e.2, 1) else (s.2.1, s.2.2 + 1)
    (if current.2 > s.1.2 then current else s.1, current)
  else (s.1, (0, 0))

theorem longestZeros_eq (segments : List UInt16) :
    longestZeros segments = (segments.zipIdx.foldl zerosStep ((0, 0), (0, 0))).1 := rfl

/-- There are zeros from a start on, so many. -/
def Zeros (segments : List UInt16) (run : Nat × Nat) : Prop :=
  run.1 + run.2 ≤ segments.length ∧ ∀ i, run.1 ≤ i → i < run.1 + run.2 → segments[i]? = some 0

theorem Zeros.snoc {segments : List UInt16} {run : Nat × Nat} (h : Zeros segments run)
    (segment : UInt16) : Zeros (segments ++ [segment]) run := by
  refine ⟨by rw [List.length_append]; exact h.1.trans (Nat.le_add_right _ _), fun i hlow hhigh => ?_⟩
  rw [List.getElem?_append_left (hhigh.trans_le h.1)]
  exact h.2 i hlow hhigh

/-- The run at the end goes on with a zero. -/
theorem Zeros.grow {segments : List UInt16} {run : Nat × Nat} (h : Zeros segments run)
    (hend : run.1 + run.2 = segments.length) : Zeros (segments ++ [0]) (run.1, run.2 + 1) := by
  refine ⟨?_, fun i hlow hhigh => ?_⟩
  · rw [List.length_append, List.length_singleton, ← hend]
    exact le_rfl
  · dsimp only at hlow hhigh
    rcases Nat.lt_or_ge i segments.length with hlt | hge
    · exact (h.snoc 0).2 i hlow (hend ▸ hlt)
    · obtain rfl : i = segments.length := by omega
      rw [List.getElem?_append_right le_rfl, Nat.sub_self]
      rfl

theorem zeros_scan (segments : List UInt16) :
    Zeros segments (segments.zipIdx.foldl zerosStep ((0, 0), (0, 0))).1
      ∧ Zeros segments (segments.zipIdx.foldl zerosStep ((0, 0), (0, 0))).2
      ∧ ((segments.zipIdx.foldl zerosStep ((0, 0), (0, 0))).2.2 ≠ 0 →
        (segments.zipIdx.foldl zerosStep ((0, 0), (0, 0))).2.1
          + (segments.zipIdx.foldl zerosStep ((0, 0), (0, 0))).2.2 = segments.length) := by
  have hnone : ∀ segments, Zeros segments (0, 0) := fun segments =>
    ⟨Nat.zero_le _, fun i _ hlt => absurd hlt (Nat.not_lt_zero i)⟩
  induction segments using List.reverseRecOn with
  | nil => exact ⟨hnone [], hnone [], fun h => absurd rfl h⟩
  | append_singleton segments segment ih =>
    -- one segment more: the run that ends here grows, or starts anew
    rw [List.zipIdx_append, List.foldl_append]
    generalize segments.zipIdx.foldl zerosStep ((0, 0), (0, 0)) = s at ih ⊢
    obtain ⟨hlongest, hcurrent, hend⟩ := ih
    simp only [List.zipIdx_singleton, Nat.zero_add, List.foldl_cons, List.foldl_nil]
    unfold zerosStep
    by_cases hzero : segment = 0
    · subst hzero
      rw [if_pos rfl]
      dsimp only
      have hnext : Zeros (segments ++ [0])
            (if s.2.2 = 0 then (segments.length, 1) else (s.2.1, s.2.2 + 1))
          ∧ (if s.2.2 = 0 then (segments.length, 1) else (s.2.1, s.2.2 + 1)).1
            + (if s.2.2 = 0 then (segments.length, 1) else (s.2.1, s.2.2 + 1)).2
              = (segments ++ [0]).length := by
        split
        · have hstart : Zeros segments (segments.length, 0) :=
            ⟨le_rfl, fun i hlow hhigh => absurd hhigh (Nat.not_lt.mpr hlow)⟩
          exact ⟨hstart.grow rfl, by rw [List.length_append]; rfl⟩
        · next hlive =>
          refine ⟨hcurrent.grow (hend hlive), ?_⟩
          rw [List.length_append, List.length_singleton, ← hend hlive]
          rfl
      generalize (if s.2.2 = 0 then (segments.length, 1) else (s.2.1, s.2.2 + 1)) = next at hnext ⊢
      refine ⟨?_, hnext.1, fun _ => hnext.2⟩
      split
      · exact hnext.1
      · exact hlongest.snoc 0
    · rw [if_neg hzero]
      exact ⟨hlongest.snoc segment, hnone _, fun h => absurd rfl h⟩

/-- A list in front of a run of zeros, the zeros, and what is behind them. -/
theorem Zeros.split {segments : List UInt16} {run : Nat × Nat} (h : Zeros segments run) :
    segments.take run.1 ++ List.replicate run.2 0 ++ segments.drop (run.1 + run.2) = segments := by
  have hmiddle : (segments.drop run.1).take run.2 = List.replicate run.2 0 := by
    rw [List.eq_replicate_iff]
    refine ⟨by rw [List.length_take, List.length_drop]; have := h.1; omega, fun b hb => ?_⟩
    obtain ⟨i, hi, rfl⟩ := List.mem_iff_getElem.mp hb
    rw [List.length_take, List.length_drop] at hi
    have hzero := h.2 (run.1 + i) (Nat.le_add_right _ _) (by omega)
    rw [List.getElem_take, List.getElem_drop]
    exact (List.getElem?_eq_some_iff.mp hzero).2
  rw [← hmiddle, List.append_assoc, ← List.drop_drop, List.take_append_drop,
    List.take_append_drop]

theorem ipv6_toList (ip : Ipv6Addr) : ipv6 ip.segments.toList = ip := by
  unfold ipv6
  refine congrArg Ipv6Addr.mk ?_
  ext i hi
  rw [Vector.getElem_ofFn]
  simp [Vector.getElem?_eq_getElem hi]

/-! #### Printed addresses -/

theorem replicate_zeros {head tail : List UInt16} {len : Nat} {segments : List UInt16}
    (hsplit : head ++ List.replicate len 0 ++ tail = segments) (hlength : segments.length = 8) :
    head ++ List.replicate (8 - head.length - tail.length) 0 ++ tail = segments := by
  have hlen : head.length + len + tail.length = 8 := by
    rw [← hlength, ← hsplit, List.length_append, List.length_append, List.length_replicate]
  rw [← hsplit]
  exact congrArg (fun n => head ++ List.replicate n 0 ++ tail) (by omega)

/-- Groups in front of the zeros that are left out, and a text behind them. -/
theorem readIpv6Addr_colons {head : List UInt16} (hhead : head.length < 8) (text : List Char) :
    readIpv6Addr (joined head ++ ':' :: ':' :: text) = readRest head text := by
  have hgroups := readGroups_joined (ends_colons text) hhead.le
  rw [readIpv6Addr_eq, hgroups]
  dsimp only
  rw [if_neg hhead.ne, if_neg Bool.false_ne_true]
  rfl

/-- Zeros that are left out are filled in. -/
theorem readIpv6Addr_zeros {head tail : List UInt16} {len : Nat} {ip : Ipv6Addr}
    (hsplit : head ++ List.replicate len 0 ++ tail = ip.segments.toList) (hlen : 0 < len)
    {rest : List Char} (hrest : Ends rest) :
    readIpv6Addr (joined head ++ ':' :: ':' :: (joined tail ++ rest)) = some (ip, rest) := by
  have hlength : head.length + len + tail.length = 8 := by
    rw [← ip.segments.length_toList, ← hsplit, List.length_append, List.length_append,
      List.length_replicate]
  have htail : tail.length ≤ 8 - (head.length + 1) := by omega
  rw [readIpv6Addr_colons (by omega)]
  unfold readRest
  dsimp only
  rw [readGroups_joined hrest htail, replicate_zeros hsplit ip.segments.length_toList,
    ipv6_toList]

/-- The address of an IPv4 address, with dotted decimals at its end. -/
theorem readIpv6Addr_mapped {ip : Ipv6Addr} {a b c d : Nat} (ha : a < 2 ^ 8) (hb : b < 2 ^ 8)
    (hc : c < 2 ^ 8) (hd : d < 2 ^ 8) {rest : List Char} (hrest : NoDigit 10 rest)
    (hsegments : ip.segments.toList
      = [0, 0, 0, 0, 0, 0xffff, .ofNat (a * 2 ^ 8 + b), .ofNat (c * 2 ^ 8 + d)]) :
    readIpv6Addr ("::ffff:".toList ++ dotted a b c d ++ rest) = some (ip, rest) := by
  have hcolons : "::ffff:".toList ++ dotted a b c d ++ rest
      = joined [] ++ ':' :: ':' :: (Nat.toDigits 16 0xffff ++ ':' :: (dotted a b c d ++ rest)) := by
    rw [show Nat.toDigits 16 0xffff = "ffff".toList by decide, List.append_assoc]
    rfl
  have hembedded : readEmbedded 5 1 (':' :: (dotted a b c d ++ rest))
      = some (⟨#v[.ofNat a, .ofNat b, .ofNat c, .ofNat d]⟩, rest) := by
    unfold readEmbedded
    rw [if_pos (by decide), readSeparator_given Nat.one_ne_zero]
    exact readIpv4Addr_dotted ha hb hc hd hrest
  have hgroups : readGroups 7 0 (Nat.toDigits 16 0xffff ++ ':' :: (dotted a b c d ++ rest))
      = ([0xffff, .ofNat (a * 2 ^ 8 + b), .ofNat (c * 2 ^ 8 + d)], true, rest) := by
    rw [readGroups_printed (fun _ => rfl) (by decide) (noDigit_cons (by decide))
      (fun _ heq => absurd (List.cons.inj heq).1 (by decide)), readGroups_embedded hembedded]
    have hpairs : pairs ⟨#v[.ofNat a, .ofNat b, .ofNat c, .ofNat d]⟩
        = [.ofNat (a * 2 ^ 8 + b), .ofNat (c * 2 ^ 8 + d)] := by
      have hoctet : ∀ n < 2 ^ 8, (UInt8.ofNat n).toNat = n := fun n hn => UInt8.toNat_ofNat_of_lt' hn
      show [UInt16.ofNat ((UInt8.ofNat a).toNat * 2 ^ 8 + (UInt8.ofNat b).toNat),
        UInt16.ofNat ((UInt8.ofNat c).toNat * 2 ^ 8 + (UInt8.ofNat d).toNat)] = _
      rw [hoctet a ha, hoctet b hb, hoctet c hc, hoctet d hd]
    rw [hpairs]
    rfl
  rw [hcolons, readIpv6Addr_colons (by decide)]
  unfold readRest
  dsimp only [List.length_nil]
  rw [hgroups, ← ipv6_toList ip, hsegments]
  rfl

end AddrParser

open AddrParser

/-- The texts an address is printed as: with zeros left out and dotted decimals,
with zeros left out, or in full. -/
theorem Ipv6Addr.toList_toText (ip : Ipv6Addr) :
    (∃ a b c d, a < 2 ^ 8 ∧ b < 2 ^ 8 ∧ c < 2 ^ 8 ∧ d < 2 ^ 8
        ∧ ip.segments.toList
          = [0, 0, 0, 0, 0, 0xffff, .ofNat (a * 2 ^ 8 + b), .ofNat (c * 2 ^ 8 + d)]
        ∧ ip.toText.toList = "::ffff:".toList ++ dotted a b c d)
      ∨ (∃ head tail len, head ++ List.replicate len 0 ++ tail = ip.segments.toList ∧ 0 < len
        ∧ ip.toText.toList = joined head ++ ':' :: ':' :: joined tail)
      ∨ ip.toText.toList = joined ip.segments.toList := by
  have hlength := ip.segments.length_toList
  unfold Ipv6Addr.toText
  dsimp only
  split
  · next hmapped =>
    left
    obtain ⟨x, y, hdrop⟩ : ∃ x y, ip.segments.toList.drop 6 = [x, y] := by
      rw [← List.length_eq_two, List.length_drop, hlength]
    have hx : x.toNat < 2 ^ 16 := x.toNat_lt
    have hy : y.toNat < 2 ^ 16 := y.toNat_lt
    refine ⟨x.toNat / 2 ^ 8, x.toNat % 2 ^ 8, y.toNat / 2 ^ 8, y.toNat % 2 ^ 8, by omega, by omega,
      by omega, by omega, ?_, ?_⟩
    · rw [Nat.div_add_mod', Nat.div_add_mod', UInt16.ofNat_toNat, UInt16.ofNat_toNat,
        ← List.take_append_drop 6 ip.segments.toList, hmapped, hdrop]
      rfl
    · rw [hdrop, String.toList_append]
      exact congrArg ("::ffff:".toList ++ ·) (toList_dotted _ _ _ _)
  · right
    have hzeros := (zeros_scan ip.segments.toList).1
    rw [← longestZeros_eq] at hzeros
    split
    · next hlen =>
      refine .inl ⟨_, _, _, hzeros.split, Nat.zero_lt_of_lt hlen, ?_⟩
      rw [String.toList_append, String.toList_append, toList_joined, toList_joined]
      exact List.append_assoc _ _ _
    · exact .inr (toList_joined _)

/-- What is printed of an IPv6 address is read back. -/
theorem readIpv6Addr_toText (ip : Ipv6Addr) {rest : List Char} (hrest : Ends rest) :
    readIpv6Addr (ip.toText.toList ++ rest) = some (ip, rest) := by
  rcases ip.toList_toText with
    ⟨a, b, c, d, ha, hb, hc, hd, hsegments, htext⟩ | ⟨head, tail, len, hsplit, hlen, htext⟩ | htext
  · rw [htext]
    exact readIpv6Addr_mapped ha hb hc hd hrest.noDigit.ten hsegments
  · rw [htext, List.append_assoc]
    exact readIpv6Addr_zeros hsplit hlen hrest
  · rw [htext, readIpv6Addr_eq,
      readGroups_joined hrest (Nat.le_of_eq ip.segments.length_toList)]
    dsimp only
    rw [if_pos ip.segments.length_toList, ipv6_toList]

/-! ### Whole texts -/

theorem ipv4Text_toText (ip : Ipv4Addr) : Ipv4Text ip.toText.toList ip := by
  have hread := readIpv4Addr_toText ip (noDigit_nil 10)
  rwa [List.append_nil] at hread

theorem ipv6Text_toText (ip : Ipv6Addr) : Ipv6Text ip.toText.toList ip := by
  have hread := readIpv6Addr_toText ip ends_nil
  rwa [List.append_nil] at hread

theorem decimal_toString (n : Nat) : Decimal (toString n).toList n := by
  obtain ⟨hall, hvalue⟩ := toDigits_spec (.inl rfl) n
  have hdigits : ∀ c ∈ Nat.toDigits 10 n, Text.isDigit c = true :=
    fun c hc => isDigit_iff.mp (hall c hc)
  rw [toList_toString]
  exact ⟨Nat.toDigits_ne_nil, hdigits, (value_ten hdigits).symm.trans hvalue⟩

/-! #### Lengths -/

theorem length_toString_le {n k : Nat} (h : n < 10 ^ k) (hk : 0 < k) :
    (toString n).toList.length ≤ k := by
  rw [toList_toString]
  exact (Nat.length_toDigits_le_iff (by decide) hk).mpr h

theorem length_dotted_le {a b c d : Nat} (ha : a < 2 ^ 8) (hb : b < 2 ^ 8) (hc : c < 2 ^ 8)
    (hd : d < 2 ^ 8) : (dotted a b c d).length ≤ 15 := by
  have hoctet : ∀ n < 2 ^ 8, (Nat.toDigits 10 n).length ≤ 3 := fun n hn =>
    (Nat.length_toDigits_le_iff (by decide) (by decide)).mpr (by omega)
  have ha := hoctet a ha
  have hb := hoctet b hb
  have hc := hoctet c hc
  have hd := hoctet d hd
  unfold dotted
  simp only [List.length_append, List.length_cons]
  omega

theorem length_behind_le (groups : List UInt16) : (behind groups).length ≤ 5 * groups.length := by
  induction groups with
  | nil => exact le_rfl
  | cons group groups ih =>
    have hgroup : (Nat.toDigits 16 group.toNat).length ≤ 4 :=
      (Nat.length_toDigits_le_iff (by decide) (by decide)).mpr group.toNat_lt
    rw [behind_cons, List.length_cons, List.length_append, List.length_cons]
    omega

theorem length_joined_le (groups : List UInt16) : (joined groups).length ≤ 5 * groups.length := by
  cases groups with
  | nil => exact le_rfl
  | cons group groups =>
    have hall := length_behind_le (group :: groups)
    rw [behind_cons, List.length_cons] at hall
    exact (Nat.le_succ _).trans hall

theorem Ipv4Addr.length_toText_le (ip : Ipv4Addr) : ip.toText.toList.length ≤ 15 := by
  obtain ⟨a, b, c, d, h⟩ := ip.exists_octets
  rw [Ipv4Addr.toList_toText h]
  exact length_dotted_le a.toNat_lt b.toNat_lt c.toNat_lt d.toNat_lt

theorem Ipv6Addr.length_toText_le (ip : Ipv6Addr) : ip.toText.toList.length ≤ 42 := by
  have hsegments := ip.segments.length_toList
  rcases ip.toList_toText with
    ⟨a, b, c, d, ha, hb, hc, hd, -, htext⟩ | ⟨head, tail, len, hsplit, hlen, htext⟩ | htext
  · have hdotted := length_dotted_le ha hb hc hd
    rw [htext, List.length_append]
    exact Nat.add_le_add (by decide : "::ffff:".toList.length ≤ 27) hdotted
  · have hlength := congrArg List.length hsplit
    rw [List.length_append, List.length_append, List.length_replicate] at hlength
    have hhead := length_joined_le head
    have htail := length_joined_le tail
    rw [htext, List.length_append, List.length_cons, List.length_cons]
    omega
  · have hall := length_joined_le ip.segments.toList
    rw [htext]
    omega

end RdEngine
