/-
RdEngine/Compat/Routes.lean

Where a target goes (`parse_scheme_target` and `parse_route` of `session_compat.rs`).

A target with a scheme that is refused falls through to the parsers of other targets.
It is no address, since it begins with a letter, but it may be a peer id.  And a target
that is no socket address is split at its last colon, which is part of an IPv6 address
that stands there alone.  `Routed` is what a target with a scheme should come to, and
`RoutedWhen` when it does (`scheme_routed`).
-/
import RdEngine.Compat.Registry
import RdEngine.Endpoints

namespace RdEngine

open AddrParser
open Readers (Reads)

/-! ### One group more -/

theorem readGroups_length_le : ∀ (limit index : Nat) (text : List Char),
    (readGroups limit index text).1.length ≤ limit :=
  readGroups_rule (P := fun limit _ _ groups => groups.1.length ≤ limit)
    (fun _ _ _ => Nat.zero_le _) (fun _ _ _ _ _ _ _ ih => Nat.succ_le_succ ih)
    (fun _ _ _ _ _ hlimit _ => Nat.succ_le_succ hlimit)

/-- Where groups end with the text, a colon and what is behind it are read on. -/
theorem readGroups_more (rest : List Char) : ∀ {limit index : Nat} {text : List Char},
    (readGroups limit index text).2.2 = [] → index ≠ 0 ∨ text ≠ [] →
    readGroups limit index (text ++ ':' :: rest) =
      if (readGroups limit index text).2.1 then
        ((readGroups limit index text).1, true, ':' :: rest)
      else
        ((readGroups limit index text).1
            ++ (readGroups (limit - (readGroups limit index text).1.length)
              (index + (readGroups limit index text).1.length) (':' :: rest)).1,
          (readGroups (limit - (readGroups limit index text).1.length)
            (index + (readGroups limit index text).1.length) (':' :: rest)).2) := by
  intro limit
  induction limit with
  | zero =>
    intro index text hrest _
    obtain rfl : text = [] := hrest
    rfl
  | succ limit ih =>
    intro index text hrest htext
    by_cases hnil : text = []
    · subst hnil
      rw [readGroups_nil]
      rfl
    · have hembedded := @readEmbedded_append ':' limit index text (by decide) (by decide)
        (.inr hnil) rest
      have hgroup := @readGroup_append ':' index text (by decide) (.inr hnil) rest
      -- a group, or an embedded IPv4 address that ends the groups
      rcases hip : readEmbedded limit index text with - | ⟨ip, left⟩
      · rw [hip] at hembedded
        rcases hnumber : readGroup index text with - | ⟨group, left⟩
        · rw [readGroups_stop hip hnumber] at hrest
          exact absurd hrest hnil
        · rw [hnumber] at hgroup
          rw [readGroups_group hip hnumber] at hrest
          have hnext := @ih (index + 1) left hrest (.inl (Nat.succ_ne_zero index))
          rw [readGroups_group hip hnumber, readGroups_group hembedded hgroup, hnext]
          dsimp only
          split
          · rfl
          · rw [List.length_cons, Nat.succ_sub_succ, Nat.add_assoc index,
              Nat.add_comm 1 (List.length _)]
            rfl
      · rw [hip] at hembedded
        rw [readGroups_embedded hip] at hrest ⊢
        rw [readGroups_embedded hembedded, show left = [] from hrest]
        rfl

theorem toDigit_sixteen {c : Char} (h : Text.isDigit c = true) : toDigit 16 c = toDigit 10 c := by
  have hdigit : '0' ≤ c ∧ c ≤ '9' := of_decide_eq_true h
  have hlt : c.toNat - '0'.toNat < 10 := by
    have hle : c.toNat ≤ '9'.toNat := hdigit.2
    have hnine : '9'.toNat = 57 := rfl
    have hzero : '0'.toNat = 48 := rfl
    omega
  rw [toDigit_ten, if_pos h]
  unfold toDigit
  dsimp only
  rw [if_pos hdigit, Option.filter_some, if_pos (decide_eq_true (by omega))]

/-- Decimal digits are no less when they are read as a group. -/
theorem decimal_le_value {digits : List Char} (h : ∀ c ∈ digits, Text.isDigit c = true) :
    Text.decimal digits ≤ value 16 digits := by
  rw [← value_ten h]
  induction digits using List.reverseRecOn with
  | nil => exact le_rfl
  | append_singleton digits c ih =>
    obtain ⟨hdigits, hc⟩ := List.forall_mem_append.mp h
    rw [value_snoc, value_snoc, toDigit_sixteen (hc c (List.mem_singleton_self c))]
    have hle := ih hdigits
    omega

/-- A port, read as one more group: it is no group of zeros. -/
theorem readGroups_port {digits : List Char} {port : Nat} (hport : PortText digits port)
    {limit index : Nat} (hindex : index ≠ 0)
    (h : (readGroups limit index (':' :: digits)).2.2 = []) :
    ∃ group, group ≠ 0 ∧ (readGroups limit index (':' :: digits)).1 = [group] := by
  have hall : ∀ c ∈ digits, (toDigit 16 c).isSome = true := fun c hc => by
    rw [toDigit_sixteen (hport.decimal.isDigit c hc)]
    exact isDigit_iff.mpr (hport.decimal.isDigit c hc)
  cases limit with
  | zero => cases h
  | succ limit =>
    have hembedded : readEmbedded limit index (':' :: digits) = none := by
      have hundotted := @readIpv4Addr_undotted digits [] hall (noDigit_nil 16) nofun
      rw [List.append_nil] at hundotted
      unfold readEmbedded
      rw [readSeparator_given hindex, hundotted, ite_self]
    have hread := @readNumber_digits 16 (2 ^ 16) (some 4) true digits [] hall (noDigit_nil 16)
    rw [List.append_nil] at hread
    have hgroup : readGroup index (':' :: digits)
        = readNumber 16 (2 ^ 16) (some 4) true digits := readSeparator_given hindex digits
    rw [hread] at hgroup
    split at hgroup
    · rw [readGroups_stop hembedded hgroup] at h
      cases h
    · next hok =>
      rw [readGroups_group hembedded hgroup, readGroups_nil]
      refine ⟨_, fun hzero => ?_, rfl⟩
      have hvalue := congrArg UInt16.toNat hzero
      rw [not_or, not_or, not_or] at hok
      rw [UInt16.toNat_ofNat_of_lt' (Nat.not_le.mp hok.2.2.2)] at hvalue
      have hle := decimal_le_value hport.decimal.isDigit
      rw [hvalue, hport.decimal.decimal] at hle
      exact absurd hport.pos (Nat.not_lt.mpr hle)

theorem readGroups_eq_nil : ∀ {limit index : Nat} {text : List Char},
    (readGroups limit index text).1 = [] → (readGroups limit index text).2.2 = text :=
  @(readGroups_rule (P := fun _ _ text groups => groups.1 = [] → groups.2.2 = text)
    (fun _ _ _ _ => rfl) (fun _ _ _ _ _ _ _ _ h => nomatch h) (fun _ _ _ _ _ _ _ h => nomatch h))

/-- Groups that end with the text, and a port behind them that is read as one more. -/
theorem readGroups_more_port {text digits : List Char} {port limit : Nat}
    (hport : PortText digits port) (htext : text ≠ [])
    (hrest : (readGroups limit 0 text).2.2 = [])
    (h : (readGroups limit 0 (text ++ ':' :: digits)).2.2 = []) :
    ∃ group, group ≠ 0 ∧ (readGroups limit 0 (text ++ ':' :: digits)).1
      = (readGroups limit 0 text).1 ++ [group] := by
  have hgroups : (readGroups limit 0 text).1 ≠ [] := fun hnil =>
    htext ((readGroups_eq_nil hnil).symm.trans hrest)
  rw [readGroups_more digits hrest (.inr htext)] at h ⊢
  split at h
  · cases h
  · next hembedded =>
    rw [if_neg hembedded]
    have hindex : 0 + (readGroups limit 0 text).1.length ≠ 0 := by
      rw [Nat.zero_add]
      exact fun hzero => hgroups (List.length_eq_zero_iff.mp hzero)
    obtain ⟨group, hne, hgroup⟩ := readGroups_port hport hindex h
    exact ⟨group, hne, congrArg ((readGroups limit 0 text).1 ++ ·) hgroup⟩

theorem toList_ipv6 {groups : List UInt16} (h : groups.length = 8) :
    (ipv6 groups).segments.toList = groups := by
  unfold ipv6
  rw [Vector.toList_ofFn]
  refine List.ext_getElem (by rw [List.length_ofFn, h]) fun i hi hi' => ?_
  rw [List.getElem_ofFn]
  exact List.getD_eq_getElem _ _ hi'

/-- One group more, with the zeros filled in. -/
theorem ipv6_snoc_ne {head tail : List UInt16} {group : UInt16} (hgroup : group ≠ 0)
    (hlength : head.length + (tail ++ [group]).length < 8) :
    ipv6 (head ++ List.replicate (8 - head.length - tail.length) 0 ++ tail)
      ≠ ipv6 (head ++ List.replicate (8 - head.length - (tail ++ [group]).length) 0
        ++ (tail ++ [group])) := by
  intro heq
  rw [List.length_append, List.length_singleton] at hlength
  have hlists := congrArg (fun ip => (Ipv6Addr.segments ip).toList) heq
  rw [toList_ipv6, toList_ipv6] at hlists
  · have hcount := congrArg (List.count group) hlists
    simp only [List.count_append, List.count_replicate, List.count_singleton_self] at hcount
    rw [if_neg (by simpa using hgroup.symm), if_neg (by simpa using hgroup.symm)] at hcount
    omega
  · simp only [List.length_append, List.length_replicate, List.length_singleton]
    omega
  · simp only [List.length_append, List.length_replicate]
    omega

/-- What stands in front of the last colon of an address is another address, if it is one and
there is a port behind the colon. -/
theorem ipv6_last_group {host digits : List Char} {port : Nat} {ip ip' : Ipv6Addr}
    (h : Ipv6Text host ip) (h' : Ipv6Text (host ++ ':' :: digits) ip')
    (hport : PortText digits port) : ip ≠ ip' := by
  unfold Ipv6Text at h h'
  have hbound := readGroups_length_le 8 0 host
  have hbound' := readGroups_length_le 8 0 (host ++ ':' :: digits)
  rw [readIpv6Addr_eq] at h
  split at h
  · next hlength =>
    -- all the groups are there, and the colon is too much
    have hrest : (readGroups 8 0 host).2.2 = [] := (Prod.mk.inj (Option.some.inj h)).2
    have hhost : host ≠ [] := by
      rintro rfl
      rw [readGroups_nil] at hlength
      cases hlength
    have hlength' : (readGroups 8 0 (host ++ ':' :: digits)).1.length = 8 := by
      rw [readGroups_more digits hrest (.inr hhost)] at hbound' ⊢
      split at hbound' <;> rename_i hembedded
      · rw [if_pos hembedded]
        exact hlength
      · rw [if_neg hembedded]
        rw [List.length_append] at hbound' ⊢
        omega
    rw [readIpv6Addr_eq, if_pos hlength'] at h'
    have hrest' := (Prod.mk.inj (Option.some.inj h')).2
    obtain ⟨group, -, hgroups⟩ := readGroups_more_port hport hhost hrest hrest'
    rw [hgroups, List.length_append, List.length_singleton] at hlength'
    omega
  · next hlength =>
    split at h
    · cases h
    · next hembedded =>
      obtain ⟨⟨_, text₁⟩, hfirst, h⟩ := Option.bind_eq_some_iff.mp h
      obtain ⟨⟨_, text₂⟩, hsecond, h⟩ := Option.bind_eq_some_iff.mp h
      have hleft : (readGroups 8 0 host).2.2 = ':' :: ':' :: text₂ := by
        rw [readGivenChar_iff.mp hfirst]
        exact congrArg (':' :: ·) (readGivenChar_iff.mp hsecond)
      have hhead : (readGroups 8 0 host).2.2 ≠ [] := by
        rw [hleft]
        exact List.cons_ne_nil _ _
      -- the groups in front of the zeros are the same
      rw [readIpv6Addr_eq, readGroups_append (by decide) (by decide) digits (.inr hhead)] at h'
      dsimp only at h'
      rw [if_neg hlength, if_neg hembedded, hleft] at h'
      have h' : readRest (readGroups 8 0 host).1 (text₂ ++ ':' :: digits) = some (ip', []) := h'
      have hlt : (readGroups 8 0 host).1.length < 8 := by omega
      generalize (readGroups 8 0 host).1 = head at h h' hlt
      unfold readRest at h h'
      dsimp only at h h'
      obtain ⟨rfl, hrest⟩ := Prod.mk.inj (Option.some.inj h)
      obtain ⟨rfl, hrest'⟩ := Prod.mk.inj (Option.some.inj h')
      have htext : text₂ ≠ [] := by
        rintro rfl
        have hstop := @NoDigit.stop (':' :: digits) (noDigit_cons (by decide))
          (8 - (head.length + 1))
        rw [List.nil_append, hstop] at hrest'
        cases hrest'
      obtain ⟨group, hne, hgroups⟩ := readGroups_more_port hport htext hrest hrest'
      have htail := readGroups_length_le (8 - (head.length + 1)) 0 (text₂ ++ ':' :: digits)
      rw [hgroups] at htail ⊢
      exact ipv6_snoc_ne hne (by omega)

/-- The address of a host, if it is not a name. -/
def Host.address : Host → Option IpAddr
  | .v4 ip => some (.v4 ip)
  | .v6 ip _ => some (.v6 ip)
  | .dns _ => none

namespace Compat

/-! ### What is behind a scheme -/

/-- A target with a scheme: its protocol, the rest of it, and the default port. -/
inductive SchemeTarget : List Char → SessionProtocol → List Char → UInt16 → Prop
  | vnc (rest : List Char) : SchemeTarget (vncScheme ++ rest) .vnc rest vncDefaultPort
  | rdp (rest : List Char) : SchemeTarget (rdpScheme ++ rest) .rdp rest rdpDefaultPort

/-- `parse_scheme_target` behind the scheme. -/
def behindScheme (protocol : SessionProtocol) (rest : List Char) (defaultPort : UInt16) :
    Option (SessionProtocol × String × UInt16) := do
  guard !(rest.isEmpty || rest.any isControl)
  match SocketAddr.parse (.ofList rest) with
  | some address =>
    guard (address.port ≠ 0)
    return (protocol, ipText address.ip, address.port)
  | none =>
    let (host, port) ←
      match rsplitColon rest with
      | some (host, port) => (parseU16 port).map (host, ·)
      | none => some (rest, defaultPort)
    guard !(host.isEmpty || port == 0)
    return (protocol, .ofList host, port)

theorem parseSchemeTarget_eq {target rest : List Char} {protocol : SessionProtocol} {d : UInt16}
    (h : SchemeTarget target protocol rest d) :
    parseSchemeTarget target = behindScheme protocol rest d := by
  cases h with
  | vnc rest => rfl
  | rdp rest => rfl

/-- A rest that is looked at: there is one, without control characters. -/
def Seen (rest : List Char) : Prop := rest ≠ [] ∧ ∀ c ∈ rest, isControl c = false

theorem seen_iff {rest : List Char} :
    Seen rest ↔ (!(rest.isEmpty || rest.any isControl)) = true := by
  unfold Seen
  simp

section

variable {protocol : SessionProtocol} {rest : List Char} {d : UInt16}

theorem behindScheme_unseen (h : ¬ Seen rest) : behindScheme protocol rest d = none := by
  unfold behindScheme
  rw [guard, if_neg (mt seen_iff.mpr h)]
  rfl

theorem behindScheme_socket {address : SocketAddr} (h : Seen rest)
    (hsocket : SocketAddr.parse (.ofList rest) = some address) :
    behindScheme protocol rest d
      = if address.port ≠ 0 then some (protocol, ipText address.ip, address.port) else none := by
  unfold behindScheme
  rw [guard, if_pos (seen_iff.mp h), hsocket]
  by_cases hport : address.port = 0
  · simp [hport]
  · simp [hport]

theorem behindScheme_name (h : Seen rest) (hsocket : SocketAddr.parse (.ofList rest) = none)
    (hsplit : rsplitColon rest = none) (hd : d ≠ 0) :
    behindScheme protocol rest d = some (protocol, .ofList rest, d) := by
  unfold behindScheme
  rw [guard, if_pos (seen_iff.mp h), hsocket, hsplit]
  simp [guard, h.1, hd]

theorem behindScheme_split {host port : List Char} (h : Seen rest)
    (hsocket : SocketAddr.parse (.ofList rest) = none)
    (hsplit : rsplitColon rest = some (host, port)) :
    behindScheme protocol rest d
      = (parseU16 port).bind fun port =>
          if host = [] ∨ port = 0 then none else some (protocol, .ofList host, port) := by
  unfold behindScheme
  rw [guard, if_pos (seen_iff.mp h), hsocket, hsplit]
  dsimp only
  rcases parseU16 port with - | port
  · rfl
  · by_cases hhost : host = []
    · simp [guard, hhost]
    · by_cases hport : port = 0
      · simp [guard, hport]
      · simp [guard, hhost, hport]

end

theorem rsplitColon_eq (text : List Char) : rsplitColon text = rsplitOnce ':' text := by
  by_cases hcolon : ':' ∈ text
  · obtain ⟨before, after, rfl, hafter⟩ := exists_last hcolon
    have hall : ∀ c ∈ after.reverse, decide (c ≠ ':') = true := by
      intro c hc
      rw [decide_eq_true_iff]
      rintro rfl
      exact hafter (List.mem_reverse.mp hc)
    have hreverse : (before ++ ':' :: after).reverse = after.reverse ++ ':' :: before.reverse := by
      rw [List.reverse_append, List.reverse_cons, List.append_assoc]
      rfl
    have hstop : (':' :: before.reverse).takeWhile (fun c => decide (c ≠ ':')) = [] := rfl
    have hrest : (':' :: before.reverse).dropWhile (fun c => decide (c ≠ ':'))
        = ':' :: before.reverse := rfl
    rw [rsplitOnce_append hafter]
    unfold rsplitColon
    rw [hreverse, List.dropWhile_append_of_pos hall, List.takeWhile_append_of_pos hall, hstop,
      hrest, List.append_nil, List.reverse_reverse]
    dsimp only
    rw [List.reverse_reverse]
  · have hall : ∀ c ∈ text.reverse, decide (c ≠ ':') = true := by
      intro c hc
      rw [decide_eq_true_iff]
      rintro rfl
      exact hcolon (List.mem_reverse.mp hc)
    have hnone : rsplitOnce ':' text = none := if_neg hcolon
    rw [hnone]
    unfold rsplitColon
    rw [List.dropWhile_eq_nil_iff.mpr hall]

theorem rsplitColon_append {host port : List Char} (h : ':' ∉ port) :
    rsplitColon (host ++ ':' :: port) = some (host, port) := by
  rw [rsplitColon_eq]
  exact rsplitOnce_append h

theorem rsplitColon_none {rest : List Char} (h : ':' ∉ rest) : rsplitColon rest = none := by
  rw [rsplitColon_eq]
  exact if_neg h

theorem parseU16_portText {digits : List Char} {port : Nat} (h : PortText digits port) :
    parseU16 digits = some (.ofNat port) := by
  have hhead : digits.head? ≠ some '+' := fun hplus =>
    absurd (h.decimal.isDigit '+' (List.mem_of_head? hplus)) (by decide)
  have hok : ¬ (digits = [] ∨ (!digits.all Text.isDigit) = true ∨ Text.decimal digits ≥ 65536) := by
    rintro (hnil | hbad | hlarge)
    · exact h.decimal.ne_nil hnil
    · rw [List.all_eq_true.mpr h.decimal.isDigit] at hbad
      cases hbad
    · rw [h.decimal.decimal] at hlarge
      exact absurd h.lt (Nat.not_lt.mpr hlarge)
  unfold parseU16
  dsimp only
  rw [if_neg hhead, if_neg hok, h.decimal.decimal]

theorem portText_of_parseU16 {digits : List Char} {port : UInt16} (h : parseU16 digits = some port)
    (hplus : '+' ∉ digits) (hport : port ≠ 0) : PortText digits port.toNat := by
  have hhead : digits.head? ≠ some '+' := fun hhead => hplus (List.mem_of_head? hhead)
  unfold parseU16 at h
  dsimp only at h
  rw [if_neg hhead] at h
  split at h
  · cases h
  · next hok =>
    rw [not_or, not_or, Bool.not_eq_true, Bool.not_eq_false'] at hok
    obtain ⟨hnil, hall, hlt⟩ := hok
    obtain rfl : UInt16.ofNat (Text.decimal digits) = port := Option.some.inj h
    have hdecimal : (UInt16.ofNat (Text.decimal digits)).toNat = Text.decimal digits :=
      UInt16.toNat_ofNat_of_lt' (Nat.not_le.mp hlt)
    rw [hdecimal]
    refine ⟨⟨hnil, List.all_eq_true.mp hall, rfl⟩, Nat.pos_of_ne_zero fun hzero => hport ?_,
      Nat.not_le.mp hlt⟩
    rw [hzero]
    rfl

/-! ### What is refused -/

/-- What `parse_scheme_target` refuses behind a scheme: nothing at all, control characters, a
port zero, no port behind the last colon, or no host in front of it. -/
inductive Refused : List Char → Prop
  | unseen {rest : List Char} (h : ¬ Seen rest) : Refused rest
  | portZero {rest : List Char} {address : SocketAddr}
      (h : SocketAddr.parse (.ofList rest) = some address) (hport : address.port = 0) :
      Refused rest
  | noPort {host port : List Char}
      (hsocket : SocketAddr.parse (.ofList (host ++ ':' :: port)) = none) (hcolon : ':' ∉ port)
      (hport : ∀ p, parseU16 port = some p → p = 0) : Refused (host ++ ':' :: port)
  | noHost {port : List Char} (hcolon : ':' ∉ port) : Refused (':' :: port)

theorem behindScheme_none_iff {protocol : SessionProtocol} {rest : List Char} {d : UInt16}
    (hd : d ≠ 0) : behindScheme protocol rest d = none ↔ Refused rest := by
  constructor
  · intro h
    by_cases hseen : Seen rest
    · rcases hsocket : SocketAddr.parse (.ofList rest) with - | address
      -- no socket address: the text splits at its last colon
      · by_cases hcolon : ':' ∈ rest
        · obtain ⟨host, port, rfl, hport⟩ := exists_last hcolon
          rw [behindScheme_split hseen hsocket (rsplitColon_append hport)] at h
          by_cases hhost : host = []
          · subst hhost
            exact .noHost hport
          · refine .noPort hsocket hport fun p hp => ?_
            rw [hp, Option.bind_some] at h
            split at h
            · next hbad => exact hbad.resolve_left hhost
            · cases h
        · rw [behindScheme_name hseen hsocket (rsplitColon_none hcolon) hd] at h
          cases h
      · rw [behindScheme_socket hseen hsocket] at h
        split at h
        · cases h
        · next hport => exact .portZero hsocket (not_not.mp hport)
    · exact .unseen hseen
  · intro h
    by_cases hseen : Seen rest
    · cases h with
      | unseen h => exact absurd hseen h
      | portZero h hport =>
        rw [behindScheme_socket hseen h, hport]
        rfl
      | @noPort host port hsocket hcolon hport =>
        rw [behindScheme_split hseen hsocket (rsplitColon_append hcolon)]
        rcases hp : parseU16 port with - | p
        · rfl
        · exact if_pos (.inr (hport p hp))
      | @noHost port hcolon =>
        -- a socket address has a host in front of the colon
        have hsocket : SocketAddr.parse (.ofList (':' :: port)) = none := by
          rw [Option.eq_none_iff_forall_ne_some]
          intro address hparse
          obtain ⟨ip, hip⟩ := @parse_socket_one_colon [] port address nofun hcolon hparse
          exact hip.ne_nil rfl
        rw [behindScheme_split hseen hsocket (@rsplitColon_append [] port hcolon)]
        rcases parseU16 port with - | p
        · rfl
        · rw [Option.bind_some]
          exact if_pos (.inl rfl)
    · exact behindScheme_unseen hseen

/-! ### Routes -/

/-- The port that is given, or else the default one. -/
def portOr (port : Option Nat) (defaultPort : UInt16) : UInt16 :=
  (port.map UInt16.ofNat).getD defaultPort

/-- The name of a host, without a colon. -/
structure PlainHost (host : List Char) : Prop where
  seen : Seen host
  colon : ':' ∉ host
  noAddress : ∀ ip, ¬ Ipv4Text host ip

/-- A name of a host, with or without a port. -/
inductive Named : List Char → List Char → Option Nat → Prop
  | alone {host : List Char} (h : PlainHost host) : Named host host none
  | port {host digits : List Char} {port : Nat} (h : PlainHost host)
      (hport : PortText digits port) : Named (host ++ ':' :: digits) host (some port)

/-- Where a target with a scheme should go: to its protocol, with the host it names and
the port it gives, or nowhere. -/
structure Routed (target : List Char) (protocol : SessionProtocol) (rest : List Char)
    (defaultPort : UInt16) : Prop where
  scheme : ∀ route, parseRoute target = some route →
    ∃ host port, route = .scheme protocol host port
  literal : ∀ host port ip, Form NoZone rest host port → host.address = some ip →
    ∃ text, parseSchemeTarget target = some (protocol, text, portOr port defaultPort)
      ∧ IpAddr.parse text = some ip
  name : ∀ host port, Named rest host port →
    parseSchemeTarget target = some (protocol, .ofList host, portOr port defaultPort)

/-- When it goes there: the rest is no IPv6 address, alone or in brackets without a port,
and a target that is refused is too long for a peer id or not one for its characters. -/
structure RoutedWhen (target rest : List Char) : Prop where
  bare : ∀ ip, ¬ Ipv6Text rest ip
  bracketed : ∀ inner ip, rest = '[' :: (inner ++ [']']) → ¬ Ipv6Text inner ip
  refused : Refused rest →
    256 < (String.ofList target).utf8ByteSize ∨ ∃ c ∈ target, isControl c = true

/-- A target with a scheme is no address. -/
theorem SchemeTarget.not_address {target rest : List Char} {protocol : SessionProtocol} {d : UInt16}
    (h : SchemeTarget target protocol rest d) :
    SocketAddr.parse (.ofList target) = none ∧ IpAddr.parse (.ofList target) = none := by
  obtain ⟨c, tail, rfl, hgrouped, hbracket⟩ : ∃ c tail, target = c :: tail ∧ ¬ Grouped c ∧ c ≠ '[' := by
    unfold Grouped
    cases h with
    | vnc rest => exact ⟨'v', _, rfl, by decide, by decide⟩
    | rdp rest => exact ⟨'r', _, rfl, by decide, by decide⟩
  constructor
  · rw [Option.eq_none_iff_forall_ne_some]
    intro address hparse
    rcases parse_socket_iff.mp hparse with hv4 | hv6
    · obtain ⟨host, digits, ip, port, heq, hip, -⟩ := readSocketAddrV4_iff.mp hv4
      obtain ⟨c', host, rfl⟩ := List.exists_cons_of_ne_nil hip.ne_nil
      obtain ⟨rfl, -⟩ := List.cons.inj heq
      exact hgrouped (hip.dotted c List.mem_cons_self).grouped
    · obtain ⟨host, zone, digits, ip, scope, port, heq, -⟩ := readSocketAddrV6_iff.mp hv6
      exact hbracket (List.cons.inj heq).1
  · rw [Option.eq_none_iff_forall_ne_some]
    intro ip hparse
    rcases parse_ip_iff.mp hparse with ⟨v4, hip, -⟩ | ⟨v6, hip, -⟩
    · exact hgrouped (hip.dotted c List.mem_cons_self).grouped
    · exact hgrouped (hip.grouped c List.mem_cons_self)

section

variable {target rest : List Char} {protocol : SessionProtocol} {d : UInt16}

theorem SchemeTarget.default_ne_zero (h : SchemeTarget target protocol rest d) : d ≠ 0 := by
  cases h with
  | vnc rest => decide
  | rdp rest => decide

theorem behindScheme_protocol {protocol' : SessionProtocol} {host : String} {port : UInt16}
    (hd : d ≠ 0) (h : behindScheme protocol rest d = some (protocol', host, port)) : protocol' = protocol := by
  by_cases hseen : Seen rest
  · rcases hsocket : SocketAddr.parse (.ofList rest) with - | address
    · rcases hsplit : rsplitColon rest with - | ⟨before, after⟩
      · rw [behindScheme_name hseen hsocket hsplit hd] at h
        cases h
        rfl
      · rw [behindScheme_split hseen hsocket hsplit] at h
        obtain ⟨p, -, h⟩ := Option.bind_eq_some_iff.mp h
        split at h
        · cases h
        · cases h
          rfl
    · rw [behindScheme_socket hseen hsocket] at h
      split at h
      · cases h
        rfl
      · cases h
  · rw [behindScheme_unseen hseen] at h
    cases h

theorem parseRoute_refused (h : SchemeTarget target protocol rest d)
    (hnone : parseSchemeTarget target = none) :
    parseRoute target =
      if 256 < (String.ofList target).utf8ByteSize ∨ target.any isControl = true then none
      else some (.rendezvous (.ofList target)) := by
  obtain ⟨hsocket, hip⟩ := h.not_address
  have hne : target.isEmpty = false := by
    cases h with
    | vnc rest => rfl
    | rdp rest => rfl
  unfold parseRoute
  rw [hnone, hsocket, hip]
  dsimp only
  rw [hne]
  by_cases hlong : 256 < (String.ofList target).utf8ByteSize
  · simp [hlong]
  · cases target.any isControl with
    | false => simp [hlong]
    | true => simp [hlong]

end

/-! ### When a target goes where it should -/

theorem parse_ipText (ip : IpAddr) : IpAddr.parse (ipText ip) = some ip := by
  cases ip with
  | v4 ip =>
    show IpAddr.parse ip.toText = _
    rw [← String.ofList_toList (s := ip.toText)]
    exact parse_ip_iff.mpr (.inl ⟨ip, ipv4Text_toText ip, rfl⟩)
  | v6 ip =>
    show IpAddr.parse ip.toText = _
    rw [← String.ofList_toList (s := ip.toText)]
    exact parse_ip_iff.mpr (.inr ⟨ip, ipv6Text_toText ip, rfl⟩)

theorem seen_of_form {rest : List Char} {host : Host} {port : Option Nat}
    (h : Form NoZone rest host port) : Seen rest :=
  ⟨h.withZone.ne_nil, fun c hc => (h.withZone.visible c hc).plain.2⟩

section

variable {target rest : List Char} {protocol : SessionProtocol} {d : UInt16}

/-- A target with a scheme goes to its protocol exactly if it is not taken for a peer id. -/
theorem scheme_iff (h : SchemeTarget target protocol rest d) :
    (∀ route, parseRoute target = some route → ∃ host port, route = .scheme protocol host port)
      ↔ (Refused rest →
        256 < (String.ofList target).utf8ByteSize ∨ ∃ c ∈ target, isControl c = true) := by
  have hd := h.default_ne_zero
  rcases hparsed : parseSchemeTarget target with - | ⟨protocol', host, port⟩
  · have hrefused : Refused rest := (behindScheme_none_iff hd).mp (parseSchemeTarget_eq h ▸ hparsed)
    rw [parseRoute_refused h hparsed, ← List.any_eq_true (p := isControl)]
    constructor
    · intro hroutes _
      by_contra hid
      obtain ⟨host, port, hroute⟩ := hroutes _ (if_neg hid)
      cases hroute
    · intro hwhen route hroute
      rw [if_pos (hwhen hrefused)] at hroute
      cases hroute
  · have hok : behindScheme protocol rest d = some (protocol', host, port) :=
      parseSchemeTarget_eq h ▸ hparsed
    obtain rfl := behindScheme_protocol hd hok
    constructor
    · intro _ hrefused
      rw [(behindScheme_none_iff hd).mpr hrefused] at hok
      cases hok
    · intro _ route hroute
      unfold parseRoute at hroute
      rw [hparsed] at hroute
      cases hroute
      exact ⟨host, port, rfl⟩

theorem behindScheme_of_socket {address : SocketAddr} (hseen : Seen rest)
    (hsocket : SocketAddr.parse (.ofList rest) = some address) (hport : address.port ≠ 0) :
    behindScheme protocol rest d = some (protocol, ipText address.ip, address.port) := by
  rw [behindScheme_socket hseen hsocket]
  exact if_pos hport

/-- An address with a port, or an IPv4 address alone. -/
theorem literal_of_when (hd : d ≠ 0) (hbare : ∀ ip, ¬ Ipv6Text rest ip)
    (hbracketed : ∀ inner ip, rest = '[' :: (inner ++ [']']) → ¬ Ipv6Text inner ip) {host : Host}
    {port : Option Nat} {ip : IpAddr} (hform : Form NoZone rest host port)
    (haddress : host.address = some ip) :
    ∃ text, behindScheme protocol rest d = some (protocol, text, portOr port d)
      ∧ IpAddr.parse text = some ip := by
  have hseen := seen_of_form hform
  cases hform with
  | @v4 _ ip h =>
    cases haddress
    exact ⟨.ofList rest, behindScheme_name hseen (parse_socket_no_colon h.colon)
      (rsplitColon_none h.colon) hd, parse_ip_iff.mpr (.inl ⟨ip, h, rfl⟩)⟩
  | @v4Port text digits ip port h hport =>
    cases haddress
    have hparse : SocketAddr.parse (.ofList (text ++ ':' :: digits))
        = some { ip := .v4 ip, port := .ofNat port } :=
      parse_socket_iff.mpr (.inl (readSocketAddrV4_iff.mpr
        ⟨text, digits, ip, port, rfl, h, hport.decimal, hport.lt, rfl⟩))
    exact ⟨_, behindScheme_of_socket hseen hparse hport.ne_zero, parse_ipText _⟩
  | @v6 _ ip h => exact absurd h (hbare ip)
  | @bracketed text ip h => exact absurd h (hbracketed text ip rfl)
  | @bracketedPort text zone digits ip scope port h hzone hport =>
    cases haddress
    have hparse : SocketAddr.parse (.ofList ('[' :: (text ++ (zone ++ ']' :: ':' :: digits))))
        = some { ip := .v6 ip, port := .ofNat port, scopeId := .ofNat scope } :=
      parse_socket_iff.mpr (.inr (readSocketAddrV6_iff.mpr
        ⟨text, zone, digits, ip, scope, port, rfl, h, .inl hzone, hport.decimal, hport.lt, rfl⟩))
    exact ⟨_, behindScheme_of_socket hseen hparse hport.ne_zero, parse_ipText _⟩
  | dns h hv4 => cases haddress
  | dnsPort h hv4 hport => cases haddress

/-- A name without a colon, with or without a port. -/
theorem behindScheme_named (hd : d ≠ 0) {host : List Char} {port : Option Nat}
    (h : Named rest host port) :
    behindScheme protocol rest d = some (protocol, .ofList host, portOr port d) := by
  cases h with
  | alone h =>
    exact behindScheme_name h.seen (parse_socket_no_colon h.colon) (rsplitColon_none h.colon) hd
  | @port _ digits port h hport =>
    have hsocket : SocketAddr.parse (.ofList (host ++ ':' :: digits)) = none := by
      rw [Option.eq_none_iff_forall_ne_some]
      intro address hparse
      obtain ⟨ip, hip⟩ := parse_socket_one_colon h.colon hport.colon hparse
      exact h.noAddress ip hip
    have hseen : Seen (host ++ ':' :: digits) := by
      refine ⟨List.append_ne_nil_of_left_ne_nil h.seen.1 _, List.forall_mem_append.mpr ⟨h.seen.2,
        List.forall_mem_cons.mpr ⟨by decide, fun c hc => ?_⟩⟩⟩
      exact (visible_alphanumeric (alphanumeric_of_isDigit
        (hport.decimal.isDigit c hc))).plain.2
    rw [behindScheme_split hseen hsocket (rsplitColon_append hport.colon),
      parseU16_portText hport, Option.bind_some]
    exact if_neg fun hbad => hbad.elim h.seen.1 hport.ne_zero

/-- An IPv6 address alone is cut at its last colon. -/
theorem bare_cut {ip : Ipv6Addr} (h : Ipv6Text rest ip) {text : String} {port : UInt16}
    (hok : behindScheme protocol rest d = some (protocol, text, port)) :
    IpAddr.parse text ≠ some (.v6 ip) := by
  intro hparse
  have hseen : Seen rest := seen_of_form (.v6 h)
  have hcolon : ':' ∈ rest := List.count_pos_iff.mp (Nat.zero_lt_of_lt h.colons)
  obtain ⟨host, digits, rfl, hdigits⟩ := exists_last hcolon
  rw [behindScheme_split hseen (parse_socket_ipv6 h) (rsplitColon_append hdigits)] at hok
  obtain ⟨p, hp, hok⟩ := Option.bind_eq_some_iff.mp hok
  split at hok
  · cases hok
  · next hgood =>
    cases hok
    have hplus : '+' ∉ digits := fun hmem => by
      have hgrouped := h.grouped '+' (List.mem_append_right _ (List.mem_cons_of_mem _ hmem))
      unfold Grouped at hgrouped
      exact absurd hgrouped (by decide)
    have hport := portText_of_parseU16 hp hplus fun hzero => hgood (.inr hzero)
    rcases parse_ip_iff.mp hparse with ⟨v4, -, heq⟩ | ⟨v6, hv6, heq⟩
    · cases heq
    · cases heq
      exact ipv6_last_group hv6 h hport rfl

/-- One in brackets without a port keeps its first bracket, and is no address then. -/
theorem bracketed_cut {inner : List Char} {text : String} {port : UInt16} (hd : d ≠ 0)
    (hseen : Seen ('[' :: (inner ++ [']'])))
    (hok : behindScheme protocol ('[' :: (inner ++ [']'])) d = some (protocol, text, port)) :
    IpAddr.parse text = none := by
  by_cases hcolon : ':' ∈ '[' :: (inner ++ [']'])
  · obtain ⟨host, digits, heq, hdigits⟩ := exists_last hcolon
    have hsplit := @rsplitColon_append host digits hdigits
    rw [← heq] at hsplit
    rw [behindScheme_split hseen parse_socket_bracketed hsplit] at hok
    obtain ⟨p, hp, hok⟩ := Option.bind_eq_some_iff.mp hok
    split at hok
    · cases hok
    · next hgood =>
      cases hok
      obtain ⟨c, host, rfl⟩ := List.exists_cons_of_ne_nil fun hnil => hgood (.inl hnil)
      obtain ⟨rfl, -⟩ := List.cons.inj heq
      exact parse_ip_bracket host
  · rw [behindScheme_name hseen parse_socket_bracketed (rsplitColon_none hcolon) hd] at hok
    cases hok
    exact parse_ip_bracket _

theorem routed_iff (h : SchemeTarget target protocol rest d) :
    Routed target protocol rest d ↔ RoutedWhen target rest := by
  have hd := h.default_ne_zero
  have heq := parseSchemeTarget_eq h
  constructor
  · intro hrouted
    refine ⟨fun ip hip => ?_, fun inner ip hinner hip => ?_, (scheme_iff h).mp hrouted.scheme⟩
    · obtain ⟨text, htext, hparse⟩ := hrouted.literal _ _ _ (.v6 hip) rfl
      rw [heq] at htext
      exact bare_cut hip htext hparse
    · subst hinner
      have hform : Form NoZone ('[' :: (inner ++ [']'])) (.v6 ip 0) none := .bracketed hip
      obtain ⟨text, htext, hparse⟩ := hrouted.literal _ _ _ hform rfl
      rw [heq] at htext
      rw [bracketed_cut hd (seen_of_form hform) htext] at hparse
      cases hparse
  · intro hwhen
    refine ⟨(scheme_iff h).mpr hwhen.refused, fun host port ip hform haddress => ?_,
      fun host port hnamed => ?_⟩
    · rw [heq]
      exact literal_of_when hd hwhen.bare hwhen.bracketed hform haddress
    · rw [heq]
      exact behindScheme_named hd hnamed

end

/-- A target with a scheme goes to the protocol of the scheme, with the host and the port it
names, or nowhere, unless the rest of it is an IPv6 address without a port or the target is
refused and makes a peer id. -/
theorem scheme_routed (target : List Char) :
    (∀ protocol rest d, SchemeTarget target protocol rest d → Routed target protocol rest d)
      ↔ ∀ protocol rest d, SchemeTarget target protocol rest d → RoutedWhen target rest :=
  forall_congr' fun _ => forall_congr' fun _ => forall_congr' fun _ => forall_congr' routed_iff

/-- An IPv6 address in brackets becomes a peer id. -/
theorem scheme_misrouted : ¬ ∀ target protocol rest d, SchemeTarget target protocol rest d →
    Routed target protocol rest d := by
  intro h
  obtain ⟨host, port, hroute⟩ := (h "vnc://[::1]".toList .vnc "[::1]".toList 5900
    (.vnc _)).scheme (.rendezvous "vnc://[::1]") (by decide +kernel)
  cases hroute

end Compat

end RdEngine
