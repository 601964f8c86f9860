/-
RdEngine/Endpoints.lean

Server names: what `endpoint` accepts, and what it makes of it.

Four syntaxes are tried one after another, and a colon means a port in one of them and
a group in another.  `Form` is the grammar they come to, with the host and the port a
name stands for: names of one form are of no other (`endpoint_of_form`), and every name
that is accepted is of one (`form_of_endpoint`).  The name that comes out is of a form
with a port, so it is accepted again, and nothing changes (`endpoint_grammar`).

An IPv6 address in brackets may carry the number of a zone when a port follows, which
the documentation of `endpoint` does not mention.
-/
import RdEngine.AddressText
import RdEngine.Rendezvous
import RdEngine.Utf8

namespace RdEngine

open AddrParser

/-! ### The grammar -/

/-- The host a name stands for. -/
inductive Host where
  | v4 (ip : Ipv4Addr)
  /-- with the number of its zone -/
  | v6 (ip : Ipv6Addr) (scope : UInt32)
  | dns (name : List Char)

/-- Labels with dots between them.  A dot may follow. -/
def HostName (name : List Char) : Prop :=
  ∃ labels, labels ≠ [] ∧ (∀ label ∈ labels, validLabel label = true)
    ∧ (['.'].intercalate labels).length ≤ 253
    ∧ (name = ['.'].intercalate labels ∨ name = ['.'].intercalate labels ++ ['.'])

/-- The names of a host, with or without a port, when `Zone` may stand behind an IPv6
address. -/
inductive Form (Zone : List Char → Nat → Prop) : List Char → Host → Option Nat → Prop
  | v4 {text : List Char} {ip : Ipv4Addr} (h : Ipv4Text text ip) : Form Zone text (.v4 ip) none
  | v4Port {text digits : List Char} {ip : Ipv4Addr} {port : Nat} (h : Ipv4Text text ip)
      (hport : PortText digits port) : Form Zone (text ++ ':' :: digits) (.v4 ip) (some port)
  | v6 {text : List Char} {ip : Ipv6Addr} (h : Ipv6Text text ip) : Form Zone text (.v6 ip 0) none
  | bracketed {text : List Char} {ip : Ipv6Addr} (h : Ipv6Text text ip) :
      Form Zone ('[' :: (text ++ [']'])) (.v6 ip 0) none
  | bracketedPort {text zone digits : List Char} {ip : Ipv6Addr} {scope port : Nat}
      (h : Ipv6Text text ip) (hzone : Zone zone scope) (hport : PortText digits port) :
      Form Zone ('[' :: (text ++ (zone ++ ']' :: ':' :: digits))) (.v6 ip (.ofNat scope))
        (some port)
  | dns {text : List Char} (h : HostName text) (hv4 : ∀ ip, ¬ Ipv4Text text ip) :
      Form Zone text (.dns text) none
  | dnsPort {text digits : List Char} {port : Nat} (h : HostName text)
      (hv4 : ∀ ip, ¬ Ipv4Text text ip) (hport : PortText digits port) :
      Form Zone (text ++ ':' :: digits) (.dns text) (some port)

/-- The grammar of the documentation: no zone. -/
def NoZone (zone : List Char) (scope : Nat) : Prop := zone = [] ∧ scope = 0

/-- An address that packets can be sent to; nothing is known of a host name. -/
def Host.Routable : Host → Prop
  | .v4 ip => (IpAddr.v4 ip).isUnspecified = false ∧ (IpAddr.v4 ip).isMulticast = false
  | .v6 ip _ => (IpAddr.v6 ip).isUnspecified = false ∧ (IpAddr.v6 ip).isMulticast = false
  | .dns _ => True

/-- The host and a port, as they are printed. -/
def Host.withPort (host : Host) (port : Nat) : String :=
  match host with
  | .v4 ip => SocketAddr.toText { ip := .v4 ip, port := .ofNat port }
  | .v6 ip scope => SocketAddr.toText { ip := .v6 ip, port := .ofNat port, scopeId := scope }
  | .dns name => .ofList name ++ ":" ++ toString port

/-- A short text without whitespace and control characters. -/
structure Plain (text : List Char) : Prop where
  length : Text.size text ≤ 1024
  chars : ∀ c ∈ text, isWhitespace c = false ∧ isControl c = false

/-! ### Characters -/

/-- A character of a host name. -/
def NameChar (c : Char) : Prop := isAsciiAlphanumeric c = true ∨ c = '-' ∨ c = '.'

theorem validLabel_iff {label : List Char} : validLabel label = true ↔
    label ≠ [] ∧ label.length ≤ 63 ∧ label.head?.any isAsciiAlphanumeric = true
      ∧ label.getLast?.any isAsciiAlphanumeric = true
      ∧ ∀ c ∈ label, isAsciiAlphanumeric c = true ∨ c = '-' := by
  unfold validLabel
  simp [List.all_eq_true]

theorem nameChar_intercalate {labels : List (List Char)}
    (h : ∀ label ∈ labels, validLabel label = true) :
    ∀ c ∈ ['.'].intercalate labels, NameChar c := by
  induction labels with
  | nil => exact nofun
  | cons label labels ih =>
    have hlabel : ∀ c ∈ label, NameChar c := fun c hc =>
      ((validLabel_iff.mp (h label List.mem_cons_self)).2.2.2.2 c hc).imp_right .inl
    cases labels with
    | nil =>
      rw [List.intercalate_singleton]
      exact hlabel
    | cons next labels =>
      rw [List.intercalate_cons_cons]
      refine List.forall_mem_append.mpr ⟨List.forall_mem_append.mpr ⟨hlabel, ?_⟩,
        ih fun l hl => h l (List.mem_cons_of_mem _ hl)⟩
      exact fun c hc => .inr (.inr (List.mem_singleton.mp hc))

theorem HostName.chars {name : List Char} (h : HostName name) : ∀ c ∈ name, NameChar c := by
  obtain ⟨labels, -, hlabels, -, rfl | rfl⟩ := h
  · exact nameChar_intercalate hlabels
  · exact List.forall_mem_append.mpr ⟨nameChar_intercalate hlabels,
      fun c hc => .inr (.inr (List.mem_singleton.mp hc))⟩

theorem not_nameChar_colon : ¬ NameChar ':' := by
  unfold NameChar
  decide

theorem not_nameChar_bracket : ¬ NameChar '[' := by
  unfold NameChar
  decide

theorem HostName.colon {name : List Char} (h : HostName name) : ':' ∉ name :=
  fun hmem => not_nameChar_colon (h.chars ':' hmem)

/-! ### Host names -/

/-- What `endpoint` refuses of host names. -/
def refusedName (host : List Char) : Prop :=
  let dns := if host.getLast? = some '.' then host.dropLast else host
  dns = [] ∨ dns.length > 253 ∨ !((dns.splitOn '.').all validLabel)

theorem validLabel_dot {label : List Char} (h : validLabel label = true) : '.' ∉ label := by
  intro hmem
  rcases (validLabel_iff.mp h).2.2.2.2 '.' hmem with hdot | hdot
  · exact absurd hdot (by decide)
  · exact absurd hdot (by decide)

/-- The last character is that of the last label. -/
theorem getLast_intercalate {labels : List (List Char)} (hne : labels ≠ [])
    (h : ∀ label ∈ labels, validLabel label = true) :
    ['.'].intercalate labels ≠ [] ∧ (['.'].intercalate labels).getLast? ≠ some '.' := by
  induction labels with
  | nil => exact absurd rfl hne
  | cons label labels ih =>
    cases labels with
    | nil =>
      rw [List.intercalate_singleton]
      obtain ⟨hnil, -, -, hlast, -⟩ := validLabel_iff.mp (h label List.mem_cons_self)
      refine ⟨hnil, fun hdot => ?_⟩
      rw [hdot] at hlast
      exact absurd hlast (by decide)
    | cons next labels =>
      obtain ⟨hnil, hlast⟩ := ih (List.cons_ne_nil _ _) fun l hl => h l (List.mem_cons_of_mem _ hl)
      rw [List.intercalate_cons_cons]
      refine ⟨fun h => hnil (List.append_eq_nil_iff.mp h).2, ?_⟩
      rw [List.getLast?_append_of_ne_nil _ hnil]
      exact hlast

theorem refusedName_iff {name : List Char} : refusedName name ↔ ¬ HostName name := by
  have hlabels : ∀ dns : List Char, (dns = [] ∨ dns.length > 253
      ∨ (!((dns.splitOn '.').all validLabel)) = true)
        ↔ ¬ (dns ≠ [] ∧ dns.length ≤ 253 ∧ ∀ label ∈ dns.splitOn '.', validLabel label = true) := by
    intro dns
    rw [not_and_or, not_and_or, not_not, not_le, Bool.not_eq_true', ← Bool.not_eq_true,
      List.all_eq_true]
  unfold refusedName HostName
  dsimp only
  rw [hlabels, not_iff_not]
  constructor
  · rintro ⟨-, hlength, hall⟩
    refine ⟨_, List.splitOn_ne_nil _ _, hall, ?_, ?_⟩
    · rw [List.intercalate_splitOn]
      exact hlength
    · rw [List.intercalate_splitOn]
      split
      · next hdot => exact .inr (List.dropLast_append_getLast? _ hdot).symm
      · exact .inl rfl
  · rintro ⟨labels, hne, hall, hlength, rfl | rfl⟩
    · obtain ⟨hnil, hlast⟩ := getLast_intercalate hne hall
      rw [if_neg hlast, List.splitOn_intercalate _ (fun l hl => validLabel_dot (hall l hl)) hne]
      exact ⟨hnil, hlength, hall⟩
    · obtain ⟨hnil, -⟩ := getLast_intercalate hne hall
      rw [if_pos List.getLast?_concat, List.dropLast_concat,
        List.splitOn_intercalate _ (fun l hl => validLabel_dot (hall l hl)) hne]
      exact ⟨hnil, hlength, hall⟩

/-! ### The branches -/

theorem size_eq (name : String) : (utf8 name).length = Text.size name.toList := by
  rw [← Text.utf8ByteSize_eq]
  show name.toUTF8.data.toList.length = name.toUTF8.data.size
  rw [Array.length_toList]

/-- `endpoint` of a text it does not refuse at first sight. -/
def resolved (text : List Char) (defaultPort : UInt16) : Except IoError String :=
  match SocketAddr.parse (.ofList text) with
  | some address => serverAddress address
  | none =>
    match IpAddr.parse (.ofList text) with
    | some ip => serverAddress { ip := ip, port := defaultPort }
    | none =>
      if text.head? = some '[' ∧ text.getLast? = some ']' then
        match Ipv6Addr.parse (.ofList text.tail.dropLast) with
        | none => .error (invalid "Invalid bracketed server address")
        | some ip => serverAddress { ip := .v6 ip, port := defaultPort }
      else
        match endpointPort (.ofList text) defaultPort with
        | .error e => .error e
        | .ok (host, port) =>
          let dns := if host.getLast? = some '.' then host.dropLast else host
          if dns = [] ∨ dns.length > 253 ∨ !((dns.splitOn '.').all validLabel) then
            .error (invalid "Invalid server hostname")
          else .ok (.ofList host ++ ":" ++ toString port)

theorem endpoint_iff {text : List Char} {d : UInt16} {r : String} :
    endpoint (.ofList text) d = .ok r ↔ text ≠ [] ∧ Plain text ∧ resolved text d = .ok r := by
  have hrefused : (String.ofList text = "" ∨ (utf8 (.ofList text)).length > 1024
      ∨ (String.ofList text).toList.any (fun c => isWhitespace c ∨ isControl c) = true)
        ↔ ¬ (text ≠ [] ∧ Plain text) := by
    rw [size_eq, String.toList_ofList, show "" = String.ofList [] from rfl, String.ofList_inj]
    constructor
    · rintro (hnil | hlong | hchar) ⟨hne, hlength, hchars⟩
      · exact hne hnil
      · omega
      · obtain ⟨c, hc, hbad⟩ := List.any_eq_true.mp hchar
        simp [hchars c hc] at hbad
    · intro h
      by_contra hno
      rw [not_or, not_or] at hno
      obtain ⟨hne, hlength, hchars⟩ := hno
      refine h ⟨hne, Nat.not_lt.mp hlength, fun c hc => ?_⟩
      have hc := List.any_eq_false.mp (Bool.eq_false_iff.mpr hchars) c hc
      simpa using hc
  unfold endpoint
  by_cases hplain : text ≠ [] ∧ Plain text
  · rw [if_neg fun h => hrefused.mp h hplain, String.toList_ofList]
    exact ⟨fun h => ⟨hplain.1, hplain.2, h⟩, fun h => h.2.2⟩
  · rw [if_pos (hrefused.mpr hplain)]
    exact ⟨nofun, fun h => absurd ⟨h.1, h.2.1⟩ hplain⟩

theorem serverAddress_iff {address : SocketAddr} {r : String} :
    serverAddress address = .ok r ↔ validAddress address = true ∧ r = address.toText := by
  unfold serverAddress
  split
  · next hvalid =>
    rw [Except.ok.injEq, eq_comm]
    exact ⟨fun h => ⟨hvalid, h⟩, fun h => h.2⟩
  · next hvalid => exact ⟨nofun, fun h => absurd h.1 hvalid⟩

theorem rsplitOnce_append {sep : Char} {before after : List Char} (h : sep ∉ after) :
    rsplitOnce sep (before ++ sep :: after) = some (before, after) := by
  have hlast : (before ++ sep :: after).reverse.takeWhile (· ≠ sep) = after.reverse := by
    rw [List.reverse_append, List.reverse_cons, List.append_assoc,
      List.takeWhile_append_of_pos fun c hc => ?_]
    · simp
    · rw [decide_eq_true_iff]
      rintro rfl
      exact h (List.mem_reverse.mp hc)
  unfold rsplitOnce
  rw [if_pos (List.mem_append_right _ List.mem_cons_self)]
  dsimp only
  rw [hlast, List.reverse_reverse, List.length_reverse, List.length_append, List.length_cons]
  refine congrArg (fun text => some (text, after)) ?_
  exact List.take_left' (by omega)

/-- A text with a separator, around the last of them. -/
theorem exists_last {sep : Char} {text : List Char} (h : sep ∈ text) :
    ∃ before after, text = before ++ sep :: after ∧ sep ∉ after := by
  obtain ⟨after, before, hsplit, hafter⟩ :=
    List.eq_append_cons_of_mem (List.mem_reverse.mpr h)
  refine ⟨before.reverse, after.reverse, ?_, fun hmem => hafter (List.mem_reverse.mp hmem)⟩
  rw [← List.reverse_reverse text, hsplit, List.reverse_append, List.reverse_cons,
    List.append_assoc]
  rfl

theorem endpointPort_iff {text host : List Char} {d : UInt16} {port : Nat} :
    endpointPort (.ofList text) d = .ok (host, port)
      ↔ (':' ∉ text ∧ host = text ∧ port = d.toNat)
        ∨ ∃ digits, text = host ++ ':' :: digits ∧ PortText digits port := by
  unfold endpointPort
  rw [String.toList_ofList]
  -- the last colon splits, and a port has no colon of its own
  by_cases hcolon : ':' ∈ text
  · obtain ⟨before, digits, rfl, hdigits⟩ := exists_last hcolon
    rw [rsplitOnce_append hdigits]
    constructor
    · intro h
      dsimp only at h
      split at h
      · cases h
      · next hall =>
        split at h
        · next hport =>
          cases h
          rw [not_or] at hall
          refine .inr ⟨digits, rfl, ⟨hall.1, ?_, rfl⟩, Nat.pos_of_ne_zero hport.2, hport.1⟩
          simpa [Text.isDigit] using hall.2
        · cases h
    · rintro (⟨hno, -⟩ | ⟨digits', heq, hport⟩)
      · exact absurd hcolon hno
      · have hsplit := @rsplitOnce_append ':' before digits hdigits
        rw [heq, rsplitOnce_append hport.colon] at hsplit
        cases hsplit
        have hall : ¬ (digits = [] ∨ (!digits.all fun c => '0' ≤ c ∧ c ≤ '9') = true) := by
          rw [not_or]
          exact ⟨hport.decimal.ne_nil, by simpa [Text.isDigit] using hport.decimal.isDigit⟩
        have hnumber : digits.foldl (fun value c => value * 10 + (c.toNat - '0'.toNat)) 0 = port :=
          hport.decimal.decimal
        dsimp only
        rw [if_neg hall, hnumber, if_pos ⟨hport.lt, hport.pos.ne'⟩]
  · have hnone : rsplitOnce ':' text = none := if_neg hcolon
    rw [hnone]
    constructor
    · intro h
      cases h
      exact .inl ⟨hcolon, rfl, rfl⟩
    · rintro (⟨-, rfl, rfl⟩ | ⟨digits, rfl, -⟩)
      · rfl
      · exact absurd (List.mem_append_right _ List.mem_cons_self) hcolon

/-! ### Every form is accepted -/

/-- Packets can be sent to an address with a port that is not zero. -/
theorem valid_v4_iff {ip : Ipv4Addr} {port : UInt16} (hport : port ≠ 0) :
    validAddress { ip := .v4 ip, port := port } = true ↔ (Host.v4 ip).Routable := by
  simp [validAddress, hport, Host.Routable]

theorem valid_v6_iff {ip : Ipv6Addr} {port : UInt16} {scope : UInt32} (hport : port ≠ 0) :
    validAddress { ip := .v6 ip, port := port, scopeId := scope } = true
      ↔ (Host.v6 ip scope).Routable := by
  simp [validAddress, hport, Host.Routable]

theorem resolved_socket {text : List Char} {d : UInt16} {address : SocketAddr}
    (h : SocketAddr.parse (.ofList text) = some address) :
    resolved text d = serverAddress address := by
  unfold resolved
  rw [h]

theorem resolved_ip {text : List Char} {d : UInt16} {ip : IpAddr}
    (hsocket : SocketAddr.parse (.ofList text) = none)
    (h : IpAddr.parse (.ofList text) = some ip) :
    resolved text d = serverAddress { ip := ip, port := d } := by
  unfold resolved
  rw [hsocket, h]

theorem resolved_name {text host : List Char} {d : UInt16} {port : Nat}
    (hsocket : SocketAddr.parse (.ofList text) = none) (hip : IpAddr.parse (.ofList text) = none)
    (hbracket : text.head? ≠ some '[') (hport : endpointPort (.ofList text) d = .ok (host, port))
    (hname : HostName host) :
    resolved text d = .ok (.ofList host ++ ":" ++ toString port) := by
  unfold resolved
  rw [hsocket, hip]
  dsimp only
  rw [if_neg fun h => hbracket h.1, hport]
  exact if_neg fun h => refusedName_iff.mp h hname

theorem HostName.head {name : List Char} (h : HostName name) (rest : List Char) :
    (name ++ rest).head? ≠ some '[' := by
  have hne : name ≠ [] := by
    obtain ⟨labels, hlabels, hall, -, rfl | rfl⟩ := h
    · exact (getLast_intercalate hlabels hall).1
    · exact fun hnil => absurd (List.append_eq_nil_iff.mp hnil).2 (List.cons_ne_nil _ _)
  obtain ⟨c, name, rfl⟩ := List.exists_cons_of_ne_nil hne
  intro hhead
  rw [List.cons_append, List.head?_cons, Option.some.injEq] at hhead
  exact not_nameChar_bracket (hhead ▸ h.chars c List.mem_cons_self)

theorem resolved_of_form {text : List Char} {host : Host} {port : Option Nat} {d : UInt16}
    {r : String} (h : Form ZoneText text host port) (hd : port = none → d ≠ 0) :
    resolved text d = .ok r ↔ host.Routable ∧ r = host.withPort (port.getD d.toNat) := by
  cases h with
  | @v4 text ip h =>
    rw [resolved_ip (parse_socket_no_colon h.colon) (parse_ip_iff.mpr (.inl ⟨ip, h, rfl⟩)),
      serverAddress_iff, valid_v4_iff (hd rfl), Option.getD_none, Host.withPort,
      UInt16.ofNat_toNat]
  | @v4Port text digits ip port h hport =>
    have hparse : SocketAddr.parse (.ofList (text ++ ':' :: digits))
        = some { ip := .v4 ip, port := .ofNat port } :=
      parse_socket_iff.mpr (.inl (readSocketAddrV4_iff.mpr
        ⟨text, digits, ip, port, rfl, h, hport.decimal, hport.lt, rfl⟩))
    rw [resolved_socket hparse, serverAddress_iff, valid_v4_iff hport.ne_zero]
    rfl
  | @v6 text ip h =>
    rw [resolved_ip (parse_socket_ipv6 h) (parse_ip_iff.mpr (.inr ⟨ip, h, rfl⟩)),
      serverAddress_iff, valid_v6_iff (hd rfl), Option.getD_none, Host.withPort,
      UInt16.ofNat_toNat]
  | @bracketed text ip h =>
    have hresolved : resolved ('[' :: (text ++ [']'])) d
        = serverAddress { ip := .v6 ip, port := d } := by
      -- what stands between the brackets
      have hparse : Ipv6Addr.parse (.ofList ('[' :: (text ++ [']'])).tail.dropLast) = some ip := by
        rw [List.tail_cons, List.dropLast_concat]
        exact parse_ipv6_iff.mpr h
      unfold resolved
      rw [parse_socket_bracketed, parse_ip_bracket]
      dsimp only
      rw [if_pos ⟨rfl, by rw [← List.cons_append, List.getLast?_concat]⟩, hparse]
    rw [hresolved, serverAddress_iff, valid_v6_iff (hd rfl), Option.getD_none, Host.withPort,
      UInt16.ofNat_toNat]
  | @bracketedPort text zone digits ip scope port h hzone hport =>
    have hparse : SocketAddr.parse (.ofList ('[' :: (text ++ (zone ++ ']' :: ':' :: digits))))
        = some { ip := .v6 ip, port := .ofNat port, scopeId := .ofNat scope } :=
      parse_socket_iff.mpr (.inr (readSocketAddrV6_iff.mpr
        ⟨text, zone, digits, ip, scope, port, rfl, h, hzone, hport.decimal, hport.lt, rfl⟩))
    rw [resolved_socket hparse, serverAddress_iff, valid_v6_iff hport.ne_zero]
    rfl
  | dns h hv4 =>
    have hhead := h.head []
    rw [List.append_nil] at hhead
    rw [resolved_name (parse_socket_no_colon h.colon) (parse_ip_no_colon h.colon hv4) hhead
      (endpointPort_iff.mpr (.inl ⟨h.colon, rfl, rfl⟩)) h, Except.ok.injEq, eq_comm]
    exact ⟨fun h => ⟨trivial, h⟩, fun h => h.2⟩
  | @dnsPort text digits port h hv4 hport =>
    have hsocket : SocketAddr.parse (.ofList (text ++ ':' :: digits)) = none := by
      rw [Option.eq_none_iff_forall_ne_some]
      intro address hparse
      obtain ⟨ip, hip⟩ := parse_socket_one_colon h.colon hport.colon hparse
      exact hv4 ip hip
    rw [resolved_name hsocket (parse_ip_one_colon h.colon hport.colon) (h.head _)
      (endpointPort_iff.mpr (.inr ⟨digits, rfl, hport⟩)) h, Except.ok.injEq, eq_comm]
    exact ⟨fun h => ⟨trivial, h⟩, fun h => h.2⟩

/-! ### Only the forms are -/

theorem port_of_valid {address : SocketAddr} {port : Nat} (h : validAddress address = true)
    (hport : address.port = .ofNat port) : 0 < port := by
  have hne : address.port ≠ 0 := by
    simp only [validAddress, decide_eq_true_eq] at h
    exact h.1
  refine Nat.pos_of_ne_zero fun hzero => hne ?_
  rw [hport, hzero]
  rfl

theorem exists_bracketed {text : List Char} (hhead : text.head? = some '[')
    (hlast : text.getLast? = some ']') : ∃ inner, text = '[' :: (inner ++ [']']) := by
  obtain ⟨rest, rfl⟩ := List.getLast?_eq_some_iff.mp hlast
  cases rest with
  | nil => exact absurd hhead (by decide)
  | cons c inner =>
    rw [List.cons_append, List.head?_cons, Option.some.injEq] at hhead
    exact ⟨inner, by rw [hhead, List.cons_append]⟩

theorem form_of_resolved {text : List Char} {d : UInt16} {r : String}
    (h : resolved text d = .ok r) : ∃ host port, Form ZoneText text host port := by
  unfold resolved at h
  -- the attempts of the source in their order: socket, address, brackets, name
  rcases hsocket : SocketAddr.parse (.ofList text) with - | address
  · rw [hsocket] at h
    dsimp only at h
    rcases hip : IpAddr.parse (.ofList text) with - | ip
    · rw [hip] at h
      dsimp only at h
      split at h
      · next hbracket =>
        obtain ⟨inner, rfl⟩ := exists_bracketed hbracket.1 hbracket.2
        rw [List.tail_cons, List.dropLast_concat] at h
        rcases hparse : Ipv6Addr.parse (.ofList inner) with - | ip
        · rw [hparse] at h
          cases h
        · exact ⟨_, _, .bracketed (parse_ipv6_iff.mp hparse)⟩
      · rcases hport : endpointPort (.ofList text) d with e | ⟨host, port⟩
        · rw [hport] at h
          cases h
        · rw [hport] at h
          dsimp only at h
          by_cases hname : HostName host
          · rcases endpointPort_iff.mp hport with ⟨-, rfl, rfl⟩ | ⟨digits, rfl, hdigits⟩
            · refine ⟨_, _, .dns hname fun ip hv4 => ?_⟩
              rw [parse_ip_iff.mpr (.inl ⟨ip, hv4, rfl⟩)] at hip
              cases hip
            · refine ⟨_, _, .dnsPort hname (fun ip hv4 => ?_) hdigits⟩
              rw [parse_socket_iff.mpr (.inl (readSocketAddrV4_iff.mpr
                ⟨host, digits, ip, port, rfl, hv4, hdigits.decimal, hdigits.lt, rfl⟩))] at hsocket
              cases hsocket
          · have hrefused := refusedName_iff.mpr hname
            unfold refusedName at hrefused
            dsimp only at hrefused
            rw [if_pos hrefused] at h
            cases h
    · rcases parse_ip_iff.mp hip with ⟨v4, hv4, -⟩ | ⟨v6, hv6, -⟩
      · exact ⟨_, _, .v4 hv4⟩
      · exact ⟨_, _, .v6 hv6⟩
  · rw [hsocket] at h
    have hvalid := (serverAddress_iff.mp h).1
    rcases parse_socket_iff.mp hsocket with hv4 | hv6
    · obtain ⟨host, digits, ip, port, rfl, hip, hdigits, hlt, rfl⟩ := readSocketAddrV4_iff.mp hv4
      exact ⟨_, _, .v4Port hip ⟨hdigits, port_of_valid hvalid rfl, hlt⟩⟩
    · obtain ⟨host, zone, digits, ip, scope, port, rfl, hip, hzone, hdigits, hlt, rfl⟩ :=
        readSocketAddrV6_iff.mp hv6
      exact ⟨_, _, .bracketedPort hip hzone ⟨hdigits, port_of_valid hvalid rfl, hlt⟩⟩

/-! ### Short texts -/

/-- A character of ASCII that is seen. -/
def Visible (c : Char) : Prop := 0x20 < c.toNat ∧ c.toNat < 0x7f

theorem visible_alphanumeric {c : Char} (h : isAsciiAlphanumeric c = true) : Visible c := by
  have hrange : ∀ {low high : Char}, low ≤ c ∧ c ≤ high → low.toNat ≤ c.toNat ∧ c.toNat ≤ high.toNat :=
    fun h => ⟨h.1, h.2⟩
  unfold isAsciiAlphanumeric at h
  rw [decide_eq_true_iff] at h
  rcases h with hdigit | hlower | hupper
  · have hle := hrange hdigit
    exact ⟨Nat.lt_of_lt_of_le (by decide) hle.1, Nat.lt_of_le_of_lt hle.2 (by decide)⟩
  · have hle := hrange hlower
    exact ⟨Nat.lt_of_lt_of_le (by decide) hle.1, Nat.lt_of_le_of_lt hle.2 (by decide)⟩
  · have hle := hrange hupper
    exact ⟨Nat.lt_of_lt_of_le (by decide) hle.1, Nat.lt_of_le_of_lt hle.2 (by decide)⟩

theorem alphanumeric_of_toDigit {radix : Nat} {c : Char} (h : (toDigit radix c).isSome = true) :
    isAsciiAlphanumeric c = true := by
  unfold isAsciiAlphanumeric
  rw [decide_eq_true_iff]
  by_contra hno
  rw [not_or, not_or] at hno
  unfold toDigit at h
  dsimp only at h
  rw [if_neg hno.1, if_neg hno.2.1, if_neg hno.2.2] at h
  cases h

theorem alphanumeric_of_isDigit {c : Char} (h : Text.isDigit c = true) :
    isAsciiAlphanumeric c = true := alphanumeric_of_toDigit (isDigit_iff.mpr h)

theorem Form.chars {Zone : List Char → Nat → Prop} {text : List Char} {host : Host}
    {port : Option Nat} {P : Char → Prop} (h : Form Zone text host port)
    (hname : ∀ c, NameChar c → P c) (hcolon : P ':') (hopen : P '[') (hclose : P ']')
    (hzone : ∀ zone scope, Zone zone scope → ∀ c ∈ zone, P c) : ∀ c ∈ text, P c := by
  have hdigits : ∀ {digits port}, PortText digits port → ∀ c ∈ digits, P c := fun hport c hc =>
    hname c (.inl (alphanumeric_of_isDigit (hport.decimal.isDigit c hc)))
  have hgrouped : ∀ c, Grouped c → P c := by
    rintro c (rfl | rfl | hdigit)
    · exact hcolon
    · exact hname '.' (.inr (.inr rfl))
    · exact hname c (.inl (alphanumeric_of_toDigit hdigit))
  have hported : ∀ {text digits port}, (∀ c ∈ text, P c) → PortText digits port →
      ∀ c ∈ text ++ ':' :: digits, P c := fun htext hport =>
    List.forall_mem_append.mpr ⟨htext, List.forall_mem_cons.mpr ⟨hcolon, hdigits hport⟩⟩
  have hv4 : ∀ {text ip}, Ipv4Text text ip → ∀ c ∈ text, P c :=
    fun h c hc => hgrouped c (h.dotted c hc).grouped
  have hv6 : ∀ {text ip}, Ipv6Text text ip → ∀ c ∈ text, P c :=
    fun h c hc => hgrouped c (h.grouped c hc)
  cases h with
  | v4 h => exact hv4 h
  | v4Port h hport => exact hported (hv4 h) hport
  | v6 h => exact hv6 h
  | bracketed h =>
    exact List.forall_mem_cons.mpr ⟨hopen, List.forall_mem_append.mpr ⟨hv6 h,
      fun c hc => List.mem_singleton.mp hc ▸ hclose⟩⟩
  | bracketedPort h hz hport =>
    exact List.forall_mem_cons.mpr ⟨hopen, List.forall_mem_append.mpr ⟨hv6 h,
      List.forall_mem_append.mpr ⟨hzone _ _ hz, List.forall_mem_cons.mpr ⟨hclose,
        List.forall_mem_cons.mpr ⟨hcolon, hdigits hport⟩⟩⟩⟩⟩
  | dns h hno => exact fun c hc => hname c (h.chars c hc)
  | dnsPort h hno hport => exact hported (fun c hc => hname c (h.chars c hc)) hport

theorem Form.visible {text : List Char} {host : Host} {port : Option Nat}
    (h : Form ZoneText text host port) : ∀ c ∈ text, Visible c := by
  have halpha : ∀ c, NameChar c → Visible c := by
    rintro c (halpha | rfl | rfl)
    · exact visible_alphanumeric halpha
    · exact ⟨by decide, by decide⟩
    · exact ⟨by decide, by decide⟩
  refine h.chars halpha ⟨by decide, by decide⟩ ⟨by decide, by decide⟩ ⟨by decide, by decide⟩ ?_
  rintro zone scope (⟨rfl, -⟩ | ⟨digits, rfl, hdigits, -⟩)
  · exact nofun
  · exact List.forall_mem_cons.mpr ⟨⟨by decide, by decide⟩, fun c hc =>
      visible_alphanumeric (alphanumeric_of_isDigit (hdigits.isDigit c hc))⟩

theorem Visible.plain {c : Char} (h : Visible c) : isWhitespace c = false ∧ isControl c = false := by
  obtain ⟨hlow, hhigh⟩ := h
  unfold isWhitespace isControl
  constructor
  · rw [decide_eq_false_iff_not]
    simp only [List.mem_cons, List.not_mem_nil, or_false]
    omega
  · rw [decide_eq_false_iff_not]
    omega

/-- A name of a form is refused at first sight only if it is too long. -/
theorem Form.plain {text : List Char} {host : Host} {port : Option Nat}
    (h : Form ZoneText text host port) (hlength : text.length ≤ 1024) : Plain text := by
  have hvisible := h.visible
  have hascii : ∀ c ∈ text, c.toNat < 128 := fun c hc => (hvisible c hc).2.trans (by decide)
  refine ⟨?_, fun c hc => (hvisible c hc).plain⟩
  rwa [Text.size_eq_length_iff.mpr hascii]

/-- A zone may be left out. -/
theorem Form.withZone {text : List Char} {host : Host} {port : Option Nat}
    (h : Form NoZone text host port) : Form ZoneText text host port := by
  cases h with
  | v4 h => exact .v4 h
  | v4Port h hport => exact .v4Port h hport
  | v6 h => exact .v6 h
  | bracketed h => exact .bracketed h
  | bracketedPort h hzone hport => exact .bracketedPort h (.inl hzone) hport
  | dns h hv4 => exact .dns h hv4
  | dnsPort h hv4 hport => exact .dnsPort h hv4 hport

/-! ### The result -/

theorem portText_toString {port : Nat} (hpos : 0 < port) (hlt : port < 2 ^ 16) :
    PortText (toString port).toList port := ⟨decimal_toString port, hpos, hlt⟩

theorem length_port_le {port : Nat} (hlt : port < 2 ^ 16) : (toString port).toList.length ≤ 5 :=
  length_toString_le (by omega) (by decide)

/-- A host with a port, as it is printed, is of the form with a port. -/
structure Printed (host : Host) (port : Nat) : Prop where
  form : Form ZoneText (host.withPort port).toList host (some port)
  length : (host.withPort port).toList.length ≤ 1024

theorem printed_v4 (ip : Ipv4Addr) {port : Nat} (hpos : 0 < port) (hlt : port < 2 ^ 16) :
    Printed (.v4 ip) port := by
  have htext : (Host.v4 ip).withPort port = ip.toText ++ ":" ++ toString port := by
    show ip.toText ++ ":" ++ toString (UInt16.ofNat port).toNat = _
    rw [UInt16.toNat_ofNat_of_lt' hlt]
  have hlist : ((Host.v4 ip).withPort port).toList
      = ip.toText.toList ++ ':' :: (toString port).toList := by
    rw [htext, String.toList_append, String.toList_append, List.append_assoc]
    rfl
  have hhost := ip.length_toText_le
  have hport := length_port_le hlt
  refine ⟨?_, ?_⟩
  · rw [hlist]
    exact .v4Port (ipv4Text_toText ip) (portText_toString hpos hlt)
  · rw [hlist, List.length_append, List.length_cons]
    omega

theorem printed_v6 (ip : Ipv6Addr) (scope : UInt32) {port : Nat} (hpos : 0 < port)
    (hlt : port < 2 ^ 16) : Printed (.v6 ip scope) port := by
  obtain ⟨zone, htext, hzone, hlength⟩ : ∃ zone,
      (if scope = 0 then "" else "%" ++ toString scope.toNat).toList = zone
        ∧ ZoneText zone scope.toNat ∧ zone.length ≤ 11 := by
    refine ⟨_, rfl, ?_⟩
    have hscope : scope.toNat < 2 ^ 32 := scope.toNat_lt
    split
    · next hzero => exact ⟨.inl ⟨rfl, by rw [hzero]; rfl⟩, by decide⟩
    · rw [String.toList_append]
      exact ⟨.inr ⟨_, rfl, decimal_toString _, hscope⟩,
        Nat.succ_le_succ (length_toString_le (by omega) (by decide))⟩
  have hlist : ((Host.v6 ip scope).withPort port).toList
      = '[' :: (ip.toText.toList ++ (zone ++ ']' :: ':' :: (toString port).toList)) := by
    show ("[" ++ ip.toText ++ (if scope = 0 then "" else "%" ++ toString scope.toNat) ++ "]:"
      ++ toString (UInt16.ofNat port).toNat).toList = _
    rw [UInt16.toNat_ofNat_of_lt' hlt]
    simp only [String.toList_append, htext, List.append_assoc]
    rfl
  have hhost := ip.length_toText_le
  have hport := length_port_le hlt
  refine ⟨?_, ?_⟩
  · rw [hlist]
    have hform := @Form.bracketedPort ZoneText _ _ _ _ _ _ (ipv6Text_toText ip) hzone
      (portText_toString hpos hlt)
    rwa [UInt32.ofNat_toNat] at hform
  · rw [hlist]
    simp only [List.length_cons, List.length_append]
    omega

theorem HostName.length_le {name : List Char} (h : HostName name) : name.length ≤ 254 := by
  obtain ⟨labels, -, -, hlength, rfl | rfl⟩ := h
  · omega
  · rw [List.length_append, List.length_singleton]
    omega

theorem printed_dns {name : List Char} (h : HostName name) (hv4 : ∀ ip, ¬ Ipv4Text name ip)
    {port : Nat} (hpos : 0 < port) (hlt : port < 2 ^ 16) : Printed (.dns name) port := by
  have hlist : ((Host.dns name).withPort port).toList = name ++ ':' :: (toString port).toList := by
    show (String.ofList name ++ ":" ++ toString port).toList = _
    rw [String.toList_append, String.toList_append, String.toList_ofList, List.append_assoc]
    rfl
  have hname := h.length_le
  have hport := length_port_le hlt
  refine ⟨?_, ?_⟩
  · rw [hlist]
    exact .dnsPort h hv4 (portText_toString hpos hlt)
  · rw [hlist, List.length_append, List.length_cons]
    omega

/-- What comes out for a name of a form. -/
theorem Form.printed {text : List Char} {host : Host} {port : Option Nat}
    (h : Form ZoneText text host port) {d : UInt16} (hd : d ≠ 0) :
    Printed host (port.getD d.toNat) := by
  have hdefault : 0 < d.toNat ∧ d.toNat < 2 ^ 16 :=
    ⟨Nat.pos_of_ne_zero fun hzero => hd (UInt16.toNat_inj.mp hzero), d.toNat_lt⟩
  cases h with
  | v4 h => exact printed_v4 _ hdefault.1 hdefault.2
  | v4Port h hport => exact printed_v4 _ hport.pos hport.lt
  | v6 h => exact printed_v6 _ _ hdefault.1 hdefault.2
  | bracketed h => exact printed_v6 _ _ hdefault.1 hdefault.2
  | bracketedPort h hzone hport => exact printed_v6 _ _ hport.pos hport.lt
  | dns h hv4 => exact printed_dns h hv4 hdefault.1 hdefault.2
  | dnsPort h hv4 hport => exact printed_dns h hv4 hport.pos hport.lt

theorem Form.ne_nil {text : List Char} {host : Host} {port : Option Nat}
    (h : Form ZoneText text host port) : text ≠ [] := by
  cases h with
  | v4 h => exact h.ne_nil
  | v6 h =>
    rintro rfl
    cases h
  | dns h hv4 =>
    rintro rfl
    obtain ⟨labels, hne, hall, -, hnil | hnil⟩ := h
    · exact (getLast_intercalate hne hall).1 hnil.symm
    · exact List.append_ne_nil_of_right_ne_nil _ (List.cons_ne_nil _ _) hnil.symm
  | bracketed h => exact List.cons_ne_nil _ _
  | bracketedPort h hzone hport => exact List.cons_ne_nil _ _
  | v4Port h hport => exact List.append_ne_nil_of_right_ne_nil _ (List.cons_ne_nil _ _)
  | dnsPort h hv4 hport => exact List.append_ne_nil_of_right_ne_nil _ (List.cons_ne_nil _ _)

theorem endpoint_of_form {text : List Char} {host : Host} {port : Option Nat} {d : UInt16}
    {r : String} (h : Form ZoneText text host port) (hd : port = none → d ≠ 0) :
    endpoint (.ofList text) d = .ok r
      ↔ Plain text ∧ host.Routable ∧ r = host.withPort (port.getD d.toNat) := by
  rw [endpoint_iff, resolved_of_form h hd]
  exact ⟨fun hok => hok.2, fun hok => ⟨h.ne_nil, hok⟩⟩

/-- What comes out is accepted again, with any default. -/
theorem endpoint_withPort {host : Host} {port : Nat} (h : Printed host port)
    (hroutable : host.Routable) (d : UInt16) :
    endpoint (host.withPort port) d = .ok (host.withPort port) := by
  have hagain := @endpoint_of_form _ _ _ d (host.withPort port) h.form nofun
  rw [String.ofList_toList] at hagain
  exact hagain.mpr ⟨h.form.plain h.length, hroutable, rfl⟩

theorem endpoint_ok_iff {name r : String} {host : Host} {port : Option Nat} {d : UInt16}
    (hd : d ≠ 0) (h : Form ZoneText name.toList host port) :
    endpoint name d = .ok r
      ↔ Plain name.toList ∧ host.Routable ∧ r = host.withPort (port.getD d.toNat) := by
  have hiff := @endpoint_of_form _ _ _ d r h fun _ => hd
  rwa [String.ofList_toList] at hiff

/-- A name that is accepted is of a form. -/
theorem form_of_endpoint {name r : String} {d : UInt16} (h : endpoint name d = .ok r) :
    ∃ host port, Form ZoneText name.toList host port := by
  rw [← String.ofList_toList (s := name), endpoint_iff] at h
  exact form_of_resolved h.2.2

theorem endpoint_again {name r : String} {d : UInt16} (hd : d ≠ 0) (h : endpoint name d = .ok r)
    (d' : UInt16) : endpoint r d' = .ok r := by
  obtain ⟨host, port, hhost⟩ := form_of_endpoint h
  obtain ⟨-, hroutable, rfl⟩ := (endpoint_ok_iff hd hhost).mp h
  exact endpoint_withPort (hhost.printed hd) hroutable d'

/-- The relay that was named is the one that is dialled. -/
theorem relayName_dialed {config : RendezvousConfig} {advertised relay : String}
    (h : relayName config advertised = .ok relay) : endpoint relay 21117 = .ok relay :=
  endpoint_again (by decide) h 21117

/-- `endpoint` accepts the short names of the grammar of hosts that can be reached.  What
comes out names the same host, with the port that was given or else the default one, and
nothing changes when it is given to `endpoint` again. -/
theorem endpoint_grammar (name : String) {d : UInt16} (hd : d ≠ 0) :
    (∀ r, endpoint name d = .ok r ↔ Plain name.toList ∧ ∃ host port,
        Form ZoneText name.toList host port ∧ host.Routable
          ∧ r = host.withPort (port.getD d.toNat))
      ∧ ∀ r, endpoint name d = .ok r →
        (∀ host port, Form ZoneText name.toList host port →
          Form ZoneText r.toList host (some (port.getD d.toNat)))
        ∧ ∀ d', endpoint r d' = .ok r := by
  refine ⟨fun r => ⟨fun hok => ?_, ?_⟩, fun r hok => ⟨fun host port hhost => ?_, ?_⟩⟩
  · obtain ⟨host, port, hhost⟩ := form_of_endpoint hok
    obtain ⟨hplain, hroutable, hr⟩ := (endpoint_ok_iff hd hhost).mp hok
    exact ⟨hplain, host, port, hhost, hroutable, hr⟩
  · rintro ⟨hplain, host, port, hhost, hroutable, hr⟩
    exact (endpoint_ok_iff hd hhost).mpr ⟨hplain, hroutable, hr⟩
  · rw [((endpoint_ok_iff hd hhost).mp hok).2.2]
    exact (hhost.printed hd).form
  · exact endpoint_again hd hok

theorem endpoint_grammar_name :
    endpoint "relay.example." 21117 = .ok "relay.example.:21117"
      ∧ endpoint "relay.example.:21117" 1 = .ok "relay.example.:21117" :=
  have hok : endpoint "relay.example." 21117 = .ok "relay.example.:21117" := by rfl
  ⟨hok, (((endpoint_grammar "relay.example." (by decide)).2 _ hok).2) 1⟩

/-- The address of a zone is accepted, which is none of the documented grammar. -/
theorem endpoint_zone :
    ¬ ∀ (name r : String) (d : UInt16), d ≠ 0 → endpoint name d = .ok r →
      ∃ host port, Form NoZone name.toList host port := by
  intro h
  obtain ⟨host, port, hform⟩ := h "[fe80::1%5]:80" "[fe80::1%5]:80" 21116 (by decide)
    (by decide +kernel)
  have hno := hform.chars (P := (· ≠ '%')) (fun c hc => ?_) (by decide) (by decide) (by decide)
    (fun zone scope hz c hc => ?_)
  · exact hno '%' (by decide) rfl
  · rintro rfl
    rcases hc with halpha | hdash | hdot
    · exact absurd halpha (by decide)
    · exact absurd hdash (by decide)
    · exact absurd hdot (by decide)
  · rw [hz.1] at hc
    cases hc

end RdEngine
