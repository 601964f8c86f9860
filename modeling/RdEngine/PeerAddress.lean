/-
RdEngine/PeerAddress.lean

Mangled peer addresses: `AddrMangle::encode` (`hbb_common`), and what the rendezvous
client makes of them (`peerAddress`).

An IPv4 address goes into one number with the microseconds of the clock: the address
and the clock added, the clock, and the port with the low half of the clock added, in
fields that do not overlap.  So a decoder that takes the clock out again recovers the
address whatever the clock said (`peer_addresses`).  IPv6 addresses are written out,
except those that `Ipv6Addr::to_ipv4` converts, which come back as IPv4 addresses.

The subtractions of the decoder are unchecked.  `decodeChecked` is the decoder that is
undefined where one underflows; behind the checks of `peerAddress` none does.
-/
import RdEngine.Rendezvous
import Mathlib.Data.List.TakeWhile

namespace RdEngine

/-! ### Conversions of `std::net` -/

def IpAddr.isLoopback : IpAddr → Bool
  | .v4 ip => ip.octets.get 0 == 127
  | .v6 ip => ip.segments == #v[0, 0, 0, 0, 0, 0, 0, 1]

namespace Ipv6Addr

/-- `octets`. -/
def octets (ip : Ipv6Addr) : Bytes := ip.segments.toList.flatMap fun s => Words.be 2 s.toNat

/-- `::ffff:a.b.c.d`. -/
def isMapped (ip : Ipv6Addr) : Bool := ip.segments.toList.take 6 == [0, 0, 0, 0, 0, 0xffff]

/-- `to_ipv4`: of a mapped address, and of a compatible one (`::a.b.c.d`). -/
def toIpv4 (ip : Ipv6Addr) : Option Ipv4Addr :=
  if ip.segments.toList.take 5 = [0, 0, 0, 0, 0] ∧ (ip.segments[5] = 0 ∨ ip.segments[5] = 0xffff) then
    let high (s : UInt16) : UInt8 := .ofNat (s.toNat / 2 ^ 8)
    let low (s : UInt16) : UInt8 := .ofNat s.toNat
    some ⟨#v[high ip.segments[6], low ip.segments[6], high ip.segments[7], low ip.segments[7]]⟩
  else none

end Ipv6Addr

/-! ### Encoding -/

/-- `try_into_v4`. -/
def tryIntoV4 (address : SocketAddr) : SocketAddr :=
  match address.ip with
  | .v6 ip =>
    if !address.ip.isLoopback then
      match ip.toIpv4 with
      | some v4 => { ip := .v4 v4, port := address.port }
      | none => address
    else address
  | .v4 _ => address

namespace AddrMangle

/-- The number of an IPv4 address. -/
def mangled (ip : Ipv4Addr) (port : UInt16) (micros : Nat) : Nat :=
  let tm := micros % 2 ^ 32
  ((Words.ofLe ip.octets.toList + tm) <<< 49) ||| (tm <<< 17) ||| (port.toNat + tm % 2 ^ 16)

/-- The bytes without the zeros at their end. -/
def unpadded (bytes : Bytes) : Bytes :=
  let padding := (bytes.reverse.takeWhile (· == 0)).length
  bytes.take (bytes.length - padding)

/-- `encode`, at some time in microseconds. -/
def encode (address : SocketAddr) (micros : Nat) : Bytes :=
  let address := tryIntoV4 address
  match address.ip with
  | .v4 ip => unpadded (Words.le 16 (mangled ip address.port micros))
  | .v6 ip => ip.octets ++ Words.le 2 address.port.toNat

/-! ### Decoding without underflow -/

/-- A subtraction that panics where it underflows. -/
def checkedSub (m n : Nat) : Option Nat := if n ≤ m then some (m - n) else none

/-- `decode`, where it is defined. -/
def decodeChecked (bytes : Bytes) : Option SocketAddr :=
  if bytes.length > 16 then some (decode bytes)
  else do
    let number := Words.ofLe bytes
    let tm := (number >>> 17) % 2 ^ 32
    let ip ← checkedSub (number >>> 49) tm
    let port ← checkedSub (number % 2 ^ 24) (tm % 2 ^ 16)
    let octet (i : Nat) : UInt8 := .ofNat (ip % 2 ^ 32 / 2 ^ (8 * i))
    return { ip := .v4 ⟨.ofFn fun i => octet i⟩, port := .ofNat port }

end AddrMangle

/-- `peer_address` over that decoder. -/
def peerAddressChecked (bytes : Bytes) : Option (Except IoError SocketAddr) :=
  if bytes = [] ∨ (bytes.length > 16 ∧ bytes.length ≠ 18) ∨
      (bytes.length ≤ 16 ∧ mangledOutOfRange bytes) then
    some (.error (invalid "Invalid mangled address"))
  else do
    let address ← AddrMangle.decodeChecked bytes
    return if validAddress address then .ok address else .error (invalid "Invalid peer route")

/-! ### The checks -/

theorem checkedSub_of_le {m n : Nat} (h : n ≤ m) : AddrMangle.checkedSub m n = some (m - n) :=
  if_pos h

/-- A subtraction that does not underflow is the one that wraps. -/
theorem sub_wraps {m n : Nat} (h : n ≤ m) (hm : m < 2 ^ 128) :
    (m + 2 ^ 128 - n) % 2 ^ 128 = m - n := by
  omega

theorem ofLe_lt_128 {bytes : Bytes} (h : bytes.length ≤ 16) : Words.ofLe bytes < 2 ^ 128 :=
  (Words.ofLe_lt bytes).trans_le
    ((Nat.pow_le_pow_right (by decide) h).trans (by decide))

/-- What is in range can be decoded without an underflow. -/
theorem decodeChecked_eq {bytes : Bytes}
    (h : ¬ (bytes.length ≤ 16 ∧ mangledOutOfRange bytes)) :
    AddrMangle.decodeChecked bytes = some (AddrMangle.decode bytes) := by
  unfold AddrMangle.decodeChecked
  split
  · rfl
  · next hlen =>
    have hrange : ¬ mangledOutOfRange bytes := fun hout => h ⟨by omega, hout⟩
    have hnumber := @ofLe_lt_128 bytes (by omega)
    unfold mangledOutOfRange at hrange
    simp only [decide_eq_true_eq, not_or, not_lt, not_le] at hrange
    obtain ⟨htm, hsalt, -, -, -⟩ := hrange
    have hshift : Words.ofLe bytes >>> 49 < 2 ^ 128 := by
      rw [Nat.shiftRight_eq_div_pow]
      omega
    have hwide : (Words.ofLe bytes >>> 17) % 2 ^ 32 % 2 ^ 16 ≤ Words.ofLe bytes % 2 ^ 24 := by
      omega
    have hport : Words.ofLe bytes % 2 ^ 24 < 2 ^ 128 := by omega
    unfold AddrMangle.decode
    dsimp only
    rw [if_neg hlen, checkedSub_of_le htm, checkedSub_of_le hwide, sub_wraps htm hshift,
      sub_wraps hwide hport]
    rw [UInt16.ofNat_mod_size]
    rfl

theorem peerAddressChecked_eq (bytes : Bytes) :
    peerAddressChecked bytes = some (peerAddress bytes) := by
  unfold peerAddressChecked peerAddress
  split
  · rfl
  · next h =>
    rw [decodeChecked_eq fun hout => h (.inr (.inr hout))]
    rfl

theorem validAddress_iff {address : SocketAddr} : validAddress address = true ↔
    address.port ≠ 0 ∧ address.ip.isUnspecified = false ∧ address.ip.isMulticast = false := by
  simp [validAddress]

theorem valid_of_peerAddress {bytes : Bytes} {address : SocketAddr}
    (h : peerAddress bytes = .ok address) : validAddress address = true := by
  unfold peerAddress at h
  split at h
  · cases h
  · dsimp only at h
    split at h
    · next hvalid =>
      cases h
      exact hvalid
    · cases h

/-! ### Round trips -/

theorem ofLe_zeros (n : Nat) : Words.ofLe (List.replicate n 0) = 0 := by
  induction n with
  | zero => rfl
  | succ n ih =>
    rw [List.replicate_succ, Words.ofLe, ih]
    rfl

theorem ofLe_append_zeros (bytes : Bytes) (n : Nat) :
    Words.ofLe (bytes ++ List.replicate n 0) = Words.ofLe bytes := by
  induction bytes with
  | nil => exact ofLe_zeros n
  | cons b bytes ih => rw [List.cons_append, Words.ofLe, Words.ofLe, ih]

/-- What is cut off are zeros. -/
theorem unpadded_append (bytes : Bytes) :
    ∃ n, bytes = AddrMangle.unpadded bytes ++ List.replicate n 0 := by
  have hzeros : bytes.reverse.takeWhile (· == 0) =
      List.replicate (bytes.reverse.takeWhile (· == 0)).length 0 :=
    List.eq_replicate_of_mem fun b hb => by simpa using List.mem_takeWhile_imp hb
  have hsplit : bytes = (bytes.reverse.dropWhile (· == 0)).reverse ++
      List.replicate (bytes.reverse.takeWhile (· == 0)).length 0 := by
    rw [← List.reverse_inj, List.reverse_append, List.reverse_replicate, List.reverse_reverse,
      ← hzeros, List.takeWhile_append_dropWhile]
  have hlen := congrArg List.length hsplit
  rw [List.length_append, List.length_replicate] at hlen
  have hcut : AddrMangle.unpadded bytes = (bytes.reverse.dropWhile (· == 0)).reverse := by
    have htake := congrArg (List.take (bytes.reverse.dropWhile (· == 0)).reverse.length) hsplit
    rw [List.take_left] at htake
    rw [← htake]
    exact congrArg (bytes.take ·) (by omega)
  exact ⟨_, hcut.symm ▸ hsplit⟩

theorem ofLe_unpadded (bytes : Bytes) :
    Words.ofLe (AddrMangle.unpadded bytes) = Words.ofLe bytes := by
  obtain ⟨n, hn⟩ := unpadded_append bytes
  conv_rhs => rw [hn]
  exact (ofLe_append_zeros _ n).symm

theorem length_unpadded_le (bytes : Bytes) : (AddrMangle.unpadded bytes).length ≤ bytes.length := by
  unfold AddrMangle.unpadded
  rw [List.length_take]
  exact min_le_right _ _

/-- The fields of the number of an address do not overlap. -/
theorem mangled_fields {ip port tm : Nat} (hport : port < 2 ^ 16) (htm : tm < 2 ^ 32) :
    ((ip + tm) <<< 49) ||| (tm <<< 17) ||| (port + tm % 2 ^ 16) =
      (ip + tm) * 2 ^ 49 + tm * 2 ^ 17 + (port + tm % 2 ^ 16) := by
  have hsalted : port + tm % 2 ^ 16 < 2 ^ 17 := by omega
  have hlow : tm * 2 ^ 17 + (port + tm % 2 ^ 16) < 2 ^ 49 := by omega
  rw [Nat.or_assoc, ← Nat.shiftLeft_add_eq_or_of_lt hsalted tm, Nat.shiftLeft_eq tm,
    ← Nat.shiftLeft_add_eq_or_of_lt hlow (ip + tm), Nat.shiftLeft_eq]
  omega

/-- The octets of an IPv4 address, from its number. -/
theorem octets_ofLe (ip : Ipv4Addr) :
    (Vector.ofFn fun i : Fin 4 => UInt8.ofNat (Words.ofLe ip.octets.toList / 2 ^ (8 * i.val))) =
      ip.octets := by
  have hlist : ip.octets.toList = [ip.octets[0], ip.octets[1], ip.octets[2], ip.octets[3]] := by
    apply List.ext_getElem
    · simp
    · intro i hi hi'
      simp only [List.length_cons, List.length_nil] at hi'
      have hcases : i = 0 ∨ i = 1 ∨ i = 2 ∨ i = 3 := by omega
      rcases hcases with rfl | rfl | rfl | rfl <;> simp
  have h0 := ip.octets[0].toNat_lt
  have h1 := ip.octets[1].toNat_lt
  have h2 := ip.octets[2].toNat_lt
  have h3 := ip.octets[3].toNat_lt
  rw [hlist]
  simp only [Words.ofLe]
  ext i hi
  rw [Vector.getElem_ofFn, UInt8.toNat_ofNat']
  have hcases : i = 0 ∨ i = 1 ∨ i = 2 ∨ i = 3 := by omega
  rcases hcases with rfl | rfl | rfl | rfl <;> norm_num <;> omega

/-- An IPv4 address comes back, at any time. -/
theorem peerAddress_mangled {ip : Ipv4Addr} {port : UInt16} (micros : Nat)
    (hvalid : validAddress { ip := .v4 ip, port := port } = true) :
    peerAddress (AddrMangle.unpadded (Words.le 16 (AddrMangle.mangled ip port micros))) =
      .ok { ip := .v4 ip, port := port } := by
  have hport : port.toNat < 2 ^ 16 := port.toNat_lt
  have hportPos : 0 < port.toNat :=
    Nat.pos_of_ne_zero fun h => (validAddress_iff.mp hvalid).1 (UInt16.toNat_inj.mp h)
  have hip : Words.ofLe ip.octets.toList < 2 ^ 32 := by
    have hlt := Words.ofLe_lt ip.octets.toList
    rwa [Vector.length_toList] at hlt
  have htm : micros % 2 ^ 32 < 2 ^ 32 := Nat.mod_lt _ (by decide)
  have hnumber : AddrMangle.mangled ip port micros =
      (Words.ofLe ip.octets.toList + micros % 2 ^ 32) * 2 ^ 49 + micros % 2 ^ 32 * 2 ^ 17 +
        (port.toNat + micros % 2 ^ 32 % 2 ^ 16) := mangled_fields hport htm
  have hlen := length_unpadded_le (Words.le 16 (AddrMangle.mangled ip port micros))
  rw [Words.le_length] at hlen
  have hofLe : Words.ofLe (AddrMangle.unpadded (Words.le 16 (AddrMangle.mangled ip port micros))) =
      AddrMangle.mangled ip port micros := by
    rw [ofLe_unpadded, Words.ofLe_le]
    exact Nat.mod_eq_of_lt (by omega)
  -- the fields, as the decoder cuts them out
  have hclock : AddrMangle.mangled ip port micros >>> 17 % 2 ^ 32 = micros % 2 ^ 32 := by
    have hquotient : AddrMangle.mangled ip port micros / 2 ^ 17 =
        (Words.ofLe ip.octets.toList + micros % 2 ^ 32) * 2 ^ 32 + micros % 2 ^ 32 := by
      omega
    rw [Nat.shiftRight_eq_div_pow, hquotient]
    omega
  have hsum : AddrMangle.mangled ip port micros >>> 49 =
      Words.ofLe ip.octets.toList + micros % 2 ^ 32 := by
    rw [Nat.shiftRight_eq_div_pow]
    omega
  have hsalted : AddrMangle.mangled ip port micros % 2 ^ 17 =
      port.toNat + micros % 2 ^ 32 % 2 ^ 16 := by
    omega
  have hsaltedWide : (AddrMangle.mangled ip port micros % 2 ^ 24 + 2 ^ 128 -
      micros % 2 ^ 32 % 2 ^ 16) % 2 ^ 128 % 2 ^ 16 = port.toNat := by
    omega
  have hne : AddrMangle.unpadded (Words.le 16 (AddrMangle.mangled ip port micros)) ≠ [] := by
    intro hnil
    rw [hnil] at hofLe
    have hzero : 0 = AddrMangle.mangled ip port micros := hofLe
    omega
  have hrange : mangledOutOfRange
      (AddrMangle.unpadded (Words.le 16 (AddrMangle.mangled ip port micros))) = false := by
    unfold mangledOutOfRange
    rw [hofLe]
    dsimp only
    rw [hclock, hsum, hsalted]
    simp only [decide_eq_false_iff_not]
    omega
  have hdecode : AddrMangle.decode
      (AddrMangle.unpadded (Words.le 16 (AddrMangle.mangled ip port micros))) =
        { ip := .v4 ip, port := port } := by
    have haddress : (Words.ofLe ip.octets.toList + micros % 2 ^ 32 + 2 ^ 128 - micros % 2 ^ 32) %
        2 ^ 128 % 2 ^ 32 = Words.ofLe ip.octets.toList := by
      omega
    unfold AddrMangle.decode
    rw [if_neg (by omega), hofLe]
    dsimp only
    rw [hclock, hsum, hsaltedWide, haddress, octets_ofLe, UInt16.ofNat_toNat]
  unfold peerAddress
  rw [if_neg (by simp [hne, hrange]; omega), hdecode]
  exact if_pos hvalid

/-! #### IPv6 -/

theorem segment_bytes (s : UInt16) :
    UInt16.ofNat ((UInt8.ofNat (s.toNat / 256)).toNat * 2 ^ 8 + (UInt8.ofNat s.toNat).toNat) = s := by
  have hs : s.toNat < 2 ^ 16 := s.toNat_lt
  apply UInt16.toNat_inj.mp
  rw [UInt16.toNat_ofNat', UInt8.toNat_ofNat', UInt8.toNat_ofNat']
  omega

theorem be_two (n : Nat) : Words.be 2 n = [UInt8.ofNat (n / 256), UInt8.ofNat n] := rfl

/-- An address of 18 bytes is read as it is written. -/
theorem decode_octets (ip : Ipv6Addr) (port : UInt16) :
    AddrMangle.decode (ip.octets ++ Words.le 2 port.toNat) = { ip := .v6 ip, port := port } := by
  obtain ⟨⟨⟨segments⟩, hsize⟩⟩ := ip
  match segments, hsize with
  | [s0, s1, s2, s3, s4, s5, s6, s7], _ =>
    unfold AddrMangle.decode Ipv6Addr.octets
    simp only [Vector.toList, List.flatMap_cons, List.flatMap_nil, be_two, List.cons_append,
      List.nil_append]
    rw [if_pos (by simp), if_neg (by simp)]
    have hport : UInt16.ofNat (Words.ofLe (Words.le 2 port.toNat)) = port := by
      rw [Words.ofLe_le, show 256 ^ 2 = 2 ^ 16 from rfl, UInt16.ofNat_mod_size,
        UInt16.ofNat_toNat]
    refine congrArg₂ (fun segments port => ({ ip := .v6 ⟨segments⟩, port := port } : SocketAddr))
      ?_ hport
    ext i hi
    rw [Vector.getElem_ofFn]
    have hcases : i = 0 ∨ i = 1 ∨ i = 2 ∨ i = 3 ∨ i = 4 ∨ i = 5 ∨ i = 6 ∨ i = 7 := by omega
    rcases hcases with rfl | rfl | rfl | rfl | rfl | rfl | rfl | rfl <;>
      exact congrArg UInt16.toNat (segment_bytes _)

theorem length_octets (ip : Ipv6Addr) : ip.octets.length = 16 := by
  unfold Ipv6Addr.octets
  rw [List.length_flatMap]
  simp [be_two]

/-- An IPv6 address that is written out comes back. -/
theorem peerAddress_octets {ip : Ipv6Addr} {port : UInt16}
    (hvalid : validAddress { ip := .v6 ip, port := port } = true) :
    peerAddress (ip.octets ++ Words.le 2 port.toNat) = .ok { ip := .v6 ip, port := port } := by
  have hlen : (ip.octets ++ Words.le 2 port.toNat).length = 18 := by
    rw [List.length_append, length_octets, Words.le_length]
  have hne : ip.octets ++ Words.le 2 port.toNat ≠ [] :=
    List.ne_nil_of_length_pos (by rw [hlen]; decide)
  unfold peerAddress
  rw [if_neg (by rw [hlen]; simp [hne]), decode_octets]
  exact if_pos hvalid

/-- An address that `to_ipv4` does not convert, or the loopback address. -/
def KeptIpv6 (ip : Ipv6Addr) : Prop := ip.toIpv4 = none ∨ (IpAddr.v6 ip).isLoopback = true

theorem tryIntoV4_kept {ip : Ipv6Addr} (h : KeptIpv6 ip) (port : UInt16) (scopeId : UInt32) :
    tryIntoV4 ⟨.v6 ip, port, scopeId⟩ = ⟨.v6 ip, port, scopeId⟩ := by
  unfold tryIntoV4
  dsimp only
  rcases h with hnone | hloop
  · rw [hnone]
    simp
  · rw [hloop]
    rfl

theorem tryIntoV4_converted {ip : Ipv6Addr} {v4 : Ipv4Addr} (hsome : ip.toIpv4 = some v4)
    (hloop : (IpAddr.v6 ip).isLoopback = false) (port : UInt16) (scopeId : UInt32) :
    tryIntoV4 ⟨.v6 ip, port, scopeId⟩ = { ip := .v4 v4, port := port } := by
  unfold tryIntoV4
  dsimp only
  rw [hloop, hsome]
  rfl

/-! ### Peer addresses -/

/-- What is promised of the addresses of peers. -/
structure PeerAddressing : Prop where
  /-- no subtraction underflows -/
  defined : ∀ bytes, peerAddressChecked bytes = some (peerAddress bytes)
  usable : ∀ bytes address, peerAddress bytes = .ok address →
    address.port ≠ 0 ∧ address.ip.isUnspecified = false ∧ address.ip.isMulticast = false
  ipv4 : ∀ (ip : Ipv4Addr) (port : UInt16) (micros : Nat),
    validAddress { ip := .v4 ip, port := port } = true →
    peerAddress (AddrMangle.encode { ip := .v4 ip, port := port } micros) =
      .ok { ip := .v4 ip, port := port }
  ipv6 : ∀ (ip : Ipv6Addr) (port : UInt16) (scopeId : UInt32) (micros : Nat), KeptIpv6 ip →
    validAddress { ip := .v6 ip, port := port } = true →
    peerAddress (AddrMangle.encode ⟨.v6 ip, port, scopeId⟩ micros) =
      .ok { ip := .v6 ip, port := port }
  /-- a converted address comes back as the IPv4 address -/
  converted : ∀ (ip : Ipv6Addr) (v4 : Ipv4Addr) (port : UInt16) (scopeId : UInt32) (micros : Nat),
    ip.toIpv4 = some v4 → (IpAddr.v6 ip).isLoopback = false →
    validAddress { ip := .v4 v4, port := port } = true →
    peerAddress (AddrMangle.encode ⟨.v6 ip, port, scopeId⟩ micros) =
      .ok { ip := .v4 v4, port := port }

/-- **The addresses of peers**: every byte string is decoded without an underflow to an
address that can be used, or refused; and what was encoded at any time comes back. -/
theorem peer_addresses : PeerAddressing where
  defined := peerAddressChecked_eq
  usable := fun _ _ h => validAddress_iff.mp (valid_of_peerAddress h)
  ipv4 := fun _ _ micros hvalid => peerAddress_mangled micros hvalid
  ipv6 := by
    intro ip port scopeId micros hkept hvalid
    unfold AddrMangle.encode
    rw [tryIntoV4_kept hkept]
    exact peerAddress_octets hvalid
  converted := by
    intro ip v4 port scopeId micros hsome hloop hvalid
    unfold AddrMangle.encode
    rw [tryIntoV4_converted hsome hloop]
    exact peerAddress_mangled micros hvalid

/-- The compatible address `::2` is not mapped, and comes back as `0.0.0.2`. -/
theorem compatible_address_converted :
    ¬ ∀ (ip : Ipv6Addr) (port : UInt16) (micros : Nat), ip.isMapped = false →
      validAddress { ip := .v6 ip, port := port } = true →
      peerAddress (AddrMangle.encode { ip := .v6 ip, port := port } micros) =
        .ok { ip := .v6 ip, port := port } := by
  intro h
  have hback := h ⟨#v[0, 0, 0, 0, 0, 0, 0, 2]⟩ 21118 0 (by decide +kernel) (by decide +kernel)
  revert hback
  decide +kernel

end RdEngine
