/-
RdEngine/Net.lean

Internet addresses, as `std::net` reads and prints them.

The parser of the standard library goes over the characters of the text and
steps back when an alternative fails; here a reader returns the rest of the
text, or nothing.
-/
import Mathlib.Data.List.Basic
import Mathlib.Algebra.Order.Ring.Nat

namespace RdEngine

/-! ### Addresses -/

structure Ipv4Addr where
  octets : Vector UInt8 4
  deriving DecidableEq, Repr

/-- `Ipv6Addr`, as its eight segments. -/
structure Ipv6Addr where
  segments : Vector UInt16 8
  deriving DecidableEq, Repr

inductive IpAddr where
  | v4 (ip : Ipv4Addr)
  | v6 (ip : Ipv6Addr)
  deriving DecidableEq, Repr

structure SocketAddr where
  ip : IpAddr
  port : UInt16
  /-- Of an IPv6 address. -/
  scopeId : UInt32 := 0
  deriving DecidableEq, Repr

namespace IpAddr

def isIpv4 : IpAddr → Bool
  | v4 _ => true
  | v6 _ => false

def isUnspecified : IpAddr → Bool
  | v4 ip => ip.octets.all (· == 0)
  | v6 ip => ip.segments.all (· == 0)

/-- `224.0.0.0/4` and `ff00::/8`. -/
def isMulticast : IpAddr → Bool
  | v4 ip => ip.octets[0] &&& 0xf0 == 0xe0
  | v6 ip => ip.segments[0] &&& 0xff00 == 0xff00

end IpAddr

/-! ### Reading -/

namespace AddrParser

/-- What was read, and the rest of the text. -/
abbrev Reader (α : Type) : Type := List Char → Option (α × List Char)

/-- `char::to_digit`. -/
def toDigit (radix : Nat) (c : Char) : Option Nat :=
  let digit :=
    if '0' ≤ c ∧ c ≤ '9' then some (c.toNat - '0'.toNat)
    else if 'a' ≤ c ∧ c ≤ 'z' then some (c.toNat - 'a'.toNat + 10)
    else if 'A' ≤ c ∧ c ≤ 'Z' then some (c.toNat - 'A'.toNat + 10)
    else none
  digit.filter (· < radix)

def readGivenChar (c : Char) : Reader Unit
  | [] => none
  | d :: rest => if d = c then some ((), rest) else none

/-- A separator stands before every group but the first. -/
def readSeparator {α : Type} (sep : Char) (index : Nat) (inner : Reader α) : Reader α := fun text =>
  if index = 0 then inner text
  else (readGivenChar sep text).bind fun r => inner r.2

/-- All the digits that follow, when they are a number below the bound. -/
def readNumber (radix bound : Nat) (maxDigits : Option Nat) (allowZeroPrefix : Bool) :
    Reader Nat := fun text =>
  let digits := text.takeWhile fun c => (toDigit radix c).isSome
  let value := digits.foldl (fun value c => value * radix + (toDigit radix c).getD 0) 0
  if digits = [] ∨ (maxDigits.any fun m => digits.length > m) ∨
      (!allowZeroPrefix ∧ digits.head? = some '0' ∧ digits.length > 1) ∨ bound ≤ value then none
  else some (value, text.drop digits.length)

/-- `read_ipv4_addr`: four numbers with dots between them. -/
def readIpv4Addr : Reader Ipv4Addr := fun text => do
  let group index := readSeparator '.' index (readNumber 10 (2 ^ 8) (some 3) false)
  let (a, text) ← group 0 text
  let (b, text) ← group 1 text
  let (c, text) ← group 2 text
  let (d, text) ← group 3 text
  return (⟨#v[.ofNat a, .ofNat b, .ofNat c, .ofNat d]⟩, text)

/-- The two groups an IPv4 address is written for. -/
def pairs (ip : Ipv4Addr) : List UInt16 :=
  [.ofNat (ip.octets[0].toNat * 2 ^ 8 + ip.octets[1].toNat),
    .ofNat (ip.octets[2].toNat * 2 ^ 8 + ip.octets[3].toNat)]

/-- At most `limit` groups of an IPv6 address, and whether the last two were
written as an IPv4 address. -/
def readGroups (limit index : Nat) (text : List Char) : List UInt16 × Bool × List Char :=
  match limit with
  | 0 => ([], false, text)
  | limit + 1 =>
    match if 0 < limit then readSeparator ':' index readIpv4Addr text else none with
    | some (⟨ip⟩, rest) =>
      let word (high low : UInt8) : UInt16 := .ofNat (high.toNat * 2 ^ 8 + low.toNat)
      ([word ip[0] ip[1], word ip[2] ip[3]], true, rest)
    | none =>
      match readSeparator ':' index (readNumber 16 (2 ^ 16) (some 4) true) text with
      | none => ([], false, text)
      | some (group, rest) =>
        let (groups, embedded, rest) := readGroups limit (index + 1) rest
        (.ofNat group :: groups, embedded, rest)

/-- The address with these groups, missing ones read as zero. -/
def ipv6 (groups : List UInt16) : Ipv6Addr := ⟨.ofFn fun i => groups.getD i 0⟩

/-- `read_ipv6_addr`: eight groups, or fewer around one `::`. -/
def readIpv6Addr : Reader Ipv6Addr := fun text =>
  let (head, embedded, text) := readGroups 8 0 text
  if head.length = 8 then some (ipv6 head, text)
  else if embedded then none
  else do
    let (_, text) ← readGivenChar ':' text
    let (_, text) ← readGivenChar ':' text
    let (tail, _, text) := readGroups (8 - (head.length + 1)) 0 text
    return (ipv6 (head ++ List.replicate (8 - head.length - tail.length) 0 ++ tail), text)

def readIpAddr : Reader IpAddr := fun text =>
  ((readIpv4Addr text).map fun r => (.v4 r.1, r.2)) <|>
    (readIpv6Addr text).map fun r => (.v6 r.1, r.2)

/-- A colon and a port. -/
def readPort : Reader Nat := fun text => do
  let (_, text) ← readGivenChar ':' text
  readNumber 10 (2 ^ 16) none true text

def readScopeId : Reader Nat := fun text => do
  let (_, text) ← readGivenChar '%' text
  readNumber 10 (2 ^ 32) none true text

def readSocketAddrV4 : Reader SocketAddr := fun text => do
  let (ip, text) ← readIpv4Addr text
  let (port, text) ← readPort text
  return ({ ip := .v4 ip, port := .ofNat port }, text)

def readSocketAddrV6 : Reader SocketAddr := fun text => do
  let (_, text) ← readGivenChar '[' text
  let (ip, text) ← readIpv6Addr text
  let (scope, text) := (readScopeId text).getD (0, text)
  let (_, text) ← readGivenChar ']' text
  let (port, text) ← readPort text
  return ({ ip := .v6 ip, port := .ofNat port, scopeId := .ofNat scope }, text)

def readSocketAddr : Reader SocketAddr := fun text =>
  readSocketAddrV4 text <|> readSocketAddrV6 text

/-- The whole text has to be read. -/
def parseWith {α : Type} (reader : Reader α) (text : String) : Option α :=
  match reader text.toList with
  | some (value, []) => some value
  | _ => none

end AddrParser

/-- `parse::<SocketAddr>`. -/
def SocketAddr.parse (text : String) : Option SocketAddr :=
  AddrParser.parseWith AddrParser.readSocketAddr text

/-- `parse::<IpAddr>`. -/
def IpAddr.parse (text : String) : Option IpAddr :=
  AddrParser.parseWith AddrParser.readIpAddr text

/-- `parse::<Ipv6Addr>`. -/
def Ipv6Addr.parse (text : String) : Option Ipv6Addr :=
  AddrParser.parseWith AddrParser.readIpv6Addr text

/-! ### Printing -/

def Ipv4Addr.toText (ip : Ipv4Addr) : String :=
  ".".intercalate (ip.octets.toList.map fun octet => toString octet.toNat)

/-- `{:x}`. -/
def hexText (n : UInt16) : String := String.ofList (Nat.toDigits 16 n.toNat)

/-- The first of the longest runs of zeros: its start and its length. -/
def longestZeros (segments : List UInt16) : Nat × Nat :=
  let step (s : (Nat × Nat) × (Nat × Nat)) (e : UInt16 × Nat) : (Nat × Nat) × (Nat × Nat) :=
    let (longest, current) := s
    if e.1 = 0 then
      let current := if current.2 = 0 then (e.2, 1) else (current.1, current.2 + 1)
      (if current.2 > longest.2 then current else longest, current)
    else (longest, (0, 0))
  (segments.zipIdx.foldl step ((0, 0), (0, 0))).1

/-- The text of an IPv6 address; the longest run of zeros is left out. -/
def Ipv6Addr.toText (ip : Ipv6Addr) : String :=
  let segments := ip.segments.toList
  let subslice (chunk : List UInt16) : String := ":".intercalate (chunk.map hexText)
  -- an IPv4-mapped address ends in dotted decimals
  if segments.take 6 = [0, 0, 0, 0, 0, 0xffff] then
    let octets (n : UInt16) : List String :=
      [toString (n.toNat / 2 ^ 8), toString (n.toNat % 2 ^ 8)]
    "::ffff:" ++ ".".intercalate ((segments.drop 6).flatMap octets)
  else
    let (start, len) := longestZeros segments
    if len > 1 then subslice (segments.take start) ++ "::" ++ subslice (segments.drop (start + len))
    else subslice segments

def SocketAddr.toText (address : SocketAddr) : String :=
  match address.ip with
  | .v4 ip => ip.toText ++ ":" ++ toString address.port.toNat
  | .v6 ip =>
    let scope := if address.scopeId = 0 then "" else "%" ++ toString address.scopeId.toNat
    "[" ++ ip.toText ++ scope ++ "]:" ++ toString address.port.toNat

end RdEngine
