import UnityLan.Common.Basic

namespace UnityLan

/-! Addresses as they are written.  A reader takes what it can of a text, and leaves the rest. -/

abbrev Reader (α : Type) := List Char → Option (α × List Char)

def toDigit (radix : Nat) (c : Char) : Option Nat :=
  let digit :=
    if '0' ≤ c ∧ c ≤ '9' then some (c.toNat - '0'.toNat)
    else if 'a' ≤ c ∧ c ≤ 'z' then some (c.toNat - 'a'.toNat + 10)
    else if 'A' ≤ c ∧ c ≤ 'Z' then some (c.toNat - 'A'.toNat + 10)
    else none
  digit.filter (· < radix)

def readGivenChar (given : Char) : Reader Unit
  | [] => none
  | c :: rest => if c = given then some ((), rest) else none

/-- The number at `index` of a row of numbers; all but the first have the separator before them. -/
def readSeparator {α : Type} (separator : Char) (index : Nat) (inner : Reader α) : Reader α :=
  fun text =>
    if index > 0 then (readGivenChar separator text).bind fun read => inner read.2
    else inner text

/-- A number of at most `maxDigits` digits, below `limit`. -/
def readNumber (radix maxDigits limit : Nat) (allowZeroPrefix : Bool) : Reader Nat :=
  fun text =>
    let digits := (text.takeWhile fun c => (toDigit radix c).isSome).filterMap (toDigit radix)
    let value := digits.foldl (fun value digit => value * radix + digit) 0
    if digits.length > maxDigits ∨ digits.length = 0 then none
    else if !allowZeroPrefix && text.head? == some '0' && digits.length > 1 then none
    else if value < limit then some (value, text.drop digits.length)
    else none

/-- The parts of an IPv4 address from the one at `index` on. -/
def readOctets : Nat → Nat → Reader (List Nat)
  | 0, _, text => some ([], text)
  | count + 1, index, text => do
      let (octet, rest) ← readSeparator '.' index (readNumber 10 3 256 false) text
      let (octets, rest) ← readOctets count (index + 1) rest
      return (octet :: octets, rest)

def readIpv4Addr : Reader Ipv4Addr :=
  fun text => do
    let (octets, rest) ← readOctets 4 0 text
    return (BitVec.ofNat 32 (octets.foldl (fun addr octet => addr * 256 + octet) 0), rest)

/-- The groups of an IPv6 address, at most `count` of them, and whether an IPv4 address ends them. -/
def readGroups : Nat → Nat → List Char → List Nat × Bool × List Char
  | 0, _, text => ([], false, text)
  | count + 1, index, text =>
      let embedded := if count = 0 then none else readSeparator ':' index readIpv4Addr text
      match embedded with
      | some (addr, rest) => ([addr.toNat / 2 ^ 16, addr.toNat % 2 ^ 16], true, rest)
      | none =>
          match readSeparator ':' index (readNumber 16 4 (2 ^ 16) true) text with
          | some (group, rest) =>
              let (groups, ipv4, rest) := readGroups count (index + 1) rest
              (group :: groups, ipv4, rest)
          | none => ([], false, text)

def ofGroups (groups : List Nat) : BitVec 128 :=
  BitVec.ofNat 128 (groups.foldl (fun addr group => addr * 2 ^ 16 + group) 0)

/-- All eight groups, or fewer with `::` for those that are zero. -/
def readIpv6Addr : Reader (BitVec 128) :=
  fun text => do
    let (head, ipv4, rest) := readGroups 8 0 text
    if head.length = 8 then return (ofGroups head, rest)
    if ipv4 then none
    let (_, rest) ← readGivenChar ':' rest
    let (_, rest) ← readGivenChar ':' rest
    let (tail, _, rest) := readGroups (7 - head.length) 0 rest
    return (ofGroups (head ++ List.replicate (8 - head.length - tail.length) 0 ++ tail), rest)

def readIpAddr : Reader IpAddr :=
  fun text =>
    ((readIpv4Addr text).map fun read => (IpAddr.v4 read.1, read.2)).or
      ((readIpv6Addr text).map fun read => (IpAddr.v6 read.1, read.2))

def IpAddr.parse (text : List Char) : Option IpAddr :=
  match readIpAddr text with
  | some (ip, []) => some ip
  | _ => none

example : IpAddr.parse "203.0.113.5".toList = some (.v4 0xCB007105#32) := by
  decide

example : IpAddr.parse "64:ff9b::192.0.2.33".toList =
    some (.v6 0x0064ff9b0000000000000000c0000221#128) := by
  decide

structure Ipv6Net where
  addr : BitVec 128
  prefixLen : Fin 129
  deriving DecidableEq

def Ipv6Net.netmask (net : Ipv6Net) : BitVec 128 :=
  BitVec.allOnes 128 <<< (128 - net.prefixLen.val)

inductive IpNet
  | v4 (net : Ipv4Net)
  | v6 (net : Ipv6Net)
  deriving DecidableEq

def IpNet.contains : IpNet → IpAddr → Bool
  | .v4 net, .v4 ip => net.contains ip
  | .v6 net, .v6 ip => ip &&& net.netmask == net.addr &&& net.netmask
  | _, _ => false

end UnityLan
