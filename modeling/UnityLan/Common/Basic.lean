import Mathlib.Algebra.GroupWithZero.Nat

namespace UnityLan

/-! Identifiers and addresses.  Snowflakes, clocks and counters are numbers; keys
and addresses keep the widths of the wire format. -/

/-- A WireGuard public key or an Ed25519 anchor, in the order of its bytes. -/
abbrev Key := BitVec 256

abbrev PubKey := Key

abbrev Anchor := Key

abbrev GuildId := Nat

abbrev RoleId := Nat

abbrev UserId := Nat

abbrev Ipv4Addr := BitVec 32

inductive IpAddr
  | v4 (octets : Ipv4Addr)
  | v6 (segments : BitVec 128)
  deriving DecidableEq

structure SocketAddr where
  ip : IpAddr
  port : BitVec 16
  deriving DecidableEq

instance prefixLenNeZero : NeZero 33 := ⟨by decide⟩

structure Ipv4Net where
  addr : Ipv4Addr
  prefixLen : Fin 33
  deriving DecidableEq

namespace Ipv4Net

def netmask (net : Ipv4Net) : Ipv4Addr :=
  BitVec.allOnes 32 <<< (32 - net.prefixLen.val)

def network (net : Ipv4Net) : Ipv4Addr :=
  net.addr &&& net.netmask

def render (net : Ipv4Net) : String :=
  let octet (index : Nat) : String := toString (net.addr.toNat / 256 ^ index % 256)
  s!"{octet 3}.{octet 2}.{octet 1}.{octet 0}/{net.prefixLen.val}"

def contains (net : Ipv4Net) (ip : Ipv4Addr) : Bool :=
  ip &&& net.netmask == net.network

end Ipv4Net

/-! Constants shared by the coordinator and the engine, in seconds. -/

def PROTOCOL_VERSION : Nat := 5

def MIN_PROTOCOL_VERSION : Nat := 4

def ATTESTATION_TTL_SECS : Nat := 30 * 60

def LONGPOLL_HOLD_SECS : Nat := ATTESTATION_TTL_SECS / 2

def PRESENCE_TTL_SECS : Nat := LONGPOLL_HOLD_SECS * 2 + 60

def RELAY_CRED_TTL_SECS : Nat := 3600

def ENROLLMENT_KEY_TTL_SECS : Nat := 15 * 60

inductive ProtoReject
  | peerTooOld
  | peerTooNew
  deriving DecidableEq

def negotiateProto (peerMin peerMax : Nat) : Except ProtoReject Nat :=
  if peerMax = 0 then .ok MIN_PROTOCOL_VERSION
  else
    let peerMin := if peerMin = 0 then peerMax else peerMin
    if peerMax < MIN_PROTOCOL_VERSION then .error .peerTooOld
    else if peerMin > PROTOCOL_VERSION then .error .peerTooNew
    else .ok (min peerMax PROTOCOL_VERSION)

/-- The Unicode property `White_Space`. -/
def isWhitespace (c : Char) : Bool :=
  let code := c.toNat
  (9 ≤ code && code ≤ 13) || code == 0x20 || code == 0x85 || code == 0xA0 || code == 0x1680 ||
    (0x2000 ≤ code && code ≤ 0x200A) || code == 0x2028 || code == 0x2029 || code == 0x202F ||
    code == 0x205F || code == 0x3000

end UnityLan
