import UnityLan.Common.Api
import UnityLan.Foundation.Table

namespace UnityLan.Coordinator

open UnityLan.Foundation

/-! Attestation signing: the key of each guild, loaded once, and the cache of
signed peer attestations. -/

structure AttIdentity where
  userId : UserId
  username : String
  deviceName : String
  isPrimary : Bool
  ip : Ipv4Addr
  pubkey : PubKey
  deriving DecidableEq

structure Signer where
  key : Anchor
  guildId : GuildId
  wgNet : Ipv4Net
  ttl : Nat
  deriving DecidableEq

namespace Signer

def attestation (signer : Signer) (id : AttIdentity) (now : Nat) : Attestation where
  guildId := signer.guildId
  userId := id.userId
  username := id.username
  deviceName := id.deviceName
  isPrimary := id.isPrimary
  wgIp := id.ip
  wgNet := signer.wgNet
  wgPubkey := id.pubkey
  issuedAt := now
  expiresAt := now + signer.ttl

end Signer

structure GuildKey where
  signer : Signer
  rotationChain : List (Signed RotationCert)
  deriving DecidableEq

def SIGN_CACHE_REUSE_CAP_SECS : Nat := 300

/-- The reuse window of a cache for attestations that live `attestationTtl`. -/
def signCacheReuseSecs (attestationTtl : Nat) : Nat :=
  max 1 (min (attestationTtl / 2) SIGN_CACHE_REUSE_CAP_SECS)

structure CachedAtt where
  blob : AttestationBlob
  signedAt : Nat
  ip : Ipv4Addr
  isPrimary : Bool
  username : String
  deviceName : String
  deriving DecidableEq

structure Signing where
  keys : Table GuildId GuildKey := ∅
  map : Table (GuildId × PubKey × Nat) CachedAtt := ∅
  lastPrune : Nat := 0

namespace Signing

def fresh (signing : Signing) (reuseSecs : Nat) (guild : GuildId) (id : AttIdentity)
    (now schema : Nat) : Option AttestationBlob :=
  match signing.map.get? (guild, id.pubkey, schema) with
  | none => none
  | some e =>
      if now - e.signedAt < reuseSecs ∧ e.ip = id.ip ∧ e.isPrimary = id.isPrimary ∧
          e.username = id.username ∧ e.deviceName = id.deviceName then
        some e.blob
      else none

def keep (signing : Signing) (reuseSecs : Nat) (guild : GuildId) (id : AttIdentity)
    (now schema : Nat) (blob : AttestationBlob) : Signing :=
  let pruned :=
    if now - signing.lastPrune ≥ reuseSecs then
      { signing with
        map := signing.map.retain fun _ v => now - v.signedAt < reuseSecs
        lastPrune := now }
    else signing
  { pruned with
    map := pruned.map.insert (guild, id.pubkey, schema)
      { blob := blob
        signedAt := now
        ip := id.ip
        isPrimary := id.isPrimary
        username := id.username
        deviceName := id.deviceName } }

inductive Op
  | key (guild : GuildId)
  | keepKey (guild : GuildId) (key : GuildKey)
  | fresh (guild : GuildId) (id : AttIdentity) (now schema : Nat)
  | keep (guild : GuildId) (id : AttIdentity) (now schema : Nat) (blob : AttestationBlob)
  deriving DecidableEq

@[reducible] def Op.Res : Op → Type
  | .key _ => Option GuildKey
  | .keepKey .. => Unit
  | .fresh .. => Option AttestationBlob
  | .keep .. => Unit

def step (signing : Signing) (reuseSecs : Nat) : (o : Op) → o.Res × Signing
  | .key guild => (signing.keys.get? guild, signing)
  | .keepKey guild key => ((), { signing with keys := signing.keys.insert guild key })
  | .fresh guild id now schema => (signing.fresh reuseSecs guild id now schema, signing)
  | .keep guild id now schema blob =>
      ((), signing.keep reuseSecs guild id now schema blob)

end Signing

end UnityLan.Coordinator
