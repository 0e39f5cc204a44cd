import UnityLan.Coordinator.Store

namespace UnityLan.Coordinator

open UnityLan.Foundation

/-! Signing, as the programs that reach the keys and the cache.  A lock is given
back with the guard that holds it, on an error as well. -/

variable (conf : Conf)

def withLock (name : LockName) (body : Stored α) : Stored α := do
  act (.locks (.lock name))
  let result ← (body.attempt : Stored (Except StoreError α))
  act (.locks (.unlock name))
  match result with
  | .ok value => return value
  | .error error => throw error

namespace GuildKeys

def get (guild : GuildId) : Stored GuildKey :=
  withLock .guildKeys do
    match ← act (.signing (.key guild)) with
    | some key => return key
    | none =>
        let seed ← Store.loadOrCreateSeed guild
        let rotationChain ← sql (.rotationChain guild)
        let key : GuildKey := ⟨⟨seed, guild, conf.wgNet, conf.attestationTtl⟩, rotationChain⟩
        act (.signing (.keepKey guild key))
        return key

end GuildKeys

def signWith (signer : Signer) (id : AttIdentity) (schema : Nat) : Stored AttestationBlob := do
  let now ← act .nowUnix
  match signAttestation signer.key (signer.attestation id now) schema with
  | .ok blob => return blob
  | .error error => throw (.message error.text)

namespace SignCache

/-- The signed attestation of a peer in a guild, signing it only on a cold or stale
miss. -/
def attestation (guild : GuildId) (id : AttIdentity) (now schema : Nat) :
    Stored AttestationBlob := do
  match ← act (.signing (.fresh guild id now schema)) with
  | some hit => return hit
  | none =>
      withLock .sign do
        -- a peer that raced us here may have just filled it
        match ← act (.signing (.fresh guild id now schema)) with
        | some hit => return hit
        | none =>
            let key ← GuildKeys.get conf guild
            let blob ← signWith key.signer id schema
            act (.signing (.keep guild id now schema blob))
            return blob

end SignCache

end UnityLan.Coordinator
