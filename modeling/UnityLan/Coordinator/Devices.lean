import UnityLan.Coordinator.Snapshot

namespace UnityLan.Coordinator

open UnityLan.Foundation

/-! Device management, interactive login, and the chat commands and gateway events
of the bot. -/

inductive DeviceMatch
  | one (pubkey : PubKey)
  | none
  | many
  deriving DecidableEq

def matchDeviceByName (devices : List (PubKey × String)) (name : String) : DeviceMatch :=
  match devices.filter fun device => device.2 == name with
  | [] => .none
  | [(pubkey, _)] => .one pubkey
  | _ :: _ :: _ => .many

def findDevice (user : UserId) (name : String) : Handler PubKey := do
  let want := sanitizeLabel name
  let devices ← (sql (.userDevices user)).mapError internal
  match matchDeviceByName devices want with
  | .one pubkey => return pubkey
  | .none => throw ⟨.notFound, s!"no device named '{want}'"⟩
  | .many => throw ⟨.conflict, s!"multiple devices named '{want}'; rename one first"⟩

def removeOp (user : UserId) (deviceName : String) : Handler String := do
  let pubkey ← findDevice user deviceName
  (Store.removeDevice user pubkey).mapError internal
  let networks ← act (.presence (.networksOf pubkey))
  let changed ← evictFrom pubkey networks []
  let removed ← act (.presence (.evictSelf user pubkey))
  bumpAll (if removed then (Scope.user user).insertInto changed else changed)
  return s!"removed {sanitizeLabel deviceName}"

def manageOp (user : UserId) (selfPubkey : PubKey) : ManageOp → Handler String
  | .list => return "ok"
  | .rename newName => do
      let name ← (Store.renameDevice user selfPubkey (sanitizeLabel newName)).mapError internal
      return s!"renamed this device to {name}"
  | .setPrimary deviceName => do
      let pubkey ← findDevice user deviceName
      (sql (.setPrimary user pubkey)).mapError internal
      return s!"primary set to {sanitizeLabel deviceName}"
  | .remove deviceName => removeOp user deviceName

def manage (req : ManageReq) : Handler ManageResp := do
  match ← (sql (.deviceByToken req.token)).mapError internal with
  | none => throw ⟨.unauthorized, "invalid device token"⟩
  | some (user, selfPubkey) =>
      let message ← manageOp user selfPubkey req.op
      let primary ← (sql (.primaryPubkey user)).mapError internal
      let devices ← (sql (.userDevices user)).mapError internal
      return ⟨message, devices.map fun device =>
        ⟨device.2, primary == some device.1, device.1 == selfPubkey⟩⟩

/-! Interactive login. -/

def oauthComplete (req : OauthCompleteReq) : Handler Unit := do
  match ← act (.verifyOauth req.accessToken) with
  | .error why => throw ⟨.unauthorized, s!"login failed: {why}"⟩
  | .ok (user, handle) =>
      (Store.bindOauth req.wgPubkey user).mapError internal
      (sql (.setUserHandle user handle)).mapError internal

/-! Chat commands, up to the texts they reply. -/

def enroll (user : UserId) : Handler (Option String) := do
  let key ← act .genEnrollmentKey
  let now ← act .nowUnix
  match ← act (.store (.upsertEnrollmentKey key user (some (now + ENROLLMENT_KEY_TTL_SECS)))) with
  | .ok _ => return some key
  | .error _ => return none

/-- `@everyone` has the id of its guild and is no network. -/
def networkAdd (guild : GuildId) (role : RoleId) : Handler Unit :=
  if role = guild then return
  else do
    let name := (← RoleSource.roleName guild role).getD s!"role-{role}"
    match ← act (.store (.upsertNetwork guild role name)) with
    | .ok _ => bumpAll [.guild guild]
    | .error _ => return

def networkRemove (guild : GuildId) (role : RoleId) : Handler Unit := do
  match ← act (.store (.deleteNetwork guild role)) with
  | .ok _ => bumpAll [.guild guild]
  | .error _ => return

/-! Gateway events. -/

/-- Evict a member from every network whose role is not held; the answer tells
whether a row went. -/
def evictMember (guild : GuildId) (user : UserId) (held : List RoleId) :
    List Network → Handler Bool
  | [] => return false
  | net :: rest => do
      if held.contains net.roleId then evictMember guild user held rest
      else
        let evicted ← act (.presence (.evictUser guild net.roleId user))
        let others ← evictMember guild user held rest
        return evicted || others

def revoke (guild : GuildId) (user : UserId) (held : List RoleId) : Handler Unit := do
  RoleSource.forget guild user
  match ← act (.store (.networksInGuild guild)) with
  | .error _ => return
  | .ok nets =>
      let changed ← evictMember guild user held nets
      if changed then bumpAll [.guild guild]

def memberAdd (guild : GuildId) (user : UserId) : Handler Unit := do
  act (.roleless (.forget user))
  RoleSource.forget guild user

def memberUpdate (guild : GuildId) (user : UserId) (held : List RoleId) : Handler Unit := do
  act (.roleless (.forget user))
  revoke guild user held

def memberRemove (guild : GuildId) (user : UserId) : Handler Unit := do
  act (.roleless (.forget user))
  revoke guild user []

/-! Sweeps. -/

def reap : Handler Unit := do
  let now ← act .nowUnix
  let networks ← act (.presence (.reapMap now PRESENCE_TTL_SECS))
  let owners ← act (.presence (.reapSelf now PRESENCE_TTL_SECS))
  bumpAll ((networks ++ owners).foldr Scope.insertInto [])
  let first ← act (.presence .mapPubkeys)
  let second ← act (.presence .selfPubkeys)
  pruneNatTables (first ++ second)

def PERSONAL_IDLE_RECLAIM_SECS : Nat := 30 * 24 * 3600

def reclaim : Handler Unit := do
  let _ ← (Store.reclaimIdlePersonalDevices PERSONAL_IDLE_RECLAIM_SECS).mapError internal

end UnityLan.Coordinator
