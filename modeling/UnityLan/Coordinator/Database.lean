import Mathlib.Data.List.Sort
import UnityLan.Common.Api
import UnityLan.Foundation.Table

namespace UnityLan.Coordinator

open UnityLan.Foundation

/-! The SQLite database: its tables, and one operation for each statement the
store runs.  Rows stand in the order of their rowids. -/

structure Network where
  guildId : GuildId
  roleId : RoleId
  name : String
  deriving DecidableEq

structure DeviceRow where
  idx : Nat
  userId : UserId
  deviceName : String
  token : Option String
  lastSeen : Option Nat := none
  personal : Bool := false
  deriving DecidableEq

structure EnrollmentKeyRow where
  userId : UserId
  expiresAt : Option Nat
  usedBy : Option PubKey
  deriving DecidableEq

structure OauthRow where
  userId : UserId
  boundAt : Nat
  deriving DecidableEq

def MAX_OAUTH_BINDINGS_PER_USER : Nat := 64

inductive StoreError
  /-- A UNIQUE or PRIMARY KEY constraint refused the row. -/
  | uniqueViolation
  /-- Any other failure of the database. -/
  | database (why : String)
  /-- An error the store itself raises. -/
  | message (text : String)
  deriving DecidableEq

def StoreError.text : StoreError → String
  | .uniqueViolation => "UNIQUE constraint failed"
  | .database why => why
  | .message text => text

structure Database where
  guildSigningKeys : Table GuildId Anchor := ∅
  guildRotationCerts : List (GuildId × Signed RotationCert) := []
  networks : Table (GuildId × RoleId) String := ∅
  devices : UniqueTable PubKey DeviceRow DeviceRow.idx := ∅
  enrollmentKeys : Table String EnrollmentKeyRow := ∅
  communities : Table GuildId String := ∅
  primaryDevice : Table UserId PubKey := ∅
  oauthAuthorized : Table PubKey OauthRow := ∅
  userHandles : Table UserId String := ∅
  userLabels : UniqueTable UserId String id := ∅
  deviceServices : Table (UserId × String) PubKey := ∅

inductive Query
  | signingSeed (guild : GuildId)
  | insertSigningSeed (guild : GuildId) (key : Anchor)
  | rotationChain (guild : GuildId)
  | upsertNetwork (guild : GuildId) (role : RoleId) (name : String)
  | deleteNetwork (guild : GuildId) (role : RoleId)
  | networksInGuild (guild : GuildId)
  | allNetworks
  | upsertOauth (pubkey : PubKey) (user : UserId) (now : Nat)
  | pruneOauth (user : UserId)
  | oauthUser (pubkey : PubKey)
  | touchDevice (pubkey : PubKey) (now : Nat) (personal : Bool)
  | idlePersonal (cutoff : Nat)
  | setUserHandle (user : UserId) (handle : String)
  | userHandle (user : UserId)
  | communitySlug (guild : GuildId)
  | device (pubkey : PubKey)
  | countDevices (user : UserId)
  | indices
  | insertDevice (pubkey : PubKey) (row : DeviceRow)
  | userDevices (user : UserId)
  | userLabel (user : UserId)
  | insertUserLabel (user : UserId) (label : String)
  | setToken (pubkey : PubKey) (token : String)
  | deviceByToken (token : String)
  | setDeviceName (pubkey : PubKey) (name : String)
  | deleteDevice (pubkey : PubKey) (user : UserId)
  | deleteOauth (pubkey : PubKey)
  | deleteServices (pubkey : PubKey)
  | ensurePrimary (user : UserId) (pubkey : PubKey)
  | setPrimary (user : UserId) (pubkey : PubKey)
  | deletePrimary (user : UserId)
  | primaryPubkey (user : UserId)
  | upsertEnrollmentKey (key : String) (user : UserId) (expiresAt : Option Nat)
  | enrollmentKey (key : String)
  | claimEnrollmentKey (key : String) (pubkey : PubKey) (now : Nat)
  /-- The transaction of `set_device_services`. -/
  | replaceServices (user : UserId) (pubkey : PubKey) (labels : List String)
  deriving DecidableEq

@[reducible] def Query.Res : Query → Type
  | .signingSeed _ => Option Anchor
  | .insertSigningSeed .. => Unit
  | .rotationChain _ => List (Signed RotationCert)
  | .upsertNetwork .. => Unit
  | .deleteNetwork .. => Unit
  | .networksInGuild _ => List Network
  | .allNetworks => List Network
  | .upsertOauth .. => Unit
  | .pruneOauth _ => Unit
  | .oauthUser _ => Option UserId
  | .touchDevice .. => Unit
  | .idlePersonal _ => List (PubKey × UserId)
  | .setUserHandle .. => Unit
  | .userHandle _ => Option String
  | .communitySlug _ => Option String
  | .device _ => Option DeviceRow
  | .countDevices _ => Nat
  | .indices => List Nat
  | .insertDevice .. => Unit
  | .userDevices _ => List (PubKey × String)
  | .userLabel _ => Option String
  | .insertUserLabel .. => Unit
  | .setToken .. => Unit
  | .deviceByToken _ => Option (UserId × PubKey)
  | .setDeviceName .. => Unit
  | .deleteDevice .. => Unit
  | .deleteOauth _ => Unit
  | .deleteServices _ => Unit
  | .ensurePrimary .. => Unit
  | .setPrimary .. => Unit
  | .deletePrimary _ => Unit
  | .primaryPubkey _ => Option PubKey
  | .upsertEnrollmentKey .. => Unit
  | .enrollmentKey _ => Option EnrollmentKeyRow
  /- whether a row was updated -/
  | .claimEnrollmentKey .. => Bool
  | .replaceServices .. => List String × List RefusedService

def sortService (deviceNames heldElsewhere : List String)
    (sorted : List String × List RefusedService) (label : String) :
    List String × List RefusedService :=
  let refuse (reason : String) := (sorted.1, sorted.2 ++ [⟨label, reason⟩])
  if !validLabel label then refuse "not a usable service name"
  else if label ∈ deviceNames then
    refuse s!"you have a device named {label.quote}, and a device name wins"
  else if label ∈ heldElsewhere then
    refuse s!"another of your devices already serves {label.quote}"
  else if sorted.1.length ≥ MAX_WEB_SERVICES_PER_DEVICE then
    refuse s!"a device may certify at most {MAX_WEB_SERVICES_PER_DEVICE} service names"
  else (sorted.1 ++ [label], sorted.2)

def sortServices (deviceNames heldElsewhere labels : List String) :
    List String × List RefusedService :=
  labels.foldl (sortService deviceNames heldElsewhere) ([], [])

namespace Database

def devicesOf (db : Database) (user : UserId) : List (PubKey × DeviceRow) :=
  db.devices.table.rows.filter fun row => row.2.userId == user

/-- The rows of one user, newest binding first: by `bound_at`, then by rowid. -/
def bindingsOf (db : Database) (user : UserId) : List (PubKey × OauthRow) :=
  ((db.oauthAuthorized.rows.filter fun row => row.2.userId == user).reverse).insertionSort
    fun first second => first.2.boundAt ≥ second.2.boundAt

def claimable (row : EnrollmentKeyRow) (now : Nat) : Bool :=
  row.usedBy.isNone &&
    match row.expiresAt with
    | none => true
    | some expires => expires > now

def run (db : Database) : (q : Query) → Except StoreError (q.Res × Database)
  | .signingSeed guild => .ok (db.guildSigningKeys.get? guild, db)
  | .insertSigningSeed guild key =>
      if db.guildSigningKeys.contains guild then .error .uniqueViolation
      else .ok ((), { db with guildSigningKeys := db.guildSigningKeys.insert guild key })
  | .rotationChain guild =>
      .ok ((db.guildRotationCerts.filter fun row => row.1 == guild).map Prod.snd, db)
  | .upsertNetwork guild role name =>
      .ok ((), { db with networks := db.networks.insert (guild, role) name })
  | .deleteNetwork guild role =>
      .ok ((), { db with networks := db.networks.erase (guild, role) })
  | .networksInGuild guild =>
      .ok ((db.networks.rows.filter fun row => row.1.1 == guild).map
        fun row => ⟨guild, row.1.2, row.2⟩, db)
  | .allNetworks => .ok (db.networks.rows.map fun row => ⟨row.1.1, row.1.2, row.2⟩, db)
  | .upsertOauth pubkey user now =>
      .ok ((), { db with oauthAuthorized := db.oauthAuthorized.replace pubkey ⟨user, now⟩ })
  | .pruneOauth user =>
      let kept := (db.bindingsOf user).take MAX_OAUTH_BINDINGS_PER_USER
      .ok ((),
        { db with
          oauthAuthorized := db.oauthAuthorized.retain fun pubkey row =>
            row.userId != user || kept.any fun keep => keep.1 == pubkey })
  | .oauthUser pubkey => .ok ((db.oauthAuthorized.get? pubkey).map (·.userId), db)
  | .touchDevice pubkey now personal =>
      .ok ((),
        { db with
          devices := db.devices.adjust pubkey
            (fun row => { row with lastSeen := some now, personal := personal })
            fun _ => rfl })
  | .idlePersonal cutoff =>
      .ok ((db.devices.table.rows.filter fun row =>
          row.2.personal &&
            match row.2.lastSeen with
            | none => false
            | some seen => seen < cutoff).map
        fun row => (row.1, row.2.userId), db)
  | .setUserHandle user handle =>
      .ok ((), { db with userHandles := db.userHandles.insert user handle })
  | .userHandle user => .ok (db.userHandles.get? user, db)
  | .communitySlug guild => .ok (db.communities.get? guild, db)
  | .device pubkey => .ok (db.devices.get? pubkey, db)
  | .countDevices user => .ok ((db.devicesOf user).length, db)
  | .indices => .ok (db.devices.table.values.map (·.idx), db)
  | .insertDevice pubkey row =>
      match db.devices.insertNew pubkey row with
      | none => .error .uniqueViolation
      | some devices => .ok ((), { db with devices := devices })
  | .userDevices user =>
      .ok ((db.devicesOf user).map fun row => (row.1, row.2.deviceName), db)
  | .userLabel user => .ok (db.userLabels.get? user, db)
  | .insertUserLabel user label =>
      match db.userLabels.insertNew user label with
      | none => .error .uniqueViolation
      | some userLabels => .ok ((), { db with userLabels := userLabels })
  | .setToken pubkey token =>
      .ok ((),
        { db with
          devices := db.devices.adjust pubkey (fun row => { row with token := some token })
            fun _ => rfl })
  | .deviceByToken token =>
      .ok ((db.devices.table.rows.find? fun row => row.2.token == some token).map
        fun row => (row.2.userId, row.1), db)
  | .setDeviceName pubkey name =>
      .ok ((),
        { db with
          devices := db.devices.adjust pubkey (fun row => { row with deviceName := name })
            fun _ => rfl })
  | .deleteDevice pubkey user =>
      .ok ((),
        { db with
          devices := db.devices.retain fun key row => !(key == pubkey && row.userId == user) })
  | .deleteOauth pubkey =>
      .ok ((), { db with oauthAuthorized := db.oauthAuthorized.erase pubkey })
  | .deleteServices pubkey =>
      .ok ((),
        { db with deviceServices := db.deviceServices.retain fun _ device => device != pubkey })
  | .ensurePrimary user pubkey =>
      .ok ((),
        if db.primaryDevice.contains user then db
        else { db with primaryDevice := db.primaryDevice.insert user pubkey })
  | .setPrimary user pubkey =>
      .ok ((), { db with primaryDevice := db.primaryDevice.insert user pubkey })
  | .deletePrimary user =>
      .ok ((), { db with primaryDevice := db.primaryDevice.erase user })
  | .primaryPubkey user => .ok (db.primaryDevice.get? user, db)
  | .upsertEnrollmentKey key user expiresAt =>
      -- a key that exists keeps its `used_by`
      .ok ((),
        { db with
          enrollmentKeys := db.enrollmentKeys.insert key
            ⟨user, expiresAt, (db.enrollmentKeys.get? key).bind (·.usedBy)⟩ })
  | .enrollmentKey key => .ok (db.enrollmentKeys.get? key, db)
  | .claimEnrollmentKey key pubkey now =>
      match db.enrollmentKeys.get? key with
      | none => .ok (false, db)
      | some row =>
          if claimable row now then
            .ok (true,
              { db with
                enrollmentKeys :=
                  db.enrollmentKeys.insert key { row with usedBy := some pubkey } })
          else .ok (false, db)
  | .replaceServices user pubkey labels =>
      let heldElsewhere :=
        (db.deviceServices.rows.filter fun row =>
          row.1.1 == user && row.2 != pubkey).map fun row => row.1.2
      let sorted :=
        sortServices ((db.devicesOf user).map fun row => row.2.deviceName) heldElsewhere labels
      let cleared :=
        db.deviceServices.retain fun name device => !(name.1 == user && device == pubkey)
      .ok (sorted,
        { db with
          deviceServices := sorted.1.foldl
            (fun services label => services.insert (user, label) pubkey)
            cleared })

/-- A statement runs or fails; one that fails changes nothing. -/
def step (db : Database) (q : Query) (fault : Option String) :
    Except StoreError q.Res × Database :=
  match fault with
  | some why => (.error (.database why), db)
  | none =>
      match db.run q with
      | .error error => (.error error, db)
      | .ok (answer, db') => (.ok answer, db')

theorem step_ok {db db' : Database} {q : Query} {fault : Option String} {answer : q.Res}
    (hstep : db.step q fault = (.ok answer, db')) :
    fault = none ∧ db.run q = .ok (answer, db') := by
  unfold step at hstep
  split at hstep
  · cases hstep
  · split at hstep
    · cases hstep
    · rename_i hrun
      cases hstep
      exact ⟨rfl, hrun⟩

theorem step_error {db db' : Database} {q : Query} {fault : Option String}
    {error : StoreError} (hstep : db.step q fault = (.error error, db')) : db' = db := by
  unfold step at hstep
  split at hstep
  · cases hstep
    rfl
  · split at hstep
    · cases hstep
      rfl
    · cases hstep

/-! What the statements do to the tables. -/

inductive Part
  | guildSigningKeys
  | networks
  | devices
  | enrollmentKeys
  | oauthAuthorized
  | userLabels
  | deviceServices

def writes : Query → Option Part
  | .insertSigningSeed .. => some .guildSigningKeys
  | .upsertNetwork .. | .deleteNetwork .. => some .networks
  | .touchDevice .. | .insertDevice .. | .setToken .. | .setDeviceName .. | .deleteDevice .. =>
      some .devices
  | .upsertEnrollmentKey .. | .claimEnrollmentKey .. => some .enrollmentKeys
  | .upsertOauth .. | .pruneOauth _ | .deleteOauth _ => some .oauthAuthorized
  | .insertUserLabel .. => some .userLabels
  | .deleteServices _ | .replaceServices .. => some .deviceServices
  | _ => none

structure Frame (q : Query) (db db' : Database) : Prop where
  guildSigningKeys : writes q ≠ some .guildSigningKeys → db'.guildSigningKeys = db.guildSigningKeys
  networks : writes q ≠ some .networks → db'.networks = db.networks
  devices : writes q ≠ some .devices → db'.devices = db.devices
  enrollmentKeys : writes q ≠ some .enrollmentKeys → db'.enrollmentKeys = db.enrollmentKeys
  oauthAuthorized : writes q ≠ some .oauthAuthorized → db'.oauthAuthorized = db.oauthAuthorized
  userLabels : writes q ≠ some .userLabels → db'.userLabels = db.userLabels
  deviceServices : writes q ≠ some .deviceServices → db'.deviceServices = db.deviceServices

def usedBy (db : Database) (key : String) : Option PubKey :=
  (db.enrollmentKeys.get? key).bind (·.usedBy)

section

variable {db db' : Database} {q : Query} {answer : q.Res}

attribute [local simp] run

theorem run_frame (hrun : db.run q = .ok (answer, db')) : Frame q db db' := by
  cases q
  all_goals
    simp only [run] at hrun
    (repeat' split at hrun) <;> first
      | (cases hrun; constructor <;> intro htable <;> first | rfl | exact absurd rfl htable)
      | cases hrun

theorem run_insertDevice {pubkey : PubKey} {row : DeviceRow} {inserted : Unit}
    (hrun : db.run (.insertDevice pubkey row) = .ok (inserted, db')) :
    db.devices.get? pubkey = none ∧ ∀ other,
      db'.devices.get? other = if other = pubkey then some row else db.devices.get? other := by
  simp only [run] at hrun
  split at hrun
  · cases hrun
  · rename_i devices hinsert
    cases hrun
    exact UniqueTable.insertNew_some hinsert

theorem run_insertUserLabel {user : UserId} {label : String} {inserted : Unit}
    (hrun : db.run (.insertUserLabel user label) = .ok (inserted, db')) :
    db.userLabels.get? user = none ∧ ∀ other,
      db'.userLabels.get? other =
        if other = user then some label else db.userLabels.get? other := by
  simp only [run] at hrun
  split at hrun
  · cases hrun
  · rename_i userLabels hinsert
    cases hrun
    exact UniqueTable.insertNew_some hinsert

theorem run_device (pubkey : PubKey) (hrun : db.run q = .ok (answer, db')) :
    ((db'.devices.get? pubkey).isSome = (db.devices.get? pubkey).isSome) ∨
      (∃ user, q = .deleteDevice pubkey user) ∨
      (∃ row, q = .insertDevice pubkey row ∧ db.devices.get? pubkey = none) := by
  by_cases hwrites : writes q = some .devices
  · cases q <;> try (cases hwrites; done)
    case insertDevice key row =>
      obtain ⟨hfresh, hget⟩ := run_insertDevice hrun
      by_cases hkey : pubkey = key
      · subst hkey
        exact .inr (.inr ⟨row, rfl, hfresh⟩)
      · left
        simp [hget, hkey]
    case deleteDevice key user =>
      cases hrun
      by_cases hkey : pubkey = key
      · subst hkey
        exact .inr (.inl ⟨user, rfl⟩)
      · left
        cases hrow : db.devices.get? pubkey <;> simp [hrow, hkey, Option.filter]
    all_goals
      cases hrun
      left
      rw [UniqueTable.get?_adjust]
      split
      · rename_i hkey
        simp [hkey]
      · rfl
  · left
    rw [(run_frame hrun).devices hwrites]

theorem run_binding (pubkey : PubKey) (hrun : db.run q = .ok (answer, db')) :
    db'.oauthAuthorized.get? pubkey = db.oauthAuthorized.get? pubkey ∨
      db'.oauthAuthorized.get? pubkey = none ∨
      ∃ user now, q = .upsertOauth pubkey user now ∧
        db'.oauthAuthorized.get? pubkey = some ⟨user, now⟩ := by
  by_cases hwrites : writes q = some .oauthAuthorized
  · cases q <;> try (cases hwrites; done)
    case upsertOauth key user now =>
      cases hrun
      by_cases hkey : pubkey = key
      · subst hkey
        exact .inr (.inr ⟨user, now, rfl, by simp⟩)
      · left
        simp [hkey]
    case pruneOauth user =>
      cases hrun
      cases hrow : db.oauthAuthorized.get? pubkey with
      | none => simp [hrow]
      | some row =>
          simp only [Table.get?_retain, hrow, Option.filter]
          split <;> simp
    case deleteOauth key =>
      cases hrun
      by_cases hkey : pubkey = key <;> simp [hkey]
  · left
    rw [(run_frame hrun).oauthAuthorized hwrites]

theorem run_oauth {pubkey : PubKey} (hrun : db.run q = .ok (answer, db'))
    (habsent : db.oauthAuthorized.get? pubkey = none) :
    db'.oauthAuthorized.get? pubkey = none ∨ ∃ user now, q = .upsertOauth pubkey user now := by
  rcases run_binding pubkey hrun with hkept | hgone | ⟨user, now, hlogin, _⟩
  · exact .inl (hkept.trans habsent)
  · exact .inl hgone
  · exact .inr ⟨user, now, hlogin⟩

theorem run_usedBy (key : String) (hrun : db.run q = .ok (answer, db')) :
    db'.usedBy key = db.usedBy key ∨
      ∃ pubkey now, q = .claimEnrollmentKey key pubkey now ∧ db'.usedBy key = some pubkey := by
  by_cases hwrites : writes q = some .enrollmentKeys
  · cases q <;> try (cases hwrites; done)
    case upsertEnrollmentKey other user expiresAt =>
      cases hrun
      left
      by_cases hkey : key = other
      · subst hkey
        simp [usedBy]
      · simp [usedBy, hkey]
    case claimEnrollmentKey other pubkey now =>
      simp only [run] at hrun
      split at hrun
      · cases hrun
        exact .inl rfl
      · split at hrun
        · cases hrun
          by_cases hkey : key = other
          · subst hkey
            exact .inr ⟨pubkey, now, rfl, by simp [usedBy]⟩
          · left
            simp [usedBy, hkey]
        · cases hrun
          exact .inl rfl
  · left
    unfold usedBy
    rw [(run_frame hrun).enrollmentKeys hwrites]

theorem run_network {guild : GuildId} {role : RoleId} (hrun : db.run q = .ok (answer, db'))
    (hnetwork : (db.networks.get? (guild, role)).isSome = true) :
    (db'.networks.get? (guild, role)).isSome = true ∨ q = .deleteNetwork guild role := by
  by_cases hwrites : writes q = some .networks
  · cases q <;> try (cases hwrites; done)
    case upsertNetwork g r name =>
      cases hrun
      left
      by_cases hkey : (guild, role) = (g, r) <;> simp [hkey, hnetwork]
    case deleteNetwork g r =>
      cases hrun
      by_cases hkey : (guild, role) = (g, r)
      · cases hkey
        exact .inr rfl
      · left
        simp [hkey, hnetwork]
  · left
    rw [(run_frame hrun).networks hwrites]
    exact hnetwork

theorem run_claim_refused {key : String} {pubkey : PubKey} {now : Nat}
    (hrun : db.run (.claimEnrollmentKey key pubkey now) = .ok (false, db')) : db' = db := by
  simp only [run] at hrun
  split at hrun
  · cases hrun
    rfl
  · split at hrun
    · cases hrun
    · cases hrun
      rfl

end

end Database

end UnityLan.Coordinator
