import UnityLan.Coordinator.State

namespace UnityLan.Coordinator

open UnityLan.Foundation

/-! The store's functions, as the statements they run one after the other. -/

def MAX_DEVICES_PER_USER : Nat := 32

def MAX_LABEL_SUFFIX : Nat := 32

def MAX_LABEL_LEN : Nat := 63

/-- `desired` with a `-n` suffix, trimmed to fit a DNS label. -/
def suffixedLabel (desired : String) (n : Nat) : String :=
  let suffix := s!"-{n}"
  String.ofList (desired.toList.take (MAX_LABEL_LEN - suffix.utf8ByteSize)) ++ suffix

theorem suffixedLabel_plain {desired : String} (hplain : isPlainLabel desired = true) (n : Nat) :
    isPlainLabel (suffixedLabel desired n) = true := by
  unfold suffixedLabel
  have hsuffix : isPlainLabel s!"-{n}" = true := by
    rw [isPlainLabel_append, isPlainLabel_toString]
    rfl
  have hstem : isPlainLabel (String.ofList
      (desired.toList.take (MAX_LABEL_LEN - (s!"-{n}").utf8ByteSize))) = true := by
    unfold isPlainLabel at hplain ⊢
    rw [String.toList_ofList]
    exact List.all_eq_true.mpr fun c hc =>
      List.all_eq_true.mp hplain c (List.mem_of_mem_take hc)
  rw [isPlainLabel_append, hstem, hsuffix]
  rfl

namespace Store

variable (conf : Conf)

def loadOrCreateSeed (guild : GuildId) : Stored Anchor := do
  match ← sql (.signingSeed guild) with
  | some seed => return seed
  | none =>
      let seed ← act .genSigningKey
      sql (.insertSigningSeed guild seed)
      return seed

/-! Interactive login. -/

def bindOauth (pubkey : PubKey) (user : UserId) : Stored Unit := do
  let now ← act .nowUnix
  sql (.upsertOauth pubkey user now)
  sql (.pruneOauth user)

def touchDevice (pubkey : PubKey) (personal : Bool) : Stored Unit := do
  let now ← act .nowUnix
  sql (.touchDevice pubkey now personal)

/-! Devices. -/

/-- The owner's other device names; `exclude` is the device being named. -/
def otherNames (devices : List (PubKey × String)) (exclude : Option PubKey) : List String :=
  ((devices.filter fun device => some device.1 != exclude).map Prod.snd).dedup

def uniqueDeviceName (user : UserId) (desired : String) (exclude : Option PubKey) :
    Stored String := do
  let taken := otherNames (← sql (.userDevices user)) exclude
  if desired ∉ taken then return desired
  match (List.range' 2 (taken.length + 1)).find? fun n => suffixedLabel desired n ∉ taken with
  | some n => return suffixedLabel desired n
  | none => throw (.message "a free suffix always exists within taken.len()+1 candidates")

/-- The device's address and its authoritative name, allocating both on first
sight. -/
def allocateDevice (pubkey : PubKey) (user : UserId) (deviceName : String) :
    Stored (Ipv4Addr × String) := do
  match ← sql (.device pubkey) with
  | some row =>
      if indexIsValid conf.wgNet row.idx then
        return (addrFromIndex conf.wgNet row.idx, row.deviceName)
      else
        throw (.message
          s!"device row has host index {row.idx}, outside {conf.wgNet.render}; re-enroll it")
  | none =>
      let owned ← sql (.countDevices user)
      if owned ≥ MAX_DEVICES_PER_USER then
        throw (.message s!"device limit reached for this account (max {MAX_DEVICES_PER_USER})")
      let taken ← sql .indices
      match pickFreeIndex conf.wgNet taken (deviceHint conf.sip conf.wgNet pubkey) with
      | none => throw (.message s!"mesh address space {conf.wgNet.render} exhausted")
      | some idx =>
          let name ← uniqueDeviceName user deviceName none
          let token ← act .genEnrollmentKey
          sql (.insertDevice pubkey
            { idx := idx, userId := user, deviceName := name, token := some token })
          return (addrFromIndex conf.wgNet idx, name)

/-- The attempts of `userLabel`; each lets the unique index arbitrate. -/
def claimLabel (user : UserId) (desired : String) : List Nat → Stored (Option String)
  | [] => return none
  | n :: rest => do
      let candidate := if n = 0 then desired else suffixedLabel desired (n + 1)
      match ← act (.store (.insertUserLabel user candidate)) with
      | .ok _ => return some candidate
      | .error .uniqueViolation =>
          match ← sql (.userLabel user) with
          | some label => return some label
          | none => claimLabel user desired rest
      | .error error => throw error

def userLabel (user : UserId) (seed : String) : Stored String := do
  match ← sql (.userLabel user) with
  | some label => return label
  | none =>
      match ← claimLabel user (sanitizeLabel seed) (List.range MAX_LABEL_SUFFIX) with
      | some label => return label
      | none =>
          let fallback := s!"user-{user}"
          match ← act (.store (.insertUserLabel user fallback)) with
          | .ok _ => return fallback
          | .error _ => throw (.message s!"allocating a DNS label for user {user}")

def deviceToken (pubkey : PubKey) : Stored (Option String) := do
  match ← sql (.device pubkey) with
  | none => return none
  | some row =>
      match row.token with
      | some token => return some token
      | none =>
          let token ← act .genEnrollmentKey
          sql (.setToken pubkey token)
          return some token

def deviceAuth (pubkey : PubKey) : Stored (Option (Option String)) := do
  return (← sql (.device pubkey)).map (·.token)

def renameDevice (user : UserId) (pubkey : PubKey) (name : String) : Stored String := do
  let name ← uniqueDeviceName user name (some pubkey)
  sql (.setDeviceName pubkey name)
  return name

def removeDevice (user : UserId) (pubkey : PubKey) : Stored Unit := do
  sql (.deleteDevice pubkey user)
  sql (.deleteOauth pubkey)
  sql (.deleteServices pubkey)
  if (← sql (.primaryPubkey user)) = some pubkey then
    match ← sql (.userDevices user) with
    | (other, _) :: _ => sql (.setPrimary user other)
    | [] => sql (.deletePrimary user)

def deviceOwner (pubkey : PubKey) : Stored (Option UserId) := do
  return (← sql (.device pubkey)).map (·.userId)

/-- Remove every idle personal device; the answer counts them. -/
def reclaimIdlePersonalDevices (idleSecs : Nat) : Stored Nat := do
  let now ← act .nowUnix
  let rows ← sql (.idlePersonal (now - idleSecs))
  rows.foldlM
    (fun freed row => do
      removeDevice row.2 row.1
      return freed + 1)
    0

/-! Enrollment keys. -/

def consumeEnrollmentKey (key : String) (pubkey : PubKey) (now : Nat) : Stored UserId := do
  match ← sql (.enrollmentKey key) with
  | none => throw (.message "unknown enrollment key")
  | some row =>
      if ← sql (.claimEnrollmentKey key pubkey now) then return row.userId
      -- the claim matched nothing: told apart by the row read before it
      match row.usedBy with
      | some used =>
          if used = pubkey then return row.userId
          else throw (.message "enrollment key already used")
      | none => throw (.message "enrollment key expired")

end Store

end UnityLan.Coordinator
