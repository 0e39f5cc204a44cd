import UnityLan.Coordinator.Machine

namespace UnityLan.Coordinator

open UnityLan.Foundation Prog

/-! What a handler may do at all: a register handler the operations of the request
it was started with, every other handler none of those that admit or announce a
device.  Every later result about who writes what reads it off here. -/

variable (conf : Conf) (req : RegisterReq)

def RegisterQuery : Query → Prop
  | .insertDevice pubkey _ => pubkey = req.wgPubkey
  | .touchDevice pubkey _ _ => pubkey = req.wgPubkey
  | .setToken pubkey _ => pubkey = req.wgPubkey
  | .enrollmentKey key => req.enrollmentKey = some key
  | .claimEnrollmentKey key pubkey _ => req.enrollmentKey = some key ∧ pubkey = req.wgPubkey
  | .insertUserLabel _ label => isPlainLabel label = true
  | .deleteDevice .. => req.supersede.isSome
  | .deleteOauth _ => req.supersede.isSome
  | .deleteServices _ => req.supersede.isSome
  | .upsertOauth .. => False
  | .pruneOauth _ => False
  | .upsertNetwork .. => False
  | .deleteNetwork .. => False
  | .setUserHandle .. => False
  | .setDeviceName .. => False
  | .upsertEnrollmentKey .. => False
  | .idlePersonal _ => False
  | _ => True

/-- The presence a request writes is its own; a superseding one also evicts. -/
def RegisterPresence : Presence.Op → Prop
  | .record _ _ p _ _ => p.pubkey = req.wgPubkey ∧ req.paused = false
  | .recordSelf _ p _ _ =>
      p.pubkey = req.wgPubkey ∧ req.paused = false ∧ req.peerOwnDevices = true
  | .evictUser .. => False
  | .reapMap .. => False
  | .reapSelf .. => False
  | .mapPubkeys => False
  | .selfPubkeys => False
  | .evict _ _ pubkey => pubkey = req.wgPubkey ∨ req.supersede.isSome
  | .evictSelf _ pubkey => pubkey = req.wgPubkey ∨ req.supersede.isSome
  | .othersIn _ _ exclude => exclude = req.wgPubkey
  | .othersOfUser _ exclude => exclude = req.wgPubkey
  | .networksOf _ => True

def RegisterNat : NatTables.Op → Prop
  | .putSourceIp pubkey _ => pubkey = req.wgPubkey
  | .recordRelay pubkey capable addr secret =>
      pubkey = req.wgPubkey ∧ capable = req.relayCapable ∧ addr = req.relayAddr ∧
        secret = req.relaySecret
  | .recordAllocs owner allocated _ => owner = req.wgPubkey ∧ allocated = req.relayAllocated
  | .recordIce owner offers _ => owner = req.wgPubkey ∧ offers = req.ice
  | .recordReflexives observed _ => observed = req.observed
  | .pruneSourceIp _ => False
  | .pruneReflexive _ => False
  | .pruneRelays _ => False
  | .pruneRelayAllocs _ => False
  | .pruneIce _ => False
  | _ => True

def RemovalQuery (user : UserId) (pubkey : PubKey) : Query → Prop
  | .deleteDevice key owner => key = pubkey ∧ owner = user
  | .deleteOauth key => key = pubkey
  | .deleteServices key => key = pubkey
  | .primaryPubkey owner => owner = user
  | .userDevices owner => owner = user
  | .setPrimary owner _ => owner = user
  | .deletePrimary owner => owner = user
  | _ => False

def StoreOp (inside : Query → Prop) : Op → Prop
  | .store q => inside q
  | _ => False

theorem StoreOp.mono {inside : Query → Prop} {wider : Op → Prop}
    (hwider : ∀ q, inside q → wider (.store q)) : ∀ o, StoreOp inside o → wider o
  | .store q, h => hwider q h

def RegisterOp : Op → Prop
  | .store q => RegisterQuery req q
  | .presence o => RegisterPresence req o
  | .nat o => RegisterNat req o
  | .wakers (.retain _) => False
  | .wakers (.subscribe pubkey) => pubkey = req.wgPubkey
  | .tryAcquire pubkey => pubkey = req.wgPubkey
  | .caches (.forget ..) => False
  | .roleless (.forget _) => False
  | .verifyOauth _ => False
  | _ => True

/-! Its parts do less: reading names and labels, looking a member up, admitting the
device and allocating its identity, waiting, and everything that only answers. -/

def LabelOp : Op → Prop
  | .store (.communitySlug _) => True
  | .store (.userHandle _) => True
  | .store (.userLabel _) => True
  | .store (.insertUserLabel _ label) => isPlainLabel label = true
  | .caches (.cachedName _) => True
  | .caches (.storeName ..) => True
  | .caches (.cachedRole ..) => True
  | .caches (.storeRoles ..) => True
  | .locks _ => True
  | .fetchGuild _ => True
  | .fetchRoles _ => True
  | .knownLabel _ => True
  | .keepLabel .. => True
  | _ => False

def NameOp : Op → Prop
  | .store (.communitySlug _) => True
  | .caches (.cachedName _) => True
  | .caches (.storeName ..) => True
  | .caches (.cachedRole ..) => True
  | .caches (.storeRoles ..) => True
  | .locks _ => True
  | .fetchGuild _ => True
  | .fetchRoles _ => True
  | _ => False

def MemberOp (guild : GuildId) (user : UserId) : Op → Prop
  | .caches (.cachedMember g u) => g = guild ∧ u = user
  | .caches (.storeMember g u _) => g = guild ∧ u = user
  | .fetchMember g u => g = guild ∧ u = user
  | .locks _ => True
  | _ => False

def IdentityOp (user : UserId) : Op → Prop
  | .store (.device _) => True
  | .store (.countDevices _) => True
  | .store (.indices) => True
  | .store (.userDevices _) => True
  | .store (.insertDevice pubkey row) => pubkey = req.wgPubkey ∧ row.userId = user
  | .store (.ensurePrimary ..) => True
  | .store (.primaryPubkey _) => True
  | .genEnrollmentKey => True
  | _ => False

def TouchOp (personal : Bool) : Op → Prop
  | .store (.touchDevice pubkey _ flag) => pubkey = req.wgPubkey ∧ flag = personal
  | .nowUnix => True
  | _ => False

def AdmissionOp : Op → Prop
  | .store (.device _) => True
  | .store (.oauthUser _) => True
  | .store (.enrollmentKey key) => req.enrollmentKey = some key
  | .store (.claimEnrollmentKey key pubkey _) =>
      req.enrollmentKey = some key ∧ pubkey = req.wgPubkey
  | .nowUnix => True
  | _ => False

def EvictOp (pubkey : PubKey) : Op → Prop
  | .presence (.evict _ _ key) => key = pubkey
  | _ => False

def EvictUserOp (guild : GuildId) (user : UserId) : Op → Prop
  | .presence (.evictUser g _ u) => g = guild ∧ u = user
  | _ => False

def ParkOp : Op → Prop
  | .versions (.subscribe _) => True
  | .versions (.counter _) => True
  | .select .. => True
  | .instant => True
  | .rounds => True
  | .never => True
  | _ => False

def CounterOp : Op → Prop
  | .versions (.counter _) => True
  | _ => False

def SettleOp : Op → Prop
  | .store q => RegisterQuery req q
  | .presence (.othersIn ..) => False
  | .presence (.othersOfUser ..) => False
  | .presence o => RegisterPresence req o
  | .nat (.putSourceIp pubkey _) => pubkey = req.wgPubkey
  | .nat _ => False
  | .versions _ => False
  | .wakers _ => False
  | .signing _ => False
  | .tryAcquire _ => False
  | .select .. => False
  | .sleep => False
  | .rounds => False
  | .never => False
  | .caches (.forget ..) => False
  | .roleless (.forget _) => False
  | .verifyOauth _ => False
  | _ => True

def RosterOp : Op → Prop
  | .store (.insertDevice ..) => False
  | o => SettleOp req o

def InnerOp : Op → Prop
  | .nat _ => False
  | o => RosterOp req o

def OwnedOp (user : UserId) : Op → Prop
  | .store (.insertDevice pubkey row) => pubkey = req.wgPubkey ∧ row.userId = user
  | o => SettleOp req o

def AnswerOp : Op → Prop
  | .store (.signingSeed _) => True
  | .store (.insertSigningSeed ..) => True
  | .store (.rotationChain _) => True
  | .store (.device _) => True
  | .store (.setToken pubkey _) => pubkey = req.wgPubkey
  | .versions (.bump _) => True
  | .versions .bumpGlobal => True
  | .presence (.othersIn _ _ exclude) => exclude = req.wgPubkey
  | .presence (.othersOfUser _ exclude) => exclude = req.wgPubkey
  | .wakers (.wake _) => True
  | .locks _ => True
  | .signing (.keepKey guild key) => key.signer.guildId = guild
  | .signing _ => True
  | .nat (.putSourceIp ..) => False
  | .nat o => RegisterNat req o
  | .nowUnix => True
  | .genEnrollmentKey => True
  | .genSigningKey => True
  | _ => False

def PlainOp : Op → Prop
  | .presence _ => False
  | .signing (.fresh ..) => False
  | .signing (.keep ..) => False
  | o => AnswerOp req o

def AttestOp : Op → Prop
  | .presence _ => False
  | .nat _ => False
  | o => AnswerOp req o

def QuietOp : Op → Prop
  | .nat _ => False
  | o => PlainOp req o

def TellOp (o : Op) : Prop :=
  AnswerOp req o ∨ CounterOp o

attribute [local simp] RegisterOp RegisterQuery RegisterPresence RegisterNat LabelOp MemberOp
  NameOp IdentityOp TouchOp AdmissionOp EvictOp ParkOp AnswerOp PlainOp AttestOp QuietOp SettleOp
  RosterOp InnerOp OwnedOp

theorem name_label : ∀ o, NameOp o → LabelOp o := by
  intro o h
  unfold NameOp at h
  split at h <;> trivial

theorem label_inner : ∀ o, LabelOp o → InnerOp req o := by
  intro o h
  unfold LabelOp at h
  split at h <;> trivial

theorem member_inner (guild : GuildId) (user : UserId) :
    ∀ o, MemberOp guild user o → InnerOp req o := by
  intro o h
  unfold MemberOp at h
  split at h <;> trivial

theorem inner_roster : ∀ o, InnerOp req o → RosterOp req o := by
  intro o h
  unfold InnerOp at h
  split at h
  · exact h.elim
  · exact h

theorem identity_owned (user : UserId) : ∀ o, IdentityOp req user o → OwnedOp req user o := by
  intro o h
  unfold IdentityOp at h
  split at h <;> trivial

theorem roster_owned (user : UserId) : ∀ o, RosterOp req o → OwnedOp req user o := by
  intro o h
  cases o with
  | store q =>
      cases q with
      | insertDevice pubkey row => exact h.elim
      | _ => exact h
  | _ => exact h

theorem owned_settle (user : UserId) : ∀ o, OwnedOp req user o → SettleOp req o := by
  intro o h
  cases o with
  | store q =>
      cases q with
      | insertDevice pubkey row => exact h.1
      | _ => exact h
  | _ => exact h

theorem touch_roster (personal : Bool) : ∀ o, TouchOp req personal o → RosterOp req o := by
  intro o h
  unfold TouchOp at h
  split at h
  · exact h.1
  · trivial
  · exact h.elim

theorem admission_register : ∀ o, AdmissionOp req o → RegisterOp req o := by
  intro o h
  unfold AdmissionOp at h
  split at h <;> trivial

theorem evict_inner {pubkey : PubKey}
    (hown : pubkey = req.wgPubkey ∨ req.supersede.isSome) :
    ∀ o, EvictOp pubkey o → InnerOp req o := by
  intro o h
  unfold EvictOp at h
  split at h
  · exact h ▸ hown
  · exact h.elim

theorem settle_register : ∀ o, SettleOp req o → RegisterOp req o := by
  intro o h
  cases o with
  | presence o => cases o <;> first | exact h | exact h.elim
  | nat o => cases o <;> first | exact h | exact h.elim
  | caches o => cases o <;> exact h
  | roleless o => cases o <;> exact h
  | _ => first | exact h | exact h.elim

theorem park_register : ∀ o, ParkOp o → RegisterOp req o := by
  intro o h
  unfold ParkOp at h
  split at h <;> trivial

theorem plain_answer : ∀ o, PlainOp req o → AnswerOp req o := by
  intro o h
  unfold PlainOp at h
  split at h
  · exact h.elim
  · trivial
  · trivial
  · exact h

theorem attest_answer : ∀ o, AttestOp req o → AnswerOp req o := by
  intro o h
  unfold AttestOp at h
  split at h
  · exact h.elim
  · exact h.elim
  · exact h

theorem quiet_plain : ∀ o, QuietOp req o → PlainOp req o := by
  intro o h
  unfold QuietOp at h
  split at h
  · exact h.elim
  · exact h

theorem quiet_attest : ∀ o, QuietOp req o → AttestOp req o := by
  intro o h
  have hanswer := plain_answer req o (quiet_plain req o h)
  cases o with
  | presence o => exact h.elim
  | nat o => exact h.elim
  | _ => exact hanswer

theorem answer_register : ∀ o, AnswerOp req o → RegisterOp req o := by
  intro o h
  unfold AnswerOp at h
  split at h <;> trivial

theorem tell_register : ∀ o, TellOp req o → RegisterOp req o := by
  intro o h
  rcases h with hanswer | hcounter
  · exact answer_register req o hanswer
  · unfold CounterOp at hcounter
    split at hcounter <;> trivial

variable {req}

/-! The store. -/

theorem loadOrCreateSeed_quiet (guild : GuildId) :
    (Store.loadOrCreateSeed guild).Uses (QuietOp req) := by
  simp only [Store.loadOrCreateSeed, uses_sql_bind]
  refine ⟨trivial, fun found => ?_⟩
  cases found with
  | some seed => trivial
  | none => simp

theorem loadOrCreateSeed_uses (guild : GuildId) :
    (Store.loadOrCreateSeed guild).Uses (PlainOp req) :=
  (loadOrCreateSeed_quiet guild).mono (quiet_plain req)

theorem touchDevice_uses (personal : Bool) :
    (Store.touchDevice req.wgPubkey personal).Uses (TouchOp req personal) := by
  simp [Store.touchDevice]

theorem uniqueDeviceName_uses (user : UserId) (desired : String)
    (exclude : Option PubKey) :
    (Store.uniqueDeviceName user desired exclude).Uses (IdentityOp req user) := by
  simp only [Store.uniqueDeviceName, uses_sql_bind]
  refine ⟨trivial, fun devices => ?_⟩
  split
  · trivial
  · split <;> trivial

theorem allocateDevice_uses (user : UserId) (name : String) :
    (Store.allocateDevice conf req.wgPubkey user name).Uses (IdentityOp req user) := by
  simp only [Store.allocateDevice, uses_sql_bind]
  refine ⟨trivial, fun found => ?_⟩
  cases found with
  | some row =>
      dsimp only
      split <;> trivial
  | none =>
      simp only [uses_sql_bind]
      refine ⟨trivial, fun owned => ?_⟩
      split
      · trivial
      · simp only [uses_sql_bind]
        refine ⟨trivial, fun taken => ?_⟩
        split
        · trivial
        · refine (uniqueDeviceName_uses _ _ _).bind fun chosen => ?_
          simp

theorem claimLabel_uses (user : UserId) {desired : String} (hplain : isPlainLabel desired = true)
    (tries : List Nat) : (Store.claimLabel user desired tries).Uses LabelOp := by
  induction tries with
  | nil => trivial
  | cons n rest ih =>
      have hcandidate :
          isPlainLabel (if n = 0 then desired else suffixedLabel desired (n + 1)) = true := by
        split
        · exact hplain
        · exact suffixedLabel_plain hplain _
      simp only [Store.claimLabel, uses_act_bind]
      refine ⟨hcandidate, fun answer => ?_⟩
      split
      · trivial
      · simp only [uses_sql_bind]
        refine ⟨trivial, fun found => ?_⟩
        cases found with
        | some label => trivial
        | none => exact ih
      · trivial

theorem storeUserLabel_uses (user : UserId) (seed : String) :
    (Store.userLabel user seed).Uses LabelOp := by
  simp only [Store.userLabel, uses_sql_bind]
  refine ⟨trivial, fun found => ?_⟩
  cases found with
  | some label => trivial
  | none =>
      refine (claimLabel_uses _ (sanitizeLabel_plain seed) _).bind fun claimed => ?_
      cases claimed with
      | some label => trivial
      | none =>
          have hfallback : isPlainLabel s!"user-{user}" = true := by
            rw [isPlainLabel_append, isPlainLabel_toString]
            rfl
          simp only [uses_act_bind]
          refine ⟨hfallback, fun answer => ?_⟩
          split <;> trivial

theorem deviceToken_quiet :
    (Store.deviceToken req.wgPubkey).Uses (QuietOp req) := by
  simp only [Store.deviceToken, uses_sql_bind]
  refine ⟨trivial, fun found => ?_⟩
  cases found with
  | none => trivial
  | some row =>
      dsimp only
      split
      · trivial
      · simp

theorem removeDevice_uses (user : UserId) (pubkey : PubKey) :
    (Store.removeDevice user pubkey).Uses (StoreOp (RemovalQuery user pubkey)) := by
  simp only [Store.removeDevice, uses_sql_bind]
  refine ⟨⟨rfl, rfl⟩, fun _ => ⟨rfl, fun _ => ⟨rfl, fun _ => ⟨rfl, fun primary => ?_⟩⟩⟩⟩
  split
  · simp only [uses_sql_bind]
    refine ⟨rfl, fun devices => ?_⟩
    cases devices with
    | nil => exact (uses_sql _).mpr rfl
    | cons other rest => exact (uses_sql _).mpr rfl
  · trivial

theorem consumeEnrollmentKey_uses {key : String} (hkey : req.enrollmentKey = some key)
    (now : Nat) :
    (Store.consumeEnrollmentKey key req.wgPubkey now).Uses (AdmissionOp req) := by
  simp only [Store.consumeEnrollmentKey, uses_sql_bind]
  refine ⟨hkey, fun found => ?_⟩
  cases found with
  | none => trivial
  | some row =>
      simp only [uses_sql_bind]
      refine ⟨⟨hkey, rfl⟩, fun claimed => ?_⟩
      split
      · trivial
      · split
        · split <;> trivial
        · trivial

/-! Who is calling. -/

theorem verifyPossession_uses : (verifyPossession conf req).Uses (AdmissionOp req) := by
  unfold verifyPossession
  split <;> trivial

theorem authenticateEnrolled_uses : (authenticateEnrolled req).Uses (AdmissionOp req) := by
  unfold authenticateEnrolled
  refine Uses.bind (Uses.mapError ?_ _) fun auth => ?_
  · simp [Store.deviceAuth]
  · cases auth with
    | none => trivial
    | some stored =>
        dsimp only
        split <;> trivial

theorem enrollingUser_uses : (enrollingUser conf req).Uses (AdmissionOp req) := by
  unfold enrollingUser
  refine Uses.bind (Uses.mapError (by simp) _) fun bound => ?_
  cases bound with
  | some user => exact (verifyPossession_uses conf).bind fun _ => trivial
  | none =>
      dsimp only
      split
      · trivial
      · rename_i key hkey
        refine (verifyPossession_uses conf).bind fun _ => ?_
        simp only [uses_act_bind]
        refine ⟨trivial, fun now => ?_⟩
        exact Uses.bind ((consumeEnrollmentKey_uses hkey now).mapError _) fun _ => trivial

theorem resolveUser_uses : (resolveUser conf req).Uses (AdmissionOp req) := by
  unfold resolveUser
  refine Uses.bind (Uses.mapError ?_ _) fun owner => ?_
  · simp [Store.deviceOwner]
  · cases owner with
    | some user => exact (authenticateEnrolled_uses).bind fun _ => trivial
    | none => exact enrollingUser_uses conf

/-! Role lookups. -/

theorem dedup_uses {inside : Op → Prop} {key : FlightKey}
    {cached : Prog sig ε (Option α)} {fetch : Prog sig ε α}
    (hlocks : ∀ o, inside (.locks o)) (hcached : cached.Uses inside)
    (hfetch : fetch.Uses inside) : (dedup key cached fetch).Uses inside := by
  unfold dedup
  refine hcached.bind fun hit => ?_
  cases hit with
  | some hit => trivial
  | none =>
      simp only [uses_act_bind]
      refine ⟨hlocks _, fun gate => ⟨hlocks _, fun _ => ?_⟩⟩
      refine hcached.bind fun again => ?_
      cases again with
      | some hit => simp [hlocks]
      | none => exact hfetch.bind fun out => by simp [hlocks]

theorem member_uses (guild : GuildId) (user : UserId) :
    (RoleSource.member guild user : Prog sig ε _).Uses (MemberOp guild user) := by
  unfold RoleSource.member
  split
  · trivial
  · refine dedup_uses (fun _ => trivial) (by simp) ?_
    simp only [RoleSource.fetchMember, uses_act_bind]
    refine ⟨⟨rfl, rfl⟩, fun answer => ?_⟩
    cases answer <;> simp

theorem guildName_uses (guild : GuildId) :
    (RoleSource.guildName guild : Prog sig ε _).Uses NameOp := by
  unfold RoleSource.guildName
  split
  · trivial
  · refine dedup_uses (fun _ => trivial) (by simp) ?_
    simp only [uses_act_bind]
    refine ⟨trivial, fun answer => ?_⟩
    cases answer <;> simp

theorem roleName_uses (guild : GuildId) (role : RoleId) :
    (RoleSource.roleName guild role : Prog sig ε _).Uses NameOp := by
  unfold RoleSource.roleName
  split
  · trivial
  · refine dedup_uses (fun _ => trivial) (by simp) ?_
    simp only [uses_act_bind]
    refine ⟨trivial, fun answer => ?_⟩
    cases answer <;> simp

theorem lookupMember_uses (cache : MemberCache) (guild : GuildId) (user : UserId) :
    (lookupMember cache guild user).Uses (MemberOp guild user) := by
  unfold lookupMember
  split
  · trivial
  · exact (member_uses guild user).bind fun _ => trivial

theorem holdsAnyNetworkRole_inner (user : UserId) (networks : List Network)
    (cache : MemberCache) :
    (holdsAnyNetworkRole user networks cache).Uses (InnerOp req) := by
  induction networks generalizing cache with
  | nil => trivial
  | cons net rest ih =>
      unfold holdsAnyNetworkRole
      refine ((lookupMember_uses _ _ _).mono (member_inner req _ _)).bind fun looked => ?_
      dsimp only
      split
      · trivial
      · exact ih _

theorem holdsAnyNetworkRole_uses (user : UserId) (networks : List Network)
    (cache : MemberCache) :
    (holdsAnyNetworkRole user networks cache).Uses (RosterOp req) :=
  (holdsAnyNetworkRole_inner user networks cache).mono (inner_roster req)

/-! The phases of a snapshot. -/

theorem resolveDevice_uses (user : UserId) (networks : List Network) (cache : MemberCache) :
    (resolveDevice conf req user networks cache).Uses (OwnedOp req user) := by
  unfold resolveDevice
  refine ((holdsAnyNetworkRole_uses _ _ _).mono (roster_owned req user)).bind fun held => ?_
  dsimp only
  split
  · trivial
  · have hallocate : (Store.allocateDevice conf req.wgPubkey user
        (sanitizeLabel req.deviceName)).Uses (OwnedOp req user) :=
      (allocateDevice_uses conf _ _).mono (identity_owned req user)
    refine Uses.bind (hallocate.mapError _) fun allocated => ?_
    refine Uses.bind (Uses.mapError (by simp) _) fun _ => ?_
    exact Uses.bind (Uses.mapError (by simp) _) fun _ => trivial

theorem evictFrom_uses (pubkey : PubKey) (networks : List (GuildId × RoleId))
    (changed : List Scope) : (evictFrom pubkey networks changed).Uses (EvictOp pubkey) := by
  induction networks generalizing changed with
  | nil => trivial
  | cons network rest ih =>
      simp only [evictFrom, uses_act_bind]
      exact ⟨rfl, fun removed => ih _⟩

theorem retireSuperseded_inner (user : UserId) (changed : List Scope) :
    (retireSuperseded req user changed).Uses (InnerOp req) := by
  unfold retireSuperseded
  split
  · trivial
  · rename_i oldToken htoken
    have hsupersede : req.supersede.isSome := by simp [htoken]
    refine Uses.bind (Uses.mapError (by simp) _) fun found => ?_
    cases found with
    | none => trivial
    | some old =>
        dsimp only
        split
        · refine Uses.bind (Uses.mapError ((removeDevice_uses _ _).mono ?_) _) fun _ => ?_
          · refine StoreOp.mono fun q hremoval => ?_
            cases q <;> simp_all [RemovalQuery]
          simp only [uses_act_bind]
          refine ⟨trivial, fun networks => ?_⟩
          refine Uses.bind ((evictFrom_uses _ _ _).mono
            (evict_inner req (.inr hsupersede))) fun changed => ?_
          simp only [uses_act_bind]
          exact ⟨.inr hsupersede, fun removed => trivial⟩
        · trivial

theorem retireSuperseded_uses (user : UserId) (changed : List Scope) :
    (retireSuperseded req user changed).Uses (RosterOp req) :=
  (retireSuperseded_inner user changed).mono (inner_roster req)

theorem lookupCommunity_uses (guild : GuildId) :
    (lookupCommunity guild).Uses NameOp := by
  unfold lookupCommunity
  refine Uses.bind (Uses.mapError (by simp) _) fun slug => ?_
  cases slug with
  | some slug => trivial
  | none => exact (guildName_uses guild).bind fun _ => trivial

theorem userLabel_uses (user : UserId) (seed : String) :
    (userLabel user seed).Uses LabelOp := by
  simp only [userLabel, uses_act_bind]
  refine ⟨trivial, fun known => ?_⟩
  cases known with
  | some label => trivial
  | none =>
      refine Uses.bind ((storeUserLabel_uses _ _).mapError _) fun label => ?_
      simp

theorem recordPresence_inner (user : UserId) (device : Device) (now : Nat) (net : Network)
    (walk : Walk) :
    (recordPresence req user device now net walk).Uses (InnerOp req) := by
  unfold recordPresence
  split
  · trivial
  · rename_i hpaused
    simp only [uses_act_bind]
    refine ⟨⟨rfl, by simpa using hpaused⟩, fun recorded => ?_⟩
    cases recorded <;> trivial

theorem walkCommunity_uses (guild : GuildId) (community : List (GuildId × String)) :
    (walkCommunity guild community).Uses NameOp := by
  unfold walkCommunity
  split
  · trivial
  · exact (lookupCommunity_uses guild).bind fun _ => trivial

theorem walkUsername_uses (user : UserId) (member : MemberRoles) (walk : Walk) :
    (walkUsername user member walk).Uses LabelOp := by
  unfold walkUsername
  split
  · trivial
  · exact userLabel_uses user member.username

theorem walkHeld_inner (user : UserId) (device : Device) (now : Nat) (net : Network)
    (member : MemberRoles) (walk : Walk) :
    (walkHeld req user device now net member walk).Uses (InnerOp req) := by
  unfold walkHeld
  have hname : ∀ o, NameOp o → InnerOp req o := fun o h => label_inner req o (name_label o h)
  refine ((walkCommunity_uses _ _).mono hname).bind fun labelled => ?_
  refine ((roleName_uses _ _).mono hname).bind fun name => ?_
  refine ((walkUsername_uses _ _ _).mono (label_inner req)).bind fun username => ?_
  dsimp only
  split
  · exact (recordPresence_inner _ _ _ _ _).bind fun _ => trivial
  · trivial

theorem walkNetwork_inner (user : UserId) (device : Device) (now : Nat) (walk : Walk)
    (net : Network) : (walkNetwork req user device now walk net).Uses (InnerOp req) := by
  unfold walkNetwork
  refine ((lookupMember_uses _ _ _).mono (member_inner req _ _)).bind fun looked => ?_
  dsimp only
  split
  · trivial
  · split
    · exact walkHeld_inner _ _ _ _ _ _
    · trivial

theorem resolveMembership_inner (user : UserId) (networks : List Network) (device : Device)
    (cache : MemberCache) (now : Nat) (changed : List Scope) :
    (resolveMembership req user networks device cache now changed).Uses (InnerOp req) := by
  unfold resolveMembership
  refine Uses.bind (Uses.foldlM _ (fun walk net => walkNetwork_inner _ _ _ walk net) _)
    fun walk => ?_
  simp only [uses_act_bind]
  refine ⟨trivial, fun recorded => ?_⟩
  refine Uses.bind ((evictFrom_uses _ _ _).mono (evict_inner req (.inl rfl))) fun changed => ?_
  split
  · refine Uses.bind (Uses.mapError (by simp) _) fun handle => ?_
    cases handle with
    | none => trivial
    | some handle => exact ((userLabel_uses _ _).mono (label_inner req)).bind fun _ => trivial
  · trivial

theorem resolveMembership_uses (user : UserId) (networks : List Network) (device : Device)
    (cache : MemberCache) (now : Nat) (changed : List Scope) :
    (resolveMembership req user networks device cache now changed).Uses (RosterOp req) :=
  (resolveMembership_inner user networks device cache now changed).mono (inner_roster req)

theorem recordOwnDevice_inner (user : UserId) (device : Device) (m : Membership) (now : Nat)
    (changed : List Scope) :
    (recordOwnDevice req user device m now changed).Uses (InnerOp req) := by
  unfold recordOwnDevice
  refine Uses.bind ?_ fun _ => trivial
  unfold announceSelf
  split
  · rename_i hjoins
    simp only [Bool.and_eq_true, Bool.not_eq_true'] at hjoins
    simp [presenceOf, hjoins.1.1, hjoins.1.2]
  · simp

theorem recordOwnDevice_uses (user : UserId) (device : Device) (m : Membership) (now : Nat)
    (changed : List Scope) :
    (recordOwnDevice req user device m now changed).Uses (RosterOp req) :=
  (recordOwnDevice_inner user device m now changed).mono (inner_roster req)

theorem withLock_uses {inside : Op → Prop} {name : LockName} {body : Stored α}
    (hlocks : ∀ o, inside (.locks o)) (hbody : body.Uses inside) :
    (withLock name body).Uses inside := by
  simp only [withLock, uses_act_bind]
  refine ⟨hlocks _, fun _ => hbody.attempt.bind fun result => ?_⟩
  simp only [uses_act_bind]
  refine ⟨hlocks _, fun _ => ?_⟩
  cases result <;> trivial

theorem withLock_conforms {M : Type} {mon : Monitor sig M} {m : M} {name : LockName}
    {body : Stored α} {value : M → α → Prop}
    (hlocks : ∀ m o, mon.allows m (.locks o) ∧ ∀ answer, mon.next m (.locks o) answer = m)
    (hbody : body.Conforms mon (returns value) m) :
    (withLock name body).Conforms mon (returns value) m := by
  rw [withLock, conforms_act_bind]
  obtain ⟨hallowed, hsame⟩ := hlocks m (.lock name)
  refine ⟨hallowed, fun answer _ => ?_⟩
  rw [hsame answer, conforms_bind, conforms_attempt]
  refine hbody.mono fun m' result hresult => ?_
  obtain ⟨hallowed', hsame'⟩ := hlocks m' (.unlock name)
  refine (conforms_act_bind ..).mpr ⟨hallowed', fun answer' _ => ?_⟩
  rw [hsame' answer']
  cases result with
  | ok result => exact hresult
  | error error => trivial

theorem guildKeys_get_quiet (guild : GuildId) :
    (GuildKeys.get conf guild).Uses (QuietOp req) := by
  unfold GuildKeys.get
  refine withLock_uses (fun _ => trivial) ?_
  simp only [uses_act_bind]
  refine ⟨trivial, fun cached => ?_⟩
  cases cached with
  | some key => trivial
  | none =>
      refine (loadOrCreateSeed_quiet guild).bind fun seed => ?_
      simp

theorem guildKeys_get_uses (guild : GuildId) :
    (GuildKeys.get conf guild).Uses (PlainOp req) :=
  (guildKeys_get_quiet conf guild).mono (quiet_plain req)

theorem signWith_quiet (signer : Signer) (id : AttIdentity) (schema : Nat) :
    (signWith signer id schema).Uses (QuietOp req) := by
  simp only [signWith, uses_act_bind]
  refine ⟨trivial, fun now => ?_⟩
  split <;> trivial

theorem signCache_signs (guild : GuildId) (id : AttIdentity) (now schema : Nat) :
    (SignCache.attestation conf guild id now schema).Uses (AttestOp req) := by
  simp only [SignCache.attestation, uses_act_bind]
  refine ⟨trivial, fun hit => ?_⟩
  cases hit with
  | some hit => trivial
  | none =>
      refine withLock_uses (fun _ => trivial) ?_
      simp only [uses_act_bind]
      refine ⟨trivial, fun again => ?_⟩
      cases again with
      | some hit => trivial
      | none =>
          refine ((guildKeys_get_quiet conf guild).mono (quiet_attest req)).bind fun key => ?_
          refine ((signWith_quiet _ _ _).mono (quiet_attest req)).bind fun blob => ?_
          simp

theorem grantAttestations_quiet (id : AttIdentity) (m : Membership) (attSchema : Nat)
    (guilds : List GuildId) :
    (grantAttestations conf id m attSchema guilds).Uses (QuietOp req) := by
  induction guilds with
  | nil => trivial
  | cons guild rest ih =>
      unfold grantAttestations
      refine Uses.bind ((guildKeys_get_quiet conf guild).mapError _) fun key => ?_
      refine Uses.bind ((signWith_quiet _ _ _).mapError _) fun blob => ?_
      exact ih.bind fun _ => trivial

theorem buildGrant_quiet (user : UserId) (device : Device) (m : Membership) (attSchema : Nat) :
    (buildGrant conf req user device m attSchema).Uses (QuietOp req) := by
  unfold buildGrant
  split
  · exact (grantAttestations_quiet conf _ _ _ _).bind fun _ => trivial
  · trivial

theorem buildGrant_uses (user : UserId) (device : Device) (m : Membership) (attSchema : Nat) :
    (buildGrant conf req user device m attSchema).Uses (PlainOp req) :=
  (buildGrant_quiet conf user device m attSchema).mono (quiet_plain req)

theorem gatherShared_uses (m : Membership)
    (held : List ((GuildId × RoleId) × String)) (peers : Peers) :
    (gatherShared req m held peers).Uses (AnswerOp req) := by
  induction held generalizing peers with
  | nil => trivial
  | cons network rest ih =>
      simp only [gatherShared, uses_act_bind]
      exact ⟨rfl, fun others => ih _⟩

theorem gatherPeers_uses (user : UserId) (m : Membership) (grantGuilds : List GuildId) :
    (gatherPeers req user m grantGuilds).Uses (AnswerOp req) := by
  unfold gatherPeers
  refine (gatherShared_uses m _ _).bind fun peers => ?_
  split
  · simp only [uses_act_bind]
    exact ⟨rfl, fun _ => trivial⟩
  · trivial

theorem recordPeerReports_uses (comembers : List PubKey) :
    (recordPeerReports req comembers).Uses (PlainOp req) := by
  simp [recordPeerReports]

theorem peerAttestations_signs (mp : MemberPresence) (m : Membership) (now attSchema : Nat)
    (guilds : List GuildId) :
    (peerAttestations conf mp m now attSchema guilds).Uses (AttestOp req) := by
  induction guilds with
  | nil => trivial
  | cons guild rest ih =>
      unfold peerAttestations
      refine Uses.bind ((signCache_signs conf _ _ _ _).mapError _) fun blob => ?_
      exact ih.bind fun _ => trivial

theorem peerAttestations_uses (mp : MemberPresence) (m : Membership) (now attSchema : Nat)
    (guilds : List GuildId) :
    (peerAttestations conf mp m now attSchema guilds).Uses (AnswerOp req) :=
  (peerAttestations_signs conf mp m now attSchema guilds).mono (attest_answer req)

theorem attestPeers_signs (m : Membership) (now attSchema : Nat) (exchange : Exchange)
    (peers : List (PubKey × Peer)) :
    (attestPeers conf req m now attSchema exchange peers).Uses (AttestOp req) := by
  induction peers with
  | nil => trivial
  | cons peer rest ih =>
      unfold attestPeers
      refine (peerAttestations_signs conf _ _ _ _ _).bind fun attestations => ?_
      exact ih.bind fun _ => trivial

theorem attestPeers_uses (m : Membership) (now attSchema : Nat) (exchange : Exchange)
    (peers : List (PubKey × Peer)) :
    (attestPeers conf req m now attSchema exchange peers).Uses (AnswerOp req) :=
  (attestPeers_signs conf m now attSchema exchange peers).mono (attest_answer req)

theorem buildSeeds_uses (user : UserId) (m : Membership) (grantGuilds : List GuildId)
    (now attSchema : Nat) :
    (buildSeeds conf req user m grantGuilds now attSchema).Uses (AnswerOp req) := by
  unfold buildSeeds
  refine (gatherPeers_uses _ _ _).bind fun peers => ?_
  refine ((recordPeerReports_uses _).mono (plain_answer req)).bind fun wakeTargets => ?_
  simp only [uses_act_bind]
  refine ⟨trivial, fun relays => ⟨trivial, fun relayAllocs => ⟨trivial, fun ice =>
    ⟨trivial, fun reflexive => ?_⟩⟩⟩⟩
  exact (attestPeers_uses conf _ _ _ _ _).bind fun _ => trivial

theorem buildAnchors_quiet (guilds : List GuildId) :
    (buildAnchors conf guilds).Uses (QuietOp req) := by
  induction guilds with
  | nil => trivial
  | cons guild rest ih =>
      unfold buildAnchors
      refine Uses.bind ((guildKeys_get_quiet conf guild).mapError _) fun key => ?_
      exact ih.bind fun _ => trivial

theorem buildAnchors_uses (guilds : List GuildId) :
    (buildAnchors conf guilds).Uses (PlainOp req) :=
  (buildAnchors_quiet conf guilds).mono (quiet_plain req)

theorem signRelease_quiet (guilds : List GuildId) :
    (signRelease conf guilds).Uses (QuietOp req) := by
  unfold signRelease
  split
  · trivial
  · split
    · trivial
    · exact Uses.bind ((guildKeys_get_quiet conf _).mapError _) fun _ => trivial

theorem signRelease_uses (guilds : List GuildId) :
    (signRelease conf guilds).Uses (PlainOp req) :=
  (signRelease_quiet conf guilds).mono (quiet_plain req)

theorem bumpEach_quiet (scopes : List Scope) :
    (bumpAll.bumpEach scopes : Prog sig ε Unit).Uses (QuietOp req) := by
  induction scopes with
  | nil => trivial
  | cons scope rest ih =>
      simp only [bumpAll.bumpEach, uses_act_bind]
      exact ⟨trivial, fun _ => ih⟩

theorem bumpAll_quiet (scopes : List Scope) :
    (bumpAll scopes : Prog sig ε Unit).Uses (QuietOp req) := by
  unfold bumpAll
  split
  · trivial
  · refine (bumpEach_quiet scopes).bind fun _ => ?_
    simp

theorem bumpAll_uses (scopes : List Scope) :
    (bumpAll scopes : Prog sig ε Unit).Uses (PlainOp req) :=
  (bumpAll_quiet scopes).mono (quiet_plain req)

theorem wakeAll_quiet (targets : List PubKey) :
    (wakeAll targets : Prog sig ε Unit).Uses (QuietOp req) := by
  induction targets with
  | nil => trivial
  | cons target rest ih =>
      simp only [wakeAll, uses_act_bind]
      exact ⟨trivial, fun _ => ih⟩

theorem wakeAll_uses (targets : List PubKey) :
    (wakeAll targets : Prog sig ε Unit).Uses (PlainOp req) :=
  (wakeAll_quiet targets).mono (quiet_plain req)

theorem readCounters_uses (scopes : List Scope) :
    (readCounters scopes : Prog sig ε _).Uses CounterOp := by
  induction scopes with
  | nil => trivial
  | cons scope rest ih =>
      simp only [readCounters, uses_act_bind]
      exact ⟨trivial, fun _ => ih.bind fun _ => trivial⟩

theorem aggregate_uses (scopes : List Scope) :
    (aggregate conf scopes : Prog sig ε _).Uses CounterOp :=
  (readCounters_uses scopes).bind fun _ => trivial

theorem deliverToken_quiet (alreadyEnrolled : Bool) :
    (deliverToken req alreadyEnrolled).Uses (QuietOp req) := by
  unfold deliverToken
  split
  · trivial
  · exact deviceToken_quiet.mapError _

theorem deliverToken_uses (alreadyEnrolled : Bool) :
    (deliverToken req alreadyEnrolled).Uses (PlainOp req) :=
  (deliverToken_quiet alreadyEnrolled).mono (quiet_plain req)

theorem settle_owned (callerIp : IpAddr) (user : UserId) :
    (settle conf req callerIp user).Uses (OwnedOp req user) := by
  have hroster := roster_owned req user
  unfold settle
  simp only [uses_act_bind]
  refine ⟨rfl, fun _ => ⟨trivial, fun now => ?_⟩⟩
  refine Uses.bind (Uses.mapError (by simp) _) fun allNetworks => ?_
  simp only [uses_act_bind]
  refine ⟨trivial, fun memo => ?_⟩
  refine (resolveDevice_uses conf _ _ _).bind fun resolved => ?_
  refine ((retireSuperseded_uses _ _).mono hroster).bind fun changed => ?_
  refine ((resolveMembership_uses _ _ _ _ _ _).mono hroster).bind fun membership => ?_
  refine Uses.bind (by unfold rememberRoleless; split <;> simp) fun _ => ?_
  refine Uses.bind ?_ fun _ => ?_
  · unfold touchIdentity
    split
    · exact (((touchDevice_uses _).mono (touch_roster req _)).mono hroster).mapError _
    · trivial
  exact ((recordOwnDevice_uses _ _ _ _ _).mono hroster).bind fun changed => trivial

theorem settle_uses (callerIp : IpAddr) (user : UserId) :
    (settle conf req callerIp user).Uses (SettleOp req) :=
  (settle_owned conf callerIp user).mono (owned_settle req user)

/-- The second half of a snapshot changes neither who is registered nor what is known
of roles. -/
theorem answer_uses (user : UserId) (alreadyEnrolled : Bool) (settled : Settled) :
    (answer conf req user alreadyEnrolled settled).Uses (TellOp req) := by
  have hanswer : ∀ o, AnswerOp req o → TellOp req o := fun _ => .inl
  have hplain : ∀ o, PlainOp req o → TellOp req o := fun o h => .inl (plain_answer req o h)
  unfold answer
  refine ((buildGrant_uses conf _ _ _ _).mono hplain).bind fun grant => ?_
  refine ((buildSeeds_uses conf _ _ _ _ _).mono hanswer).bind fun built => ?_
  refine ((deliverToken_uses _).mono hplain).bind fun deviceToken => ?_
  refine ((bumpAll_uses _).mono hplain).bind fun _ => ?_
  refine ((wakeAll_uses _).mono hplain).bind fun _ => ?_
  refine ((aggregate_uses conf _).mono fun _ => .inr).bind fun version => ?_
  refine ((buildAnchors_uses conf _).mono hplain).bind fun anchors => ?_
  exact ((signRelease_uses conf _).mono hplain).bind fun release => trivial

theorem validatePeerReports_uses : (validatePeerReports req).Uses (RegisterOp req) := by
  unfold validatePeerReports
  split <;> trivial

theorem buildSnapshot_uses (callerIp : IpAddr) :
    (buildSnapshot conf req callerIp).Uses (RegisterOp req) := by
  unfold buildSnapshot
  refine validatePeerReports_uses.bind fun _ => ?_
  refine ((resolveUser_uses conf).mono (admission_register req)).bind fun caller => ?_
  refine ((settle_uses conf _ _).mono (settle_register req)).bind fun settled => ?_
  exact (answer_uses conf _ _ _).mono (tell_register req)

/-! The request. -/

theorem negotiate_uses : (negotiate req).Uses (RegisterOp req) := by
  unfold negotiate
  split <;> trivial

theorem subscribeAll_uses (scopes : List Scope) :
    (subscribeAll scopes : Prog sig ε Unit).Uses ParkOp := by
  induction scopes with
  | nil => trivial
  | cons scope rest ih =>
      simp only [subscribeAll, uses_act_bind]
      exact ⟨trivial, fun _ => ih⟩

theorem counter_park : ∀ o, CounterOp o → ParkOp o := by
  intro o h
  unfold CounterOp at h
  split at h <;> trivial

theorem parkLoop_uses (scopes : List Scope) (since deadline rounds : Nat) :
    (parkLoop conf scopes since deadline rounds).Uses ParkOp := by
  induction rounds with
  | zero =>
      simp only [parkLoop, uses_act_bind]
      exact ⟨trivial, fun answer => Empty.elim answer⟩
  | succ rounds ih =>
      unfold parkLoop
      refine ((readCounters_uses scopes).mono counter_park).bind fun receivers => ?_
      refine ((aggregate_uses conf scopes).mono counter_park).bind fun version => ?_
      split
      · trivial
      · simp only [uses_act_bind]
        refine ⟨trivial, fun arm => ?_⟩
        cases arm with
        | scopes => exact ih
        | personal => trivial
        | preempted => trivial
        | elapsed => trivial

theorem waitPark_uses (scopes : List Scope) (since : Nat) :
    (waitPark conf scopes since).Uses ParkOp := by
  unfold waitPark
  refine (subscribeAll_uses scopes).bind fun _ => ?_
  simp only [uses_act_bind]
  exact ⟨trivial, fun started => ⟨trivial, fun rounds => parkLoop_uses conf _ _ _ _⟩⟩

theorem hold_uses (callerIp : IpAddr) (built : Built) :
    (hold conf req callerIp built).Uses (RegisterOp req) := by
  simp only [hold, uses_act_bind]
  refine ⟨rfl, fun acquired => ?_⟩
  split
  · refine ((waitPark_uses conf _ _).mono (park_register req)).bind fun woke => ?_
    split
    · simp only [uses_act_bind]
      exact ⟨trivial, fun _ => (buildSnapshot_uses conf _).bind fun _ => trivial⟩
    · exact (buildSnapshot_uses conf _).bind fun _ => trivial
  · trivial

theorem register_uses (callerIp : IpAddr) :
    (register conf req callerIp).Uses (RegisterOp req) := by
  unfold register
  refine negotiate_uses.bind fun _ => ?_
  simp only [uses_act_bind]
  refine ⟨rfl, fun woken => ?_⟩
  refine (buildSnapshot_uses conf _).bind fun built => ?_
  split
  · exact hold_uses conf _ _
  · trivial

/-- What a register from one address needs of a monitor: every build started afresh ends well,
and waiting keeps a monitor state fresh. -/
structure BuildsFrom (req : RegisterReq) (callerIp : IpAddr) {M : Type} (mon : Monitor sig M)
    (fresh : M → Prop) (post : M → Built → Prop) : Prop where
  subscribe : ∀ m pubkey, fresh m → mon.allows m (.wakers (.subscribe pubkey)) ∧
    ∀ answer, fresh (mon.next m (.wakers (.subscribe pubkey)) answer)
  build : ∀ m, fresh m → (buildSnapshot conf req callerIp).Conforms mon (returns post) m
  acquire : ∀ m built, post m built → mon.allows m (.tryAcquire req.wgPubkey) ∧
    ∀ answer, fresh (mon.next m (.tryAcquire req.wgPubkey) answer)
  wait : ∀ m (o : Op), ParkOp o ∨ o = .sleep → fresh m →
    mon.allows m o ∧ ∀ answer, mon.expects m o answer → fresh (mon.next m o answer)

structure Builds (req : RegisterReq) {M : Type} (mon : Monitor sig M) (fresh : M → Prop)
    (post : M → Built → Prop) : Prop where
  subscribe : ∀ m pubkey, fresh m → mon.allows m (.wakers (.subscribe pubkey)) ∧
    ∀ answer, fresh (mon.next m (.wakers (.subscribe pubkey)) answer)
  build : ∀ m callerIp, fresh m →
    (buildSnapshot conf req callerIp).Conforms mon (returns post) m
  acquire : ∀ m built, post m built → mon.allows m (.tryAcquire req.wgPubkey) ∧
    ∀ answer, fresh (mon.next m (.tryAcquire req.wgPubkey) answer)
  wait : ∀ m (o : Op), ParkOp o ∨ o = .sleep → fresh m →
    mon.allows m o ∧ ∀ answer, mon.expects m o answer → fresh (mon.next m o answer)

section

variable {conf} {M : Type} {mon : Monitor sig M} {fresh : M → Prop} {post : M → Built → Prop}
  {callerIp : IpAddr}

theorem BuildsFrom.waits (hbuilds : BuildsFrom conf req callerIp mon fresh post) {ε α : Type}
    {m : M} {program : Prog sig ε α} (hprogram : program.Uses fun o : Op => ParkOp o ∨ o = .sleep)
    (hfresh : fresh m) : program.Conforms mon (returns fun m' _ => fresh m') m := by
  refine (hprogram.keeps fresh (fun m o ho hm => hbuilds.wait m o ho hm) hfresh).mono
    fun m' result hm => ?_
  cases result with
  | ok value => exact hm
  | error error => trivial

theorem BuildsFrom.hold (hbuilds : BuildsFrom conf req callerIp mon fresh post) (built : Built)
    {m : M} (hpost : post m built) :
    (hold conf req callerIp built).Conforms mon
      (returns fun m' resp => ∃ built, post m' built ∧ built.resp = resp) m := by
  have hrebuild : ∀ m', fresh m' → (do return (← buildSnapshot conf req callerIp).resp :
      Handler RegisterResp).Conforms mon
        (returns fun m' resp => ∃ built, post m' built ∧ built.resp = resp) m' := by
    intro m' hfresh
    exact (hbuilds.build m' hfresh).andThen fun m'' built hpost => ⟨built, hpost, rfl⟩
  obtain ⟨hallowed, hacquired⟩ := hbuilds.acquire m built hpost
  unfold Coordinator.hold
  rw [conforms_act_bind]
  refine ⟨hallowed, fun acquired _ => ?_⟩
  split
  · have hwait : (waitPark conf built.scopes built.resp.version).Uses
        fun o : Op => ParkOp o ∨ o = .sleep := (waitPark_uses conf _ _).mono fun _ => .inl
    refine (hbuilds.waits hwait (hacquired acquired)).andThen fun m₁ woke hfresh₁ => ?_
    split
    · obtain ⟨hslept, hfresh₂⟩ := hbuilds.wait m₁ .sleep (.inr rfl) hfresh₁
      rw [conforms_act_bind]
      exact ⟨hslept, fun answer hanswer => hrebuild _ (hfresh₂ answer hanswer)⟩
    · exact hrebuild m₁ hfresh₁
  · trivial

theorem BuildsFrom.register (hbuilds : BuildsFrom conf req callerIp mon fresh post) {m : M}
    (hfresh : fresh m) :
    (register conf req callerIp).Conforms mon
      (returns fun m' resp => ∃ built, post m' built ∧ built.resp = resp) m := by
  obtain ⟨hallowed, hsubscribed⟩ := hbuilds.subscribe m req.wgPubkey hfresh
  unfold Coordinator.register negotiate
  split
  · rw [pure_eq, ret_bind, conforms_act_bind]
    refine ⟨hallowed, fun woken _ => ?_⟩
    refine (hbuilds.build _ (hsubscribed woken)).andThen fun m₁ built hpost => ?_
    split
    · exact hbuilds.hold built hpost
    · exact ⟨built, hpost, rfl⟩
  · trivial

theorem Builds.register (hbuilds : Builds conf req mon fresh post) (callerIp : IpAddr) {m : M}
    (hfresh : fresh m) :
    (register conf req callerIp).Conforms mon
      (returns fun m' resp => ∃ built, post m' built ∧ built.resp = resp) m := by
  have hfrom : BuildsFrom conf req callerIp mon fresh post :=
    ⟨hbuilds.subscribe, fun m => hbuilds.build m callerIp, hbuilds.acquire, hbuilds.wait⟩
  exact hfrom.register hfresh

end

/-! Every other call. -/

def SideQuery : Query → Prop
  | .insertDevice .. => False
  | .insertUserLabel .. => False
  | .touchDevice .. => False
  | .setToken .. => False
  | .claimEnrollmentKey .. => False
  | _ => True

def SidePresence : Presence.Op → Prop
  | .record .. => False
  | .recordSelf .. => False
  | .othersIn .. => False
  | .othersOfUser .. => False
  | _ => True

def SideNat : NatTables.Op → Prop
  | .putSourceIp .. => False
  | .recordReflexives .. => False
  | .recordRelay .. => False
  | .recordAllocs .. => False
  | .recordIce .. => False
  | _ => True

def SideOp : Op → Prop
  | .store q => SideQuery q
  | .presence o => SidePresence o
  | .nat o => SideNat o
  | .versions (.counter _) => False
  | .wakers (.subscribe _) => False
  | .wakers (.wake _) => False
  | .caches (.storeMember ..) => False
  | .roleless (.remember _) => False
  | .roleless (.fresh _) => False
  | .tryAcquire _ => False
  | .select .. => False
  | .fetchMember .. => False
  | .signing _ => False
  | .keepLabel .. => False
  | _ => True

attribute [local simp] SideOp SideQuery SidePresence SideNat

theorem roleName_side (guild : GuildId) (role : RoleId) :
    (RoleSource.roleName guild role : Prog sig ε _).Uses SideOp := by
  unfold RoleSource.roleName
  split
  · trivial
  · refine dedup_uses (fun _ => trivial) (by simp) ?_
    simp only [uses_act_bind]
    refine ⟨trivial, fun answer => ?_⟩
    cases answer <;> simp

theorem bumpEach_side (scopes : List Scope) :
    (bumpAll.bumpEach scopes : Prog sig ε Unit).Uses SideOp := by
  induction scopes with
  | nil => trivial
  | cons scope rest ih =>
      simp only [bumpAll.bumpEach, uses_act_bind]
      exact ⟨trivial, fun _ => ih⟩

theorem bumpAll_side (scopes : List Scope) :
    (bumpAll scopes : Prog sig ε Unit).Uses SideOp := by
  unfold bumpAll
  split
  · trivial
  · refine (bumpEach_side scopes).bind fun _ => ?_
    simp

theorem evictFrom_side (pubkey : PubKey) (networks : List (GuildId × RoleId))
    (changed : List Scope) : (evictFrom pubkey networks changed).Uses SideOp := by
  refine (evictFrom_uses pubkey networks changed).mono fun o h => ?_
  unfold EvictOp at h
  split at h <;> trivial

theorem removeDevice_side (user : UserId) (pubkey : PubKey) :
    (Store.removeDevice user pubkey).Uses SideOp := by
  refine (removeDevice_uses user pubkey).mono (StoreOp.mono fun q hremoval => ?_)
  cases q <;> simp_all [RemovalQuery]

theorem findDevice_side (user : UserId) (name : String) :
    (findDevice user name).Uses SideOp := by
  unfold findDevice
  refine Uses.bind (Uses.mapError (by simp) _) fun devices => ?_
  split <;> trivial

theorem manageOp_side (user : UserId) (selfPubkey : PubKey) (op : ManageOp) :
    (manageOp user selfPubkey op).Uses SideOp := by
  cases op with
  | list => trivial
  | rename newName =>
      refine Uses.bind (Uses.mapError ?_ _) fun _ => trivial
      simp only [Store.renameDevice, Store.uniqueDeviceName]
      refine Uses.bind ?_ fun name => by simp
      simp only [uses_sql_bind]
      refine ⟨trivial, fun devices => ?_⟩
      split
      · trivial
      · split <;> trivial
  | setPrimary deviceName =>
      refine (findDevice_side _ _).bind fun pubkey => ?_
      exact Uses.bind (Uses.mapError (by simp) _) fun _ => trivial
  | remove deviceName =>
      refine (findDevice_side _ _).bind fun pubkey => ?_
      refine Uses.bind ((removeDevice_side _ _).mapError _) fun _ => ?_
      simp only [uses_act_bind]
      refine ⟨trivial, fun networks => ?_⟩
      refine (evictFrom_side _ _ _).bind fun changed => ?_
      simp only [uses_act_bind]
      exact ⟨trivial, fun removed => (bumpAll_side _).bind fun _ => trivial⟩

theorem manage_side (req : ManageReq) : (manage req).Uses SideOp := by
  unfold manage
  refine Uses.bind (Uses.mapError (by simp) _) fun found => ?_
  cases found with
  | none => trivial
  | some who =>
      refine (manageOp_side _ _ _).bind fun message => ?_
      refine Uses.bind (Uses.mapError (by simp) _) fun primary => ?_
      exact Uses.bind (Uses.mapError (by simp) _) fun devices => trivial

theorem oauthComplete_side (req : OauthCompleteReq) : (oauthComplete req).Uses SideOp := by
  simp only [oauthComplete, uses_act_bind]
  refine ⟨trivial, fun verified => ?_⟩
  cases verified with
  | error why => trivial
  | ok who =>
      refine Uses.bind (Uses.mapError (by simp [Store.bindOauth]) _) fun _ => ?_
      exact Uses.mapError (by simp) _

theorem enroll_side (user : UserId) : (enroll user).Uses SideOp := by
  simp only [enroll, uses_act_bind]
  refine ⟨trivial, fun key => ⟨trivial, fun now => ⟨trivial, fun answer => ?_⟩⟩⟩
  cases answer <;> trivial

theorem networkAdd_side (guild : GuildId) (role : RoleId) :
    (networkAdd guild role).Uses SideOp := by
  unfold networkAdd
  split
  · trivial
  · refine (roleName_side guild role).bind fun name => ?_
    simp only [uses_act_bind]
    refine ⟨trivial, fun answer => ?_⟩
    cases answer with
    | ok _ => exact bumpAll_side _
    | error _ => trivial

theorem networkRemove_side (guild : GuildId) (role : RoleId) :
    (networkRemove guild role).Uses SideOp := by
  simp only [networkRemove, uses_act_bind]
  refine ⟨trivial, fun answer => ?_⟩
  cases answer with
  | ok _ => exact bumpAll_side _
  | error _ => trivial

theorem evictMember_uses (guild : GuildId) (user : UserId) (held : List RoleId)
    (nets : List Network) :
    (evictMember guild user held nets).Uses (EvictUserOp guild user) := by
  induction nets with
  | nil => trivial
  | cons net rest ih =>
      unfold evictMember
      split
      · exact ih
      · simp only [uses_act_bind]
        exact ⟨⟨rfl, rfl⟩, fun evicted => ih.bind fun _ => trivial⟩

theorem evictMember_side (guild : GuildId) (user : UserId) (held : List RoleId)
    (nets : List Network) : (evictMember guild user held nets).Uses SideOp := by
  refine (evictMember_uses guild user held nets).mono fun o h => ?_
  unfold EvictUserOp at h
  split at h <;> trivial

theorem revoke_side (guild : GuildId) (user : UserId) (held : List RoleId) :
    (revoke guild user held).Uses SideOp := by
  unfold revoke RoleSource.forget
  simp only [uses_act_bind]
  refine ⟨trivial, fun _ => ⟨trivial, fun answer => ?_⟩⟩
  cases answer with
  | error _ => trivial
  | ok nets =>
      refine (evictMember_side _ _ _ _).bind fun changed => ?_
      split
      · exact bumpAll_side _
      · trivial

theorem reap_side : reap.Uses SideOp := by
  simp only [reap, uses_act_bind]
  refine ⟨trivial, fun now => ⟨trivial, fun networks => ⟨trivial, fun owners => ?_⟩⟩⟩
  refine (bumpAll_side _).bind fun _ => ?_
  simp [pruneNatTables]

theorem reclaim_side : reclaim.Uses SideOp := by
  unfold reclaim
  refine Uses.bind (Uses.mapError ?_ _) fun _ => trivial
  simp only [Store.reclaimIdlePersonalDevices, uses_act_bind, uses_sql_bind]
  refine ⟨trivial, fun now => ⟨trivial, fun rows => ?_⟩⟩
  exact Uses.foldlM rows (fun freed row => (removeDevice_side _ _).bind fun _ => uses_ret _ _) 0

def CallOp : Call → Op → Prop
  | .register req _ => RegisterOp req
  | _ => SideOp

theorem handle_uses (call : Call) : (handle conf call).Uses (CallOp call) := by
  cases call with
  | register req callerIp => exact (register_uses conf callerIp).bind fun _ => trivial
  | manage req => exact (manage_side req).bind fun _ => trivial
  | oauthComplete req => exact (oauthComplete_side req).bind fun _ => trivial
  | enroll user => exact (enroll_side user).bind fun _ => trivial
  | networkAdd guild role => exact (networkAdd_side guild role).bind fun _ => trivial
  | networkRemove guild role => exact (networkRemove_side guild role).bind fun _ => trivial
  | memberAdd guild user =>
      refine Uses.bind ?_ fun _ => trivial
      simp [memberAdd, RoleSource.forget, CallOp]
  | memberUpdate guild user held =>
      refine Uses.bind ?_ fun _ => trivial
      simp only [memberUpdate, uses_act_bind]
      exact ⟨trivial, fun _ => revoke_side _ _ _⟩
  | memberRemove guild user =>
      refine Uses.bind ?_ fun _ => trivial
      simp only [memberRemove, uses_act_bind]
      exact ⟨trivial, fun _ => revoke_side _ _ _⟩
  | reap => exact reap_side.bind fun _ => trivial
  | reclaim => exact reclaim_side.bind fun _ => trivial

end UnityLan.Coordinator
