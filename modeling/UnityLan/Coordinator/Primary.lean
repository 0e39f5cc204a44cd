import UnityLan.Coordinator.Footprint
import UnityLan.Coordinator.Machine

namespace UnityLan.Coordinator

open UnityLan.Foundation Prog

/-! The primary device of an owner, in every run of the coordinator. -/

namespace Database

def Owns (db : Database) (user : UserId) (pubkey : PubKey) : Prop :=
  ∃ row, db.devices.get? pubkey = some row ∧ row.userId = user

def owns (db : Database) (user : UserId) (pubkey : PubKey) : Bool :=
  (db.devices.get? pubkey).any fun row => row.userId == user

/-- The primary device of the user, if one is recorded, is a device of the user. -/
def PrimaryLive (db : Database) (user : UserId) : Prop :=
  ∀ pubkey, db.primaryDevice.get? user = some pubkey → db.Owns user pubkey

theorem owns_iff {db : Database} {user : UserId} {pubkey : PubKey} :
    db.owns user pubkey = true ↔ db.Owns user pubkey := by
  simp [owns, Owns, Option.any_eq_true]

variable {db db' : Database} {q : Query} {answer : q.Res}

theorem Owns.run {user : UserId} {pubkey : PubKey} (howns : db.Owns user pubkey)
    (hrun : db.run q = .ok (answer, db')) :
    db'.Owns user pubkey ∨ q = .deleteDevice pubkey user := by
  obtain ⟨row, hrow, rfl⟩ := howns
  by_cases hwrites : writes q = some .devices
  · cases q <;> try (cases hwrites; done)
    case insertDevice key new =>
      obtain ⟨hfresh, hget⟩ := run_insertDevice hrun
      left
      refine ⟨row, ?_, rfl⟩
      rw [hget, if_neg]
      · exact hrow
      · rintro rfl
        rw [hfresh] at hrow
        cases hrow
    case deleteDevice key owner =>
      cases hrun
      by_cases hsame : pubkey = key ∧ row.userId = owner
      · obtain ⟨rfl, rfl⟩ := hsame
        exact .inr rfl
      · left
        refine ⟨row, ?_, rfl⟩
        simp only [UniqueTable.get?_retain, Option.filter_eq_some_iff]
        refine ⟨hrow, ?_⟩
        simpa [not_and_or] using not_and_or.mp hsame
    all_goals
      cases hrun
      left
      unfold Owns
      rw [UniqueTable.get?_adjust]
      split
      · rename_i hkey
        rw [← hkey, hrow]
        exact ⟨_, rfl, rfl⟩
      · exact ⟨row, hrow, rfl⟩
  · left
    refine ⟨row, ?_, rfl⟩
    rw [(run_frame hrun).devices hwrites]
    exact hrow

theorem run_primary (user : UserId) (hrun : db.run q = .ok (answer, db')) :
    db'.primaryDevice.get? user = db.primaryDevice.get? user ∨
      (∃ pubkey, q = .setPrimary user pubkey ∧ db'.primaryDevice.get? user = some pubkey) ∨
      (∃ pubkey, q = .ensurePrimary user pubkey ∧ db.primaryDevice.get? user = none ∧
        db'.primaryDevice.get? user = some pubkey) ∨
      q = .deletePrimary user ∧ db'.primaryDevice.get? user = none := by
  cases q
  case ensurePrimary owner pubkey =>
    simp only [run] at hrun
    split at hrun
    · cases hrun
      exact .inl rfl
    · rename_i hnone
      cases hrun
      by_cases hsame : user = owner
      · subst hsame
        have hfresh : db.primaryDevice.get? user = none := by
          simpa [Table.contains] using hnone
        exact .inr (.inr (.inl ⟨pubkey, rfl, hfresh, by simp⟩))
      · exact .inl (by simp [hsame])
  case setPrimary owner pubkey =>
    cases hrun
    by_cases hsame : user = owner
    · subst hsame
      exact .inr (.inl ⟨pubkey, rfl, by simp⟩)
    · exact .inl (by simp [hsame])
  case deletePrimary owner =>
    cases hrun
    by_cases hsame : user = owner
    · subst hsame
      exact .inr (.inr (.inr ⟨rfl, by simp⟩))
    · exact .inl (by simp [hsame])
  all_goals
    left
    simp only [run] at hrun
    (repeat' split at hrun) <;> cases hrun <;> rfl

end Database

/-! A removal owes the pointer from the deletion of the row on, until it has seen that the
pointer stands elsewhere, or has moved or cleared it. -/

abbrev Removing := UserId × PubKey

def owed : Option Removing → (o : Op) → o.Res → Option Removing
  | _, .store (.deleteDevice pubkey user), .ok _ => some (user, pubkey)
  | some (user, pubkey), .store (.primaryPubkey _), .ok primary =>
      if primary = some pubkey then some (user, pubkey) else none
  | _, .store (.setPrimary ..), .ok _ => none
  | _, .store (.deletePrimary _), .ok _ => none
  | debt, _, _ => debt

def owing : Option Removing → Op → Prop
  | some _, .store (.deleteDevice ..) => False
  | some (user, _), .store (.primaryPubkey owner) => owner = user
  | some (user, _), .store (.setPrimary owner _) => owner = user
  | some (user, _), .store (.deletePrimary owner) => owner = user
  | _, _ => True

def debts : Monitor sig (Option Removing) where
  allows := owing
  expects := fun _ _ _ => True
  next := owed

def Debtless : Op → Prop
  | .store (.deleteDevice ..) => False
  | _ => True

section

variable {ε α : Type}

theorem debtless_keeps (debt : Option Removing) (o : Op) (hdebtless : Debtless o)
    (hnone : debt = none) : owing debt o ∧ ∀ answer, owed debt o answer = none := by
  subst hnone
  refine ⟨by cases o <;> trivial, fun answer => ?_⟩
  unfold owed
  split <;> first | rfl | exact hdebtless.elim | skip
  all_goals cases ‹none = some _›

theorem debtless_clears {program : Prog sig ε α} (hprogram : program.Uses Debtless) :
    program.Conforms debts (returns fun debt _ => debt = none) none := by
  refine (hprogram.keeps (fun debt => debt = none) ?_ rfl).mono fun debt result hnone => ?_
  · intro debt o hdebtless hnone
    obtain ⟨howing, howed⟩ := debtless_keeps debt o hdebtless hnone
    exact ⟨howing, fun answer _ => howed answer⟩
  · cases result with
    | ok value => exact hnone
    | error error => trivial

theorem sql_debtless {q : Query} (hq : Debtless (.store q)) :
    (sql q).Uses Debtless := (uses_sql q).mpr hq

theorem sql_owes {q : Query} {debt : Option Removing} (howing : owing debt (.store q)) :
    (sql q).Conforms debts (returns fun debt' answer => debt' = owed debt (.store q) (.ok answer))
      debt := by
  rw [conforms_sql]
  refine ⟨howing, fun answer _ => ?_⟩
  cases answer with
  | ok answer => rfl
  | error error => trivial

theorem removeDevice_clears (user : UserId) (pubkey : PubKey) :
    (Store.removeDevice user pubkey).Conforms debts (returns fun debt _ => debt = none) none := by
  unfold Store.removeDevice
  refine (sql_owes (by trivial)).andThen fun debt₁ _ howed => ?_
  obtain rfl : debt₁ = some (user, pubkey) := howed
  refine (sql_owes (by trivial)).andThen fun debt₂ _ howed => ?_
  obtain rfl : debt₂ = some (user, pubkey) := howed
  refine (sql_owes (by trivial)).andThen fun debt₃ _ howed => ?_
  obtain rfl : debt₃ = some (user, pubkey) := howed
  refine (sql_owes (by rfl)).andThen fun debt₄ primary howed => ?_
  simp only [owed] at howed
  split
  · rename_i hprimary
    rw [if_pos hprimary] at howed
    subst howed
    refine (sql_owes (by trivial)).andThen fun debt₅ devices howed => ?_
    obtain rfl : debt₅ = some (user, pubkey) := howed
    cases devices with
    | nil => exact sql_owes rfl
    | cons other rest => exact sql_owes rfl
  · rename_i hprimary
    rw [if_neg hprimary] at howed
    exact howed

theorem reclaim_clears (idleSecs : Nat) :
    (Store.reclaimIdlePersonalDevices idleSecs).Conforms debts
      (returns fun debt _ => debt = none) none := by
  unfold Store.reclaimIdlePersonalDevices
  rw [conforms_act_bind]
  refine ⟨trivial, fun now _ => ?_⟩
  refine (sql_owes (by trivial)).andThen fun debt rows howed => ?_
  obtain rfl : debt = none := howed
  refine Conforms.foldlM rows _ (fun debt _ => debt = none) ?_ rfl
  rintro debt freed row _ rfl
  exact (removeDevice_clears row.2 row.1).andThen fun debt _ hnone => hnone

/-! Of the parts of a register only the retirement of a device deletes one: the others are
as they are where nothing is superseded. -/

variable {conf : Conf} {req : RegisterReq}

theorem owned_debtless (user : UserId) :
    ∀ o, OwnedOp { req with supersede := none } user o → Debtless o := by
  intro o howned
  cases o with
  | store q =>
      cases q <;> trivial
  | _ => trivial

theorem roster_debtless :
    ∀ o, RosterOp { req with supersede := none } o → Debtless o :=
  fun o hroster => owned_debtless 0 o (roster_owned _ 0 o hroster)

theorem retireSuperseded_clears (user : UserId) (changed : List Scope) :
    (retireSuperseded req user changed).Conforms debts (returns fun debt _ => debt = none)
      none := by
  unfold retireSuperseded
  split
  · rfl
  · rename_i oldToken _
    refine (sql_owes (by trivial)).mapError_returns.andThen fun debt found howed => ?_
    obtain rfl : debt = none := howed
    cases found with
    | none => rfl
    | some old =>
        obtain ⟨owner, oldPubkey⟩ := old
        dsimp only
        split
        · refine (removeDevice_clears user oldPubkey).mapError_returns.andThen
            fun debt _ hnone => ?_
          subst hnone
          apply debtless_clears
          simp only [uses_act_bind]
          refine ⟨trivial, fun networks => ?_⟩
          refine ((evictFrom_uses oldPubkey networks changed).mono ?_).bind fun changed => ?_
          · intro o hevict
            cases o <;> trivial
          · simp only [uses_act_bind]
            exact ⟨trivial, fun removed => trivial⟩
        · rfl

theorem settle_clears (callerIp : IpAddr) (user : UserId) :
    (settle conf req callerIp user).Conforms debts (returns fun debt _ => debt = none) none := by
  unfold settle
  rw [conforms_act_bind]
  refine ⟨trivial, fun _ _ => ?_⟩
  rw [conforms_act_bind]
  refine ⟨trivial, fun now _ => ?_⟩
  refine (sql_owes (by trivial)).mapError_returns.andThen fun debt₁ allNetworks howed => ?_
  obtain rfl : debt₁ = none := howed
  rw [conforms_act_bind]
  refine ⟨trivial, fun memo _ => ?_⟩
  have hresolve (networks : List Network) :
      (resolveDevice conf req user networks []).Uses Debtless :=
    (@resolveDevice_uses conf { req with supersede := none } user networks []).mono
      (owned_debtless user)
  refine (debtless_clears (hresolve _)).andThen fun debt₂ resolved hnone₂ => ?_
  subst hnone₂
  refine (retireSuperseded_clears user []).andThen fun debt₃ changed hnone₃ => ?_
  subst hnone₃
  refine debtless_clears ?_
  have hmembership (networks : List Network) :
      (resolveMembership req user networks resolved.1 resolved.2 now changed).Uses Debtless :=
    (@resolveMembership_uses { req with supersede := none } user networks resolved.1 resolved.2
      now changed).mono roster_debtless
  refine (hmembership _).bind fun membership => ?_
  refine Uses.bind (by unfold rememberRoleless; split <;> simp [Debtless]) fun _ => ?_
  refine Uses.bind ?_ fun _ => ?_
  · unfold touchIdentity
    split
    · refine ((touchDevice_uses membership.1.personal).mono ?_).mapError _
      exact fun o htouch => roster_debtless o (touch_roster _ _ o htouch)
    · trivial
  · refine Uses.bind ?_ fun changed => trivial
    exact (recordOwnDevice_uses user resolved.1 membership.1 now membership.2).mono roster_debtless

theorem admission_debtless : ∀ o, AdmissionOp req o → Debtless o := by
  intro o hadmission
  cases o with
  | store q => cases q <;> trivial
  | _ => trivial

theorem tell_debtless : ∀ o, TellOp req o → Debtless o := by
  rintro o (hanswer | hcounter)
  · cases o with
    | store q => cases q <;> trivial
    | _ => trivial
  · cases o with
    | store q => exact hcounter.elim
    | _ => trivial

theorem buildSnapshot_clears (callerIp : IpAddr) :
    (buildSnapshot conf req callerIp).Conforms debts (returns fun debt _ => debt = none) none := by
  unfold buildSnapshot validatePeerReports
  split
  · trivial
  · refine (debtless_clears ((resolveUser_uses conf).mono admission_debtless)).andThen
      fun debt₁ caller hnone₁ => ?_
    subst hnone₁
    refine (settle_clears callerIp caller.1).andThen fun debt₂ settled hnone₂ => ?_
    subst hnone₂
    exact debtless_clears ((answer_uses conf caller.1 caller.2 settled).mono tell_debtless)

theorem builds_clear :
    Builds conf req debts (fun debt => debt = none) (fun debt _ => debt = none) where
  subscribe := fun debt pubkey hnone =>
    debtless_keeps debt (.wakers (.subscribe pubkey)) trivial hnone
  build := by
    rintro debt callerIp rfl
    exact buildSnapshot_clears callerIp
  acquire := fun debt _ hnone => debtless_keeps debt (.tryAcquire req.wgPubkey) trivial hnone
  wait := by
    intro debt o hwait hnone
    have hdebtless : Debtless o := by
      rcases hwait with hpark | rfl
      · cases o with
        | store q => exact hpark.elim
        | _ => trivial
      · trivial
    obtain ⟨howing, howed⟩ := debtless_keeps debt o hdebtless hnone
    exact ⟨howing, fun answer _ => howed answer⟩

theorem register_clears (callerIp : IpAddr) :
    (register conf req callerIp).Conforms debts (returns fun debt _ => debt = none) none :=
  (builds_clear.register callerIp rfl).returns_mono fun _ _ ⟨_, hnone, _⟩ => hnone

/-! The other calls. -/

theorem quiet_debtless : ∀ o, QuietOp { wgPubkey := 0 } o → Debtless o := by
  intro o hquiet
  cases o with
  | store q => cases q <;> trivial
  | _ => trivial

theorem bumpAll_debtless (scopes : List Scope) : (bumpAll scopes : Prog sig ε Unit).Uses Debtless :=
  (bumpAll_quiet scopes).mono quiet_debtless

theorem evictFrom_debtless (pubkey : PubKey) (networks : List (GuildId × RoleId))
    (changed : List Scope) : (evictFrom pubkey networks changed).Uses Debtless := by
  refine (evictFrom_uses pubkey networks changed).mono fun o hevict => ?_
  cases o <;> trivial

theorem findDevice_debtless (user : UserId) (name : String) :
    (findDevice user name).Uses Debtless := by
  unfold findDevice
  refine Uses.bind ((sql_debtless (by trivial)).mapError _) fun devices => ?_
  split <;> trivial

theorem manageOp_clears (user : UserId) (selfPubkey : PubKey) (op : ManageOp) :
    (manageOp user selfPubkey op).Conforms debts (returns fun debt _ => debt = none) none := by
  cases op with
  | list => rfl
  | rename newName =>
      refine debtless_clears ?_
      refine Uses.bind (Uses.mapError ?_ _) fun _ => trivial
      unfold Store.renameDevice Store.uniqueDeviceName
      refine Uses.bind ?_ fun name => Uses.bind (sql_debtless (by trivial)) fun _ => trivial
      refine Uses.bind (sql_debtless (by trivial)) fun devices => ?_
      dsimp only
      split
      · trivial
      · split <;> trivial
  | setPrimary deviceName =>
      refine (debtless_clears (findDevice_debtless user deviceName)).andThen
        fun debt₁ pubkey hnone₁ => ?_
      subst hnone₁
      refine (sql_owes (by trivial)).mapError_returns.andThen fun debt₂ _ howed => ?_
      exact howed
  | remove deviceName =>
      refine (debtless_clears (findDevice_debtless user deviceName)).andThen
        fun debt₁ pubkey hnone₁ => ?_
      subst hnone₁
      refine (removeDevice_clears user pubkey).mapError_returns.andThen fun debt₂ _ hnone₂ => ?_
      subst hnone₂
      refine debtless_clears ?_
      simp only [uses_act_bind]
      refine ⟨trivial, fun networks => ?_⟩
      refine (evictFrom_debtless _ _ _).bind fun changed => ?_
      simp only [uses_act_bind]
      exact ⟨trivial, fun removed => (bumpAll_debtless _).bind fun _ => trivial⟩

theorem manage_clears (req : ManageReq) :
    (manage req).Conforms debts (returns fun debt _ => debt = none) none := by
  unfold manage
  refine (sql_owes (by trivial)).mapError_returns.andThen fun debt₁ found howed => ?_
  obtain rfl : debt₁ = none := howed
  cases found with
  | none => trivial
  | some who =>
      obtain ⟨user, selfPubkey⟩ := who
      refine (manageOp_clears user selfPubkey req.op).andThen fun debt₂ message hnone₂ => ?_
      subst hnone₂
      refine debtless_clears ?_
      refine Uses.bind ((sql_debtless (by trivial)).mapError _) fun primary => ?_
      exact Uses.bind ((sql_debtless (by trivial)).mapError _) fun devices => trivial

theorem oauthComplete_debtless (req : OauthCompleteReq) : (oauthComplete req).Uses Debtless := by
  simp only [oauthComplete, uses_act_bind]
  refine ⟨trivial, fun verified => ?_⟩
  cases verified with
  | error why => trivial
  | ok who =>
      refine Uses.bind (Uses.mapError ?_ _) fun _ => (sql_debtless (by trivial)).mapError _
      simp [Store.bindOauth, Debtless]

theorem enroll_debtless (user : UserId) : (enroll user).Uses Debtless := by
  simp only [enroll, uses_act_bind]
  refine ⟨trivial, fun key => ⟨trivial, fun now => ⟨trivial, fun answer => ?_⟩⟩⟩
  cases answer <;> trivial

theorem networkAdd_debtless (guild : GuildId) (role : RoleId) :
    (networkAdd guild role).Uses Debtless := by
  unfold networkAdd
  split
  · trivial
  · refine ((roleName_uses guild role).mono ?_).bind fun name => ?_
    · intro o hname
      cases o with
      | store q => cases q <;> trivial
      | _ => trivial
    · simp only [uses_act_bind]
      refine ⟨trivial, fun answer => ?_⟩
      cases answer with
      | ok _ => exact bumpAll_debtless _
      | error _ => trivial

theorem networkRemove_debtless (guild : GuildId) (role : RoleId) :
    (networkRemove guild role).Uses Debtless := by
  simp only [networkRemove, uses_act_bind]
  refine ⟨trivial, fun answer => ?_⟩
  cases answer with
  | ok _ => exact bumpAll_debtless _
  | error _ => trivial

theorem revoke_debtless (guild : GuildId) (user : UserId) (held : List RoleId) :
    (revoke guild user held).Uses Debtless := by
  unfold revoke RoleSource.forget
  simp only [uses_act_bind]
  refine ⟨trivial, fun _ => ⟨trivial, fun answer => ?_⟩⟩
  cases answer with
  | error _ => trivial
  | ok nets =>
      refine ((evictMember_uses guild user held nets).mono ?_).bind fun changed => ?_
      · intro o hevict
        cases o <;> trivial
      · split
        · exact bumpAll_debtless _
        · trivial

theorem reap_debtless : reap.Uses Debtless := by
  simp only [reap, uses_act_bind]
  refine ⟨trivial, fun now => ⟨trivial, fun networks => ⟨trivial, fun owners => ?_⟩⟩⟩
  refine (bumpAll_debtless _).bind fun _ => ?_
  simp [pruneNatTables, Debtless]

theorem handle_clears (conf : Conf) (call : Call) :
    (handle conf call).Conforms debts (returns fun debt _ => debt = none) none := by
  cases call with
  | register req callerIp => exact (register_clears callerIp).andThen fun debt resp hnone => hnone
  | manage req => exact (manage_clears req).andThen fun debt resp hnone => hnone
  | oauthComplete req =>
      exact debtless_clears ((oauthComplete_debtless req).bind fun _ => trivial)
  | enroll user => exact debtless_clears ((enroll_debtless user).bind fun _ => trivial)
  | networkAdd guild role =>
      exact debtless_clears ((networkAdd_debtless guild role).bind fun _ => trivial)
  | networkRemove guild role =>
      exact debtless_clears ((networkRemove_debtless guild role).bind fun _ => trivial)
  | memberAdd guild user =>
      refine debtless_clears (Uses.bind ?_ fun _ => trivial)
      simp [memberAdd, RoleSource.forget, Debtless]
  | memberUpdate guild user held =>
      refine debtless_clears (Uses.bind ?_ fun _ => trivial)
      simp only [memberUpdate, uses_act_bind]
      exact ⟨trivial, fun _ => revoke_debtless _ _ _⟩
  | memberRemove guild user =>
      refine debtless_clears (Uses.bind ?_ fun _ => trivial)
      simp only [memberRemove, uses_act_bind]
      exact ⟨trivial, fun _ => revoke_debtless _ _ _⟩
  | reap => exact debtless_clears (reap_debtless.bind fun _ => trivial)
  | reclaim =>
      unfold handle reclaim
      refine Conforms.andThen ?_ fun debt _ hnone => hnone
      exact (reclaim_clears _).mapError_returns.andThen fun debt _ hnone => hnone

end

/-! What is open: for each running removal, whose pointer it still owes. -/

abbrev Debts := Table Nat Removing

namespace Debts

def put (g : Debts) (task : Nat) : Option Removing → Debts
  | some removing => g.insert task removing
  | none => g.erase task

@[simp] theorem get?_put (g : Debts) (task other : Nat) (debt : Option Removing) :
    (g.put task debt).get? other = if other = task then debt else g.get? other := by
  cases debt <;> simp [put]

end Debts

variable (conf : Conf)

def primaries : (machine conf).Observer Debts where
  see := fun g _ event _ =>
    match event with
    | .did task o answer => g.put task (owed (g.get? task) o answer)
    | .ended task _ _ => g.erase task
    | .dropped task _ => g.erase task
    | _ => g

def recordsOwn (st : AppState) : (o : Op) → o.Res → Bool
  | .store (.ensurePrimary user pubkey), .ok _ =>
      st.db.primaryDevice.contains user || st.db.owns user pubkey
  | .store (.setPrimary user pubkey), .ok _ => st.db.owns user pubkey
  | _, _ => true

def sparesPrimary (st : AppState) : (o : Op) → o.Res → Bool
  | .store (.deleteDevice pubkey user), .ok _ => st.db.primaryDevice.get? user != some pubkey
  | _, _ => true

def keepsPrimaries (_ : Debts) (st : AppState) : (machine conf).Event → Bool
  | .did _ o answer => recordsOwn st o answer && sparesPrimary st o answer
  | _ => true

def pointsElsewhere (g : Debts) (st : AppState) (task : Nat) : Bool :=
  (g.get? task).all fun removing => st.db.primaryDevice.get? removing.1 != some removing.2

def settlesPrimaries (g : Debts) (st : AppState) : (machine conf).Event → Bool
  | .did _ o answer => recordsOwn st o answer
  | .ended task _ (.error _) => pointsElsewhere g st task
  | .dropped task _ => pointsElsewhere g st task
  | _ => true

section

variable {conf} {db db' : Database} {q : Query} {answer : q.Res} {user : UserId} {pubkey : PubKey}

theorem recorded_owned {st : AppState} (hrun : st.db.run q = .ok (answer, db'))
    (hown : recordsOwn st (.store q) (.ok answer) = true)
    (hprimary : db'.primaryDevice.get? user = some pubkey) :
    st.db.primaryDevice.get? user = some pubkey ∧ q ≠ .setPrimary user pubkey ∨
      db'.Owns user pubkey := by
  have hstays (hrecords : q = .setPrimary user pubkey ∨ q = .ensurePrimary user pubkey)
      (howns : st.db.owns user pubkey = true) : db'.Owns user pubkey := by
    rcases (Database.owns_iff.mp howns).run hrun with hstays | rfl
    · exact hstays
    · rcases hrecords with hrecords | hrecords <;> cases hrecords
  by_cases hset : q = .setPrimary user pubkey
  · subst hset
    exact .inr (hstays (.inl rfl) hown)
  · rcases Database.run_primary user hrun with
      hsame | ⟨key, rfl, hkey⟩ | ⟨key, rfl, hnone, hkey⟩ | ⟨_, hgone⟩
    · exact .inl ⟨hsame ▸ hprimary, hset⟩
    · cases hprimary.symm.trans hkey
      exact absurd rfl hset
    · cases hprimary.symm.trans hkey
      right
      apply hstays (.inr rfl)
      simpa [recordsOwn, Table.contains, hnone] using hown
    · rw [hgone] at hprimary
      cases hprimary

theorem owed_stays (howing : owing (some (user, pubkey)) (.store q))
    (hrun : db.run q = .ok (answer, db'))
    (hbefore : db.primaryDevice.get? user = some pubkey)
    (hafter : db'.primaryDevice.get? user = some pubkey) (hset : q ≠ .setPrimary user pubkey) :
    owed (some (user, pubkey)) (.store q) (.ok answer) = some (user, pubkey) := by
  cases q
  case deleteDevice => exact howing.elim
  case primaryPubkey owner =>
    obtain rfl : owner = user := howing
    cases hrun
    exact if_pos hbefore
  case setPrimary owner key =>
    obtain rfl : owner = user := howing
    cases hrun
    simp only [Table.get?_insert, if_pos, Option.some.injEq] at hafter
    exact absurd (by rw [hafter]) hset
  case deletePrimary owner =>
    obtain rfl : owner = user := howing
    cases hrun
    simp at hafter
  all_goals rfl

end

structure PrimaryInv (g : Debts) (st : AppState)
    (views : Nat → Option (Call × Option Removing)) : Prop where
  mirrors : Machine.Mirrors g views
  live : ∀ user pubkey, st.db.primaryDevice.get? user = some pubkey →
    st.db.Owns user pubkey ∨ ∃ task, g.get? task = some (user, pubkey)

section

variable {conf} {g : Debts} {st st' : AppState} {views : Nat → Option (Call × Option Removing)}
  {task : Nat} {call : Call} {debt : Option Removing}

theorem PrimaryInv.of_db (hinv : PrimaryInv g st views) (hdb : st'.db = st.db) :
    PrimaryInv g st' views := by
  refine ⟨hinv.mirrors, ?_⟩
  rw [hdb]
  exact hinv.live

theorem PrimaryInv.mirrors_put (hinv : PrimaryInv g st views) :
    Machine.Mirrors (g.put task debt) (Function.update views task (some (call, debt))) := by
  intro other
  rcases eq_or_ne other task with rfl | hother
  · simp
  · exact hinv.mirrors.of_other hother (by simp [hother])

theorem PrimaryInv.forget (hinv : PrimaryInv g st views)
    (helsewhere : pointsElsewhere g st task = true) :
    PrimaryInv (g.erase task) st (Function.update views task none) := by
  refine ⟨hinv.mirrors.forget, fun user pubkey hprimary => ?_⟩
  rcases hinv.live user pubkey hprimary with howns | ⟨other, hopen⟩
  · exact .inl howns
  · right
    refine ⟨other, ?_⟩
    have hother : other ≠ task := by
      rintro rfl
      simp [pointsElsewhere, hopen, hprimary] at helsewhere
    simp [hother, hopen]

theorem PrimaryInv.ran {q : Query} {answer : q.Res} (hinv : PrimaryInv g st views)
    (hview : views task = some (call, debt)) (howing : owing debt (.store q))
    (hrun : st.db.run q = .ok (answer, st'.db))
    (hown : recordsOwn st (.store q) (.ok answer) = true) :
    PrimaryInv (g.put task (owed debt (.store q) (.ok answer))) st'
      (Function.update views task (some (call, owed debt (.store q) (.ok answer)))) := by
  refine ⟨hinv.mirrors_put, fun user pubkey hprimary => ?_⟩
  rcases recorded_owned hrun hown hprimary with ⟨hbefore, hset⟩ | howns
  · rcases hinv.live user pubkey hbefore with howns | ⟨other, hopen⟩
    · rcases howns.run hrun with hstays | rfl
      · exact .inl hstays
      · exact .inr ⟨task, by simp [owed]⟩
    · right
      refine ⟨other, ?_⟩
      rw [Debts.get?_put]
      split
      · rename_i hsame
        subst hsame
        obtain rfl : debt = some (user, pubkey) := by
          rw [← hinv.mirrors.followed hview, hopen]
        exact owed_stays howing hrun hbefore hprimary hset
      · exact hopen
  · exact .inl howns

theorem PrimaryInv.did {o : Op} {choice : Choice} {answer : o.Res} (hinv : PrimaryInv g st views)
    (hview : views task = some (call, debt)) (howing : owing debt o)
    (hexec : AppState.exec conf task o choice st = some (answer, st'))
    (hown : recordsOwn st o answer = true) :
    PrimaryInv ((primaries conf).see g st (.did task o answer) st') st'
      (Function.update views task (some (call, owed debt o answer))) := by
  change PrimaryInv (g.put task (owed (g.get? task) o answer)) st' _
  rw [hinv.mirrors.followed hview]
  have hstill (hdb : st'.db = st.db) (hkept : owed debt o answer = debt) :
      PrimaryInv (g.put task (owed debt o answer)) st'
        (Function.update views task (some (call, owed debt o answer))) := by
    refine ⟨hinv.mirrors_put, fun user pubkey hprimary => ?_⟩
    rw [hdb] at hprimary ⊢
    rcases hinv.live user pubkey hprimary with howns | ⟨other, hopen⟩
    · exact .inl howns
    · right
      refine ⟨other, ?_⟩
      rw [Debts.get?_put, hkept, ← hinv.mirrors.followed hview]
      split
      · rename_i hsame
        rw [← hsame, hopen]
      · exact hopen
  by_cases hstore : ∃ q, o = .store q
  · obtain ⟨q, rfl⟩ := hstore
    have hstep := AppState.exec_store hexec
    cases answer with
    | ok answer => exact hinv.ran hview howing (Database.step_ok hstep).2 hown
    | error error =>
        apply hstill (Database.step_error hstep)
        cases debt <;> cases q <;> rfl
  · have hother : ∀ q, o ≠ .store q := fun q hq => hstore ⟨q, hq⟩
    apply hstill ((AppState.exec_frame hexec).db hother)
    cases debt <;> cases o <;> first | rfl | exact absurd rfl (hother _)

end

def primaryDiscipline :
    Machine.Discipline (machine conf) (primaries conf) (Machine.passes (settlesPrimaries conf))
      (Option Removing) where
  mon := debts
  opening := fun _ _ _ => none
  post := fun _ => returns fun debt _ => debt = none
  inv := PrimaryInv
  conforms := fun _ _ call => handle_clears conf call
  called := fun hinv hfree _ => ⟨hinv.mirrors.ignore hfree, hinv.live⟩
  did := fun hinv hview howing hexec hown => ⟨trivial, hinv.did hview howing hexec hown⟩
  ended := by
    intro g st views task call debt result hinv hview hpost hguard
    have helsewhere : pointsElsewhere g st task = true := by
      cases result with
      | ok reply =>
          obtain rfl : debt = none := hpost
          simp [pointsElsewhere, hinv.mirrors.followed hview]
      | error error => exact hguard
    exact (hinv.forget helsewhere).of_db rfl
  dropped := fun hinv _ hguard => (hinv.forget hguard).of_db rfl
  moved := fun hinv hmove _ => hinv.of_db (AppState.move_untouched hmove).db

/-- Where every statement that records a primary device records a device of its user, and none
deletes a primary one, every statement leaves every pointer live. -/
theorem kept_live {g : Debts} {st st' : AppState} {task : Nat} {o : Op} {choice : Choice}
    {answer : o.Res} (hexec : AppState.exec conf task o choice st = some (answer, st'))
    (hkept : keepsPrimaries conf g st (.did task o answer) = true)
    (hlive : ∀ user, st.db.PrimaryLive user) (user : UserId) : st'.db.PrimaryLive user := by
  obtain ⟨hown, hspared⟩ := Bool.and_eq_true_iff.mp hkept
  by_cases hstore : ∃ q, o = .store q
  · obtain ⟨q, rfl⟩ := hstore
    have hstep := AppState.exec_store hexec
    cases answer with
    | ok answer =>
        have hrun := (Database.step_ok hstep).2
        intro pubkey hprimary
        rcases recorded_owned hrun hown hprimary with ⟨hbefore, -⟩ | howns
        · rcases (hlive user pubkey hbefore).run hrun with hstays | rfl
          · exact hstays
          · simp [sparesPrimary, hbefore] at hspared
        · exact howns
    | error error =>
        rw [Database.step_error hstep]
        exact hlive user
  · have hother : ∀ q, o ≠ .store q := fun q hq => hstore ⟨q, hq⟩
    rw [(AppState.exec_frame hexec).db hother]
    exact hlive user

/-- The primary pointer of an owner is live in every state of a run whose statements record no
device that is gone and delete no primary one.  Where primary devices are deleted, and no
call fails or is dropped before it has settled the pointer, it is live but for the owners a
removal is at work for. -/
theorem primary_pointer_live {st : AppState} (hstart : ∀ user, st.db.PrimaryLive user) :
    (∀ c g, Machine.Reach (primaries conf) (Machine.passes (keepsPrimaries conf))
        ((machine conf).idle st) ∅ c g → ∀ user, c.shared.db.PrimaryLive user) ∧
      ∀ c g, Machine.Reach (primaries conf) (Machine.passes (settlesPrimaries conf))
        ((machine conf).idle st) ∅ c g →
        (∀ user, (∀ task pubkey, g.get? task ≠ some (user, pubkey)) →
          c.shared.db.PrimaryLive user) ∧
        ∀ task removing, g.get? task = some removing → (c.tasks task).isSome := by
  constructor
  · intro c g hreach
    induction hreach with
    | start => exact hstart
    | step _ taken allowed ih =>
        cases taken with
        | call => exact ih
        | perform _ executed => exact kept_live conf executed allowed ih
        | finish => exact ih
        | abort => exact ih
        | drop => exact ih
        | move moved =>
            rw [(AppState.move_untouched moved).db]
            exact ih
  · intro c g hreach
    have hstarts : PrimaryInv ∅ st fun _ => none :=
      ⟨fun _ => rfl, fun user pubkey hprimary => .inl (hstart user pubkey hprimary)⟩
    obtain ⟨views, htracks, hinv⟩ := (primaryDiscipline conf).run hstarts hreach
    constructor
    · intro user hquiet pubkey hprimary
      rcases hinv.live user pubkey hprimary with howns | ⟨task, hopen⟩
      · exact howns
      · exact absurd hopen (hquiet task pubkey)
    · intro task removing hopen
      rw [Option.isSome_iff_ne_none]
      intro hnone
      rw [hinv.mirrors task, htracks.absent task hnone] at hopen
      cases hopen

/-- User 1 has a pc, its primary device, and a pad. -/
def pcAndPad : AppState where
  db :=
    { devices :=
        { table :=
            ((∅ : Table PubKey DeviceRow).insert
              1 ⟨1, 1, "pc", some "pc-token", none, false⟩).insert
              2 ⟨2, 1, "pad", some "pad-token", none, false⟩
          indexNodup := by decide }
      primaryDevice := (∅ : Table UserId PubKey).insert 1 1 }

theorem pcAndPad_live (user : UserId) : pcAndPad.db.PrimaryLive user := by
  intro pubkey hprimary
  have hcases : (if user = 1 then some 1 else (∅ : Table UserId PubKey).get? user) = some pubkey :=
    (Table.get?_insert ..).symm.trans hprimary
  split at hcases
  · rename_i huser
    cases hcases
    subst huser
    exact Database.owns_iff.mp (by decide)
  · cases hcases

open Script in
def pcRemoved : Script Conf.small :=
  call (.manage ⟨"pad-token", .remove "pc"⟩) ++ steps 0 13 .go

open Script in
def padOvertaken : Script Conf.small :=
  call (.manage ⟨"pc-token", .setPrimary "pad"⟩) ++ steps 0 2 .go ++
    call (.manage ⟨"pc-token", .remove "pad"⟩) ++ steps 1 11 .go ++ steps 0 4 .go

theorem primary_pointer_live_promoted :
    ∃ c g, Machine.Reach (primaries Conf.small) (Machine.passes (settlesPrimaries Conf.small))
        ((machine Conf.small).idle pcAndPad) ∅ c g ∧
      c.shared.db.primaryDevice.get? 1 = some 2 ∧ c.shared.db.PrimaryLive 1 := by
  have hplay : (Machine.play (primaries Conf.small) (settlesPrimaries Conf.small)
      ((machine Conf.small).idle pcAndPad) ∅ pcRemoved).any
        (fun last => last.2.rows.isEmpty &&
          last.1.shared.db.primaryDevice.get? 1 == some 2) = true := by
    decide
  have hrun : ∃ c g, Machine.Reach (primaries Conf.small)
      (Machine.passes (settlesPrimaries Conf.small)) ((machine Conf.small).idle pcAndPad) ∅ c g ∧
        (g.rows.isEmpty && c.shared.db.primaryDevice.get? 1 == some 2) = true :=
    Machine.reach_of_play (fun _ _ _ htest => htest) hplay
  obtain ⟨c, g, hreach, hlast⟩ := hrun
  obtain ⟨hempty, hprimary⟩ := Bool.and_eq_true_iff.mp hlast
  obtain ⟨hlive, -⟩ := (primary_pointer_live Conf.small pcAndPad_live).2 c g hreach
  refine ⟨c, g, hreach, beq_iff_eq.mp hprimary, hlive 1 fun task pubkey => ?_⟩
  simp [Table.get?, List.isEmpty_iff.mp hempty]

/-- A pointer is left on a removed device, with no call running any more. -/
theorem primary_pointer_left_dead :
    ¬ ∀ st c g, (∀ user, Database.PrimaryLive (AppState.db st) user) →
      Machine.Reach (primaries Conf.small) Machine.free ((machine Conf.small).idle st) ∅ c g →
        (∀ task, c.tasks task = none) → ∀ user, c.shared.db.PrimaryLive user := by
  intro hall
  have hplay : (Machine.play (primaries Conf.small) (fun _ _ _ => true)
      ((machine Conf.small).idle pcAndPad) ∅ padOvertaken).any
        (fun last => decide (last.1.next = 2) && (last.1.tasks 0).isNone &&
          (last.1.tasks 1).isNone && last.1.shared.db.primaryDevice.get? 1 == some 2 &&
            !last.1.shared.db.owns 1 2) = true := by
    decide
  have hrun : ∃ c g, Machine.Reach (primaries Conf.small) Machine.free
      ((machine Conf.small).idle pcAndPad) ∅ c g ∧
        (decide (c.next = 2) && (c.tasks 0).isNone && (c.tasks 1).isNone &&
          c.shared.db.primaryDevice.get? 1 == some 2 && !c.shared.db.owns 1 2) = true :=
    Machine.reach_of_play (fun _ _ _ _ => trivial) hplay
  obtain ⟨c, g, hreach, hlast⟩ := hrun
  simp only [Bool.and_eq_true, decide_eq_true_eq, Option.isNone_iff_eq_none, beq_iff_eq,
    Bool.not_eq_true'] at hlast
  obtain ⟨⟨⟨⟨hnext, hfirst⟩, hsecond⟩, hprimary⟩, hgone⟩ := hlast
  have hidle (task : Nat) : c.tasks task = none := by
    rcases Nat.lt_or_ge task 2 with hbelow | hbeyond
    · rcases (by omega : task = 0 ∨ task = 1) with rfl | rfl
      · exact hfirst
      · exact hsecond
    · exact hreach.numbered task (by omega)
  have howns := Database.owns_iff.mpr (hall pcAndPad c g pcAndPad_live hreach hidle 1 2 hprimary)
  rw [hgone] at howns
  cases howns

end UnityLan.Coordinator
