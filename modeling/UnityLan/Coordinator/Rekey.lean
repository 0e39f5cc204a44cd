import UnityLan.Common.Indices
import UnityLan.Coordinator.Names
import UnityLan.Coordinator.Primary

namespace UnityLan.Coordinator

open UnityLan.Foundation Prog

/-! A device that re-keys: it registers under a new pubkey and presents the token of the old
one, which is retired. -/

variable (conf : Conf) (req : RegisterReq) (user : UserId)

/-- Identity and retirement, once the role source has answered. -/
def rekey (held : Bool × MemberCache) : Handler (Device × MemberCache × List Scope) := do
  if !held.1 && !wantsPersonalScope req then
    let changed ← retireSuperseded req user []
    return (⟨0, "", false⟩, held.2, changed)
  else
    let (ip, name) ←
      (Store.allocateDevice conf req.wgPubkey user (sanitizeLabel req.deviceName)).mapError
        internal
    (sql (.ensurePrimary user req.wgPubkey)).mapError internal
    let primary ← (sql (.primaryPubkey user)).mapError internal
    let changed ← retireSuperseded req user []
    return (⟨ip, name, primary == some req.wgPubkey⟩, held.2, changed)

theorem rekey_phases (networks : List Network) :
    (do
      let (device, cache) ← resolveDevice conf req user networks []
      let changed ← retireSuperseded req user []
      return (device, cache, changed)) =
    holdsAnyNetworkRole user networks [] >>= rekey conf req user := by
  unfold resolveDevice
  simp only [bind_assoc]
  congr 1
  funext held
  unfold rekey
  split
  · rfl
  · simp only [bind_assoc]
    rfl

/-! A store that answers every statement. -/

def untroubled : Op → Choice → Choice
  | .store _, _ => .go
  | _, choice => choice

def execStored (task : Nat) (o : Op) (choice : Choice) (st : AppState) :
    Option (o.Res × AppState) :=
  AppState.exec conf task o (untroubled o choice) st

section

variable {conf req user} {task : Nat} {st st' st'' : AppState} {α β : Type}

theorem stored_sql {q : Query} {answer : q.Res} {db' : Database}
    {result : Except StoreError q.Res} (hrun : st.db.run q = .ok (answer, db'))
    (heval : Eval (execStored conf task) (sql q) st result st') :
    result = .ok answer ∧ st' = { st with db := db' } := by
  cases heval with
  | @op _ _ _ found _ _ _ _ hexecuted hrest =>
      simp only [execStored, untroubled, AppState.exec, Database.step, Choice.why, hrun,
        Option.some.injEq, Prod.mk.injEq] at hexecuted
      obtain ⟨rfl, rfl⟩ := hexecuted
      cases hrest
      exact ⟨rfl, rfl⟩

theorem stored_sql_bind {q : Query} {answer : q.Res} {db' : Database} {f : q.Res → Stored α}
    {result : Except StoreError α} (hrun : st.db.run q = .ok (answer, db'))
    (heval : Eval (execStored conf task) (sql q >>= f) st result st'') :
    Eval (execStored conf task) (f answer) { st with db := db' } result st'' := by
  rcases eval_bind heval with ⟨value, st', hfirst, hrest⟩ | ⟨error, hfirst, -⟩
  · obtain ⟨hvalue, rfl⟩ := stored_sql hrun hfirst
    cases hvalue
    exact hrest
  · obtain ⟨herror, -⟩ := stored_sql hrun hfirst
    cases herror

theorem stored_bind {program : Stored α} {f : α → Handler β} {result : Except ApiError β}
    (heval : Eval (execStored conf task) (program.mapError internal >>= f) st result st'') :
    (∃ value st', Eval (execStored conf task) program st (.ok value) st' ∧
      Eval (execStored conf task) (f value) st' result st'') ∨
    ∃ error, Eval (execStored conf task) program st (.error error) st'' ∧
      result = .error (internal error) := by
  rcases eval_bind heval with ⟨value, st', hfirst, hrest⟩ | ⟨error, hfirst, hresult⟩
  · obtain ⟨inner, hinner, hvalue⟩ := eval_mapError hfirst
    cases inner with
    | ok found =>
        cases hvalue
        exact .inl ⟨value, st', hinner, hrest⟩
    | error error => cases hvalue
  · obtain ⟨inner, hinner, herror⟩ := eval_mapError hfirst
    cases inner with
    | ok found => cases herror
    | error inner =>
        cases herror
        exact .inr ⟨inner, hinner, hresult⟩

theorem stored_ask_bind {q : Query} {answer : q.Res} {db' : Database} {f : q.Res → Handler α}
    {result : Except ApiError α} (hrun : st.db.run q = .ok (answer, db'))
    (heval : Eval (execStored conf task) ((sql q).mapError internal >>= f) st result st'') :
    Eval (execStored conf task) (f answer) { st with db := db' } result st'' := by
  rcases stored_bind heval with ⟨value, st', hfirst, hrest⟩ | ⟨error, hfirst, -⟩
  · obtain ⟨hvalue, rfl⟩ := stored_sql hrun hfirst
    cases hvalue
    exact hrest
  · obtain ⟨herror, -⟩ := stored_sql hrun hfirst
    cases herror

theorem holdsAnyNetworkRole_db {networks : List Network} {cache : MemberCache}
    {result : Except ApiError (Bool × MemberCache)}
    (heval : Eval (execStored conf task) (holdsAnyNetworkRole user networks cache) st result st') :
    st'.db = st.db := by
  have huses : (holdsAnyNetworkRole user networks cache).Uses
      fun o : Op => ∀ q, o ≠ .store q := by
    clear heval
    induction networks generalizing cache with
    | nil => trivial
    | cons net rest ih =>
        unfold holdsAnyNetworkRole
        refine ((lookupMember_uses cache net.guildId user).mono ?_).bind fun looked => ?_
        · rintro o hmember q rfl
          exact hmember
        · dsimp only
          split
          · trivial
          · exact ih
  refine huses.eval (fun s s' => s'.db = s.db) (fun _ => rfl)
    (fun s s' s'' (hfirst : s'.db = s.db) (hsecond : s''.db = s'.db) => hsecond.trans hfirst)
    ?_ heval
  exact fun _ _ _ _ _ hother hexec => (AppState.exec_frame hexec).db hother

theorem allocateDevice_new {pubkey : PubKey} {desired : String}
    {result : Except StoreError (Ipv4Addr × String)}
    (hnew : st.db.devices.get? pubkey = none)
    (heval : Eval (execStored conf task) (Store.allocateDevice conf pubkey user desired)
      st result st') :
    ((∃ error, result = .error error) ∧ st'.db = st.db ∧
      (MAX_DEVICES_PER_USER ≤ (st.db.devicesOf user).length ∨
        ∀ index, indexIsValid conf.wgNet index = true →
          index ∈ st.db.devices.table.values.map (·.idx))) ∨
    ∃ row devices, (st.db.devicesOf user).length < MAX_DEVICES_PER_USER ∧
      (∃ index, indexIsValid conf.wgNet index = true ∧
        index ∉ st.db.devices.table.values.map (·.idx)) ∧
      row.userId = user ∧ result = .ok (addrFromIndex conf.wgNet row.idx, row.deviceName) ∧
      st.db.devices.insertNew pubkey row = some devices ∧
      devices.table.rows = st.db.devices.table.rows ++ [(pubkey, row)] ∧
      st'.db = { st.db with devices := devices } := by
  unfold Store.allocateDevice at heval
  have heval := stored_sql_bind rfl heval
  rw [hnew] at heval
  dsimp only at heval
  have heval := stored_sql_bind rfl heval
  split at heval
  · rename_i hfull
    cases heval
    exact .inl ⟨⟨_, rfl⟩, rfl, .inl hfull⟩
  · rename_i hroom
    have heval := stored_sql_bind rfl heval
    have hpicks := picksFree conf.wgNet (st.db.devices.table.values.map (·.idx))
      (deviceHint conf.sip conf.wgNet pubkey)
    dsimp only at heval
    split at heval
    · rename_i hnone
      cases heval
      exact .inl ⟨⟨_, rfl⟩, rfl, .inr (hpicks.exhausted.mp hnone)⟩
    · rename_i idx hidx
      obtain ⟨hvalid, hfree⟩ := hpicks.free idx hidx
      rw [uniqueDeviceName_eq, bind_assoc] at heval
      have heval := stored_sql_bind rfl heval
      obtain ⟨name, hname⟩ := freeName_isSome (namesOf st.db user none) desired
      have heval : Eval (execStored conf task) (do
          let token ← act .genEnrollmentKey
          sql (.insertDevice pubkey
            { idx := idx, userId := user, deviceName := name, token := some token })
          return (addrFromIndex conf.wgNet idx, name)) st result st' := by
        rw [namesOf] at hname
        simp only [hname] at heval
        exact heval
      cases heval with
      | @op _ _ choice token _ st₁ _ _ hexecuted heval =>
          have hdb : st₁.db = st.db := (AppState.exec_frame hexecuted).db
            fun _ habsurd => by cases habsurd
          have hinserted : ∃ devices, st.db.devices.insertNew pubkey
              { idx := idx, userId := user, deviceName := name, token := some token } =
                some devices ∧ devices.table.rows = st.db.devices.table.rows ++ [(pubkey, _)] :=
            UniqueTable.insertNew_fresh hnew hfree
          obtain ⟨devices, hinsert, hrows⟩ := hinserted
          have hrun : st₁.db.run (.insertDevice pubkey
              { idx := idx, userId := user, deviceName := name, token := some token }) =
                .ok ((), { st₁.db with devices := devices }) := by
            simp only [Database.run, hdb, hinsert]
          have heval := stored_sql_bind hrun heval
          cases heval
          right
          refine ⟨_, devices, Nat.lt_of_not_le hroom, ⟨idx, hvalid, hfree⟩, rfl, rfl, hinsert,
            hrows, ?_⟩
          rw [hdb]

theorem removeDevice_stored {pubkey : PubKey} {result : Except StoreError Unit}
    (heval : Eval (execStored conf task) (Store.removeDevice user pubkey) st result st') :
    result = .ok () ∧
      st'.db.devices =
        st.db.devices.retain (fun key row => !(key == pubkey && row.userId == user)) ∧
      st'.db.primaryDevice.get? user =
        if st.db.primaryDevice.get? user = some pubkey then
          (st'.db.devicesOf user).head?.map Prod.fst
        else st.db.primaryDevice.get? user := by
  unfold Store.removeDevice at heval
  have heval := stored_sql_bind rfl heval
  have heval := stored_sql_bind rfl heval
  have heval := stored_sql_bind rfl heval
  have heval := stored_sql_bind rfl heval
  dsimp only at heval
  split at heval
  · rename_i hprimary
    have heval := stored_sql_bind rfl heval
    dsimp only at heval
    rw [if_pos hprimary]
    split at heval
    · rename_i other name rest hdevices
      obtain ⟨row, tail, hrows, hrow, -⟩ := List.map_eq_cons_iff.mp hdevices
      obtain ⟨hresult, rfl⟩ := stored_sql rfl heval
      refine ⟨hresult, rfl, ?_⟩
      have hhead : (Database.devicesOf _ user).head? = some row := congrArg List.head? hrows
      refine (Table.get?_insert ..).trans ?_
      rw [if_pos rfl]
      refine Eq.trans ?_ (congrArg (Option.map Prod.fst) hhead).symm
      exact congrArg some (Prod.mk.inj hrow).1.symm
    · rename_i hdevices
      have hempty := List.map_eq_nil_iff.mp hdevices
      obtain ⟨hresult, rfl⟩ := stored_sql rfl heval
      refine ⟨hresult, rfl, ?_⟩
      have hhead : (Database.devicesOf _ user).head? = none := congrArg List.head? hempty
      refine (Table.get?_erase ..).trans ?_
      rw [if_pos rfl]
      exact (congrArg (Option.map Prod.fst) hhead).symm
  · rename_i hprimary
    rw [if_neg hprimary]
    cases heval
    exact ⟨rfl, rfl, rfl⟩

def storeless : Monitor sig Unit where
  allows := fun _ o => ∀ q, o ≠ .store q
  expects := fun _ _ _ => True
  next := fun _ _ _ => ()

theorem storeless_eval {program : Handler α} {result : Except ApiError α}
    (hprogram : program.Conforms storeless (fun _ result => ∃ value, result = .ok value) ())
    (heval : Eval (execStored conf task) program st result st') :
    (∃ value, result = .ok value) ∧ st'.db = st.db := by
  have hdone := hprogram.eval (fun _ s => s.db = st.db) ?_ rfl heval
  · obtain ⟨_, hdb, hresult⟩ := hdone
    exact ⟨hresult, hdb⟩
  · intro _ s o choice answer s' hdb hother hexec
    exact ⟨trivial, ((AppState.exec_frame hexec).db hother).trans hdb⟩

theorem evictFrom_storeless {pubkey : PubKey} {networks : List (GuildId × RoleId)}
    {changed : List Scope} :
    (evictFrom pubkey networks changed).Conforms storeless
      (fun _ result => ∃ value, result = .ok value) () := by
  induction networks generalizing changed with
  | nil => exact ⟨_, rfl⟩
  | cons network rest ih =>
      unfold evictFrom
      exact ⟨by simp [storeless], fun removed _ => ih⟩

theorem retireSuperseded_stored {token : String} {old : PubKey} {changed : List Scope}
    {result : Except ApiError (List Scope)} (htoken : req.supersede = some token)
    (hholder : st.db.run (.deviceByToken token) = .ok (some (user, old), st.db))
    (hold : old ≠ req.wgPubkey)
    (heval : Eval (execStored conf task) (retireSuperseded req user changed) st result st') :
    (∃ changed, result = .ok changed) ∧
      st'.db.devices =
        st.db.devices.retain (fun key row => !(key == old && row.userId == user)) ∧
      st'.db.primaryDevice.get? user =
        if st.db.primaryDevice.get? user = some old then
          (st'.db.devicesOf user).head?.map Prod.fst
        else st.db.primaryDevice.get? user := by
  unfold retireSuperseded at heval
  rw [htoken] at heval
  dsimp only at heval
  have heval := stored_ask_bind hholder heval
  have hsupersedes : shouldSupersede user old user req.wgPubkey = true := by
    simp [shouldSupersede, hold]
  simp only [hsupersedes, if_pos] at heval
  rcases stored_bind heval with ⟨_, st₁, hremoved, heval⟩ | ⟨error, hremoved, -⟩
  · obtain ⟨-, hdevices, hprimary⟩ := removeDevice_stored hremoved
    have hrest := storeless_eval ?_ heval
    · obtain ⟨hresult, hdb⟩ := hrest
      refine ⟨hresult, ?_⟩
      rw [hdb]
      exact ⟨hdevices, hprimary⟩
    · refine ⟨nofun, fun networks _ => ?_⟩
      refine evictFrom_storeless.bind ?_ ?_
      · intro _ changed _
        exact ⟨nofun, fun removed _ => ⟨_, rfl⟩⟩
      · rintro _ error ⟨_, herror⟩
        cases herror
  · cases (removeDevice_stored hremoved).1

end

/-! What a re-key is to do, and when it does. -/

namespace Database

/-- The device's row is in the place of the old one's, and it is said of it what the store
says. -/
structure Rekeyed (before after : Database) (user : UserId) (old new : PubKey)
    (device : Device) : Prop where
  count : (after.devicesOf user).length = (before.devicesOf user).length
  removed : after.devices.get? old = none
  kept : ∀ key, key ≠ old → key ≠ new → after.devices.get? key = before.devices.get? key
  named : ∃ row, after.devices.get? new = some row ∧ row.userId = user ∧
    row.deviceName = device.name
  primary : device.isPrimary = (after.primaryDevice.get? user == some new)

end Database

/-- The caller is entitled to a device, there is room for one more beside the old one, and the
old one is not the primary device of a user who has no other. -/
structure RekeyFits (old : PubKey) (db : Database) (held : Bool) : Prop where
  entitled : held = true ∨ wantsPersonalScope req = true
  room : (db.devicesOf user).length < MAX_DEVICES_PER_USER
  index : ∃ index, indexIsValid conf.wgNet index = true ∧
    index ∉ db.devices.table.values.map (·.idx)
  other : db.primaryDevice.get? user ≠ some old ∨ 1 < (db.devicesOf user).length

section

variable {conf req user} {before after : Database} {old new : PubKey} {row : DeviceRow}

theorem length_filter_ne {rows : List (PubKey × DeviceRow)} {key : PubKey}
    (hnodup : (rows.map Prod.fst).Nodup) (hmem : key ∈ rows.map Prod.fst) :
    (rows.filter fun row => row.1 != key).length + 1 = rows.length := by
  have hkeys : (rows.filter fun row => row.1 != key).map Prod.fst =
      (rows.map Prod.fst).erase key := by
    rw [hnodup.erase_eq_filter, List.filter_map]
    rfl
  have hlength := congrArg List.length hkeys
  rw [List.length_map, List.length_erase_of_mem hmem, List.length_map] at hlength
  have hpos := List.length_pos_of_mem hmem
  rw [List.length_map] at hpos
  omega

theorem devicesOf_retain (db : Database) (hdevices : after.devices =
      db.devices.retain (fun key row => !(key == old && row.userId == user))) :
    after.devicesOf user = (db.devicesOf user).filter fun row => row.1 != old := by
  unfold Database.devicesOf
  rw [hdevices]
  change (List.filter _ _).filter _ = _
  rw [List.filter_filter, List.filter_filter]
  refine List.filter_congr fun row _ => ?_
  dsimp only [bne]
  cases row.1 == old <;> cases row.2.userId == user <;> rfl

theorem holder_owned {db : Database} {token : String}
    (hholder : db.run (.deviceByToken token) = .ok (some (user, old), db)) :
    db.Owns user old := by
  simp only [Database.run, Except.ok.injEq, Prod.mk.injEq, and_true,
    Option.map_eq_some_iff] at hholder
  obtain ⟨⟨key, row⟩, hfound, huser, rfl⟩ := hholder
  exact ⟨row, Table.mem_rows.mp (List.mem_of_find?_eq_some hfound), huser⟩

theorem Database.Owns.ne_fresh {db : Database} (howns : db.Owns user old)
    (hfresh : db.devices.get? new = none) : old ≠ new := by
  obtain ⟨row, hrow, -⟩ := howns
  rintro rfl
  rw [hfresh] at hrow
  cases hrow

theorem mem_devicesOf_keys {db : Database} (howns : db.Owns user old) :
    old ∈ (db.devicesOf user).map Prod.fst := by
  obtain ⟨row, hrow, huser⟩ := howns
  exact List.mem_map.mpr ⟨(old, row), Database.mem_devicesOf.mpr ⟨hrow, huser⟩, rfl⟩

theorem not_rekeyed_alone {device : Device} (howns : before.Owns user old)
    (hdevices : after.devices =
      before.devices.retain (fun key row => !(key == old && row.userId == user))) :
    ¬before.Rekeyed after user old new device := by
  intro hrekeyed
  have hcount := hrekeyed.count
  rw [devicesOf_retain before hdevices] at hcount
  have hless := length_filter_ne (Database.nodup_devicesOf before user) (mem_devicesOf_keys howns)
  omega

structure Replaced (before after : Database) (user : UserId) (old new : PubKey)
    (row : DeviceRow) : Prop where
  owner : row.userId = user
  fresh : before.devices.get? new = none
  held : before.Owns user old
  devicesOf : after.devicesOf user =
    ((before.devicesOf user).filter fun row => row.1 != old) ++ [(new, row)]
  get? : ∀ key, after.devices.get? key =
    if key = old then none else if key = new then some row else before.devices.get? key
  primary : after.primaryDevice.get? user =
    if (before.primaryDevice.get? user).getD new = old then
      (after.devicesOf user).head?.map Prod.fst
    else some ((before.primaryDevice.get? user).getD new)

theorem Replaced.rekeyed {device : Device} (hreplaced : Replaced before after user old new row)
    (hname : row.deviceName = device.name)
    (hprimary : device.isPrimary = ((before.primaryDevice.get? user).getD new == new)) :
    before.Rekeyed after user old new device ↔
      (before.primaryDevice.get? user ≠ some old ∨ 1 < (before.devicesOf user).length) := by
  have hless := length_filter_ne (Database.nodup_devicesOf before user)
    (mem_devicesOf_keys hreplaced.held)
  have hne := (hreplaced.held.ne_fresh hreplaced.fresh).symm
  have hrest (hprimary : device.isPrimary = (after.primaryDevice.get? user == some new)) :
      before.Rekeyed after user old new device := by
    refine ⟨?_, ?_, ?_, ⟨row, ?_, hreplaced.owner, hname⟩, hprimary⟩
    · rw [hreplaced.devicesOf, List.length_append, List.length_singleton]
      exact hless
    · rw [hreplaced.get?, if_pos rfl]
    · intro key hkey hother
      rw [hreplaced.get?, if_neg hkey, if_neg hother]
    · rw [hreplaced.get?, if_neg hne, if_pos rfl]
  by_cases hpointer : before.primaryDevice.get? user = some old
  · -- the old device is primary: the grant says the new one is not, the removal promotes the first
    have hpromoted := hreplaced.primary
    rw [hpointer, Option.getD_some, if_pos rfl, hreplaced.devicesOf] at hpromoted
    rw [hpointer, Option.getD_some, beq_eq_false_iff_ne.mpr hne.symm] at hprimary
    cases hothers : (before.devicesOf user).filter fun row => row.1 != old with
    | nil =>
        rw [hothers] at hless hpromoted
        constructor
        · intro hrekeyed
          have hspeaks := hrekeyed.primary
          rw [hprimary, hpromoted] at hspeaks
          simp at hspeaks
        · rintro (hother | hmore)
          · exact absurd hpointer hother
          · simp only [List.length_nil] at hless
            omega
    | cons first others =>
        rw [hothers] at hless hpromoted
        constructor
        · intro _
          right
          simp only [List.length_cons] at hless
          omega
        · intro _
          apply hrest
          have hfirst : first ∈ before.devicesOf user :=
            List.mem_of_mem_filter (by rw [hothers]; exact List.mem_cons_self ..)
          obtain ⟨hget, -⟩ := Database.mem_devicesOf.mp hfirst
          have hother : first.1 ≠ new := by
            intro hsame
            rw [hsame, hreplaced.fresh] at hget
            cases hget
          rw [hprimary, hpromoted]
          simp [hother]
  · refine iff_of_true (hrest ?_) (.inl hpointer)
    have hkept : (before.primaryDevice.get? user).getD new ≠ old := by
      cases hwas : before.primaryDevice.get? user with
      | none => exact hne
      | some pubkey =>
          intro hsame
          rw [hwas, ← hsame] at hpointer
          exact hpointer rfl
    rw [hprimary, hreplaced.primary, if_neg hkept]
    rfl

def ensured (db : Database) (user : UserId) (pubkey : PubKey) : Database :=
  if db.primaryDevice.contains user then db
  else { db with primaryDevice := db.primaryDevice.insert user pubkey }

theorem ensured_primary (db : Database) (pubkey : PubKey) :
    (ensured db user pubkey).primaryDevice.get? user =
      some ((db.primaryDevice.get? user).getD pubkey) := by
  unfold ensured
  cases hpointer : db.primaryDevice.get? user with
  | none => simp [Table.contains, hpointer]
  | some primary => simp [Table.contains, hpointer]

theorem ensured_devices (db : Database) (pubkey : PubKey) :
    (ensured db user pubkey).devices = db.devices := by
  unfold ensured
  split <;> rfl

theorem replaced_of_retired {middle : Database} {devices : UniqueTable PubKey DeviceRow _}
    (hfresh : before.devices.get? new = none) (howner : row.userId = user)
    (howns : before.Owns user old)
    (hinsert : before.devices.insertNew new row = some devices)
    (hrows : devices.table.rows = before.devices.table.rows ++ [(new, row)])
    (hmiddle : middle.devices = devices)
    (hensured : middle.primaryDevice.get? user =
      some ((before.primaryDevice.get? user).getD new))
    (hdevices : after.devices =
      middle.devices.retain (fun key row => !(key == old && row.userId == user)))
    (hprimary : after.primaryDevice.get? user =
      if middle.primaryDevice.get? user = some old then
        (after.devicesOf user).head?.map Prod.fst
      else middle.primaryDevice.get? user) :
    Replaced before after user old new row := by
  have hne := (howns.ne_fresh hfresh).symm
  obtain ⟨oldRow, hold, huser⟩ := howns
  obtain ⟨-, hget⟩ := UniqueTable.insertNew_some hinsert
  refine ⟨howner, hfresh, ⟨oldRow, hold, huser⟩, ?_, ?_, ?_⟩
  · rw [devicesOf_retain middle hdevices]
    unfold Database.devicesOf
    rw [hmiddle, hrows, List.filter_append, List.filter_append]
    simp [howner, hne]
  · intro key
    rw [hdevices, hmiddle, UniqueTable.get?_retain, hget]
    by_cases hkey : key = old
    · subst hkey
      simp [hne.symm, hold, huser]
    · rw [if_neg hkey]
      split
      · simp [hkey]
      · cases before.devices.get? key <;> simp [hkey]
  · rw [hprimary, hensured]
    simp only [Option.some.injEq]

end

section

variable {conf req user} {task : Nat} {st st' : AppState} {old : PubKey} {token : String}
  {held : Bool × MemberCache}
  {result : Except ApiError (Device × MemberCache × List Scope)}

theorem rekey_roleless (htoken : req.supersede = some token)
    (hholder : st.db.run (.deviceByToken token) = .ok (some (user, old), st.db))
    (hnew : st.db.devices.get? req.wgPubkey = none)
    (hroleless : (!held.1 && !wantsPersonalScope req) = true)
    (heval : Eval (execStored conf task) (rekey conf req user held) st result st') :
    st'.db.devices =
      st.db.devices.retain (fun key row => !(key == old && row.userId == user)) := by
  have hold := (holder_owned hholder).ne_fresh hnew
  unfold rekey at heval
  rw [if_pos hroleless] at heval
  rcases eval_bind heval with ⟨changed, st₁, hretired, hrest⟩ | ⟨error, hretired, -⟩
  · cases hrest
    exact (retireSuperseded_stored htoken hholder hold hretired).2.1
  · exact (retireSuperseded_stored htoken hholder hold hretired).2.1

theorem rekey_entitled (htoken : req.supersede = some token)
    (hholder : st.db.run (.deviceByToken token) = .ok (some (user, old), st.db))
    (hnew : st.db.devices.get? req.wgPubkey = none)
    (hentitled : ¬(!held.1 && !wantsPersonalScope req) = true)
    (heval : Eval (execStored conf task) (rekey conf req user held) st result st') :
    ((∃ error, result = .error error) ∧
      (MAX_DEVICES_PER_USER ≤ (st.db.devicesOf user).length ∨
        ∀ index, indexIsValid conf.wgNet index = true →
          index ∈ st.db.devices.table.values.map (·.idx))) ∨
    ∃ row device changed, result = .ok (device, held.2, changed) ∧
      (st.db.devicesOf user).length < MAX_DEVICES_PER_USER ∧
      (∃ index, indexIsValid conf.wgNet index = true ∧
        index ∉ st.db.devices.table.values.map (·.idx)) ∧
      row.deviceName = device.name ∧
      device.isPrimary = ((st.db.primaryDevice.get? user).getD req.wgPubkey == req.wgPubkey) ∧
      Replaced st.db st'.db user old req.wgPubkey row := by
  have howns := holder_owned hholder
  have hold := howns.ne_fresh hnew
  unfold rekey at heval
  rw [if_neg hentitled] at heval
  rcases stored_bind heval with ⟨allocated, st₁, hallocated, heval⟩ | ⟨error, hallocated, hresult⟩
  · rcases allocateDevice_new hnew hallocated with
      ⟨⟨error, herror⟩, -, -⟩ | ⟨row, devices, hroom, hindex, howner, hok, hinsert, hrows, hdb⟩
    · cases herror
    · cases hok
      right
      have hensure : st₁.db.run (.ensurePrimary user req.wgPubkey) =
          .ok ((), ensured st₁.db user req.wgPubkey) := rfl
      have heval := stored_ask_bind hensure heval
      have heval := stored_ask_bind rfl heval
      have hholder' : (ensured st₁.db user req.wgPubkey).run (.deviceByToken token) =
          .ok (some (user, old), ensured st₁.db user req.wgPubkey) := by
        simp only [Database.run, ensured_devices, hdb, hrows, List.find?_append]
        simp only [Database.run, Except.ok.injEq, Prod.mk.injEq, and_true] at hholder
        obtain ⟨found, hfound, hpair⟩ := Option.map_eq_some_iff.mp hholder
        rw [hfound]
        simp [hpair]
      rcases eval_bind heval with ⟨changed, st₂, hretired, hrest⟩ | ⟨error, hretired, -⟩
      · obtain ⟨-, hdevices, hprimary⟩ := retireSuperseded_stored htoken hholder' hold hretired
        cases hrest
        refine ⟨row, _, changed, rfl, hroom, hindex, rfl, ?_, ?_⟩
        · dsimp only
          rw [ensured_primary, hdb]
          simp
        · refine replaced_of_retired hnew howner howns hinsert hrows ?_ ?_ hdevices hprimary
          · dsimp only
            rw [ensured_devices, hdb]
          · dsimp only
            rw [ensured_primary, hdb]
      · obtain ⟨⟨changed, hchanged⟩, -⟩ := retireSuperseded_stored htoken hholder' hold hretired
        cases hchanged
  · rcases allocateDevice_new hnew hallocated with
      ⟨-, -, hrefused⟩ | ⟨row, devices, -, -, -, hok, -⟩
    · exact .inl ⟨⟨_, hresult⟩, hrefused⟩
    · cases hok

end

/-! The rest of the request: it changes no device's owner or name, and no primary device. -/

def KeepsRows (new : PubKey) : Op → Prop
  | .store (.insertDevice ..) => False
  | .store (.deleteDevice ..) => False
  | .store (.setDeviceName ..) => False
  | .store (.ensurePrimary ..) => False
  | .store (.setPrimary ..) => False
  | .store (.deletePrimary _) => False
  | .store (.touchDevice pubkey ..) => pubkey = new
  | .store (.setToken pubkey _) => pubkey = new
  | _ => True

structure SameRows (new : PubKey) (before after : Database) : Prop where
  rows : after.devices.table.rows.map (fun row => (row.1, row.2.userId, row.2.deviceName)) =
    before.devices.table.rows.map fun row => (row.1, row.2.userId, row.2.deviceName)
  others : ∀ key, key ≠ new → after.devices.get? key = before.devices.get? key
  primary : ∀ user, after.primaryDevice.get? user = before.primaryDevice.get? user

section

variable {conf req user} {new : PubKey} {before middle after : Database}

theorem SameRows.trans (hfirst : SameRows new before middle) (hsecond : SameRows new middle after) :
    SameRows new before after :=
  ⟨hsecond.rows.trans hfirst.rows,
    fun key hkey => (hsecond.others key hkey).trans (hfirst.others key hkey),
    fun user => (hsecond.primary user).trans (hfirst.primary user)⟩

theorem SameRows.run {q : Query} {answer : q.Res} (hkeeps : KeepsRows new (.store q))
    (hrun : before.run q = .ok (answer, after)) : SameRows new before after := by
  have hprimary (user : UserId) :
      after.primaryDevice.get? user = before.primaryDevice.get? user := by
    rcases Database.run_primary user hrun with hsame | ⟨_, rfl, _⟩ | ⟨_, rfl, _⟩ | ⟨rfl, _⟩
    · exact hsame
    · exact hkeeps.elim
    · exact hkeeps.elim
    · exact hkeeps.elim
  by_cases hwrites : Database.writes q = some .devices
  · cases q <;> try (cases hwrites; done)
    case insertDevice => exact hkeeps.elim
    case deleteDevice => exact hkeeps.elim
    case setDeviceName => exact hkeeps.elim
    all_goals
      obtain rfl : _ = new := hkeeps
      cases hrun
      refine ⟨Table.map_rows_modify fun _ => rfl, fun key hkey => ?_, hprimary⟩
      simp only [UniqueTable.get?_adjust, if_neg hkey]
  · have hdevices := (Database.run_frame hrun).devices hwrites
    refine ⟨?_, ?_, hprimary⟩
    · rw [hdevices]
    · rw [hdevices]
      exact fun _ _ => rfl

theorem SameRows.get? (hsame : SameRows new before after) (key : PubKey) :
    (after.devices.get? key).map (fun row => (row.userId, row.deviceName)) =
      (before.devices.get? key).map fun row => (row.userId, row.deviceName) := by
  have hfind (db : Database) : (db.devices.get? key).map
      (fun row => (row.userId, row.deviceName)) =
        ((db.devices.table.rows.map fun row => (row.1, row.2.userId, row.2.deviceName)).find?
          fun row => decide (row.1 = key)).map Prod.snd := by
    rw [List.find?_map]
    simp only [UniqueTable.get?, Table.get?, Option.map_map]
    rfl
  rw [hfind, hfind, hsame.rows]

theorem SameRows.count (hsame : SameRows new before after) (user : UserId) :
    (after.devicesOf user).length = (before.devicesOf user).length := by
  have hcount (db : Database) : (db.devicesOf user).length =
      ((db.devices.table.rows.map fun row => (row.1, row.2.userId, row.2.deviceName)).filter
        fun row => row.2.1 == user).length := by
    rw [List.filter_map, List.length_map]
    rfl
  rw [hcount, hcount, hsame.rows]

theorem SameRows.rekeyed {start : Database} {old : PubKey} {device : Device}
    (hsame : SameRows new before after) (hne : old ≠ new) :
    start.Rekeyed after user old new device ↔ start.Rekeyed before user old new device := by
  have hrow : (∃ row, after.devices.get? new = some row ∧ row.userId = user ∧
        row.deviceName = device.name) ↔
      ∃ row, before.devices.get? new = some row ∧ row.userId = user ∧
        row.deviceName = device.name := by
    have hpair (db : Database) : (∃ row, db.devices.get? new = some row ∧ row.userId = user ∧
          row.deviceName = device.name) ↔
        (db.devices.get? new).map (fun row => (row.userId, row.deviceName)) =
          some (user, device.name) := by
      simp [Option.map_eq_some_iff]
    rw [hpair, hpair, hsame.get?]
  constructor
  · intro hrekeyed
    refine ⟨(hsame.count user).symm.trans hrekeyed.count,
      (hsame.others old hne).symm.trans hrekeyed.removed, fun key hold hnew => ?_,
      hrow.mp hrekeyed.named, ?_⟩
    · exact (hsame.others key hnew).symm.trans (hrekeyed.kept key hold hnew)
    · rw [hrekeyed.primary, hsame.primary]
  · intro hrekeyed
    refine ⟨(hsame.count user).trans hrekeyed.count,
      (hsame.others old hne).trans hrekeyed.removed, fun key hold hnew => ?_,
      hrow.mpr hrekeyed.named, ?_⟩
    · exact (hsame.others key hnew).trans (hrekeyed.kept key hold hnew)
    · rw [hrekeyed.primary, hsame.primary]

end

variable (alreadyEnrolled : Bool) (networks : List Network) (walked : Bool) (now : Nat)

/-- The rest of a snapshot. -/
def conclude (identified : Device × MemberCache × List Scope) : Handler Built := do
  let (m, changed) ←
    resolveMembership req user networks identified.1 identified.2.1 now identified.2.2
  rememberRoleless user walked m
  touchIdentity req m
  let changed ← recordOwnDevice req user identified.1 m now changed
  answer conf req user alreadyEnrolled ⟨now, identified.1, m, changed⟩

theorem snapshot_phases (callerIp : IpAddr) :
    settle conf req callerIp user >>= answer conf req user alreadyEnrolled = (do
      act (.nat (.putSourceIp req.wgPubkey callerIp))
      let now ← act .nowUnix
      let allNetworks ← (sql .allNetworks).mapError internal
      let memo ← act (.roleless (.fresh user))
      let networks := if !memo then allNetworks else []
      let held ← holdsAnyNetworkRole user networks []
      let identified ← rekey conf req user held
      conclude conf req user alreadyEnrolled networks (!memo) now identified) := by
  have hphases (networks : List Network)
      (k : Device × MemberCache × List Scope → Handler Built) :
      (resolveDevice conf req user networks [] >>= fun resolved =>
        retireSuperseded req user [] >>= fun changed => k (resolved.1, resolved.2, changed)) =
      holdsAnyNetworkRole user networks [] >>= fun held => rekey conf req user held >>= k := by
    rw [← bind_assoc, ← rekey_phases]
    simp only [bind_assoc]
    rfl
  unfold settle
  simp only [bind_assoc]
  congr 1
  funext _
  congr 1
  funext now
  congr 1
  funext allNetworks
  congr 1
  funext memo
  rw [← hphases]
  rfl

section

variable {conf req user alreadyEnrolled networks walked now}

theorem label_keepsRows {new : PubKey} : ∀ o, LabelOp o → KeepsRows new o := by
  intro o hlabel
  cases o with
  | store q => cases q <;> trivial
  | _ => trivial

theorem member_keepsRows {new : PubKey} (guild : GuildId) :
    ∀ o, MemberOp guild user o → KeepsRows new o := by
  intro o hmember
  cases o with
  | store q => exact hmember.elim
  | _ => trivial

theorem evict_keepsRows {new : PubKey} : ∀ o, EvictOp new o → KeepsRows new o := by
  intro o hevict
  cases o with
  | store q => exact hevict.elim
  | _ => trivial

theorem tell_keepsRows : ∀ o, TellOp req o → KeepsRows req.wgPubkey o := by
  rintro o (hanswer | hcounter)
  · cases o with
    | store q => cases q <;> trivial
    | _ => trivial
  · cases o with
    | store q => exact hcounter.elim
    | _ => trivial

theorem walkNetwork_keepsRows (device : Device) (walk : Walk) (net : Network) :
    (walkNetwork req user device now walk net).Uses (KeepsRows req.wgPubkey) := by
  unfold walkNetwork
  refine ((lookupMember_uses _ _ _).mono (member_keepsRows net.guildId)).bind fun looked => ?_
  dsimp only
  split
  · trivial
  · rename_i roles _
    split
    · have hname : ∀ o, NameOp o → KeepsRows req.wgPubkey o :=
        fun o hname => label_keepsRows o (name_label o hname)
      unfold walkHeld
      refine ((walkCommunity_uses _ _).mono hname).bind fun labelled => ?_
      refine ((roleName_uses _ _).mono hname).bind fun name => ?_
      refine ((walkUsername_uses _ _ _).mono label_keepsRows).bind fun username => ?_
      dsimp only
      split
      · refine Uses.bind ?_ fun _ => trivial
        unfold recordPresence
        split
        · trivial
        · simp only [uses_act_bind]
          refine ⟨trivial, fun recorded => ?_⟩
          cases recorded <;> trivial
      · trivial
    · trivial

theorem resolveMembership_keepsRows (device : Device) (cache : MemberCache) (changed : List Scope) :
    (resolveMembership req user networks device cache now changed).Uses
      (KeepsRows req.wgPubkey) := by
  unfold resolveMembership
  refine Uses.bind (Uses.foldlM _ (fun walk net => walkNetwork_keepsRows device walk net) _)
    fun walk => ?_
  simp only [uses_act_bind]
  refine ⟨trivial, fun recorded => ?_⟩
  refine Uses.bind ((evictFrom_uses _ _ _).mono evict_keepsRows) fun changed => ?_
  split
  · refine Uses.bind (Uses.mapError ((uses_sql _).mpr trivial) _) fun handle => ?_
    cases handle with
    | none => trivial
    | some handle => exact ((userLabel_uses _ _).mono label_keepsRows).bind fun _ => trivial
  · trivial

theorem conclude_keepsRows (identified : Device × MemberCache × List Scope) :
    (conclude conf req user alreadyEnrolled networks walked now identified).Uses
      (KeepsRows req.wgPubkey) := by
  unfold conclude
  refine (resolveMembership_keepsRows _ _ _).bind fun membership => ?_
  refine Uses.bind (by unfold rememberRoleless; split <;> simp [KeepsRows]) fun _ => ?_
  refine Uses.bind ?_ fun _ => ?_
  · unfold touchIdentity
    split
    · refine Uses.mapError ?_ _
      simp [Store.touchDevice, KeepsRows]
    · trivial
  refine Uses.bind ?_ fun changed => (answer_uses conf _ _ _).mono tell_keepsRows
  unfold recordOwnDevice announceSelf
  refine Uses.bind ?_ fun _ => trivial
  split <;> exact (uses_act _).mpr trivial

theorem conclude_same {task : Nat} {st st' : AppState} {result : Except ApiError Built}
    {identified : Device × MemberCache × List Scope}
    (heval : Eval (execStored conf task)
      (conclude conf req user alreadyEnrolled networks walked now identified) st result st') :
    SameRows req.wgPubkey st.db st'.db := by
  refine (conclude_keepsRows identified).eval
    (fun (s s' : AppState) => SameRows req.wgPubkey s.db s'.db)
    (fun _ => ⟨rfl, fun _ _ => rfl, fun _ => rfl⟩) (fun _ _ _ => SameRows.trans) ?_ heval
  intro o choice answer s s' hkeeps hexec
  by_cases hstore : ∃ q, o = .store q
  · obtain ⟨q, rfl⟩ := hstore
    have hstep := AppState.exec_store hexec
    cases answer with
    | ok answer => exact SameRows.run hkeeps (Database.step_ok hstep).2
    | error error =>
        rw [Database.step_error hstep]
        exact ⟨rfl, fun _ _ => rfl, fun _ => rfl⟩
  · have hother : ∀ q, o ≠ .store q := fun q hq => hstore ⟨q, hq⟩
    rw [(AppState.exec_frame hexec).db hother]
    exact ⟨rfl, fun _ _ => rfl, fun _ => rfl⟩

/-! What a grant says of the device. -/

def Speaks (device : Device) (attestations : List GuildAttestation) : Prop :=
  ∀ att ∈ attestations, att.attestation.payload.attestation.deviceName = device.name ∧
    att.attestation.payload.attestation.isPrimary = device.isPrimary

def anything : Monitor sig Unit where
  allows := fun _ _ => True
  expects := fun _ _ _ => True
  next := fun _ _ _ => ()

theorem conforms_anything {ε α : Type} (program : Prog sig ε α) :
    program.Conforms anything (returns fun _ _ => True) () :=
  (program.uses_all.allowed fun _ _ _ => trivial).mono fun _ result _ => by
    cases result <;> trivial

theorem signWith_speaks (signer : Signer) (id : AttIdentity) (schema : Nat) :
    (signWith signer id schema).Conforms anything
      (returns fun _ blob => blob.payload.attestation.deviceName = id.deviceName ∧
        blob.payload.attestation.isPrimary = id.isPrimary) () := by
  refine (conforms_act_bind ..).mpr ⟨trivial, fun now _ => ?_⟩
  split
  · rename_i blob hsigned
    unfold signAttestation at hsigned
    split at hsigned
    · cases hsigned
      exact ⟨rfl, rfl⟩
    · cases hsigned
  · trivial

theorem buildGrant_speaks (device : Device) (m : Membership) (attSchema : Nat) :
    (buildGrant conf req user device m attSchema).Conforms anything
      (returns fun _ grant => Speaks device (grant.elim [] Grant.attestations)) () := by
  have hgrants (id : AttIdentity) (hname : id.deviceName = device.name)
      (hprimary : id.isPrimary = device.isPrimary) (guilds : List GuildId) :
      (grantAttestations conf id m attSchema guilds).Conforms anything
        (returns fun _ attestations => Speaks device attestations) () := by
    induction guilds with
    | nil => exact fun att hatt => by cases hatt
    | cons guild rest ih =>
        unfold grantAttestations
        refine (conforms_anything _).andThen fun _ key _ => ?_
        refine (signWith_speaks _ _ _).mapError_returns.andThen fun _ blob hblob => ?_
        refine ih.andThen fun _ attestations hrest => fun att hatt => ?_
        rcases List.mem_cons.mp hatt with rfl | hatt
        · exact ⟨hblob.1.trans hname, hblob.2.trans hprimary⟩
        · exact hrest att hatt
  unfold buildGrant
  split
  · exact (hgrants _ rfl rfl _).andThen fun _ attestations hspeaks => hspeaks
  · exact fun att hatt => by cases hatt

theorem answer_speaks (settled : Settled) :
    (answer conf req user alreadyEnrolled settled).Conforms anything
      (returns fun _ built => Speaks settled.device (built.resp.grant.elim [] Grant.attestations))
      () := by
  unfold answer
  refine (buildGrant_speaks _ _ _).andThen fun _ grant hspeaks => ?_
  refine (conforms_anything _).andThen fun _ seeds _ => ?_
  refine (conforms_anything _).andThen fun _ token _ => ?_
  refine (conforms_anything _).andThen fun _ _ _ => ?_
  refine (conforms_anything _).andThen fun _ _ _ => ?_
  refine (conforms_anything _).andThen fun _ version _ => ?_
  refine (conforms_anything _).andThen fun _ anchors _ => ?_
  exact (conforms_anything _).andThen fun _ release _ => hspeaks

theorem conclude_speaks {task : Nat} {st st' : AppState} {built : Built}
    {identified : Device × MemberCache × List Scope}
    (heval : Eval (execStored conf task)
      (conclude conf req user alreadyEnrolled networks walked now identified) st (.ok built) st') :
    Speaks identified.1 (built.resp.grant.elim [] Grant.attestations) := by
  have hconforms : (conclude conf req user alreadyEnrolled networks walked now
      identified).Conforms anything (returns fun _ built =>
        Speaks identified.1 (built.resp.grant.elim [] Grant.attestations)) () := by
    unfold conclude
    refine (conforms_anything _).andThen fun _ membership _ => ?_
    refine (conforms_anything _).andThen fun _ _ _ => ?_
    refine (conforms_anything _).andThen fun _ _ _ => ?_
    refine (conforms_anything _).andThen fun _ changed _ => ?_
    exact answer_speaks ⟨now, identified.1, membership.1, changed⟩
  have hdone := hconforms.eval (fun _ (_ : AppState) => True)
    (fun _ _ _ _ _ _ _ _ _ => ⟨trivial, trivial⟩) trivial heval
  obtain ⟨_, -, hspeaks⟩ := hdone
  exact hspeaks

section

variable {task : Nat} {st st₁ st₂ st' : AppState} {old : PubKey} {token : String}
  {held : Bool × MemberCache} {result : Except ApiError Built}

theorem fits_of_rekeyed {identified : Device × MemberCache × List Scope}
    (htoken : req.supersede = some token)
    (hholder : st.db.run (.deviceByToken token) = .ok (some (user, old), st.db))
    (hnew : st.db.devices.get? req.wgPubkey = none) (hdb : st₁.db = st.db)
    (hrekey : Eval (execStored conf task) (rekey conf req user held) st₁ (.ok identified) st₂)
    (hconclude : Eval (execStored conf task)
      (conclude conf req user alreadyEnrolled networks walked now identified) st₂ result st')
    (hrekeyed : st.db.Rekeyed st'.db user old req.wgPubkey identified.1) :
    RekeyFits conf req user old st.db held.1 := by
  have hold := (holder_owned hholder).ne_fresh hnew
  rw [(conclude_same hconclude).rekeyed hold] at hrekeyed
  rw [← hdb] at hholder hnew hrekeyed ⊢
  by_cases hroleless : (!held.1 && !wantsPersonalScope req) = true
  · have hdevices := rekey_roleless htoken hholder hnew hroleless hrekey
    exact absurd hrekeyed (not_rekeyed_alone (holder_owned hholder) hdevices)
  · rcases rekey_entitled htoken hholder hnew hroleless hrekey with
      ⟨⟨_, herror⟩, -⟩ | ⟨row, device, changed, hok, hroom, hindex, hname, hprimary, hreplaced⟩
    · cases herror
    · cases hok
      refine ⟨?_, hroom, hindex, (hreplaced.rekeyed hname hprimary).mp hrekeyed⟩
      cases hheld : held.1 <;> simp_all

end

end

def rekeyOf (token name : String) : RegisterReq :=
  { personalDevice 3 name with supersede := some token }

def pcOnly : AppState where
  db :=
    { devices :=
        { table := (∅ : Table PubKey DeviceRow).insert 1 ⟨1, 1, "pc", some "pc-token", none, false⟩
          indexNodup := by decide }
      primaryDevice := (∅ : Table UserId PubKey).insert 1 1 }

end UnityLan.Coordinator
