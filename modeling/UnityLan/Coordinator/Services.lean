import Mathlib.Data.List.Dedup
import UnityLan.Coordinator.Footprint
import UnityLan.Foundation.Eval
import UnityLan.Foundation.Places

namespace UnityLan.Coordinator

open UnityLan.Foundation Prog

/-! What a DNS label under an owner's name stands for: device names and the labels of
web services share one namespace. -/

/-- The store's calls that write one of the two tables. -/
inductive LabelCall
  | allocateDevice (pubkey : PubKey) (user : UserId) (deviceName : String)
  | renameDevice (user : UserId) (pubkey : PubKey) (name : String)
  | setDeviceServices (user : UserId) (pubkey : PubKey) (labels : List String)
  | removeDevice (user : UserId) (pubkey : PubKey)
  | reclaimIdlePersonalDevices (idleSecs : Nat)

variable (conf : Conf)

def runLabelCall : LabelCall → Stored Unit
  | .allocateDevice pubkey user deviceName => do
      let _ ← Store.allocateDevice conf pubkey user deviceName
  | .renameDevice user pubkey name => do
      let _ ← Store.renameDevice user pubkey name
  | .setDeviceServices user pubkey labels => do
      let _ ← sql (.replaceServices user pubkey labels)
  | .removeDevice user pubkey => Store.removeDevice user pubkey
  | .reclaimIdlePersonalDevices idleSecs => do
      let _ ← Store.reclaimIdlePersonalDevices idleSecs

def NamesUnique (devices : PubKey → Option DeviceRow) : Prop :=
  ∀ key key' row row', devices key = some row → devices key' = some row' →
    row.userId = row'.userId → row.deviceName = row'.deviceName → key = key'

theorem NamesUnique.set {devices devices' : PubKey → Option DeviceRow} {key : PubKey}
    {row : DeviceRow} (hunique : NamesUnique devices)
    (hset : ∀ other, devices' other = if other = key then some row else devices other)
    (hfree : ∀ other held, other ≠ key → devices other = some held → held.userId = row.userId →
      held.deviceName ≠ row.deviceName) : NamesUnique devices' := by
  intro first second held held' hheld hheld' huser hname
  rw [hset] at hheld hheld'
  by_cases hfirst : first = key
  · by_cases hsecond : second = key
    · rw [hfirst, hsecond]
    · rw [if_pos hfirst] at hheld
      rw [if_neg hsecond] at hheld'
      cases hheld
      exact (hfree second held' hsecond hheld' huser.symm hname.symm).elim
  · rw [if_neg hfirst] at hheld
    by_cases hsecond : second = key
    · rw [if_pos hsecond] at hheld'
      cases hheld'
      exact (hfree first held hfirst hheld huser hname).elim
    · rw [if_neg hsecond] at hheld'
      exact hunique first second held held' hheld hheld' huser hname

namespace Database

def resolve (db : Database) (user : UserId) (label : String) : List PubKey :=
  ((db.devicesOf user).filter fun row => row.2.deviceName == label).map Prod.fst ++
    (db.deviceServices.get? (user, label)).toList

/-- Within an owner a label names one device. -/
structure LabelsSound (db : Database) : Prop where
  apart : ∀ {user label device key row}, db.deviceServices.get? (user, label) = some device →
    db.devices.get? key = some row → row.userId = user → row.deviceName ≠ label
  named : ∀ {key key' row row'}, db.devices.get? key = some row →
    db.devices.get? key' = some row' → row.userId = row'.userId →
      row.deviceName = row'.deviceName → key = key'

theorem mem_devicesOf {db : Database} {user : UserId} {key : PubKey} {row : DeviceRow} :
    (key, row) ∈ db.devicesOf user ↔ db.devices.get? key = some row ∧ row.userId = user := by
  unfold devicesOf
  rw [List.mem_filter]
  exact and_congr Table.mem_rows (by simp)

theorem nodup_devicesOf (db : Database) (user : UserId) :
    ((db.devicesOf user).map Prod.fst).Nodup :=
  db.devices.table.keysNodup.sublist (List.filter_sublist.map _)

theorem devicesOf_length_le {db db' : Database} {user : UserId} {new : List PubKey}
    (hsource : ∀ key row', db'.devices.get? key = some row' → row'.userId = user →
      key ∈ new ∨ ∃ row, db.devices.get? key = some row ∧ row.userId = user) :
    (db'.devicesOf user).length ≤ new.length + (db.devicesOf user).length := by
  have hsubset : (db'.devicesOf user).map Prod.fst ⊆ new ++ (db.devicesOf user).map Prod.fst := by
    intro key hkey
    obtain ⟨⟨_, row'⟩, hrow', rfl⟩ := List.mem_map.mp hkey
    obtain ⟨hget, huser⟩ := mem_devicesOf.mp hrow'
    rcases hsource _ row' hget huser with hnew | ⟨row, hrow, howner⟩
    · exact List.mem_append_left _ hnew
    · exact List.mem_append_right _ (List.mem_map.mpr ⟨_, mem_devicesOf.mpr ⟨hrow, howner⟩, rfl⟩)
  have hlength := (List.subperm_of_subset (nodup_devicesOf db' user) hsubset).length_le
  simpa using hlength

private theorem length_le_one {devices : List PubKey} (hnodup : devices.Nodup)
    (hsame : ∀ first ∈ devices, ∀ second ∈ devices, first = second) : devices.length ≤ 1 := by
  match devices with
  | [] => exact Nat.zero_le 1
  | [_] => exact Nat.le_refl 1
  | first :: second :: rest =>
      have hequal : first = second := hsame first (by simp) second (by simp)
      rw [hequal] at hnodup
      simp at hnodup

theorem LabelsSound.resolve_one {db : Database} (hsound : db.LabelsSound) (user : UserId)
    (label : String) : (db.resolve user label).length ≤ 1 := by
  have hnamed : (((db.devicesOf user).filter
      fun row => row.2.deviceName == label).map Prod.fst).length ≤ 1 := by
    refine length_le_one ((nodup_devicesOf db user).sublist (List.filter_sublist.map _)) ?_
    intro first hfirst second hsecond
    simp only [List.mem_map, List.mem_filter, Prod.exists, mem_devicesOf, beq_iff_eq,
      exists_and_right, exists_eq_right] at hfirst hsecond
    obtain ⟨row, ⟨hrow, huser⟩, hname⟩ := hfirst
    obtain ⟨row', ⟨hrow', huser'⟩, hname'⟩ := hsecond
    exact hsound.named hrow hrow' (huser.trans huser'.symm) (hname.trans hname'.symm)
  unfold resolve
  rw [List.length_append]
  cases hservice : db.deviceServices.get? (user, label) with
  | none => simpa using hnamed
  | some device =>
      have hnone : (db.devicesOf user).filter (fun row => row.2.deviceName == label) = [] := by
        rw [List.filter_eq_nil_iff]
        rintro ⟨key, row⟩ hrow
        obtain ⟨hget, huser⟩ := mem_devicesOf.mp hrow
        simpa using hsound.apart hservice hget huser
      simp [hnone]

/-! Most statements only take names away. -/

structure Shrinks (db db' : Database) : Prop where
  devices : ∀ {key row'}, db'.devices.get? key = some row' →
    ∃ row, db.devices.get? key = some row ∧ row.userId = row'.userId ∧
      row.deviceName = row'.deviceName
  services : ∀ {name device}, db'.deviceServices.get? name = some device →
    db.deviceServices.get? name = some device

theorem Shrinks.refl (db : Database) : Shrinks db db :=
  ⟨fun hrow => ⟨_, hrow, rfl, rfl⟩, id⟩

theorem Shrinks.trans {db db' db'' : Database} (hfirst : Shrinks db db')
    (hsecond : Shrinks db' db'') : Shrinks db db'' := by
  refine ⟨fun hrow => ?_, fun hservice => hfirst.services (hsecond.services hservice)⟩
  obtain ⟨row', hrow', huser', hname'⟩ := hsecond.devices hrow
  obtain ⟨row, hrow, huser, hname⟩ := hfirst.devices hrow'
  exact ⟨row, hrow, huser.trans huser', hname.trans hname'⟩

theorem LabelsSound.shrink {db db' : Database} (hsound : db.LabelsSound)
    (hshrinks : Shrinks db db') : db'.LabelsSound := by
  constructor
  · intro user label device key row hservice hrow huser
    obtain ⟨row', hrow', huser', hname'⟩ := hshrinks.devices hrow
    rw [← hname']
    exact hsound.apart (hshrinks.services hservice) hrow' (huser'.trans huser)
  · intro key key' row row' hrow hrow' huser hname
    obtain ⟨old, hold, holdUser, holdName⟩ := hshrinks.devices hrow
    obtain ⟨old', hold', holdUser', holdName'⟩ := hshrinks.devices hrow'
    refine hsound.named hold hold' ?_ ?_
    · rw [holdUser, holdUser', huser]
    · rw [holdName, holdName', hname]

def names : Query → Bool
  | .insertDevice .. => true
  | .setDeviceName .. => true
  | .replaceServices .. => true
  | _ => false

variable {db db' : Database} {q : Query} {answer : q.Res}

theorem Shrinks.adjust {key : PubKey} {write : DeviceRow → DeviceRow}
    {hidx : ∀ row, (write row).idx = row.idx}
    (hwrite : ∀ row, (write row).userId = row.userId ∧ (write row).deviceName = row.deviceName) :
    Shrinks db { db with devices := db.devices.adjust key write hidx } := by
  refine ⟨fun {other row'} hrow => ?_, id⟩
  simp only [UniqueTable.get?_adjust] at hrow
  split at hrow
  · obtain ⟨row, hget, rfl⟩ := Option.map_eq_some_iff.mp hrow
    rename_i hkey
    exact ⟨row, hkey ▸ hget, (hwrite row).1.symm, (hwrite row).2.symm⟩
  · exact ⟨row', hrow, rfl, rfl⟩

theorem run_shrinks (hquiet : names q = false) (hrun : db.run q = .ok (answer, db')) :
    Shrinks db db' := by
  by_cases hdevices : writes q = some .devices
  · cases q <;> try (cases hdevices; done)
    case insertDevice => cases hquiet
    case setDeviceName => cases hquiet
    case deleteDevice key user =>
      cases hrun
      refine ⟨fun {other row'} hrow => ?_, id⟩
      simp only [UniqueTable.get?_retain, Option.filter_eq_some_iff] at hrow
      exact ⟨row', hrow.1, rfl, rfl⟩
    all_goals
      cases hrun
      exact Shrinks.adjust fun row => ⟨rfl, rfl⟩
  · have hsame : db'.devices = db.devices := (run_frame hrun).devices hdevices
    constructor
    · intro key row' hrow
      rw [hsame] at hrow
      exact ⟨row', hrow, rfl, rfl⟩
    · intro name device hservice
      by_cases hservices : writes q = some .deviceServices
      · cases q <;> try (cases hservices; done)
        case replaceServices => cases hquiet
        case deleteServices key =>
          cases hrun
          simp only [Table.get?_retain, Option.filter_eq_some_iff] at hservice
          exact hservice.1
      · rw [(run_frame hrun).deviceServices hservices] at hservice
        exact hservice

/-! The statements that give a name. -/

theorem LabelsSound.insert {key : PubKey} {row : DeviceRow} (hsound : db.LabelsSound)
    (hrun : db.run (.insertDevice key row) = .ok ((), db'))
    (hservice : db.deviceServices.get? (row.userId, row.deviceName) = none)
    (hfree : ∀ other held, db.devices.get? other = some held → held.userId = row.userId →
      held.deviceName ≠ row.deviceName) : db'.LabelsSound := by
  obtain ⟨-, hget⟩ := run_insertDevice hrun
  have hservices : db'.deviceServices = db.deviceServices :=
    (run_frame hrun).deviceServices nofun
  constructor
  · intro user label device other held hserves hheld huser
    rw [hservices] at hserves
    rw [hget] at hheld
    split at hheld
    · cases hheld
      intro hname
      rw [huser, hname, hserves] at hservice
      cases hservice
    · exact hsound.apart hserves hheld huser
  · intro first second held held' hheld hheld'
    exact NamesUnique.set (fun _ _ _ _ => hsound.named) hget
      (fun other kept _ hkept huser => hfree other kept hkept huser) _ _ _ _ hheld hheld'

theorem LabelsSound.rename {key : PubKey} {name : String} (hsound : db.LabelsSound)
    (hrun : db.run (.setDeviceName key name) = .ok ((), db'))
    (hfree : ∀ row, db.devices.get? key = some row →
      db.deviceServices.get? (row.userId, name) = none ∧
        ∀ other held, other ≠ key → db.devices.get? other = some held →
          held.userId = row.userId → held.deviceName ≠ name) : db'.LabelsSound := by
  simp only [run] at hrun
  cases hrun
  constructor
  · intro user label device other held hserves hheld huser
    by_cases hother : other = key
    · subst hother
      cases hrow : db.devices.get? other with
      | none => simp [hrow] at hheld
      | some row =>
          simp only [UniqueTable.get?_adjust, if_true, hrow, Option.map_some,
            Option.some.injEq] at hheld
          subst hheld
          intro hname
          have hnone := (hfree row hrow).1
          have hserves' : db.deviceServices.get? (user, label) = some device := hserves
          rw [← huser, ← hname] at hserves'
          exact Option.some_ne_none _ (hserves'.symm.trans hnone)
    · simp only [UniqueTable.get?_adjust, if_neg hother] at hheld
      exact hsound.apart hserves hheld huser
  · intro first second held held' hheld hheld'
    simp only [UniqueTable.get?_adjust] at hheld hheld'
    cases hrow : db.devices.get? key with
    | none =>
        have hkept {other : PubKey} {kept : DeviceRow}
            (hkept : (if other = key then
              (db.devices.get? key).map fun row => { row with deviceName := name }
              else db.devices.get? other) = some kept) : db.devices.get? other = some kept := by
          rw [hrow] at hkept
          split at hkept
          · cases hkept
          · exact hkept
        exact hsound.named (hkept hheld) (hkept hheld')
    | some row =>
        rw [hrow, Option.map_some] at hheld hheld'
        have hunique : NamesUnique fun other =>
            if other = key then some { row with deviceName := name }
            else db.devices.get? other :=
          NamesUnique.set (fun _ _ _ _ => hsound.named) (fun _ => rfl) (hfree row hrow).2
        exact hunique _ _ _ _ hheld hheld'

theorem sortService_apart {deviceNames heldElsewhere : List String}
    {sorted : List String × List RefusedService} (label : String)
    (hapart : ∀ kept ∈ sorted.1, kept ∉ deviceNames) :
    ∀ kept ∈ (sortService deviceNames heldElsewhere sorted label).1, kept ∉ deviceNames := by
  unfold sortService
  intro kept hkept
  split at hkept
  · exact hapart kept hkept
  · split at hkept
    · exact hapart kept hkept
    · rename_i hfree
      split at hkept
      · exact hapart kept hkept
      · split at hkept
        · exact hapart kept hkept
        · rcases List.mem_append.mp hkept with hearlier | hnew
          · exact hapart kept hearlier
          · rw [List.mem_singleton.mp hnew]
            exact hfree

theorem sortServices_apart {deviceNames heldElsewhere labels : List String} :
    ∀ label ∈ (sortServices deviceNames heldElsewhere labels).1, label ∉ deviceNames := by
  unfold sortServices
  refine List.foldlRecOn
    (motive := fun (sorted : List String × List RefusedService) =>
      ∀ label ∈ sorted.1, label ∉ deviceNames)
    labels _ ?_ ?_
  · intro label hlabel
    cases hlabel
  · intro sorted hsorted label _
    exact sortService_apart label hsorted

theorem get?_foldl_insert {services : Table (UserId × String) PubKey} {user owner : UserId}
    {pubkey : PubKey} {labels : List String} {label : String} :
    (labels.foldl (fun services label => services.insert (user, label) pubkey) services).get?
      (owner, label) =
        if owner = user ∧ label ∈ labels then some pubkey else services.get? (owner, label) := by
  induction labels generalizing services with
  | nil => simp
  | cons head tail ih =>
      rw [List.foldl_cons, ih, Table.get?_insert]
      by_cases howner : owner = user <;> by_cases hhead : label = head <;>
        by_cases htail : label ∈ tail <;> simp [howner, hhead, htail]

theorem LabelsSound.replaceServices {user : UserId} {pubkey : PubKey} {labels : List String}
    {answer : List String × List RefusedService} (hsound : db.LabelsSound)
    (hrun : db.run (.replaceServices user pubkey labels) = .ok (answer, db')) :
    db'.LabelsSound := by
  simp only [run] at hrun
  cases hrun
  refine ⟨?_, hsound.named⟩
  intro owner label device key row hserves hrow huser
  rw [get?_foldl_insert] at hserves
  split at hserves
  · rename_i hwritten
    obtain ⟨howner, hregistered⟩ := hwritten
    have hapart := sortServices_apart label hregistered
    intro hname
    refine hapart (List.mem_map.mpr ⟨(key, row), ?_, hname⟩)
    exact mem_devicesOf.mpr ⟨hrow, huser.trans howner⟩
  · rw [Table.get?_retain, Option.filter_eq_some_iff] at hserves
    exact hsound.apart hserves.1 hrow huser

end Database

/-! The calls, statement by statement. -/

section Calls

variable {conf} {st st' st'' : AppState} {α : Type}

theorem eval_sql_bind {q : Query} {f : q.Res → Stored α} {result : Except StoreError α}
    (heval : Eval (AppState.exec conf 0) (sql q >>= f) st result st'') :
    (∃ answer st', st.db.run q = .ok (answer, st'.db) ∧
      Eval (AppState.exec conf 0) (f answer) st' result st'') ∨ st''.db = st.db := by
  rcases eval_bind heval with ⟨answer, st', hfirst, hrest⟩ | ⟨error, hfirst, -⟩
  · left
    refine ⟨answer, st', ?_, hrest⟩
    cases hfirst with
    | @op _ _ _ found _ _ _ _ hexecuted hanswer =>
        cases found with
        | error error => cases hanswer
        | ok found =>
            cases hanswer
            exact (Database.step_ok (AppState.exec_store hexecuted)).2
  · right
    cases hfirst with
    | @op _ _ _ found _ _ _ _ hexecuted hanswer =>
        cases found with
        | ok found => cases hanswer
        | error error =>
            cases hanswer
            exact Database.step_error (AppState.exec_store hexecuted)

def freeName (taken : List String) (desired : String) : Option String :=
  if desired ∉ taken then some desired
  else
    ((List.range' 2 (taken.length + 1)).find? fun n => suffixedLabel desired n ∉ taken).map
      (suffixedLabel desired)

theorem freeName_free {taken : List String} {desired name : String}
    (hname : freeName taken desired = some name) : name ∉ taken := by
  unfold freeName at hname
  split at hname
  · rename_i hfree
    cases hname
    exact hfree
  · obtain ⟨n, hfound, rfl⟩ := Option.map_eq_some_iff.mp hname
    simpa using List.find?_some hfound

theorem uniqueDeviceName_eq (user : UserId) (desired : String) (exclude : Option PubKey) :
    Store.uniqueDeviceName user desired exclude =
      sql (.userDevices user) >>= fun devices =>
        match freeName (Store.otherNames devices exclude) desired with
        | some name => .ret name
        | none => .fail (.message "a free suffix always exists within taken.len()+1 candidates") := by
  unfold Store.uniqueDeviceName freeName
  congr 1
  funext devices
  by_cases hfree : desired ∉ Store.otherNames devices exclude
  · simp [hfree]
  · simp only [if_neg hfree]
    cases (List.range' 2 ((Store.otherNames devices exclude).length + 1)).find? fun n =>
        suffixedLabel desired n ∉ Store.otherNames devices exclude with
    | none => rfl
    | some n => rfl

def namesOf (db : Database) (user : UserId) (exclude : Option PubKey) : List String :=
  Store.otherNames ((db.devicesOf user).map fun row => (row.1, row.2.deviceName)) exclude

theorem not_mem_namesOf {db : Database} {user : UserId} {exclude : Option PubKey} {name : String}
    (hfree : name ∉ namesOf db user exclude) {key : PubKey} {row : DeviceRow}
    (hkey : some key ≠ exclude) (hrow : db.devices.get? key = some row)
    (huser : row.userId = user) : row.deviceName ≠ name := by
  intro hname
  apply hfree
  unfold namesOf Store.otherNames
  rw [List.mem_dedup, List.mem_map]
  refine ⟨(key, name), List.mem_filter.mpr ⟨?_, by simpa using hkey⟩, rfl⟩
  exact List.mem_map.mpr ⟨(key, row), Database.mem_devicesOf.mpr ⟨hrow, huser⟩, by rw [hname]⟩

theorem uniqueDeviceName_eval {user : UserId} {desired : String} {exclude : Option PubKey}
    {f : String → Stored α} {result : Except StoreError α}
    (heval : Eval (AppState.exec conf 0) (Store.uniqueDeviceName user desired exclude >>= f)
      st result st'') :
    (∃ name st', freeName (namesOf st.db user exclude) desired = some name ∧ st'.db = st.db ∧
      Eval (AppState.exec conf 0) (f name) st' result st'') ∨ st''.db = st.db := by
  rw [uniqueDeviceName_eq, bind_assoc] at heval
  rcases eval_sql_bind heval with ⟨devices, st', hrun, hrest⟩ | hfailed
  · simp only [Database.run, Except.ok.injEq, Prod.mk.injEq] at hrun
    obtain ⟨hdevices, hdb⟩ := hrun
    have hnames : Store.otherNames devices exclude = namesOf st.db user exclude := by
      rw [← hdevices]
      rfl
    rw [hnames] at hrest
    cases hfree : freeName (namesOf st.db user exclude) desired with
    | none =>
        rw [hfree] at hrest
        cases hrest
        exact .inr hdb.symm
    | some name =>
        rw [hfree] at hrest
        exact .inl ⟨name, st', rfl, hdb.symm, hrest⟩
  · exact .inr hfailed

theorem allocateDevice_eval {pubkey : PubKey} {user : UserId} {desired : String}
    {result : Except StoreError (Ipv4Addr × String)}
    (heval : Eval (AppState.exec conf 0) (Store.allocateDevice conf pubkey user desired)
      st result st'') :
    st''.db = st.db ∨ ∃ name row, st.db.devices.get? pubkey = none ∧
      (st.db.devicesOf user).length < MAX_DEVICES_PER_USER ∧
      freeName (namesOf st.db user none) desired = some name ∧ row.deviceName = name ∧
      row.userId = user ∧ st.db.run (.insertDevice pubkey row) = .ok ((), st''.db) := by
  unfold Store.allocateDevice at heval
  rcases eval_sql_bind heval with ⟨row, st₁, hrun, heval⟩ | hfailed
  · simp only [Database.run, Except.ok.injEq, Prod.mk.injEq] at hrun
    obtain ⟨rfl, hdb₁⟩ := hrun
    cases hrow : st.db.devices.get? pubkey with
    | some row =>
        left
        rw [hrow] at heval
        dsimp only at heval
        split at heval <;> cases heval <;> exact hdb₁.symm
    | none =>
        rw [hrow] at heval
        dsimp only at heval
        rcases eval_sql_bind heval with ⟨owned, st₂, hrun, heval⟩ | hfailed
        · simp only [Database.run, Except.ok.injEq, Prod.mk.injEq] at hrun
          obtain ⟨rfl, hdb₂⟩ := hrun
          split at heval
          · cases heval
            exact .inl (hdb₂.symm.trans hdb₁.symm)
          · rename_i hroom
            rw [← hdb₁] at hroom
            rcases eval_sql_bind heval with ⟨taken, st₃, hrun, heval⟩ | hfailed
            · simp only [Database.run, Except.ok.injEq, Prod.mk.injEq] at hrun
              obtain ⟨-, hdb₃⟩ := hrun
              have hdb : st₃.db = st.db := hdb₃.symm.trans (hdb₂.symm.trans hdb₁.symm)
              split at heval
              · cases heval
                exact .inl hdb
              · rcases uniqueDeviceName_eval heval with ⟨name, st₄, hname, hdb₄, heval⟩ | hfailed
                · rw [hdb] at hname hdb₄
                  cases heval with
                  | @op _ _ _ token _ st₅ _ _ hexecuted heval =>
                      have hdb₅ : st₅.db = st.db := by
                        rw [(AppState.exec_frame hexecuted).db (by simp), hdb₄]
                      rcases eval_sql_bind heval with ⟨done, st₆, hrun, heval⟩ | hfailed
                      · cases heval
                        rw [hdb₅] at hrun
                        exact .inr ⟨name, _, rfl, Nat.lt_of_not_le hroom, hname, rfl, rfl, hrun⟩
                      · exact .inl (hfailed.trans hdb₅)
                · exact .inl (hfailed.trans hdb)
            · exact .inl (hfailed.trans (hdb₂.symm.trans hdb₁.symm))
        · exact .inl (hfailed.trans hdb₁.symm)
  · exact .inl hfailed

theorem renameDevice_eval {pubkey : PubKey} {user : UserId} {desired : String}
    {result : Except StoreError String}
    (heval : Eval (AppState.exec conf 0) (Store.renameDevice user pubkey desired) st result st'') :
    st''.db = st.db ∨ ∃ name, freeName (namesOf st.db user (some pubkey)) desired = some name ∧
      st.db.run (.setDeviceName pubkey name) = .ok ((), st''.db) := by
  unfold Store.renameDevice at heval
  rcases uniqueDeviceName_eval heval with ⟨name, st₁, hname, hdb₁, heval⟩ | hfailed
  · rcases eval_sql_bind heval with ⟨done, st₂, hrun, heval⟩ | hfailed
    · cases heval
      rw [hdb₁] at hrun
      exact .inr ⟨name, hname, hrun⟩
    · exact .inl (hfailed.trans hdb₁)
  · exact .inl hfailed

def NamesNothing (o : Op) : Prop :=
  ∀ q, o = .store q → Database.names q = false

theorem shrinks_of_namesNothing {program : Stored α} {result : Except StoreError α}
    (hprogram : program.Uses NamesNothing)
    (heval : Eval (AppState.exec conf 0) program st result st'') :
    Database.Shrinks st.db st''.db := by
  refine hprogram.eval (fun st st' => Database.Shrinks st.db st'.db)
    (fun st => .refl st.db) (fun _ _ _ => .trans) ?_ heval
  intro o choice answer s s' hnothing hexecuted
  by_cases hstore : ∃ q, o = .store q
  · obtain ⟨q, rfl⟩ := hstore
    have hstep := AppState.exec_store hexecuted
    cases answer with
    | error error =>
        rw [Database.step_error hstep]
        exact .refl _
    | ok answer => exact Database.run_shrinks (hnothing q rfl) (Database.step_ok hstep).2
  · rw [(AppState.exec_frame hexecuted).db fun q hq => hstore ⟨q, hq⟩]
    exact .refl _

theorem removeDevice_namesNothing (user : UserId) (pubkey : PubKey) :
    (Store.removeDevice user pubkey).Uses NamesNothing := by
  refine (removeDevice_uses user pubkey).mono (StoreOp.mono fun q hremoval q' hq => ?_)
  cases hq
  cases q <;> first | rfl | exact hremoval.elim

theorem reclaim_namesNothing (idleSecs : Nat) :
    (Store.reclaimIdlePersonalDevices idleSecs).Uses NamesNothing := by
  simp only [Store.reclaimIdlePersonalDevices, uses_act_bind, uses_sql_bind]
  refine ⟨fun q hq => ?_, fun now => ⟨fun q hq => ?_, fun rows => ?_⟩⟩
  · cases hq
  · cases hq
    rfl
  · refine Uses.foldlM rows (fun freed row => ?_) 0
    exact (removeDevice_namesNothing _ _).bind fun _ => uses_ret _ _

end Calls

/-! Sequences of calls. -/

/-- A device is renamed by its owner. -/
def owned (db : Database) : LabelCall → Bool
  | .renameDevice user pubkey _ => (db.devices.get? pubkey).all fun row => row.userId == user
  | _ => true

/-- The name that a device is about to be given is not the label of a service of its owner. -/
def namesFree (db : Database) : LabelCall → Bool
  | .allocateDevice pubkey user desired =>
      (db.devices.get? pubkey).isSome ||
        (freeName (namesOf db user none) desired).all fun name =>
          !db.deviceServices.contains (user, name)
  | .renameDevice user pubkey desired =>
      (db.devices.get? pubkey).isNone ||
        (freeName (namesOf db user (some pubkey)) desired).all fun name =>
          !db.deviceServices.contains (user, name)
  | _ => true

/-- Calls one after the other, each admitted by a test of the store it finds. -/
inductive LabelRun (admits : Database → LabelCall → Bool) (start : AppState) : AppState → Prop
  | start : LabelRun admits start start
  | call {st st' : AppState} {call : LabelCall} {result : Except StoreError Unit}
      (run : LabelRun admits start st) (admitted : admits st.db call = true)
      (evaluated : Eval (AppState.exec conf 0) (runLabelCall conf call) st result st') :
      LabelRun admits start st'
  | move {st st' : AppState} {world : World} (run : LabelRun admits start st)
      (moved : AppState.move world st = some st') : LabelRun admits start st'

variable {conf}

theorem eval_discard {program : Stored α} {st st'' : AppState} {result : Except StoreError Unit}
    (heval : Eval (AppState.exec conf 0) (program >>= fun _ => .ret ()) st result st'') :
    ∃ result', Eval (AppState.exec conf 0) program st result' st'' := by
  rcases eval_bind heval with ⟨value, st', hfirst, hrest⟩ | ⟨error, hfirst, -⟩
  · cases hrest
    exact ⟨_, hfirst⟩
  · exact ⟨_, hfirst⟩

private theorem unserved {db : Database} {user : UserId} {name : String}
    (hcontains : (!db.deviceServices.contains (user, name)) = true) :
    db.deviceServices.get? (user, name) = none := by
  simpa [Table.contains] using hcontains

theorem label_call_sound {st st' : AppState} {call : LabelCall} {result : Except StoreError Unit}
    (hsound : st.db.LabelsSound) (howned : owned st.db call = true)
    (hfree : namesFree st.db call = true)
    (heval : Eval (AppState.exec conf 0) (runLabelCall conf call) st result st') :
    st'.db.LabelsSound := by
  cases call with
  | allocateDevice pubkey user desired =>
      obtain ⟨result', hallocate⟩ := eval_discard heval
      rcases allocateDevice_eval hallocate with
        hsame | ⟨name, row, hnew, -, hname, rfl, rfl, hrun⟩
      · rw [hsame]
        exact hsound
      · have hservice : st.db.deviceServices.get? (row.userId, row.deviceName) = none := by
          simp only [namesFree, hnew, hname, Option.isSome_none, Bool.false_or,
            Option.all_some] at hfree
          exact unserved hfree
        refine hsound.insert hrun hservice fun other held hheld huser => ?_
        exact not_mem_namesOf (freeName_free hname) (by simp) hheld huser
  | renameDevice user pubkey desired =>
      obtain ⟨result', hrename⟩ := eval_discard heval
      rcases renameDevice_eval hrename with hsame | ⟨name, hname, hrun⟩
      · rw [hsame]
        exact hsound
      · refine hsound.rename hrun fun row hrow => ?_
        have huser : row.userId = user := by simpa [owned, hrow] using howned
        simp only [namesFree, hrow, hname, Option.isNone_some, Bool.false_or,
          Option.all_some] at hfree
        rw [huser]
        refine ⟨unserved hfree, fun other held hother hheld hsame => ?_⟩
        exact not_mem_namesOf (freeName_free hname) (by simpa using hother) hheld hsame
  | setDeviceServices user pubkey labels =>
      rcases eval_sql_bind heval with ⟨sorted, st₁, hrun, heval⟩ | hfailed
      · cases heval
        exact hsound.replaceServices hrun
      · rw [hfailed]
        exact hsound
  | removeDevice user pubkey =>
      exact hsound.shrink (shrinks_of_namesNothing (removeDevice_namesNothing user pubkey) heval)
  | reclaimIdlePersonalDevices idleSecs =>
      obtain ⟨result', hreclaim⟩ := eval_discard heval
      exact hsound.shrink (shrinks_of_namesNothing (reclaim_namesNothing idleSecs) hreclaim)

variable (conf)

/-- After every sequence of calls in which no device is given the name of a service of
its owner, a label names one device. -/
theorem labels_name_one_device {start st : AppState} (hstart : start.db.LabelsSound)
    (hrun : LabelRun conf (fun db call => owned db call && namesFree db call) start st) :
    st.db.LabelsSound ∧ ∀ user label, (st.db.resolve user label).length ≤ 1 := by
  have hsound : st.db.LabelsSound := by
    induction hrun with
    | start => exact hstart
    | call _ admitted evaluated ih =>
        rw [Bool.and_eq_true] at admitted
        exact label_call_sound ih admitted.1 admitted.2 evaluated
    | move _ moved ih =>
        rw [(AppState.move_untouched moved).db]
        exact ih
  exact ⟨hsound, hsound.resolve_one⟩

def playLabels (admits : Database → LabelCall → Bool) :
    List (LabelCall × List Choice) → AppState → Option AppState
  | [], st => some st
  | (call, choices) :: rest, st =>
      if admits st.db call then
        match (runLabelCall conf call).play (AppState.exec conf 0) choices st with
        | none => none
        | some (_, st') => playLabels admits rest st'
      else none

theorem run_of_playLabels {admits : Database → LabelCall → Bool} {start st st' : AppState}
    {calls : List (LabelCall × List Choice)} (hrun : LabelRun conf admits start st)
    (hplay : playLabels conf admits calls st = some st') : LabelRun conf admits start st' := by
  induction calls generalizing st with
  | nil =>
      cases hplay
      exact hrun
  | cons call rest ih =>
      unfold playLabels at hplay
      split at hplay
      · rename_i hadmitted
        split at hplay
        · cases hplay
        · rename_i hplayed
          exact ih (hrun.call hadmitted (eval_of_play hplayed)) hplay
      · cases hplay

def serveThenAllocate (second : String) : List (LabelCall × List Choice) :=
  [(.allocateDevice 1 1 "pc", List.replicate 6 (.text "token")),
    (.setDeviceServices 1 1 ["web"], [.go]),
    (.allocateDevice 2 1 second, List.replicate 6 (.text "token"))]

/-- A new device is given the name of a service. -/
theorem label_names_two_devices :
    ¬ ∀ st, LabelRun Conf.small owned {} st →
      st.db.LabelsSound ∧ ∀ user label, (st.db.resolve user label).length ≤ 1 := by
  intro hclaim
  have hplay : ((playLabels Conf.small owned (serveThenAllocate "web") {}).any
      fun st => (st.db.resolve 1 "web").length == 2) = true := by
    decide
  obtain ⟨st, hst, htwo⟩ := (Option.any_eq_true _ _).mp hplay
  have hone := (hclaim st (run_of_playLabels Conf.small .start hst)).2 1 "web"
  rw [beq_iff_eq] at htwo
  omega

theorem labels_name_one_device_served :
    ∃ st, LabelRun Conf.small (fun db call => owned db call && namesFree db call) {} st ∧
      st.db.resolve 1 "web" = [1] ∧
      st.db.LabelsSound ∧ ∀ user label, (st.db.resolve user label).length ≤ 1 := by
  have hplay : ((playLabels Conf.small (fun db call => owned db call && namesFree db call)
      (serveThenAllocate "phone") {}).any fun st => st.db.resolve 1 "web" == [1]) = true := by
    decide
  obtain ⟨st, hst, hone⟩ := (Option.any_eq_true _ _).mp hplay
  have hrun := run_of_playLabels Conf.small .start hst
  have hempty : (({} : AppState).db).LabelsSound := by
    constructor
    · intro user label device key row hserves
      cases hserves
    · intro key key' row row' hrow
      cases hrow
  exact ⟨st, hrun, beq_iff_eq.mp hone, labels_name_one_device Conf.small hempty hrun⟩

/-! What replacing the labels of a device comes to. -/

section Replacing

variable {deviceNames heldElsewhere : List String} {sorted : List String × List RefusedService}

def fits (deviceNames heldElsewhere : List String) (label : String) : Bool :=
  validLabel label && !deviceNames.contains label && !heldElsewhere.contains label

theorem sortService_room {label : String} (hfits : fits deviceNames heldElsewhere label = true)
    (hroom : sorted.1.length < MAX_WEB_SERVICES_PER_DEVICE) :
    sortService deviceNames heldElsewhere sorted label = (sorted.1 ++ [label], sorted.2) := by
  simp only [fits, Bool.and_eq_true, Bool.not_eq_true', List.contains_eq_mem,
    decide_eq_false_iff_not] at hfits
  obtain ⟨⟨hvalid, hnamed⟩, hheld⟩ := hfits
  unfold sortService
  simp only [hvalid, Bool.not_true, Bool.false_eq_true, if_false, if_neg hnamed, if_neg hheld,
    if_neg (Nat.not_le.mpr hroom)]

theorem sortService_refuse {label : String}
    (hrefuse : fits deviceNames heldElsewhere label = false ∨
      MAX_WEB_SERVICES_PER_DEVICE ≤ sorted.1.length) :
    ∃ reason, sortService deviceNames heldElsewhere sorted label =
      (sorted.1, sorted.2 ++ [⟨label, reason⟩]) := by
  unfold sortService
  split
  · exact ⟨_, rfl⟩
  · rename_i hvalid
    split
    · exact ⟨_, rfl⟩
    · rename_i hnamed
      split
      · exact ⟨_, rfl⟩
      · rename_i hheld
        split
        · exact ⟨_, rfl⟩
        · rename_i hroom
          have hfits : fits deviceNames heldElsewhere label = true := by
            simpa [fits, hnamed, hheld] using hvalid
          rcases hrefuse with hunfit | hfull
          · rw [hfits] at hunfit
            cases hunfit
          · exact (hroom hfull).elim

structure Sorts (fits : String → Bool) (labels : List String)
    (sorted : List String × List RefusedService) : Prop where
  registered : sorted.1 = (labels.filter fits).take MAX_WEB_SERVICES_PER_DEVICE
  parts : (sorted.1 ++ sorted.2.map RefusedService.name).Perm labels
  refused : ∀ refused, refused ∈ sorted.2.map RefusedService.name ↔
    ∃ before label after, labels = before ++ label :: after ∧ label = refused ∧
      (fits label = false ∨ MAX_WEB_SERVICES_PER_DEVICE ≤ (before.filter fits).length)

theorem Sorts.service {labels : List String}
    (hsorts : Sorts (fits deviceNames heldElsewhere) labels sorted) (label : String) :
    Sorts (fits deviceNames heldElsewhere) (labels ++ [label])
      (sortService deviceNames heldElsewhere sorted label) := by
  have hlength : sorted.1.length = min MAX_WEB_SERVICES_PER_DEVICE
      (labels.filter (fits deviceNames heldElsewhere)).length := by
    rw [hsorts.registered, List.length_take]
  by_cases hroom : fits deviceNames heldElsewhere label = true ∧
      sorted.1.length < MAX_WEB_SERVICES_PER_DEVICE
  · obtain ⟨hfits, hroom⟩ := hroom
    rw [sortService_room hfits hroom]
    constructor
    · have hshort : (labels.filter (fits deviceNames heldElsewhere)).length <
          MAX_WEB_SERVICES_PER_DEVICE := by
        omega
      dsimp only
      rw [hsorts.registered, List.take_of_length_le (by omega), List.filter_append,
        List.filter_cons_of_pos hfits, List.filter_nil, List.take_of_length_le]
      rw [List.length_append, List.length_singleton]
      omega
    · dsimp only
      rw [List.append_assoc]
      refine (List.Perm.append_left sorted.1 List.perm_append_comm).trans ?_
      rw [← List.append_assoc]
      exact hsorts.parts.append_right [label]
    · intro other
      dsimp only
      rw [hsorts.refused, exists_place_concat]
      constructor
      · exact .inl
      · rintro (hearlier | ⟨rfl, hunfit | hfull⟩)
        · exact hearlier
        · rw [hfits] at hunfit
          cases hunfit
        · omega
  · have hrefuse : fits deviceNames heldElsewhere label = false ∨
        MAX_WEB_SERVICES_PER_DEVICE ≤ sorted.1.length := by
      rw [not_and_or, Bool.not_eq_true, Nat.not_lt] at hroom
      exact hroom
    obtain ⟨reason, hsorted⟩ := sortService_refuse hrefuse
    rw [hsorted]
    constructor
    · dsimp only
      rw [hsorts.registered, List.filter_append]
      rcases hrefuse with hunfit | hfull
      · rw [List.filter_cons_of_neg (by rw [hunfit]; decide), List.filter_nil, List.append_nil]
      · rw [List.take_append_of_le_length (by omega)]
    · dsimp only
      rw [List.map_append, ← List.append_assoc]
      exact hsorts.parts.append_right [label]
    · intro other
      dsimp only
      rw [List.map_append, List.mem_append, hsorts.refused, exists_place_concat,
        List.map_singleton, List.mem_singleton]
      have hfull : MAX_WEB_SERVICES_PER_DEVICE ≤ sorted.1.length ↔ MAX_WEB_SERVICES_PER_DEVICE ≤
          (labels.filter (fits deviceNames heldElsewhere)).length := by
        omega
      rw [hfull] at hrefuse
      constructor
      · rintro (hearlier | rfl)
        · exact .inl hearlier
        · exact .inr ⟨rfl, hrefuse⟩
      · rintro (hearlier | ⟨rfl, -⟩)
        · exact .inl hearlier
        · exact .inr rfl

theorem sortServices_sorts (deviceNames heldElsewhere labels : List String) :
    Sorts (fits deviceNames heldElsewhere) labels
      (sortServices deviceNames heldElsewhere labels) := by
  unfold sortServices
  induction labels using List.reverseRecOn with
  | nil => exact ⟨rfl, .refl _, fun label => by simp⟩
  | append_singleton earlier label ih =>
      rw [List.foldl_append, List.foldl_cons, List.foldl_nil]
      exact ih.service label

end Replacing

namespace Database

/-- What a label may be registered for: a well-formed one that no device of the owner has for its
name, and that no other device of the owner serves. -/
structure Usable (db : Database) (user : UserId) (pubkey : PubKey) (label : String) : Prop where
  valid : validLabel label = true
  unnamed : ∀ key row, db.devices.get? key = some row → row.userId = user → row.deviceName ≠ label
  unheld : ∀ device, db.deviceServices.get? (user, label) = some device → device = pubkey

variable {db : Database}

/-- What one device of an owner serves. -/
def servedBy (db : Database) (user : UserId) (pubkey : PubKey) : List String :=
  (db.deviceServices.rows.filter fun row => row.1.1 == user && row.2 == pubkey).map
    fun row => row.1.2

theorem mem_servedBy {user : UserId} {pubkey : PubKey} {label : String} :
    label ∈ db.servedBy user pubkey ↔ db.deviceServices.get? (user, label) = some pubkey := by
  unfold servedBy
  rw [List.mem_map]
  constructor
  · rintro ⟨⟨⟨owner, name⟩, device⟩, hrow, rfl⟩
    obtain ⟨hheld, hof⟩ := List.mem_filter.mp hrow
    rw [Bool.and_eq_true, beq_iff_eq, beq_iff_eq] at hof
    have howner : owner = user := hof.1
    have hdevice : device = pubkey := hof.2
    subst howner hdevice
    exact Table.mem_rows.mp hheld
  · intro hserves
    exact ⟨((user, label), pubkey), List.mem_filter.mpr ⟨Table.mem_rows.mpr hserves, by simp⟩, rfl⟩

theorem nodup_servedBy (user : UserId) (pubkey : PubKey) :
    (db.servedBy user pubkey).Nodup := by
  have hkeys : (db.deviceServices.rows.map Prod.fst).Nodup := db.deviceServices.keysNodup
  have hfiltered := hkeys.sublist ((List.filter_sublist
    (p := fun row : (UserId × String) × PubKey => row.1.1 == user && row.2 == pubkey)).map _)
  unfold servedBy
  rw [List.Nodup, List.pairwise_map] at *
  refine hfiltered.imp_of_mem ?_
  intro first second hfirst hsecond hdiffer hname
  have howner := (List.mem_filter.mp hfirst).2
  have howner' := (List.mem_filter.mp hsecond).2
  rw [Bool.and_eq_true, beq_iff_eq, beq_iff_eq] at howner howner'
  exact hdiffer (Prod.ext (howner.1.trans howner'.1.symm) hname)

theorem fits_iff {user : UserId} {pubkey : PubKey} {label : String} :
    fits ((db.devicesOf user).map fun row => row.2.deviceName)
        ((db.deviceServices.rows.filter fun row =>
          row.1.1 == user && row.2 != pubkey).map fun row => row.1.2) label = true ↔
      db.Usable user pubkey label := by
  unfold fits
  rw [Bool.and_eq_true, Bool.and_eq_true, Bool.not_eq_true', Bool.not_eq_true',
    List.contains_eq_mem, List.contains_eq_mem, decide_eq_false_iff_not, decide_eq_false_iff_not]
  constructor
  · rintro ⟨⟨hvalid, hnamed⟩, hheld⟩
    refine ⟨hvalid, fun key row hrow huser hname => ?_, fun device hserves => ?_⟩
    · exact hnamed (List.mem_map.mpr ⟨(key, row), mem_devicesOf.mpr ⟨hrow, huser⟩, hname⟩)
    · by_contra hother
      apply hheld
      exact List.mem_map.mpr ⟨((user, label), device),
        List.mem_filter.mpr ⟨Table.mem_rows.mpr hserves, by simpa using hother⟩, rfl⟩
  · rintro ⟨hvalid, hunnamed, hunheld⟩
    refine ⟨⟨hvalid, fun hnamed => ?_⟩, fun hheld => ?_⟩
    · obtain ⟨⟨key, row⟩, hrow, hname⟩ := List.mem_map.mp hnamed
      obtain ⟨hget, huser⟩ := mem_devicesOf.mp hrow
      exact hunnamed key row hget huser hname
    · obtain ⟨⟨⟨owner, name⟩, device⟩, hrow, rfl⟩ := List.mem_map.mp hheld
      obtain ⟨hserved, hother⟩ := List.mem_filter.mp hrow
      rw [Bool.and_eq_true, beq_iff_eq, bne_iff_ne] at hother
      have howner : owner = user := hother.1
      subst howner
      exact hother.2 (hunheld device (Table.mem_rows.mp hserved))

instance (user : UserId) (pubkey : PubKey) : DecidablePred (db.Usable user pubkey) :=
  fun _ => decidable_of_iff _ fits_iff

/-- Each label of the request is registered or refused; what was registered is what the device
serves afterwards, and nothing else is touched. -/
structure ServicesReplaced (db : Database) (user : UserId) (pubkey : PubKey) (labels : List String)
    (sorted : List String × List RefusedService) (db' : Database) : Prop where
  sorts : Sorts (fun label => decide (db.Usable user pubkey label)) labels sorted
  serves : ∀ label, label ∈ db'.servedBy user pubkey ↔ label ∈ sorted.1
  bounded : (db'.servedBy user pubkey).length ≤ MAX_WEB_SERVICES_PER_DEVICE
  others : ∀ owner label device, owner ≠ user ∨ device ≠ pubkey →
    (db'.deviceServices.get? (owner, label) = some device ↔
      db.deviceServices.get? (owner, label) = some device)
  untouched : db' = { db with deviceServices := db'.deviceServices }

/-- The labels of a device are replaced by those of the request that are well formed, not the name
of one of the owner's devices and not served by another one, up to the cap. -/
theorem services_replaced (db : Database) (user : UserId) (pubkey : PubKey)
    (labels : List String) :
    ∃ sorted db', db.run (.replaceServices user pubkey labels) = .ok (sorted, db') ∧
      db.ServicesReplaced user pubkey labels sorted db' := by
  refine ⟨_, _, rfl, ?_⟩
  have hsorts := sortServices_sorts ((db.devicesOf user).map fun row => row.2.deviceName)
    ((db.deviceServices.rows.filter fun row => row.1.1 == user && row.2 != pubkey).map
      fun row => row.1.2) labels
  have hfits : fits ((db.devicesOf user).map fun row => row.2.deviceName)
      ((db.deviceServices.rows.filter fun row =>
        row.1.1 == user && row.2 != pubkey).map fun row => row.1.2) =
      fun label => decide (db.Usable user pubkey label) := by
    funext label
    rw [Bool.eq_iff_iff, fits_iff, decide_eq_true_iff]
  rw [hfits] at hsorts
  revert hsorts
  generalize sortServices _ _ labels = sorted
  intro hsorts
  have husable : ∀ label ∈ sorted.1, db.Usable user pubkey label := by
    intro label hregistered
    rw [hsorts.registered] at hregistered
    exact of_decide_eq_true (List.mem_filter.mp (List.mem_of_mem_take hregistered)).2
  have hserves : ∀ label, (sorted.1.foldl
      (fun services label => services.insert (user, label) pubkey)
      (db.deviceServices.retain fun name device =>
        !(name.1 == user && device == pubkey))).get? (user, label) = some pubkey ↔
      label ∈ sorted.1 := by
    intro label
    rw [get?_foldl_insert, Table.get?_retain]
    by_cases hregistered : label ∈ sorted.1 <;> simp [hregistered, Option.filter_eq_some_iff]
  refine ⟨hsorts, fun label => mem_servedBy.trans (hserves label), ?_, ?_, rfl⟩
  · refine (List.subperm_of_subset (nodup_servedBy user pubkey) fun label hlabel =>
      (hserves label).mp (mem_servedBy.mp hlabel)).length_le.trans ?_
    rw [hsorts.registered, List.length_take]
    exact Nat.min_le_left ..
  · intro owner label device hother
    dsimp only
    rw [get?_foldl_insert, Table.get?_retain]
    split
    · rename_i hwritten
      obtain ⟨rfl, hregistered⟩ := hwritten
      have hother : device ≠ pubkey := hother.resolve_left fun hne => hne rfl
      constructor
      · intro hsame
        cases hsame
        exact (hother rfl).elim
      · intro hheld
        exact (hother ((husable label hregistered).unheld device hheld)).elim
    · rw [Option.filter_eq_some_iff]
      refine and_iff_left_of_imp fun _ => ?_
      rcases hother with howner | hdevice
      · simp [howner]
      · simp [hdevice]

def webNamed : Database :=
  { ({} : Database) with
    devices := ((∅ : UniqueTable PubKey DeviceRow DeviceRow.idx).insertNew 1
      ⟨0, 1, "web", none, none, false⟩).getD ∅ }

/-- A device is refused a label that is only its own name. -/
theorem own_name_refused :
    ¬ ∀ (db : Database) (user : UserId) (pubkey : PubKey) (labels : List String) sorted db',
      db.run (.replaceServices user pubkey labels) = .ok (sorted, db') →
        ∀ refused ∈ sorted.2, validLabel refused.name = false ∨
          MAX_WEB_SERVICES_PER_DEVICE < labels.length ∨
          ∃ device, device ≠ pubkey ∧
            db.deviceServices.get? (user, refused.name) = some device := by
  intro hclaim
  have hrefused := hclaim webNamed 1 1 ["web"] _ _ rfl
  have hweb : "web" ∈ (sortServices ((webNamed.devicesOf 1).map fun row => row.2.deviceName)
      [] ["web"]).2.map RefusedService.name := by
    decide
  obtain ⟨refused, hmem, hname⟩ := List.mem_map.mp hweb
  rcases hrefused refused hmem with hinvalid | hmany | ⟨device, -, hheld⟩
  · rw [hname] at hinvalid
    exact absurd hinvalid (by decide)
  · exact absurd hmany (by decide)
  · cases hheld

end Database

end UnityLan.Coordinator
