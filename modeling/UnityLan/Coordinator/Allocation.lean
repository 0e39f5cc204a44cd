import Mathlib.Data.List.Perm.Subperm
import UnityLan.Coordinator.Machine
import UnityLan.Coordinator.Services

namespace UnityLan.Coordinator

open UnityLan.Foundation Prog

/-! Devices allocated, renamed and removed by calls whose statements interleave. -/

inductive DeviceCall
  | allocateDevice (pubkey : PubKey) (user : UserId) (deviceName : String)
  | renameDevice (user : UserId) (pubkey : PubKey) (name : String)
  | removeDevice (user : UserId) (pubkey : PubKey)

inductive DeviceReply
  | allocated (addr : Ipv4Addr) (name : String)
  | renamed (name : String)
  | removed

namespace DeviceCall

def user : DeviceCall → UserId
  | .allocateDevice _ user _ => user
  | .renameDevice user _ _ => user
  | .removeDevice user _ => user

def exclude : DeviceCall → Option PubKey
  | .renameDevice _ pubkey _ => some pubkey
  | _ => none

end DeviceCall

def runDeviceCall (conf : Conf) : DeviceCall → Stored DeviceReply
  | .allocateDevice pubkey user deviceName => do
      let (addr, name) ← Store.allocateDevice conf pubkey user deviceName
      return .allocated addr name
  | .renameDevice user pubkey name => return .renamed (← Store.renameDevice user pubkey name)
  | .removeDevice user pubkey => do
      Store.removeDevice user pubkey
      return .removed

def allocation (conf : Conf) : Machine sig where
  State := AppState
  Call := DeviceCall
  Err := StoreError
  Reply := DeviceReply
  Choice := Choice
  World := World
  start := runDeviceCall conf
  exec := AppState.exec conf
  suspends := Op.suspends
  release := AppState.release
  move := AppState.move

/-! What the devices of an owner have to be, and what a statement does to them. -/

namespace Database

structure Allocated (conf : Conf) (db : Database) : Prop where
  capped : ∀ user, (db.devicesOf user).length ≤ MAX_DEVICES_PER_USER
  named : ∀ {key key' row row'}, db.devices.get? key = some row →
    db.devices.get? key' = some row' → row.userId = row'.userId →
      row.deviceName = row'.deviceName → key = key'
  indexed : ∀ {key key' row row'}, db.devices.get? key = some row →
    db.devices.get? key' = some row' → row.idx = row'.idx → key = key'
  placed : ∀ {key row}, db.devices.get? key = some row →
    indexIsValid conf.wgNet row.idx = true

variable {db db' : Database} {q : Query} {answer : q.Res}

theorem run_row {key : PubKey} {row' : DeviceRow} (hrun : db.run q = .ok (answer, db'))
    (hrow : db'.devices.get? key = some row') :
    (∃ row, db.devices.get? key = some row ∧ row'.idx = row.idx ∧ row'.userId = row.userId ∧
      (row'.deviceName = row.deviceName ∨ q = .setDeviceName key row'.deviceName)) ∨
    q = .insertDevice key row' ∧ db.devices.get? key = none := by
  by_cases hwrites : writes q = some .devices
  · cases q <;> try (cases hwrites; done)
    case insertDevice other new =>
      obtain ⟨hfresh, hget⟩ := run_insertDevice hrun
      simp only [hget] at hrow
      split at hrow
      · rename_i hkey
        cases hrow
        rw [hkey]
        exact .inr ⟨rfl, hfresh⟩
      · exact .inl ⟨row', hrow, rfl, rfl, .inl rfl⟩
    case deleteDevice other user =>
      cases hrun
      left
      simp only [UniqueTable.get?_retain, Option.filter_eq_some_iff] at hrow
      exact ⟨row', hrow.1, rfl, rfl, .inl rfl⟩
    case setDeviceName other name =>
      cases hrun
      left
      simp only [UniqueTable.get?_adjust] at hrow
      split at hrow
      · obtain ⟨row, hget, rfl⟩ := Option.map_eq_some_iff.mp hrow
        rename_i hkey
        exact ⟨row, hkey ▸ hget, rfl, rfl, .inr (by rw [hkey])⟩
      · exact ⟨row', hrow, rfl, rfl, .inl rfl⟩
    all_goals
      cases hrun
      left
      simp only [UniqueTable.get?_adjust] at hrow
      split at hrow
      · obtain ⟨row, hget, rfl⟩ := Option.map_eq_some_iff.mp hrow
        rename_i hkey
        exact ⟨row, hkey ▸ hget, rfl, rfl, .inl rfl⟩
      · exact ⟨row', hrow, rfl, rfl, .inl rfl⟩
  · left
    rw [(run_frame hrun).devices hwrites] at hrow
    exact ⟨row', hrow, rfl, rfl, .inl rfl⟩

end Database

/-! What was done between a call's reads and its write. -/

/-- A device was given a name; `arrived` where its row is new. -/
structure NameGiven where
  owner : UserId
  name : String
  arrived : Bool
  deriving DecidableEq

structure Ledger where
  /-- Every name given so far, the latest first. -/
  log : List NameGiven := []
  /-- The devices a task counted, and how long the log was then. -/
  counted : Table Nat (Nat × Nat) := ∅
  /-- The owner whose names a task read, and how long the log was then. -/
  listed : Table Nat (UserId × Nat) := ∅
  /-- The index of the row that an allocation found. -/
  found : Table Nat Nat := ∅

namespace Ledger

def since (g : Ledger) (mark : Nat) : List NameGiven :=
  g.log.take (g.log.length - mark)

def arrivals (user : UserId) (namings : List NameGiven) : Nat :=
  (namings.filter fun naming => naming.arrived && naming.owner == user).length

def given (namings : List NameGiven) : List (UserId × String) :=
  namings.map fun naming => (naming.owner, naming.name)

def see (g : Ledger) (st : AppState) : (o : Op) → Nat → o.Res → Ledger
  | .store (.device _), task, .ok (some row) => { g with found := g.found.insert task row.idx }
  | .store (.countDevices user), task, .ok _ =>
      { g with
        counted := g.counted.insert task ((st.db.devicesOf user).length, g.log.length) }
  | .store (.userDevices user), task, .ok _ =>
      { g with listed := g.listed.insert task (user, g.log.length) }
  | .store (.insertDevice _ row), _, .ok _ =>
      { g with log := ⟨row.userId, row.deviceName, true⟩ :: g.log }
  | .store (.setDeviceName pubkey name), _, .ok _ =>
      let renamed := (st.db.devices.get? pubkey).toList
      { g with log := renamed.map (fun row => ⟨row.userId, name, false⟩) ++ g.log }
  | _, _, _ => g

/-- The owner got no device since the task counted, or what it counted leaves room for
those it got. -/
def roomLeft (g : Ledger) (task : Nat) (user : UserId) : Bool :=
  (g.counted.get? task).any fun read =>
    let arrived := arrivals user (g.since read.2)
    arrived == 0 || read.1 + arrived < MAX_DEVICES_PER_USER

/-- The task read this owner's names, and none of the owner's devices was given the name
since. -/
def unclaimed (g : Ledger) (task : Nat) (user : UserId) (name : String) : Bool :=
  (g.listed.get? task).any fun read =>
    read.1 == user && (user, name) ∉ given (g.since read.2)

def unraced (g : Ledger) (st : AppState) : (o : Op) → Nat → o.Res → Bool
  | .store (.insertDevice _ row), task, .ok _ =>
      g.roomLeft task row.userId && g.unclaimed task row.userId row.deviceName
  | .store (.setDeviceName pubkey name), task, .ok _ =>
      (st.db.devices.get? pubkey).all fun row => g.unclaimed task row.userId name
  | _, _, _ => true

end Ledger

variable (conf : Conf)

def allocationView : (allocation conf).Observer Ledger where
  see := fun g st event _ =>
    match event with
    | .called task _ => { g with found := g.found.erase task }
    | .did task o answer => g.see st o task answer
    | _ => g

/-- No write of a call was overtaken by another call's. -/
def unraced (g : Ledger) (st : AppState) : (allocation conf).Event → Bool
  | .did task o answer => g.unraced st o task answer
  | _ => true

structure Reads where
  call : DeviceCall
  found : Option Nat := none
  counted : Option Nat := none
  listed : Option (List (PubKey × String)) := none

namespace Reads

def free (m : Reads) (name : String) : Prop :=
  ∃ devices, m.listed = some devices ∧ name ∉ Store.otherNames devices m.call.exclude

def allows (m : Reads) : Op → Prop
  | .store (.insertDevice pubkey row) =>
      (∃ name, m.call = .allocateDevice pubkey row.userId name) ∧
        indexIsValid conf.wgNet row.idx = true ∧
        (∃ owned, m.counted = some owned ∧ owned < MAX_DEVICES_PER_USER) ∧ m.free row.deviceName
  | .store (.setDeviceName pubkey name) =>
      (∃ user desired, m.call = .renameDevice user pubkey desired) ∧ m.free name
  | .store (.countDevices user) => user = m.call.user
  | .store (.userDevices user) => user = m.call.user
  | .store q => Database.names q = false
  | _ => True

def next (m : Reads) : (o : Op) → o.Res → Reads
  | .store (.device _), .ok (some row) => { m with found := some row.idx }
  | .store (.countDevices _), .ok owned => { m with counted := some owned }
  | .store (.userDevices _), .ok devices => { m with listed := some devices }
  | _, _ => m

def mon : Monitor sig Reads where
  allows := Reads.allows conf
  expects := fun _ _ _ => True
  next := next

def post (call : DeviceCall) (m : Reads) (result : Except StoreError DeviceReply) : Prop :=
  m.call = call ∧
    ∀ addr name, result = .ok (.allocated addr name) →
      ∀ idx, m.found = some idx → addr = addrFromIndex conf.wgNet idx

variable {conf}

theorem uniqueDeviceName_conforms {m : Reads} (desired : String) :
    (Store.uniqueDeviceName m.call.user desired m.call.exclude).Conforms (mon conf)
      (fun m' result => m'.call = m.call ∧ m'.found = m.found ∧ m'.counted = m.counted ∧
        ∀ name, result = .ok name → m'.free name) m := by
  rw [uniqueDeviceName_eq, conforms_sql_bind]
  refine ⟨rfl, fun answer _ => ?_⟩
  cases answer with
  | error error => exact ⟨rfl, rfl, rfl, nofun⟩
  | ok devices =>
      cases hname : freeName (Store.otherNames devices m.call.exclude) desired with
      | none =>
          simp only [after, hname]
          exact ⟨rfl, rfl, rfl, nofun⟩
      | some name =>
          simp only [after, hname]
          refine ⟨rfl, rfl, rfl, fun found hfound => ?_⟩
          cases hfound
          exact ⟨devices, rfl, freeName_free hname⟩

theorem allocateDevice_conforms (pubkey : PubKey) (user : UserId) (deviceName : String) :
    (Store.allocateDevice conf pubkey user deviceName).Conforms (mon conf)
      (fun m result => m.call = .allocateDevice pubkey user deviceName ∧
        ∀ addr name, result = .ok (addr, name) →
          ∀ idx, m.found = some idx → addr = addrFromIndex conf.wgNet idx)
      { call := .allocateDevice pubkey user deviceName } := by
  unfold Store.allocateDevice
  rw [conforms_sql_bind]
  refine ⟨rfl, fun row _ => ?_⟩
  cases row with
  | error error => exact ⟨rfl, fun _ _ habsurd => by cases habsurd⟩
  | ok row =>
      cases row with
      | some row =>
          dsimp only [after]
          split
          · refine ⟨rfl, fun addr name hanswer idx hidx => ?_⟩
            cases hanswer
            cases hidx
            rfl
          · exact ⟨rfl, fun _ _ habsurd => by cases habsurd⟩
      | none =>
          simp only [after, conforms_sql_bind]
          refine ⟨rfl, fun owned _ => ?_⟩
          cases owned with
          | error error => exact ⟨rfl, fun _ _ habsurd => by cases habsurd⟩
          | ok owned =>
              dsimp only [after]
              split
              · exact ⟨rfl, fun _ _ habsurd => by cases habsurd⟩
              · rename_i hroom
                rw [conforms_sql_bind]
                refine ⟨rfl, fun taken _ => ?_⟩
                cases taken with
                | error error => exact ⟨rfl, fun _ _ habsurd => by cases habsurd⟩
                | ok taken =>
                    dsimp only [after]
                    split
                    · exact ⟨rfl, fun _ _ habsurd => by cases habsurd⟩
                    · rename_i idx hidx
                      refine (uniqueDeviceName_conforms deviceName).bind ?_ ?_
                      · intro m name hname
                        obtain ⟨hcall, hfound, hcounted, hfree⟩ := hname
                        simp only [conforms_act_bind, conforms_sql_bind]
                        refine ⟨trivial, fun token _ => ⟨?_, fun done _ => ?_⟩⟩
                        · refine ⟨⟨deviceName, hcall⟩, (pickFreeIndex_spec hidx).2, ?_,
                            hfree name rfl⟩
                          exact ⟨owned, hcounted, Nat.lt_of_not_le hroom⟩
                        · cases done with
                          | error error => exact ⟨hcall, fun _ _ habsurd => by cases habsurd⟩
                          | ok done =>
                              refine ⟨hcall, fun addr stored _ idx hidx => ?_⟩
                              have hnone : m.found = some idx := hidx
                              rw [hfound] at hnone
                              cases hnone
                      · intro m error hname
                        exact ⟨hname.1, fun _ _ habsurd => by cases habsurd⟩

theorem renameDevice_conforms (user : UserId) (pubkey : PubKey) (name : String) :
    (Store.renameDevice user pubkey name).Conforms (mon conf)
      (fun m _ => m.call = .renameDevice user pubkey name)
      { call := .renameDevice user pubkey name } := by
  unfold Store.renameDevice
  refine (uniqueDeviceName_conforms name).bind ?_ ?_
  · intro m stored hstored
    obtain ⟨hcall, -, -, hfree⟩ := hstored
    rw [conforms_sql_bind]
    refine ⟨⟨⟨user, name, hcall⟩, hfree stored rfl⟩, fun done _ => ?_⟩
    cases done with
    | error error => exact hcall
    | ok done => exact hcall
  · intro m error hstored
    exact hstored.1

theorem removeDevice_conforms (user : UserId) (pubkey : PubKey) :
    (Store.removeDevice user pubkey).Conforms (mon conf)
      (fun m _ => m.call = .removeDevice user pubkey) { call := .removeDevice user pubkey } := by
  refine (removeDevice_uses user pubkey).keeps
    (fun m : Reads => m.call = .removeDevice user pubkey) ?_ rfl
  intro m o hremoval hcall
  cases o with
  | store q =>
      constructor
      · cases q <;> first
          | exact hremoval.elim
          | rfl
          | exact Eq.trans hremoval (congrArg DeviceCall.user hcall).symm
      · intro answer _
        cases q <;> first
          | exact hremoval.elim
          | exact hcall
          | (cases answer <;> exact hcall)
  | _ => exact hremoval.elim

theorem runDeviceCall_conforms (call : DeviceCall) :
    (runDeviceCall conf call).Conforms (mon conf) (post conf call) { call := call } := by
  cases call with
  | allocateDevice pubkey user deviceName =>
      refine (allocateDevice_conforms pubkey user deviceName).bind ?_ ?_
      · rintro m ⟨addr, name⟩ hallocated
        refine ⟨hallocated.1, fun addr' name' hanswer idx hidx => ?_⟩
        cases hanswer
        exact hallocated.2 addr name rfl idx hidx
      · exact fun m error hallocated => ⟨hallocated.1, nofun⟩
  | renameDevice user pubkey name =>
      refine (renameDevice_conforms user pubkey name).bind ?_ ?_
      · exact fun m stored hcall => ⟨hcall, nofun⟩
      · exact fun m error hcall => ⟨hcall, nofun⟩
  | removeDevice user pubkey =>
      refine (removeDevice_conforms user pubkey).bind ?_ ?_
      · exact fun m done hcall => ⟨hcall, nofun⟩
      · exact fun m error hcall => ⟨hcall, nofun⟩

end Reads

/-! How the devices of an owner change: none gets a name but by a naming. -/

structure GrowsBy (added : List NameGiven) (db db' : Database) : Prop where
  rows : ∀ {key row'}, db'.devices.get? key = some row' →
    (∃ row, db.devices.get? key = some row ∧ row'.userId = row.userId ∧
      row'.deviceName = row.deviceName) ∨
    (row'.userId, row'.deviceName) ∈ Ledger.given added
  count : ∀ user, (db'.devicesOf user).length ≤
    (db.devicesOf user).length + Ledger.arrivals user added

namespace GrowsBy

variable {db db' : Database} {q : Query} {answer : q.Res}

theorem count_le_rows {user : UserId}
    (hrows : ∀ key row', db'.devices.get? key = some row' → row'.userId = user →
      ∃ row, db.devices.get? key = some row ∧ row.userId = user) :
    (db'.devicesOf user).length ≤ (db.devicesOf user).length := by
  have hlength : (db'.devicesOf user).length ≤ 0 + (db.devicesOf user).length :=
    Database.devicesOf_length_le
      (fun key row' hrow huser => .inr (hrows key row' hrow huser) : ∀ _ _, _ → _ → _ ∈ [] ∨ _)
  rwa [Nat.zero_add] at hlength

theorem refl (db : Database) : GrowsBy [] db db :=
  ⟨fun hrow => .inl ⟨_, hrow, rfl, rfl⟩, fun _ => Nat.le_refl _⟩

theorem of_quiet (hquiet : Database.names q = false) (hrun : db.run q = .ok (answer, db')) :
    GrowsBy [] db db' := by
  have hrows : ∀ {key row'}, db'.devices.get? key = some row' →
      ∃ row, db.devices.get? key = some row ∧ row'.userId = row.userId ∧
        row'.deviceName = row.deviceName := by
    intro key row' hrow
    obtain ⟨row, hold, huser, hname⟩ := (Database.run_shrinks hquiet hrun).devices hrow
    exact ⟨row, hold, huser.symm, hname.symm⟩
  refine ⟨fun hrow => .inl (hrows hrow), fun user => ?_⟩
  refine count_le_rows fun key row' hrow huser => ?_
  obtain ⟨row, hold, howner, -⟩ := hrows hrow
  exact ⟨row, hold, howner.symm.trans huser⟩

theorem of_insert {key : PubKey} {row : DeviceRow}
    (hrun : db.run (.insertDevice key row) = .ok ((), db')) :
    GrowsBy [⟨row.userId, row.deviceName, true⟩] db db' := by
  obtain ⟨-, hget⟩ := Database.run_insertDevice hrun
  constructor
  · intro other row' hrow
    rw [hget] at hrow
    split at hrow
    · cases hrow
      exact .inr (by simp [Ledger.given])
    · exact .inl ⟨row', hrow, rfl, rfl⟩
  · intro user
    by_cases howner : row.userId = user
    · have hone : Ledger.arrivals user [⟨row.userId, row.deviceName, true⟩] = [key].length := by
        simp [Ledger.arrivals, howner]
      rw [hone, Nat.add_comm]
      refine Database.devicesOf_length_le fun other row' hrow huser => ?_
      rw [hget] at hrow
      split at hrow
      · rename_i hkey
        exact .inl (by simp [hkey])
      · exact .inr ⟨row', hrow, huser⟩
    · refine Nat.le_trans (count_le_rows fun other row' hrow huser => ?_)
        (Nat.add_le_add_left (Nat.zero_le _) _)
      rw [hget] at hrow
      split at hrow
      · cases hrow
        exact (howner huser).elim
      · exact ⟨row', hrow, huser⟩

theorem of_rename {key : PubKey} {name : String}
    (hrun : db.run (.setDeviceName key name) = .ok ((), db')) :
    GrowsBy ((db.devices.get? key).toList.map fun row => ⟨row.userId, name, false⟩) db db' := by
  have hrows : ∀ {other row'}, db'.devices.get? other = some row' →
      ∃ old, db.devices.get? other = some old ∧ row'.userId = old.userId ∧
        (row'.deviceName = old.deviceName ∨ other = key ∧ row'.deviceName = name) := by
    intro other row' hrow'
    rcases Database.run_row hrun hrow' with ⟨old, hold, -, huser, hname⟩ | ⟨hinsert, -⟩
    · refine ⟨old, hold, huser, hname.imp_right fun hset => ?_⟩
      cases hset
      exact ⟨rfl, rfl⟩
    · cases hinsert
  constructor
  · intro other row' hrow'
    obtain ⟨old, hold, huser, hname | ⟨rfl, hname⟩⟩ := hrows hrow'
    · exact .inl ⟨old, hold, huser, hname⟩
    · exact .inr (by simp [Ledger.given, hold, huser, hname])
  · intro user
    refine Nat.le_trans (count_le_rows fun other row' hrow' huser => ?_)
      (Nat.add_le_add_left (Nat.zero_le _) _)
    obtain ⟨old, hold, howner, -⟩ := hrows hrow'
    exact ⟨old, hold, howner.symm.trans huser⟩

end GrowsBy

/-! What the ledger knows of a task agrees with what the task read. -/

namespace Ledger

theorem since_append {g g' : Ledger} {added : List NameGiven} {mark : Nat}
    (hlog : g'.log = added ++ g.log) (hmark : mark ≤ g.log.length) :
    g'.since mark = added ++ g.since mark := by
  unfold since
  have hlength : (added ++ g.log).length - mark = added.length + (g.log.length - mark) := by
    rw [List.length_append]
    omega
  rw [hlog, hlength, List.take_length_add_append]

theorem arrivals_append (user : UserId) (first second : List NameGiven) :
    arrivals user (first ++ second) = arrivals user first + arrivals user second := by
  simp [arrivals]

theorem given_append (first second : List NameGiven) :
    given (first ++ second) = given first ++ given second := by
  simp [given]

end Ledger

structure DevicesCounted (g : Ledger) (db : Database) (task : Nat) (user : UserId)
    (owned : Nat) : Prop where
  marked : ∃ mark, g.counted.get? task = some (owned, mark) ∧ mark ≤ g.log.length ∧
    (db.devicesOf user).length ≤ owned + Ledger.arrivals user (g.since mark)

structure NamesListed (g : Ledger) (db : Database) (task : Nat) (user : UserId)
    (exclude : Option PubKey) (devices : List (PubKey × String)) : Prop where
  marked : ∃ mark, g.listed.get? task = some (user, mark) ∧ mark ≤ g.log.length ∧
    ∀ key row, some key ≠ exclude → db.devices.get? key = some row → row.userId = user →
      row.deviceName ∈ Store.otherNames devices exclude ∨
        (user, row.deviceName) ∈ Ledger.given (g.since mark)

/-- One task did something: the log gained what the statement named, and only that task's
reads may have changed. -/
structure Advances (g g' : Ledger) (db db' : Database) (task : Nat) : Prop where
  logged : ∃ added, g'.log = added ++ g.log ∧ GrowsBy added db db'
  found : ∀ other, other ≠ task → g'.found.get? other = g.found.get? other
  counted : ∀ other, other ≠ task → g'.counted.get? other = g.counted.get? other
  listed : ∀ other, other ≠ task → g'.listed.get? other = g.listed.get? other

structure TaskInv (g : Ledger) (db : Database) (task : Nat) (m : Reads) : Prop where
  found : g.found.get? task = m.found
  counted : ∀ owned, m.counted = some owned → DevicesCounted g db task m.call.user owned
  listed : ∀ devices, m.listed = some devices →
    NamesListed g db task m.call.user m.call.exclude devices

section

variable {g g' : Ledger} {db db' : Database} {task : Nat} {user : UserId} {added : List NameGiven}

theorem DevicesCounted.grows {owned : Nat} (hcounted : DevicesCounted g db task user owned)
    (hgrows : GrowsBy added db db') (hlog : g'.log = added ++ g.log)
    (hsame : g'.counted.get? task = g.counted.get? task) :
    DevicesCounted g' db' task user owned := by
  obtain ⟨mark, hget, hmark, hle⟩ := hcounted.marked
  refine ⟨mark, hsame.trans hget, ?_, ?_⟩
  · rw [hlog, List.length_append]
    omega
  · rw [Ledger.since_append hlog hmark, Ledger.arrivals_append]
    have hcount := hgrows.count user
    omega

theorem NamesListed.grows {exclude : Option PubKey} {devices : List (PubKey × String)}
    (hlisted : NamesListed g db task user exclude devices)
    (hgrows : GrowsBy added db db') (hlog : g'.log = added ++ g.log)
    (hsame : g'.listed.get? task = g.listed.get? task) :
    NamesListed g' db' task user exclude devices := by
  obtain ⟨mark, hget, hmark, hnames⟩ := hlisted.marked
  refine ⟨mark, hsame.trans hget, ?_, fun key row' hkey hrow' huser => ?_⟩
  · rw [hlog, List.length_append]
    omega
  · rw [Ledger.since_append hlog hmark, Ledger.given_append, List.mem_append]
    rcases hgrows.rows hrow' with ⟨row, hrow, howner, hname⟩ | hgiven
    · rw [hname]
      exact (hnames key row hkey hrow (howner.symm.trans huser)).imp_right .inr
    · rw [huser] at hgiven
      exact .inr (.inl hgiven)

theorem TaskInv.grows {m : Reads} (htask : TaskInv g db task m)
    (hgrows : GrowsBy added db db') (hlog : g'.log = added ++ g.log)
    (hfound : g'.found.get? task = g.found.get? task)
    (hcounted : g'.counted.get? task = g.counted.get? task)
    (hlisted : g'.listed.get? task = g.listed.get? task) :
    TaskInv g' db' task m where
  found := hfound.trans htask.found
  counted := fun owned howned => (htask.counted owned howned).grows hgrows hlog hcounted
  listed := fun devices hdevices => (htask.listed devices hdevices).grows hgrows hlog hlisted

theorem TaskInv.other {m : Reads} {other : Nat} (htask : TaskInv g db other m)
    (hadvances : Advances g g' db db' task) (hother : other ≠ task) : TaskInv g' db' other m := by
  obtain ⟨added, hlog, hgrows⟩ := hadvances.logged
  exact htask.grows hgrows hlog (hadvances.found other hother)
    (hadvances.counted other hother) (hadvances.listed other hother)

theorem TaskInv.named {m : Reads} (htask : TaskInv g db task m)
    (hgrows : GrowsBy added db db') :
    Advances g { g with log := added ++ g.log } db db' task ∧
      TaskInv { g with log := added ++ g.log } db' task m :=
  ⟨⟨⟨added, rfl, hgrows⟩, fun _ _ => rfl, fun _ _ => rfl, fun _ _ => rfl⟩,
    htask.grows hgrows rfl rfl rfl rfl⟩

end

/-! One operation of a task. -/

section

variable {conf} {g : Ledger} {st st' : AppState} {db' : Database} {task : Nat} {m : Reads}

theorem did_read {q : Query} {answer : q.Res} (htask : TaskInv g st.db task m)
    (hquiet : Database.names q = false) (hallows : Reads.allows conf m (.store q))
    (hrun : st.db.run q = .ok (answer, db')) :
    Advances g (g.see st (.store q) task (.ok answer)) st.db db' task ∧
      TaskInv (g.see st (.store q) task (.ok answer)) db' task
        (Reads.next m (.store q) (.ok answer)) := by
  have hgrows : GrowsBy [] st.db db' := GrowsBy.of_quiet hquiet hrun
  cases q
  case insertDevice => cases hquiet
  case setDeviceName => cases hquiet
  case replaceServices => cases hquiet
  case countDevices user =>
    cases hrun
    constructor
    · refine ⟨⟨[], rfl, hgrows⟩, fun _ _ => rfl, fun other hother => ?_, fun _ _ => rfl⟩
      simp [Ledger.see, hother]
    · refine ⟨htask.found, fun owned howned => ⟨g.log.length, ?_, Nat.le_refl _, ?_⟩,
        fun devices hdevices =>
          (htask.listed devices hdevices).grows hgrows rfl rfl⟩
      · cases howned
        simp [Ledger.see]
      · cases howned
        have huser : user = m.call.user := hallows
        subst huser
        exact Nat.le_add_right _ _
  case userDevices user =>
    cases hrun
    constructor
    · refine ⟨⟨[], rfl, hgrows⟩, fun _ _ => rfl, fun _ _ => rfl, fun other hother => ?_⟩
      simp [Ledger.see, hother]
    · have huser : user = m.call.user := hallows
      subst huser
      refine ⟨htask.found, fun owned howned =>
          (htask.counted owned howned).grows hgrows rfl rfl,
        fun devices hdevices => ⟨g.log.length, ?_, Nat.le_refl _, ?_⟩⟩
      · simp [Ledger.see, Reads.next]
      · cases hdevices
        intro key row hkey hrow huser
        left
        by_contra hfree
        exact @not_mem_namesOf st.db _ _ _ hfree key row hkey hrow huser rfl
  case device pubkey =>
    cases hrun
    cases hrow : st.db.devices.get? pubkey with
    | none => exact htask.named hgrows
    | some row =>
        constructor
        · refine ⟨⟨[], rfl, hgrows⟩, fun other hother => ?_, fun _ _ => rfl, fun _ _ => rfl⟩
          simp [Ledger.see, hother]
        · refine ⟨by simp [Ledger.see, Reads.next], fun owned howned =>
              (htask.counted owned howned).grows hgrows rfl rfl,
            fun devices hdevices =>
              (htask.listed devices hdevices).grows hgrows rfl rfl⟩
  all_goals exact htask.named hgrows

theorem did_failed {q : Query} (htask : TaskInv g st.db task m) (error : StoreError) :
    Advances g (g.see st (.store q) task (.error error)) st.db st.db task ∧
      TaskInv (g.see st (.store q) task (.error error)) st.db task
        (Reads.next m (.store q) (.error error)) := by
  cases q <;> exact htask.named (GrowsBy.refl _)

theorem did_named {q : Query} {answer : q.Res} (htask : TaskInv g st.db task m)
    (hnames : Database.names q = true) (hallows : Reads.allows conf m (.store q))
    (hrun : st.db.run q = .ok (answer, db')) :
    Advances g (g.see st (.store q) task (.ok answer)) st.db db' task ∧
      TaskInv (g.see st (.store q) task (.ok answer)) db' task
        (Reads.next m (.store q) (.ok answer)) := by
  cases q <;> try cases hnames
  case insertDevice pubkey row => exact htask.named (GrowsBy.of_insert hrun)
  case setDeviceName pubkey name => exact htask.named (GrowsBy.of_rename hrun)
  case replaceServices => cases hallows

theorem did_other {o : Op} {answer : o.Res} (htask : TaskInv g st.db task m)
    (hother : ∀ q, o ≠ .store q) :
    Advances g (g.see st o task answer) st.db st.db task ∧
      TaskInv (g.see st o task answer) st.db task (Reads.next m o answer) := by
  cases o
  case store q => exact (hother q rfl).elim
  all_goals exact htask.named (GrowsBy.refl _)

/-! The rows that are written. -/

def Names (q : Query) (key : PubKey) : Prop :=
  (∃ row, q = .insertDevice key row) ∨ ∃ name, q = .setDeviceName key name

theorem Names.unique {q : Query} {first second : PubKey} (hfirst : Names q first)
    (hsecond : Names q second) : first = second := by
  rcases hfirst with ⟨row, rfl⟩ | ⟨name, rfl⟩
  · rcases hsecond with ⟨row', hsame⟩ | ⟨name, hsame⟩ <;> cases hsame
    rfl
  · rcases hsecond with ⟨row, hsame⟩ | ⟨name', hsame⟩ <;> cases hsame
    rfl

theorem allocated_run {db db' : Database} {q : Query} {answer : q.Res} {added : List NameGiven}
    (hallocated : db.Allocated conf) (hrun : db.run q = .ok (answer, db'))
    (hgrows : GrowsBy added db db')
    (hroom : ∀ user, Ledger.arrivals user added ≠ 0 →
      (db.devicesOf user).length + Ledger.arrivals user added ≤ MAX_DEVICES_PER_USER)
    (hfree : ∀ key row', db'.devices.get? key = some row' → Names q key →
      ∀ other held, other ≠ key → db.devices.get? other = some held →
        held.userId = row'.userId → held.deviceName ≠ row'.deviceName)
    (hplaced : ∀ key row, q = .insertDevice key row → indexIsValid conf.wgNet row.idx = true) :
    db'.Allocated conf := by
  have hold : ∀ {key row'}, db'.devices.get? key = some row' → ¬ Names q key →
      ∃ row, db.devices.get? key = some row ∧ row'.userId = row.userId ∧
        row'.deviceName = row.deviceName := by
    intro key row' hrow' hnames
    rcases Database.run_row hrun hrow' with ⟨row, hrow, -, huser, hname | hset⟩ | ⟨hinsert, -⟩
    · exact ⟨row, hrow, huser, hname⟩
    · exact (hnames (.inr ⟨_, hset⟩)).elim
    · exact (hnames (.inl ⟨_, hinsert⟩)).elim
  constructor
  · intro user
    have hcount := hgrows.count user
    have hcapped := hallocated.capped user
    by_cases harrived : Ledger.arrivals user added = 0
    · omega
    · have huser := hroom user harrived
      omega
  · intro first second row row' hrow hrow' huser hname
    by_contra hkeys
    by_cases hfirst : Names q first
    · have hsecond : ¬ Names q second := fun hsecond => hkeys (hfirst.unique hsecond)
      obtain ⟨held, hheld, howner, hsame⟩ := hold hrow' hsecond
      exact hfree first row hrow hfirst second held (Ne.symm hkeys) hheld
        (howner.symm.trans huser.symm) (hsame.symm.trans hname.symm)
    · obtain ⟨held, hheld, howner, hsame⟩ := hold hrow hfirst
      by_cases hsecond : Names q second
      · exact hfree second row' hrow' hsecond first held hkeys hheld
          (howner.symm.trans huser) (hsame.symm.trans hname)
      · obtain ⟨held', hheld', howner', hsame'⟩ := hold hrow' hsecond
        refine hkeys (hallocated.named hheld hheld' ?_ ?_)
        · rw [← howner, huser, howner']
        · rw [← hsame, hname, hsame']
  · intro first second row row' hrow hrow' hindex
    exact UniqueTable.key_unique hrow hrow' hindex
  · intro key row' hrow'
    rcases Database.run_row hrun hrow' with ⟨row, hrow, hindex, -⟩ | ⟨hinsert, -⟩
    · rw [hindex]
      exact hallocated.placed hrow
    · exact hplaced key row' hinsert

theorem name_free {name : String} (htask : TaskInv g st.db task m) (hread : m.free name)
    {user : UserId} (hunclaimed : g.unclaimed task user name = true) {other : PubKey}
    {held : DeviceRow} (hother : some other ≠ m.call.exclude)
    (hheld : st.db.devices.get? other = some held) (huser : held.userId = user) :
    held.deviceName ≠ name := by
  obtain ⟨devices, hdevices, hname⟩ := hread
  obtain ⟨mark, hmark, -, hnames⟩ := (htask.listed devices hdevices).marked
  simp only [Ledger.unclaimed, hmark, Option.any_some, Bool.and_eq_true, beq_iff_eq,
    decide_eq_true_eq] at hunclaimed
  obtain ⟨howner, hgiven⟩ := hunclaimed
  subst howner
  rintro rfl
  rcases hnames other held hother hheld huser with hin | hin
  · exact hname hin
  · exact hgiven hin

theorem room_left {owned : Nat} (htask : TaskInv g st.db task m)
    (hcounted : m.counted = some owned) (howned : owned < MAX_DEVICES_PER_USER)
    (hroom : g.roomLeft task m.call.user = true) :
    (st.db.devicesOf m.call.user).length < MAX_DEVICES_PER_USER := by
  obtain ⟨mark, hmark, -, hle⟩ := (htask.counted owned hcounted).marked
  simp only [Ledger.roomLeft, hmark, Option.any_some, Bool.or_eq_true, beq_iff_eq,
    decide_eq_true_eq] at hroom
  omega

theorem allocated_quiet {q : Query} {answer : q.Res} (hallocated : st.db.Allocated conf)
    (hquiet : Database.names q = false) (hrun : st.db.run q = .ok (answer, db')) :
    db'.Allocated conf := by
  refine allocated_run hallocated hrun (GrowsBy.of_quiet hquiet hrun) ?_ ?_ ?_
  · exact fun user harrived => (harrived rfl).elim
  · rintro key row' hrow' (⟨row, rfl⟩ | ⟨name, rfl⟩) <;> cases hquiet
  · rintro key row rfl
    cases hquiet

theorem allocated_insert {key : PubKey} {row : DeviceRow} (hallocated : st.db.Allocated conf)
    (htask : TaskInv g st.db task m)
    (hallows : Reads.allows conf m (.store (.insertDevice key row)))
    (hunraced : g.roomLeft task row.userId = true ∧
      g.unclaimed task row.userId row.deviceName = true)
    (hrun : st.db.run (.insertDevice key row) = .ok ((), db')) : db'.Allocated conf := by
  obtain ⟨⟨desired, hcall⟩, hvalid, ⟨owned, hcounted, howned⟩, hread⟩ := hallows
  have huser : m.call.user = row.userId := by
    rw [hcall]
    rfl
  have hexclude : m.call.exclude = none := by
    rw [hcall]
    rfl
  rw [← huser] at hunraced
  have hlength := room_left htask hcounted howned hunraced.1
  refine allocated_run hallocated hrun (GrowsBy.of_insert hrun) ?_ ?_ ?_
  · intro user harrived
    by_cases howner : row.userId = user
    · subst howner
      rw [huser] at hlength
      have hone : Ledger.arrivals row.userId [⟨row.userId, row.deviceName, true⟩] = 1 := by
        simp [Ledger.arrivals]
      rw [hone]
      exact hlength
    · simp [Ledger.arrivals, howner] at harrived
  · intro other row' hrow' hnames held kept hheld hkept howner
    obtain ⟨-, hget⟩ := Database.run_insertDevice hrun
    have hkey : other = key := hnames.unique (.inl ⟨row, rfl⟩)
    rw [hget, if_pos hkey] at hrow'
    cases hrow'
    refine name_free htask hread hunraced.2 ?_ hkept (howner.trans huser.symm)
    rw [hexclude]
    exact Option.some_ne_none _
  · rintro other row' hsame
    cases hsame
    exact hvalid

theorem allocated_rename {key : PubKey} {name : String} (hallocated : st.db.Allocated conf)
    (htask : TaskInv g st.db task m)
    (hallows : Reads.allows conf m (.store (.setDeviceName key name)))
    (hunraced : ∀ row, st.db.devices.get? key = some row →
      g.unclaimed task row.userId name = true)
    (hrun : st.db.run (.setDeviceName key name) = .ok ((), db')) : db'.Allocated conf := by
  obtain ⟨⟨user, desired, hcall⟩, hread⟩ := hallows
  have hexclude : m.call.exclude = some key := by
    rw [hcall]
    rfl
  refine allocated_run hallocated hrun (GrowsBy.of_rename hrun) ?_ ?_ ?_
  · intro user harrived
    cases hrow : st.db.devices.get? key with
    | none => simp [hrow, Ledger.arrivals] at harrived
    | some row => simp [hrow, Ledger.arrivals] at harrived
  · intro other row' hrow' hnames held kept hheld hkept howner
    have hkey : other = key := hnames.unique (.inr ⟨name, rfl⟩)
    subst hkey
    cases hrun
    simp only [UniqueTable.get?_adjust, if_true] at hrow'
    obtain ⟨row, hrow, rfl⟩ := Option.map_eq_some_iff.mp hrow'
    refine name_free htask hread (hunraced row hrow) ?_ hkept howner
    rw [hexclude]
    exact fun hsame => hheld (Option.some.inj hsame)
  · rintro other row' hsame
    cases hsame

theorem allocated_named {q : Query} {answer : q.Res} (hallocated : st.db.Allocated conf)
    (htask : TaskInv g st.db task m) (hnames : Database.names q = true)
    (hallows : Reads.allows conf m (.store q))
    (hunraced : g.unraced st (.store q) task (.ok answer) = true)
    (hrun : st.db.run q = .ok (answer, db')) : db'.Allocated conf := by
  cases q <;> try cases hnames
  case insertDevice key row =>
    refine allocated_insert hallocated htask hallows ?_ hrun
    simpa [Ledger.unraced] using hunraced
  case setDeviceName key name =>
    refine allocated_rename hallocated htask hallows (fun row hrow => ?_) hrun
    simpa [Ledger.unraced, hrow] using hunraced
  case replaceServices => cases hallows

end

structure AllocInv (g : Ledger) (st : AppState)
    (views : Nat → Option (DeviceCall × Reads)) : Prop where
  allocated : st.db.Allocated conf
  tasks : ∀ task call m, views task = some (call, m) → m.call = call ∧ TaskInv g st.db task m

section

variable {conf} {g : Ledger} {st st' : AppState} {task : Nat} {m : Reads} {call : DeviceCall}
  {views : Nat → Option (DeviceCall × Reads)}

theorem AllocInv.begin (hinv : AllocInv conf g st views) (call : DeviceCall) :
    AllocInv conf { g with found := g.found.erase task } st
      (Function.update views task (some (call, { call := call }))) := by
  refine ⟨hinv.allocated, fun other other' m hview => ?_⟩
  rcases Machine.update_some_cases hview with ⟨rfl, hsame⟩ | ⟨hother, hkept⟩
  · cases hsame
    exact ⟨rfl, by simp, nofun, nofun⟩
  · obtain ⟨hcall, htask⟩ := hinv.tasks other other' m hkept
    refine ⟨hcall, htask.grows (GrowsBy.refl _) rfl ?_ rfl rfl⟩
    simp [hother]

theorem AllocInv.leave (hinv : AllocInv conf g st views) :
    AllocInv conf g (AppState.release task st) (Function.update views task none) :=
  ⟨hinv.allocated, fun other call m hview =>
    hinv.tasks other call m (Machine.update_none_cases hview).2⟩

theorem next_call {o : Op} {answer : o.Res} : (m.next o answer).call = m.call := by
  unfold Reads.next
  split <;> rfl

theorem AllocInv.advance {g' : Ledger} {m' : Reads} (hinv : AllocInv conf g st views)
    (hallocated : st'.db.Allocated conf) (hadvances : Advances g g' st.db st'.db task)
    (htask : m'.call = call ∧ TaskInv g' st'.db task m') :
    AllocInv conf g' st' (Function.update views task (some (call, m'))) := by
  refine ⟨hallocated, fun other call m hview => ?_⟩
  rcases Machine.update_some_cases hview with ⟨rfl, hsame⟩ | ⟨hother, hkept⟩
  · cases hsame
    exact htask
  · obtain ⟨hcall, hkept⟩ := hinv.tasks other call m hkept
    exact ⟨hcall, hkept.other hadvances hother⟩

theorem AllocInv.did {choice : Choice} {o : Op} {answer : o.Res}
    (hinv : AllocInv conf g st views) (hview : views task = some (call, m))
    (hallows : Reads.allows conf m o)
    (hexec : AppState.exec conf task o choice st = some (answer, st'))
    (hunraced : g.unraced st o task answer = true) :
    AllocInv conf (g.see st o task answer) st'
      (Function.update views task (some (call, m.next o answer))) := by
  obtain ⟨hcall, htask⟩ := hinv.tasks task call m hview
  have hcall' : (m.next o answer).call = call := next_call.trans hcall
  by_cases hstore : ∃ q, o = .store q
  · obtain ⟨q, rfl⟩ := hstore
    have hstep := AppState.exec_store hexec
    cases answer with
    | error error =>
        have hdb := Database.step_error hstep
        obtain ⟨hadvances, htask'⟩ := did_failed (q := q) htask error
        rw [← hdb] at htask'
        refine hinv.advance ?_ ?_ ⟨hcall', htask'⟩
        · rw [hdb]
          exact hinv.allocated
        · rw [hdb]
          exact hadvances
    | ok answer =>
        have hrun := (Database.step_ok hstep).2
        cases hnames : Database.names q with
        | false =>
            obtain ⟨hadvances, htask'⟩ := did_read htask hnames hallows hrun
            exact hinv.advance (allocated_quiet hinv.allocated hnames hrun) hadvances
              ⟨hcall', htask'⟩
        | true =>
            obtain ⟨hadvances, htask'⟩ := did_named htask hnames hallows hrun
            exact hinv.advance (allocated_named hinv.allocated htask hnames hallows hunraced hrun)
              hadvances ⟨hcall', htask'⟩
  · have hother : ∀ q, o ≠ .store q := fun q hq => hstore ⟨q, hq⟩
    have hdb := (AppState.exec_frame hexec).db hother
    obtain ⟨hadvances, htask'⟩ := @did_other _ _ _ _ o answer htask hother
    rw [← hdb] at htask'
    refine hinv.advance ?_ ?_ ⟨hcall', htask'⟩
    · rw [hdb]
      exact hinv.allocated
    · rw [hdb]
      exact hadvances

end

def allocationDiscipline : (allocation conf).Discipline (allocationView conf)
    (Machine.passes (unraced conf)) Reads where
  mon := Reads.mon conf
  opening := fun _ _ call => { call := call }
  post := Reads.post conf
  inv := AllocInv conf
  conforms := fun _ _ call => Reads.runDeviceCall_conforms call
  called := fun hinv _ _ => hinv.begin _
  did := fun hinv hview hallows hexec hguard =>
    ⟨trivial, hinv.did hview hallows hexec hguard⟩
  ended := fun hinv _ _ _ => hinv.leave
  dropped := fun hinv _ _ => hinv.leave
  moved := fun {g s views world s'} hinv hmove _ => by
    have hdb := (AppState.move_untouched hmove).db
    exact ⟨hdb ▸ hinv.allocated, fun task call m hview => hdb ▸ hinv.tasks task call m hview⟩

/-! Runs. -/

/-- The devices are as they have to be, no step moves one, and an allocation that found a row
answers that row's address. -/
structure AllocationSound (c : (allocation conf).Config) (g : Ledger) : Prop where
  allocated : c.shared.db.Allocated conf
  kept : ∀ {event c'}, Machine.Step c event c' → ∀ {key row row'},
    c.shared.db.devices.get? key = some row → c'.shared.db.devices.get? key = some row' →
      row'.idx = row.idx
  answered : ∀ {task pubkey user name addr stored c'},
    Machine.Step c
      (.ended task (.allocateDevice pubkey user name) (.ok (.allocated addr stored))) c' →
    ∀ idx, g.found.get? task = some idx → addr = addrFromIndex conf.wgNet idx

variable {conf}

theorem exec_keeps_index {task : Nat} {o : Op} {choice : Choice} {answer : o.Res}
    {st st' : AppState} {key : PubKey} {row row' : DeviceRow}
    (hexec : AppState.exec conf task o choice st = some (answer, st'))
    (hrow : st.db.devices.get? key = some row) (hrow' : st'.db.devices.get? key = some row') :
    row'.idx = row.idx := by
  by_cases hstore : ∃ q, o = .store q
  · obtain ⟨q, rfl⟩ := hstore
    have hstep := AppState.exec_store hexec
    cases answer with
    | error error =>
        rw [Database.step_error hstep, hrow] at hrow'
        cases hrow'
        rfl
    | ok answer =>
        rcases Database.run_row (Database.step_ok hstep).2 hrow' with
          ⟨old, hold, hindex, -⟩ | ⟨-, habsent⟩
        · rw [hrow] at hold
          cases hold
          exact hindex
        · rw [hrow] at habsent
          cases habsent
  · rw [(AppState.exec_frame hexec).db fun q hq => hstore ⟨q, hq⟩, hrow] at hrow'
    cases hrow'
    rfl

theorem step_keeps_index {c c' : (allocation conf).Config} {event : (allocation conf).Event}
    {key : PubKey} {row row' : DeviceRow} (hstep : Machine.Step c event c')
    (hrow : c.shared.db.devices.get? key = some row)
    (hrow' : c'.shared.db.devices.get? key = some row') : row'.idx = row.idx := by
  have hsame : c'.shared.db = c.shared.db → row'.idx = row.idx := by
    intro hdb
    rw [hdb, hrow] at hrow'
    cases hrow'
    rfl
  cases hstep with
  | call => exact hsame rfl
  | perform _ executed => exact exec_keeps_index executed hrow hrow'
  | finish => exact hsame rfl
  | abort => exact hsame rfl
  | drop => exact hsame rfl
  | move moved => exact hsame (AppState.move_untouched moved).db

variable (conf)

/-- In a run in which no call's write was overtaken, every reachable state is sound. -/
theorem allocations_sound {start : AppState} (hstart : start.db.Allocated conf)
    {c : (allocation conf).Config} {g : Ledger}
    (hreach : Machine.Reach (allocationView conf) (Machine.passes (unraced conf))
      ((allocation conf).idle start) {} c g) :
    AllocationSound conf c g := by
  have hidle : (allocationDiscipline conf).inv {} start fun _ => none :=
    ⟨hstart, fun _ _ _ hview => nomatch hview⟩
  obtain ⟨views, htracks, hinv⟩ := (allocationDiscipline conf).run hidle hreach
  refine ⟨hinv.allocated, fun hstep => step_keeps_index hstep, fun hended idx hfound => ?_⟩
  cases hended with
  | finish running =>
      obtain ⟨m, hview, hconforms, -⟩ := htracks.running running
      obtain ⟨-, htask⟩ := hinv.tasks _ _ m hview
      rw [htask.found] at hfound
      exact hconforms.2 _ _ rfl idx hfound

/-- Two devices of one user are enrolled at once; both read the names before either has
written its own. -/
def enrollTwo (second : String) : List (allocation Conf.small).Label :=
  [.call (.allocateDevice 1 1 "pc"), .call (.allocateDevice 2 1 second)] ++
    List.replicate 4 (.step 0 .go) ++ List.replicate 4 (.step 1 .go) ++
    List.replicate 2 (.step 0 (.text "first")) ++ List.replicate 2 (.step 1 (.text "second"))

/-- The names of the two devices, where both have a row of the user. -/
def twoNames (st : AppState) : Option (String × String) :=
  match st.db.devices.get? 1, st.db.devices.get? 2 with
  | some first, some second =>
      if first.userId = 1 ∧ second.userId = 1 then some (first.deviceName, second.deviceName)
      else none
  | _, _ => none

/-- Both allocations keep the name they ask for, and it is the same. -/
theorem allocations_collide :
    ¬ ∀ c g, Machine.Reach (allocationView Conf.small) Machine.free
      ((allocation Conf.small).idle {}) {} c g → AllocationSound Conf.small c g := by
  intro hclaim
  have hplay : (Machine.play (allocationView Conf.small) (fun _ _ _ => true)
      ((allocation Conf.small).idle {}) {} (enrollTwo "pc")).any
        (fun last => twoNames last.1.shared == some ("pc", "pc")) = true := by
    decide
  have hrun : ∃ c g, Machine.Reach (allocationView Conf.small) Machine.free
      ((allocation Conf.small).idle {}) {} c g ∧
        (twoNames c.shared == some ("pc", "pc")) = true :=
    Machine.reach_of_play (fun _ _ _ _ => trivial) hplay
  obtain ⟨c, g, hreach, htwo⟩ := hrun
  rw [beq_iff_eq] at htwo
  unfold twoNames at htwo
  split at htwo
  · rename_i first second hfirst hsecond
    split at htwo
    · rename_i howners
      simp only [Option.some.injEq, Prod.mk.injEq] at htwo
      have hsame := (hclaim c g hreach).allocated.named hfirst hsecond
        (howners.1.trans howners.2.symm) (htwo.1.trans htwo.2.symm)
      exact absurd hsame (by decide)
    · cases htwo
  · cases htwo

theorem allocations_sound_apart :
    ∃ c g, Machine.Reach (allocationView Conf.small) (Machine.passes (unraced Conf.small))
        ((allocation Conf.small).idle {}) {} c g ∧
      twoNames c.shared = some ("pc", "phone") ∧ AllocationSound Conf.small c g := by
  have hplay : (Machine.play (allocationView Conf.small) (unraced Conf.small)
      ((allocation Conf.small).idle {}) {} (enrollTwo "phone")).any
        (fun last => twoNames last.1.shared == some ("pc", "phone")) = true := by
    decide
  have hrun : ∃ c g, Machine.Reach (allocationView Conf.small)
      (Machine.passes (unraced Conf.small)) ((allocation Conf.small).idle {}) {} c g ∧
        (twoNames c.shared == some ("pc", "phone")) = true :=
    Machine.reach_of_play (fun _ _ _ htest => htest) hplay
  obtain ⟨c, g, hreach, htwo⟩ := hrun
  have hstart : ({} : AppState).db.Allocated Conf.small :=
    ⟨fun _ => Nat.zero_le _, nofun, nofun, nofun⟩
  exact ⟨c, g, hreach, beq_iff_eq.mp htwo, allocations_sound Conf.small hstart hreach⟩

end UnityLan.Coordinator
