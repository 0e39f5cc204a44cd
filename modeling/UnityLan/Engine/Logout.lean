import UnityLan.Coordinator.Footprint
import UnityLan.Engine.Lifecycle
import UnityLan.Foundation.Eval

namespace UnityLan.Engine

open UnityLan.Foundation Prog UnityLan.Coordinator

/-! What the coordinator makes of the un-enroll request of a logout. -/

variable (conf : Conf)

def sound : (o : Op) → Unit → AppState → Option (o.Res × AppState) :=
  fun o _ st => AppState.exec conf 0 o .go st

/-- The request removes the device and no other. -/
def UnEnrolls (req : ManageReq) (st : AppState) (pubkey : PubKey) : Prop :=
  ∀ result st', Eval (sound conf) (manage req) st result st' →
    ∀ key, st'.db.devices.get? key = if key = pubkey then none else st.db.devices.get? key

/-- Whatever fails on the way, the request removes no other device. -/
def SparesOthers (req : ManageReq) (st : AppState) (pubkey : PubKey) : Prop :=
  ∀ result st', Eval (AppState.exec conf 0) (manage req) st result st' →
    ∀ key, key ≠ pubkey → st'.db.devices.get? key = st.db.devices.get? key

/-- The device bears the name, and no other device of its owner does. -/
structure NamedAs (db : Database) (user : UserId) (pubkey : PubKey) (name : String) : Prop where
  bears : ∃ row, db.devices.get? pubkey = some row ∧ row.userId = user ∧ row.deviceName = name
  alone : ∀ key row, db.devices.get? key = some row → row.userId = user →
    row.deviceName = name → key = pubkey

def devicesNamed (db : Database) (user : UserId) : List (PubKey × String) :=
  (db.devicesOf user).map fun row => (row.1, row.2.deviceName)

section

variable {conf} {db db' : Database} {user : UserId} {pubkey key : PubKey} {name : String}
  {st st' : AppState} {α : Type}

theorem mem_devicesNamed :
    (key, name) ∈ devicesNamed db user ↔
      ∃ row, db.devices.get? key = some row ∧ row.userId = user ∧ row.deviceName = name := by
  unfold devicesNamed Database.devicesOf
  rw [List.mem_map]
  constructor
  · rintro ⟨row, hrow, heq⟩
    obtain ⟨rfl, rfl⟩ := Prod.mk.inj heq
    obtain ⟨hmem, huser⟩ := List.mem_filter.mp hrow
    exact ⟨row.2, Table.mem_rows.mp hmem, beq_iff_eq.mp huser, rfl⟩
  · rintro ⟨row, hrow, huser, rfl⟩
    refine ⟨(key, row), List.mem_filter.mpr ⟨Table.mem_rows.mpr hrow, ?_⟩, rfl⟩
    exact beq_iff_eq.mpr huser

theorem nodup_devicesNamed (db : Database) (user : UserId) :
    ((devicesNamed db user).map Prod.fst).Nodup := by
  unfold devicesNamed
  rw [List.map_map]
  exact db.devices.table.keysNodup.sublist (List.filter_sublist.map _)

theorem matchDeviceByName_one {devices : List (PubKey × String)}
    (hnodup : (devices.map Prod.fst).Nodup) :
    matchDeviceByName devices name = .one pubkey ↔
      (pubkey, name) ∈ devices ∧ ∀ key, (key, name) ∈ devices → key = pubkey := by
  have hmem : ∀ key, (key, name) ∈ devices ↔
      (key, name) ∈ devices.filter fun device => device.2 == name := by
    intro key
    simp [List.mem_filter]
  simp only [hmem]
  unfold matchDeviceByName
  have hnamed : ∀ device ∈ devices.filter fun device => device.2 == name, device.2 = name :=
    fun device hdevice => by simpa using (List.mem_filter.mp hdevice).2
  have hkeys : ((devices.filter fun device => device.2 == name).map Prod.fst).Nodup :=
    hnodup.sublist (List.filter_sublist.map _)
  generalize devices.filter (fun device => device.2 == name) = found at hnamed hkeys
  match found with
  | [] => simp
  | [(first, other)] =>
      obtain rfl : other = name := hnamed _ List.mem_cons_self
      constructor
      · intro hone
        cases hone
        simp
      · rintro ⟨hfirst, _⟩
        have hsame : pubkey = first := by simpa using hfirst
        rw [hsame]
  | (first, other) :: (second, another) :: rest =>
      obtain rfl : other = name := hnamed (first, other) (by simp)
      obtain rfl : another = other := hnamed (second, another) (by simp)
      constructor
      · intro hmany
        cases hmany
      · rintro ⟨_, hall⟩
        have hfirst := hall first (by simp)
        have hsecond := hall second (by simp)
        simp [hfirst, hsecond] at hkeys

theorem matched_iff : matchDeviceByName (devicesNamed db user) name = .one pubkey ↔
    NamedAs db user pubkey name := by
  rw [matchDeviceByName_one (nodup_devicesNamed db user), mem_devicesNamed]
  constructor
  · rintro ⟨hbears, halone⟩
    exact ⟨hbears, fun key row hrow huser hname =>
      halone key (mem_devicesNamed.mpr ⟨row, hrow, huser, hname⟩)⟩
  · rintro ⟨hbears, halone⟩
    refine ⟨hbears, fun key hmem => ?_⟩
    obtain ⟨row, hrow, huser, hname⟩ := mem_devicesNamed.mp hmem
    exact halone key row hrow huser hname

/-! The request, statement by statement. -/

def RemovingOp (user : UserId) (pubkey : PubKey) : Op → Prop
  | .store q => RemovalQuery user pubkey q
  | .presence _ => True
  | .versions _ => True
  | _ => False

theorem bumpAll_removing (scopes : List Scope) :
    (bumpAll scopes : Handler Unit).Uses (RemovingOp user pubkey) := by
  have heach : ∀ scopes, (bumpAll.bumpEach scopes : Handler Unit).Uses
      (RemovingOp user pubkey) := by
    intro scopes
    induction scopes with
    | nil => trivial
    | cons scope rest ih => exact ⟨trivial, fun _ => ih⟩
  unfold bumpAll
  split
  · trivial
  · exact (heach scopes).bind fun _ => ⟨trivial, fun _ => trivial⟩

theorem removing_of_store (pubkey : PubKey) :
    ∀ o, StoreOp (RemovalQuery user pubkey) o → RemovingOp user pubkey o :=
  StoreOp.mono fun _ hq => hq

theorem removeDevice_removing :
    ((Store.removeDevice user pubkey).mapError internal).Uses (RemovingOp user pubkey) :=
  ((removeDevice_uses user pubkey).mono (removing_of_store pubkey)).mapError _

theorem evictFrom_removing (networks : List (GuildId × RoleId)) :
    (evictFrom pubkey networks []).Uses (RemovingOp user pubkey) := by
  refine (evictFrom_uses pubkey networks []).mono fun o h => ?_
  unfold EvictOp at h
  split at h
  · trivial
  · exact h.elim

theorem sql_removing {q : Query} (hq : RemovalQuery user pubkey q) :
    ((sql q).mapError internal).Uses (RemovingOp user pubkey) :=
  ((uses_sql q).mpr hq).mapError _

theorem farewell_removing (message : String) (selfPubkey : PubKey) :
    (do
      let networks ← act (.presence (.networksOf pubkey))
      let changed ← evictFrom pubkey networks []
      let removed ← act (.presence (.evictSelf user pubkey))
      bumpAll (if removed then (Scope.user user).insertInto changed else changed)
      let message ← pure message
      let primary ← (sql (.primaryPubkey user)).mapError internal
      let devices ← (sql (.userDevices user)).mapError internal
      return ⟨message, devices.map fun device =>
        ⟨device.2, primary == some device.1, device.1 == selfPubkey⟩⟩ : Handler ManageResp).Uses
      (RemovingOp user pubkey) := by
  refine ⟨trivial, fun networks => ?_⟩
  refine (evictFrom_removing networks).bind fun changed => ⟨trivial, fun removed => ?_⟩
  refine (bumpAll_removing _).bind fun _ => ?_
  refine (sql_removing (q := .primaryPubkey user) rfl).bind fun primary => ?_
  exact (sql_removing (q := .userDevices user) rfl).bind fun devices => trivial

theorem removing_rows {o : Op} {answer : o.Res} {choice : Choice}
    (hinside : RemovingOp user pubkey o)
    (hexec : AppState.exec conf 0 o choice st = some (answer, st')) :
    (key ≠ pubkey → st'.db.devices.get? key = st.db.devices.get? key) ∧
      (st.db.devices.get? pubkey = none → st'.db.devices.get? pubkey = none) := by
  by_cases hstore : ∃ q, o = .store q
  · obtain ⟨q, rfl⟩ := hstore
    have hstep := AppState.exec_store hexec
    cases answer with
    | error error =>
        rw [Database.step_error hstep]
        exact ⟨fun _ => rfl, id⟩
    | ok answer =>
        have hrun := (Database.step_ok hstep).2
        cases q
        case deleteDevice target owner =>
          obtain ⟨rfl, rfl⟩ := hinside
          simp only [Database.run, Except.ok.injEq, Prod.mk.injEq, true_and] at hrun
          rw [← hrun]
          constructor
          · intro hkey
            cases hrow : st.db.devices.get? key <;> simp [hrow, hkey, Option.filter]
          · intro hnone
            simp [hnone]
        all_goals first
          | exact hinside.elim
          | (simp only [Database.run, Except.ok.injEq, Prod.mk.injEq, true_and] at hrun
             first
               | (rw [← hrun]; exact ⟨fun _ => rfl, id⟩)
               | (rw [← hrun.2]; exact ⟨fun _ => rfl, id⟩))
  · rw [(AppState.exec_frame hexec).db fun q hq => hstore ⟨q, hq⟩]
    exact ⟨fun _ => rfl, id⟩

end

/-! Evaluations in which some of the faults of the database can happen. -/

section

variable {conf} {χ : Type} {exec : (o : Op) → χ → AppState → Option (o.Res × AppState)}
  {user : UserId} {pubkey key : PubKey} {name token : String} {st st' st'' : AppState} {α : Type}

def Plausible (conf : Conf) (exec : (o : Op) → χ → AppState → Option (o.Res × AppState)) : Prop :=
  ∀ o choice st after, exec o choice st = some after →
    ∃ choice', AppState.exec conf 0 o choice' st = some after

theorem plausible_sound : Plausible conf (sound conf) :=
  fun _ _ _ _ hexec => ⟨.go, hexec⟩

theorem plausible_exec : Plausible conf (AppState.exec conf 0) :=
  fun _ choice _ _ hexec => ⟨choice, hexec⟩

variable (hpossible : Plausible conf exec)

include hpossible

theorem eval_sql {q : Query} {result : Except StoreError q.Res}
    (heval : Eval exec (sql q) st result st') :
    (∃ answer, result = .ok answer ∧ st.db.run q = .ok (answer, st'.db)) ∨
      st'.db = st.db ∧ ∃ error, result = .error error := by
  cases heval with
  | @op _ _ _ found _ _ _ _ hexecuted hanswer =>
      obtain ⟨choice', hexec⟩ := hpossible _ _ _ _ hexecuted
      have hstep := AppState.exec_store hexec
      cases found with
      | error error =>
          cases hanswer
          exact .inr ⟨Database.step_error hstep, error, rfl⟩
      | ok found =>
          cases hanswer
          exact .inl ⟨found, rfl, (Database.step_ok hstep).2⟩

theorem eval_sql_internal {q : Query} {result : Except ApiError q.Res}
    (heval : Eval exec ((sql q).mapError internal) st result st') :
    (∃ answer, result = .ok answer ∧ st.db.run q = .ok (answer, st'.db)) ∨
      st'.db = st.db ∧ ∃ error, result = .error error := by
  obtain ⟨inner, hinner, rfl⟩ := eval_mapError heval
  rcases eval_sql hpossible hinner with ⟨answer, rfl, hrun⟩ | ⟨hdb, error, rfl⟩
  · exact .inl ⟨answer, rfl, hrun⟩
  · exact .inr ⟨hdb, internal error, rfl⟩

theorem findDevice_eval {result : Except ApiError PubKey}
    (heval : Eval exec (findDevice user name) st result st') :
    st'.db = st.db ∧ ∀ found, result = .ok found →
      matchDeviceByName (devicesNamed st.db user) (sanitizeLabel name) = .one found := by
  unfold findDevice at heval
  rcases eval_bind heval with ⟨devices, st₁, hfirst, hrest⟩ | ⟨error, hfirst, rfl⟩
  · rcases eval_sql_internal hpossible hfirst with ⟨answer, hok, hrun⟩ | ⟨_, error, hfailed⟩
    · cases hok
      simp only [Database.run, Except.ok.injEq, Prod.mk.injEq] at hrun
      obtain ⟨rfl, hdb⟩ := hrun
      split at hrest
      · rename_i found hmatch
        cases hrest
        refine ⟨hdb.symm, fun other hother => ?_⟩
        cases hother
        exact hmatch
      · cases hrest
        exact ⟨hdb.symm, fun other hother => by cases hother⟩
      · cases hrest
        exact ⟨hdb.symm, fun other hother => by cases hother⟩
    · cases hfailed
  · rcases eval_sql_internal hpossible hfirst with ⟨answer, hok, _⟩ | ⟨hdb, _⟩
    · cases hok
    · exact ⟨hdb, fun other hother => by cases hother⟩

theorem removing_eval (user : UserId) (pubkey key : PubKey) {ε : Type} {program : Prog sig ε α}
    {result : Except ε α}
    (hprogram : program.Uses (RemovingOp user pubkey))
    (heval : Eval exec program st result st') :
    (key ≠ pubkey → st'.db.devices.get? key = st.db.devices.get? key) ∧
      (st.db.devices.get? pubkey = none → st'.db.devices.get? pubkey = none) := by
  refine hprogram.eval
    (fun st st' => (key ≠ pubkey → st'.db.devices.get? key = st.db.devices.get? key) ∧
      (st.db.devices.get? pubkey = none → st'.db.devices.get? pubkey = none))
    (fun _ => ⟨fun _ => rfl, id⟩) ?_ ?_ heval
  · rintro _ _ _ ⟨hfirst, hgone⟩ ⟨hsecond, hgone'⟩
    exact ⟨fun hkey => (hsecond hkey).trans (hfirst hkey), fun hnone => hgone' (hgone hnone)⟩
  · intro o choice answer s s' hinside hexecuted
    obtain ⟨choice', hexec⟩ := hpossible _ _ _ _ hexecuted
    exact removing_rows hinside hexec

/-- What an un-enroll request does to the rows: it keeps each but that of the device its
name resolves to. -/
theorem manage_keeps {selfPubkey : PubKey} {result : Except ApiError ManageResp}
    (hspeaks : st.db.run (.deviceByToken token) = .ok (some (user, selfPubkey), st.db))
    (heval : Eval exec (manage ⟨token, .remove name⟩) st result st')
    (hother : matchDeviceByName (devicesNamed st.db user) (sanitizeLabel name) ≠ .one key) :
    st'.db.devices.get? key = st.db.devices.get? key := by
  unfold manage at heval
  rcases eval_bind heval with ⟨who, st₁, hfirst, hrest⟩ | ⟨error, hfirst, -⟩
  · rcases eval_sql_internal hpossible hfirst with ⟨answer, hok, hrun⟩ | ⟨_, error, hfailed⟩
    · cases hok
      rw [hspeaks] at hrun
      simp only [Except.ok.injEq, Prod.mk.injEq] at hrun
      obtain ⟨rfl, hdb⟩ := hrun
      rw [hdb] at hother ⊢
      simp only [manageOp, removeOp, bind_assoc] at hrest
      rcases eval_bind hrest with ⟨found, st₂, hfind, hremove⟩ | ⟨error, hfind, -⟩
      · obtain ⟨hfound, hmatch⟩ := findDevice_eval hpossible hfind
        rw [← hfound]
        refine (removing_eval hpossible user found key ?_ hremove).1 ?_
        · exact removeDevice_removing.bind fun _ => farewell_removing _ selfPubkey
        · rintro rfl
          exact hother (hmatch _ rfl)
      · rw [(findDevice_eval hpossible hfind).1]
    · cases hfailed
  · rcases eval_sql_internal hpossible hfirst with ⟨answer, hok, _⟩ | ⟨hdb, _⟩
    · cases hok
    · rw [hdb]

end

/-! A database that fails no statement. -/

section

variable {conf} {user : UserId} {pubkey : PubKey} {name token : String} {st st' : AppState}
  {α : Type}

theorem sound_sql {q : Query} {answer : q.Res} {db : Database} {ε : Type} {f : StoreError → ε}
    {g : q.Res → Prog sig ε α} {result : Except ε α} (hrun : st.db.run q = .ok (answer, db))
    (heval : Eval (sound conf) ((sql q).mapError f >>= g) st result st') :
    Eval (sound conf) (g answer) { st with db := db } result st' := by
  cases heval with
  | op hexecuted hrest =>
      have hstep : st.db.step q none = (.ok answer, db) := by
        unfold Database.step
        rw [hrun]
      simp only [sound, AppState.exec, Choice.why, hstep, Option.some.injEq,
        Prod.mk.injEq] at hexecuted
      obtain ⟨rfl, rfl⟩ := hexecuted
      exact hrest

theorem removeDevice_sound {g : Unit → Handler α} {result : Except ApiError α}
    (howner : ∀ row, st.db.devices.get? pubkey = some row → row.userId = user)
    (hrest : ∀ answer, (g answer).Uses (RemovingOp user pubkey))
    (heval : Eval (sound conf) ((Store.removeDevice user pubkey).mapError internal >>= g)
      st result st') : st'.db.devices.get? pubkey = none := by
  have huses := removeDevice_removing.bind hrest
  cases heval with
  | @op _ _ _ answer _ s _ _ hexecuted hafter =>
      apply (removing_eval plausible_sound user pubkey pubkey (huses.2 answer) hafter).2
      have hstep := AppState.exec_store hexecuted
      have hdb : s.db = { st.db with
          devices := st.db.devices.retain fun key row =>
            !(key == pubkey && row.userId == user) } := by
        simp only [Database.step, Choice.why, Database.run, Prod.mk.injEq] at hstep
        exact hstep.2.symm
      rw [hdb]
      cases hrow : st.db.devices.get? pubkey with
      | none => simp [hrow]
      | some row => simp [hrow, howner row hrow, Option.filter]

theorem manage_removes {selfPubkey : PubKey} {result : Except ApiError ManageResp}
    (hspeaks : st.db.run (.deviceByToken token) = .ok (some (user, selfPubkey), st.db))
    (heval : Eval (sound conf) (manage ⟨token, .remove name⟩) st result st')
    (hmatch : matchDeviceByName (devicesNamed st.db user) (sanitizeLabel name) = .one pubkey) :
    st'.db.devices.get? pubkey = none := by
  unfold manage at heval
  have hremove := sound_sql hspeaks heval
  simp only [manageOp, removeOp, findDevice, bind_assoc] at hremove
  have hfound := sound_sql (q := .userDevices user) rfl hremove
  have hnamed := hmatch
  unfold devicesNamed at hmatch
  simp only [hmatch] at hfound
  refine removeDevice_sound ?_ (fun _ => farewell_removing _ selfPubkey) hfound
  intro row hrow
  obtain ⟨found, hbears, huser, _⟩ := (matched_iff.mp hnamed).bears
  rw [hbears, Option.some.injEq] at hrow
  rw [← hrow, huser]

end

/-! The request ends. -/

def Answered : Op → Prop
  | .store _ => True
  | .presence _ => True
  | .versions _ => True
  | _ => False

section

variable {conf} {user : UserId} {pubkey : PubKey} {name token : String} {st : AppState}

theorem sound_answers (o : Op) (st : AppState) (ho : Answered o) :
    ∃ choice answer st', sound conf o choice st = some (answer, st') := by
  unfold Answered at ho
  split at ho
  · exact ⟨(), _, _, rfl⟩
  · exact ⟨(), _, _, rfl⟩
  · exact ⟨(), _, _, rfl⟩
  · exact ho.elim

theorem removing_answered (user : UserId) (pubkey : PubKey) :
    ∀ o, RemovingOp user pubkey o → Answered o := by
  intro o ho
  unfold RemovingOp at ho
  split at ho
  · trivial
  · trivial
  · trivial
  · exact ho.elim

theorem manage_answered (token name : String) :
    (manage ⟨token, .remove name⟩).Uses Answered := by
  have hsql : ∀ q : Query, ((sql q).mapError internal).Uses Answered := by
    intro q
    exact ((uses_sql q).mpr trivial).mapError _
  unfold manage
  refine (hsql (.deviceByToken token)).bind fun found => ?_
  cases found with
  | none => trivial
  | some who =>
      simp only [manageOp, removeOp, findDevice, bind_assoc]
      refine (hsql (.userDevices who.1)).bind fun devices => ?_
      split
      · rename_i target _
        refine Uses.mono (removing_answered who.1 target) ?_
        exact removeDevice_removing.bind fun _ => farewell_removing _ who.2
      · trivial
      · trivial

end

theorem speaks_row {db : Database} {user : UserId} {pubkey : PubKey} {token : String}
    (hspeaks : db.run (.deviceByToken token) = .ok (some (user, pubkey), db)) :
    ∃ row, db.devices.get? pubkey = some row := by
  simp only [Database.run, Except.ok.injEq, Prod.mk.injEq, and_true,
    Option.map_eq_some_iff] at hspeaks
  obtain ⟨found, hfind, huser, rfl⟩ := hspeaks
  exact ⟨found.2, Table.mem_rows.mp (List.mem_of_find?_eq_some hfind)⟩

/-- The un-enroll request of a logout removes the device it is sent by, and no sibling, if
and only if the stored name of that device is the configured one and no sibling bears it. -/
theorem logout_unenrolls_itself (conf : Conf) (cfg : Config) {d : Daemon} {st : AppState}
    {token : String} {user : UserId} (htoken : d.token = some token)
    (hspeaks : st.db.run (.deviceByToken token) = .ok (some (user, d.pubkey), st.db)) :
    ((∀ req, d.removal cfg = some req → UnEnrolls conf req st d.pubkey) ↔
        NamedAs st.db user d.pubkey (sanitizeLabel cfg.device_name)) ∧
      (NamedAs st.db user d.pubkey (sanitizeLabel cfg.device_name) →
        ∀ req, d.removal cfg = some req → SparesOthers conf req st d.pubkey) := by
  have hremoval : d.removal cfg = some ⟨token, .remove cfg.device_name⟩ := by
    unfold Daemon.removal
    rw [htoken]
    rfl
  obtain ⟨row, hrow⟩ := speaks_row hspeaks
  simp only [hremoval, Option.some.injEq, forall_eq']
  rw [← matched_iff]
  refine ⟨⟨fun hremoves => ?_, fun hmatch => ?_⟩, fun hmatch => ?_⟩
  · obtain ⟨result, st', heval⟩ :=
      (manage_answered token cfg.device_name).evaluates sound_answers st
    have hgone := hremoves result st' heval d.pubkey
    rw [if_pos rfl] at hgone
    by_contra hother
    rw [manage_keeps plausible_sound hspeaks heval hother, hrow] at hgone
    cases hgone
  · intro result st' heval key
    split
    · rename_i hkey
      subst hkey
      exact manage_removes hspeaks heval hmatch
    · rename_i hkey
      apply manage_keeps plausible_sound hspeaks heval
      rw [hmatch]
      simpa using Ne.symm hkey
  · intro result st' heval key hkey
    apply manage_keeps plausible_exec hspeaks heval
    rw [hmatch]
    simpa using Ne.symm hkey

/-- An owner with two devices, the first of which took the name they both asked for. -/
def twoLaptops : AppState :=
  { db :=
      { devices :=
          { table :=
              { rows :=
                  [(1, { idx := 3, userId := 5, deviceName := "laptop", token := some "s" }),
                    (2, { idx := 4, userId := 5, deviceName := "laptop-2", token := some "t" })]
                keysNodup := by decide }
            indexNodup := by decide } } }

/-- The daemon of one of them, meshed. -/
def laptopDaemon (pubkey : PubKey) (token : String) : Daemon :=
  { phase := .meshed, wgKey := some pubkey, tokenFile := some token, pubkey := pubkey
    token := some token }

theorem logout_unenrolls_first :
    UnEnrolls Conf.small ⟨"s", .remove "laptop"⟩ twoLaptops 1 := by
  have hspeaks : twoLaptops.db.run (.deviceByToken "s") = .ok (some (5, 1), twoLaptops.db) := rfl
  refine (logout_unenrolls_itself Conf.small { deviceName := some "laptop" }
    (d := laptopDaemon 1 "s") rfl hspeaks).1.mpr ⟨⟨_, rfl, rfl, by decide⟩, ?_⟩ _ rfl
  intro key row hrow _ hname
  have hmem : (key, row) ∈ twoLaptops.db.devices.table.rows := Table.mem_rows.mpr hrow
  have hlaptop : sanitizeLabel "laptop" = "laptop" := by decide
  simp only [twoLaptops, List.mem_cons, List.not_mem_nil, or_false, Prod.mk.injEq] at hmem
  rcases hmem with ⟨rfl, _⟩ | ⟨_, rfl⟩
  · rfl
  · exact absurd (hname.trans hlaptop) (by decide)

/-- The other device asks for the name it was configured with, and removes its sibling. -/
theorem logout_removes_sibling :
    ∃ req, (laptopDaemon 2 "t").removal { deviceName := some "laptop" } = some req ∧
      ¬ UnEnrolls Conf.small req twoLaptops 2 := by
  refine ⟨⟨"t", .remove "laptop"⟩, rfl, fun hclaim => ?_⟩
  have hplay : (((manage ⟨"t", .remove "laptop"⟩).play (sound Conf.small)
      (List.replicate 20 ()) twoLaptops).any fun last =>
        (last.2.db.devices.get? 1).isNone && (last.2.db.devices.get? 2).isSome) = true := by
    decide
  obtain ⟨⟨result, st'⟩, hlast, hrows⟩ := (Option.any_eq_true _ _).mp hplay
  rw [Bool.and_eq_true] at hrows
  have hown := hclaim result st' (eval_of_play hlast) 2
  rw [if_pos rfl] at hown
  rw [hown] at hrows
  cases hrows.2

end UnityLan.Engine
