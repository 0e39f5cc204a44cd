import UnityLan.Coordinator.Devices
import UnityLan.Coordinator.Services
import UnityLan.Coordinator.Suffixes

namespace UnityLan.Coordinator

open UnityLan.Foundation Prog

/-! The names of an owner's devices, and finding a device by its name. -/

theorem freeName_isSome (taken : List String) (desired : String) :
    ∃ name, freeName taken desired = some name := by
  unfold freeName
  split
  · exact ⟨desired, rfl⟩
  · cases hfound : (List.range' 2 (taken.length + 1)).find? fun n =>
        suffixedLabel desired n ∉ taken with
    | some n => exact ⟨_, rfl⟩
    | none =>
        have hall : (List.range' 2 (taken.length + 1)).map (suffixedLabel desired) ⊆ taken := by
          intro name hname
          obtain ⟨n, hn, rfl⟩ := List.mem_map.mp hname
          simpa using List.find?_eq_none.mp hfound n hn
        have hnodup : ((List.range' 2 (taken.length + 1)).map (suffixedLabel desired)).Nodup :=
          List.Nodup.map (fun _ _ => suffixedLabel_injective) List.nodup_range'
        have hlength := (List.subperm_of_subset hnodup hall).length_le
        rw [List.length_map, List.length_range'] at hlength
        omega

/-- The numbers before `n` are all in the way of the name, so that `n` is tried. -/
def tries (taken : List String) (desired : String) (n : Nat) : Bool :=
  (List.range' 2 (n - 2)).all fun m => taken.contains (suffixedLabel desired m)

def cutsWhole (taken : List String) (desired : String) : Bool :=
  sanitizeLabel desired == desired &&
    (!taken.contains desired || (List.range' 2 (taken.length + 1)).all fun n =>
      !tries taken desired n || (stem desired n).getLast? != some '-')

theorem freeName_madeOfWords {taken : List String} {desired name : String}
    (hwhole : cutsWhole taken desired = true) (hfew : taken.length ≤ MAX_DEVICES_PER_USER)
    (hname : freeName taken desired = some name) : MadeOfWords name := by
  simp only [cutsWhole, Bool.and_eq_true, beq_iff_eq] at hwhole
  obtain ⟨hown, hcut⟩ := hwhole
  have hwords := madeOfWords_of_own hown
  unfold freeName at hname
  split at hname
  · cases hname
    exact hwords
  · rename_i htaken
    obtain ⟨n, hfound, rfl⟩ := Option.map_eq_some_iff.mp hname
    obtain ⟨-, hrange, hbefore⟩ := List.find?_range'_eq_some.mp hfound
    rw [Classical.not_not, ← List.contains_iff_mem] at htaken
    rw [htaken, Bool.not_true, Bool.false_or] at hcut
    have htries : tries taken desired n = true := by
      apply List.all_eq_true.mpr
      intro m hm
      have hbelow := hbefore m
      simp only [List.mem_range'_1] at hm
      simpa [Nat.not_lt.mpr hm.1] using hbelow hm.1 (by omega)
    have hwhole := List.all_eq_true.mp hcut n hrange
    rw [htries, Bool.not_true, Bool.false_or] at hwhole
    refine hwords.suffixed ?_ (bne_iff_ne.mp hwhole)
    have hbelow : n < 10 ^ 2 := by
      have hlast := (List.mem_range'_1.mp hrange).2
      have hcap : MAX_DEVICES_PER_USER = 32 := rfl
      omega
    have hdigits := digits_length (by decide) hbelow
    have hlabel : MAX_LABEL_LEN = 63 := rfl
    omega

/-! What the calls keep of the names. -/

namespace Database

structure Nameable (db : Database) : Prop where
  words : ∀ key row, db.devices.get? key = some row → MadeOfWords row.deviceName
  unique : NamesUnique db.devices.get?
  few : ∀ user, (db.devicesOf user).length ≤ MAX_DEVICES_PER_USER

variable {db db' : Database}

theorem Nameable.shrink (hnameable : db.Nameable)
    (hshrinks : ∀ {key row'}, db'.devices.get? key = some row' → ∃ row,
      db.devices.get? key = some row ∧ row.userId = row'.userId ∧
        row.deviceName = row'.deviceName) : db'.Nameable := by
  constructor
  · intro key row' hrow'
    obtain ⟨row, hrow, -, hname⟩ := hshrinks hrow'
    exact hname ▸ hnameable.words key row hrow
  · intro key key' row row' hrow hrow' huser hname
    obtain ⟨old, hold, holdUser, holdName⟩ := hshrinks hrow
    obtain ⟨old', hold', holdUser', holdName'⟩ := hshrinks hrow'
    refine hnameable.unique key key' old old' hold hold' ?_ ?_
    · rw [holdUser, holdUser', huser]
    · rw [holdName, holdName', hname]
  · intro user
    have hlength : (db'.devicesOf user).length ≤ 0 + (db.devicesOf user).length := by
      refine devicesOf_length_le (fun key row' hrow' huser' => ?_ : ∀ _ _, _ → _ → _ ∈ [] ∨ _)
      obtain ⟨row, hrow, huser, -⟩ := hshrinks hrow'
      exact .inr ⟨row, hrow, huser.trans huser'⟩
    have hfew := hnameable.few user
    omega

theorem Nameable.set {key : PubKey} {row : DeviceRow} (hnameable : db.Nameable)
    (hset : ∀ other, db'.devices.get? other = if other = key then some row
      else db.devices.get? other)
    (hwords : MadeOfWords row.deviceName)
    (hfree : ∀ other held, other ≠ key → db.devices.get? other = some held →
      held.userId = row.userId → held.deviceName ≠ row.deviceName)
    (hroom : (∃ held, db.devices.get? key = some held ∧ held.userId = row.userId) ∨
      (db.devicesOf row.userId).length < MAX_DEVICES_PER_USER) : db'.Nameable := by
  refine ⟨fun other held hheld => ?_, hnameable.unique.set hset hfree, fun user => ?_⟩
  · rw [hset] at hheld
    split at hheld
    · cases hheld
      exact hwords
    · exact hnameable.words other held hheld
  · have hfew := hnameable.few user
    have hkept : ∀ other held, other ≠ key → db'.devices.get? other = some held →
        held.userId = user → ∃ held, db.devices.get? other = some held ∧ held.userId = user := by
      intro other held hother hheld huser
      rw [hset, if_neg hother] at hheld
      exact ⟨held, hheld, huser⟩
    by_cases hold : row.userId = user → ∃ held, db.devices.get? key = some held ∧
        held.userId = row.userId
    · have hlength : (db'.devicesOf user).length ≤ 0 + (db.devicesOf user).length := by
        refine devicesOf_length_le
          (fun other held hheld huser => .inr ?_ : ∀ _ _, _ → _ → _ ∈ [] ∨ _)
        by_cases hother : other = key
        · subst hother
          rw [hset, if_pos rfl] at hheld
          cases hheld
          obtain ⟨before, hbefore, howner⟩ := hold huser
          exact ⟨before, hbefore, howner.trans huser⟩
        · exact hkept other held hother hheld huser
      omega
    · obtain ⟨rfl, hnew⟩ := Classical.not_imp.mp hold
      have hbelow := hroom.resolve_left hnew
      have hlength : (db'.devicesOf row.userId).length ≤ 1 + (db.devicesOf row.userId).length := by
        refine devicesOf_length_le
          (fun other held hheld huser => ?_ : ∀ _ _, _ → _ → _ ∈ [key] ∨ _)
        by_cases hother : other = key
        · exact .inl (List.mem_singleton.mpr hother)
        · exact .inr (hkept other held hother hheld huser)
      omega

end Database

theorem namesOf_few {db : Database} (hnameable : db.Nameable) (user : UserId)
    (exclude : Option PubKey) : (namesOf db user exclude).length ≤ MAX_DEVICES_PER_USER := by
  refine Nat.le_trans ?_ (hnameable.few user)
  unfold namesOf Store.otherNames
  refine Nat.le_trans (List.dedup_sublist _).length_le ?_
  rw [List.length_map]
  refine Nat.le_trans (List.length_filter_le _ _) ?_
  rw [List.length_map]

variable (conf : Conf)

def LabelCall.sanitized : LabelCall → LabelCall
  | .allocateDevice pubkey user deviceName =>
      .allocateDevice pubkey user (sanitizeLabel deviceName)
  | .renameDevice user pubkey name => .renameDevice user pubkey (sanitizeLabel name)
  | call => call

/-- A name that is about to be stored stays whole. -/
def namesWhole (db : Database) : LabelCall → Bool
  | .allocateDevice pubkey user desired =>
      (db.devices.get? pubkey).isSome ||
        decide (MAX_DEVICES_PER_USER ≤ (db.devicesOf user).length) ||
        cutsWhole (namesOf db user none) desired
  | .renameDevice user pubkey desired =>
      (db.devices.get? pubkey).isNone || cutsWhole (namesOf db user (some pubkey)) desired
  | _ => true

/-- Calls one after the other, with any names, each admitted by a test of the store it finds. -/
inductive NameRun (admits : Database → LabelCall → Bool) (start : AppState) : AppState → Prop
  | start : NameRun admits start start
  | call {st st' : AppState} {call : LabelCall} {result : Except StoreError Unit}
      (run : NameRun admits start st) (admitted : admits st.db call.sanitized = true)
      (evaluated : Eval (AppState.exec conf 0) (runLabelCall conf call.sanitized) st result st') :
      NameRun admits start st'
  | move {st st' : AppState} {world : World} (run : NameRun admits start st)
      (moved : AppState.move world st = some st') : NameRun admits start st'

variable {conf}

theorem name_call_nameable {st st' : AppState} {call : LabelCall}
    {result : Except StoreError Unit} (hnameable : st.db.Nameable)
    (howned : owned st.db call = true) (hwhole : namesWhole st.db call = true)
    (heval : Eval (AppState.exec conf 0) (runLabelCall conf call) st result st') :
    st'.db.Nameable := by
  cases call with
  | allocateDevice pubkey user desired =>
      obtain ⟨result', hallocate⟩ := eval_discard heval
      rcases allocateDevice_eval hallocate with
        hsame | ⟨name, row, hnew, hroom, hname, rfl, rfl, hrun⟩
      · rw [hsame]
        exact hnameable
      · simp only [namesWhole, hnew, Option.isSome_none, Bool.false_or, Bool.or_eq_true,
          decide_eq_true_eq] at hwhole
        have hcut := hwhole.resolve_left (Nat.not_le.mpr hroom)
        have hwords := freeName_madeOfWords hcut (namesOf_few hnameable _ _) hname
        obtain ⟨-, hset⟩ := Database.run_insertDevice hrun
        refine hnameable.set hset hwords (fun other held _ hheld huser => ?_) (.inr hroom)
        exact not_mem_namesOf (freeName_free hname) (by simp) hheld huser
  | renameDevice user pubkey desired =>
      obtain ⟨result', hrename⟩ := eval_discard heval
      rcases renameDevice_eval hrename with hsame | ⟨name, hname, hrun⟩
      · rw [hsame]
        exact hnameable
      · simp only [Database.run, Except.ok.injEq, Prod.mk.injEq, true_and] at hrun
        rw [← hrun]
        cases hrow : st.db.devices.get? pubkey with
        | none =>
            refine hnameable.shrink fun {key row'} hget => ⟨row', ?_, rfl, rfl⟩
            simp only [UniqueTable.get?_adjust, hrow, Option.map_none] at hget
            split at hget
            · cases hget
            · exact hget
        | some row =>
            have huser : row.userId = user := by simpa [owned, hrow] using howned
            simp only [namesWhole, hrow, Option.isNone_some, Bool.false_or] at hwhole
            have hwords := freeName_madeOfWords hwhole (namesOf_few hnameable _ _) hname
            have hset : ∀ other, (st.db.devices.adjust pubkey
                (fun row => { row with deviceName := name }) fun _ => rfl).get? other =
                  if other = pubkey then some { row with deviceName := name }
                  else st.db.devices.get? other := by
              intro other
              rw [UniqueTable.get?_adjust, hrow, Option.map_some]
            refine hnameable.set hset hwords (fun other held hother hheld hsame => ?_)
              (.inl ⟨row, hrow, rfl⟩)
            · exact not_mem_namesOf (freeName_free hname) (by simpa using hother) hheld
                (hsame.trans huser)
  | setDeviceServices user pubkey labels =>
      rcases eval_sql_bind heval with ⟨sorted, st₁, hrun, heval⟩ | hfailed
      · cases heval
        refine hnameable.shrink fun {key row'} hget => ⟨row', ?_, rfl, rfl⟩
        rwa [(Database.run_frame hrun).devices fun habsurd => by cases habsurd] at hget
      · rw [hfailed]
        exact hnameable
  | removeDevice user pubkey =>
      exact hnameable.shrink
        (shrinks_of_namesNothing (removeDevice_namesNothing user pubkey) heval).devices
  | reclaimIdlePersonalDevices idleSecs =>
      obtain ⟨result', hreclaim⟩ := eval_discard heval
      exact hnameable.shrink
        (shrinks_of_namesNothing (reclaim_namesNothing idleSecs) hreclaim).devices

/-! What the calls answer. -/

section

variable {st st' : AppState} {α : Type}

theorem eval_sql_total {q : Query} {f : q.Res → Stored α} {result : Except StoreError α}
    (htotal : ∃ answer db', st.db.run q = .ok (answer, db'))
    (heval : Eval (AppState.exec conf 0) (sql q >>= f) st result st') :
    (∃ answer st₁, st.db.run q = .ok (answer, st₁.db) ∧
      Eval (AppState.exec conf 0) (f answer) st₁ result st') ∨
      (∃ why, result = .error (.database why)) ∧ st'.db = st.db := by
  rcases eval_bind heval with ⟨answer, st₁, hfirst, hrest⟩ | ⟨error, hfirst, hresult⟩
  · left
    cases hfirst with
    | @op _ _ _ found _ _ _ _ hexecuted hanswer =>
        cases found with
        | error error => cases hanswer
        | ok found =>
            cases hanswer
            exact ⟨answer, st₁, (Database.step_ok (AppState.exec_store hexecuted)).2, hrest⟩
  · right
    cases hfirst with
    | @op _ choice _ found _ _ _ _ hexecuted hanswer =>
        cases found with
        | ok found => cases hanswer
        | error error =>
            cases hanswer
            have hstep := AppState.exec_store hexecuted
            refine ⟨?_, Database.step_error hstep⟩
            obtain ⟨answer, db', hrun⟩ := htotal
            unfold Database.step at hstep
            rw [hrun] at hstep
            split at hstep
            · simp only [Prod.mk.injEq, Except.error.injEq] at hstep
              exact ⟨_, hstep.1 ▸ hresult⟩
            · cases hstep

theorem uniqueDeviceName_found {user : UserId} {desired : String} {exclude : Option PubKey}
    {result : Except StoreError String}
    (heval : Eval (AppState.exec conf 0) (Store.uniqueDeviceName user desired exclude)
      st result st') :
    (∃ name, result = .ok name ∧ name ∉ namesOf st.db user exclude) ∨
      ∃ why, result = .error (.database why) := by
  rw [uniqueDeviceName_eq] at heval
  rcases eval_sql_total ⟨_, _, rfl⟩ heval with ⟨devices, st₁, hrun, hrest⟩ | ⟨hfailed, -⟩
  · left
    simp only [Database.run, Except.ok.injEq, Prod.mk.injEq] at hrun
    obtain ⟨name, hname⟩ := freeName_isSome (Store.otherNames devices exclude) desired
    rw [hname] at hrest
    cases hrest
    refine ⟨name, rfl, ?_⟩
    rw [← hrun.1] at hname
    exact freeName_free hname
  · exact .inr hfailed

theorem matchDeviceByName_one {devices : List (PubKey × String)} {pubkey : PubKey} {name : String}
    (hnodup : (devices.map Prod.fst).Nodup) (hmem : (pubkey, name) ∈ devices)
    (halone : ∀ other, (other, name) ∈ devices → other = pubkey) :
    matchDeviceByName devices name = .one pubkey := by
  have hsame : ∀ device ∈ devices.filter (fun device => device.2 == name),
      device = (pubkey, name) := by
    intro device hdevice
    obtain ⟨hin, hname⟩ := List.mem_filter.mp hdevice
    have hname' := beq_iff_eq.mp hname
    exact Prod.ext (halone device.1 (hname' ▸ hin)) hname'
  have hfound : (pubkey, name) ∈ devices.filter (fun device => device.2 == name) :=
    List.mem_filter.mpr ⟨hmem, beq_self_eq_true name⟩
  have hkeys : ((devices.filter fun device => device.2 == name).map Prod.fst).Nodup :=
    hnodup.sublist (List.filter_sublist.map _)
  unfold matchDeviceByName
  match hfilter : devices.filter (fun device => device.2 == name) with
  | [] =>
      rw [hfilter] at hfound
      cases hfound
  | [(other, _)] =>
      rw [hfilter] at hsame ⊢
      exact congrArg DeviceMatch.one (Prod.mk.inj (hsame _ (List.mem_singleton_self _))).1
  | first :: second :: rest =>
      rw [hfilter] at hsame hkeys
      have hequal := (hsame first (by simp)).trans (hsame second (by simp)).symm
      rw [hequal] at hkeys
      simp at hkeys

theorem findDevice_found {pubkey : PubKey} {row : DeviceRow} {result : Except ApiError PubKey}
    (hnameable : st.db.Nameable) (hrow : st.db.devices.get? pubkey = some row)
    (heval : Eval (AppState.exec conf 0) (findDevice row.userId row.deviceName) st result st') :
    result = .ok pubkey ∨ ∃ why, result = .error (internal (.database why)) := by
  unfold findDevice at heval
  dsimp only at heval
  rw [(hnameable.words pubkey row hrow).own] at heval
  rcases eval_bind heval with ⟨devices, st₁, hfirst, hrest⟩ | ⟨error, hfirst, hresult⟩
  · left
    obtain ⟨inner, hinner, hmapped⟩ := eval_mapError hfirst
    rw [← bind_ret (sql _)] at hinner
    rcases eval_sql_total ⟨_, _, rfl⟩ hinner with ⟨answer, st₂, hrun, hret⟩ | ⟨⟨why, rfl⟩, -⟩
    · cases hret
      cases hmapped
      simp only [Database.run, Except.ok.injEq, Prod.mk.injEq] at hrun
      have hone : matchDeviceByName devices row.deviceName = .one pubkey := by
        rw [← hrun.1]
        refine matchDeviceByName_one ?_ ?_ ?_
        · rw [List.map_map]
          exact Database.nodup_devicesOf st.db row.userId
        · exact List.mem_map.mpr ⟨(pubkey, row), Database.mem_devicesOf.mpr ⟨hrow, rfl⟩, rfl⟩
        · intro other hother
          obtain ⟨⟨key, held⟩, hmem, hpair⟩ := List.mem_map.mp hother
          obtain ⟨hheld, huser⟩ := Database.mem_devicesOf.mp hmem
          obtain ⟨rfl, hname⟩ := Prod.mk.inj hpair
          exact hnameable.unique key pubkey held row hheld hrow huser hname
      rw [hone] at hrest
      cases hrest
      rfl
    · cases hmapped
  · right
    obtain ⟨inner, hinner, hmapped⟩ := eval_mapError hfirst
    rw [← bind_ret (sql _)] at hinner
    rcases eval_sql_total ⟨_, _, rfl⟩ hinner with ⟨answer, st₂, hrun, hret⟩ | ⟨⟨why, rfl⟩, -⟩
    · cases hret
      cases hmapped
    · cases hmapped
      exact ⟨why, hresult⟩

theorem renameDevice_same {pubkey : PubKey} {row : DeviceRow} {result : Except StoreError String}
    (hnameable : st.db.Nameable) (hrow : st.db.devices.get? pubkey = some row)
    (heval : Eval (AppState.exec conf 0)
      (Store.renameDevice row.userId pubkey (sanitizeLabel row.deviceName)) st result st') :
    st'.db = st.db ∧
      (result = .ok row.deviceName ∨ ∃ why, result = .error (.database why)) := by
  have hfree : row.deviceName ∉ namesOf st.db row.userId (some pubkey) := by
    intro hmem
    unfold namesOf Store.otherNames at hmem
    obtain ⟨⟨key, name⟩, hkey, hname⟩ := List.mem_map.mp (List.mem_dedup.mp hmem)
    obtain ⟨hdevice, hother⟩ := List.mem_filter.mp hkey
    obtain ⟨⟨_, held⟩, hheld, hpair⟩ := List.mem_map.mp hdevice
    obtain ⟨rfl, rfl⟩ := Prod.mk.inj hpair
    obtain ⟨hget, huser⟩ := Database.mem_devicesOf.mp hheld
    obtain rfl := hnameable.unique _ pubkey held row hget hrow huser hname
    simp at hother
  rw [(hnameable.words pubkey row hrow).own] at heval
  unfold Store.renameDevice at heval
  rw [uniqueDeviceName_eq, bind_assoc] at heval
  rcases eval_sql_total ⟨_, _, rfl⟩ heval with ⟨devices, st₁, hrun, heval⟩ | ⟨hfailed, hsame⟩
  · simp only [Database.run, Except.ok.injEq, Prod.mk.injEq] at hrun
    have hnames : Store.otherNames devices (some pubkey) =
        namesOf st.db row.userId (some pubkey) := by
      rw [← hrun.1]
      rfl
    rw [hnames, freeName, if_pos hfree, ret_bind] at heval
    rcases eval_sql_total ⟨_, _, rfl⟩ heval with ⟨done, st₂, hset, heval⟩ | ⟨hfailed, hsame⟩
    · cases heval
      rw [← hrun.2] at hset
      simp only [Database.run, Except.ok.injEq, Prod.mk.injEq, true_and] at hset
      refine ⟨?_, .inl rfl⟩
      rw [← hset, UniqueTable.adjust_eq_self hrow rfl]
    · exact ⟨hsame.trans hrun.2.symm, .inr hfailed⟩
  · exact ⟨hsame, .inr hfailed⟩

end

variable (conf)

/-- A label of the DNS that no other device of the owner has, by which the device is found, and
which it keeps when it is renamed to it. -/
structure FoundByName (st : AppState) (pubkey : PubKey) (row : DeviceRow) : Prop where
  label : IsDnsLabel row.deviceName
  alone : ∀ other held, st.db.devices.get? other = some held → held.userId = row.userId →
    held.deviceName = row.deviceName → other = pubkey
  found : ∀ result st', Eval (AppState.exec conf 0) (findDevice row.userId row.deviceName)
    st result st' → result = .ok pubkey ∨ ∃ why, result = .error (internal (.database why))
  kept : ∀ result st', Eval (AppState.exec conf 0)
    (Store.renameDevice row.userId pubkey (sanitizeLabel row.deviceName)) st result st' →
      st'.db = st.db ∧ (result = .ok row.deviceName ∨ ∃ why, result = .error (.database why))

/-- Any name that is asked for leads to a free one. -/
def SearchEnds (st : AppState) : Prop :=
  ∀ user desired exclude result st',
    Eval (AppState.exec conf 0) (Store.uniqueDeviceName user desired exclude) st result st' →
      (∃ name, result = .ok name ∧ name ∉ namesOf st.db user exclude) ∨
        ∃ why, result = .error (.database why)

/-- From a store without devices, after every sequence of calls of which none stores a name that
was cut after a dash, every device is found by its name. -/
theorem devices_found_by_name {start st : AppState}
    (hstart : ∀ pubkey, start.db.devices.get? pubkey = none)
    (hrun : NameRun conf (fun db call => owned db call && namesWhole db call) start st) :
    (∀ pubkey row, st.db.devices.get? pubkey = some row → FoundByName conf st pubkey row) ∧
      SearchEnds conf st := by
  have hnameable : st.db.Nameable := by
    induction hrun with
    | start =>
        refine ⟨fun key row hrow => ?_, fun key key' row row' hrow => ?_, fun user => ?_⟩
        · rw [hstart] at hrow
          cases hrow
        · rw [hstart] at hrow
          cases hrow
        · have hnone : start.db.devicesOf user = [] := by
            apply List.eq_nil_iff_forall_not_mem.mpr
            rintro ⟨key, row⟩ hrow
            rw [Database.mem_devicesOf, hstart] at hrow
            cases hrow.1
          rw [hnone]
          exact Nat.zero_le _
    | call _ admitted evaluated ih =>
        rw [Bool.and_eq_true] at admitted
        exact name_call_nameable ih admitted.1 admitted.2 evaluated
    | move _ moved ih =>
        rw [(AppState.move_untouched moved).db]
        exact ih
  refine ⟨fun pubkey row hrow => ?_, fun user desired exclude result st' => uniqueDeviceName_found⟩
  constructor
  · exact (hnameable.words pubkey row hrow).isDnsLabel
  · exact fun other held hheld huser hname =>
      hnameable.unique other pubkey held row hheld hrow huser hname
  · exact fun result st' => findDevice_found hnameable hrow
  · exact fun result st' => renameDevice_same hnameable hrow

def playNames (admits : Database → LabelCall → Bool) :
    List (LabelCall × List Choice) → AppState → Option AppState
  | [], st => some st
  | (call, choices) :: rest, st =>
      if admits st.db call.sanitized then
        match (runLabelCall conf call.sanitized).play (AppState.exec conf 0) choices st with
        | none => none
        | some (_, st') => playNames admits rest st'
      else none

theorem run_of_playNames {admits : Database → LabelCall → Bool} {start st st' : AppState}
    {calls : List (LabelCall × List Choice)} (hrun : NameRun conf admits start st)
    (hplay : playNames conf admits calls st = some st') : NameRun conf admits start st' := by
  induction calls generalizing st with
  | nil =>
      cases hplay
      exact hrun
  | cons call rest ih =>
      unfold playNames at hplay
      split at hplay
      · rename_i hadmitted
        split at hplay
        · cases hplay
        · rename_i hplayed
          exact ih (hrun.call hadmitted (eval_of_play hplayed)) hplay
      · cases hplay

def nameTwo (name : String) : List (LabelCall × List Choice) :=
  [(.allocateDevice 1 1 name, List.replicate 6 (.text "token")),
    (.allocateDevice 2 1 name, List.replicate 6 (.text "token"))]

def dashedName : String :=
  String.ofList (List.replicate 60 'a' ++ ['-', 'b', 'c'])

def secondLost (st : AppState) : Bool :=
  (st.db.devices.get? 2).any fun row =>
    ((findDevice row.userId row.deviceName).play (AppState.exec Conf.small 0) [.go] st).any
      fun last =>
        match last.1 with
        | .ok _ => false
        | .error error => decide (error.status = .notFound)

/-- The name of the second device has two dashes in a row. -/
theorem device_not_found_by_name :
    ¬ ∀ st, NameRun Conf.small owned {} st → ∀ pubkey row,
      st.db.devices.get? pubkey = some row → FoundByName Conf.small st pubkey row := by
  intro hclaim
  have hplay : ((playNames Conf.small owned (nameTwo dashedName) {}).any secondLost) = true := by
    decide +kernel
  obtain ⟨st, hst, hlost⟩ := (Option.any_eq_true _ _).mp hplay
  obtain ⟨row, hrow, hlost⟩ := (Option.any_eq_true _ _).mp hlost
  obtain ⟨⟨result, st'⟩, hfind, hlost⟩ := (Option.any_eq_true _ _).mp hlost
  have hfound := (hclaim st (run_of_playNames Conf.small .start hst) 2 row hrow).found result st'
    (eval_of_play hfind)
  rcases hfound with rfl | ⟨why, rfl⟩
  · cases hlost
  · cases hlost

theorem devices_found_by_name_enrolled :
    ∃ st, NameRun Conf.small (fun db call => owned db call && namesWhole db call) {} st ∧
      (st.db.devices.get? 2).map (·.deviceName) = some "pc-2" ∧
      (∀ pubkey row, st.db.devices.get? pubkey = some row →
        FoundByName Conf.small st pubkey row) ∧ SearchEnds Conf.small st := by
  have hplay : ((playNames Conf.small (fun db call => owned db call && namesWhole db call)
      (nameTwo "PC") {}).any fun st =>
        (st.db.devices.get? 2).map (·.deviceName) == some "pc-2") = true := by
    decide +kernel
  obtain ⟨st, hst, hname⟩ := (Option.any_eq_true _ _).mp hplay
  have hrun := run_of_playNames Conf.small .start hst
  exact ⟨st, hrun, beq_iff_eq.mp hname, devices_found_by_name Conf.small (fun _ => rfl) hrun⟩

end UnityLan.Coordinator
