import UnityLan.Coordinator.Footprint

namespace UnityLan.Coordinator

open UnityLan.Foundation Prog

/-! The sweep that reclaims idle personal devices, among registers. -/

/-- How far a sweep is: what it read of the clock, and what it selected and has not removed. -/
inductive Sweeper
  | started
  | read (now : Nat)
  | removing (rows : List (PubKey × UserId))
  deriving DecidableEq

namespace Sweeper

def allows : Sweeper → Op → Prop
  | .read now, .store (.idlePersonal cutoff) => cutoff = now - PERSONAL_IDLE_RECLAIM_SECS
  | _, .store (.idlePersonal _) => False
  | .removing rows, .store (.deleteDevice pubkey user) => ∃ rest, rows = (pubkey, user) :: rest
  | _, .store (.deleteDevice _ _) => False
  | _, _ => True

def next : Sweeper → (o : Op) → o.Res → Sweeper
  | .started, .nowUnix, now => .read now
  | .read _, .store (.idlePersonal _), .ok rows => .removing rows
  | .removing (_ :: rest), .store (.deleteDevice _ _), .ok _ => .removing rest
  | sweeper, _, _ => sweeper

def awaits (pubkey : PubKey) : Sweeper → Bool
  | .removing rows => rows.any fun row => row.1 == pubkey
  | _ => false

def awaitsOf (user : UserId) : Sweeper → Bool
  | .removing rows => rows.any fun row => row.2 == user
  | _ => false

end Sweeper

/-- What is known of the sweeps that run, and of the last successful lookups. -/
structure Reclaims where
  sweeps : Table Nat Sweeper := ∅
  /-- Members whose last successful lookup in the guild found a network role. -/
  held : List (GuildId × UserId) := []
  /-- Devices whose owner was found with a network role since they were last touched. -/
  found : List PubKey := []
  /-- No sweep has removed a device that is in use. -/
  sound : Bool := true

namespace Reclaims

variable (g : Reclaims)

def roleless (user : UserId) : Bool :=
  !g.held.any fun entry => entry.2 == user

def awaits (pubkey : PubKey) : Bool :=
  g.sweeps.values.any (Sweeper.awaits pubkey)

def awaitsOf (user : UserId) : Bool :=
  g.sweeps.values.any (Sweeper.awaitsOf user)

end Reclaims

def DeviceRow.idle (row : DeviceRow) (now : Nat) : Bool :=
  row.lastSeen.any fun seen => decide (seen + PERSONAL_IDLE_RECLAIM_SECS ≤ now)

def AppState.networkRole (st : AppState) (guild : GuildId) (member : Option MemberRoles) : Bool :=
  st.db.networks.keys.any fun net => net.1 == guild && holdsRole member net.2

def Reclaims.spares (g : Reclaims) (st : AppState) (pubkey : PubKey) (user : UserId) : Bool :=
  (st.db.devices.get? pubkey).all fun row =>
    row.userId != user || row.idle st.now && g.roleless user

namespace Reclaims

variable (g : Reclaims)

def looked (st : AppState) (guild : GuildId) (user : UserId) : MemberAnswer → Reclaims
  | .failed => g
  | answer =>
      if st.networkRole guild answer.roles then
        { g with
          held := (guild, user) :: g.held
          found := (st.db.devicesOf user).map Prod.fst ++ g.found }
      else { g with held := g.held.filter fun entry => entry != (guild, user) }

def did (st : AppState) (task : Nat) : (o : Op) → o.Res → Reclaims
  | .fetchMember guild user, answer => g.looked st guild user answer
  | .store (.touchDevice pubkey _ _), .ok _ =>
      { g with found := g.found.filter fun key => key != pubkey }
  | .store (.deleteDevice pubkey user), .ok _ =>
      { g with sound := g.sound && (!g.sweeps.contains task || g.spares st pubkey user) }
  | _, _ => g

end Reclaims

variable (conf : Conf)

def reclaims : Machine.Observer (machine conf) Reclaims where
  see := fun g st event _ =>
    match event with
    | .called task .reclaim => { g with sweeps := g.sweeps.insert task .started }
    | .did task o answer =>
        { g.did st task o answer with
          sweeps := g.sweeps.modify task fun sweeper => sweeper.next o answer }
    | .ended task _ _ => { g with sweeps := g.sweeps.erase task }
    | .dropped task _ => { g with sweeps := g.sweeps.erase task }
    | _ => g

/-- No device that a sweep has selected is enrolled, touched, or its owner found with a network
role, before the sweep has removed it; none is selected whose owner has been found with one since
it was touched, and none marked as personal whose owner has one. -/
def leavesSelected (g : Reclaims) (st : AppState) : (machine conf).Event → Bool
  | .moved (.clock now _) => decide (st.now ≤ now)
  | .did _ (.store (.insertDevice pubkey row)) (.ok _) =>
      !g.awaits pubkey && (!row.personal || g.roleless row.userId)
  | .did _ (.store (.touchDevice pubkey _ personal)) (.ok _) =>
      !g.awaits pubkey && (!personal ||
        (st.db.devices.get? pubkey).all fun row => g.roleless row.userId)
  | .did _ (.fetchMember guild user) answer =>
      !st.networkRole guild (MemberAnswer.roles answer) || !g.awaitsOf user
  | .did _ (.store (.idlePersonal _)) (.ok rows) =>
      rows.all fun row => !g.found.contains row.1
  | _ => true

/-! What a sweep does. -/

def sweeping : Monitor sig (Option Sweeper) where
  allows := fun sweeper o => ∀ s, sweeper = some s → s.allows o
  expects := fun _ _ _ => True
  next := fun sweeper o answer => sweeper.map fun s => s.next o answer

theorem sweeping_none {α ε : Type} (program : Prog sig ε α)
    {post : Option Sweeper → Except ε α → Prop} (hpost : ∀ result, post none result) :
    program.Conforms sweeping post none := by
  induction program with
  | ret value => exact hpost _
  | fail error => exact hpost _
  | op o next ih => exact ⟨nofun, fun answer _ => ih answer⟩

theorem sql_sweeps {sweeper : Sweeper} {q : Query} (hallows : sweeper.allows (.store q)) :
    (sql q).Conforms sweeping
      (returns fun after answer => after = some (sweeper.next (.store q) (.ok answer)))
      (some sweeper) := by
  rw [conforms_sql]
  refine ⟨fun _ hsome => by cases hsome; exact hallows, fun answer _ => ?_⟩
  cases answer with
  | ok answer => rfl
  | error error => trivial

def Aside : Query → Prop
  | .idlePersonal _ | .deleteDevice _ _ => False
  | _ => True

theorem sql_waits {rest : List (PubKey × UserId)} {q : Query} (haside : Aside q) :
    (sql q).Conforms sweeping (returns fun after _ => after = some (.removing rest))
      (some (.removing rest)) := by
  have hallows : (Sweeper.removing rest).allows (.store q) := by
    cases q <;> first | exact haside.elim | trivial
  refine (sql_sweeps hallows).returns_mono fun after answer hafter => ?_
  rw [hafter]
  cases q <;> first | exact haside.elim | (cases rest <;> rfl)

theorem removeDevice_sweeps {pubkey : PubKey} {user : UserId} {rest : List (PubKey × UserId)} :
    (Store.removeDevice user pubkey).Conforms sweeping
      (returns fun after _ => after = some (.removing rest))
      (some (.removing ((pubkey, user) :: rest))) := by
  have hallows : (Sweeper.removing ((pubkey, user) :: rest)).allows
      (.store (.deleteDevice pubkey user)) := ⟨rest, rfl⟩
  unfold Store.removeDevice
  refine (sql_sweeps hallows).andThen fun after _ hafter => ?_
  obtain rfl : after = some (.removing rest) := hafter
  refine (sql_waits (by trivial)).andThen fun after₂ _ hafter => ?_
  obtain rfl : after₂ = some (.removing rest) := hafter
  refine (sql_waits (by trivial)).andThen fun after₃ _ hafter => ?_
  obtain rfl : after₃ = some (.removing rest) := hafter
  refine (sql_waits (by trivial)).andThen fun after₄ primary hafter => ?_
  obtain rfl : after₄ = some (.removing rest) := hafter
  split
  · refine (sql_waits (by trivial)).andThen fun after₅ devices hafter => ?_
    obtain rfl : after₅ = some (.removing rest) := hafter
    cases devices with
    | nil => exact sql_waits (by trivial)
    | cons other devices => exact sql_waits (by trivial)
  · exact rfl

theorem removeAll_sweeps (rows : List (PubKey × UserId)) (freed : Nat) :
    (rows.foldlM
      (fun freed row => do
        Store.removeDevice row.2 row.1
        return freed + 1) freed : Stored Nat).Conforms sweeping
      (returns fun _ _ => True) (some (.removing rows)) := by
  induction rows generalizing freed with
  | nil => trivial
  | cons row rest ih =>
      rw [List.foldlM_cons]
      refine Conforms.through (fun after _ => after = some (.removing rest)) ?_ ?_
      · exact removeDevice_sweeps.andThen fun _ _ hafter => hafter
      · rintro _ freed rfl
        exact ih freed

theorem select_sweeps (now : Nat) :
    (sql (.idlePersonal (now - PERSONAL_IDLE_RECLAIM_SECS))).Conforms sweeping
      (returns fun after rows => after = some (.removing rows)) (some (.read now)) := by
  have hallows : (Sweeper.read now).allows
      (.store (.idlePersonal (now - PERSONAL_IDLE_RECLAIM_SECS))) := by
    simp only [Sweeper.allows]
  exact sql_sweeps hallows

theorem reclaim_sweeps :
    reclaim.Conforms sweeping (returns fun _ _ => True) (some .started) := by
  have hstore : (Store.reclaimIdlePersonalDevices PERSONAL_IDLE_RECLAIM_SECS).Conforms sweeping
      (returns fun _ _ => True) (some .started) := by
    generalize hperiod : PERSONAL_IDLE_RECLAIM_SECS = period
    unfold Store.reclaimIdlePersonalDevices
    rw [conforms_act_bind]
    refine ⟨fun _ hsome => by cases hsome; trivial, fun now _ => ?_⟩
    refine (hperiod ▸ select_sweeps now).andThen fun after rows hafter => ?_
    obtain rfl : after = some (.removing rows) := hafter
    exact removeAll_sweeps rows 0
  unfold reclaim
  exact hstore.mapError_returns.andThen fun _ _ _ => trivial

def Call.sweeper : Call → Option Sweeper
  | .reclaim => some .started
  | _ => none

variable {conf}

theorem handle_sweeps (call : Call) :
    (handle conf call).Conforms sweeping (returns fun _ _ => True) call.sweeper := by
  have hnone : ∀ result : Except ApiError Reply,
      returns (fun (_ : Option Sweeper) (_ : Reply) => True) none result := fun result => by
    cases result <;> trivial
  cases call with
  | reclaim => exact reclaim_sweeps.andThen fun _ _ _ => trivial
  | _ => exact sweeping_none _ hnone

/-! What holds of the devices that sweeps have selected. -/

def Sweeper.Fits (g : Reclaims) (st : AppState) : Sweeper → Prop
  | .started => True
  | .read now => now ≤ st.now
  | .removing rows => ∀ row ∈ rows, g.spares st row.1 row.2 = true

structure ReclaimInv (g : Reclaims) (st : AppState)
    (views : Nat → Option (Call × Option Sweeper)) : Prop where
  mirrors : Machine.Mirrors g.sweeps views
  fits : ∀ task sweeper, g.sweeps.get? task = some sweeper → sweeper.Fits g st
  marked : ∀ pubkey row, st.db.devices.get? pubkey = some row → row.personal = true →
    pubkey ∈ g.found ∨ g.roleless row.userId = true
  sound : g.sound = true

section

variable {g g' : Reclaims} {st st' : AppState} {views : Nat → Option (Call × Option Sweeper)}
  {task : Nat} {call : Call} {sweeper : Option Sweeper}

theorem spares_iff {pubkey : PubKey} {user : UserId} :
    g.spares st pubkey user = true ↔ ∀ row, st.db.devices.get? pubkey = some row →
      row.userId = user → row.idle st.now = true ∧ g.roleless user = true := by
  unfold Reclaims.spares
  cases hrow : st.db.devices.get? pubkey with
  | none => simp
  | some row =>
      by_cases hsame : row.userId = user
      · simp [hsame]
      · simp [hsame]

theorem idle_iff_seen {row : DeviceRow} {now : Nat} :
    row.idle now = true ↔
      ∃ seen, row.lastSeen = some seen ∧ seen + PERSONAL_IDLE_RECLAIM_SECS ≤ now := by
  unfold DeviceRow.idle
  rw [Option.any_eq_true]
  simp only [decide_eq_true_eq]

theorem idle_later {row : DeviceRow} {now later : Nat} (hidle : row.idle now = true)
    (hlater : now ≤ later) : row.idle later = true := by
  obtain ⟨seen, hseen, hpassed⟩ := idle_iff_seen.mp hidle
  exact idle_iff_seen.mpr ⟨seen, hseen, Nat.le_trans hpassed hlater⟩

/-- Where no selected device is touched or enrolled, and no lookup finds its owner with a role, it
may still be removed. -/
theorem Sweeper.Fits.kept {sweeper : Sweeper} (hfits : sweeper.Fits g st)
    (hnow : st.now ≤ st'.now)
    (hrows : ∀ pubkey row, sweeper.awaits pubkey = true →
      st'.db.devices.get? pubkey = some row → ∃ held, st.db.devices.get? pubkey = some held ∧
        held.userId = row.userId ∧ held.lastSeen = row.lastSeen)
    (hroles : ∀ user, sweeper.awaitsOf user = true → g.roleless user = true →
      g'.roleless user = true) : sweeper.Fits g' st' := by
  cases sweeper with
  | started => trivial
  | read now => exact Nat.le_trans hfits hnow
  | removing rows =>
      intro row hrow
      refine spares_iff.mpr fun found hfound huser => ?_
      have hawaits : (Sweeper.removing rows).awaits row.1 = true :=
        List.any_eq_true.mpr ⟨row, hrow, beq_self_eq_true _⟩
      have howner : (Sweeper.removing rows).awaitsOf row.2 = true :=
        List.any_eq_true.mpr ⟨row, hrow, beq_self_eq_true _⟩
      obtain ⟨held, hheld, hsame, hseen⟩ := hrows row.1 found hawaits hfound
      obtain ⟨hidle, hroleless⟩ := spares_iff.mp (hfits row hrow) held hheld (hsame.trans huser)
      refine ⟨idle_later ?_ hnow, hroles row.2 howner hroleless⟩
      unfold DeviceRow.idle at hidle ⊢
      rw [← hseen]
      exact hidle

theorem run_row {db db' : Database} {q : Query} {answer : q.Res} {pubkey : PubKey}
    {row : DeviceRow} (hrun : db.run q = .ok (answer, db'))
    (hrow : db'.devices.get? pubkey = some row) :
    (∃ held, db.devices.get? pubkey = some held ∧ held.userId = row.userId ∧
        held.lastSeen = row.lastSeen ∧ held.personal = row.personal) ∨
      q = .insertDevice pubkey row ∨
      ∃ now held, q = .touchDevice pubkey now row.personal ∧
        db.devices.get? pubkey = some held ∧ held.userId = row.userId := by
  by_cases hwrites : Database.writes q = some .devices
  · cases q <;> try (cases hwrites; done)
    case insertDevice key new =>
      obtain ⟨hfresh, hget⟩ := Database.run_insertDevice hrun
      rw [hget] at hrow
      split at hrow
      · rename_i hkey
        cases hrow
        exact .inr (.inl (by rw [hkey]))
      · exact .inl ⟨row, hrow, rfl, rfl, rfl⟩
    case deleteDevice key user =>
      cases hrun
      rw [UniqueTable.get?_retain] at hrow
      exact .inl ⟨row, (Option.filter_eq_some_iff.mp hrow).1, rfl, rfl, rfl⟩
    case touchDevice key now personal =>
      cases hrun
      rw [UniqueTable.get?_adjust] at hrow
      split at hrow
      · rename_i hkey
        obtain ⟨held, hheld, rfl⟩ := Option.map_eq_some_iff.mp hrow
        exact .inr (.inr ⟨now, held, by rw [hkey], hkey ▸ hheld, rfl⟩)
      · exact .inl ⟨row, hrow, rfl, rfl, rfl⟩
    case setToken key token =>
      cases hrun
      rw [UniqueTable.get?_adjust] at hrow
      split at hrow
      · rename_i hkey
        obtain ⟨held, hheld, rfl⟩ := Option.map_eq_some_iff.mp hrow
        exact .inl ⟨held, hkey ▸ hheld, rfl, rfl, rfl⟩
      · exact .inl ⟨row, hrow, rfl, rfl, rfl⟩
    case setDeviceName key name =>
      cases hrun
      rw [UniqueTable.get?_adjust] at hrow
      split at hrow
      · rename_i hkey
        obtain ⟨held, hheld, rfl⟩ := Option.map_eq_some_iff.mp hrow
        exact .inl ⟨held, hkey ▸ hheld, rfl, rfl, rfl⟩
      · exact .inl ⟨row, hrow, rfl, rfl, rfl⟩
  · rw [(Database.run_frame hrun).devices hwrites] at hrow
    exact .inl ⟨row, hrow, rfl, rfl, rfl⟩

theorem exec_now {o : Op} {choice : Choice} {answer : o.Res}
    (hexec : AppState.exec conf task o choice st = some (answer, st')) : st'.now = st.now := by
  cases o
  all_goals
    simp only [AppState.exec] at hexec
    (repeat' split at hexec) <;> first
      | (cases hexec; rfl)
      | cases hexec

structure Undisturbed (g g' : Reclaims) (st st' : AppState) : Prop where
  rows : ∀ pubkey row, g.awaits pubkey = true → st'.db.devices.get? pubkey = some row →
    ∃ held, st.db.devices.get? pubkey = some held ∧ held.userId = row.userId ∧
      held.lastSeen = row.lastSeen
  roles : ∀ user, g.awaitsOf user = true → g.roleless user = true → g'.roleless user = true
  marked : ∀ pubkey row, st'.db.devices.get? pubkey = some row → row.personal = true →
    pubkey ∈ g'.found ∨ g'.roleless row.userId = true

theorem Undisturbed.refl (hinv : ReclaimInv g st views) (hdb : st'.db = st.db) :
    Undisturbed g g st st' where
  rows := fun pubkey row _ hrow => ⟨row, by rw [← hdb]; exact hrow, rfl, rfl⟩
  roles := fun _ _ hroleless => hroleless
  marked := by
    rw [hdb]
    exact hinv.marked

theorem Undisturbed.store {q : Query} {answer : q.Res} (hinv : ReclaimInv g st views)
    (hrun : st.db.run q = .ok (answer, st'.db))
    (hguard : leavesSelected conf g st (.did task (.store q) (.ok answer)) = true) :
    Undisturbed g (g.did st task (.store q) (.ok answer)) st st' := by
  have hroleless : ∀ user,
      (g.did st task (.store q) (.ok answer)).roleless user = g.roleless user := by
    intro user
    cases q <;> rfl
  refine ⟨fun pubkey row hawaits hrow => ?_, fun user _ => by rw [hroleless]; exact id,
    fun pubkey row hrow hpersonal => ?_⟩
  · rcases run_row hrun hrow with ⟨held, hheld, huser, hseen, -⟩ | rfl | ⟨now, held, rfl, -, -⟩
    · exact ⟨held, hheld, huser, hseen⟩
    · simp [leavesSelected, hawaits] at hguard
    · simp [leavesSelected, hawaits] at hguard
  · rw [hroleless]
    rcases run_row hrun hrow with
      ⟨held, hheld, huser, -, hsame⟩ | rfl | ⟨now, held, rfl, hheld, huser⟩
    · rcases hinv.marked pubkey held hheld (hsame.trans hpersonal) with hfound | hnone
      · by_cases htouch : ∃ now personal, q = .touchDevice pubkey now personal
        · -- the touch of this very device says that it is personal
          obtain ⟨now, personal, rfl⟩ := htouch
          generalize st'.db = db' at hrun hrow
          cases hrun
          rw [UniqueTable.get?_adjust, if_pos rfl, hheld] at hrow
          cases hrow
          obtain rfl : personal = true := hpersonal
          right
          simp only [leavesSelected, hheld] at hguard
          simpa using (Bool.and_eq_true _ _ ▸ hguard).2
        · left
          cases q <;> try exact hfound
          rename_i key now personal
          have hne : pubkey ≠ key := fun hsame => htouch ⟨now, personal, by rw [hsame]⟩
          exact List.mem_filter.mpr ⟨hfound, by simpa using hne⟩
      · exact .inr (huser ▸ hnone)
    · right
      simp only [leavesSelected, hpersonal] at hguard
      simpa using (Bool.and_eq_true _ _ ▸ hguard).2
    · right
      rw [hpersonal] at hguard
      simp only [leavesSelected, hheld] at hguard
      rw [← huser]
      simpa using (Bool.and_eq_true _ _ ▸ hguard).2

theorem roleless_filter {user : UserId} {entry : GuildId × UserId}
    (hroleless : g.roleless user = true) :
    ({ g with held := g.held.filter fun other => other != entry } : Reclaims).roleless user =
      true := by
  unfold Reclaims.roleless at hroleless ⊢
  rw [Bool.not_eq_true', List.any_eq_false] at hroleless ⊢
  exact fun other hother => hroleless other (List.mem_filter.mp hother).1

theorem Undisturbed.looked {guild : GuildId} {user : UserId} {answer : MemberAnswer}
    (hinv : ReclaimInv g st views) (hdb : st'.db = st.db)
    (hguard : leavesSelected conf g st (.did task (.fetchMember guild user) answer) = true) :
    Undisturbed g (g.looked st guild user answer) st st' := by
  have hsame : g.looked st guild user .failed = g := rfl
  by_cases hfailed : answer = .failed
  · rw [hfailed, hsame]
    exact .refl hinv hdb
  have hlooked : g.looked st guild user answer =
      if st.networkRole guild answer.roles then
        { g with
          held := (guild, user) :: g.held
          found := (st.db.devicesOf user).map Prod.fst ++ g.found }
      else { g with held := g.held.filter fun entry => entry != (guild, user) } := by
    cases answer <;> first | rfl | exact absurd rfl hfailed
  rw [hlooked]
  have hrows : ∀ pubkey row, g.awaits pubkey = true → st'.db.devices.get? pubkey = some row →
      ∃ held, st.db.devices.get? pubkey = some held ∧ held.userId = row.userId ∧
        held.lastSeen = row.lastSeen :=
    fun pubkey row _ hrow => ⟨row, by rw [← hdb]; exact hrow, rfl, rfl⟩
  split
  · rename_i hrole
    have hapart : ∀ other, other ≠ user → g.roleless other = true →
        ({ g with
          held := (guild, user) :: g.held
          found := (st.db.devicesOf user).map Prod.fst ++ g.found } : Reclaims).roleless other =
          true := by
      intro other hother hroleless
      unfold Reclaims.roleless at hroleless ⊢
      simpa [hother.symm] using hroleless
    refine ⟨hrows, fun other hawaits => hapart other ?_, fun pubkey row hrow hpersonal => ?_⟩
    · rintro rfl
      simp [leavesSelected, hrole, hawaits] at hguard
    · rw [hdb] at hrow
      by_cases huser : row.userId = user
      · refine .inl (List.mem_append_left _ (List.mem_map.mpr ⟨(pubkey, row), ?_, rfl⟩))
        exact List.mem_filter.mpr ⟨Table.mem_rows.mpr hrow, by simpa using huser⟩
      · rcases hinv.marked pubkey row hrow hpersonal with hfound | hnone
        · exact .inl (List.mem_append_right _ hfound)
        · exact .inr (hapart _ huser hnone)
  · refine ⟨hrows, fun other _ hroleless => roleless_filter hroleless,
      fun pubkey row hrow hpersonal => ?_⟩
    rw [hdb] at hrow
    exact (hinv.marked pubkey row hrow hpersonal).imp id roleless_filter

theorem Undisturbed.did {o : Op} {choice : Choice} {answer : o.Res}
    (hinv : ReclaimInv g st views)
    (hexec : AppState.exec conf task o choice st = some (answer, st'))
    (hguard : leavesSelected conf g st (.did task o answer) = true) :
    Undisturbed g (g.did st task o answer) st st' := by
  by_cases hstore : ∃ q, o = .store q
  · obtain ⟨q, rfl⟩ := hstore
    have hstep := AppState.exec_store hexec
    cases answer with
    | ok answer => exact .store hinv (Database.step_ok hstep).2 hguard
    | error error =>
        have hsame : g.did st task (.store q) (.error error) = g := by
          cases q <;> rfl
        rw [hsame]
        exact .refl hinv (Database.step_error hstep)
  · have hdb := (AppState.exec_frame hexec).db fun q hq => hstore ⟨q, hq⟩
    by_cases hlookup : ∃ guild user, o = .fetchMember guild user
    · obtain ⟨guild, user, rfl⟩ := hlookup
      exact .looked hinv hdb hguard
    · have hsame : g.did st task o answer = g := by
        cases o <;> first | rfl | exact absurd ⟨_, rfl⟩ hstore | exact absurd ⟨_, _, rfl⟩ hlookup
      rw [hsame]
      exact .refl hinv hdb

theorem awaits_of {pubkey : PubKey} {s : Sweeper} (hget : g.sweeps.get? task = some s)
    (hawaits : s.awaits pubkey = true) : g.awaits pubkey = true :=
  List.any_eq_true.mpr ⟨s, Table.mem_values.mpr ⟨task, hget⟩, hawaits⟩

theorem awaitsOf_of {user : UserId} {s : Sweeper} (hget : g.sweeps.get? task = some s)
    (hawaits : s.awaitsOf user = true) : g.awaitsOf user = true :=
  List.any_eq_true.mpr ⟨s, Table.mem_values.mpr ⟨task, hget⟩, hawaits⟩

theorem Sweeper.Fits.undisturbed {s : Sweeper} (hfits : s.Fits g st)
    (hget : g.sweeps.get? task = some s) (hundisturbed : Undisturbed g g' st st')
    (hnow : st'.now = st.now) : s.Fits g' st' :=
  hfits.kept (Nat.le_of_eq hnow.symm)
    (fun pubkey row hawaits => hundisturbed.rows pubkey row (awaits_of hget hawaits))
    fun user hawaits => hundisturbed.roles user (awaitsOf_of hget hawaits)

theorem selected_spares {cutoff : Nat} {rows : List (PubKey × UserId)} {row : PubKey × UserId}
    {db' : Database} {now : Nat} (hinv : ReclaimInv g st views)
    (hrun : st.db.run (.idlePersonal cutoff) = .ok (rows, db'))
    (hcutoff : cutoff = now - PERSONAL_IDLE_RECLAIM_SECS) (hnow : now ≤ st.now)
    (hfound : ∀ row ∈ rows, row.1 ∉ g.found) (hrow : row ∈ rows) :
    g.spares st row.1 row.2 = true := by
  cases hrun
  obtain ⟨held, hheld, rfl⟩ := List.mem_map.mp hrow
  obtain ⟨hmem, hidle⟩ := List.mem_filter.mp hheld
  rw [Bool.and_eq_true] at hidle
  have hget : st.db.devices.get? held.1 = some held.2 := Table.mem_rows.mp hmem
  refine spares_iff.mpr fun other hother _ => ?_
  obtain rfl : held.2 = other := Option.some.inj (hget.symm.trans hother)
  constructor
  · have hseen := hidle.2
    split at hseen
    · cases hseen
    · rename_i seen heq
      have hbefore : seen < cutoff := of_decide_eq_true hseen
      rw [hcutoff] at hbefore
      exact idle_iff_seen.mpr ⟨seen, heq,
        Nat.le_trans (Nat.le_of_lt (Nat.add_lt_of_lt_sub hbefore)) hnow⟩
  · exact (hinv.marked held.1 held.2 hget hidle.1).resolve_left (hfound _ hrow)

theorem Sweeper.Fits.next {o : Op} {choice : Choice} {answer : o.Res} {s : Sweeper}
    (hinv : ReclaimInv g st views) (hget : g.sweeps.get? task = some s)
    (hallows : s.allows o) (hexec : AppState.exec conf task o choice st = some (answer, st'))
    (hguard : leavesSelected conf g st (.did task o answer) = true) :
    (s.next o answer).Fits (g.did st task o answer) st' := by
  have hundisturbed := Undisturbed.did hinv hexec hguard
  have hsame : s.Fits (g.did st task o answer) st' :=
    (hinv.fits task s hget).undisturbed hget hundisturbed (exec_now hexec)
  unfold Sweeper.next
  split
  · -- the clock is read
    cases hexec
    exact Nat.le_refl _
  · rename_i now cutoff rows
    have hstep := AppState.exec_store hexec
    have hrun := (Database.step_ok hstep).2
    have hfound : ∀ row ∈ rows, row.1 ∉ g.found := by
      intro row hrow
      simp only [leavesSelected, List.all_eq_true] at hguard
      simpa using hguard row hrow
    have hselected : (Sweeper.removing rows).Fits g st := fun row hrow =>
      selected_spares hinv hrun hallows (hinv.fits task _ hget) hfound hrow
    have hdb : st'.db = st.db := by
      generalize st'.db = db' at hrun
      cases hrun
      rfl
    exact hselected.kept (Nat.le_of_eq (exec_now hexec).symm)
      (fun pubkey row _ hrow => ⟨row, by rw [← hdb]; exact hrow, rfl, rfl⟩) fun _ _ => id
  · intro row hrow
    exact hsame row (List.mem_cons_of_mem _ hrow)
  · exact hsame

theorem ReclaimInv.did {o : Op} {choice : Choice} {answer : o.Res}
    (hinv : ReclaimInv g st views) (hview : views task = some (call, sweeper))
    (hallows : sweeping.allows sweeper o)
    (hexec : AppState.exec conf task o choice st = some (answer, st'))
    (hguard : leavesSelected conf g st (.did task o answer) = true) :
    ReclaimInv ((reclaims conf).see g st (.did task o answer) st') st'
      (Function.update views task (some (call, sweeping.next sweeper o answer))) := by
  have hundisturbed := Undisturbed.did hinv hexec hguard
  have hfollowed : g.sweeps.get? task = sweeper := hinv.mirrors.followed hview
  refine ⟨hinv.mirrors.follow hview fun s => s.next o answer, ?_, hundisturbed.marked, ?_⟩
  · intro other s hget
    change (g.sweeps.modify task fun s => s.next o answer).get? other = some s at hget
    have hfits : s.Fits (g.did st task o answer) st' := by
      rw [Table.get?_modify] at hget
      split at hget
      · obtain ⟨held, hheld, rfl⟩ := Option.map_eq_some_iff.mp hget
        exact .next hinv hheld (hallows held (hfollowed.symm.trans hheld)) hexec hguard
      · exact (hinv.fits other s hget).undisturbed hget hundisturbed (exec_now hexec)
    exact hfits.kept (Nat.le_refl _) (fun pubkey row _ hrow => ⟨row, hrow, rfl, rfl⟩) fun _ _ => id
  · change (g.did st task o answer).sound = true
    by_cases hdelete : ∃ pubkey user, o = .store (.deleteDevice pubkey user)
    · obtain ⟨pubkey, user, rfl⟩ := hdelete
      cases answer with
      | error error => exact hinv.sound
      | ok removed =>
          change (g.sound && (!g.sweeps.contains task || g.spares st pubkey user)) = true
          rw [hinv.sound, Bool.true_and, Bool.or_eq_true, Bool.not_eq_true']
          cases hsweeper : sweeper with
          | none =>
              left
              rw [Table.contains, hfollowed, hsweeper]
              rfl
          | some s =>
              right
              have hget := hfollowed.trans hsweeper
              have hmay := hallows s hsweeper
              cases s with
              | removing rows =>
                  obtain ⟨rest, rfl⟩ := hmay
                  exact hinv.fits task _ hget _ List.mem_cons_self
              | _ => exact hmay.elim
    · have hsame : (g.did st task o answer).sound = g.sound := by
        cases o with
        | store q =>
            cases q <;> first
              | exact absurd ⟨_, _, rfl⟩ hdelete
              | (cases answer <;> rfl)
        | fetchMember guild user =>
            cases answer <;> first
              | rfl
              | (simp only [Reclaims.did, Reclaims.looked]; split <;> rfl)
        | _ => rfl
      rw [hsame]
      exact hinv.sound

theorem ReclaimInv.gone (hinv : ReclaimInv g st views) :
    ReclaimInv { g with sweeps := g.sweeps.erase task } (AppState.release task st)
      (Function.update views task none) where
  mirrors := hinv.mirrors.forget
  fits := by
    intro other s hget
    exact (hinv.fits other s (Table.get?_of_erase hget)).kept (Nat.le_refl _)
      (fun pubkey row _ hrow => ⟨row, hrow, rfl, rfl⟩) fun _ _ => id
  marked := hinv.marked
  sound := hinv.sound

theorem ReclaimInv.called (hinv : ReclaimInv g st views) (hfree : views task = none) :
    ReclaimInv ((reclaims conf).see g st (.called task call) st) st
      (Function.update views task (some (call, call.sweeper))) := by
  cases call with
  | reclaim =>
      refine ⟨hinv.mirrors.begin .started, fun other s hget => ?_, hinv.marked, hinv.sound⟩
      change (g.sweeps.insert task .started).get? other = some s at hget
      rw [Table.get?_insert] at hget
      split at hget
      · cases hget
        trivial
      · exact (hinv.fits other s hget).kept (Nat.le_refl _)
          (fun pubkey row _ hrow => ⟨row, hrow, rfl, rfl⟩) fun _ _ => id
  | _ => exact ⟨hinv.mirrors.ignore hfree, hinv.fits, hinv.marked, hinv.sound⟩

theorem ReclaimInv.moved {world : World} (hinv : ReclaimInv g st views)
    (hmove : AppState.move world st = some st')
    (hguard : leavesSelected conf g st (.moved world) = true) : ReclaimInv g st' views := by
  have hdb := (AppState.move_untouched hmove).db
  have hnow : st.now ≤ st'.now := by
    cases world with
    | clock now instant =>
        simp only [AppState.move] at hmove
        split at hmove
        · cases hmove
          exact of_decide_eq_true hguard
        · cases hmove
    | member guild user roles =>
        cases hmove
        cases roles <;> exact Nat.le_refl _
    | accessToken token who =>
        cases hmove
        cases who <;> exact Nat.le_refl _
    | _ =>
        cases hmove
        exact Nat.le_refl _
  refine ⟨hinv.mirrors, fun task s hget => (hinv.fits task s hget).kept hnow
    (fun pubkey row _ hrow => ⟨row, by rw [← hdb]; exact hrow, rfl, rfl⟩) fun _ _ => id, ?_,
    hinv.sound⟩
  rw [hdb]
  exact hinv.marked

end

variable (conf) in
def reclaimDiscipline :
    Machine.Discipline (machine conf) (reclaims conf) (Machine.passes (leavesSelected conf))
      (Option Sweeper) where
  mon := sweeping
  opening := fun _ _ call => call.sweeper
  post := fun _ => returns fun _ _ => True
  inv := ReclaimInv
  conforms := fun _ _ call => handle_sweeps call
  called := fun hinv hfree _ => hinv.called hfree
  did := fun hinv hview hallows hexec hguard => ⟨trivial, hinv.did hview hallows hexec hguard⟩
  ended := fun hinv _ _ _ => hinv.gone
  dropped := fun hinv _ _ => hinv.gone
  moved := fun hinv hmove hguard => hinv.moved hmove hguard

/-- Where no selected device comes into use again, only idle devices are reclaimed, of users that
have no network role. -/
theorem reclaims_idle (conf : Conf) {st₀ : AppState} {c : (machine conf).Config} {g : Reclaims}
    (hreach : Machine.Reach (reclaims conf) (Machine.passes (leavesSelected conf))
      ((machine conf).idle st₀) {} c g) : g.sound = true := by
  have hstart : ReclaimInv {} st₀ fun _ => none := by
    refine ⟨fun task => by simp, fun task s hget => by simp at hget, ?_, rfl⟩
    exact fun _ _ _ _ => .inr rfl
  obtain ⟨views, _, hinv⟩ := (reclaimDiscipline conf).run hstart hreach
  exact hinv.sound

/-! One device, and a sweep that it registers during. -/

/-- A user with one personal device, which was last seen an idle period ago. -/
def oneIdle : AppState where
  now := PERSONAL_IDLE_RECLAIM_SECS + 1
  db :=
    { devices :=
        ⟨(∅ : Table _ _).insert 1
          { idx := 1, userId := 1, deviceName := "pc", token := some "token", lastSeen := some 0
            personal := true }, by decide⟩
      oauthAuthorized := (∅ : Table _ _).insert 1 ⟨1, 0⟩
      userHandles := (∅ : Table _ _).insert 1 "ann" }

open Script in
def reclaimed : Script Conf.small :=
  call .reclaim ++ steps 0 3 .go

open Script in
def registersLate : Script Conf.small :=
  call .reclaim ++ steps 0 2 .go ++
    call (.register { personalDevice 1 "pc" with deviceToken := some "token" } (.v4 0)) ++
    steps 1 20 .go ++ steps 0 1 .go

theorem reclaims_idle_device :
    ∃ c g, Machine.Reach (reclaims Conf.small) (Machine.passes (leavesSelected Conf.small))
        ((machine Conf.small).idle oneIdle) {} c g ∧
      c.shared.db.devices.get? 1 = none ∧ g.sound = true := by
  have hplay : (Machine.play (reclaims Conf.small) (leavesSelected Conf.small)
      ((machine Conf.small).idle oneIdle) {} reclaimed).any
        (fun last => (last.1.shared.db.devices.get? 1).isNone) = true := by
    decide
  have hrun : ∃ c g, Machine.Reach (reclaims Conf.small)
      (Machine.passes (leavesSelected Conf.small)) ((machine Conf.small).idle oneIdle) {} c g ∧
        (c.shared.db.devices.get? 1).isNone = true :=
    Machine.reach_of_play (fun _ _ _ htest => htest) hplay
  obtain ⟨c, g, hreach, hgone⟩ := hrun
  exact ⟨c, g, hreach, Option.isNone_iff_eq_none.mp hgone, reclaims_idle Conf.small hreach⟩

/-- A device that registers while the sweep runs is removed. -/
theorem registering_device_reclaimed :
    ¬ ∀ (conf : Conf) (st₀ : AppState) (c : (machine conf).Config) (g : Reclaims),
      Machine.Reach (reclaims conf) Machine.free ((machine conf).idle st₀) {} c g →
        g.sound = true := by
  intro hclaim
  have hplay : (Machine.play (reclaims Conf.small) (fun _ _ _ => true)
      ((machine Conf.small).idle oneIdle) {} registersLate).any
        (fun last => !last.2.sound) = true := by
    decide
  have hrun : ∃ c g, Machine.Reach (reclaims Conf.small) Machine.free
      ((machine Conf.small).idle oneIdle) {} c g ∧ (!g.sound) = true :=
    Machine.reach_of_play (fun _ _ _ _ => trivial) hplay
  obtain ⟨c, g, hreach, hunsound⟩ := hrun
  rw [hclaim Conf.small oneIdle c g hreach] at hunsound
  cases hunsound

end UnityLan.Coordinator
