import UnityLan.Coordinator.Presence
import UnityLan.Foundation.Counts

namespace UnityLan.Coordinator

open UnityLan.Foundation

/-! What the presence of devices reports of its changes, and what it counts. -/

namespace Presence

/-- Both halves of `reap`. -/
def reap (presence : Presence) (now maxAge : Nat) : List Scope × Presence :=
  let guilds := presence.reapMap now maxAge
  let users := guilds.2.reapSelf now maxAge
  (guilds.1 ++ users.1, users.2)

inductive Change
  | record (guild : GuildId) (role : RoleId) (p : MemberPresence) (clientVersion : String)
      (now : Nat)
  | recordSelf (user : UserId) (p : MemberPresence) (clientVersion : String) (now : Nat)
  | evict (guild : GuildId) (role : RoleId) (pubkey : PubKey)
  | evictSelf (user : UserId) (pubkey : PubKey)
  | evictUser (guild : GuildId) (role : RoleId) (user : UserId)
  | reap (now maxAge : Nat)

def reported (changed : Bool × Presence) (scope : Scope) : List Scope × Presence :=
  (if changed.1 then [scope] else [], changed.2)

def apply (presence : Presence) : Change → List Scope × Presence
  | .record guild role p clientVersion now =>
      reported (presence.record guild role p clientVersion now) (.guild guild)
  | .recordSelf user p clientVersion now =>
      reported (presence.recordSelf user p clientVersion now) (.user user)
  | .evict guild role pubkey => reported (presence.evict guild role pubkey) (.guild guild)
  | .evictSelf user pubkey => reported (presence.evictSelf user pubkey) (.user user)
  | .evictUser guild role user => reported (presence.evictUser guild role user) (.guild guild)
  | .reap now maxAge => presence.reap now maxAge

def after (changes : List Change) : Presence :=
  changes.foldl (fun presence change => (presence.apply change).2) {}

end Presence

/-! The statistics. -/

structure PresenceStats where
  onlinePerNetwork : Table (GuildId × RoleId) Nat
  usersPerNetwork : Table (GuildId × RoleId) Nat
  onlineDevices : Nat
  onlineUsers : Nat
  offNetworkDevices : Nat
  clientVersions : Table String Nat

abbrev MapRow := (GuildId × RoleId × PubKey) × PresenceEntry

abbrev SelfRow := (UserId × PubKey) × PresenceEntry

def MapRow.network (row : MapRow) : GuildId × RoleId :=
  (row.1.1, row.1.2.1)

def MapRow.pubkey (row : MapRow) : PubKey :=
  row.1.2.2

def SelfRow.pubkey (row : SelfRow) : PubKey :=
  row.1.2

/-- What the loops of `stats` collect. -/
structure Tallies where
  onlinePerNetwork : Table (GuildId × RoleId) Nat := ∅
  usersByNetwork : Table (GuildId × RoleId) (List UserId) := ∅
  devices : List PubKey := []
  users : List UserId := []
  deviceVersion : Table PubKey String := ∅
  networkPubkeys : List PubKey := []
  offNetwork : List PubKey := []

namespace Tallies

variable (t : Tallies)

def versioned (pubkey : PubKey) (clientVersion : String) : Table PubKey String :=
  if t.deviceVersion.contains pubkey then t.deviceVersion
  else t.deviceVersion.insert pubkey clientVersion

def networked (row : MapRow) : Tallies where
  onlinePerNetwork := t.onlinePerNetwork.tally row.network
  usersByNetwork := t.usersByNetwork.insert row.network
    (((t.usersByNetwork.get? row.network).getD []).insert row.2.p.userId)
  devices := t.devices.insert row.pubkey
  users := t.users.insert row.2.p.userId
  deviceVersion := t.versioned row.pubkey row.2.clientVersion
  networkPubkeys := t.networkPubkeys.insert row.pubkey
  offNetwork := t.offNetwork

def owned (row : SelfRow) : Tallies :=
  { t with
    devices := t.devices.insert row.pubkey
    users := t.users.insert row.1.1
    deviceVersion := t.versioned row.pubkey row.2.clientVersion
    offNetwork :=
      if t.networkPubkeys.contains row.pubkey then t.offNetwork
      else t.offNetwork.insert row.pubkey }

def versionLabel (version : String) : String :=
  if version.isEmpty then "unknown" else version

def stats : PresenceStats where
  onlinePerNetwork := t.onlinePerNetwork
  usersPerNetwork := t.usersByNetwork.mapValues fun _ users => users.length
  onlineDevices := t.devices.length
  onlineUsers := t.users.length
  offNetworkDevices := t.offNetwork.length
  clientVersions := (t.deviceVersion.values.map versionLabel).foldl Table.tally ∅

end Tallies

/-- The rows of each map, in the order that it gives them out. -/
def statsOf (mapRows : List MapRow) (selfRows : List SelfRow) : PresenceStats :=
  (selfRows.foldl Tallies.owned (mapRows.foldl Tallies.networked {})).stats

/-- The statistics count what the rows say. -/
structure PresenceStats.Agrees (stats : PresenceStats) (mapRows : List MapRow)
    (selfRows : List SelfRow) : Prop where
  perNetwork : ∀ network, (stats.onlinePerNetwork.get? network).getD 0 =
    (mapRows.map MapRow.network).count network
  usersPerNetwork : ∀ network, (stats.usersPerNetwork.get? network).getD 0 =
    ((mapRows.filter (·.network == network)).map fun row => row.2.p.userId).dedup.length
  devices : stats.onlineDevices =
    (mapRows.map MapRow.pubkey ++ selfRows.map SelfRow.pubkey).dedup.length
  offNetwork : stats.offNetworkDevices =
    ((selfRows.map SelfRow.pubkey).filter fun pubkey =>
      !(mapRows.map MapRow.pubkey).contains pubkey).dedup.length
  united : stats.onlineDevices =
    (mapRows.map MapRow.pubkey).dedup.length + stats.offNetworkDevices
  users : stats.onlineUsers =
    (mapRows.map (fun row => row.2.p.userId) ++ selfRows.map fun row => row.1.1).dedup.length
  versions : stats.clientVersions.values.sum = stats.onlineDevices

/-! The rows that others read change exactly where a change is reported. -/

namespace Presence

structure Keyed (presence : Presence) : Prop where
  map : ∀ key entry, presence.map.get? key = some entry → entry.p.pubkey = key.2.2
  selfMap : ∀ key entry, presence.selfMap.get? key = some entry → entry.p.pubkey = key.2

section

variable {presence : Presence} {place : Place} {exclude pubkey : PubKey} {p : MemberPresence}

theorem Keyed.rowAt (hkeyed : presence.Keyed) (hrow : presence.rowAt place pubkey = some p) :
    p.pubkey = pubkey := by
  cases place with
  | network guild role =>
      obtain ⟨entry, hentry, rfl⟩ := Option.map_eq_some_iff.mp hrow
      exact hkeyed.map _ _ hentry
  | own user =>
      obtain ⟨entry, hentry, rfl⟩ := Option.map_eq_some_iff.mp hrow
      exact hkeyed.selfMap _ _ hentry

theorem recordIn_keyed {κ : Type} [DecidableEq κ] {map : Table κ PresenceEntry} {key : κ}
    {device : κ → PubKey} {clientVersion : String} {now : Nat}
    (hkeyed : ∀ key entry, map.get? key = some entry → entry.p.pubkey = device key)
    (hkey : p.pubkey = device key) :
    ∀ other entry, (recordIn map key p clientVersion now).2.get? other = some entry →
      entry.p.pubkey = device other := by
  intro other entry hentry
  unfold recordIn at hentry
  dsimp only at hentry
  rw [Table.get?_insert] at hentry
  split at hentry
  · rename_i hsame
    cases hentry
    rw [hsame]
    exact hkey
  · exact hkeyed other entry hentry

theorem Keyed.apply (hkeyed : presence.Keyed) (change : Change) :
    (presence.apply change).2.Keyed := by
  cases change with
  | record guild role p clientVersion now =>
      exact ⟨recordIn_keyed hkeyed.map rfl, hkeyed.selfMap⟩
  | recordSelf user p clientVersion now =>
      exact ⟨hkeyed.map, recordIn_keyed hkeyed.selfMap rfl⟩
  | evict guild role pubkey =>
      exact ⟨fun key entry hentry => hkeyed.map key entry (Table.get?_of_erase hentry),
        hkeyed.selfMap⟩
  | evictSelf user pubkey =>
      exact ⟨hkeyed.map,
        fun key entry hentry => hkeyed.selfMap key entry (Table.get?_of_erase hentry)⟩
  | evictUser guild role user =>
      exact ⟨fun key entry hentry => hkeyed.map key entry (Table.get?_of_retain hentry),
        hkeyed.selfMap⟩
  | reap now maxAge =>
      exact ⟨fun key entry hentry => hkeyed.map key entry (Table.get?_of_retain hentry),
        fun key entry hentry => hkeyed.selfMap key entry (Table.get?_of_retain hentry)⟩

theorem after_keyed (changes : List Change) : (after changes).Keyed := by
  have hfrom : ∀ presence : Presence, presence.Keyed →
      (changes.foldl (fun presence change => (presence.apply change).2) presence).Keyed := by
    induction changes with
    | nil => exact fun _ hkeyed => hkeyed
    | cons change rest ih => exact fun _ hkeyed => ih _ (hkeyed.apply change)
  exact hfrom {} ⟨nofun, nofun⟩

theorem nodup_read {κ : Type} [DecidableEq κ] (map : Table κ PresenceEntry)
    {test : κ × PresenceEntry → Bool}
    (hinj : ∀ first ∈ map.rows, ∀ second ∈ map.rows, test first = true → test second = true →
      first.2.p = second.2.p → first.1 = second.1) :
    ((map.rows.filter test).map (·.2.p)).Nodup := by
  refine List.Nodup.map_on ?_ (map.keysNodup.of_map.filter _)
  intro first hfirst second hsecond hsame
  obtain ⟨hfirst, hpassed⟩ := List.mem_filter.mp hfirst
  obtain ⟨hsecond, hpassed'⟩ := List.mem_filter.mp hsecond
  have hkeys := hinj first hfirst second hsecond hpassed hpassed' hsame
  have hvalue := Table.mem_rows.mp hsecond
  rw [← hkeys, Table.mem_rows.mp hfirst] at hvalue
  exact Prod.ext hkeys (Option.some.inj hvalue)

theorem Keyed.nodup_othersAt (hkeyed : presence.Keyed) (place : Place) (exclude : PubKey) :
    (presence.othersAt place exclude).Nodup := by
  cases place with
  | network guild role =>
      refine nodup_read presence.map fun first hfirst second hsecond hin hin' hsame => ?_
      have hkey := hkeyed.map _ _ (Table.mem_rows.mp hfirst)
      have hkey' := hkeyed.map _ _ (Table.mem_rows.mp hsecond)
      simp only [Bool.and_eq_true, beq_iff_eq] at hin hin'
      rw [hsame, hkey'] at hkey
      exact Prod.ext (hin.1.1.trans hin'.1.1.symm)
        (Prod.ext (hin.1.2.trans hin'.1.2.symm) hkey.symm)
  | own user =>
      refine nodup_read presence.selfMap fun first hfirst second hsecond hin hin' hsame => ?_
      have hkey := hkeyed.selfMap _ _ (Table.mem_rows.mp hfirst)
      have hkey' := hkeyed.selfMap _ _ (Table.mem_rows.mp hsecond)
      simp only [Bool.and_eq_true, beq_iff_eq] at hin hin'
      rw [hsame, hkey'] at hkey
      exact Prod.ext (hin.1.trans hin'.1.symm) hkey.symm

theorem exists_other (pubkey : PubKey) : ∃ exclude : PubKey, pubkey ≠ exclude := by
  by_cases hzero : pubkey = 0
  · exact ⟨1, by rw [hzero]; decide⟩
  · exact ⟨0, hzero⟩

theorem Keyed.read_differs {presence' : Presence} (hkeyed : presence.Keyed)
    (hkeyed' : presence'.Keyed) :
    (∃ exclude, ¬(presence.othersAt place exclude).Perm (presence'.othersAt place exclude)) ↔
      ∃ pubkey, presence.rowAt place pubkey ≠ presence'.rowAt place pubkey := by
  constructor
  · rintro ⟨exclude, hdiffer⟩
    by_contra hsame
    push Not at hsame
    apply hdiffer
    apply (List.perm_ext_iff_of_nodup (hkeyed.nodup_othersAt place exclude)
      (hkeyed'.nodup_othersAt place exclude)).mpr
    intro p
    simp only [mem_othersAt, hsame]
  · rintro ⟨pubkey, hdiffer⟩
    obtain ⟨exclude, hother⟩ := exists_other pubkey
    refine ⟨exclude, fun hperm => hdiffer ?_⟩
    have hread : ∀ p, presence.rowAt place pubkey = some p ↔
        presence'.rowAt place pubkey = some p := by
      have hmem : ∀ {presence : Presence} {p}, presence.Keyed →
          (presence.rowAt place pubkey = some p ↔
            p ∈ presence.othersAt place exclude ∧ p.pubkey = pubkey) := by
        intro presence p hkeyed
        constructor
        · exact fun hrow => ⟨mem_othersAt.mpr ⟨pubkey, hother, hrow⟩, hkeyed.rowAt hrow⟩
        · rintro ⟨hin, rfl⟩
          obtain ⟨key, _, hrow⟩ := mem_othersAt.mp hin
          rw [hkeyed.rowAt hrow]
          exact hrow
      intro p
      rw [hmem hkeyed, hmem hkeyed', hperm.mem_iff]
    exact Option.ext hread

theorem mem_changedPlaces {o : Op} :
    place ∈ presence.changedPlaces o (presence.step o).1 ↔
      ∃ pubkey, presence.rowAt place pubkey ≠ (presence.step o).2.rowAt place pubkey := by
  constructor
  · intro hmem
    cases o with
    | record guild role p clientVersion now =>
        obtain ⟨hchanged, hplace⟩ := List.mem_ite_nil_right.mp hmem
        obtain rfl := List.mem_singleton.mp hplace
        refine ⟨p.pubkey, fun hsame => of_decide_eq_true hchanged (hsame.trans ?_)⟩
        simp [step, record, recordIn, rowAt]
    | recordSelf user p clientVersion now =>
        obtain ⟨hchanged, hplace⟩ := List.mem_ite_nil_right.mp hmem
        obtain rfl := List.mem_singleton.mp hplace
        refine ⟨p.pubkey, fun hsame => of_decide_eq_true hchanged (hsame.trans ?_)⟩
        simp [step, recordSelf, recordIn, rowAt]
    | evict guild role pubkey =>
        obtain ⟨hheld, hplace⟩ := List.mem_ite_nil_right.mp hmem
        obtain rfl := List.mem_singleton.mp hplace
        obtain ⟨entry, hentry⟩ := Option.isSome_iff_exists.mp hheld
        exact ⟨pubkey, by simp [step, evict, rowAt, hentry]⟩
    | evictSelf user pubkey =>
        obtain ⟨hheld, hplace⟩ := List.mem_ite_nil_right.mp hmem
        obtain rfl := List.mem_singleton.mp hplace
        obtain ⟨entry, hentry⟩ := Option.isSome_iff_exists.mp hheld
        exact ⟨pubkey, by simp [step, evictSelf, rowAt, hentry]⟩
    | evictUser guild role user =>
        obtain ⟨hchanged, hplace⟩ := List.mem_ite_nil_right.mp hmem
        obtain rfl := List.mem_singleton.mp hplace
        by_contra hsame
        push Not at hsame
        refine of_decide_eq_true hchanged (List.length_filter_eq_length_iff.mpr ?_)
        rintro ⟨⟨g, r, pubkey⟩, entry⟩ hrow
        have hentry := Table.mem_rows.mp hrow
        by_contra hgone
        rw [Bool.not_eq_true] at hgone
        have hmatch : (g = guild ∧ r = role) ∧ entry.p.userId = user := by
          simpa using hgone
        obtain ⟨⟨rfl, rfl⟩, rfl⟩ := hmatch
        have hrows := hsame pubkey
        simp [step, evictUser, rowAt, hentry, Option.filter] at hrows
    | reapMap now maxAge =>
        obtain ⟨⟨⟨guild, role, pubkey⟩, entry⟩, hrow, rfl⟩ := List.mem_map.mp hmem
        obtain ⟨hrow, hstale⟩ := List.mem_filter.mp hrow
        have hentry := Table.mem_rows.mp hrow
        rw [Bool.not_eq_true'] at hstale
        exact ⟨pubkey, by simp [step, reapMap, rowAt, hentry, Option.filter, hstale]⟩
    | reapSelf now maxAge =>
        obtain ⟨⟨⟨user, pubkey⟩, entry⟩, hrow, rfl⟩ := List.mem_map.mp hmem
        obtain ⟨hrow, hstale⟩ := List.mem_filter.mp hrow
        have hentry := Table.mem_rows.mp hrow
        rw [Bool.not_eq_true'] at hstale
        exact ⟨pubkey, by simp [step, reapSelf, rowAt, hentry, Option.filter, hstale]⟩
    | _ => cases hmem
  · rintro ⟨pubkey, hdiffer⟩
    by_contra hkept
    exact hdiffer (rowAt_step hkept pubkey).symm

theorem mem_reported {o : Op} (named : Place) {changed : Bool}
    (hplaces : presence.changedPlaces o (presence.step o).1 = if changed then [named] else [])
    (scope : Scope) :
    scope ∈ (reported (changed, (presence.step o).2) named.scope).1 ↔
      ∃ place, place.scope = scope ∧
        ∃ pubkey, presence.rowAt place pubkey ≠ (presence.step o).2.rowAt place pubkey := by
  simp only [← mem_changedPlaces, hplaces, reported, List.mem_ite_nil_right, List.mem_singleton]
  constructor
  · rintro ⟨hchanged, rfl⟩
    exact ⟨named, rfl, hchanged, rfl⟩
  · rintro ⟨_, rfl, hchanged, rfl⟩
    exact ⟨hchanged, rfl⟩

theorem mem_reap {now maxAge : Nat} {scope : Scope} :
    scope ∈ (presence.reap now maxAge).1 ↔
      ∃ place, place.scope = scope ∧
        ∃ pubkey,
          presence.rowAt place pubkey ≠ (presence.reap now maxAge).2.rowAt place pubkey := by
  have hguilds : scope ∈ (presence.reapMap now maxAge).1 ↔
      ∃ place ∈ presence.changedPlaces (.reapMap now maxAge) (presence.reapMap now maxAge).1,
        place.scope = scope := by
    simp only [reapMap, changedPlaces, List.mem_map, exists_exists_and_eq_and]
    rfl
  have husers : scope ∈ ((presence.reapMap now maxAge).2.reapSelf now maxAge).1 ↔
      ∃ place ∈ presence.changedPlaces (.reapSelf now maxAge) (presence.reapSelf now maxAge).1,
        place.scope = scope := by
    simp only [reapMap, reapSelf, changedPlaces, List.mem_map, exists_exists_and_eq_and]
    rfl
  unfold reap
  dsimp only
  rw [List.mem_append, hguilds, husers]
  constructor
  · rintro (⟨place, hplace, rfl⟩ | ⟨place, hplace, rfl⟩)
    · refine ⟨place, rfl, ?_⟩
      obtain ⟨row, _, rfl⟩ := List.mem_map.mp hplace
      exact mem_changedPlaces.mp hplace
    · refine ⟨place, rfl, ?_⟩
      obtain ⟨row, _, rfl⟩ := List.mem_map.mp hplace
      exact mem_changedPlaces.mp hplace
  · rintro ⟨place, rfl, hdiffers⟩
    cases place with
    | network guild role => exact .inl ⟨_, mem_changedPlaces.mpr hdiffers, rfl⟩
    | own user => exact .inr ⟨_, mem_changedPlaces.mpr hdiffers, rfl⟩

theorem mem_apply (change : Change) (scope : Scope) :
    scope ∈ (presence.apply change).1 ↔
      ∃ place, place.scope = scope ∧
        ∃ pubkey, presence.rowAt place pubkey ≠ (presence.apply change).2.rowAt place pubkey := by
  cases change with
  | record guild role p clientVersion now =>
      exact mem_reported (o := .record guild role p clientVersion now) (.network guild role) rfl
        scope
  | recordSelf user p clientVersion now =>
      exact mem_reported (o := .recordSelf user p clientVersion now) (.own user) rfl scope
  | evict guild role pubkey =>
      exact mem_reported (o := .evict guild role pubkey) (.network guild role) rfl scope
  | evictSelf user pubkey =>
      exact mem_reported (o := .evictSelf user pubkey) (.own user) rfl scope
  | evictUser guild role user =>
      exact mem_reported (o := .evictUser guild role user) (.network guild role) rfl scope
  | reap now maxAge => exact mem_reap

end

end Presence

/-! What the statistics collect. -/

structure Tallies.Of (t : Tallies) (mapRows : List MapRow) (selfRows : List SelfRow) : Prop where
  perNetwork : t.onlinePerNetwork.Counts (mapRows.map MapRow.network)
  usersByNetwork : ∀ network, Collects ((t.usersByNetwork.get? network).getD [])
    ((mapRows.filter (·.network == network)).map fun row => row.2.p.userId)
  devices : Collects t.devices (mapRows.map MapRow.pubkey ++ selfRows.map SelfRow.pubkey)
  users : Collects t.users
    (mapRows.map (fun row => row.2.p.userId) ++ selfRows.map fun row => row.1.1)
  deviceVersion : ∀ pubkey, pubkey ∈ t.deviceVersion.keys ↔ pubkey ∈ t.devices
  networkPubkeys : Collects t.networkPubkeys (mapRows.map MapRow.pubkey)
  offNetwork : Collects t.offNetwork ((selfRows.map SelfRow.pubkey).filter fun pubkey =>
    !(mapRows.map MapRow.pubkey).contains pubkey)

section

variable {t : Tallies} {mapRows : List MapRow} {selfRows : List SelfRow}

theorem Tallies.versioned_keys (t : Tallies) (pubkey other : PubKey) (clientVersion : String) :
    other ∈ (t.versioned pubkey clientVersion).keys ↔
      other = pubkey ∨ other ∈ t.deviceVersion.keys := by
  unfold Tallies.versioned
  split
  · rename_i hheld
    refine ⟨.inr, fun hor => hor.elim (fun hsame => ?_) id⟩
    rw [hsame, Table.mem_keys]
    exact Table.contains_iff.mp hheld
  · rw [Table.mem_keys_insert]

theorem Tallies.Of.networked (hof : t.Of mapRows []) (row : MapRow) :
    (t.networked row).Of (mapRows ++ [row]) [] where
  perNetwork := by
    rw [List.map_append]
    exact hof.perNetwork.tally row.network
  usersByNetwork := by
    intro network
    unfold Tallies.networked
    dsimp only
    rw [Table.get?_insert, List.filter_append, List.map_append]
    by_cases hsame : network = row.network
    · subst hsame
      simpa using (hof.usersByNetwork row.network).insert row.2.p.userId
    · simpa [hsame, Ne.symm hsame] using hof.usersByNetwork network
  devices := by
    change Collects (t.devices.insert row.pubkey) _
    simpa using hof.devices.insert row.pubkey
  users := by
    change Collects (t.users.insert row.2.p.userId) _
    simpa using hof.users.insert row.2.p.userId
  deviceVersion := by
    intro pubkey
    unfold Tallies.networked
    dsimp only
    rw [Tallies.versioned_keys, hof.deviceVersion, List.mem_insert_iff]
  networkPubkeys := by
    rw [List.map_append]
    exact hof.networkPubkeys.insert row.pubkey
  offNetwork := hof.offNetwork

theorem Tallies.Of.owned (hof : t.Of mapRows selfRows) (row : SelfRow) :
    (t.owned row).Of mapRows (selfRows ++ [row]) where
  perNetwork := hof.perNetwork
  usersByNetwork := hof.usersByNetwork
  devices := by
    rw [List.map_append, ← List.append_assoc]
    exact hof.devices.insert row.pubkey
  users := by
    rw [List.map_append, ← List.append_assoc]
    exact hof.users.insert row.1.1
  deviceVersion := by
    intro pubkey
    unfold Tallies.owned
    dsimp only
    rw [Tallies.versioned_keys, hof.deviceVersion, List.mem_insert_iff]
  networkPubkeys := hof.networkPubkeys
  offNetwork := by
    have hknown : t.networkPubkeys.contains row.pubkey =
        (mapRows.map MapRow.pubkey).contains row.pubkey := by
      rw [Bool.eq_iff_iff, List.contains_iff_mem, List.contains_iff_mem]
      exact hof.networkPubkeys.mem row.pubkey
    unfold Tallies.owned
    dsimp only
    rw [hknown, List.map_append, List.filter_append, List.map_singleton]
    split
    · rename_i hin
      rw [List.filter_cons_of_neg (by rw [hin]; decide), List.filter_nil, List.append_nil]
      exact hof.offNetwork
    · rename_i hout
      rw [Bool.not_eq_true] at hout
      rw [List.filter_cons_of_pos (by rw [hout]; rfl), List.filter_nil]
      exact hof.offNetwork.insert row.pubkey

theorem Tallies.of_rows (mapRows : List MapRow) (selfRows : List SelfRow) :
    (selfRows.foldl Tallies.owned (mapRows.foldl Tallies.networked {})).Of mapRows selfRows := by
  have hnetworked : ∀ (later done : List MapRow) (t : Tallies), t.Of done [] →
      (later.foldl Tallies.networked t).Of (done ++ later) [] := by
    intro later
    induction later with
    | nil => exact fun done t hof => by simpa using hof
    | cons row rest ih => exact fun done t hof => by simpa using ih _ _ (hof.networked row)
  have howned : ∀ (later done : List SelfRow) (t : Tallies), t.Of mapRows done →
      (later.foldl Tallies.owned t).Of mapRows (done ++ later) := by
    intro later
    induction later with
    | nil => exact fun done t hof => by simpa using hof
    | cons row rest ih => exact fun done t hof => by simpa using ih _ _ (hof.owned row)
  refine howned selfRows [] _ (hnetworked mapRows [] {} ?_)
  exact ⟨.empty, fun _ => .empty, .empty, .empty, fun _ => Iff.rfl, .empty, .empty⟩

theorem Tallies.Of.agrees (hof : t.Of mapRows selfRows) : t.stats.Agrees mapRows selfRows := by
  have hunited : (mapRows.map MapRow.pubkey ++ selfRows.map SelfRow.pubkey).dedup.length =
      (mapRows.map MapRow.pubkey).dedup.length + t.offNetwork.length := by
    rw [← hof.networkPubkeys.length, ← hof.devices.length, ← List.length_append]
    have hdisjoint : (t.networkPubkeys ++ t.offNetwork).Nodup := by
      refine List.nodup_append.mpr ⟨hof.networkPubkeys.nodup, hof.offNetwork.nodup, ?_⟩
      rintro pubkey hnetwork _ hoff rfl
      have hout := (List.mem_filter.mp ((hof.offNetwork.mem pubkey).mp hoff)).2
      simp [(hof.networkPubkeys.mem pubkey).mp hnetwork] at hout
    apply List.Perm.length_eq
    apply (List.perm_ext_iff_of_nodup hof.devices.nodup hdisjoint).mpr
    intro pubkey
    rw [hof.devices.mem, List.mem_append, List.mem_append, hof.networkPubkeys.mem,
      hof.offNetwork.mem, List.mem_filter]
    by_cases hnetwork : pubkey ∈ mapRows.map MapRow.pubkey <;> simp [hnetwork]
  constructor
  · intro network
    refine (hof.perNetwork.getD network).trans (List.countP_congr fun other _ => ?_)
    exact ⟨fun heq => beq_iff_eq.mpr (of_decide_eq_true heq), fun heq =>
      decide_eq_true (beq_iff_eq.mp heq)⟩
  · intro network
    rw [← (hof.usersByNetwork network).length]
    unfold Tallies.stats
    dsimp only
    rw [Table.get?_mapValues]
    cases t.usersByNetwork.get? network <;> rfl
  · exact hof.devices.length
  · exact hof.offNetwork.length
  · exact hof.devices.length.trans hunited
  · exact hof.users.length
  · unfold Tallies.stats
    dsimp only
    rw [(Table.Counts.empty.foldl _).sum, List.nil_append, List.length_map]
    have hkeys : t.deviceVersion.keys.Perm t.devices :=
      (List.perm_ext_iff_of_nodup t.deviceVersion.keys_nodup hof.devices.nodup).mpr
        hof.deviceVersion
    rw [← hkeys.length_eq, ← Table.size_eq_length_keys]
    exact List.length_map ..

theorem PresenceStats.Agrees.perm {stats : PresenceStats} {mapRows' : List MapRow}
    {selfRows' : List SelfRow} (hagrees : stats.Agrees mapRows selfRows)
    (hmap : mapRows.Perm mapRows') (hself : selfRows.Perm selfRows') :
    stats.Agrees mapRows' selfRows' := by
  have hpubkeys := hmap.map MapRow.pubkey
  have hown := hself.map SelfRow.pubkey
  have htest : (fun pubkey => !(mapRows.map MapRow.pubkey).contains pubkey) =
      fun pubkey => !(mapRows'.map MapRow.pubkey).contains pubkey := by
    funext pubkey
    rw [Bool.eq_iff_iff]
    simp [hpubkeys.mem_iff]
  constructor
  · intro network
    rw [hagrees.perNetwork, (hmap.map _).count_eq]
  · intro network
    rw [hagrees.usersPerNetwork, (((hmap.filter _).map _).dedup).length_eq]
  · rw [hagrees.devices, ((hpubkeys.append hown).dedup).length_eq]
  · rw [hagrees.offNetwork, htest, ((hown.filter _).dedup).length_eq]
  · rw [hagrees.united, hpubkeys.dedup.length_eq]
  · rw [hagrees.users, (((hmap.map _).append (hself.map _)).dedup).length_eq]
  · exact hagrees.versions

end

/-- After any operations: what the next one reports is what others can read to have changed, a reap
removes what is too old and no more, and the statistics count the rows, in whatever order they
come. -/
theorem presence_changes (changes : List Presence.Change) :
    (∀ change scope, scope ∈ ((Presence.after changes).apply change).1 ↔
      ∃ place, place.scope = scope ∧ ∃ exclude,
        ¬((Presence.after changes).othersAt place exclude).Perm
          (((Presence.after changes).apply change).2.othersAt place exclude)) ∧
    (∀ now maxAge,
      (∀ key, ((Presence.after changes).reap now maxAge).2.map.get? key =
        ((Presence.after changes).map.get? key).filter fun entry =>
          now - entry.lastSeen ≤ maxAge) ∧
      ∀ key, ((Presence.after changes).reap now maxAge).2.selfMap.get? key =
        ((Presence.after changes).selfMap.get? key).filter fun entry =>
          now - entry.lastSeen ≤ maxAge) ∧
    ∀ mapRows selfRows, mapRows.Perm (Presence.after changes).map.rows →
      selfRows.Perm (Presence.after changes).selfMap.rows →
        (statsOf mapRows selfRows).Agrees (Presence.after changes).map.rows
          (Presence.after changes).selfMap.rows := by
  have hkeyed := Presence.after_keyed changes
  refine ⟨fun change scope => ?_, fun now maxAge => ⟨fun key => ?_, fun key => ?_⟩, ?_⟩
  · simp only [hkeyed.read_differs (hkeyed.apply change)]
    exact Presence.mem_apply change scope
  · exact Table.get?_retain ..
  · exact Table.get?_retain ..
  · intro mapRows selfRows hmap hself
    exact (Tallies.of_rows mapRows selfRows).agrees.perm hmap hself

end UnityLan.Coordinator
