import UnityLan.Coordinator.Versions

namespace UnityLan.Coordinator

open UnityLan.Foundation

/-! Which devices are registered where, in memory. -/

structure MemberPresence where
  pubkey : PubKey
  ip : Ipv4Addr
  userId : UserId
  username : String
  deviceName : String
  isPrimary : Bool
  endpoint : Option SocketAddr
  deriving DecidableEq

structure PresenceEntry where
  p : MemberPresence
  lastSeen : Nat
  clientVersion : String
  deriving DecidableEq

structure Presence where
  map : Table (GuildId × RoleId × PubKey) PresenceEntry := ∅
  selfMap : Table (UserId × PubKey) PresenceEntry := ∅

/-- Shared body of `record` and `recordSelf`: whether the presence part changed. -/
def recordIn [DecidableEq κ] (map : Table κ PresenceEntry) (key : κ)
    (p : MemberPresence) (clientVersion : String) (now : Nat) :
    Bool × Table κ PresenceEntry :=
  let changed := decide ((map.get? key).map (·.p) ≠ some p)
  (changed, map.insert key ⟨p, now, clientVersion⟩)

namespace Presence

def record (presence : Presence) (guild : GuildId) (role : RoleId)
    (p : MemberPresence) (clientVersion : String) (now : Nat) : Bool × Presence :=
  let (changed, map) := recordIn presence.map (guild, role, p.pubkey) p clientVersion now
  (changed, { presence with map := map })

def recordSelf (presence : Presence) (user : UserId) (p : MemberPresence)
    (clientVersion : String) (now : Nat) : Bool × Presence :=
  let (changed, selfMap) := recordIn presence.selfMap (user, p.pubkey) p clientVersion now
  (changed, { presence with selfMap := selfMap })

def evict (presence : Presence) (guild : GuildId) (role : RoleId) (pubkey : PubKey) :
    Bool × Presence :=
  (presence.map.contains (guild, role, pubkey),
    { presence with map := presence.map.erase (guild, role, pubkey) })

def evictSelf (presence : Presence) (user : UserId) (pubkey : PubKey) : Bool × Presence :=
  (presence.selfMap.contains (user, pubkey),
    { presence with selfMap := presence.selfMap.erase (user, pubkey) })

def evictUser (presence : Presence) (guild : GuildId) (role : RoleId) (user : UserId) :
    Bool × Presence :=
  let map := presence.map.retain fun key entry =>
    !(key.1 == guild && key.2.1 == role && entry.p.userId == user)
  (decide (map.size ≠ presence.map.size), { presence with map := map })

def networksOf (presence : Presence) (pubkey : PubKey) : List (GuildId × RoleId) :=
  (presence.map.keys.filter fun key => key.2.2 == pubkey).map fun key => (key.1, key.2.1)

def othersIn (presence : Presence) (guild : GuildId) (role : RoleId)
    (excludePubkey : PubKey) : List MemberPresence :=
  (presence.map.rows.filter fun row =>
    row.1.1 == guild && row.1.2.1 == role && row.1.2.2 != excludePubkey).map (·.2.p)

def othersOfUser (presence : Presence) (user : UserId) (excludePubkey : PubKey) :
    List MemberPresence :=
  (presence.selfMap.rows.filter fun row =>
    row.1.1 == user && row.1.2 != excludePubkey).map (·.2.p)

def fresh (now maxAge : Nat) (entry : PresenceEntry) : Bool :=
  now - entry.lastSeen ≤ maxAge

/-- The two halves of `reap`; each holds the lock of its own map. -/
def reapMap (presence : Presence) (now maxAge : Nat) : List Scope × Presence :=
  (((presence.map.rows.filter fun row => !fresh now maxAge row.2).map
      fun row => Scope.guild row.1.1),
    { presence with map := presence.map.retain fun _ entry => fresh now maxAge entry })

def reapSelf (presence : Presence) (now maxAge : Nat) : List Scope × Presence :=
  (((presence.selfMap.rows.filter fun row => !fresh now maxAge row.2).map
      fun row => Scope.user row.1.1),
    { presence with selfMap := presence.selfMap.retain fun _ entry => fresh now maxAge entry })

/-- The two halves of `present_pubkeys`. -/
def mapPubkeys (presence : Presence) : List PubKey :=
  presence.map.keys.map fun key => key.2.2

def selfPubkeys (presence : Presence) : List PubKey :=
  presence.selfMap.keys.map Prod.snd

inductive Op
  | record (guild : GuildId) (role : RoleId) (p : MemberPresence)
      (clientVersion : String) (now : Nat)
  | recordSelf (user : UserId) (p : MemberPresence) (clientVersion : String) (now : Nat)
  | evict (guild : GuildId) (role : RoleId) (pubkey : PubKey)
  | evictSelf (user : UserId) (pubkey : PubKey)
  | evictUser (guild : GuildId) (role : RoleId) (user : UserId)
  | networksOf (pubkey : PubKey)
  | othersIn (guild : GuildId) (role : RoleId) (excludePubkey : PubKey)
  | othersOfUser (user : UserId) (excludePubkey : PubKey)
  | reapMap (now maxAge : Nat)
  | reapSelf (now maxAge : Nat)
  | mapPubkeys
  | selfPubkeys

@[reducible] def Op.Res : Op → Type
  | .record .. => Bool
  | .recordSelf .. => Bool
  | .evict .. => Bool
  | .evictSelf .. => Bool
  | .evictUser .. => Bool
  | .networksOf _ => List (GuildId × RoleId)
  | .othersIn .. => List MemberPresence
  | .othersOfUser .. => List MemberPresence
  | .reapMap .. => List Scope
  | .reapSelf .. => List Scope
  | .mapPubkeys => List PubKey
  | .selfPubkeys => List PubKey

def step (presence : Presence) : (o : Op) → o.Res × Presence
  | .record guild role p clientVersion now =>
      presence.record guild role p clientVersion now
  | .recordSelf user p clientVersion now => presence.recordSelf user p clientVersion now
  | .evict guild role pubkey => presence.evict guild role pubkey
  | .evictSelf user pubkey => presence.evictSelf user pubkey
  | .evictUser guild role user => presence.evictUser guild role user
  | .networksOf pubkey => (presence.networksOf pubkey, presence)
  | .othersIn guild role excludePubkey =>
      (presence.othersIn guild role excludePubkey, presence)
  | .othersOfUser user excludePubkey => (presence.othersOfUser user excludePubkey, presence)
  | .reapMap now maxAge => presence.reapMap now maxAge
  | .reapSelf now maxAge => presence.reapSelf now maxAge
  | .mapPubkeys => (presence.mapPubkeys, presence)
  | .selfPubkeys => (presence.selfPubkeys, presence)

/-! The rows of one place, as others read them, and which places an operation changes. -/

end Presence

/-- One network, or the online set of one user. -/
inductive Place
  | network (guild : GuildId) (role : RoleId)
  | own (user : UserId)
  deriving DecidableEq

def Place.scope : Place → Scope
  | .network guild _ => .guild guild
  | .own user => .user user

namespace Presence

def rowAt (presence : Presence) : Place → PubKey → Option MemberPresence
  | .network guild role, pubkey => (presence.map.get? (guild, role, pubkey)).map (·.p)
  | .own user, pubkey => (presence.selfMap.get? (user, pubkey)).map (·.p)

def othersAt (presence : Presence) : Place → PubKey → List MemberPresence
  | .network guild role, exclude => presence.othersIn guild role exclude
  | .own user, exclude => presence.othersOfUser user exclude

theorem mem_othersAt {presence : Presence} {place : Place} {exclude : PubKey}
    {p : MemberPresence} :
    p ∈ presence.othersAt place exclude ↔
      ∃ pubkey, pubkey ≠ exclude ∧ presence.rowAt place pubkey = some p := by
  cases place with
  | network guild role =>
      simp only [othersAt, othersIn, rowAt, List.mem_map, List.mem_filter, Prod.exists,
        Table.mem_rows, Bool.and_eq_true, beq_iff_eq, bne_iff_ne, Option.map_eq_some_iff]
      constructor
      · rintro ⟨_, _, pubkey, entry, ⟨hget, ⟨rfl, rfl⟩, hother⟩, rfl⟩
        exact ⟨pubkey, hother, entry, hget, rfl⟩
      · rintro ⟨pubkey, hother, entry, hget, rfl⟩
        exact ⟨guild, role, pubkey, entry, ⟨hget, ⟨rfl, rfl⟩, hother⟩, rfl⟩
  | own user =>
      simp only [othersAt, othersOfUser, rowAt, List.mem_map, List.mem_filter, Prod.exists,
        Table.mem_rows, Bool.and_eq_true, beq_iff_eq, bne_iff_ne, Option.map_eq_some_iff]
      constructor
      · rintro ⟨_, pubkey, entry, ⟨hget, rfl, hother⟩, rfl⟩
        exact ⟨pubkey, hother, entry, hget, rfl⟩
      · rintro ⟨pubkey, hother, entry, hget, rfl⟩
        exact ⟨user, pubkey, entry, ⟨hget, rfl, hother⟩, rfl⟩

def changedPlaces (presence : Presence) : (o : Op) → o.Res → List Place
  | .record guild role .., changed => if changed then [.network guild role] else []
  | .recordSelf user .., changed => if changed then [.own user] else []
  | .evict guild role _, removed => if removed then [.network guild role] else []
  | .evictSelf user _, removed => if removed then [.own user] else []
  | .evictUser guild role _, removed => if removed then [.network guild role] else []
  | .reapMap now maxAge, _ =>
      (presence.map.rows.filter fun row => !fresh now maxAge row.2).map
        fun row => .network row.1.1 row.1.2.1
  | .reapSelf now maxAge, _ =>
      (presence.selfMap.rows.filter fun row => !fresh now maxAge row.2).map
        fun row => .own row.1.1
  | _, _ => []

theorem recordIn_kept [DecidableEq κ] {map : Table κ PresenceEntry} {key other : κ}
    {p : MemberPresence} {clientVersion : String} {now : Nat}
    (hkept : other = key → (recordIn map key p clientVersion now).1 = false) :
    ((recordIn map key p clientVersion now).2.get? other).map (·.p) =
      (map.get? other).map (·.p) := by
  simp only [recordIn, Table.get?_insert]
  by_cases hkey : other = key
  · have hsame := hkept hkey
    simp only [recordIn, decide_eq_false_iff_not, not_not] at hsame
    rw [if_pos hkey, hkey, hsame]
    rfl
  · rw [if_neg hkey]

theorem retain_kept [DecidableEq κ] {map : Table κ PresenceEntry}
    {keep : κ → PresenceEntry → Bool} {key : κ}
    (hkept : ∀ entry, map.get? key = some entry → keep key entry = true) :
    (map.retain keep).get? key = map.get? key := by
  rw [Table.get?_retain]
  cases hget : map.get? key with
  | none => rfl
  | some entry => simp [Option.filter, hkept entry hget]

theorem size_retain_lt [DecidableEq κ] {map : Table κ PresenceEntry}
    {keep : κ → PresenceEntry → Bool} {key : κ} {entry : PresenceEntry}
    (hget : map.get? key = some entry) (hgone : keep key entry = false) :
    (map.retain keep).size ≠ map.size := by
  intro hsize
  have hall : ∀ row ∈ map.rows, keep row.1 row.2 = true := by
    have hfilter := List.length_filter_eq_length_iff.mp hsize
    exact hfilter
  exact Bool.false_ne_true (hgone.symm.trans (hall _ (Table.mem_rows.mpr hget)))

theorem not_changed {place : Place} {changed : Bool}
    (hkept : place ∉ if changed then [place] else []) : changed = false := by
  cases changed with
  | true => simp at hkept
  | false => rfl

theorem rowAt_step {presence : Presence} {o : Op} {place : Place}
    (hkept : place ∉ presence.changedPlaces o (presence.step o).1) (pubkey : PubKey) :
    (presence.step o).2.rowAt place pubkey = presence.rowAt place pubkey := by
  cases o with
  | record guild role p clientVersion now =>
      cases place with
      | own user => rfl
      | network g r =>
          refine recordIn_kept fun hkey => ?_
          obtain ⟨rfl, rfl, -⟩ : g = guild ∧ r = role ∧ pubkey = p.pubkey := by
            simpa using hkey
          exact not_changed hkept
  | recordSelf user p clientVersion now =>
      cases place with
      | network g r => rfl
      | own u =>
          refine recordIn_kept fun hkey => ?_
          obtain ⟨rfl, -⟩ : u = user ∧ pubkey = p.pubkey := by
            simpa using hkey
          exact not_changed hkept
  | evict guild role key =>
      cases place with
      | own user => rfl
      | network g r =>
          simp only [step, evict, rowAt, Table.get?_erase]
          split
          · rename_i hkey
            obtain ⟨rfl, rfl, rfl⟩ : g = guild ∧ r = role ∧ pubkey = key := by
              simpa using hkey
            have habsent : presence.map.contains (g, r, pubkey) = false :=
              not_changed hkept
            simp only [Table.contains, Option.isSome_eq_false_iff,
              Option.isNone_iff_eq_none] at habsent
            rw [habsent]
          · rfl
  | evictSelf user key =>
      cases place with
      | network g r => rfl
      | own u =>
          simp only [step, evictSelf, rowAt, Table.get?_erase]
          split
          · rename_i hkey
            obtain ⟨rfl, rfl⟩ : u = user ∧ pubkey = key := by
              simpa using hkey
            have habsent : presence.selfMap.contains (u, pubkey) = false :=
              not_changed hkept
            simp only [Table.contains, Option.isSome_eq_false_iff,
              Option.isNone_iff_eq_none] at habsent
            rw [habsent]
          · rfl
  | evictUser guild role user =>
      cases place with
      | own u => rfl
      | network g r =>
          simp only [step, evictUser, rowAt]
          rw [retain_kept]
          intro entry hentry
          by_contra hgone
          rw [Bool.not_eq_true] at hgone
          have hmatch : (g = guild ∧ r = role) ∧ entry.p.userId = user := by
            simpa using hgone
          obtain ⟨⟨rfl, rfl⟩, rfl⟩ := hmatch
          have hchanged : (presence.step (.evictUser g r entry.p.userId)).1 = true :=
            decide_eq_true (size_retain_lt hentry hgone)
          exact hkept (by rw [changedPlaces, if_pos hchanged]; exact List.mem_singleton_self _)
  | reapMap now maxAge =>
      cases place with
      | own u => rfl
      | network g r =>
          simp only [step, reapMap, rowAt]
          rw [retain_kept]
          intro entry hentry
          by_contra hstale
          rw [Bool.not_eq_true] at hstale
          refine hkept (List.mem_map.mpr ⟨((g, r, pubkey), entry), ?_, rfl⟩)
          exact List.mem_filter.mpr ⟨Table.mem_rows.mpr hentry, by simp [hstale]⟩
  | reapSelf now maxAge =>
      cases place with
      | network g r => rfl
      | own u =>
          simp only [step, reapSelf, rowAt]
          rw [retain_kept]
          intro entry hentry
          by_contra hstale
          rw [Bool.not_eq_true] at hstale
          refine hkept (List.mem_map.mpr ⟨((u, pubkey), entry), ?_, rfl⟩)
          exact List.mem_filter.mpr ⟨Table.mem_rows.mpr hentry, by simp [hstale]⟩
  | _ => rfl

end Presence

end UnityLan.Coordinator
