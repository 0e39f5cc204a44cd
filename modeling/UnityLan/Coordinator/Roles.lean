import UnityLan.Common.Attestation
import UnityLan.Foundation.Table

namespace UnityLan.Coordinator

open UnityLan.Foundation

/-! The live role source: Discord itself, the caches in front of it and the gates
that let one fetch for a key run at a time. -/

structure MemberRoles where
  username : String
  roleIds : List RoleId
  deriving DecidableEq

structure Discord where
  members : Table (GuildId × UserId) MemberRoles := ∅
  guilds : Table GuildId String := ∅
  roles : Table GuildId (List (RoleId × String)) := ∅

/-- The answer to one member lookup.  `failed` is a timeout, a rate limit, a server
error or a body that does not decode. -/
inductive MemberAnswer
  | found (roles : MemberRoles)
  | notFound
  | failed
  deriving DecidableEq

/-- The roles an answer stands for; a failed lookup reads as no membership. -/
def MemberAnswer.roles : MemberAnswer → Option MemberRoles
  | .found roles => some roles
  | .notFound => none
  | .failed => none

namespace Discord

def member (discord : Discord) (guild : GuildId) (user : UserId) : MemberAnswer :=
  match discord.members.get? (guild, user) with
  | some roles => .found roles
  | none => .notFound

end Discord

/-! Caches, stamped with the monotonic clock. -/

def ROLE_NAME_TTL : Nat := 300

def MEMBER_TTL : Nat := 30

def MEMBER_ABSENT_TTL : Nat := LONGPOLL_HOLD_SECS

def MEMBER_PRUNE_EVERY : Nat := MEMBER_ABSENT_TTL

def GUILD_NAME_TTL : Nat := 300

structure CachedMember where
  fetched : Nat
  roles : Option MemberRoles
  deriving DecidableEq

namespace CachedMember

def ttl (entry : CachedMember) : Nat :=
  match entry.roles with
  | some _ => MEMBER_TTL
  | none => MEMBER_ABSENT_TTL

def fresh (entry : CachedMember) (instant : Nat) : Bool :=
  instant - entry.fetched < entry.ttl

end CachedMember

structure RoleCaches where
  members : Table (GuildId × UserId) CachedMember := ∅
  memberPruned : Nat := 0
  names : Table GuildId (Nat × String) := ∅
  roles : Table GuildId (Nat × List (RoleId × String)) := ∅

namespace RoleCaches

def cachedMember (caches : RoleCaches) (instant : Nat) (guild : GuildId) (user : UserId) :
    Option (Option MemberRoles) :=
  match caches.members.get? (guild, user) with
  | some entry => if entry.fresh instant then some entry.roles else none
  | none => none

def storeMember (caches : RoleCaches) (instant : Nat) (guild : GuildId) (user : UserId)
    (roles : Option MemberRoles) : RoleCaches :=
  let members := caches.members.insert (guild, user) ⟨instant, roles⟩
  if instant - caches.memberPruned ≥ MEMBER_PRUNE_EVERY then
    { caches with
      members := members.retain fun _ entry => entry.fresh instant
      memberPruned := instant }
  else { caches with members := members }

def forget (caches : RoleCaches) (guild : GuildId) (user : UserId) : RoleCaches :=
  { caches with members := caches.members.erase (guild, user) }

def cachedName (caches : RoleCaches) (instant : Nat) (guild : GuildId) : Option String :=
  match caches.names.get? guild with
  | some (fetched, name) => if instant - fetched ≥ GUILD_NAME_TTL then none else some name
  | none => none

def storeName (caches : RoleCaches) (instant : Nat) (guild : GuildId) (name : String) :
    RoleCaches :=
  { caches with names := caches.names.insert guild (instant, name) }

def cachedRole (caches : RoleCaches) (instant : Nat) (guild : GuildId) (role : RoleId) :
    Option (Option String) :=
  match caches.roles.get? guild with
  | some (fetched, names) =>
      if instant - fetched ≥ ROLE_NAME_TTL then none else some (names.lookup role)
  | none => none

def storeRoles (caches : RoleCaches) (instant : Nat) (guild : GuildId)
    (names : List (RoleId × String)) : RoleCaches :=
  { caches with roles := caches.roles.insert guild (instant, names) }

inductive Op
  | cachedMember (guild : GuildId) (user : UserId)
  | storeMember (guild : GuildId) (user : UserId) (roles : Option MemberRoles)
  | forget (guild : GuildId) (user : UserId)
  | cachedName (guild : GuildId)
  | storeName (guild : GuildId) (name : String)
  | cachedRole (guild : GuildId) (role : RoleId)
  | storeRoles (guild : GuildId) (names : List (RoleId × String))
  deriving DecidableEq

@[reducible] def Op.Res : Op → Type
  | .cachedMember .. => Option (Option MemberRoles)
  | .storeMember .. => Unit
  | .forget .. => Unit
  | .cachedName _ => Option String
  | .storeName .. => Unit
  | .cachedRole .. => Option (Option String)
  | .storeRoles .. => Unit

def step (caches : RoleCaches) (instant : Nat) : (o : Op) → o.Res × RoleCaches
  | .cachedMember guild user => (caches.cachedMember instant guild user, caches)
  | .storeMember guild user roles => ((), caches.storeMember instant guild user roles)
  | .forget guild user => ((), caches.forget guild user)
  | .cachedName guild => (caches.cachedName instant guild, caches)
  | .storeName guild name => ((), caches.storeName instant guild name)
  | .cachedRole guild role => (caches.cachedRole instant guild role, caches)
  | .storeRoles guild names => ((), caches.storeRoles instant guild names)

theorem mem_storeMember {caches : RoleCaches} {instant : Nat} {guild guild' : GuildId}
    {user user' : UserId} {roles : Option MemberRoles} {entry : CachedMember}
    (hentry : (caches.storeMember instant guild user roles).members.get? (guild', user') =
      some entry) :
    ((guild', user') = (guild, user) ∧ entry = ⟨instant, roles⟩) ∨
      caches.members.get? (guild', user') = some entry := by
  unfold storeMember at hentry
  have hstored : (caches.members.insert (guild, user) ⟨instant, roles⟩).get? (guild', user') =
      some entry := by
    dsimp only at hentry
    split at hentry
    · rw [Table.get?_retain, Option.filter_eq_some_iff] at hentry
      exact hentry.1
    · exact hentry
  rw [Table.get?_insert] at hstored
  split at hstored
  · rename_i hsame
    exact .inl ⟨hsame, (Option.some.inj hstored).symm⟩
  · exact .inr hstored

end RoleCaches

/-! "This user holds no network role anywhere", remembered briefly. -/

structure RolelessMemo where
  seen : Table UserId Nat := ∅

namespace RolelessMemo

def TTL : Nat := 600

def PRUNE_AT : Nat := 4096

def fresh (memo : RolelessMemo) (instant : Nat) (user : UserId) : Bool :=
  match memo.seen.get? user with
  | some stamp => instant - stamp < TTL
  | none => false

def remember (memo : RolelessMemo) (instant : Nat) (user : UserId) : RolelessMemo :=
  let seen :=
    if memo.seen.size ≥ PRUNE_AT then memo.seen.retain fun _ stamp => instant - stamp < TTL
    else memo.seen
  { seen := seen.insert user instant }

def forget (memo : RolelessMemo) (user : UserId) : RolelessMemo :=
  { seen := memo.seen.erase user }

inductive Op
  | fresh (user : UserId)
  | remember (user : UserId)
  | forget (user : UserId)
  deriving DecidableEq

@[reducible] def Op.Res : Op → Type
  | .fresh _ => Bool
  | .remember _ => Unit
  | .forget _ => Unit

def step (memo : RolelessMemo) (instant : Nat) : (o : Op) → o.Res × RolelessMemo
  | .fresh user => (memo.fresh instant user, memo)
  | .remember user => ((), memo.remember instant user)
  | .forget user => ((), memo.forget user)

end RolelessMemo

/-! Locks held across awaits.  A lock is free while no task holds it, and a task
that goes lets go of what it holds.  The gate of a fetch lives in the map of gates
and in the tasks that cloned it. -/

inductive FlightKey
  | name (guild : GuildId)
  | role (guild : GuildId)
  | member (guild : GuildId) (user : UserId)
  deriving DecidableEq

inductive LockName
  | gate (id : Nat)
  | guildKeys
  | sign
  deriving DecidableEq

structure Locks where
  held : Table LockName Nat := ∅
  gates : Table FlightKey Nat := ∅
  clones : Table Nat Nat := ∅
  nextGate : Nat := 0

namespace Locks

def strongCount (locks : Locks) (gate : Nat) : Nat :=
  (locks.gates.values.filter (· == gate)).length + (locks.clones.values.filter (· == gate)).length

inductive Op
  | enter (key : FlightKey)
  | lock (name : LockName)
  | unlock (name : LockName)
  /-- Drop the key once no other caller still holds its gate. -/
  | retire (key : FlightKey) (gate : Nat)
  | dropClone
  deriving DecidableEq

@[reducible] def Op.Res : Op → Type
  | .enter _ => Nat
  | .lock _ => Unit
  | .unlock _ => Unit
  | .retire .. => Unit
  | .dropClone => Unit

/-- `none` where the lock is taken. -/
def step (locks : Locks) (task : Nat) : (o : Op) → Option (o.Res × Locks)
  | .enter key =>
      match locks.gates.get? key with
      | some gate => some (gate, { locks with clones := locks.clones.insert task gate })
      | none =>
          some (locks.nextGate,
            { locks with
              gates := locks.gates.insert key locks.nextGate
              clones := locks.clones.insert task locks.nextGate
              nextGate := locks.nextGate + 1 })
  | .lock name =>
      if locks.held.contains name then none
      else some ((), { locks with held := locks.held.insert name task })
  | .unlock name => some ((), { locks with held := locks.held.erase name })
  | .retire key gate =>
      some ((),
        if locks.strongCount gate = 2 then { locks with gates := locks.gates.erase key }
        else locks)
  | .dropClone => some ((), { locks with clones := locks.clones.erase task })

def release (locks : Locks) (task : Nat) : Locks :=
  { locks with
    held := locks.held.retain fun _ holder => holder != task
    clones := locks.clones.erase task }

end Locks

end UnityLan.Coordinator
