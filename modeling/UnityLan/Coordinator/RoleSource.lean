import UnityLan.Coordinator.State

namespace UnityLan.Coordinator

open UnityLan.Foundation

/-! The lookups of the live role source. -/

/-- Run at most one `fetch` at a time per key.  A caller that queued behind one
reads the cache again before it fetches. -/
def dedup (key : FlightKey) (cached : Prog sig ε (Option α)) (fetch : Prog sig ε α) :
    Prog sig ε α := do
  match ← cached with
  | some hit => return hit
  | none =>
      let gate ← act (.locks (.enter key))
      act (.locks (.lock (.gate gate)))
      let out ←
        match ← cached with
        | some hit => pure hit
        | none => fetch
      act (.locks (.unlock (.gate gate)))
      act (.locks (.retire key gate))
      act (.locks .dropClone)
      return out

namespace RoleSource

/-- The fetch of a member lookup: only an answer that the member does not exist is
remembered as an absence. -/
def fetchMember (guild : GuildId) (user : UserId) : Prog sig ε (Option MemberRoles) := do
  match ← act (.fetchMember guild user) with
  | .found roles =>
      act (.caches (.storeMember guild user (some roles)))
      return some roles
  | .notFound =>
      act (.caches (.storeMember guild user none))
      return none
  | .failed => return none

def member (guild : GuildId) (user : UserId) : Prog sig ε (Option MemberRoles) :=
  if guild = PERSONAL_SCOPE then return none
  else
    dedup (.member guild user) (act (.caches (.cachedMember guild user)))
      (fetchMember guild user)

def guildName (guild : GuildId) : Prog sig ε (Option String) :=
  if guild = PERSONAL_SCOPE then return none
  else
    dedup (.name guild) (do return (← act (.caches (.cachedName guild))).map some) do
      match ← act (.fetchGuild guild) with
      | none => return none
      | some name =>
          act (.caches (.storeName guild name))
          return some name

def roleName (guild : GuildId) (role : RoleId) : Prog sig ε (Option String) :=
  if guild = PERSONAL_SCOPE then return none
  else
    dedup (.role guild) (act (.caches (.cachedRole guild role))) do
      match ← act (.fetchRoles guild) with
      | none => return none
      | some names =>
          act (.caches (.storeRoles guild names))
          return names.lookup role

def forget (guild : GuildId) (user : UserId) : Prog sig ε Unit :=
  act (.caches (.forget guild user))

end RoleSource

end UnityLan.Coordinator
