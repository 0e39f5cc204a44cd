import Mathlib.Data.Nat.Pairing
import UnityLan.Coordinator.Devices
import UnityLan.Coordinator.Register
import UnityLan.Foundation.Pool

namespace UnityLan.Coordinator

open UnityLan.Foundation

/-! The coordinator: its handlers and background sweeps as the calls of one pool,
in a world whose clocks and memberships move. -/

inductive Call
  | register (req : RegisterReq) (callerIp : IpAddr)
  | manage (req : ManageReq)
  | oauthComplete (req : OauthCompleteReq)
  | enroll (user : UserId)
  | networkAdd (guild : GuildId) (role : RoleId)
  | networkRemove (guild : GuildId) (role : RoleId)
  | memberAdd (guild : GuildId) (user : UserId)
  | memberUpdate (guild : GuildId) (user : UserId) (held : List RoleId)
  | memberRemove (guild : GuildId) (user : UserId)
  | reap
  | reclaim

inductive Reply
  | registered (resp : RegisterResp)
  | managed (resp : ManageResp)
  | minted (key : Option String)
  | done

inductive World
  | clock (now instant : Nat)
  /-- A user joins a guild, leaves it, or changes roles or name in it. -/
  | member (guild : GuildId) (user : UserId) (roles : Option MemberRoles)
  | guildName (guild : GuildId) (name : String)
  | guildRoles (guild : GuildId) (names : List (RoleId × String))
  /-- An account grants an access token, or takes it back. -/
  | accessToken (token : String) (who : Option (UserId × String))

namespace AppState

def setMember (st : AppState) (guild : GuildId) (user : UserId) :
    Option MemberRoles → AppState
  | some roles =>
      { st with
        discord :=
          { st.discord with members := st.discord.members.insert (guild, user) roles } }
  | none =>
      { st with
        discord := { st.discord with members := st.discord.members.erase (guild, user) } }

def setToken (st : AppState) (token : String) : Option (UserId × String) → AppState
  | some who => { st with oauth := st.oauth.insert token who }
  | none => { st with oauth := st.oauth.erase token }

/-- The monotonic clock never goes back; the unix clock may. -/
def move : World → AppState → Option AppState
  | .clock now instant, st =>
      if st.instant ≤ instant then some { st with now := now, instant := instant } else none
  | .member guild user roles, st => some (st.setMember guild user roles)
  | .guildName guild name, st =>
      some { st with discord := { st.discord with guilds := st.discord.guilds.insert guild name } }
  | .guildRoles guild names, st =>
      some { st with discord := { st.discord with roles := st.discord.roles.insert guild names } }
  | .accessToken token who, st => some (st.setToken token who)

variable {world : World} {st st' : AppState}

structure Untouched (st st' : AppState) : Prop where
  db : st'.db = st.db
  versions : st'.versions = st.versions
  wakers : st'.wakers = st.wakers
  parkSlots : st'.parkSlots = st.parkSlots
  presence : st'.presence = st.presence
  caches : st'.caches = st.caches
  roleless : st'.roleless = st.roleless
  nat : st'.nat = st.nat
  signing : st'.signing = st.signing

theorem move_untouched (hmove : move world st = some st') : Untouched st st' := by
  cases world
  case clock now instant =>
    simp only [move] at hmove
    split at hmove <;> cases hmove
    constructor <;> rfl
  case member guild user roles =>
    cases hmove
    cases roles <;> constructor <;> rfl
  case accessToken token who =>
    cases hmove
    cases who <;> constructor <;> rfl
  all_goals
    cases hmove
    constructor <;> rfl

end AppState

def handle (conf : Conf) : Call → Handler Reply
  | .register req callerIp => return .registered (← register conf req callerIp)
  | .manage req => return .managed (← manage req)
  | .oauthComplete req => do
      oauthComplete req
      return .done
  | .enroll user => return .minted (← enroll user)
  | .networkAdd guild role => do
      networkAdd guild role
      return .done
  | .networkRemove guild role => do
      networkRemove guild role
      return .done
  | .memberAdd guild user => do
      memberAdd guild user
      return .done
  | .memberUpdate guild user held => do
      memberUpdate guild user held
      return .done
  | .memberRemove guild user => do
      memberRemove guild user
      return .done
  | .reap => do
      reap
      return .done
  | .reclaim => do
      reclaim
      return .done

def machine (conf : Conf) : Machine sig where
  State := AppState
  Call := Call
  Err := ApiError
  Reply := Reply
  Choice := Choice
  World := World
  start := handle conf
  exec := AppState.exec conf
  suspends := Op.suspends
  release := AppState.release
  move := AppState.move

/-! Concrete runs, as the labels that are played. -/

abbrev Script (conf : Conf) := List (machine conf).Label

namespace Script

variable {conf : Conf}

def call (call : Call) : Script conf := [.call call]

def steps (task count : Nat) (choice : Choice) : Script conf :=
  List.replicate count (.step task choice)

def drop (task : Nat) : Script conf := [.drop task]

def move (world : World) : Script conf := [.move world]

end Script

/-- A small deployment; its scope hash has no collisions. -/
def Conf.small : Conf where
  wgNet := ⟨0x0a000000#32, 8⟩
  maxParked := 8
  enrollPublic := 7
  sip := BitVec.toNat
  scopeHash := fun counts =>
    counts.foldr
      (fun row rest =>
        let code :=
          match row.1 with
          | .guild id => 2 * id
          | .user id => 2 * id + 1
        Nat.pair (Nat.pair code row.2) rest + 1)
      0
  seedHash := fun content => content.pubkey.toNat
  relayCredential := fun secret username => secret ++ username

def personalDevice (pubkey : PubKey) (name : String) : RegisterReq where
  wgPubkey := pubkey
  deviceName := name
  peerOwnDevices := true
  possessionProof := some ⟨pubkey, 7⟩

end UnityLan.Coordinator
