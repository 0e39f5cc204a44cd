import UnityLan.Coordinator.Changes
import UnityLan.Coordinator.Machine
import UnityLan.Foundation.Annex

namespace UnityLan.Coordinator.Dashboard

open UnityLan.Foundation Prog

/-! The operator's `/admin/stats`, which is held while nothing changes, and `/admin/graph`. They
are built onto the coordinator, with the deployment seed beside its state. -/

/-! The statistics, and what is sent of them. -/

structure NetStat where
  roleId : RoleId
  name : String
  online : Nat
  users : Nat

structure GuildStat where
  id : GuildId
  name : Option String
  networks : List NetStat

structure AdminStats where
  guilds : List GuildStat
  totalNetworks : Nat
  onlineDevices : Nat
  onlineUsers : Nat
  offNetworkDevices : Nat
  enrolledDevices : Nat
  longpollWaiters : Nat
  version : Nat
  clientVersions : Table String Nat

def netStats (networks : List Network) (pres : PresenceStats) (id : GuildId) : List NetStat :=
  ((networks.filter fun n => n.guildId == id).map fun n =>
    { roleId := n.roleId
      name := n.name
      online := (pres.onlinePerNetwork.get? (id, n.roleId)).getD 0
      users := (pres.usersPerNetwork.get? (id, n.roleId)).getD 0 : NetStat }).insertionSort
    fun a b => a.name ≤ b.name

/-- The statistics of what was read; a guild goes by the name it was found under. -/
def assemble (networks : List Network) (enrolledDevices : Nat)
    (names : List (GuildId × Option String)) (longpollWaiters version : Nat) (pres : PresenceStats) : AdminStats where
  guilds := names.map fun named =>
    { id := named.1, name := named.2, networks := netStats networks pres named.1 }
  totalNetworks := networks.length
  onlineDevices := pres.onlineDevices
  onlineUsers := pres.onlineUsers
  offNetworkDevices := pres.offNetworkDevices
  enrolledDevices := enrolledDevices
  longpollWaiters := longpollWaiters
  version := version
  clientVersions := pres.clientVersions

structure Totals where
  guilds : Nat
  networks : Nat
  devicesOnline : Nat
  usersOnline : Nat
  devicesOffNetwork : Nat
  devicesEnrolled : Nat
  longpollWaiters : Nat

structure NetJson where
  roleId : String
  name : String
  online : Nat
  users : Nat

structure GuildJson where
  id : String
  name : Option String
  networks : List NetJson

structure StatsJson where
  version : Nat
  totals : Totals
  guilds : List GuildJson
  clientVersions : List (String × Nat)

def GuildStat.json (g : GuildStat) : Option GuildJson :=
  let nets := (g.networks.filter fun n => n.online > 0).map fun n =>
    (⟨toString n.roleId, n.name, n.online, n.users⟩ : NetJson)
  if nets.isEmpty then none else some ⟨toString g.id, g.name, nets⟩

def statsJson (s : AdminStats) : StatsJson where
  version := s.version
  totals :=
    { guilds := s.guilds.length
      networks := s.totalNetworks
      devicesOnline := s.onlineDevices
      usersOnline := s.onlineUsers
      devicesOffNetwork := s.offNetworkDevices
      devicesEnrolled := s.enrolledDevices
      longpollWaiters := s.longpollWaiters }
  guilds := s.guilds.filterMap GuildStat.json
  clientVersions := s.clientVersions.rows.insertionSort fun a b => a.1 ≤ b.1

/-! The graph. -/

abbrev Edge := GuildId × RoleId × UserId

def Edge.upTo (a b : Edge) : Bool :=
  a.1 < b.1 || a.1 == b.1 && (a.2.1 < b.2.1 || a.2.1 == b.2.1 && a.2.2 ≤ b.2.2)

def membershipOf (rows : List MapRow) : List Edge :=
  (rows.map fun row => (row.1.1, row.1.2.1, row.2.p.userId)).dedup.insertionSort fun a b => a.upTo b

structure GraphGuild where
  id : String
  label : String

inductive GraphNode
  | network (id guild label : String)
  | user (id : String)

structure GraphJson where
  version : Nat
  guilds : List GraphGuild
  nodes : List GraphNode
  edges : List (String × String)

def collect {ν : Type} (rows : List (Nat × ν)) : Table Nat ν :=
  rows.foldl (fun table row => table.insert row.1 row.2) ∅

def ordered {ν : Type} (table : Table Nat ν) : List (Nat × ν) :=
  table.rows.insertionSort fun a b => a.1 ≤ b.1

def graphJson (anonLabel : Key → UserId → String) (seed : Key) (networks : List Network)
    (membership : List Edge) (guildNames : Table GuildId String) (version : Nat) : GraphJson :=
  let net (role : RoleId) := s!"net-{role}"
  let guild (id : GuildId) := s!"guild-{id}"
  let user (id : UserId) := s!"user-{anonLabel seed id}"
  let registryGuild := collect (networks.map fun n => (n.roleId, n.guildId))
  let netGuild := collect (membership.map fun edge =>
    (edge.2.1, (registryGuild.get? edge.2.1).getD edge.1))
  let netNames := collect (networks.map fun n => (n.roleId, n.name))
  let guildLabel (id : GuildId) := (guildNames.get? id).getD (toString id)
  { version
    guilds := (netGuild.values.dedup.insertionSort (· ≤ ·)).map fun id =>
      ⟨guild id, guildLabel id⟩
    nodes :=
      ((ordered netGuild).map fun row =>
        .network (net row.1) (guild row.2)
          s!"{guildLabel row.2}: {(netNames.get? row.1).getD (toString row.1)}") ++
        ((membership.map fun edge => user edge.2.2).dedup.insertionSort (· ≤ ·)).map .user
    edges := membership.map fun edge => (user edge.2.2, net edge.2.1) }

/-! The operations and the handlers. -/

inductive AdminOp
  | countDevices
  | guildIds
  | deploymentSeed
  | insertDeploymentSeed (seed : Key)
  | stats
  | membership
  /-- The receivers live in the requests that are parked; how many there are is left open. -/
  | waiters
  | global
  /-- Suspend until the global version is not the one seen, or the hold elapsed. -/
  | changed (seen deadline : Nat)

@[reducible] def AdminOp.Res : AdminOp → Type
  | .countDevices => Except StoreError Nat
  | .guildIds => Except StoreError (List GuildId)
  | .deploymentSeed => Except StoreError (Option Key)
  | .insertDeploymentSeed _ => Except StoreError Unit
  | .stats => PresenceStats
  | .membership => List Edge
  | .waiters => Nat
  | .global => Nat
  | .changed .. => Bool

@[reducible] def adminSig : Sig where
  Op := AdminOp
  Res := AdminOp.Res

abbrev AdminHandler (α : Type) := Prog (sig.sum adminSig) ApiError α

def read (o : AdminOp) : AdminHandler o.Res :=
  Prog.perform (S := sig.sum adminSig) (.inr o)

def stored {α : Type} (answer : AdminHandler (Except StoreError α)) : AdminHandler α := do
  match ← answer with
  | .ok value => return value
  | .error error => throw (internal error)

def allNetworks : AdminHandler (List Network) :=
  ((sql .allNetworks).mapError internal).left

def loadOrCreateDeploymentSeed : AdminHandler Key := do
  match ← stored (read .deploymentSeed) with
  | some seed => return seed
  | none =>
      let seed ← (act .genSigningKey : Prog sig ApiError _).left
      stored (read (.insertDeploymentSeed seed))
      return seed

def guildSet (guildIds : List GuildId) (networks : List Network) (online : List GuildId) :
    List GuildId :=
  (guildIds ++ networks.map Network.guildId ++ online).dedup.insertionSort (· ≤ ·)

def guildNames : List GuildId → AdminHandler (List (GuildId × Option String))
  | [] => return []
  | id :: rest => do
      let name ← (RoleSource.guildName id : Prog sig ApiError _).left
      return (id, name) :: (← guildNames rest)

def gatherStats : AdminHandler AdminStats := do
  let networks ← allNetworks
  let enrolledDevices ← stored (read .countDevices)
  let guildIds ← stored (read .guildIds)
  let pres ← read .stats
  let ids := guildSet guildIds networks (pres.onlinePerNetwork.keys.map Prod.fst)
  let names ← guildNames ids
  let longpollWaiters ← read .waiters
  let version ← read .global
  return assemble networks enrolledDevices names longpollWaiters version pres

def ADMIN_POLL_HOLD_SECS : Nat := 25

/-- What the operator configures, and the library function that labels users. -/
structure Surface where
  adminToken : Option String
  anonLabel : Key → UserId → String

def bearer (header : String) : Option String :=
  if "Bearer ".toList.isPrefixOf header.toList then
    some (String.ofList (header.toList.drop "Bearer ".length))
  else none

variable (surface : Surface)

def adminAuth (authorization : Option String) : AdminHandler Unit :=
  match surface.adminToken with
  | none => throw ⟨.notFound, "not found"⟩
  | some token =>
      if authorization.bind bearer = some token then return
      else throw ⟨.unauthorized, "unauthorized"⟩

/-- The loop of a held request. Once the version has moved on it never comes back, so the loop is
left at the latest on its second round. -/
def waitLoop (since deadline : Nat) : Nat → AdminHandler Bool
  | 0 => do nomatch ← (act .never : Prog sig ApiError _).left
  | rounds + 1 => do
      let seen ← read .global
      if seen ≠ since then return true
      else if ← read (.changed seen deadline) then waitLoop since deadline rounds
      else return false

def waitForChangeUntil (since hold : Nat) : AdminHandler Bool := do
  let started ← (act .instant : Prog sig ApiError _).left
  waitLoop since (started + hold) (← (act .rounds : Prog sig ApiError _).left)

def adminStats (authorization : Option String) (since : Option Nat) : AdminHandler StatsJson := do
  adminAuth surface authorization
  let version ← read .global
  if since = some version then
    let _ ← waitForChangeUntil version ADMIN_POLL_HOLD_SECS
  return statsJson (← gatherStats)

def buildGraph : AdminHandler GraphJson := do
  let seed ← loadOrCreateDeploymentSeed
  let networks ← allNetworks
  let membership ← read .membership
  let names ← guildNames (guildSet [] networks (membership.map Prod.fst))
  let version ← read .global
  let known := names.filterMap fun named => named.2.map fun name => (named.1, name)
  return graphJson surface.anonLabel seed networks membership (collect known) version

def adminGraph (authorization : Option String) : AdminHandler GraphJson := do
  adminAuth surface authorization
  buildGraph surface

inductive AdminCall
  | stats (authorization : Option String) (since : Option Nat)
  | graph (authorization : Option String)

inductive AdminReply
  | stats (json : StatsJson)
  | graph (json : GraphJson)

def AdminReply.version : AdminReply → Nat
  | .stats json => json.version
  | .graph json => json.version

def handleAdmin : AdminCall → AdminHandler AdminReply
  | .stats authorization since => return .stats (← adminStats surface authorization since)
  | .graph authorization => return .graph (← adminGraph surface authorization)

def insertSeed (held : Option Key) (seed : Key) : Except StoreError Unit × Option Key :=
  match held with
  | some _ => (.error .uniqueViolation, held)
  | none => (.ok (), some seed)

def execStored {α : Type} (choice : Choice) (seed : Option Key)
    (run : Except StoreError α × Option Key) : Option (Except StoreError α × Option Key) :=
  match choice.why with
  | some why => some (.error (.database why), seed)
  | none => some run

def exec : (o : AdminOp) → Choice → AppState → Option Key → Option (o.Res × Option Key)
  | .countDevices, choice, st, seed =>
      execStored choice seed (.ok st.db.devices.table.size, seed)
  | .guildIds, choice, st, seed => execStored choice seed (.ok st.db.guildSigningKeys.keys, seed)
  | .deploymentSeed, choice, _, seed => execStored choice seed (.ok seed, seed)
  | .insertDeploymentSeed fresh, choice, _, seed =>
      execStored choice seed (insertSeed seed fresh)
  | .stats, _, st, seed => some (statsOf st.presence.map.rows st.presence.selfMap.rows, seed)
  | .membership, _, st, seed => some (membershipOf st.presence.map.rows, seed)
  | .waiters, choice, _, seed =>
      match choice with
      | .rounds count => some (count, seed)
      | _ => none
  | .global, _, st, seed => some (st.versions.global, seed)
  | .changed seen deadline, choice, st, seed =>
      match choice with
      | .arm .scopes => if st.versions.global ≠ seen then some (true, seed) else none
      | .arm .elapsed => if deadline ≤ st.instant then some (false, seed) else none
      | _ => none

def suspends : AdminOp → Bool
  | .countDevices => true
  | .guildIds => true
  | .deploymentSeed => true
  | .insertDeploymentSeed _ => true
  | .changed .. => true
  | _ => false

variable (conf : Conf)

def annex : (machine conf).Annex adminSig where
  State := Option Key
  Call := AdminCall
  Reply := AdminReply
  start := handleAdmin surface
  exec := exec
  suspends := suspends

/-- The coordinator with its dashboard. -/
def operated : Machine (sig.sum adminSig) :=
  (machine conf).withAnnex (annex surface conf)

end UnityLan.Coordinator.Dashboard
