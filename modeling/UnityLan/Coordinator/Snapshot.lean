import UnityLan.Coordinator.Auth
import UnityLan.Coordinator.Nat
import UnityLan.Coordinator.RoleSource
import UnityLan.Coordinator.Signatures

namespace UnityLan.Coordinator

open UnityLan.Foundation

/-! Building one caller's view of the mesh, phase by phase. -/

variable (conf : Conf)

/-- What is handed on from one phase to the next beside its own result: the member
lookups made so far, and the scopes whose membership this request changed. -/
abbrev MemberCache := List (GuildId × Option MemberRoles)

structure Built where
  resp : RegisterResp
  callerChanged : Bool
  scopes : List Scope

structure Device where
  ip : Ipv4Addr
  name : String
  isPrimary : Bool
  deriving DecidableEq

structure Membership where
  status : List NetworkStatus := []
  /-- The enabled networks; parallel to `networkNames`. -/
  held : List (GuildId × RoleId) := []
  networkNames : List String := []
  community : List (GuildId × String) := []
  username : String
  personal : Bool := false
  deriving DecidableEq

def insertGuild (guild : GuildId) (guilds : List GuildId) : List GuildId :=
  if guild ∈ guilds then guilds else guilds.orderedInsert (· ≤ ·) guild

theorem mem_insertGuild {guild other : GuildId} {guilds : List GuildId} :
    guild ∈ insertGuild other guilds ↔ guild = other ∨ guild ∈ guilds := by
  unfold insertGuild
  split
  · rename_i hmem
    constructor
    · exact .inr
    · rintro (rfl | hguild)
      · exact hmem
      · exact hguild
  · exact List.mem_orderedInsert _

namespace Membership

def guilds (m : Membership) : List GuildId :=
  if m.personal then [PERSONAL_SCOPE]
  else m.status.foldr (fun network guilds => insertGuild network.guildId guilds) []

def hasIdentity (m : Membership) : Bool :=
  !m.status.isEmpty || m.personal

def communityOf (m : Membership) (guild : GuildId) : String :=
  (m.community.lookup guild).getD ""

end Membership

def wantsPersonalScope (req : RegisterReq) : Bool :=
  req.peerOwnDevices

def lookupMember (cache : MemberCache) (guild : GuildId) (user : UserId) :
    Handler (Option MemberRoles × MemberCache) :=
  match cache.lookup guild with
  | some member => return (member, cache)
  | none => do
      let member ← RoleSource.member guild user
      return (member, (guild, member) :: cache)

def holdsRole (member : Option MemberRoles) (role : RoleId) : Bool :=
  match member with
  | some roles => roles.roleIds.contains role
  | none => false

def holdsAnyNetworkRole (user : UserId) :
    List Network → MemberCache → Handler (Bool × MemberCache)
  | [], cache => return (false, cache)
  | net :: rest, cache => do
      let (member, cache) ← lookupMember cache net.guildId user
      if holdsRole member net.roleId then return (true, cache)
      else holdsAnyNetworkRole user rest cache

def resolveDevice (req : RegisterReq) (user : UserId) (networks : List Network)
    (cache : MemberCache) : Handler (Device × MemberCache) := do
  let (holds, cache) ← holdsAnyNetworkRole user networks cache
  if !holds && !wantsPersonalScope req then
    return (⟨0, "", false⟩, cache)
  else
    let (ip, name) ←
      (Store.allocateDevice conf req.wgPubkey user (sanitizeLabel req.deviceName)).mapError
        internal
    (sql (.ensurePrimary user req.wgPubkey)).mapError internal
    let primary ← (sql (.primaryPubkey user)).mapError internal
    return (⟨ip, name, primary == some req.wgPubkey⟩, cache)

def shouldSupersede (tokenOwner : UserId) (oldPubkey : PubKey) (callerUser : UserId)
    (callerPubkey : PubKey) : Bool :=
  tokenOwner == callerUser && oldPubkey != callerPubkey

/-- Evict a device from networks; the answer adds the guilds where a row went. -/
def evictFrom (pubkey : PubKey) :
    List (GuildId × RoleId) → List Scope → Handler (List Scope)
  | [], changed => return changed
  | (guild, role) :: rest, changed => do
      let removed ← act (.presence (.evict guild role pubkey))
      evictFrom pubkey rest
        (if removed then (Scope.guild guild).insertInto changed else changed)

def retireSuperseded (req : RegisterReq) (user : UserId) (changed : List Scope) :
    Handler (List Scope) :=
  match req.supersede with
  | none => return changed
  | some oldToken => do
      match ← (sql (.deviceByToken oldToken)).mapError internal with
      | none => return changed
      | some (owner, oldPubkey) =>
          if shouldSupersede owner oldPubkey user req.wgPubkey then
            (Store.removeDevice user oldPubkey).mapError internal
            let networks ← act (.presence (.networksOf oldPubkey))
            let changed ← evictFrom oldPubkey networks changed
            let removed ← act (.presence (.evictSelf owner oldPubkey))
            return if removed then (Scope.user owner).insertInto changed else changed
          else return changed

def presenceOf (req : RegisterReq) (user : UserId) (device : Device) (username : String) :
    MemberPresence where
  pubkey := req.wgPubkey
  ip := device.ip
  userId := user
  username := username
  deviceName := device.name
  isPrimary := device.isPrimary
  endpoint := req.endpoint

def lookupCommunity (guild : GuildId) : Handler String := do
  match ← (sql (.communitySlug guild)).mapError internal with
  | some slug => return slug
  | none => return (← RoleSource.guildName guild).getD ""

def userLabel (user : UserId) (seed : String) : Handler String := do
  match ← act (.knownLabel user) with
  | some label => return label
  | none =>
      let label ← (Store.userLabel user seed).mapError internal
      act (.keepLabel user label)
      return label

structure Walk where
  m : Membership
  cache : MemberCache
  changed : List Scope
  labelResolved : Bool := false

def optedOut (req : RegisterReq) (net : Network) : Bool :=
  req.disabledNetworks.contains ⟨net.guildId, net.roleId⟩

def recordPresence (req : RegisterReq) (user : UserId) (device : Device) (now : Nat)
    (net : Network) (walk : Walk) : Handler Walk :=
  if req.paused then return walk
  else do
    let recorded ← act (.presence (.record net.guildId net.roleId
      (presenceOf req user device walk.m.username) req.clientVersion now))
    if recorded then
      return { walk with changed := (Scope.guild net.guildId).insertInto walk.changed }
    else return walk

def walkCommunity (guild : GuildId) (community : List (GuildId × String)) :
    Handler (String × List (GuildId × String)) :=
  match community.lookup guild with
  | some label => return (label, community)
  | none => do
      let label ← lookupCommunity guild
      return (label, (guild, label) :: community)

def walkUsername (user : UserId) (member : MemberRoles) (walk : Walk) : Handler String :=
  if walk.labelResolved then return walk.m.username else userLabel user member.username

def Walk.list (walk : Walk) (net : Network) (name guildLabel username : String)
    (community : List (GuildId × String)) (enabled : Bool) : Walk :=
  { walk with
    m :=
      { walk.m with
        status := walk.m.status ++ [⟨net.guildId, net.roleId, name, guildLabel, enabled⟩]
        community := community
        username := username }
    labelResolved := true }

def Walk.enable (walk : Walk) (name : String) : Walk :=
  { walk with m := { walk.m with networkNames := walk.m.networkNames ++ [name] } }

def Walk.hold (walk : Walk) (net : Network) : Walk :=
  { walk with m := { walk.m with held := walk.m.held ++ [(net.guildId, net.roleId)] } }

def walkHeld (req : RegisterReq) (user : UserId) (device : Device) (now : Nat)
    (net : Network) (member : MemberRoles) (walk : Walk) : Handler Walk := do
  let (guildLabel, community) ← walkCommunity net.guildId walk.m.community
  let name := (← RoleSource.roleName net.guildId net.roleId).getD net.name
  let enabled := !optedOut req net
  let username ← walkUsername user member walk
  let listed := walk.list net name guildLabel username community enabled
  if enabled then
    return (← recordPresence req user device now net (listed.enable name)).hold net
  else return listed

def walkNetwork (req : RegisterReq) (user : UserId) (device : Device) (now : Nat)
    (walk : Walk) (net : Network) : Handler Walk := do
  let (member, cache) ← lookupMember walk.cache net.guildId user
  let walk := { walk with cache := cache }
  match member with
  | none => return walk
  | some roles =>
      if roles.roleIds.contains net.roleId then
        walkHeld req user device now net roles walk
      else return walk

def resolveMembership (req : RegisterReq) (user : UserId) (networks : List Network)
    (device : Device) (cache : MemberCache) (now : Nat) (changed : List Scope) :
    Handler (Membership × List Scope) := do
  let walk ← networks.foldlM (walkNetwork req user device now)
    { m := { username := s!"user-{user}" }, cache := cache, changed := changed }
  -- drop our presence from what we no longer hold, or from everything while paused
  let recorded ← act (.presence (.networksOf req.wgPubkey))
  let changed ← evictFrom req.wgPubkey
    (recorded.filter fun network => req.paused || !walk.m.held.contains network) walk.changed
  let m := { walk.m with personal := walk.m.status.isEmpty && wantsPersonalScope req }
  if m.personal then
    match ← (sql (.userHandle user)).mapError internal with
    | some handle =>
        let username ← userLabel user handle
        return ({ m with username := username }, changed)
    | none => return (m, changed)
  else return (m, changed)

def announceSelf (req : RegisterReq) (user : UserId) (device : Device) (m : Membership)
    (now : Nat) : Handler Bool :=
  if req.peerOwnDevices && !req.paused && m.hasIdentity then
    act (.presence (.recordSelf user (presenceOf req user device m.username)
      req.clientVersion now))
  else act (.presence (.evictSelf user req.wgPubkey))

def recordOwnDevice (req : RegisterReq) (user : UserId) (device : Device) (m : Membership)
    (now : Nat) (changed : List Scope) : Handler (List Scope) := do
  let selfChanged : Bool ← announceSelf req user device m now
  return if selfChanged then (Scope.user user).insertInto changed else changed

def grantAttestations (id : AttIdentity) (m : Membership) (attSchema : Nat) :
    List GuildId → Handler (List GuildAttestation)
  | [] => return []
  | guild :: rest => do
      let key ← (GuildKeys.get conf guild).mapError internal
      let blob ← (signWith key.signer id attSchema).mapError internal
      let attestations ← grantAttestations id m attSchema rest
      return ⟨blob, m.communityOf guild, attSchema⟩ :: attestations

def buildGrant (req : RegisterReq) (user : UserId) (device : Device) (m : Membership)
    (attSchema : Nat) : Handler (Option Grant) :=
  if m.hasIdentity then do
    let id : AttIdentity :=
      ⟨user, m.username, device.name, device.isPrimary, device.ip, req.wgPubkey⟩
    let attestations ← grantAttestations conf id m attSchema m.guilds
    return some ⟨attestations, m.networkNames⟩
  else return none

/-- A peer on its way into the seed list: its row, the networks it shares with the
caller and the guilds it is attested under. -/
structure Peer where
  mp : MemberPresence
  networks : List SharedNetwork := []
  guilds : List GuildId := []
  deriving DecidableEq

abbrev Peers := Table PubKey Peer

def addShared (net : SharedNetwork) (peers : Peers) (mp : MemberPresence) : Peers :=
  let peer := (peers.get? mp.pubkey).getD { mp := mp }
  peers.insert mp.pubkey
    { peer with
      networks := if net ∈ peer.networks then peer.networks else peer.networks ++ [net]
      guilds := insertGuild net.guildId peer.guilds }

def addSibling (guilds : List GuildId) (peers : Peers) (mp : MemberPresence) : Peers :=
  if peers.contains mp.pubkey then peers
  else peers.insert mp.pubkey { mp := mp, guilds := guilds }

def Peers.From (kind : MemberPresence → Prop) (peers : Peers) : Prop :=
  ∀ pubkey peer, peers.get? pubkey = some peer → kind peer.mp

section

variable {kind : MemberPresence → Prop} {peers : Peers} {mp : MemberPresence}

theorem Peers.From.insert {key : PubKey} {value : Peer} (hfrom : peers.From kind)
    (hvalue : kind value.mp) : Peers.From kind (peers.insert key value) := by
  intro pubkey peer hpeer
  rw [Table.get?_insert] at hpeer
  split at hpeer
  · cases hpeer
    exact hvalue
  · exact hfrom pubkey peer hpeer

theorem addShared_from (net : SharedNetwork) (hfrom : peers.From kind) (hmp : kind mp) :
    (addShared net peers mp).From kind := by
  apply hfrom.insert
  cases hpeer : peers.get? mp.pubkey with
  | none => exact hmp
  | some peer => exact hfrom mp.pubkey peer hpeer

theorem addSibling_from (guilds : List GuildId) (hfrom : peers.From kind) (hmp : kind mp) :
    (addSibling guilds peers mp).From kind := by
  unfold addSibling
  split
  · exact hfrom
  · exact hfrom.insert hmp

theorem foldl_from {rows : List MemberPresence} {add : Peers → MemberPresence → Peers}
    (hadd : ∀ (peers : Peers) mp, peers.From kind → kind mp → (add peers mp).From kind)
    (hfrom : peers.From kind) (hrows : ∀ mp ∈ rows, kind mp) :
    (rows.foldl add peers).From kind := by
  induction rows generalizing peers with
  | nil => exact hfrom
  | cons mp rest ih =>
      apply ih
      · exact hadd peers mp hfrom (hrows mp List.mem_cons_self)
      · intro other hother
        exact hrows other (List.mem_cons_of_mem _ hother)

end

def gatherShared (req : RegisterReq) (m : Membership) :
    List ((GuildId × RoleId) × String) → Peers → Handler Peers
  | [], peers => return peers
  | ((guild, role), name) :: rest, peers => do
      let others ← act (.presence (.othersIn guild role req.wgPubkey))
      let net : SharedNetwork := ⟨name, m.communityOf guild, guild, role⟩
      gatherShared req m rest (others.foldl (addShared net) peers)

def gatherPeers (req : RegisterReq) (user : UserId) (m : Membership)
    (grantGuilds : List GuildId) : Handler Peers := do
  let peers ← gatherShared req m (m.held.zip m.networkNames) ∅
  if req.peerOwnDevices && m.hasIdentity then
    let siblings ← act (.presence (.othersOfUser user req.wgPubkey))
    return siblings.foldl (addSibling grantGuilds) peers
  else return peers

def seedContent (mp : MemberPresence) (punch : Option SocketAddr)
    (networks : List SharedNetwork) (relay : Option RelayInfo) (ice : Option IceParams) :
    SeedContent where
  pubkey := mp.pubkey
  ip := mp.ip
  isPrimary := mp.isPrimary
  username := mp.username
  deviceName := mp.deviceName
  endpoint := mp.endpoint
  punch := punch
  networks := networks
  relay := relay
  ice := ice

/-- The revision of a seed's peering-relevant content; the attestation blob is
deliberately not part of it. -/
def seedRev (mp : MemberPresence) (punch : Option SocketAddr)
    (networks : List SharedNetwork) (relay : Option RelayInfo) (ice : Option IceParams) : Nat :=
  conf.seedHash (seedContent mp punch networks relay ice)

structure Exchange where
  candidates : List RelayCandidate
  relayAllocs : Table (PubKey × PubKey) SocketAddr
  ice : Table (PubKey × PubKey) IceParams
  reflexive : Table PubKey SocketAddr

def seedOf (req : RegisterReq) (now : Nat) (exchange : Exchange) (peer : Peer)
    (attestations : List GuildAttestation) : Seed :=
  let mp := peer.mp
  let punch :=
    punchTarget req.endpoint.isSome mp.endpoint (exchange.reflexive.get? mp.pubkey)
  let relay :=
    if req.needRelay.contains mp.pubkey then
      (relayTarget conf mp.pubkey peer.networks exchange.candidates now).map fun info =>
        { info with peerRelayed := exchange.relayAllocs.get? (mp.pubkey, req.wgPubkey) }
    else none
  let ice := exchange.ice.get? (mp.pubkey, req.wgPubkey)
  { attestations := attestations
    endpoint := mp.endpoint
    punch := punch
    networks := peer.networks
    relay := relay
    ice := ice
    rev := seedRev conf mp punch peer.networks relay ice }

def identityOf (mp : MemberPresence) : AttIdentity :=
  ⟨mp.userId, mp.username, mp.deviceName, mp.isPrimary, mp.ip, mp.pubkey⟩

def peerAttestations (mp : MemberPresence) (m : Membership) (now attSchema : Nat) :
    List GuildId → Handler (List GuildAttestation)
  | [] => return []
  | guild :: rest => do
      let blob ← (SignCache.attestation conf guild (identityOf mp) now attSchema).mapError
        internal
      let attestations ← peerAttestations mp m now attSchema rest
      return ⟨blob, m.communityOf guild, attSchema⟩ :: attestations

def attestPeers (req : RegisterReq) (m : Membership) (now attSchema : Nat)
    (exchange : Exchange) : List (PubKey × Peer) → Handler (List (PubKey × Seed))
  | [] => return []
  | (pubkey, peer) :: rest => do
      let attestations ← peerAttestations conf peer.mp m now attSchema peer.guilds
      let seeds ← attestPeers req m now attSchema exchange rest
      return (pubkey, seedOf conf req now exchange peer attestations) :: seeds

def relayCandidates (peers : Peers) (relays : Table PubKey RelayReg) : List RelayCandidate :=
  peers.rows.filterMap fun row =>
    (relays.get? row.1).map fun reg => ⟨row.1, row.2.networks, reg⟩

def buildSeeds (req : RegisterReq) (user : UserId) (m : Membership)
    (grantGuilds : List GuildId) (now attSchema : Nat) :
    Handler (List (PubKey × Seed) × List PubKey) := do
  let peers ← gatherPeers req user m grantGuilds
  let wakeTargets ← recordPeerReports req peers.keys
  let relays ← act (.nat .relays)
  let relayAllocs ← act (.nat .relayAllocs)
  let ice ← act (.nat .ice)
  let reflexive ← act (.nat .reflexive)
  let exchange : Exchange := ⟨relayCandidates peers relays, relayAllocs, ice, reflexive⟩
  let all ← attestPeers conf req m now attSchema exchange peers.rows
  return (all, wakeTargets)

def applyDelta (req : RegisterReq) (all : List (PubKey × Seed)) :
    List Seed × List PubKey × Bool :=
  if req.held.isEmpty then (all.map Prod.snd, [], false)
  else
    -- a pubkey named twice counts as last named
    let held := fun pubkey => (req.held.reverse.find? fun h => h.pubkey == pubkey).map (·.rev)
    let current := all.map Prod.fst
    let removed := ((req.held.map (·.pubkey)).dedup).filter fun pk => !current.contains pk
    let seeds := (all.filter fun entry => held entry.1 != some entry.2.rev).map Prod.snd
    (seeds, removed, true)

def buildAnchors : List GuildId → Handler (List GuildAnchor)
  | [] => return []
  | guild :: rest => do
      let key ← (GuildKeys.get conf guild).mapError internal
      let anchors ← buildAnchors rest
      return ⟨guild, key.signer.key, key.rotationChain⟩ :: anchors

def signRelease : List GuildId → Handler (Option (Signed ReleaseManifest))
  | [] => return none
  | guild :: _ =>
      match conf.release with
      | none => return none
      | some manifest => do
          let key ← (GuildKeys.get conf guild).mapError internal
          return some (.sign key.signer.key manifest)

def bumpAll (scopes : List Scope) : Prog sig ε Unit :=
  match scopes with
  | [] => return
  | _ => do
      bumpEach scopes
      act (.versions .bumpGlobal)
where
  bumpEach : List Scope → Prog sig ε Unit
    | [] => return
    | scope :: rest => do
        act (.versions (.bump scope))
        bumpEach rest

def wakeAll : List PubKey → Prog sig ε Unit
  | [] => return
  | pubkey :: rest => do
      act (.wakers (.wake pubkey))
      wakeAll rest

def readCounters : List Scope → Prog sig ε (List (Scope × Nat))
  | [] => return []
  | scope :: rest => do
      let count ← act (.versions (.counter scope))
      let counts ← readCounters rest
      return (scope, count) :: counts

def aggregate (scopes : List Scope) : Prog sig ε Nat := do
  return conf.scopeHash (← readCounters scopes)

def scopesOf (user : UserId) (grantGuilds : List GuildId) : List Scope :=
  (grantGuilds.filter (· != PERSONAL_SCOPE)).map Scope.guild ++ [Scope.user user]

def negotiatedProto (req : RegisterReq) : Nat :=
  match negotiateProto req.protoMin req.proto with
  | .ok version => version
  | .error _ => PROTOCOL_VERSION

def rememberRoleless (user : UserId) (walked : Bool) (m : Membership) : Handler Unit :=
  if walked && m.status.isEmpty then act (.roleless (.remember user)) else return

def touchIdentity (req : RegisterReq) (m : Membership) : Handler Unit :=
  if m.hasIdentity then (Store.touchDevice req.wgPubkey m.personal).mapError internal
  else return

def deliverToken (req : RegisterReq) (alreadyEnrolled : Bool) : Handler (Option String) :=
  if alreadyEnrolled then return none
  else (Store.deviceToken req.wgPubkey).mapError internal

structure Settled where
  now : Nat
  device : Device
  m : Membership
  changed : List Scope

def settle (req : RegisterReq) (callerIp : IpAddr) (user : UserId) : Handler Settled := do
  act (.nat (.putSourceIp req.wgPubkey callerIp))
  let now ← act .nowUnix
  let allNetworks ← (sql .allNetworks).mapError internal
  let memo ← act (.roleless (.fresh user))
  let walked := !memo
  let networks := if walked then allNetworks else []
  let (device, cache) ← resolveDevice conf req user networks []
  let changed ← retireSuperseded req user []
  let (m, changed) ← resolveMembership req user networks device cache now changed
  rememberRoleless user walked m
  touchIdentity req m
  let changed ← recordOwnDevice req user device m now changed
  return ⟨now, device, m, changed⟩

def answer (req : RegisterReq) (user : UserId) (alreadyEnrolled : Bool) (settled : Settled) :
    Handler Built := do
  let attSchema := ATTESTATION_SCHEMA_V2
  let m := settled.m
  let grantGuilds := m.guilds
  let grant ← buildGrant conf req user settled.device m attSchema
  let (all, wakeTargets) ← buildSeeds conf req user m grantGuilds settled.now attSchema
  let (seeds, removed, isPartial) := applyDelta req all
  let deviceToken ← deliverToken req alreadyEnrolled
  bumpAll settled.changed
  wakeAll wakeTargets
  let scopes := scopesOf user grantGuilds
  let version ← aggregate conf scopes
  let anchors ← buildAnchors conf grantGuilds
  let release ← signRelease conf grantGuilds
  return {
    callerChanged := !settled.changed.isEmpty || !wakeTargets.isEmpty
    scopes := scopes
    resp := {
      anchors := anchors
      grant := grant
      deviceToken := deviceToken
      seeds := seeds
      version := version
      networks := m.status
      dnsDomain := conf.dnsDomain
      stunPort := conf.stunPort
      proto := negotiatedProto req
      protoMin := MIN_PROTOCOL_VERSION
      protoMax := PROTOCOL_VERSION
      release := release
      releaseSigned := conf.releaseSigned
      isPartial := isPartial
      removed := removed } }

def buildSnapshot (req : RegisterReq) (callerIp : IpAddr) : Handler Built := do
  validatePeerReports req
  let (user, alreadyEnrolled) ← resolveUser conf req
  let settled ← settle conf req callerIp user
  answer conf req user alreadyEnrolled settled

end UnityLan.Coordinator
