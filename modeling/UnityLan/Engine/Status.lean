import UnityLan.Engine.Sinks

namespace UnityLan.Engine.Control

open UnityLan.Foundation Cert Fw

/-! The status report that the control socket serves: its setters, and how it is rebuilt. -/

inductive PeerReach
  | direct
  | punching
  | unreachable
  | relayed
  | ice
  deriving DecidableEq

structure PeerService where
  name : String
  hostname : String
  proto : Proto
  port : Port
  kind : ServiceKind
  shadowed : Bool
  deriving DecidableEq

structure PeerStatus where
  hostname : String
  wgIp : Ipv4Addr
  endpoint : Option SocketAddr
  reach : PeerReach := .direct
  userId : UserId
  username : String
  up : Bool := false
  latencyMs : Option Nat := none
  rxBytes : Nat := 0
  txBytes : Nat := 0
  lastHandshakeSecs : Option Nat := none
  networks : List SharedNetwork
  services : List PeerService := []
  deriving DecidableEq

structure DeviceStatus where
  wgIp : Ipv4Addr
  hostname : String
  isPrimary : Bool
  networks : List String
  deriving DecidableEq

structure BlockedUser where
  userId : UserId
  username : String
  deriving DecidableEq

structure StatusReport where
  device : Option DeviceStatus := none
  peers : List PeerStatus := []
  proxyRoutes : List ProxyRoute := []
  networks : List NetworkStatus := []
  needsLogin : Bool := false
  connected : Bool := true
  disableNewNetworks : Bool := true
  peerOwnDevices : Bool := true
  identity : Option String := none
  cert : CertStatus := {}
  coordinatorOnline : Bool := true
  blocked : List BlockedUser := []
  engineVersion : String := ""
  updateAvailable : Option String := none
  updateReady : Bool := false
  protoMismatch : Option String := none
  lanOverlap : Option String := none
  deriving DecidableEq

/-! The setters. -/

structure PeerLive where
  reach : PeerReach
  up : Bool
  latencyMs : Option Nat
  rxBytes : Nat
  txBytes : Nat
  lastHandshakeSecs : Option Nat
  deriving DecidableEq

def blockedList (blocked : Table UserId String) : List BlockedUser :=
  (blocked.rows.map fun row => BlockedUser.mk row.1 row.2).mergeSort fun a b =>
    decide (a.username < b.username ∨ a.username = b.username ∧ a.userId ≤ b.userId)

def PeerStatus.withLive (live : Ipv4Addr → Option PeerLive) (p : PeerStatus) : PeerStatus :=
  match live p.wgIp with
  | none => p
  | some l =>
      { p with
        reach := l.reach, up := l.up, latencyMs := l.latencyMs, rxBytes := l.rxBytes
        txBytes := l.txBytes, lastHandshakeSecs := l.lastHandshakeSecs }

def PeerStatus.withServices (services : Ipv4Addr → Option (List PeerService)) (p : PeerStatus) :
    PeerStatus :=
  match services p.wgIp with
  | none => p
  | some list => { p with services := list }

inductive Setter
  | certStatus (cert : CertStatus)
  | certsEnabled (enabled : Bool)
  | blocked (users : Table UserId String)
  | disableNew (disable : Bool)
  | peerOwn (enabled : Bool)
  | coordOnline (online : Bool)
  /-- The version that the coordinator names, and whether it is newer than the engine's own. -/
  | updateAvailable (latest : String) (newer : Bool)
  | updateReady (ready : Bool)
  | protoMismatch (why : Option String)
  | lanOverlap (warning : Option String)
  | live (measured : Ipv4Addr → Option PeerLive)
  | services (announced : Ipv4Addr → Option (List PeerService))

def available (latest : String) (newer : Bool) : Option String :=
  if newer then some latest else none

def Setter.apply (report : StatusReport) : Setter → StatusReport
  | .certStatus cert => { report with cert := cert }
  | .certsEnabled enabled => { report with cert := { report.cert with enabled := enabled } }
  | .blocked users =>
      { report with
        peers := report.peers.filter fun p => !users.contains p.userId
        blocked := blockedList users }
  | .disableNew disable => { report with disableNewNetworks := disable }
  | .peerOwn enabled => { report with peerOwnDevices := enabled }
  | .coordOnline online => { report with coordinatorOnline := online }
  | .updateAvailable latest newer => { report with updateAvailable := available latest newer }
  | .updateReady ready => { report with updateReady := ready }
  | .protoMismatch why => { report with protoMismatch := why }
  | .lanOverlap warning => { report with lanOverlap := warning }
  | .live measured => { report with peers := report.peers.map (PeerStatus.withLive measured) }
  | .services announced =>
      { report with peers := report.peers.map (PeerStatus.withServices announced) }

/-! The rebuild. -/

def OWN_DEVICES_NETWORK : SharedNetwork where
  name := OWN_DEVICES_LABEL
  community := ""
  guildId := 0
  roleId := 0

def ownDeviceNetworks (seed : SeedPeer) (selfUserId : UserId) : List SharedNetwork :=
  if seed.userId = selfUserId then OWN_DEVICES_NETWORK :: seed.networks else seed.networks

def effectiveNetworks (networks : List NetworkStatus) (disabled : List (GuildId × RoleId)) :
    List NetworkStatus :=
  networks.map fun n => { n with enabled := n.enabled && !disabled.contains (n.guildId, n.roleId) }

/-- What `update` is called with. -/
structure UpdateArgs where
  device : SelfDevice
  seeds : List SeedPeer
  disabled : List (GuildId × RoleId)
  blocked : Table UserId String
  connected : Bool
  disableNewNetworks : Bool
  peerOwnDevices : Bool
  coordinatorOnline : Bool
  proxyRoutes : List ProxyRoute
  engineVersion : String

structure Overlay where
  updateAvailable : Option String
  updateReady : Bool
  lanOverlap : Option String
  protoMismatch : Option String
  cert : CertStatus
  peers : List PeerStatus

def Overlay.of (report : StatusReport) : Overlay where
  updateAvailable := report.updateAvailable
  updateReady := report.updateReady
  lanOverlap := report.lanOverlap
  protoMismatch := report.protoMismatch
  cert := report.cert
  peers := report.peers

def Overlay.live (prev : Overlay) (ip : Ipv4Addr) : Option PeerStatus :=
  prev.peers.reverse.find? fun p => p.wgIp == ip

def rebuildPeer (device : SelfDevice) (prev : Overlay) (s : SeedPeer) : PeerStatus where
  hostname := s.primaryAlias.getD s.hostname
  wgIp := s.ip
  endpoint := s.endpoint
  userId := s.userId
  username := s.username
  reach := (prev.live s.ip).elim .direct PeerStatus.reach
  up := (prev.live s.ip).any PeerStatus.up
  latencyMs := (prev.live s.ip).bind PeerStatus.latencyMs
  rxBytes := (prev.live s.ip).elim 0 PeerStatus.rxBytes
  txBytes := (prev.live s.ip).elim 0 PeerStatus.txBytes
  lastHandshakeSecs := (prev.live s.ip).bind PeerStatus.lastHandshakeSecs
  networks := ownDeviceNetworks s device.userId
  services := (prev.live s.ip).elim [] PeerStatus.services

def rebuild (args : UpdateArgs) (prev : Overlay) : StatusReport where
  proxyRoutes := args.proxyRoutes
  device := some
    { wgIp := args.device.wgIp, hostname := args.device.hostname
      isPrimary := args.device.isPrimary, networks := args.device.networks }
  peers := args.seeds.map (rebuildPeer args.device prev)
  networks := effectiveNetworks args.device.networksStatus args.disabled
  needsLogin := false
  connected := args.connected
  disableNewNetworks := args.disableNewNetworks
  peerOwnDevices := args.peerOwnDevices
  identity := some args.device.username
  cert := { prev.cert with domain := args.device.dnsDomain }
  coordinatorOnline := args.coordinatorOnline
  blocked := blockedList args.blocked
  engineVersion := args.engineVersion
  updateAvailable := prev.updateAvailable
  updateReady := prev.updateReady
  lanOverlap := prev.lanOverlap
  protoMismatch := prev.protoMismatch

/-- `update`, with nothing in between. -/
def update (args : UpdateArgs) (report : StatusReport) : StatusReport :=
  rebuild args (Overlay.of report)

@[simp] theorem rebuildPeer_userId (device : SelfDevice) (prev : Overlay) (s : SeedPeer) :
    (rebuildPeer device prev s).userId = s.userId := rfl

@[simp] theorem rebuildPeer_wgIp (device : SelfDevice) (prev : Overlay) (s : SeedPeer) :
    (rebuildPeer device prev s).wgIp = s.ip := rfl

@[simp] theorem withServices_wgIp (services : Ipv4Addr → Option (List PeerService))
    (p : PeerStatus) : (p.withServices services).wgIp = p.wgIp := by
  unfold PeerStatus.withServices
  split <;> rfl

end UnityLan.Engine.Control
