import UnityLan.Common.Api

namespace UnityLan.Engine.Fw

/-! Exposures: the ports a device opens, and to whom. -/

abbrev Port := BitVec 16

def HTTPS_PORT : Port := 443

def P2P_PORT : Port := 51830

def MAX_SERVICES_PER_DEVICE : Nat := 16

def OWN_DEVICES_LABEL : String := "My devices"

def renderIp (ip : Ipv4Addr) : String :=
  let octet (index : Nat) : String := toString (ip.toNat / 256 ^ index % 256)
  s!"{octet 3}.{octet 2}.{octet 1}.{octet 0}"

inductive Proto
  | tcp
  | udp
  deriving DecidableEq

def Proto.asStr : Proto → String
  | .tcp => "tcp"
  | .udp => "udp"

inductive ServiceKind
  | port
  | web
  deriving DecidableEq

inductive ExposeScope
  | allPeers
  | ownDevices
  | net (guildId : GuildId) (roleId : RoleId)
  /-- A name that was never resolved to ids. -/
  | unresolved (guild : Option String) (name : String)
  deriving DecidableEq

def ExposeScope.fallbackLabel : ExposeScope → String
  | .allPeers => "all peers"
  | .ownDevices => OWN_DEVICES_LABEL
  | .net guildId roleId => s!"network {guildId}/{roleId}"
  | .unresolved none name => name
  | .unresolved (some guild) name => s!"{name} @ {guild}"

inductive RemoveScope
  | all
  | exact (scope : ExposeScope)
  deriving DecidableEq

structure Exposed where
  proto : Proto
  port : Port
  scope : ExposeScope
  name : Option String := none
  kind : ServiceKind := .port
  deriving DecidableEq

structure NetInfo where
  guildId : GuildId
  roleId : RoleId
  guild : String
  name : String
  ips : List Ipv4Addr
  deriving DecidableEq

def NetInfo.label (net : NetInfo) : String :=
  if net.guild.isEmpty then net.name else s!"{net.name} @ {net.guild}"

structure PeerSets where
  nets : List NetInfo := []
  ownDevices : List Ipv4Addr := []
  deriving DecidableEq

namespace PeerSets

def findNet (peers : PeerSets) (guildId : GuildId) (roleId : RoleId) : Option NetInfo :=
  peers.nets.find? fun net => net.guildId == guildId && net.roleId == roleId

def matching (peers : PeerSets) (guild : Option String) (name : String) : List NetInfo :=
  peers.nets.filter fun net => net.name == name && guild.all fun guild => net.guild == guild

/-- The addresses a scope admits; `none` where it restricts nobody. -/
def sources (peers : PeerSets) : ExposeScope → Option (List Ipv4Addr)
  | .allPeers => none
  | .ownDevices => some peers.ownDevices
  | .net guildId roleId => some ((peers.findNet guildId roleId).elim [] NetInfo.ips)
  | .unresolved guild name =>
      some
        (match peers.matching guild name with
        | [only] => only.ips
        | _ => [])

def label (peers : PeerSets) : ExposeScope → String
  | .net guildId roleId =>
      (peers.findNet guildId roleId).elim (ExposeScope.net guildId roleId).fallbackLabel
        NetInfo.label
  | other => other.fallbackLabel

def admits (peers : PeerSets) (scope : ExposeScope) (source : Ipv4Addr) : Bool :=
  (peers.sources scope).all fun ips => ips.contains source

theorem admits_of_sources {peers : PeerSets} {scope : ExposeScope} {ips : List Ipv4Addr}
    (hsources : peers.sources scope = some ips) (source : Ipv4Addr) :
    peers.admits scope source = true ↔ source ∈ ips := by
  simp [admits, hsources]

theorem sources_restricted (peers : PeerSets) {scope : ExposeScope} (hscoped : scope ≠ .allPeers) :
    ∃ ips, peers.sources scope = some ips := by
  cases scope with
  | allPeers => exact absurd rfl hscoped
  | ownDevices => exact ⟨_, rfl⟩
  | net guildId roleId => exact ⟨_, rfl⟩
  | unresolved guild name => exact ⟨_, rfl⟩

end PeerSets

def webScopes (stored : List Exposed) : List ExposeScope :=
  (stored.filter fun e => e.kind == .web && e.name.isSome).foldl
    (fun scopes e => if scopes.contains e.scope then scopes else scopes ++ [e.scope]) []

/-- What the backend installs: the exposures, and the HTTPS port of the proxy for every scope
that has a web service in it. -/
def effectiveExposed (stored : List Exposed) : List Exposed :=
  stored ++ (webScopes stored).map fun scope => ⟨.tcp, HTTPS_PORT, scope, none, .port⟩

/-! A packet that arrives. -/

inductive Payload
  | icmp (type : BitVec 8)
  | transport (proto : Proto) (dport : Port)
  | other (protocol : BitVec 8)
  deriving DecidableEq

def ICMP_ECHO_REQUEST : BitVec 8 := 8

def Permits (exposed : List Exposed) (peers : PeerSets) (source : Ipv4Addr) (payload : Payload) :
    Prop :=
  payload = .icmp ICMP_ECHO_REQUEST ∨ payload = .transport .udp P2P_PORT ∨
    ∃ e ∈ exposed, payload = .transport e.proto e.port ∧ peers.admits e.scope source = true

end UnityLan.Engine.Fw
