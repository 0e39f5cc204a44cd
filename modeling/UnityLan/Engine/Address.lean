import UnityLan.Engine.Dns
import UnityLan.Engine.Fw.Presence
import UnityLan.Engine.Fw.Refusals
import UnityLan.Foundation.Runs

namespace UnityLan.Engine

open UnityLan.Foundation Cert Fw

/-! What is set up on the mesh address of a device, and the refreshes that may change the device. -/

/-- An answer that was verified: the certificate domain of the deployment, and our device where
there is a grant. -/
structure Verified where
  dnsDomain : Option String
  dev : Option SelfDevice
  agrees : ∀ device ∈ dev, device.dnsDomain = dnsDomain

theorem post_agrees {decodes : Anchor → Bool} {received : Received} {pins : Pins}
    {resp : RegisterResp} {dev : Option SelfDevice}
    (hposted : (post decodes received pins).2 = .ok (resp, dev)) :
    ∀ device ∈ dev, device.dnsDomain = resp.dnsDomain := by
  intro device hdevice
  unfold post at hposted
  split at hposted
  · cases hposted
  · split at hposted
    · cases hposted
      cases hdevice
    · split at hposted
      · cases hposted
      · cases hposted
        cases hdevice
        rfl

/-! The hook of the OS resolver. -/

inductive Platform
  | linux
  | windows
  deriving DecidableEq

def routableDomain (domain : String) : Option String :=
  if !domain.isEmpty && domain.utf8ByteSize ≤ 253 && domain.contains '.' &&
      domain.toList.all fun c => c.isAlphanum || c == '-' || c == '.' then
    some domain
  else none

def Platform.namespaces (certDomain : Option String) : Platform → List String
  | .linux => DNS_SUFFIX :: certDomain.toList
  | .windows => DNS_SUFFIX :: (certDomain.bind routableDomain).toList

/-- What an install that went through routes. -/
structure Routing where
  platform : Platform
  nameserver : Ipv4Addr
  domains : List String
  deriving DecidableEq

def Platform.install (platform : Platform) (server : Ipv4Addr) (certDomain : Option String) :
    Routing :=
  ⟨platform, server, platform.namespaces certDomain⟩

/-! The proxy. -/

inductive ProxyAction
  | start
  | stop
  | leave

def proxyDecide (hasServices running : Bool) : ProxyAction :=
  match hasServices, running with
  | true, false => .start
  | false, true => .stop
  | _, _ => .leave

/-! The host of an enrollment. -/

structure HostConfig where
  dns : Bool := true
  resolverHook : Bool := true
  proxy : Bool := true
  /-- `platform_hook`. -/
  hook : Option Platform := some .linux

structure BringUp where
  dnsBinds : Bool := true
  p2pBinds : Bool := true
  installs : Bool := true
  faults : Faults := {}

structure Pass where
  seeds : List SeedPeer := []
  resolved : List (String × Ipv4Addr) := []

structure EnrolledHost where
  /-- The address of the interface. -/
  address : Ipv4Addr
  /-- What the listeners are bound to. -/
  dns : Option Ipv4Addr
  p2p : Option Ipv4Addr
  resolver : Option Routing
  /-- The device of the last grant. -/
  device : SelfDevice
  /-- The certificate domain of the last answer. -/
  dnsDomain : Option String
  /-- The peers of the last pass. -/
  seeds : List SeedPeer := []

structure MeshHost where
  cfg : HostConfig := {}
  fw : Option Firewall := none
  zone : ZoneData := {}
  /-- What the proxy is bound to. -/
  proxy : Option Ipv4Addr := none
  enrolled : Option EnrolledHost := none

namespace MeshHost

variable (host : MeshHost)

/-- The firewall is told the mesh address; a panic ends the daemon. -/
def placed (addr : Ipv4Addr) (faults : Faults) : Option (Option Firewall) :=
  match host.fw with
  | none => some none
  | some fw =>
      match (setMeshAddr addr).run (Firewall.alone faults) fw with
      | (.error .panicked, _) => none
      | (_, fw) => some (some fw)

def dnsBind (device : SelfDevice) : Option Ipv4Addr :=
  if host.cfg.dns then some device.wgIp else none

def hooked (device : SelfDevice) (how : BringUp) : Option Routing :=
  match host.cfg.resolverHook, host.dnsBind device, host.cfg.hook with
  | true, some bind, some hook =>
      if how.installs then some (hook.install bind device.dnsDomain) else none
  | _, _, _ => none

/-- `bring_up_host`. -/
def bringUp (device : SelfDevice) (how : BringUp) : Option MeshHost :=
  (host.placed device.wgIp how.faults).map fun fw =>
    { host with
      fw := fw
      enrolled := some
        { address := device.wgIp
          dns := if how.dnsBinds then host.dnsBind device else none
          p2p := if how.p2pBinds then some device.wgIp else none
          resolver := host.hooked device how
          device := device
          dnsDomain := device.dnsDomain } }

/-- The part of `apply_state` that the device goes into. -/
def applied (enrolled : EnrolledHost) (pass : Pass) : MeshHost :=
  { host with
    zone := ZoneData.rebuilt enrolled.device pass.seeds pass.resolved
    enrolled := some { enrolled with seeds := pass.seeds } }

/-- A refresh that completed; where it holds no grant, the device stays. -/
def refreshed (enrolled : EnrolledHost) (answer : Verified) (pass : Pass) : MeshHost :=
  host.applied
    { enrolled with
      device := answer.dev.getD enrolled.device
      dnsDomain := answer.dnsDomain } pass

def hasServices (device : SelfDevice) : Bool :=
  host.cfg.proxy && host.fw.any fun fw =>
    !(webRoutes device.username device.dnsDomain fw.meshAddr fw.served).isEmpty

/-- `sync_proxy`. -/
def syncProxy (device : SelfDevice) (alive starts : Bool) : Option Ipv4Addr :=
  let running := if alive then host.proxy else none
  -- It was handed a socket, and serves another address only once it is started again.
  let held := running.filter fun bound => bound == device.wgIp
  match proxyDecide (host.hasServices device) held.isSome with
  | .leave => held
  | .stop => none
  | .start => if starts then some device.wgIp else none

def ticked (enrolled : EnrolledHost) (pass : Pass) (alive starts : Bool) : MeshHost :=
  { host.applied enrolled pass with proxy := host.syncProxy enrolled.device alive starts }

end MeshHost

inductive MeshEvent
  /-- A register is served, and the first pass made. -/
  | enrolled (device : SelfDevice) (how : BringUp) (pass : Pass)
  | refreshed (answer : Verified) (pass : Pass)
  /-- A refresh fails, or its seeds do not verify. -/
  | failed
  /-- The owner or the expiry of a peer changes who is active. -/
  | applied (pass : Pass)
  | ticked (pass : Pass) (alive starts : Bool)
  /-- The firewall goes on with a call. -/
  | asked (o : FirewallOp) (faults : Faults)
  | loggedOut

def placesMesh : FirewallOp → Bool
  | .replaceMesh _ => true
  | _ => false

namespace MeshHost

variable (host : MeshHost)

def step : MeshEvent → Option MeshHost
  | .enrolled device how pass =>
      if host.enrolled.isSome then none
      else (host.bringUp device how).bind fun host =>
        host.enrolled.map fun enrolled => host.applied enrolled pass
  | .refreshed answer pass => host.enrolled.map fun enrolled => host.refreshed enrolled answer pass
  | .failed => host.enrolled.map fun _ => host
  | .applied pass => host.enrolled.map fun enrolled => host.applied enrolled pass
  | .ticked pass alive starts =>
      host.enrolled.map fun enrolled => host.ticked enrolled pass alive starts
  | .asked o faults =>
      if placesMesh o then none
      else some { host with fw := host.fw.map fun fw => (fw.exec faults o).2 }
  | .loggedOut => host.enrolled.map fun _ => { host with enrolled := none }

end MeshHost

/-! Following the device. -/

structure MeshHost.Follows (host : MeshHost) (enrolled : EnrolledHost) : Prop where
  address : enrolled.address = enrolled.device.wgIp
  dns : ∀ addr ∈ enrolled.dns, addr = enrolled.device.wgIp
  p2p : ∀ addr ∈ enrolled.p2p, addr = enrolled.device.wgIp
  fw : ∀ fw ∈ host.fw, fw.meshAddr = some enrolled.device.wgIp
  certDomain : host.zone.certDomain = enrolled.dnsDomain
  /-- Names that no peer goes by resolve to the device. -/
  names : ∀ key ∈ ZoneData.hostNames enrolled.dnsDomain enrolled.device.hostname
      enrolled.device.primaryAlias,
    (∀ seed ∈ enrolled.seeds,
      key ∉ ZoneData.hostNames enrolled.dnsDomain seed.hostname seed.primaryAlias) →
    host.zone.names.lookup key = some enrolled.device.wgIp
  nameserver : ∀ routing ∈ enrolled.resolver, routing.nameserver = enrolled.device.wgIp
  domains : ∀ routing ∈ enrolled.resolver,
    routing.domains = routing.platform.namespaces enrolled.dnsDomain

def MeshHost.Following (host : MeshHost) : Prop :=
  ∀ enrolled ∈ host.enrolled, host.Follows enrolled

/-- A grant gives the device the address it has and the hook the domains it routes; an answer
without a grant brings the domain that the device has. -/
def EnrolledHost.fits (enrolled : EnrolledHost) (answer : Verified) : Bool :=
  match answer.dev with
  | none => answer.dnsDomain == enrolled.device.dnsDomain
  | some device =>
      device.wgIp == enrolled.device.wgIp && enrolled.resolver.all fun routing =>
        routing.platform.namespaces answer.dnsDomain ==
          routing.platform.namespaces enrolled.device.dnsDomain

def MeshHost.fits (host : MeshHost) : MeshEvent → Bool
  | .refreshed answer _ => host.enrolled.all fun enrolled => enrolled.fits answer
  | _ => true

section

variable {faults : Faults} {fw : Firewall} {o : FirewallOp}

theorem exec_meshAddr (hplaces : placesMesh o = false) :
    (fw.exec faults o).2.meshAddr = fw.meshAddr := by
  have hother : o.changes ≠ some .mesh := by
    cases o with
    | replaceMesh addr => cases hplaces
    | _ => nofun
  exact exec_keeps hother

theorem reconcile_meshAddr :
    (reconcile.run (Firewall.alone faults) fw).2.meshAddr = fw.meshAddr := by
  have huses : Fw.reconcile.Uses fun o : FirewallOp => o.changes = none :=
    uses_reconcile (fun _ => rfl) fun _ => rfl
  have hother : ∀ o : FirewallOp, o.changes = none → o.changes ≠ some .mesh :=
    fun o hnone hsome => nomatch hnone.symm.trans hsome
  exact Firewall.run_keeps huses hother fw

theorem setMeshAddr_meshAddr (addr : Ipv4Addr) :
    ((setMeshAddr addr).run (Firewall.alone faults) fw).2.meshAddr = some addr := by
  have hreplaced : (ask (.replaceMesh addr)).run (Firewall.alone faults) fw =
      (.ok (fw.meshAddr != some addr), { fw with meshAddr := some addr }) :=
    Firewall.run_ask _ _
  unfold setMeshAddr
  rw [Prog.run_bind, hreplaced]
  dsimp only
  split
  · exact reconcile_meshAddr
  · rfl

end

section

variable {host host' : MeshHost} {event : MeshEvent} {enrolled : EnrolledHost}

theorem placed_meshAddr {addr : Ipv4Addr} {faults : Faults} {placed : Option Firewall}
    (hplaced : host.placed addr faults = some placed) :
    ∀ fw ∈ placed, fw.meshAddr = some addr := by
  unfold MeshHost.placed at hplaced
  split at hplaced
  · cases hplaced
    exact nofun
  · rename_i fw hfw
    have hmesh : ((setMeshAddr addr).run (Firewall.alone faults) fw).2.meshAddr = some addr :=
      setMeshAddr_meshAddr addr
    split at hplaced
    · cases hplaced
    · rename_i hrun
      cases hplaced
      rw [hrun] at hmesh
      rintro fw' ⟨rfl⟩
      exact hmesh

structure MeshHost.Sound (host : MeshHost) : Prop where
  following : host.Following
  zoned : ∀ enrolled ∈ host.enrolled, host.zone.certDomain = enrolled.device.dnsDomain

theorem follows_applied (pass : Pass) (haddress : enrolled.address = enrolled.device.wgIp)
    (hdns : ∀ addr ∈ enrolled.dns, addr = enrolled.device.wgIp)
    (hp2p : ∀ addr ∈ enrolled.p2p, addr = enrolled.device.wgIp)
    (hfw : ∀ fw ∈ host.fw, fw.meshAddr = some enrolled.device.wgIp)
    (hdomain : enrolled.device.dnsDomain = enrolled.dnsDomain)
    (hnameserver : ∀ routing ∈ enrolled.resolver, routing.nameserver = enrolled.device.wgIp)
    (hdomains : ∀ routing ∈ enrolled.resolver,
      routing.domains = routing.platform.namespaces enrolled.dnsDomain) :
    (host.applied enrolled pass).Sound := by
  constructor
  · rintro _ ⟨rfl⟩
    refine ⟨haddress, hdns, hp2p, hfw, ?_, ?_, hnameserver, hdomains⟩
    · exact (ZoneData.rebuilt_certDomain ..).trans hdomain
    · intro key hown hothers
      dsimp only at hown hothers
      rw [← hdomain] at hown hothers
      exact ZoneData.lookup_rebuilt hown hothers
  · rintro _ ⟨rfl⟩
    exact ZoneData.rebuilt_certDomain ..

theorem following_refreshed_iff (hsound : host.Sound) (henrolled : host.enrolled = some enrolled)
    (answer : Verified) (pass : Pass) :
    (host.refreshed enrolled answer pass).Following ↔ enrolled.fits answer = true := by
  obtain ⟨hfollowing, hzoned⟩ := hsound
  have hfollows := hfollowing enrolled henrolled
  have hsame : enrolled.device.dnsDomain = enrolled.dnsDomain :=
    (hzoned enrolled henrolled).symm.trans hfollows.certDomain
  have hdomain : ∀ after, after = (host.refreshed enrolled answer pass) → after.Following →
      (answer.dev.getD enrolled.device).dnsDomain = answer.dnsDomain := by
    rintro _ rfl hafter
    exact (ZoneData.rebuilt_certDomain ..).symm.trans (hafter _ rfl).certDomain
  unfold EnrolledHost.fits
  cases hdev : answer.dev with
  | none =>
      rw [beq_iff_eq]
      constructor
      · intro hafter
        have hdomain := hdomain _ rfl hafter
        rw [hdev] at hdomain
        exact hdomain.symm
      · intro hdomain
        have hkept : answer.dnsDomain = enrolled.dnsDomain := hdomain.trans hsame
        refine (follows_applied pass ?_ ?_ ?_ ?_ ?_ ?_ ?_).following
        all_goals simp only [hdev, Option.getD_none]
        · exact hfollows.address
        · exact hfollows.dns
        · exact hfollows.p2p
        · exact hfollows.fw
        · exact hdomain.symm
        · exact hfollows.nameserver
        · rw [hkept]
          exact hfollows.domains
  | some device =>
      have hagrees := answer.agrees device hdev
      rw [Bool.and_eq_true, beq_iff_eq, Option.all_eq_true]
      simp only [beq_iff_eq]
      constructor
      · intro hafter
        have hafter := hafter _ rfl
        constructor
        · have haddress := hafter.address
          rw [hdev] at haddress
          exact haddress.symm.trans hfollows.address
        · intro routing hrouting
          rw [hsame, ← hfollows.domains routing hrouting]
          exact (hafter.domains routing hrouting).symm
      · rintro ⟨haddress, hrouted⟩
        refine (follows_applied pass ?_ ?_ ?_ ?_ ?_ ?_ ?_).following
        all_goals simp only [hdev, Option.getD_some, haddress]
        · exact hfollows.address
        · exact hfollows.dns
        · exact hfollows.p2p
        · exact hfollows.fw
        · exact hagrees
        · exact hfollows.nameserver
        · intro routing hrouting
          rw [hrouted routing hrouting, hsame]
          exact hfollows.domains routing hrouting

theorem sound_applied (hsound : host.Sound) (henrolled : host.enrolled = some enrolled)
    (pass : Pass) : (host.applied enrolled pass).Sound := by
  have hfollows := hsound.following enrolled henrolled
  exact follows_applied pass hfollows.address hfollows.dns hfollows.p2p hfollows.fw
    ((hsound.zoned enrolled henrolled).symm.trans hfollows.certDomain) hfollows.nameserver
    hfollows.domains

theorem dnsBind_address (device : SelfDevice) :
    ∀ addr ∈ host.dnsBind device, addr = device.wgIp := by
  intro addr haddr
  exact (Option.some.inj (Option.mem_ite_none_right.mp haddr).2).symm

theorem hooked_install {device : SelfDevice} {how : BringUp} {routing : Routing}
    (hrouting : routing ∈ host.hooked device how) :
    ∃ platform : Platform, routing = platform.install device.wgIp device.dnsDomain := by
  unfold MeshHost.hooked at hrouting
  split at hrouting
  · rename_i bind hook _ hbind _
    obtain rfl := dnsBind_address device bind hbind
    exact ⟨hook, (Option.some.inj (Option.mem_ite_none_right.mp hrouting).2).symm⟩
  · cases hrouting

theorem sound_enrolled {device : SelfDevice} {how : BringUp} {pass : Pass}
    (hstep : host.step (.enrolled device how pass) = some host') : host'.Sound := by
  obtain ⟨_, hstep⟩ := Option.ite_none_left_eq_some.mp hstep
  obtain ⟨up, hup, happlied⟩ := Option.bind_eq_some_iff.mp hstep
  obtain ⟨fw, hplaced, rfl⟩ := Option.map_eq_some_iff.mp hup
  cases happlied
  refine follows_applied pass rfl ?_ ?_ (placed_meshAddr hplaced) rfl ?_ ?_
  · intro addr haddr
    exact dnsBind_address device addr (Option.mem_ite_none_right.mp haddr).2
  · intro addr haddr
    exact (Option.some.inj (Option.mem_ite_none_right.mp haddr).2).symm
  · intro routing hrouting
    obtain ⟨platform, rfl⟩ := hooked_install hrouting
    rfl
  · intro routing hrouting
    obtain ⟨platform, rfl⟩ := hooked_install hrouting
    rfl

theorem sound_idle (hnone : host.enrolled = none) : host.Sound := by
  constructor
  · intro enrolled henrolled
    rw [hnone] at henrolled
    cases henrolled
  · intro enrolled henrolled
    rw [hnone] at henrolled
    cases henrolled

theorem following_iff (hsound : host.Sound) (hstep : host.step event = some host') :
    host'.Following ↔ host.fits event = true := by
  cases event with
  | enrolled device how pass => exact iff_of_true (sound_enrolled hstep).following rfl
  | refreshed answer pass =>
      obtain ⟨enrolled, henrolled, rfl⟩ := Option.map_eq_some_iff.mp hstep
      rw [following_refreshed_iff hsound henrolled]
      show _ ↔ host.enrolled.all _ = true
      rw [henrolled, Option.all_some]
  | failed =>
      obtain ⟨enrolled, _, rfl⟩ := Option.map_eq_some_iff.mp hstep
      exact iff_of_true hsound.following rfl
  | applied pass =>
      obtain ⟨enrolled, henrolled, rfl⟩ := Option.map_eq_some_iff.mp hstep
      exact iff_of_true (sound_applied hsound henrolled pass).following rfl
  | ticked pass alive starts =>
      obtain ⟨enrolled, henrolled, rfl⟩ := Option.map_eq_some_iff.mp hstep
      refine iff_of_true ?_ rfl
      rintro _ ⟨rfl⟩
      have hfollows := (sound_applied hsound henrolled pass).following _ rfl
      exact { hfollows with }
  | asked o faults =>
      obtain ⟨hplaces, hstep⟩ := Option.ite_none_left_eq_some.mp hstep
      cases hstep
      refine iff_of_true (fun enrolled henrolled => ?_) rfl
      have hfollows := hsound.following enrolled henrolled
      refine { hfollows with fw := ?_ }
      intro after hafter
      obtain ⟨fw, hfw, rfl⟩ := Option.map_eq_some_iff.mp hafter
      exact (exec_meshAddr (by simpa using hplaces)).trans (hfollows.fw fw hfw)
  | loggedOut =>
      obtain ⟨enrolled, _, rfl⟩ := Option.map_eq_some_iff.mp hstep
      exact iff_of_true (sound_idle rfl).following rfl

theorem zoned_step (hsound : host.Sound) (hstep : host.step event = some host') :
    ∀ enrolled ∈ host'.enrolled, host'.zone.certDomain = enrolled.device.dnsDomain := by
  cases event with
  | enrolled device how pass => exact (sound_enrolled hstep).zoned
  | refreshed answer pass =>
      obtain ⟨enrolled, _, rfl⟩ := Option.map_eq_some_iff.mp hstep
      rintro _ ⟨rfl⟩
      exact ZoneData.rebuilt_certDomain ..
  | failed =>
      obtain ⟨enrolled, _, rfl⟩ := Option.map_eq_some_iff.mp hstep
      exact hsound.zoned
  | applied pass =>
      obtain ⟨enrolled, _, rfl⟩ := Option.map_eq_some_iff.mp hstep
      rintro _ ⟨rfl⟩
      exact ZoneData.rebuilt_certDomain ..
  | ticked pass alive starts =>
      obtain ⟨enrolled, _, rfl⟩ := Option.map_eq_some_iff.mp hstep
      rintro _ ⟨rfl⟩
      exact ZoneData.rebuilt_certDomain ..
  | asked o faults =>
      obtain ⟨_, hstep⟩ := Option.ite_none_left_eq_some.mp hstep
      cases hstep
      exact hsound.zoned
  | loggedOut =>
      obtain ⟨enrolled, _, rfl⟩ := Option.map_eq_some_iff.mp hstep
      exact (sound_idle rfl).zoned

/-- In every run, all that is set up on the mesh address follows the device exactly when every
answer fits. -/
theorem following_meets_iff (cfg : HostConfig) (fw : Option Firewall) (events : List MeshEvent) :
    AtEach MeshHost.step { cfg := cfg, fw := fw } events (fun _ _ host => host.Following) ↔
      meets MeshHost.step MeshHost.fits { cfg := cfg, fw := fw } events = true := by
  have hstart : ({ cfg := cfg, fw := fw } : MeshHost).Sound := sound_idle rfl
  rw [meets_iff]
  refine AtEach.congr_while MeshHost.Sound hstart ?_ ?_
  · exact fun _ _ _ hsound hstep hfollowing => ⟨hfollowing, zoned_step hsound hstep⟩
  · exact fun _ _ _ hsound hstep => following_iff hsound hstep

/-! Another mesh range. -/

def jellyfin (wgIp : Ipv4Addr) : SelfDevice where
  communityName := "lan"
  userId := 1
  username := "alice"
  networks := []
  wgIp := wgIp
  wgNet := ⟨0x64400000, 10⟩
  hostname := "server.alice.unity.internal"
  isPrimary := false
  grantExpiresAt := 900
  primaryAlias := none
  networksStatus := []
  dnsDomain := some "mesh.example.com"

def jellyfinWeb : Exposed :=
  ⟨.tcp, 8096, .allPeers, some "jellyfin", .web⟩

/-- The coordinator is started again with another range, in which the device has another address. -/
def moved : List MeshEvent :=
  [.enrolled (jellyfin 0x64400001) {} {}, .ticked {} true true,
    .refreshed ⟨_, some (jellyfin 0x0a000001), fun _ hsame => by cases hsame; rfl⟩ {},
    .ticked {} true true]

/-- The zone and the proxy follow; the interface, the listeners, the firewall and the resolver are
left on the address before. -/
theorem following_moved :
    ∃ host enrolled, runs MeshHost.step { fw := some { exposed := [jellyfinWeb] } } moved =
        some host ∧ host.enrolled = some enrolled ∧
      (enrolled.device.wgIp = 0x0a000001 ∧
        host.zone.names.lookup "server.alice.unity.internal" = some 0x0a000001 ∧
        host.proxy = some 0x0a000001) ∧
      (enrolled.address = 0x64400001 ∧ enrolled.dns = some 0x64400001 ∧
        enrolled.p2p = some 0x64400001 ∧
        host.fw.map Firewall.meshAddr = some (some 0x64400001) ∧
        enrolled.resolver.map Routing.nameserver = some 0x64400001) ∧
      ¬ AtEach MeshHost.step { fw := some { exposed := [jellyfinWeb] } } moved
        (fun _ _ host => host.Following) := by
  have hplay : (runs MeshHost.step { fw := some { exposed := [jellyfinWeb] } } moved).any
      (fun host => host.enrolled.any fun enrolled =>
        (enrolled.device.wgIp = 0x0a000001 ∧
          host.zone.names.lookup "server.alice.unity.internal" = some 0x0a000001 ∧
          host.proxy = some 0x0a000001) ∧
        enrolled.address = 0x64400001 ∧ enrolled.dns = some 0x64400001 ∧
          enrolled.p2p = some 0x64400001 ∧
          host.fw.map Firewall.meshAddr = some (some 0x64400001) ∧
          enrolled.resolver.map Routing.nameserver = some 0x64400001) = true := by
    decide
  obtain ⟨host, hrun, hend⟩ := (Option.any_eq_true _ _).mp hplay
  obtain ⟨enrolled, henrolled, hend⟩ := (Option.any_eq_true _ _).mp hend
  obtain ⟨hnew, hold⟩ := of_decide_eq_true hend
  refine ⟨host, enrolled, hrun, henrolled, hnew, hold, fun hall => ?_⟩
  have hmoves : moved = moved.take 3 ++ [MeshEvent.ticked {} true true] := rfl
  rw [hmoves, runs_snoc] at hrun
  obtain ⟨before, hbefore, hlast⟩ := Option.bind_eq_some_iff.mp hrun
  have hfollows := hall (moved.take 3) _ before host (List.prefix_refl moved) hbefore hlast
    enrolled henrolled
  have hmoved := hold.1.symm.trans (hfollows.address.trans hnew.1)
  exact absurd hmoved (by decide)

end

end UnityLan.Engine
