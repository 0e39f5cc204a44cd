import Mathlib.Data.List.Sort
import UnityLan.Engine.Seeds
import UnityLan.Engine.Fw.Announced

namespace UnityLan

def SharedNetwork.id (net : SharedNetwork) : Option (GuildId × RoleId) :=
  if net.guildId ≠ 0 ∧ net.roleId ≠ 0 then some (net.guildId, net.roleId) else none

end UnityLan

namespace UnityLan.Engine.Fw

open UnityLan.Foundation

/-! The peer sets of the co-members that a pass of the mesh loop peers with. -/

def NetInfo.id (net : NetInfo) : GuildId × RoleId :=
  (net.guildId, net.roleId)

/-- A member joins the set of a network; a network that is not there yet gets one. -/
def joinNet (id : GuildId × RoleId) (shared : SharedNetwork) (ip : Ipv4Addr) :
    List NetInfo → List NetInfo
  | [] => [⟨id.1, id.2, shared.community, shared.name, [ip]⟩]
  | net :: rest =>
      if net.id = id then { net with ips := net.ips ++ [ip] } :: rest
      else net :: joinNet id shared ip rest

def addMember (nets : List NetInfo) (member : Ipv4Addr × SharedNetwork) : List NetInfo :=
  match member.2.id with
  | none => nets
  | some id => joinNet id member.2 member.1 nets

def members (seeds : List SeedPeer) : List (Ipv4Addr × SharedNetwork) :=
  seeds.flatMap fun seed => seed.networks.map fun net => (seed.ip, net)

def sortIps (ips : List Ipv4Addr) : List Ipv4Addr :=
  ips.insertionSort (· ≤ ·)

def NetInfo.le (first second : NetInfo) : Prop :=
  first.guildId < second.guildId ∨ first.guildId = second.guildId ∧ first.roleId ≤ second.roleId

instance : DecidableRel NetInfo.le :=
  fun first second =>
    inferInstanceAs (Decidable (first.guildId < second.guildId ∨
      first.guildId = second.guildId ∧ first.roleId ≤ second.roleId))

def peerSets (seeds : List SeedPeer) (owner : Option UserId) : PeerSets where
  nets :=
    (((members seeds).foldl addMember []).insertionSort NetInfo.le).map fun net =>
      { net with ips := sortIps net.ips }
  ownDevices :=
    sortIps ((seeds.filter fun seed => owner.any fun me => me == seed.userId).map SeedPeer.ip)

/-! What a pass of the mesh loop does with the co-members. -/

structure LocalNet where
  disabled : List (GuildId × RoleId) := []
  known : List (GuildId × RoleId) := []
  disableNew : Bool := false
  paused : Bool := false
  blocked : Table UserId String := ∅

namespace LocalNet

def reconcileNew (localnet : LocalNet) (present : List (GuildId × RoleId)) : LocalNet :=
  present.foldl
    (fun localnet net =>
      if localnet.known.contains net then localnet
      else
        { localnet with
          known := localnet.known ++ [net]
          disabled :=
            if localnet.disableNew && !localnet.disabled.contains net then
              localnet.disabled ++ [net]
            else localnet.disabled })
    localnet

end LocalNet

def nameToId (networksStatus : List NetworkStatus) (name : String) : Option (GuildId × RoleId) :=
  (networksStatus.reverse.find? fun net => net.name == name).map fun net =>
    (net.guildId, net.roleId)

def filterActive (seeds : List SeedPeer) (localnet : LocalNet)
    (networksStatus : List NetworkStatus) : List SeedPeer :=
  (seeds.filter fun seed => !localnet.blocked.contains seed.userId).filter fun seed =>
    seed.networks.isEmpty ||
      seed.networks.any fun net =>
        (nameToId networksStatus net.name).all fun id => !localnet.disabled.contains id

/-! The routes of the proxy. -/

structure ProxyRoute where
  hostnames : List String
  port : Port
  /-- Who may use it; `none` for everyone. -/
  allow : Option (List Ipv4Addr)
  deriving DecidableEq

abbrev Served := Exposed × Option (List Ipv4Addr)

def Firewall.served (fw : Firewall) : List Served :=
  (fw.exposed.filter fun e => e.kind == .web && e.name.isSome).map fun e =>
    (e, fw.peers.sources e.scope)

def Exposed.hostnames (user : String) (certDomain : Option String) (e : Exposed) : List String :=
  let name := e.name.getD ""
  ((s!"{name}.{user}.{DNS_SUFFIX}" ::
    (certDomain.map fun domain => s!"{name}.{user}.{domain}").toList)).map String.toLower

def withOwn (own : Option Ipv4Addr) (sources : Option (List Ipv4Addr)) :
    Option (List Ipv4Addr) :=
  sources.map fun ips => (sortIps (ips ++ own.toList)).dedup

def joinAllow : Option (List Ipv4Addr) → Option (List Ipv4Addr) → Option (List Ipv4Addr)
  | some held, some more => some (sortIps (held ++ more)).dedup
  | _, _ => none

def addRoute (new : ProxyRoute) : List ProxyRoute → List ProxyRoute
  | [] => [new]
  | route :: rest =>
      if route.hostnames = new.hostnames then
        { route with allow := joinAllow route.allow new.allow } :: rest
      else route :: addRoute new rest

def webRoutes (user : String) (certDomain : Option String) (own : Option Ipv4Addr)
    (served : List Served) : List ProxyRoute :=
  served.foldl
    (fun routes item =>
      addRoute ⟨item.1.hostnames user certDomain, item.1.port, withOwn own item.2⟩ routes)
    []

def allows (allow : Option (List Ipv4Addr)) (source : Ipv4Addr) : Prop :=
  ∀ ips, allow = some ips → source ∈ ips

/-! The mesh loop. -/

structure Mesh where
  localnet : LocalNet := {}
  /-- The networks that the device holds, as the status has them. -/
  held : List NetworkStatus := []
  /-- The co-members of the latest pass, and of the one before. -/
  active : List SeedPeer := []
  before : List SeedPeer := []
  fw : Firewall := {}
  /-- What the routes in the status were made of. -/
  served : List Served := []
  routes : List ProxyRoute := []

namespace Mesh

def applyState (m : Mesh) (device : Option SelfDevice) (seeds : List SeedPeer) : Mesh :=
  match device with
  | none => { m with active := [], fw := { m.fw with peers := peerSets [] none } }
  | some dev =>
      let localnet := m.localnet.reconcileNew
        (dev.networksStatus.map fun net => (net.guildId, net.roleId))
      let active := if localnet.paused then [] else filterActive seeds localnet dev.networksStatus
      { localnet := localnet
        held := dev.networksStatus
        active := active
        before := m.active
        fw := { m.fw with peers := peerSets active (some dev.userId) }
        served := m.fw.served
        routes := webRoutes dev.username dev.dnsDomain m.fw.meshAddr m.fw.served }

inductive Event
  | pass (device : Option SelfDevice) (seeds : List SeedPeer)
  /-- The owner changes what is chosen on this device. -/
  | chosen (localnet : LocalNet)
  /-- The exposures are changed. -/
  | exposed (exposed : List Exposed)
  | placed (addr : Ipv4Addr)

def step (m : Mesh) : Event → Mesh
  | .pass device seeds => m.applyState device seeds
  | .chosen localnet => { m with localnet := localnet }
  | .exposed exposed => { m with fw := { m.fw with exposed := exposed } }
  | .placed addr => { m with fw := { m.fw with meshAddr := some addr } }

def run (m : Mesh) (events : List Event) : Mesh :=
  events.foldl step m

/-- The networks the device holds that a scope someone typed could mean. -/
def heldMatching (m : Mesh) (guild : Option String) (name : String) : List NetworkStatus :=
  m.held.filter fun net => net.name == name && guild.all fun guild => net.guildName == guild

/-- An exposure admits an address: the firewall lets it in, the service is announced to it, or the
proxy serves it. -/
def Admits (m : Mesh) (e : Exposed) (source : Ipv4Addr) : Prop :=
  (e ∈ m.fw.exposed ∧ m.fw.peers.admits e.scope source = true) ∨
    (e ∈ m.fw.exposed ∧ (e.serviceFor m.fw.peers source).isSome = true) ∨
      ∃ sources, (e, sources) ∈ m.served ∧ allows sources source

end Mesh

/-! The networks that co-members share. -/

def firstOf (done : List (Ipv4Addr × SharedNetwork)) (id : GuildId × RoleId) :
    Option SharedNetwork :=
  (done.map Prod.snd).find? fun shared => shared.id == some id

def Carries (seeds : List SeedPeer) (guild : Option String) (name : String)
    (id : GuildId × RoleId) : Prop :=
  ∃ shared, firstOf (members seeds) id = some shared ∧ shared.name = name ∧
    guild.all (fun guild => shared.community == guild) = true

structure Groups (done : List (Ipv4Addr × SharedNetwork)) (nets : List NetInfo) : Prop where
  nodup : (nets.map NetInfo.id).Nodup
  covers : ∀ member ∈ done, ∀ id, member.2.id = some id → id ∈ nets.map NetInfo.id
  named : ∀ net ∈ nets, ∃ shared, firstOf done net.id = some shared ∧
    net.name = shared.name ∧ net.guild = shared.community
  inhabited : ∀ net ∈ nets, net.ips ≠ []

section

variable {done : List (Ipv4Addr × SharedNetwork)} {nets : List NetInfo}
  {id : GuildId × RoleId} {shared : SharedNetwork} {ip : Ipv4Addr}

theorem firstOf_append {other : GuildId × RoleId} {first : SharedNetwork}
    (hfirst : firstOf done other = some first) (member : Ipv4Addr × SharedNetwork) :
    firstOf (done ++ [member]) other = some first := by
  unfold firstOf at hfirst ⊢
  rw [List.map_append, List.find?_append, hfirst]
  rfl

theorem joinNet_ids : (joinNet id shared ip nets).map NetInfo.id =
    if id ∈ nets.map NetInfo.id then nets.map NetInfo.id else nets.map NetInfo.id ++ [id] := by
  induction nets with
  | nil => rfl
  | cons net rest ih =>
      unfold joinNet
      by_cases hid : net.id = id
      · rw [if_pos hid, if_pos (by simp [hid])]
        rfl
      · rw [if_neg hid, List.map_cons, ih, List.map_cons]
        by_cases hrest : id ∈ rest.map NetInfo.id
        · rw [if_pos hrest, if_pos (List.mem_cons_of_mem _ hrest)]
        · rw [if_neg hrest, if_neg (by simp [Ne.symm hid] at hrest ⊢; exact hrest)]
          rfl

theorem mem_joinNet {joined : NetInfo} (hjoined : joined ∈ joinNet id shared ip nets) :
    (∃ net ∈ nets, joined.id = net.id ∧ joined.name = net.name ∧ joined.guild = net.guild ∧
      (joined.ips = net.ips ∨ joined.ips = net.ips ++ [ip])) ∨
      id ∉ nets.map NetInfo.id ∧ joined = ⟨id.1, id.2, shared.community, shared.name, [ip]⟩ := by
  induction nets with
  | nil => exact .inr ⟨List.not_mem_nil, List.mem_singleton.mp hjoined⟩
  | cons net rest ih =>
      unfold joinNet at hjoined
      split at hjoined
      · left
        rcases List.mem_cons.mp hjoined with rfl | hrest
        · exact ⟨net, List.mem_cons_self .., rfl, rfl, rfl, .inr rfl⟩
        · exact ⟨joined, List.mem_cons_of_mem _ hrest, rfl, rfl, rfl, .inl rfl⟩
      · rename_i hother
        rcases List.mem_cons.mp hjoined with rfl | hrest
        · exact .inl ⟨joined, List.mem_cons_self .., rfl, rfl, rfl, .inl rfl⟩
        · rcases ih hrest with ⟨held, hheld, hsame⟩ | ⟨hnew, hlast⟩
          · exact .inl ⟨held, List.mem_cons_of_mem _ hheld, hsame⟩
          · refine .inr ⟨?_, hlast⟩
            rw [List.map_cons, List.mem_cons]
            rintro (hid | hid)
            · exact hother hid.symm
            · exact hnew hid

theorem Groups.add (hgroups : Groups done nets) (member : Ipv4Addr × SharedNetwork) :
    Groups (done ++ [member]) (addMember nets member) := by
  unfold addMember
  split
  · rename_i hnone
    refine ⟨hgroups.nodup, ?_, ?_, hgroups.inhabited⟩
    · intro other hother id hid
      rcases List.mem_append.mp hother with hother | hother
      · exact hgroups.covers other hother id hid
      · rw [List.mem_singleton.mp hother, hnone] at hid
        cases hid
    · intro net hnet
      obtain ⟨first, hfirst, hlabels⟩ := hgroups.named net hnet
      exact ⟨first, firstOf_append hfirst member, hlabels⟩
  · rename_i id hid
    constructor
    case nodup =>
      rw [joinNet_ids]
      split
      · exact hgroups.nodup
      · rename_i hnew
        rw [List.nodup_append]
        refine ⟨hgroups.nodup, List.nodup_singleton id, fun a ha b hb => ?_⟩
        rw [List.mem_singleton.mp hb]
        rintro rfl
        exact hnew ha
    case covers =>
      intro other hother otherId hotherId
      rw [joinNet_ids]
      rcases List.mem_append.mp hother with hother | hother
      · have hcovered := hgroups.covers other hother otherId hotherId
        split
        · exact hcovered
        · exact List.mem_append_left _ hcovered
      · rw [List.mem_singleton.mp hother, hid, Option.some.injEq] at hotherId
        subst hotherId
        split
        · assumption
        · exact List.mem_append_right _ (List.mem_singleton_self _)
    case named =>
      intro net hnet
      rcases mem_joinNet hnet with ⟨held, hheld, hsame, hname, hguild, _⟩ | ⟨hnew, rfl⟩
      · obtain ⟨first, hfirst, hfirstName, hfirstGuild⟩ := hgroups.named held hheld
        exact ⟨first, hsame ▸ firstOf_append hfirst member, hname.trans hfirstName,
          hguild.trans hfirstGuild⟩
      · refine ⟨member.2, ?_, rfl, rfl⟩
        have hbefore : (done.map Prod.snd).find? (fun shared => shared.id == some id) = none := by
          apply List.find?_eq_none.mpr
          intro other hother hsame
          obtain ⟨entry, hentry, rfl⟩ := List.mem_map.mp hother
          exact hnew (hgroups.covers entry hentry id (by simpa using hsame))
        unfold firstOf
        rw [List.map_append, List.find?_append]
        change ((done.map Prod.snd).find? fun shared => shared.id == some id).or _ = _
        rw [hbefore]
        simp [hid, NetInfo.id]
    case inhabited =>
      intro net hnet
      rcases mem_joinNet hnet with ⟨held, hheld, _, _, _, hips | hips⟩ | ⟨_, rfl⟩
      · rw [hips]
        exact hgroups.inhabited held hheld
      · rw [hips]
        simp
      · simp

theorem Groups.fold (hgroups : Groups done nets) (rest : List (Ipv4Addr × SharedNetwork)) :
    Groups (done ++ rest) (rest.foldl addMember nets) := by
  induction rest generalizing done nets with
  | nil => simpa using hgroups
  | cons member rest ih =>
      have hrest := ih (hgroups.add member)
      simpa using hrest

theorem groups_start : Groups [] [] where
  nodup := List.nodup_nil
  covers := fun _ hmember => nomatch hmember
  named := fun _ hnet => nomatch hnet
  inhabited := fun _ hnet => nomatch hnet

end

theorem filter_singleton_iff {α κ : Type} {items : List α} {key : α → κ} (passes : α → Bool)
    (hnodup : (items.map key).Nodup) :
    (∃ only, items.filter passes = [only]) ↔
      ∃! k, ∃ item ∈ items, passes item = true ∧ key item = k := by
  constructor
  · rintro ⟨only, honly⟩
    have hmem : ∀ item, item ∈ items ∧ passes item = true ↔ item = only := by
      intro item
      rw [← List.mem_filter, honly, List.mem_singleton]
    obtain ⟨hitem, hpasses⟩ := (hmem only).mpr rfl
    refine ⟨key only, ⟨only, hitem, hpasses, rfl⟩, ?_⟩
    rintro k ⟨item, hitem, hpasses, rfl⟩
    rw [(hmem item).mp ⟨hitem, hpasses⟩]
  · rintro ⟨k, ⟨item, hitem, hpasses, hkey⟩, hunique⟩
    have hsame : ∀ other ∈ items.filter passes, other = item := by
      intro other hother
      obtain ⟨hother, hpassed⟩ := List.mem_filter.mp hother
      apply List.inj_on_of_nodup_map hnodup hother hitem
      rw [hkey]
      exact hunique _ ⟨other, hother, hpassed, rfl⟩
    have hfound : item ∈ items.filter passes := List.mem_filter.mpr ⟨hitem, hpasses⟩
    have hfiltered : (items.filter passes).Nodup := hnodup.of_map.filter _
    match hlist : items.filter passes with
    | [] =>
        rw [hlist] at hfound
        cases hfound
    | [only] => exact ⟨only, rfl⟩
    | first :: second :: _ =>
        rw [hlist] at hsame hfiltered
        have hfirst := hsame first (List.mem_cons_self ..)
        have hsecond := hsame second (List.mem_cons_of_mem _ (List.mem_cons_self ..))
        rw [hfirst, hsecond] at hfiltered
        exact absurd (List.mem_cons_self ..) (List.nodup_cons.mp hfiltered).1

section

variable {seeds : List SeedPeer} {owner : Option UserId} {guild : Option String} {name : String}

theorem groups_peerSets (seeds : List SeedPeer) (owner : Option UserId) :
    Groups (members seeds) (peerSets seeds owner).nets := by
  have hgroups := groups_start.fold (members seeds)
  rw [List.nil_append] at hgroups
  have hperm := List.perm_insertionSort NetInfo.le ((members seeds).foldl addMember [])
  have hids : ((peerSets seeds owner).nets.map NetInfo.id).Perm
      (((members seeds).foldl addMember []).map NetInfo.id) := by
    unfold peerSets
    rw [List.map_map]
    exact hperm.map NetInfo.id
  have hmem : ∀ net ∈ (peerSets seeds owner).nets, ∃ held ∈ (members seeds).foldl addMember [],
      net = { held with ips := sortIps held.ips } := by
    intro net hnet
    obtain ⟨held, hheld, rfl⟩ := List.mem_map.mp hnet
    exact ⟨held, hperm.mem_iff.mp hheld, rfl⟩
  constructor
  case nodup => exact hids.nodup_iff.mpr hgroups.nodup
  case covers =>
    intro member hmember id hid
    exact hids.mem_iff.mpr (hgroups.covers member hmember id hid)
  case named =>
    intro net hnet
    obtain ⟨held, hheld, rfl⟩ := hmem net hnet
    exact hgroups.named held hheld
  case inhabited =>
    intro net hnet
    obtain ⟨held, hheld, rfl⟩ := hmem net hnet
    obtain ⟨ip, hip⟩ := List.exists_mem_of_ne_nil _ (hgroups.inhabited held hheld)
    exact List.ne_nil_of_mem ((List.mem_insertionSort _).mpr hip)

theorem carries_iff (id : GuildId × RoleId) :
    (∃ net ∈ (peerSets seeds owner).nets,
      (net.name == name && guild.all fun guild => net.guild == guild) = true ∧ net.id = id) ↔
      Carries seeds guild name id := by
  have hgroups := groups_peerSets seeds owner
  constructor
  · rintro ⟨net, hnet, hmatches, rfl⟩
    obtain ⟨shared, hfirst, hname, hguild⟩ := hgroups.named net hnet
    rw [Bool.and_eq_true, beq_iff_eq, hname, hguild] at hmatches
    exact ⟨shared, hfirst, hmatches⟩
  · rintro ⟨shared, hfirst, hname, hguild⟩
    obtain ⟨member, hmember, hshared⟩ := List.mem_map.mp (List.mem_of_find?_eq_some hfirst)
    have hid : shared.id = some id := by simpa using List.find?_some hfirst
    have hcovered := hgroups.covers member hmember id (by rw [hshared, hid])
    obtain ⟨net, hnet, hnetId⟩ := List.mem_map.mp hcovered
    obtain ⟨first, hnamed, hnetName, hnetGuild⟩ := hgroups.named net hnet
    rw [hnetId, hfirst, Option.some.injEq] at hnamed
    subst hnamed
    refine ⟨net, hnet, ?_, hnetId⟩
    rw [Bool.and_eq_true, beq_iff_eq, hnetName, hnetGuild]
    exact ⟨hname, hguild⟩

/-- A name that was not resolved admits someone exactly while the co-members share one network
that carries it. -/
theorem admits_some_iff :
    (∃ source, (peerSets seeds owner).admits (.unresolved guild name) source = true) ↔
      ∃! id, Carries seeds guild name id := by
  have hgroups := groups_peerSets seeds owner
  have hone := filter_singleton_iff
    (fun net : NetInfo => net.name == name && guild.all fun guild => net.guild == guild)
    hgroups.nodup
  simp only [carries_iff] at hone
  rw [← hone]
  constructor
  · rintro ⟨source, hadmits⟩
    rw [PeerSets.admits_of_sources rfl] at hadmits
    unfold PeerSets.matching at hadmits
    split at hadmits
    · rename_i only honly
      exact ⟨only, honly⟩
    · cases hadmits
  · rintro ⟨only, honly⟩
    have hmem : only ∈ (peerSets seeds owner).nets := by
      apply List.mem_of_mem_filter
      rw [honly]
      exact List.mem_singleton_self only
    obtain ⟨source, hsource⟩ := List.exists_mem_of_ne_nil _ (hgroups.inhabited only hmem)
    refine ⟨source, ?_⟩
    rw [PeerSets.admits_of_sources rfl]
    unfold PeerSets.matching
    rw [honly]
    exact hsource

end

/-! Whom the routes serve. -/

section

variable {routes : List ProxyRoute} {hostnames : List String} {source : Ipv4Addr}

theorem allows_joinAllow {held more : Option (List Ipv4Addr)} :
    allows (joinAllow held more) source ↔ allows held source ∨ allows more source := by
  unfold allows
  cases held with
  | none => simp [joinAllow]
  | some held =>
      cases more with
      | none => simp [joinAllow]
      | some more => simp [joinAllow, sortIps, List.mem_insertionSort]

theorem allows_withOwn {own : Option Ipv4Addr} {sources : Option (List Ipv4Addr)} :
    allows (withOwn own sources) source ↔ own = some source ∨ allows sources source := by
  unfold allows
  cases sources with
  | none => simp [withOwn]
  | some ips => simp [withOwn, sortIps, List.mem_insertionSort, Option.mem_toList, or_comm]

theorem mem_addRoute {new : ProxyRoute} :
    (∃ route ∈ addRoute new routes, route.hostnames = hostnames ∧ allows route.allow source) ↔
      (∃ route ∈ routes, route.hostnames = hostnames ∧ allows route.allow source) ∨
        new.hostnames = hostnames ∧ allows new.allow source := by
  induction routes with
  | nil => simp [addRoute]
  | cons route rest ih =>
      unfold addRoute
      split
      · rename_i hsame
        simp only [List.exists_mem_cons_iff, allows_joinAllow, hsame]
        rw [and_or_left, or_right_comm]
      · simp only [List.exists_mem_cons_iff, ih, or_assoc]

theorem webRoutes_allow {user : String} {certDomain : Option String} {own : Option Ipv4Addr}
    {served : List Served} :
    (∃ route ∈ webRoutes user certDomain own served,
      route.hostnames = hostnames ∧ allows route.allow source) ↔
      ∃ item ∈ served, item.1.hostnames user certDomain = hostnames ∧
        (own = some source ∨ allows item.2 source) := by
  suffices h : ∀ routes : List ProxyRoute,
      (∃ route ∈ served.foldl (fun routes item =>
          addRoute ⟨item.1.hostnames user certDomain, item.1.port, withOwn own item.2⟩ routes)
            routes, route.hostnames = hostnames ∧ allows route.allow source) ↔
        (∃ route ∈ routes, route.hostnames = hostnames ∧ allows route.allow source) ∨
          ∃ item ∈ served, item.1.hostnames user certDomain = hostnames ∧
            (own = some source ∨ allows item.2 source) by
    have hall := h []
    simp only [List.not_mem_nil, false_and, exists_false, false_or] at hall
    exact hall
  induction served with
  | nil => simp
  | cons item rest ih =>
      intro routes
      rw [List.foldl_cons, ih, mem_addRoute, allows_withOwn, List.exists_mem_cons_iff, or_assoc]

end

/-! What holds over runs of the mesh loop. -/

namespace Mesh

/-- The mesh loop starts with nobody to peer with. -/
def start (localnet : LocalNet) (exposed : List Exposed) : Mesh where
  localnet := localnet
  fw := { exposed := exposed }

/-- The peer sets are those of the latest pass; the routes are made of those of the pass before. -/
structure Kept (m : Mesh) : Prop where
  peers : ∃ owner, m.fw.peers = peerSets m.active owner
  served : ∃ owner, ∀ item ∈ m.served, item.2 = (peerSets m.before owner).sources item.1.scope
  routes : ∃ user certDomain own, m.routes = webRoutes user certDomain own m.served

theorem Kept.start (localnet : LocalNet) (exposed : List Exposed) :
    (Mesh.start localnet exposed).Kept where
  peers := ⟨none, rfl⟩
  served := ⟨none, fun _ hitem => nomatch hitem⟩
  routes := ⟨"", none, none, rfl⟩

theorem Kept.step {m : Mesh} (hkept : m.Kept) (event : Event) : (m.step event).Kept := by
  cases event with
  | pass device seeds =>
      cases device with
      | none => exact ⟨⟨none, rfl⟩, hkept.served, hkept.routes⟩
      | some dev =>
          obtain ⟨owner, hpeers⟩ := hkept.peers
          refine ⟨⟨some dev.userId, rfl⟩, ⟨owner, ?_⟩, ⟨dev.username, dev.dnsDomain, _, rfl⟩⟩
          intro item hitem
          obtain ⟨e, _, rfl⟩ := List.mem_map.mp hitem
          exact congrArg (fun peers => PeerSets.sources peers e.scope) hpeers
  | chosen localnet => exact ⟨hkept.peers, hkept.served, hkept.routes⟩
  | exposed exposed => exact ⟨hkept.peers, hkept.served, hkept.routes⟩
  | placed addr => exact ⟨hkept.peers, hkept.served, hkept.routes⟩

theorem Kept.run {m : Mesh} (hkept : m.Kept) (events : List Event) : (m.run events).Kept := by
  induction events generalizing m with
  | nil => exact hkept
  | cons event rest ih => exact ih (hkept.step event)

/-- Where the co-members share one network that carries a name, so does the device hold one: those
of the latest pass for what is exposed, and those of the pass before for what has a route. -/
def Decided (m : Mesh) (guild : Option String) (name : String) : Prop :=
  ((∃ e ∈ m.fw.exposed, e.scope = .unresolved guild name) →
    (∃! id, Carries m.active guild name id) → (m.heldMatching guild name).length = 1) ∧
  ((∃ item ∈ m.served, item.1.scope = .unresolved guild name) →
    (∃! id, Carries m.before guild name id) → (m.heldMatching guild name).length = 1)

theorem admits_announced {m : Mesh} {e : Exposed} {source : Ipv4Addr}
    (hannounced : (e.serviceFor m.fw.peers source).isSome = true) :
    m.fw.peers.admits e.scope source = true := by
  obtain ⟨service, hservice⟩ := Option.isSome_iff_exists.mp hannounced
  unfold Exposed.serviceFor at hservice
  obtain ⟨name, _, hadmitted⟩ := Option.bind_eq_some_iff.mp hservice
  by_contra hrefused
  rw [if_neg hrefused] at hadmitted
  cases hadmitted

theorem allows_sources {peers : PeerSets} {guild : Option String} {name : String}
    {source : Ipv4Addr} : allows (peers.sources (.unresolved guild name)) source ↔
      peers.admits (.unresolved guild name) source = true := by
  unfold allows
  constructor
  · intro hallowed
    exact (PeerSets.admits_of_sources rfl source).mpr (hallowed _ rfl)
  · intro hadmits ips hips
    exact (PeerSets.admits_of_sources hips source).mp hadmits

end Mesh

/-- A scope that was not resolved admits a peer only while the device holds one network of that name
exactly where the networks the co-members share decide so. -/
theorem unresolved_admits_iff (localnet : LocalNet) (exposed : List Exposed)
    (events : List Mesh.Event) (guild : Option String) (name : String) :
    (∀ e source, e.scope = .unresolved guild name →
      ((Mesh.start localnet exposed).run events).Admits e source →
        (((Mesh.start localnet exposed).run events).heldMatching guild name).length = 1) ↔
      ((Mesh.start localnet exposed).run events).Decided guild name := by
  have hkept := (Mesh.Kept.start localnet exposed).run events
  generalize (Mesh.start localnet exposed).run events = m at hkept
  obtain ⟨owner, hpeers⟩ := hkept.peers
  obtain ⟨former, hserved⟩ := hkept.served
  unfold Mesh.Decided
  constructor
  · intro hadmits
    constructor
    · rintro ⟨e, he, hscope⟩ hone
      obtain ⟨source, hsource⟩ := admits_some_iff.mpr hone
      refine hadmits e source hscope (.inl ⟨he, ?_⟩)
      rw [hpeers, hscope]
      exact hsource
    · rintro ⟨item, hitem, hscope⟩ hone
      obtain ⟨source, hsource⟩ := admits_some_iff.mpr hone
      refine hadmits item.1 source hscope (.inr (.inr ⟨item.2, hitem, ?_⟩))
      rw [hserved item hitem, hscope]
      exact Mesh.allows_sources.mpr hsource
  · rintro ⟨hexposed, hrouted⟩ e source hscope hadmitted
    have hlatest : e ∈ m.fw.exposed → m.fw.peers.admits e.scope source = true →
        (m.heldMatching guild name).length = 1 := by
      intro he hsource
      apply hexposed ⟨e, he, hscope⟩
      apply admits_some_iff.mp
      rw [hpeers, hscope] at hsource
      exact ⟨source, hsource⟩
    rcases hadmitted with ⟨he, hsource⟩ | ⟨he, hannounced⟩ | ⟨sources, hitem, hsource⟩
    · exact hlatest he hsource
    · exact hlatest he (Mesh.admits_announced hannounced)
    · apply hrouted ⟨(e, sources), hitem, hscope⟩
      apply admits_some_iff.mp
      have hsources := hserved (e, sources) hitem
      dsimp only at hsources
      rw [hsources, hscope] at hsource
      exact ⟨source, Mesh.allows_sources.mp hsource⟩

/-! A game night that two communities have. -/

def gamers (guildId : GuildId) (guild : String) : NetworkStatus :=
  ⟨guildId, 1, "games", guild, true⟩

def gamer (ip : Ipv4Addr) (guildId : GuildId) (guild : String) : SeedPeer where
  pubkey := ip.toNat
  userId := 2
  username := "bob"
  ip := ip
  endpoint := none
  punch := none
  hostname := "pc.bob.unity.internal"
  primaryAlias := none
  networks := [⟨"games", guild, guildId, 1⟩]
  relay := none
  ice := none
  rev := 0
  expiresAt := 0

/-- A device that holds both networks. -/
def player : SelfDevice where
  communityName := "acme"
  userId := 1
  username := "alice"
  networks := ["games", "games"]
  wgIp := 1
  wgNet := ⟨0, 0⟩
  hostname := "laptop.alice.unity.internal"
  isPrimary := false
  grantExpiresAt := 0
  primaryAlias := none
  networksStatus := [gamers 5 "acme", gamers 6 "playhouse"]
  dnsDomain := none

def gameServer : Exposed :=
  ⟨.udp, 27015, .unresolved none "games", some "game", .port⟩

/-- While only one of two networks of a name has a member that is there, its members are admitted. -/
theorem present_members_admitted :
    ¬ ∀ localnet exposed events guild name e source, e.scope = .unresolved guild name →
      ((Mesh.start localnet exposed).run events).Admits e source →
        (((Mesh.start localnet exposed).run events).heldMatching guild name).length = 1 := by
  intro hclaim
  have hone := hclaim {} [gameServer] [.pass (some player) [gamer 9 5 "acme"]] none "games"
    gameServer 9 rfl (.inl ⟨by decide, by decide⟩)
  exact absurd hone (by decide)

end UnityLan.Engine.Fw
