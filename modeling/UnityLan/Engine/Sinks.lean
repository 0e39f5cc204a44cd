import UnityLan.Engine.Dns
import UnityLan.Engine.Fw.Presence
import UnityLan.Foundation.Runs

namespace UnityLan.Engine

open UnityLan.Foundation Cert Fw

/-! What devices claim to serve, and which claim on a name wins. -/

structure Entry where
  services : List MeshService
  polledAt : Nat

abbrev ServiceBook := Table PubKey Entry

def REFRESH : Nat := 30

namespace ServiceBook

def isDue (book : ServiceBook) (pubkey : PubKey) (now : Nat) : Bool :=
  (book.get? pubkey).all fun entry => decide (entry.polledAt + REFRESH ≤ now)

def retainPeers (book : ServiceBook) (present : List PubKey) : ServiceBook :=
  book.retain fun pubkey _ => present.contains pubkey

end ServiceBook

structure Claim where
  pubkey : PubKey
  ip : Ipv4Addr
  name : String
  hostname : String
  proto : Proto
  port : Port
  kind : ServiceKind

def claim (pubkey : PubKey) (user : String) (ip : Ipv4Addr) (s : MeshService) : Claim where
  pubkey := pubkey
  ip := ip
  name := s.name
  hostname := asciiLower s!"{s.name}.{user}.{DNS_SUFFIX}"
  proto := s.proto
  port := s.port
  kind := s.kind

def ownClaims (me : SelfDevice) (pubkey : PubKey) (own : List MeshService) : List Claim :=
  own.map (claim pubkey me.username me.wgIp)

def peerClaims (seeds : List SeedPeer) (book : ServiceBook) : List Claim :=
  seeds.flatMap fun seed =>
    ((book.get? seed.pubkey).elim [] Entry.services).map (claim seed.pubkey seed.username seed.ip)

structure Resolved where
  names : Table String Claim := ∅
  /-- The claims that lost. -/
  shadowed : List (PubKey × String) := []

def resolve (claims : List Claim) (deviceNames : List String) : Resolved :=
  claims.foldl
    (fun done claim =>
      if deviceNames.contains claim.hostname then
        { done with shadowed := done.shadowed ++ [(claim.pubkey, claim.name)] }
      else
        match done.names.get? claim.hostname with
        | some held =>
            if held.pubkey ≤ claim.pubkey then
              { done with shadowed := done.shadowed ++ [(claim.pubkey, claim.name)] }
            else
              { names := done.names.insert claim.hostname claim
                shadowed := done.shadowed ++ [(held.pubkey, held.name)] }
        | none => { done with names := done.names.insert claim.hostname claim })
    {}

def deviceNames (device : SelfDevice) (seeds : List SeedPeer) : List String :=
  (device.hostname :: device.primaryAlias.toList ++ seeds.map SeedPeer.hostname ++
    seeds.filterMap SeedPeer.primaryAlias).map ZoneData.norm

/-! The mesh loop, and all that it keeps of the peers. -/

structure Loop where
  /-- The tunnels run in userspace, and a peer that is stuck is reached by ICE. -/
  iceEnabled : Bool
  myPubkey : PubKey
  localnet : LocalNet
  /-- A choice of the owner waits for the loop. -/
  waiting : Bool := false
  /-- The pass has come to where it waits for one of its arms. -/
  selecting : Bool := false
  device : SelfDevice
  seeds : List SeedPeer
  book : ServiceBook := ∅
  /-- The services of its own, when they were last read. -/
  own : List MeshService := []
  tunnel : List PubKey := []
  sets : PeerSets := {}
  claims : List Claim := []
  zone : ZoneData := {}
  shown : List SeedPeer := []
  relays : List PubKey := []
  ice : List PubKey := []

/-- What the sessions and the services come to in an arm. -/
structure Arm where
  /-- The peers that are stuck. -/
  want : List PubKey := []
  /-- The sessions that could be started, and those that broke. -/
  started : List PubKey := []
  broken : List PubKey := []
  own : List MeshService := []

structure Tick where
  gossip : Bool := true
  now : Nat := 0
  /-- The attestations that peers serve of themselves, where they verify. -/
  pulled : PubKey → Option Attestation := fun _ => none
  /-- What peers answer that they serve. -/
  answers : PubKey → Option (List MeshService) := fun _ => none
  own : List MeshService := []

def P2P_REFRESH_MARGIN : Nat := LONGPOLL_HOLD_SECS

namespace Loop

variable (loop : Loop)

def kept : List SeedPeer :=
  if loop.localnet.paused then []
  else filterActive loop.seeds loop.localnet loop.device.networksStatus

def claimsOf (seeds : List SeedPeer) : List Claim :=
  ownClaims loop.device loop.myPubkey loop.own ++ peerClaims seeds loop.book

def zoneOf (seeds : List SeedPeer) : ZoneData :=
  ZoneData.rebuilt loop.device seeds
    ((resolve (loop.claimsOf seeds) (deviceNames loop.device seeds)).names.rows.map fun row =>
      (row.1, row.2.ip))

/-- `resolve_services` and `dns::update`. -/
def named (seeds : List SeedPeer) : Loop :=
  { loop with claims := loop.claimsOf seeds, zone := loop.zoneOf seeds }

def noticed : Loop :=
  { loop with
    localnet := loop.localnet.reconcileNew
      (loop.device.networksStatus.map fun net => (net.guildId, net.roleId)) }

def peered (active : List SeedPeer) : Loop :=
  { ({ loop with book := loop.book.retainPeers (active.map SeedPeer.pubkey) } : Loop).named
      active with
    shown := active
    sets := peerSets active (some loop.device.userId)
    tunnel := active.map SeedPeer.pubkey }

def applyState (own : List MeshService) : Loop :=
  ({ loop.noticed with own := own } : Loop).peered loop.noticed.kept

def relayed (arm : Arm) (seed : SeedPeer) : Bool :=
  seed.relay.isSome && (loop.relays.contains seed.pubkey || arm.started.contains seed.pubkey)

def negotiated (arm : Arm) (seed : SeedPeer) : Bool :=
  (arm.want.contains seed.pubkey || loop.ice.contains seed.pubkey) &&
    (loop.ice.contains seed.pubkey && !arm.broken.contains seed.pubkey ||
      arm.started.contains seed.pubkey)

def syncRelays (arm : Arm) : Loop :=
  { loop with relays := (loop.seeds.filter (loop.relayed arm)).map SeedPeer.pubkey }

def syncIce (arm : Arm) : Loop :=
  { loop with ice := (loop.seeds.filter (loop.negotiated arm)).map SeedPeer.pubkey }

def sync (arm : Arm) : Loop :=
  if loop.iceEnabled then loop.syncIce arm else loop.syncRelays arm

def resynced (arm : Arm) : Loop :=
  { loop with ice := if loop.iceEnabled then (loop.syncIce arm).ice else loop.ice }

def renewed (tick : Tick) : List SeedPeer :=
  loop.seeds.map fun seed =>
    if tick.now + P2P_REFRESH_MARGIN < seed.expiresAt then seed
    else (tick.pulled seed.pubkey).elim seed (applyPulled seed)

def gossiped (tick : Tick) : Loop :=
  let seeds := loop.renewed tick
  let alive := seeds.filter fun seed => decide (tick.now < seed.expiresAt)
  let loop := { loop with seeds := alive }
  if alive.length ≠ seeds.length then loop.applyState tick.own else loop

def polled (tick : Tick) : ServiceBook :=
  loop.seeds.foldl
    (fun book seed =>
      if book.isDue seed.pubkey tick.now then
        (tick.answers seed.pubkey).elim book fun services =>
          book.insert seed.pubkey ⟨services, tick.now⟩
      else book)
    loop.book

def ticked (tick : Tick) : Loop :=
  let loop := if tick.gossip then loop.gossiped tick else loop
  { ({ loop with book := loop.polled tick, own := tick.own } : Loop).named loop.seeds with
    selecting := true }

/-- The loop is entered with what the coordinator answered to the registration. -/
def entered (iceEnabled : Bool) (myPubkey : PubKey) (localnet : LocalNet) (device : SelfDevice)
    (seeds : List SeedPeer) (arm : Arm) : Loop :=
  (({ iceEnabled, myPubkey, localnet, device, seeds } : Loop).syncRelays arm).applyState arm.own

end Loop

inductive LoopEvent
  /-- The owner chooses anew; where it cannot be written to the disk, the loop is not woken. -/
  | toggled (localnet : LocalNet) (persisted : Bool)
  | ticked (tick : Tick)
  | woken (arm : Arm)
  /-- The idle re-check, and whether a path to a peer changed. -/
  | rechecked (arm : Arm) (changed : Bool)
  | refreshed (grant : Option SelfDevice) (seeds : List SeedPeer) (arm : Arm)
  /-- The refresh failed, or brought seeds that are bad. -/
  | failed

/-- With an arm the pass is complete. -/
def LoopEvent.completes : LoopEvent → Bool
  | .toggled _ _ | .ticked _ => false
  | _ => true

namespace Loop

variable (loop : Loop)

/-- What a refresh brings; without a grant the device of the last one is kept. -/
def merged (grant : Option SelfDevice) (seeds : List SeedPeer) : Loop :=
  { loop with device := grant.getD loop.device, seeds := seeds }

def after : LoopEvent → Loop
  | .woken arm => (({ loop with waiting := false } : Loop).sync arm).applyState arm.own
  | .rechecked arm changed =>
      if changed then (loop.resynced arm).applyState arm.own else loop.resynced arm
  | .refreshed grant seeds arm => ((loop.merged grant seeds).sync arm).applyState arm.own
  | _ => loop

def step : LoopEvent → Option Loop
  | .toggled localnet persisted =>
      some { loop with localnet := localnet, waiting := loop.waiting || persisted }
  | .ticked tick => if loop.selecting then none else some (loop.ticked tick)
  | .woken arm =>
      if loop.selecting && loop.waiting then
        some { loop.after (.woken arm) with selecting := false }
      else none
  | event => if loop.selecting then some { loop.after event with selecting := false } else none

/-! Peers that are inactive. -/

def optedOut (net : SharedNetwork) : Bool :=
  (net.id <|> nameToId loop.device.networksStatus net.name).any loop.localnet.disabled.contains

def barred (seed : SeedPeer) : Bool :=
  loop.localnet.blocked.contains seed.userId ||
    !seed.networks.isEmpty && seed.networks.all loop.optedOut

/-- All that is known of the peer bars it. -/
def inactive (pubkey : PubKey) : Bool :=
  loop.localnet.paused ||
    loop.seeds.any (fun seed => seed.pubkey == pubkey) &&
      loop.seeds.all fun seed => seed.pubkey != pubkey || loop.barred seed

structure Meshed (holds : PubKey → Prop) : Prop where
  tunnel : ∀ pubkey ∈ loop.tunnel, holds pubkey
  shown : ∀ seed ∈ loop.shown, holds seed.pubkey
  sets : ∃ active owner, loop.sets = peerSets active owner ∧ ∀ seed ∈ active, holds seed.pubkey

/-- No sink knows of an inactive peer. -/
structure Clear : Prop where
  meshed : loop.Meshed fun pubkey => loop.inactive pubkey = false
  claims : ∀ claim ∈ loop.claims,
    claim.pubkey = loop.myPubkey ∨ loop.inactive claim.pubkey = false
  relays : ∀ pubkey ∈ loop.relays, loop.inactive pubkey = false
  ice : ∀ pubkey ∈ loop.ice, loop.inactive pubkey = false
  zone : loop.zone = loop.zoneOf loop.kept

/-! Passes that leave no inactive peer behind. -/

def told : Bool :=
  loop.kept.all fun seed => !loop.barred seed

def spares (reached : SeedPeer → Bool) (left : List PubKey) : Bool :=
  loop.noticed.told &&
    ((loop.seeds.filter reached).all fun seed => !loop.noticed.inactive seed.pubkey) &&
      left.all fun pubkey => !loop.noticed.inactive pubkey

def idle : Bool :=
  loop.told && loop.kept == loop.seeds &&
    (!loop.localnet.paused || loop.relays.isEmpty && loop.ice.isEmpty)

def sparesArm (arm : Arm) : Bool :=
  if loop.iceEnabled then loop.spares (loop.negotiated arm) loop.relays
  else loop.spares (loop.relayed arm) []

def fits : LoopEvent → Bool
  | .toggled _ _ | .ticked _ => true
  | .woken arm => loop.sparesArm arm
  | .rechecked arm true =>
      loop.spares (fun seed => loop.iceEnabled && loop.negotiated arm seed) loop.relays
  | .refreshed grant seeds arm => (loop.merged grant seeds).sparesArm arm
  | .rechecked _ false | .failed => loop.idle

end Loop

section

variable {loop : Loop} {seed : SeedPeer} {pubkey : PubKey} {own : List MeshService}

/-! What the filter keeps is active. -/

theorem mem_kept (hkept : seed ∈ loop.kept) :
    seed ∈ loop.seeds ∧ loop.localnet.paused = false := by
  unfold Loop.kept at hkept
  split at hkept
  · exact absurd hkept List.not_mem_nil
  · rename_i hrunning
    exact ⟨List.mem_of_mem_filter (List.mem_of_mem_filter hkept), by simpa using hrunning⟩

theorem active_of_told (htold : loop.told = true) (hkept : seed ∈ loop.kept) :
    loop.inactive seed.pubkey = false := by
  obtain ⟨hseed, hrunning⟩ := mem_kept hkept
  have hbarred : loop.barred seed = false := by
    simpa using List.all_eq_true.mp htold seed hkept
  unfold Loop.inactive
  rw [hrunning, Bool.false_or, Bool.and_eq_false_iff]
  right
  rw [← Bool.not_eq_true, List.all_eq_true]
  intro hall
  simpa [hbarred] using hall seed hseed

theorem inactive_unknown (hrunning : loop.localnet.paused = false)
    (hunknown : pubkey ∉ loop.seeds.map SeedPeer.pubkey) : loop.inactive pubkey = false := by
  unfold Loop.inactive
  rw [hrunning, Bool.false_or, Bool.and_eq_false_iff]
  left
  rw [List.any_eq_false]
  intro seed hseed hsame
  exact hunknown (List.mem_map.mpr ⟨seed, hseed, beq_iff_eq.mp hsame⟩)

theorem claim_source {seeds : List SeedPeer} {c : Claim} (hclaim : c ∈ loop.claimsOf seeds) :
    c.pubkey = loop.myPubkey ∨ ∃ seed ∈ seeds, seed.pubkey = c.pubkey := by
  rcases List.mem_append.mp hclaim with hown | hpeer
  · obtain ⟨service, _, rfl⟩ := List.mem_map.mp hown
    exact .inl rfl
  · obtain ⟨seed, hseed, hservices⟩ := List.mem_flatMap.mp hpeer
    obtain ⟨service, _, rfl⟩ := List.mem_map.mp hservices
    exact .inr ⟨seed, hseed, rfl⟩

theorem applied_clear (loop : Loop) (htold : loop.noticed.told = true)
    (hrelays : ∀ pubkey ∈ loop.relays, loop.noticed.inactive pubkey = false)
    (hice : ∀ pubkey ∈ loop.ice, loop.noticed.inactive pubkey = false) :
    (loop.applyState own).Clear where
  meshed := {
    tunnel := by
      intro pubkey htunnel
      obtain ⟨seed, hkept, rfl⟩ := List.mem_map.mp htunnel
      exact active_of_told htold hkept
    shown := fun seed hkept => active_of_told htold hkept
    sets := ⟨loop.noticed.kept, _, rfl, fun seed hkept => active_of_told htold hkept⟩ }
  claims := by
    intro c hclaim
    rcases claim_source hclaim with hown | ⟨seed, hkept, hsame⟩
    · exact .inl hown
    · exact .inr (hsame ▸ active_of_told htold hkept)
  relays := hrelays
  ice := hice
  zone := rfl

theorem spares_iff {reached : SeedPeer → Bool} {left : List PubKey} :
    loop.spares reached left = true ↔ loop.noticed.told = true ∧
      (∀ pubkey ∈ (loop.seeds.filter reached).map SeedPeer.pubkey,
        loop.noticed.inactive pubkey = false) ∧
      ∀ pubkey ∈ left, loop.noticed.inactive pubkey = false := by
  unfold Loop.spares
  simp only [Bool.and_eq_true, List.all_eq_true, Bool.not_eq_true', List.forall_mem_map, and_assoc]

theorem synced_clear (loop : Loop) {arm : Arm} (hkernel : loop.iceEnabled = false → loop.ice = [])
    (hspares : loop.sparesArm arm = true) : ((loop.sync arm).applyState own).Clear := by
  unfold Loop.sparesArm at hspares
  unfold Loop.sync
  split at hspares
  · rename_i hice
    obtain ⟨htold, hreached, hleft⟩ := spares_iff.mp hspares
    rw [if_pos hice]
    exact applied_clear _ htold hleft hreached
  · rename_i hrelay
    obtain ⟨htold, hreached, _⟩ := spares_iff.mp hspares
    rw [if_neg hrelay]
    refine applied_clear _ htold hreached ?_
    rw [show (loop.syncRelays arm).ice = [] from hkernel (Bool.eq_false_iff.mpr hrelay)]
    exact List.forall_mem_nil _

/-! What holds of every state of the loop. -/

theorem Loop.Meshed.mono {holds allows : PubKey → Prop} (hmeshed : loop.Meshed holds)
    (hallows : ∀ pubkey, holds pubkey → allows pubkey) : loop.Meshed allows where
  tunnel := fun pubkey htunnel => hallows pubkey (hmeshed.tunnel pubkey htunnel)
  shown := fun seed hshown => hallows seed.pubkey (hmeshed.shown seed hshown)
  sets := by
    obtain ⟨active, owner, hsets, hactive⟩ := hmeshed.sets
    exact ⟨active, owner, hsets, fun seed hseed => hallows seed.pubkey (hactive seed hseed)⟩

structure Held (loop : Loop) : Prop where
  meshed : loop.Meshed (· ∈ loop.seeds.map SeedPeer.pubkey)
  named : loop.selecting = true →
    loop.zone = loop.zoneOf loop.seeds ∧ loop.claims = loop.claimsOf loop.seeds
  kernel : loop.iceEnabled = false → loop.ice = []

theorem applied_meshed :
    (loop.applyState own).Meshed (· ∈ (loop.applyState own).seeds.map SeedPeer.pubkey) where
  tunnel := by
    intro pubkey htunnel
    obtain ⟨seed, hkept, rfl⟩ := List.mem_map.mp htunnel
    exact List.mem_map_of_mem (mem_kept hkept).1
  shown := fun seed hkept => List.mem_map_of_mem (mem_kept hkept).1
  sets := ⟨loop.noticed.kept, _, rfl, fun seed hkept => List.mem_map_of_mem (mem_kept hkept).1⟩

theorem sync_kernel (loop : Loop) {arm : Arm} (hkernel : loop.iceEnabled = false → loop.ice = []) :
    (loop.sync arm).iceEnabled = false → (loop.sync arm).ice = [] := by
  unfold Loop.sync
  split
  · rename_i hice
    intro hrelay
    exact absurd hice (Bool.eq_false_iff.mp hrelay)
  · exact hkernel

theorem renewed_keys {tick : Tick} :
    (loop.renewed tick).map SeedPeer.pubkey = loop.seeds.map SeedPeer.pubkey := by
  unfold Loop.renewed
  rw [List.map_map]
  refine List.map_congr_left fun seed _ => ?_
  dsimp only [Function.comp_apply]
  split
  · rfl
  · cases tick.pulled seed.pubkey <;> rfl

theorem Held.gossiped {tick : Tick} (hheld : Held loop) :
    (loop.gossiped tick).Meshed (· ∈ (loop.gossiped tick).seeds.map SeedPeer.pubkey) ∧
      ((loop.gossiped tick).iceEnabled = false → (loop.gossiped tick).ice = []) := by
  unfold Loop.gossiped
  dsimp only
  split
  · exact ⟨applied_meshed, hheld.kernel⟩
  · rename_i hsame
    have halive : (loop.renewed tick).filter (fun seed => decide (tick.now < seed.expiresAt)) =
        loop.renewed tick :=
      List.filter_sublist.eq_of_length (not_not.mp hsame)
    refine ⟨?_, hheld.kernel⟩
    dsimp only
    rw [halive, renewed_keys]
    exact ⟨hheld.meshed.tunnel, hheld.meshed.shown, hheld.meshed.sets⟩

theorem Held.after (hheld : Held loop) (event : LoopEvent) :
    (loop.after event).Meshed (· ∈ (loop.after event).seeds.map SeedPeer.pubkey) ∧
      ((loop.after event).iceEnabled = false → (loop.after event).ice = []) := by
  cases event with
  | toggled localnet persisted => exact ⟨hheld.meshed, hheld.kernel⟩
  | ticked tick => exact ⟨hheld.meshed, hheld.kernel⟩
  | woken arm =>
      exact ⟨applied_meshed, sync_kernel { loop with waiting := false } hheld.kernel⟩
  | rechecked arm changed =>
      have hkernel : (loop.resynced arm).iceEnabled = false → (loop.resynced arm).ice = [] := by
        intro hrelay
        exact (if_neg (Bool.eq_false_iff.mp hrelay)).trans (hheld.kernel hrelay)
      cases changed with
      | true => exact ⟨applied_meshed, hkernel⟩
      | false => exact ⟨⟨hheld.meshed.tunnel, hheld.meshed.shown, hheld.meshed.sets⟩, hkernel⟩
  | refreshed grant seeds arm =>
      exact ⟨applied_meshed, sync_kernel (loop.merged grant seeds) hheld.kernel⟩
  | failed => exact ⟨hheld.meshed, hheld.kernel⟩

theorem Held.ticked {tick : Tick} (hheld : Held loop) : Held (loop.ticked tick) := by
  have hgossip : (if tick.gossip then loop.gossiped tick else loop).Meshed
        (· ∈ (if tick.gossip then loop.gossiped tick else loop).seeds.map SeedPeer.pubkey) ∧
      ((if tick.gossip then loop.gossiped tick else loop).iceEnabled = false →
        (if tick.gossip then loop.gossiped tick else loop).ice = []) := by
    split
    · exact hheld.gossiped
    · exact ⟨hheld.meshed, hheld.kernel⟩
  obtain ⟨hmeshed, hkernel⟩ := hgossip
  exact ⟨⟨hmeshed.tunnel, hmeshed.shown, hmeshed.sets⟩, fun _ => ⟨rfl, rfl⟩, hkernel⟩

theorem step_completes {loop' : Loop} {event : LoopEvent} (hcompletes : event.completes = true)
    (hstep : loop.step event = some loop') :
    loop.selecting = true ∧ loop' = { loop.after event with selecting := false } := by
  cases event with
  | toggled localnet persisted => cases hcompletes
  | ticked tick => cases hcompletes
  | woken arm =>
      obtain ⟨hwaits, hstep⟩ := Option.ite_none_right_eq_some.mp hstep
      exact ⟨(Bool.and_eq_true_iff.mp hwaits).1, (Option.some.inj hstep).symm⟩
  | rechecked arm changed =>
      obtain ⟨hselecting, hstep⟩ := Option.ite_none_right_eq_some.mp hstep
      exact ⟨hselecting, (Option.some.inj hstep).symm⟩
  | refreshed grant seeds arm =>
      obtain ⟨hselecting, hstep⟩ := Option.ite_none_right_eq_some.mp hstep
      exact ⟨hselecting, (Option.some.inj hstep).symm⟩
  | failed =>
      obtain ⟨hselecting, hstep⟩ := Option.ite_none_right_eq_some.mp hstep
      exact ⟨hselecting, (Option.some.inj hstep).symm⟩

theorem Held.step {loop' : Loop} {event : LoopEvent} (hheld : Held loop)
    (hstep : loop.step event = some loop') : Held loop' := by
  cases hcompletes : event.completes with
  | true =>
      obtain ⟨_, rfl⟩ := step_completes hcompletes hstep
      obtain ⟨hmeshed, hkernel⟩ := hheld.after event
      exact ⟨⟨hmeshed.tunnel, hmeshed.shown, hmeshed.sets⟩, nofun, hkernel⟩
  | false =>
      cases event with
      | toggled localnet persisted =>
          cases hstep
          exact ⟨⟨hheld.meshed.tunnel, hheld.meshed.shown, hheld.meshed.sets⟩, hheld.named,
            hheld.kernel⟩
      | ticked tick =>
          obtain ⟨_, hstep⟩ := Option.ite_none_left_eq_some.mp hstep
          cases hstep
          exact hheld.ticked
      | woken arm => cases hcompletes
      | rechecked arm changed => cases hcompletes
      | refreshed grant seeds arm => cases hcompletes
      | failed => cases hcompletes

/-! Passes that complete with nothing applied. -/

theorem idle_iff : loop.idle = true ↔ loop.told = true ∧ loop.kept = loop.seeds ∧
    (loop.localnet.paused = false ∨ loop.relays = [] ∧ loop.ice = []) := by
  unfold Loop.idle
  simp only [Bool.and_eq_true, beq_iff_eq, Bool.or_eq_true, Bool.not_eq_true', List.isEmpty_iff,
    and_assoc]

theorem idle_active (hidle : loop.idle = true) (hknown : pubkey ∈ loop.seeds.map SeedPeer.pubkey) :
    loop.inactive pubkey = false := by
  obtain ⟨htold, hkept, _⟩ := idle_iff.mp hidle
  obtain ⟨seed, hseed, rfl⟩ := List.mem_map.mp hknown
  exact active_of_told htold (hkept ▸ hseed)

theorem idle_sessions (hidle : loop.idle = true) {sessions : List PubKey}
    (hpaused : loop.localnet.paused = false ∨ sessions = []) :
    ∀ pubkey ∈ sessions, loop.inactive pubkey = false := by
  intro pubkey hsession
  rcases hpaused with hrunning | rfl
  · by_cases hknown : pubkey ∈ loop.seeds.map SeedPeer.pubkey
    · exact idle_active hidle hknown
    · exact inactive_unknown hrunning hknown
  · exact absurd hsession List.not_mem_nil

theorem idle_clear (hheld : Held loop) (hselecting : loop.selecting = true)
    (hidle : loop.idle = true) {ice : List PubKey}
    (hice : ∀ pubkey ∈ ice, loop.inactive pubkey = false) :
    ({ loop with ice := ice, selecting := false } : Loop).Clear := by
  obtain ⟨_, hkept, hpaused⟩ := idle_iff.mp hidle
  obtain ⟨hzone, hclaims⟩ := hheld.named hselecting
  have hmeshed : loop.Meshed fun pubkey => loop.inactive pubkey = false :=
    hheld.meshed.mono fun pubkey hknown => idle_active hidle hknown
  constructor
  case meshed => exact ⟨hmeshed.tunnel, hmeshed.shown, hmeshed.sets⟩
  case claims =>
    intro c hclaim
    have hclaim : c ∈ loop.claimsOf loop.seeds := hclaims ▸ hclaim
    rcases claim_source hclaim with hown | ⟨seed, hseed, hsame⟩
    · exact .inl hown
    · right
      change loop.inactive c.pubkey = false
      exact idle_active hidle (hsame ▸ List.mem_map_of_mem hseed)
  case relays => exact idle_sessions hidle (hpaused.imp id And.left)
  case ice => exact hice
  case zone =>
    change loop.zone = loop.zoneOf loop.kept
    rw [hkept]
    exact hzone

theorem Clear.of_fits {loop' : Loop} {event : LoopEvent} (hheld : Held loop)
    (hfits : loop.fits event = true) (hcompletes : event.completes = true)
    (hstep : loop.step event = some loop') : loop'.Clear := by
  obtain ⟨hselecting, rfl⟩ := step_completes hcompletes hstep
  have hsame : ∀ {applied : Loop}, applied.Clear →
      ({ applied with selecting := false } : Loop).Clear := fun h =>
    ⟨⟨h.meshed.tunnel, h.meshed.shown, h.meshed.sets⟩, h.claims, h.relays, h.ice, h.zone⟩
  cases event with
  | toggled localnet persisted => cases hcompletes
  | ticked tick => cases hcompletes
  | woken arm =>
      exact hsame (synced_clear { loop with waiting := false } hheld.kernel hfits)
  | refreshed grant seeds arm =>
      exact hsame (synced_clear (loop.merged grant seeds) hheld.kernel hfits)
  | failed =>
      exact idle_clear hheld hselecting hfits
        (idle_sessions hfits ((idle_iff.mp hfits).2.2.imp id And.right))
  | rechecked arm changed =>
      cases changed with
      | true =>
          obtain ⟨htold, hreached, hleft⟩ := spares_iff.mp hfits
          refine hsame (applied_clear (loop.resynced arm) htold hleft ?_)
          change ∀ pubkey ∈ (loop.resynced arm).ice, loop.noticed.inactive pubkey = false
          unfold Loop.resynced
          dsimp only
          split
          · rename_i hice
            simpa [hice, Loop.syncIce] using hreached
          · rename_i hrelay
            rw [hheld.kernel (Bool.eq_false_iff.mpr hrelay)]
            exact List.forall_mem_nil _
      | false =>
          have hice : ∀ pubkey ∈ (loop.resynced arm).ice, loop.inactive pubkey = false := by
            unfold Loop.resynced
            dsimp only
            split
            · intro pubkey hsession
              obtain ⟨seed, hseed, rfl⟩ := List.mem_map.mp hsession
              exact idle_active hfits (List.mem_map_of_mem (List.mem_of_mem_filter hseed))
            · exact idle_sessions hfits ((idle_iff.mp hfits).2.2.imp id And.right)
          exact idle_clear hheld hselecting hfits hice

theorem entered_held (iceEnabled : Bool) (myPubkey : PubKey) (localnet : LocalNet)
    (device : SelfDevice) (seeds : List SeedPeer) (arm : Arm) :
    Held (Loop.entered iceEnabled myPubkey localnet device seeds arm) :=
  ⟨applied_meshed, nofun, fun _ => rfl⟩

def visitor : SeedPeer :=
  { gamer 9 5 "acme" with expiresAt := 7200 }

def visited : Loop :=
  Loop.entered false 1 {} player [visitor] {}

/-- The owner of the peer is blocked, and the loop goes on. -/
def blockedPeer : List LoopEvent :=
  [.ticked {}, .toggled { blocked := Table.insert ∅ 2 "bob" } true, .woken {}, .ticked {},
    .rechecked {} false]

def answersFor (zone : ZoneData) (ip : Ipv4Addr) : Bool :=
  zone.names.any fun row => row.2 == ip

end

end UnityLan.Engine
