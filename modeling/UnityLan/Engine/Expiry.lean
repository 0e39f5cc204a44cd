import UnityLan.Engine.Sinks
import UnityLan.Engine.Tunnels

namespace UnityLan.Engine

open UnityLan.Foundation Fw

/-! Whether a tunnel outlives the attestation of its peer. -/

/-- What becomes of the backend while the loop applies its seeds. -/
structure Backend where
  /-- The link and the firewall take what they are given. -/
  readied : Bool := true
  eps : Endpoints := {}
  arrange : List PubKey → List PubKey := id
  arrange_perm : ∀ keys, (arrange keys).Perm keys := by exact fun keys => List.Perm.refl keys
  removal : PubKey → WgOutcome := fun _ => .done
  setting : PubKey → WgOutcome := fun _ => .done

def Backend.call (backend : Backend) (seeds : List SeedPeer) : SeedsCall where
  seeds := seeds
  eps := backend.eps
  arrange := backend.arrange
  arrange_perm := backend.arrange_perm
  removal := backend.removal
  setting := backend.setting

inductive PassEvent
  | toggled (localnet : LocalNet) (persisted : Bool)
  | ticked (tick : Tick)
  | woken (arm : Arm)
  | rechecked (arm : Arm) (changed : Bool)
  | answered (received : Received) (arm : Arm)
  | failed

def PassEvent.completes : PassEvent → Bool
  | .toggled _ _ | .ticked _ => false
  | _ => true

def Loop.applies (loop : Loop) : LoopEvent → Bool
  | .ticked tick =>
      tick.gossip && (loop.renewed tick).any fun seed => !decide (tick.now < seed.expiresAt)
  | .woken _ => true
  | .rechecked _ changed => changed
  | .refreshed _ _ _ => true
  | .toggled _ _ => false
  | .failed => false

/-- The mesh loop and its backend. -/
structure Meshing where
  gossip : Bool
  loop : Loop
  pins : Pins := ∅
  tunnels : Tunnels := {}
  /-- The earliest clock that the pass has read. -/
  now : Nat := 0

/-- What a device enters the mesh loop with. -/
structure Enrolled where
  gossip : Bool := true
  iceEnabled : Bool := false
  myPubkey : PubKey
  localnet : LocalNet := {}
  device : SelfDevice
  seeds : List SeedPeer
  pins : Pins := ∅
  arm : Arm := {}
  backend : Backend := {}

namespace Meshing

/-- `apply_seeds`; where it fails, the loop is left. -/
def apply (m : Meshing) (backend : Backend) : Option Meshing :=
  if backend.readied then
    match m.tunnels.applySeeds (backend.call m.loop.shown) with
    | (some _, tunnels) => some { m with tunnels := tunnels }
    | (none, _) => none
  else none

def enter (e : Enrolled) : Option Meshing :=
  ({ gossip := e.gossip
     loop := .entered e.iceEnabled e.myPubkey e.localnet e.device e.seeds e.arm
     pins := e.pins } : Meshing).apply e.backend

variable (decodes : Anchor → Bool) (m : Meshing)

/-- What the loop makes of an event; an answer that does not verify counts as a failure. -/
def looped : PassEvent → LoopEvent
  | .toggled localnet persisted => .toggled localnet persisted
  | .ticked tick => .ticked { tick with gossip := m.gossip }
  | .woken arm => .woken arm
  | .rechecked arm changed => .rechecked arm changed
  | .answered received arm =>
      match post decodes received m.pins with
      | (pins, .ok (_, device)) =>
          .refreshed device (mergeSeeds decodes m.loop.seeds received pins) arm
      | (_, .error _) => .failed
  | .failed => .failed

def pinned : PassEvent → Pins
  | .answered received _ => (post decodes received m.pins).1
  | _ => m.pins

def clock : PassEvent → Nat
  | .ticked tick => tick.now
  | .answered received _ => min m.now received.now
  | _ => m.now

def step (event : PassEvent × Backend) : Option Meshing :=
  (m.loop.step (m.looped decodes event.1)).bind fun loop =>
    let next : Meshing :=
      { m with loop := loop, pins := m.pinned decodes event.1, now := m.clock event.1 }
    if m.loop.applies (m.looped decodes event.1) then next.apply event.2 else some next

/-- Every peer that is installed is one of the seeds, and has not lapsed by then. -/
def Unexpired (now : Nat) : Prop :=
  ∀ pubkey, m.tunnels.installed.get? pubkey ≠ none →
    ∃ seed ∈ m.loop.seeds, seed.pubkey = pubkey ∧ now < seed.expiresAt

/-- A full answer that verifies. -/
def Full (event : PassEvent) (received : Received) : Prop :=
  (∃ arm, event = .answered received arm) ∧ received.resp.isPartial = false ∧
    ∃ answer, (post decodes received m.pins).2 = .ok answer

end Meshing

/-! What seeds that were applied leave in the backend. -/

section

variable {t : Tunnels} {call : SeedsCall} {pubkey : PubKey}

def Tunnels.Known (t : Tunnels) : Prop :=
  ∀ pubkey, t.installed.get? pubkey ≠ none → t.peers.get? pubkey ≠ none

theorem Tunnels.Known.erased (hknown : t.Known) {trace : List WgCall} :
    Tunnels.Known ⟨t.installed.erase pubkey, t.peers.erase pubkey, trace⟩ := by
  intro other
  dsimp only
  rw [Table.get?_erase, Table.get?_erase]
  split
  · exact id
  · exact hknown other

theorem prune_within {stale : List PubKey} (hknown : t.Known)
    (hok : (Tunnels.prune call stale t).1 = true) :
    (Tunnels.prune call stale t).2.Known ∧
      ∀ pubkey, (Tunnels.prune call stale t).2.installed.get? pubkey ≠ none →
        t.installed.get? pubkey ≠ none ∧ pubkey ∉ stale := by
  induction stale generalizing t with
  | nil => exact ⟨hknown, fun pubkey hheld => ⟨hheld, List.not_mem_nil⟩⟩
  | cons head rest ih =>
      unfold Tunnels.prune Tunnels.removePeer at hok ⊢
      cases hremoval : call.removal head with
      | halfway =>
          rw [hremoval] at hok
          cases hok
      | refused =>
          rw [hremoval] at hok
          cases hok
      | done =>
          rw [hremoval] at hok
          obtain ⟨hlater, hwithin⟩ := ih hknown.erased hok
          refine ⟨hlater, fun pubkey hheld => ?_⟩
          obtain ⟨hbefore, hstays⟩ := hwithin pubkey hheld
          rw [Table.get?_erase] at hbefore
          split at hbefore
          · exact absurd rfl hbefore
          · rename_i hother
            exact ⟨hbefore, List.not_mem_cons_of_ne_of_not_mem hother hstays⟩

theorem removePeer_within (outcome : WgOutcome) (key : PubKey) :
    (t.removePeer outcome key).2.peers = t.peers ∧
      ∀ pubkey, (t.removePeer outcome key).2.installed.get? pubkey ≠ none →
        t.installed.get? pubkey ≠ none := by
  refine ⟨rfl, fun pubkey hheld => ?_⟩
  unfold Tunnels.removePeer at hheld
  dsimp only at hheld
  split at hheld
  · exact hheld
  · rw [Table.get?_erase] at hheld
    split at hheld
    · exact absurd rfl hheld
    · exact hheld

theorem place_within {peer : PeerConfig} (hknown : t.Known)
    (hok : (t.place call peer).1 = true) :
    (t.place call peer).2.Known ∧
      ∀ pubkey, (t.place call peer).2.installed.get? pubkey ≠ none →
        t.installed.get? pubkey ≠ none ∨ pubkey = peer.publicKey := by
  unfold Tunnels.place at hok ⊢
  dsimp only at hok ⊢
  generalize hcleared : (if (t.peers.get? peer.publicKey).isSome then
      t.removePeer (call.removal peer.publicKey) peer.publicKey
    else (true, t)) = cleared at hok ⊢
  have hfewer : cleared.2.peers = t.peers ∧
      ∀ pubkey, cleared.2.installed.get? pubkey ≠ none → t.installed.get? pubkey ≠ none := by
    rw [← hcleared]
    split
    · exact removePeer_within _ _
    · exact ⟨rfl, fun _ => id⟩
  obtain ⟨hpeers, hfewer⟩ := hfewer
  split at hok
  · rename_i hcleared
    rw [if_pos hcleared]
    unfold Tunnels.setPeer at hok ⊢
    cases hsetting : call.setting peer.publicKey with
    | halfway =>
        rw [hsetting] at hok
        cases hok
    | refused =>
        rw [hsetting] at hok
        cases hok
    | done =>
        constructor
        · intro pubkey hheld
          change (cleared.2.installed.insert peer.publicKey peer).get? pubkey ≠ none at hheld
          change (cleared.2.peers.insert peer.publicKey peer).get? pubkey ≠ none
          rw [Table.get?_insert] at hheld ⊢
          split
          · exact Option.some_ne_none peer
          · rename_i hother
            rw [if_neg hother] at hheld
            rw [hpeers]
            exact hknown pubkey (hfewer pubkey hheld)
        · intro pubkey hheld
          change (cleared.2.installed.insert peer.publicKey peer).get? pubkey ≠ none at hheld
          rw [Table.get?_insert] at hheld
          split at hheld
          · rename_i hsame
            exact .inr hsame
          · exact .inl (hfewer pubkey hheld)
  · rename_i hfailed
    exact absurd hok hfailed

theorem install_within {changed : Bool} {peers : List PeerConfig} (hknown : t.Known)
    (hok : (Tunnels.install call changed peers t).1 ≠ none) :
    (Tunnels.install call changed peers t).2.Known ∧
      ∀ pubkey, (Tunnels.install call changed peers t).2.installed.get? pubkey ≠ none →
        t.installed.get? pubkey ≠ none ∨ pubkey ∈ peers.map PeerConfig.publicKey := by
  induction peers generalizing changed t with
  | nil => exact ⟨hknown, fun pubkey hheld => .inl hheld⟩
  | cons peer rest ih =>
      unfold Tunnels.install at hok ⊢
      split at hok
      · rename_i hdiffers
        dsimp only at hok
        split at hok
        · rename_i hplaced
          rw [if_pos hdiffers]
          dsimp only
          rw [if_pos hplaced]
          obtain ⟨hbetween, hfirst⟩ := place_within hknown hplaced
          obtain ⟨hlater, hrest⟩ := ih hbetween hok
          refine ⟨hlater, fun pubkey hheld => ?_⟩
          rw [List.map_cons, List.mem_cons]
          rcases hrest pubkey hheld with hbefore | hlisted
          · exact (hfirst pubkey hbefore).imp id .inl
          · exact .inr (.inr hlisted)
        · exact absurd rfl hok
      · rename_i hsame
        rw [if_neg hsame]
        obtain ⟨hlater, hrest⟩ := ih hknown hok
        refine ⟨hlater, fun pubkey hheld => ?_⟩
        rw [List.map_cons, List.mem_cons]
        exact (hrest pubkey hheld).imp id .inr

theorem aggregate_seeded (hwanted : (aggregate call.eps call.seeds).get? pubkey ≠ none) :
    pubkey ∈ call.seeds.map SeedPeer.pubkey := by
  rw [get?_aggregate] at hwanted
  split at hwanted
  · exact absurd rfl hwanted
  · rename_i hown
    obtain ⟨s, hs⟩ := List.exists_mem_of_ne_nil _ hown
    obtain ⟨hmem, hkey⟩ := mem_seedsOf.mp hs
    exact List.mem_map.mpr ⟨s, hmem, hkey⟩

theorem listed_seeded (hlisted : pubkey ∈ call.listed.map PeerConfig.publicKey) :
    pubkey ∈ call.seeds.map SeedPeer.pubkey := by
  obtain ⟨peer, hpeer, rfl⟩ := List.mem_map.mp hlisted
  obtain ⟨key, _, hfound⟩ := List.mem_filterMap.mp hpeer
  obtain ⟨entry, hentry, rfl⟩ := Option.map_eq_some_iff.mp hfound
  change key ∈ call.seeds.map SeedPeer.pubkey
  apply aggregate_seeded
  rw [hentry]
  exact Option.some_ne_none entry

theorem applySeeds_within (hknown : t.Known) (hok : (t.applySeeds call).1 ≠ none) :
    (t.applySeeds call).2.Known ∧
      ∀ pubkey, (t.applySeeds call).2.installed.get? pubkey ≠ none →
        pubkey ∈ call.seeds.map SeedPeer.pubkey := by
  unfold Tunnels.applySeeds at hok ⊢
  dsimp only at hok ⊢
  split at hok
  · rename_i hpruned
    rw [if_pos hpruned]
    obtain ⟨hbetween, hstays⟩ := prune_within hknown hpruned
    have hdone : (Tunnels.install call (!(call.stale t).isEmpty) call.listed
        (Tunnels.prune call (call.stale t) t).2).1 ≠ none := by
      intro hnone
      rw [hnone] at hok
      exact hok hnone
    obtain ⟨hlater, hwithin⟩ := install_within hbetween hdone
    have hseeded : ∀ pubkey, (Tunnels.install call (!(call.stale t).isEmpty) call.listed
        (Tunnels.prune call (call.stale t) t).2).2.installed.get? pubkey ≠ none →
          pubkey ∈ call.seeds.map SeedPeer.pubkey := by
      intro pubkey hheld
      rcases hwithin pubkey hheld with hbefore | hlisted
      · obtain ⟨hinstalled, hkept⟩ := hstays pubkey hbefore
        apply aggregate_seeded
        intro hunwanted
        refine hkept ((call.arrange_perm _).mem_iff.mpr (List.mem_filter.mpr ⟨?_, ?_⟩))
        · by_contra habsent
          exact hknown pubkey hinstalled (Table.not_mem_keys.mp habsent)
        · rw [Table.contains, hunwanted]
          rfl
      · exact listed_seeded hlisted
    split
    · exact ⟨hlater, hseeded⟩
    · exact ⟨hlater, hseeded⟩
  · exact absurd rfl hok

end

/-! What the loop does to its seeds. -/

section

variable {loop loop' : Loop} {event : LoopEvent} {tick : Tick}

theorem sync_seeds (loop : Loop) {arm : Arm} : (loop.sync arm).seeds = loop.seeds := by
  unfold Loop.sync
  split
  · rfl
  · rfl

theorem step_ticked (hstep : loop.step (.ticked tick) = some loop') :
    loop' = loop.ticked tick :=
  (Option.some.inj (Option.ite_none_left_eq_some.mp hstep).2).symm

theorem ticked_alive (hgossip : tick.gossip = true) :
    ∀ seed ∈ (loop.ticked tick).seeds, tick.now < seed.expiresAt := by
  have hseeds : (loop.ticked tick).seeds = (loop.gossiped tick).seeds := by
    unfold Loop.ticked
    rw [if_pos hgossip]
    rfl
  have halive : (loop.gossiped tick).seeds =
      (loop.renewed tick).filter fun seed => decide (tick.now < seed.expiresAt) := by
    unfold Loop.gossiped
    dsimp only
    split
    · rfl
    · rfl
  rw [hseeds, halive]
  intro seed hseed
  exact of_decide_eq_true (List.mem_filter.mp hseed).2

theorem ticked_tunnel (happlies : loop.applies (.ticked tick) = false) :
    (loop.ticked tick).tunnel = loop.tunnel := by
  have hgossiped : tick.gossip = true → (loop.gossiped tick).tunnel = loop.tunnel := by
    intro hgossip
    simp only [Loop.applies, hgossip, Bool.true_and, List.any_eq_false, Bool.not_eq_true',
      Bool.not_eq_false] at happlies
    have hall : (loop.renewed tick).filter (fun seed => decide (tick.now < seed.expiresAt)) =
        loop.renewed tick := List.filter_eq_self.mpr happlies
    unfold Loop.gossiped
    dsimp only
    rw [hall, if_neg fun hne => hne rfl]
  change (if tick.gossip then loop.gossiped tick else loop).tunnel = loop.tunnel
  split
  · rename_i hgossip
    exact hgossiped hgossip
  · rfl

theorem ticked_applied (happlies : loop.applies (.ticked tick) = true) :
    (loop.ticked tick).tunnel = (loop.ticked tick).shown.map SeedPeer.pubkey := by
  obtain ⟨hgossip, hlapsed⟩ := Bool.and_eq_true_iff.mp happlies
  have hfewer : ((loop.renewed tick).filter fun seed =>
      decide (tick.now < seed.expiresAt)).length ≠ (loop.renewed tick).length := by
    intro hsame
    have hall := List.filter_eq_self.mp (List.filter_sublist.eq_of_length hsame)
    obtain ⟨seed, hseed, hexpired⟩ := List.any_eq_true.mp hlapsed
    rw [hall seed hseed] at hexpired
    cases hexpired
  change (if tick.gossip then loop.gossiped tick else loop).tunnel =
    (if tick.gossip then loop.gossiped tick else loop).shown.map SeedPeer.pubkey
  rw [if_pos hgossip]
  unfold Loop.gossiped
  dsimp only
  rw [if_pos hfewer]
  rfl

theorem step_applied (hstep : loop.step event = some loop') (happlies : loop.applies event = true) :
    loop'.tunnel = loop'.shown.map SeedPeer.pubkey := by
  cases event with
  | toggled localnet persisted => cases happlies
  | ticked tick =>
      rw [step_ticked hstep]
      exact ticked_applied happlies
  | woken arm =>
      obtain ⟨-, rfl⟩ := step_completes rfl hstep
      rfl
  | rechecked arm changed =>
      obtain ⟨-, rfl⟩ := step_completes rfl hstep
      obtain rfl : changed = true := happlies
      rfl
  | refreshed grant seeds arm =>
      obtain ⟨-, rfl⟩ := step_completes rfl hstep
      rfl
  | failed => cases happlies

theorem step_unapplied (hstep : loop.step event = some loop')
    (happlies : loop.applies event = false) : loop'.tunnel = loop.tunnel := by
  cases event with
  | toggled localnet persisted =>
      cases hstep
      rfl
  | ticked tick =>
      rw [step_ticked hstep]
      exact ticked_tunnel happlies
  | woken arm => cases happlies
  | rechecked arm changed =>
      obtain ⟨-, rfl⟩ := step_completes rfl hstep
      obtain rfl : changed = false := happlies
      rfl
  | refreshed grant seeds arm => cases happlies
  | failed =>
      obtain ⟨-, rfl⟩ := step_completes rfl hstep
      rfl

end

/-! The runs. -/

section

variable {decodes : Anchor → Bool} {m m' : Meshing} {event : PassEvent} {backend : Backend}
  {received : Received} {pins : Pins} {prev : List SeedPeer} {seed : SeedPeer}

theorem verifiedSeeds_fresh (hseed : seed ∈ verifiedSeeds decodes received pins) :
    received.now < seed.expiresAt := by
  obtain ⟨sent, -, hadmitted⟩ := List.mem_filterMap.mp hseed
  exact (admitSeed_some hadmitted).2

theorem mergeSeeds_source (hseed : seed ∈ mergeSeeds decodes prev received pins) :
    received.resp.isPartial = true ∧ seed ∈ prev ∨ received.now < seed.expiresAt := by
  unfold mergeSeeds at hseed
  split at hseed
  · rename_i hdelta
    obtain ⟨key, hkey⟩ := Table.mem_values.mp hseed
    rcases Table.upsert_source hkey with hkept | ⟨hverified, -⟩
    · rcases Table.upsert_source hkept with hnone | ⟨hheld, -⟩
      · cases hnone
      · exact .inl ⟨hdelta, (List.mem_filter.mp hheld).1⟩
    · exact .inr (verifiedSeeds_fresh hverified)
  · exact .inr (verifiedSeeds_fresh hseed)

namespace Meshing

/-- The loop holds the peers that its backend has, and while a pass waits none of its seeds has
lapsed. -/
structure Tidy (m : Meshing) : Prop where
  held : Held m.loop
  known : m.tunnels.Known
  within : ∀ pubkey, m.tunnels.installed.get? pubkey ≠ none → pubkey ∈ m.loop.tunnel
  alive : m.gossip = true → m.loop.selecting = true → ∀ seed ∈ m.loop.seeds, m.now < seed.expiresAt

theorem Tidy.unexpired (htidy : m.Tidy) {now : Nat}
    (halive : ∀ seed ∈ m.loop.seeds, now < seed.expiresAt) : m.Unexpired now := by
  intro pubkey hinstalled
  obtain ⟨seed, hseed, hkey⟩ :=
    List.mem_map.mp (htidy.held.meshed.tunnel pubkey (htidy.within pubkey hinstalled))
  exact ⟨seed, hseed, hkey, halive seed hseed⟩

theorem apply_some (happlied : m.apply backend = some m') :
    m' = { m with tunnels := (m.tunnels.applySeeds (backend.call m.loop.shown)).2 } ∧
      (m.tunnels.applySeeds (backend.call m.loop.shown)).1 ≠ none := by
  unfold apply at happlied
  split at happlied
  · split at happlied
    · rename_i changed tunnels hdone
      cases happlied
      rw [hdone]
      exact ⟨rfl, Option.some_ne_none changed⟩
    · cases happlied
  · cases happlied

theorem apply_tidy (happlied : m.apply backend = some m') (hheld : Held m.loop)
    (hknown : m.tunnels.Known) (hshown : m.loop.tunnel = m.loop.shown.map SeedPeer.pubkey)
    (halive : m.gossip = true → m.loop.selecting = true →
      ∀ seed ∈ m.loop.seeds, m.now < seed.expiresAt) : m'.Tidy ∧ m'.loop = m.loop := by
  obtain ⟨rfl, hok⟩ := apply_some happlied
  obtain ⟨hlater, hwithin⟩ := applySeeds_within hknown hok
  refine ⟨⟨hheld, hlater, fun pubkey hinstalled => ?_, halive⟩, rfl⟩
  change pubkey ∈ m.loop.tunnel
  rw [hshown]
  exact hwithin pubkey hinstalled

theorem enter_tidy {e : Enrolled} (hentered : enter e = some m) :
    m.Tidy ∧ m.gossip = e.gossip := by
  have hsame := congrArg Meshing.gossip (apply_some hentered).1
  refine ⟨(apply_tidy hentered ?_ (fun _ hnone => absurd rfl hnone) rfl ?_).1, hsame⟩
  · exact entered_held ..
  · intro _ hselecting
    cases hselecting

theorem answered_seeds {loop : Loop} {arm : Arm}
    (hstep : m.loop.step (m.looped decodes (.answered received arm)) = some loop) :
    m.loop.selecting = true ∧
      ((∃ error, (post decodes received m.pins).2 = .error error) ∧ loop.seeds = m.loop.seeds ∨
        ∃ pins, loop.seeds = mergeSeeds decodes m.loop.seeds received pins) := by
  simp only [looped] at hstep
  split at hstep
  · rename_i pins resp device hpost
    obtain ⟨hselecting, rfl⟩ := step_completes rfl hstep
    exact ⟨hselecting, .inr ⟨pins, sync_seeds (m.loop.merged device _)⟩⟩
  · rename_i pins error hpost
    obtain ⟨hselecting, rfl⟩ := step_completes rfl hstep
    rw [hpost]
    exact ⟨hselecting, .inl ⟨⟨error, rfl⟩, rfl⟩⟩

theorem step_alive {loop : Loop} (htidy : m.Tidy) (hgossip : m.gossip = true)
    (hstep : m.loop.step (m.looped decodes event) = some loop)
    (hlive : loop.selecting = true ∨ event.completes = true) :
    ∀ seed ∈ loop.seeds, m.clock event < seed.expiresAt := by
  have hkept : ∀ le : LoopEvent, m.looped decodes event = le → le.completes = true →
      (m.loop.after le).seeds = m.loop.seeds → m.clock event ≤ m.now →
        ∀ seed ∈ loop.seeds, m.clock event < seed.expiresAt := by
    rintro le rfl hcompletes hseeds hclock seed hseed
    obtain ⟨hselecting, rfl⟩ := step_completes hcompletes hstep
    have hheld : seed ∈ m.loop.seeds := hseeds ▸ hseed
    exact hclock.trans_lt (htidy.alive hgossip hselecting seed hheld)
  cases event with
  | toggled localnet persisted =>
      cases hstep
      rcases hlive with hselecting | habsurd
      · exact htidy.alive hgossip hselecting
      · cases habsurd
  | ticked tick =>
      rw [step_ticked hstep]
      exact ticked_alive hgossip
  | woken arm =>
      exact hkept (.woken arm) rfl rfl (sync_seeds _) (Nat.le_refl _)
  | rechecked arm changed =>
      refine hkept (.rechecked arm changed) rfl rfl ?_ (Nat.le_refl _)
      cases changed with
      | true => rfl
      | false => rfl
  | failed => exact hkept .failed rfl rfl rfl (Nat.le_refl _)
  | answered received arm =>
      obtain ⟨hselecting, hseeds⟩ := answered_seeds hstep
      intro seed hseed
      rcases hseeds with ⟨-, hkept⟩ | ⟨pins, hmerged⟩
      · exact (Nat.min_le_left ..).trans_lt (htidy.alive hgossip hselecting seed (hkept ▸ hseed))
      · rw [hmerged] at hseed
        rcases mergeSeeds_source hseed with ⟨-, hheld⟩ | hfresh
        · exact (Nat.min_le_left ..).trans_lt (htidy.alive hgossip hselecting seed hheld)
        · exact (Nat.min_le_right ..).trans_lt hfresh

theorem Tidy.step (htidy : m.Tidy) (hstep : m.step decodes (event, backend) = some m') :
    m'.Tidy ∧ m'.gossip = m.gossip ∧ m'.now = m.clock event ∧
      m.loop.step (m.looped decodes event) = some m'.loop := by
  obtain ⟨loop, hlooped, hnext⟩ := Option.bind_eq_some_iff.mp hstep
  have hheld := htidy.held.step hlooped
  have halive : m.gossip = true → loop.selecting = true →
      ∀ seed ∈ loop.seeds, m.clock event < seed.expiresAt := fun hgossip hselecting =>
    step_alive htidy hgossip hlooped (.inl hselecting)
  dsimp only at hnext
  split at hnext
  · rename_i happlies
    obtain ⟨hnow, _⟩ := apply_some hnext
    obtain ⟨htidied, hsame⟩ :=
      apply_tidy hnext hheld htidy.known (step_applied hlooped happlies) halive
    refine ⟨htidied, ?_, ?_, ?_⟩
    · rw [hnow]
    · rw [hnow]
    · rw [hsame]
      exact hlooped
  · rename_i hquiet
    cases hnext
    refine ⟨⟨hheld, htidy.known, fun pubkey hinstalled => ?_, halive⟩, rfl, rfl, hlooped⟩
    change pubkey ∈ loop.tunnel
    rw [step_unapplied hlooped (Bool.eq_false_iff.mpr hquiet)]
    exact htidy.within pubkey hinstalled

theorem full_fresh {loop : Loop} (hfull : m.Full decodes event received)
    (hstep : m.loop.step (m.looped decodes event) = some loop) :
    ∀ seed ∈ loop.seeds, received.now < seed.expiresAt := by
  obtain ⟨⟨arm, rfl⟩, hwhole, answer, hanswer⟩ := hfull
  rcases (answered_seeds hstep).2 with ⟨⟨error, herror⟩, -⟩ | ⟨pins, hmerged⟩
  · rw [hanswer] at herror
    cases herror
  · intro seed hseed
    rw [hmerged] at hseed
    rcases mergeSeeds_source hseed with ⟨hdelta, -⟩ | hfresh
    · rw [hwhole] at hdelta
      cases hdelta
    · exact hfresh

end Meshing

/-- With gossip no pass leaves a peer installed whose attestation has lapsed; without it a full
answer of the coordinator leaves none. -/
theorem lapsed_dropped (decodes : Anchor → Bool) {e : Enrolled}
    (hentered : Meshing.enter e = some m) (events : List (PassEvent × Backend)) :
    AtEach (Meshing.step decodes) m events fun before event after =>
      (e.gossip = true → event.1.completes = true → after.Unexpired after.now) ∧
        ∀ received, before.Full decodes event.1 received → after.Unexpired received.now := by
  obtain ⟨htidy, hgossip⟩ := Meshing.enter_tidy hentered
  rw [← hgossip]
  have heach : meets (Meshing.step decodes) (fun _ _ => true) m events = true :=
    meets_events fun _ _ => rfl
  refine AtEach.of_meets (fun before => before.Tidy ∧ before.gossip = m.gossip) heach
    ⟨htidy, rfl⟩ ?_ ?_
  · rintro before ⟨event, backend⟩ after ⟨hbefore, hsame⟩ - hstep
    obtain ⟨hafter, hkept, -⟩ := hbefore.step hstep
    exact ⟨hafter, hkept.trans hsame⟩
  · rintro before ⟨event, backend⟩ after ⟨hbefore, hsame⟩ - hstep
    obtain ⟨hafter, -, hnow, hlooped⟩ := hbefore.step hstep
    constructor
    · intro hon hcompletes
      refine hafter.unexpired ?_
      rw [hnow]
      exact Meshing.step_alive hbefore (hsame.trans hon) hlooped (.inr hcompletes)
    · intro received hfull
      exact hafter.unexpired (Meshing.full_fresh hfull hlooped)

end

/-- A device that holds a peer until 7200. -/
def hosting (gossip : Bool) : Enrolled where
  gossip := gossip
  myPubkey := 1
  device := player
  seeds := [visitor]

/-- The attestation lapses, and the coordinator does not answer. -/
def outage : List (PassEvent × Backend) :=
  [(.ticked { now := 8000 }, {}), (.failed, {})]

theorem lapsed_dropped_outage :
    ∃ m after, Meshing.enter (hosting true) = some m ∧
      runs (Meshing.step fun _ => true) m outage = some after ∧ after.now = 8000 ∧
      after.Unexpired after.now := by
  have hplay : ((Meshing.enter (hosting true)).bind fun m =>
      runs (Meshing.step fun _ => true) m outage).any (fun after => after.now == 8000) = true := by
    decide
  obtain ⟨after, hruns, hnow⟩ := (Option.any_eq_true _ _).mp hplay
  obtain ⟨m, hentered, hrun⟩ := Option.bind_eq_some_iff.mp hruns
  have hsplit : outage = outage.take 1 ++ [(PassEvent.failed, ({} : Backend))] := rfl
  have hlast := hrun
  rw [hsplit, runs_snoc] at hlast
  obtain ⟨before, hbefore, hstep⟩ := Option.bind_eq_some_iff.mp hlast
  have heach := lapsed_dropped (fun _ => true) hentered outage
  refine ⟨m, after, hentered, hrun, beq_iff_eq.mp hnow, ?_⟩
  exact (heach _ _ before after (List.prefix_refl _) hbefore hstep).1 rfl rfl

def Meshing.keepsLapsed (m : Meshing) (pubkey : PubKey) : Bool :=
  m.tunnels.installed.contains pubkey &&
    m.loop.seeds.all fun seed => seed.pubkey != pubkey || decide (seed.expiresAt ≤ m.now)

theorem Meshing.not_unexpired {m : Meshing} {pubkey : PubKey}
    (hlapsed : m.keepsLapsed pubkey = true) : ¬ m.Unexpired m.now := by
  obtain ⟨hinstalled, hall⟩ := Bool.and_eq_true_iff.mp hlapsed
  intro hunexpired
  obtain ⟨seed, hseed, hkey, hfresh⟩ := hunexpired pubkey (Option.isSome_iff_ne_none.mp hinstalled)
  have hover := List.all_eq_true.mp hall seed hseed
  rw [Bool.or_eq_true, bne_iff_ne, decide_eq_true_eq] at hover
  rcases hover with hother | hover
  · exact hother hkey
  · exact Nat.not_lt.mpr hover hfresh

/-- Without gossip a peer stays installed while the coordinator does not answer. -/
theorem lapsed_peer_kept :
    ¬ ∀ (e : Enrolled) (m : Meshing) (events : List (PassEvent × Backend)),
      Meshing.enter e = some m →
        AtEach (Meshing.step fun _ => true) m events fun _ event after =>
          event.1.completes = true → after.Unexpired after.now := by
  intro hclaim
  have hplay : ((Meshing.enter (hosting false)).bind fun m =>
      runs (Meshing.step fun _ => true) m outage).any (fun after => after.keepsLapsed 9) = true := by
    decide
  obtain ⟨after, hruns, hlapsed⟩ := (Option.any_eq_true _ _).mp hplay
  obtain ⟨m, hentered, hrun⟩ := Option.bind_eq_some_iff.mp hruns
  have hsplit : outage = outage.take 1 ++ [(PassEvent.failed, ({} : Backend))] := rfl
  rw [hsplit, runs_snoc] at hrun
  obtain ⟨before, hbefore, hstep⟩ := Option.bind_eq_some_iff.mp hrun
  refine Meshing.not_unexpired hlapsed ?_
  exact hclaim (hosting false) m outage hentered _ _ before after (List.prefix_refl _) hbefore hstep
    rfl

end UnityLan.Engine
