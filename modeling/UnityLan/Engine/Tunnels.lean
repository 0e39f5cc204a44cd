import Mathlib.Data.List.Find
import UnityLan.Engine.Fw.Presence
import UnityLan.Foundation.Runs

namespace UnityLan.Engine

open UnityLan.Foundation Fw

/-! The peers of the WireGuard backend, and the map of them that the mesh loop keeps. -/

structure PeerConfig where
  publicKey : PubKey
  allowedIps : List (Ipv4Addr × Nat)
  endpoint : Option SocketAddr
  keepalive : Option Nat
  deriving DecidableEq

structure Endpoints where
  relay : Table PubKey SocketAddr := ∅
  ice : Table PubKey SocketAddr := ∅
  lan : Table PubKey SocketAddr := ∅

def Endpoints.path (eps : Endpoints) (s : SeedPeer) : Option SocketAddr :=
  ((((eps.lan.get? s.pubkey).or s.endpoint).or (eps.ice.get? s.pubkey)).or
    (eps.relay.get? s.pubkey)).or s.punch

abbrev Desired := Table PubKey (List (Ipv4Addr × Nat) × Option SocketAddr)

def aggregate (eps : Endpoints) (seeds : List SeedPeer) : Desired :=
  seeds.foldl
    (fun desired s =>
      let entry := (desired.get? s.pubkey).getD ([], eps.path s)
      desired.insert s.pubkey (entry.1 ++ [(s.ip, 32)], entry.2.or (eps.path s)))
    ∅

def sortAllowed (allowed : List (Ipv4Addr × Nat)) : List (Ipv4Addr × Nat) :=
  (allowed.insertionSort fun a b => a.1 < b.1 ∨ a.1 = b.1 ∧ a.2 ≤ b.2).dedup

def peerConfig (pubkey : PubKey) (allowed : List (Ipv4Addr × Nat)) (endpoint : Option SocketAddr) :
    PeerConfig where
  publicKey := pubkey
  allowedIps := sortAllowed allowed
  endpoint := endpoint
  keepalive := some 25

def differs (existing : Option PeerConfig) (peer : PeerConfig) : Bool :=
  match existing with
  | some e => e.allowedIps != peer.allowedIps || e.endpoint != peer.endpoint
  | none => true

/-- What becomes of a backend call; one that fails may have taken effect. -/
inductive WgOutcome
  | done
  | refused
  | halfway
  deriving DecidableEq

inductive WgCall
  | remove (pubkey : PubKey)
  /-- Whether there was such a peer at the time. -/
  | set (peer : PeerConfig) (present : Bool)
  | route (peers : List PeerConfig)
  deriving DecidableEq

structure Tunnels where
  installed : Table PubKey PeerConfig := ∅
  peers : Table PubKey PeerConfig := ∅
  /-- The backend calls, the latest at the end. -/
  trace : List WgCall := []

structure SeedsCall where
  seeds : List SeedPeer
  eps : Endpoints := {}
  /-- The order in which a map is gone through. -/
  arrange : List PubKey → List PubKey := id
  arrange_perm : ∀ keys, (arrange keys).Perm keys := by exact fun keys => List.Perm.refl keys
  removal : PubKey → WgOutcome := fun _ => .done
  setting : PubKey → WgOutcome := fun _ => .done

def SeedsCall.stale (call : SeedsCall) (t : Tunnels) : List PubKey :=
  call.arrange (t.peers.keys.filter fun pubkey =>
    !(aggregate call.eps call.seeds).contains pubkey)

def SeedsCall.listed (call : SeedsCall) : List PeerConfig :=
  (call.arrange (aggregate call.eps call.seeds).keys).filterMap fun pubkey =>
    ((aggregate call.eps call.seeds).get? pubkey).map fun entry =>
      peerConfig pubkey entry.1 entry.2

namespace Tunnels

/-- `remove_peer`, and whether it went well. -/
def removePeer (t : Tunnels) (outcome : WgOutcome) (pubkey : PubKey) : Bool × Tunnels :=
  (outcome == .done,
    { t with
      installed := if outcome = .refused then t.installed else t.installed.erase pubkey
      trace := t.trace ++ [.remove pubkey] })

/-- `set_peer`, and whether it went well. -/
def setPeer (t : Tunnels) (outcome : WgOutcome) (peer : PeerConfig) : Bool × Tunnels :=
  (outcome == .done,
    { t with
      installed :=
        if outcome = .refused then t.installed else t.installed.insert peer.publicKey peer
      trace := t.trace ++ [.set peer (t.installed.contains peer.publicKey)] })

def prune (call : SeedsCall) : List PubKey → Tunnels → Bool × Tunnels
  | [], t => (true, t)
  | pubkey :: rest, t =>
      let removed := t.removePeer (call.removal pubkey) pubkey
      if removed.1 then
        prune call rest { removed.2 with peers := removed.2.peers.erase pubkey }
      else removed

/-- One peer is set; one that is installed is removed before. -/
def place (call : SeedsCall) (peer : PeerConfig) (t : Tunnels) : Bool × Tunnels :=
  let cleared :=
    if (t.peers.get? peer.publicKey).isSome then
      t.removePeer (call.removal peer.publicKey) peer.publicKey
    else (true, t)
  if cleared.1 then
    let set := cleared.2.setPeer (call.setting peer.publicKey) peer
    if set.1 then (true, { set.2 with peers := set.2.peers.insert peer.publicKey peer })
    else set
  else cleared

def install (call : SeedsCall) : Bool → List PeerConfig → Tunnels → Option Bool × Tunnels
  | changed, [], t => (some changed, t)
  | changed, peer :: rest, t =>
      if differs (t.peers.get? peer.publicKey) peer then
        let placed := t.place call peer
        if placed.1 then install call true rest placed.2 else (none, placed.2)
      else install call changed rest t

/-- `configure_routing`; the mesh loop takes no notice of a failure. -/
def configureRouting (t : Tunnels) (call : SeedsCall) : Tunnels :=
  { t with trace := t.trace ++ [.route ((call.arrange t.peers.keys).filterMap t.peers.get?)] }

/-- `apply_seeds`: whether anything changed, unless a call failed. -/
def applySeeds (t : Tunnels) (call : SeedsCall) : Option Bool × Tunnels :=
  let pruned := prune call (call.stale t) t
  if pruned.1 then
    let installed := install call (!(call.stale t).isEmpty) call.listed pruned.2
    if installed.1 = some true then (some true, installed.2.configureRouting call) else installed
  else (none, pruned.2)

def step (t : Tunnels) (call : SeedsCall) : Option Tunnels :=
  some (t.applySeeds call).2

end Tunnels

/-! What the seeds say of a peer, and how far the calls bring it about. -/

def seedsOf (seeds : List SeedPeer) (pubkey : PubKey) : List SeedPeer :=
  seeds.filter fun s => s.pubkey == pubkey

def Endpoints.ranked (eps : Endpoints) (pubkey : PubKey) (own : List SeedPeer) :
    Option SocketAddr :=
  (eps.lan.get? pubkey).or ((own.findSome? SeedPeer.endpoint).or
    (((eps.ice.get? pubkey).or (eps.relay.get? pubkey)).or (own.findSome? SeedPeer.punch)))

def wanted (eps : Endpoints) (seeds : List SeedPeer) (pubkey : PubKey) : Option PeerConfig :=
  match seedsOf seeds pubkey with
  | [] => none
  | own =>
      some (peerConfig pubkey (own.map fun s => (s.ip, 32)) (eps.ranked pubkey own))

def Endpoints.tiered (eps : Endpoints) (own : List SeedPeer) : Bool :=
  match own.find? fun s => (eps.path s).isSome with
  | some first =>
      (eps.lan.get? first.pubkey).isSome || first.endpoint.isSome ||
        own.all fun s => s.endpoint.isNone
  | none => true

/-- No call fails that took effect, no peer is refused that was installed otherwise, and the seeds
of a peer agree on its best path. -/
def SeedsCall.fits (t : Tunnels) (call : SeedsCall) : Bool :=
  (t.peers.keys ++ call.seeds.map SeedPeer.pubkey).all fun pubkey =>
    call.eps.tiered (seedsOf call.seeds pubkey) &&
      match t.peers.get? pubkey, wanted call.eps call.seeds pubkey with
      | some held, some peer =>
          !differs (some held) peer || call.removal pubkey == .refused ||
            call.removal pubkey == .done && call.setting pubkey == .done
      | some _, none => call.removal pubkey != .halfway
      | none, some _ => call.setting pubkey != .halfway
      | none, none => true

structure Tunnels.Agree (t : Tunnels) : Prop where
  same : ∀ pubkey, t.installed.get? pubkey = t.peers.get? pubkey
  keyed : ∀ pubkey peer, t.peers.get? pubkey = some peer →
    peer.publicKey = pubkey ∧ peer.keepalive = some 25

def WgCall.Due (t : Tunnels) (call : SeedsCall) : WgCall → Prop
  | .remove pubkey => t.peers.get? pubkey ≠ none ∧
      t.peers.get? pubkey ≠ wanted call.eps call.seeds pubkey
  | .set peer present => present = false ∧
      wanted call.eps call.seeds peer.publicKey = some peer ∧
        t.peers.get? peer.publicKey ≠ some peer
  | .route peers => ∀ peer, peer ∈ peers ↔
      wanted call.eps call.seeds peer.publicKey = some peer

/-- What a call does to the tunnels. -/
structure Reconciles (t : Tunnels) (call : SeedsCall) (t' : Tunnels) : Prop where
  agree : t'.Agree
  due : ∃ calls, t'.trace = t.trace ++ calls ∧ ∀ c ∈ calls, c.Due t call
  exact : (t.applySeeds call).1 ≠ none →
    ∀ pubkey, t'.installed.get? pubkey = wanted call.eps call.seeds pubkey

/-! The map that is aggregated. -/

section

variable {eps : Endpoints} {seeds : List SeedPeer} {pubkey : PubKey}

theorem seedsOf_append {more : List SeedPeer} :
    seedsOf (seeds ++ more) pubkey = seedsOf seeds pubkey ++ seedsOf more pubkey :=
  List.filter_append ..

theorem mem_seedsOf {s : SeedPeer} : s ∈ seedsOf seeds pubkey ↔ s ∈ seeds ∧ s.pubkey = pubkey := by
  unfold seedsOf
  rw [List.mem_filter, beq_iff_eq]

theorem get?_aggregate :
    (aggregate eps seeds).get? pubkey =
      match seedsOf seeds pubkey with
      | [] => none
      | own => some (own.map fun s => (s.ip, 32), own.findSome? eps.path) := by
  induction seeds using List.reverseRecOn with
  | nil => rfl
  | append_singleton seeds s ih =>
      unfold aggregate at ih ⊢
      rw [List.foldl_append, List.foldl_cons, List.foldl_nil, Table.get?_insert, seedsOf_append]
      by_cases hkey : pubkey = s.pubkey
      · subst hkey
        have hlast : seedsOf [s] s.pubkey = [s] := List.filter_cons_of_pos (beq_self_eq_true _)
        rw [if_pos rfl, hlast, ih]
        cases seedsOf seeds s.pubkey with
        | nil => simp
        | cons first rest =>
            simp only [List.cons_append, Option.getD_some]
            rw [← List.cons_append, List.map_append, List.findSome?_append]
            simp
      · have hlast : seedsOf [s] pubkey = [] :=
          List.filter_cons_of_neg (by simpa using fun heq => hkey heq.symm)
        rw [if_neg hkey, hlast, List.append_nil]
        exact ih

/-- The first of two readings of an item, ranked over all items, where no item has the second one
only before another has the first. -/
theorem findSome?_or {α β : Type} {first second : α → Option β} {items : List α}
    (htiered : ∀ item, items.find? (fun item => ((first item).or (second item)).isSome) =
      some item →
      (first item).isSome ∨ ∀ item ∈ items, first item = none) :
    items.findSome? (fun item => (first item).or (second item)) =
      (items.findSome? first).or (items.findSome? second) := by
  induction items with
  | nil => rfl
  | cons item rest ih =>
      rw [List.findSome?_cons, List.findSome?_cons, List.findSome?_cons]
      cases hfirst : first item with
      | some value => rfl
      | none =>
          cases hsecond : second item with
          | some value =>
              rcases htiered item (by simp [hfirst, hsecond]) with hsome | hnone
              · rw [hfirst] at hsome
                cases hsome
              · have hrest : rest.findSome? first = none :=
                  List.findSome?_eq_none_iff.mpr fun other hother =>
                    hnone other (List.mem_cons_of_mem _ hother)
                simp [hrest]
          | none =>
              refine ih fun other hother => ?_
              rcases htiered other (by simpa [hfirst, hsecond] using hother) with hsome | hnone
              · exact .inl hsome
              · exact .inr fun item hitem => hnone item (List.mem_cons_of_mem _ hitem)

theorem findSome?_const_or {α β : Type} {value : Option β} {second : α → Option β}
    {items : List α} (hitems : items ≠ []) :
    items.findSome? (fun item => value.or (second item)) = value.or (items.findSome? second) := by
  cases value with
  | none => rfl
  | some value =>
      cases items with
      | nil => exact absurd rfl hitems
      | cons item rest => rfl

theorem findSome?_congr {α β : Type} {first second : α → Option β} {items : List α}
    (hsame : ∀ item ∈ items, first item = second item) :
    items.findSome? first = items.findSome? second := by
  induction items with
  | nil => rfl
  | cons item rest ih =>
      rw [List.findSome?_cons, List.findSome?_cons, hsame item List.mem_cons_self,
        ih fun other hother => hsame other (List.mem_cons_of_mem _ hother)]

theorem ranked_eq (htiered : eps.tiered (seedsOf seeds pubkey) = true)
    (howned : seedsOf seeds pubkey ≠ []) :
    (seedsOf seeds pubkey).findSome? eps.path = eps.ranked pubkey (seedsOf seeds pubkey) := by
  have hpath : ∀ s ∈ seedsOf seeds pubkey, eps.path s = (eps.lan.get? pubkey).or
      (s.endpoint.or (((eps.ice.get? pubkey).or (eps.relay.get? pubkey)).or s.punch)) := by
    intro s hs
    obtain ⟨_, rfl⟩ := mem_seedsOf.mp hs
    simp [Endpoints.path, Option.or_assoc]
  rw [findSome?_congr hpath, findSome?_const_or howned]
  unfold Endpoints.ranked
  cases hlan : eps.lan.get? pubkey with
  | some addr => rfl
  | none =>
      simp only [Option.none_or]
      rw [findSome?_or, findSome?_const_or howned]
      intro first hfirst
      have hfound : (seedsOf seeds pubkey).find? (fun s => (eps.path s).isSome) = some first := by
        rw [← hfirst]
        refine List.find?_congr fun s hs => ?_
        rw [hpath s hs, hlan, Option.none_or]
      obtain ⟨_, hkey⟩ := mem_seedsOf.mp (List.mem_of_find?_eq_some hfirst)
      unfold Endpoints.tiered at htiered
      rw [hfound] at htiered
      dsimp only at htiered
      rw [hkey, hlan] at htiered
      simpa using htiered

theorem wanted_eq (htiered : ∀ s ∈ seeds, eps.tiered (seedsOf seeds s.pubkey) = true) :
    ((aggregate eps seeds).get? pubkey).map (fun entry => peerConfig pubkey entry.1 entry.2) =
      wanted eps seeds pubkey := by
  unfold wanted
  rw [get?_aggregate]
  split
  · rfl
  · rename_i hown
    have hsome : ∃ s ∈ seeds, s.pubkey = pubkey := by
      obtain ⟨s, hs⟩ := List.exists_mem_of_ne_nil _ hown
      exact ⟨s, mem_seedsOf.mp hs⟩
    obtain ⟨s, hs, rfl⟩ := hsome
    rw [Option.map_some, ranked_eq (htiered s hs) hown]

theorem wanted_keyed {peer : PeerConfig} (hwanted : wanted eps seeds pubkey = some peer) :
    peer.publicKey = pubkey ∧ peer.keepalive = some 25 := by
  unfold wanted at hwanted
  split at hwanted
  · cases hwanted
  · cases hwanted
    exact ⟨rfl, rfl⟩

end

/-! What the loops do. -/

section

variable {t u : Tunnels} {call : SeedsCall} {pubkey : PubKey} {peer : PeerConfig}

theorem Tunnels.Agree.removed (hagree : u.Agree) {trace : List WgCall} :
    Tunnels.Agree ⟨u.installed.erase pubkey, u.peers.erase pubkey, trace⟩ where
  same := by
    intro other
    dsimp only
    rw [Table.get?_erase, Table.get?_erase, hagree.same]
  keyed := fun other peer hpeer => hagree.keyed other peer (Table.get?_of_erase hpeer)

theorem eq_of_not_differs {held : PeerConfig} (hheld : held.publicKey = peer.publicKey)
    (hkeepalive : held.keepalive = peer.keepalive)
    (hsame : differs (some held) peer = false) : held = peer := by
  obtain ⟨key, allowed, endpoint, keepalive⟩ := held
  obtain ⟨key', allowed', endpoint', keepalive'⟩ := peer
  simp only [differs, Bool.or_eq_false_iff, bne_eq_false_iff_eq] at hsame
  simp_all

def DueSince (t : Tunnels) (call : SeedsCall) (u u' : Tunnels) : Prop :=
  ∃ calls, u'.trace = u.trace ++ calls ∧ ∀ c ∈ calls, c.Due t call

theorem DueSince.refl : DueSince t call u u :=
  ⟨[], (List.append_nil _).symm, by simp⟩

theorem DueSince.trans {u' u'' : Tunnels} (hfirst : DueSince t call u u')
    (hsecond : DueSince t call u' u'') : DueSince t call u u'' := by
  obtain ⟨before, hbefore, hdue⟩ := hfirst
  obtain ⟨after, hafter, hdue'⟩ := hsecond
  refine ⟨before ++ after, by rw [hafter, hbefore, List.append_assoc], fun c hc => ?_⟩
  exact (List.mem_append.mp hc).elim (hdue c) (hdue' c)

theorem DueSince.one {c : WgCall} {u' : Tunnels} (htrace : u'.trace = u.trace ++ [c])
    (hdue : c.Due t call) : DueSince t call u u' :=
  ⟨[c], htrace, fun _ hc => List.mem_singleton.mp hc ▸ hdue⟩

theorem prune_spec {stale : List PubKey} (hnodup : stale.Nodup)
    (hstale : ∀ pubkey ∈ stale, u.peers.get? pubkey = t.peers.get? pubkey ∧
      t.peers.get? pubkey ≠ none ∧ wanted call.eps call.seeds pubkey = none ∧
        call.removal pubkey ≠ .halfway)
    (hagree : u.Agree) :
    (Tunnels.prune call stale u).2.Agree ∧
      DueSince t call u (Tunnels.prune call stale u).2 ∧
      ((Tunnels.prune call stale u).1 = true → ∀ pubkey,
        (Tunnels.prune call stale u).2.peers.get? pubkey =
          if pubkey ∈ stale then none else u.peers.get? pubkey) := by
  induction stale generalizing u with
  | nil => exact ⟨hagree, .refl, fun _ pubkey => by simp [Tunnels.prune]⟩
  | cons head rest ih =>
      obtain ⟨hhead, hrest⟩ := List.nodup_cons.mp hnodup
      obtain ⟨_, hpresent, hgone, hwhole⟩ := hstale head List.mem_cons_self
      have hdue : WgCall.Due t call (.remove head) := ⟨hpresent, by rw [hgone]; exact hpresent⟩
      unfold Tunnels.prune Tunnels.removePeer
      cases hremoval : call.removal head with
      | halfway => exact absurd hremoval hwhole
      | refused =>
          refine ⟨⟨hagree.same, hagree.keyed⟩, .one rfl hdue, fun hok => ?_⟩
          cases hok
      | done =>
          have hlater := ih hrest (u := ⟨u.installed.erase head, u.peers.erase head,
            u.trace ++ [.remove head]⟩)
            (fun pubkey hpubkey => by
              obtain ⟨hsame, hothers⟩ := hstale pubkey (List.mem_cons_of_mem _ hpubkey)
              refine ⟨?_, hothers⟩
              have hne : pubkey ≠ head := fun heq => hhead (heq ▸ hpubkey)
              simp [hne, hsame])
            hagree.removed
          obtain ⟨hend, hcalls, hpeers⟩ := hlater
          refine ⟨hend, (DueSince.one rfl hdue).trans hcalls, fun hok pubkey => ?_⟩
          refine (hpeers hok pubkey).trans ?_
          by_cases hsame : pubkey = head
          · simp [hsame]
          · simp [hsame]

structure Settles (t : Tunnels) (call : SeedsCall) (peer : PeerConfig) : Prop where
  wanted : wanted call.eps call.seeds peer.publicKey = some peer
  added : t.peers.get? peer.publicKey = none → call.setting peer.publicKey ≠ .halfway
  replaced : ∀ held, t.peers.get? peer.publicKey = some held → differs (some held) peer = true →
    call.removal peer.publicKey = .refused ∨
      call.removal peer.publicKey = .done ∧ call.setting peer.publicKey = .done

/-- A peer that is set where none is installed under its key; the map may still have the one that
was removed. -/
theorem set_spec {installed : Table PubKey PeerConfig} (peers : Table PubKey PeerConfig)
    (trace : List WgCall) (hsettles : Settles t call peer)
      (hdiffers : t.peers.get? peer.publicKey ≠ some peer)
    (hfree : installed.get? peer.publicKey = none)
    (hsame : ∀ other, other ≠ peer.publicKey → installed.get? other = peers.get? other)
    (hkeyed : ∀ other held, peers.get? other = some held →
      held.publicKey = other ∧ held.keepalive = some 25) :
    Tunnels.Agree ⟨installed.insert peer.publicKey peer, peers.insert peer.publicKey peer,
        trace ++ [.set peer (installed.contains peer.publicKey)]⟩ ∧
      WgCall.Due t call (.set peer (installed.contains peer.publicKey)) := by
  refine ⟨⟨fun other => ?_, fun other held hheld => ?_⟩, ?_, hsettles.wanted, hdiffers⟩
  · dsimp only
    rw [Table.get?_insert, Table.get?_insert]
    split
    · rfl
    · exact hsame other ‹_›
  · dsimp only at hheld
    rw [Table.get?_insert] at hheld
    split at hheld
    · rename_i hother
      cases hheld
      exact hother ▸ wanted_keyed hsettles.wanted
    · exact hkeyed other held hheld
  · unfold Table.contains
    rw [hfree]
    rfl

theorem place_spec (hsettles : Settles t call peer)
    (hbefore : u.peers.get? peer.publicKey = t.peers.get? peer.publicKey)
    (hdiffers : differs (u.peers.get? peer.publicKey) peer = true) (hagree : u.Agree) :
    (u.place call peer).2.Agree ∧ DueSince t call u (u.place call peer).2 ∧
      ((u.place call peer).1 = true → ∀ pubkey, (u.place call peer).2.peers.get? pubkey =
        if pubkey = peer.publicKey then some peer else u.peers.get? pubkey) := by
  have hchanges : t.peers.get? peer.publicKey ≠ some peer := by
    intro hsome
    rw [hbefore, hsome] at hdiffers
    simp [differs] at hdiffers
  cases hheld : u.peers.get? peer.publicKey with
  | none =>
      have hfree := (hagree.same peer.publicKey).trans hheld
      obtain ⟨hset, hdue⟩ := set_spec u.peers u.trace hsettles hchanges hfree
        (fun other _ => hagree.same other) hagree.keyed
      unfold Tunnels.place Tunnels.setPeer
      simp only [hheld, Option.isSome_none, Bool.false_eq_true, if_false, if_true]
      cases hsetting : call.setting peer.publicKey with
      | halfway => exact absurd hsetting (hsettles.added (hbefore.symm.trans hheld))
      | refused =>
          refine ⟨⟨hagree.same, hagree.keyed⟩, .one rfl hdue, fun hok => ?_⟩
          cases hok
      | done => exact ⟨hset, .one rfl hdue, fun _ pubkey => Table.get?_insert ..⟩
  | some held =>
      have houtcome := hsettles.replaced held (hbefore.symm.trans hheld) (hheld ▸ hdiffers)
      have hremoved : WgCall.Due t call (.remove peer.publicKey) := by
        refine ⟨?_, ?_⟩
        · rw [← hbefore, hheld]
          exact Option.some_ne_none held
        · rw [hsettles.wanted]
          exact hchanges
      have hgone : (u.installed.erase peer.publicKey).get? peer.publicKey = none := by
        rw [Table.get?_erase, if_pos rfl]
      obtain ⟨hset, hdue⟩ := set_spec u.peers (u.trace ++ [.remove peer.publicKey]) hsettles
        hchanges hgone
        (fun other hother => by rw [Table.get?_erase, if_neg hother, hagree.same]) hagree.keyed
      unfold Tunnels.place Tunnels.removePeer Tunnels.setPeer
      simp only [hheld, Option.isSome_some, if_true]
      rcases houtcome with hrefused | ⟨hremoval, hsetting⟩
      · rw [hrefused]
        refine ⟨⟨hagree.same, hagree.keyed⟩, .one rfl hremoved, fun hok => ?_⟩
        cases hok
      · rw [hremoval, hsetting]
        have hcleared : DueSince t call u
            ⟨u.installed.erase peer.publicKey, u.peers, u.trace ++ [.remove peer.publicKey]⟩ :=
          .one rfl hremoved
        exact ⟨hset, hcleared.trans (.one rfl hdue), fun _ pubkey => Table.get?_insert ..⟩

theorem install_spec (changed : Bool) {peers : List PeerConfig}
    (hnodup : (peers.map PeerConfig.publicKey).Nodup)
    (hpeers : ∀ peer ∈ peers, u.peers.get? peer.publicKey = t.peers.get? peer.publicKey ∧
      Settles t call peer)
    (hagree : u.Agree) :
    (Tunnels.install call changed peers u).2.Agree ∧
      DueSince t call u (Tunnels.install call changed peers u).2 ∧
      ((Tunnels.install call changed peers u).1 ≠ none →
        (∀ peer ∈ peers,
          (Tunnels.install call changed peers u).2.peers.get? peer.publicKey = some peer) ∧
          ∀ pubkey, pubkey ∉ peers.map PeerConfig.publicKey →
            (Tunnels.install call changed peers u).2.peers.get? pubkey = u.peers.get? pubkey) := by
  induction peers generalizing changed u with
  | nil => exact ⟨hagree, .refl, fun _ => ⟨by simp, fun _ _ => rfl⟩⟩
  | cons peer rest ih =>
      obtain ⟨hhead, hrest⟩ := List.nodup_cons.mp hnodup
      obtain ⟨hbefore, hsettles⟩ := hpeers peer List.mem_cons_self
      have hother : ∀ other ∈ rest, other.publicKey ≠ peer.publicKey := fun other hmem heq =>
        hhead (heq ▸ List.mem_map_of_mem hmem)
      unfold Tunnels.install
      split
      · rename_i hdiffers
        obtain ⟨hplaced, hdue, hset⟩ := place_spec hsettles hbefore hdiffers hagree
        dsimp only
        split
        · rename_i hok
          obtain ⟨hend, hcalls, hdone⟩ := ih true hrest (u := (u.place call peer).2)
            (fun other hmem => by
              obtain ⟨hsame, hothers⟩ := hpeers other (List.mem_cons_of_mem _ hmem)
              rw [hset hok, if_neg (hother other hmem)]
              exact ⟨hsame, hothers⟩)
            hplaced
          refine ⟨hend, hdue.trans hcalls, fun hfine => ?_⟩
          obtain ⟨hall, huntouched⟩ := hdone hfine
          refine ⟨fun other hmem => ?_, fun pubkey hnot => ?_⟩
          · rcases List.mem_cons.mp hmem with rfl | hmem
            · rw [huntouched _ hhead, hset hok, if_pos rfl]
            · exact hall other hmem
          · rw [List.map_cons, List.mem_cons, not_or] at hnot
            rw [huntouched _ hnot.2, hset hok, if_neg hnot.1]
        · rename_i hfailed
          exact ⟨hplaced, hdue, fun hok => absurd rfl hok⟩
      · rename_i hsame
        obtain ⟨hend, hcalls, hdone⟩ := ih changed hrest
          (fun other hmem => hpeers other (List.mem_cons_of_mem _ hmem)) hagree
        refine ⟨hend, hcalls, fun hfine => ?_⟩
        obtain ⟨hall, huntouched⟩ := hdone hfine
        have hheld : u.peers.get? peer.publicKey = some peer := by
          cases hget : u.peers.get? peer.publicKey with
          | none =>
              rw [hget] at hsame
              exact absurd rfl hsame
          | some held =>
              rw [hget] at hsame
              obtain ⟨hkey, hkeepalive⟩ := hagree.keyed _ held hget
              obtain ⟨_, hkeepalive'⟩ := wanted_keyed hsettles.wanted
              rw [eq_of_not_differs hkey (hkeepalive.trans hkeepalive'.symm) (by simpa using hsame)]
        refine ⟨fun other hmem => ?_, fun pubkey hnot => ?_⟩
        · rcases List.mem_cons.mp hmem with rfl | hmem
          · exact (huntouched _ hhead).trans hheld
          · exact hall other hmem
        · rw [List.map_cons, List.mem_cons, not_or] at hnot
          exact huntouched _ hnot.2

theorem SeedsCall.fits_of_mem (hfits : call.fits t = true)
    (hmem : pubkey ∈ t.peers.keys ++ call.seeds.map SeedPeer.pubkey) :
    call.eps.tiered (seedsOf call.seeds pubkey) = true ∧
      (match t.peers.get? pubkey, wanted call.eps call.seeds pubkey with
        | some held, some peer =>
            !differs (some held) peer || call.removal pubkey == .refused ||
              call.removal pubkey == .done && call.setting pubkey == .done
        | some _, none => call.removal pubkey != .halfway
        | none, some _ => call.setting pubkey != .halfway
        | none, none => true) = true :=
  (Bool.and_eq_true _ _).mp (List.all_eq_true.mp hfits pubkey hmem)

theorem settles_of_fits (hfits : call.fits t = true)
    (hwanted : wanted call.eps call.seeds peer.publicKey = some peer)
    (hseeded : peer.publicKey ∈ call.seeds.map SeedPeer.pubkey) : Settles t call peer := by
  have hfine := (SeedsCall.fits_of_mem hfits (List.mem_append_right _ hseeded)).2
  rw [hwanted] at hfine
  refine ⟨hwanted, fun habsent => ?_, fun held hheld hdiffers => ?_⟩
  · rw [habsent] at hfine
    simpa using hfine
  · rw [hheld] at hfine
    simpa [hdiffers] using hfine

def SeedsCall.Tiered (call : SeedsCall) : Prop :=
  ∀ s ∈ call.seeds, call.eps.tiered (seedsOf call.seeds s.pubkey) = true

theorem SeedsCall.tiered_of_fits (hfits : call.fits t = true) : call.Tiered := fun _ hs =>
  (SeedsCall.fits_of_mem hfits (List.mem_append_right _ (List.mem_map_of_mem hs))).1

theorem SeedsCall.mem_stale (htiered : call.Tiered) :
    pubkey ∈ call.stale t ↔ t.peers.get? pubkey ≠ none ∧
      wanted call.eps call.seeds pubkey = none := by
  have hgone : (aggregate call.eps call.seeds).contains pubkey = false ↔
      wanted call.eps call.seeds pubkey = none := by
    rw [← wanted_eq htiered, Option.map_eq_none_iff]
    exact Option.isSome_eq_false_iff.trans Option.isNone_iff_eq_none
  unfold SeedsCall.stale
  rw [(call.arrange_perm _).mem_iff, List.mem_filter, Bool.not_eq_true', hgone, Ne,
    ← Table.not_mem_keys, not_not]

theorem SeedsCall.nodup_stale : (call.stale t).Nodup :=
  (call.arrange_perm _).nodup_iff.mpr (t.peers.keysNodup.filter _)

theorem SeedsCall.mem_listed (htiered : call.Tiered) :
    peer ∈ call.listed ↔ wanted call.eps call.seeds peer.publicKey = some peer := by
  unfold SeedsCall.listed
  simp only [wanted_eq htiered]
  rw [List.mem_filterMap]
  constructor
  · rintro ⟨pubkey, _, hwanted⟩
    rw [(wanted_keyed hwanted).1]
    exact hwanted
  · intro hwanted
    refine ⟨peer.publicKey, (call.arrange_perm _).mem_iff.mpr (Table.mem_keys.mpr ?_), hwanted⟩
    rw [← wanted_eq htiered] at hwanted
    obtain ⟨entry, hentry, _⟩ := Option.map_eq_some_iff.mp hwanted
    exact ⟨entry, hentry⟩

theorem SeedsCall.nodup_listed : (call.listed.map PeerConfig.publicKey).Nodup := by
  unfold SeedsCall.listed
  rw [List.map_filterMap]
  refine List.Nodup.filterMap (fun key key' found hfound hfound' => ?_)
    ((call.arrange_perm _).nodup_iff.mpr (aggregate call.eps call.seeds).keysNodup)
  have hown : ∀ key, found ∈ (((aggregate call.eps call.seeds).get? key).map fun entry =>
      peerConfig key entry.1 entry.2).map PeerConfig.publicKey → key = found := by
    intro key hfound
    obtain ⟨peer, hpeer, rfl⟩ := Option.map_eq_some_iff.mp hfound
    obtain ⟨entry, _, rfl⟩ := Option.map_eq_some_iff.mp hpeer
    rfl
  exact (hown key hfound).trans (hown key' hfound').symm

theorem prune_stale (hfits : call.fits t = true) (hagree : t.Agree) :
    (Tunnels.prune call (call.stale t) t).2.Agree ∧
      DueSince t call t (Tunnels.prune call (call.stale t) t).2 ∧
      ((Tunnels.prune call (call.stale t) t).1 = true → ∀ pubkey,
        (Tunnels.prune call (call.stale t) t).2.peers.get? pubkey =
          if pubkey ∈ call.stale t then none else t.peers.get? pubkey) := by
  refine prune_spec SeedsCall.nodup_stale (fun pubkey hstale => ?_) hagree
  obtain ⟨hheld, hunwanted⟩ := (SeedsCall.mem_stale (SeedsCall.tiered_of_fits hfits)).mp hstale
  refine ⟨rfl, hheld, hunwanted, fun hhalfway => ?_⟩
  have hkey : pubkey ∈ t.peers.keys := by
    by_contra habsent
    exact hheld (Table.not_mem_keys.mp habsent)
  have hfine := (SeedsCall.fits_of_mem hfits (List.mem_append_left _ hkey)).2
  obtain ⟨held, hget⟩ := Option.ne_none_iff_exists'.mp hheld
  rw [hunwanted, hget, hhalfway] at hfine
  cases hfine

theorem settles_listed (hfits : call.fits t = true) (hlisted : peer ∈ call.listed) :
    peer.publicKey ∉ call.stale t ∧ Settles t call peer := by
  have htiered := SeedsCall.tiered_of_fits hfits
  have hwanted := (SeedsCall.mem_listed htiered).mp hlisted
  refine ⟨fun hstale => ?_, settles_of_fits hfits hwanted ?_⟩
  · rw [((SeedsCall.mem_stale htiered).mp hstale).2] at hwanted
    cases hwanted
  · unfold wanted at hwanted
    split at hwanted
    · cases hwanted
    · rename_i hown
      obtain ⟨s, hs⟩ := List.exists_mem_of_ne_nil _ hown
      obtain ⟨hmem, hkey⟩ := mem_seedsOf.mp hs
      exact hkey ▸ List.mem_map_of_mem hmem

theorem install_listed (changed : Bool) (hfits : call.fits t = true) (hagree : t.Agree)
    (hok : (Tunnels.prune call (call.stale t) t).1 = true) {v : Option Bool × Tunnels}
    (hv : Tunnels.install call changed call.listed (Tunnels.prune call (call.stale t) t).2 = v) :
    v.2.Agree ∧ DueSince t call t v.2 ∧
      (v.1 ≠ none → ∀ pubkey, v.2.peers.get? pubkey = wanted call.eps call.seeds pubkey) := by
  have htiered := SeedsCall.tiered_of_fits hfits
  obtain ⟨hpruned, hgone, hkept⟩ := prune_stale hfits hagree
  obtain ⟨hend, hcalls, hexact⟩ := install_spec (t := t) changed SeedsCall.nodup_listed
    (fun peer hlisted => by
      obtain ⟨hstays, hsettles⟩ := settles_listed hfits hlisted
      rw [hkept hok, if_neg hstays]
      exact ⟨rfl, hsettles⟩)
    hpruned
  rw [hv] at hend hcalls hexact
  refine ⟨hend, hgone.trans hcalls, fun hfine pubkey => ?_⟩
  obtain ⟨hset, huntouched⟩ := hexact hfine
  cases hwanted : wanted call.eps call.seeds pubkey with
  | some peer =>
      obtain ⟨rfl, _⟩ := wanted_keyed hwanted
      exact hset peer ((SeedsCall.mem_listed htiered).mpr hwanted)
  | none =>
      have hunlisted : pubkey ∉ call.listed.map PeerConfig.publicKey := by
        intro hmem
        obtain ⟨peer, hlisted, rfl⟩ := List.mem_map.mp hmem
        rw [(SeedsCall.mem_listed htiered).mp hlisted] at hwanted
        cases hwanted
      rw [huntouched pubkey hunlisted, hkept hok]
      split
      · rfl
      · rename_i hstays
        by_contra hheld
        exact hstays ((SeedsCall.mem_stale htiered).mpr ⟨hheld, hwanted⟩)

theorem mem_routed (hagree : u.Agree) :
    peer ∈ (call.arrange u.peers.keys).filterMap u.peers.get? ↔
      u.peers.get? peer.publicKey = some peer := by
  rw [List.mem_filterMap]
  constructor
  · rintro ⟨pubkey, _, hheld⟩
    rw [(hagree.keyed pubkey peer hheld).1]
    exact hheld
  · intro hheld
    exact ⟨peer.publicKey,
      (call.arrange_perm _).mem_iff.mpr (Table.mem_keys.mpr ⟨peer, hheld⟩), hheld⟩

theorem applySeeds_reconciles (hfits : call.fits t = true) (hagree : t.Agree) :
    Reconciles t call (t.applySeeds call).2 := by
  cases hok : (Tunnels.prune call (call.stale t) t).1 with
  | false =>
      obtain ⟨hpruned, hgone, _⟩ := prune_stale hfits hagree
      have hfailed : t.applySeeds call = (none, (Tunnels.prune call (call.stale t) t).2) := by
        unfold Tunnels.applySeeds
        simp only [hok, Bool.false_eq_true, if_false]
      refine ⟨?_, ?_, ?_⟩
      · rw [hfailed]
        exact hpruned
      · rw [hfailed]
        exact hgone
      · rw [hfailed]
        exact fun hnone => absurd rfl hnone
  | true =>
      obtain ⟨hend, hcalls, hexact⟩ :=
        install_listed (!(call.stale t).isEmpty) hfits hagree hok rfl
      by_cases hchanged : (Tunnels.install call (!(call.stale t).isEmpty) call.listed
          (Tunnels.prune call (call.stale t) t).2).1 = some true
      · have hdone : t.applySeeds call = (some true,
            (Tunnels.install call (!(call.stale t).isEmpty) call.listed
              (Tunnels.prune call (call.stale t) t).2).2.configureRouting call) := by
          unfold Tunnels.applySeeds
          simp only [hok, hchanged, if_true]
        have hwanted := hexact (by rw [hchanged]; exact Option.some_ne_none true)
        rw [hdone]
        refine ⟨⟨hend.same, hend.keyed⟩, hcalls.trans (.one rfl fun peer => ?_), fun _ pubkey => ?_⟩
        · rw [mem_routed hend, hwanted]
        · exact (hend.same pubkey).trans (hwanted pubkey)
      · have hdone : t.applySeeds call = Tunnels.install call (!(call.stale t).isEmpty) call.listed
            (Tunnels.prune call (call.stale t) t).2 := by
          unfold Tunnels.applySeeds
          simp only [hok, hchanged, if_true, if_false]
        rw [hdone]
        refine ⟨hend, hcalls, fun hfine pubkey => ?_⟩
        rw [hdone] at hfine
        exact (hend.same pubkey).trans (hexact hfine pubkey)

theorem Tunnels.agree_empty : Tunnels.Agree {} where
  same := fun _ => rfl
  keyed := fun _ _ hnone => by cases hnone

end

/-- In a run whose calls all fit, each keeps the map in step with the backend, and brings about
exactly what the seeds say where it goes well. -/
theorem calls_reconcile (calls : List SeedsCall)
    (hfits : meets Tunnels.step (fun t call => call.fits t) {} calls = true) :
    AtEach Tunnels.step {} calls Reconciles := by
  refine AtEach.of_meets Tunnels.Agree hfits Tunnels.agree_empty ?_ ?_
  · rintro t call _ hagree hfits ⟨⟩
    exact (applySeeds_reconciles hfits hagree).agree
  · rintro t call _ hagree hfits ⟨⟩
    exact applySeeds_reconciles hfits hagree

/-- A co-member, reached at one port or another. -/
def seededAt (port : BitVec 16) : SeedPeer :=
  { gamer 9 5 "acme" with endpoint := some ⟨.v4 3, port⟩ }

/-- It moves, and leaves. -/
def moves : List SeedsCall :=
  [{ seeds := [seededAt 1] }, { seeds := [seededAt 2] }, { seeds := [] }]

theorem calls_reconcile_moves : AtEach Tunnels.step {} moves Reconciles :=
  calls_reconcile moves (by decide)

/-- The backend refuses it at its second place, and it is back at its first. -/
def refusals : List SeedsCall :=
  [{ seeds := [seededAt 1] }, { seeds := [seededAt 2], setting := fun _ => .refused }]

/-- A co-member of two networks, with a shim for the one, and an address in the other. -/
def shimmed : SeedsCall where
  seeds := [gamer 9 5 "acme", seededAt 1]
  eps := { ice := (∅ : Table PubKey SocketAddr).insert 9 ⟨.v4 127, 6⟩ }

/-- The call has nothing to do for a co-member that is not installed; and a shim is taken where
there is an advertised address. -/
theorem refused_peer_gone :
    ¬ AtEach Tunnels.step {} (refusals ++ [{ seeds := [seededAt 1] }]) Reconciles ∧
      ¬ AtEach Tunnels.step {} [shimmed] Reconciles := by
  constructor
  · intro hall
    have hplay : (runs Tunnels.step {} refusals).any (fun t =>
        (t.applySeeds { seeds := [seededAt 1] }).1 = some false ∧
          (t.applySeeds { seeds := [seededAt 1] }).2.installed.get? 9 = none ∧
            wanted {} [seededAt 1] 9 ≠ none) = true := by
      decide
    obtain ⟨t, hrun, hend⟩ := (Option.any_eq_true _ _).mp hplay
    obtain ⟨hfine, hgone, hwanted⟩ := of_decide_eq_true hend
    have hlast := hall refusals _ t _ (List.prefix_refl _) hrun rfl
    refine hwanted ((hlast.exact ?_ 9).symm.trans hgone)
    rw [hfine]
    exact Option.some_ne_none false
  · intro hall
    have hplay : (Tunnels.applySeeds {} shimmed).1 = some true ∧
        (Tunnels.applySeeds {} shimmed).2.installed.get? 9 ≠
          wanted shimmed.eps shimmed.seeds 9 := by
      decide
    obtain ⟨hfine, hother⟩ := hplay
    have hfirst := hall [] _ {} _ (List.prefix_refl _) rfl rfl
    refine hother (hfirst.exact ?_ 9)
    rw [hfine]
    exact Option.some_ne_none true

end UnityLan.Engine
