import UnityLan.Engine.MeshServices
import UnityLan.Engine.Status

namespace UnityLan.Engine.Control

open UnityLan.Foundation Cert Fw

/-! The services that are shown of each peer. -/

/-- What else a rebuild is called with. -/
structure Outside where
  peerOwnDevices : Bool := true
  coordinatorOnline : Bool := true
  proxyRoutes : List ProxyRoute := []
  engineVersion : String := ""

/-- The mesh loop, with the report that it keeps. -/
structure Screen where
  loop : Loop
  report : StatusReport := {}
  outside : Outside := {}
  /-- The peers whose claims were resolved last. -/
  seeds : List SeedPeer := []

def shownAs (resolved : Resolved) (claim : Claim) : PeerService where
  name := claim.name
  hostname := claim.hostname
  proto := claim.proto
  port := claim.port
  kind := claim.kind
  shadowed := resolved.shadowed.contains (claim.pubkey, claim.name)

def peerServices (claims : List Claim) (resolved : Resolved) (ip : Ipv4Addr) :
    Option (List PeerService) :=
  match (claims.filter fun claim => claim.ip == ip).map (shownAs resolved) with
  | [] => none
  | services => some services

def announced (book : ServiceBook) (pubkey : PubKey) : List MeshService :=
  (book.get? pubkey).elim [] Entry.services

def shownServices (book : ServiceBook) (resolved : Resolved) (s : SeedPeer) : List PeerService :=
  ((announced book s.pubkey).map (claim s.pubkey s.username s.ip)).map (shownAs resolved)

namespace Screen

variable (screen : Screen)

def args : UpdateArgs where
  device := screen.loop.device
  seeds := screen.loop.shown
  disabled := screen.loop.localnet.disabled
  blocked := screen.loop.localnet.blocked
  connected := !screen.loop.localnet.paused
  disableNewNetworks := screen.loop.localnet.disableNew
  peerOwnDevices := screen.outside.peerOwnDevices
  coordinatorOnline := screen.outside.coordinatorOnline
  proxyRoutes := screen.outside.proxyRoutes
  engineVersion := screen.outside.engineVersion

/-- `resolve_services`, and `set_services` with what it comes to. -/
def overlaid (seeds : List SeedPeer) : Screen :=
  let resolved := resolve (screen.loop.claimsOf seeds) (deviceNames screen.loop.device seeds)
  { screen with
    seeds := seeds
    report := Setter.apply screen.report
      (.services (peerServices (peerClaims seeds screen.loop.book) resolved)) }

def rebuilt : Screen :=
  { screen with report := update screen.args screen.report }

def applied (own : List MeshService) : Screen :=
  ({ screen with loop := screen.loop.applyState own } : Screen).rebuilt.overlaid
    (screen.loop.applyState own).shown

def gossiped (tick : Tick) : Screen :=
  let seeds := screen.loop.renewed tick
  let alive := seeds.filter fun seed => decide (tick.now < seed.expiresAt)
  let screen := { screen with loop := { screen.loop with seeds := alive } }
  if alive.length ≠ seeds.length then screen.applied tick.own else screen

def ticked (tick : Tick) : Screen :=
  let screen := if tick.gossip then screen.gossiped tick else screen
  let loop := { screen.loop with book := screen.loop.polled tick, own := tick.own }
  { ({ screen with loop := loop } : Screen).overlaid screen.loop.seeds with
    loop := { loop.named screen.loop.seeds with selecting := true } }

def passed : Screen :=
  { screen with loop := { screen.loop with selecting := false } }

def step : LoopEvent → Option Screen
  | .toggled localnet persisted =>
      some { screen with
        loop := { screen.loop with
          localnet := localnet, waiting := screen.loop.waiting || persisted } }
  | .ticked tick => if screen.loop.selecting then none else some (screen.ticked tick)
  | .woken arm =>
      if screen.loop.selecting && screen.loop.waiting then
        some (({ screen with
          loop := ({ screen.loop with waiting := false } : Loop).sync arm } : Screen).applied
            arm.own).passed
      else none
  | .rechecked arm changed =>
      if screen.loop.selecting then
        let screen := { screen with loop := screen.loop.resynced arm }
        some (if changed then screen.applied arm.own else screen).passed
      else none
  | .refreshed grant seeds arm =>
      if screen.loop.selecting then
        some (({ screen with loop := (screen.loop.merged grant seeds).sync arm } : Screen).applied
          arm.own).passed
      else none
  | .failed => if screen.loop.selecting then some screen.passed else none

/-- The loop is entered, and no peer is shown yet. -/
def entered (iceEnabled : Bool) (myPubkey : PubKey) (localnet : LocalNet) (device : SelfDevice)
    (seeds : List SeedPeer) (arm : Arm) (report : StatusReport) (outside : Outside) : Screen :=
  ({ loop := ({ iceEnabled, myPubkey, localnet, device, seeds } : Loop).syncRelays arm
     report := { report with peers := [] }
     outside } : Screen).applied arm.own

def resolved : Resolved :=
  resolve (screen.loop.claimsOf screen.seeds) (deviceNames screen.loop.device screen.seeds)

/-- Each peer is shown with what it announced, and what of it is shadowed. -/
structure Shows : Prop where
  services : ∀ s ∈ screen.seeds, ∀ row ∈ screen.report.peers, row.wgIp = s.ip →
    row.services = shownServices screen.loop.book screen.resolved s
  shadowed : ∀ c ∈ peerClaims screen.seeds screen.loop.book,
    (shownAs screen.resolved c).shadowed = true ↔
      c.Shadowed (deviceNames screen.loop.device screen.seeds)
        (screen.loop.claimsOf screen.seeds)

/-- The peers have addresses of their own, no owner claims a name twice, and whoever announces
nothing announced nothing before, and takes over no address that services are shown at. -/
structure Steady (next : Screen) : Prop where
  apart : (next.seeds.map SeedPeer.ip).Nodup
  once : ClaimedOnce (deviceNames next.loop.device next.seeds) (next.loop.claimsOf next.seeds)
  silent : ∀ s ∈ next.seeds, announced next.loop.book s.pubkey = [] →
    announced screen.loop.book s.pubkey = [] ∧
      ∀ row ∈ screen.report.peers, row.wgIp = s.ip → row.services = []

end Screen

/-! What a pass makes of the rows. -/

theorem peerClaims_at {seeds : List SeedPeer} {book : ServiceBook} {s : SeedPeer}
    (happart : (seeds.map SeedPeer.ip).Nodup) (hmem : s ∈ seeds) :
    ((peerClaims seeds book).filter fun c => c.ip == s.ip) =
      (announced book s.pubkey).map (claim s.pubkey s.username s.ip) := by
  have heach : ∀ other : SeedPeer,
      (((announced book other.pubkey).map (claim other.pubkey other.username other.ip)).filter
        fun c => c.ip == s.ip) =
      if other.ip = s.ip then
        (announced book other.pubkey).map (claim other.pubkey other.username other.ip)
      else [] := by
    intro other
    split
    · rename_i hsame
      apply List.filter_eq_self.mpr
      intro c hc
      obtain ⟨service, -, rfl⟩ := List.mem_map.mp hc
      exact beq_iff_eq.mpr hsame
    · rename_i hother
      apply List.filter_eq_nil_iff.mpr
      intro c hc
      obtain ⟨service, -, rfl⟩ := List.mem_map.mp hc
      exact fun hsame => hother (beq_iff_eq.mp hsame)
  induction seeds with
  | nil => exact absurd hmem List.not_mem_nil
  | cons first rest ih =>
      rw [List.map_cons, List.nodup_cons] at happart
      have hcons : peerClaims (first :: rest) book =
          (announced book first.pubkey).map (claim first.pubkey first.username first.ip) ++
            peerClaims rest book := rfl
      rw [hcons, List.filter_append, heach]
      rcases List.mem_cons.mp hmem with rfl | hlater
      · have hnone : ((peerClaims rest book).filter fun c => c.ip == s.ip) = [] := by
          apply List.filter_eq_nil_iff.mpr
          intro c hc hsame
          obtain ⟨other, hother, hc⟩ := List.mem_flatMap.mp hc
          obtain ⟨service, -, rfl⟩ := List.mem_map.mp hc
          exact happart.1 (List.mem_map.mpr ⟨other, hother, beq_iff_eq.mp hsame⟩)
        rw [if_pos rfl, hnone, List.append_nil]
      · have hother : first.ip ≠ s.ip :=
          fun hsame => happart.1 (List.mem_map.mpr ⟨s, hlater, hsame.symm⟩)
        rw [if_neg hother, List.nil_append, ih happart.2 hlater]

section

variable {screen : Screen} {seeds : List SeedPeer} {s : SeedPeer} {row : PeerStatus}

theorem peerServices_silent {claims : List Claim} {resolved : Resolved} {ip : Ipv4Addr}
    (hnone : (claims.filter fun c => c.ip == ip) = []) : peerServices claims resolved ip = none := by
  unfold peerServices
  rw [hnone]
  rfl

theorem peerServices_some {claims : List Claim} {resolved : Resolved} {ip : Ipv4Addr}
    (hsome : (claims.filter fun c => c.ip == ip) ≠ []) :
    peerServices claims resolved ip =
      some ((claims.filter fun c => c.ip == ip).map (shownAs resolved)) := by
  unfold peerServices
  split
  · rename_i hnone
    exact absurd (List.map_eq_nil_iff.mp hnone) hsome
  · rfl

theorem overlaid_services (happart : (seeds.map SeedPeer.ip).Nodup)
    (hsilent : ∀ s ∈ seeds, announced screen.loop.book s.pubkey = [] →
      ∀ row ∈ screen.report.peers, row.wgIp = s.ip → row.services = [])
    (hmem : s ∈ seeds) (hrow : row ∈ (screen.overlaid seeds).report.peers)
    (hip : row.wgIp = s.ip) :
    row.services = shownServices screen.loop.book (screen.overlaid seeds).resolved s := by
  obtain ⟨before, hbefore, rfl⟩ := List.mem_map.mp hrow
  rw [withServices_wgIp] at hip
  have hclaims := @peerClaims_at seeds screen.loop.book s happart hmem
  unfold PeerStatus.withServices
  rw [hip]
  by_cases hnone : announced screen.loop.book s.pubkey = []
  · rw [hnone] at hclaims
    rw [peerServices_silent hclaims, shownServices, hnone]
    exact hsilent s hmem hnone before hbefore hip
  · have hsome : ((peerClaims seeds screen.loop.book).filter fun c => c.ip == s.ip) ≠ [] := by
      rw [hclaims]
      exact fun hempty => hnone (List.map_eq_nil_iff.mp hempty)
    rw [peerServices_some hsome, hclaims]
    rfl

theorem overlaid_shows (happart : (seeds.map SeedPeer.ip).Nodup)
    (honce : ClaimedOnce (deviceNames screen.loop.device seeds) (screen.loop.claimsOf seeds))
    (hsilent : ∀ s ∈ seeds, announced screen.loop.book s.pubkey = [] →
      ∀ row ∈ screen.report.peers, row.wgIp = s.ip → row.services = []) :
    (screen.overlaid seeds).Shows := by
  refine ⟨fun s hmem row hrow hip =>
    @overlaid_services screen seeds s row happart hsilent hmem hrow hip, ?_⟩
  intro c _
  have hawards := awards_of_claimedOnce honce
  exact List.contains_iff_mem.trans (hawards.shadowed c.label)

theorem rebuilt_silent {ip : Ipv4Addr}
    (hsilent : ∀ row ∈ screen.report.peers, row.wgIp = ip → row.services = []) :
    ∀ row ∈ screen.rebuilt.report.peers, row.wgIp = ip → row.services = [] := by
  intro row hrow hip
  obtain ⟨seed, -, rfl⟩ := List.mem_map.mp hrow
  rw [rebuildPeer_wgIp] at hip
  unfold rebuildPeer
  dsimp only
  cases hlive : (Overlay.of screen.report).live seed.ip with
  | none => rfl
  | some held =>
      unfold Overlay.live at hlive
      have hfound : (held.wgIp == seed.ip) = true :=
        List.find?_some (p := fun p : PeerStatus => p.wgIp == seed.ip) hlive
      have hsame := beq_iff_eq.mp hfound
      have hheld := List.mem_reverse.mp (List.mem_of_find?_eq_some hlive)
      exact hsilent held hheld (hsame.trans hip)

theorem applied_shows {own : List MeshService}
    (happart : ((screen.applied own).seeds.map SeedPeer.ip).Nodup)
    (honce : ClaimedOnce (deviceNames (screen.applied own).loop.device (screen.applied own).seeds)
      ((screen.applied own).loop.claimsOf (screen.applied own).seeds))
    (hsilent : ∀ s ∈ (screen.applied own).seeds,
      announced (screen.applied own).loop.book s.pubkey = [] →
        ∀ row ∈ screen.report.peers, row.wgIp = s.ip → row.services = []) :
    (screen.applied own).Shows :=
  overlaid_shows happart honce fun s hmem hnone =>
    @rebuilt_silent { screen with loop := screen.loop.applyState own } s.ip
      (hsilent s hmem hnone)

theorem applied_silent {own : List MeshService}
    (happart : (screen.loop.seeds.map SeedPeer.ip).Nodup) (hmem : s ∈ screen.loop.seeds)
    (hnone : announced screen.loop.book s.pubkey = [])
    (hsilent : ∀ row ∈ screen.report.peers, row.wgIp = s.ip → row.services = []) :
    ∀ row ∈ (screen.applied own).report.peers, row.wgIp = s.ip → row.services = [] := by
  intro row hrow hip
  obtain ⟨before, hbefore, rfl⟩ := List.mem_map.mp hrow
  rw [withServices_wgIp] at hip
  have hnobody : ((peerClaims (screen.loop.applyState own).shown
      (screen.loop.applyState own).book).filter fun c => c.ip == s.ip) = [] := by
    apply List.filter_eq_nil_iff.mpr
    intro c hc hsame
    obtain ⟨other, hother, hc⟩ := List.mem_flatMap.mp hc
    obtain ⟨service, hservice, rfl⟩ := List.mem_map.mp hc
    have hknown : other ∈ screen.loop.seeds := (@mem_kept screen.loop.noticed other hother).1
    have hsole : other = s :=
      List.inj_on_of_nodup_map happart hknown hmem (beq_iff_eq.mp hsame)
    subst hsole
    have hretained : announced (screen.loop.applyState own).book other.pubkey = [] := by
      have hget : (screen.loop.applyState own).book.get? other.pubkey =
          (screen.loop.book.retainPeers
            (screen.loop.noticed.kept.map SeedPeer.pubkey)).get? other.pubkey := rfl
      unfold announced at hnone ⊢
      rw [hget, ServiceBook.retainPeers, Table.get?_retain]
      cases hheld : screen.loop.book.get? other.pubkey with
      | none => rfl
      | some entry =>
          rw [hheld] at hnone
          rw [Option.filter_some]
          split
          · exact hnone
          · rfl
    unfold announced at hretained
    rw [hretained] at hservice
    exact absurd hservice List.not_mem_nil
  have hsame : before.withServices (peerServices (peerClaims (screen.loop.applyState own).shown
      (screen.loop.applyState own).book)
        (screen.applied own).resolved) = before := by
    unfold PeerStatus.withServices
    rw [hip, peerServices_silent hnobody]
  refine (congrArg PeerStatus.services hsame).trans ?_
  exact @rebuilt_silent { screen with loop := screen.loop.applyState own } s.ip hsilent
    before hbefore hip

theorem gossiped_silent {tick : Tick}
    (happart : ((screen.gossiped tick).loop.seeds.map SeedPeer.ip).Nodup)
    (hmem : s ∈ (screen.gossiped tick).loop.seeds)
    (hnone : announced screen.loop.book s.pubkey = [])
    (hsilent : ∀ row ∈ screen.report.peers, row.wgIp = s.ip → row.services = []) :
    ∀ row ∈ (screen.gossiped tick).report.peers, row.wgIp = s.ip → row.services = [] := by
  unfold Screen.gossiped at happart hmem ⊢
  dsimp only at happart hmem ⊢
  split at happart
  · rename_i hlapsed
    rw [if_pos hlapsed] at hmem ⊢
    exact applied_silent happart hmem hnone hsilent
  · rename_i hkept
    rw [if_neg hkept]
    exact hsilent

theorem ticked_shows {tick : Tick} (hsteady : screen.Steady (screen.ticked tick)) :
    (screen.ticked tick).Shows := by
  obtain ⟨happart, honce, hsilent⟩ := hsteady
  unfold Screen.ticked at happart honce hsilent ⊢
  cases hgossip : tick.gossip with
  | true =>
      simp only [hgossip, if_true] at happart honce hsilent ⊢
      have hshows := @overlaid_shows
        { screen.gossiped tick with
          loop := { (screen.gossiped tick).loop with
            book := (screen.gossiped tick).loop.polled tick, own := tick.own } }
        (screen.gossiped tick).loop.seeds happart honce fun s hmem hnone =>
          gossiped_silent happart hmem (hsilent s hmem hnone).1 (hsilent s hmem hnone).2
      exact ⟨hshows.services, hshows.shadowed⟩
  | false =>
      simp only [hgossip, Bool.false_eq_true, if_false] at happart honce hsilent ⊢
      have hshows := @overlaid_shows
        { screen with
          loop := { screen.loop with book := screen.loop.polled tick, own := tick.own } }
        screen.loop.seeds happart honce fun s hmem hnone => (hsilent s hmem hnone).2
      exact ⟨hshows.services, hshows.shadowed⟩

theorem step_shows {next : Screen} {event : LoopEvent} (hshows : screen.Shows)
    (hstep : screen.step event = some next) (hsteady : screen.Steady next) : next.Shows := by
  cases event with
  | toggled localnet persisted =>
      cases hstep
      exact ⟨hshows.services, hshows.shadowed⟩
  | ticked tick =>
      simp only [Screen.step] at hstep
      split at hstep
      · cases hstep
      · cases hstep
        exact ticked_shows hsteady
  | woken arm =>
      simp only [Screen.step] at hstep
      split at hstep
      · cases hstep
        have happlied := @applied_shows
          { screen with loop := ({ screen.loop with waiting := false } : Loop).sync arm } arm.own
          hsteady.apart hsteady.once fun s hmem hnone => (hsteady.silent s hmem hnone).2
        exact ⟨happlied.services, happlied.shadowed⟩
      · cases hstep
  | rechecked arm changed =>
      simp only [Screen.step] at hstep
      split at hstep
      · cases changed with
        | true =>
            cases hstep
            have happlied := @applied_shows { screen with loop := screen.loop.resynced arm } arm.own
              hsteady.apart hsteady.once fun s hmem hnone => (hsteady.silent s hmem hnone).2
            exact ⟨happlied.services, happlied.shadowed⟩
        | false =>
            cases hstep
            exact ⟨hshows.services, hshows.shadowed⟩
      · cases hstep
  | refreshed grant seeds arm =>
      simp only [Screen.step] at hstep
      split at hstep
      · cases hstep
        have happlied := @applied_shows
          { screen with loop := (screen.loop.merged grant seeds).sync arm } arm.own
          hsteady.apart hsteady.once fun s hmem hnone => (hsteady.silent s hmem hnone).2
        exact ⟨happlied.services, happlied.shadowed⟩
      · cases hstep
  | failed =>
      simp only [Screen.step] at hstep
      split at hstep
      · cases hstep
        exact ⟨hshows.services, hshows.shadowed⟩
      · cases hstep

theorem step_loop (event : LoopEvent) :
    (screen.step event).map Screen.loop = screen.loop.step event := by
  have hticked : ∀ tick : Tick, (screen.ticked tick).loop = screen.loop.ticked tick := by
    intro tick
    have hgossiped : (screen.gossiped tick).loop = screen.loop.gossiped tick := by
      unfold Screen.gossiped Loop.gossiped
      dsimp only
      split <;> rfl
    unfold Screen.ticked Loop.ticked
    cases tick.gossip with
    | true =>
        simp only [if_true, ← hgossiped]
    | false => rfl
  cases event with
  | toggled localnet persisted => rfl
  | ticked tick =>
      simp only [Screen.step, Loop.step]
      split
      · rfl
      · rw [Option.map_some, hticked]
  | woken arm =>
      simp only [Screen.step, Loop.step]
      split <;> rfl
  | rechecked arm changed =>
      simp only [Screen.step, Loop.step]
      split
      · cases changed <;> rfl
      · rfl
  | refreshed grant seeds arm =>
      simp only [Screen.step, Loop.step]
      split <;> rfl
  | failed =>
      simp only [Screen.step, Loop.step]
      split <;> rfl

theorem unheard_claims {book : ServiceBook} (hbook : ∀ pubkey, announced book pubkey = []) :
    peerClaims seeds book = [] := by
  apply List.flatMap_eq_nil_iff.mpr
  intro seed _
  have hnone := hbook seed.pubkey
  unfold announced at hnone
  rw [hnone]
  rfl

theorem entered_shows (iceEnabled : Bool) (myPubkey : PubKey) (localnet : LocalNet)
    (device : SelfDevice) (seeds : List SeedPeer) (arm : Arm) (report : StatusReport)
    (outside : Outside) :
    (Screen.entered iceEnabled myPubkey localnet device seeds arm report outside).Shows := by
  constructor
  · intro s _ row hrow _
    obtain ⟨before, hbefore, rfl⟩ := List.mem_map.mp hrow
    obtain ⟨seed, -, rfl⟩ := List.mem_map.mp hbefore
    unfold PeerStatus.withServices
    rw [peerServices_silent (by rw [unheard_claims fun _ => rfl]; rfl)]
    rfl
  · intro c hc
    have hnone : peerClaims (Screen.entered iceEnabled myPubkey localnet device seeds arm report
        outside).seeds (Screen.entered iceEnabled myPubkey localnet device seeds arm report
          outside).loop.book = [] :=
      unheard_claims fun _ => rfl
    rw [hnone] at hc
    exact absurd hc List.not_mem_nil

end

/-- A peer that serves a game. -/
def served : Screen :=
  Screen.entered false 1 {} player [visitor] {} {} {}

def serving (now : Nat) (services : List MeshService) : LoopEvent :=
  .ticked { now, answers := fun _ => some services }

end UnityLan.Engine.Control
