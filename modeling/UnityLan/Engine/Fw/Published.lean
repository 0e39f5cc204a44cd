import UnityLan.Engine.Fw.Presence
import UnityLan.Engine.Fw.Refusals
import UnityLan.Foundation.Runs

namespace UnityLan.Engine.Fw

open UnityLan.Foundation

/-! The routes that the status publishes, and the firewall they are made of. -/

structure Published where
  localnet : LocalNet := {}
  fw : Firewall := {}
  /-- The device that the status tells of. -/
  device : Option SelfDevice := none
  routes : List ProxyRoute := []

inductive PublishedEvent
  /-- `apply_state`. -/
  | passed (device : Option SelfDevice) (seeds : List SeedPeer) (faults : Faults)
  /-- The owner changes what is chosen on this device. -/
  | chosen (localnet : LocalNet)
  /-- A request to expose or unexpose. -/
  | called (call : FirewallCall) (faults : Faults)

namespace Published

variable (p : Published)

def chosenFor (device : Option SelfDevice) : LocalNet :=
  device.elim p.localnet fun dev =>
    p.localnet.reconcileNew (dev.networksStatus.map fun net => (net.guildId, net.roleId))

def peersFor (device : Option SelfDevice) (seeds : List SeedPeer) : PeerSets :=
  let localnet := p.chosenFor device
  let active := device.elim [] fun dev =>
    if localnet.paused then [] else filterActive seeds localnet dev.networksStatus
  peerSets active (device.map SelfDevice.userId)

/-- A pass makes the routes before it hands the peer sets to the firewall; a firewall that fails
to take them ends it. -/
def pass (device : Option SelfDevice) (seeds : List SeedPeer) (faults : Faults) :
    Option Published :=
  if device.isSome && p.fw.poisoned then none
  else
    match (updatePeers (p.peersFor device seeds)).run (Firewall.alone faults) p.fw with
    | (.error _, _) => none
    | (.ok _, fw) =>
        some
          { localnet := p.chosenFor device
            fw := fw
            device := device <|> p.device
            routes := device.elim p.routes fun dev =>
              webRoutes dev.username dev.dnsDomain p.fw.meshAddr p.fw.served }

def step : PublishedEvent → Option Published
  | .passed device seeds faults => p.pass device seeds faults
  | .chosen localnet => some { p with localnet := localnet }
  | .called call faults =>
      if call.changesExposures then
        some { p with fw := (call.program.run (Firewall.alone faults) p.fw).2 }
      else none

/-- The routes are those of the firewall as it is. -/
def Current : Prop :=
  p.routes = p.device.elim [] fun dev =>
    webRoutes dev.username dev.dnsDomain p.fw.meshAddr p.fw.served

/-- No step changes what is served, or to whom. -/
def fits : PublishedEvent → Bool
  | .passed device seeds _ =>
      { p.fw with peers := p.peersFor device seeds }.served == p.fw.served
  | .chosen _ => true
  | .called call _ => { p.fw with exposed := call.edit p.fw.exposed }.served == p.fw.served

end Published

/-! What a call leaves as it is. -/

section

variable {faults : Faults} {fw : Firewall} {call : FirewallCall} {o : FirewallOp}

abbrev Inert {α : Type} (program : FirewallM α) : Prop :=
  program.Uses fun o : FirewallOp => o.changes = none

theorem Inert.exposed {α : Type} {program : FirewallM α} (hinert : Inert program)
    (faults : Faults) (fw : Firewall) : (program.run (Firewall.alone faults) fw).2.exposed =
      fw.exposed := by
  have hother : ∀ o : FirewallOp, o.changes = none → o.changes ≠ some .exposures :=
    fun o hnone hsome => nomatch hnone.symm.trans hsome
  exact Firewall.run_keeps hinert hother fw

theorem run_then {α β : Type} {program : FirewallM α} {f : α → FirewallM β}
    (hrest : ∀ value, Inert (f value)) :
    ((program >>= f).run (Firewall.alone faults) fw).2.exposed =
      (program.run (Firewall.alone faults) fw).2.exposed := by
  rw [Prog.run_bind]
  split
  · rename_i value after hrun
    rw [hrun]
    exact (hrest value).exposed faults after
  · rename_i error after hrun
    rw [hrun]

theorem run_after {α β : Type} {program : FirewallM α} {f : α → FirewallM β}
    {edit : List Exposed → List Exposed} (hfirst : Inert program)
    (hrest : ∀ value (fw : Firewall),
      ((f value).run (Firewall.alone faults) fw).2.exposed = fw.exposed ∨
        ((f value).run (Firewall.alone faults) fw).2.exposed = edit fw.exposed) :
    ((program >>= f).run (Firewall.alone faults) fw).2.exposed = fw.exposed ∨
      ((program >>= f).run (Firewall.alone faults) fw).2.exposed = edit fw.exposed := by
  have hsame := hfirst.exposed faults fw
  rw [Prog.run_bind]
  split
  · rename_i value after hrun
    rw [hrun] at hsame
    rw [← hsame]
    exact hrest value after
  · rename_i error after hrun
    rw [hrun] at hsame
    exact .inl hsame

theorem inert_persist : Inert persist :=
  uses_step rfl fun _ => uses_ask rfl

theorem inert_reconcile : Inert reconcile :=
  uses_reconcile (fun _ => rfl) fun _ => rfl

theorem inert_install {α : Type} {rest : FirewallM α} (hrest : Inert rest) :
    Inert (persist >>= fun _ => reconcile >>= fun _ => rest) :=
  inert_persist.bind fun _ => inert_reconcile.bind fun _ => hrest

theorem inert_settle (changed : Nat) : Inert (settle changed) := by
  have hlast : Inert (do let exposed ← ask .list; return (changed, exposed) :
      FirewallM (Nat × List ExposedPort)) :=
    uses_step rfl fun _ => trivial
  unfold settle
  dsimp only
  split
  · exact inert_install hlast
  · exact hlast

theorem inert_admitName (name : String) : Inert (admitName name) := by
  unfold admitName
  dsimp only
  split
  · trivial
  · refine uses_step rfl fun distinct => ?_
    split
    · trivial
    · trivial

theorem run_section_exposed {α : Type} {f : o.Answer → FirewallM α} {answer : Firewall → o.Answer}
    {edit : List Exposed → List Exposed} (hrest : ∀ value, Inert (f value))
    (hexec : ∀ fw : Firewall,
      fw.exec faults o = fw.underLock (answer fw) { fw with exposed := edit fw.exposed }) :
    ((ask o >>= f).run (Firewall.alone faults) fw).2.exposed = fw.exposed ∨
      ((ask o >>= f).run (Firewall.alone faults) fw).2.exposed = edit fw.exposed := by
  rw [run_then hrest, Firewall.run_ask, hexec]
  rcases Firewall.underLock_cases (Prod.eta (fw.underLock (answer fw) _)).symm with
    ⟨_, hsame⟩ | ⟨_, _, hsame⟩
  · exact .inl (congrArg Firewall.exposed hsame)
  · exact .inr (congrArg Firewall.exposed hsame)

theorem inert_map {α β : Type} (f : α → β) (value : α) :
    Inert (Prog.ret (f value) : FirewallM β) := trivial

theorem call_exposed (fw : Firewall) (faults : Faults) (hchanges : call.changesExposures = true) :
    (call.program.run (Firewall.alone faults) fw).2.exposed = fw.exposed ∨
      (call.program.run (Firewall.alone faults) fw).2.exposed = call.edit fw.exposed := by
  cases call with
  | expose proto port scope name kind =>
      refine (run_then (inert_map _)).symm ▸ ?_
      refine run_after (inert_admitName _) fun _ _ => ?_
      exact run_section_exposed (fun _ => inert_install (uses_ask rfl)) fun _ => rfl
  | unexpose proto port scope =>
      refine (run_then (inert_map _)).symm ▸ ?_
      exact run_section_exposed (fun _ => inert_install (uses_ask rfl)) fun _ => rfl
  | exposeNamedScope name scope =>
      refine (run_then (inert_map _)).symm ▸ ?_
      exact run_section_exposed inert_settle fun _ => rfl
  | unexposeNamed name =>
      refine (run_then (inert_map _)).symm ▸ ?_
      refine run_after (uses_ask rfl) fun _ _ => ?_
      exact run_section_exposed (fun _ => uses_step rfl inert_settle) fun _ => rfl
  | updatePeers peers => cases hchanges
  | setMeshAddr addr => cases hchanges

theorem served_of_same (fw : Firewall) {fw' : Firewall} (hexposed : fw'.exposed = fw.exposed)
    (hpeers : fw'.peers = fw.peers) : fw'.served = fw.served := by
  unfold Firewall.served
  rw [hexposed, hpeers]

theorem call_served (faults : Faults) (hchanges : call.changesExposures = true)
    (hfits : { fw with exposed := call.edit fw.exposed }.served = fw.served) :
    (call.program.run (Firewall.alone faults) fw).2.served = fw.served ∧
      (call.program.run (Firewall.alone faults) fw).2.meshAddr = fw.meshAddr := by
  have hkeeps : ∀ input, call.changes ≠ input →
      (call.program.run (Firewall.alone faults) fw).2.value input = fw.value input :=
    fun input hother => Firewall.run_keeps call.asks_program
      (fun _ hasks => hasks.changes hother) fw
  have hown : call.changes = .exposures := by
    cases call with
    | updatePeers peers => cases hchanges
    | setMeshAddr addr => cases hchanges
    | _ => rfl
  have hpeers := hkeeps .peers (by rw [hown]; nofun)
  refine ⟨?_, hkeeps .mesh (by rw [hown]; nofun)⟩
  rcases call_exposed fw faults hchanges with hexposed | hexposed
  · exact served_of_same fw hexposed hpeers
  · exact (served_of_same { fw with exposed := call.edit fw.exposed } hexposed hpeers).trans
      hfits

theorem updatePeers_ok {peers : PeerSets} {fw' : Firewall} {changed : Bool}
    (hrun : (updatePeers peers).run (Firewall.alone faults) fw = (.ok changed, fw')) :
    fw'.peers = peers ∧ fw'.exposed = fw.exposed ∧ fw'.meshAddr = fw.meshAddr := by
  have hkeeps : ∀ input, Input.peers ≠ input →
      ((updatePeers peers).run (Firewall.alone faults) fw).2.value input = fw.value input := by
    intro input hother
    have huses : (updatePeers peers).Uses fun o : FirewallOp => o.changes ≠ some input := by
      refine uses_step nofun fun same => ?_
      cases same with
      | true => trivial
      | false =>
          refine uses_step nofun fun _ => uses_step ?_ fun _ => ?_
          · exact fun hsome => hother (Option.some.inj hsome)
          · exact (uses_reconcile (fun _ => nofun) fun _ => nofun).bind fun _ => trivial
    exact Firewall.run_keeps huses (fun _ hsome => hsome) fw
  have hexposed := hkeeps .exposures nofun
  have hmesh := hkeeps .mesh nofun
  rw [hrun] at hexposed hmesh
  refine ⟨?_, hexposed, hmesh⟩
  obtain ⟨same, first, hsame, hrun⟩ := Prog.run_bind_ok hrun
  rw [Firewall.run_ask] at hsame
  cases hsame
  by_cases heq : fw.peers = peers
  · rw [beq_iff_eq.mpr heq] at hrun
    cases hrun
    exact heq
  · rw [beq_false_of_ne heq] at hrun
    obtain ⟨_, second, hread, hrun⟩ := Prog.run_bind_ok hrun
    obtain ⟨_, third, hput, hrun⟩ := Prog.run_bind_ok hrun
    obtain ⟨_, last, hreconcile, hrun⟩ := Prog.run_bind_ok hrun
    cases hrun
    rw [Firewall.run_ask] at hput
    cases hput
    have hother : ∀ o : FirewallOp, o.changes = none → o.changes ≠ some .peers :=
      fun o hnone hsome => nomatch hnone.symm.trans hsome
    have hkept : ((reconcile.run (Firewall.alone faults)) { second with peers := peers }).2.peers =
        peers := Firewall.run_keeps inert_reconcile hother { second with peers := peers }
    rw [hreconcile] at hkept
    exact hkept

end

section

variable {p p' : Published} {event : PublishedEvent}

theorem Published.Current.step (hcurrent : p.Current) (hfits : p.fits event = true)
    (hstep : p.step event = some p') : p'.Current := by
  unfold Published.Current at hcurrent ⊢
  cases event with
  | passed device seeds faults =>
      have hfits := eq_of_beq hfits
      change p.pass device seeds faults = some p' at hstep
      unfold Published.pass at hstep
      split at hstep
      · cases hstep
      split at hstep
      · cases hstep
      rename_i changed fw hrun
      cases hstep
      obtain ⟨hpeers, hexposed, hmesh⟩ := updatePeers_ok hrun
      have hserved : fw.served = p.fw.served :=
        (served_of_same { p.fw with peers := p.peersFor device seeds } hexposed
          hpeers).trans hfits
      dsimp only
      rw [hserved, hmesh]
      cases device with
      | none => exact hcurrent
      | some dev => rfl
  | chosen localnet =>
      cases hstep
      exact hcurrent
  | called call faults =>
      obtain ⟨hchanges, hstep⟩ := Option.ite_none_right_eq_some.mp hstep
      cases hstep
      obtain ⟨hserved, hmesh⟩ := call_served faults hchanges (eq_of_beq hfits)
      dsimp only
      rw [hserved, hmesh]
      exact hcurrent

/-- In a run no step of which changes what is served or to whom, the routes that are published are
those of the firewall. -/
theorem published_current (localnet : LocalNet) (fw : Firewall) (events : List PublishedEvent)
    (hfits : meets Published.step Published.fits { localnet := localnet, fw := fw } events = true) :
    AtEach Published.step { localnet := localnet, fw := fw } events
      (fun _ _ p => p.Current) := by
  have hall : Throughout Published.step { localnet := localnet, fw := fw } events
      Published.Current :=
    Throughout.of_step Published.Current hfits rfl
      (fun _ _ _ hcurrent hfits hstep => hcurrent.step hfits hstep) fun _ hcurrent => hcurrent
  intro before event p p' hinit hrun hstep
  refine hall (before ++ [event]) p' hinit ?_
  rw [runs_snoc, hrun]
  exact hstep

def gamePage : Exposed :=
  ⟨.tcp, 8080, .net 5 1, some "page", .web⟩

theorem published_current_idle :
    AtEach Published.step { localnet := {}, fw := { exposed := [gamePage] } }
      [.passed (some player) [] {}, .chosen { paused := true }, .passed (some player) [] {}]
      (fun _ _ p => p.Current) :=
  published_current {} { exposed := [gamePage] } _ (by decide)

/-- A member joins, is blocked, and the page is closed. -/
def blockedAndClosed : List PublishedEvent :=
  [.passed (some player) [gamer 9 5 "acme"] {}, .passed (some player) [gamer 9 5 "acme"] {},
    .chosen { blocked := Table.insert ∅ 2 "bob" }, .passed (some player) [gamer 9 5 "acme"] {},
    .called (.unexpose .tcp 8080 .all) {}]

/-- The firewall admits the member no more and serves nothing, and the route still allows it. -/
theorem published_blocked_closed :
    ∃ p, runs Published.step { fw := { exposed := [gamePage] } } blockedAndClosed = some p ∧
      p.fw.exposed = [] ∧ p.fw.peers = {} ∧ p.routes.map ProxyRoute.allow = [some [9]] ∧
      ¬ AtEach Published.step { fw := { exposed := [gamePage] } } blockedAndClosed
        (fun _ _ p => p.Current) := by
  have hplay : (runs Published.step { fw := { exposed := [gamePage] } } blockedAndClosed).any
      (fun p => p.fw.exposed = [] ∧ p.fw.peers = {} ∧
        p.routes.map ProxyRoute.allow = [some [9]]) = true := by
    decide
  obtain ⟨p, hrun, hend⟩ := (Option.any_eq_true _ _).mp hplay
  obtain ⟨hexposed, hpeers, hroutes⟩ := of_decide_eq_true hend
  refine ⟨p, hrun, hexposed, hpeers, hroutes, fun hall => ?_⟩
  have hclosed : blockedAndClosed =
      blockedAndClosed.take 4 ++ [.called (.unexpose .tcp 8080 .all) {}] := rfl
  rw [hclosed, runs_snoc] at hrun
  obtain ⟨before, hbefore, hlast⟩ := Option.bind_eq_some_iff.mp hrun
  have hcurrent : p.Current :=
    hall (blockedAndClosed.take 4) _ before p (List.prefix_refl blockedAndClosed) hbefore hlast
  have hserved : p.fw.served = [] := by simp [Firewall.served, hexposed]
  unfold Published.Current at hcurrent
  rw [hserved] at hcurrent
  rw [hcurrent] at hroutes
  cases hdevice : p.device with
  | none => simp [hdevice] at hroutes
  | some dev => simp [hdevice, webRoutes] at hroutes

end

end UnityLan.Engine.Fw
