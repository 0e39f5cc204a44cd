import UnityLan.Engine.Status
import UnityLan.Engine.Tunnels

namespace UnityLan.Engine.Control

open UnityLan.Foundation Cert Fw

/-! What a pass over the peers makes of WireGuard's statistics.  Instants and durations are in
milliseconds. -/

def HANDSHAKE_FRESH : Nat := 180 * 1000

def BOOTSTRAP_STUCK_SECS : Nat := 15

def STUCK_AFTER_SECS : Nat := 30

structure PeerStat where
  endpoint : Option SocketAddr
  /-- How long ago the last handshake was, if there was one; one in the future has no age. -/
  lastHandshake : Option (Option Nat)
  rxBytes : Nat
  txBytes : Nat
  deriving DecidableEq

def classifyReach (punched connected : Bool) (attemptAgeSecs : Nat) : PeerReach :=
  if connected then .direct
  else if STUCK_AFTER_SECS ≤ attemptAgeSecs then .unreachable
  else if punched then .punching
  else .direct

/-! One peer. -/

structure PeerConn where
  attemptSince : Option Nat := none
  bootstrapSince : Option Nat := none
  last : Option (Bool × PeerReach) := none
  deriving DecidableEq

structure PeerStep where
  reach : PeerReach
  flipped : Option (Bool × PeerReach)
  bootstrapStuck : Bool
  deriving DecidableEq

namespace PeerConn

variable (conn : PeerConn)

def age (now : Nat) : Nat :=
  conn.attemptSince.elim 0 fun since => (now - since) / 1000

def bootstrapStuck (now : Nat) : Bool :=
  conn.bootstrapSince.any fun since => decide (BOOTSTRAP_STUCK_SECS ≤ (now - since) / 1000)

/-- The timers: of the attempt, while there is no connection, and of the bootstrap, while the peer
cannot be punched to either. -/
def timed (now : Nat) (connected unpunchable : Bool) : PeerConn :=
  { conn with
    attemptSince := if connected then none else some (conn.attemptSince.getD now)
    bootstrapSince :=
      if unpunchable && !connected then some (conn.bootstrapSince.getD now) else none }

def graded (now : Nat) (punched connected relaying icing : Bool) : PeerReach :=
  if relaying then .relayed
  else if icing then .ice
  else classifyReach punched connected (conn.age now)

def step (now : Nat) (punched connected unpunchable relaying icing : Bool) :
    PeerConn × PeerStep :=
  let timed := conn.timed now connected unpunchable
  let reach := timed.graded now punched connected relaying icing
  ({ timed with last := some (connected, reach) },
    { reach := reach
      flipped := conn.last.filter fun last => last.1 != connected || last.2 != reach
      bootstrapStuck := timed.bootstrapStuck now })

end PeerConn

/-! All peers. -/

/-- What one pass reads. -/
structure Pass where
  now : Nat
  /-- The statistics, where they could be read. -/
  stats : Option (Table PubKey PeerStat)
  peers : Table PubKey PeerConfig
  lastSeeds : List SeedPeer
  relaying : PubKey → Bool
  icing : PubKey → Bool
  iceEnabled : Bool
  latency : Ipv4Addr → Option Nat

/-- What is carried from pass to pass, and what the last one concluded. -/
structure Health where
  conns : Table PubKey PeerConn := ∅
  observed : List ObservedEndpoint := []
  wantRelay : List PubKey := []
  live : Table Ipv4Addr PeerLive := ∅

def IpAddr.isLoopback : IpAddr → Bool
  | .v4 ip => ip >>> 24 == 127
  | .v6 segments => segments == 1

namespace Pass

variable (pass : Pass)

def stat (pk : PubKey) : Option PeerStat :=
  pass.stats.bind fun stats => stats.get? pk

def lastHandshakeSecs (pk : PubKey) : Option Nat :=
  ((pass.stat pk).bind PeerStat.lastHandshake).bind fun age => age.map (· / 1000)

def connected (pk : PubKey) : Bool :=
  ((pass.stat pk).bind PeerStat.lastHandshake).any fun age =>
    age.all fun elapsed => decide (elapsed < HANDSHAKE_FRESH)

def punched (pk : PubKey) : Bool :=
  pass.lastSeeds.any fun s => s.pubkey == pk && s.endpoint.isNone && s.punch.isSome

def unpunchable (pk : PubKey) : Bool :=
  pass.lastSeeds.any fun s => s.pubkey == pk && s.endpoint.isNone && s.punch.isNone

def observed (last : List ObservedEndpoint) : List ObservedEndpoint :=
  match pass.stats with
  | none => last
  | some stats =>
      (((stats.rows.filterMap fun row => row.2.endpoint.map (ObservedEndpoint.mk row.1)).filter
        fun o => !IpAddr.isLoopback o.endpoint.ip)).mergeSort fun a b => decide (a.pubkey ≤ b.pubkey)

def stepOf (conns : Table PubKey PeerConn) (pk : PubKey) : PeerConn × PeerStep :=
  ((conns.get? pk).getD {}).step pass.now (pass.punched pk) (pass.connected pk)
    (pass.unpunchable pk) (pass.relaying pk) (pass.icing pk)

def wants (pk : PubKey) (step : PeerStep) : Bool :=
  pass.relaying pk || pass.icing pk || step.reach == .unreachable ||
    pass.iceEnabled && step.bootstrapStuck

def liveOf (conns : Table PubKey PeerConn) (pk : PubKey) (ip : Ipv4Addr) : PeerLive where
  reach := (pass.stepOf conns pk).2.reach
  up := pass.connected pk
  latencyMs := pass.latency ip
  rxBytes := (pass.stat pk).elim 0 PeerStat.rxBytes
  txBytes := (pass.stat pk).elim 0 PeerStat.txBytes
  lastHandshakeSecs := pass.lastHandshakeSecs pk

def run (health : Health) : Health where
  conns := pass.peers.mapValues fun pk _ => (pass.stepOf health.conns pk).1
  observed := pass.observed health.observed
  wantRelay :=
    ((pass.peers.keys).filter fun pk => pass.wants pk (pass.stepOf health.conns pk).2).mergeSort
      fun a b => decide (a ≤ b)
  live := pass.peers.rows.foldl
    (fun live row =>
      match row.2.allowedIps with
      | [] => live
      | (ip, _) :: _ => live.insert ip (pass.liveOf health.conns row.1 ip))
    ∅

end Pass

/-- The pass leaves each peer that it finds, and the observed endpoints, as they were. -/
structure Health.Unchanged (health : Health) (pass : Pass) (health' : Health) : Prop where
  observed : health'.observed = health.observed
  conns : ∀ pk conn, pass.peers.contains pk = true → health.conns.get? pk = some conn →
    health'.conns.get? pk = some conn
  wants : ∀ pk conn, pass.peers.contains pk = true → health.conns.get? pk = some conn →
    (pk ∈ health'.wantRelay ↔ pk ∈ health.wantRelay)

/-- The peer was down already: its timers run as they do of a peer that is not connected, and what
was reported is what they say now. -/
structure Pass.FindsDown (pass : Pass) (health : Health) (pk : PubKey) (conn : PeerConn) :
    Prop where
  attempt : conn.attemptSince.isSome = true
  bootstrap : conn.bootstrapSince.isSome = pass.unpunchable pk
  last : conn.last = some (false,
    conn.graded pass.now (pass.punched pk) false (pass.relaying pk) (pass.icing pk))
  wants : pk ∈ health.wantRelay ↔ pass.relaying pk = true ∨ pass.icing pk = true ∨
    conn.graded pass.now (pass.punched pk) false (pass.relaying pk) (pass.icing pk) =
        .unreachable ∨
      pass.iceEnabled = true ∧ conn.bootstrapStuck pass.now = true

variable {pass : Pass} {health : Health} {pk : PubKey} {conn : PeerConn}

theorem mem_wantRelay :
    pk ∈ (pass.run health).wantRelay ↔
      pass.peers.contains pk = true ∧
        pass.wants pk (pass.stepOf health.conns pk).2 = true := by
  unfold Pass.run
  rw [List.mem_mergeSort, List.mem_filter, Table.mem_keys, Table.contains_iff]

theorem run_conns (hpeer : pass.peers.contains pk = true) :
    (pass.run health).conns.get? pk = some (pass.stepOf health.conns pk).1 := by
  obtain ⟨config, hconfig⟩ := Table.contains_iff.mp hpeer
  unfold Pass.run
  rw [Table.get?_mapValues, hconfig]
  rfl

theorem connected_failed (hfailed : pass.stats = none) : pass.connected pk = false := by
  unfold Pass.connected Pass.stat
  rw [hfailed]
  rfl

theorem stepOf_failed (hfailed : pass.stats = none) (hconn : health.conns.get? pk = some conn) :
    pass.stepOf health.conns pk = conn.step pass.now (pass.punched pk) false
      (pass.unpunchable pk) (pass.relaying pk) (pass.icing pk) := by
  unfold Pass.stepOf
  rw [connected_failed hfailed, hconn]
  rfl

theorem timed_eq_iff {now : Nat} {unpunchable : Bool} :
    (conn.timed now false unpunchable).attemptSince = conn.attemptSince ∧
        (conn.timed now false unpunchable).bootstrapSince = conn.bootstrapSince ↔
      conn.attemptSince.isSome = true ∧ conn.bootstrapSince.isSome = unpunchable := by
  unfold PeerConn.timed
  cases conn.attemptSince <;> cases conn.bootstrapSince <;> cases unpunchable <;> simp

theorem graded_timed {now : Nat} {punched relaying icing unpunchable : Bool}
    (hattempt : conn.attemptSince.isSome = true) :
    (conn.timed now false unpunchable).graded now punched false relaying icing =
      conn.graded now punched false relaying icing := by
  obtain ⟨since, hsince⟩ := Option.isSome_iff_exists.mp hattempt
  unfold PeerConn.graded PeerConn.age PeerConn.timed
  simp [hsince]

theorem step_eq_iff {now : Nat} {punched unpunchable relaying icing : Bool} :
    (conn.step now punched false unpunchable relaying icing).1 = conn ↔
      conn.attemptSince.isSome = true ∧ conn.bootstrapSince.isSome = unpunchable ∧
        conn.last = some (false, conn.graded now punched false relaying icing) := by
  constructor
  · intro hsame
    have hattempt : (conn.timed now false unpunchable).attemptSince = conn.attemptSince :=
      Eq.trans (by rfl) (congrArg PeerConn.attemptSince hsame)
    have hbootstrap : (conn.timed now false unpunchable).bootstrapSince =
        conn.bootstrapSince :=
      Eq.trans (by rfl) (congrArg PeerConn.bootstrapSince hsame)
    have htimers := timed_eq_iff.mp ⟨hattempt, hbootstrap⟩
    have hlast := congrArg PeerConn.last hsame
    refine ⟨htimers.1, htimers.2, ?_⟩
    rw [← hlast, ← graded_timed htimers.1]
    rfl
  · rintro ⟨hattempt, hbootstrap, hlast⟩
    have htimers : (conn.timed now false unpunchable).attemptSince = conn.attemptSince ∧
        (conn.timed now false unpunchable).bootstrapSince = conn.bootstrapSince :=
      timed_eq_iff.mpr ⟨hattempt, hbootstrap⟩
    have hgraded : (conn.timed now false unpunchable).graded now punched false relaying icing =
        conn.graded now punched false relaying icing := graded_timed hattempt
    unfold PeerConn.step
    dsimp only
    rw [hgraded, ← hlast]
    obtain ⟨attempt, bootstrap, last⟩ := conn
    simp only [PeerConn.mk.injEq, and_true]
    exact htimers

theorem bootstrapStuck_timed {now : Nat} {unpunchable : Bool}
    (hbootstrap : conn.bootstrapSince.isSome = unpunchable) :
    (conn.timed now false unpunchable).bootstrapStuck now = conn.bootstrapStuck now := by
  unfold PeerConn.bootstrapStuck PeerConn.timed
  cases hsince : conn.bootstrapSince <;> simp [← hbootstrap, hsince]

theorem unchanged_iff (hfailed : pass.stats = none) :
    health.Unchanged pass (pass.run health) ↔
      ∀ pk conn, pass.peers.contains pk = true → health.conns.get? pk = some conn →
        pass.FindsDown health pk conn := by
  have hwants : ∀ {pk conn}, pass.peers.contains pk = true →
      health.conns.get? pk = some conn → conn.attemptSince.isSome = true →
        conn.bootstrapSince.isSome = pass.unpunchable pk →
          (pk ∈ (pass.run health).wantRelay ↔ pass.relaying pk = true ∨ pass.icing pk = true ∨
            conn.graded pass.now (pass.punched pk) false (pass.relaying pk) (pass.icing pk) =
                .unreachable ∨
              pass.iceEnabled = true ∧ conn.bootstrapStuck pass.now = true) := by
    intro pk conn hpeer hconn hattempt hbootstrap
    rw [mem_wantRelay, stepOf_failed hfailed hconn]
    unfold Pass.wants PeerConn.step
    dsimp only
    rw [graded_timed hattempt, bootstrapStuck_timed hbootstrap]
    simp [hpeer, or_assoc]
  constructor
  · intro hunchanged pk conn hpeer hconn
    have hsame := hunchanged.conns pk conn hpeer hconn
    rw [run_conns hpeer, stepOf_failed hfailed hconn, Option.some.injEq] at hsame
    obtain ⟨hattempt, hbootstrap, hlast⟩ := step_eq_iff.mp hsame
    exact ⟨hattempt, hbootstrap, hlast, (hunchanged.wants pk conn hpeer hconn).symm.trans
      (hwants hpeer hconn hattempt hbootstrap)⟩
  · intro hdown
    refine ⟨?_, fun pk conn hpeer hconn => ?_, fun pk conn hpeer hconn => ?_⟩
    · change pass.observed health.observed = health.observed
      unfold Pass.observed
      rw [hfailed]
    · obtain ⟨hattempt, hbootstrap, hlast, -⟩ := hdown pk conn hpeer hconn
      rw [run_conns hpeer, stepOf_failed hfailed hconn]
      exact congrArg some (step_eq_iff.mpr ⟨hattempt, hbootstrap, hlast⟩)
    · obtain ⟨hattempt, hbootstrap, -, hwant⟩ := hdown pk conn hpeer hconn
      exact (hwants hpeer hconn hattempt hbootstrap).trans hwant.symm

def Health.step (health : Health) (pass : Pass) : Option Health :=
  some (pass.run health)

def onePeer : PeerConfig where
  publicKey := 1
  allowedIps := [(1, 32)]
  endpoint := none
  keepalive := none

def goodPass : Pass where
  now := 0
  stats := some ((∅ : Table PubKey PeerStat).insert 1 ⟨none, some (some 0), 0, 0⟩)
  peers := (∅ : Table PubKey PeerConfig).insert 1 onePeer
  lastSeeds := []
  relaying := fun _ => false
  icing := fun _ => false
  iceEnabled := true
  latency := fun _ => none

end UnityLan.Engine.Control
