import UnityLan.Common.Api
import UnityLan.Foundation.Table

namespace UnityLan.Engine

open UnityLan.Foundation

/-! The relay and ICE sessions of peers, and the tasks that forward for them. -/

/-- A task that forwards between boringtun and a connection; where boringtun sends from is learned
from what it sends. -/
structure Pump where
  bt : Option SocketAddr := none
  deriving DecidableEq

inductive Reception
  | shim (from? : Option SocketAddr)
  | conn (ok : Bool)

def Pump.forward (pump : Pump) : Reception → Option Pump
  | .shim (some src) => some { pump with bt := some src }
  | .shim none => none
  | .conn true => some pump
  | .conn false => none

/-! Sessions over a relay. -/

structure RelaySession where
  shimAddr : SocketAddr
  relayed : SocketAddr
  peerRelayed : Option SocketAddr
  /-- The task, until it ends. -/
  pump : Option Pump
  deriving DecidableEq

structure RelayManager where
  sessions : Table PubKey RelaySession := ∅

def RelaySession.start (info : RelayInfo) (addrs : SocketAddr × SocketAddr) : RelaySession where
  shimAddr := addrs.1
  relayed := addrs.2
  peerRelayed := info.peerRelayed
  pump := some {}

def RelaySession.tell (s : RelaySession) (peerRelayed : Option SocketAddr) : RelaySession :=
  if s.pump.isSome then { s with peerRelayed := peerRelayed } else s

inductive RelayEvent
  | ensure (peer : PubKey) (info : RelayInfo) (started : Except String (SocketAddr × SocketAddr))
  | retain (keep : List PubKey)
  | pumped (peer : PubKey) (received : Reception)

namespace RelayManager

variable (manager : RelayManager)

def allocated (peer : PubKey) (info : RelayInfo)
    (started : Except String (SocketAddr × SocketAddr)) : Option RelaySession :=
  match manager.sessions.get? peer with
  | some s => some s
  | none => started.toOption.map (RelaySession.start info)

def ensure (peer : PubKey) (info : RelayInfo)
    (started : Except String (SocketAddr × SocketAddr)) : Option SocketAddr × RelayManager :=
  match manager.allocated peer info started with
  | none => (none, manager)
  | some s =>
      (some s.shimAddr, { sessions := manager.sessions.insert peer (s.tell info.peerRelayed) })

def retain (keep : List PubKey) : RelayManager where
  sessions := manager.sessions.retain fun peer _ => keep.contains peer

def isRelaying (peer : PubKey) : Bool :=
  manager.sessions.contains peer

def step : RelayEvent → RelayManager
  | .ensure peer info started => (manager.ensure peer info started).2
  | .retain keep => manager.retain keep
  | .pumped peer received =>
      { sessions := manager.sessions.modify peer fun s =>
          { s with pump := s.pump.bind fun pump => pump.forward received } }

def stale (peer : PubKey) : Bool :=
  (manager.sessions.get? peer).any fun s => s.pump.isNone

/-- What a call of `ensure` is to do. -/
structure Replaces (peer : PubKey) (info : RelayInfo)
    (started : Except String (SocketAddr × SocketAddr)) : Prop where
  forwards : ∀ addr, (manager.ensure peer info started).1 = some addr →
    ∃ s, (manager.ensure peer info started).2.sessions.get? peer = some s ∧ s.shimAddr = addr ∧
      s.pump.isSome = true
  restarts : ∀ s, manager.sessions.get? peer = some s → s.pump = none →
    (manager.ensure peer info started).2.sessions.get? peer =
      started.toOption.map (RelaySession.start info)

end RelayManager

/-! Sessions of ICE agents. -/

def RESTART_BACKOFF_MIN : Nat := 60

def RESTART_BACKOFF_MAX : Nat := 600

def sessionBackoff (n : Nat) : Nat :=
  min (RESTART_BACKOFF_MIN * (if n - 1 < 32 then 2 ^ (n - 1) else 2 ^ 32 - 1)) RESTART_BACKOFF_MAX

inductive IceState
  | negotiating
  | connected (shim : SocketAddr)
  | failed
  deriving DecidableEq

inductive IceTask
  | connecting
  | pumping (pump : Pump)
  | ended
  deriving DecidableEq

structure IceSession where
  remote : Option IceParams
  state : IceState := .negotiating
  task : IceTask := .connecting
  deriving DecidableEq

def IceSession.isFailed (s : IceSession) : Bool :=
  s.state == .failed

inductive IceEvent
  | ensure (now : Nat) (peer : PubKey) (remote : Option IceParams) (started : Except String Unit)
  | retain (keep : List PubKey)
  /-- The agent reports that it has failed. -/
  | failed (peer : PubKey)
  /-- The connect task returns early. -/
  | gaveUp (peer : PubKey)
  /-- A pair has validated, and the shim is bound. -/
  | negotiated (peer : PubKey) (shim : SocketAddr)
  | pumped (peer : PubKey) (received : Reception)

namespace IceSession

variable (s : IceSession)

def gaveUp : IceSession :=
  match s.task with
  | .connecting => { s with state := .failed, task := .ended }
  | _ => s

def negotiated (shim : SocketAddr) : IceSession :=
  match s.task with
  | .connecting =>
      if s.isFailed then { s with task := .ended }
      else { s with state := .connected shim, task := .pumping {} }
  | _ => s

def pumped (received : Reception) : IceSession :=
  match s.task with
  | .pumping pump =>
      match pump.forward received with
      | some pump => { s with task := .pumping pump }
      | none => { s with task := .ended }
  | _ => s

def shim : Option SocketAddr :=
  match s.state with
  | .connected addr => some addr
  | _ => none

end IceSession

structure IceManager where
  sessions : Table PubKey IceSession := ∅
  /-- How often a peer failed in a row, and when it did last. -/
  failures : Table PubKey (Nat × Nat) := ∅

namespace IceManager

variable (manager : IceManager)

def dropFailed (now : Nat) (peer : PubKey) : IceManager :=
  if (manager.sessions.get? peer).any IceSession.isFailed then
    { sessions := manager.sessions.erase peer
      failures := manager.failures.insert peer
        (min (((manager.failures.get? peer).elim 0 Prod.fst) + 1) (2 ^ 32 - 1), now) }
  else manager

def holdsOff (now : Nat) (peer : PubKey) : Bool :=
  !manager.sessions.contains peer &&
    (manager.failures.get? peer).any fun failure =>
      decide (now - failure.2 < sessionBackoff failure.1)

def push (peer : PubKey) (remote : Option IceParams) (s : IceSession) :
    Option SocketAddr × IceManager :=
  (s.shim,
    { sessions := manager.sessions.insert peer { s with remote := remote }
      failures := if s.shim.isSome then manager.failures.erase peer else manager.failures })

def ensure (now : Nat) (peer : PubKey) (remote : Option IceParams) (started : Except String Unit) :
    Option SocketAddr × IceManager :=
  let manager := manager.dropFailed now peer
  if manager.holdsOff now peer then (none, manager)
  else
    match manager.sessions.get? peer with
    | some s => manager.push peer remote s
    | none =>
        match started with
        | .error _ => (none, manager)
        | .ok _ => manager.push peer remote { remote := remote }

def retain (keep : List PubKey) : IceManager where
  sessions := manager.sessions.retain fun peer _ => keep.contains peer
  failures := manager.failures.retain fun peer _ => keep.contains peer

def isConnected (peer : PubKey) : Bool :=
  (manager.sessions.get? peer).any fun s => s.shim.isSome

def step : IceEvent → IceManager
  | .ensure now peer remote started => (manager.ensure now peer remote started).2
  | .retain keep => manager.retain keep
  | .failed peer =>
      { manager with sessions := manager.sessions.modify peer fun s => { s with state := .failed } }
  | .gaveUp peer => { manager with sessions := manager.sessions.modify peer IceSession.gaveUp }
  | .negotiated peer shim =>
      { manager with sessions := manager.sessions.modify peer fun s => s.negotiated shim }
  | .pumped peer received =>
      { manager with sessions := manager.sessions.modify peer fun s => s.pumped received }

def stale (peer : PubKey) : Bool :=
  (manager.sessions.get? peer).any fun s => s.shim.isSome && s.task == .ended

/-- What a call of `ensure` is to do. -/
structure Replaces (now : Nat) (peer : PubKey) (remote : Option IceParams)
    (started : Except String Unit) : Prop where
  forwards : ∀ addr, (manager.ensure now peer remote started).1 = some addr →
    ∃ s pump, (manager.ensure now peer remote started).2.sessions.get? peer = some s ∧
      s.state = .connected addr ∧ s.task = .pumping pump
  drops : ∀ s, manager.sessions.get? peer = some s → s.task = .ended ∨ s.state = .failed →
    (manager.ensure now peer remote started).2.sessions.get? peer = none
  restarts : manager.sessions.get? peer = none →
    (∀ n at', manager.failures.get? peer = some (n, at') → sessionBackoff n ≤ now - at') →
      started = .ok () →
        (manager.ensure now peer remote started).2.sessions.get? peer = some { remote := remote }

end IceManager

/-! What holds of every session. -/

def IceSession.Sound (s : IceSession) : Prop :=
  match s.state, s.task with
  | .connected _, .connecting => False
  | .negotiating, .pumping _ => False
  | .negotiating, .ended => False
  | _, _ => True

def IceManager.Sound (manager : IceManager) : Prop :=
  ∀ peer s, manager.sessions.get? peer = some s → s.Sound

namespace IceSession

variable {s : IceSession}

theorem Sound.failed (s : IceSession) : ({ s with state := .failed } : IceSession).Sound := by
  unfold Sound
  trivial

theorem Sound.gaveUp (hsound : s.Sound) : s.gaveUp.Sound := by
  unfold IceSession.gaveUp
  split
  · unfold Sound
    trivial
  · exact hsound

theorem Sound.negotiated (hsound : s.Sound) (shim : SocketAddr) : (s.negotiated shim).Sound := by
  unfold IceSession.negotiated
  split
  · split
    · rename_i hfailed
      unfold Sound
      rw [show s.state = .failed from beq_iff_eq.mp hfailed]
      trivial
    · unfold Sound
      trivial
  · exact hsound

theorem Sound.pumped (hsound : s.Sound) (received : Reception) : (s.pumped received).Sound := by
  unfold IceSession.pumped
  split
  · rename_i pump htask
    have hstate : s.state ≠ .negotiating := by
      intro hnegotiating
      unfold Sound at hsound
      rw [hnegotiating, htask] at hsound
      exact hsound
    split
    · unfold Sound
      cases hs : s.state <;> first | exact absurd hs hstate | trivial
    · unfold Sound
      cases hs : s.state <;> first | exact absurd hs hstate | trivial
  · exact hsound

end IceSession

namespace IceManager

variable {manager : IceManager}

theorem Sound.modify (hsound : manager.Sound) {peer : PubKey} {change : IceSession → IceSession}
    (hchange : ∀ s : IceSession, s.Sound → (change s).Sound) :
    ({ manager with sessions := manager.sessions.modify peer change } : IceManager).Sound := by
  intro other s hget
  change (manager.sessions.modify peer change).get? other = some s at hget
  rw [Table.get?_modify] at hget
  split at hget
  · obtain ⟨held, hheld, rfl⟩ := Option.map_eq_some_iff.mp hget
    exact hchange held (hsound _ held hheld)
  · exact hsound other s hget

theorem Sound.dropFailed (hsound : manager.Sound) (now : Nat) (peer : PubKey) :
    (manager.dropFailed now peer).Sound := by
  unfold IceManager.dropFailed
  split
  · exact fun other s hget => hsound other s (Table.get?_of_erase hget)
  · exact hsound

theorem Sound.push (hsound : manager.Sound) {peer : PubKey} {remote : Option IceParams}
    {s : IceSession} (hs : s.Sound) : (manager.push peer remote s).2.Sound := by
  intro other held hget
  change (manager.sessions.insert peer { s with remote := remote }).get? other = some held at hget
  rw [Table.get?_insert] at hget
  split at hget
  · cases hget
    exact hs
  · exact hsound other held hget

theorem Sound.ensure (hsound : manager.Sound) (now : Nat) (peer : PubKey)
    (remote : Option IceParams) (started : Except String Unit) :
    (manager.ensure now peer remote started).2.Sound := by
  have hdropped := hsound.dropFailed now peer
  unfold IceManager.ensure
  dsimp only
  split
  · exact hdropped
  · split
    · rename_i s hget
      exact hdropped.push (hdropped peer s hget)
    · split
      · exact hdropped
      · exact hdropped.push (s := { remote := remote }) trivial

theorem Sound.step (hsound : manager.Sound) (event : IceEvent) : (manager.step event).Sound := by
  cases event with
  | ensure now peer remote started => exact hsound.ensure now peer remote started
  | retain keep => exact fun peer s hget => hsound peer s (Table.get?_of_retain hget)
  | failed peer => exact hsound.modify fun s _ => .failed s
  | gaveUp peer => exact hsound.modify fun s hs => hs.gaveUp
  | negotiated peer shim => exact hsound.modify fun s hs => hs.negotiated shim
  | pumped peer received => exact hsound.modify fun s hs => hs.pumped received

theorem Sound.run (events : List IceEvent) (hsound : manager.Sound) :
    (events.foldl IceManager.step manager).Sound := by
  induction events generalizing manager with
  | nil => exact hsound
  | cons event rest ih => exact ih (hsound.step event)

end IceManager

/-! When sessions are replaced. -/

section

variable {relays : RelayManager} {ices : IceManager} {peer : PubKey}

theorem tell_pump (s : RelaySession) (peerRelayed : Option SocketAddr) :
    (s.tell peerRelayed).pump = s.pump ∧ (s.tell peerRelayed).shimAddr = s.shimAddr := by
  unfold RelaySession.tell
  split <;> exact ⟨rfl, rfl⟩

theorem ensure_allocated {info : RelayInfo} {started : Except String (SocketAddr × SocketAddr)}
    {s : RelaySession} (hallocated : relays.allocated peer info started = some s) :
    (relays.ensure peer info started).1 = some s.shimAddr ∧
      (relays.ensure peer info started).2.sessions.get? peer = some (s.tell info.peerRelayed) := by
  unfold RelayManager.ensure
  rw [hallocated]
  exact ⟨rfl, by simp⟩

theorem relay_replaces_iff {info : RelayInfo}
    {started : Except String (SocketAddr × SocketAddr)} :
    relays.Replaces peer info started ↔ relays.stale peer = false := by
  constructor
  · intro hreplaces
    rw [← Bool.not_eq_true]
    intro hstale
    obtain ⟨s, hs, hended⟩ := (Option.any_eq_true _ _).mp hstale
    have hallocated : relays.allocated peer info started = some s := by
      unfold RelayManager.allocated
      rw [hs]
    obtain ⟨haddr, hafter⟩ := ensure_allocated hallocated
    obtain ⟨held, hheld, -, hpump⟩ := hreplaces.forwards _ haddr
    rw [hafter, Option.some.injEq] at hheld
    rw [← hheld, (tell_pump s _).1] at hpump
    rw [Option.isNone_iff_eq_none.mp hended] at hpump
    cases hpump
  · intro hstale
    have halive : ∀ s, relays.sessions.get? peer = some s → s.pump.isSome = true := by
      intro s hs
      unfold RelayManager.stale at hstale
      rw [hs] at hstale
      simpa using hstale
    refine ⟨fun addr haddr => ?_, fun s hs hended => ?_⟩
    · cases hallocated : relays.allocated peer info started with
      | none =>
          unfold RelayManager.ensure at haddr
          rw [hallocated] at haddr
          cases haddr
      | some s =>
          obtain ⟨hfirst, hafter⟩ := ensure_allocated hallocated
          refine ⟨_, hafter, ?_, ?_⟩
          · rw [(tell_pump s _).2]
            exact Option.some.inj (hfirst.symm.trans haddr)
          · rw [(tell_pump s _).1]
            unfold RelayManager.allocated at hallocated
            split at hallocated
            · rename_i held hheld
              cases hallocated
              exact halive s hheld
            · obtain ⟨_, _, rfl⟩ := Option.map_eq_some_iff.mp hallocated
              rfl
    · have hsome := halive s hs
      rw [hended] at hsome
      cases hsome

theorem sessionBackoff_pos (n : Nat) : 0 < sessionBackoff n := by
  unfold sessionBackoff RESTART_BACKOFF_MIN RESTART_BACKOFF_MAX
  split
  · have hpow := Nat.two_pow_pos (n - 1)
    omega
  · omega

theorem dropFailed_kept {now : Nat}
    (hkept : ∀ s, ices.sessions.get? peer = some s → s.isFailed = false) :
    ices.dropFailed now peer = ices := by
  unfold IceManager.dropFailed
  rw [if_neg]
  intro hany
  obtain ⟨s, hs, hfailed⟩ := (Option.any_eq_true _ _).mp hany
  rw [hkept s hs] at hfailed
  cases hfailed

theorem ensure_held {now : Nat} {remote : Option IceParams} {started : Except String Unit}
    {s : IceSession} (hs : ices.sessions.get? peer = some s) (hkept : s.isFailed = false) :
    ices.ensure now peer remote started = ices.push peer remote s := by
  unfold IceManager.ensure IceManager.holdsOff
  dsimp only
  rw [dropFailed_kept fun held hheld => by
    rw [hs] at hheld
    cases hheld
    exact hkept]
  rw [Table.contains, hs]
  rfl

theorem ensure_failed {now : Nat} {remote : Option IceParams} {started : Except String Unit}
    {s : IceSession} (hs : ices.sessions.get? peer = some s) (hfailed : s.isFailed = true) :
    (ices.ensure now peer remote started).1 = none ∧
      (ices.ensure now peer remote started).2.sessions.get? peer = none := by
  have hdropped : (ices.dropFailed now peer).sessions.get? peer = none := by
    unfold IceManager.dropFailed
    rw [hs, if_pos (by simpa using hfailed)]
    simp
  have hoff : (ices.dropFailed now peer).holdsOff now peer = true := by
    unfold IceManager.holdsOff
    rw [Table.contains, hdropped]
    unfold IceManager.dropFailed
    rw [hs, if_pos (by simpa using hfailed)]
    simp [sessionBackoff_pos]
  unfold IceManager.ensure
  dsimp only
  rw [if_pos hoff]
  exact ⟨rfl, hdropped⟩

theorem shim_some {s : IceSession} {addr : SocketAddr} (hshim : s.shim = some addr) :
    s.state = .connected addr := by
  unfold IceSession.shim at hshim
  split at hshim
  · rename_i hstate
    cases hshim
    exact hstate
  · cases hshim

theorem IceSession.Sound.ended {s : IceSession} (hsound : s.Sound) (hended : s.task = .ended) :
    s.isFailed = true ∨ s.shim.isSome = true := by
  unfold IceSession.Sound at hsound
  unfold IceSession.isFailed IceSession.shim
  cases hstate : s.state with
  | negotiating =>
      rw [hstate, hended] at hsound
      exact hsound.elim
  | connected addr => exact .inr rfl
  | failed => exact .inl rfl

theorem ensure_absent {now : Nat} {remote : Option IceParams} {started : Except String Unit}
    (hnone : ices.sessions.get? peer = none) :
    ices.ensure now peer remote started =
      if ices.holdsOff now peer then (none, ices)
      else
        match started with
        | .error _ => (none, ices)
        | .ok _ => ices.push peer remote { remote := remote } := by
  unfold IceManager.ensure
  dsimp only
  rw [dropFailed_kept fun s hs => by
    rw [hnone] at hs
    cases hs]
  rw [hnone]

theorem ice_replaces_iff {now : Nat} {remote : Option IceParams} {started : Except String Unit}
    (hsound : ices.Sound) :
    ices.Replaces now peer remote started ↔ ices.stale peer = false := by
  constructor
  · intro hreplaces
    rw [← Bool.not_eq_true]
    intro hstale
    obtain ⟨s, hs, hdead⟩ := (Option.any_eq_true _ _).mp hstale
    rw [Bool.and_eq_true, beq_iff_eq] at hdead
    obtain ⟨addr, haddr⟩ := Option.isSome_iff_exists.mp hdead.1
    have hkept : s.isFailed = false := by
      unfold IceSession.isFailed
      rw [shim_some haddr]
      rfl
    have hdrops := hreplaces.drops s hs (.inl hdead.2)
    rw [ensure_held hs hkept] at hdrops
    simp [IceManager.push] at hdrops
  · intro hstale
    have hnone : ∀ s, ices.sessions.get? peer = some s → s.task = .ended → s.isFailed = true := by
      intro s hs hended
      refine ((hsound peer s hs).ended hended).resolve_right fun hshim => ?_
      unfold IceManager.stale at hstale
      rw [hs] at hstale
      simp [hshim, hended] at hstale
    refine ⟨fun addr haddr => ?_, fun s hs hdead => ?_, fun habsent hpassed hstarted => ?_⟩
    · cases hs : ices.sessions.get? peer with
      | none =>
          rw [ensure_absent hs] at haddr
          split at haddr
          · cases haddr
          · split at haddr <;> cases haddr
      | some s =>
          cases hfailed : s.isFailed with
          | true =>
              rw [(ensure_failed hs hfailed).1] at haddr
              cases haddr
          | false =>
              rw [ensure_held hs hfailed] at haddr ⊢
              have hstate := shim_some haddr
              have hs' := hsound peer s hs
              cases htask : s.task with
              | connecting =>
                  unfold IceSession.Sound at hs'
                  rw [hstate, htask] at hs'
                  exact hs'.elim
              | ended =>
                  rw [hnone s hs htask] at hfailed
                  cases hfailed
              | pumping pump =>
                  exact ⟨{ s with remote := remote }, pump, by simp [IceManager.push], hstate, htask⟩
    · have hfailed : s.isFailed = true := by
        rcases hdead with hended | hstate
        · exact hnone s hs hended
        · exact beq_iff_eq.mpr hstate
      exact (ensure_failed hs hfailed).2
    · have hready : ices.holdsOff now peer = false := by
        unfold IceManager.holdsOff
        cases hfailure : ices.failures.get? peer with
        | none => simp
        | some failure =>
            have hlong := hpassed failure.1 failure.2 hfailure
            simp [hlong]
      rw [ensure_absent habsent, hready, hstarted]
      simp [IceManager.push]

end

/-- In every run a session whose task has ended is replaced, and only forwarding ones are used,
unless one is held as if its task still forwarded; and of the sessions exactly those are kept that
are to be. -/
theorem sessions_replaced (relayEvents : List RelayEvent) (iceEvents : List IceEvent)
    (peer : PubKey) (keep : List PubKey) :
    (∀ info started,
      (relayEvents.foldl RelayManager.step {}).Replaces peer info started ↔
        (relayEvents.foldl RelayManager.step {}).stale peer = false) ∧
    (∀ now remote started,
      (iceEvents.foldl IceManager.step {}).Replaces now peer remote started ↔
        (iceEvents.foldl IceManager.step {}).stale peer = false) ∧
    ((relayEvents.foldl RelayManager.step {}).retain keep).sessions.get? peer =
      (if peer ∈ keep then (relayEvents.foldl RelayManager.step {}).sessions.get? peer else none) ∧
    ((iceEvents.foldl IceManager.step {}).retain keep).sessions.get? peer =
      (if peer ∈ keep then (iceEvents.foldl IceManager.step {}).sessions.get? peer else none) := by
  have hempty : ({} : IceManager).Sound := by
    intro other s hget
    simp at hget
  have hkept : ∀ {ν : Type} (table : Table PubKey ν),
      (table.retain fun peer _ => keep.contains peer).get? peer =
        if peer ∈ keep then table.get? peer else none := by
    intro ν table
    rw [Table.get?_retain]
    by_cases hkeep : peer ∈ keep
    · cases table.get? peer <;> simp [hkeep, Option.filter]
    · cases table.get? peer <;> simp [hkeep, Option.filter]
  exact ⟨fun _ _ => relay_replaces_iff, fun _ _ _ => ice_replaces_iff (hempty.run iceEvents),
    hkept _, hkept _⟩

/-- A receive on the shim of a relayed session fails, and the peer is still sent to it. -/
theorem dead_sessions_used :
    ¬ ∀ (relayEvents : List RelayEvent) (iceEvents : List IceEvent) (peer : PubKey),
      (∀ info started,
        (relayEvents.foldl RelayManager.step {}).Replaces peer info started) ∧
      ∀ now remote started,
        (iceEvents.foldl IceManager.step {}).Replaces now peer remote started := by
  intro hclaim
  obtain ⟨hrelay, -⟩ := hclaim
    [.ensure 1 ⟨⟨.v4 0, 0⟩, "", "", "", none⟩ (.ok (⟨.v4 0, 1⟩, ⟨.v4 0, 2⟩)),
      .pumped 1 (.shim none)]
    [] 1
  have hstale : (List.foldl RelayManager.step {}
      [.ensure 1 ⟨⟨.v4 0, 0⟩, "", "", "", none⟩ (.ok (⟨.v4 0, 1⟩, ⟨.v4 0, 2⟩)),
        .pumped 1 (.shim none)]).stale 1 = true := by
    decide
  rw [relay_replaces_iff.mp (hrelay ⟨⟨.v4 0, 0⟩, "", "", "", none⟩ (.error ""))] at hstale
  cases hstale

end UnityLan.Engine
