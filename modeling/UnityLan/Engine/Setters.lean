import UnityLan.Engine.Status

namespace UnityLan.Engine.Control

open UnityLan.Foundation Cert Fw

/-! Setters of the status while it is rebuilt. -/

/-- An update that is under way: what it was called with, the report it has read, and the setters
that completed since it was called. -/
structure Rebuild where
  args : UpdateArgs
  prev : Option Overlay := none
  since : List Setter := []

structure Shared where
  report : StatusReport
  /-- The report in which every field has the value that its last setter gave it. -/
  due : StatusReport
  update : Option Rebuild := none

namespace Setter

def setsDisableNew : Setter → Bool
  | .disableNew _ => true
  | _ => false

def setsPeerOwn : Setter → Bool
  | .peerOwn _ => true
  | _ => false

def setsCoordOnline : Setter → Bool
  | .coordOnline _ => true
  | _ => false

def setsBlocked : Setter → Bool
  | .blocked _ => true
  | _ => false

end Setter

def lists (blocked : List BlockedUser) (user : UserId) : Bool :=
  blocked.any fun entry => entry.userId == user

def StatusReport.keeping (due rebuilt : StatusReport) (since : List Setter) : StatusReport :=
  { rebuilt with
    disableNewNetworks :=
      if since.any Setter.setsDisableNew then due.disableNewNetworks
      else rebuilt.disableNewNetworks
    peerOwnDevices :=
      if since.any Setter.setsPeerOwn then due.peerOwnDevices else rebuilt.peerOwnDevices
    coordinatorOnline :=
      if since.any Setter.setsCoordOnline then due.coordinatorOnline
      else rebuilt.coordinatorOnline
    blocked := if since.any Setter.setsBlocked then due.blocked else rebuilt.blocked
    peers :=
      if since.any Setter.setsBlocked then
        rebuilt.peers.filter fun p => !lists due.blocked p.userId
      else rebuilt.peers }

inductive StatusEvent
  | set (setter : Setter)
  /-- The mesh loop has read what it calls `update` with. -/
  | called (args : UpdateArgs)
  | read
  | replaced

namespace Shared

variable (s : Shared)

def step : StatusEvent → Option Shared
  | .set setter =>
      some
        { report := setter.apply s.report
          due := setter.apply s.due
          update := s.update.map fun u => { u with since := u.since ++ [setter] } }
  | .called args =>
      match s.update with
      | none => some { s with update := some { args := args } }
      | some _ => none
  | .read =>
      match s.update with
      | some ⟨args, none, since⟩ =>
          some { s with update := some ⟨args, some (Overlay.of s.report), since⟩ }
      | _ => none
  | .replaced =>
      match s.update with
      | some ⟨args, some prev, since⟩ =>
          some
            { report := rebuild args prev
              due := s.due.keeping (Control.update args s.due) since }
      | _ => none

/-- Once every update has completed, each field has the value of its last setter. -/
def Kept : Prop :=
  s.update = none → s.report = s.due

end Shared

/-! When nothing is lost. -/

namespace Setter

def agrees (args : UpdateArgs) : Setter → Bool
  | .disableNew disable => disable == args.disableNewNetworks
  | .peerOwn enabled => enabled == args.peerOwnDevices
  | .coordOnline online => online == args.coordinatorOnline
  | .blocked users =>
      blockedList users == blockedList args.blocked &&
        args.seeds.all fun seed => !lists (blockedList users) seed.userId
  | _ => true

def idle (prev : Overlay) : Setter → Prop
  | .certStatus cert => cert = prev.cert
  | .certsEnabled enabled => enabled = prev.cert.enabled
  | .blocked users => ∀ p ∈ prev.peers, users.contains p.userId = false
  | .updateAvailable latest newer => available latest newer = prev.updateAvailable
  | .updateReady ready => ready = prev.updateReady
  | .protoMismatch why => why = prev.protoMismatch
  | .lanOverlap warning => warning = prev.lanOverlap
  | .live measured => ∀ p ∈ prev.peers, p.withLive measured = p
  | .services announced => ∀ p ∈ prev.peers, p.withServices announced = p
  | _ => True

def Spares (update : Option Rebuild) (setter : Setter) : Prop :=
  ∀ u ∈ update, setter.agrees u.args = true ∧ ∀ prev ∈ u.prev, setter.idle prev

variable {setter : Setter} {report : StatusReport}

theorem of_apply (hidle : setter.idle (Overlay.of report)) :
    Overlay.of (setter.apply report) = Overlay.of report := by
  cases setter with
  | certStatus cert =>
      change cert = report.cert at hidle
      subst hidle
      rfl
  | certsEnabled enabled =>
      change enabled = report.cert.enabled at hidle
      subst hidle
      rfl
  | blocked users =>
      have hkept : report.peers.filter (fun p => !users.contains p.userId) = report.peers := by
        rw [List.filter_eq_self]
        intro p hp
        rw [hidle p hp]
        rfl
      change { Overlay.of report with
        peers := report.peers.filter fun p => !users.contains p.userId } = _
      rw [hkept]
      rfl
  | updateAvailable latest newer =>
      change available latest newer = report.updateAvailable at hidle
      change { Overlay.of report with updateAvailable := available latest newer } = _
      rw [hidle]
      rfl
  | updateReady ready =>
      change ready = report.updateReady at hidle
      subst hidle
      rfl
  | protoMismatch why =>
      change why = report.protoMismatch at hidle
      subst hidle
      rfl
  | lanOverlap warning =>
      change warning = report.lanOverlap at hidle
      subst hidle
      rfl
  | live measured =>
      have hkept : report.peers.map (PeerStatus.withLive measured) = report.peers := by
        conv_rhs => rw [← List.map_id report.peers]
        exact List.map_congr_left hidle
      change { Overlay.of report with peers := report.peers.map (PeerStatus.withLive measured) } = _
      rw [hkept]
      rfl
  | services announced =>
      have hkept : report.peers.map (PeerStatus.withServices announced) = report.peers := by
        conv_rhs => rw [← List.map_id report.peers]
        exact List.map_congr_left hidle
      change { Overlay.of report with
        peers := report.peers.map (PeerStatus.withServices announced) } = _
      rw [hkept]
      rfl
  | disableNew disable => rfl
  | peerOwn enabled => rfl
  | coordOnline online => rfl

end Setter

structure Rebuild.Agrees (u : Rebuild) (due : StatusReport) : Prop where
  disableNew : u.since.any Setter.setsDisableNew = true →
    due.disableNewNetworks = u.args.disableNewNetworks
  peerOwn : u.since.any Setter.setsPeerOwn = true → due.peerOwnDevices = u.args.peerOwnDevices
  coordOnline : u.since.any Setter.setsCoordOnline = true →
    due.coordinatorOnline = u.args.coordinatorOnline
  blocked : u.since.any Setter.setsBlocked = true →
    due.blocked = blockedList u.args.blocked ∧
      ∀ seed ∈ u.args.seeds, lists due.blocked seed.userId = false

structure Shared.Fits (s : Shared) : Prop where
  same : s.report = s.due
  agrees : ∀ u ∈ s.update, u.Agrees s.due
  read : ∀ u ∈ s.update, ∀ prev ∈ u.prev, prev = Overlay.of s.report

variable {s s' : Shared} {setter : Setter} {u : Rebuild}

theorem Rebuild.Agrees.set {due : StatusReport} (hagrees : u.Agrees due)
    (hsets : setter.agrees u.args = true) :
    Rebuild.Agrees { u with since := u.since ++ [setter] } (setter.apply due) := by
  constructor
  · intro hset
    cases setter with
    | disableNew disable => exact eq_of_beq hsets
    | _ => exact hagrees.disableNew (by simpa [Setter.setsDisableNew] using hset)
  · intro hset
    cases setter with
    | peerOwn enabled => exact eq_of_beq hsets
    | _ => exact hagrees.peerOwn (by simpa [Setter.setsPeerOwn] using hset)
  · intro hset
    cases setter with
    | coordOnline online => exact eq_of_beq hsets
    | _ => exact hagrees.coordOnline (by simpa [Setter.setsCoordOnline] using hset)
  · intro hset
    cases setter with
    | blocked users =>
        obtain ⟨hsame, hseeds⟩ := Bool.and_eq_true_iff.mp hsets
        refine ⟨eq_of_beq hsame, fun seed hseed => ?_⟩
        change lists (blockedList users) seed.userId = false
        simpa using List.all_eq_true.mp hseeds seed hseed
    | _ => exact hagrees.blocked (by simpa [Setter.setsBlocked] using hset)

theorem Rebuild.Agrees.keeping {due : StatusReport} (hagrees : u.Agrees due) (prev : Overlay) :
    due.keeping (rebuild u.args prev) u.since = rebuild u.args prev := by
  have hpeers : u.since.any Setter.setsBlocked = true →
      (rebuild u.args prev).peers.filter (fun p => !lists due.blocked p.userId) =
        (rebuild u.args prev).peers := by
    intro hset
    rw [List.filter_eq_self]
    intro p hp
    obtain ⟨seed, hseed, rfl⟩ := List.mem_map.mp hp
    rw [rebuildPeer_userId, (hagrees.blocked hset).2 seed hseed]
    rfl
  unfold StatusReport.keeping
  congr 1
  · split
    · rename_i hset
      exact hpeers hset
    · rfl
  · split
    · rename_i hset
      exact hagrees.disableNew hset
    · rfl
  · split
    · rename_i hset
      exact hagrees.peerOwn hset
    · rfl
  · split
    · rename_i hset
      exact hagrees.coordOnline hset
    · rfl
  · split
    · rename_i hset
      exact (hagrees.blocked hset).1
    · rfl

/-- The steps at which nothing is lost. -/
def StatusEvent.Spares (s : Shared) : StatusEvent → Prop
  | .set setter => setter.Spares s.update
  | _ => True

theorem Shared.Fits.step (hfits : s.Fits) {event : StatusEvent} (hspares : event.Spares s)
    (hstep : s.step event = some s') : s'.Fits := by
  obtain ⟨report, due, update⟩ := s
  obtain ⟨hsame, hagrees, hread⟩ := hfits
  change report = due at hsame
  subst hsame
  cases event with
  | set setter =>
      cases hstep
      refine ⟨rfl, ?_, ?_⟩
      · intro u hu
        obtain ⟨before, hbefore, rfl⟩ := Option.map_eq_some_iff.mp hu
        exact (hagrees before hbefore).set (hspares before hbefore).1
      · intro u hu prev hprev
        obtain ⟨before, hbefore, rfl⟩ := Option.map_eq_some_iff.mp hu
        have hsame := hread before hbefore prev hprev
        subst hsame
        exact (Setter.of_apply ((hspares before hbefore).2 _ hprev)).symm
  | called args =>
      cases update with
      | none =>
          cases hstep
          refine ⟨rfl, ?_, ?_⟩
          · intro u hu
            cases hu
            constructor <;> exact fun hset => by cases hset
          · intro u hu prev hprev
            cases hu
            cases hprev
      | some u => cases hstep
  | read =>
      cases update with
      | none => cases hstep
      | some u =>
          obtain ⟨args, prev, since⟩ := u
          cases prev with
          | some prev => cases hstep
          | none =>
              cases hstep
              have hunder := hagrees _ rfl
              refine ⟨rfl, ?_, ?_⟩
              · intro u hu
                cases hu
                exact ⟨hunder.disableNew, hunder.peerOwn, hunder.coordOnline, hunder.blocked⟩
              · intro u hu prev hprev
                cases hu
                cases hprev
                rfl
  | replaced =>
      cases update with
      | none => cases hstep
      | some u =>
          obtain ⟨args, prev, since⟩ := u
          cases prev with
          | none => cases hstep
          | some prev =>
              cases hstep
              have hsame : prev = Overlay.of report := hread _ rfl prev rfl
              subst hsame
              refine ⟨((hagrees _ rfl).keeping _).symm, ?_, ?_⟩
              · exact fun u hu => by cases hu
              · exact fun u hu => by cases hu

def Shared.of (report : StatusReport) : Shared where
  report := report
  due := report

/-- While setters only complete that spare the update under way, none of them is lost. -/
theorem setters_kept (report : StatusReport) (events : List StatusEvent)
    (hspares : AtEach Shared.step (Shared.of report) events fun s event _ => event.Spares s) :
    Throughout Shared.step (Shared.of report) events Shared.Kept := by
  refine Throughout.of_atEach Shared.Fits hspares ?_ ?_ ?_
  · exact ⟨rfl, fun u hu => (by cases hu), fun u hu => (by cases hu)⟩
  · exact fun s event s' hfits hspared hstep => hfits.step hspared hstep
  · exact fun s hfits _ => hfits.same

/-- A device without peers. -/
def aloneArgs : UpdateArgs where
  device :=
    { communityName := "", userId := 7, username := "alice", networks := []
      wgIp := 0x64400001#32, wgNet := ⟨0x64400000#32, 10⟩, hostname := "laptop.alice"
      isPrimary := true, grantExpiresAt := 0, primaryAlias := none, networksStatus := []
      dnsDomain := none }
  seeds := []
  disabled := []
  blocked := ∅
  connected := true
  disableNewNetworks := true
  peerOwnDevices := true
  coordinatorOnline := true
  proxyRoutes := []
  engineVersion := "0.4.0"

theorem setters_kept_between :
    Throughout Shared.step (Shared.of {})
      [.set (.certStatus { enabled := true }), .called aloneArgs, .set (.updateReady true), .read,
        .replaced] Shared.Kept := by
  apply setters_kept
  refine (atEach_cons rfl).mpr ⟨?_, (atEach_cons rfl).mpr ⟨trivial, (atEach_cons rfl).mpr ⟨?_,
    (atEach_cons rfl).mpr ⟨trivial, (atEach_cons rfl).mpr ⟨trivial, atEach_nil⟩⟩⟩⟩⟩
  · intro u hu
    cases hu
  · intro u hu
    cases hu
    exact ⟨rfl, fun prev hprev => (by cases hprev)⟩

/-- The certificate is issued while the report is built. -/
theorem certificate_lost :
    ¬ ∀ (report : StatusReport) (events : List StatusEvent),
      Throughout Shared.step (Shared.of report) events Shared.Kept := by
  intro hclaim
  have hkept := hclaim {} [.called aloneArgs, .read, .set (.certStatus { enabled := true }),
    .replaced] _ _ (List.prefix_refl _) rfl rfl
  cases congrArg (fun report => report.cert.enabled) hkept

end UnityLan.Engine.Control
