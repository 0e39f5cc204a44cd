import UnityLan.Engine.Sinks

namespace UnityLan.Engine

open UnityLan.Foundation

/-! The refresh that the mesh loop keeps in flight. -/

def COORD_FULL_MARGIN : Nat := 120

structure SentReport where
  observed : List ObservedEndpoint := []
  relayNeed : List PubKey := []
  relayAlloc : List RelayAllocation := []
  iceOffers : List IceEndpoint := []
  deriving DecidableEq

def SentReport.stale (sent : SentReport) (observed : List ObservedEndpoint)
    (relayNeed : List PubKey) (relayAlloc : List RelayAllocation)
    (iceOffers : List IceEndpoint) : Bool :=
  sent.observed != observed || sent.relayNeed != relayNeed || sent.relayAlloc != relayAlloc ||
    sent.iceOffers != iceOffers

def reportOf (req : RegisterReq) : SentReport :=
  ⟨req.observed, req.needRelay, req.relayAllocated, req.ice⟩

structure Reading where
  tick : Tick := {}
  /-- The clock when the grant is looked at, and when the seeds are. -/
  now : Nat := 0
  later : Nat := 0
  /-- The endpoints that WireGuard has seen, where its statistics can be read. -/
  stats : Option (List ObservedEndpoint) := some []
  wantRelay : List PubKey := []
  allocations : List RelayAllocation := []
  iceEnabled : Bool := false
  offers : List IceEndpoint := []
  /-- The rest of the request: the identity, the token and the owner's choices. -/
  base : RegisterReq := { wgPubkey := 0 }

/-- The part of the mesh loop that keeps a refresh in flight. -/
structure Poller where
  sent : SentReport := {}
  since : Option Nat
  pending : Option RegisterReq := none
  device : Option SelfDevice
  seeds : List SeedPeer
  pins : Pins := ∅
  /-- What the pass would report, while it waits for an arm. -/
  current : SentReport := {}
  selecting : Bool := false
  /-- How many requests were issued. -/
  issued : Nat := 0

/-- Whether the address is `127.0.0.0/8` or `::1`. -/
def isLoopback : IpAddr → Bool
  | .v4 octets => octets >>> 24 == 127
  | .v6 segments => segments == 1

namespace Poller

variable (p : Poller)

def gossiped (tick : Tick) : List SeedPeer :=
  if tick.gossip then
    (p.seeds.map fun seed =>
      if tick.now + P2P_REFRESH_MARGIN < seed.expiresAt then seed
      else (tick.pulled seed.pubkey).elim seed (applyPulled seed)).filter
        fun seed => decide (tick.now < seed.expiresAt)
  else p.seeds

def report (reading : Reading) : SentReport where
  observed := reading.stats.elim p.sent.observed fun seen =>
    (seen.filter fun o => !isLoopback o.endpoint.ip).insertionSort
      fun first second => first.pubkey ≤ second.pubkey
  relayNeed := reading.wantRelay.insertionSort (· ≤ ·)
  relayAlloc := reading.allocations.insertionSort fun first second => first.peer ≤ second.peer
  iceOffers :=
    if reading.iceEnabled then
      reading.offers.insertionSort fun first second => first.peer ≤ second.peer
    else []

def ownGrantStale (now : Nat) : Bool :=
  p.device.any fun device => decide (device.grantExpiresAt ≤ now + LONGPOLL_HOLD_SECS)

def forcedFull (now : Nat) : Bool :=
  !p.seeds.isEmpty && (heldForRefresh p.seeds now COORD_FULL_MARGIN).isEmpty

def ticked (reading : Reading) : Poller :=
  { p with
    seeds := p.gossiped reading.tick
    current := p.report reading
    selecting := true }

/-- There is something new to tell the coordinator, so that the refresh is to complete at
once. -/
def haveReport (reading : Reading) : Bool :=
  p.sent.stale p.current.observed p.current.relayNeed p.current.relayAlloc p.current.iceOffers ||
    p.ownGrantStale reading.now || p.forcedFull reading.later

def pollSince (reading : Reading) : Option Nat :=
  if p.haveReport reading then none else p.since

def request (reading : Reading) : RegisterReq :=
  { reading.base with
    possessionProof := none
    since := p.pollSince reading
    observed := p.current.observed
    supersede := none
    needRelay := p.current.relayNeed
    relayAllocated := p.current.relayAlloc
    ice := p.current.iceOffers
    held := heldForRefresh p.seeds reading.later COORD_FULL_MARGIN }

def issue (reading : Reading) : Poller :=
  let kept := if p.haveReport reading then none else p.pending
  match kept with
  | some req => { p with pending := some req }
  | none => { p with pending := some (p.request reading), issued := p.issued + 1 }

def poll (reading : Reading) : Poller :=
  (p.ticked reading).issue reading

variable (decodes : Anchor → Bool)

/-- What comes of an answer; one that does not verify counts as a failure. -/
def answered (received : Received) : Poller :=
  match post decodes received p.pins with
  | (pins, .ok (resp, device)) =>
      { p with
        pins := pins
        since := some resp.version
        sent := p.current
        seeds := mergeSeeds decodes p.seeds received pins
        device := device.or p.device
        pending := none
        selecting := false }
  | (pins, .error _) => { p with pins := pins, pending := none, selecting := false }

end Poller

inductive PollEvent where
  | polled (reading : Reading)
  /-- The owner has made a choice that the coordinator is to know. -/
  | toggled
  | rechecked
  | answered (received : Received)
  | failed

namespace Poller

variable (decodes : Anchor → Bool) (p : Poller)

def step : PollEvent → Option Poller
  | .polled reading => if p.selecting then none else some (p.poll reading)
  | .toggled => if p.selecting then some { p with pending := none, selecting := false } else none
  | .rechecked => if p.selecting then some { p with selecting := false } else none
  | .answered received => if p.selecting then some (p.answered decodes received) else none
  | .failed => if p.selecting then some { p with pending := none, selecting := false } else none

/-- The loop is entered with what the coordinator answered to the registration. -/
def entered (version : Nat) (device : SelfDevice) (seeds : List SeedPeer) (pins : Pins) :
    Poller where
  since := some version
  device := some device
  seeds := seeds
  pins := pins

def Differs (reading : Reading) (req : RegisterReq) : Prop :=
  reportOf req ≠ p.report reading ∨
    req.since.isNone ≠ ((p.ticked reading).pollSince reading).isNone

/-- A request is dropped only for another, and what was acknowledged is what counts as sent. -/
def Kept (event : PollEvent) (p' : Poller) : Prop :=
  match event with
  | .polled reading => ∀ req, p.pending = some req → p'.issued ≠ p.issued → p.Differs reading req
  | .answered received => (post decodes received p.pins).2.toOption.isSome →
      ∀ req, p.pending = some req → p'.sent = reportOf req
  | _ => True

/-- A pass that finds a request in flight that was to complete at once has something to tell
exactly where its report is another. -/
def fits : PollEvent → Bool
  | .polled reading => p.pending.all fun req => req.since.isSome ||
      (p.ticked reading).haveReport reading == (reportOf req != p.report reading)
  | _ => true

structure InFlight : Prop where
  since : p.since.isSome
  held : ∀ req, p.pending = some req → req.since.isSome → reportOf req = p.sent
  current : p.selecting = true → ∀ req, p.pending = some req → reportOf req = p.current

end Poller

section

variable {decodes : Anchor → Bool} {p p' : Poller} {reading : Reading} {event : PollEvent}

namespace Poller

theorem stale_iff {sent report : SentReport} :
    sent.stale report.observed report.relayNeed report.relayAlloc report.iceOffers = false ↔
      sent = report := by
  cases sent
  cases report
  simp [SentReport.stale, and_assoc]

theorem sent_current (hquiet : p.haveReport reading = false) : p.sent = p.current := by
  unfold haveReport at hquiet
  simp only [Bool.or_eq_false_iff] at hquiet
  exact stale_iff.mp hquiet.1.1

theorem issue_cases (p : Poller) (reading : Reading) :
    (∃ req, p.haveReport reading = false ∧ p.pending = some req ∧
      p.issue reading = { p with pending := some req }) ∨
    ((p.haveReport reading = true ∨ p.pending = none) ∧
      p.issue reading =
        { p with pending := some (p.request reading), issued := p.issued + 1 }) := by
  unfold issue
  cases hreport : p.haveReport reading with
  | true => exact .inr ⟨.inl rfl, rfl⟩
  | false =>
      cases hpending : p.pending with
      | none => exact .inr ⟨.inr rfl, rfl⟩
      | some req => exact .inl ⟨req, rfl, rfl, rfl⟩

theorem InFlight.idle (hsince : p.since.isSome) (hidle : p.pending = none) : p.InFlight where
  since := hsince
  held := fun _ hpending => nomatch hidle.symm.trans hpending
  current := fun _ _ hpending => nomatch hidle.symm.trans hpending

theorem InFlight.poll (hflight : p.InFlight) (hfits : p.fits (.polled reading) = true) :
    (p.poll reading).InFlight := by
  unfold Poller.poll
  rcases issue_cases (p.ticked reading) reading with
    ⟨req, hquiet, hpending, hissue⟩ | ⟨hfresh, hissue⟩
  · have hsent : p.sent = p.report reading := sent_current hquiet
    rw [hissue]
    refine ⟨hflight.since, ?_, ?_⟩
    · intro req' hreq
      cases hreq
      exact hflight.held req hpending
    · intro _ req' hreq
      cases hreq
      change reportOf req = p.report reading
      unfold fits at hfits
      dsimp only at hfits
      rw [show p.pending = some req from hpending, Option.all_some, hquiet] at hfits
      rcases Bool.or_eq_true_iff.mp hfits with hsome | hsame
      · exact (hflight.held req hpending hsome).trans hsent
      · simpa using hsame
  · rw [hissue]
    refine ⟨hflight.since, ?_, ?_⟩
    · intro req hreq hsome
      cases hreq
      unfold request pollSince at hsome
      split at hsome
      · cases hsome
      · rename_i hquiet
        exact (sent_current (Bool.eq_false_iff.mpr hquiet)).symm
    · intro _ req hreq
      cases hreq
      rfl

theorem InFlight.answered (hflight : p.InFlight) (received : Received) :
    (p.answered decodes received).InFlight := by
  unfold Poller.answered
  split
  · exact .idle rfl rfl
  · exact .idle hflight.since rfl

theorem InFlight.step (hflight : p.InFlight) (hfits : p.fits event = true)
    (hstep : p.step decodes event = some p') : p'.InFlight := by
  cases event with
  | polled reading =>
      obtain ⟨_, hstep⟩ := Option.ite_none_left_eq_some.mp hstep
      cases hstep
      exact hflight.poll hfits
  | toggled =>
      obtain ⟨_, hstep⟩ := Option.ite_none_right_eq_some.mp hstep
      cases hstep
      exact .idle hflight.since rfl
  | rechecked =>
      obtain ⟨_, hstep⟩ := Option.ite_none_right_eq_some.mp hstep
      cases hstep
      exact ⟨hflight.since, hflight.held, fun hselecting => nomatch hselecting⟩
  | answered received =>
      obtain ⟨_, hstep⟩ := Option.ite_none_right_eq_some.mp hstep
      cases hstep
      exact hflight.answered received
  | failed =>
      obtain ⟨_, hstep⟩ := Option.ite_none_right_eq_some.mp hstep
      cases hstep
      exact .idle hflight.since rfl

theorem kept_polled (hfits : p.fits (.polled reading) = true)
    {req : RegisterReq} (hpending : p.pending = some req)
    (hissued : (p.poll reading).issued ≠ p.issued) : p.Differs reading req := by
  unfold Poller.poll at hissued
  rcases issue_cases (p.ticked reading) reading with
    ⟨_, _, _, hissue⟩ | ⟨hfresh, _⟩
  · rw [hissue] at hissued
    exact absurd rfl hissued
  · have hreport : (p.ticked reading).haveReport reading = true :=
      hfresh.resolve_right fun hnone => nomatch hnone.symm.trans hpending
    unfold fits at hfits
    dsimp only at hfits
    rw [hpending, Option.all_some, hreport] at hfits
    rcases Bool.or_eq_true_iff.mp hfits with hsome | hother
    · right
      unfold pollSince
      rw [if_pos hreport]
      cases hsince : req.since with
      | none =>
          rw [hsince] at hsome
          cases hsome
      | some version => exact Bool.false_ne_true
    · left
      simpa using hother

theorem kept_answered (hflight : p.InFlight) (hselecting : p.selecting = true)
    {received : Received} (hverified : (post decodes received p.pins).2.toOption.isSome)
    {req : RegisterReq} (hpending : p.pending = some req) :
    (p.answered decodes received).sent = reportOf req := by
  unfold Poller.answered
  split
  · exact (hflight.current hselecting req hpending).symm
  · rename_i pins error hpost
    rw [hpost] at hverified
    cases hverified

theorem Kept.of_fits (hflight : p.InFlight) (hfits : p.fits event = true)
    (hstep : p.step decodes event = some p') : p.Kept decodes event p' := by
  cases event with
  | polled reading =>
      obtain ⟨_, hstep⟩ := Option.ite_none_left_eq_some.mp hstep
      cases hstep
      intro req hpending hissued
      exact kept_polled hfits hpending hissued
  | answered received =>
      obtain ⟨hselecting, hstep⟩ := Option.ite_none_right_eq_some.mp hstep
      cases hstep
      intro hverified req hpending
      exact kept_answered hflight hselecting hverified hpending
  | _ => trivial

theorem entered_inFlight (version : Nat) (device : SelfDevice) (seeds : List SeedPeer)
    (pins : Pins) : (entered version device seeds pins).InFlight :=
  .idle rfl rfl

end Poller

/-- In a run where a pass that finds an urgent request in flight has something to tell exactly
where it would tell something else, requests are kept and the acknowledged one counts. -/
theorem refresh_kept (decodes : Anchor → Bool) (version : Nat) (device : SelfDevice)
    (seeds : List SeedPeer) (pins : Pins) (events : List PollEvent)
    (hfits : meets (Poller.step decodes) Poller.fits (.entered version device seeds pins) events =
      true) :
    AtEach (Poller.step decodes) (.entered version device seeds pins) events
      (Poller.Kept decodes) :=
  AtEach.of_meets Poller.InFlight hfits (Poller.entered_inFlight version device seeds pins)
    (fun _ _ _ hflight hfits hstep => hflight.step hfits hstep)
    fun _ _ _ hflight hfits hstep => .of_fits hflight hfits hstep

/-- A device whose grant is fresh, and that has no peers. -/
def lonePlayer : SelfDevice :=
  { Fw.player with grantExpiresAt := 1800 }

def seesPeer : Reading where
  stats := some [⟨9, ⟨.v4 0xcb007105, 51820⟩⟩]

/-- The report is acknowledged before the loop looks again, and the next request is held. -/
def promptAnswer : List PollEvent :=
  [.polled seesPeer, .answered { resp := { version := 2 } }, .polled seesPeer, .rechecked,
    .polled seesPeer, .rechecked]

theorem refresh_kept_prompt :
    AtEach (Poller.step fun _ => true) (.entered 1 lonePlayer [] ∅) promptAnswer
      (Poller.Kept fun _ => true) :=
  refresh_kept (fun _ => true) 1 lonePlayer [] ∅ promptAnswer (by decide)

/-- The answer takes longer than the re-check. -/
def slowAnswer : List PollEvent :=
  [.polled seesPeer, .rechecked, .polled seesPeer]

/-- The request that carries the report is dropped for one that says the same. -/
theorem report_drops_itself :
    ¬ AtEach (Poller.step fun _ => true) (.entered 1 lonePlayer [] ∅) slowAnswer
      (Poller.Kept fun _ => true) := by
  intro hall
  have hplay : (runs (Poller.step fun _ => true) (.entered 1 lonePlayer [] ∅)
      (slowAnswer.take 2)).any (fun p => p.selecting = false ∧
        (p.poll seesPeer).issued ≠ p.issued ∧ p.pending.any fun req =>
          reportOf req = p.report seesPeer ∧
            req.since.isNone = ((p.ticked seesPeer).pollSince seesPeer).isNone) = true := by
    decide
  obtain ⟨p, hrun, hend⟩ := (Option.any_eq_true _ _).mp hplay
  obtain ⟨hloops, hissued, hsame⟩ := of_decide_eq_true hend
  obtain ⟨req, hpending, hsame⟩ := (Option.any_eq_true _ _).mp hsame
  obtain ⟨hreport, hsince⟩ := of_decide_eq_true hsame
  have hstep : p.step (fun _ => true) (.polled seesPeer) = some (p.poll seesPeer) :=
    if_neg (Bool.eq_false_iff.mp hloops)
  have hdiffers : p.Differs seesPeer req :=
    hall (slowAnswer.take 2) _ p _ (List.prefix_refl slowAnswer) hrun hstep req hpending hissued
  exact hdiffers.elim (· hreport) (· hsince)

end

end UnityLan.Engine
