import UnityLan.Coordinator.Holding
import UnityLan.Coordinator.SignCache
import UnityLan.Engine.Polling

namespace UnityLan.Engine

open UnityLan.Foundation UnityLan.Coordinator

/-! What a full refresh leaves of the reasons to ask again at once. -/

section

variable (conf : Conf) (key : GuildId → Anchor)

/-- `SignCache::attestation`, which signs at `time` where it misses. -/
def attest (signing : Signing) (call : SignCall) (time : Nat) :
    Option (AttestationBlob × Signing) :=
  let reuseSecs := signCacheReuseSecs conf.attestationTtl
  match signing.fresh reuseSecs call.guild call.id call.now call.schema with
  | some hit => some (hit, signing)
  | none =>
      let signer : Signer := ⟨key call.guild, call.guild, conf.wgNet, conf.attestationTtl⟩
      match signAttestation signer.key (signer.attestation call.id time) call.schema with
      | .ok blob =>
          some (blob, signing.keep reuseSecs call.guild call.id call.now call.schema blob)
      | .error _ => none

/-- A device that the caller is told of, with the guilds it is attested in and when it would be
signed for. -/
structure Told where
  id : AttIdentity
  guilds : List (GuildId × Nat)
  /-- All but the attestations. -/
  seed : Seed

structure FullRefresh where
  builtAt : Nat
  schema : Nat
  community : GuildId → String := fun _ => ""
  caller : AttIdentity
  /-- The guilds that the caller is attested in and when it is signed for, and its networks;
  `none` where it holds no role. -/
  holds : Option (List (GuildId × Nat) × List String)
  told : List Told := []
  /-- The rest of the answer, and when and how it is received. -/
  rest : RegisterResp := {}
  now : Nat
  disk : Nat → Disk := fun _ => {}
  loads : Nat → Disk := fun _ => {}

namespace FullRefresh

variable (full : FullRefresh)

def inTime : Bool :=
  (full.holds.all fun holds => holds.1.all fun scope => decide (full.builtAt ≤ scope.2)) &&
    full.told.all fun told => told.guilds.all fun scope => decide (full.builtAt ≤ scope.2)

def selfAttestations : List (GuildId × Nat) → Option (List GuildAttestation)
  | [] => some []
  | (guild, time) :: rest =>
      let signer : Signer := ⟨key guild, guild, conf.wgNet, conf.attestationTtl⟩
      match signAttestation signer.key (signer.attestation full.caller time) full.schema with
      | .ok blob =>
          (selfAttestations rest).map fun later =>
            ⟨blob, full.community guild, full.schema⟩ :: later
      | .error _ => none

def buildGrant : Option (Option Grant) :=
  match full.holds with
  | none => some none
  | some (guilds, networks) =>
      (full.selfAttestations conf key guilds).map fun attestations =>
        some ⟨attestations, networks⟩

def peerAttestations (id : AttIdentity) :
    List (GuildId × Nat) → Signing → Option (List GuildAttestation × Signing)
  | [], signing => some ([], signing)
  | (guild, time) :: rest, signing =>
      match attest conf key signing ⟨guild, id, full.builtAt, full.schema⟩ time with
      | none => none
      | some (blob, signing) =>
          (peerAttestations id rest signing).map fun later =>
            (⟨blob, full.community guild, full.schema⟩ :: later.1, later.2)

def buildSeeds : List Told → Signing → Option (List Seed × Signing)
  | [], signing => some ([], signing)
  | told :: rest, signing =>
      match full.peerAttestations conf key told.id told.guilds signing with
      | none => none
      | some (attestations, signing) =>
          (buildSeeds rest signing).map fun later =>
            ({ told.seed with attestations := attestations } :: later.1, later.2)

def answer (signing : Signing) : Option (Received × Signing) := do
  let grant ← full.buildGrant conf key
  let (seeds, signing) ← full.buildSeeds conf key full.told signing
  let resp := { full.rest with grant := grant, seeds := seeds, isPartial := false, removed := [] }
  return (⟨resp, full.now, full.disk, full.loads⟩, signing)

end FullRefresh

/-- The mesh loop of an engine, and the signature cache of its coordinator. -/
structure Parking where
  poller : Poller
  signing : Signing := {}

inductive ParkEvent where
  | polled (event : PollEvent)
  /-- Another device is attested. -/
  | attested (call : SignCall) (time : Nat)
  | refreshed (full : FullRefresh)

namespace Parking

variable (decodes : Anchor → Bool) (parking : Parking)

def step : ParkEvent → Option Parking
  | .polled event => (parking.poller.step decodes event).map ({ parking with poller := · })
  | .attested call time =>
      if call.now ≤ time then
        (attest conf key parking.signing call time).map fun done =>
          { parking with signing := done.2 }
      else none
  | .refreshed full =>
      if parking.poller.selecting && full.inTime then
        (full.answer conf key parking.signing).bind fun done =>
          if (post decodes done.1 parking.poller.pins).2.toOption.isSome then
            some ⟨parking.poller.answered decodes done.1, done.2⟩
          else none
      else none

/-- A pass at a time, with nothing new to report; what a peer is asked for is fresher than what
is held. -/
structure QuietAt (poller : Poller) (now : Nat) (reading : Reading) : Prop where
  began : reading.tick.now = now
  looked : reading.now = now
  echoed : reading.later = now
  report : poller.report reading = poller.sent
  pulled : ∀ seed ∈ poller.seeds, ∀ att, reading.tick.pulled seed.pubkey = some att →
    seed.expiresAt ≤ att.expiresAt

structure Parks (poller : Poller) (now : Nat) : Prop where
  ownGrant : poller.ownGrantStale now = false
  full : poller.forcedFull now = false
  echoes : ∀ reading, QuietAt poller now reading → ∃ req,
    (poller.poll reading).pending = some req ∧ req.since = poller.since ∧ req.since.isSome

/-- A full refresh leaves the engine parked. -/
def Idles (_ : Parking) (event : ParkEvent) (parking' : Parking) : Prop :=
  match event with
  | .refreshed full => Parks parking'.poller full.now
  | _ => True

/-- The grant arrives with more than a hold of its life left, or the one that is kept has it;
and the seeds arrive with more than the margin left of what a cached signature has at least. -/
def fits : ParkEvent → Bool
  | .refreshed full =>
      (match full.holds with
      | some _ => decide (full.now + LONGPOLL_HOLD_SECS < full.builtAt + conf.attestationTtl)
      | none => parking.poller.device.all fun device =>
          decide (full.now + LONGPOLL_HOLD_SECS < device.grantExpiresAt)) &&
        (full.told.isEmpty || decide (full.now + COORD_FULL_MARGIN +
          signCacheReuseSecs conf.attestationTtl ≤ full.builtAt + conf.attestationTtl))
  | _ => true

end Parking

end

section

variable {conf : Conf} {key : GuildId → Anchor} {decodes : Anchor → Bool}
  {signing signing' : Signing} {full : FullRefresh} {now : Nat}

def Lives (conf : Conf) (now : Nat) (att : GuildAttestation) : Prop :=
  now + conf.attestationTtl <
    att.attestation.payload.attestation.expiresAt + signCacheReuseSecs conf.attestationTtl

def CacheLives (conf : Conf) (signing : Signing) : Prop :=
  ∀ entry e, signing.map.get? entry = some e →
    e.signedAt + conf.attestationTtl ≤ e.blob.payload.attestation.expiresAt

theorem sign_expires {anchor : Anchor} {att : Attestation} {schema : Nat} {blob : AttestationBlob}
    (hsigned : signAttestation anchor att schema = .ok blob) :
    blob.payload.attestation.expiresAt = att.expiresAt := by
  unfold signAttestation at hsigned
  split at hsigned
  · cases hsigned
    rfl
  · cases hsigned

theorem attest_lives {call : SignCall} {time : Nat} {blob : AttestationBlob}
    (hlives : CacheLives conf signing) (htime : call.now ≤ time)
    (hattest : attest conf key signing call time = some (blob, signing')) :
    CacheLives conf signing' ∧ ∀ community, Lives conf call.now ⟨blob, community, call.schema⟩ := by
  unfold attest at hattest
  dsimp only at hattest
  split at hattest
  · rename_i hit hfresh
    cases hattest
    obtain ⟨e, hentry, rfl, hreused, _⟩ := Signing.fresh_hit hfresh
    have hexpires := hlives _ e hentry
    refine ⟨hlives, fun _ => ?_⟩
    unfold Lives
    dsimp only
    omega
  · split at hattest
    · rename_i signed hsigned
      cases hattest
      have hexpires : blob.payload.attestation.expiresAt = time + conf.attestationTtl :=
        sign_expires hsigned
      constructor
      · intro entry e hentry
        rcases Signing.step_entry (o := .keep call.guild call.id call.now call.schema blob) hentry
          with hold | ⟨guild, id, signedAt, schema, kept, hop, _, rfl⟩
        · exact hlives entry e hold
        · cases hop
          dsimp only
          omega
      · intro _
        unfold Lives signCacheReuseSecs
        dsimp only
        omega
    · cases hattest

theorem peerAttestations_lives {id : AttIdentity} {guilds : List (GuildId × Nat)}
    {atts : List GuildAttestation} (hlives : CacheLives conf signing)
    (htimes : guilds.all (fun scope => decide (full.builtAt ≤ scope.2)) = true)
    (htold : full.peerAttestations conf key id guilds signing = some (atts, signing')) :
    CacheLives conf signing' ∧ ∀ att ∈ atts, Lives conf full.builtAt att := by
  induction guilds generalizing signing atts with
  | nil =>
      cases htold
      exact ⟨hlives, nofun⟩
  | cons scope rest ih =>
      obtain ⟨guild, time⟩ := scope
      rw [List.all_cons, Bool.and_eq_true] at htimes
      unfold FullRefresh.peerAttestations at htold
      split at htold
      · cases htold
      · rename_i blob kept hattest
        obtain ⟨later, hlater, hdone⟩ := Option.map_eq_some_iff.mp htold
        cases hdone
        obtain ⟨hkept, hblob⟩ := attest_lives hlives (of_decide_eq_true htimes.1) hattest
        obtain ⟨hend, hrest⟩ := ih hkept htimes.2 hlater
        exact ⟨hend, List.forall_mem_cons.mpr ⟨hblob _, hrest⟩⟩

theorem buildSeeds_lives {told : List Told} {seeds : List Seed}
    (hlives : CacheLives conf signing)
    (htimes : (told.all fun told => told.guilds.all fun scope =>
      decide (full.builtAt ≤ scope.2)) = true)
    (hbuilt : full.buildSeeds conf key told signing = some (seeds, signing')) :
    CacheLives conf signing' ∧
      ∀ seed ∈ seeds, told ≠ [] ∧ ∀ att ∈ seed.attestations, Lives conf full.builtAt att := by
  induction told generalizing signing seeds with
  | nil =>
      cases hbuilt
      exact ⟨hlives, nofun⟩
  | cons first rest ih =>
      rw [List.all_cons, Bool.and_eq_true] at htimes
      unfold FullRefresh.buildSeeds at hbuilt
      split at hbuilt
      · cases hbuilt
      · rename_i atts kept htold
        obtain ⟨later, hlater, hdone⟩ := Option.map_eq_some_iff.mp hbuilt
        cases hdone
        obtain ⟨hkept, hatts⟩ := peerAttestations_lives hlives htimes.1 htold
        obtain ⟨hend, hrest⟩ := ih hkept htimes.2 hlater
        refine ⟨hend, List.forall_mem_cons.mpr ⟨⟨List.cons_ne_nil _ _, hatts⟩, ?_⟩⟩
        exact fun seed hseed => ⟨List.cons_ne_nil _ _, (hrest seed hseed).2⟩

theorem selfAttestations_expire {guilds : List (GuildId × Nat)} {atts : List GuildAttestation}
    (htimes : guilds.all (fun scope => decide (full.builtAt ≤ scope.2)) = true)
    (hsigned : full.selfAttestations conf key guilds = some atts) :
    ∀ att ∈ atts, full.builtAt + conf.attestationTtl ≤
      att.attestation.payload.attestation.expiresAt := by
  induction guilds generalizing atts with
  | nil =>
      cases hsigned
      exact nofun
  | cons scope rest ih =>
      obtain ⟨guild, time⟩ := scope
      rw [List.all_cons, Bool.and_eq_true] at htimes
      unfold FullRefresh.selfAttestations at hsigned
      dsimp only at hsigned
      split at hsigned
      · rename_i blob hblob
        obtain ⟨later, hlater, rfl⟩ := Option.map_eq_some_iff.mp hsigned
        have hbegun : full.builtAt ≤ time := of_decide_eq_true htimes.1
        have hexpires : blob.payload.attestation.expiresAt = time + conf.attestationTtl :=
          sign_expires hblob
        refine List.forall_mem_cons.mpr ⟨?_, ih htimes.2 hlater⟩
        dsimp only
        omega
      · cases hsigned

/-! What the engine makes of the answer. -/

theorem post_device {received : Received} {pins pins' : Pins} {resp : RegisterResp}
    {device : Option SelfDevice} (hpost : post decodes received pins =
      (pins', .ok (resp, device))) :
    resp = received.resp ∧
      (received.resp.grant = none ∧ device = none ∨
        ∃ grant own, received.resp.grant = some grant ∧ device = some own ∧
          ∃ att ∈ grant.attestations,
            own.grantExpiresAt = att.attestation.payload.attestation.expiresAt) := by
  unfold post at hpost
  split at hpost
  · cases hpost
  · split at hpost
    · rename_i hgrant
      cases hpost
      exact ⟨rfl, .inl ⟨hgrant, rfl⟩⟩
    · rename_i grant hgrant
      split at hpost
      · cases hpost
      · rename_i att community hverified
        cases hpost
        obtain ⟨found, hfound, hpair⟩ := Option.map_eq_some_iff.mp hverified
        cases hpair
        obtain ⟨hblob, hatt, _⟩ := firstVerified_some hfound
        exact ⟨rfl, .inr ⟨grant, _, hgrant, rfl, found.1, hblob,
          congrArg Attestation.expiresAt hatt⟩⟩

theorem forcedFull_false {poller : Poller}
    (hfresh : ∀ seed ∈ poller.seeds, now + COORD_FULL_MARGIN < seed.expiresAt) :
    poller.forcedFull now = false := by
  unfold Poller.forcedFull
  cases hseeds : poller.seeds with
  | nil => rfl
  | cons seed rest =>
      unfold heldForRefresh
      dsimp only
      split
      · rename_i soonest hsoonest
        have hmem : soonest ∈ (seed :: rest).map SeedPeer.expiresAt :=
          (List.min?_eq_some_iff.mp hsoonest).1
        obtain ⟨held, hheld, rfl⟩ := List.mem_map.mp hmem
        rw [if_neg (Nat.not_le.mpr (hfresh held (hseeds ▸ hheld)))]
        rfl
      · rfl

theorem ownGrantStale_false {poller : Poller}
    (hfresh : ∀ device ∈ poller.device, now + LONGPOLL_HOLD_SECS < device.grantExpiresAt) :
    poller.ownGrantStale now = false := by
  unfold Poller.ownGrantStale
  rw [Option.any_eq_false]
  intro device hdevice
  exact decide_eq_false (Nat.not_le.mpr (hfresh device hdevice))

theorem gossiped_fresh {poller : Poller} {reading : Reading} {bound : Nat}
    (hquiet : Parking.QuietAt poller now reading)
    (hfresh : ∀ seed ∈ poller.seeds, bound < seed.expiresAt) :
    ∀ seed ∈ poller.gossiped reading.tick, bound < seed.expiresAt := by
  intro seed hseed
  unfold Poller.gossiped at hseed
  split at hseed
  · obtain ⟨held, hheld, rfl⟩ := List.mem_map.mp (List.mem_of_mem_filter hseed)
    have hlater := hfresh held hheld
    split
    · exact hlater
    · cases hpulled : reading.tick.pulled held.pubkey with
      | none => exact hlater
      | some att => exact hlater.trans_le (hquiet.pulled held hheld att hpulled)
  · exact hfresh seed hseed

theorem parks_of_fresh {poller : Poller} (hidle : poller.pending = none)
    (hsince : poller.since.isSome)
    (hdevice : ∀ device ∈ poller.device, now + LONGPOLL_HOLD_SECS < device.grantExpiresAt)
    (hseeds : ∀ seed ∈ poller.seeds, now + COORD_FULL_MARGIN < seed.expiresAt) :
    Parking.Parks poller now where
  ownGrant := ownGrantStale_false hdevice
  full := forcedFull_false hseeds
  echoes := by
    intro reading hquiet
    have hreport : (poller.ticked reading).haveReport reading = false := by
      have hstale := Poller.stale_iff.mpr hquiet.report.symm
      have hown : (poller.ticked reading).ownGrantStale reading.now = false :=
        ownGrantStale_false (hquiet.looked ▸ hdevice)
      have hfull : (poller.ticked reading).forcedFull reading.later = false :=
        forcedFull_false (hquiet.echoed ▸ gossiped_fresh hquiet hseeds)
      unfold Poller.haveReport
      rw [hown, hfull, Bool.or_false, Bool.or_false]
      exact hstale
    have hasks : ((poller.ticked reading).request reading).since = poller.since :=
      if_neg (Bool.eq_false_iff.mp hreport)
    refine ⟨(poller.ticked reading).request reading, ?_, hasks, hasks ▸ hsince⟩
    unfold Poller.poll
    rcases Poller.issue_cases (poller.ticked reading) reading with
      ⟨req, _, hpending, _⟩ | ⟨_, hissue⟩
    · exact nomatch hidle.symm.trans hpending
    · rw [hissue]

theorem answer_built {received : Received}
    (hanswer : full.answer conf key signing = some (received, signing')) :
    ∃ grant seeds, full.buildGrant conf key = some grant ∧
      full.buildSeeds conf key full.told signing = some (seeds, signing') ∧
      received.resp.grant = grant ∧ received.resp.seeds = seeds ∧
      received.resp.isPartial = false := by
  unfold FullRefresh.answer at hanswer
  obtain ⟨grant, hgrant, hanswer⟩ := Option.bind_eq_some_iff.mp hanswer
  obtain ⟨⟨seeds, kept⟩, hseeds, hanswer⟩ := Option.bind_eq_some_iff.mp hanswer
  cases hanswer
  exact ⟨grant, seeds, hgrant, hseeds, rfl, rfl, rfl⟩

theorem granted_device {received : Received} {p : Poller} {pins : Pins} {resp : RegisterResp}
    {device : Option SelfDevice} (htimes : full.inTime = true)
    (hgrant : full.buildGrant conf key = some received.resp.grant)
    (hpost : post decodes received p.pins = (pins, .ok (resp, device)))
    (hholds : ∀ holds, full.holds = some holds →
      full.now + LONGPOLL_HOLD_SECS < full.builtAt + conf.attestationTtl)
    (hkept : full.holds = none → ∀ device ∈ p.device,
      full.now + LONGPOLL_HOLD_SECS < device.grantExpiresAt) :
    ∀ own ∈ device.or p.device, full.now + LONGPOLL_HOLD_SECS < own.grantExpiresAt := by
  unfold FullRefresh.buildGrant at hgrant
  obtain ⟨_, hdevice⟩ := post_device hpost
  split at hgrant
  · rename_i hroleless
    have hnone : received.resp.grant = none := (Option.some.inj hgrant).symm
    rcases hdevice with ⟨_, rfl⟩ | ⟨grant, own, hsome, _⟩
    · exact hkept hroleless
    · exact nomatch hnone.symm.trans hsome
  · rename_i guilds networks hheld
    obtain ⟨atts, hsigned, hbuilt⟩ := Option.map_eq_some_iff.mp hgrant
    have hfresh := hholds _ hheld
    rcases hdevice with ⟨hnone, _⟩ | ⟨grant, own, hsome, rfl, att, hatt, hexpires⟩
    · exact nomatch hbuilt.trans hnone
    · obtain rfl : Grant.mk atts networks = grant := Option.some.inj (hbuilt.trans hsome)
      have htimes := (Bool.and_eq_true_iff.mp htimes).1
      rw [hheld, Option.all_some] at htimes
      have hlives := selfAttestations_expire htimes hsigned att hatt
      intro device hdevice
      obtain rfl : own = device := Option.some.inj hdevice
      omega

theorem told_seeds {received : Received} {pins : Pins} {prev : List SeedPeer}
    (hlives : ∀ seed ∈ received.resp.seeds, full.told ≠ [] ∧
      ∀ att ∈ seed.attestations, Lives conf full.builtAt att)
    (hfull : received.resp.isPartial = false)
    (hmargin : full.told ≠ [] → full.now + COORD_FULL_MARGIN +
      signCacheReuseSecs conf.attestationTtl ≤ full.builtAt + conf.attestationTtl) :
    ∀ peer ∈ mergeSeeds decodes prev received pins,
      full.now + COORD_FULL_MARGIN < peer.expiresAt := by
  intro peer hpeer
  unfold mergeSeeds at hpeer
  rw [hfull] at hpeer
  obtain ⟨seed, hseed, hadmitted⟩ := List.mem_filterMap.mp hpeer
  obtain ⟨⟨att, hatt, rfl⟩, _⟩ := admitSeed_some hadmitted
  obtain ⟨htold, hatts⟩ := hlives seed hseed
  have hlater := hatts att hatt
  have henough := hmargin htold
  unfold Lives at hlater
  change full.now + COORD_FULL_MARGIN < att.attestation.payload.attestation.expiresAt
  omega

theorem Parks.of_fits {parking parking' : Parking} (hlives : CacheLives conf parking.signing)
    (hfits : parking.fits conf (.refreshed full) = true)
    (hstep : parking.step conf key decodes (.refreshed full) = some parking') :
    Parking.Parks parking'.poller full.now := by
  obtain ⟨hguard, hstep⟩ := Option.ite_none_right_eq_some.mp hstep
  obtain ⟨⟨received, signing'⟩, hanswer, hstep⟩ := Option.bind_eq_some_iff.mp hstep
  obtain ⟨hverified, hstep⟩ := Option.ite_none_right_eq_some.mp hstep
  cases hstep
  have htimes := (Bool.and_eq_true_iff.mp hguard).2
  obtain ⟨hgrantFits, hseedFits⟩ := Bool.and_eq_true_iff.mp hfits
  obtain ⟨_, seeds, hgrant, hseeds, rfl, rfl, hfull⟩ := answer_built hanswer
  obtain ⟨_, htold⟩ := buildSeeds_lives hlives (Bool.and_eq_true_iff.mp htimes).2 hseeds
  unfold Poller.answered
  split
  · rename_i pins resp device hpost
    refine parks_of_fresh rfl rfl ?_ (told_seeds htold hfull ?_)
    · refine granted_device htimes hgrant hpost ?_ ?_
      · intro holds hholds
        rw [hholds] at hgrantFits
        exact of_decide_eq_true hgrantFits
      · intro hroleless own hown
        rw [hroleless] at hgrantFits
        exact of_decide_eq_true ((Option.all_eq_true _ _).mp hgrantFits own hown)
    · intro hsome
      exact of_decide_eq_true ((Bool.or_eq_true_iff.mp hseedFits).resolve_left
        (by simpa using hsome))
  · rename_i pins error hpost
    rw [hpost] at hverified
    cases hverified

theorem CacheLives.step {parking parking' : Parking} {event : ParkEvent}
    (hlives : CacheLives conf parking.signing)
    (hstep : parking.step conf key decodes event = some parking') :
    CacheLives conf parking'.signing := by
  cases event with
  | polled event =>
      obtain ⟨poller, _, rfl⟩ := Option.map_eq_some_iff.mp hstep
      exact hlives
  | attested call time =>
      obtain ⟨htime, hstep⟩ := Option.ite_none_right_eq_some.mp hstep
      obtain ⟨done, hattest, rfl⟩ := Option.map_eq_some_iff.mp hstep
      exact (attest_lives hlives htime hattest).1
  | refreshed full =>
      obtain ⟨hguard, hstep⟩ := Option.ite_none_right_eq_some.mp hstep
      obtain ⟨done, hanswer, hstep⟩ := Option.bind_eq_some_iff.mp hstep
      obtain ⟨_, hstep⟩ := Option.ite_none_right_eq_some.mp hstep
      cases hstep
      have htimes := (Bool.and_eq_true_iff.mp hguard).2
      obtain ⟨_, seeds, _, hseeds, _⟩ := answer_built hanswer
      exact (buildSeeds_lives hlives (Bool.and_eq_true_iff.mp htimes).2 hseeds).1

/-- In a run whose full refreshes arrive with enough of their life left, each leaves the engine
with no reason to ask again at once. -/
theorem refreshes_park (conf : Conf) (key : GuildId → Anchor) (decodes : Anchor → Bool)
    (version : Nat) (device : SelfDevice) (seeds : List SeedPeer) (pins : Pins)
    (events : List ParkEvent)
    (hfits : meets (Parking.step conf key decodes) (Parking.fits conf)
      ⟨.entered version device seeds pins, {}⟩ events = true) :
    AtEach (Parking.step conf key decodes) ⟨.entered version device seeds pins, {}⟩ events
      Parking.Idles := by
  refine AtEach.of_meets (fun parking => CacheLives conf parking.signing) hfits ?_ ?_ ?_
  · intro entry e hentry
    cases hentry
  · exact fun _ _ _ hlives _ hstep => hlives.step hstep
  · intro parking event parking' hlives hfits hstep
    cases event with
    | refreshed full => exact Parks.of_fits hlives hfits hstep
    | _ => trivial

/-- A refresh of a device that holds a role in guild 3, or none; it is told of the peers. -/
def refreshAt (now : Nat) (granted : Bool) (told : List Told) : FullRefresh where
  builtAt := now
  schema := ATTESTATION_SCHEMA_V2
  caller := ⟨1, "alice", "laptop", false, 1, 7⟩
  holds := if granted then some ([(3, now)], ["games"]) else none
  told := told
  rest := { anchors := [⟨3, 9, []⟩] }
  now := now

def toldPeer (now : Nat) : Told where
  id := ⟨2, "bob", "pc", false, 2, 8⟩
  guilds := [(3, now)]
  seed := ⟨[], none, none, [], none, none, 0⟩

/-- A coordinator whose attestations live as long as is asked, and an engine that it has just
registered. -/
def living (attestationTtl : Nat) : Conf :=
  { Conf.small with wgNet := ⟨0, 0⟩, attestationTtl := attestationTtl }

def registered : Parking :=
  ⟨.entered 1 lonePlayer [] ∅, {}⟩

/-- The peer was signed for earlier, in another's answer. -/
def cachedPeer : List ParkEvent :=
  [.attested ⟨3, (toldPeer 900).id, 900, ATTESTATION_SCHEMA_V2⟩ 900, .polled (.polled {}),
    .refreshed (refreshAt 1000 true [toldPeer 1000])]

theorem refreshes_park_cached :
    (runs (Parking.step (living 1800) (fun _ => 9) fun _ => true) registered cachedPeer).any
        (fun parking => parking.poller.seeds.map SeedPeer.expiresAt = [2700]) = true ∧
      AtEach (Parking.step (living 1800) (fun _ => 9) fun _ => true) registered cachedPeer
        Parking.Idles :=
  ⟨by decide, refreshes_park (living 1800) (fun _ => 9) (fun _ => true) 1 lonePlayer [] ∅
    cachedPeer (by decide)⟩

theorem not_idles {attestationTtl now : Nat} {granted : Bool}
    (hplay : (runs (Parking.step (living attestationTtl) (fun _ => 9) fun _ => true) registered
      [.polled (.polled {}), .refreshed (refreshAt now granted [])]).any
        (fun parking => parking.poller.ownGrantStale now) = true) :
    ¬ AtEach (Parking.step (living attestationTtl) (fun _ => 9) fun _ => true) registered
      [.polled (.polled {}), .refreshed (refreshAt now granted [])] Parking.Idles := by
  intro hall
  obtain ⟨parking', hrun, hstale⟩ := (Option.any_eq_true _ _).mp hplay
  have hrun : runs _ registered ([ParkEvent.polled (.polled {})] ++
      [.refreshed (refreshAt now granted [])]) = some parking' := hrun
  rw [runs_snoc] at hrun
  obtain ⟨parking, hbefore, hstep⟩ := Option.bind_eq_some_iff.mp hrun
  have hparks : Parking.Parks parking'.poller now :=
    hall [.polled (.polled {})] _ parking parking' (List.prefix_refl _) hbefore hstep
  rw [hparks.ownGrant] at hstale
  cases hstale

/-- With attestations that live for a minute the grant that just came is stale already, and with
any the grant that is kept when the last role is lost will be. -/
theorem refresh_asks_again :
    (acceptsTtl 60 = true ∧
      ¬ AtEach (Parking.step (living 60) (fun _ => 9) fun _ => true) registered
        [.polled (.polled {}), .refreshed (refreshAt 1000 true [])] Parking.Idles) ∧
    (acceptsTtl 1800 = true ∧
      ¬ AtEach (Parking.step (living 1800) (fun _ => 9) fun _ => true) registered
        [.polled (.polled {}), .refreshed (refreshAt 5000 false [])] Parking.Idles) :=
  ⟨⟨rfl, not_idles (by decide)⟩, ⟨rfl, not_idles (by decide)⟩⟩

end

end UnityLan.Engine
