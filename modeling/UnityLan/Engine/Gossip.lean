import UnityLan.Engine.Expiry

namespace UnityLan.Engine

open UnityLan.Foundation Fw

/-! What a peer's own attestations keep alive while the coordinator is out of reach. -/

structure Pull where
  now : Nat
  /-- The attestations that a peer serves of itself; none, where it does not answer. -/
  served : PubKey → List GuildAttestation := fun _ => []
  /-- The pins that cannot be read. -/
  unread : GuildId → Bool := fun _ => false
  answers : PubKey → Option (List MeshService) := fun _ => none
  own : List MeshService := []

/-- What happens to an engine that gets no answer of the coordinator. -/
inductive OutageEvent
  | toggled (localnet : LocalNet) (persisted : Bool)
  | pulled (pull : Pull)
  | woken (arm : Arm)
  | rechecked (arm : Arm) (changed : Bool)
  | failed

section

variable (decodes : Anchor → Bool) (m : Meshing)

def Pull.tick (pull : Pull) : Tick where
  now := pull.now
  pulled := fun pubkey =>
    (m.loop.seeds.find? fun seed => seed.pubkey == pubkey).bind fun seed =>
      verifyPulled decodes (pull.served pubkey) pubkey seed.expiresAt
        (loadAllPinned pull.unread m.pins) pull.now
  answers := pull.answers
  own := pull.own

def OutageEvent.passed : OutageEvent → PassEvent
  | .toggled localnet persisted => .toggled localnet persisted
  | .pulled pull => .ticked (pull.tick decodes m)
  | .woken arm => .woken arm
  | .rechecked arm changed => .rechecked arm changed
  | .failed => .failed

def Meshing.alone (event : OutageEvent × Backend) : Option Meshing :=
  m.step decodes (event.1.passed decodes m, event.2)

end

def OutageEvent.completes : OutageEvent → Bool
  | .toggled _ _ | .pulled _ => false
  | _ => true

def stated (blob : GuildAttestation) : Attestation :=
  blob.attestation.payload.attestation

/-- The attestation is signed by an anchor that is pinned for its guild, has not lapsed, and is of
the peer, at an address in its network. -/
def Pull.accepts (pull : Pull) (m : Meshing) (pubkey : PubKey) (blob : GuildAttestation) : Bool :=
  (loadAllPinned pull.unread m.pins).contains ((stated blob).guildId, blob.attestation.signer) &&
    decide (pull.now < (stated blob).expiresAt) && (stated blob).wgPubkey == pubkey &&
      (stated blob).wgNet.contains (stated blob).wgIp

def Ceased (shared : Attestation → Bool) (revoked ttl : Nat) (att : Attestation) : Prop :=
  shared att = true → att.issuedAt < revoked ∧ att.expiresAt ≤ att.issuedAt + ttl

/-- The engine gets no answer any more, and no attestation is issued any more to the peer for a
network that both share. -/
structure CutOff (decodes : Anchor → Bool) (shared : Attestation → Bool) (pubkey : PubKey)
    (revoked ttl : Nat) (m : Meshing) (events : List (OutageEvent × Backend)) : Prop where
  reached : ∃ e entered before, e.gossip = true ∧ Meshing.enter e = some entered ∧
    runs (Meshing.step decodes) entered before = some m
  /-- The peer is held under an attestation for a network that is shared. -/
  held : ∀ seed ∈ m.loop.seeds, seed.pubkey = pubkey →
    ∃ att, seed.expiresAt = att.expiresAt ∧ shared att = true ∧ Ceased shared revoked ttl att
  ceased : ∀ pull backend, (.pulled pull, backend) ∈ events →
    ∀ blob ∈ pull.served pubkey, Ceased shared revoked ttl (stated blob)

/-- Of the attestations that outlast the revocation by more than their lifetime, the peer serves
none that is accepted. -/
def Meshing.spares (shared : Attestation → Bool) (pubkey : PubKey) (limit : Nat) (m : Meshing) :
    OutageEvent × Backend → Bool
  | (.pulled pull, _) =>
      (pull.served pubkey).all fun blob =>
        shared (stated blob) || decide ((stated blob).expiresAt ≤ limit) ||
          !pull.accepts m pubkey blob
  | _ => true

section

variable {decodes : Anchor → Bool} {m m' : Meshing} {event : OutageEvent} {backend : Backend}
  {pull : Pull} {shared : Attestation → Bool} {pubkey : PubKey} {revoked ttl limit : Nat}

theorem passed_completes :
    (event.passed decodes m).completes = event.completes := by
  cases event with
  | toggled localnet persisted => rfl
  | pulled pull => rfl
  | woken arm => rfl
  | rechecked arm changed => rfl
  | failed => rfl

theorem pulled_source {att : Attestation}
    (hpulled : (pull.tick decodes m).pulled pubkey = some att) :
    ∃ blob ∈ pull.served pubkey, stated blob = att ∧ pull.accepts m pubkey blob = true := by
  obtain ⟨seed, -, hverified⟩ := Option.bind_eq_some_iff.mp hpulled
  obtain ⟨⟨blob, found⟩, hfirst, rfl⟩ := Option.map_eq_some_iff.mp hverified
  obtain ⟨hserved, rfl, hfresh, hown, hpinned⟩ := firstVerified_some hfirst
  obtain ⟨hown, -⟩ := Bool.and_eq_true_iff.mp hown
  refine ⟨blob, hserved, rfl, ?_⟩
  simp only [Pull.accepts, stated, Bool.and_eq_true, List.contains_iff_mem, and_assoc]
  exact ⟨hpinned, decide_eq_true hfresh, Bool.and_eq_true_iff.mp hown⟩

theorem pulled_expires {att : Attestation}
    (hspares : m.spares shared pubkey (revoked + ttl) (.pulled pull, backend) = true)
    (hceased : ∀ blob ∈ pull.served pubkey, Ceased shared revoked ttl (stated blob))
    (hpulled : (pull.tick decodes m).pulled pubkey = some att) : att.expiresAt ≤ revoked + ttl := by
  obtain ⟨blob, hserved, rfl, haccepted⟩ := pulled_source hpulled
  have hspared := List.all_eq_true.mp hspares blob hserved
  rw [haccepted, Bool.not_true, Bool.or_false, Bool.or_eq_true, decide_eq_true_eq] at hspared
  rcases hspared with hshared | hearly
  · obtain ⟨hissued, hlasts⟩ := hceased blob hserved hshared
    omega
  · exact hearly

def Meshing.Bounds (m : Meshing) (pubkey : PubKey) (limit : Nat) : Prop :=
  ∀ seed ∈ m.loop.seeds, seed.pubkey = pubkey → seed.expiresAt ≤ limit

theorem ticked_source {loop : Loop} {tick : Tick} {seed : SeedPeer}
    (hseed : seed ∈ (loop.ticked tick).seeds) :
    ∃ held ∈ loop.seeds, held.pubkey = seed.pubkey ∧
      (seed = held ∨ ∃ att, tick.pulled held.pubkey = some att ∧ seed.expiresAt = att.expiresAt) := by
  have hrenewed : seed ∈ loop.seeds ∨ seed ∈ loop.renewed tick := by
    change seed ∈ (if tick.gossip then loop.gossiped tick else loop).seeds at hseed
    split at hseed
    · right
      have hgossiped : (loop.gossiped tick).seeds =
          (loop.renewed tick).filter fun seed => decide (tick.now < seed.expiresAt) := by
        unfold Loop.gossiped
        dsimp only
        split
        · rfl
        · rfl
      rw [hgossiped] at hseed
      exact List.mem_of_mem_filter hseed
    · exact .inl hseed
  rcases hrenewed with hheld | hrenewed
  · exact ⟨seed, hheld, rfl, .inl rfl⟩
  · obtain ⟨held, hheld, rfl⟩ := List.mem_map.mp hrenewed
    split
    · exact ⟨held, hheld, rfl, .inl rfl⟩
    · cases hpulled : tick.pulled held.pubkey with
      | none => exact ⟨held, hheld, rfl, .inl rfl⟩
      | some att => exact ⟨held, hheld, rfl, .inr ⟨att, hpulled, rfl⟩⟩

theorem Meshing.Bounds.alone (hbounds : m.Bounds pubkey (revoked + ttl)) (htidy : m.Tidy)
    (hspares : m.spares shared pubkey (revoked + ttl) (event, backend) = true)
    (hceased : ∀ pull, event = .pulled pull →
      ∀ blob ∈ pull.served pubkey, Ceased shared revoked ttl (stated blob))
    (hstep : m.alone decodes (event, backend) = some m') : m'.Bounds pubkey (revoked + ttl) := by
  obtain ⟨-, -, -, hlooped⟩ := htidy.step hstep
  have hkept : m'.loop.seeds = m.loop.seeds → m'.Bounds pubkey (revoked + ttl) := by
    intro hsame seed hseed
    rw [hsame] at hseed
    exact hbounds seed hseed
  cases event with
  | toggled localnet persisted =>
      apply hkept
      rw [← Option.some.inj hlooped]
  | pulled pull =>
      have hticked := step_ticked hlooped
      intro seed hseed hkey
      rw [hticked] at hseed
      obtain ⟨held, hheld, hsame, hsource⟩ := ticked_source hseed
      have hpeer : held.pubkey = pubkey := hsame.trans hkey
      rcases hsource with rfl | ⟨att, hpulled, hexpires⟩
      · exact hbounds seed hheld hkey
      · rw [hexpires]
        rw [hpeer] at hpulled
        exact pulled_expires hspares (hceased pull rfl) hpulled
  | woken arm =>
      apply hkept
      rw [(step_completes rfl hlooped).2]
      exact sync_seeds _
  | rechecked arm changed =>
      apply hkept
      rw [(step_completes rfl hlooped).2]
      cases changed with
      | true => rfl
      | false => rfl
  | failed =>
      apply hkept
      rw [(step_completes rfl hlooped).2]
      rfl

theorem reached_tidy {e : Enrolled} {entered : Meshing} {before : List (PassEvent × Backend)}
    (hentered : Meshing.enter e = some entered)
    (hrun : runs (Meshing.step decodes) entered before = some m) :
    m.Tidy ∧ m.gossip = e.gossip := by
  have hthroughout : Throughout (Meshing.step decodes) entered before fun m =>
      m.Tidy ∧ m.gossip = e.gossip := by
    refine Throughout.of_step (fun m => m.Tidy ∧ m.gossip = e.gossip)
      (meets_events fun _ _ => rfl) (Meshing.enter_tidy hentered) ?_ fun _ h => h
    rintro m ⟨event, backend⟩ after ⟨htidy, hgossip⟩ - hstep
    obtain ⟨hafter, hkept, -⟩ := htidy.step hstep
    exact ⟨hafter, hkept.trans hgossip⟩
  exact hthroughout before m (List.prefix_refl _) hrun

theorem Meshing.Bounds.gone (hbounds : m'.Bounds pubkey limit) (hunexpired : m'.Unexpired m'.now)
    (hlate : limit ≤ m'.now) : m'.tunnels.installed.get? pubkey = none := by
  by_contra hinstalled
  obtain ⟨seed, hseed, hkey, hfresh⟩ := hunexpired pubkey hinstalled
  exact Nat.not_le.mpr hfresh ((hbounds seed hseed hkey).trans hlate)

theorem alone_unexpired (htidy : m.Tidy) (hgossip : m.gossip = true)
    (hstep : m.alone decodes (event, backend) = some m') (hcompletes : event.completes = true) :
    m'.Unexpired m'.now := by
  obtain ⟨hafter, -, hnow, hlooped⟩ := htidy.step hstep
  refine hafter.unexpired ?_
  rw [hnow]
  exact Meshing.step_alive htidy hgossip hlooped (.inr (passed_completes.trans hcompletes))

theorem alone_lapses {events : List (OutageEvent × Backend)} (htidy : m.Tidy)
    (hgossip : m.gossip = true) (hbounds : m.Bounds pubkey (revoked + ttl))
    (hceased : ∀ pull backend, (.pulled pull, backend) ∈ events →
      ∀ blob ∈ pull.served pubkey, Ceased shared revoked ttl (stated blob))
    (hspares : meets (Meshing.alone decodes) (Meshing.spares shared pubkey (revoked + ttl)) m
      events = true) :
    AtEach (Meshing.alone decodes) m events fun _ event after =>
      event.1.completes = true → revoked + ttl ≤ after.now →
        after.tunnels.installed.get? pubkey = none := by
  induction events generalizing m with
  | nil => exact atEach_nil
  | cons first rest ih =>
      obtain ⟨event, backend⟩ := first
      cases hstep : m.alone decodes (event, backend) with
      | none => exact atEach_stuck hstep
      | some after =>
          rw [meets, hstep] at hspares
          obtain ⟨hspared, hrest⟩ := Bool.and_eq_true_iff.mp hspares
          obtain ⟨hafter, hkept, -⟩ := htidy.step hstep
          have hbounded : after.Bounds pubkey (revoked + ttl) := by
            refine hbounds.alone htidy hspared ?_ hstep
            rintro pull rfl
            exact hceased pull backend List.mem_cons_self
          rw [atEach_cons hstep]
          refine ⟨fun hcompletes hlate => ?_, ih hafter (hkept.trans hgossip) hbounded ?_ hrest⟩
          · exact hbounded.gone (alone_unexpired htidy hgossip hstep hcompletes) hlate
          · exact fun pull backend hmem => hceased pull backend (List.mem_cons_of_mem _ hmem)

/-- While the coordinator is out of reach and no pull brings another attestation of the peer, no
pass leaves it installed once the last one it can have been issued has lapsed. -/
theorem revoked_lapses {events : List (OutageEvent × Backend)}
    (hcut : CutOff decodes shared pubkey revoked ttl m events)
    (hspares : meets (Meshing.alone decodes) (Meshing.spares shared pubkey (revoked + ttl)) m
      events = true) :
    AtEach (Meshing.alone decodes) m events fun _ event after =>
      event.1.completes = true → revoked + ttl ≤ after.now →
        after.tunnels.installed.get? pubkey = none := by
  obtain ⟨⟨e, entered, before, hon, hentered, hrun⟩, hheld, hceased⟩ := hcut
  obtain ⟨htidy, hgossip⟩ := reached_tidy hentered hrun
  have hbounds : m.Bounds pubkey (revoked + ttl) := by
    intro seed hseed hkey
    obtain ⟨att, hexpires, hshared, hatt⟩ := hheld seed hseed hkey
    obtain ⟨hissued, hlasts⟩ := hatt hshared
    omega
  exact alone_lapses htidy (hgossip.trans hon) hbounds hceased hspares

end

/-- An attestation of the peer 9. -/
def visitorAttestation (guild : GuildId) (signer : Anchor) (issuedAt : Nat) : GuildAttestation where
  attestation := .sign signer ⟨ATTESTATION_SCHEMA_V2,
    { guildId := guild
      userId := 2
      username := "bob"
      deviceName := "pc"
      isPrimary := false
      wgIp := 9
      wgNet := ⟨0, 0⟩
      wgPubkey := 9
      issuedAt := issuedAt
      expiresAt := issuedAt + 1800 }⟩
  communityName := ""
  attSchema := ATTESTATION_SCHEMA_V2

/-- Guild 5 is the one whose network both share; guild 6 was pinned once. -/
def inGuild (att : Attestation) : Bool :=
  att.guildId == 5

def pinning : Enrolled :=
  { hosting true with pins := (Table.insert ∅ 5 (.anchor 11)).insert 6 (.anchor 12) }

/-- The peer is asked at 7000 and at 8000, and serves what it has. -/
def pulledTwice (served : List GuildAttestation) : List (OutageEvent × Backend) :=
  [(.pulled { now := 7000, served := fun _ => served }, {}), (.rechecked {} false, {}),
    (.pulled { now := 8000, served := fun _ => served }, {}), (.failed, {})]

theorem pinning_cutOff (served : List GuildAttestation) {m : Meshing}
    (hentered : Meshing.enter pinning = some m)
    (hserved : ∀ blob ∈ served, Ceased inGuild 5401 1800 (stated blob)) :
    CutOff (fun _ => true) inGuild 9 5401 1800 m (pulledTwice served) := by
  refine ⟨⟨pinning, m, [], rfl, hentered, rfl⟩, ?_, ?_⟩
  · intro seed hseed _
    rw [(Meshing.apply_some hentered).1] at hseed
    obtain rfl : seed = visitor := List.mem_singleton.mp hseed
    exact ⟨stated (visitorAttestation 5 11 5400), rfl, rfl, fun _ => by decide⟩
  · intro pull backend hmem
    simp only [pulledTwice, List.mem_cons, Prod.mk.injEq, OutageEvent.pulled.injEq, reduceCtorEq,
      false_and, false_or, List.not_mem_nil, or_false] at hmem
    rcases hmem with ⟨rfl, -⟩ | ⟨rfl, -⟩
    · exact hserved
    · exact hserved

theorem pulledTwice_last {served : List GuildAttestation} {m after : Meshing}
    (hrun : runs (Meshing.alone fun _ => true) m (pulledTwice served) = some after) :
    ∃ before, runs (Meshing.alone fun _ => true) m ((pulledTwice served).take 3) = some before ∧
      Meshing.alone (fun _ => true) before (.failed, {}) = some after := by
  have hsplit : pulledTwice served =
      (pulledTwice served).take 3 ++ [(OutageEvent.failed, ({} : Backend))] := rfl
  rw [hsplit, runs_snoc] at hrun
  exact Option.bind_eq_some_iff.mp hrun

theorem revoked_lapses_pinned :
    ∃ m after, Meshing.enter pinning = some m ∧
      runs (Meshing.alone fun _ => true) m (pulledTwice [visitorAttestation 5 11 5400]) = some after ∧
      after.now = 8000 ∧ after.tunnels.installed.get? 9 = none := by
  have hplay : ((Meshing.enter pinning).any fun m =>
      meets (Meshing.alone fun _ => true) (Meshing.spares inGuild 9 7201) m
          (pulledTwice [visitorAttestation 5 11 5400]) &&
        (runs (Meshing.alone fun _ => true) m (pulledTwice [visitorAttestation 5 11 5400])).any
          fun after => after.now == 8000) = true := by
    decide
  obtain ⟨m, hentered, hplay⟩ := (Option.any_eq_true _ _).mp hplay
  obtain ⟨hspares, hruns⟩ := Bool.and_eq_true_iff.mp hplay
  obtain ⟨after, hrun, hnow⟩ := (Option.any_eq_true _ _).mp hruns
  have hlate : after.now = 8000 := beq_iff_eq.mp hnow
  have hcut := pinning_cutOff [visitorAttestation 5 11 5400] hentered fun blob hblob => by
    rw [List.mem_singleton.mp hblob]
    exact fun _ => by decide
  obtain ⟨before, hbefore, hstep⟩ := pulledTwice_last hrun
  refine ⟨m, after, hentered, hrun, hlate, ?_⟩
  refine revoked_lapses hcut hspares _ _ before after (List.prefix_refl _) hbefore hstep rfl ?_
  rw [hlate]
  decide

/-- An attestation of another guild, that was pinned once, keeps the peer installed. -/
theorem unshared_attestation_keeps :
    ¬ ∀ (shared : Attestation → Bool) (pubkey : PubKey) (revoked ttl : Nat) (m : Meshing)
      (events : List (OutageEvent × Backend)),
      CutOff (fun _ => true) shared pubkey revoked ttl m events →
        AtEach (Meshing.alone fun _ => true) m events fun _ event after =>
          event.1.completes = true → revoked + ttl ≤ after.now →
            after.tunnels.installed.get? pubkey = none := by
  intro hclaim
  have hplay : ((Meshing.enter pinning).any fun m =>
      (runs (Meshing.alone fun _ => true) m (pulledTwice [visitorAttestation 6 12 7000])).any
        fun after => after.now == 8000 && after.tunnels.installed.contains 9) = true := by
    decide
  obtain ⟨m, hentered, hruns⟩ := (Option.any_eq_true _ _).mp hplay
  obtain ⟨after, hrun, hlast⟩ := (Option.any_eq_true _ _).mp hruns
  obtain ⟨hnow, hinstalled⟩ := Bool.and_eq_true_iff.mp hlast
  have hlate : after.now = 8000 := beq_iff_eq.mp hnow
  have hcut := pinning_cutOff [visitorAttestation 6 12 7000] hentered fun blob hblob => by
    rw [List.mem_singleton.mp hblob]
    exact fun hshared => by cases hshared
  obtain ⟨before, hbefore, hstep⟩ := pulledTwice_last hrun
  have hgone := hclaim inGuild 9 5401 1800 m _ hcut _ _ before after (List.prefix_refl _) hbefore
    hstep rfl (by rw [hlate]; decide)
  rw [Table.contains, hgone] at hinstalled
  cases hinstalled

end UnityLan.Engine
