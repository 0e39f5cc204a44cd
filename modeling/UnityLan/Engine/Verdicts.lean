import UnityLan.Engine.Seeds

namespace UnityLan.Engine

open UnityLan.Foundation

/-! What decides whether a seed is peered with. -/

def Received.only (received : Received) (seed : Seed) : Received :=
  { received with resp := { received.resp with seeds := [seed] } }

section

variable (decodes : Anchor → Bool)

def Verifies (pinned : List (GuildId × Anchor)) (now : Nat) (blob : GuildAttestation)
    (att : Attestation) : Prop :=
  ∃ bytes anchor, (att.guildId, bytes) ∈ pinned ∧ anchorFromBytes decodes bytes = some anchor ∧
    verifyAttestation blob.attestation anchor now att.guildId blob.attSchema = .ok att

structure Vouches (pinned : List (GuildId × Anchor)) (now : Nat) (seed : Seed)
    (att : Attestation) : Prop where
  verifies : ∃ blob ∈ seed.attestations, Verifies decodes pinned now blob att
  fresh : now < att.expiresAt
  inside : att.wgNet.contains att.wgIp = true

structure SeedPeer.Attested (peer : SeedPeer) (att : Attestation) : Prop where
  pubkey : peer.pubkey = att.wgPubkey
  ip : peer.ip = att.wgIp
  userId : peer.userId = att.userId
  username : peer.username = att.username
  hostname : peer.hostname = att.hostname
  primaryAlias : peer.primaryAlias = att.primaryAlias

structure PerSeed (received : Received) (pins : Pins) : Prop where
  /-- Each seed is judged as if it had come alone. -/
  apart : verifiedSeeds decodes received pins =
    received.resp.seeds.flatMap fun seed => verifiedSeeds decodes (received.only seed) pins
  admitted : ∀ seed ∈ received.resp.seeds,
    verifiedSeeds decodes (received.only seed) pins ≠ [] ↔
      ∃ att, Vouches decodes (pinnedAnchors received pins) received.now seed att
  attested : ∀ seed ∈ received.resp.seeds,
    ∀ peer ∈ verifiedSeeds decodes (received.only seed) pins,
      ∃ att, Vouches decodes (pinnedAnchors received pins) received.now seed att ∧
        peer.Attested att

/-- No attestation of a seed that verifies with an address outside its network stands before all
those of the seed that verify with one inside. -/
def NoneHidden (received : Received) (pins : Pins) : Prop :=
  ∀ seed ∈ received.resp.seeds, ∀ before blob after att,
    seed.attestations = before ++ blob :: after →
      Verifies decodes (pinnedAnchors received pins) received.now blob att →
        att.wgNet.contains att.wgIp = false →
          (∃ earlier ∈ before, ∃ att',
            Verifies decodes (pinnedAnchors received pins) received.now earlier att') ∨
          ∀ later ∈ after, ∀ att',
            Verifies decodes (pinnedAnchors received pins) received.now later att' →
              att'.wgNet.contains att'.wgIp = false

end

variable {decodes : Anchor → Bool} {pinned : List (GuildId × Anchor)} {now : Nat}
  {blob : GuildAttestation} {blobs : List GuildAttestation} {att : Attestation} {seed : Seed}

theorem verifyAgainstPinned_eq {signed : AttestationBlob} {schema : Nat} :
    verifyAgainstPinned decodes signed pinned now schema =
      pinned.findSome? fun pin =>
        (anchorFromBytes decodes pin.2).bind fun anchor =>
          (verifyAttestation signed anchor now pin.1 schema).toOption := by
  unfold verifyAgainstPinned
  congr 1
  funext pin
  cases anchorFromBytes decodes pin.2 <;> rfl

theorem verifyAgainstPinned_some :
    verifyAgainstPinned decodes blob.attestation pinned now blob.attSchema = some att ↔
      Verifies decodes pinned now blob att := by
  have hone : ∀ (pin : GuildId × Anchor) (found : Attestation),
      ((anchorFromBytes decodes pin.2).bind fun anchor =>
          (verifyAttestation blob.attestation anchor now pin.1 blob.attSchema).toOption) =
        some found ↔
        ∃ anchor, anchorFromBytes decodes pin.2 = some anchor ∧
          verifyAttestation blob.attestation anchor now pin.1 blob.attSchema = .ok found := by
    intro pin found
    cases anchorFromBytes decodes pin.2 with
    | none => simp
    | some anchor =>
        simp only [Option.bind_some, Option.some.injEq, exists_eq_left']
        generalize verifyAttestation blob.attestation anchor now pin.1 blob.attSchema = verified
        cases verified <;> simp [Except.toOption]
  constructor
  · intro hfound
    rw [verifyAgainstPinned_eq] at hfound
    obtain ⟨pin, hpin, hverified⟩ := List.exists_of_findSome?_eq_some hfound
    obtain ⟨anchor, hanchor, hverified⟩ := (hone pin att).mp hverified
    obtain ⟨_, _, hguild, _⟩ := verifyAttestation_ok.mp hverified
    rw [← hguild] at hverified
    exact ⟨pin.2, anchor, by rw [hguild]; exact hpin, hanchor, hverified⟩
  · rintro ⟨bytes, anchor, hpin, hanchor, hverified⟩
    have hpasses := (hone (att.guildId, bytes) att).mpr ⟨anchor, hanchor, hverified⟩
    obtain ⟨found, hfound⟩ : ∃ found, verifyAgainstPinned decodes blob.attestation pinned now
        blob.attSchema = some found := by
      apply Option.isSome_iff_exists.mp
      rw [verifyAgainstPinned_eq]
      apply List.findSome?_isSome_iff.mpr
      exact ⟨_, hpin, Option.isSome_iff_exists.mpr ⟨att, hpasses⟩⟩
    have hkept := hfound
    rw [verifyAgainstPinned_eq] at hfound
    obtain ⟨pin, _, hother⟩ := List.exists_of_findSome?_eq_some hfound
    obtain ⟨_, _, hother⟩ := (hone pin found).mp hother
    have hsame : found = att := by
      have hfirst := (verifyAttestation_ok.mp hverified).2.1
      have hsecond := (verifyAttestation_ok.mp hother).2.1
      rw [hfirst] at hsecond
      simp only [Signed.mk.injEq, AttestationBytes.mk.injEq] at hsecond
      exact hsecond.2.2.symm
    rw [hsame] at hkept
    exact hkept

theorem Verifies.fresh (hverifies : Verifies decodes pinned now blob att) :
    now < att.expiresAt := by
  obtain ⟨_, _, _, _, hverified⟩ := hverifies
  exact (verifyAttestation_ok.mp hverified).2.2.2

theorem Verifies.unique {other : Attestation} (hverifies : Verifies decodes pinned now blob att)
    (hother : Verifies decodes pinned now blob other) : other = att := by
  have hsame := (verifyAgainstPinned_some.mpr hverifies).symm.trans
    (verifyAgainstPinned_some.mpr hother)
  exact (Option.some.inj hsame).symm

theorem firstVerified_all :
    firstVerified decodes blobs pinned now (fun _ => true) = some (blob, att) ↔
      ∃ before after, blobs = before ++ blob :: after ∧
        (∀ earlier ∈ before, ∀ att', ¬Verifies decodes pinned now earlier att') ∧
          Verifies decodes pinned now blob att := by
  unfold firstVerified
  rw [List.findSome?_eq_some_iff]
  constructor
  · rintro ⟨before, other, after, hblobs, hother, hnone⟩
    cases hverified : verifyAgainstPinned decodes other.attestation pinned now other.attSchema with
    | none =>
        rw [hverified] at hother
        cases hother
    | some found =>
        rw [hverified] at hother
        cases hother
        refine ⟨before, after, hblobs, fun earlier hearlier att' hverifies => ?_,
          verifyAgainstPinned_some.mp hverified⟩
        have hskipped := hnone earlier hearlier
        rw [verifyAgainstPinned_some.mpr hverifies] at hskipped
        cases hskipped
  · rintro ⟨before, after, hblobs, hnone, hverifies⟩
    refine ⟨before, blob, after, hblobs, ?_, fun earlier hearlier => ?_⟩
    · rw [verifyAgainstPinned_some.mpr hverifies]
      rfl
    · cases hverified : verifyAgainstPinned decodes earlier.attestation pinned now
        earlier.attSchema with
      | none => rfl
      | some found =>
          exact absurd (verifyAgainstPinned_some.mp hverified) (hnone earlier hearlier found)

theorem firstVerified_none :
    firstVerified decodes blobs pinned now (fun _ => true) = none ↔
      ∀ blob ∈ blobs, ∀ att, ¬Verifies decodes pinned now blob att := by
  unfold firstVerified
  rw [List.findSome?_eq_none_iff]
  refine forall₂_congr fun blob _ => ?_
  cases hverified : verifyAgainstPinned decodes blob.attestation pinned now blob.attSchema with
  | none =>
      refine iff_of_true rfl fun att hverifies => ?_
      rw [verifyAgainstPinned_some.mpr hverifies] at hverified
      cases hverified
  | some found =>
      refine iff_of_false (fun hnone => nomatch hnone) fun hnone => ?_
      exact hnone found (verifyAgainstPinned_some.mp hverified)

theorem admitSeed_attested {peer : SeedPeer}
    (hadmitted : admitSeed decodes pinned now seed = some peer) :
    ∃ att, Vouches decodes pinned now seed att ∧ peer.Attested att := by
  unfold admitSeed at hadmitted
  split at hadmitted
  · cases hadmitted
  · rename_i blob att hfirst
    split at hadmitted
    · rename_i hinside
      cases hadmitted
      obtain ⟨before, after, hblobs, _, hverifies⟩ := firstVerified_all.mp hfirst
      have hmem : blob ∈ seed.attestations := by
        rw [hblobs]
        exact List.mem_append_right _ List.mem_cons_self
      exact ⟨att, ⟨⟨blob, hmem, hverifies⟩, hverifies.fresh, hinside⟩, rfl, rfl, rfl, rfl, rfl, rfl⟩
    · cases hadmitted

theorem verifiedSeeds_only (decodes : Anchor → Bool) (received : Received) (pins : Pins)
    (seed : Seed) : verifiedSeeds decodes (received.only seed) pins =
      (admitSeed decodes (pinnedAnchors received pins) received.now seed).toList := by
  change [seed].filterMap (admitSeed decodes (pinnedAnchors received pins) received.now) = _
  cases hadmitted : admitSeed decodes (pinnedAnchors received pins) received.now seed with
  | none => simp [hadmitted]
  | some peer => simp [hadmitted]

theorem verifiedSeeds_apart (decodes : Anchor → Bool) (received : Received) (pins : Pins) :
    verifiedSeeds decodes received pins =
      received.resp.seeds.flatMap fun seed => verifiedSeeds decodes (received.only seed) pins := by
  simp only [verifiedSeeds_only]
  exact List.filterMap_eq_flatMap_toList ..

theorem admitSeed_iff :
    ((admitSeed decodes pinned now seed).toList ≠ [] ↔ ∃ att, Vouches decodes pinned now seed att) ↔
      ∀ before blob after att, seed.attestations = before ++ blob :: after →
        Verifies decodes pinned now blob att → att.wgNet.contains att.wgIp = false →
          (∃ earlier ∈ before, ∃ att', Verifies decodes pinned now earlier att') ∨
          ∀ later ∈ after, ∀ att', Verifies decodes pinned now later att' →
            att'.wgNet.contains att'.wgIp = false := by
  constructor
  · intro hexact before blob after att hblobs hverifies houtside
    by_contra hhidden
    push Not at hhidden
    obtain ⟨hfirst, later, hlater, att', hverifies', hinside⟩ := hhidden
    rw [Bool.ne_false_iff] at hinside
    have hmem : later ∈ seed.attestations := by
      rw [hblobs]
      exact List.mem_append_right _ (List.mem_cons_of_mem _ hlater)
    refine hexact.mpr ⟨att', ⟨later, hmem, hverifies'⟩, hverifies'.fresh, hinside⟩ ?_
    unfold admitSeed
    rw [firstVerified_all.mpr ⟨before, after, hblobs, hfirst, hverifies⟩]
    simp [houtside]
  · intro hnone
    constructor
    · intro hsome
      obtain ⟨peer, hpeer⟩ := List.exists_mem_of_ne_nil _ hsome
      obtain ⟨att, hvouches, _⟩ := admitSeed_attested (Option.mem_toList.mp hpeer)
      exact ⟨att, hvouches⟩
    · rintro ⟨att, ⟨blob, hblob, hverifies⟩, _, hinside⟩
      cases hfirst : firstVerified decodes seed.attestations pinned now fun _ => true with
      | none => exact absurd hverifies (firstVerified_none.mp hfirst blob hblob att)
      | some found =>
          obtain ⟨taken, att'⟩ := found
          obtain ⟨before, after, hblobs, hearlier, htaken⟩ := firstVerified_all.mp hfirst
          unfold admitSeed
          rw [hfirst]
          cases hinside' : att'.wgNet.contains att'.wgIp with
          | true => simp [hinside']
          | false =>
              -- the one that vouches is nowhere: not before the first that verifies, nor behind it
              exfalso
              rcases hnone before taken after att' hblobs htaken hinside' with
                ⟨earlier, hmem, other, hother⟩ | hlater
              · exact hearlier earlier hmem other hother
              · rw [hblobs] at hblob
                rcases List.mem_append.mp hblob with hmem | hmem
                · exact hearlier blob hmem att hverifies
                · rcases List.mem_cons.mp hmem with rfl | hmem
                  · rw [htaken.unique hverifies, hinside'] at hinside
                    cases hinside
                  · rw [hlater blob hmem att hverifies] at hinside
                    cases hinside

/-- The verdicts on the seeds are right unless an attestation hides a better one behind it. -/
theorem per_seed_iff (decodes : Anchor → Bool) (received : Received) (pins : Pins) :
    PerSeed decodes received pins ↔ NoneHidden decodes received pins := by
  constructor
  · intro hper seed hseed
    apply admitSeed_iff.mp
    rw [← verifiedSeeds_only]
    exact hper.admitted seed hseed
  · intro hnone
    refine ⟨verifiedSeeds_apart decodes received pins, fun seed hseed => ?_, ?_⟩
    · rw [verifiedSeeds_only]
      exact admitSeed_iff.mpr (hnone seed hseed)
    · intro seed _ peer hpeer
      rw [verifiedSeeds_only] at hpeer
      exact admitSeed_attested (Option.mem_toList.mp hpeer)

/-- What two guilds attest of one device; the first has its address outside the mesh. -/
def outsideAtt : Attestation :=
  ⟨1, 5, "bob", "host", false, 0xc0a80001#32, ⟨0x64400000#32, 10⟩, 7, 0, 90⟩

def insideAtt : Attestation :=
  { outsideAtt with guildId := 2, wgIp := 0x64400007#32 }

def twiceAttested : Seed where
  attestations := [⟨⟨11, ⟨1, outsideAtt⟩⟩, "first", 1⟩, ⟨⟨22, ⟨1, insideAtt⟩⟩, "second", 1⟩]
  endpoint := none
  punch := none
  networks := []
  relay := none
  ice := none
  rev := 0

def twiceReceived : Received where
  resp := { anchors := [⟨1, 11, []⟩, ⟨2, 22, []⟩], seeds := [twiceAttested] }

def twoPins : Pins :=
  ((∅ : Pins).insert 1 (.anchor 11)).insert 2 (.anchor 22)

/-- The seed is dropped, though its second attestation is in order. -/
theorem first_attestation_hides : ¬PerSeed (fun _ => true) twiceReceived twoPins := by
  intro hper
  have hvouches : Vouches (fun _ => true) (pinnedAnchors twiceReceived twoPins) twiceReceived.now
      twiceAttested insideAtt := by
    refine ⟨⟨⟨⟨22, ⟨1, insideAtt⟩⟩, "second", 1⟩, ?_, 22, 22, ?_, rfl, ?_⟩, ?_, ?_⟩
    · exact List.mem_cons_of_mem _ List.mem_cons_self
    all_goals decide
  have hdropped : verifiedSeeds (fun _ => true) (twiceReceived.only twiceAttested) twoPins =
      [] := by
    decide
  exact (hper.admitted twiceAttested List.mem_cons_self).mpr ⟨insideAtt, hvouches⟩ hdropped

end UnityLan.Engine
