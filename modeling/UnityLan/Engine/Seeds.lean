import Mathlib.Data.List.Dedup
import UnityLan.Engine.Coord
import UnityLan.Coordinator.Rounds

namespace UnityLan.Engine

open UnityLan.Foundation
open UnityLan.Coordinator

/-! The co-members the engine peers with, and how it folds an answer into them. -/

structure SeedPeer where
  pubkey : PubKey
  userId : UserId
  username : String
  ip : Ipv4Addr
  endpoint : Option SocketAddr
  punch : Option SocketAddr
  hostname : String
  primaryAlias : Option String
  networks : List SharedNetwork
  relay : Option RelayInfo
  ice : Option IceParams
  rev : Nat
  expiresAt : Nat
  deriving DecidableEq

def seedPeer (seed : Seed) (att : Attestation) : SeedPeer where
  pubkey := att.wgPubkey
  userId := att.userId
  username := att.username
  ip := att.wgIp
  endpoint := seed.endpoint
  punch := seed.punch
  hostname := att.hostname
  primaryAlias := att.primaryAlias
  networks := seed.networks
  relay := seed.relay
  ice := seed.ice
  rev := seed.rev
  expiresAt := att.expiresAt

variable (decodes : Anchor → Bool)

/-- A seed is admitted on the first of its attestations that verifies, unless its
address is outside its network. -/
def admitSeed (pinned : List (GuildId × Anchor)) (now : Nat) (seed : Seed) : Option SeedPeer :=
  match firstVerified decodes seed.attestations pinned now fun _ => true with
  | none => none
  | some (_, att) => if att.wgNet.contains att.wgIp then some (seedPeer seed att) else none

def verifiedSeeds (received : Received) (pins : Pins) : List SeedPeer :=
  received.resp.seeds.filterMap (admitSeed decodes (pinnedAnchors received pins) received.now)

def mergeSeeds (prev : List SeedPeer) (received : Received) (pins : Pins) : List SeedPeer :=
  let changed := verifiedSeeds decodes received pins
  if received.resp.isPartial then
    let kept := prev.filter fun p => !received.resp.removed.contains p.pubkey
    let byPubkey := (∅ : Table PubKey SeedPeer).upsert (·.pubkey) kept
    (byPubkey.upsert (·.pubkey) changed).values
  else changed

/-- The attestation that a peer serves of itself, if it verifies and is fresher than the
one that is held. -/
def verifyPulled (blobs : List GuildAttestation) (expectedPubkey : PubKey) (currentExpiry : Nat)
    (pinned : List (GuildId × Anchor)) (now : Nat) : Option Attestation :=
  (firstVerified decodes blobs pinned now fun att =>
    att.wgPubkey == expectedPubkey && att.wgNet.contains att.wgIp &&
      decide (currentExpiry < att.expiresAt)).map Prod.snd

def applyPulled (seed : SeedPeer) (att : Attestation) : SeedPeer :=
  { seed with
    userId := att.userId
    username := att.username
    ip := att.wgIp
    hostname := att.hostname
    primaryAlias := att.primaryAlias
    expiresAt := att.expiresAt }

def SeedPeer.echo (p : SeedPeer) : HeldPeer :=
  ⟨p.pubkey, p.rev⟩

/-- What to echo on the next refresh; nothing, when an attestation is about to lapse. -/
def heldForRefresh (seeds : List SeedPeer) (now refreshMargin : Nat) : List HeldPeer :=
  let all := seeds.map (·.echo)
  match (seeds.map (·.expiresAt)).min? with
  | some soonest => if soonest ≤ now + refreshMargin then [] else all
  | none => all

/-! What a held peer shows of the seed it was admitted from. -/

def SeedPeer.Of (p : SeedPeer) (seed : Seed) : Prop :=
  ∃ att ∈ seed.attestations, p = seedPeer seed att.attestation.payload.attestation

/-- The guilds a seed is attested under. -/
def scopes (seed : Seed) : List GuildId :=
  seed.attestations.map (·.attestation.payload.attestation.guildId)

def peerOf (content : SeedContent) (userId : UserId) (rev expiresAt : Nat) : SeedPeer where
  pubkey := content.pubkey
  userId := userId
  username := content.username
  ip := content.ip
  endpoint := content.endpoint
  punch := content.punch
  hostname := s!"{content.deviceName}.{content.username}.{DNS_SUFFIX}"
  primaryAlias := if content.isPrimary then some s!"{content.username}.{DNS_SUFFIX}" else none
  networks := content.networks
  relay := content.relay
  ice := content.ice
  rev := rev
  expiresAt := expiresAt

section

variable {conf : Conf} {decodes : Anchor → Bool} {pinned : List (GuildId × Anchor)} {now : Nat}
  {seed : Seed} {p q : SeedPeer} {round : Round} {pubkey : PubKey} {peer : Peer}

theorem firstVerified_some {blobs : List GuildAttestation} {accept : Attestation → Bool}
    {blob : GuildAttestation} {att : Attestation}
    (hfound : firstVerified decodes blobs pinned now accept = some (blob, att)) :
    blob ∈ blobs ∧ att = blob.attestation.payload.attestation ∧ now < att.expiresAt ∧
      accept att = true ∧ (att.guildId, blob.attestation.signer) ∈ pinned := by
  obtain ⟨other, hblob, hverified⟩ := List.exists_of_findSome?_eq_some hfound
  split at hverified
  · cases hverified
  · rename_i value hpinned
    split at hverified
    · rename_i haccepted
      cases hverified
      obtain ⟨pin, hpin, hanchor⟩ := List.exists_of_findSome?_eq_some hpinned
      split at hanchor
      · cases hanchor
      · rename_i anchor hdecoded
        have hbytes : pin.2 = anchor := by
          unfold anchorFromBytes at hdecoded
          split at hdecoded
          · exact Option.some.inj hdecoded
          · cases hdecoded
        cases hverify : verifyAttestation blob.attestation anchor now pin.1 blob.attSchema with
        | error error =>
            rw [hverify] at hanchor
            cases hanchor
        | ok value =>
            rw [hverify] at hanchor
            cases hanchor
            obtain ⟨_, hsigned, hguild, hfresh⟩ := verifyAttestation_ok.mp hverify
            refine ⟨hblob, by rw [hsigned], hfresh, haccepted, ?_⟩
            rw [hsigned, hguild, ← hbytes]
            exact hpin
    · cases hverified

theorem admitSeed_some (hadmitted : admitSeed decodes pinned now seed = some p) :
    p.Of seed ∧ now < p.expiresAt := by
  unfold admitSeed at hadmitted
  split at hadmitted
  · cases hadmitted
  · rename_i found att hfound
    obtain ⟨hblob, rfl, hfresh, _⟩ := firstVerified_some hfound
    split at hadmitted
    · cases hadmitted
      exact ⟨⟨found, hblob, rfl⟩, hfresh⟩
    · cases hadmitted

theorem of_peerOf (hpeer : round.peers.get? pubkey = some peer)
    (hof : p.Of (round.seed conf pubkey peer)) :
    p = peerOf (round.content conf pubkey peer) p.userId
      (conf.seedHash (round.content conf pubkey peer)) p.expiresAt := by
  obtain ⟨att, hatt, rfl⟩ := hof
  obtain ⟨guild, hattests⟩ := (round.attested pubkey peer hpeer).attests hatt
  obtain ⟨-, hpubkey, husername, hname, hprimary, hip⟩ := hattests
  simp only [seedPeer, peerOf, Attestation.hostname, Attestation.primaryAlias, hpubkey, husername,
    hname, hprimary, hip]
  rfl

theorem mem_scopes (hmem : (pubkey, seed) ∈ round.full conf) (hnetworks : seed.networks ≠ [])
    (guild : GuildId) : guild ∈ scopes seed ↔ ∃ net ∈ seed.networks, net.guildId = guild := by
  obtain ⟨peer, hpeer, rfl⟩ := Round.mem_full.mp hmem
  have hguilds : scopes (round.seed conf pubkey peer) = peer.guilds :=
    (round.attested pubkey peer hpeer).guildIds
  rw [hguilds]
  exact round.sound.tells pubkey peer hpeer hnetworks guild

end

/-! Rounds of delta sync. -/

/-- A round's answer, as it was received. -/
structure Exchanged (conf : Conf) where
  round : Round
  received : Received
  pins : Pins
  answers : round.Answers conf received.resp

structure Client where
  held : List SeedPeer := []
  admitted : PubKey → Option Seed := fun _ => none

section

variable {conf : Conf} (decodes : Anchor → Bool)

def Exchanged.admits (x : Exchanged conf) (seed : Seed) : Option SeedPeer :=
  admitSeed decodes (pinnedAnchors x.received x.pins) x.received.now seed

def Client.sync (c : Client) (x : Exchanged conf) : Client where
  held := mergeSeeds decodes c.held x.received x.pins
  admitted := fun pubkey =>
    (x.received.resp.seeds.find? fun seed => (x.admits decodes seed).any (·.pubkey == pubkey)).or
      (c.admitted pubkey)

/-- Rounds, the latest first; between two of them the engine may drop peers. -/
inductive Synced : List (Exchanged conf) → Client → Prop
  | start : Synced [] {}
  | sync {run : List (Exchanged conf)} {c : Client} (hsynced : Synced run c) (x : Exchanged conf)
      (now refreshMargin : Nat)
      (hecho : x.round.req.held = heldForRefresh c.held now refreshMargin) :
      Synced (x :: run) (c.sync decodes x)
  | prune {run : List (Exchanged conf)} {c : Client} (hsynced : Synced run c)
      (keep : SeedPeer → Bool) : Synced run { c with held := c.held.filter keep }

/-- What revisions are computed of in a run. -/
def Hashed (run : List (Exchanged conf)) : Set SeedContent :=
  { content | ∃ x ∈ run, ∃ pubkey peer, x.round.peers.get? pubkey = some peer ∧
    x.round.content conf pubkey peer = content }

def OneOwner (run : List (Exchanged conf)) : Prop :=
  ∀ x ∈ run, ∀ pubkey seed, (pubkey, seed) ∈ x.round.full conf → ∀ att ∈ seed.attestations,
    ∀ y ∈ run, ∀ pubkey' seed', (pubkey', seed') ∈ y.round.full conf → ∀ att' ∈ seed'.attestations,
      att.attestation.payload.attestation.username =
        att'.attestation.payload.attestation.username →
      att.attestation.payload.attestation.userId = att'.attestation.payload.attestation.userId

def SeedPeer.Agrees (p q : SeedPeer) : Prop :=
  { p with userId := q.userId, expiresAt := q.expiresAt } = q

/-- The peers are those of the full snapshot. -/
structure Converged (run : List (Exchanged conf)) (x : Exchanged conf) (c : Client) : Prop where
  once : (c.held.map (·.pubkey)).Nodup
  extra : ∀ p ∈ c.held, ∃ seed, (p.pubkey, seed) ∈ x.round.full conf
  /-- Each one that the full snapshot would have the engine admit is held as it would be,
  and was admitted under the same guilds if it shares a network. -/
  complete : ∀ pubkey seed q, (pubkey, seed) ∈ x.round.full conf →
    x.admits decodes seed = some q →
    ∃ p ∈ c.held, p.Agrees q ∧ (OneOwner run → p.userId = q.userId) ∧
      ∃ last, c.admitted pubkey = some last ∧ p.Of last ∧
        (seed.networks ≠ [] → ∀ guild, guild ∈ scopes last ↔ guild ∈ scopes seed)

end

/-! What an answer leaves of the peers, and adds to them. -/

section

variable {conf : Conf} {decodes : Anchor → Bool} {x : Exchanged conf} {c : Client}
  {run : List (Exchanged conf)} {p q : SeedPeer} {seed : Seed} {pubkey : PubKey}

def heldRev (held : List HeldPeer) (pubkey : PubKey) : Option Nat :=
  (held.reverse.find? fun h => h.pubkey == pubkey).map (·.rev)

def resent (held : List HeldPeer) (entry : PubKey × Seed) : Bool :=
  held.isEmpty || heldRev held entry.1 != some entry.2.rev

theorem answers_seeds : x.received.resp.seeds =
    ((x.round.full conf).filter (resent x.round.req.held)).map Prod.snd := by
  have hanswers : x.received.resp.seeds = (applyDelta x.round.req (x.round.full conf)).1 :=
    congrArg Prod.fst x.answers
  rw [hanswers, applyDelta]
  split
  · rename_i hempty
    have hall : ∀ entry, resent x.round.req.held entry = true := by
      intro entry
      rw [resent, hempty, Bool.true_or]
    rw [List.filter_eq_self.mpr fun entry _ => hall entry]
  · rename_i hheld
    rw [Bool.not_eq_true] at hheld
    have hsome : resent x.round.req.held =
        fun entry => heldRev x.round.req.held entry.1 != some entry.2.rev := by
      funext entry
      rw [resent, hheld, Bool.false_or]
    rw [hsome]
    rfl

theorem answers_isDelta : x.received.resp.isPartial = !x.round.req.held.isEmpty := by
  have hanswers := congrArg (fun answer => answer.2.2) x.answers
  rw [show x.received.resp.isPartial = _ from hanswers, applyDelta]
  split
  · rename_i hempty
    simp [hempty]
  · rename_i hheld
    simp only [Bool.not_eq_true] at hheld
    simp [hheld]

theorem mem_removed (hheld : x.round.req.held ≠ []) : pubkey ∈ x.received.resp.removed ↔
    pubkey ∈ x.round.req.held.map (·.pubkey) ∧ ∀ seed, (pubkey, seed) ∉ x.round.full conf := by
  have hanswers := congrArg (fun answer => answer.2.1) x.answers
  rw [show x.received.resp.removed = _ from hanswers, applyDelta,
    if_neg fun hempty => hheld (List.isEmpty_iff.mp hempty)]
  simp only [List.mem_filter, List.mem_dedup, Bool.not_eq_true', List.contains_eq_mem,
    decide_eq_false_iff_not]
  rw [List.mem_map (l := x.round.full conf)]
  constructor
  · rintro ⟨hin, hgone⟩
    exact ⟨hin, fun seed hseed => hgone ⟨_, hseed, rfl⟩⟩
  · rintro ⟨hin, hgone⟩
    refine ⟨hin, ?_⟩
    rintro ⟨⟨_, seed⟩, hseed, rfl⟩
    exact hgone seed hseed

theorem admits_pubkey (hmem : (pubkey, seed) ∈ x.round.full conf)
    (hadmits : x.admits decodes seed = some q) : q.pubkey = pubkey := by
  obtain ⟨peer, hpeer, rfl⟩ := Round.mem_full.mp hmem
  calc q.pubkey
      = peer.mp.pubkey := congrArg SeedPeer.pubkey (of_peerOf hpeer (admitSeed_some hadmits).1)
    _ = pubkey := x.round.sound.keyed pubkey peer hpeer

theorem mem_verified : q ∈ verifiedSeeds decodes x.received x.pins ↔
    ∃ seed, (q.pubkey, seed) ∈ x.round.full conf ∧
      resent x.round.req.held (q.pubkey, seed) = true ∧ x.admits decodes seed = some q := by
  rw [verifiedSeeds, answers_seeds, List.mem_filterMap]
  constructor
  · rintro ⟨seed, hseed, hadmits⟩
    obtain ⟨⟨pubkey, _⟩, hentry, rfl⟩ := List.mem_map.mp hseed
    obtain ⟨hfull, hresent⟩ := List.mem_filter.mp hentry
    obtain rfl := admits_pubkey hfull hadmits
    exact ⟨_, hfull, hresent, hadmits⟩
  · rintro ⟨seed, hfull, hresent, hadmits⟩
    exact ⟨seed, List.mem_map.mpr ⟨_, List.mem_filter.mpr ⟨hfull, hresent⟩, rfl⟩, hadmits⟩

theorem nodup_verified : ((verifiedSeeds decodes x.received x.pins).map (·.pubkey)).Nodup := by
  have hkeys : (x.round.full conf).Pairwise fun first second => first.1 ≠ second.1 := by
    have hnodup : ((x.round.full conf).map Prod.fst).Nodup := by
      rw [Round.full, List.map_map]
      exact x.round.peers.keysNodup
    exact List.pairwise_map.mp hnodup
  rw [verifiedSeeds, answers_seeds, List.filterMap_map]
  apply List.pairwise_map.mpr
  apply List.pairwise_filterMap.mpr
  refine (hkeys.filter _).imp_of_mem fun hfirst hsecond hne p hp q hq => ?_
  rw [admits_pubkey (List.mem_of_mem_filter hfirst) hp,
    admits_pubkey (List.mem_of_mem_filter hsecond) hq]
  exact hne

theorem mem_mergeSeeds (hprev : (c.held.map (·.pubkey)).Nodup) :
    p ∈ mergeSeeds decodes c.held x.received x.pins ↔
      p ∈ verifiedSeeds decodes x.received x.pins ∨
        x.received.resp.isPartial = true ∧ p ∈ c.held ∧ p.pubkey ∉ x.received.resp.removed ∧
          p.pubkey ∉ (verifiedSeeds decodes x.received x.pins).map (·.pubkey) := by
  unfold mergeSeeds
  split
  · rename_i hdelta
    have hkept : ((c.held.filter fun p => !x.received.resp.removed.contains p.pubkey).map
        (·.pubkey)).Nodup := hprev.sublist (List.filter_sublist.map _)
    rw [Table.mem_upsert (Table.upsert_keyed Table.empty_keyed) nodup_verified,
      Table.mem_upsert Table.empty_keyed hkept]
    simp [hdelta, Table.values, and_assoc]
  · rename_i hfull
    simp [hfull]

theorem nodup_mergeSeeds :
    ((mergeSeeds decodes c.held x.received x.pins).map (·.pubkey)).Nodup := by
  unfold mergeSeeds
  split
  · exact Table.nodup_values (Table.upsert_keyed (Table.upsert_keyed Table.empty_keyed))
  · exact nodup_verified

theorem any_admits (hany : (x.admits decodes seed).any (·.pubkey == pubkey) = true) :
    ∃ p, x.admits decodes seed = some p ∧ p.pubkey = pubkey := by
  cases hadmits : x.admits decodes seed with
  | none =>
      rw [hadmits] at hany
      cases hany
  | some p =>
      rw [hadmits] at hany
      exact ⟨p, rfl, beq_iff_eq.mp hany⟩

theorem sync_admitted (hfull : (q.pubkey, seed) ∈ x.round.full conf)
    (hresent : resent x.round.req.held (q.pubkey, seed) = true)
    (hadmits : x.admits decodes seed = some q) :
    (c.sync decodes x).admitted q.pubkey = some seed := by
  have hseeds : ∀ other, other ∈ x.received.resp.seeds → ∃ pubkey,
      (pubkey, other) ∈ x.round.full conf := by
    intro other hother
    rw [answers_seeds] at hother
    obtain ⟨entry, hentry, rfl⟩ := List.mem_map.mp hother
    exact ⟨entry.1, List.mem_of_mem_filter hentry⟩
  have hseed : seed ∈ x.received.resp.seeds := by
    rw [answers_seeds]
    exact List.mem_map.mpr ⟨_, List.mem_filter.mpr ⟨hfull, hresent⟩, rfl⟩
  cases hfound : x.received.resp.seeds.find? fun seed =>
      (x.admits decodes seed).any (·.pubkey == q.pubkey) with
  | none =>
      have hnone := List.find?_eq_none.mp hfound seed hseed
      simp [hadmits] at hnone
  | some other =>
      obtain ⟨pubkey, hother⟩ := hseeds other (List.mem_of_find?_eq_some hfound)
      have hany := List.find?_some hfound
      obtain ⟨p, hp, hkey⟩ := any_admits hany
      have hsame : pubkey = q.pubkey := (admits_pubkey hother hp).symm.trans hkey
      have hunique : other = seed := Round.full_unique (hsame ▸ hother) hfull
      simp only [Client.sync, hfound, hunique, Option.some_or]

theorem sync_admitted_of_not_mem
    (hother : pubkey ∉ (verifiedSeeds decodes x.received x.pins).map (·.pubkey)) :
    (c.sync decodes x).admitted pubkey = c.admitted pubkey := by
  have hnone : (x.received.resp.seeds.find? fun seed =>
      (x.admits decodes seed).any (·.pubkey == pubkey)) = none := by
    apply List.find?_eq_none.mpr
    intro seed hseed hany
    obtain ⟨p, hp, hkey⟩ := any_admits hany
    apply hother
    exact List.mem_map.mpr ⟨p, List.mem_filterMap.mpr ⟨seed, hseed, hp⟩, hkey⟩
  simp only [Client.sync, hnone, Option.none_or]

/-! What the engine echoes. -/

theorem heldForRefresh_cases (seeds : List SeedPeer) (now refreshMargin : Nat) :
    heldForRefresh seeds now refreshMargin = [] ∨
      heldForRefresh seeds now refreshMargin = seeds.map (·.echo) := by
  unfold heldForRefresh
  split
  · split
    · exact .inl rfl
    · exact .inr rfl
  · exact .inr rfl

theorem heldRev_echo {rev : Nat} (hrev : heldRev (c.held.map (·.echo)) pubkey = some rev) :
    ∃ p ∈ c.held, p.pubkey = pubkey ∧ p.rev = rev := by
  obtain ⟨h, hfound, rfl⟩ := Option.map_eq_some_iff.mp hrev
  have hkey := List.find?_some hfound
  obtain ⟨p, hp, rfl⟩ := List.mem_map.mp (List.mem_reverse.mp (List.mem_of_find?_eq_some hfound))
  exact ⟨p, hp, beq_iff_eq.mp hkey, rfl⟩

/-! The invariant: a held peer is the seed it was admitted from, of some round. -/

def Holds (run : List (Exchanged conf)) (c : Client) (p : SeedPeer) : Prop :=
  ∃ x ∈ run, ∃ seed, (p.pubkey, seed) ∈ x.round.full conf ∧ c.admitted p.pubkey = some seed ∧
    p.Of seed

structure ClientInv (run : List (Exchanged conf)) (c : Client) : Prop where
  once : (c.held.map (·.pubkey)).Nodup
  holds : ∀ p ∈ c.held, Holds run c p

theorem ClientInv.sync (hinv : ClientInv run c) : ClientInv (x :: run) (c.sync decodes x) := by
  constructor
  · exact nodup_mergeSeeds
  · intro p hp
    rcases (mem_mergeSeeds hinv.once).mp hp with hverified | ⟨_, hheld, _, hother⟩
    · obtain ⟨seed, hfull, hresent, hadmits⟩ := mem_verified.mp hverified
      exact ⟨x, List.mem_cons_self, seed, hfull, sync_admitted hfull hresent hadmits,
        (admitSeed_some hadmits).1⟩
    · obtain ⟨y, hy, seed, hfull, hadmitted, hof⟩ := hinv.holds p hheld
      exact ⟨y, List.mem_cons_of_mem _ hy, seed, hfull,
        (sync_admitted_of_not_mem hother).trans hadmitted, hof⟩

theorem ClientInv.of_synced (hsynced : Synced decodes run c) : ClientInv run c := by
  induction hsynced with
  | start => exact ⟨List.nodup_nil, List.forall_mem_nil _⟩
  | sync hsynced x now refreshMargin hecho ih => exact ih.sync
  | prune hsynced keep ih =>
      constructor
      · exact ih.once.sublist (List.filter_sublist.map _)
      · exact fun p hp => ih.holds p (List.mem_of_mem_filter hp)

theorem holds_agrees (hinj : Set.InjOn conf.seedHash (Hashed (x :: run)))
    (hholds : Holds (x :: run) c p) (hfull : (q.pubkey, seed) ∈ x.round.full conf)
    (hof : q.Of seed) (hpubkey : p.pubkey = q.pubkey) (hrev : p.rev = seed.rev) :
    p.Agrees q ∧ (OneOwner (x :: run) → p.userId = q.userId) ∧ ∃ last, c.admitted q.pubkey =
      some last ∧ p.Of last ∧
      (seed.networks ≠ [] → ∀ guild, guild ∈ scopes last ↔ guild ∈ scopes seed) := by
  obtain ⟨y, hy, last, hlast, hadmitted, hofLast⟩ := hholds
  obtain ⟨peer, hpeer, rfl⟩ := Round.mem_full.mp hfull
  obtain ⟨peer', hpeer', rfl⟩ := Round.mem_full.mp hlast
  have hp := of_peerOf hpeer' hofLast
  have hq := of_peerOf hpeer hof
  have hhash : conf.seedHash (y.round.content conf p.pubkey peer') =
      conf.seedHash (x.round.content conf q.pubkey peer) :=
    (congrArg SeedPeer.rev hp).symm.trans hrev
  have hcontent : y.round.content conf p.pubkey peer' = x.round.content conf q.pubkey peer :=
    hinj ⟨y, hy, _, peer', hpeer', rfl⟩ ⟨x, List.mem_cons_self, _, peer, hpeer, rfl⟩ hhash
  refine ⟨?_, ?_, ?_⟩
  · rw [SeedPeer.Agrees, hp, hcontent]
    exact hq.symm
  · intro howner
    have husername : p.username = q.username :=
      calc p.username
          = (y.round.content conf p.pubkey peer').username := congrArg SeedPeer.username hp
        _ = (x.round.content conf q.pubkey peer).username := by rw [hcontent]
        _ = q.username := (congrArg SeedPeer.username hq).symm
    obtain ⟨att, hatt, hpatt⟩ := hofLast
    obtain ⟨att', hatt', hqatt⟩ := hof
    rw [hpatt, hqatt] at husername ⊢
    exact howner y hy _ _ hlast att hatt x List.mem_cons_self _ _ hfull att' hatt' husername
  · refine ⟨_, hpubkey ▸ hadmitted, hofLast, fun hnetworks guild => ?_⟩
    have hsame : (y.round.seed conf p.pubkey peer').networks =
        (x.round.seed conf q.pubkey peer).networks := congrArg SeedContent.networks hcontent
    rw [mem_scopes hlast (hsame ▸ hnetworks), mem_scopes hfull hnetworks, hsame]

end

/-- Delta sync converges to the full snapshot, in all but what the attestations alone
tell. -/
theorem delta_converges (decodes : Anchor → Bool) {conf : Conf} {run : List (Exchanged conf)}
    {c : Client}
    (hsynced : Synced decodes run c) (x : Exchanged conf) (now refreshMargin : Nat)
    (hecho : x.round.req.held = heldForRefresh c.held now refreshMargin)
    (hinj : Set.InjOn conf.seedHash (Hashed (x :: run))) :
    Converged decodes (x :: run) x (c.sync decodes x) := by
  have hinv := ClientInv.of_synced hsynced
  have hafter : ClientInv (x :: run) (c.sync decodes x) := hinv.sync
  constructor
  · exact hafter.once
  · intro p hp
    rcases (mem_mergeSeeds hinv.once).mp hp with hverified | ⟨hdelta, hheld, hremoved, _⟩
    · obtain ⟨seed, hfull, _⟩ := mem_verified.mp hverified
      exact ⟨seed, hfull⟩
    · -- a peer that is not dropped is still in the snapshot
      have hheldSome : x.round.req.held ≠ [] := by
        intro hnone
        rw [answers_isDelta, hnone] at hdelta
        cases hdelta
      have hechoed : x.round.req.held = c.held.map (·.echo) :=
        hecho.trans ((heldForRefresh_cases c.held now refreshMargin).resolve_left
          (hecho ▸ hheldSome))
      by_contra hnowhere
      apply hremoved
      apply (mem_removed hheldSome).mpr
      refine ⟨?_, fun seed hseed => hnowhere ⟨seed, hseed⟩⟩
      rw [hechoed, List.map_map]
      exact List.mem_map.mpr ⟨p, hheld, rfl⟩
  · intro pubkey seed q hfull hadmits
    obtain rfl := admits_pubkey hfull hadmits
    -- either it was sent, or the engine holds one of its revision
    have hheld : ∃ p ∈ (c.sync decodes x).held, p.pubkey = q.pubkey ∧ p.rev = seed.rev := by
      by_cases hresent : resent x.round.req.held (q.pubkey, seed) = true
      · have hverified : q ∈ verifiedSeeds decodes x.received x.pins :=
          mem_verified.mpr ⟨seed, hfull, hresent, hadmits⟩
        obtain ⟨att, _, hq⟩ := (admitSeed_some hadmits).1
        exact ⟨q, (mem_mergeSeeds hinv.once).mpr (.inl hverified), rfl, congrArg SeedPeer.rev hq⟩
      · have hunsent := hresent
        rw [resent, Bool.or_eq_true, not_or] at hunsent
        obtain ⟨hheldSome, hsame⟩ := hunsent
        rw [List.isEmpty_iff] at hheldSome
        rw [bne_iff_ne, Decidable.not_not] at hsame
        have hechoed : x.round.req.held = c.held.map (·.echo) :=
          hecho.trans ((heldForRefresh_cases c.held now refreshMargin).resolve_left
            (hecho ▸ hheldSome))
        rw [hechoed] at hsame
        obtain ⟨p, hp, hpubkey, hrev⟩ := heldRev_echo hsame
        refine ⟨p, (mem_mergeSeeds hinv.once).mpr (.inr ⟨?_, hp, ?_, ?_⟩), hpubkey, hrev⟩
        · rw [answers_isDelta, Bool.not_eq_true', List.isEmpty_eq_false_iff]
          exact hheldSome
        · intro hremoved
          exact ((mem_removed hheldSome).mp hremoved).2 seed (hpubkey ▸ hfull)
        · intro hverified
          obtain ⟨q', hq', hkey⟩ := List.mem_map.mp hverified
          obtain ⟨seed', hfull', hresent', _⟩ := mem_verified.mp hq'
          rw [hkey.trans hpubkey] at hfull' hresent'
          obtain rfl := Round.full_unique hfull hfull'
          exact hresent hresent'
    obtain ⟨p, hp, hpubkey, hrev⟩ := hheld
    exact ⟨p, hp, holds_agrees hinj (hafter.holds p hp) hfull (admitSeed_some hadmits).1 hpubkey
      hrev⟩

/-! One peer, over two rounds. -/

section

def onePeer (networks : List SharedNetwork) (guild : GuildId) : Peer where
  mp :=
    { pubkey := 2
      userId := 1
      username := "ann"
      deviceName := "pad"
      isPrimary := false
      ip := 0x0a000002#32
      endpoint := none }
  networks := networks
  guilds := [guild]

def oneAttestation (guild : GuildId) : GuildAttestation where
  attestation := .sign 9 ⟨ATTESTATION_SCHEMA_V2,
    { guildId := guild
      userId := 1
      username := "ann"
      deviceName := "pad"
      isPrimary := false
      wgIp := 0x0a000002#32
      wgNet := ⟨0x0a000000#32, 8⟩
      wgPubkey := 2
      issuedAt := 0
      expiresAt := 100 }⟩
  communityName := ""
  attSchema := ATTESTATION_SCHEMA_V2

def oneRound (networks : List SharedNetwork) (guild : GuildId)
    (hnetworks : ∀ net ∈ networks, net.guildId = guild) (held : List HeldPeer) : Round where
  req := { wgPubkey := 1, held := held }
  now := 0
  exchange := ⟨[], ∅, ∅, ∅⟩
  peers := (∅ : Peers).insert 2 (onePeer networks guild)
  attestations := fun _ => [oneAttestation guild]
  sound := by
    constructor
    · intro pubkey peer hpeer
      rw [Table.get?_insert] at hpeer
      split at hpeer
      · rename_i hpubkey
        cases hpeer
        exact hpubkey.symm
      · cases hpeer
    · intro pubkey peer hpeer hsome other
      rw [Table.get?_insert] at hpeer
      split at hpeer
      · cases hpeer
        obtain ⟨net, hnet⟩ := List.exists_mem_of_ne_nil _ hsome
        constructor
        · intro hother
          exact ⟨net, hnet, (hnetworks net hnet).trans (List.mem_singleton.mp hother).symm⟩
        · rintro ⟨net, hnet, rfl⟩
          exact List.mem_singleton.mpr (hnetworks net hnet)
      · cases hpeer
  attested := by
    intro pubkey peer hpeer
    rw [Table.get?_insert] at hpeer
    split at hpeer
    · cases hpeer
      exact .cons ⟨rfl, rfl, rfl, rfl, rfl, rfl⟩ .nil
    · cases hpeer

def oneExchange (networks : List SharedNetwork) (guild : GuildId)
    (hnetworks : ∀ net ∈ networks, net.guildId = guild) (held : List HeldPeer) :
    Exchanged Conf.small where
  round := oneRound networks guild hnetworks held
  received :=
    let delta := applyDelta { wgPubkey := 1, held := held }
      ((oneRound networks guild hnetworks held).full Conf.small)
    { resp :=
        { anchors := [⟨guild, 9, []⟩]
          seeds := delta.1
          removed := delta.2.1
          isPartial := delta.2.2 } }
  pins := (∅ : Pins).insert guild (.anchor 9)
  answers := rfl

theorem oneRound_content {networks : List SharedNetwork} {guild : GuildId} {pubkey : PubKey}
    {hnetworks : ∀ net ∈ networks, net.guildId = guild} {held : List HeldPeer} {peer : Peer}
    (hpeer : (oneRound networks guild hnetworks held).peers.get? pubkey = some peer) :
    (oneRound networks guild hnetworks held).content Conf.small pubkey peer =
      seedContent (onePeer networks 0).mp none networks none none := by
  simp only [oneRound, Table.get?_insert] at hpeer
  split at hpeer
  · cases hpeer
    rfl
  · cases hpeer

theorem oneExchange_injective {networks : List SharedNetwork} {run : List (Exchanged Conf.small)}
    (hrun : ∀ x ∈ run, ∃ guild hnetworks held, x = oneExchange networks guild hnetworks held) :
    Set.InjOn Conf.small.seedHash (Hashed run) := by
  have hone : ∀ content ∈ Hashed run,
      content = seedContent (onePeer networks 0).mp none networks none none := by
    rintro content ⟨x, hx, pubkey, peer, hpeer, rfl⟩
    obtain ⟨guild, hnetworks, held, rfl⟩ := hrun x hx
    exact @oneRound_content networks guild pubkey hnetworks held peer hpeer
  intro first hfirst second hsecond _
  rw [hone first hfirst, hone second hsecond]

end

/-- What one exchange leaves of a client that holds nothing. -/
def started (x : Exchanged Conf.small) : Client :=
  ({} : Client).sync (fun _ => true) x

def sharedNet : SharedNetwork := ⟨"net", "community", 7, 3⟩

/-- Exchanges with a device that the caller shares a network with. -/
def sharedExchange (held : List HeldPeer) : Exchanged Conf.small :=
  oneExchange [sharedNet] 7 (by simp [sharedNet]) held

theorem delta_converges_unchanged :
    (sharedExchange [⟨2, 2⟩]).received.resp.seeds = [] ∧
      (started (sharedExchange [])).held.length = 1 ∧
      Converged (fun _ => true) [sharedExchange [⟨2, 2⟩], sharedExchange []]
        (sharedExchange [⟨2, 2⟩])
        ((started (sharedExchange [])).sync (fun _ => true) (sharedExchange [⟨2, 2⟩])) := by
  refine ⟨by decide, by decide, ?_⟩
  refine delta_converges (fun _ => true) (.sync .start (sharedExchange []) 0 0 rfl)
    (sharedExchange [⟨2, 2⟩]) 0 0 (by decide) ?_
  apply oneExchange_injective
  intro x hx
  rcases List.mem_pair.mp hx with rfl | rfl
  · exact ⟨_, _, _, rfl⟩
  · exact ⟨_, _, _, rfl⟩

def ownExchange (guild : GuildId) (held : List HeldPeer) : Exchanged Conf.small :=
  oneExchange [] guild nofun held

/-- First under the personal scope, then under a guild. -/
theorem scopes_kept_stale :
    ¬ ∀ (run : List (Exchanged Conf.small)) (c : Client) (x : Exchanged Conf.small)
        (now refreshMargin : Nat), Synced (fun _ => true) run c →
      x.round.req.held = heldForRefresh c.held now refreshMargin →
      Set.InjOn Conf.small.seedHash (Hashed (x :: run)) →
      ∀ pubkey seed q, (pubkey, seed) ∈ x.round.full Conf.small →
        x.admits (fun _ => true) seed = some q →
        ∃ last, (c.sync (fun _ => true) x).admitted pubkey = some last ∧
          ∀ guild, guild ∈ scopes last ↔ guild ∈ scopes seed := by
  intro hclaim
  let first := ownExchange PERSONAL_SCOPE []
  let second := ownExchange 7 [⟨2, 2⟩]
  let seed := second.round.seed Conf.small 2 (onePeer [] 7)
  have hinj : Set.InjOn Conf.small.seedHash (Hashed [second, first]) := by
    apply oneExchange_injective
    intro x hx
    rcases List.mem_pair.mp hx with rfl | rfl
    · exact ⟨_, _, _, rfl⟩
    · exact ⟨_, _, _, rfl⟩
  have hfull : (2, seed) ∈ second.round.full Conf.small :=
    Round.mem_full.mpr ⟨onePeer [] 7, by decide, rfl⟩
  have hadmits : (second.admits (fun _ => true) seed).isSome = true := by decide
  obtain ⟨q, hq⟩ := Option.isSome_iff_exists.mp hadmits
  obtain ⟨last, hlast, hscopes⟩ := hclaim [first] (started first) second 0 0
    (.sync .start first 0 0 rfl) (by decide) hinj 2 seed q hfull hq
  have hstale : (((started first).sync (fun _ => true) second).admitted 2).map scopes =
      some [PERSONAL_SCOPE] := by
    decide
  rw [hlast, Option.map_some, Option.some.injEq] at hstale
  have hguild := (hscopes 7).mpr (by decide)
  rw [hstale] at hguild
  exact absurd hguild (by decide)

end UnityLan.Engine
