import UnityLan.Coordinator.LongPoll

namespace UnityLan.Coordinator

open UnityLan.Foundation Prog

/-! The full snapshot that an answer is the delta of: a row for each peer, keyed by its
pubkey, attested under each guild it is a peer in. -/

/-- The attestation is of this device in this guild; it does not tell for which user. -/
structure Attests (guild : GuildId) (id : AttIdentity) (att : Attestation) : Prop where
  guildId : att.guildId = guild
  wgPubkey : att.wgPubkey = id.pubkey
  username : att.username = id.username
  deviceName : att.deviceName = id.deviceName
  isPrimary : att.isPrimary = id.isPrimary
  wgIp : att.wgIp = id.ip

def Peer.Scoped (peer : Peer) : Prop :=
  ∀ guild, guild ∈ peer.guilds ↔ ∃ net ∈ peer.networks, net.guildId = guild

def Peer.Attested (peer : Peer) (atts : List GuildAttestation) : Prop :=
  List.Forall₂
    (fun guild att => Attests guild (identityOf peer.mp) att.attestation.payload.attestation)
    peer.guilds atts

theorem Peer.Attested.attests {peer : Peer} {atts : List GuildAttestation} {att : GuildAttestation}
    (hattested : peer.Attested atts) (hmem : att ∈ atts) :
    ∃ guild, Attests guild (identityOf peer.mp) att.attestation.payload.attestation := by
  unfold Peer.Attested at hattested
  generalize peer.guilds = guilds at hattested
  induction hattested with
  | nil => cases hmem
  | @cons guild head _ _ hattests _ ih =>
      rcases List.mem_cons.mp hmem with rfl | hmem
      · exact ⟨guild, hattests⟩
      · exact ih hmem

theorem Peer.Attested.guildIds {peer : Peer} {atts : List GuildAttestation}
    (hattested : peer.Attested atts) :
    atts.map (·.attestation.payload.attestation.guildId) = peer.guilds := by
  unfold Peer.Attested at hattested
  generalize peer.guilds = guilds at hattested
  induction hattested with
  | nil => rfl
  | cons hattests _ ih => rw [List.map_cons, ih, hattests.guildId]

structure PeersSound (peers : Peers) : Prop where
  keyed : ∀ pubkey peer, peers.get? pubkey = some peer → peer.mp.pubkey = pubkey
  tells : ∀ pubkey peer, peers.get? pubkey = some peer → peer.networks ≠ [] → peer.Scoped

structure Round where
  req : RegisterReq
  now : Nat
  exchange : Exchange
  peers : Peers
  attestations : PubKey → List GuildAttestation
  sound : PeersSound peers
  attested : ∀ pubkey peer, peers.get? pubkey = some peer →
    peer.Attested (attestations pubkey)

variable (conf : Conf)

def Round.seed (round : Round) (pubkey : PubKey) (peer : Peer) : Seed :=
  seedOf conf round.req round.now round.exchange peer (round.attestations pubkey)

def Round.content (round : Round) (pubkey : PubKey) (peer : Peer) : SeedContent :=
  let seed := round.seed conf pubkey peer
  seedContent peer.mp seed.punch seed.networks seed.relay seed.ice

/-- The seeds a caller that holds nothing is sent. -/
def Round.full (round : Round) : List (PubKey × Seed) :=
  round.peers.rows.map fun row => (row.1, round.seed conf row.1 row.2)

def Round.Answers (round : Round) (resp : RegisterResp) : Prop :=
  (resp.seeds, resp.removed, resp.isPartial) = applyDelta round.req (round.full conf)

variable {conf}

theorem Round.mem_full {round : Round} {pubkey : PubKey} {seed : Seed} :
    (pubkey, seed) ∈ round.full conf ↔ ∃ peer, round.peers.get? pubkey = some peer ∧
      round.seed conf pubkey peer = seed := by
  unfold Round.full
  constructor
  · intro hmem
    obtain ⟨row, hrow, heq⟩ := List.mem_map.mp hmem
    obtain ⟨rfl, rfl⟩ := Prod.mk.inj heq
    exact ⟨row.2, Table.mem_rows.mp hrow, rfl⟩
  · rintro ⟨peer, hpeer, rfl⟩
    exact List.mem_map.mpr ⟨(pubkey, peer), Table.mem_rows.mpr hpeer, rfl⟩

theorem Round.full_unique {round : Round} {pubkey : PubKey} {seed seed' : Seed}
    (hmem : (pubkey, seed) ∈ round.full conf) (hmem' : (pubkey, seed') ∈ round.full conf) :
    seed = seed' := by
  obtain ⟨peer, hpeer, rfl⟩ := Round.mem_full.mp hmem
  obtain ⟨peer', hpeer', rfl⟩ := Round.mem_full.mp hmem'
  rw [hpeer, Option.some.injEq] at hpeer'
  rw [hpeer']

/-! Every answer is the delta of a round. -/

namespace Attesting

def allows : Op → Prop
  | .signing (.keepKey guild key) => key.signer.guildId = guild
  | .signing (.keep guild id _ _ blob) => Attests guild id blob.payload.attestation
  | _ => True

def expects : (o : Op) → o.Res → Prop
  | .signing (.key guild), some key => key.signer.guildId = guild
  | .signing (.fresh guild id _ _), some blob => Attests guild id blob.payload.attestation
  | _, _ => True

end Attesting

/-- What is kept and found of keys and attestations is of the guild, and of the device,
that it is kept for and looked up by. -/
def attesting : Monitor sig Unit where
  allows := fun _ => Attesting.allows
  expects := fun _ => Attesting.expects
  next := fun _ _ _ => ()

variable {ε α : Type} {req : RegisterReq} {user : UserId} {m : Membership}

theorem unkept_conforms {inside : Op → Prop} {program : Prog sig ε α}
    (hprogram : program.Uses inside) (hinside : ∀ o, inside o → Attesting.allows o) :
    program.Conforms attesting (returns fun _ _ => True) () := by
  refine (hprogram.keeps (fun _ => True) (fun _ o ho _ => ⟨hinside o ho, fun _ _ => trivial⟩)
    trivial).mono fun _ result _ => ?_
  cases result <;> trivial

theorem plain_attesting (o : Op) (ho : PlainOp req o) : Attesting.allows o := by
  unfold Attesting.allows
  split
  · exact ho
  · exact ho.elim
  · trivial

theorem settle_attesting (o : Op) (ho : SettleOp req o) : Attesting.allows o := by
  unfold Attesting.allows
  split
  · exact ho.elim
  · exact ho.elim
  · trivial

theorem admission_attesting (o : Op) (ho : AdmissionOp req o) : Attesting.allows o := by
  unfold Attesting.allows
  split
  · exact ho.elim
  · exact ho.elim
  · trivial

theorem withLock_attesting (μ : Unit) (o : Locks.Op) :
    attesting.allows μ (.locks o) ∧ ∀ answer, attesting.next μ (.locks o) answer = μ :=
  ⟨trivial, fun _ => rfl⟩

theorem guildKeys_get_guild (guild : GuildId) :
    (GuildKeys.get conf guild).Conforms attesting
      (returns fun _ key => key.signer.guildId = guild) () := by
  unfold GuildKeys.get
  refine withLock_conforms withLock_attesting ?_
  refine (conforms_act_bind ..).mpr ⟨trivial, fun cached hcached => ?_⟩
  cases cached with
  | some key => exact hcached
  | none =>
      refine (unkept_conforms (@loadOrCreateSeed_uses { wgPubkey := 0 } guild)
        plain_attesting).andThen fun _ seed _ => ?_
      refine (conforms_sql_bind ..).mpr ⟨trivial, fun chain _ => ?_⟩
      cases chain with
      | ok chain => exact ⟨rfl, fun _ _ => rfl⟩
      | error error => trivial

theorem signWith_attests (signer : Signer) (id : AttIdentity) (schema : Nat) :
    (signWith signer id schema).Conforms attesting
      (returns fun _ blob => Attests signer.guildId id blob.payload.attestation) () := by
  refine (conforms_act_bind ..).mpr ⟨trivial, fun now _ => ?_⟩
  split
  · rename_i blob hsigned
    unfold signAttestation at hsigned
    split at hsigned
    · cases hsigned
      exact ⟨rfl, rfl, rfl, rfl, rfl, rfl⟩
    · cases hsigned
  · trivial

theorem attestation_attests (guild : GuildId) (id : AttIdentity) (now schema : Nat) :
    (SignCache.attestation conf guild id now schema).Conforms attesting
      (returns fun _ blob => Attests guild id blob.payload.attestation) () := by
  refine (conforms_act_bind ..).mpr ⟨trivial, fun hit hexpected => ?_⟩
  cases hit with
  | some blob => exact hexpected
  | none =>
      refine withLock_conforms withLock_attesting ?_
      refine (conforms_act_bind ..).mpr ⟨trivial, fun again hexpected => ?_⟩
      cases again with
      | some blob => exact hexpected
      | none =>
          refine (guildKeys_get_guild guild).andThen fun _ key hkey => ?_
          refine (signWith_attests key.signer id schema).andThen fun _ blob hblob => ?_
          rw [hkey] at hblob
          exact (conforms_act_bind ..).mpr ⟨hblob, fun _ _ => hblob⟩

theorem peerAttestations_attest (mp : MemberPresence) (now attSchema : Nat)
    (guilds : List GuildId) :
    (peerAttestations conf mp m now attSchema guilds).Conforms attesting
      (returns fun _ atts => List.Forall₂
        (fun guild att => Attests guild (identityOf mp) att.attestation.payload.attestation)
        guilds atts) () := by
  induction guilds with
  | nil => exact .nil
  | cons guild rest ih =>
      unfold peerAttestations
      refine (attestation_attests guild _ now attSchema).mapError_returns.andThen
        fun _ blob hblob => ?_
      exact ih.andThen fun _ atts hatts => .cons hblob hatts

def Seeded (conf : Conf) (req : RegisterReq) (now : Nat) (exchange : Exchange)
    (row : PubKey × Peer) (entry : PubKey × Seed) : Prop :=
  ∃ atts, entry = (row.1, seedOf conf req now exchange row.2 atts) ∧ row.2.Attested atts

theorem attestPeers_seeds (now attSchema : Nat) (exchange : Exchange)
    (rows : List (PubKey × Peer)) :
    (attestPeers conf req m now attSchema exchange rows).Conforms attesting
      (returns fun _ all => List.Forall₂ (Seeded conf req now exchange) rows all) () := by
  induction rows with
  | nil => exact .nil
  | cons row rest ih =>
      unfold attestPeers
      refine (peerAttestations_attest row.2.mp now attSchema row.2.guilds).andThen
        fun _ atts hatts => ?_
      exact ih.andThen fun _ all hall => .cons ⟨atts, rfl, hatts⟩ hall

/-! The peers of a caller. -/

theorem PeersSound.insert {peers : Peers} {peer : Peer} (hsound : PeersSound peers)
    (hscoped : peer.networks ≠ [] → peer.Scoped) :
    PeersSound (peers.insert peer.mp.pubkey peer) := by
  constructor
  · intro pubkey other hother
    rw [Table.get?_insert] at hother
    split at hother
    · rename_i hkey
      cases hother
      exact hkey.symm
    · exact hsound.keyed pubkey other hother
  · intro pubkey other hother
    rw [Table.get?_insert] at hother
    split at hother
    · cases hother
      exact hscoped
    · exact hsound.tells pubkey other hother

structure AllShared (peers : Peers) : Prop where
  sound : PeersSound peers
  tells : ∀ pubkey peer, peers.get? pubkey = some peer → peer.Scoped

theorem Peer.Scoped.share {peer : Peer} (hscoped : peer.Scoped) (net : SharedNetwork) :
    Peer.Scoped { peer with
      networks := if net ∈ peer.networks then peer.networks else peer.networks ++ [net]
      guilds := insertGuild net.guildId peer.guilds } := by
  intro guild
  have hnetworks : ∀ other, other ∈ (if net ∈ peer.networks then peer.networks
      else peer.networks ++ [net]) ↔ other = net ∨ other ∈ peer.networks := by
    intro other
    split
    · rename_i hmem
      constructor
      · exact .inr
      · rintro (rfl | hother)
        · exact hmem
        · exact hother
    · simp [or_comm]
  rw [mem_insertGuild, hscoped guild]
  constructor
  · rintro (rfl | ⟨other, hother, rfl⟩)
    · exact ⟨net, (hnetworks net).mpr (.inl rfl), rfl⟩
    · exact ⟨other, (hnetworks other).mpr (.inr hother), rfl⟩
  · rintro ⟨other, hother, rfl⟩
    rcases (hnetworks other).mp hother with rfl | hother
    · exact .inl rfl
    · exact .inr ⟨other, hother, rfl⟩

theorem addShared_shared {peers : Peers} (net : SharedNetwork) (mp : MemberPresence)
    (hshared : AllShared peers) : AllShared (addShared net peers mp) := by
  have hpeer : ∃ peer, (peers.get? mp.pubkey).getD { mp := mp } = peer ∧
      peer.mp.pubkey = mp.pubkey ∧ peer.Scoped := by
    cases hfound : peers.get? mp.pubkey with
    | none => exact ⟨_, rfl, rfl, fun guild => by simp⟩
    | some peer =>
        exact ⟨peer, rfl, hshared.sound.keyed _ peer hfound, hshared.tells _ peer hfound⟩
  obtain ⟨peer, hget, hkey, hscoped⟩ := hpeer
  unfold addShared
  rw [hget]
  have hnew := hscoped.share net
  constructor
  · rw [← hkey]
    exact hshared.sound.insert fun _ => hnew
  · intro pubkey other hother
    rw [Table.get?_insert] at hother
    split at hother
    · cases hother
      exact hnew
    · exact hshared.tells pubkey other hother

theorem foldl_shared {peers : Peers} (net : SharedNetwork) (rows : List MemberPresence)
    (hshared : AllShared peers) : AllShared (rows.foldl (addShared net) peers) := by
  induction rows generalizing peers with
  | nil => exact hshared
  | cons mp rest ih => exact ih (addShared_shared net mp hshared)

theorem foldl_siblings {peers : Peers} (guilds : List GuildId) (rows : List MemberPresence)
    (hsound : PeersSound peers) : PeersSound (rows.foldl (addSibling guilds) peers) := by
  induction rows generalizing peers with
  | nil => exact hsound
  | cons mp rest ih =>
      apply ih
      unfold addSibling
      split
      · exact hsound
      · exact @PeersSound.insert peers { mp := mp, guilds := guilds } hsound
          fun hnetworks => (hnetworks rfl).elim

theorem gatherShared_shared (held : List ((GuildId × RoleId) × String)) {peers : Peers}
    (hshared : AllShared peers) :
    (gatherShared req m held peers).Conforms attesting
      (returns fun _ peers' => AllShared peers') () := by
  induction held generalizing peers with
  | nil => exact hshared
  | cons network rest ih =>
      refine (conforms_act_bind ..).mpr ⟨trivial, fun others _ => ?_⟩
      exact ih (foldl_shared _ others hshared)

theorem gatherPeers_sound (grantGuilds : List GuildId) :
    (gatherPeers req user m grantGuilds).Conforms attesting
      (returns fun _ peers => PeersSound peers) () := by
  have hnobody : AllShared ∅ := by
    constructor
    · constructor <;> exact nofun
    · exact nofun
  unfold gatherPeers
  refine (gatherShared_shared _ hnobody).andThen fun _ peers hshared => ?_
  split
  · exact (conforms_act_bind ..).mpr ⟨trivial, fun siblings _ =>
      foldl_siblings grantGuilds siblings hshared.sound⟩
  · exact hshared.sound

theorem exists_by_key {κ ν τ ω : Type} [DecidableEq κ] [Inhabited τ] {rows : List (κ × ν)}
    {all : List (κ × ω)} (build : ν → τ → ω) (P : ν → τ → Prop)
    (hkeys : (rows.map Prod.fst).Nodup)
    (hall : List.Forall₂ (fun row entry => ∃ t, entry = (row.1, build row.2 t) ∧ P row.2 t)
      rows all) :
    ∃ choice : κ → τ, all = rows.map (fun row => (row.1, build row.2 (choice row.1))) ∧
      ∀ row ∈ rows, P row.2 (choice row.1) := by
  induction hall with
  | nil => exact ⟨fun _ => default, rfl, nofun⟩
  | @cons row entry rows all hentry hall ih =>
      obtain ⟨t, rfl, ht⟩ := hentry
      rw [List.map_cons, List.nodup_cons] at hkeys
      obtain ⟨choice, rfl, hchoice⟩ := ih hkeys.2
      have hother : ∀ other ∈ rows, Function.update choice row.1 t other.1 = choice other.1 := by
        intro other hmem
        apply Function.update_of_ne
        rintro hsame
        exact hkeys.1 (hsame ▸ List.mem_map_of_mem hmem)
      refine ⟨Function.update choice row.1 t, ?_, ?_⟩
      · rw [List.map_cons, Function.update_self]
        congr 1
        apply List.map_congr_left
        intro other hmem
        rw [hother other hmem]
      · intro other hmem
        rcases List.mem_cons.mp hmem with rfl | hmem
        · rwa [Function.update_self]
        · rw [hother other hmem]
          exact hchoice other hmem

theorem round_of_seeds {now : Nat} {exchange : Exchange} {peers : Peers}
    {all : List (PubKey × Seed)} (hsound : PeersSound peers)
    (hseeds : List.Forall₂ (Seeded conf req now exchange) peers.rows all) :
    ∃ round : Round, round.req = req ∧ round.full conf = all := by
  obtain ⟨attestations, hall, hattested⟩ :=
    exists_by_key (seedOf conf req now exchange) Peer.Attested peers.keysNodup hseeds
  refine ⟨⟨req, now, exchange, peers, attestations, hsound, ?_⟩, rfl, hall.symm⟩
  intro pubkey peer hpeer
  exact hattested (pubkey, peer) (Table.mem_rows.mpr hpeer)

theorem buildSeeds_round (grantGuilds : List GuildId) (now attSchema : Nat) :
    (buildSeeds conf req user m grantGuilds now attSchema).Conforms attesting
      (returns fun _ built => ∃ round : Round, round.req = req ∧ round.full conf = built.1) () := by
  unfold buildSeeds
  refine (gatherPeers_sound grantGuilds).andThen fun _ peers hsound => ?_
  refine (unkept_conforms (recordPeerReports_uses _) plain_attesting).andThen
    fun _ wakeTargets _ => ?_
  simp only [conforms_act_bind]
  refine ⟨trivial, fun relays _ => ⟨trivial, fun relayAllocs _ => ⟨trivial, fun ice _ =>
    ⟨trivial, fun reflexive _ => ?_⟩⟩⟩⟩
  exact (attestPeers_seeds now attSchema _ peers.rows).andThen fun _ all hall =>
    round_of_seeds hsound hall

theorem answer_answers (alreadyEnrolled : Bool) (settled : Settled) :
    (answer conf req user alreadyEnrolled settled).Conforms attesting
      (returns fun _ built => ∃ round : Round, round.req = req ∧ round.Answers conf built.resp)
      () := by
  have hplain : ∀ {ε α : Type} {program : Prog sig ε α}, program.Uses (PlainOp req) →
      program.Conforms attesting (returns fun _ _ => True) () :=
    fun huses => unkept_conforms huses plain_attesting
  unfold answer
  refine (hplain (buildGrant_uses _ _ _ _ _)).andThen fun _ grant _ => ?_
  refine (buildSeeds_round _ _ _).andThen fun _ built hround => ?_
  obtain ⟨round, rfl, hfull⟩ := hround
  dsimp only
  refine (hplain (deliverToken_uses _)).andThen fun _ deviceToken _ => ?_
  refine (hplain (bumpAll_uses _)).andThen fun _ _ _ => ?_
  refine (hplain (wakeAll_uses _)).andThen fun _ _ _ => ?_
  refine (unkept_conforms (aggregate_uses conf _) ?_).andThen fun _ version _ => ?_
  · intro o ho
    unfold CounterOp at ho
    split at ho
    · trivial
    · exact ho.elim
  refine (hplain (buildAnchors_uses conf _)).andThen fun _ anchors _ => ?_
  refine (hplain (signRelease_uses conf _)).andThen fun _ release _ => ?_
  exact ⟨round, rfl, by rw [Round.Answers, hfull]⟩

theorem buildSnapshot_answers (callerIp : IpAddr) :
    (buildSnapshot conf req callerIp).Conforms attesting
      (returns fun _ built => ∃ round : Round, round.req = req ∧ round.Answers conf built.resp)
      () := by
  unfold buildSnapshot validatePeerReports
  split
  · trivial
  · refine (unkept_conforms (resolveUser_uses conf) admission_attesting).andThen
      fun _ caller _ => ?_
    refine (unkept_conforms (settle_uses conf callerIp _) settle_attesting).andThen
      fun _ settled _ => ?_
    exact answer_answers caller.2 settled

theorem register_answers (callerIp : IpAddr) :
    (register conf req callerIp).Conforms attesting
      (returns fun _ resp => ∃ round : Round, round.req = req ∧ round.Answers conf resp) () := by
  have hbuilds : Builds conf req attesting (fun _ => True)
      (fun _ built => ∃ round : Round, round.req = req ∧ round.Answers conf built.resp) := by
    constructor
    · exact fun _ _ _ => ⟨trivial, fun _ => trivial⟩
    · exact fun _ ip _ => buildSnapshot_answers ip
    · exact fun _ _ _ => ⟨trivial, fun _ => trivial⟩
    · intro _ o ho _
      refine ⟨?_, fun _ _ => trivial⟩
      rcases ho with hpark | rfl
      · unfold ParkOp at hpark
        split at hpark
        all_goals first | exact hpark.elim | trivial
      · trivial
  refine (hbuilds.register callerIp trivial).returns_mono fun _ resp hresp => ?_
  obtain ⟨built, hround, rfl⟩ := hresp
  exact hround

def answersPost (conf : Conf) : Call → Except ApiError Reply → Prop
  | .register req _, .ok (.registered resp) =>
      ∃ round : Round, round.req = req ∧ round.Answers conf resp
  | _, _ => True

theorem side_attesting (o : Op) (ho : SideOp o) : Attesting.allows o := by
  unfold Attesting.allows
  split
  · exact ho.elim
  · exact ho.elim
  · trivial

theorem handle_answers (conf : Conf) (call : Call) :
    (handle conf call).Conforms attesting (fun _ result => answersPost conf call result) () := by
  have hside : ∀ call, CallOp call = SideOp → (∀ result, answersPost conf call result) →
      (handle conf call).Conforms attesting (fun _ result => answersPost conf call result) () := by
    intro call hclass hpost
    have huses : (handle conf call).Uses SideOp := hclass ▸ handle_uses conf call
    exact (unkept_conforms huses side_attesting).mono fun _ result _ => hpost result
  cases call with
  | register req callerIp =>
      have hregister : (handle conf (.register req callerIp)).Conforms attesting
          (returns fun _ reply => ∃ resp, reply = .registered resp ∧
            ∃ round : Round, round.req = req ∧ round.Answers conf resp) () :=
        (register_answers callerIp).andThen fun _ resp hresp => ⟨resp, rfl, hresp⟩
      refine hregister.mono fun _ result hresult => ?_
      cases result with
      | ok reply =>
          obtain ⟨resp, rfl, hround⟩ := hresult
          exact hround
      | error error => trivial
  | _ => exact hside _ rfl fun _ => trivial

structure SigningSound (signing : Signing) : Prop where
  keys : ∀ guild key, signing.keys.get? guild = some key → key.signer.guildId = guild
  entries : ∀ key e, signing.map.get? key = some e → ∀ user,
    Attests key.1 ⟨user, e.username, e.deviceName, e.isPrimary, e.ip, key.2.1⟩
      e.blob.payload.attestation

theorem SigningSound.expects {signing : Signing} {reuseSecs : Nat} {s : Signing.Op}
    (hsound : SigningSound signing) :
    Attesting.expects (.signing s) (signing.step reuseSecs s).1 := by
  cases s with
  | key guild =>
      cases hkey : signing.keys.get? guild with
      | none => simp only [Signing.step, hkey, Attesting.expects]
      | some key =>
          simp only [Signing.step, hkey, Attesting.expects]
          exact hsound.keys guild key hkey
  | fresh guild id now schema =>
      cases hhit : signing.fresh reuseSecs guild id now schema with
      | none => simp only [Signing.step, hhit, Attesting.expects]
      | some blob =>
          simp only [Signing.step, hhit, Attesting.expects]
          unfold Signing.fresh at hhit
          split at hhit
          · cases hhit
          · rename_i e hentry
            split at hhit
            · rename_i hsame
              obtain ⟨-, hip, hprimary, husername, hname⟩ := hsame
              have hattests := hsound.entries _ e hentry id.userId
              cases hhit
              rw [hip, hprimary, husername, hname] at hattests
              exact hattests
            · cases hhit
  | _ => trivial

theorem SigningSound.step {signing : Signing} {reuseSecs : Nat} {s : Signing.Op}
    (hsound : SigningSound signing) (hallows : Attesting.allows (.signing s)) :
    SigningSound (signing.step reuseSecs s).2 := by
  cases s with
  | keepKey guild key =>
      refine ⟨fun guild' key' hkey => ?_, hsound.entries⟩
      simp only [Signing.step, Table.get?_insert] at hkey
      split at hkey
      · rename_i hguild
        cases hkey
        exact hguild ▸ hallows
      · exact hsound.keys guild' key' hkey
  | keep guild id now schema blob =>
      constructor
      · intro guild' key' hkey
        apply hsound.keys guild' key'
        simp only [Signing.step, Signing.keep] at hkey
        split at hkey <;> exact hkey
      · intro key e hentry user
        simp only [Signing.step, Signing.keep, Table.get?_insert] at hentry
        split at hentry
        · rename_i hkey
          cases hentry
          cases hkey
          have hattests : Attests guild id blob.payload.attestation := hallows
          exact ⟨hattests.1, hattests.2, hattests.3, hattests.4, hattests.5, hattests.6⟩
        · apply hsound.entries key e
          split at hentry
          · rw [Table.get?_retain] at hentry
            exact (Option.filter_eq_some_iff.mp hentry).1
          · exact hentry
  | _ => exact hsound

variable (conf)

def answers : Machine.Observer (machine conf) (List (RegisterReq × RegisterResp)) where
  see := fun g _ event _ =>
    match event with
    | .ended _ (.register req _) (.ok (.registered resp)) => (req, resp) :: g
    | _ => g

structure AnswersInv (g : List (RegisterReq × RegisterResp)) (st : AppState) : Prop where
  signing : SigningSound st.signing
  answered : ∀ entry ∈ g, ∃ round : Round, round.req = entry.1 ∧ round.Answers conf entry.2

section

variable {conf} {g : List (RegisterReq × RegisterResp)} {st st' : AppState} {task : Nat}
  {call : Call} {choice : Choice} {o : Op} {answer : o.Res}

theorem AnswersInv.did (hinv : AnswersInv conf g st) (hallows : Attesting.allows o)
    (hexec : AppState.exec conf task o choice st = some (answer, st')) :
    Attesting.expects o answer ∧ AnswersInv conf g st' := by
  by_cases hsigning : ∃ s, o = .signing s
  · obtain ⟨s, rfl⟩ := hsigning
    obtain ⟨rfl, hafter⟩ := Prod.mk.inj (AppState.exec_signing hexec)
    exact ⟨hinv.signing.expects, hafter ▸ hinv.signing.step hallows, hinv.answered⟩
  · constructor
    · unfold Attesting.expects
      split
      · exact absurd ⟨_, rfl⟩ hsigning
      · exact absurd ⟨_, rfl⟩ hsigning
      · trivial
    · refine ⟨?_, hinv.answered⟩
      rw [(AppState.exec_frame hexec).signing fun s hs => hsigning ⟨s, hs⟩]
      exact hinv.signing

theorem AnswersInv.ended {result : Except ApiError Reply} (hinv : AnswersInv conf g st)
    (hpost : answersPost conf call result) :
    AnswersInv conf ((answers conf).see g st (.ended task call result) (AppState.release task st))
      (AppState.release task st) := by
  refine ⟨hinv.signing, fun entry hentry => ?_⟩
  simp only [answers] at hentry
  split at hentry
  · rename_i hevent
    cases hevent
    rcases List.mem_cons.mp hentry with rfl | hentry
    · exact hpost
    · exact hinv.answered entry hentry
  · exact hinv.answered entry hentry

end

def answersDiscipline :
    Machine.Discipline (machine conf) (answers conf) Machine.free Unit where
  mon := attesting
  opening := fun _ _ _ => ()
  post := fun call _ result => answersPost conf call result
  inv := fun g st _ => AnswersInv conf g st
  conforms := fun _ _ call => handle_answers conf call
  called := fun hinv _ _ => hinv
  did := fun hinv _ hallows hexec _ => hinv.did hallows hexec
  ended := fun hinv _ hpost _ => hinv.ended hpost
  dropped := fun hinv _ _ => ⟨hinv.signing, hinv.answered⟩
  moved := fun hinv hmove _ =>
    ⟨(AppState.move_untouched hmove).signing ▸ hinv.signing, hinv.answered⟩

/-- Whatever a coordinator answers a register is the delta of a round. -/
theorem answers_of_rounds {st₀ : AppState} {c : (machine conf).Config}
    {g : List (RegisterReq × RegisterResp)} (hfresh : st₀.signing = {})
    (hreach : Machine.Reach (answers conf) Machine.free ((machine conf).idle st₀) [] c g) :
    ∀ entry ∈ g, ∃ round : Round, round.req = entry.1 ∧ round.Answers conf entry.2 := by
  have hstart : AnswersInv conf [] st₀ := by
    refine ⟨?_, List.forall_mem_nil _⟩
    rw [hfresh]
    constructor
    · intro guild key hkey
      cases hkey
    · intro key e hentry
      cases hentry
  obtain ⟨views, _, hinv⟩ := (answersDiscipline conf).run hstart hreach
  exact hinv.answered

open Script in
/-- The second device registers after the first. -/
def registeredInTurn : Script Conf.small :=
  call (.register (enrolling 1) (.v4 0)) ++ steps 0 24 (.text "token") ++ steps 0 55 (.key 99) ++
    call (.register (enrolling 2) (.v4 0)) ++ steps 1 24 (.text "token") ++ steps 1 59 (.key 77)

theorem answers_of_rounds_both :
    ∃ c g, Machine.Reach (answers Conf.small) Machine.free
        ((machine Conf.small).idle twoMembers) [] c g ∧
      (∃ entry ∈ g, entry.2.seeds.length = 1) ∧
      ∀ entry ∈ g, ∃ round : Round, round.req = entry.1 ∧ round.Answers Conf.small entry.2 := by
  have hplay : (Machine.play (answers Conf.small) (fun _ _ _ => true)
      ((machine Conf.small).idle twoMembers) [] registeredInTurn).any
        (fun last => last.2.any fun entry => entry.2.seeds.length == 1) = true := by
    decide +kernel
  have hrun : ∃ c g, Machine.Reach (answers Conf.small) Machine.free
      ((machine Conf.small).idle twoMembers) [] c g ∧
        (g.any fun entry => entry.2.seeds.length == 1) = true :=
    Machine.reach_of_play (fun _ _ _ _ => trivial) hplay
  obtain ⟨c, g, hreach, hany⟩ := hrun
  obtain ⟨entry, hentry, hlength⟩ := List.any_eq_true.mp hany
  exact ⟨c, g, hreach, ⟨entry, hentry, beq_iff_eq.mp hlength⟩,
    answers_of_rounds Conf.small rfl hreach⟩

end UnityLan.Coordinator
