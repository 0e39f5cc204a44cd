import Mathlib.Data.Set.Insert
import UnityLan.Coordinator.Rounds
import UnityLan.Foundation.Eval

namespace UnityLan.Coordinator

open UnityLan.Foundation Prog

/-! Who relays for a pair of devices is chosen on each side apart, from what each side sees of
the mesh. -/

@[ext] structure Mesh where
  joined : Set (GuildId × RoleId × PubKey)
  relays : PubKey → Option RelayReg

namespace Mesh

def Third (mesh : Mesh) (first second relay : PubKey) (reg : RelayReg) : Prop :=
  relay ≠ first ∧ relay ≠ second ∧ mesh.relays relay = some reg ∧
    ∃ guild role, (guild, role, first) ∈ mesh.joined ∧ (guild, role, second) ∈ mesh.joined ∧
      (guild, role, relay) ∈ mesh.joined

theorem Third.symm {mesh : Mesh} {first second relay : PubKey} {reg : RelayReg}
    (hthird : mesh.Third first second relay reg) : mesh.Third second first relay reg := by
  obtain ⟨hfirst, hsecond, hreg, guild, role, hjoined, hjoined', hrelay⟩ := hthird
  exact ⟨hsecond, hfirst, hreg, guild, role, hjoined', hjoined, hrelay⟩

def Elects (mesh : Mesh) (first second : PubKey) : Option (PubKey × RelayReg) → Prop
  | some (relay, reg) => mesh.Third first second relay reg ∧
      ∀ other reg', mesh.Third first second other reg' → relay ≤ other
  | none => ∀ relay reg, ¬ mesh.Third first second relay reg

theorem Elects.symm {mesh : Mesh} {first second : PubKey} {chosen : Option (PubKey × RelayReg)}
    (helects : mesh.Elects first second chosen) : mesh.Elects second first chosen := by
  cases chosen with
  | none => exact fun relay reg hthird => helects relay reg hthird.symm
  | some found => exact ⟨helects.1.symm, fun other reg' hthird => helects.2 other reg' hthird.symm⟩

theorem Elects.unique {mesh : Mesh} {first second : PubKey}
    {chosen chosen' : Option (PubKey × RelayReg)} (helects : mesh.Elects first second chosen)
    (helects' : mesh.Elects first second chosen') : chosen = chosen' := by
  cases chosen with
  | none =>
      cases chosen' with
      | none => rfl
      | some found' => exact (helects _ _ helects'.1).elim
  | some found =>
      cases chosen' with
      | none => exact (helects' _ _ helects.1).elim
      | some found' =>
          obtain ⟨relay, reg⟩ := found
          obtain ⟨relay', reg'⟩ := found'
          have hrelay : relay = relay' :=
            BitVec.le_antisymm (helects.2 _ _ helects'.1) (helects'.2 _ _ helects.1)
          subst hrelay
          have hreg : reg = reg' :=
            Option.some.inj (helects.1.2.2.1.symm.trans helects'.1.2.2.1)
          rw [hreg]

end Mesh

/-! The choice of one side. -/

theorem lowest_some {candidates : List RelayCandidate} {found : RelayCandidate}
    (hfound : lowest candidates = some found) :
    found ∈ candidates ∧ ∀ other ∈ candidates, found.pubkey ≤ other.pubkey := by
  induction candidates generalizing found with
  | nil => cases hfound
  | cons head tail ih =>
      rw [lowest] at hfound
      split at hfound
      · rename_i hnone
        cases hfound
        have htail : tail = [] := by
          cases tail with
          | nil => rfl
          | cons next rest =>
              rw [lowest] at hnone
              split at hnone
              · cases hnone
              · split at hnone <;> cases hnone
        subst htail
        exact ⟨List.mem_cons_self .., by simp⟩
      · rename_i other hother
        obtain ⟨hmem, hleast⟩ := ih hother
        split at hfound
        · rename_i hlower
          cases hfound
          refine ⟨List.mem_cons_of_mem _ hmem, fun candidate hcandidate => ?_⟩
          rcases List.mem_cons.mp hcandidate with rfl | hrest
          · exact BitVec.le_of_lt hlower
          · exact hleast candidate hrest
        · rename_i hnot
          cases hfound
          refine ⟨List.mem_cons_self .., fun candidate hcandidate => ?_⟩
          rcases List.mem_cons.mp hcandidate with rfl | hrest
          · exact BitVec.le_refl _
          · exact BitVec.le_trans (BitVec.not_lt.mp hnot) (hleast candidate hrest)

theorem lowest_none {candidates : List RelayCandidate} (hnone : lowest candidates = none) :
    candidates = [] := by
  cases candidates with
  | nil => rfl
  | cons head tail =>
      rw [lowest] at hnone
      split at hnone
      · cases hnone
      · split at hnone <;> cases hnone

theorem relayTarget_nil (conf : Conf) (peer : PubKey) (candidates : List RelayCandidate)
    (now : Nat) : relayTarget conf peer [] candidates now = none := by
  have hnobody : (candidates.filter fun candidate =>
      candidate.pubkey != peer &&
        candidate.networks.any ([] : List SharedNetwork).contains) = [] := by
    simp
  rw [relayTarget, hnobody]
  rfl

def sharedWith (peers : Peers) (pubkey : PubKey) : List SharedNetwork :=
  (peers.get? pubkey).elim [] Peer.networks

theorem mem_sharedWith_addShared {peers : Peers} {net shared : SharedNetwork}
    {mp : MemberPresence} {pubkey : PubKey} :
    shared ∈ sharedWith (addShared net peers mp) pubkey ↔
      shared ∈ sharedWith peers pubkey ∨ shared = net ∧ mp.pubkey = pubkey := by
  unfold sharedWith addShared
  rw [Table.get?_insert]
  by_cases hkey : pubkey = mp.pubkey
  · subst hkey
    rw [if_pos rfl]
    cases peers.get? mp.pubkey with
    | none => simp
    | some peer =>
        simp only [Option.getD_some, Option.elim_some]
        split
        · rename_i hmem
          constructor
          · exact .inl
          · rintro (hold | ⟨rfl, -⟩)
            · exact hold
            · exact hmem
        · simp
  · rw [if_neg hkey]
    simp [Ne.symm hkey]

theorem mem_sharedWith_foldl {net shared : SharedNetwork} {pubkey : PubKey}
    (rows : List MemberPresence) (peers : Peers) :
    shared ∈ sharedWith (rows.foldl (addShared net) peers) pubkey ↔
      shared ∈ sharedWith peers pubkey ∨ shared = net ∧ ∃ mp ∈ rows, mp.pubkey = pubkey := by
  induction rows generalizing peers with
  | nil => simp
  | cons mp rest ih =>
      rw [List.foldl_cons, ih, mem_sharedWith_addShared, or_assoc, ← and_or_left]
      simp

theorem sharedWith_siblings {pubkey : PubKey} (guilds : List GuildId)
    (rows : List MemberPresence) (peers : Peers) :
    sharedWith (rows.foldl (addSibling guilds) peers) pubkey = sharedWith peers pubkey := by
  induction rows generalizing peers with
  | nil => rfl
  | cons mp rest ih =>
      rw [List.foldl_cons, ih]
      unfold addSibling
      split
      · rfl
      · rename_i hmissing
        unfold sharedWith
        rw [Table.get?_insert]
        split
        · rename_i hkey
          have hnone : peers.get? pubkey = none := by
            rw [hkey]
            simpa [Table.contains] using hmissing
          rw [hnone]
          rfl
        · rfl

def Membership.sharedNetworks (m : Membership) : List SharedNetwork :=
  (m.held.zip m.networkNames).map fun entry =>
    ⟨entry.2, m.communityOf entry.1.1, entry.1.1, entry.1.2⟩

structure Mesh.Settles (mesh : Mesh) (caller : PubKey) (m : Membership) : Prop where
  named : m.held.length = m.networkNames.length
  joined : ∀ guild role, (guild, role, caller) ∈ mesh.joined ↔ (guild, role) ∈ m.held

def Mesh.Sees (mesh : Mesh) (caller : PubKey) (m : Membership) (peers : Peers) : Prop :=
  ∀ pubkey net, net ∈ sharedWith peers pubkey ↔
    net ∈ m.sharedNetworks ∧ pubkey ≠ caller ∧ (net.guildId, net.roleId, pubkey) ∈ mesh.joined

section

variable {mesh : Mesh} {caller peer : PubKey} {m : Membership} {peers : Peers}
  {relays : Table PubKey RelayReg}

theorem Mesh.Settles.network (hsettles : mesh.Settles caller m) {guild : GuildId} {role : RoleId} :
    (guild, role, caller) ∈ mesh.joined ↔
      ∃ net ∈ m.sharedNetworks, net.guildId = guild ∧ net.roleId = role := by
  rw [hsettles.joined, Membership.sharedNetworks]
  constructor
  · intro hheld
    have hfirst : (m.held.zip m.networkNames).map Prod.fst = m.held :=
      List.map_fst_zip (Nat.le_of_eq hsettles.named)
    rw [← hfirst] at hheld
    obtain ⟨entry, hentry, hnetwork⟩ := List.mem_map.mp hheld
    refine ⟨_, List.mem_map_of_mem hentry, ?_, ?_⟩
    · exact congrArg Prod.fst hnetwork
    · exact congrArg Prod.snd hnetwork
  · rintro ⟨net, hnet, rfl, rfl⟩
    obtain ⟨entry, hentry, rfl⟩ := List.mem_map.mp hnet
    exact (List.of_mem_zip hentry).1

theorem mem_relayCandidates {candidate : RelayCandidate} :
    candidate ∈ relayCandidates peers relays ↔
      ∃ found, peers.get? candidate.pubkey = some found ∧ candidate.networks = found.networks ∧
        relays.get? candidate.pubkey = some candidate.reg := by
  simp only [relayCandidates, List.mem_filterMap, Prod.exists, Table.mem_rows,
    Option.map_eq_some_iff]
  constructor
  · rintro ⟨pubkey, found, hfound, reg, hreg, rfl⟩
    exact ⟨found, hfound, rfl, hreg⟩
  · rintro ⟨found, hfound, hnetworks, hreg⟩
    exact ⟨candidate.pubkey, found, hfound, candidate.reg, hreg, by rw [← hnetworks]⟩

theorem candidate_third (hsettles : mesh.Settles caller m) (hsees : mesh.Sees caller m peers)
    (hrelays : ∀ pubkey, pubkey ≠ caller → pubkey ≠ peer →
      relays.get? pubkey = mesh.relays pubkey) (relay : PubKey) (reg : RelayReg) :
    (∃ candidate ∈ (relayCandidates peers relays).filter fun candidate =>
        candidate.pubkey != peer && candidate.networks.any (sharedWith peers peer).contains,
      candidate.pubkey = relay ∧ candidate.reg = reg) ↔ peer ≠ caller ∧
        mesh.Third caller peer relay reg := by
  constructor
  · rintro ⟨candidate, hcandidate, rfl, rfl⟩
    obtain ⟨hmem, hserves⟩ := List.mem_filter.mp hcandidate
    obtain ⟨found, hfound, hnetworks, hreg⟩ := mem_relayCandidates.mp hmem
    simp only [Bool.and_eq_true, bne_iff_ne, List.any_eq_true, List.contains_iff_mem]
      at hserves
    obtain ⟨hother, net, hnet, hpeer⟩ := hserves
    have hrelay : net ∈ sharedWith peers candidate.pubkey := by
      rw [sharedWith, hfound, Option.elim_some, ← hnetworks]
      exact hnet
    obtain ⟨hknown, hthird, hjoined⟩ := (hsees _ _).mp hrelay
    obtain ⟨-, hdistinct, hjoined'⟩ := (hsees _ _).mp hpeer
    refine ⟨hdistinct, hthird, hother, ?_, net.guildId, net.roleId, ?_, hjoined', hjoined⟩
    · rw [← hrelays _ hthird hother]
      exact hreg
    · exact hsettles.network.mpr ⟨net, hknown, rfl, rfl⟩
  · rintro ⟨hdistinct, hthird, hother, hreg, guild, role, hcaller, hpeer, hrelay⟩
    obtain ⟨net, hknown, rfl, rfl⟩ := hsettles.network.mp hcaller
    have hshared : net ∈ sharedWith peers relay := (hsees _ _).mpr ⟨hknown, hthird, hrelay⟩
    have hshared' : net ∈ sharedWith peers peer := (hsees _ _).mpr ⟨hknown, hdistinct, hpeer⟩
    unfold sharedWith at hshared
    cases hfound : peers.get? relay with
    | none =>
        rw [hfound] at hshared
        cases hshared
    | some found =>
        rw [hfound] at hshared
        refine ⟨⟨relay, found.networks, reg⟩, List.mem_filter.mpr ⟨?_, ?_⟩, rfl, rfl⟩
        · refine mem_relayCandidates.mpr ⟨found, hfound, rfl, ?_⟩
          rw [hrelays _ hthird hother]
          exact hreg
        · simp only [Bool.and_eq_true, bne_iff_ne, List.any_eq_true, List.contains_iff_mem]
          exact ⟨hother, net, hshared, hshared'⟩

theorem relayTarget_elects (conf : Conf) (hsettles : mesh.Settles caller m)
    (hsees : mesh.Sees caller m peers) (hdistinct : peer ≠ caller)
    (hrelays : ∀ pubkey, pubkey ≠ caller → pubkey ≠ peer →
      relays.get? pubkey = mesh.relays pubkey) (now : Nat) :
    ∃ chosen, mesh.Elects caller peer chosen ∧
      relayTarget conf peer (sharedWith peers peer) (relayCandidates peers relays) now =
        chosen.map fun relay => issueRelayCreds conf relay.2 now := by
  have hthird := candidate_third hsettles hsees hrelays
  unfold relayTarget
  generalize (relayCandidates peers relays).filter _ = candidates at hthird
  cases hfound : lowest candidates with
  | none =>
      refine ⟨none, fun relay reg hserves => ?_, rfl⟩
      obtain ⟨candidate, hcandidate, -⟩ := (hthird relay reg).mpr ⟨hdistinct, hserves⟩
      rw [lowest_none hfound] at hcandidate
      cases hcandidate
  | some found =>
      obtain ⟨hmem, hleast⟩ := lowest_some hfound
      refine ⟨some (found.pubkey, found.reg), ⟨?_, fun other reg' hserves => ?_⟩, rfl⟩
      · exact ((hthird _ _).mp ⟨found, hmem, rfl, rfl⟩).2
      · obtain ⟨candidate, hcandidate, rfl, -⟩ := (hthird other reg').mpr ⟨hdistinct, hserves⟩
        exact hleast candidate hcandidate

end

/-! The mesh as one request sees it and changes it. -/

namespace Mesh

variable (caller peer : PubKey)

def next (mesh : Mesh) : (o : Op) → o.Res → Mesh
  | .presence (.record guild role p _ _), _ =>
      { mesh with joined := insert (guild, role, p.pubkey) mesh.joined }
  | .presence (.evict guild role pubkey), _ =>
      { mesh with joined := mesh.joined \ {(guild, role, pubkey)} }
  | _, _ => mesh

def allows : Op → Prop
  | .presence (.evictUser ..) => False
  | .presence (.reapMap ..) => False
  | .nat (.recordRelay pubkey ..) => pubkey = caller
  | .nat (.pruneRelays _) => False
  | _ => True

def expects (mesh : Mesh) : (o : Op) → o.Res → Prop
  | .presence (.othersIn guild role exclude), others => ∀ pubkey,
      (∃ p ∈ others, p.pubkey = pubkey) ↔
        pubkey ≠ exclude ∧ (guild, role, pubkey) ∈ mesh.joined
  | .presence (.networksOf pubkey), networks => ∀ guild role,
      (guild, role) ∈ networks ↔ (guild, role, pubkey) ∈ mesh.joined
  | .nat .relays, relays => ∀ pubkey, pubkey ≠ caller → pubkey ≠ peer →
      relays.get? pubkey = mesh.relays pubkey
  | _, _ => True

def mon : Monitor sig Mesh where
  allows := fun _ => allows caller
  expects := expects caller peer
  next := next

def Still : Op → Prop
  | .presence (.record ..) => False
  | .presence (.evict ..) => False
  | .presence (.evictUser ..) => False
  | .presence (.reapMap ..) => False
  | .nat (.recordRelay pubkey ..) => pubkey = caller
  | .nat (.pruneRelays _) => False
  | _ => True

end Mesh

open Mesh in
section

variable {conf : Conf} {req : RegisterReq} {caller peer : PubKey} {user : UserId} {mesh : Mesh}
  {ε α : Type}

theorem still_next {o : Op} (hstill : Still caller o) (answer : o.Res) :
    mesh.next o answer = mesh := by
  unfold Mesh.next
  split
  · exact hstill.elim
  · exact hstill.elim
  · rfl

theorem next_relays {o : Op} {answer : o.Res} : (mesh.next o answer).relays = mesh.relays := by
  unfold Mesh.next
  split <;> rfl

theorem still_allowed {o : Op} (hstill : Still caller o) : Mesh.allows caller o := by
  unfold Mesh.allows
  split
  · exact hstill
  · exact hstill
  · exact hstill
  · exact hstill
  · trivial

theorem still_conforms {inside : Op → Prop} {program : Prog sig ε α}
    (hprogram : program.Uses inside) (hinside : ∀ o, inside o → Still caller o) :
    program.Conforms (mon caller peer) (returns fun mesh' _ => mesh' = mesh) mesh := by
  have hkept : program.Conforms (mon caller peer) (fun mesh' _ => mesh' = mesh) mesh := by
    refine hprogram.keeps (fun mesh' => mesh' = mesh) (fun mesh' o ho hsame => ?_) rfl
    refine ⟨still_allowed (hinside o ho), fun answer _ => ?_⟩
    exact (still_next (hinside o ho) answer).trans hsame
  refine hkept.mono fun mesh' result hsame => ?_
  cases result with
  | ok value => exact hsame
  | error error => trivial

theorem moving_conforms {inside : Op → Prop} {program : Prog sig ε α}
    (hprogram : program.Uses inside) (hinside : ∀ o, inside o → Mesh.allows caller o) :
    program.Conforms (mon caller peer) (returns fun _ _ => True) mesh := by
  have hallowed : program.Conforms (mon caller peer) (fun _ _ => True) mesh :=
    hprogram.keeps (fun _ => True) (fun _ o ho _ => ⟨hinside o ho, fun _ _ => trivial⟩) trivial
  refine hallowed.mono fun mesh' result _ => ?_
  cases result <;> trivial

theorem settle_allowed : ∀ o, SettleOp req o → Mesh.allows req.wgPubkey o := by
  intro o h
  unfold Mesh.allows
  split
  · exact h
  · exact h
  · exact h.elim
  · exact h.elim
  · trivial

theorem label_still : ∀ o, LabelOp o → Still caller o := by
  intro o h
  unfold LabelOp at h
  split at h <;> trivial

theorem name_still : ∀ o, NameOp o → Still caller o :=
  fun o h => label_still o (name_label o h)

theorem member_still {guild : GuildId} : ∀ o, MemberOp guild user o → Still caller o := by
  intro o h
  unfold MemberOp at h
  split at h <;> trivial

theorem touch_still {personal : Bool} : ∀ o, TouchOp req personal o → Still caller o := by
  intro o h
  unfold TouchOp at h
  split at h <;> trivial

theorem admission_still : ∀ o, AdmissionOp req o → Still caller o := by
  intro o h
  unfold AdmissionOp at h
  split at h <;> trivial

theorem answer_still : ∀ o, AnswerOp req o → Still req.wgPubkey o := by
  intro o h
  unfold Still
  split
  · exact h
  · exact h
  · exact h
  · exact h
  · exact h.1
  · exact h
  · trivial

theorem plain_still : ∀ o, PlainOp req o → Still req.wgPubkey o :=
  fun o h => answer_still o (plain_answer req o h)

/-! The caller joins the networks it holds, and leaves the others. -/

structure Walked (caller : PubKey) (mesh : Mesh) (walk : Walk) : Prop where
  named : walk.m.held.length = walk.m.networkNames.length
  joined : ∀ network ∈ walk.m.held, (network.1, network.2, caller) ∈ mesh.joined

theorem recordPresence_joins {device : Device} (now : Nat) (net : Network) (walk : Walk)
    (hawake : req.paused = false) :
    (recordPresence req user device now net walk).Conforms (mon req.wgPubkey peer)
      (returns fun mesh' walk' => walk'.m = walk.m ∧
        mesh' = { mesh with joined := insert (net.guildId, net.roleId, req.wgPubkey) mesh.joined })
      mesh := by
  unfold recordPresence
  rw [if_neg (by simp [hawake]), conforms_act_bind]
  refine ⟨trivial, fun recorded _ => ?_⟩
  cases recorded <;> exact ⟨rfl, rfl⟩

theorem walkHeld_walked {device : Device} (now : Nat) (net : Network) (roles : MemberRoles)
    {walk : Walk} (hawake : req.paused = false) (hwalked : Walked req.wgPubkey mesh walk) :
    (walkHeld req user device now net roles walk).Conforms (mon req.wgPubkey peer)
      (returns (Walked req.wgPubkey)) mesh := by
  unfold walkHeld
  refine (still_conforms (walkCommunity_uses _ _) name_still).andThen ?_
  rintro _ labelled rfl
  refine (still_conforms (roleName_uses _ _) name_still).andThen ?_
  rintro _ name rfl
  refine (still_conforms (walkUsername_uses _ _ _) label_still).andThen ?_
  rintro mesh₁ username rfl
  dsimp only
  split
  · refine (recordPresence_joins now net _ hawake).andThen ?_
    rintro _ walk' ⟨hsame, rfl⟩
    constructor
    · simp [Walk.hold, hsame, Walk.enable, Walk.list, hwalked.named]
    · intro network hnetwork
      have hcases : network ∈ walk.m.held ∨ network = (net.guildId, net.roleId) := by
        simpa [Walk.hold, hsame, Walk.enable, Walk.list] using hnetwork
      rcases hcases with hold | rfl
      · exact Set.mem_insert_of_mem _ (hwalked.joined network hold)
      · exact Set.mem_insert _ _
  · exact ⟨hwalked.named, hwalked.joined⟩

theorem walkNetwork_walked {device : Device} (now : Nat) {walk : Walk} (net : Network)
    (hawake : req.paused = false) (hwalked : Walked req.wgPubkey mesh walk) :
    (walkNetwork req user device now walk net).Conforms (mon req.wgPubkey peer)
      (returns (Walked req.wgPubkey)) mesh := by
  unfold walkNetwork
  refine (still_conforms (lookupMember_uses _ _ _) member_still).andThen ?_
  rintro mesh₁ ⟨member, cache⟩ rfl
  have hskipped : Walked req.wgPubkey mesh₁ { walk with cache := cache } :=
    ⟨hwalked.named, hwalked.joined⟩
  cases member with
  | none => exact hskipped
  | some roles =>
      dsimp only
      split
      · exact walkHeld_walked now net roles hawake hskipped
      · exact hskipped

theorem evictFrom_leaves (pubkey : PubKey) (networks : List (GuildId × RoleId))
    (changed : List Scope) :
    (evictFrom pubkey networks changed).Conforms (mon caller peer)
      (returns fun mesh' _ => ∀ guild role, (guild, role, pubkey) ∈ mesh'.joined ↔
        (guild, role, pubkey) ∈ mesh.joined ∧ (guild, role) ∉ networks) mesh := by
  induction networks generalizing mesh changed with
  | nil => simp [evictFrom, returns]
  | cons network rest ih =>
      obtain ⟨guild, role⟩ := network
      simp only [evictFrom, conforms_act_bind]
      refine ⟨trivial, fun removed _ => (ih _).returns_mono fun mesh' _ hleft g r => ?_⟩
      rw [hleft g r]
      simp [mon, Mesh.next]
      tauto

theorem resolveMembership_settles (networks : List Network) (device : Device)
    (cache : MemberCache) (now : Nat) (changed : List Scope) (hawake : req.paused = false) :
    (resolveMembership req user networks device cache now changed).Conforms
      (mon req.wgPubkey peer)
      (returns fun mesh' settled => mesh'.Settles req.wgPubkey settled.1) mesh := by
  unfold resolveMembership
  refine Conforms.through (Walked req.wgPubkey) ?_ ?_
  · refine Conforms.foldlM networks _ _ (fun mesh' walk net _ hwalked => ?_) ?_
    · exact walkNetwork_walked now net hawake hwalked
    · exact ⟨rfl, nofun⟩
  intro mesh₁ walk hwalked
  rw [conforms_act_bind]
  refine ⟨trivial, fun recorded hrecorded => ?_⟩
  refine (evictFrom_leaves _ _ _).andThen fun mesh₂ changed hleft => ?_
  have hsettles : ∀ m : Membership, m.held = walk.m.held → m.networkNames = walk.m.networkNames →
      mesh₂.Settles req.wgPubkey m := by
    intro m hheld hnames
    refine ⟨by rw [hheld, hnames, hwalked.named], fun guild role => ?_⟩
    have hknown : (guild, role) ∈ recorded ↔ (guild, role, req.wgPubkey) ∈ mesh₁.joined :=
      hrecorded guild role
    rw [hleft guild role, hheld]
    simp only [mon, Mesh.next, List.mem_filter, hawake, Bool.false_or, Bool.not_eq_true',
      List.contains_eq_mem, decide_eq_false_iff_not, not_and, not_not]
    constructor
    · rintro ⟨hjoined, hstays⟩
      exact hstays (hknown.mpr hjoined)
    · intro hmem
      exact ⟨hwalked.joined _ hmem, fun _ => hmem⟩
  dsimp only
  split
  · have hhandle : (sql (.userHandle user)).Uses LabelOp := by
      simp [LabelOp]
    refine (still_conforms (hhandle.mapError _) label_still).andThen ?_
    rintro _ handle rfl
    cases handle with
    | none => exact hsettles _ rfl rfl
    | some handle =>
        refine (still_conforms (userLabel_uses _ _) label_still).andThen ?_
        rintro _ label rfl
        exact hsettles _ rfl rfl
  · exact hsettles _ rfl rfl

theorem settle_settles (callerIp : IpAddr) (hawake : req.paused = false) :
    (settle conf req callerIp user).Conforms (mon req.wgPubkey peer)
      (returns fun mesh' settled => mesh'.Settles req.wgPubkey settled.m) mesh := by
  unfold settle
  simp only [conforms_act_bind]
  refine ⟨trivial, fun _ _ => ⟨trivial, fun now _ => ?_⟩⟩
  have hnetworks : (sql .allNetworks).Uses (SettleOp req) := by
    simp [SettleOp, RegisterQuery]
  refine (moving_conforms (hnetworks.mapError _) settle_allowed).andThen
    fun mesh₁ allNetworks _ => ?_
  rw [conforms_act_bind]
  refine ⟨trivial, fun memo _ => ?_⟩
  refine (moving_conforms (resolveDevice_uses conf _ _ _)
    fun o h => settle_allowed o (owned_settle req user o h)).andThen fun mesh₂ resolved _ => ?_
  refine (moving_conforms (retireSuperseded_uses _ _) fun o h => settle_allowed o
    (owned_settle req user o (roster_owned req user o h))).andThen fun mesh₃ changed _ => ?_
  refine (resolveMembership_settles _ _ _ _ _ hawake).andThen fun mesh₄ membership hsettles => ?_
  have hremember : (rememberRoleless user (!memo) membership.1).Uses
      (Still req.wgPubkey) := by
    unfold rememberRoleless
    split
    · simp [Still]
    · trivial
  refine (still_conforms hremember fun _ h => h).andThen ?_
  rintro _ _ rfl
  have htouch : (touchIdentity req membership.1).Uses (TouchOp req membership.1.personal) := by
    unfold touchIdentity
    split
    · exact (touchDevice_uses _).mapError _
    · trivial
  refine (still_conforms htouch touch_still).andThen ?_
  rintro _ _ rfl
  have hown : (recordOwnDevice req user resolved.1 membership.1 now membership.2).Uses
      (Still req.wgPubkey) := by
    unfold recordOwnDevice announceSelf
    split <;> simp [Still]
  refine (still_conforms hown fun _ h => h).andThen ?_
  rintro _ _ rfl
  exact hsettles

/-! What the caller sees of the others. -/

theorem gatherShared_sees (m : Membership) (held : List ((GuildId × RoleId) × String))
    {peers : Peers} (hshared : AllShared peers) :
    (gatherShared req m held peers).Conforms (mon req.wgPubkey peer)
      (returns fun mesh' peers' => mesh' = mesh ∧ AllShared peers' ∧ ∀ pubkey net,
        net ∈ sharedWith peers' pubkey ↔ net ∈ sharedWith peers pubkey ∨
          (∃ entry ∈ held,
            net = ⟨entry.2, m.communityOf entry.1.1, entry.1.1, entry.1.2⟩) ∧
            pubkey ≠ req.wgPubkey ∧ (net.guildId, net.roleId, pubkey) ∈ mesh.joined) mesh := by
  induction held generalizing peers with
  | nil => exact ⟨rfl, hshared, fun pubkey net => by simp⟩
  | cons entry rest ih =>
      obtain ⟨⟨guild, role⟩, name⟩ := entry
      refine (conforms_act_bind ..).mpr ⟨trivial, fun others hothers => ?_⟩
      refine (ih (foldl_shared _ others hshared)).returns_mono fun mesh' peers' hrest => ?_
      obtain ⟨hsame, hshared', hsees⟩ := hrest
      refine ⟨hsame, hshared', fun pubkey net => ?_⟩
      have hpresent : (∃ p ∈ others, p.pubkey = pubkey) ↔
          pubkey ≠ req.wgPubkey ∧ (guild, role, pubkey) ∈ mesh.joined := hothers pubkey
      rw [hsees pubkey net, mem_sharedWith_foldl, hpresent, or_assoc]
      refine or_congr_right ?_
      constructor
      · rintro (⟨rfl, hother, hjoined⟩ | ⟨⟨entry, hentry, rfl⟩, hjoined⟩)
        · exact ⟨⟨_, List.mem_cons_self .., rfl⟩, hother, hjoined⟩
        · exact ⟨⟨entry, List.mem_cons_of_mem _ hentry, rfl⟩, hjoined⟩
      · rintro ⟨⟨entry, hentry, rfl⟩, hother, hjoined⟩
        rcases List.mem_cons.mp hentry with rfl | hrest
        · exact .inl ⟨rfl, hother, hjoined⟩
        · exact .inr ⟨⟨entry, hrest, rfl⟩, hother, hjoined⟩

theorem gatherPeers_sees (m : Membership) (grantGuilds : List GuildId) :
    (gatherPeers req user m grantGuilds).Conforms (mon req.wgPubkey peer)
      (returns fun mesh' peers => mesh' = mesh ∧ PeersSound peers ∧
        mesh.Sees req.wgPubkey m peers) mesh := by
  have hnobody : AllShared ∅ := by
    constructor
    · constructor <;> exact nofun
    · exact nofun
  have hknown : ∀ net, net ∈ m.sharedNetworks ↔ ∃ entry ∈ m.held.zip m.networkNames,
      net = ⟨entry.2, m.communityOf entry.1.1, entry.1.1, entry.1.2⟩ := by
    intro net
    rw [Membership.sharedNetworks, List.mem_map]
    exact exists_congr fun entry => and_congr_right fun _ => eq_comm
  unfold gatherPeers
  refine (gatherShared_sees m _ hnobody).andThen fun mesh' peers hgathered => ?_
  obtain ⟨hsame, hshared, hpeers⟩ := hgathered
  have hsees : mesh.Sees req.wgPubkey m peers := by
    intro pubkey net
    rw [hpeers pubkey net, hknown net]
    simp [sharedWith]
  split
  · refine (conforms_act_bind ..).mpr ⟨trivial, fun siblings _ => ⟨hsame, ?_, ?_⟩⟩
    · exact foldl_siblings grantGuilds siblings hshared.sound
    · intro pubkey net
      rw [sharedWith_siblings]
      exact hsees pubkey net
  · exact ⟨hsame, hshared.sound, hsees⟩

theorem recordPeerReports_still (comembers : List PubKey) :
    (recordPeerReports req comembers).Conforms (mon req.wgPubkey peer)
      (returns fun mesh' _ => mesh' = mesh) mesh :=
  still_conforms (recordPeerReports_uses comembers) plain_still

/-- The relay that the seeds assign for a peer. -/
def relayFor (seeds : List (PubKey × Seed)) (pubkey : PubKey) : Option RelayInfo :=
  ((seeds.find? fun entry => decide (entry.1 = pubkey)).map Prod.snd).bind Seed.relay

theorem attestPeers_relays (m : Membership) (now attSchema : Nat) (exchange : Exchange)
    (rows : List (PubKey × Peer)) :
    (attestPeers conf req m now attSchema exchange rows).Conforms (mon req.wgPubkey peer)
      (returns fun mesh' seeds => mesh' = mesh ∧ ∀ pubkey, relayFor seeds pubkey =
        ((rows.find? fun row => decide (row.1 = pubkey)).map Prod.snd).bind fun found =>
          (seedOf conf req now exchange found []).relay) mesh := by
  induction rows with
  | nil => exact ⟨rfl, fun pubkey => rfl⟩
  | cons row rest ih =>
      unfold attestPeers
      refine (still_conforms (peerAttestations_uses conf _ _ _ _ _) answer_still).andThen ?_
      rintro _ attestations rfl
      refine ih.andThen ?_
      rintro _ seeds ⟨rfl, hseeds⟩
      refine ⟨rfl, fun pubkey => ?_⟩
      by_cases hkey : row.1 = pubkey
      · simp [relayFor, hkey, seedOf]
      · have hrest := hseeds pubkey
        simp only [relayFor] at hrest ⊢
        simpa [hkey] using hrest

/-- For a peer that the caller wants a relay for, the third party with the lowest key. -/
def Assigns (conf : Conf) (seeds : List (PubKey × Seed)) (pubkey : PubKey)
    (chosen : Option (PubKey × RelayReg)) : Prop :=
  ∃ now peerRelayed, relayFor seeds pubkey = chosen.map fun relay =>
    { issueRelayCreds conf relay.2 now with peerRelayed := peerRelayed }

theorem buildSeeds_elects {m : Membership} (grantGuilds : List GuildId) (now attSchema : Nat)
    (hsettles : mesh.Settles req.wgPubkey m) (hdistinct : peer ≠ req.wgPubkey)
    (hwants : peer ∈ req.needRelay) :
    (buildSeeds conf req user m grantGuilds now attSchema).Conforms (mon req.wgPubkey peer)
      (returns fun mesh' built => ∃ chosen, mesh'.Elects req.wgPubkey peer chosen ∧
        Assigns conf built.1 peer chosen) mesh := by
  unfold buildSeeds
  refine (gatherPeers_sees m grantGuilds).andThen fun mesh₁ peers hgathered => ?_
  obtain ⟨rfl, hsound, hsees⟩ := hgathered
  refine (recordPeerReports_still _).andThen ?_
  rintro mesh₂ wakeTargets rfl
  simp only [conforms_act_bind]
  refine ⟨trivial, fun relays hrelays => ⟨trivial, fun relayAllocs _ => ⟨trivial, fun ice _ =>
    ⟨trivial, fun reflexive _ => ?_⟩⟩⟩⟩
  refine (attestPeers_relays m now attSchema _ peers.rows).andThen ?_
  rintro mesh₃ seeds ⟨rfl, hseeds⟩
  obtain ⟨chosen, helects, htarget⟩ :=
    relayTarget_elects conf hsettles hsees hdistinct hrelays now
  refine ⟨chosen, helects, now, relayAllocs.get? (peer, req.wgPubkey), ?_⟩
  rw [hseeds peer]
  change (peers.get? peer).bind _ = _
  cases hfound : peers.get? peer with
  | none =>
      have hnone : sharedWith peers peer = [] := by
        rw [sharedWith, hfound]
        rfl
      rw [hnone, relayTarget_nil] at htarget
      rw [Option.map_eq_none_iff.mp htarget.symm]
      rfl
  | some found =>
      have hkey := hsound.keyed peer found hfound
      have hshared : sharedWith peers peer = found.networks := by
        rw [sharedWith, hfound]
        rfl
      rw [hshared] at htarget
      simp [seedOf, hkey, hwants, htarget, Option.map_map, Function.comp_def]

end

/-! A snapshot up to its seeds. -/

structure Assigned where
  user : UserId
  alreadyEnrolled : Bool
  settled : Settled
  grant : Option Grant
  seeds : List (PubKey × Seed)
  wakeTargets : List PubKey

section

variable (conf : Conf) (req : RegisterReq)

/-- The first four phases of a snapshot. -/
def assign (callerIp : IpAddr) : Handler Assigned := do
  validatePeerReports req
  let (user, alreadyEnrolled) ← resolveUser conf req
  let settled ← settle conf req callerIp user
  let grant ← buildGrant conf req user settled.device settled.m ATTESTATION_SCHEMA_V2
  let (seeds, wakeTargets) ← buildSeeds conf req user settled.m settled.m.guilds settled.now
    ATTESTATION_SCHEMA_V2
  return ⟨user, alreadyEnrolled, settled, grant, seeds, wakeTargets⟩

def deliver (assigned : Assigned) : Handler Built := do
  let (seeds, removed, isPartial) := applyDelta req assigned.seeds
  let deviceToken ← deliverToken req assigned.alreadyEnrolled
  bumpAll assigned.settled.changed
  wakeAll assigned.wakeTargets
  let scopes := scopesOf assigned.user assigned.settled.m.guilds
  let version ← aggregate conf scopes
  let anchors ← buildAnchors conf assigned.settled.m.guilds
  let release ← signRelease conf assigned.settled.m.guilds
  return {
    callerChanged := !assigned.settled.changed.isEmpty || !assigned.wakeTargets.isEmpty
    scopes := scopes
    resp := {
      anchors := anchors
      grant := assigned.grant
      deviceToken := deviceToken
      seeds := seeds
      version := version
      networks := assigned.settled.m.status
      dnsDomain := conf.dnsDomain
      stunPort := conf.stunPort
      proto := negotiatedProto req
      protoMin := MIN_PROTOCOL_VERSION
      protoMax := PROTOCOL_VERSION
      release := release
      releaseSigned := conf.releaseSigned
      isPartial := isPartial
      removed := removed } }

theorem buildSnapshot_assign (callerIp : IpAddr) :
    buildSnapshot conf req callerIp = assign conf req callerIp >>= deliver conf req := by
  unfold buildSnapshot answer assign deliver
  simp only [bind_assoc, pure_eq, ret_bind]

end

variable {conf : Conf} {req : RegisterReq} {peer : PubKey} {mesh : Mesh}

theorem assign_elects (callerIp : IpAddr) (hawake : req.paused = false)
    (hdistinct : peer ≠ req.wgPubkey) (hwants : peer ∈ req.needRelay) :
    (assign conf req callerIp).Conforms (Mesh.mon req.wgPubkey peer)
      (returns fun mesh' assigned => ∃ chosen, mesh'.Elects req.wgPubkey peer chosen ∧
        Assigns conf assigned.seeds peer chosen) mesh := by
  unfold assign validatePeerReports
  split
  · trivial
  · refine (still_conforms (resolveUser_uses conf) admission_still).andThen ?_
    rintro _ caller rfl
    refine (settle_settles callerIp hawake).andThen fun mesh₂ settled hsettles => ?_
    refine (still_conforms (buildGrant_uses conf _ _ _ _) plain_still).andThen ?_
    rintro _ grant rfl
    refine (buildSeeds_elects _ _ _ hsettles hdistinct hwants).andThen
      fun mesh₃ built helects => ?_
    exact helects

/-! The mesh of a state. -/

def Presence.OwnKeys (presence : Presence) : Prop :=
  ∀ guild role pubkey p, presence.rowAt (.network guild role) pubkey = some p → p.pubkey = pubkey

/-- The third parties of a pair keep what they registered; what the two registered themselves
does not matter. -/
def Mesh.of (first second : PubKey) (st : AppState) : Mesh where
  joined := fun (guild, role, pubkey) =>
    (st.presence.rowAt (.network guild role) pubkey).isSome = true
  relays := fun pubkey =>
    if pubkey = first ∨ pubkey = second then none else st.nat.relays.get? pubkey

/-- Nobody came or left in any network, and no third party changed its relay. -/
structure SameMesh (first second : PubKey) (st st' : AppState) : Prop where
  rows : ∀ guild role pubkey, st'.presence.rowAt (.network guild role) pubkey =
    st.presence.rowAt (.network guild role) pubkey
  relays : ∀ pubkey, pubkey ≠ first → pubkey ≠ second →
    st'.nat.relays.get? pubkey = st.nat.relays.get? pubkey

section

variable {conf : Conf} {first second : PubKey} {presence : Presence} {st st' : AppState}
  {task : Nat} {choice : Choice}

theorem Mesh.mem_of {guild : GuildId} {role : RoleId} {pubkey : PubKey} :
    (guild, role, pubkey) ∈ (Mesh.of first second st).joined ↔
      (st.presence.rowAt (.network guild role) pubkey).isSome = true :=
  Iff.rfl

theorem Mesh.of_symm : Mesh.of first second st = Mesh.of second first st := by
  unfold Mesh.of
  simp only [or_comm]

theorem SameMesh.of_eq (hsame : SameMesh first second st st') :
    Mesh.of first second st' = Mesh.of first second st := by
  apply Mesh.ext
  · ext ⟨guild, role, pubkey⟩
    rw [Mesh.mem_of, Mesh.mem_of, hsame.rows]
  · funext pubkey
    unfold Mesh.of
    dsimp only
    split
    · rfl
    · rename_i hother
      rw [not_or] at hother
      exact hsame.relays pubkey hother.1 hother.2

theorem SameMesh.ownKeys (hsame : SameMesh first second st st') (hkeys : st.presence.OwnKeys) :
    st'.presence.OwnKeys := by
  intro guild role pubkey p hrow
  rw [hsame.rows] at hrow
  exact hkeys guild role pubkey p hrow

theorem rowAt_record {guild g : GuildId} {role r : RoleId} {pubkey : PubKey} {p : MemberPresence}
    {clientVersion : String} {now : Nat} :
    (presence.record guild role p clientVersion now).2.rowAt (.network g r) pubkey =
      if (g, r, pubkey) = (guild, role, p.pubkey) then some p
      else presence.rowAt (.network g r) pubkey := by
  simp only [Presence.record, Presence.rowAt, recordIn, Table.get?_insert]
  split <;> rfl

theorem rowAt_evict {guild g : GuildId} {role r : RoleId} {pubkey other : PubKey} :
    (presence.evict guild role other).2.rowAt (.network g r) pubkey =
      if (g, r, pubkey) = (guild, role, other) then none
      else presence.rowAt (.network g r) pubkey := by
  simp only [Presence.evict, Presence.rowAt, Table.get?_erase]
  split <;> rfl

theorem rowAt_retained {map : Table (GuildId × RoleId × PubKey) PresenceEntry}
    {keep : GuildId × RoleId × PubKey → PresenceEntry → Bool} {guild : GuildId} {role : RoleId}
    {pubkey : PubKey} {p : MemberPresence}
    (hrow : ((map.retain keep).get? (guild, role, pubkey)).map (·.p) = some p) :
    (map.get? (guild, role, pubkey)).map (·.p) = some p := by
  rw [Table.get?_retain] at hrow
  cases hget : map.get? (guild, role, pubkey) with
  | none => simp [hget] at hrow
  | some entry =>
      rw [hget, Option.map_eq_some_iff] at hrow
      obtain ⟨found, hfound, rfl⟩ := hrow
      rw [(Option.filter_eq_some_iff.mp hfound).1]
      rfl

theorem Presence.OwnKeys.step (hkeys : presence.OwnKeys) (o : Presence.Op) :
    (presence.step o).2.OwnKeys := by
  intro guild role pubkey p hrow
  cases o with
  | record g r q clientVersion now =>
      rw [Presence.step, rowAt_record] at hrow
      split at hrow
      · rename_i hkey
        cases hrow
        exact (Prod.mk.inj (Prod.mk.inj hkey).2).2.symm
      · exact hkeys guild role pubkey p hrow
  | evict g r key =>
      rw [Presence.step, rowAt_evict] at hrow
      split at hrow
      · cases hrow
      · exact hkeys guild role pubkey p hrow
  | evictUser g r user => exact hkeys guild role pubkey p (rowAt_retained hrow)
  | reapMap now maxAge => exact hkeys guild role pubkey p (rowAt_retained hrow)
  | _ => exact hkeys guild role pubkey p hrow

theorem Presence.OwnKeys.exec {o : Coordinator.Op} {answer : o.Res} (hkeys : st.presence.OwnKeys)
    (hexec : AppState.exec conf task o choice st = some (answer, st')) :
    st'.presence.OwnKeys := by
  by_cases hpresence : ∃ p, o = .presence p
  · obtain ⟨p, rfl⟩ := hpresence
    have hafter : (st.presence.step p).2 = st'.presence :=
      congrArg Prod.snd (AppState.exec_presence hexec)
    rw [← hafter]
    exact hkeys.step p
  · rw [(AppState.exec_frame hexec).presence fun p ho => hpresence ⟨p, ho⟩]
    exact hkeys

theorem mem_networksOf {guild : GuildId} {role : RoleId} {pubkey : PubKey} :
    (guild, role) ∈ presence.networksOf pubkey ↔
      (presence.rowAt (.network guild role) pubkey).isSome = true := by
  simp only [Presence.networksOf, List.mem_map, List.mem_filter, Table.mem_keys, beq_iff_eq,
    Prod.exists, Prod.mk.injEq, Presence.rowAt, Option.isSome_map, Option.isSome_iff_exists]
  constructor
  · rintro ⟨_, _, _, ⟨hentry, rfl⟩, rfl, rfl⟩
    exact hentry
  · intro hentry
    exact ⟨guild, role, pubkey, ⟨hentry, rfl⟩, rfl, rfl⟩

theorem presence_mesh (second : PubKey) {o : Presence.Op} {answer : o.Res}
    (hexec : AppState.exec conf task (.presence o) choice st = some (answer, st'))
    (hkeys : st.presence.OwnKeys) (hallows : Mesh.allows first (.presence o)) :
    (Mesh.of first second st).expects first second (.presence o) answer ∧
      (Mesh.of first second st').joined =
        ((Mesh.of first second st).next (.presence o) answer).joined := by
  have hstep := AppState.exec_presence hexec
  have hafter : (st.presence.step o).2 = st'.presence := congrArg Prod.snd hstep
  have hanswer : (st.presence.step o).1 = answer := congrArg Prod.fst hstep
  have hkept : (∀ g r key, (st.presence.step o).2.rowAt (.network g r) key =
      st.presence.rowAt (.network g r) key) →
        (Mesh.of first second st').joined = (Mesh.of first second st).joined := by
    intro hrows
    ext ⟨g, r, key⟩
    rw [Mesh.mem_of, Mesh.mem_of, ← hafter, hrows]
  cases o with
  | record guild role p clientVersion now =>
      refine ⟨trivial, ?_⟩
      ext ⟨g, r, key⟩
      rw [Mesh.next, Set.mem_insert_iff, Mesh.mem_of, Mesh.mem_of, ← hafter, Presence.step,
        rowAt_record]
      split
      · rename_i hkey
        simp [hkey]
      · rename_i hkey
        simp [hkey]
  | evict guild role pubkey =>
      refine ⟨trivial, ?_⟩
      ext ⟨g, r, key⟩
      rw [Mesh.next, Set.mem_sdiff, Set.mem_singleton_iff, Mesh.mem_of, Mesh.mem_of, ← hafter,
        Presence.step, rowAt_evict]
      split
      · rename_i hkey
        simp [hkey]
      · rename_i hkey
        simp [hkey]
  | evictUser guild role user => exact hallows.elim
  | reapMap now maxAge => exact hallows.elim
  | othersIn guild role exclude =>
      refine ⟨fun pubkey => ?_, hkept fun _ _ _ => rfl⟩
      have hothers : answer = st.presence.othersAt (.network guild role) exclude := hanswer.symm
      rw [Mesh.mem_of, Option.isSome_iff_exists, hothers]
      constructor
      · rintro ⟨p, hp, rfl⟩
        obtain ⟨pubkey, hother, hrow⟩ := Presence.mem_othersAt.mp hp
        rw [hkeys _ _ _ _ hrow]
        exact ⟨hother, p, hrow⟩
      · rintro ⟨hother, p, hrow⟩
        exact ⟨p, Presence.mem_othersAt.mpr ⟨pubkey, hother, hrow⟩, hkeys _ _ _ _ hrow⟩
  | networksOf pubkey =>
      refine ⟨fun guild role => ?_, hkept fun _ _ _ => rfl⟩
      rw [Mesh.mem_of, ← hanswer]
      exact mem_networksOf
  | recordSelf => exact ⟨trivial, hkept fun _ _ _ => rfl⟩
  | evictSelf => exact ⟨trivial, hkept fun _ _ _ => rfl⟩
  | reapSelf => exact ⟨trivial, hkept fun _ _ _ => rfl⟩
  | _ => exact ⟨trivial, hkept fun _ _ _ => rfl⟩

theorem nat_mesh (second : PubKey) {o : NatTables.Op} {answer : o.Res}
    (hexec : AppState.exec conf task (.nat o) choice st = some (answer, st'))
    (hallows : Mesh.allows first (.nat o)) :
    (Mesh.of first second st).expects first second (.nat o) answer ∧
      ∀ pubkey, pubkey ≠ first → st'.nat.relays.get? pubkey = st.nat.relays.get? pubkey := by
  have hstep := AppState.exec_nat hexec
  have hafter : (st.nat.step o).2 = st'.nat := congrArg Prod.snd hstep
  have hanswer : (st.nat.step o).1 = answer := congrArg Prod.fst hstep
  rw [← hafter]
  cases o with
  | recordRelay pubkey capable addr secret =>
      have hown : pubkey = first := hallows
      refine ⟨trivial, fun other hother => ?_⟩
      rw [← hown] at hother
      simp only [NatTables.step, NatTables.recordRelay]
      split <;> simp [hother]
  | pruneRelays present => exact hallows.elim
  | relays =>
      refine ⟨fun pubkey hfirst hsecond => ?_, fun _ _ => rfl⟩
      rw [← hanswer]
      simp [NatTables.step, Mesh.of, hfirst, hsecond]
  | _ => exact ⟨trivial, fun _ _ => rfl⟩

theorem exec_mesh {o : Op} {answer : o.Res}
    (hexec : AppState.exec conf task o choice st = some (answer, st'))
    (hkeys : st.presence.OwnKeys) (hallows : Mesh.allows first o) :
    (Mesh.of first second st).expects first second o answer ∧ st'.presence.OwnKeys ∧
      Mesh.of first second st' = (Mesh.of first second st).next o answer := by
  have hframe := AppState.exec_frame hexec
  have hkeys' := hkeys.exec hexec
  have hsame : (∀ p, o ≠ .presence p) → (∀ n, o ≠ .nat n) →
      Mesh.of first second st' = Mesh.of first second st := by
    intro hpresence hnat
    refine SameMesh.of_eq ⟨fun g r key => ?_, fun key _ _ => ?_⟩
    · rw [hframe.presence hpresence]
    · rw [hframe.nat hnat]
  cases o
  case presence p =>
    obtain ⟨hexpects, hjoined⟩ := presence_mesh second hexec hkeys hallows
    refine ⟨hexpects, hkeys', Mesh.ext hjoined ?_⟩
    rw [next_relays]
    unfold Mesh.of
    rw [hframe.nat (by simp)]
  case nat n =>
    obtain ⟨hexpects, hrelays⟩ := nat_mesh second hexec hallows
    refine ⟨hexpects, hkeys', SameMesh.of_eq ⟨fun g r key => ?_, fun key hfirst _ => ?_⟩⟩
    · rw [hframe.presence (by simp)]
    · exact hrelays key hfirst
  all_goals exact ⟨trivial, hkeys', hsame (by simp) (by simp)⟩

end

/-! The claim of both sides. -/

section

variable (conf : Conf)

/-- The coordinator can come to this state, from one in which nobody is present. -/
def Reachable (st : AppState) : Prop :=
  ∃ (start : AppState) (c : (machine conf).Config), start.presence = {} ∧
    Machine.Reach (⟨fun _ _ _ _ => ()⟩ : Machine.Observer (machine conf) Unit) Machine.free
      ((machine conf).idle start) () c () ∧ c.shared = st

/-- What others do before an operation, as long as the mesh of the pair stays the same. -/
abbrev Others (first second : PubKey) :=
  { others : AppState → AppState // ∀ st, SameMesh first second st (others st) }

/-- The operations of one request, with those of others in between. -/
def execAmid (task : Nat) (first second : PubKey) (o : Op) (choice : Choice × Others first second)
    (st : AppState) : Option (o.Res × AppState) :=
  AppState.exec conf task o choice.1 (choice.2.1 st)

/-- In the network are the relay and the device. -/
def ShareNetwork (st : AppState) (relay device : PubKey) : Prop :=
  ∃ guild role, (st.presence.rowAt (.network guild role) relay).isSome = true ∧
    (st.presence.rowAt (.network guild role) device).isSome = true

variable {conf} {first second : PubKey} {st st' : AppState} {task : Nat}

theorem ownKeys_of_reach {start : AppState} {c : (machine conf).Config} {g : Unit}
    {view : Machine.Observer (machine conf) Unit} (hstart : start.presence = {})
    (hreach : Machine.Reach view Machine.free ((machine conf).idle start) () c g) :
    c.shared.presence.OwnKeys := by
  induction hreach with
  | start =>
      intro guild role pubkey p hrow
      have hnone : start.presence.rowAt (.network guild role) pubkey = some p := hrow
      rw [hstart] at hnone
      cases hnone
  | step _ taken _ ih =>
      cases taken with
      | call call => exact ih
      | perform running executed => exact ih.exec executed
      | finish running => exact ih
      | abort running => exact ih
      | drop running _ => exact ih
      | move moved =>
          have hsame := (AppState.move_untouched moved).presence
          show Presence.OwnKeys _
          rw [hsame]
          exact ih

theorem Reachable.ownKeys (hreachable : Reachable conf st) : st.presence.OwnKeys := by
  obtain ⟨start, c, hstart, hreach, rfl⟩ := hreachable
  exact ownKeys_of_reach hstart hreach

theorem assign_chooses {req : RegisterReq} {peer : PubKey} {callerIp : IpAddr}
    {assigned : Assigned} (hkeys : st.presence.OwnKeys) (hawake : req.paused = false)
    (hdistinct : peer ≠ req.wgPubkey) (hwants : peer ∈ req.needRelay)
    (heval : Eval (execAmid conf task req.wgPubkey peer) (assign conf req callerIp) st
      (.ok assigned) st') :
    ∃ chosen, (Mesh.of req.wgPubkey peer st').Elects req.wgPubkey peer chosen ∧
      Assigns conf assigned.seeds peer chosen := by
  have hconforms := @assign_elects conf req peer (Mesh.of req.wgPubkey peer st) callerIp hawake
    hdistinct hwants
  have hrun := hconforms.eval
    (fun mesh st => st.presence.OwnKeys ∧ mesh = Mesh.of req.wgPubkey peer st) ?_
    ⟨hkeys, rfl⟩ heval
  · obtain ⟨mesh', ⟨-, rfl⟩, hpost⟩ := hrun
    exact hpost
  · rintro mesh s o ⟨choice, others, hothers⟩ answer s' ⟨hkeys, rfl⟩ hallows hexec
    have hsame := hothers s
    rw [← hsame.of_eq]
    obtain ⟨hexpects, hkeys', hmesh⟩ := exec_mesh hexec (hsame.ownKeys hkeys) hallows
    exact ⟨hexpects, hkeys', hmesh.symm⟩

end

/-! Two snapshots of one state. -/

theorem table_ext {κ ν : Type} {first second : Table κ ν} (hrows : first.rows = second.rows) :
    first = second := by
  cases first
  cases second
  cases hrows
  rfl

def meshRows (st st' : AppState) : Bool :=
  decide (st.presence.map.rows = st'.presence.map.rows) &&
    decide (st.nat.relays.rows = st'.nat.relays.rows)

theorem SameMesh.of_rows {first second : PubKey} {st st' : AppState}
    (hrows : meshRows st st' = true) : SameMesh first second st st' := by
  simp only [meshRows, Bool.and_eq_true, decide_eq_true_eq] at hrows
  obtain ⟨hmap, hrelays⟩ := hrows
  refine ⟨fun guild role pubkey => ?_, fun pubkey _ _ => ?_⟩
  · simp only [Presence.rowAt, table_ext hmap]
  · rw [table_ext hrelays]

def sideBySide (start : AppState) (script : Script Conf.small) (first second : RegisterReq)
    (choices₁ choices₂ : List Choice) : Option ((Assigned × AppState) × Assigned × AppState) :=
  match Machine.play (⟨fun _ _ _ _ => ()⟩ : Machine.Observer (machine Conf.small) Unit)
      (fun _ _ _ => true) ((machine Conf.small).idle start) () script with
  | none => none
  | some (c, _) =>
      match (assign Conf.small first (.v4 0)).play (AppState.exec Conf.small 0) choices₁ c.shared,
        (assign Conf.small second (.v4 0)).play (AppState.exec Conf.small 0) choices₂ c.shared with
      | some (.ok assigned₁, st₁), some (.ok assigned₂, st₂) =>
          some ((assigned₁, st₁), assigned₂, st₂)
      | _, _ => none

theorem eval_amid {α ε : Type} {conf : Conf} {task : Nat} {first second : PubKey}
    {program : Prog sig ε α} {st st' : AppState} {result : Except ε α}
    (heval : Eval (AppState.exec conf task) program st result st') :
    Eval (execAmid conf task first second) program st result st' := by
  refine heval.weaken fun o choice st after hexec => ⟨⟨choice, id, fun st => ?_⟩, hexec⟩
  exact ⟨fun _ _ _ => rfl, fun _ _ _ => rfl⟩

theorem reach_of_sideBySide {start : AppState} {script : Script Conf.small}
    {first second : RegisterReq} {choices₁ choices₂ : List Choice}
    {property : (Assigned × AppState) × Assigned × AppState → Bool}
    (hstart : start.presence = {})
    (hplay : (sideBySide start script first second choices₁ choices₂).any property = true) :
    ∃ st assigned₁ st₁ assigned₂ st₂, Reachable Conf.small st ∧
      Eval (execAmid Conf.small 0 first.wgPubkey second.wgPubkey)
        (assign Conf.small first (.v4 0)) st (.ok assigned₁) st₁ ∧
      Eval (execAmid Conf.small 0 second.wgPubkey first.wgPubkey)
        (assign Conf.small second (.v4 0)) st (.ok assigned₂) st₂ ∧
      property ((assigned₁, st₁), assigned₂, st₂) = true := by
  obtain ⟨⟨⟨assigned₁, st₁⟩, assigned₂, st₂⟩, hsides, hproperty⟩ :=
    (Option.any_eq_true _ _).mp hplay
  unfold sideBySide at hsides
  split at hsides
  · cases hsides
  · rename_i c g hscript
    split at hsides
    · rename_i hfirst hsecond
      cases hsides
      refine ⟨c.shared, assigned₁, st₁, assigned₂, st₂, ⟨start, c, hstart, ?_, rfl⟩, ?_, ?_,
        hproperty⟩
      · exact Machine.play_sound (fun _ _ _ _ => trivial) .start hscript
      · exact eval_amid (eval_of_play hfirst)
      · exact eval_amid (eval_of_play hsecond)
    · cases hsides

def threeHolders : AppState where
  db :=
    { networks := (∅ : Table (GuildId × RoleId) String).insert (5, 7) "lan"
      oauthAuthorized :=
        (((∅ : Table PubKey OauthRow).insert 1 ⟨1, 0⟩).insert 2 ⟨2, 0⟩).insert 3 ⟨3, 0⟩ }
  discord :=
    { guilds := (∅ : Table GuildId String).insert 5 "guild"
      roles := (∅ : Table GuildId (List (RoleId × String))).insert 5 [(7, "lan")]
      members :=
        (((∅ : Table (GuildId × UserId) MemberRoles).insert (5, 1) ⟨"ann", [7]⟩).insert
          (5, 2) ⟨"bob", [7]⟩).insert (5, 3) ⟨"cid", [7]⟩ }

def hub : RegisterReq where
  wgPubkey := 3
  deviceName := "hub"
  possessionProof := some ⟨3, 7⟩
  relayCapable := true
  relayAddr := some ⟨.v4 9, 1⟩
  relaySecret := some "secret"

def stuckPc : RegisterReq where
  wgPubkey := 1
  deviceName := "pc"
  possessionProof := some ⟨1, 7⟩
  needRelay := [2]

def stuckPad : RegisterReq where
  wgPubkey := 2
  deviceName := "pad"
  possessionProof := some ⟨2, 7⟩
  needRelay := [1]

open Script in
def hubAndPad : Script Conf.small :=
  call (.register hub (.v4 0)) ++ steps 0 24 (.text "token") ++ steps 0 57 (.key 99) ++
    call (.register stuckPad (.v4 0)) ++ steps 1 69 (.text "token")

open Script in
def hubAndBoth : Script Conf.small :=
  hubAndPad ++ call (.register stuckPc (.v4 0)) ++ steps 2 70 (.text "token")

def enrolled (req : RegisterReq) : RegisterReq :=
  { req with deviceToken := some "token" }

def tokens (count : Nat) : List Choice :=
  List.replicate count (.text "token")

end UnityLan.Coordinator
