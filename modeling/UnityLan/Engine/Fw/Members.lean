import UnityLan.Engine.Fw.Presence

namespace UnityLan.Engine.Fw

open UnityLan.Foundation

/-! The peer sets, and the order in which the co-members come. -/

def sharing (done : List (Ipv4Addr × SharedNetwork)) (id : GuildId × RoleId) : List Ipv4Addr :=
  (done.filter fun member => member.2.id == some id).map Prod.fst

/-- Two peer sets have the same networks, with the same labels and members, and the same devices of
the owner. -/
structure PeerSets.Alike (first second : PeerSets) : Prop where
  labels : ∀ id guild name,
    (∃ net ∈ first.nets, net.id = id ∧ net.guild = guild ∧ net.name = name) ↔
      ∃ net ∈ second.nets, net.id = id ∧ net.guild = guild ∧ net.name = name
  members : ∀ id ip, (∃ net ∈ first.nets, net.id = id ∧ ip ∈ net.ips) ↔
    ∃ net ∈ second.nets, net.id = id ∧ ip ∈ net.ips
  own : ∀ ip, ip ∈ first.ownDevices ↔ ip ∈ second.ownDevices

/-- The peer sets are those of the co-members, in whatever order these come. -/
structure Faithful (seeds : List SeedPeer) (owner : Option UserId) : Prop where
  apart : ((peerSets seeds owner).nets.map NetInfo.id).Nodup
  scopable : ∀ id, id ∈ (peerSets seeds owner).nets.map NetInfo.id ↔
    ∃ seed ∈ seeds, ∃ shared ∈ seed.networks, shared.id = some id
  identified : ∀ net ∈ (peerSets seeds owner).nets, net.guildId ≠ 0 ∧ net.roleId ≠ 0
  members : ∀ net ∈ (peerSets seeds owner).nets, ∀ ip, ip ∈ net.ips ↔
    ∃ seed ∈ seeds, seed.ip = ip ∧ ∃ shared ∈ seed.networks, shared.id = some net.id
  own : ∀ ip, ip ∈ (peerSets seeds owner).ownDevices ↔
    ∃ seed ∈ seeds, seed.ip = ip ∧ owner = some seed.userId
  stable : ∀ other, seeds.Perm other → (peerSets other owner).Alike (peerSets seeds owner)

/-- Any two co-members who share a network mention it first under the same labels. -/
def SameLabels (seeds : List SeedPeer) : Prop :=
  ∀ id, ∀ seed ∈ seeds, ∀ other ∈ seeds, ∀ shared shared',
    firstOf (members [seed]) id = some shared → firstOf (members [other]) id = some shared' →
      shared.community = shared'.community ∧ shared.name = shared'.name

section

variable {done : List (Ipv4Addr × SharedNetwork)} {nets : List NetInfo}
  {id : GuildId × RoleId} {shared : SharedNetwork} {ip : Ipv4Addr}

theorem sharing_append (done : List (Ipv4Addr × SharedNetwork))
    (member : Ipv4Addr × SharedNetwork) (id : GuildId × RoleId) :
    sharing (done ++ [member]) id =
      if member.2.id = some id then sharing done id ++ [member.1] else sharing done id := by
  unfold sharing
  rw [List.filter_append, List.map_append]
  by_cases hid : member.2.id = some id
  · simp [hid]
  · simp [hid]

theorem mem_joinNet_ips (hnodup : (nets.map NetInfo.id).Nodup) {joined : NetInfo}
    (hjoined : joined ∈ joinNet id shared ip nets) :
    (∃ net ∈ nets, joined.id = net.id ∧
      joined.ips = if id = net.id then net.ips ++ [ip] else net.ips) ∨
    id ∉ nets.map NetInfo.id ∧ joined.id = id ∧ joined.ips = [ip] := by
  induction nets with
  | nil =>
      obtain rfl := List.mem_singleton.mp hjoined
      exact .inr ⟨List.not_mem_nil, rfl, rfl⟩
  | cons net rest ih =>
      rw [List.map_cons, List.nodup_cons] at hnodup
      unfold joinNet at hjoined
      split at hjoined
      · rename_i hid
        left
        rcases List.mem_cons.mp hjoined with rfl | hrest
        · exact ⟨net, List.mem_cons_self .., rfl, by rw [if_pos hid.symm]⟩
        · refine ⟨joined, List.mem_cons_of_mem _ hrest, rfl, ?_⟩
          rw [if_neg]
          rintro rfl
          exact hnodup.1 (hid ▸ List.mem_map_of_mem hrest)
      · rename_i hother
        rcases List.mem_cons.mp hjoined with rfl | hrest
        · exact .inl ⟨joined, List.mem_cons_self .., rfl, by rw [if_neg (Ne.symm hother)]⟩
        · rcases ih hnodup.2 hrest with ⟨held, hheld, hsame⟩ | ⟨hnew, hlast⟩
          · exact .inl ⟨held, List.mem_cons_of_mem _ hheld, hsame⟩
          · refine .inr ⟨?_, hlast⟩
            rw [List.map_cons, List.mem_cons]
            rintro (hid | hid)
            · exact hother hid.symm
            · exact hnew hid

def Gathered (done : List (Ipv4Addr × SharedNetwork)) (nets : List NetInfo) : Prop :=
  ∀ net ∈ nets, net.ips = sharing done net.id

theorem Gathered.add (hgroups : Groups done nets) (hgathered : Gathered done nets)
    (member : Ipv4Addr × SharedNetwork) :
    Gathered (done ++ [member]) (addMember nets member) := by
  intro net hnet
  rw [sharing_append]
  unfold addMember at hnet
  split at hnet
  · rename_i hnone
    rw [hnone, if_neg (by simp)]
    exact hgathered net hnet
  · rename_i id hid
    simp only [hid, Option.some.injEq]
    rcases mem_joinNet_ips hgroups.nodup hnet with ⟨held, hheld, hsame, hips⟩ | ⟨hnew, hsame, hips⟩
    · rw [hips, hsame, hgathered held hheld]
    · have hbefore : sharing done id = [] := by
        unfold sharing
        rw [List.map_eq_nil_iff, List.filter_eq_nil_iff]
        intro other hother hshared
        exact hnew (hgroups.covers other hother id (by simpa using hshared))
      rw [hsame, if_pos rfl, hips, hbefore, List.nil_append]

theorem Gathered.fold (hgroups : Groups done nets) (hgathered : Gathered done nets)
    (rest : List (Ipv4Addr × SharedNetwork)) :
    Gathered (done ++ rest) (rest.foldl addMember nets) := by
  induction rest generalizing done nets with
  | nil => simpa using hgathered
  | cons member rest ih =>
      have hrest := ih (hgroups.add member) (hgathered.add hgroups member)
      simpa using hrest

theorem mem_sharing : ip ∈ sharing done id ↔
    ∃ member ∈ done, member.1 = ip ∧ member.2.id = some id := by
  unfold sharing
  simp only [List.mem_map, List.mem_filter, beq_iff_eq]
  constructor
  · rintro ⟨member, ⟨hmember, hid⟩, hip⟩
    exact ⟨member, hmember, hip, hid⟩
  · rintro ⟨member, hmember, hip, hid⟩
    exact ⟨member, ⟨hmember, hid⟩, hip⟩

end

section

variable {seeds other : List SeedPeer} {owner : Option UserId}

theorem mem_members {seeds : List SeedPeer} {member : Ipv4Addr × SharedNetwork} :
    member ∈ members seeds ↔ ∃ seed ∈ seeds, seed.ip = member.1 ∧ member.2 ∈ seed.networks := by
  unfold members
  rw [List.mem_flatMap]
  constructor
  · rintro ⟨seed, hseed, hmember⟩
    obtain ⟨net, hnet, rfl⟩ := List.mem_map.mp hmember
    exact ⟨seed, hseed, rfl, hnet⟩
  · rintro ⟨seed, hseed, hip, hnet⟩
    refine ⟨seed, hseed, List.mem_map.mpr ⟨member.2, hnet, ?_⟩⟩
    rw [hip]

theorem peerSets_ips {net : NetInfo} (hnet : net ∈ (peerSets seeds owner).nets) :
    net.ips = sortIps (sharing (members seeds) net.id) := by
  obtain ⟨held, hheld, rfl⟩ := List.mem_map.mp hnet
  have hgathered := Gathered.fold groups_start (fun _ hnet => nomatch hnet) (members seeds)
  exact congrArg sortIps (hgathered held ((List.mem_insertionSort _).mp hheld))

theorem firstOf_seeds {id : GuildId × RoleId} {shared : SharedNetwork}
    (hfirst : firstOf (members seeds) id = some shared) :
    ∃ seed ∈ seeds, firstOf (members [seed]) id = some shared := by
  induction seeds with
  | nil => cases hfirst
  | cons seed rest ih =>
      have hsplit : members (seed :: rest) = members [seed] ++ members rest := by
        simp [members]
      rw [firstOf, hsplit, List.map_append, List.find?_append] at hfirst
      rcases Option.or_eq_some_iff.mp hfirst with hseed | ⟨-, hrest⟩
      · exact ⟨seed, List.mem_cons_self .., hseed⟩
      · obtain ⟨later, hlater, hfound⟩ := ih hrest
        exact ⟨later, List.mem_cons_of_mem _ hlater, hfound⟩

theorem firstOf_first {seed : SeedPeer} {id : GuildId × RoleId} {shared : SharedNetwork}
    (hfirst : firstOf (members [seed]) id = some shared) (rest : List SeedPeer) :
    firstOf (members (seed :: rest)) id = some shared := by
  have hsplit : members (seed :: rest) = members [seed] ++ members rest := by
    simp [members]
  rw [firstOf, hsplit, List.map_append, List.find?_append]
  change (firstOf (members [seed]) id).or _ = _
  rw [hfirst]
  rfl

theorem mem_peerSets_ids {id : GuildId × RoleId} :
    id ∈ (peerSets seeds owner).nets.map NetInfo.id ↔
      ∃ seed ∈ seeds, ∃ shared ∈ seed.networks, shared.id = some id := by
  have hgroups := groups_peerSets seeds owner
  constructor
  · intro hid
    obtain ⟨net, hnet, rfl⟩ := List.mem_map.mp hid
    obtain ⟨shared, hfirst, -⟩ := hgroups.named net hnet
    obtain ⟨member, hmember, rfl⟩ := List.mem_map.mp (List.mem_of_find?_eq_some hfirst)
    obtain ⟨seed, hseed, -, hshared⟩ := mem_members.mp hmember
    exact ⟨seed, hseed, member.2, hshared, by simpa using List.find?_some hfirst⟩
  · rintro ⟨seed, hseed, shared, hshared, hid⟩
    exact hgroups.covers (seed.ip, shared) (mem_members.mpr ⟨seed, hseed, rfl, hshared⟩) id hid

theorem sortIps_perm {first second : List Ipv4Addr} (hperm : first.Perm second) :
    sortIps first = sortIps second := by
  unfold sortIps
  refine List.Perm.eq_of_pairwise (fun _ _ _ _ => BitVec.le_antisymm)
    (List.pairwise_insertionSort _ first) (List.pairwise_insertionSort _ second) ?_
  exact (List.perm_insertionSort _ first).trans
    (hperm.trans (List.perm_insertionSort _ second).symm)

theorem NetInfo.ext_id {first second : NetInfo} (hid : first.id = second.id)
    (hguild : first.guild = second.guild) (hname : first.name = second.name)
    (hips : first.ips = second.ips) : first = second := by
  cases first
  cases second
  simp only [NetInfo.id, Prod.mk.injEq] at hid
  simp_all

theorem peerSets_net (hsame : SameLabels seeds) (hperm : seeds.Perm other) {net : NetInfo}
    (hnet : net ∈ (peerSets other owner).nets) : net ∈ (peerSets seeds owner).nets := by
  have hother := groups_peerSets other owner
  have hseeds := groups_peerSets seeds owner
  have hshared : net.id ∈ (peerSets seeds owner).nets.map NetInfo.id := by
    obtain ⟨seed, hseed, hid⟩ := mem_peerSets_ids.mp (List.mem_map_of_mem hnet)
    exact mem_peerSets_ids.mpr ⟨seed, hperm.mem_iff.mpr hseed, hid⟩
  obtain ⟨held, hheld, hid⟩ := List.mem_map.mp hshared
  obtain ⟨first, hfirst, hname, hguild⟩ := hother.named net hnet
  obtain ⟨first', hfirst', hname', hguild'⟩ := hseeds.named held hheld
  obtain ⟨seed, hseed, hmention⟩ := firstOf_seeds hfirst
  obtain ⟨seed', hseed', hmention'⟩ := firstOf_seeds hfirst'
  rw [hid] at hmention'
  obtain ⟨hcommunity, hlabel⟩ :=
    hsame net.id seed (hperm.mem_iff.mpr hseed) seed' hseed' first first' hmention hmention'
  have hips : net.ips = held.ips := by
    rw [peerSets_ips hnet, peerSets_ips hheld, hid]
    apply sortIps_perm
    exact ((hperm.symm.flatMap_right _).filter _).map _
  have hequal : net = held :=
    NetInfo.ext_id hid.symm (hguild.trans (hcommunity.trans hguild'.symm))
      (hname.trans (hlabel.trans hname'.symm)) hips
  exact hequal ▸ hheld

theorem SameLabels.perm (hsame : SameLabels seeds) (hperm : seeds.Perm other) : SameLabels other :=
  fun id seed hseed seed' hseed' =>
    hsame id seed (hperm.mem_iff.mpr hseed) seed' (hperm.mem_iff.mpr hseed')

instance : Std.Total NetInfo.le where
  total first second := by
    have hlex : ∀ a b c d : Nat, (a < c ∨ a = c ∧ b ≤ d) ∨ (c < a ∨ c = a ∧ d ≤ b) := by
      omega
    exact hlex first.guildId first.roleId second.guildId second.roleId

instance : IsTrans NetInfo NetInfo.le where
  trans first second third := by
    have hlex : ∀ a b c d e f : Nat, (a < c ∨ a = c ∧ b ≤ d) → (c < e ∨ c = e ∧ d ≤ f) →
        (a < e ∨ a = e ∧ b ≤ f) := by
      omega
    exact hlex _ _ _ _ _ _

theorem NetInfo.le_antisymm {first second : NetInfo} (hle : first.le second)
    (hge : second.le first) : first.id = second.id := by
  have hlex : ∀ a b c d : Nat, (a < c ∨ a = c ∧ b ≤ d) → (c < a ∨ c = a ∧ d ≤ b) →
      a = c ∧ b = d := by
    omega
  obtain ⟨hguild, hrole⟩ := hlex _ _ _ _ hle hge
  exact Prod.ext hguild hrole

theorem peerSets_sorted (seeds : List SeedPeer) (owner : Option UserId) :
    (peerSets seeds owner).nets.Pairwise NetInfo.le := by
  have hsorted := List.pairwise_insertionSort NetInfo.le ((members seeds).foldl addMember [])
  exact List.pairwise_map.mpr (hsorted.imp fun hle => hle)

theorem peerSets_perm (hsame : SameLabels seeds) (hperm : seeds.Perm other) :
    peerSets other owner = peerSets seeds owner := by
  have hnodup : ∀ seeds, (peerSets seeds owner).nets.Nodup := fun seeds =>
    (groups_peerSets seeds owner).nodup.of_map
  have hnets : (peerSets other owner).nets = (peerSets seeds owner).nets := by
    refine List.Perm.eq_of_pairwise ?_ (peerSets_sorted other owner)
      (peerSets_sorted seeds owner) ?_
    · intro net held hnet hheld hle hge
      exact List.inj_on_of_nodup_map (groups_peerSets seeds owner).nodup
        (peerSets_net hsame hperm hnet) hheld (NetInfo.le_antisymm hle hge)
    · apply (List.perm_ext_iff_of_nodup (hnodup other) (hnodup seeds)).mpr
      intro net
      exact ⟨peerSets_net hsame hperm, peerSets_net (hsame.perm hperm) hperm.symm⟩
  have hown : (peerSets other owner).ownDevices = (peerSets seeds owner).ownDevices :=
    sortIps_perm ((hperm.symm.filter _).map _)
  cases hleft : peerSets other owner
  cases hright : peerSets seeds owner
  simp_all

end

theorem PeerSets.Alike.refl (peers : PeerSets) : peers.Alike peers :=
  ⟨fun _ _ _ => Iff.rfl, fun _ _ => Iff.rfl, fun _ => Iff.rfl⟩

theorem peerSets_labels {seeds : List SeedPeer} {id : GuildId × RoleId} {shared : SharedNetwork}
    (hfirst : firstOf (members seeds) id = some shared) (owner : Option UserId)
    (guild name : String) :
    (∃ net ∈ (peerSets seeds owner).nets, net.id = id ∧ net.guild = guild ∧ net.name = name) ↔
      shared.community = guild ∧ shared.name = name := by
  have hgroups := groups_peerSets seeds owner
  constructor
  · rintro ⟨net, hnet, rfl, rfl, rfl⟩
    obtain ⟨first, hnamed, hname, hguild⟩ := hgroups.named net hnet
    rw [hfirst, Option.some.injEq] at hnamed
    subst hnamed
    exact ⟨hguild.symm, hname.symm⟩
  · rintro ⟨rfl, rfl⟩
    obtain ⟨member, hmember, hshared⟩ := List.mem_map.mp (List.mem_of_find?_eq_some hfirst)
    have hid : member.2.id = some id := by
      rw [hshared]
      simpa using List.find?_some hfirst
    obtain ⟨net, hnet, hnetId⟩ := List.mem_map.mp (hgroups.covers member hmember id hid)
    obtain ⟨first, hnamed, hname, hguild⟩ := hgroups.named net hnet
    rw [hnetId, hfirst, Option.some.injEq] at hnamed
    subst hnamed
    exact ⟨net, hnet, hnetId, hguild, hname⟩

/-- What the sets hold is exactly what the co-members share, in any order of them, where these agree
on the labels of what they share. -/
theorem peerSets_faithful_iff (seeds : List SeedPeer) (owner : Option UserId) :
    Faithful seeds owner ↔ SameLabels seeds := by
  constructor
  · intro hfaithful id seed hseed other hother shared shared' hfirst hfirst'
    obtain ⟨before, after, hsplit⟩ := List.append_of_mem hseed
    obtain ⟨before', after', hsplit'⟩ := List.append_of_mem hother
    have hperm : seeds.Perm (seed :: (before ++ after)) := hsplit ▸ List.perm_middle
    have hperm' : seeds.Perm (other :: (before' ++ after')) := hsplit' ▸ List.perm_middle
    have hlabels := peerSets_labels (firstOf_first hfirst (before ++ after)) owner
      shared.community shared.name
    have hkept := (hfaithful.stable _ hperm).labels id shared.community shared.name
    have hkept' := (hfaithful.stable _ hperm').labels id shared.community shared.name
    have hlabels' := peerSets_labels (firstOf_first hfirst' (before' ++ after')) owner
      shared.community shared.name
    obtain ⟨hcommunity, hname⟩ := hlabels'.mp (hkept'.mpr (hkept.mp (hlabels.mpr ⟨rfl, rfl⟩)))
    exact ⟨hcommunity.symm, hname.symm⟩
  · intro hsame
    have hgroups := groups_peerSets seeds owner
    constructor
    case apart => exact hgroups.nodup
    case scopable => exact fun id => mem_peerSets_ids
    case identified =>
      intro net hnet
      obtain ⟨seed, -, shared, -, hid⟩ := mem_peerSets_ids.mp (List.mem_map_of_mem hnet)
      unfold SharedNetwork.id at hid
      split at hid
      · rename_i hknown
        simp only [Option.some.injEq, NetInfo.id, Prod.mk.injEq] at hid
        rwa [← hid.1, ← hid.2]
      · cases hid
    case members =>
      intro net hnet ip
      rw [peerSets_ips hnet, sortIps, List.mem_insertionSort, mem_sharing]
      constructor
      · rintro ⟨member, hmember, rfl, hid⟩
        obtain ⟨seed, hseed, hip, hshared⟩ := mem_members.mp hmember
        exact ⟨seed, hseed, hip, member.2, hshared, hid⟩
      · rintro ⟨seed, hseed, hip, shared, hshared, hid⟩
        exact ⟨(ip, shared), mem_members.mpr ⟨seed, hseed, hip, hshared⟩, rfl, hid⟩
    case own =>
      intro ip
      unfold peerSets
      rw [sortIps, List.mem_insertionSort]
      simp only [List.mem_map, List.mem_filter]
      constructor
      · rintro ⟨seed, ⟨hseed, hmine⟩, hip⟩
        cases owner with
        | none => cases hmine
        | some me => exact ⟨seed, hseed, hip, congrArg some (eq_of_beq hmine)⟩
      · rintro ⟨seed, hseed, hip, rfl⟩
        exact ⟨seed, ⟨hseed, by simp⟩, hip⟩
    case stable =>
      intro other hperm
      rw [peerSets_perm hsame hperm]
      exact .refl _

/-- Two co-members who share one network, under two names of it. -/
theorem labels_follow_order : ¬ ∀ seeds owner, Faithful seeds owner := by
  intro hclaim
  have hstable := (hclaim [gamer 8 5 "acme", gamer 9 5 "playhouse"] none).stable
    [gamer 9 5 "playhouse", gamer 8 5 "acme"] (List.Perm.swap _ _ _)
  obtain ⟨net, hnet, hlabels⟩ := (hstable.labels (5, 1) "playhouse" "games").mp
    ⟨⟨5, 1, "playhouse", "games", [8, 9]⟩, by decide, by decide⟩
  have hnone : ∀ net ∈ (peerSets [gamer 8 5 "acme", gamer 9 5 "playhouse"] none).nets,
      net.guild ≠ "playhouse" := by
    decide
  exact hnone net hnet hlabels.2.1

end UnityLan.Engine.Fw
