import UnityLan.Engine.Fw.Presence

namespace UnityLan.Engine

open UnityLan.Foundation Fw

/-! The filter on the co-members, by what the owner chose of each network. -/

variable (localnet : LocalNet) (networksStatus : List NetworkStatus)

def optedIn (net : SharedNetwork) : Bool :=
  !localnet.disabled.contains (net.guildId, net.roleId)

def optedInByName (net : SharedNetwork) : Bool :=
  (nameToId networksStatus net.name).all fun id => !localnet.disabled.contains id

def blocks (seed : SeedPeer) : Bool :=
  localnet.blocked.contains seed.userId

/-- Whether a co-member is one to peer with. -/
def welcome (seed : SeedPeer) : Bool :=
  !blocks localnet seed && (seed.networks.isEmpty || seed.networks.any (optedIn localnet))

def mistaken (net : SharedNetwork) : Bool :=
  optedInByName localnet networksStatus net != optedIn localnet net

/-- A peer whose networks are all told apart by their names, or where it makes no difference. -/
def ToldApart (seed : SeedPeer) : Prop :=
  blocks localnet seed = true ∨
  (∀ net ∈ seed.networks, mistaken localnet networksStatus net = false) ∨
  (∃ net ∈ seed.networks, optedIn localnet net = true ∧ mistaken localnet networksStatus net =
    false) ∨
  (∃ net ∈ seed.networks, optedIn localnet net = true) ∧
    ∃ net ∈ seed.networks, optedIn localnet net = false ∧ mistaken localnet networksStatus net =
      true

section

variable {localnet networksStatus} {seeds : List SeedPeer}

theorem filterActive_eq : filterActive seeds localnet networksStatus =
    seeds.filter fun seed =>
      !blocks localnet seed &&
        (seed.networks.isEmpty || seed.networks.any (optedInByName localnet networksStatus)) := by
  unfold filterActive
  rw [List.filter_filter]
  apply List.filter_congr
  intro seed _
  exact Bool.and_comm ..

theorem filter_eq_iff {α : Type} {items : List α} {first second : α → Bool} :
    items.filter first = items.filter second ↔ ∀ item ∈ items, first item = second item := by
  refine ⟨fun hsame item hitem => ?_, List.filter_congr⟩
  have hmem : item ∈ items.filter first ↔ item ∈ items.filter second := by rw [hsame]
  simp only [List.mem_filter, hitem, true_and] at hmem
  exact Bool.eq_iff_iff.mpr hmem

/-- Two tests are passed alike by some item of a list exactly where no item tells them apart, where
one passes both, or where they are told apart both ways. -/
theorem any_eq_any_iff {α : Type} {items : List α} {first second : α → Bool} :
    items.any first = items.any second ↔
      (∀ item ∈ items, (first item != second item) = false) ∨
      (∃ item ∈ items, second item = true ∧ (first item != second item) = false) ∨
      (∃ item ∈ items, second item = true) ∧
        ∃ item ∈ items, second item = false ∧ (first item != second item) = true := by
  rw [Bool.eq_iff_iff, List.any_eq_true, List.any_eq_true]
  constructor
  · intro hsame
    by_cases hsecond : ∃ item ∈ items, second item = true
    · obtain ⟨item, hitem, hfirst⟩ := hsame.mpr hsecond
      cases hopen : second item with
      | true => exact .inr (.inl ⟨item, hitem, hopen, by simp [hfirst, hopen]⟩)
      | false => exact .inr (.inr ⟨hsecond, item, hitem, hopen, by simp [hfirst, hopen]⟩)
    · left
      intro item hitem
      have hneither := fun hfirst => hsecond (hsame.mp ⟨item, hitem, hfirst⟩)
      have hnot := fun hopen => hsecond ⟨item, hitem, hopen⟩
      simp [Bool.eq_false_iff.mpr hneither, Bool.eq_false_iff.mpr hnot]
  · rintro (hall | ⟨item, hitem, hopen, hagree⟩ | ⟨hsecond, item, hitem, hclosed, hdiffer⟩)
    · have hagree : ∀ item ∈ items, first item = second item := fun item hitem => by
        simpa using hall item hitem
      constructor
      · rintro ⟨item, hitem, hfirst⟩
        exact ⟨item, hitem, (hagree item hitem).symm.trans hfirst⟩
      · rintro ⟨item, hitem, hsecond⟩
        exact ⟨item, hitem, (hagree item hitem).trans hsecond⟩
    · have hfirst : first item = true := by simpa [hopen] using hagree
      exact ⟨fun _ => ⟨item, hitem, hopen⟩, fun _ => ⟨item, hitem, hfirst⟩⟩
    · have hfirst : first item = true := by simpa [hclosed] using hdiffer
      exact ⟨fun _ => hsecond, fun _ => ⟨item, hitem, hfirst⟩⟩

end

/-- The filter keeps exactly the co-members that are welcome if and only if the names of their
networks are not taken for others, or it makes no difference. -/
theorem filter_exact_iff (localnet : LocalNet) (networksStatus : List NetworkStatus)
    (seeds : List SeedPeer) :
    filterActive seeds localnet networksStatus = seeds.filter (welcome localnet) ↔
      ∀ seed ∈ seeds, ToldApart localnet networksStatus seed := by
  rw [filterActive_eq, filter_eq_iff]
  refine forall_congr' fun seed => imp_congr_right fun _ => ?_
  unfold welcome ToldApart
  cases hblocked : blocks localnet seed with
  | true => simp
  | false =>
      simp only [Bool.not_false, Bool.true_and, Bool.false_eq_true, false_or]
      cases hnetworks : seed.networks with
      | nil => simp
      | cons net rest =>
          simp only [List.isEmpty_cons, Bool.false_or]
          exact any_eq_any_iff

/-- A device of two communities, each with its games, that opted out of those of the first. -/
def choosy : LocalNet where
  disabled := [(5, 1)]

/-- The co-member of the first community is kept, and that of the second is dropped with the
communities in the other order. -/
theorem namesake_kept :
    (filterActive [gamer 9 5 "acme"] choosy [gamers 5 "acme", gamers 6 "playhouse"] ≠
      [gamer 9 5 "acme"].filter (welcome choosy)) ∧
    filterActive [gamer 9 6 "playhouse"] choosy [gamers 6 "playhouse", gamers 5 "acme"] ≠
      [gamer 9 6 "playhouse"].filter (welcome choosy) := by
  decide

end UnityLan.Engine
