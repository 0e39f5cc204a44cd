import UnityLan.Common.Rotation
import UnityLan.Foundation.Runs

namespace UnityLan.Coordinator

open UnityLan.Foundation Rotation

/-! Rotation of a guild's signing key. -/

/-- A run of `rotate_key` that has loaded the old key and generated the next. -/
structure KeyRotation where
  old : Anchor
  next : Anchor
  appended : Bool
deriving DecidableEq

namespace KeyRotation

variable (rotation : KeyRotation)

def cert (issuedAt : Nat) : Signed RotationCert :=
  Signed.sign rotation.old ⟨rotation.old, rotation.next, issuedAt⟩

end KeyRotation

/-- The rows of a guild, the runs that rotate its key, and the key that the running
coordinator has loaded. -/
structure RotatingGuild where
  seed : Option Anchor
  chain : List (Signed RotationCert)
  signer : Option Anchor
  served : List Anchor
  generated : List Anchor
  rotations : List KeyRotation

namespace RotatingGuild

def unseeded : RotatingGuild := ⟨none, [], none, [], [], []⟩

end RotatingGuild

/-- A run that is cut short takes no further step. -/
inductive RotationEvent where
  | loaded (created next : Anchor)
  | appended (rotation : KeyRotation) (now : Nat)
  | replaced (rotation : KeyRotation)
  | restarted (created : Anchor)

namespace RotatingGuild

variable (decodes : Anchor → Bool) (guild : RotatingGuild)

/-- `CoordinatorKey::generate` gives a key that it has not given before. -/
def generates (key : Anchor) : Bool :=
  decodes key && !guild.generated.contains key

def loadOrCreateSeed (created : Anchor) : RotatingGuild :=
  match guild.seed with
  | some _ => guild
  | none => { guild with seed := some created, generated := created :: guild.generated }

def step : RotationEvent → Option RotatingGuild
  | .loaded created next =>
      if guild.generates decodes created && guild.generates decodes next && created != next then
        let loaded := guild.loadOrCreateSeed created
        some { loaded with
          generated := next :: loaded.generated
          rotations := ⟨loaded.seed.getD created, next, false⟩ :: loaded.rotations }
      else none
  | .appended rotation now =>
      if guild.rotations.contains rotation && !rotation.appended then
        some { guild with
          chain := guild.chain ++ [rotation.cert now]
          rotations := { rotation with appended := true } ::
            guild.rotations.filter (·.next != rotation.next) }
      else none
  | .replaced rotation =>
      if guild.rotations.contains rotation && rotation.appended then
        some { guild with
          seed := some rotation.next
          rotations := guild.rotations.filter (·.next != rotation.next) }
      else none
  | .restarted created =>
      if guild.generates decodes created then
        let loaded := guild.loadOrCreateSeed created
        some { loaded with
          signer := loaded.seed
          served := loaded.seed.getD created :: loaded.served }
      else none

/-- Every client can follow the stored chain from the anchor it pinned to the one served. -/
def Bridged : Prop :=
  ∀ anchor, guild.signer = some anchor → guild.chain.length ≤ MAX_ROTATION_CHAIN →
    ∀ pinned ∈ guild.served, walkChain decodes pinned anchor guild.chain = true

/-- The seed is replaced by a run that loaded it, and whose certificate is the first of those
that rotate from it. -/
def fits : RotationEvent → Bool
  | .replaced rotation =>
      guild.seed == some rotation.old &&
        (guild.chain.find? (·.payload.prevAnchor == rotation.old)).any
          (·.payload.newAnchor == rotation.next)
  | _ => true

end RotatingGuild

section

variable {decodes : Anchor → Bool} {guild guild' : RotatingGuild} {past : List Anchor}
  {created : Anchor} {rotation : KeyRotation}

/-- The keys that have signed for the guild, each led to the next by the first certificate of
the chain that rotates from it. -/
structure Lineage (decodes : Anchor → Bool) (guild : RotatingGuild) (past : List Anchor) :
    Prop where
  seed : past.getLast? = guild.seed
  nodup : past.Nodup
  linked : past.IsChain fun first second =>
    Walk.advance (hop decodes) guild.chain first = some second
  keys : ∀ key ∈ past, decodes key = true
  generated : past ⊆ guild.generated
  signed : ∀ cert ∈ guild.chain, cert.signer = cert.payload.prevAnchor
  unused : ∀ rotation ∈ guild.rotations, decodes rotation.next = true ∧
    rotation.next ∈ guild.generated ∧ rotation.next ∉ past
  served : guild.served ⊆ past
  signer : ∀ anchor, guild.signer = some anchor → ∃ older newer,
    past = older ++ anchor :: newer ∧ ∀ pinned ∈ guild.served, pinned ∈ older ∨ pinned = anchor

theorem generates_iff {key : Anchor} :
    guild.generates decodes key = true ↔ decodes key = true ∧ key ∉ guild.generated := by
  simp [RotatingGuild.generates]

theorem unseeded_lineage : Lineage decodes .unseeded [] where
  seed := rfl
  nodup := List.nodup_nil
  linked := .nil
  keys := nofun
  generated := List.nil_subset _
  signed := nofun
  unused := nofun
  served := List.nil_subset _
  signer := nofun

/-- The key that is loaded has signed for the guild, and only a guild without one gets a new
one. -/
theorem Lineage.loadOrCreateSeed (hline : Lineage decodes guild past)
    (hcreated : guild.generates decodes created = true) :
    ∃ past key, Lineage decodes (guild.loadOrCreateSeed created) past ∧
      (guild.loadOrCreateSeed created).seed = some key ∧
      ∀ other, guild.generates decodes other = true → created ≠ other →
        (guild.loadOrCreateSeed created).generates decodes other = true := by
  obtain ⟨hkey, hfresh⟩ := generates_iff.mp hcreated
  unfold RotatingGuild.loadOrCreateSeed
  split
  · rename_i key hseed
    exact ⟨past, key, hline, hseed, fun _ hother _ => hother⟩
  · rename_i hseed
    obtain rfl : past = [] := List.getLast?_eq_none_iff.mp (hline.seed.trans hseed)
    refine ⟨[created], created, ?_, rfl, ?_⟩
    · constructor
      case seed => rfl
      case nodup => exact List.nodup_singleton created
      case linked => exact .singleton created
      case keys => simpa using hkey
      case generated => simp
      case signed => exact hline.signed
      case unused =>
        intro rotation hrotation
        obtain ⟨hnext, hgenerated, _⟩ := hline.unused rotation hrotation
        refine ⟨hnext, List.mem_cons_of_mem _ hgenerated, ?_⟩
        rw [List.mem_singleton]
        exact fun hsame => hfresh (hsame ▸ hgenerated)
      case served => exact fun _ hserved => absurd (hline.served hserved) List.not_mem_nil
      case signer =>
        intro anchor hsigner
        obtain ⟨older, newer, hpast, _⟩ := hline.signer anchor hsigner
        cases older <;> cases hpast
    · intro other hother hne
      obtain ⟨hdecodes, hunseen⟩ := generates_iff.mp hother
      refine generates_iff.mpr ⟨hdecodes, ?_⟩
      simp [Ne.symm hne, hunseen]

theorem advance_append {chain : List (Signed RotationCert)} {first second : Anchor}
    (cert : Signed RotationCert) (hadvance : Walk.advance (hop decodes) chain first = some second) :
    Walk.advance (hop decodes) (chain ++ [cert]) first = some second := by
  unfold Walk.advance at hadvance ⊢
  rw [List.findSome?_append, hadvance]
  rfl

theorem advance_find {chain : List (Signed RotationCert)} {old next : Anchor}
    (hsigned : ∀ cert ∈ chain, cert.signer = cert.payload.prevAnchor) (hold : decodes old = true)
    (hfirst : (chain.find? (·.payload.prevAnchor == old)).any (·.payload.newAnchor == next) =
      true) :
    Walk.advance (hop decodes) chain old = some next := by
  induction chain with
  | nil => cases hfirst
  | cons cert rest ih =>
      unfold Walk.advance
      rw [List.findSome?_cons]
      rw [List.find?_cons] at hfirst
      cases hfrom : cert.payload.prevAnchor == old with
      | true =>
          rw [hfrom] at hfirst
          have hprev := eq_of_beq hfrom
          have hsigner := (hsigned cert List.mem_cons_self).trans hprev
          have hhop : hop decodes old cert = some next :=
            hop_eq_some.mpr ⟨hold, hsigner, hprev, eq_of_beq hfirst⟩
          rw [hhop]
      | false =>
          rw [hfrom] at hfirst
          have hhop : hop decodes old cert = none := by
            unfold hop
            rw [if_neg]
            exact fun hvouches => ne_of_beq_false hfrom hvouches.2.2
          rw [hhop]
          exact ih (fun other hother => hsigned other (List.mem_cons_of_mem _ hother)) hfirst

theorem Lineage.appended (hline : Lineage decodes guild past)
    (hrotation : rotation ∈ guild.rotations)
    (now : Nat) :
    Lineage decodes
      { guild with
        chain := guild.chain ++ [rotation.cert now]
        rotations := { rotation with appended := true } ::
          guild.rotations.filter (·.next != rotation.next) } past where
  seed := hline.seed
  nodup := hline.nodup
  linked := hline.linked.imp fun _ _ hadvance => advance_append _ hadvance
  keys := hline.keys
  generated := hline.generated
  signed := by
    intro cert hcert
    rcases List.mem_append.mp hcert with hcert | hcert
    · exact hline.signed cert hcert
    · obtain rfl := List.mem_singleton.mp hcert
      rfl
  unused := by
    intro other hother
    rcases List.mem_cons.mp hother with rfl | hother
    · exact hline.unused rotation hrotation
    · exact hline.unused other (List.mem_of_mem_filter hother)
  served := hline.served
  signer := hline.signer

theorem Lineage.replaced (hline : Lineage decodes guild past)
    (hrotation : rotation ∈ guild.rotations)
    (hfits : guild.fits (.replaced rotation) = true) :
    Lineage decodes
      { guild with
        seed := some rotation.next
        rotations := guild.rotations.filter (·.next != rotation.next) }
      (past ++ [rotation.next]) := by
  obtain ⟨hseed, hfirst⟩ := Bool.and_eq_true_iff.mp hfits
  have hlast : past.getLast? = some rotation.old := hline.seed.trans (eq_of_beq hseed)
  obtain ⟨hnext, hgenerated, hunused⟩ := hline.unused rotation hrotation
  have hold := hline.keys rotation.old (List.mem_of_getLast? hlast)
  constructor
  case seed => simp
  case nodup =>
    rw [← List.concat_eq_append]
    exact List.Nodup.concat hunused hline.nodup
  case linked =>
    refine List.isChain_append.mpr ⟨hline.linked, .singleton _, ?_⟩
    intro last hmem next hhead
    obtain rfl : rotation.old = last := Option.some.inj (hlast.symm.trans hmem)
    obtain rfl : rotation.next = next := Option.some.inj hhead
    exact advance_find hline.signed hold hfirst
  case keys =>
    intro key hkey
    rcases List.mem_append.mp hkey with hkey | hkey
    · exact hline.keys key hkey
    · exact List.mem_singleton.mp hkey ▸ hnext
  case generated =>
    exact List.append_subset.mpr ⟨hline.generated, by simpa using hgenerated⟩
  case signed => exact hline.signed
  case unused =>
    intro other hother
    obtain ⟨hother, hne⟩ := List.mem_filter.mp hother
    obtain ⟨hkey, hgiven, hunseen⟩ := hline.unused other hother
    refine ⟨hkey, hgiven, ?_⟩
    rw [List.mem_append, List.mem_singleton]
    exact not_or.mpr ⟨hunseen, ne_of_apply_ne id (by simpa using hne)⟩
  case served => exact List.Subset.trans hline.served (List.subset_append_left _ _)
  case signer =>
    intro anchor hsigner
    obtain ⟨older, newer, rfl, hserved⟩ := hline.signer anchor hsigner
    exact ⟨older, newer ++ [rotation.next], by simp, hserved⟩

theorem Lineage.restarted (hline : Lineage decodes guild past) {key : Anchor}
    (hseed : guild.seed = some key) :
    Lineage decodes
      { guild with
        signer := guild.seed
        served := guild.seed.getD created :: guild.served } past := by
  have hgiven : guild.seed.getD created = key := by
    rw [hseed]
    rfl
  rw [hgiven]
  have hlast : past.getLast? = some key := hline.seed.trans hseed
  have hpast : past = past.dropLast ++ [key] := (List.dropLast_append_getLast? key hlast).symm
  have hserved : key :: guild.served ⊆ past :=
    List.cons_subset.mpr ⟨List.mem_of_getLast? hlast, hline.served⟩
  refine { hline with served := hserved, signer := ?_ }
  intro anchor hsigner
  obtain rfl : key = anchor := Option.some.inj (hseed.symm.trans hsigner)
  refine ⟨past.dropLast, [], hpast, fun pinned hpinned => ?_⟩
  have hmem := hserved hpinned
  rw [hpast, List.mem_append, List.mem_singleton] at hmem
  exact hmem

/-- What a run of `rotate_key` has loaded and generated. -/
theorem Lineage.loaded (hline : Lineage decodes guild past) {key next : Anchor}
    (hnext : guild.generates decodes next = true) :
    Lineage decodes
      { guild with
        generated := next :: guild.generated
        rotations := ⟨key, next, false⟩ :: guild.rotations } past := by
  obtain ⟨hdecodes, hfresh⟩ := generates_iff.mp hnext
  refine { hline with
    generated := List.subset_cons_of_subset next hline.generated
    unused := ?_ }
  intro rotation hrotation
  rcases List.mem_cons.mp hrotation with rfl | hrotation
  · exact ⟨hdecodes, List.mem_cons_self, fun hpast => hfresh (hline.generated hpast)⟩
  · obtain ⟨hkey, hgenerated, hunused⟩ := hline.unused rotation hrotation
    exact ⟨hkey, List.mem_cons_of_mem _ hgenerated, hunused⟩

theorem Lineage.step {event : RotationEvent} (hline : Lineage decodes guild past)
    (hfits : guild.fits event = true) (hstep : guild.step decodes event = some guild') :
    ∃ past, Lineage decodes guild' past := by
  cases event with
  | loaded created next =>
      obtain ⟨hguard, hstep⟩ := Option.ite_none_right_eq_some.mp hstep
      simp only [Bool.and_eq_true, bne_iff_ne] at hguard
      obtain ⟨⟨hcreated, hnext⟩, hne⟩ := hguard
      obtain ⟨past, key, hline, hseed, hfresh⟩ := hline.loadOrCreateSeed hcreated
      cases hstep
      exact ⟨past, hline.loaded (hfresh next hnext hne)⟩
  | appended rotation now =>
      obtain ⟨hguard, hstep⟩ := Option.ite_none_right_eq_some.mp hstep
      cases hstep
      have hrotation := List.contains_iff_mem.mp (Bool.and_eq_true_iff.mp hguard).1
      exact ⟨past, hline.appended hrotation now⟩
  | replaced rotation =>
      obtain ⟨hguard, hstep⟩ := Option.ite_none_right_eq_some.mp hstep
      cases hstep
      have hrotation := List.contains_iff_mem.mp (Bool.and_eq_true_iff.mp hguard).1
      exact ⟨_, hline.replaced hrotation hfits⟩
  | restarted created =>
      obtain ⟨hcreated, hstep⟩ := Option.ite_none_right_eq_some.mp hstep
      obtain ⟨past, key, hline, hseed, _⟩ := hline.loadOrCreateSeed hcreated
      cases hstep
      exact ⟨past, hline.restarted hseed⟩

theorem Lineage.bridged (hline : Lineage decodes guild past) : guild.Bridged decodes := by
  intro anchor hsigner hcap pinned hpinned
  rw [walkChain_eq pinned anchor hcap]
  obtain ⟨older, newer, hpast, hserved⟩ := hline.signer anchor hsigner
  rcases hserved pinned hpinned with holder | rfl
  · have hlinked := hline.linked
    have hnodup := hline.nodup
    rw [hpast] at hnodup
    rw [hpast, List.append_cons] at hlinked
    exact Walk.reaches_last hop_simple hnodup.of_append_left hlinked.left_of_append holder
      (Nat.le_succ _)
  · exact Walk.reaches_target _ _ _

end

/-- In a run where each seed is replaced by the first certificate that rotates from it, every
client that pinned an anchor of the guild comes to the one that is served. -/
theorem rotations_bridged (decodes : Anchor → Bool) (events : List RotationEvent)
    (hfits : meets (RotatingGuild.step decodes) RotatingGuild.fits .unseeded events = true) :
    Throughout (RotatingGuild.step decodes) .unseeded events (·.Bridged decodes) :=
  Throughout.of_step (fun guild => ∃ past, Lineage decodes guild past) hfits
    ⟨[], unseeded_lineage⟩ (fun _ _ _ ⟨_, hline⟩ hfits hstep => hline.step hfits hstep)
    fun _ ⟨_, hline⟩ => hline.bridged

/-- Key 1 is served, rotated to 2 and to 3, and 3 is served. -/
def rotatedTwice : List RotationEvent :=
  [.restarted 1, .loaded 8 2, .appended ⟨1, 2, false⟩ 0, .replaced ⟨1, 2, true⟩,
    .loaded 8 3, .appended ⟨2, 3, false⟩ 1, .replaced ⟨2, 3, true⟩, .restarted 9]

theorem rotations_bridged_twice :
    (runs (RotatingGuild.step fun _ => true) .unseeded rotatedTwice).any (fun guild =>
        guild.signer = some 3 ∧ 1 ∈ guild.served) = true ∧
      Throughout (RotatingGuild.step fun _ => true) .unseeded rotatedTwice
        (·.Bridged fun _ => true) :=
  ⟨by decide, rotations_bridged (fun _ => true) rotatedTwice (by decide)⟩

/-- The first run is cut short before it replaces the seed. -/
def cutShort : List RotationEvent :=
  [.restarted 1, .loaded 8 2, .appended ⟨1, 2, false⟩ 0,
    .loaded 8 3, .appended ⟨1, 3, false⟩ 1, .replaced ⟨1, 3, true⟩, .restarted 9]

/-- A client that pinned key 1 goes to key 2, and no further. -/
theorem dangling_locks_out :
    ¬ Throughout (RotatingGuild.step fun _ => true) .unseeded cutShort
      (·.Bridged fun _ => true) := by
  intro hall
  have hplay : (runs (RotatingGuild.step fun _ => true) .unseeded cutShort).any (fun guild =>
      guild.signer = some 3 ∧ 1 ∈ guild.served ∧ guild.chain.length ≤ MAX_ROTATION_CHAIN ∧
        walkChain (fun _ => true) 1 3 guild.chain = false) = true := by
    decide
  obtain ⟨guild, hrun, hend⟩ := (Option.any_eq_true _ _).mp hplay
  obtain ⟨hsigner, hpinned, hcap, hmisses⟩ := of_decide_eq_true hend
  have hwalks := hall cutShort guild (List.prefix_refl cutShort) hrun 3 hsigner hcap 1 hpinned
  rw [hmisses] at hwalks
  cases hwalks

end UnityLan.Coordinator
