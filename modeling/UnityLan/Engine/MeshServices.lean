import UnityLan.Engine.Sinks
import UnityLan.Foundation.Places

namespace UnityLan.Engine

open UnityLan.Foundation

/-! Which claim on a name wins, whatever order the claims come in. -/

namespace Claim

def label (claim : Claim) : PubKey × String :=
  (claim.pubkey, claim.name)

def Lowest (claims : List Claim) (claim : Claim) : Prop :=
  ∀ other ∈ claims, other.hostname = claim.hostname → claim.pubkey ≤ other.pubkey

def Holder (claims : List Claim) (claim : Claim) : Prop :=
  ∃ before after, claims = before ++ claim :: after ∧
    (∀ other ∈ before, other.hostname = claim.hostname → claim.pubkey < other.pubkey) ∧
      ∀ other ∈ after, other.hostname = claim.hostname → claim.pubkey ≤ other.pubkey

section

variable {claims : List Claim} {held new : Claim}

theorem Holder.mem (hholder : Holder claims held) : held ∈ claims := by
  obtain ⟨before, after, rfl, -, -⟩ := hholder
  simp

theorem Holder.lowest (hholder : Holder claims held) : Lowest claims held := by
  obtain ⟨before, after, rfl, hbefore, hafter⟩ := hholder
  intro other hmem hhost
  rcases List.mem_append.mp hmem with hearlier | hrest
  · exact BitVec.le_of_lt (hbefore other hearlier hhost)
  · rcases List.mem_cons.mp hrest with rfl | hlater
    · exact BitVec.le_refl _
    · exact hafter other hlater hhost

theorem Holder.concat (hholder : Holder claims held)
    (hlower : new.hostname = held.hostname → held.pubkey ≤ new.pubkey) :
    Holder (claims ++ [new]) held := by
  obtain ⟨before, after, rfl, hbefore, hafter⟩ := hholder
  refine ⟨before, after ++ [new], by simp, hbefore, ?_⟩
  intro other hmem hhost
  rcases List.mem_append.mp hmem with hlater | hlast
  · exact hafter other hlater hhost
  · rw [List.mem_singleton.mp hlast] at hhost ⊢
    exact hlower hhost

theorem Holder.last
    (hlower : ∀ other ∈ claims, other.hostname = new.hostname → new.pubkey < other.pubkey) :
    Holder (claims ++ [new]) new :=
  ⟨claims, [], rfl, hlower, fun _ hnone => nomatch hnone⟩

end

/-- At its place a claim loses to a device's name, to an earlier claim whose key is no higher, or to
a later one whose key is lower. -/
def LosesAt (deviceNames : List String) (before : List Claim) (claim : Claim)
    (after : List Claim) : Prop :=
  claim.hostname ∈ deviceNames ∨
    (∃ other ∈ before, other.hostname = claim.hostname ∧ other.pubkey ≤ claim.pubkey) ∨
      ∃ other ∈ after, other.hostname = claim.hostname ∧ other.pubkey < claim.pubkey

theorem losesAt_concat {deviceNames : List String} {before after : List Claim}
    {claim new : Claim} :
    LosesAt deviceNames before claim (after ++ [new]) ↔
      LosesAt deviceNames before claim after ∨
        new.hostname = claim.hostname ∧ new.pubkey < claim.pubkey := by
  simp only [LosesAt, List.mem_append, List.mem_singleton]
  constructor
  · rintro (hdevice | hearlier | ⟨other, hlater | rfl, hother⟩)
    · exact .inl (.inl hdevice)
    · exact .inl (.inr (.inl hearlier))
    · exact .inl (.inr (.inr ⟨other, hlater, hother⟩))
    · exact .inr hother
  · rintro ((hdevice | hearlier | ⟨other, hlater, hother⟩) | hnew)
    · exact .inl hdevice
    · exact .inr (.inl hearlier)
    · exact .inr (.inr ⟨other, .inl hlater, hother⟩)
    · exact .inr (.inr ⟨new, .inr rfl, hnew⟩)

theorem Holder.loses {deviceNames : List String} {claims before after : List Claim}
    {held claim new : Claim} (hholder : Holder claims held) (hhost : new.hostname = held.hostname)
    (hplace : claims = before ++ claim :: after) (hclaim : new.hostname = claim.hostname)
    (hlower : new.pubkey < claim.pubkey) :
    LosesAt deviceNames before claim after ∨ claim = held ∧ new.pubkey < held.pubkey := by
  have hsame : held.hostname = claim.hostname := hhost.symm.trans hclaim
  have hmem : claim ∈ claims := by
    rw [hplace]
    simp
  have hlowest := hholder.lowest claim hmem hsame.symm
  obtain ⟨before', after', hholds, hbefore, hafter⟩ := hholder
  rcases place_trichotomy (hplace.symm.trans hholds) with ⟨hfirst, hheld⟩ | rfl | ⟨hheld, hlater⟩
  · have hless := hbefore claim hfirst hsame.symm
    exact .inl (.inr (.inr ⟨held, hheld, hsame, hless⟩))
  · exact .inr ⟨rfl, hlower⟩
  · exact .inl (.inr (.inl ⟨held, hheld, hsame, hlowest⟩))

end Claim

open Claim

structure Resolves (deviceNames : List String) (claims : List Claim) (done : Resolved) : Prop where
  held : ∀ {host claim}, done.names.get? host = some claim →
    claim.hostname = host ∧ host ∉ deviceNames ∧ Holder claims claim
  covered : ∀ {claim}, claim ∈ claims → claim.hostname ∉ deviceNames →
    ∃ held, done.names.get? claim.hostname = some held
  shadowed : ∀ label, label ∈ done.shadowed ↔
    ∃ before claim after, claims = before ++ claim :: after ∧
      claim.label = label ∧ LosesAt deviceNames before claim after

def resolveClaim (deviceNames : List String) (done : Resolved) (claim : Claim) : Resolved :=
  if deviceNames.contains claim.hostname then
    { done with shadowed := done.shadowed ++ [(claim.pubkey, claim.name)] }
  else
    match done.names.get? claim.hostname with
    | some held =>
        if held.pubkey ≤ claim.pubkey then
          { done with shadowed := done.shadowed ++ [(claim.pubkey, claim.name)] }
        else
          { names := done.names.insert claim.hostname claim
            shadowed := done.shadowed ++ [(held.pubkey, held.name)] }
    | none => { done with names := done.names.insert claim.hostname claim }

theorem resolve_eq (claims : List Claim) (deviceNames : List String) :
    resolve claims deviceNames = claims.foldl (resolveClaim deviceNames) {} :=
  rfl

section

variable {deviceNames : List String} {claims : List Claim} {done : Resolved} {new : Claim}

theorem Resolves.lost (hresolves : Resolves deviceNames claims done)
    (hloses : LosesAt deviceNames claims new [])
    (hholder : ∀ held, done.names.get? new.hostname = some held → held.pubkey ≤ new.pubkey)
    (hcovered : new.hostname ∉ deviceNames → ∃ held, done.names.get? new.hostname = some held) :
    Resolves deviceNames (claims ++ [new])
      { done with shadowed := done.shadowed ++ [(new.pubkey, new.name)] } where
  held := by
    intro host claim hget
    obtain ⟨hhost, hfree, hholds⟩ := hresolves.held hget
    refine ⟨hhost, hfree, hholds.concat fun hsame => hholder claim ?_⟩
    rw [hsame, hhost]
    exact hget
  covered := by
    intro claim hmem hfree
    rcases List.mem_append.mp hmem with hearlier | hlast
    · exact hresolves.covered hearlier hfree
    · rw [List.mem_singleton.mp hlast] at hfree ⊢
      exact hcovered hfree
  shadowed := by
    intro label
    dsimp only
    rw [List.mem_append, hresolves.shadowed, List.mem_singleton, exists_place_concat]
    constructor
    · rintro (⟨before, claim, after, hplace, hlabel, hold⟩ | rfl)
      · exact .inl ⟨before, claim, after, hplace, hlabel, losesAt_concat.mpr (.inl hold)⟩
      · exact .inr ⟨rfl, hloses⟩
    · rintro (⟨before, claim, after, hplace, hlabel, hnow⟩ | ⟨rfl, -⟩)
      · rcases losesAt_concat.mp hnow with hold | ⟨hhost, hlower⟩
        · exact .inl ⟨before, claim, after, hplace, hlabel, hold⟩
        · by_cases hdevice : new.hostname ∈ deviceNames
          · exact .inl ⟨before, claim, after, hplace, hlabel, .inl (hhost ▸ hdevice)⟩
          · obtain ⟨held, hget⟩ := hcovered hdevice
            obtain ⟨hheld, -, hholds⟩ := hresolves.held hget
            rcases hholds.loses hheld.symm hplace hhost hlower with hold | ⟨-, habove⟩
            · exact .inl ⟨before, claim, after, hplace, hlabel, hold⟩
            · exact absurd (hholder held hget) (BitVec.not_le.mpr habove)
      · exact .inr rfl

theorem Resolves.claim (hresolves : Resolves deviceNames claims done) (new : Claim) :
    Resolves deviceNames (claims ++ [new]) (resolveClaim deviceNames done new) := by
  unfold resolveClaim
  split
  · rename_i hdevice
    have hdevice : new.hostname ∈ deviceNames := List.contains_iff_mem.mp hdevice
    refine hresolves.lost (.inl hdevice) (fun held hget => ?_) fun hfree => (hfree hdevice).elim
    exact absurd hdevice (hresolves.held hget).2.1
  · rename_i hfree
    have hfree : new.hostname ∉ deviceNames := fun hmem => hfree (List.contains_iff_mem.mpr hmem)
    -- the holder of any other name is still its first
    have hothers : ∀ {host claim}, host ≠ new.hostname → done.names.get? host = some claim →
        claim.hostname = host ∧ host ∉ deviceNames ∧ Holder (claims ++ [new]) claim := by
      intro host claim hother hget
      obtain ⟨hhost, hfree', hholds⟩ := hresolves.held hget
      exact ⟨hhost, hfree', hholds.concat fun hsame => (hother (hsame.trans hhost).symm).elim⟩
    have hcovers : ∀ {claim}, claim ∈ claims ++ [new] → claim.hostname ∉ deviceNames →
        ∃ held, (done.names.insert new.hostname new).get? claim.hostname = some held := by
      intro claim hmem hclaim
      rw [Table.get?_insert]
      split
      · exact ⟨new, rfl⟩
      · rename_i hother
        rcases List.mem_append.mp hmem with hearlier | hlast
        · exact hresolves.covered hearlier hclaim
        · rw [List.mem_singleton.mp hlast] at hother
          exact (hother rfl).elim
    split
    · rename_i held hget
      obtain ⟨hheld, -, hholds⟩ := hresolves.held hget
      split
      · rename_i hlower
        refine hresolves.lost (.inr (.inl ⟨held, hholds.mem, hheld, hlower⟩)) ?_
          fun _ => ⟨held, hget⟩
        intro other hother
        rw [hget] at hother
        cases hother
        exact hlower
      · rename_i hhigher
        have hhigher := BitVec.not_le.mp hhigher
        refine ⟨?_, hcovers, ?_⟩
        · intro host claim hnow
          rw [Table.get?_insert] at hnow
          split at hnow
          · rename_i hhost
            cases hnow
            refine ⟨hhost.symm, hhost ▸ hfree, .last fun other hmem hsame => ?_⟩
            have hlowest := hholds.lowest other hmem (hsame.trans hheld.symm)
            bv_omega
          · rename_i hother
            exact hothers hother hnow
        · intro label
          dsimp only
          rw [List.mem_append, hresolves.shadowed, List.mem_singleton, exists_place_concat]
          constructor
          · rintro (⟨before, claim, after, hplace, hlabel, hold⟩ | rfl)
            · exact .inl ⟨before, claim, after, hplace, hlabel, losesAt_concat.mpr (.inl hold)⟩
            · obtain ⟨before, after, hplace, -, -⟩ := hholds
              exact .inl ⟨before, held, after, hplace, rfl,
                losesAt_concat.mpr (.inr ⟨hheld.symm, hhigher⟩)⟩
          · rintro (⟨before, claim, after, hplace, hlabel, hnow⟩ | ⟨-, hlast⟩)
            · rcases losesAt_concat.mp hnow with hold | ⟨hhost, hlower⟩
              · exact .inl ⟨before, claim, after, hplace, hlabel, hold⟩
              · rcases hholds.loses hheld.symm hplace hhost hlower with hold | ⟨rfl, -⟩
                · exact .inl ⟨before, claim, after, hplace, hlabel, hold⟩
                · exact .inr hlabel.symm
            · rcases hlast with hdevice | ⟨other, hmem, hsame, hlow⟩ | ⟨_, hnone, -⟩
              · exact (hfree hdevice).elim
              · have hlowest := hholds.lowest other hmem (hsame.trans hheld.symm)
                exact (BitVec.not_le.mpr hhigher (BitVec.le_trans hlowest hlow)).elim
              · cases hnone
    · rename_i hnone
      -- no claim on the name came before
      have hfresh : ∀ claim ∈ claims, claim.hostname ≠ new.hostname := by
        intro claim hmem hsame
        obtain ⟨held, hget⟩ := hresolves.covered hmem (hsame ▸ hfree)
        rw [hsame, hnone] at hget
        cases hget
      refine ⟨?_, hcovers, ?_⟩
      · intro host claim hnow
        dsimp only at hnow
        rw [Table.get?_insert] at hnow
        split at hnow
        · rename_i hhost
          cases hnow
          exact ⟨hhost.symm, hhost ▸ hfree, .last fun other hmem hsame =>
            (hfresh other hmem hsame).elim⟩
        · rename_i hother
          exact hothers hother hnow
      · intro label
        dsimp only
        rw [hresolves.shadowed, exists_place_concat]
        constructor
        · rintro ⟨before, claim, after, hplace, hlabel, hold⟩
          exact .inl ⟨before, claim, after, hplace, hlabel, losesAt_concat.mpr (.inl hold)⟩
        · rintro (⟨before, claim, after, hplace, hlabel, hnow⟩ | ⟨-, hlast⟩)
          · rcases losesAt_concat.mp hnow with hold | ⟨hhost, -⟩
            · exact ⟨before, claim, after, hplace, hlabel, hold⟩
            · exact (hfresh claim (by rw [hplace]; simp) hhost.symm).elim
          · rcases hlast with hdevice | ⟨other, hmem, hsame, -⟩ | ⟨_, hnone, -⟩
            · exact (hfree hdevice).elim
            · exact (hfresh other hmem hsame).elim
            · cases hnone

end

theorem resolve_resolves (claims : List Claim) (deviceNames : List String) :
    Resolves deviceNames claims (resolve claims deviceNames) := by
  rw [resolve_eq]
  induction claims using List.reverseRecOn with
  | nil =>
      constructor
      · intro host claim hget
        cases hget
      · intro claim hmem
        cases hmem
      · simp
  | append_singleton earlier claim ih =>
      rw [List.foldl_append, List.foldl_cons, List.foldl_nil]
      exact ih.claim claim

/-! What the names are for, whatever the order. -/

structure Claim.Owns (deviceNames : List String) (claims : List Claim) (claim : Claim) : Prop where
  free : claim.hostname ∉ deviceNames
  lowest : Lowest claims claim

def Resolved.address (resolved : Resolved) (host : String) : Option Ipv4Addr :=
  (resolved.names.get? host).map Claim.ip

structure Awards (deviceNames : List String) (claims : List Claim) (resolved : Resolved) :
    Prop where
  names : ∀ host ip, resolved.address host = some ip ↔
    ∃ claim ∈ claims, claim.hostname = host ∧ claim.Owns deviceNames claims ∧ claim.ip = ip
  shadowed : ∀ label, label ∈ resolved.shadowed ↔
    ∃ claim ∈ claims, claim.label = label ∧ ¬ claim.Owns deviceNames claims

/-- What the claims come to is the same in every order, and with a higher key besides. -/
structure Arbitrates (deviceNames : List String) (claims : List Claim) : Prop where
  awards : Awards deviceNames claims (resolve claims deviceNames)
  ordered : ∀ claims', claims'.Perm claims →
    (∀ host, (resolve claims' deviceNames).address host =
      (resolve claims deviceNames).address host) ∧
    ∀ label, label ∈ (resolve claims' deviceNames).shadowed ↔
      label ∈ (resolve claims deviceNames).shadowed
  stable : ∀ before after new held, claims = before ++ after →
    (resolve claims deviceNames).names.get? new.hostname = some held →
      held.pubkey < new.pubkey →
        ∀ host, (resolve (before ++ new :: after) deviceNames).address host =
          (resolve claims deviceNames).address host

def Claim.Shadowed (deviceNames : List String) (claims : List Claim) (claim : Claim) : Prop :=
  ∃ other ∈ claims, other.label = claim.label ∧ ¬ other.Owns deviceNames claims

/-- Whoever owns a name claims it once, or under labels that it loses elsewhere. -/
def ClaimedOnce (deviceNames : List String) (claims : List Claim) : Prop :=
  claims.Pairwise fun first second => first.hostname = second.hostname →
    first.pubkey = second.pubkey → first.Owns deviceNames claims →
      first.ip = second.ip ∧ first.Shadowed deviceNames claims ∧ second.Shadowed deviceNames claims

section

variable {deviceNames : List String} {claims claims' : List Claim} {first second new held : Claim}

theorem Claim.Owns.congr (howns : first.Owns deviceNames claims)
    (hhost : first.hostname = second.hostname) (hkey : first.pubkey = second.pubkey) :
    second.Owns deviceNames claims := by
  refine ⟨hhost ▸ howns.free, fun other hmem hother => ?_⟩
  rw [← hkey]
  exact howns.lowest other hmem (hother.trans hhost.symm)

theorem Claim.Owns.of_subset (hsubset : claims ⊆ claims')
    (howns : first.Owns deviceNames claims') : first.Owns deviceNames claims :=
  ⟨howns.free, fun other hmem => howns.lowest other (hsubset hmem)⟩

theorem Claim.owns_perm (hperm : claims'.Perm claims) :
    first.Owns deviceNames claims' ↔ first.Owns deviceNames claims :=
  ⟨.of_subset hperm.symm.subset, .of_subset hperm.subset⟩

theorem Claim.Shadowed.mono (hsubset : claims ⊆ claims')
    (hshadowed : first.Shadowed deviceNames claims) : first.Shadowed deviceNames claims' := by
  obtain ⟨other, hmem, hlabel, hbeaten⟩ := hshadowed
  exact ⟨other, hsubset hmem, hlabel, fun howns => hbeaten (howns.of_subset hsubset)⟩

theorem ClaimedOnce.forall (honce : ClaimedOnce deviceNames claims) (hfirst : first ∈ claims)
    (hsecond : second ∈ claims) (hhost : first.hostname = second.hostname)
    (hkey : first.pubkey = second.pubkey) (howns : first.Owns deviceNames claims) :
    first.ip = second.ip := by
  have hplaces := pairwise_iff_places.mp honce
  obtain ⟨before, after, hplace⟩ := List.append_of_mem hfirst
  obtain ⟨before', after', hplace'⟩ := List.append_of_mem hsecond
  rcases place_trichotomy (hplace.symm.trans hplace') with ⟨hearlier, -⟩ | rfl | ⟨hearlier, -⟩
  · exact (hplaces before' second after' hplace' first hearlier hhost hkey howns).1
  · rfl
  · exact (hplaces before first after hplace second hearlier hhost.symm hkey.symm
      (howns.congr hhost hkey)).1.symm

theorem ClaimedOnce.perm (hperm : claims'.Perm claims) (honce : ClaimedOnce deviceNames claims) :
    ClaimedOnce deviceNames claims' := by
  unfold ClaimedOnce
  rw [hperm.pairwise_iff]
  · refine honce.imp fun hpair hhost hkey howns => ?_
    obtain ⟨hip, hshadowed, hshadowed'⟩ := hpair hhost hkey ((owns_perm hperm).mp howns)
    exact ⟨hip, hshadowed.mono hperm.symm.subset, hshadowed'.mono hperm.symm.subset⟩
  · intro first second hpair hhost hkey howns
    obtain ⟨hip, hshadowed, hshadowed'⟩ := hpair hhost.symm hkey.symm (howns.congr hhost hkey)
    exact ⟨hip.symm, hshadowed', hshadowed⟩

theorem ClaimedOnce.cons (honce : ClaimedOnce deviceNames claims) (hheld : held ∈ claims)
    (hhost : held.hostname = new.hostname) (hlower : held.pubkey < new.pubkey) :
    ClaimedOnce deviceNames (new :: claims) := by
  refine List.pairwise_cons.mpr ⟨?_, ?_⟩
  · intro other hmem hsame hkey howns
    have hlowest := howns.lowest held (List.mem_cons_of_mem _ hheld) hhost
    exact absurd hlower (BitVec.not_lt.mpr hlowest)
  · refine honce.imp fun hpair hhost hkey howns => ?_
    have hsubset := List.subset_cons_self new claims
    obtain ⟨hip, hshadowed, hshadowed'⟩ := hpair hhost hkey (howns.of_subset hsubset)
    exact ⟨hip, hshadowed.mono hsubset, hshadowed'.mono hsubset⟩

theorem awards_of_claimedOnce (honce : ClaimedOnce deviceNames claims) :
    Awards deviceNames claims (resolve claims deviceNames) := by
  have hresolves := resolve_resolves claims deviceNames
  constructor
  · intro host ip
    unfold Resolved.address
    rw [Option.map_eq_some_iff]
    constructor
    · rintro ⟨held, hget, rfl⟩
      obtain ⟨hhost, hfree, hholder⟩ := hresolves.held hget
      exact ⟨held, hholder.mem, hhost, ⟨hhost ▸ hfree, hholder.lowest⟩, rfl⟩
    · rintro ⟨claim, hmem, rfl, howns, rfl⟩
      obtain ⟨held, hget⟩ := hresolves.covered hmem howns.free
      obtain ⟨hhost, -, hholder⟩ := hresolves.held hget
      have hkey : claim.pubkey = held.pubkey :=
        BitVec.le_antisymm (howns.lowest held hholder.mem hhost)
          (hholder.lowest claim hmem hhost.symm)
      exact ⟨held, hget, (honce.forall hmem hholder.mem hhost.symm hkey howns).symm⟩
  · intro label
    rw [hresolves.shadowed]
    constructor
    · rintro ⟨before, claim, after, hplace, rfl, hloses⟩
      have hmem : claim ∈ claims := by
        rw [hplace]
        simp
      by_cases howns : claim.Owns deviceNames claims
      · rcases hloses with
          hdevice | ⟨other, hearlier, hhost, hlower⟩ | ⟨other, hlater, hhost, hlower⟩
        · exact (howns.free hdevice).elim
        · have hother : other ∈ claims := by
            rw [hplace]
            exact List.mem_append_left _ hearlier
          have hkey := BitVec.le_antisymm hlower (howns.lowest other hother hhost)
          have hpair := pairwise_iff_places.mp honce before claim after hplace other hearlier
          exact (hpair hhost hkey (howns.congr hhost.symm hkey.symm)).2.2
        · have hother : other ∈ claims := by
            rw [hplace]
            exact List.mem_append_right _ (List.mem_cons_of_mem _ hlater)
          exact absurd hlower (BitVec.not_lt.mpr (howns.lowest other hother hhost))
      · exact ⟨claim, hmem, rfl, howns⟩
    · rintro ⟨claim, hmem, hlabel, hbeaten⟩
      obtain ⟨before, after, hplace⟩ := List.append_of_mem hmem
      refine ⟨before, claim, after, hplace, hlabel, ?_⟩
      by_cases hdevice : claim.hostname ∈ deviceNames
      · exact .inl hdevice
      · have hlowest : ¬ Lowest claims claim := fun hlowest => hbeaten ⟨hdevice, hlowest⟩
        unfold Lowest at hlowest
        push Not at hlowest
        obtain ⟨other, hother, hhost, hlower⟩ := hlowest
        have hlower := BitVec.not_le.mp hlower
        rw [hplace] at hother
        rcases List.mem_append.mp hother with hearlier | hrest
        · exact .inr (.inl ⟨other, hearlier, hhost, BitVec.le_of_lt hlower⟩)
        · rcases List.mem_cons.mp hrest with rfl | hlater
          · exact (BitVec.lt_irrefl _ hlower).elim
          · exact .inr (.inr ⟨other, hlater, hhost, hlower⟩)

end

/-- The claims are arbitrated as they should be when whoever owns a name claims it once. -/
theorem resolve_arbitrates (claims : List Claim) (deviceNames : List String) :
    Arbitrates deviceNames claims ↔ ClaimedOnce deviceNames claims := by
  constructor
  · intro harbitrates
    have hshadowed : ∀ {list : List Claim} {before claim after other}, list.Perm claims →
        list = before ++ claim :: after → other ∈ before → other.hostname = claim.hostname →
          other.pubkey = claim.pubkey → claim.Shadowed deviceNames claims := by
      intro list before claim after other hperm hplace hearlier hhost hkey
      have hloses : claim.label ∈ (resolve list deviceNames).shadowed :=
        ((resolve_resolves list deviceNames).shadowed _).mpr ⟨before, claim, after, hplace, rfl,
          .inr (.inl ⟨other, hearlier, hhost, hkey ▸ BitVec.le_refl _⟩)⟩
      exact (harbitrates.awards.shadowed _).mp (((harbitrates.ordered list hperm).2 _).mp hloses)
    refine pairwise_iff_places.mpr ?_
    intro before second after hplace first hfirst hhost hkey howns
    have hfirst' : first ∈ claims := by
      rw [hplace]
      exact List.mem_append_left _ hfirst
    have hsecond : second ∈ claims := by
      rw [hplace]
      simp
    refine ⟨?_, ?_, hshadowed (.refl _) hplace hfirst hhost hkey⟩
    · have hip := (harbitrates.awards.names first.hostname first.ip).mpr
        ⟨first, hfirst', rfl, howns, rfl⟩
      have hip' := (harbitrates.awards.names first.hostname second.ip).mpr
        ⟨second, hsecond, hhost.symm, howns.congr hhost hkey, rfl⟩
      exact Option.some.inj (hip.symm.trans hip')
    · -- the other way round the first is the later one
      obtain ⟨front, back, hback⟩ := List.append_of_mem (List.mem_reverse.mpr hfirst)
      have hreversed : claims.reverse = (after.reverse ++ second :: front) ++ first :: back := by
        rw [hplace, List.reverse_append, List.reverse_cons, hback]
        simp
      exact hshadowed (List.reverse_perm _) hreversed (by simp) hhost.symm hkey.symm
  · intro honce
    have hawards := awards_of_claimedOnce honce
    refine ⟨hawards, fun claims' hperm => ?_, ?_⟩
    · have hawards' := awards_of_claimedOnce (honce.perm hperm)
      refine ⟨fun host => Option.ext fun ip => ?_, fun label => ?_⟩
      · rw [hawards'.names, hawards.names]
        simp only [hperm.mem_iff, owns_perm hperm]
      · rw [hawards'.shadowed, hawards.shadowed]
        simp only [hperm.mem_iff, owns_perm hperm]
    · intro before after new held hplace hget hlower host
      obtain ⟨hhost, -, hholder⟩ := (resolve_resolves claims deviceNames).held hget
      have hperm : (before ++ new :: after).Perm (new :: claims) := by
        rw [hplace]
        exact List.perm_middle
      have hawards' := awards_of_claimedOnce
        ((honce.cons hholder.mem hhost hlower).perm hperm)
      have hbeaten : ¬ new.Owns deviceNames (new :: claims) := by
        intro howns
        have hlowest := howns.lowest held (List.mem_cons_of_mem _ hholder.mem) hhost
        exact absurd hlower (BitVec.not_lt.mpr hlowest)
      refine Option.ext fun ip => ?_
      rw [hawards'.names, hawards.names]
      simp only [hperm.mem_iff, owns_perm hperm]
      constructor
      · rintro ⟨claim, hmem, hclaim, howns, hip⟩
        rcases List.mem_cons.mp hmem with rfl | hold
        · exact (hbeaten howns).elim
        · exact ⟨claim, hold, hclaim, howns.of_subset (List.subset_cons_self _ _), hip⟩
      · rintro ⟨claim, hmem, hclaim, howns, hip⟩
        refine ⟨claim, List.mem_cons_of_mem _ hmem, hclaim, ⟨howns.free, ?_⟩, hip⟩
        intro other hother hsame
        rcases List.mem_cons.mp hother with rfl | hold
        · have hlowest := howns.lowest held hholder.mem (hhost.trans hsame)
          bv_omega
        · exact howns.lowest other hold hsame

def twoProtocols : List Claim :=
  [(⟨"mc", .tcp, 25565, .port⟩ : Fw.MeshService), ⟨"mc", .udp, 25565, .port⟩].map
    (claim 1 "alice" 0x64400001#32)

/-- A name that nobody else claims is shown as lost. -/
theorem owner_shadowed :
    ¬ ∀ (claims : List Claim) (deviceNames : List String), Arbitrates deviceNames claims := by
  intro hclaim
  have hlost : ((1, "mc") : PubKey × String) ∈ (resolve twoProtocols []).shadowed := by
    decide
  obtain ⟨claim, hmem, -, hbeaten⟩ :=
    ((hclaim twoProtocols []).awards.shadowed (1, "mc")).mp hlost
  have hkey : ∀ other ∈ twoProtocols, other.pubkey = 1 := by
    decide
  refine hbeaten ⟨List.not_mem_nil, fun other hother _ => ?_⟩
  rw [hkey other hother, hkey claim hmem]
  exact BitVec.le_refl _

end UnityLan.Engine
