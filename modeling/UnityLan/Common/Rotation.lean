import UnityLan.Common.Api
import UnityLan.Foundation.Walk

namespace UnityLan

open UnityLan.Foundation

/-! Trust-anchor rotation: the outgoing key signs its successor. -/

/-- `decodes` says which 32 bytes are a verifying key. -/
def anchorFromBytes (decodes : Anchor → Bool) (bytes : Anchor) : Option Anchor :=
  if decodes bytes then some bytes else none

def MAX_ROTATION_CHAIN : Nat := 64

namespace Rotation

/-- The anchor `current` vouches for next, if any. -/
def advance (currentKey current : Anchor) : List (Signed RotationCert) → Option Anchor
  | [] => none
  | signed :: rest =>
      match signed.verify currentKey with
      | .ok cert =>
          if cert.prevAnchor = current then some cert.newAnchor
          else advance currentKey current rest
      | .error _ => advance currentKey current rest

variable (decodes : Anchor → Bool)

def walkHops (target : Anchor) (chain : List (Signed RotationCert)) : Nat → Anchor → Bool
  | 0, current => current == target
  | hops + 1, current =>
      if current = target then true
      else
        match anchorFromBytes decodes current with
        | none => false
        | some currentKey =>
            match advance currentKey current chain with
            | none => false
            | some next => walkHops target chain hops next

def walkChain (pinned target : Anchor) (chain : List (Signed RotationCert)) : Bool :=
  if chain.length > MAX_ROTATION_CHAIN then false
  else walkHops decodes target chain (chain.length + 1) pinned

/-! What one certificate is worth to a client that trusts an anchor. -/

/-- Where the certificate takes a client that trusts `current`. -/
def hop (current : Anchor) (signed : Signed RotationCert) : Option Anchor :=
  if decodes current ∧ signed.signer = current ∧ signed.payload.prevAnchor = current then
    some signed.payload.newAnchor
  else none

structure Vouches (signed : Signed RotationCert) (first second : Anchor) : Prop where
  decodes : decodes first = true
  signer : signed.signer = first
  prevAnchor : signed.payload.prevAnchor = first
  newAnchor : signed.payload.newAnchor = second

def Rotates (chain : List (Signed RotationCert)) (first second : Anchor) : Prop :=
  ∃ signed ∈ chain, Vouches decodes signed first second

/-- Certificates lead from the pinned anchor to the target. -/
def Path (chain : List (Signed RotationCert)) : Anchor → Anchor → Prop :=
  Relation.ReflTransGen (Rotates decodes chain)

def Early (chain : List (Signed RotationCert)) (target first second : Anchor) : Prop :=
  first ≠ target ∧ Rotates decodes chain first second

/-- Certificates lead from the pinned anchor, past the target, to an anchor that has
no successor or that succeeds itself. -/
def Detour (chain : List (Signed RotationCert)) (target pinned : Anchor) : Prop :=
  ∃ stray, Relation.ReflTransGen (Early decodes chain target) pinned stray ∧ stray ≠ target ∧
    ((∀ next, ¬ Rotates decodes chain stray next) ∨
      Relation.TransGen (Early decodes chain target) stray stray)

variable {decodes}

theorem hop_eq_some {current next : Anchor} {signed : Signed RotationCert} :
    hop decodes current signed = some next ↔ Vouches decodes signed current next := by
  unfold hop
  constructor
  · intro hhop
    split at hhop
    · rename_i hvouches
      exact ⟨hvouches.1, hvouches.2.1, hvouches.2.2, Option.some.inj hhop⟩
    · cases hhop
  · intro hvouches
    rw [if_pos ⟨hvouches.decodes, hvouches.signer, hvouches.prevAnchor⟩, hvouches.newAnchor]

theorem hop_simple : Walk.Simple (hop decodes) := by
  intro signed first second hfirst hsecond
  obtain ⟨next, hnext⟩ := Option.isSome_iff_exists.mp hfirst
  obtain ⟨next', hnext'⟩ := Option.isSome_iff_exists.mp hsecond
  exact (hop_eq_some.mp hnext).signer.symm.trans (hop_eq_some.mp hnext').signer

theorem rotates_eq (chain : List (Signed RotationCert)) :
    Rotates decodes chain = Walk.Hop (hop decodes) chain := by
  funext first second
  unfold Rotates Walk.Hop
  simp only [hop_eq_some]

theorem path_eq (chain : List (Signed RotationCert)) :
    Path decodes chain = Walk.Path (hop decodes) chain := by
  unfold Path Walk.Path
  rw [rotates_eq]

theorem detour_eq (chain : List (Signed RotationCert)) :
    Detour decodes chain = Walk.Detour (hop decodes) chain := by
  have hearly : Early decodes chain = Walk.Early (hop decodes) chain := by
    unfold Early Walk.Early
    rw [rotates_eq]
  funext target pinned
  unfold Detour Walk.Detour
  rw [hearly, rotates_eq]

theorem advance_eq {current : Anchor} (hdecodes : decodes current = true)
    (chain : List (Signed RotationCert)) :
    advance current current chain = Walk.advance (hop decodes) chain current := by
  induction chain with
  | nil => rfl
  | cons signed rest ih =>
      unfold advance Walk.advance
      rw [List.findSome?_cons]
      by_cases hsigner : signed.signer = current
      · have hverify : signed.verify current = .ok signed.payload :=
          Signed.verify_ok.mpr ⟨hsigner, rfl⟩
        rw [hverify]
        by_cases hprev : signed.payload.prevAnchor = current
        · have hhop : hop decodes current signed = some signed.payload.newAnchor :=
            hop_eq_some.mpr ⟨hdecodes, hsigner, hprev, rfl⟩
          simp [hprev, hhop]
        · have hhop : hop decodes current signed = none := by simp [hop, hprev]
          simp [hprev, hhop, ih, Walk.advance]
      · have hverify : signed.verify current = .error .badSignature := by
          simp [Signed.verify, hsigner]
        have hhop : hop decodes current signed = none := by simp [hop, hsigner]
        simp [hverify, hhop, ih, Walk.advance]

theorem advance_undecoded {current : Anchor} (hdecodes : ¬ decodes current = true)
    (chain : List (Signed RotationCert)) :
    Walk.advance (hop decodes) chain current = none := by
  rw [Walk.advance_none]
  intro next hhop
  obtain ⟨signed, -, hnext⟩ := hhop
  exact hdecodes (hop_eq_some.mp hnext).decodes

theorem walkHops_eq (target : Anchor) (chain : List (Signed RotationCert)) (hops : Nat)
    (current : Anchor) :
    walkHops decodes target chain hops current =
      Walk.reaches (hop decodes) chain target hops current := by
  induction hops generalizing current with
  | zero => rfl
  | succ hops ih =>
      unfold walkHops Walk.reaches anchorFromBytes
      by_cases hmet : current = target
      · rw [if_pos hmet, if_pos hmet]
      · rw [if_neg hmet, if_neg hmet]
        by_cases hdecodes : decodes current = true
        · rw [if_pos hdecodes]
          simp only [advance_eq hdecodes, ih]
          cases Walk.advance (hop decodes) chain current with
          | none => rfl
          | some next => rfl
        · rw [if_neg hdecodes, advance_undecoded hdecodes]

theorem walkChain_eq (pinned target : Anchor) {chain : List (Signed RotationCert)}
    (hcap : chain.length ≤ MAX_ROTATION_CHAIN) :
    walkChain decodes pinned target chain =
      Walk.reaches (hop decodes) chain target (chain.length + 1) pinned := by
  unfold walkChain
  rw [if_neg (Nat.not_lt.mpr hcap), walkHops_eq]

theorem path_of_walkChain {pinned target : Anchor} {chain : List (Signed RotationCert)}
    (hwalks : walkChain decodes pinned target chain = true) : Path decodes chain pinned target := by
  rw [path_eq]
  unfold walkChain at hwalks
  split at hwalks
  · cases hwalks
  · rw [walkHops_eq] at hwalks
    exact Walk.path_of_reaches hwalks

theorem Path.perm {pinned target : Anchor} {chain chain' : List (Signed RotationCert)}
    (hperm : chain.Perm chain') :
    Path decodes chain pinned target ↔ Path decodes chain' pinned target := by
  rw [path_eq, path_eq]
  exact Walk.Path.perm hperm

theorem Path.mono {pinned target : Anchor} {chain chain' : List (Signed RotationCert)}
    (hsubset : chain ⊆ chain') (hpath : Path decodes chain pinned target) :
    Path decodes chain' pinned target := by
  refine Relation.ReflTransGen.mono ?_ _ _ hpath
  intro first second hrotates
  obtain ⟨signed, hsigned, hvouches⟩ := hrotates
  exact ⟨signed, hsubset hsigned, hvouches⟩

variable (decodes)

/-- The walk finds a path when there is one, in whatever order the certificates are. -/
structure Exact (pinned target : Anchor) (chain : List (Signed RotationCert)) : Prop where
  finds : walkChain decodes pinned target chain = true ↔ Path decodes chain pinned target
  ordered : ∀ chain', chain.Perm chain' →
    walkChain decodes pinned target chain' = walkChain decodes pinned target chain

/-- The walk is exact but where a path exists that a fork can lead away from. -/
theorem walkChain_exact {pinned target : Anchor} {chain : List (Signed RotationCert)}
    (hcap : chain.length ≤ MAX_ROTATION_CHAIN) :
    Exact decodes pinned target chain ↔
      (Path decodes chain pinned target → ¬ Detour decodes chain target pinned) := by
  have horders : (∀ chain', chain.Perm chain' → walkChain decodes pinned target chain' = true) ↔
      ¬ Detour decodes chain target pinned := by
    rw [detour_eq, ← Walk.reaches_every_order hop_simple (Nat.le_succ chain.length)]
    refine forall_congr' fun chain' => forall_congr' fun hperm => ?_
    rw [walkChain_eq pinned target (hperm.length_eq ▸ hcap), ← hperm.length_eq]
  constructor
  · intro hexact hpath
    apply horders.mp
    intro chain' hperm
    exact (hexact.ordered chain' hperm).trans (hexact.finds.mpr hpath)
  · intro hdirect
    by_cases hpath : Path decodes chain pinned target
    · have hevery := horders.mpr (hdirect hpath)
      have hwalks := hevery chain (.refl chain)
      refine ⟨⟨fun _ => hpath, fun _ => hwalks⟩, ?_⟩
      intro chain' hperm
      exact (hevery chain' hperm).trans hwalks.symm
    · have hmisses : ∀ chain', chain.Perm chain' →
          walkChain decodes pinned target chain' = false := by
        intro chain' hperm
        rw [Bool.eq_false_iff]
        intro hwalks
        exact hpath ((Path.perm hperm).mpr (path_of_walkChain hwalks))
      have hmiss := hmisses chain (.refl chain)
      refine ⟨⟨fun hwalks => ?_, fun hin => (hpath hin).elim⟩, ?_⟩
      · exact path_of_walkChain hwalks
      · intro chain' hperm
        exact (hmisses chain' hperm).trans hmiss.symm

def forked : List (Signed RotationCert) :=
  [.sign 1 ⟨1, 2, 0⟩, .sign 1 ⟨1, 3, 0⟩]

/-- A client pinned at 1 is not taken to 3, whose certificate is the second of two. -/
theorem walkChain_misses_fork :
    ¬ ∀ pinned target chain, chain.length ≤ MAX_ROTATION_CHAIN →
      Exact (fun _ => true) pinned target chain := by
  intro hclaim
  have hexact := hclaim 1 3 forked (by decide)
  have hwalks : walkChain (fun _ => true) 1 3 forked = true := by
    refine hexact.finds.mpr (Relation.ReflTransGen.single ⟨.sign 1 ⟨1, 3, 0⟩, ?_, ?_⟩)
    · exact List.mem_cons_of_mem _ (List.mem_cons_self ..)
    · exact ⟨rfl, rfl, rfl, rfl⟩
  have hmiss : walkChain (fun _ => true) 1 3 forked = false := by decide
  rw [hmiss] at hwalks
  cases hwalks

theorem walkChain_exact_hops :
    let chain := [Signed.sign 2 ⟨2, 3, 0⟩, Signed.sign 1 ⟨1, 2, 0⟩]
    chain.length ≤ MAX_ROTATION_CHAIN ∧ walkChain (fun _ => true) 1 3 chain = true ∧
      (Exact (fun _ => true) 1 3 chain ↔
        (Path (fun _ => true) chain 1 3 → ¬ Detour (fun _ => true) chain 3 1)) :=
  ⟨by decide, by decide, walkChain_exact (fun _ => true) (by decide)⟩

end Rotation

end UnityLan
