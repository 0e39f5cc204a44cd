import Mathlib.Data.List.Chain
import Mathlib.Data.List.Nodup
import Mathlib.Data.List.Perm.Subperm
import Mathlib.Logic.Relation

namespace UnityLan.Foundation

/-! Walks that leave each node by the first edge of a list that leaves it. -/

namespace Walk

variable {ν ε : Type} (hop : ν → ε → Option ν)

def advance (edges : List ε) (node : ν) : Option ν :=
  edges.findSome? (hop node)

/-- Whether the walk meets the target within `fuel` edges. -/
def reaches [DecidableEq ν] (edges : List ε) (target : ν) : Nat → ν → Bool
  | 0, node => node == target
  | fuel + 1, node =>
      if node = target then true
      else
        match advance hop edges node with
        | none => false
        | some next => reaches edges target fuel next

def Hop (edges : List ε) (first second : ν) : Prop :=
  ∃ edge ∈ edges, hop first edge = some second

def Path (edges : List ε) : ν → ν → Prop :=
  Relation.ReflTransGen (Hop hop edges)

def Early (edges : List ε) (target first second : ν) : Prop :=
  first ≠ target ∧ Hop hop edges first second

def Detour (edges : List ε) (target start : ν) : Prop :=
  ∃ stray, Relation.ReflTransGen (Early hop edges target) start stray ∧ stray ≠ target ∧
    ((∀ next, ¬ Hop hop edges stray next) ∨
      Relation.TransGen (Early hop edges target) stray stray)

def Simple : Prop :=
  ∀ edge first second, (hop first edge).isSome → (hop second edge).isSome → first = second

variable {hop}

theorem hop_of_advance {edges : List ε} {node next : ν}
    (hadvance : advance hop edges node = some next) : Hop hop edges node next :=
  List.exists_of_findSome?_eq_some hadvance

theorem advance_none {edges : List ε} {node : ν} :
    advance hop edges node = none ↔ ∀ next, ¬ Hop hop edges node next := by
  unfold advance Hop
  rw [List.findSome?_eq_none_iff]
  constructor
  · intro hnone next hhop
    obtain ⟨edge, hedge, hnext⟩ := hhop
    rw [hnone edge hedge] at hnext
    cases hnext
  · intro hnone edge hedge
    cases hnext : hop node edge with
    | none => rfl
    | some next => exact (hnone next ⟨edge, hedge, hnext⟩).elim

theorem Hop.perm {edges edges' : List ε} {first second : ν} (hperm : edges.Perm edges') :
    Hop hop edges first second ↔ Hop hop edges' first second := by
  unfold Hop
  simp only [hperm.mem_iff]

theorem Path.perm {edges edges' : List ε} {start target : ν} (hperm : edges.Perm edges') :
    Path hop edges start target ↔ Path hop edges' start target := by
  have hhops : Hop hop edges = Hop hop edges' := by
    funext first second
    exact propext (Hop.perm hperm)
  unfold Path
  rw [hhops]

theorem Early.perm {edges edges' : List ε} (target : ν) (hperm : edges.Perm edges') :
    Early hop edges target = Early hop edges' target := by
  funext first second
  exact propext (and_congr_right fun _ => Hop.perm hperm)

theorem Detour.perm {edges edges' : List ε} {target start : ν} (hperm : edges.Perm edges')
    (hdetour : Detour hop edges target start) : Detour hop edges' target start := by
  obtain ⟨stray, hreach, hstray, hlost⟩ := hdetour
  rw [Early.perm target hperm] at hreach hlost
  refine ⟨stray, hreach, hstray, hlost.imp_left ?_⟩
  intro hend next hhop
  exact hend next ((Hop.perm hperm).mpr hhop)

theorem length_le_of_leaving (hsimple : Simple hop) {edges : List ε} {nodes : List ν}
    (hnodup : nodes.Nodup) (hleave : ∀ node ∈ nodes, ∃ next, Hop hop edges node next) :
    nodes.length ≤ edges.length := by
  have hpick : ∀ node : ν, ∃ edge : Option ε, node ∈ nodes →
      ∃ taken ∈ edges, edge = some taken ∧ (hop node taken).isSome := by
    intro node
    by_cases hmem : node ∈ nodes
    · obtain ⟨next, taken, htaken, hnext⟩ := hleave node hmem
      exact ⟨some taken, fun _ => ⟨taken, htaken, rfl, by rw [hnext]; rfl⟩⟩
    · exact ⟨none, fun hin => (hmem hin).elim⟩
  choose pick hpicked using hpick
  have hdistinct : (nodes.map pick).Nodup := by
    refine List.Nodup.map_on ?_ hnodup
    intro first hfirst second hsecond hsame
    obtain ⟨taken, -, hpick₁, hleaves₁⟩ := hpicked first hfirst
    obtain ⟨taken', -, hpick₂, hleaves₂⟩ := hpicked second hsecond
    have htaken : taken = taken' := Option.some.inj (hpick₁.symm.trans (hsame.trans hpick₂))
    rw [← htaken] at hleaves₂
    exact hsimple taken first second hleaves₁ hleaves₂
  have hsubset : nodes.map pick ⊆ edges.map some := by
    intro edge hedge
    obtain ⟨node, hnode, rfl⟩ := List.mem_map.mp hedge
    obtain ⟨taken, htaken, hpick, -⟩ := hpicked node hnode
    rw [hpick]
    exact List.mem_map_of_mem htaken
  have hle := (List.subperm_of_subset hdistinct hsubset).length_le
  simpa using hle

theorem leaves_of_isChain {edges : List ε} {nodes : List ν} {target node : ν}
    (hlinked : (nodes ++ [target]).IsChain fun first second =>
      advance hop edges first = some second) (hnode : node ∈ nodes) :
    ∃ next, Hop hop edges node next := by
  obtain ⟨before, after, rfl⟩ := List.append_of_mem hnode
  rw [List.append_assoc] at hlinked
  have hrest := hlinked.right_of_append
  cases after with
  | nil => exact ⟨target, hop_of_advance (List.isChain_cons_cons.mp hrest).1⟩
  | cons next after => exact ⟨next, hop_of_advance (List.isChain_cons_cons.mp hrest).1⟩

private theorem not_target_of_stray {edges : List ε} {target node stray : ν}
    (hstray : stray ≠ target)
    (hreach : Relation.ReflTransGen (Early hop edges target) node stray) : node ≠ target := by
  rcases hreach.cases_head with rfl | ⟨next, hhop, -⟩
  · exact hstray
  · exact hhop.1

section Decidable

variable [DecidableEq ν]

theorem reaches_target (edges : List ε) (target : ν) (fuel : Nat) :
    reaches hop edges target fuel target = true := by
  cases fuel with
  | zero => simp [reaches]
  | succ fuel => simp [reaches]

theorem reaches_of_isChain {edges : List ε} {nodes : List ν} {target node : ν} {fuel : Nat}
    (hlinked : (node :: (nodes ++ [target])).IsChain fun first second =>
      advance hop edges first = some second) (hfuel : nodes.length < fuel) :
    reaches hop edges target fuel node = true := by
  induction nodes generalizing node fuel with
  | nil =>
      obtain ⟨fuel, rfl⟩ := Nat.exists_eq_succ_of_ne_zero (Nat.ne_of_gt hfuel)
      unfold reaches
      split
      · rfl
      · rw [(List.isChain_cons_cons.mp hlinked).1]
        exact reaches_target edges target fuel
  | cons next nodes ih =>
      obtain ⟨fuel, rfl⟩ := Nat.exists_eq_succ_of_ne_zero (Nat.ne_of_gt (Nat.zero_lt_of_lt hfuel))
      obtain ⟨hadvance, hrest⟩ := List.isChain_cons_cons.mp hlinked
      unfold reaches
      split
      · rfl
      · rw [hadvance]
        exact ih hrest (Nat.lt_of_succ_lt_succ hfuel)

theorem reaches_last (hsimple : Simple hop) {edges : List ε} {nodes : List ν} {target node : ν}
    (hnodup : nodes.Nodup)
    (hlinked : (nodes ++ [target]).IsChain fun first second =>
      advance hop edges first = some second) (hnode : node ∈ nodes) {fuel : Nat}
    (hfuel : edges.length ≤ fuel) : reaches hop edges target fuel node = true := by
  have hlength : nodes.length ≤ edges.length :=
    length_le_of_leaving hsimple hnodup fun _ hmem => leaves_of_isChain hlinked hmem
  obtain ⟨before, after, rfl⟩ := List.append_of_mem hnode
  rw [List.append_assoc] at hlinked
  refine reaches_of_isChain hlinked.right_of_append ?_
  rw [List.length_append, List.length_cons] at hlength
  omega

theorem path_of_reaches {edges : List ε} {target node : ν} {fuel : Nat}
    (hreaches : reaches hop edges target fuel node = true) : Path hop edges node target := by
  induction fuel generalizing node with
  | zero =>
      have hmet : node = target := by simpa [reaches] using hreaches
      rw [hmet]
      exact Relation.ReflTransGen.refl
  | succ fuel ih =>
      unfold reaches at hreaches
      split at hreaches
      · rename_i hmet
        rw [hmet]
        exact Relation.ReflTransGen.refl
      · split at hreaches
        · cases hreaches
        · rename_i next hadvance
          have hhop := hop_of_advance hadvance
          exact Relation.ReflTransGen.head hhop (ih hreaches)

/-- A walk that has been through `visited` without a detour still meets the target. -/
private theorem reaches_from (hsimple : Simple hop) {edges : List ε} {target start : ν}
    (hdirect : ¬ Detour hop edges target start) {fuel : Nat} {node : ν} {visited : List ν}
    (hfuel : edges.length ≤ visited.length + fuel)
    (hreach : Relation.ReflTransGen (Early hop edges target) start node)
    (hnodup : visited.Nodup)
    (hvisited : ∀ earlier ∈ visited, (∃ next, Hop hop edges earlier next) ∧
      Relation.TransGen (Early hop edges target) earlier node) :
    reaches hop edges target fuel node = true := by
  induction fuel generalizing node visited with
  | zero =>
      by_cases hmet : node = target
      · simp [reaches, hmet]
      · exfalso
        have hnew : node ∉ visited := by
          intro hin
          exact hdirect ⟨node, hreach, hmet, .inr (hvisited node hin).2⟩
        have hleaves : ∃ next, Hop hop edges node next := by
          by_contra hend
          exact hdirect ⟨node, hreach, hmet, .inl (not_exists.mp hend)⟩
        have hall : ∀ each ∈ node :: visited, ∃ next, Hop hop edges each next := by
          intro each heach
          rcases List.mem_cons.mp heach with rfl | hin
          · exact hleaves
          · exact (hvisited each hin).1
        have hlength := length_le_of_leaving hsimple (List.nodup_cons.mpr ⟨hnew, hnodup⟩) hall
        rw [List.length_cons] at hlength
        omega
  | succ fuel ih =>
      unfold reaches
      by_cases hmet : node = target
      · rw [if_pos hmet]
      · rw [if_neg hmet]
        have hnew : node ∉ visited := by
          intro hin
          exact hdirect ⟨node, hreach, hmet, .inr (hvisited node hin).2⟩
        cases hadvance : advance hop edges node with
        | none => exact (hdirect ⟨node, hreach, hmet, .inl (advance_none.mp hadvance)⟩).elim
        | some next =>
            have hhop := hop_of_advance hadvance
            have hearly : Early hop edges target node next := ⟨hmet, hhop⟩
            refine ih ?_ (hreach.tail hearly)
              (List.nodup_cons.mpr ⟨hnew, hnodup⟩) ?_
            · rw [List.length_cons]
              omega
            · intro earlier hearlier
              rcases List.mem_cons.mp hearlier with rfl | hin
              · exact ⟨⟨next, hhop⟩, .single hearly⟩
              · exact ⟨(hvisited earlier hin).1, (hvisited earlier hin).2.tail hearly⟩

theorem reaches_of_direct (hsimple : Simple hop) {edges : List ε} {target start : ν} {fuel : Nat}
    (hfuel : edges.length ≤ fuel) (hdirect : ¬ Detour hop edges target start) :
    reaches hop edges target fuel start = true := by
  refine reaches_from hsimple hdirect (by simpa using hfuel) .refl
    List.nodup_nil ?_
  intro earlier hearlier
  cases hearlier

theorem exists_order_missing (hsimple : Simple hop) {edges : List ε} {target start : ν}
    (hdetour : Detour hop edges target start) :
    ∃ edges', edges.Perm edges' ∧ ∀ fuel, reaches hop edges' target fuel start = false := by
  classical
  obtain ⟨stray, hstart, hstray, hlost⟩ := hdetour
  let strays (node : ν) : Prop := Relation.ReflTransGen (Early hop edges target) node stray
  let leads (edge : ε) : Bool := decide
    (∃ first second, hop first edge = some second ∧ strays second)
  have hleads : ∀ {edge first second}, hop first edge = some second →
      leads edge = true → strays second := by
    intro edge first second hhop hlead
    obtain ⟨first', second', hhop', hstrays⟩ := of_decide_eq_true hlead
    have hsame := hsimple edge first' first (by rw [hhop']; rfl) (by rw [hhop]; rfl)
    rw [hsame, hhop] at hhop'
    rw [Option.some.inj hhop']
    exact hstrays
  have hperm : edges.Perm (edges.filter leads ++ edges.filter (fun edge => !leads edge)) :=
    (List.filter_append_perm leads edges).symm
  refine ⟨_, hperm, ?_⟩
  have hstep : ∀ node, strays node → ∀ next, advance hop
      (edges.filter leads ++ edges.filter (fun edge => !leads edge)) node = some next →
        strays next := by
    intro node hnode next hadvance
    have honward : ∃ edge ∈ edges, ∃ second, hop node edge = some second ∧ strays second := by
      rcases hnode.cases_head with rfl | ⟨second, ⟨-, edge, hedge, hhop⟩, hrest⟩
      · rcases hlost with hend | hcycle
        · exact (hend next ((Hop.perm hperm).mpr (hop_of_advance hadvance))).elim
        · obtain ⟨second, ⟨-, edge, hedge, hhop⟩, hrest⟩ :=
            Relation.TransGen.head'_iff.mp hcycle
          exact ⟨edge, hedge, second, hhop, hrest⟩
      · exact ⟨edge, hedge, second, hhop, hrest⟩
    obtain ⟨edge, hedge, second, hhop, hrest⟩ := honward
    have hin : edge ∈ edges.filter leads :=
      List.mem_filter.mpr ⟨hedge, decide_eq_true ⟨node, second, hhop, hrest⟩⟩
    have hfound : (advance hop (edges.filter leads) node).isSome := by
      cases hnone : advance hop (edges.filter leads) node with
      | none => exact (advance_none.mp hnone second ⟨edge, hin, hhop⟩).elim
      | some other => rfl
    obtain ⟨other, hother⟩ := Option.isSome_iff_exists.mp hfound
    have hsame : other = next := by
      unfold advance at hadvance hother
      rw [List.findSome?_append, hother] at hadvance
      exact Option.some.inj hadvance
    obtain ⟨taken, htaken, htook⟩ := hop_of_advance hother
    rw [← hsame]
    exact hleads htook (List.mem_filter.mp htaken).2
  intro fuel
  have hstrays : strays start := hstart
  clear hstart
  induction fuel generalizing start with
  | zero => simpa [reaches] using not_target_of_stray hstray hstrays
  | succ fuel ih =>
      unfold reaches
      rw [if_neg (not_target_of_stray hstray hstrays)]
      split
      · rfl
      · rename_i next hadvance
        exact ih (hstep start hstrays next hadvance)

/-- The walk meets a target at the end of a path, whatever the order of the edges,
exactly when there is no detour. -/
theorem reaches_every_order (hsimple : Simple hop) {edges : List ε} {target start : ν}
    {fuel : Nat} (hfuel : edges.length ≤ fuel) :
    (∀ edges', edges.Perm edges' → reaches hop edges' target fuel start = true) ↔
      ¬ Detour hop edges target start := by
  constructor
  · intro hevery hdetour
    obtain ⟨edges', hperm, hmissing⟩ := exists_order_missing hsimple hdetour
    have hmeets := hevery edges' hperm
    rw [hmissing fuel] at hmeets
    cases hmeets
  · intro hdirect edges' hperm
    have hlength : edges'.length ≤ fuel := hperm.length_eq ▸ hfuel
    refine reaches_of_direct hsimple hlength fun hdetour => ?_
    exact hdirect (hdetour.perm hperm.symm)

end Decidable

end Walk

end UnityLan.Foundation
