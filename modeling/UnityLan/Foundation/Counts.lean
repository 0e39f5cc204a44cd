import Mathlib.Algebra.BigOperators.Group.List.Lemmas
import Mathlib.Algebra.GroupWithZero.Nat
import UnityLan.Foundation.Table

namespace UnityLan.Foundation

/-! Tables that count how often each key came. -/

variable {κ : Type} [DecidableEq κ]

namespace Table

def tally (table : Table κ Nat) (key : κ) : Table κ Nat :=
  table.insert key ((table.get? key).getD 0 + 1)

def Counts (table : Table κ Nat) (items : List κ) : Prop :=
  ∀ key, table.get? key = if items.count key = 0 then none else some (items.count key)

namespace Counts

variable {table : Table κ Nat} {items : List κ} {key : κ} {count : Nat}

theorem empty : Counts (∅ : Table κ Nat) [] :=
  fun _ => rfl

theorem getD (hcounts : table.Counts items) (key : κ) :
    (table.get? key).getD 0 = items.count key := by
  rw [hcounts key]
  split
  · rename_i hnone
    exact hnone.symm
  · rfl

theorem of_get? (hcounts : table.Counts items) (hget : table.get? key = some count) :
    items.count key = count := by
  have hcount := hcounts.getD key
  rw [hget] at hcount
  exact hcount.symm

theorem insert (hcounts : table.Counts items) (key : κ) :
    (table.insert key (items.count key + 1)).Counts (items ++ [key]) := by
  intro other
  rw [get?_insert, List.count_append, List.count_singleton]
  by_cases hsame : other = key
  · subst hsame
    simp
  · rw [if_neg hsame, beq_false_of_ne (Ne.symm hsame)]
    exact hcounts other

theorem tally (hcounts : table.Counts items) (key : κ) :
    (table.tally key).Counts (items ++ [key]) := by
  unfold Table.tally
  rw [hcounts.getD]
  exact hcounts.insert key

theorem foldl (hcounts : table.Counts items) (later : List κ) :
    (later.foldl Table.tally table).Counts (items ++ later) := by
  induction later generalizing table items with
  | nil => simpa using hcounts
  | cons key rest ih => simpa using ih (hcounts.tally key)

theorem keys (hcounts : table.Counts items) : table.keys.Perm items.dedup := by
  apply (List.perm_ext_iff_of_nodup table.keys_nodup (List.nodup_dedup _)).mpr
  intro key
  rw [mem_keys, List.mem_dedup, ← List.count_pos_iff, hcounts key]
  split
  · simp [*]
  · rename_i hsome
    simpa using Nat.pos_of_ne_zero hsome

theorem sum (hcounts : table.Counts items) : table.values.sum = items.length := by
  have hvalues : table.values = table.keys.map fun key => items.count key := by
    unfold Table.values Table.keys
    rw [List.map_map]
    apply List.map_congr_left
    intro row hrow
    exact (hcounts.of_get? (mem_rows.mp hrow)).symm
  rw [hvalues, (hcounts.keys.map _).sum_eq, List.sum_map_count_dedup_eq_length]

end Counts

end Table

/-! Lists that stand for the set of what came. -/

structure Collects {α : Type} (set items : List α) : Prop where
  nodup : set.Nodup
  mem : ∀ item, item ∈ set ↔ item ∈ items

namespace Collects

variable {α : Type} [DecidableEq α] {set items : List α}

omit [DecidableEq α] in
theorem empty : Collects ([] : List α) [] :=
  ⟨List.nodup_nil, fun _ => Iff.rfl⟩

theorem insert (hcollects : Collects set items) (item : α) :
    Collects (set.insert item) (items ++ [item]) where
  nodup := hcollects.nodup.insert
  mem := by
    intro other
    rw [List.mem_insert_iff, List.mem_append, List.mem_singleton, hcollects.mem, or_comm]

theorem perm (hcollects : Collects set items) : set.Perm items.dedup := by
  apply (List.perm_ext_iff_of_nodup hcollects.nodup (List.nodup_dedup _)).mpr
  intro item
  rw [List.mem_dedup]
  exact hcollects.mem item

theorem length (hcollects : Collects set items) : set.length = items.dedup.length :=
  hcollects.perm.length_eq

end Collects

end UnityLan.Foundation
