import Mathlib.Data.List.Nodup
import Mathlib.Data.List.Perm.Subperm

namespace UnityLan.Foundation

/-! Finite tables with one row for each key, in the order the keys were first
written. -/

structure Table (κ ν : Type) where
  rows : List (κ × ν)
  keysNodup : (rows.map Prod.fst).Nodup

namespace Table

variable {κ ν : Type}

def empty : Table κ ν where
  rows := []
  keysNodup := List.nodup_nil

instance : EmptyCollection (Table κ ν) := ⟨empty⟩

instance : Inhabited (Table κ ν) := ⟨empty⟩

def keys (table : Table κ ν) : List κ :=
  table.rows.map Prod.fst

def values (table : Table κ ν) : List ν :=
  table.rows.map Prod.snd

def size (table : Table κ ν) : Nat :=
  table.rows.length

def retain (table : Table κ ν) (keep : κ → ν → Bool) : Table κ ν where
  rows := table.rows.filter fun row => keep row.1 row.2
  keysNodup := table.keysNodup.sublist (List.filter_sublist.map _)

@[simp] theorem rows_empty : (∅ : Table κ ν).rows = [] := rfl

theorem mem_rows_retain {table : Table κ ν} {keep : κ → ν → Bool} {row : κ × ν} :
    row ∈ (table.retain keep).rows ↔ row ∈ table.rows ∧ keep row.1 row.2 := by
  simp [retain]

def mapValues {ν' : Type} (table : Table κ ν) (change : κ → ν → ν') : Table κ ν' where
  rows := table.rows.map fun row => (row.1, change row.1 row.2)
  keysNodup := by
    rw [List.map_map]
    exact table.keysNodup

variable [DecidableEq κ]

def get? (table : Table κ ν) (key : κ) : Option ν :=
  (table.rows.find? fun row => decide (row.1 = key)).map Prod.snd

def contains (table : Table κ ν) (key : κ) : Bool :=
  (table.get? key).isSome

private theorem map_fst_replace (rows : List (κ × ν)) (key : κ) (value : ν) :
    (rows.map fun row => if row.1 = key then (key, value) else row).map Prod.fst =
      rows.map Prod.fst := by
  rw [List.map_map]
  refine List.map_congr_left fun row _ => ?_
  by_cases hkey : row.1 = key
  · simp [hkey]
  · simp [hkey]

def insert (table : Table κ ν) (key : κ) (value : ν) : Table κ ν where
  rows :=
    if key ∈ table.rows.map Prod.fst then
      table.rows.map fun row => if row.1 = key then (key, value) else row
    else table.rows ++ [(key, value)]
  keysNodup := by
    split
    · rw [map_fst_replace]
      exact table.keysNodup
    · rename_i hfresh
      rw [List.map_append, List.nodup_append]
      refine ⟨table.keysNodup, by simp, ?_⟩
      intro first hfirst second hsecond heq
      simp only [List.map_cons, List.map_nil, List.mem_singleton] at hsecond
      exact hfresh (hsecond ▸ heq ▸ hfirst)

def erase (table : Table κ ν) (key : κ) : Table κ ν :=
  table.retain fun other _ => decide (other ≠ key)

def replace (table : Table κ ν) (key : κ) (value : ν) : Table κ ν :=
  (table.erase key).insert key value

def modify (table : Table κ ν) (key : κ) (change : ν → ν) : Table κ ν :=
  match table.get? key with
  | some value => table.insert key (change value)
  | none => table

private theorem find?_some_of_mem {rows : List (κ × ν)}
    (hnodup : (rows.map Prod.fst).Nodup) {key : κ} {value : ν}
    (hmem : (key, value) ∈ rows) :
    rows.find? (fun row => decide (row.1 = key)) = some (key, value) := by
  induction rows with
  | nil => cases hmem
  | cons head tail ih =>
      rw [List.map_cons, List.nodup_cons] at hnodup
      rcases List.mem_cons.mp hmem with rfl | htail
      · simp
      · have hhead : head.1 ≠ key := by
          intro heq
          exact hnodup.1 (heq ▸ List.mem_map_of_mem (f := Prod.fst) htail)
        rw [List.find?_cons_of_neg (by simpa using hhead)]
        exact ih hnodup.2 htail

theorem mem_rows {table : Table κ ν} {key : κ} {value : ν} :
    (key, value) ∈ table.rows ↔ table.get? key = some value := by
  constructor
  · intro hmem
    simp [get?, find?_some_of_mem table.keysNodup hmem]
  · intro hget
    simp only [get?, Option.map_eq_some_iff] at hget
    obtain ⟨row, hfound, rfl⟩ := hget
    have hkey : row.1 = key := by simpa using List.find?_some hfound
    exact hkey ▸ List.mem_of_find?_eq_some hfound

theorem mem_keys {table : Table κ ν} {key : κ} :
    key ∈ table.keys ↔ ∃ value, table.get? key = some value := by
  simp only [keys, List.mem_map, Prod.exists, exists_and_right, exists_eq_right, mem_rows]

theorem mem_values {table : Table κ ν} {value : ν} :
    value ∈ table.values ↔ ∃ key, table.get? key = some value := by
  simp only [values, List.mem_map, Prod.exists, exists_eq_right, mem_rows]

theorem not_mem_keys {table : Table κ ν} {key : κ} :
    key ∉ table.keys ↔ table.get? key = none := by
  rw [mem_keys, Option.eq_none_iff_forall_ne_some, not_exists]

@[simp] theorem get?_empty (key : κ) : (∅ : Table κ ν).get? key = none := rfl

@[simp] theorem get?_retain (table : Table κ ν) (keep : κ → ν → Bool) (key : κ) :
    (table.retain keep).get? key = (table.get? key).filter (keep key) := by
  apply Option.ext
  intro value
  rw [← mem_rows, mem_rows_retain, mem_rows, Option.filter_eq_some_iff]

theorem get?_of_retain {table : Table κ ν} {keep : κ → ν → Bool} {key : κ} {value : ν}
    (hget : (table.retain keep).get? key = some value) : table.get? key = some value := by
  rw [get?_retain] at hget
  exact (Option.filter_eq_some_iff.mp hget).1

theorem get?_of_erase {table : Table κ ν} {key other : κ} {value : ν}
    (hget : (table.erase key).get? other = some value) : table.get? other = some value :=
  get?_of_retain hget

@[simp] theorem get?_erase (table : Table κ ν) (key other : κ) :
    (table.erase key).get? other = if other = key then none else table.get? other := by
  rw [erase, get?_retain]
  by_cases hkey : other = key
  · simp [hkey]
  · rw [if_neg hkey]
    cases table.get? other with
    | none => rfl
    | some value => simp [Option.filter, hkey]

private theorem mem_rows_insert {table : Table κ ν} {key other : κ} {value held : ν} :
    (other, held) ∈ (table.insert key value).rows ↔
      if other = key then held = value else (other, held) ∈ table.rows := by
  simp only [insert]
  split
  · rename_i hpresent
    by_cases hkey : other = key
    · subst hkey
      simp only [List.mem_map, if_true, Prod.exists]
      constructor
      · rintro ⟨key', held', hmem, heq⟩
        by_cases hsame : key' = other
        · rw [if_pos hsame] at heq
          exact (Prod.mk.inj heq).2.symm
        · rw [if_neg hsame] at heq
          exact absurd (Prod.mk.inj heq).1 hsame
      · rintro rfl
        obtain ⟨row, hmem, hrow⟩ := List.mem_map.mp hpresent
        exact ⟨row.1, row.2, hmem, by rw [if_pos hrow]⟩
    · rw [if_neg hkey, List.mem_map]
      constructor
      · rintro ⟨row, hmem, heq⟩
        by_cases hsame : row.1 = key
        · rw [if_pos hsame] at heq
          exact absurd (Prod.mk.inj heq).1.symm hkey
        · rw [if_neg hsame] at heq
          exact heq ▸ hmem
      · intro hmem
        exact ⟨(other, held), hmem, by rw [if_neg hkey]⟩
  · rename_i hfresh
    rw [List.mem_append, List.mem_singleton]
    by_cases hkey : other = key
    · subst hkey
      rw [if_pos rfl]
      constructor
      · rintro (hmem | heq)
        · exact absurd (List.mem_map_of_mem (f := Prod.fst) hmem) hfresh
        · exact (Prod.mk.inj heq).2
      · rintro rfl
        exact .inr rfl
    · rw [if_neg hkey]
      constructor
      · rintro (hmem | heq)
        · exact hmem
        · exact absurd (Prod.mk.inj heq).1 hkey
      · exact .inl

@[simp] theorem get?_insert (table : Table κ ν) (key other : κ) (value : ν) :
    (table.insert key value).get? other =
      if other = key then some value else table.get? other := by
  apply Option.ext
  intro held
  rw [← mem_rows, mem_rows_insert]
  by_cases hkey : other = key
  · simp [hkey, eq_comm]
  · simp [hkey, mem_rows]

theorem insert_eq_self {table : Table κ ν} {key : κ} {value : ν}
    (hget : table.get? key = some value) : table.insert key value = table := by
  have hrow := mem_rows.mpr hget
  have hrows : (table.insert key value).rows = table.rows := by
    refine (if_pos (List.mem_map_of_mem hrow)).trans ?_
    conv_rhs => rw [← List.map_id table.rows]
    refine List.map_congr_left fun row hmem => ?_
    split
    · rename_i hkey
      have hsame : some row.2 = some value := (mem_rows.mp (hkey ▸ hmem)).symm.trans hget
      rw [← hkey, ← Option.some.inj hsame]
      rfl
    · rfl
  obtain ⟨rows, nodup⟩ := table
  unfold insert at hrows ⊢
  congr

theorem rows_insert {table : Table κ ν} {key : κ} (hfresh : table.get? key = none) (value : ν) :
    (table.insert key value).rows = table.rows ++ [(key, value)] :=
  if_neg (not_mem_keys.mpr hfresh)

theorem erase_eq_self {table : Table κ ν} {key : κ} (hget : table.get? key = none) :
    table.erase key = table := by
  have hrows : (table.erase key).rows = table.rows := by
    refine List.filter_eq_self.mpr fun row hmem => decide_eq_true ?_
    rintro rfl
    rw [mem_rows.mp hmem] at hget
    cases hget
  obtain ⟨rows, nodup⟩ := table
  unfold erase retain at hrows ⊢
  congr

@[simp] theorem get?_replace (table : Table κ ν) (key other : κ) (value : ν) :
    (table.replace key value).get? other =
      if other = key then some value else table.get? other := by
  simp only [replace, get?_insert, get?_erase]
  split <;> rfl

@[simp] theorem get?_modify (table : Table κ ν) (key other : κ) (change : ν → ν) :
    (table.modify key change).get? other =
      if other = key then (table.get? key).map change else table.get? other := by
  unfold modify
  cases hget : table.get? key with
  | none =>
      by_cases hkey : other = key
      · simp [hkey, hget]
      · simp [hkey]
  | some value => simp

theorem map_rows_modify {γ : Type} {table : Table κ ν} {key : κ} {change : ν → ν}
    {column : κ × ν → γ} (hsame : ∀ value, column (key, change value) = column (key, value)) :
    (table.modify key change).rows.map column = table.rows.map column := by
  unfold modify
  cases hget : table.get? key with
  | none => rfl
  | some value =>
      have hmem := mem_rows.mpr hget
      have hpresent : key ∈ table.rows.map Prod.fst := List.mem_map_of_mem (f := Prod.fst) hmem
      simp only [insert, if_pos hpresent, List.map_map]
      refine List.map_congr_left fun row hrow => ?_
      by_cases hkey : row.1 = key
      · subst hkey
        obtain rfl : value = row.2 := Option.some.inj (hget.symm.trans (mem_rows.mp hrow))
        simpa using hsame row.2
      · simp [hkey]

private theorem find?_map_values {ν' : Type} (change : κ → ν → ν') (key : κ)
    (rows : List (κ × ν)) :
    (rows.map fun row => (row.1, change row.1 row.2)).find? (fun row => decide (row.1 = key)) =
      (rows.find? fun row => decide (row.1 = key)).map
        fun row => (row.1, change row.1 row.2) := by
  induction rows with
  | nil => rfl
  | cons head tail ih =>
      by_cases hkey : head.1 = key
      · simp [hkey]
      · simp [hkey, ih]

@[simp] theorem get?_mapValues {ν' : Type} (table : Table κ ν) (change : κ → ν → ν')
    (key : κ) : (table.mapValues change).get? key = (table.get? key).map (change key) := by
  simp only [get?, mapValues, find?_map_values]
  cases hfound : table.rows.find? fun row => decide (row.1 = key) with
  | none => rfl
  | some row =>
      have hkey : row.1 = key := by simpa using List.find?_some hfound
      simp [hkey]

theorem contains_iff {table : Table κ ν} {key : κ} :
    table.contains key = true ↔ ∃ value, table.get? key = some value := by
  rw [contains, Option.isSome_iff_exists]

theorem mem_keys_erase {table : Table κ ν} {key other : κ} :
    key ∈ (table.erase other).keys ↔ key ≠ other ∧ key ∈ table.keys := by
  rw [mem_keys, mem_keys, get?_erase]
  split
  · rename_i hsame
    simp [hsame]
  · rename_i hother
    simp [hother]

theorem mem_keys_insert {table : Table κ ν} {key other : κ} {value : ν} :
    key ∈ (table.insert other value).keys ↔ key = other ∨ key ∈ table.keys := by
  rw [mem_keys, mem_keys, get?_insert]
  split
  · rename_i hsame
    simp [hsame]
  · rename_i hother
    simp [hother]

/-! How many rows there are. -/

omit [DecidableEq κ] in
theorem keys_nodup (table : Table κ ν) : table.keys.Nodup :=
  table.keysNodup

omit [DecidableEq κ] in
theorem size_eq_length_keys (table : Table κ ν) : table.size = table.keys.length := by
  rw [size, keys, List.length_map]

omit [DecidableEq κ] in
theorem size_eq_of_keys {ν' : Type} {table : Table κ ν} {other : Table κ ν'}
    (hkeys : ∀ key, key ∈ table.keys ↔ key ∈ other.keys) : table.size = other.size := by
  rw [size_eq_length_keys, size_eq_length_keys]
  exact ((List.perm_ext_iff_of_nodup table.keys_nodup other.keys_nodup).mpr hkeys).length_eq

theorem size_insert {table : Table κ ν} {key : κ} (hfresh : table.get? key = none) (value : ν) :
    (table.insert key value).size = table.size + 1 := by
  have hnodup : (key :: table.keys).Nodup :=
    List.nodup_cons.mpr ⟨not_mem_keys.mpr hfresh, table.keys_nodup⟩
  have hperm : (table.insert key value).keys.Perm (key :: table.keys) := by
    apply (List.perm_ext_iff_of_nodup (table.insert key value).keys_nodup hnodup).mpr
    intro other
    rw [mem_keys_insert, List.mem_cons]
  rw [size_eq_length_keys, hperm.length_eq, size_eq_length_keys, List.length_cons]

theorem size_erase {table : Table κ ν} {key : κ} (hheld : table.get? key ≠ none) :
    (table.erase key).size + 1 = table.size := by
  have hmem : key ∈ table.keys := Classical.not_not.mp fun hnot => hheld (not_mem_keys.mp hnot)
  have hnodup : (key :: (table.erase key).keys).Nodup := by
    refine List.nodup_cons.mpr ⟨?_, (table.erase key).keys_nodup⟩
    rw [mem_keys_erase]
    exact fun hsame => hsame.1 rfl
  have hperm : (key :: (table.erase key).keys).Perm table.keys := by
    apply (List.perm_ext_iff_of_nodup hnodup table.keys_nodup).mpr
    intro other
    rw [List.mem_cons, mem_keys_erase]
    by_cases hsame : other = key
    · simp [hsame, hmem]
    · simp [hsame]
  rw [size_eq_length_keys table, ← hperm.length_eq, size_eq_length_keys, List.length_cons]

theorem size_modify (table : Table κ ν) (key : κ) (change : ν → ν) :
    (table.modify key change).size = table.size := by
  apply size_eq_of_keys
  intro other
  rw [mem_keys, mem_keys, get?_modify]
  by_cases hsame : other = key
  · rw [if_pos hsame, hsame]
    cases table.get? key <;> simp
  · rw [if_neg hsame]

/-! How many rows hold a value. -/

section

variable [BEq ν] [LawfulBEq ν] {table : Table κ ν} {value : ν}

omit [DecidableEq κ] [LawfulBEq ν] in
theorem length_filter_values (table : Table κ ν) (value : ν) :
    (table.values.filter (· == value)).length =
      (table.retain fun _ held => held == value).size := by
  rw [values, List.filter_map, List.length_map]
  rfl

theorem mem_keys_retain {key : κ} :
    key ∈ (table.retain fun _ held => held == value).keys ↔ table.get? key = some value := by
  rw [mem_keys]
  constructor
  · rintro ⟨held, hheld⟩
    rw [get?_retain] at hheld
    obtain ⟨hget, hsame⟩ := Option.filter_eq_some_iff.mp hheld
    rw [hget, eq_of_beq hsame]
  · intro hget
    refine ⟨value, ?_⟩
    rw [get?_retain]
    exact Option.filter_eq_some_iff.mpr ⟨hget, beq_self_eq_true value⟩

theorem length_filter_values_one {key : κ} (hget : table.get? key = some value)
    (halone : ∀ other, table.get? other = some value → other = key) :
    (table.values.filter (· == value)).length = 1 := by
  rw [length_filter_values, size_eq_length_keys]
  have hperm : (table.retain fun _ held => held == value).keys.Perm [key] := by
    apply (List.perm_ext_iff_of_nodup (keys_nodup _) (List.nodup_singleton key)).mpr
    intro other
    rw [mem_keys_retain, List.mem_singleton]
    exact ⟨halone other, fun hsame => hsame ▸ hget⟩
  exact hperm.length_eq

theorem length_filter_values_pos {key : κ} (hget : table.get? key = some value) :
    0 < (table.values.filter (· == value)).length := by
  rw [length_filter_values, size_eq_length_keys]
  exact List.length_pos_of_mem (mem_keys_retain.mpr hget)

theorem two_le_length_filter_values {key other : κ} (hget : table.get? key = some value)
    (hother : table.get? other = some value) (hdistinct : key ≠ other) :
    2 ≤ (table.values.filter (· == value)).length := by
  rw [length_filter_values, size_eq_length_keys]
  have hnodup : [key, other].Nodup := by
    refine List.nodup_cons.mpr ⟨?_, List.nodup_singleton other⟩
    exact fun hmem => hdistinct (List.mem_singleton.mp hmem)
  refine (List.subperm_of_subset hnodup fun held hheld => ?_).length_le
  rcases List.mem_cons.mp hheld with rfl | hheld
  · exact mem_keys_retain.mpr hget
  · obtain rfl := List.mem_singleton.mp hheld
    exact mem_keys_retain.mpr hother

end

def upsert (table : Table κ ν) (index : ν → κ) (values : List ν) : Table κ ν :=
  values.foldl (fun table value => table.insert (index value) value) table

section

variable {index : ν → κ} {values : List ν} {table : Table κ ν}

theorem get?_upsert_of_not_mem {key : κ} (hother : key ∉ values.map index) :
    (table.upsert index values).get? key = table.get? key := by
  induction values generalizing table with
  | nil => rfl
  | cons value rest ih =>
      rw [List.map_cons, List.mem_cons, not_or] at hother
      calc (table.upsert index (value :: rest)).get? key
          = (table.insert (index value) value).get? key := ih hother.2
        _ = table.get? key := by rw [get?_insert, if_neg hother.1]

theorem get?_upsert_of_mem {value : ν} (hkeys : (values.map index).Nodup) (hmem : value ∈ values) :
    (table.upsert index values).get? (index value) = some value := by
  induction values generalizing table with
  | nil => cases hmem
  | cons head rest ih =>
      rw [List.map_cons, List.nodup_cons] at hkeys
      rcases List.mem_cons.mp hmem with rfl | hmem
      · calc (table.upsert index (value :: rest)).get? (index value)
            = (table.insert (index value) value).get? (index value) :=
              get?_upsert_of_not_mem hkeys.1
          _ = some value := by rw [get?_insert, if_pos rfl]
      · exact ih hkeys.2 hmem

theorem empty_keyed : ∀ key value, (∅ : Table κ ν).get? key = some value → index value = key := by
  intro key value hvalue
  cases hvalue

theorem upsert_keyed (hkeyed : ∀ key value, table.get? key = some value → index value = key) :
    ∀ key value, (table.upsert index values).get? key = some value → index value = key := by
  induction values generalizing table with
  | nil => exact hkeyed
  | cons head rest ih =>
      apply ih
      intro key value hvalue
      rw [get?_insert] at hvalue
      split at hvalue
      · rename_i hkey
        cases hvalue
        exact hkey.symm
      · exact hkeyed key value hvalue

theorem upsert_source {key : κ} {value : ν}
    (hvalue : (table.upsert index values).get? key = some value) :
    table.get? key = some value ∨ value ∈ values ∧ index value = key := by
  induction values generalizing table with
  | nil => exact .inl hvalue
  | cons head rest ih =>
      rcases ih hvalue with hbefore | ⟨hmem, hkey⟩
      · rw [get?_insert] at hbefore
        split at hbefore
        · rename_i hkey
          cases hbefore
          exact .inr ⟨List.mem_cons_self .., hkey.symm⟩
        · exact .inl hbefore
      · exact .inr ⟨List.mem_cons_of_mem _ hmem, hkey⟩

theorem upsert_covers {value : ν} (hmem : value ∈ values) :
    ∃ found ∈ values, (table.upsert index values).get? (index value) = some found ∧
      index found = index value := by
  induction values generalizing table value with
  | nil => cases hmem
  | cons head rest ih =>
      by_cases hlater : index value ∈ rest.map index
      · obtain ⟨other, hother, hsame⟩ := List.mem_map.mp hlater
        obtain ⟨found, hfound, hget, hkey⟩ := @ih (table.insert (index head) head) other hother
        rw [hsame] at hget hkey
        exact ⟨found, List.mem_cons_of_mem _ hfound, hget, hkey⟩
      · have hhead : value = head := by
          rcases List.mem_cons.mp hmem with hhead | hrest
          · exact hhead
          · exact absurd (List.mem_map_of_mem hrest) hlater
        subst hhead
        refine ⟨value, List.mem_cons_self .., ?_, rfl⟩
        calc (table.upsert index (value :: rest)).get? (index value)
            = (table.insert (index value) value).get? (index value) :=
              get?_upsert_of_not_mem hlater
          _ = some value := by rw [get?_insert, if_pos rfl]

theorem mem_upsert (hkeyed : ∀ key value, table.get? key = some value → index value = key)
    (hkeys : (values.map index).Nodup) {value : ν} :
    value ∈ (table.upsert index values).values ↔
      value ∈ values ∨ value ∈ table.values ∧ index value ∉ values.map index := by
  rw [mem_values, mem_values]
  constructor
  · rintro ⟨key, hvalue⟩
    obtain rfl := upsert_keyed hkeyed key value hvalue
    by_cases hkey : index value ∈ values.map index
    · obtain ⟨other, hother, hsame⟩ := List.mem_map.mp hkey
      rw [← hsame, get?_upsert_of_mem hkeys hother, Option.some.injEq] at hvalue
      exact .inl (hvalue ▸ hother)
    · rw [get?_upsert_of_not_mem hkey] at hvalue
      exact .inr ⟨⟨_, hvalue⟩, hkey⟩
  · rintro (hmem | ⟨⟨key, hvalue⟩, hother⟩)
    · exact ⟨_, get?_upsert_of_mem hkeys hmem⟩
    · obtain rfl := hkeyed key value hvalue
      exact ⟨_, (get?_upsert_of_not_mem hother).trans hvalue⟩

theorem nodup_values (hkeyed : ∀ key value, table.get? key = some value → index value = key) :
    (table.values.map index).Nodup := by
  have hkeys : table.values.map index = table.keys := by
    rw [values, keys, List.map_map]
    apply List.map_congr_left
    intro row hrow
    exact hkeyed row.1 row.2 (mem_rows.mp hrow)
  rw [hkeys]
  exact table.keysNodup

end

end Table

/-! A table with a second column that no two rows share. -/

structure UniqueTable (κ ν : Type) {ι : Type} (index : ν → ι) where
  table : Table κ ν
  indexNodup : (table.values.map index).Nodup

namespace UniqueTable

variable {κ ν ι : Type} {index : ν → ι}

def empty : UniqueTable κ ν index where
  table := ∅
  indexNodup := List.nodup_nil

instance : EmptyCollection (UniqueTable κ ν index) := ⟨empty⟩

def retain (unique : UniqueTable κ ν index) (keep : κ → ν → Bool) :
    UniqueTable κ ν index where
  table := unique.table.retain keep
  indexNodup :=
    unique.indexNodup.sublist ((List.filter_sublist.map Prod.snd).map index)

variable [DecidableEq κ]

def get? (unique : UniqueTable κ ν index) (key : κ) : Option ν :=
  unique.table.get? key

def erase (unique : UniqueTable κ ν index) (key : κ) : UniqueTable κ ν index :=
  unique.retain fun other _ => decide (other ≠ key)

private theorem values_insert_fresh {table : Table κ ν} {key : κ} {value : ν}
    (hfresh : table.get? key = none) :
    (table.insert key value).values = table.values ++ [value] := by
  simp [Table.values, Table.rows_insert hfresh]

/-- Insert a row; `none` where a uniqueness constraint is violated. -/
def insertNew [DecidableEq ι] (unique : UniqueTable κ ν index) (key : κ) (value : ν) :
    Option (UniqueTable κ ν index) :=
  if hfresh : unique.table.get? key = none ∧ index value ∉ unique.table.values.map index then
    some
      { table := unique.table.insert key value
        indexNodup := by
          rw [values_insert_fresh hfresh.1, List.map_append, List.nodup_append]
          refine ⟨unique.indexNodup, by simp, ?_⟩
          intro first hfirst second hsecond heq
          simp only [List.map_cons, List.map_nil, List.mem_singleton] at hsecond
          exact hfresh.2 (hsecond ▸ heq ▸ hfirst) }
  else none

private theorem map_index_insert {table : Table κ ν} {key : κ} {held value : ν}
    (hheld : table.get? key = some held) (hindex : index value = index held) :
    (table.insert key value).values.map index = table.values.map index := by
  have hmem : (key, held) ∈ table.rows := Table.mem_rows.mpr hheld
  have hpresent : key ∈ table.rows.map Prod.fst :=
    List.mem_map_of_mem (f := Prod.fst) hmem
  simp only [Table.values, Table.insert, if_pos hpresent, List.map_map]
  refine List.map_congr_left fun row hrow => ?_
  by_cases hkey : row.1 = key
  · have hrowheld : row.2 = held := by
      have hget : table.get? key = some row.2 := Table.mem_rows.mp (hkey ▸ hrow)
      exact Option.some.inj (hget.symm.trans hheld)
    simp [hkey, hrowheld, hindex]
  · simp [hkey]

def adjust (unique : UniqueTable κ ν index) (key : κ) (change : ν → ν)
    (hindex : ∀ value, index (change value) = index value) : UniqueTable κ ν index where
  table := unique.table.modify key change
  indexNodup := by
    unfold Table.modify
    split
    · rename_i held hheld
      rw [map_index_insert hheld (hindex held)]
      exact unique.indexNodup
    · exact unique.indexNodup

@[simp] theorem get?_empty (key : κ) :
    (∅ : UniqueTable κ ν index).get? key = none := rfl

@[simp] theorem get?_retain (unique : UniqueTable κ ν index) (keep : κ → ν → Bool)
    (key : κ) : (unique.retain keep).get? key = (unique.get? key).filter (keep key) :=
  Table.get?_retain ..

@[simp] theorem get?_erase (unique : UniqueTable κ ν index) (key other : κ) :
    (unique.erase key).get? other = if other = key then none else unique.get? other :=
  Table.get?_erase ..

@[simp] theorem get?_adjust (unique : UniqueTable κ ν index) (key other : κ)
    (change : ν → ν) (hindex : ∀ value, index (change value) = index value) :
    (unique.adjust key change hindex).get? other =
      if other = key then (unique.get? key).map change else unique.get? other :=
  Table.get?_modify ..

theorem adjust_eq_self {unique : UniqueTable κ ν index} {key : κ} {held : ν} {change : ν → ν}
    {hindex : ∀ value, index (change value) = index value} (hget : unique.get? key = some held)
    (hchange : change held = held) : unique.adjust key change hindex = unique := by
  have htable : unique.table.modify key change = unique.table := by
    unfold Table.modify
    have hrow : unique.table.get? key = some held := hget
    rw [hrow]
    dsimp only
    rw [hchange]
    exact Table.insert_eq_self hrow
  cases unique
  simp only [adjust, htable]

theorem insertNew_some [DecidableEq ι] {unique unique' : UniqueTable κ ν index} {key : κ}
    {value : ν}
    (hinsert : unique.insertNew key value = some unique') :
    unique.get? key = none ∧
      ∀ other, unique'.get? other = if other = key then some value else unique.get? other := by
  unfold insertNew at hinsert
  split at hinsert
  · rename_i hfresh
    cases hinsert
    exact ⟨hfresh.1, fun other => Table.get?_insert ..⟩
  · cases hinsert

theorem insertNew_fresh [DecidableEq ι] {unique : UniqueTable κ ν index} {key : κ} {value : ν}
    (hfresh : unique.get? key = none) (hindex : index value ∉ unique.table.values.map index) :
    ∃ unique', unique.insertNew key value = some unique' ∧
      unique'.table.rows = unique.table.rows ++ [(key, value)] :=
  ⟨_, dif_pos ⟨hfresh, hindex⟩, Table.rows_insert hfresh value⟩

theorem key_unique {unique : UniqueTable κ ν index} {first second : κ} {a b : ν}
    (hfirst : unique.get? first = some a) (hsecond : unique.get? second = some b)
    (hindex : index a = index b) : first = second := by
  have hnodup := unique.indexNodup
  rw [Table.values, List.map_map] at hnodup
  have hrows := List.inj_on_of_nodup_map hnodup (Table.mem_rows.mpr hfirst)
    (Table.mem_rows.mpr hsecond) hindex
  exact congrArg Prod.fst hrows

end UniqueTable

end UnityLan.Foundation
