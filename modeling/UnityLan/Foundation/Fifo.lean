import Mathlib.Data.List.Induction
import Mathlib.Data.List.Nodup
import Mathlib.Tactic.Common

namespace UnityLan.Foundation

/-! A queue without repetitions and with a bound: what comes in when it is full takes the place
of what came in first. -/

namespace Fifo

variable {α : Type} [DecidableEq α]

def push (cap : Nat) (queue : List α) (value : α) : List α :=
  if value ∈ queue then queue
  else if queue.length ≥ cap then queue.drop 1 ++ [value]
  else queue ++ [value]

def pushAll (cap : Nat) (queue : List α) (values : List α) : List α :=
  values.foldl (push cap) queue

def Evicts (cap : Nat) (queue : List α) (incoming value : α) : Prop :=
  incoming ∉ queue ∧ cap ≤ queue.length ∧ queue.head? = some value

def PushesOut (cap : Nat) (queue values : List α) (value : α) : Prop :=
  ∃ before incoming after, values = before ++ incoming :: after ∧
    Evicts cap (pushAll cap queue before) incoming value

def Spares (cap : Nat) (queue values : List α) : Prop :=
  ∀ before incoming after value, values = before ++ incoming :: after →
    Evicts cap (pushAll cap queue before) incoming value → value ∈ before → value ∈ after

/-- What was held and what came in of the values, in this order, less the oldest: these go only
where there is no room. -/
def Newest (cap : Nat) (queue values result : List α) : Prop :=
  ∃ added gone, added ⊆ values ∧ queue ++ added = gone ++ result ∧
    (gone = [] ∨ result.length = cap)

variable {cap : Nat} {queue values first second : List α} {value incoming other : α}

instance : Decidable (Evicts cap queue incoming value) :=
  inferInstanceAs (Decidable (_ ∧ _ ∧ _))

@[simp] theorem pushAll_nil : pushAll cap queue [] = queue := rfl

@[simp] theorem pushAll_cons :
    pushAll cap queue (value :: values) = pushAll cap (push cap queue value) values := rfl

theorem pushAll_append :
    pushAll cap queue (first ++ second) = pushAll cap (pushAll cap queue first) second :=
  List.foldl_append

theorem push_cases (cap : Nat) (queue : List α) (value : α) :
    (value ∈ queue ∧ push cap queue value = queue) ∨
      (∃ oldest rest, queue = oldest :: rest ∧ Evicts cap queue value oldest ∧
        push cap queue value = rest ++ [value]) ∨
      (value ∉ queue ∧ (queue.length < cap ∨ queue = []) ∧
        push cap queue value = queue ++ [value]) := by
  unfold push
  split
  · rename_i hheld
    exact .inl ⟨hheld, rfl⟩
  · rename_i hnew
    split
    · rename_i hfull
      cases queue with
      | nil => exact .inr (.inr ⟨hnew, .inr rfl, rfl⟩)
      | cons oldest rest => exact .inr (.inl ⟨oldest, rest, rfl, ⟨hnew, hfull, rfl⟩, rfl⟩)
    · rename_i hroom
      exact .inr (.inr ⟨hnew, .inl (Nat.lt_of_not_le hroom), rfl⟩)

theorem mem_push_self : value ∈ push cap queue value := by
  rcases push_cases cap queue value with ⟨hheld, heq⟩ | ⟨_, _, _, _, heq⟩ | ⟨_, _, heq⟩
  · rw [heq]
    exact hheld
  · rw [heq]
    exact List.mem_append_right _ (List.mem_singleton_self value)
  · rw [heq]
    exact List.mem_append_right _ (List.mem_singleton_self value)

theorem mem_of_mem_push (hmem : other ∈ push cap queue value) (hother : other ≠ value) :
    other ∈ queue := by
  rcases push_cases cap queue value with ⟨_, heq⟩ | ⟨_, _, hqueue, _, heq⟩ | ⟨_, _, heq⟩
  · exact heq ▸ hmem
  · rw [heq] at hmem
    rw [hqueue]
    exact List.mem_cons_of_mem _ ((List.mem_append.mp hmem).resolve_right (by simpa using hother))
  · rw [heq] at hmem
    exact (List.mem_append.mp hmem).resolve_right (by simpa using hother)

theorem length_push_le (hcap : 0 < cap) (hlength : queue.length ≤ cap) :
    (push cap queue value).length ≤ cap := by
  rcases push_cases cap queue value with
    ⟨_, heq⟩ | ⟨_, _, hqueue, _, heq⟩ | ⟨_, hroom | hempty, heq⟩
  · rw [heq]
    exact hlength
  · rw [hqueue, List.length_cons] at hlength
    rw [heq, List.length_append]
    exact hlength
  · rw [heq, List.length_append]
    exact hroom
  · rw [heq, hempty]
    exact hcap

theorem nodup_push (hnodup : queue.Nodup) : (push cap queue value).Nodup := by
  have append : ∀ {part : List α}, part.Nodup → value ∉ part → (part ++ [value]).Nodup := by
    intro part hpart hnew
    refine List.nodup_append.mpr ⟨hpart, List.nodup_singleton value, ?_⟩
    intro held hheld last hlast heq
    exact hnew (List.mem_singleton.mp hlast ▸ heq ▸ hheld)
  rcases push_cases cap queue value with ⟨_, heq⟩ | ⟨_, _, hqueue, hevicts, heq⟩ | ⟨hnew, _, heq⟩
  · rw [heq]
    exact hnodup
  · rw [heq]
    rw [hqueue] at hnodup hevicts
    exact append (List.nodup_cons.mp hnodup).2 fun hmem => hevicts.1 (List.mem_cons_of_mem _ hmem)
  · rw [heq]
    exact append hnodup hnew

theorem evicts_of_not_mem_push (hheld : value ∈ queue) (hgone : value ∉ push cap queue incoming) :
    Evicts cap queue incoming value := by
  rcases push_cases cap queue incoming with ⟨_, heq⟩ | ⟨_, _, hqueue, hevicts, heq⟩ | ⟨_, _, heq⟩
  · rw [heq] at hgone
    exact absurd hheld hgone
  · rw [hqueue] at hheld
    rcases List.mem_cons.mp hheld with rfl | hrest
    · exact hevicts
    · exact absurd (heq ▸ List.mem_append_left _ hrest) hgone
  · exact absurd (heq ▸ List.mem_append_left _ hheld) hgone

theorem Evicts.not_mem_push (hevicts : Evicts cap queue incoming value) (hnodup : queue.Nodup) :
    value ∉ push cap queue incoming := by
  obtain ⟨hnew, hfull, hhead⟩ := hevicts
  obtain ⟨rest, rfl⟩ := List.head?_eq_some_iff.mp hhead
  have heq : push cap (value :: rest) incoming = rest ++ [incoming] := by
    unfold push
    rw [if_neg hnew, if_pos hfull]
    rfl
  have hother : value ≠ incoming := by
    rintro rfl
    exact hnew List.mem_cons_self
  rw [heq, List.mem_append, List.mem_singleton]
  exact not_or.mpr ⟨(List.nodup_cons.mp hnodup).1, hother⟩

theorem length_pushAll_le (hcap : 0 < cap) (hlength : queue.length ≤ cap) :
    (pushAll cap queue values).length ≤ cap := by
  induction values generalizing queue with
  | nil => exact hlength
  | cons value values ih => exact ih (length_push_le hcap hlength)

theorem nodup_pushAll (hnodup : queue.Nodup) : (pushAll cap queue values).Nodup := by
  induction values generalizing queue with
  | nil => exact hnodup
  | cons value values ih => exact ih (nodup_push hnodup)

theorem pushAll_of_subset (hheld : values ⊆ queue) : pushAll cap queue values = queue := by
  induction values with
  | nil => rfl
  | cons value values ih =>
      obtain ⟨hvalue, hvalues⟩ := List.cons_subset.mp hheld
      rw [pushAll_cons, push, if_pos hvalue, ih hvalues]

theorem mem_of_mem_pushAll (hmem : value ∈ pushAll cap queue values) (hother : value ∉ values) :
    value ∈ queue := by
  induction values generalizing queue with
  | nil => exact hmem
  | cons head values ih =>
      obtain ⟨hhead, hvalues⟩ := not_or.mp (List.mem_cons.not.mp hother)
      exact mem_of_mem_push (ih hmem hvalues) hhead

theorem PushesOut.cons (hpushes : PushesOut cap (push cap queue other) values value) :
    PushesOut cap queue (other :: values) value := by
  obtain ⟨before, incoming, after, rfl, hevicts⟩ := hpushes
  exact ⟨other :: before, incoming, after, rfl, hevicts⟩

theorem mem_pushAll_or_pushesOut (hheld : value ∈ queue) (values : List α) :
    value ∈ pushAll cap queue values ∨ PushesOut cap queue values value := by
  induction values generalizing queue with
  | nil => exact .inl hheld
  | cons head values ih =>
      by_cases hstays : value ∈ push cap queue head
      · exact (ih hstays).imp_right PushesOut.cons
      · exact .inr ⟨[], head, values, rfl, evicts_of_not_mem_push hheld hstays⟩

omit [DecidableEq α] in
theorem exists_last (hmem : value ∈ values) :
    ∃ before after, values = before ++ value :: after ∧ value ∉ after := by
  obtain ⟨after, before, hreverse, hfirst⟩ :=
    List.eq_append_cons_of_mem (List.mem_reverse.mpr hmem)
  refine ⟨before.reverse, after.reverse, ?_, fun hlater => hfirst (List.mem_reverse.mp hlater)⟩
  rw [← List.reverse_reverse values, hreverse]
  simp

theorem forall_mem_pushAll_iff (hnodup : queue.Nodup) :
    (∀ value ∈ values, value ∈ pushAll cap queue values) ↔ Spares cap queue values := by
  constructor
  · rintro hall before incoming after value rfl hevicts hbefore
    by_contra hafter
    have hgone := hevicts.not_mem_push (nodup_pushAll hnodup)
    apply hgone
    have hmem := hall value (List.mem_append_left _ hbefore)
    rw [pushAll_append, pushAll_cons] at hmem
    exact mem_of_mem_pushAll hmem hafter
  · intro hspares value hvalue
    -- the last time it comes in: nothing that comes later takes its place
    obtain ⟨before, after, rfl, hlast⟩ := exists_last hvalue
    rw [pushAll_append, pushAll_cons]
    refine (mem_pushAll_or_pushesOut mem_push_self after).resolve_right ?_
    rintro ⟨between, incoming, rest, rfl, hevicts⟩
    have hcomes : before ++ value :: (between ++ incoming :: rest) =
        (before ++ value :: between) ++ incoming :: rest := by simp
    have hagain : value ∈ rest := by
      refine hspares _ _ _ value hcomes ?_ (by simp)
      rwa [pushAll_append, pushAll_cons]
    exact hlast (List.mem_append_right _ (List.mem_cons_of_mem _ hagain))

omit [DecidableEq α] in
theorem Newest.refl (cap : Nat) (queue values : List α) : Newest cap queue values queue :=
  ⟨[], [], List.nil_subset _, List.append_nil queue, .inl rfl⟩

theorem newest_pushAll (hcap : 0 < cap) (hlength : queue.length ≤ cap) (values : List α) :
    Newest cap queue values (pushAll cap queue values) := by
  induction values using List.reverseRecOn with
  | nil => exact Newest.refl cap queue []
  | append_singleton values value ih =>
      obtain ⟨added, gone, hadded, hsplit, hroom⟩ := ih
      have hwider : added ⊆ values ++ [value] := List.subset_append_of_subset_left _ hadded
      have hadds : added ++ [value] ⊆ values ++ [value] :=
        List.append_subset.mpr ⟨hwider, List.subset_append_right _ _⟩
      have hcame : queue ++ (added ++ [value]) = gone ++ pushAll cap queue values ++ [value] := by
        rw [← List.append_assoc, hsplit]
      rw [pushAll_append, pushAll_cons, pushAll_nil]
      rcases push_cases cap (pushAll cap queue values) value with
        ⟨_, heq⟩ | ⟨oldest, rest, hqueue, hevicts, heq⟩ | ⟨_, hfree, heq⟩
      · rw [heq]
        exact ⟨added, gone, hwider, hsplit, hroom⟩
      · have hfull : (pushAll cap queue values).length ≤ cap := length_pushAll_le hcap hlength
        have hheld := hevicts.2.1
        rw [hqueue] at hcame hfull hheld
        rw [heq]
        refine ⟨added ++ [value], gone ++ [oldest], hadds, by simpa using hcame, .inr ?_⟩
        rw [List.length_append]
        exact Nat.le_antisymm hfull hheld
      · have hgone : gone = [] := by
          refine hroom.resolve_right fun hfull => ?_
          rcases hfree with hfree | hempty
          · omega
          · rw [hempty, List.length_nil] at hfull
            omega
        rw [heq]
        exact ⟨added ++ [value], gone, hadds, by simpa using hcame, .inl hgone⟩

end Fifo

end UnityLan.Foundation
