import Mathlib.Data.List.Basic
import Mathlib.Tactic.Common

namespace UnityLan.Foundation

/-! A log of times, and how many of them fall within a window of a fixed span. -/

namespace Window

variable {span cap now later start : Nat} {times : List Nat}

/-- The times less than `span` before `now`. -/
def recent (span now : Nat) (times : List Nat) : List Nat :=
  times.filter fun time => now - time < span

/-- The times of the window that opens at `start`. -/
def opened (span start : Nat) (times : List Nat) : List Nat :=
  times.filter fun time => start ≤ time && time < start + span

/-- No window holds more than `cap` times. -/
def Paced (span cap : Nat) (times : List Nat) : Prop :=
  ∀ start, (opened span start times).length ≤ cap

@[simp] theorem recent_nil : recent span now [] = [] := rfl

theorem recent_recent (hlater : now ≤ later) :
    recent span later (recent span now times) = recent span later times := by
  unfold recent
  rw [List.filter_filter]
  apply List.filter_congr
  intro time _
  rw [Bool.and_eq_left_iff_imp]
  simp only [decide_eq_true_eq]
  omega

theorem recent_append_now (hspan : 0 < span) :
    recent span now (times ++ [now]) = recent span now times ++ [now] := by
  simp [recent, hspan]

theorem recent_sublist {part : List Nat} (hpart : part.Sublist times) :
    (recent span now part).Sublist (recent span now times) :=
  hpart.filter _

theorem opened_sublist_recent (hopen : now < start + span) :
    (opened span start times).Sublist (recent span now times) := by
  apply List.monotone_filter_right
  intro time htime
  simp only [Bool.and_eq_true, decide_eq_true_eq] at htime ⊢
  omega

theorem Paced.nil : Paced span cap [] :=
  fun _ => Nat.zero_le cap

/-- A time admitted while fewer than `cap` are recent. -/
theorem Paced.append (hpaced : Paced span cap times)
    (hroom : (recent span now times).length < cap) : Paced span cap (times ++ [now]) := by
  intro start
  unfold opened
  rw [List.filter_append, List.length_append]
  by_cases hopen : start ≤ now ∧ now < start + span
  · have hsublist : (opened span start times).Sublist (recent span now times) :=
      opened_sublist_recent hopen.2
    have hrecent := hsublist.length_le
    unfold opened at hrecent
    have hlast := List.length_filter_le (fun time => start ≤ time && time < start + span) [now]
    rw [List.length_singleton] at hlast
    omega
  · have hlast : [now].filter (fun time => start ≤ time && time < start + span) = [] := by
      simpa using hopen
    rw [hlast, List.length_nil, Nat.add_zero]
    exact hpaced start

/-- Times that are a gap apart, the last one first, and none before `start`. -/
theorem spaced_head {gap : Nat} {rest : List Nat}
    (hspaced : (now :: rest).Pairwise fun later earlier => earlier + gap ≤ later)
    (hafter : ∀ time ∈ now :: rest, start ≤ time) : start + rest.length * gap ≤ now := by
  induction rest generalizing now with
  | nil =>
      rw [List.length_nil, Nat.zero_mul]
      exact hafter now List.mem_cons_self
  | cons next rest ih =>
      obtain ⟨hnow, hrest⟩ := List.pairwise_cons.mp hspaced
      have hnext : next + gap ≤ now := hnow next List.mem_cons_self
      have hbefore := ih hrest fun time htime => hafter time (List.mem_cons_of_mem _ htime)
      rw [List.length_cons, Nat.succ_mul]
      omega

theorem Paced.of_spaced {gap : Nat}
    (hspaced : times.Pairwise fun later earlier => earlier + gap ≤ later)
    (hspan : span ≤ cap * gap) : Paced span cap times := by
  intro start
  have hopened := hspaced.sublist (List.filter_sublist (p := fun time =>
    start ≤ time && time < start + span))
  have hwithin : ∀ time ∈ opened span start times, start ≤ time ∧ time < start + span := by
    intro time htime
    simpa using (List.mem_filter.mp htime).2
  change (opened span start times).Pairwise _ at hopened
  cases hlist : opened span start times with
  | nil => exact Nat.zero_le cap
  | cons first rest =>
      rw [hlist] at hopened hwithin
      have hfirst := spaced_head hopened fun time htime => (hwithin time htime).1
      have hlast := (hwithin first List.mem_cons_self).2
      rw [List.length_cons]
      refine Nat.succ_le_of_lt (Nat.lt_of_mul_lt_mul_right (a := gap) ?_)
      omega

/-- A count that starts anew: the times of the windows before, and those of the window that opened
at `start`. -/
structure Counted (span cap start : Nat) (before current : List Nat) : Prop where
  earlier : ∀ time ∈ before, time < start
  within : ∀ time ∈ current, start ≤ time ∧ time < start + span
  few : current.length ≤ cap
  /-- What reaches into the window that is open reaches back into one other at most. -/
  near : ∀ first, start < first + span → (opened span first before).length ≤ cap
  paced : Paced span (2 * cap) before

namespace Counted

variable {before current : List Nat} {time : Nat}

theorem started : Counted span cap start [] [] where
  earlier := nofun
  within := nofun
  few := Nat.zero_le cap
  near := fun _ _ => Nat.zero_le cap
  paced := .nil

theorem append (hcounted : Counted span cap start before current) (hroom : current.length < cap)
    (hopen : start ≤ time ∧ time < start + span) :
    Counted span cap start before (current ++ [time]) where
  earlier := hcounted.earlier
  within := by
    intro other hother
    rcases List.mem_append.mp hother with hother | hother
    · exact hcounted.within other hother
    · obtain rfl := List.mem_singleton.mp hother
      exact hopen
  few := by
    rw [List.length_append, List.length_singleton]
    exact hroom
  near := hcounted.near
  paced := hcounted.paced

theorem all_paced (hcounted : Counted span cap start before current) :
    Paced span (2 * cap) (before ++ current) := by
  intro first
  unfold opened
  rw [List.filter_append, List.length_append]
  have hcurrent := Nat.le_trans
    (List.length_filter_le (fun time => first ≤ time && time < first + span) current) hcounted.few
  by_cases hreach : start < first + span
  · have hbefore := hcounted.near first hreach
    unfold opened at hbefore
    omega
  · have hnone : current.filter (fun time => first ≤ time && time < first + span) = [] := by
      apply List.filter_eq_nil_iff.mpr
      intro time htime
      have hstart := (hcounted.within time htime).1
      simp only [Bool.and_eq_true, decide_eq_true_eq]
      omega
    rw [hnone, List.length_nil, Nat.add_zero]
    exact hcounted.paced first

theorem renew (hcounted : Counted span cap start before current) (hspan : 0 < span)
    (hover : start + span ≤ now) : Counted span cap now (before ++ current) [] where
  earlier := by
    intro time htime
    rcases List.mem_append.mp htime with htime | htime
    · have hearlier := hcounted.earlier time htime
      omega
    · have hwithin := (hcounted.within time htime).2
      omega
  within := nofun
  few := Nat.zero_le cap
  near := by
    intro first hreach
    have hnone : before.filter (fun time => first ≤ time && time < first + span) = [] := by
      apply List.filter_eq_nil_iff.mpr
      intro time htime
      have hearlier := hcounted.earlier time htime
      simp only [Bool.and_eq_true, decide_eq_true_eq]
      omega
    unfold opened
    rw [List.filter_append, hnone, List.nil_append]
    exact Nat.le_trans (List.length_filter_le ..) hcounted.few
  paced := hcounted.all_paced

end Counted

end Window

end UnityLan.Foundation
