import Mathlib.Data.List.Induction
import Mathlib.Data.List.Pairwise

namespace UnityLan.Foundation

/-! Places of a list: what stands before and after an element. -/

variable {α : Type} {xs : List α}

theorem exists_place_concat {last : α} {p : List α → α → List α → Prop} :
    (∃ before x after, xs ++ [last] = before ++ x :: after ∧ p before x after) ↔
      (∃ before x after, xs = before ++ x :: after ∧ p before x (after ++ [last])) ∨
        p xs last [] := by
  constructor
  · rintro ⟨before, x, after, hsplit, hp⟩
    rcases List.eq_nil_or_concat after with rfl | ⟨front, final, rfl⟩
    · obtain ⟨rfl, hlast⟩ := List.append_inj' hsplit rfl
      rw [List.singleton_inj.mp hlast]
      exact .inr hp
    · rw [List.concat_eq_append] at hsplit hp
      rw [← List.cons_append, ← List.append_assoc] at hsplit
      obtain ⟨hxs, hlast⟩ := List.append_inj' hsplit rfl
      rw [← List.singleton_inj.mp hlast] at hp
      exact .inl ⟨before, x, front, hxs, hp⟩
  · rintro (⟨before, x, after, rfl, hp⟩ | hp)
    · exact ⟨before, x, after ++ [last], by simp, hp⟩
    · exact ⟨xs, last, [], rfl, hp⟩

theorem place_trichotomy {before after before' after' : List α} {x y : α}
    (hsame : before ++ x :: after = before' ++ y :: after') :
    x ∈ before' ∧ y ∈ after ∨ x = y ∨ y ∈ before ∧ x ∈ after' := by
  rcases List.append_eq_append_iff.mp hsame with ⟨middle, hfirst, hrest⟩ | ⟨middle, hfirst, hrest⟩
  · cases middle with
    | nil =>
        rw [List.nil_append, List.cons.injEq] at hrest
        exact .inr (.inl hrest.1)
    | cons head tail =>
        rw [List.cons_append, List.cons.injEq] at hrest
        obtain ⟨rfl, rfl⟩ := hrest
        exact .inl ⟨by simp [hfirst], by simp⟩
  · cases middle with
    | nil =>
        rw [List.nil_append, List.cons.injEq] at hrest
        exact .inr (.inl hrest.1.symm)
    | cons head tail =>
        rw [List.cons_append, List.cons.injEq] at hrest
        obtain ⟨rfl, rfl⟩ := hrest
        exact .inr (.inr ⟨by simp [hfirst], by simp⟩)

theorem pairwise_iff_places {r : α → α → Prop} :
    xs.Pairwise r ↔
      ∀ before x after, xs = before ++ x :: after → ∀ earlier ∈ before, r earlier x := by
  constructor
  · rintro hpairwise before x after rfl earlier hearlier
    exact (List.pairwise_append.mp hpairwise).2.2 earlier hearlier x (List.mem_cons_self ..)
  · intro hplaces
    induction xs using List.reverseRecOn with
    | nil => exact .nil
    | append_singleton front last ih =>
        refine List.pairwise_append.mpr ⟨ih ?_, List.pairwise_singleton r last, ?_⟩
        · rintro before x after rfl
          exact hplaces before x (after ++ [last]) (by simp)
        · intro earlier hearlier x hx
          rw [List.mem_singleton.mp hx]
          exact hplaces front last [] rfl earlier hearlier

/-! Where several elements have a value for something, the last one counts. -/

section

variable {σ β : Type} (hit : α → Bool) (value : α → β)

def lastOf : List α → Option β
  | [] => none
  | x :: rest => (lastOf rest).or (if hit x then some (value x) else none)

variable {hit value}

theorem lastOf_eq_none : lastOf hit value xs = none ↔ ∀ x ∈ xs, hit x = false := by
  induction xs with
  | nil => simp [lastOf]
  | cons x rest ih => cases hx : hit x <;> simp [lastOf, ih, hx]

theorem lastOf_mem {found : β} (hfound : lastOf hit value xs = some found) :
    ∃ x ∈ xs, hit x = true ∧ value x = found := by
  induction xs with
  | nil => cases hfound
  | cons x rest ih =>
      rw [lastOf, Option.or_eq_some_iff] at hfound
      rcases hfound with hlater | ⟨-, hhere⟩
      · obtain ⟨y, hy, hhit⟩ := ih hlater
        exact ⟨y, List.mem_cons_of_mem x hy, hhit⟩
      · split at hhere
        · rename_i hx
          exact ⟨x, List.mem_cons_self, hx, Option.some.inj hhere⟩
        · cases hhere

theorem lastOf_congr {hit' : α → Bool} (hsame : ∀ x ∈ xs, hit x = hit' x) :
    lastOf hit value xs = lastOf hit' value xs := by
  induction xs with
  | nil => rfl
  | cons x rest ih =>
      rw [lastOf, lastOf, ih fun y hy => hsame y (List.mem_cons_of_mem x hy),
        hsame x List.mem_cons_self]

theorem lastOf_perm {ys : List α} (hperm : xs.Perm ys)
    (hagree : ∀ x ∈ xs, ∀ y ∈ xs, hit x = true → hit y = true → value x = value y) :
    lastOf hit value xs = lastOf hit value ys := by
  cases hys : lastOf hit value ys with
  | none =>
      rw [lastOf_eq_none] at hys ⊢
      exact fun x hx => hys x (hperm.mem_iff.mp hx)
  | some found =>
      obtain ⟨y, hy, hhit, rfl⟩ := lastOf_mem hys
      have hyin := hperm.mem_iff.mpr hy
      cases hxs : lastOf hit value xs with
      | none =>
          rw [lastOf_eq_none.mp hxs y hyin] at hhit
          cases hhit
      | some other =>
          obtain ⟨x, hx, hxhit, rfl⟩ := lastOf_mem hxs
          rw [hagree x hx y hyin hxhit hhit]

theorem foldl_lastOf (step : σ → α → σ) (read : σ → Option β) (kept : σ → Prop)
    (hkept : ∀ state x, kept state → kept (step state x))
    (hstep : ∀ state x, kept state →
      read (step state x) = if hit x then some (value x) else read state)
    {state : σ} (hstart : kept state) :
    read (xs.foldl step state) = (lastOf hit value xs).or (read state) := by
  induction xs generalizing state with
  | nil => rfl
  | cons x rest ih =>
      rw [List.foldl_cons, ih (hkept state x hstart), hstep state x hstart, lastOf, Option.or_assoc]
      cases hit x <;> rfl

end

end UnityLan.Foundation
