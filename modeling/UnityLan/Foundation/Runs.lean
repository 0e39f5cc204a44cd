import Mathlib.Init

namespace UnityLan.Foundation

/-! Runs of a partial step function over a list of events. -/

variable {σ ε : Type} (step : σ → ε → Option σ)

def runs (s : σ) (events : List ε) : Option σ :=
  events.foldlM step s

/-- In every state of a run. -/
def Throughout (s : σ) (events : List ε) (holds : σ → Prop) : Prop :=
  ∀ before t, before <+: events → runs step s before = some t → holds t

/-- At every step of a run. -/
def AtEach (s : σ) (events : List ε) (holds : σ → ε → σ → Prop) : Prop :=
  ∀ before event t t', before ++ [event] <+: events → runs step s before = some t →
    step t event = some t' → holds t event t'

/-- Whether every step of a run passes a test. -/
def meets (test : σ → ε → Bool) : σ → List ε → Bool
  | _, [] => true
  | s, event :: rest =>
      match step s event with
      | none => true
      | some s' => test s event && meets test s' rest

variable {step} {s s' : σ} {event : ε} {events before after : List ε}

@[simp] theorem runs_nil : runs step s [] = some s := rfl

theorem runs_cons : runs step s (event :: events) = (step s event).bind (runs step · events) := by
  unfold runs
  rw [List.foldlM_cons]
  rfl

theorem runs_append :
    runs step s (before ++ after) = (runs step s before).bind (runs step · after) := by
  unfold runs
  rw [List.foldlM_append]
  rfl

theorem runs_snoc : runs step s (before ++ [event]) = (runs step s before).bind (step · event) := by
  rw [runs_append]
  congr 1
  funext t
  rw [runs_cons]
  cases step t event <;> rfl

theorem atEach_cons {holds : σ → ε → σ → Prop} (hstep : step s event = some s') :
    AtEach step s (event :: events) holds ↔
      holds s event s' ∧ AtEach step s' events holds := by
  constructor
  · intro hall
    refine ⟨hall [] event s s' ⟨events, rfl⟩ rfl hstep, ?_⟩
    intro before next t t' hinit hrun hnext
    refine hall (event :: before) next t t' (List.cons_prefix_cons.mpr ⟨rfl, hinit⟩) ?_ hnext
    rw [runs_cons, hstep]
    exact hrun
  · rintro ⟨hfirst, hrest⟩ before next t t' hinit hrun hnext
    cases before with
    | nil =>
        obtain ⟨rfl, _⟩ := List.cons_prefix_cons.mp hinit
        cases hrun
        rw [Option.some.inj (hnext.symm.trans hstep)]
        exact hfirst
    | cons first before =>
        obtain ⟨rfl, hshorter⟩ := List.cons_prefix_cons.mp hinit
        rw [runs_cons, hstep] at hrun
        exact hrest before next t t' hshorter hrun hnext

theorem atEach_nil {holds : σ → ε → σ → Prop} : AtEach step s [] holds := by
  intro before next t t' hinit
  simp at hinit

theorem atEach_stuck {holds : σ → ε → σ → Prop} (hstep : step s event = none) :
    AtEach step s (event :: events) holds := by
  intro before next t t' hinit hrun hnext
  cases before with
  | nil =>
      obtain ⟨rfl, _⟩ := List.cons_prefix_cons.mp hinit
      cases hrun
      rw [hstep] at hnext
      cases hnext
  | cons first before =>
      obtain ⟨rfl, _⟩ := List.cons_prefix_cons.mp hinit
      rw [runs_cons, hstep] at hrun
      cases hrun

theorem meets_iff {test : σ → ε → Bool} :
    meets step test s events = true ↔ AtEach step s events fun t event _ => test t event =
      true := by
  induction events generalizing s with
  | nil => exact ⟨fun _ => atEach_nil, fun _ => rfl⟩
  | cons event rest ih =>
      unfold meets
      split
      · rename_i hstep
        exact ⟨fun _ => atEach_stuck hstep, fun _ => rfl⟩
      · rename_i s' hstep
        rw [Bool.and_eq_true, ih, atEach_cons hstep]

theorem meets_events {test : ε → Bool} (htest : ∀ event ∈ events, test event = true) :
    meets step (fun _ event => test event) s events = true := by
  rw [meets_iff]
  intro before event t t' hinit _ _
  exact htest event (hinit.subset (by simp))

theorem Throughout.of_atEach (inv : σ → Prop) {holds : σ → Prop} {condition : σ → ε → σ → Prop}
    (heach : AtEach step s events condition) (hinv : inv s)
    (hstep : ∀ s event s', inv s → condition s event s' → step s event = some s' → inv s')
    (hholds : ∀ s, inv s → holds s) : Throughout step s events holds := by
  induction events generalizing s with
  | nil =>
      intro before t hinit hrun
      obtain rfl := List.prefix_nil.mp hinit
      cases hrun
      exact hholds _ hinv
  | cons event rest ih =>
      intro before t hinit hrun
      cases before with
      | nil =>
          cases hrun
          exact hholds _ hinv
      | cons first before =>
          obtain ⟨rfl, hshorter⟩ := List.cons_prefix_cons.mp hinit
          rw [runs_cons] at hrun
          obtain ⟨next, hnext, hrest⟩ := Option.bind_eq_some_iff.mp hrun
          obtain ⟨hfirst, hothers⟩ := (atEach_cons hnext).mp heach
          exact ih hothers (hstep s first next hinv hfirst hnext) before t hshorter hrest

theorem Throughout.of_step (inv : σ → Prop) {holds : σ → Prop} {test : σ → ε → Bool}
    (hmeets : meets step test s events = true) (hinv : inv s)
    (hstep : ∀ s event s', inv s → test s event = true → step s event = some s' → inv s')
    (hholds : ∀ s, inv s → holds s) : Throughout step s events holds :=
  Throughout.of_atEach inv (meets_iff.mp hmeets) hinv hstep hholds

theorem AtEach.congr_while (inv : σ → Prop) {first second : σ → ε → σ → Prop} (hinv : inv s)
    (hkeeps : ∀ s event s', inv s → step s event = some s' → first s event s' → inv s')
    (hsame : ∀ s event s', inv s → step s event = some s' →
      (first s event s' ↔ second s event s')) :
    AtEach step s events first ↔ AtEach step s events second := by
  induction events generalizing s with
  | nil => exact ⟨fun _ => atEach_nil, fun _ => atEach_nil⟩
  | cons event rest ih =>
      cases hstep : step s event with
      | none => exact ⟨fun _ => atEach_stuck hstep, fun _ => atEach_stuck hstep⟩
      | some s' =>
          rw [atEach_cons hstep, atEach_cons hstep, ← hsame s event s' hinv hstep]
          exact and_congr_right fun hfirst => ih (hkeeps s event s' hinv hstep hfirst)

theorem AtEach.congr (inv : σ → Prop) {first second : σ → ε → σ → Prop} (hinv : inv s)
    (hkeeps : ∀ s event s', inv s → step s event = some s' → inv s')
    (hsame : ∀ s event s', inv s → step s event = some s' →
      (first s event s' ↔ second s event s')) :
    AtEach step s events first ↔ AtEach step s events second :=
  AtEach.congr_while inv hinv (fun s event s' hheld hstep _ => hkeeps s event s' hheld hstep) hsame

theorem AtEach.of_meets (inv : σ → Prop) {holds : σ → ε → σ → Prop} {test : σ → ε → Bool}
    (hmeets : meets step test s events = true) (hinv : inv s)
    (hkeeps : ∀ s event s', inv s → test s event = true → step s event = some s' → inv s')
    (hholds : ∀ s event s', inv s → test s event = true → step s event = some s' →
      holds s event s') : AtEach step s events holds := by
  induction events generalizing s with
  | nil => exact atEach_nil
  | cons event rest ih =>
      cases hstep : step s event with
      | none => exact atEach_stuck hstep
      | some s' =>
          rw [meets, hstep] at hmeets
          obtain ⟨htest, hmeets⟩ := Bool.and_eq_true_iff.mp hmeets
          rw [atEach_cons hstep]
          exact ⟨hholds s event s' hinv htest hstep, ih hmeets (hkeeps s event s' hinv htest hstep)⟩

end UnityLan.Foundation
