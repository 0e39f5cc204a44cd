import UnityLan.Foundation.Prog

namespace UnityLan.Foundation

/-! Programs run alone: nothing happens between two of their operations. -/

namespace Prog

variable {S : Sig} {χ σ ε α β : Type} (exec : (o : S.Op) → χ → σ → Option (S.Res o × σ))

/-- A program, the state it starts in, its result and the state it ends in. -/
inductive Eval : Prog S ε α → σ → Except ε α → σ → Prop
  | ret (value : α) (s : σ) : Eval (.ret value) s (.ok value) s
  | fail (error : ε) (s : σ) : Eval (.fail error) s (.error error) s
  | op {o : S.Op} {next : S.Res o → Prog S ε α} {choice : χ} {answer : S.Res o} {s s' s'' : σ}
      {result : Except ε α} (executed : exec o choice s = some (answer, s'))
      (rest : Eval (next answer) s' result s'') : Eval (.op o next) s result s''

def play : Prog S ε α → List χ → σ → Option (Except ε α × σ)
  | .ret value, _, s => some (.ok value, s)
  | .fail error, _, s => some (.error error, s)
  | .op _ _, [], _ => none
  | .op o next, choice :: choices, s =>
      match exec o choice s with
      | none => none
      | some (answer, s') => (next answer).play choices s'

variable {exec}

theorem eval_of_play {program : Prog S ε α} {choices : List χ} {s s' : σ}
    {result : Except ε α} (hplay : program.play exec choices s = some (result, s')) :
    Eval exec program s result s' := by
  induction program generalizing choices s with
  | ret value =>
      cases hplay
      exact .ret value _
  | fail error =>
      cases hplay
      exact .fail error _
  | op o next ih =>
      cases choices with
      | nil => cases hplay
      | cons choice choices =>
          unfold play at hplay
          split at hplay
          · cases hplay
          · rename_i hexecuted
            exact .op hexecuted (ih _ hplay)

theorem eval_bind {program : Prog S ε α} {f : α → Prog S ε β} {s s'' : σ} {result : Except ε β}
    (heval : Eval exec (program >>= f) s result s'') :
    (∃ value s', Eval exec program s (.ok value) s' ∧ Eval exec (f value) s' result s'') ∨
      ∃ error, Eval exec program s (.error error) s'' ∧ result = .error error := by
  induction program generalizing s with
  | ret value => exact .inl ⟨value, s, .ret value s, heval⟩
  | fail error =>
      cases heval
      exact .inr ⟨error, .fail error _, rfl⟩
  | op o next ih =>
      cases heval with
      | op hexecuted hrest =>
          rcases ih _ hrest with ⟨value, s', hfirst, hsecond⟩ | ⟨error, hfirst, hresult⟩
          · exact .inl ⟨value, s', .op hexecuted hfirst, hsecond⟩
          · exact .inr ⟨error, .op hexecuted hfirst, hresult⟩

/-- A relation of the states before and after that each operation of a class is in, and
that composes, relates the ends of a program that stays inside the class. -/
theorem Uses.eval {inside : S.Op → Prop} {program : Prog S ε α} (rel : σ → σ → Prop)
    (hrefl : ∀ s, rel s s) (htrans : ∀ s s' s'', rel s s' → rel s' s'' → rel s s'')
    (hprogram : program.Uses inside)
    (hstep : ∀ o choice answer s s', inside o → exec o choice s = some (answer, s') → rel s s')
    {s s' : σ} {result : Except ε α} (heval : Eval exec program s result s') : rel s s' := by
  induction heval with
  | ret value s => exact hrefl s
  | fail error s => exact hrefl s
  | op hexecuted _ ih =>
      exact htrans _ _ _ (hstep _ _ _ _ _ hprogram.1 hexecuted) (ih (hprogram.2 _))

theorem eval_mapError {ε' : Type} {f : ε → ε'} {program : Prog S ε α} {s s' : σ}
    {result : Except ε' α} (heval : Eval exec (program.mapError f) s result s') :
    ∃ inner, Eval exec program s inner s' ∧ result = inner.mapError f := by
  induction program generalizing s with
  | ret value =>
      cases heval
      exact ⟨.ok value, .ret value _, rfl⟩
  | fail error =>
      cases heval
      exact ⟨.error error, .fail error _, rfl⟩
  | op o next ih =>
      cases heval with
      | op hexecuted hrest =>
          obtain ⟨inner, hinner, hresult⟩ := ih _ hrest
          exact ⟨inner, .op hexecuted hinner, hresult⟩

theorem eval_attempt {ε' : Type} {program : Prog S ε α} {s s' : σ}
    {result : Except ε' (Except ε α)} (heval : Eval exec program.attempt s result s') :
    ∃ inner, Eval exec program s inner s' ∧ result = .ok inner := by
  induction program generalizing s with
  | ret value =>
      cases heval
      exact ⟨.ok value, .ret value _, rfl⟩
  | fail error =>
      cases heval
      exact ⟨.error error, .fail error _, rfl⟩
  | op o next ih =>
      cases heval with
      | op hexecuted hrest =>
          obtain ⟨inner, hinner, hresult⟩ := ih _ hrest
          exact ⟨inner, .op hexecuted hinner, hresult⟩

theorem Uses.evaluates {inside : S.Op → Prop} {program : Prog S ε α}
    (hprogram : program.Uses inside)
    (hanswers : ∀ o s, inside o → ∃ choice answer s', exec o choice s = some (answer, s')) (s : σ) :
    ∃ result s', Eval exec program s result s' := by
  induction program generalizing s with
  | ret value => exact ⟨_, s, .ret value s⟩
  | fail error => exact ⟨_, s, .fail error s⟩
  | op o next ih =>
      obtain ⟨choice, answer, s', hexecuted⟩ := hanswers o s hprogram.1
      obtain ⟨result, s'', hrest⟩ := ih answer (hprogram.2 answer) s'
      exact ⟨result, s'', .op hexecuted hrest⟩

theorem Conforms.eval {M : Type} {mon : Monitor S M} {post : M → Except ε α → Prop}
    (stands : M → σ → Prop)
    (hstep : ∀ m s o choice answer s', stands m s → mon.allows m o →
      exec o choice s = some (answer, s') →
      mon.expects m o answer ∧ stands (mon.next m o answer) s')
    {program : Prog S ε α} {m : M} {s s' : σ} {result : Except ε α}
    (hconforms : program.Conforms mon post m) (hstands : stands m s)
    (heval : Eval exec program s result s') : ∃ m', stands m' s' ∧ post m' result := by
  induction heval generalizing m with
  | ret value s => exact ⟨m, hstands, hconforms⟩
  | fail error s => exact ⟨m, hstands, hconforms⟩
  | op hexecuted _ ih =>
      obtain ⟨hallows, hrest⟩ := hconforms
      obtain ⟨hexpects, hstands'⟩ := hstep _ _ _ _ _ _ hstands hallows hexecuted
      exact ih (hrest _ hexpects) hstands'

theorem Eval.weaken {χ' : Type} {exec' : (o : S.Op) → χ' → σ → Option (S.Res o × σ)}
    {program : Prog S ε α} {s s' : σ} {result : Except ε α}
    (hweaker : ∀ o choice s after, exec o choice s = some after →
      ∃ choice', exec' o choice' s = some after)
    (heval : Eval exec program s result s') : Eval exec' program s result s' := by
  induction heval with
  | ret value s => exact .ret value s
  | fail error s => exact .fail error s
  | op hexecuted _ ih =>
      obtain ⟨choice', hexecuted'⟩ := hweaker _ _ _ _ hexecuted
      exact .op hexecuted' ih

/-! Where each operation has one answer, a program run alone has one result. -/

section

variable (answers : (o : S.Op) → σ → S.Res o × σ)

def run : Prog S ε α → σ → Except ε α × σ
  | .ret value, s => (.ok value, s)
  | .fail error, s => (.error error, s)
  | .op o next, s => (next (answers o s).1).run (answers o s).2

@[simp] theorem run_ret (value : α) (s : σ) :
    (Prog.ret value : Prog S ε α).run answers s = (.ok value, s) := rfl

@[simp] theorem run_fail (error : ε) (s : σ) :
    (Prog.fail error : Prog S ε α).run answers s = (.error error, s) := rfl

variable {answers}

theorem run_bind (program : Prog S ε α) (f : α → Prog S ε β) (s : σ) :
    (program >>= f).run answers s =
      match program.run answers s with
      | (.ok value, s') => (f value).run answers s'
      | (.error error, s') => (.error error, s') := by
  induction program generalizing s with
  | ret value => rfl
  | fail error => rfl
  | op o next ih => exact ih _ _

theorem run_performOr (o : S.Op) (read : S.Res o → Except ε α) (s : σ) :
    (performOr o read).run answers s = (read (answers o s).1, (answers o s).2) := by
  unfold performOr run
  generalize answers o s = answered
  obtain ⟨answer, s'⟩ := answered
  dsimp only
  cases read answer <;> rfl

/-- As `Uses.eval`, where each operation has one answer. -/
theorem Uses.run {inside : S.Op → Prop} {program : Prog S ε α} (rel : σ → σ → Prop)
    (hrefl : ∀ s, rel s s) (htrans : ∀ s s' s'', rel s s' → rel s' s'' → rel s s'')
    (hprogram : program.Uses inside) (hstep : ∀ o s, inside o → rel s (answers o s).2) (s : σ) :
    rel s (program.run answers s).2 := by
  induction program generalizing s with
  | ret value => exact hrefl s
  | fail error => exact hrefl s
  | op o next ih => exact htrans _ _ _ (hstep o s hprogram.1) (ih _ (hprogram.2 _) _)

theorem run_bind_error {program : Prog S ε α} {f : α → Prog S ε β} {s s'' : σ} {error : ε}
    (hrun : (program >>= f).run answers s = (.error error, s'')) :
    program.run answers s = (.error error, s'') ∨
      ∃ value s', program.run answers s = (.ok value, s') ∧
        (f value).run answers s' = (.error error, s'') := by
  rw [run_bind] at hrun
  split at hrun
  · rename_i value s' hfirst
    exact .inr ⟨value, s', hfirst, hrun⟩
  · rename_i first s' hfirst
    cases hrun
    exact .inl hfirst

theorem run_bind_ok {program : Prog S ε α} {f : α → Prog S ε β} {s s'' : σ} {result : β}
    (hrun : (program >>= f).run answers s = (.ok result, s'')) :
    ∃ value s', program.run answers s = (.ok value, s') ∧
      (f value).run answers s' = (.ok result, s'') := by
  rw [run_bind] at hrun
  split at hrun
  · rename_i value s' hfirst
    exact ⟨value, s', hfirst, hrun⟩
  · cases hrun

theorem run_map_error {program : Prog S ε α} {f : α → β} {s s' : σ} {error : ε}
    (hrun : (f <$> program).run answers s = (.error error, s')) :
    program.run answers s = (.error error, s') := by
  rcases run_bind_error hrun with hprogram | ⟨value, last, _, hvalue⟩
  · exact hprogram
  · cases hvalue

end

end Prog

end UnityLan.Foundation
