import UnityLan.Foundation.Pool

namespace UnityLan.Foundation

/-! A machine built onto another: calls of its own, over the operations of the other and some of
its own on a state beside it. -/

@[reducible] def Sig.sum (S T : Sig) : Sig where
  Op := S.Op ⊕ T.Op
  Res
    | .inl o => S.Res o
    | .inr o => T.Res o

def Monitor.onLeft {S T : Sig} {M : Type} (mon : Monitor (S.sum T) M) : Monitor S M where
  allows := fun m o => mon.allows m (.inl o)
  expects := fun m o answer => mon.expects m (.inl o) answer
  next := fun m o answer => mon.next m (.inl o) answer

namespace Prog

variable {S T : Sig} {ε α M : Type}

def left : Prog S ε α → Prog (S.sum T) ε α
  | .ret value => .ret value
  | .fail error => .fail error
  | .op o next => .op (.inl o) fun answer => (next answer).left

theorem conforms_left {mon : Monitor (S.sum T) M} {post : M → Except ε α → Prop}
    (program : Prog S ε α) (m : M) :
    program.left.Conforms mon post m ↔ program.Conforms mon.onLeft post m := by
  induction program generalizing m with
  | ret value => rfl
  | fail error => rfl
  | op o next ih =>
      refine and_congr_right fun _ => forall_congr' fun answer => imp_congr_right fun _ => ?_
      exact ih answer _

theorem Uses.left {inside : (S.sum T).Op → Prop} {program : Prog S ε α}
    (hprogram : program.Uses fun o => inside (.inl o)) : program.left.Uses inside := by
  induction program with
  | ret value => trivial
  | fail error => trivial
  | op o next ih => exact ⟨hprogram.1, fun answer => ih answer (hprogram.2 answer)⟩

end Prog

namespace Machine

variable {S T : Sig}

structure Annex (m : Machine S) (T : Sig) where
  State : Type
  Call : Type
  Reply : Type
  start : Call → Prog (S.sum T) m.Err Reply
  exec : (o : T.Op) → m.Choice → m.State → State → Option (T.Res o × State)
  suspends : T.Op → Bool

def withAnnex (m : Machine S) (annex : m.Annex T) : Machine (S.sum T) where
  State := m.State × annex.State
  Call := m.Call ⊕ annex.Call
  Err := m.Err
  Reply := m.Reply ⊕ annex.Reply
  Choice := m.Choice
  World := m.World
  start
    | .inl call => do return .inl (← (m.start call).left)
    | .inr call => do return .inr (← annex.start call)
  exec
    | task, .inl o, choice, state =>
        (m.exec task o choice state.1).map fun done => (done.1, (done.2, state.2))
    | _, .inr o, choice, state =>
        (annex.exec o choice state.1 state.2).map fun done => (done.1, (state.1, done.2))
  suspends
    | .inl o => m.suspends o
    | .inr o => annex.suspends o
  release := fun task state => (m.release task state.1, state.2)
  move := fun world state => (m.move world state.1).map fun moved => (moved, state.2)

section

variable {m : Machine S} {annex : m.Annex T} {task : Nat} {choice : m.Choice}
  {state state' : m.State × annex.State}

theorem exec_left {o : S.Op} {answer : S.Res o}
    (hexec : (m.withAnnex annex).exec task (.inl o) choice state = some (answer, state')) :
    m.exec task o choice state.1 = some (answer, state'.1) ∧ state'.2 = state.2 := by
  obtain ⟨done, hdone, heq⟩ := Option.map_eq_some_iff.mp hexec
  cases heq
  exact ⟨hdone, rfl⟩

theorem exec_right {o : T.Op} {answer : T.Res o}
    (hexec : (m.withAnnex annex).exec task (.inr o) choice state = some (answer, state')) :
    annex.exec o choice state.1 state.2 = some (answer, state'.2) ∧ state'.1 = state.1 := by
  obtain ⟨done, hdone, heq⟩ := Option.map_eq_some_iff.mp hexec
  cases heq
  exact ⟨hdone, rfl⟩

end

end Machine

end UnityLan.Foundation
