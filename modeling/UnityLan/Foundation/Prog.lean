import Mathlib.Logic.Basic

namespace UnityLan.Foundation

/-! Programs over a signature of atomic operations.  Between two operations of a
program anything may happen to the state the operations act on. -/

structure Sig where
  Op : Type
  Res : Op → Type

inductive Prog (S : Sig) (ε α : Type) : Type
  | ret (value : α)
  | fail (error : ε)
  | op (o : S.Op) (next : S.Res o → Prog S ε α)

namespace Prog

variable {S : Sig} {ε α β : Type}

protected def bind : Prog S ε α → (α → Prog S ε β) → Prog S ε β
  | .ret value, f => f value
  | .fail error, _ => .fail error
  | .op o next, f => .op o fun answer => (next answer).bind f

protected def rescue : Prog S ε α → (ε → Prog S ε α) → Prog S ε α
  | .ret value, _ => .ret value
  | .fail error, handler => handler error
  | .op o next, handler => .op o fun answer => (next answer).rescue handler

instance : Monad (Prog S ε) where
  pure := .ret
  bind := Prog.bind

instance : MonadExcept ε (Prog S ε) where
  throw := .fail
  tryCatch := Prog.rescue

def perform (o : S.Op) : Prog S ε (S.Res o) :=
  .op o .ret

def performOr (o : S.Op) (read : S.Res o → Except ε α) : Prog S ε α :=
  .op o fun answer =>
    match read answer with
    | .ok value => .ret value
    | .error error => .fail error

def mapError {ε' : Type} (f : ε → ε') : Prog S ε α → Prog S ε' α
  | .ret value => .ret value
  | .fail error => .fail (f error)
  | .op o next => .op o fun answer => (next answer).mapError f

def attempt {ε' : Type} : Prog S ε α → Prog S ε' (Except ε α)
  | .ret value => .ret (.ok value)
  | .fail error => .ret (.error error)
  | .op o next => .op o fun answer => (next answer).attempt

def interpret {T : Sig} (perform : (o : S.Op) → Prog T ε (S.Res o)) : Prog S ε α → Prog T ε α
  | .ret value => .ret value
  | .fail error => .fail error
  | .op o next => (perform o).bind fun answer => (next answer).interpret perform

@[simp] theorem pure_eq (value : α) :
    (pure value : Prog S ε α) = .ret value := rfl

@[simp] theorem throw_eq (error : ε) :
    (throw error : Prog S ε α) = .fail error := rfl

@[simp] theorem ret_bind (value : α) (f : α → Prog S ε β) :
    (Prog.ret value : Prog S ε α) >>= f = f value := rfl

@[simp] theorem fail_bind (error : ε) (f : α → Prog S ε β) :
    (Prog.fail error : Prog S ε α) >>= f = .fail error := rfl

@[simp] theorem op_bind (o : S.Op) (next : S.Res o → Prog S ε α)
    (f : α → Prog S ε β) :
    Prog.op o next >>= f = .op o fun answer => next answer >>= f := rfl

theorem bind_ret (program : Prog S ε α) : program >>= Prog.ret = program := by
  induction program with
  | ret value => rfl
  | fail error => rfl
  | op o next ih => simp [ih]

theorem bind_assoc {γ : Type} (program : Prog S ε α)
    (f : α → Prog S ε β) (g : β → Prog S ε γ) :
    program >>= f >>= g = program >>= fun value => f value >>= g := by
  induction program with
  | ret value => rfl
  | fail error => rfl
  | op o next ih => simp [ih]

end Prog

/-! A monitor follows one program by the operations it performs and the answers
it gets.  `allows` is what the program owes at each operation, `expects` what it
may rely on about the answer. -/

structure Monitor (S : Sig) (M : Type) where
  allows : M → S.Op → Prop
  expects : M → (o : S.Op) → S.Res o → Prop
  next : M → (o : S.Op) → S.Res o → M

namespace Prog

variable {S : Sig} {ε α β M : Type}

/-- Started in monitor state `m`, the program performs only allowed operations
and ends in a state that satisfies `post`, as long as every answer is expected. -/
def Conforms (mon : Monitor S M) (post : M → Except ε α → Prop) :
    Prog S ε α → M → Prop
  | .ret value, m => post m (.ok value)
  | .fail error, m => post m (.error error)
  | .op o next, m =>
      mon.allows m o ∧
        ∀ answer, mon.expects m o answer →
          (next answer).Conforms mon post (mon.next m o answer)

def after (mon : Monitor S M) (post : M → Except ε β → Prop)
    (f : α → Prog S ε β) : M → Except ε α → Prop
  | m, .ok value => (f value).Conforms mon post m
  | m, .error error => post m (.error error)

variable {mon : Monitor S M} {post : M → Except ε β → Prop}

@[simp] theorem conforms_ret {post : M → Except ε α → Prop} (value : α) (m : M) :
    (Prog.ret value : Prog S ε α).Conforms mon post m ↔ post m (.ok value) :=
  Iff.rfl

@[simp] theorem conforms_fail {post : M → Except ε α → Prop} (error : ε) (m : M) :
    (Prog.fail error : Prog S ε α).Conforms mon post m ↔ post m (.error error) :=
  Iff.rfl

@[simp] theorem conforms_op {post : M → Except ε α → Prop} (o : S.Op)
    (next : S.Res o → Prog S ε α) (m : M) :
    (Prog.op o next).Conforms mon post m ↔
      mon.allows m o ∧
        ∀ answer, mon.expects m o answer →
          (next answer).Conforms mon post (mon.next m o answer) :=
  Iff.rfl

theorem conforms_bind (program : Prog S ε α) (f : α → Prog S ε β) (m : M) :
    (program >>= f).Conforms mon post m ↔
      program.Conforms mon (after mon post f) m := by
  induction program generalizing m with
  | ret value => rfl
  | fail error => rfl
  | op o next ih => simp [ih]

theorem Conforms.mono {program : Prog S ε α} {first second : M → Except ε α → Prop}
    (hweaker : ∀ m result, first m result → second m result) {m : M}
    (hprogram : program.Conforms mon first m) : program.Conforms mon second m := by
  induction program generalizing m with
  | ret value => exact hweaker m _ hprogram
  | fail error => exact hweaker m _ hprogram
  | op o next ih =>
      exact ⟨hprogram.1, fun answer hanswer => ih answer (hprogram.2 answer hanswer)⟩

theorem Conforms.and {program : Prog S ε α} {first second : M → Except ε α → Prop} {m : M}
    (hfirst : program.Conforms mon first m) (hsecond : program.Conforms mon second m) :
    program.Conforms mon (fun m' result => first m' result ∧ second m' result) m := by
  induction program generalizing m with
  | ret value => exact ⟨hfirst, hsecond⟩
  | fail error => exact ⟨hfirst, hsecond⟩
  | op o next ih =>
      refine ⟨hfirst.1, fun answer hanswer => ?_⟩
      exact ih answer (hfirst.2 answer hanswer) (hsecond.2 answer hanswer)

theorem Conforms.bind {program : Prog S ε α} {f : α → Prog S ε β}
    {mid : M → Except ε α → Prop} {m : M}
    (hfirst : program.Conforms mon mid m)
    (hrest : ∀ m' value, mid m' (.ok value) → (f value).Conforms mon post m')
    (herror : ∀ m' error, mid m' (.error error) → post m' (.error error)) :
    (program >>= f).Conforms mon post m := by
  rw [conforms_bind]
  refine hfirst.mono fun m' result hmid => ?_
  cases result with
  | ok value => exact hrest m' value hmid
  | error error => exact herror m' error hmid

@[simp] theorem conforms_mapError {ε' : Type} (program : Prog S ε α) (f : ε → ε')
    {post : M → Except ε' α → Prop} (m : M) :
    (program.mapError f).Conforms mon post m ↔
      program.Conforms mon (fun m' result => post m' (result.mapError f)) m := by
  induction program generalizing m with
  | ret value => rfl
  | fail error => rfl
  | op o next ih => simp [mapError, ih]

theorem Conforms.mapError {ε' : Type} {program : Prog S ε α} {f : ε → ε'}
    {mid : M → Except ε α → Prop} {post : M → Except ε' α → Prop} {m : M}
    (hprogram : program.Conforms mon mid m)
    (hpost : ∀ m' result, mid m' result → post m' (result.mapError f)) :
    (program.mapError f).Conforms mon post m :=
  (conforms_mapError program f m).mpr (hprogram.mono hpost)

@[simp] theorem conforms_attempt {ε' : Type} (program : Prog S ε α)
    {post : M → Except ε' (Except ε α) → Prop} (m : M) :
    (program.attempt : Prog S ε' (Except ε α)).Conforms mon post m ↔
      program.Conforms mon (fun m' result => post m' (.ok result)) m := by
  induction program generalizing m with
  | ret value => rfl
  | fail error => rfl
  | op o next ih => simp [attempt, ih]

/-- A postcondition on the value a program returns; it may fail as it likes. -/
def returns (value : M → α → Prop) : M → Except ε α → Prop
  | m, .ok result => value m result
  | _, .error _ => True

theorem Conforms.andThen {program : Prog S ε α} {f : α → Prog S ε β}
    {mid : M → α → Prop} {last : M → β → Prop} {m : M}
    (hfirst : program.Conforms mon (returns mid) m)
    (hrest : ∀ m' value, mid m' value → (f value).Conforms mon (returns last) m') :
    (program >>= f).Conforms mon (returns last) m :=
  hfirst.bind hrest fun _ _ _ => trivial

theorem Conforms.through {program : Prog S ε α} {f : α → Prog S ε β} {last : M → β → Prop}
    {m : M} (mid : M → α → Prop) (hfirst : program.Conforms mon (returns mid) m)
    (hrest : ∀ m' value, mid m' value → (f value).Conforms mon (returns last) m') :
    (program >>= f).Conforms mon (returns last) m :=
  hfirst.andThen hrest

theorem Conforms.mapError_returns {ε' : Type} {program : Prog S ε α} {f : ε → ε'}
    {value : M → α → Prop} {m : M} (hprogram : program.Conforms mon (returns value) m) :
    (program.mapError f).Conforms mon (returns value) m := by
  refine hprogram.mapError fun m' result hresult => ?_
  cases result with
  | ok result => exact hresult
  | error error => trivial

theorem Conforms.returns_mono {program : Prog S ε α} {first second : M → α → Prop} {m : M}
    (hprogram : program.Conforms mon (returns first) m)
    (hweaker : ∀ m' value, first m' value → second m' value) :
    program.Conforms mon (returns second) m := by
  refine hprogram.mono fun m' result hresult => ?_
  cases result with
  | ok result => exact hweaker m' result hresult
  | error error => trivial

/-- The loop rule: an invariant of the items done so far, the accumulator and the
monitor state that each round keeps holds of all items after the loop. -/
theorem Conforms.foldlM_done {β : Type} (done items : List β) (round : α → β → Prog S ε α)
    (inv : List β → M → α → Prop)
    (hround : ∀ done m acc item, item ∈ items → inv done m acc →
      (round acc item).Conforms mon (returns (inv (done ++ [item]))) m)
    {acc : α} {m : M} (hinv : inv done m acc) :
    (items.foldlM round acc).Conforms mon (returns (inv (done ++ items))) m := by
  induction items generalizing done acc m with
  | nil => simpa [returns] using hinv
  | cons head tail ih =>
      rw [List.foldlM_cons]
      refine (hround done m acc head (by simp) hinv).andThen fun m' acc' hinv' => ?_
      have htail := ih (done ++ [head])
        (fun done m acc item hitem => hround done m acc item (by simp [hitem])) hinv'
      simpa using htail

theorem Conforms.foldlM {β : Type} (items : List β) (round : α → β → Prog S ε α)
    (inv : M → α → Prop)
    (hround : ∀ m acc item, item ∈ items → inv m acc →
      (round acc item).Conforms mon (returns inv) m)
    {acc : α} {m : M} (hinv : inv m acc) :
    (items.foldlM round acc).Conforms mon (returns inv) m :=
  Conforms.foldlM_done [] items round (fun _ => inv) (fun _ => hround) hinv

/-! Programs that stay inside a class of operations. -/

def Uses (inside : S.Op → Prop) : Prog S ε α → Prop
  | .ret _ => True
  | .fail _ => True
  | .op o next => inside o ∧ ∀ answer, (next answer).Uses inside

@[simp] theorem uses_ret (inside : S.Op → Prop) (value : α) :
    (Prog.ret value : Prog S ε α).Uses inside := trivial

@[simp] theorem uses_fail (inside : S.Op → Prop) (error : ε) :
    (Prog.fail error : Prog S ε α).Uses inside := trivial

@[simp] theorem uses_op (inside : S.Op → Prop) (o : S.Op)
    (next : S.Res o → Prog S ε α) :
    (Prog.op o next).Uses inside ↔
      inside o ∧ ∀ answer, (next answer).Uses inside := Iff.rfl

theorem uses_all (program : Prog S ε α) : program.Uses fun _ => True := by
  induction program with
  | ret value => trivial
  | fail error => trivial
  | op o next ih => exact ⟨trivial, ih⟩

theorem Uses.mono {first second : S.Op → Prop} {program : Prog S ε α}
    (hweaker : ∀ o, first o → second o) (hprogram : program.Uses first) :
    program.Uses second := by
  induction program with
  | ret value => trivial
  | fail error => trivial
  | op o next ih =>
      exact ⟨hweaker o hprogram.1, fun answer => ih answer (hprogram.2 answer)⟩

theorem Uses.bind {inside : S.Op → Prop} {program : Prog S ε α}
    {f : α → Prog S ε β} (hprogram : program.Uses inside)
    (hrest : ∀ value, (f value).Uses inside) : (program >>= f).Uses inside := by
  induction program with
  | ret value => exact hrest value
  | fail error => trivial
  | op o next ih => exact ⟨hprogram.1, fun answer => ih answer (hprogram.2 answer)⟩

theorem Uses.mapError {ε' : Type} {inside : S.Op → Prop} {program : Prog S ε α}
    (hprogram : program.Uses inside) (f : ε → ε') : (program.mapError f).Uses inside := by
  induction program with
  | ret value => trivial
  | fail error => trivial
  | op o next ih => exact ⟨hprogram.1, fun answer => ih answer (hprogram.2 answer)⟩

theorem Uses.attempt {ε' : Type} {inside : S.Op → Prop} {program : Prog S ε α}
    (hprogram : program.Uses inside) :
    (program.attempt : Prog S ε' (Except ε α)).Uses inside := by
  induction program with
  | ret value => trivial
  | fail error => trivial
  | op o next ih => exact ⟨hprogram.1, fun answer => ih answer (hprogram.2 answer)⟩

theorem Uses.foldlM {inside : S.Op → Prop} (items : List β)
    {round : α → β → Prog S ε α}
    (hround : ∀ acc item, (round acc item).Uses inside) (acc : α) :
    (items.foldlM round acc).Uses inside := by
  induction items generalizing acc with
  | nil => trivial
  | cons head tail ih =>
      rw [List.foldlM_cons]
      exact (hround acc head).bind fun acc' => ih acc'

/-- A program whose every operation the monitor ignores leaves the monitor state
as it found it. -/
theorem Uses.conforms {inside : S.Op → Prop} {program : Prog S ε α} {m : M}
    (hprogram : program.Uses inside)
    (hignored : ∀ o, inside o → mon.allows m o ∧ ∀ answer, mon.next m o answer = m) :
    program.Conforms mon (fun m' _ => m' = m) m := by
  induction program with
  | ret value => rfl
  | fail error => rfl
  | op o next ih =>
      obtain ⟨hallowed, hkept⟩ := hignored o hprogram.1
      refine ⟨hallowed, fun answer _ => ?_⟩
      rw [hkept answer]
      exact ih answer (hprogram.2 answer)

/-- A program whose every operation is allowed while an invariant of the monitor state
holds, and keeps it. -/
theorem Uses.keeps {inside : S.Op → Prop} {program : Prog S ε α} (inv : M → Prop)
    (hprogram : program.Uses inside)
    (hkept : ∀ m o, inside o → inv m →
      mon.allows m o ∧ ∀ answer, mon.expects m o answer → inv (mon.next m o answer))
    {m : M} (hinv : inv m) : program.Conforms mon (fun m' _ => inv m') m := by
  induction program generalizing m with
  | ret value => exact hinv
  | fail error => exact hinv
  | op o next ih =>
      obtain ⟨hallowed, hnext⟩ := hkept m o hprogram.1 hinv
      exact ⟨hallowed, fun answer hanswer =>
        ih answer (hprogram.2 answer) (hnext answer hanswer)⟩

theorem Uses.allowed {inside : S.Op → Prop} {program : Prog S ε α} {m : M}
    (hprogram : program.Uses inside) (hallowed : ∀ m o, inside o → mon.allows m o) :
    program.Conforms mon (fun _ _ => True) m := by
  induction program generalizing m with
  | ret value => trivial
  | fail error => trivial
  | op o next ih =>
      exact ⟨hallowed m o hprogram.1, fun answer _ => ih answer (hprogram.2 answer)⟩

/-- What is known of a program under one monitor is known under a finer one that follows it
for as long as it `see`s the coarser state. -/
theorem Uses.lift {N : Type} {fine : Monitor S N} (see : N → Option M) {inside : S.Op → Prop}
    {program : Prog S ε α} {post : M → Except ε α → Prop} (hprogram : program.Uses inside)
    (hallows : ∀ n o, inside o → fine.allows n o)
    (hnext : ∀ n o answer m', inside o → see (fine.next n o answer) = some m' →
      ∃ m, see n = some m ∧ mon.expects m o answer ∧ mon.next m o answer = m')
    {n : N} (hconforms : ∀ m, see n = some m → program.Conforms mon post m) :
    program.Conforms fine (fun n' result => ∀ m, see n' = some m → post m result) n := by
  induction program generalizing n with
  | ret value => exact hconforms
  | fail error => exact hconforms
  | op o next ih =>
      refine ⟨hallows n o hprogram.1, fun answer _ => ?_⟩
      apply ih answer (hprogram.2 answer)
      intro m' hm'
      obtain ⟨m, hm, hexpects, rfl⟩ := hnext n o answer m' hprogram.1 hm'
      exact (hconforms m hm).2 answer hexpects

/-! A monitor that follows some programs and ignores the others. -/

def optional (mon : Monitor S M) : Monitor S (Option M) where
  allows := fun m o =>
    match m with
    | some m => mon.allows m o
    | none => True
  expects := fun m o answer =>
    match m with
    | some m => mon.expects m o answer
    | none => True
  next := fun m o answer => m.map fun m => mon.next m o answer

theorem conforms_followed {program : Prog S ε α} {post : Option M → Except ε α → Prop} {m : M}
    (hprogram : program.Conforms mon (fun m' result => post (some m') result) m) :
    program.Conforms (optional mon) post (some m) := by
  induction program generalizing m with
  | ret value => exact hprogram
  | fail error => exact hprogram
  | op o next ih =>
      exact ⟨hprogram.1, fun answer hanswer => ih answer (hprogram.2 answer hanswer)⟩

theorem conforms_ignored (program : Prog S ε α) :
    program.Conforms (optional mon) (fun m' _ => m' = none) none := by
  induction program with
  | ret value => rfl
  | fail error => rfl
  | op o next ih => exact ⟨trivial, fun answer _ => ih answer⟩

def within (outside : S.Op → Prop) (mon : Monitor S M) : Monitor S (Option M) where
  allows := fun m o =>
    match m with
    | some m => mon.allows m o
    | none => outside o
  expects := fun m o answer =>
    match m with
    | some m => mon.expects m o answer
    | none => True
  next := fun m o answer => m.map fun m => mon.next m o answer

variable {outside : S.Op → Prop}

theorem conforms_within {program : Prog S ε α} {post : Option M → Except ε α → Prop} {m : M}
    (hprogram : program.Conforms mon (fun m' result => post (some m') result) m) :
    program.Conforms (within outside mon) post (some m) := by
  induction program generalizing m with
  | ret value => exact hprogram
  | fail error => exact hprogram
  | op o next ih =>
      exact ⟨hprogram.1, fun answer hanswer => ih answer (hprogram.2 answer hanswer)⟩

theorem Uses.conforms_within {program : Prog S ε α} (hprogram : program.Uses outside) :
    program.Conforms (within outside mon) (fun m' _ => m' = none) none := by
  induction program with
  | ret value => rfl
  | fail error => rfl
  | op o next ih => exact ⟨hprogram.1, fun answer _ => ih answer (hprogram.2 answer)⟩

/-! Two monitors that follow a program side by side. -/

def both {N : Type} (first : Monitor S M) (second : Monitor S N) : Monitor S (M × N) where
  allows := fun m o => first.allows m.1 o ∧ second.allows m.2 o
  expects := fun m o answer => first.expects m.1 o answer ∧ second.expects m.2 o answer
  next := fun m o answer => (first.next m.1 o answer, second.next m.2 o answer)

theorem Conforms.both {N : Type} {first : Monitor S M} {second : Monitor S N}
    {program : Prog S ε α} {one : M → Except ε α → Prop} {other : N → Except ε α → Prop}
    {m : M} {n : N} (hfirst : program.Conforms first one m)
    (hsecond : program.Conforms second other n) :
    program.Conforms (both first second)
      (fun m' result => one m'.1 result ∧ other m'.2 result) (m, n) := by
  induction program generalizing m n with
  | ret value => exact ⟨hfirst, hsecond⟩
  | fail error => exact ⟨hfirst, hsecond⟩
  | op o next ih =>
      refine ⟨⟨hfirst.1, hsecond.1⟩, fun answer hanswer => ?_⟩
      exact ih answer (hfirst.2 answer hanswer.1) (hsecond.2 answer hanswer.2)

end Prog

end UnityLan.Foundation
