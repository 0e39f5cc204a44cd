import Mathlib.Logic.Function.Basic
import UnityLan.Foundation.Prog
import UnityLan.Foundation.Table

namespace UnityLan.Foundation

/-! A pool of tasks over one shared state.  Each step of a run is one operation
of one task, the end or the cancellation of a task, a new call, or a move of the
world around the pool. -/

structure Machine (S : Sig) where
  State : Type
  Call : Type
  Err : Type
  Reply : Type
  /-- What is decided outside the program while one operation runs. -/
  Choice : Type
  World : Type
  start : Call → Prog S Err Reply
  /-- One operation of a task; `none` where it has to wait. -/
  exec : Nat → (o : S.Op) → Choice → State → Option (S.Res o × State)
  /-- The operations a task can be cancelled at: before them and right after. -/
  suspends : S.Op → Bool
  /-- What the destructors of a task that is gone do. -/
  release : Nat → State → State
  move : World → State → Option State

namespace Machine

variable {S : Sig} {m : Machine S}

structure Task (m : Machine S) where
  call : m.Call
  rest : Prog S m.Err m.Reply
  /-- Whether nothing ran since the last operation that suspends. -/
  resting : Bool

namespace Task

def cancellable (task : m.Task) : Bool :=
  task.resting ||
    match task.rest with
    | .op o _ => m.suspends o
    | _ => false

end Task

structure Config (m : Machine S) where
  shared : m.State
  tasks : Nat → Option m.Task
  next : Nat

/-- No task is running. -/
def idle (m : Machine S) (shared : m.State) : m.Config where
  shared := shared
  tasks := fun _ => none
  next := 0

inductive Event (m : Machine S)
  | called (task : Nat) (call : m.Call)
  | did (task : Nat) (o : S.Op) (answer : S.Res o)
  | ended (task : Nat) (call : m.Call) (result : Except m.Err m.Reply)
  | dropped (task : Nat) (call : m.Call)
  | moved (move : m.World)

namespace Config

def enter (c : m.Config) (call : m.Call) : m.Config where
  shared := c.shared
  tasks := Function.update c.tasks c.next (some ⟨call, m.start call, true⟩)
  next := c.next + 1

def proceed (c : m.Config) (task : Nat) (call : m.Call)
    (rest : Prog S m.Err m.Reply) (resting : Bool) (shared : m.State) : m.Config where
  shared := shared
  tasks := Function.update c.tasks task (some ⟨call, rest, resting⟩)
  next := c.next

def leave (c : m.Config) (task : Nat) : m.Config where
  shared := m.release task c.shared
  tasks := Function.update c.tasks task none
  next := c.next

end Config

inductive Step : m.Config → m.Event → m.Config → Prop
  | call (c : m.Config) (call : m.Call) :
      Step c (.called c.next call) (c.enter call)
  | perform {c : m.Config} {task : Nat} {call : m.Call} {o : S.Op}
      {next : S.Res o → Prog S m.Err m.Reply} {resting : Bool} {choice : m.Choice}
      {answer : S.Res o} {shared : m.State}
      (running : c.tasks task = some ⟨call, .op o next, resting⟩)
      (executed : m.exec task o choice c.shared = some (answer, shared)) :
      Step c (.did task o answer)
        (c.proceed task call (next answer) (m.suspends o) shared)
  | finish {c : m.Config} {task : Nat} {call : m.Call} {value : m.Reply} {resting : Bool}
      (running : c.tasks task = some ⟨call, .ret value, resting⟩) :
      Step c (.ended task call (.ok value)) (c.leave task)
  | abort {c : m.Config} {task : Nat} {call : m.Call} {error : m.Err} {resting : Bool}
      (running : c.tasks task = some ⟨call, .fail error, resting⟩) :
      Step c (.ended task call (.error error)) (c.leave task)
  | drop {c : m.Config} {number : Nat} {task : m.Task}
      (running : c.tasks number = some task) (cancellable : task.cancellable = true) :
      Step c (.dropped number task.call) (c.leave number)
  | move {c : m.Config} {world : m.World} {shared : m.State}
      (moved : m.move world c.shared = some shared) :
      Step c (.moved world) { c with shared := shared }

/-! An observer keeps a history of the run beside it.  A run under a guard is one
in which every step meets a condition on the history and the state before it. -/

structure Observer (m : Machine S) (G : Type) where
  see : G → m.State → m.Event → m.State → G

variable {G : Type}

inductive Reach (view : m.Observer G) (guard : G → m.State → m.Event → Prop)
    (c₀ : m.Config) (g₀ : G) : m.Config → G → Prop
  | start : Reach view guard c₀ g₀ c₀ g₀
  | step {c c' : m.Config} {g : G} {event : m.Event}
      (reached : Reach view guard c₀ g₀ c g) (taken : Step c event c')
      (allowed : guard g c.shared event) :
      Reach view guard c₀ g₀ c' (view.see g c.shared event c'.shared)

/-- Every step is allowed. -/
def free (_ : G) (_ : m.State) (_ : m.Event) : Prop := True

/-- Every step passes a test. -/
def passes (test : G → m.State → m.Event → Bool) (g : G) (s : m.State) (event : m.Event) : Prop :=
  test g s event = true

theorem Reach.mono {view : m.Observer G} {first second : G → m.State → m.Event → Prop}
    {c₀ c : m.Config} {g₀ g : G}
    (hweaker : ∀ g s event, first g s event → second g s event)
    (hreach : Reach view first c₀ g₀ c g) : Reach view second c₀ g₀ c g := by
  induction hreach with
  | start => exact .start
  | step _ taken allowed ih => exact ih.step taken (hweaker _ _ _ allowed)

theorem Step.numbered {c c' : m.Config} {event : m.Event} (htaken : Step c event c')
    (hbelow : ∀ task, c.next ≤ task → c.tasks task = none) :
    ∀ task, c'.next ≤ task → c'.tasks task = none := by
  have hrunning : ∀ {number : Nat} {task : m.Task}, c.tasks number = some task →
      ∀ other, c.next ≤ other → other ≠ number := by
    rintro number task hsome other hother rfl
    rw [hbelow other hother] at hsome
    cases hsome
  intro task htask
  cases htaken with
  | call call =>
      change c.next + 1 ≤ task at htask
      exact (Function.update_of_ne (by omega) ..).trans (hbelow task (by omega))
  | perform running _ =>
      exact (Function.update_of_ne (hrunning running task htask) ..).trans (hbelow task htask)
  | finish running =>
      exact (Function.update_of_ne (hrunning running task htask) ..).trans (hbelow task htask)
  | abort running =>
      exact (Function.update_of_ne (hrunning running task htask) ..).trans (hbelow task htask)
  | drop running _ =>
      exact (Function.update_of_ne (hrunning running task htask) ..).trans (hbelow task htask)
  | move _ => exact hbelow task htask

theorem Reach.numbered {view : m.Observer G} {guard : G → m.State → m.Event → Prop}
    {s₀ : m.State} {g₀ g : G} {c : m.Config} (hreach : Reach view guard (m.idle s₀) g₀ c g) :
    ∀ task, c.next ≤ task → c.tasks task = none := by
  induction hreach with
  | start => exact fun _ _ => rfl
  | step _ taken _ ih => exact taken.numbered ih

theorem update_some_cases {V : Type} {views : Nat → Option V} {task other : Nat} {value found : V}
    (hfound : Function.update views task (some value) other = some found) :
    other = task ∧ found = value ∨ other ≠ task ∧ views other = some found := by
  by_cases hsame : other = task
  · subst hsame
    rw [Function.update_self, Option.some.injEq] at hfound
    exact .inl ⟨rfl, hfound.symm⟩
  · rw [Function.update_of_ne hsame] at hfound
    exact .inr ⟨hsame, hfound⟩

theorem update_none_cases {V : Type} {views : Nat → Option V} {task other : Nat} {found : V}
    (hfound : Function.update views task none other = some found) :
    other ≠ task ∧ views other = some found := by
  by_cases hsame : other = task
  · subst hsame
    rw [Function.update_self] at hfound
    cases hfound
  · rw [Function.update_of_ne hsame] at hfound
    exact ⟨hsame, hfound⟩

/-! A history may follow the tasks that are monitored, in a table of its own. -/

def Mirrors {C M : Type} (table : Table Nat M) (views : Nat → Option (C × Option M)) : Prop :=
  ∀ task, table.get? task = (views task).bind Prod.snd

section

variable {C M : Type} {table : Table Nat M} {views : Nat → Option (C × Option M)} {task : Nat}
  {call : C}

theorem Mirrors.followed (hmirrors : Mirrors table views) {m : Option M}
    (hview : views task = some (call, m)) : table.get? task = m := by
  rw [hmirrors task, hview]
  rfl

theorem Mirrors.of_other (hmirrors : Mirrors table views) {table' : Table Nat M} {other : Nat}
    {view : Option (C × Option M)} (hother : other ≠ task)
    (hsame : table'.get? other = table.get? other) :
    table'.get? other = (Function.update views task view other).bind Prod.snd := by
  rw [hsame, Function.update_of_ne hother]
  exact hmirrors other

theorem Mirrors.begin (hmirrors : Mirrors table views) (m : M) :
    Mirrors (table.insert task m) (Function.update views task (some (call, some m))) := by
  intro other
  rcases eq_or_ne other task with rfl | hother
  · simp
  · exact hmirrors.of_other hother (by simp [hother])

theorem Mirrors.ignore (hmirrors : Mirrors table views) (hfree : views task = none) :
    Mirrors table (Function.update views task (some (call, none))) := by
  intro other
  rcases eq_or_ne other task with rfl | hother
  · rw [hmirrors other, hfree]
    simp
  · exact hmirrors.of_other hother rfl

theorem Mirrors.follow (hmirrors : Mirrors table views) {m : Option M}
    (hview : views task = some (call, m)) (next : M → M) :
    Mirrors (table.modify task next) (Function.update views task (some (call, m.map next))) := by
  intro other
  rcases eq_or_ne other task with rfl | hother
  · simp [hmirrors.followed hview]
  · exact hmirrors.of_other hother (by simp [hother])

theorem Mirrors.forget (hmirrors : Mirrors table views) :
    Mirrors (table.erase task) (Function.update views task none) := by
  intro other
  rcases eq_or_ne other task with rfl | hother
  · simp
  · exact hmirrors.of_other hother (by simp [hother])

end

/-! Or a table of what it knows better than the monitors do. -/

def Shadows {C M N : Type} (agrees : N → M → Prop) (table : Table Nat N)
    (views : Nat → Option (C × Option M)) : Prop :=
  ∀ task, Option.Rel agrees (table.get? task) ((views task).bind Prod.snd)

section

variable {C M N : Type} {agrees : N → M → Prop} {table : Table Nat N}
  {views : Nat → Option (C × Option M)} {task : Nat} {call : C}

theorem Shadows.followed (hshadows : Shadows agrees table views) {m : M}
    (hview : views task = some (call, some m)) :
    ∃ n, table.get? task = some n ∧ agrees n m := by
  have hrel := hshadows task
  rw [hview, Option.bind_some] at hrel
  generalize htable : table.get? task = found at hrel
  cases hrel with
  | some hagrees => exact ⟨_, rfl, hagrees⟩

theorem Shadows.ignored (hshadows : Shadows agrees table views)
    (hview : views task = some (call, none)) : table.get? task = none := by
  have hrel := hshadows task
  rw [hview, Option.bind_some] at hrel
  generalize htable : table.get? task = found at hrel
  cases hrel
  rfl

theorem Shadows.of_other (hshadows : Shadows agrees table views) {table' : Table Nat N}
    {other : Nat} {view : Option (C × Option M)} (hother : other ≠ task)
    (hsame : table'.get? other = table.get? other) :
    Option.Rel agrees (table'.get? other)
      ((Function.update views task view other).bind Prod.snd) := by
  rw [hsame, Function.update_of_ne hother]
  exact hshadows other

theorem Shadows.begin (hshadows : Shadows agrees table views) {n : N} {m : M}
    (hagrees : agrees n m) :
    Shadows agrees (table.insert task n) (Function.update views task (some (call, some m))) := by
  intro other
  rcases eq_or_ne other task with rfl | hother
  · simpa using Option.Rel.some hagrees
  · exact hshadows.of_other hother (by simp [hother])

theorem Shadows.ignore (hshadows : Shadows agrees table views) (hfree : views task = none) :
    Shadows agrees table (Function.update views task (some (call, none))) := by
  intro other
  rcases eq_or_ne other task with rfl | hother
  · have hrel := hshadows other
    rw [hfree] at hrel
    rw [Function.update_self]
    exact hrel
  · exact hshadows.of_other hother rfl

theorem Shadows.advance (hshadows : Shadows agrees table views) {m : Option M}
    (hview : views task = some (call, m)) {grow : N → N} {next : M → M}
    (hagrees : ∀ n m', m = some m' → agrees n m' → agrees (grow n) (next m')) :
    Shadows agrees (table.modify task grow)
      (Function.update views task (some (call, m.map next))) := by
  intro other
  rcases eq_or_ne other task with rfl | hother
  · have hrel := hshadows other
    rw [hview, Option.bind_some] at hrel
    rw [Table.get?_modify, if_pos rfl, Function.update_self, Option.bind_some]
    generalize htable : table.get? other = found at hrel
    cases hrel with
    | some h => exact .some (hagrees _ _ rfl h)
    | none => exact .none
  · exact hshadows.of_other hother (by simp [hother])

theorem Shadows.follow (hshadows : Shadows agrees table views) {m : Option M}
    (hview : views task = some (call, m)) {grow : N → N} {next : M → M}
    (hagrees : ∀ n m, agrees n m → agrees (grow n) (next m)) :
    Shadows agrees (table.modify task grow)
      (Function.update views task (some (call, m.map next))) :=
  hshadows.advance hview fun n m _ => hagrees n m

theorem Shadows.forget (hshadows : Shadows agrees table views) :
    Shadows agrees (table.erase task) (Function.update views task none) := by
  intro other
  rcases eq_or_ne other task with rfl | hother
  · simp
  · exact hshadows.of_other hother (by simp [hother])

end

/-! A discipline says how the monitor states of the running tasks, the shared
state and the history fit together.  It has one obligation for each kind of step;
the programs are looked at once, through `conforms`. -/

structure Discipline (m : Machine S) (view : m.Observer G)
    (guard : G → m.State → m.Event → Prop) (M : Type) where
  mon : Monitor S M
  opening : G → m.State → m.Call → M
  post : m.Call → M → Except m.Err m.Reply → Prop
  inv : G → m.State → (Nat → Option (m.Call × M)) → Prop
  conforms : ∀ g s call, (m.start call).Conforms mon (post call) (opening g s call)
  called : ∀ {g s views task call}, inv g s views → views task = none →
    guard g s (.called task call) →
    inv (view.see g s (.called task call) s) s
      (Function.update views task (some (call, opening g s call)))
  did : ∀ {g s views task call μ o choice answer s'}, inv g s views →
    views task = some (call, μ) → mon.allows μ o →
    m.exec task o choice s = some (answer, s') → guard g s (.did task o answer) →
    mon.expects μ o answer ∧
      inv (view.see g s (.did task o answer) s') s'
        (Function.update views task (some (call, mon.next μ o answer)))
  ended : ∀ {g s views task call μ result}, inv g s views →
    views task = some (call, μ) → post call μ result →
    guard g s (.ended task call result) →
    inv (view.see g s (.ended task call result) (m.release task s))
      (m.release task s) (Function.update views task none)
  dropped : ∀ {g s views task call μ}, inv g s views →
    views task = some (call, μ) → guard g s (.dropped task call) →
    inv (view.see g s (.dropped task call) (m.release task s))
      (m.release task s) (Function.update views task none)
  moved : ∀ {g s views world s'}, inv g s views → m.move world s = some s' →
    guard g s (.moved world) → inv (view.see g s (.moved world) s') s' views

namespace Discipline

variable {view : m.Observer G} {guard : G → m.State → m.Event → Prop} {M : Type}

structure Tracks (d : Discipline m view guard M) (c : m.Config)
    (views : Nat → Option (m.Call × M)) : Prop where
  fresh : ∀ task, c.next ≤ task → views task = none
  absent : ∀ task, c.tasks task = none → views task = none
  present : ∀ number task, c.tasks number = some task →
    ∃ μ, views number = some (task.call, μ) ∧ task.rest.Conforms d.mon (d.post task.call) μ

variable {d : Discipline m view guard M} {c : m.Config}
  {views : Nat → Option (m.Call × M)}

theorem Tracks.running (htracks : d.Tracks c views) {number : Nat} {task : m.Task}
    (hrunning : c.tasks number = some task) :
    ∃ μ, views number = some (task.call, μ) ∧
      task.rest.Conforms d.mon (d.post task.call) μ ∧ number < c.next := by
  obtain ⟨μ, hview, hconforms⟩ := htracks.present number task hrunning
  refine ⟨μ, hview, hconforms, Nat.lt_of_not_le fun hle => ?_⟩
  rw [htracks.fresh number hle] at hview
  cases hview

theorem Tracks.set (htracks : d.Tracks c views) {number : Nat} {task : m.Task} {μ : M}
    {c' : m.Config} (htasks : c'.tasks = Function.update c.tasks number (some task))
    (hnext : c.next ≤ c'.next) (hbelow : number < c'.next)
    (hconforms : task.rest.Conforms d.mon (d.post task.call) μ) :
    d.Tracks c' (Function.update views number (some (task.call, μ))) := by
  constructor
  · intro other hother
    rw [Function.update_of_ne (by omega)]
    exact htracks.fresh other (by omega)
  · intro other hother
    by_cases hsame : other = number
    · subst hsame
      simp [htasks] at hother
    · rw [htasks, Function.update_of_ne hsame] at hother
      rw [Function.update_of_ne hsame]
      exact htracks.absent other hother
  · intro other running hother
    by_cases hsame : other = number
    · subst hsame
      rw [htasks, Function.update_self, Option.some.injEq] at hother
      subst hother
      exact ⟨μ, Function.update_self .., hconforms⟩
    · rw [htasks, Function.update_of_ne hsame] at hother
      rw [Function.update_of_ne hsame]
      exact htracks.present other running hother

theorem Tracks.unset (htracks : d.Tracks c views) (task : Nat) :
    d.Tracks (c.leave task) (Function.update views task none) := by
  constructor
  · intro other hother
    by_cases hsame : other = task
    · rw [hsame, Function.update_self]
    · rw [Function.update_of_ne hsame]
      exact htracks.fresh other hother
  · intro other hother
    by_cases hsame : other = task
    · rw [hsame, Function.update_self]
    · rw [Function.update_of_ne hsame]
      exact htracks.absent other (by simpa [Config.leave, hsame] using hother)
  · intro other running hother
    by_cases hsame : other = task
    · simp [Config.leave, hsame] at hother
    · rw [Function.update_of_ne hsame]
      exact htracks.present other running (by simpa [Config.leave, hsame] using hother)

theorem step {c' : m.Config} {g : G} {event : m.Event}
    (htracks : d.Tracks c views) (hinv : d.inv g c.shared views)
    (htaken : Step c event c') (hallowed : guard g c.shared event) :
    ∃ views', d.Tracks c' views' ∧
      d.inv (view.see g c.shared event c'.shared) c'.shared views' := by
  cases htaken with
  | call call =>
      refine ⟨_, htracks.set rfl (Nat.le_succ _) (Nat.lt_succ_self _)
        (d.conforms g c.shared call), ?_⟩
      exact d.called hinv (htracks.fresh _ (Nat.le_refl _)) hallowed
  | perform running executed =>
      obtain ⟨μ, hview, hconforms, hbelow⟩ := htracks.running running
      obtain ⟨hallows, hrest⟩ := hconforms
      obtain ⟨hexpects, hinv'⟩ := d.did hinv hview hallows executed hallowed
      exact ⟨_, htracks.set rfl (Nat.le_refl _) hbelow (hrest _ hexpects), hinv'⟩
  | finish running =>
      obtain ⟨μ, hview, hconforms, _⟩ := htracks.running running
      exact ⟨_, htracks.unset _, d.ended hinv hview hconforms hallowed⟩
  | abort running =>
      obtain ⟨μ, hview, hconforms, _⟩ := htracks.running running
      exact ⟨_, htracks.unset _, d.ended hinv hview hconforms hallowed⟩
  | drop running _ =>
      obtain ⟨μ, hview, _, _⟩ := htracks.running running
      exact ⟨_, htracks.unset _, d.dropped hinv hview hallowed⟩
  | move moved =>
      exact ⟨views, ⟨htracks.fresh, htracks.absent, htracks.present⟩, d.moved hinv moved hallowed⟩

theorem run (d : Discipline m view guard M) {s₀ : m.State} {g₀ : G} {g : G}
    (hstart : d.inv g₀ s₀ fun _ => none)
    (hreach : Reach view guard (m.idle s₀) g₀ c g) :
    ∃ views, d.Tracks c views ∧ d.inv g c.shared views := by
  induction hreach with
  | start =>
      refine ⟨fun _ => none, ⟨fun _ _ => rfl, fun _ _ => rfl, ?_⟩, hstart⟩
      intro number task hrunning
      cases hrunning
  | step _ taken allowed ih =>
      obtain ⟨views, htracks, hinv⟩ := ih
      exact step htracks hinv taken allowed

end Discipline

/-! Where only one task runs at a time, the discipline is about that task, and about the state
where there is none. -/

structure Solo (m : Machine S) (view : m.Observer G)
    (guard : G → m.State → m.Event → Prop) (M : Type) where
  mon : Monitor S M
  opening : G → m.State → m.Call → M
  post : m.Call → M → Except m.Err m.Reply → Prop
  rest : G → m.State → Prop
  fits : G → m.State → m.Call → M → Prop
  conforms : ∀ g s call, (m.start call).Conforms mon (post call) (opening g s call)
  alone : ∀ {g s call μ task call'}, fits g s call μ → ¬guard g s (.called task call')
  called : ∀ {g s task call}, rest g s → guard g s (.called task call) →
    fits (view.see g s (.called task call) s) s call (opening g s call)
  did : ∀ {g s task call μ o choice answer s'}, fits g s call μ → mon.allows μ o →
    m.exec task o choice s = some (answer, s') → guard g s (.did task o answer) →
    mon.expects μ o answer ∧ fits (view.see g s (.did task o answer) s') s' call
      (mon.next μ o answer)
  ended : ∀ {g s task call μ result}, fits g s call μ → post call μ result →
    guard g s (.ended task call result) →
    rest (view.see g s (.ended task call result) (m.release task s)) (m.release task s)
  dropped : ∀ {g s task call μ}, fits g s call μ → guard g s (.dropped task call) →
    rest (view.see g s (.dropped task call) (m.release task s)) (m.release task s)
  movedRest : ∀ {g s world s'}, rest g s → m.move world s = some s' → guard g s (.moved world) →
    rest (view.see g s (.moved world) s') s'
  movedFits : ∀ {g s call μ world s'}, fits g s call μ → m.move world s = some s' →
    guard g s (.moved world) → fits (view.see g s (.moved world) s') s' call μ

namespace Solo

variable {view : m.Observer G} {guard : G → m.State → m.Event → Prop} {M : Type}

def only (task : Nat) (call : m.Call) (μ : M) : Nat → Option (m.Call × M) :=
  Function.update (fun _ => none) task (some (call, μ))

theorem only_some {task other : Nat} {call call' : m.Call} {μ μ' : M}
    (hview : only task call μ other = some (call', μ')) : other = task ∧ call' = call ∧ μ' = μ := by
  rcases update_some_cases hview with ⟨hsame, hfound⟩ | ⟨-, hnone⟩
  · exact ⟨hsame, Prod.mk.inj hfound⟩
  · cases hnone

theorem only_set {task : Nat} {call : m.Call} {μ μ' : M} :
    Function.update (only task call μ) task (some (call, μ')) = only task call μ' :=
  Function.update_idem ..

theorem only_gone {task : Nat} {call : m.Call} {μ : M} :
    Function.update (only task call μ) task none = fun _ => none := by
  unfold only
  rw [Function.update_idem]
  exact Function.update_eq_self task _

def Stands (d : Solo m view guard M) (g : G) (s : m.State)
    (views : Nat → Option (m.Call × M)) : Prop :=
  (views = fun _ => none) ∧ d.rest g s ∨ ∃ task call μ, views = only task call μ ∧ d.fits g s call μ

variable {d : Solo m view guard M} {g : G} {s : m.State} {views : Nat → Option (m.Call × M)}
  {task : Nat} {call : m.Call} {μ : M}

theorem Stands.running (hstands : d.Stands g s views) (hview : views task = some (call, μ)) :
    views = only task call μ ∧ d.fits g s call μ := by
  rcases hstands with ⟨rfl, -⟩ | ⟨_, _, _, rfl, hfits⟩
  · cases hview
  · obtain ⟨rfl, rfl, rfl⟩ := only_some hview
    exact ⟨rfl, hfits⟩

theorem Stands.quiet (hstands : d.Stands g s views) (hnone : ∀ task, views task = none) :
    d.rest g s := by
  rcases hstands with ⟨-, hrest⟩ | ⟨task, _, _, rfl, -⟩
  · exact hrest
  · have hsome := hnone task
    unfold only at hsome
    rw [Function.update_self] at hsome
    cases hsome

def discipline (d : Solo m view guard M) : Discipline m view guard M where
  mon := d.mon
  opening := d.opening
  post := d.post
  inv := d.Stands
  conforms := d.conforms
  called := by
    intro g s views task call hstands _ hguard
    rcases hstands with ⟨rfl, hrest⟩ | ⟨_, _, _, _, hfits⟩
    · exact .inr ⟨task, call, _, rfl, d.called hrest hguard⟩
    · exact absurd hguard (d.alone hfits)
  did := by
    intro g s views task call μ o choice answer s' hstands hview hallows hexec hguard
    obtain ⟨rfl, hfits⟩ := hstands.running hview
    obtain ⟨hexpects, hnext⟩ := d.did hfits hallows hexec hguard
    exact ⟨hexpects, .inr ⟨task, call, _, only_set, hnext⟩⟩
  ended := by
    intro g s views task call μ result hstands hview hpost hguard
    obtain ⟨rfl, hfits⟩ := hstands.running hview
    exact .inl ⟨only_gone, d.ended hfits hpost hguard⟩
  dropped := by
    intro g s views task call μ hstands hview hguard
    obtain ⟨rfl, hfits⟩ := hstands.running hview
    exact .inl ⟨only_gone, d.dropped hfits hguard⟩
  moved := by
    intro g s views world s' hstands hmove hguard
    rcases hstands with ⟨rfl, hrest⟩ | ⟨task, call, μ, rfl, hfits⟩
    · exact .inl ⟨rfl, d.movedRest hrest hmove hguard⟩
    · exact .inr ⟨task, call, μ, rfl, d.movedFits hfits hmove hguard⟩

section

variable {s₀ : m.State} {g₀ : G} {c : m.Config}

theorem fits_reached (d : Solo m view guard M) (hstart : d.rest g₀ s₀)
    (hreach : Reach view guard (m.idle s₀) g₀ c g) {running : m.Task}
    (hrunning : c.tasks task = some running) :
    ∃ μ, d.fits g c.shared running.call μ ∧
      running.rest.Conforms d.mon (d.post running.call) μ := by
  obtain ⟨views, htracks, hinv⟩ := d.discipline.run (.inl ⟨rfl, hstart⟩) hreach
  obtain ⟨μ, hview, hconforms, -⟩ := htracks.running hrunning
  exact ⟨μ, (Stands.running hinv hview).2, hconforms⟩

theorem rest_reached (d : Solo m view guard M) (hstart : d.rest g₀ s₀)
    (hreach : Reach view guard (m.idle s₀) g₀ c g) (hidle : ∀ task, c.tasks task = none) :
    d.rest g c.shared := by
  obtain ⟨views, htracks, hinv⟩ := d.discipline.run (.inl ⟨rfl, hstart⟩) hreach
  exact Stands.quiet hinv fun task => htracks.absent task (hidle task)

theorem held_reached (d : Solo m view guard M) (holds : G → m.State → Prop)
    (hrest : ∀ g s, d.rest g s → holds g s) (hfits : ∀ g s call μ, d.fits g s call μ → holds g s)
    (hstart : d.rest g₀ s₀) (hreach : Reach view guard (m.idle s₀) g₀ c g) : holds g c.shared := by
  obtain ⟨views, -, hinv⟩ := d.discipline.run (.inl ⟨rfl, hstart⟩) hreach
  rcases hinv with ⟨-, hquiet⟩ | ⟨_, _, _, _, hrunning⟩
  · exact hrest _ _ hquiet
  · exact hfits _ _ _ _ hrunning

end

end Solo

/-! Runs that can be evaluated. -/

inductive Label (m : Machine S)
  | call (call : m.Call)
  | step (task : Nat) (choice : m.Choice)
  | drop (number : Nat)
  | move (world : m.World)

def advance (c : m.Config) : m.Label → Option (m.Event × m.Config)
  | .call call => some (.called c.next call, c.enter call)
  | .step task choice =>
      match c.tasks task with
      | none => none
      | some ⟨call, .ret value, _⟩ => some (.ended task call (.ok value), c.leave task)
      | some ⟨call, .fail error, _⟩ => some (.ended task call (.error error), c.leave task)
      | some ⟨call, .op o next, _⟩ =>
          match m.exec task o choice c.shared with
          | none => none
          | some (answer, shared) =>
              some (.did task o answer,
                c.proceed task call (next answer) (m.suspends o) shared)
  | .drop number =>
      match c.tasks number with
      | none => none
      | some task =>
          if task.cancellable then some (.dropped number task.call, c.leave number) else none
  | .move world =>
      match m.move world c.shared with
      | none => none
      | some shared => some (.moved world, { c with shared := shared })

theorem advance_sound {c c' : m.Config} {label : m.Label} {event : m.Event}
    (hadvance : advance c label = some (event, c')) : Step c event c' := by
  cases label with
  | call call =>
      cases hadvance
      exact .call c call
  | step task choice =>
      simp only [advance] at hadvance
      split at hadvance
      · cases hadvance
      · rename_i hrunning
        cases hadvance
        exact .finish hrunning
      · rename_i hrunning
        cases hadvance
        exact .abort hrunning
      · rename_i hrunning
        split at hadvance
        · cases hadvance
        · rename_i hexec
          cases hadvance
          exact .perform hrunning hexec
  | drop number =>
      simp only [advance] at hadvance
      split at hadvance
      · cases hadvance
      · rename_i hrunning
        split at hadvance
        · rename_i hcancellable
          cases hadvance
          exact .drop hrunning hcancellable
        · cases hadvance
  | move world =>
      simp only [advance] at hadvance
      split at hadvance
      · cases hadvance
      · rename_i hmoved
        cases hadvance
        exact .move hmoved

/-- Play the labels one after the other; `admits` decides which steps are allowed. -/
def play (view : m.Observer G) (admits : G → m.State → m.Event → Bool) :
    m.Config → G → List m.Label → Option (m.Config × G)
  | c, g, [] => some (c, g)
  | c, g, label :: labels =>
      match advance c label with
      | none => none
      | some (event, c') =>
          if admits g c.shared event then
            play view admits c' (view.see g c.shared event c'.shared) labels
          else none

section

variable {view : m.Observer G} {guard : G → m.State → m.Event → Prop}
  {admits : G → m.State → m.Event → Bool} {c₀ : m.Config} {g₀ : G} {labels : List m.Label}

theorem play_sound (hadmits : ∀ g s event, admits g s event = true → guard g s event)
    {c c' : m.Config} {g g' : G} (hreach : Reach view guard c₀ g₀ c g)
    (hplay : play view admits c g labels = some (c', g')) :
    Reach view guard c₀ g₀ c' g' := by
  induction labels generalizing c g with
  | nil =>
      cases hplay
      exact hreach
  | cons label labels ih =>
      simp only [play] at hplay
      split at hplay
      · cases hplay
      · rename_i hadvance
        split at hplay
        · rename_i hadmitted
          exact ih (hreach.step (advance_sound hadvance) (hadmits _ _ _ hadmitted)) hplay
        · cases hplay

/-- A sequence of labels that plays through to a state with a property is a run
that reaches one. -/
theorem reach_of_play (hadmits : ∀ g s event, admits g s event = true → guard g s event)
    {property : m.Config → G → Bool}
    (hplay : (play view admits c₀ g₀ labels).any (fun last => property last.1 last.2) = true) :
    ∃ c g, Reach view guard c₀ g₀ c g ∧ property c g = true := by
  obtain ⟨last, hlast, hproperty⟩ := (Option.any_eq_true _ _).mp hplay
  exact ⟨last.1, last.2, play_sound hadmits .start hlast, hproperty⟩

end

end Machine

end UnityLan.Foundation
