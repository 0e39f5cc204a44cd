import UnityLan.Common.Basic
import UnityLan.Foundation.Table

namespace UnityLan.Coordinator

open UnityLan.Foundation

/-! Scoped membership versions.  Each operation is one critical section of the
source; a hash over several counters reads them one by one, because a bump goes
through a sender cloned out of the map. -/

inductive Scope
  | guild (id : GuildId)
  | user (id : UserId)
  deriving DecidableEq

namespace Scope

def before : Scope → Scope → Bool
  | .guild first, .guild second => first < second
  | .guild _, .user _ => true
  | .user _, .guild _ => false
  | .user first, .user second => first < second

def insertInto (scope : Scope) : List Scope → List Scope
  | [] => [scope]
  | head :: tail =>
      if scope = head then head :: tail
      else if scope.before head then scope :: head :: tail
      else head :: insertInto scope tail

theorem mem_insertInto {scope other : Scope} {scopes : List Scope} :
    other ∈ scope.insertInto scopes ↔ other = scope ∨ other ∈ scopes := by
  induction scopes with
  | nil => simp [insertInto]
  | cons head tail ih =>
      unfold insertInto
      split
      · rename_i hsame
        subst hsame
        simp
      · split
        · simp
        · simp only [List.mem_cons, ih]
          constructor
          · rintro (hhead | hnew | htail)
            · exact .inr (.inl hhead)
            · exact .inl hnew
            · exact .inr (.inr htail)
          · rintro (hnew | hhead | htail)
            · exact .inr (.inl hnew)
            · exact .inl hhead
            · exact .inr (.inr htail)

end Scope

structure Versions where
  scopes : Table Scope Nat := ∅
  global : Nat := 0

namespace Versions

inductive Op
  | bump (scope : Scope)
  | bumpGlobal
  | subscribe (scope : Scope)
  | counter (scope : Scope)
  deriving DecidableEq

@[reducible] def Op.Res : Op → Type
  | .bump _ => Unit
  | .bumpGlobal => Unit
  | .subscribe _ => Nat
  | .counter _ => Nat

def count (versions : Versions) (scope : Scope) : Nat :=
  (versions.scopes.get? scope).getD 0

def send (versions : Versions) (scope : Scope) (value : Nat) : Versions :=
  { versions with scopes := versions.scopes.insert scope value }

def step (versions : Versions) : (o : Op) → o.Res × Versions
  | .bump scope => ((), versions.send scope (versions.count scope + 1))
  | .bumpGlobal => ((), { versions with global := versions.global + 1 })
  | .subscribe scope => (versions.count scope, versions.send scope (versions.count scope))
  | .counter scope => (versions.count scope, versions)

@[simp] theorem count_send (versions : Versions) (scope other : Scope) (value : Nat) :
    (versions.send scope value).count other =
      if other = scope then value else versions.count other := by
  simp only [count, send, Table.get?_insert]
  split <;> rfl

theorem count_step (versions : Versions) (o : Op) (scope : Scope) :
    (versions.step o).2.count scope =
      if o = .bump scope then versions.count scope + 1 else versions.count scope := by
  cases o with
  | bump other =>
      by_cases hsame : scope = other
      · simp [step, hsame]
      · simp [step, hsame, Ne.symm hsame]
  | bumpGlobal => simp [step, count]
  | subscribe other =>
      by_cases hsame : scope = other
      · simp [step, hsame]
      · simp [step, hsame]
  | counter other => simp [step]

end Versions

end UnityLan.Coordinator
