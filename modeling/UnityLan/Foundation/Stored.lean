import Mathlib.Init

namespace UnityLan.Foundation

/-! A file that is written as a whole, in place. -/

inductive Stored (α : Type)
  | absent
  /-- It does not parse. -/
  | damaged
  | holding (value : α)
  deriving DecidableEq

inductive Fault
  | refused
  | torn
  deriving DecidableEq

namespace Stored

variable {α : Type}

def readOr (stored : Stored α) (default : α) : α :=
  match stored with
  | .holding value => value
  | .absent | .damaged => default

def write (stored : Stored α) (fault : Option Fault) (value : α) : Except String Unit × Stored α :=
  match fault with
  | none => (.ok (), .holding value)
  | some .refused => (.error "refused", stored)
  | some .torn => (.error "cut off", .damaged)

theorem write_isOk {stored : Stored α} {fault : Option Fault} {value : α}
    (hok : (stored.write fault value).1.isOk = true) :
    (stored.write fault value).2 = .holding value := by
  cases fault with
  | none => rfl
  | some fault => cases fault <;> cases hok

end Stored

end UnityLan.Foundation
