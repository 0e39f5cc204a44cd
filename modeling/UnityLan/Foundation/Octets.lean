import Mathlib.Algebra.GroupWithZero.Nat
import Mathlib.Data.Nat.Basic

namespace UnityLan.Foundation

/-! Numbers as strings of bytes. -/

abbrev Byte := BitVec 8

def octets : Nat → Nat → List Byte
  | 0, _ => []
  | count + 1, value => BitVec.ofNat 8 value :: octets count (value / 256)

def number : List Byte → Nat
  | [] => 0
  | byte :: rest => byte.toNat + 256 * number rest

@[simp] theorem length_octets (count value : Nat) : (octets count value).length = count := by
  induction count generalizing value with
  | zero => rfl
  | succ count ih => exact congrArg (· + 1) (ih _)

theorem number_octets (count value : Nat) : number (octets count value) = value % 256 ^ count := by
  induction count generalizing value with
  | zero =>
      rw [Nat.pow_zero, Nat.mod_one]
      rfl
  | succ count ih =>
      have hlow : (BitVec.ofNat 8 value).toNat = value % 256 := BitVec.toNat_ofNat ..
      calc number (octets (count + 1) value)
          = value % 256 + 256 * (value / 256 % 256 ^ count) := by
            rw [← hlow, ← ih]
            rfl
        _ = value % 256 ^ (count + 1) := by
            rw [Nat.pow_succ', Nat.mod_mul]

theorem ofNat_number {width count : Nat} (hwidth : 2 ^ width = 256 ^ count) (word : BitVec width) :
    BitVec.ofNat width (number (octets count word.toNat)) = word := by
  rw [number_octets, ← hwidth, Nat.mod_eq_of_lt word.isLt, BitVec.ofNat_toNat, BitVec.setWidth_eq]

end UnityLan.Foundation
