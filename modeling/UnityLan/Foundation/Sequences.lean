import UnityLan.Foundation.Postcard

namespace UnityLan.Foundation.Codec

/-! Postcard: values of variable number, and bytes as they are. -/

variable {α : Type}

abbrev Sized (α : Type) := { items : List α // items.length < 2 ^ 64 }

def takeItems (item : Codec α) : Nat → List Byte → Option (List α × List Byte)
  | 0, bytes => some ([], bytes)
  | count + 1, bytes => do
      let (head, rest) ← item.decode bytes
      let (tail, rest) ← takeItems item count rest
      return (head :: tail, rest)

theorem takeItems_flatMap (item : Codec α) (items : List α) (rest : List Byte) :
    takeItems item items.length (items.flatMap item.encode ++ rest) = some (items, rest) := by
  induction items with
  | nil => rfl
  | cons head tail ih =>
      rw [List.flatMap_cons, List.append_assoc, List.length_cons, takeItems, item.decode_encode]
      simp [ih]

def list (item : Codec α) : Codec (Sized α) where
  encode value := varint 10 value.1.length ++ value.1.flatMap item.encode
  decode bytes := do
    let (count, rest) ← takeVarint 1 10 bytes
    let (items, rest) ← takeItems item count rest
    if hlength : items.length < 2 ^ 64 then some (⟨items, hlength⟩, rest) else none
  decode_encode value rest := by
    rw [List.append_assoc, takeVarint_varint (by decide) value.2
      (Nat.lt_of_lt_of_le value.2 (by decide))]
    simp only [Option.bind_eq_bind, Option.bind_some, takeItems_flatMap]
    rw [dif_pos value.2]

def byte : Codec Byte where
  encode value := [value]
  decode
    | [] => none
    | value :: rest => some (value, rest)
  decode_encode _ _ := rfl

def array (count : Nat) : Codec { bytes : List Byte // bytes.length = count } where
  encode value := value.1
  decode bytes := do
    let (taken, rest) ← takeBytes count bytes
    if hlength : taken.length = count then some (⟨taken, hlength⟩, rest) else none
  decode_encode value rest := by
    have htake := takeBytes_append value.1 rest
    rw [value.2] at htake
    rw [htake]
    simp [value.2]

end UnityLan.Foundation.Codec
