import Mathlib.Data.List.Basic
import UnityLan.Foundation.Octets

namespace UnityLan.Foundation

/-! Postcard: the fields of a value one after the other, each read off the front of what is left. -/

/-- How values are written, and read from bytes that more may follow. -/
structure Codec (α : Type) where
  encode : α → List Byte
  decode : List Byte → Option (α × List Byte)
  decode_encode : ∀ value rest, decode (encode value ++ rest) = some (value, rest)

/-! Numbers of variable length: seven bits a byte, the lowest first, and a mark on every byte but
the last. -/

def varint : Nat → Nat → List Byte
  | 0, _ => []
  | count + 1, value =>
      if value < 128 then [BitVec.ofNat 8 value]
      else BitVec.ofNat 8 (value % 128 + 128) :: varint count (value / 128)

/-- At most `count` bytes are read, and a full number has a last byte of at most `last`. -/
def takeVarint (last : Nat) : Nat → List Byte → Option (Nat × List Byte)
  | 0, _ => none
  | _ + 1, [] => none
  | count + 1, byte :: rest =>
      if byte.toNat < 128 then
        if count = 0 ∧ last < byte.toNat then none else some (byte.toNat, rest)
      else
        (takeVarint last count rest).map fun read => (byte.toNat % 128 + 128 * read.1, read.2)

theorem takeVarint_last {last count value : Nat} (hsmall : value < 128) (rest : List Byte) :
    takeVarint last (count + 1) (BitVec.ofNat 8 value :: rest) =
      if count = 0 ∧ last < value then none else some (value, rest) := by
  have hbyte : (BitVec.ofNat 8 value).toNat = value := by
    rw [BitVec.toNat_ofNat]
    omega
  rw [takeVarint, hbyte, if_pos hsmall]

theorem takeVarint_more {last count value : Nat} (rest : List Byte) :
    takeVarint last (count + 1) (BitVec.ofNat 8 (value % 128 + 128) :: rest) =
      (takeVarint last count rest).map fun read => (value % 128 + 128 * read.1, read.2) := by
  have hbyte : (BitVec.ofNat 8 (value % 128 + 128)).toNat = value % 128 + 128 := by
    rw [BitVec.toNat_ofNat]
    omega
  have hlow : (value % 128 + 128) % 128 = value % 128 := by
    omega
  rw [takeVarint, hbyte, if_neg (by omega), hlow]

theorem takeVarint_varint {last count written value : Nat} (hlast : last < 128)
    (hfits : value < (last + 1) * 128 ^ count) (hwritten : value < 128 ^ (written + 1))
    (rest : List Byte) :
    takeVarint last (count + 1) (varint (written + 1) value ++ rest) = some (value, rest) := by
  induction count generalizing value written with
  | zero =>
      have hsmall : value < 128 := by omega
      rw [varint, if_pos hsmall, List.singleton_append, takeVarint_last hsmall, if_neg (by omega)]
  | succ count ih =>
      rw [varint]
      split
      · rename_i hsmall
        rw [List.singleton_append, takeVarint_last hsmall, if_neg (by omega)]
      · rename_i hlarge
        have hlower : value / 128 < (last + 1) * 128 ^ count := by
          rw [Nat.div_lt_iff_lt_mul (by decide), Nat.mul_assoc, ← Nat.pow_succ]
          exact hfits
        cases written with
        | zero => omega
        | succ written =>
            have hrest : value / 128 < 128 ^ (written + 1) := by
              rw [Nat.div_lt_iff_lt_mul (by decide), ← Nat.pow_succ]
              exact hwritten
            rw [List.cons_append, takeVarint_more, ih hlower hrest, Option.map_some,
              Nat.mod_add_div]

theorem takeVarint_lt {last count value : Nat} {bytes left : List Byte}
    (hread : takeVarint last (count + 1) bytes = some (value, left)) :
    value < (last + 1) * 128 ^ count := by
  induction count generalizing bytes value with
  | zero =>
      cases bytes with
      | nil => cases hread
      | cons byte rest =>
          rw [takeVarint] at hread
          split at hread
          · split at hread
            · cases hread
            · cases hread
              omega
          · cases hread
  | succ count ih =>
      cases bytes with
      | nil => cases hread
      | cons byte rest =>
          rw [takeVarint] at hread
          split at hread
          · rename_i hsmall
            rw [if_neg (by omega)] at hread
            cases hread
            have hpower : 0 < (last + 1) * 128 ^ count :=
              Nat.mul_pos (Nat.succ_pos last) (Nat.pow_pos (by decide))
            rw [Nat.pow_succ, ← Nat.mul_assoc]
            omega
          · obtain ⟨read, hlater, hsame⟩ := Option.map_eq_some_iff.mp hread
            cases hsame
            have hlower := ih hlater
            rw [Nat.pow_succ, ← Nat.mul_assoc]
            omega

theorem takeVarint_shorter {last short count value read : Nat} {rest left : List Byte}
    (hshort : short ≤ count)
    (hread : takeVarint last short (varint count value ++ rest) = some (read, left)) :
    read = value ∧ left = rest := by
  induction short generalizing count value read with
  | zero => cases hread
  | succ short ih =>
      cases count with
      | zero => omega
      | succ count =>
          rw [varint] at hread
          split at hread
          · rename_i hsmall
            rw [List.singleton_append, takeVarint_last hsmall] at hread
            split at hread
            · cases hread
            · cases hread
              exact ⟨rfl, rfl⟩
          · rw [List.cons_append, takeVarint_more, Option.map_eq_some_iff] at hread
            obtain ⟨found, hfound, hsame⟩ := hread
            cases hsame
            obtain ⟨hvalue, hleft⟩ := ih (Nat.le_of_succ_le_succ hshort) hfound
            exact ⟨by rw [hvalue, Nat.mod_add_div], hleft⟩

namespace Codec

variable {α β : Type}

def u64 : Codec (BitVec 64) where
  encode value := varint 10 value.toNat
  decode bytes := (takeVarint 1 10 bytes).map fun read => (BitVec.ofNat 64 read.1, read.2)
  decode_encode value rest := by
    rw [takeVarint_varint (by decide) value.isLt (Nat.lt_of_lt_of_le value.isLt (by decide)),
      Option.map_some, BitVec.ofNat_toNat, BitVec.setWidth_eq]

def u32 : Codec (BitVec 32) where
  encode value := varint 5 value.toNat
  decode bytes := (takeVarint 15 5 bytes).map fun read => (BitVec.ofNat 32 read.1, read.2)
  decode_encode value rest := by
    rw [takeVarint_varint (by decide) value.isLt (Nat.lt_of_lt_of_le value.isLt (by decide)),
      Option.map_some, BitVec.ofNat_toNat, BitVec.setWidth_eq]

def bool : Codec Bool where
  encode value := [if value then 1 else 0]
  decode
    | [] => none
    | byte :: rest =>
        if byte = 0 then some (false, rest) else if byte = 1 then some (true, rest) else none
  decode_encode value rest := by
    cases value <;> rfl

def takeBytes (count : Nat) (bytes : List Byte) : Option (List Byte × List Byte) :=
  if bytes.length < count then none else some (bytes.take count, bytes.drop count)

theorem takeBytes_append (bytes rest : List Byte) :
    takeBytes bytes.length (bytes ++ rest) = some (bytes, rest) := by
  unfold takeBytes
  rw [if_neg (by simp), List.take_left, List.drop_left]

def word {width : Nat} (count : Nat) (hwidth : 2 ^ width = 256 ^ count) : Codec (BitVec width) where
  encode value := (octets count value.toNat).reverse
  decode bytes :=
    (takeBytes count bytes).map fun taken => (BitVec.ofNat width (number taken.1.reverse), taken.2)
  decode_encode value rest := by
    have htake := takeBytes_append (octets count value.toNat).reverse rest
    rw [List.length_reverse, length_octets] at htake
    rw [htake, Option.map_some, List.reverse_reverse, ofNat_number hwidth]

abbrev Text := { text : String // text.utf8ByteSize < 2 ^ 64 }

def textBytes (text : String) : List Byte :=
  text.toByteArray.data.toList.map UInt8.toBitVec

def ofBytes (bytes : List Byte) : Option String :=
  String.fromUTF8? ⟨(bytes.map UInt8.ofBitVec).toArray⟩

theorem length_textBytes (text : String) : (textBytes text).length = text.utf8ByteSize := by
  unfold textBytes
  rw [List.length_map]
  rfl

theorem ofBytes_textBytes (text : String) : ofBytes (textBytes text) = some text := by
  have hbytes :
      (⟨((textBytes text).map UInt8.ofBitVec).toArray⟩ : ByteArray) = text.toByteArray := by
    have hsame : UInt8.ofBitVec ∘ UInt8.toBitVec = id := rfl
    unfold textBytes
    rw [List.map_map, hsame, List.map_id, Array.toArray_toList]
  unfold ofBytes
  rw [hbytes]
  unfold String.fromUTF8?
  rw [dif_pos text.isValidUTF8]
  rfl

def text : Codec Text where
  encode value := varint 10 value.1.utf8ByteSize ++ textBytes value.1
  decode bytes := do
    let (length, rest) ← takeVarint 1 10 bytes
    let (content, rest) ← takeBytes length rest
    let value ← ofBytes content
    if hlength : value.utf8ByteSize < 2 ^ 64 then some (⟨value, hlength⟩, rest) else none
  decode_encode value rest := by
    have htake := takeBytes_append (textBytes value.1) rest
    rw [length_textBytes] at htake
    rw [List.append_assoc, takeVarint_varint (by decide) value.2
      (Nat.lt_of_lt_of_le value.2 (by decide))]
    simp only [Option.bind_eq_bind, Option.bind_some, htake, ofBytes_textBytes]
    rw [dif_pos value.2]

def prod (first : Codec α) (second : Codec β) : Codec (α × β) where
  encode value := first.encode value.1 ++ second.encode value.2
  decode bytes := do
    let (a, rest) ← first.decode bytes
    let (b, rest) ← second.decode rest
    return ((a, b), rest)
  decode_encode value rest := by
    rw [List.append_assoc, first.decode_encode]
    simp [second.decode_encode]

/-- The fields of a record; some values may have none. -/
def record (fields : Codec α) (build : α → Option β) (split : β → α)
    (hbuild : ∀ value, build (split value) = some value) : Codec β where
  encode value := fields.encode (split value)
  decode bytes := do
    let (read, rest) ← fields.decode bytes
    let value ← build read
    return (value, rest)
  decode_encode value rest := by
    rw [fields.decode_encode]
    simp [hbuild]

end Codec

end UnityLan.Foundation
