import Mathlib.Data.List.Basic
import UnityLan.Foundation.Octets

namespace UnityLan.Foundation.Base64

/-! Base64: three bytes as four characters, with padding that has to be there, and no bits that
mean nothing. -/

def SYMBOLS : List Char :=
  "ABCDEFGHIJKLMNOPQRSTUVWXYZabcdefghijklmnopqrstuvwxyz0123456789+/".toList

def PAD : Char := '='

def symbol (bits : Nat) : Char :=
  SYMBOLS.getD bits PAD

def value? (c : Char) : Option Nat :=
  let index := SYMBOLS.idxOf c
  if index < 64 then some index else none

def encode : List Byte → List Char
  | [] => []
  | [a] => [symbol (a.toNat / 4), symbol (a.toNat % 4 * 16), PAD, PAD]
  | [a, b] =>
      [symbol (a.toNat / 4), symbol (a.toNat % 4 * 16 + b.toNat / 16), symbol (b.toNat % 16 * 4),
        PAD]
  | a :: b :: c :: rest =>
      symbol (a.toNat / 4) :: symbol (a.toNat % 4 * 16 + b.toNat / 16) ::
        symbol (b.toNat % 16 * 4 + c.toNat / 64) :: symbol (c.toNat % 64) :: encode rest

def oneByte (w x : Nat) : Option (List Byte) :=
  if x % 16 = 0 then some [BitVec.ofNat 8 (w * 4 + x / 16)] else none

def twoBytes (w x y : Nat) : Option (List Byte) :=
  if y % 4 = 0 then
    some [BitVec.ofNat 8 (w * 4 + x / 16), BitVec.ofNat 8 (x % 16 * 16 + y / 4)]
  else none

def threeBytes (w x y z : Nat) : List Byte :=
  [BitVec.ofNat 8 (w * 4 + x / 16), BitVec.ofNat 8 (x % 16 * 16 + y / 4),
    BitVec.ofNat 8 (y % 4 * 64 + z)]

/-- Four characters; only the last four may be padded. -/
def quad (w x y z : Char) (last : Bool) : Option (List Byte) := do
  let w ← value? w
  let x ← value? x
  if last && y == PAD && z == PAD then oneByte w x
  else
    let y ← value? y
    if last && z == PAD then twoBytes w x y
    else
      let z ← value? z
      some (threeBytes w x y z)

def decode : List Char → Option (List Byte)
  | [] => some []
  | w :: x :: y :: z :: rest => do
      let bytes ← quad w x y z rest.isEmpty
      let more ← decode rest
      some (bytes ++ more)
  | _ => none

/-! The characters. -/

theorem value?_symbol : ∀ bits < 64, value? (symbol bits) = some bits := by
  decide +kernel

theorem symbol_ne_pad : ∀ bits < 64, symbol bits ≠ PAD := by
  decide +kernel

theorem value?_eq_some {c : Char} {bits : Nat} (hvalue : value? c = some bits) :
    bits < 64 ∧ symbol bits = c := by
  unfold value? at hvalue
  dsimp only at hvalue
  split at hvalue
  · rename_i hlt
    cases hvalue
    have hlength : SYMBOLS.idxOf c < SYMBOLS.length := hlt
    refine ⟨hlt, ?_⟩
    unfold symbol
    rw [List.getD_eq_getElem?_getD, List.getElem?_eq_getElem hlength, Option.getD_some,
      List.getElem_idxOf]
  · cases hvalue

/-! Four characters are read as they were written. -/

theorem ofNat_parts {a : Byte} {parts : Nat} (hparts : parts = a.toNat) :
    BitVec.ofNat 8 parts = a := by
  rw [hparts, BitVec.ofNat_toNat, BitVec.setWidth_eq]

theorem oneByte_of (a : Byte) : oneByte (a.toNat / 4) (a.toNat % 4 * 16) = some [a] := by
  unfold oneByte
  rw [if_pos (by omega), ofNat_parts (a := a) (by omega)]

theorem twoBytes_of (a b : Byte) :
    twoBytes (a.toNat / 4) (a.toNat % 4 * 16 + b.toNat / 16) (b.toNat % 16 * 4) =
      some [a, b] := by
  have hb := b.isLt
  unfold twoBytes
  rw [if_pos (by omega)]
  congr 2
  · exact ofNat_parts (by omega)
  · rw [ofNat_parts (a := b) (by omega)]

theorem threeBytes_of (a b c : Byte) :
    threeBytes (a.toNat / 4) (a.toNat % 4 * 16 + b.toNat / 16) (b.toNat % 16 * 4 + c.toNat / 64)
      (c.toNat % 64) = [a, b, c] := by
  have hb := b.isLt
  have hc := c.isLt
  have hfirst : a.toNat / 4 * 4 + (a.toNat % 4 * 16 + b.toNat / 16) / 16 = a.toNat := by omega
  have hsecond : (a.toNat % 4 * 16 + b.toNat / 16) % 16 * 16 +
      (b.toNat % 16 * 4 + c.toNat / 64) / 4 = b.toNat := by
    omega
  have hthird : (b.toNat % 16 * 4 + c.toNat / 64) % 4 * 64 + c.toNat % 64 = c.toNat := by omega
  unfold threeBytes
  rw [ofNat_parts hfirst, ofNat_parts hsecond, ofNat_parts hthird]

theorem quad_one (a : Byte) :
    quad (symbol (a.toNat / 4)) (symbol (a.toNat % 4 * 16)) PAD PAD true = some [a] := by
  have hbound := a.isLt
  unfold quad
  rw [value?_symbol _ (by omega), value?_symbol _ (by omega)]
  simp only [Option.bind_eq_bind, Option.bind_some, oneByte_of]
  rfl

theorem quad_two (a b : Byte) :
    quad (symbol (a.toNat / 4)) (symbol (a.toNat % 4 * 16 + b.toNat / 16))
      (symbol (b.toNat % 16 * 4)) PAD true = some [a, b] := by
  have ha := a.isLt
  have hb := b.isLt
  have hpad := symbol_ne_pad (b.toNat % 16 * 4) (by omega)
  unfold quad
  rw [value?_symbol _ (by omega), value?_symbol _ (by omega), value?_symbol _ (by omega)]
  simp only [Option.bind_eq_bind, Option.bind_some, twoBytes_of, beq_false_of_ne hpad]
  rfl

theorem quad_three (a b c : Byte) (last : Bool) :
    quad (symbol (a.toNat / 4)) (symbol (a.toNat % 4 * 16 + b.toNat / 16))
      (symbol (b.toNat % 16 * 4 + c.toNat / 64)) (symbol (c.toNat % 64)) last =
        some [a, b, c] := by
  have ha := a.isLt
  have hb := b.isLt
  have hc := c.isLt
  have hthird := symbol_ne_pad (b.toNat % 16 * 4 + c.toNat / 64) (by omega)
  have hfourth := symbol_ne_pad (c.toNat % 64) (by omega)
  unfold quad
  rw [value?_symbol _ (by omega), value?_symbol _ (by omega), value?_symbol _ (by omega),
    value?_symbol _ (by omega)]
  simp only [Option.bind_eq_bind, Option.bind_some, threeBytes_of, beq_false_of_ne hthird,
    beq_false_of_ne hfourth, Bool.and_false, Bool.false_eq_true, if_false]

theorem decode_encode (bytes : List Byte) : decode (encode bytes) = some bytes := by
  fun_induction encode bytes with
  | case1 => rfl
  | case2 a => simp [decode, quad_one]
  | case3 a b => simp [decode, quad_two]
  | case4 a b c rest ih => simp [decode, quad_three, ih]

/-! Four characters are the ones that are written. -/

theorem ofNat_toNat {n : Nat} (hbound : n < 256) : (BitVec.ofNat 8 n).toNat = n := by
  rw [BitVec.toNat_ofNat]
  omega

theorem encode_oneByte {w x : Nat} {bytes : List Byte} (hw : w < 64) (hx : x < 64)
    (hread : oneByte w x = some bytes) :
    encode bytes = [symbol w, symbol x, PAD, PAD] := by
  unfold oneByte at hread
  split at hread
  · rename_i hclear
    cases hread
    have hhigh : (w * 4 + x / 16) / 4 = w := by omega
    have hlow : (w * 4 + x / 16) % 4 * 16 = x := by omega
    rw [encode, ofNat_toNat (by omega), hhigh, hlow]
  · cases hread

theorem encode_twoBytes {w x y : Nat} {bytes : List Byte} (hw : w < 64) (hx : x < 64) (hy : y < 64)
    (hread : twoBytes w x y = some bytes) :
    encode bytes = [symbol w, symbol x, symbol y, PAD] := by
  unfold twoBytes at hread
  split at hread
  · rename_i hclear
    cases hread
    have hfirst : (w * 4 + x / 16) / 4 = w := by omega
    have hsecond : (w * 4 + x / 16) % 4 * 16 + (x % 16 * 16 + y / 4) / 16 = x := by omega
    have hthird : (x % 16 * 16 + y / 4) % 16 * 4 = y := by omega
    rw [encode, ofNat_toNat (by omega), ofNat_toNat (by omega), hfirst, hsecond, hthird]
  · cases hread

theorem encode_threeBytes {w x y z : Nat} (hw : w < 64) (hx : x < 64) (hy : y < 64) (hz : z < 64)
    (rest : List Byte) :
    encode (threeBytes w x y z ++ rest) =
      symbol w :: symbol x :: symbol y :: symbol z :: encode rest := by
  have hfirst : (w * 4 + x / 16) / 4 = w := by omega
  have hsecond : (w * 4 + x / 16) % 4 * 16 + (x % 16 * 16 + y / 4) / 16 = x := by omega
  have hthird : (x % 16 * 16 + y / 4) % 16 * 4 + (y % 4 * 64 + z) / 64 = y := by omega
  have hfourth : (y % 4 * 64 + z) % 64 = z := by omega
  unfold threeBytes
  rw [List.cons_append, List.cons_append, List.cons_append, List.nil_append, encode,
    ofNat_toNat (by omega), ofNat_toNat (by omega), ofNat_toNat (by omega), hfirst, hsecond,
    hthird, hfourth]

theorem eq_nil_of_encode {bytes : List Byte} (hnone : encode bytes = []) : bytes = [] := by
  unfold encode at hnone
  split at hnone
  · rfl
  all_goals cases hnone

theorem encode_quad {w x y z : Char} {rest : List Char} {bytes more : List Byte}
    (hread : quad w x y z rest.isEmpty = some bytes) (hmore : encode more = rest) :
    encode (bytes ++ more) = w :: x :: y :: z :: rest := by
  have hend : rest.isEmpty = true → more = [] := by
    intro hempty
    exact eq_nil_of_encode (hmore.trans (List.isEmpty_iff.mp hempty))
  unfold quad at hread
  simp only [Option.bind_eq_bind, Option.bind_eq_some_iff] at hread
  obtain ⟨w', hw, x', hx, hread⟩ := hread
  obtain ⟨hw', rfl⟩ := value?_eq_some hw
  obtain ⟨hx', rfl⟩ := value?_eq_some hx
  split at hread
  · rename_i hpadded
    simp only [Bool.and_eq_true, beq_iff_eq] at hpadded
    obtain ⟨⟨hlast, rfl⟩, rfl⟩ := hpadded
    rw [hend hlast, List.append_nil, encode_oneByte hw' hx' hread, List.isEmpty_iff.mp hlast]
  · simp only [Option.bind_eq_some_iff] at hread
    obtain ⟨y', hy, hread⟩ := hread
    obtain ⟨hy', rfl⟩ := value?_eq_some hy
    split at hread
    · rename_i hpadded
      simp only [Bool.and_eq_true, beq_iff_eq] at hpadded
      obtain ⟨hlast, rfl⟩ := hpadded
      rw [hend hlast, List.append_nil, encode_twoBytes hw' hx' hy' hread, List.isEmpty_iff.mp hlast]
    · simp only [Option.bind_eq_some_iff, Option.some.injEq] at hread
      obtain ⟨z', hz, rfl⟩ := hread
      obtain ⟨hz', rfl⟩ := value?_eq_some hz
      rw [encode_threeBytes hw' hx' hy' hz', hmore]

theorem encode_decode {text : List Char} {bytes : List Byte} (hread : decode text = some bytes) :
    encode bytes = text := by
  fun_induction decode text generalizing bytes with
  | case1 =>
      cases hread
      rfl
  | case2 w x y z rest ih =>
      simp only [Option.bind_eq_bind, Option.bind_eq_some_iff, Option.some.injEq] at hread
      obtain ⟨first, hfirst, more, hmore, rfl⟩ := hread
      exact encode_quad hfirst (ih hmore)
  | case3 => cases hread

theorem decode_eq_some {text : List Char} {bytes : List Byte} :
    decode text = some bytes ↔ text = encode bytes := by
  constructor
  · exact fun hread => (encode_decode hread).symm
  · rintro rfl
    exact decode_encode bytes

end UnityLan.Foundation.Base64
