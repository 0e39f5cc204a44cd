import Mathlib.Data.List.Basic
import UnityLan.Foundation.Octets

namespace UnityLan.Foundation.Hex

/-! Two hexadecimal digits a byte, read two bytes of text at a time. -/

def DIGITS : List Char :=
  "0123456789abcdef".toList

def digit (value : Nat) : Char :=
  DIGITS.getD value '0'

def digits (byte : Byte) : List Char :=
  [digit (byte.toNat / 16), digit (byte.toNat % 16)]

def encode (bytes : List Byte) : List Char :=
  bytes.flatMap digits

def value? (c : Char) : Option Nat :=
  let code := c.toNat
  if 48 ≤ code ∧ code ≤ 57 then some (code - 48)
  else if 97 ≤ code ∧ code ≤ 102 then some (code - 87)
  else if 65 ≤ code ∧ code ≤ 70 then some (code - 55)
  else none

def number (a b : Char) : Option Byte := do
  let high ← if a = '+' then some 0 else value? a
  let low ← value? b
  some (BitVec.ofNat 8 (high * 16 + low))

inductive Fault
  /-- Two bytes that are no number. -/
  | digit
  /-- A character goes on behind the two bytes, or the text ends before them. -/
  | cut
  deriving DecidableEq

def pair : List Char → Except Fault (Byte × List Char)
  | [] => .error .cut
  | a :: rest =>
      if a.utf8Size = 1 then
        match rest with
        | [] => .error .cut
        | b :: rest =>
            if b.utf8Size = 1 then
              match number a b with
              | some byte => .ok (byte, rest)
              | none => .error .digit
            else .error .cut
      else if a.utf8Size = 2 then .error .digit
      else .error .cut

def octets : Nat → List Char → Except Fault (List Byte)
  | 0, _ => .ok []
  | count + 1, text =>
      match pair text with
      | .error fault => .error fault
      | .ok (byte, rest) =>
          match octets count rest with
          | .error fault => .error fault
          | .ok bytes => .ok (byte :: bytes)

def utf8Length (text : List Char) : Nat :=
  (text.map Char.utf8Size).sum

def Boundary (text : List Char) (index : Nat) : Prop :=
  ∃ front, front <+: text ∧ utf8Length front = index

/-! What is written. -/

theorem value?_digit : ∀ value < 16, value? (digit value) = some value := by
  decide +kernel

theorem digit_ne_sign : ∀ value < 16, digit value ≠ '+' := by
  decide +kernel

theorem digit_size : ∀ value < 16, (digit value).utf8Size = 1 := by
  decide +kernel

theorem number_digits (byte : Byte) :
    number (digit (byte.toNat / 16)) (digit (byte.toNat % 16)) = some byte := by
  have hbound := byte.isLt
  unfold number
  rw [if_neg (digit_ne_sign _ (by omega)), value?_digit _ (by omega), value?_digit _ (by omega)]
  simp only [Option.bind_eq_bind, Option.bind_some, Nat.div_add_mod']
  rw [BitVec.ofNat_toNat, BitVec.setWidth_eq]

theorem utf8ByteSize_ofList (text : List Char) :
    (String.ofList text).utf8ByteSize = utf8Length text := by
  induction text with
  | nil => rfl
  | cons a rest ih =>
      rw [String.ofList_cons, String.utf8ByteSize_append, ih, String.utf8ByteSize_singleton]
      rfl

theorem utf8Length_append (front rest : List Char) :
    utf8Length (front ++ rest) = utf8Length front + utf8Length rest := by
  unfold utf8Length
  rw [List.map_append, List.sum_append]

/-! What is read. -/

theorem pair_ok {text rest : List Char} {byte : Byte} (hread : pair text = .ok (byte, rest)) :
    ∃ a b, text = a :: b :: rest ∧ a.utf8Size = 1 ∧ b.utf8Size = 1 ∧ number a b = some byte := by
  unfold pair at hread
  split at hread
  · cases hread
  · rename_i a more
    split at hread
    · rename_i ha
      split at hread
      · cases hread
      · rename_i b more
        split at hread
        · rename_i hb
          split at hread
          · rename_i hnumber
            cases hread
            exact ⟨a, b, rfl, ha, hb, hnumber⟩
          · cases hread
        · cases hread
    · split at hread
      · cases hread
      · cases hread

theorem octets_length {count : Nat} {text : List Char} {bytes : List Byte}
    (hread : octets count text = .ok bytes) : bytes.length = count := by
  fun_induction octets count text generalizing bytes with
  | case1 =>
      cases hread
      rfl
  | case2 => cases hread
  | case3 => cases hread
  | case4 count text byte rest _ more hmore ih =>
      cases hread
      rw [List.length_cons, ih hmore]

def joined (pairs : List (Char × Char)) : List Char :=
  pairs.flatMap fun two => [two.1, two.2]

structure Numbers (pairs : List (Char × Char)) (bytes : List Byte) : Prop where
  sizes : ∀ two ∈ pairs, two.1.utf8Size = 1 ∧ two.2.utf8Size = 1
  numbers : pairs.map (fun two => number two.1 two.2) = bytes.map some

theorem utf8Length_joined {pairs : List (Char × Char)}
    (hsizes : ∀ two ∈ pairs, two.1.utf8Size = 1 ∧ two.2.utf8Size = 1) :
    utf8Length (joined pairs) = 2 * pairs.length := by
  induction pairs with
  | nil => rfl
  | cons two pairs ih =>
      obtain ⟨⟨hfirst, hsecond⟩, hsizes⟩ := List.forall_mem_cons.mp hsizes
      have htwo : utf8Length [two.1, two.2] = 2 := by
        simp [utf8Length, hfirst, hsecond]
      unfold joined at ih ⊢
      rw [List.flatMap_cons, utf8Length_append, ih hsizes, htwo, List.length_cons]
      omega

theorem eq_nil_of_utf8Length {text : List Char} (hnone : utf8Length text = 0) : text = [] := by
  cases text with
  | nil => rfl
  | cons a rest =>
      have hpos := a.utf8Size_pos
      have hlength : utf8Length (a :: rest) = a.utf8Size + utf8Length rest := rfl
      omega

theorem octets_ok {count : Nat} {text : List Char} {bytes : List Byte} :
    octets count text = .ok bytes ↔ ∃ pairs rest, text = joined pairs ++ rest ∧
      pairs.length = count ∧ Numbers pairs bytes := by
  constructor
  · intro hread
    fun_induction octets count text generalizing bytes with
    | case1 text =>
        cases hread
        exact ⟨[], text, rfl, rfl, fun _ hnone => absurd hnone List.not_mem_nil, rfl⟩
    | case2 => cases hread
    | case3 => cases hread
    | case4 count text byte rest hpair more hmore ih =>
        cases hread
        obtain ⟨a, b, rfl, ha, hb, hnumber⟩ := pair_ok hpair
        obtain ⟨pairs, left, rfl, hlength, hpairs⟩ := ih hmore
        refine ⟨(a, b) :: pairs, left, rfl, by rw [List.length_cons, hlength], ?_, ?_⟩
        · exact List.forall_mem_cons.mpr ⟨⟨ha, hb⟩, hpairs.sizes⟩
        · rw [List.map_cons, List.map_cons, hpairs.numbers, hnumber]
  · rintro ⟨pairs, rest, rfl, rfl, hsizes, hnumbers⟩
    induction pairs generalizing bytes with
    | nil =>
        rw [List.map_nil, eq_comm, List.map_eq_nil_iff] at hnumbers
        rw [hnumbers]
        rfl
    | cons two pairs ih =>
        obtain ⟨hsize, hsizes⟩ := List.forall_mem_cons.mp hsizes
        cases bytes with
        | nil => cases hnumbers
        | cons byte bytes =>
            rw [List.map_cons, List.map_cons, List.cons.injEq] at hnumbers
            have hpair : pair (two.1 :: two.2 :: (joined pairs ++ rest)) =
                .ok (byte, joined pairs ++ rest) := by
              unfold pair
              simp only [if_pos hsize.1, if_pos hsize.2, hnumbers.1]
            change octets (pairs.length + 1) (two.1 :: two.2 :: (joined pairs ++ rest)) = _
            rw [octets, hpair]
            simp only [ih hsizes hnumbers.2]

theorem octets_all {count : Nat} {text : List Char} {bytes : List Byte}
    (hlength : utf8Length text = 2 * count) :
    octets count text = .ok bytes ↔
      ∃ pairs, text = joined pairs ∧ pairs.length = count ∧ Numbers pairs bytes := by
  rw [octets_ok]
  constructor
  · rintro ⟨pairs, rest, rfl, rfl, hpairs⟩
    have hnone : rest = [] := by
      rw [utf8Length_append, utf8Length_joined hpairs.sizes] at hlength
      exact eq_nil_of_utf8Length (by omega)
    rw [hnone, List.append_nil]
    exact ⟨pairs, rfl, rfl, hpairs⟩
  · rintro ⟨pairs, rfl, rfl, hpairs⟩
    exact ⟨pairs, [], (List.append_nil _).symm, rfl, hpairs⟩

/-! A cut through a character. -/

theorem boundary_cons {a : Char} {rest : List Char} {index : Nat} :
    Boundary (a :: rest) (a.utf8Size + index) ↔ Boundary rest index := by
  constructor
  · rintro ⟨front, hprefix, hlength⟩
    cases front with
    | nil =>
        have hpos := a.utf8Size_pos
        have hnone : utf8Length [] = 0 := rfl
        omega
    | cons first front =>
        obtain ⟨rfl, htail⟩ := List.cons_prefix_cons.mp hprefix
        exact ⟨front, htail, Nat.add_left_cancel hlength⟩
  · rintro ⟨front, hprefix, rfl⟩
    exact ⟨a :: front, List.cons_prefix_cons.mpr ⟨rfl, hprefix⟩, rfl⟩

theorem not_boundary_nil {index : Nat} (hpos : 0 < index) : ¬ Boundary [] index := by
  rintro ⟨front, hprefix, rfl⟩
  rw [List.prefix_nil.mp hprefix] at hpos
  exact absurd hpos (by decide)

theorem not_boundary_inside {a : Char} {rest : List Char} {index : Nat} (hpos : 0 < index)
    (hinside : index < a.utf8Size) : ¬ Boundary (a :: rest) index := by
  rintro ⟨front, hprefix, rfl⟩
  cases front with
  | nil => exact absurd hpos (by decide)
  | cons first front =>
      obtain ⟨rfl, -⟩ := List.cons_prefix_cons.mp hprefix
      have hlength : utf8Length (first :: front) = first.utf8Size + utf8Length front := rfl
      omega

theorem boundary_zero (text : List Char) : Boundary text 0 :=
  ⟨[], List.nil_prefix, rfl⟩

theorem pair_cut {text : List Char} : pair text = .error .cut ↔ ¬ Boundary text 2 := by
  fun_cases pair text with
  | case1 => exact iff_of_true rfl (not_boundary_nil (by decide))
  | case2 a ha =>
      refine iff_of_true rfl fun hboundary => ?_
      have hrest : Boundary [] 1 := boundary_cons.mp (by rwa [ha])
      exact not_boundary_nil (by decide) hrest
  | case3 a ha b rest hb byte hnumber =>
      refine iff_of_false (by intro hcut; cases hcut) (not_not_intro ?_)
      have hrest : Boundary (b :: rest) (b.utf8Size + 0) := boundary_cons.mpr (boundary_zero rest)
      have hboth : Boundary (a :: b :: rest) (a.utf8Size + (b.utf8Size + 0)) :=
        boundary_cons.mpr hrest
      rwa [ha, hb] at hboth
  | case4 a ha b rest hb hnumber =>
      refine iff_of_false (by intro hcut; cases hcut) (not_not_intro ?_)
      have hrest : Boundary (b :: rest) (b.utf8Size + 0) := boundary_cons.mpr (boundary_zero rest)
      have hboth : Boundary (a :: b :: rest) (a.utf8Size + (b.utf8Size + 0)) :=
        boundary_cons.mpr hrest
      rwa [ha, hb] at hboth
  | case5 a ha b rest hb =>
      refine iff_of_true rfl fun hboundary => ?_
      have hpos := b.utf8Size_pos
      have hrest : Boundary (b :: rest) 1 := boundary_cons.mp (by rwa [ha])
      exact not_boundary_inside (by decide) (by omega) hrest
  | case6 a rest ha hb =>
      refine iff_of_false (by intro hcut; cases hcut) (not_not_intro ?_)
      have hrest : Boundary (a :: rest) (a.utf8Size + 0) := boundary_cons.mpr (boundary_zero rest)
      rwa [hb] at hrest
  | case7 a rest ha hb =>
      have hpos := a.utf8Size_pos
      exact iff_of_true rfl (not_boundary_inside (by decide) (by omega))

theorem octets_cut {count : Nat} {text : List Char} :
    octets count text = .error .cut ↔ ∃ index < count, (∃ bytes, octets index text = .ok bytes) ∧
      ¬ Boundary text (2 * index + 2) := by
  induction count generalizing text with
  | zero =>
      refine iff_of_false (by intro hcut; cases hcut) ?_
      rintro ⟨index, hnone, -⟩
      exact absurd hnone (Nat.not_lt_zero index)
  | succ count ih =>
      rw [octets]
      cases hpair : pair text with
      | error fault =>
          cases fault with
          | cut => exact iff_of_true rfl ⟨0, Nat.succ_pos _, ⟨[], rfl⟩, pair_cut.mp hpair⟩
          | digit =>
              refine iff_of_false (by intro hcut; cases hcut) ?_
              rintro ⟨index, hindex, ⟨bytes, hread⟩, hcut⟩
              cases index with
              | zero =>
                  have hcut := pair_cut.mpr hcut
                  rw [hpair] at hcut
                  cases hcut
              | succ index =>
                  rw [octets, hpair] at hread
                  cases hread
      | ok read =>
          obtain ⟨byte, rest⟩ := read
          obtain ⟨a, b, rfl, ha, hb, -⟩ := pair_ok hpair
          have hboundary (index : Nat) :
              Boundary (a :: b :: rest) (2 * (index + 1) + 2) ↔ Boundary rest (2 * index + 2) := by
            have hsum : 2 * (index + 1) + 2 =
                a.utf8Size + (b.utf8Size + (2 * index + 2)) := by
              omega
            rw [hsum, boundary_cons, boundary_cons]
          have htail : octets count rest = .error .cut ↔
              ∃ index < count + 1, (∃ bytes, octets index (a :: b :: rest) = .ok bytes) ∧
                ¬ Boundary (a :: b :: rest) (2 * index + 2) := by
            rw [ih]
            constructor
            · rintro ⟨index, hindex, ⟨bytes, hread⟩, hcut⟩
              refine ⟨index + 1, Nat.succ_lt_succ hindex, ⟨byte :: bytes, ?_⟩, ?_⟩
              · rw [octets, hpair]
                simp only [hread]
              · rwa [hboundary]
            · rintro ⟨index, hindex, ⟨bytes, hread⟩, hcut⟩
              cases index with
              | zero =>
                  have hcut := pair_cut.mpr hcut
                  rw [hpair] at hcut
                  cases hcut
              | succ index =>
                  rw [octets, hpair] at hread
                  rw [hboundary] at hcut
                  cases hmore : octets index rest with
                  | error fault =>
                      simp only [hmore] at hread
                      cases hread
                  | ok more => exact ⟨index, Nat.lt_of_succ_lt_succ hindex, ⟨more, hmore⟩, hcut⟩
          rw [← htail]
          cases hmore : octets count rest with
          | error fault => simp only [hmore]
          | ok bytes => simp only [hmore, reduceCtorEq]

end UnityLan.Foundation.Hex
