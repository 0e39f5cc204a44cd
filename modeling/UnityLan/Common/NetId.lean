import UnityLan.Common.Basic

namespace UnityLan

/-! Host indices of the mesh range, and DNS labels. -/

def hostCount (net : Ipv4Net) : Nat :=
  2 ^ (32 - net.prefixLen.val)

def allocatable (net : Ipv4Net) : Nat :=
  hostCount net - 2

/-- `sip` is the keyed SipHash of the source. -/
def deviceHint (sip : PubKey → Nat) (net : Ipv4Net) (wgPubkey : PubKey) : Nat :=
  match allocatable net with
  | 0 => 1
  | slots + 1 => sip wgPubkey % (slots + 1) + 1

def indexIsValid (net : Ipv4Net) (index : Nat) : Bool :=
  index ≥ 1 && index ≤ allocatable net

def addrFromIndex (net : Ipv4Net) (index : Nat) : Ipv4Addr :=
  net.network + BitVec.ofNat 32 index

/-- The probe of `pickFreeIndex`, with the number of slots still to look at. -/
def probeFreeIndex (last : Nat) (taken : List Nat) : Nat → Nat → Option Nat
  | 0, _ => none
  | tries + 1, index =>
      if index ∉ taken then some index
      else probeFreeIndex last taken tries (if index ≥ last then 1 else index + 1)

def pickFreeIndex (net : Ipv4Net) (taken : List Nat) (hint : Nat) : Option Nat :=
  let last := allocatable net
  if last = 0 then none
  else probeFreeIndex last taken last (max 1 (min hint last))

theorem probeFreeIndex_spec {last : Nat} {taken : List Nat} {tries index found : Nat}
    (hlow : 1 ≤ index) (hhigh : index ≤ last)
    (hfound : probeFreeIndex last taken tries index = some found) :
    found ∉ taken ∧ 1 ≤ found ∧ found ≤ last := by
  induction tries generalizing index with
  | zero => cases hfound
  | succ tries ih =>
      rw [probeFreeIndex] at hfound
      split at hfound
      · rename_i hfree
        cases hfound
        exact ⟨hfree, hlow, hhigh⟩
      · split at hfound
        · exact ih (by omega) (by omega) hfound
        · exact ih (by omega) (by omega) hfound

theorem pickFreeIndex_spec {net : Ipv4Net} {taken : List Nat} {hint found : Nat}
    (hfound : pickFreeIndex net taken hint = some found) :
    found ∉ taken ∧ indexIsValid net found = true := by
  simp only [pickFreeIndex] at hfound
  split at hfound
  · cases hfound
  · obtain ⟨hfree, hlow, hhigh⟩ := probeFreeIndex_spec (by omega) (by omega) hfound
    exact ⟨hfree, by simp [indexIsValid, hlow, hhigh]⟩

theorem network_mod (net : Ipv4Net) : net.network.toNat % hostCount net = 0 := by
  apply Nat.eq_of_testBit_eq
  intro i
  simp only [hostCount, Ipv4Net.network, Ipv4Net.netmask, Nat.testBit_mod_two_pow, Nat.zero_testBit,
    BitVec.testBit_toNat, BitVec.getLsbD_and, BitVec.getLsbD_shiftLeft]
  by_cases hlow : i < 32 - net.prefixLen.val
  · simp [hlow]
  · simp [hlow]

theorem addrFromIndex_ne_zero {net : Ipv4Net} {index : Nat}
    (hvalid : indexIsValid net index = true) : addrFromIndex net index ≠ 0 := by
  intro hzero
  rw [indexIsValid, Bool.and_eq_true, decide_eq_true_eq, decide_eq_true_eq, allocatable] at hvalid
  obtain ⟨hlow, hhigh⟩ := hvalid
  have hdvd : hostCount net ∣ 2 ^ 32 := Nat.pow_dvd_pow 2 (Nat.sub_le _ _)
  have hsum : (net.network.toNat + index) % 2 ^ 32 = 0 := by
    have := congrArg BitVec.toNat hzero
    simpa [addrFromIndex] using this
  have hmultiple : index % hostCount net = 0 := by
    have hdvd' : hostCount net ∣ net.network.toNat + index :=
      Nat.dvd_trans hdvd (Nat.dvd_of_mod_eq_zero hsum)
    have hnetwork := Nat.dvd_of_mod_eq_zero (network_mod net)
    exact Nat.mod_eq_zero_of_dvd ((Nat.dvd_add_right hnetwork).mp hdvd')
  have hbelow : index < hostCount net := by
    omega
  rw [Nat.mod_eq_of_lt hbelow] at hmultiple
  omega

theorem addrFromIndex_inj {net : Ipv4Net} {first second : Nat}
    (hfirst : indexIsValid net first = true) (hsecond : indexIsValid net second = true)
    (hsame : addrFromIndex net first = addrFromIndex net second) : first = second := by
  have hbelow : ∀ {index : Nat}, indexIsValid net index = true → index < 2 ^ 32 := by
    intro index hvalid
    rw [indexIsValid, Bool.and_eq_true, decide_eq_true_eq, decide_eq_true_eq, allocatable] at hvalid
    have hcount : hostCount net ≤ 2 ^ 32 := Nat.pow_le_pow_right (by decide) (Nat.sub_le _ _)
    omega
  unfold addrFromIndex at hsame
  have hindex := congrArg BitVec.toNat ((BitVec.add_right_inj _).mp hsame)
  rw [BitVec.toNat_ofNat, BitVec.toNat_ofNat, Nat.mod_eq_of_lt (hbelow hfirst),
    Nat.mod_eq_of_lt (hbelow hsecond)] at hindex
  exact hindex

def toAsciiLowercase (c : Char) : Char :=
  if 'A' ≤ c ∧ c ≤ 'Z' then Char.ofNat (c.toNat + 32) else c

def isLabelChar (c : Char) : Bool :=
  ('a' ≤ c && c ≤ 'z') || ('0' ≤ c && c ≤ '9')

/-- The loop of `sanitizeLabel`; `out` holds what it pushed so far, last first. -/
def sanitizeChars : List Char → List Char → Bool → List Char
  | [], out, _ => out
  | c :: rest, out, prevDash =>
      let lc := toAsciiLowercase c
      if isLabelChar lc then sanitizeChars rest (lc :: out) false
      else if !out.isEmpty && !prevDash then sanitizeChars rest ('-' :: out) true
      else sanitizeChars rest out prevDash

def sanitizeLabel (s : String) : String :=
  let out := ((sanitizeChars s.toList [] false).dropWhile (· == '-')).reverse
  String.ofList ((if out.isEmpty then "device".toList else out).take 63)

def isPlainLabel (label : String) : Bool :=
  label.toList.all fun c => isLabelChar c || c == '-'

@[simp] theorem isPlainLabel_append (first second : String) :
    isPlainLabel (first ++ second) = (isPlainLabel first && isPlainLabel second) := by
  simp [isPlainLabel]

theorem isPlainLabel_toString (n : Nat) : isPlainLabel (toString n) = true := by
  apply List.all_eq_true.mpr
  intro c hc
  rw [Nat.toString_eq_repr, Nat.toList_repr] at hc
  have hdigit : c.isDigit = true := Nat.isDigit_of_mem_toDigits (by decide) (by decide) hc
  simp only [Char.isDigit, Bool.and_eq_true, decide_eq_true_eq] at hdigit
  have hlabel : isLabelChar c = true := by
    simp only [isLabelChar, Bool.or_eq_true, Bool.and_eq_true, decide_eq_true_eq]
    exact .inr hdigit
  simp [hlabel]

theorem sanitizeChars_plain {chars out : List Char} {prevDash : Bool}
    (hout : out.all (fun c => isLabelChar c || c == '-') = true) :
    (sanitizeChars chars out prevDash).all (fun c => isLabelChar c || c == '-') = true := by
  induction chars generalizing out prevDash with
  | nil => exact hout
  | cons c rest ih =>
      unfold sanitizeChars
      dsimp only
      split
      · rename_i hlabel
        apply ih
        simp [hlabel, hout]
      · split
        · apply ih
          simp [hout]
        · exact ih hout

theorem sanitizeLabel_plain (s : String) : isPlainLabel (sanitizeLabel s) = true := by
  have hchars := List.all_eq_true.mp (@sanitizeChars_plain s.toList [] false rfl)
  unfold isPlainLabel sanitizeLabel
  rw [String.toList_ofList]
  apply List.all_eq_true.mpr
  intro c hc
  have hmem := List.mem_of_mem_take hc
  split at hmem
  · have hdevice : isPlainLabel "device" = true := by
      decide
    exact List.all_eq_true.mp hdevice c hmem
  · exact hchars c ((List.dropWhile_suffix _).subset (List.mem_reverse.mp hmem))

end UnityLan
