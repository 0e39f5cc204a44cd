import UnityLan.Common.NetId

namespace UnityLan

/-! The host indices of a mesh range, and the addresses they stand for. -/

def Ipv4Net.broadcast (net : Ipv4Net) : Ipv4Addr :=
  net.network ||| ~~~net.netmask

def probedSlot (last start step : Nat) : Nat :=
  (start - 1 + step) % last + 1

def hintSlot (net : Ipv4Net) (hint : Nat) : Nat :=
  max 1 (min hint (allocatable net))

/-! The probe. -/

section

variable {last start : Nat} {taken : List Nat}

theorem probedSlot_zero (hlow : 1 ≤ start) (hhigh : start ≤ last) :
    probedSlot last start 0 = start := by
  unfold probedSlot
  rw [Nat.add_zero, Nat.mod_eq_of_lt (by omega)]
  omega

theorem probedSlot_succ (hlast : 0 < last) (step : Nat) :
    probedSlot last start (step + 1) =
      if probedSlot last start step ≥ last then 1 else probedSlot last start step + 1 := by
  unfold probedSlot
  have hbelow := Nat.mod_lt (start - 1 + step) hlast
  rw [← Nat.add_assoc, ← Nat.mod_add_mod]
  by_cases hwraps : (start - 1 + step) % last + 1 ≥ last
  · have hfull : (start - 1 + step) % last + 1 = last := by
      omega
    rw [if_pos hwraps, hfull, Nat.mod_self]
  · rw [if_neg hwraps, Nat.mod_eq_of_lt (by omega)]

theorem exists_probedSlot (start : Nat) {index : Nat} (hlow : 1 ≤ index) (hhigh : index ≤ last) :
    ∃ step < last, probedSlot last start step = index := by
  have hbelow := Nat.mod_lt (start - 1) (by omega : 0 < last)
  refine ⟨(index - 1 + (last - (start - 1) % last)) % last, Nat.mod_lt _ (by omega), ?_⟩
  have haround : (start - 1) % last + (index - 1 + (last - (start - 1) % last)) =
      index - 1 + last := by
    omega
  unfold probedSlot
  rw [Nat.add_mod_mod, ← Nat.mod_add_mod, haround, Nat.add_mod_right,
    Nat.mod_eq_of_lt (by omega)]
  omega

theorem probedSlot_range (hlast : 0 < last) (start step : Nat) :
    1 ≤ probedSlot last start step ∧ probedSlot last start step ≤ last :=
  ⟨Nat.succ_pos _, Nat.mod_lt _ hlast⟩

theorem probeFreeIndex_succ (hlast : 0 < last) (tries step : Nat) :
    probeFreeIndex last taken (tries + 1) (probedSlot last start step) =
      if probedSlot last start step ∉ taken then some (probedSlot last start step)
      else probeFreeIndex last taken tries (probedSlot last start (step + 1)) := by
  rw [probeFreeIndex, probedSlot_succ hlast]

theorem probeFreeIndex_eq_some (hlast : 0 < last) {tries step found : Nat} :
    probeFreeIndex last taken tries (probedSlot last start step) = some found ↔
      ∃ more < tries, found = probedSlot last start (step + more) ∧ found ∉ taken ∧
        ∀ earlier < more, probedSlot last start (step + earlier) ∈ taken := by
  induction tries generalizing step with
  | zero => simp [probeFreeIndex]
  | succ tries ih =>
      rw [probeFreeIndex_succ hlast]
      by_cases hfree : probedSlot last start step ∉ taken
      · rw [if_pos hfree, Option.some.injEq]
        constructor
        · rintro rfl
          exact ⟨0, Nat.succ_pos _, rfl, hfree, fun earlier hlt => absurd hlt earlier.not_lt_zero⟩
        · rintro ⟨more, -, hfound, -, hearlier⟩
          cases more with
          | zero => exact hfound.symm
          | succ more => exact absurd (hearlier 0 (Nat.succ_pos _)) hfree
      · rw [if_neg hfree, ih]
        rw [Classical.not_not] at hfree
        constructor
        · rintro ⟨more, hmore, hfound, hnot, hearlier⟩
          refine ⟨more + 1, by omega, ?_, hnot, fun earlier hlt => ?_⟩
          · rw [hfound, Nat.add_assoc, Nat.add_comm 1]
          · cases earlier with
            | zero => exact hfree
            | succ earlier =>
                have hprobed := hearlier earlier (by omega)
                rwa [Nat.add_assoc, Nat.add_comm 1] at hprobed
        · rintro ⟨more, hmore, hfound, hnot, hearlier⟩
          cases more with
          | zero => exact absurd (hfound ▸ hfree) hnot
          | succ more =>
              refine ⟨more, by omega, ?_, hnot, fun earlier hlt => ?_⟩
              · rw [hfound, Nat.add_assoc, Nat.add_comm 1]
              · have hprobed := hearlier (earlier + 1) (by omega)
                rwa [Nat.add_assoc, Nat.add_comm 1]

theorem probeFreeIndex_eq_none (hlast : 0 < last) {tries step : Nat}
    (hnone : probeFreeIndex last taken tries (probedSlot last start step) = none) :
    ∀ more < tries, probedSlot last start (step + more) ∈ taken := by
  induction tries generalizing step with
  | zero => nofun
  | succ tries ih =>
      rw [probeFreeIndex_succ hlast] at hnone
      split at hnone
      · cases hnone
      · rename_i hfree
        intro more hmore
        cases more with
        | zero => exact Classical.not_not.mp hfree
        | succ more =>
            have hprobed := ih hnone more (by omega)
            rwa [Nat.add_assoc, Nat.add_comm 1] at hprobed

end

/-! The addresses. -/

section

variable (net : Ipv4Net)

theorem hostCount_pos : 0 < hostCount net :=
  Nat.two_pow_pos _

theorem masked_toNat (ip : Ipv4Addr) :
    (ip &&& net.netmask).toNat = ip.toNat / hostCount net * hostCount net := by
  apply Nat.eq_of_testBit_eq
  intro i
  simp only [hostCount, Ipv4Net.netmask, Nat.testBit_mul_two_pow, Nat.testBit_div_two_pow,
    BitVec.testBit_toNat, BitVec.getLsbD_and, BitVec.getLsbD_shiftLeft, BitVec.getLsbD_allOnes]
  by_cases hlow : i < 32 - net.prefixLen.val
  · simp [hlow, Nat.not_le.mpr hlow]
  · rw [Nat.sub_add_cancel (by omega)]
    by_cases hwide : i < 32
    · have hshifted : i - (32 - net.prefixLen.val) < 32 := by
        omega
      simp [hlow, hwide, hshifted, Nat.le_of_not_lt hlow]
    · simp [hwide, BitVec.getLsbD_of_ge ip i (Nat.le_of_not_lt hwide)]

theorem network_add_hostCount_le : net.network.toNat + hostCount net ≤ 2 ^ 32 := by
  obtain ⟨nets, hnets⟩ : hostCount net ∣ 2 ^ 32 := Nat.pow_dvd_pow 2 (Nat.sub_le _ _)
  obtain ⟨block, hblock⟩ := Nat.dvd_of_mod_eq_zero (network_mod net)
  have hbelow : hostCount net * block < hostCount net * nets := by
    rw [← hblock, ← hnets]
    exact net.network.isLt
  have hnext : block + 1 ≤ nets := Nat.lt_of_mul_lt_mul_left hbelow
  calc net.network.toNat + hostCount net
      = hostCount net * (block + 1) := by rw [hblock, Nat.mul_succ]
    _ ≤ hostCount net * nets := Nat.mul_le_mul_left _ hnext
    _ = 2 ^ 32 := hnets.symm

theorem broadcast_toNat : net.broadcast.toNat = net.network.toNat + (hostCount net - 1) := by
  obtain ⟨block, hblock⟩ := Nat.dvd_of_mod_eq_zero (network_mod net)
  have hhosts : (~~~net.netmask).toNat = hostCount net - 1 := by
    apply Nat.eq_of_testBit_eq
    intro i
    simp only [hostCount, Ipv4Net.netmask, Nat.testBit_two_pow_sub_one, BitVec.testBit_toNat,
      BitVec.getLsbD_not, BitVec.getLsbD_shiftLeft, BitVec.getLsbD_allOnes]
    by_cases hlow : i < 32 - net.prefixLen.val
    · simp [hlow]
      omega
    · simp [hlow]
      omega
  have hor := Nat.two_pow_add_eq_or_of_lt (Nat.sub_lt (hostCount_pos net) Nat.one_pos) block
  unfold Ipv4Net.broadcast
  rw [BitVec.toNat_or, hhosts, hblock]
  exact hor.symm

end

/-- What allocation relies on. -/
structure PicksFree (net : Ipv4Net) (taken : List Nat) (hint : Nat) : Prop where
  first : ∀ found, pickFreeIndex net taken hint = some found ↔
    ∃ step < allocatable net, found = probedSlot (allocatable net) (hintSlot net hint) step ∧
      found ∉ taken ∧
      ∀ earlier < step, probedSlot (allocatable net) (hintSlot net hint) earlier ∈ taken
  free : ∀ found, pickFreeIndex net taken hint = some found →
    indexIsValid net found = true ∧ found ∉ taken
  exhausted : pickFreeIndex net taken hint = none ↔
    ∀ index, indexIsValid net index = true → index ∈ taken

/-- An index stands for a host of the range. -/
structure Host (net : Ipv4Net) (index : Nat) : Prop where
  fits : net.network.toNat + index < 2 ^ 32
  addr : (addrFromIndex net index).toNat = net.network.toNat + index
  inside : net.contains (addrFromIndex net index) = true
  notNetwork : addrFromIndex net index ≠ net.network
  notBroadcast : addrFromIndex net index ≠ net.broadcast

theorem indexIsValid_iff {net : Ipv4Net} {index : Nat} :
    indexIsValid net index = true ↔ 1 ≤ index ∧ index ≤ allocatable net := by
  rw [indexIsValid, Bool.and_eq_true, decide_eq_true_eq, decide_eq_true_eq]

theorem pickFreeIndex_eq {net : Ipv4Net} (hroom : 0 < allocatable net) (taken : List Nat)
    (hint : Nat) : pickFreeIndex net taken hint = probeFreeIndex (allocatable net) taken
      (allocatable net) (probedSlot (allocatable net) (hintSlot net hint) 0) := by
  rw [probedSlot_zero (by unfold hintSlot; omega) (by unfold hintSlot; omega)]
  exact if_neg (by omega)

theorem picksFree (net : Ipv4Net) (taken : List Nat) (hint : Nat) : PicksFree net taken hint := by
  rcases Nat.eq_zero_or_pos (allocatable net) with hnone | hroom
  · have hpick : pickFreeIndex net taken hint = none := if_pos hnone
    constructor
    · simp [hpick, hnone]
    · simp [hpick]
    · simp only [hpick, true_iff, indexIsValid_iff, hnone]
      omega
  have hfirst : ∀ found, pickFreeIndex net taken hint = some found ↔
      ∃ step < allocatable net, found = probedSlot (allocatable net) (hintSlot net hint) step ∧
        found ∉ taken ∧
        ∀ earlier < step, probedSlot (allocatable net) (hintSlot net hint) earlier ∈ taken := by
    intro found
    rw [pickFreeIndex_eq hroom, probeFreeIndex_eq_some hroom]
    simp only [Nat.zero_add]
  have hfree : ∀ found, pickFreeIndex net taken hint = some found →
      indexIsValid net found = true ∧ found ∉ taken := by
    intro found hfound
    obtain ⟨step, -, rfl, hnot, -⟩ := (hfirst found).mp hfound
    exact ⟨indexIsValid_iff.mpr (probedSlot_range hroom _ _), hnot⟩
  refine ⟨hfirst, hfree, ?_, ?_⟩
  · intro hnone index hvalid
    obtain ⟨hlow, hhigh⟩ := indexIsValid_iff.mp hvalid
    obtain ⟨step, hstep, rfl⟩ := exists_probedSlot (hintSlot net hint) hlow hhigh
    rw [pickFreeIndex_eq hroom] at hnone
    have hprobed := probeFreeIndex_eq_none hroom hnone step hstep
    rwa [Nat.zero_add] at hprobed
  · intro hall
    cases hpick : pickFreeIndex net taken hint with
    | none => rfl
    | some found =>
        obtain ⟨hvalid, hnot⟩ := hfree found hpick
        exact absurd (hall found hvalid) hnot

theorem host_of_valid {net : Ipv4Net} {index : Nat} (hvalid : indexIsValid net index = true) :
    Host net index := by
  obtain ⟨hlow, hhigh⟩ := indexIsValid_iff.mp hvalid
  have hbelow : index + 1 < hostCount net := by
    rw [allocatable] at hhigh
    omega
  have hfits : net.network.toNat + index < 2 ^ 32 := by
    have hrange := network_add_hostCount_le net
    omega
  have haddr : (addrFromIndex net index).toNat = net.network.toNat + index := by
    unfold addrFromIndex
    rw [BitVec.toNat_add, BitVec.toNat_ofNat, Nat.add_mod_mod, Nat.mod_eq_of_lt hfits]
  constructor
  case fits => exact hfits
  case addr => exact haddr
  case inside =>
    obtain ⟨block, hblock⟩ := Nat.dvd_of_mod_eq_zero (network_mod net)
    unfold Ipv4Net.contains
    rw [beq_iff_eq]
    apply BitVec.eq_of_toNat_eq
    rw [masked_toNat, haddr, hblock, Nat.mul_add_div (hostCount_pos net),
      Nat.div_eq_of_lt (by omega), Nat.add_zero, Nat.mul_comm]
  case notNetwork =>
    intro hsame
    rw [hsame] at haddr
    omega
  case notBroadcast =>
    intro hsame
    rw [hsame, broadcast_toNat] at haddr
    omega

/-- The index that is picked is the first free one, there is none only where all are taken, and no
two indices of a range stand for one address. -/
theorem pickFreeIndex_correct (net : Ipv4Net) (taken : List Nat) (hint : Nat) :
    PicksFree net taken hint ∧ (∀ index, indexIsValid net index = true → Host net index) ∧
      ∀ first second, indexIsValid net first = true → indexIsValid net second = true →
        addrFromIndex net first = addrFromIndex net second → first = second :=
  ⟨picksFree net taken hint, fun _ hvalid => host_of_valid hvalid,
    fun _ _ hfirst hsecond hsame => addrFromIndex_inj hfirst hsecond hsame⟩

end UnityLan
