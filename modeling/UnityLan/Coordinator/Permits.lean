import UnityLan.Coordinator.Wake
import UnityLan.Foundation.Runs

namespace UnityLan.Coordinator

open UnityLan.Foundation

/-! The permits of parked requests, acquired and dropped in any order. -/

inductive ParkEvent
  | acquire (pubkey : PubKey)
  /-- A permit goes; it is known by the call that it came from. -/
  | drop (call : Nat)

structure Parking where
  slots : ParkSlots := {}
  /-- How many calls there were. -/
  calls : Nat := 0
  /-- The latest call of each device that got a permit. -/
  latest : Table PubKey Nat := ∅

namespace Parking

def admitted (max : Nat) (p : Parking) (pubkey : PubKey) : Bool :=
  (p.slots.tryAcquire max p.calls pubkey).1

def step (max : Nat) (p : Parking) : ParkEvent → Option Parking
  | .acquire pubkey =>
      some
        { slots := (p.slots.tryAcquire max p.calls pubkey).2
          calls := p.calls + 1
          latest :=
            if p.admitted max pubkey then p.latest.insert pubkey p.calls else p.latest }
  | .drop call =>
      if (p.slots.permits.get? call).isSome then some { p with slots := p.slots.release call }
      else none

def others (p : Parking) (pubkey : PubKey) : Nat :=
  (p.slots.permits.values.filter fun permit => permit.pubkey != pubkey).length

structure Books (max : Nat) (p : Parking) : Prop where
  bounded : p.slots.permits.size ≤ max
  /-- The permit that a device got last is the occupant of its slot. -/
  occupied : ∀ call permit, p.slots.permits.get? call = some permit →
    p.latest.get? permit.pubkey = some call →
      permit.preempted = false ∧ p.slots.devices.get? permit.pubkey = some ⟨permit.seq, call⟩
  /-- Every other one was told to go. -/
  signalled : ∀ call permit, p.slots.permits.get? call = some permit →
    p.latest.get? permit.pubkey ≠ some call → permit.preempted = true
  /-- A slot is of the permit that its device got last, which is still there. -/
  slotted : ∀ pubkey slot, p.slots.devices.get? pubkey = some slot →
    p.latest.get? pubkey = some slot.listener ∧
      ∃ permit, p.slots.permits.get? slot.listener = some permit ∧ permit.pubkey = pubkey

structure Accounted (max : Nat) (p : Parking) : Prop extends Books max p where
  /-- At most one permit of a device was not told to go. -/
  single : ∀ call call' permit permit', p.slots.permits.get? call = some permit →
    p.slots.permits.get? call' = some permit' → permit.pubkey = permit'.pubkey →
      permit.preempted = false → permit'.preempted = false → call = call'
  emptied : (∀ call, p.slots.permits.get? call = none) →
    ∀ pubkey, p.slots.devices.get? pubkey = none

def NotItsOwn (max : Nat) (p : Parking) : ParkEvent → Prop
  | .acquire pubkey => p.admitted max pubkey = false → max ≤ p.others pubkey
  | .drop _ => True

def Keeps (max : Nat) (p : Parking) (event : ParkEvent) (after : Parking) : Prop :=
  p.NotItsOwn max event ∧ after.Accounted max

/-- A device that asks while all permits are out has none itself, and a permit whose slot was taken
over is not dropped when the number of its own has come round again. -/
def spared (max : Nat) (p : Parking) : ParkEvent → Bool
  | .acquire pubkey =>
      decide (p.slots.permits.size < max) || !p.slots.permits.values.any (·.pubkey == pubkey)
  | .drop call =>
      (p.slots.permits.get? call).all fun permit =>
        (p.slots.devices.get? permit.pubkey).all fun slot =>
          slot.seq != permit.seq || slot.listener == call

structure Fits (max : Nat) (p : Parking) : Prop where
  books : p.Books max
  called : ∀ call permit, p.slots.permits.get? call = some permit → call < p.calls
  lately : ∀ pubkey call, p.latest.get? pubkey = some call → call < p.calls

variable {max : Nat} {p after : Parking}

theorem fits_start : Fits max {} where
  books := ⟨Nat.zero_le _, nofun, nofun, nofun⟩
  called := nofun
  lately := nofun

theorem Books.accounted (hbooks : p.Books max) : p.Accounted max where
  toBooks := hbooks
  single := by
    intro call call' permit permit' hpermit hpermit' hkey hquiet hquiet'
    have hlatest : ∀ {call permit}, p.slots.permits.get? call = some permit →
        permit.preempted = false → p.latest.get? permit.pubkey = some call := by
      intro call permit hpermit hquiet
      by_contra hother
      have htold := hbooks.signalled call permit hpermit hother
      exact Bool.false_ne_true (hquiet.symm.trans htold)
    have hlast := hlatest hpermit hquiet
    rw [hkey, hlatest hpermit' hquiet'] at hlast
    exact (Option.some.inj hlast).symm
  emptied := by
    intro hnone pubkey
    by_contra hslot
    obtain ⟨slot, hslot⟩ := Option.ne_none_iff_exists'.mp hslot
    obtain ⟨-, permit, hpermit, -⟩ := hbooks.slotted pubkey slot hslot
    rw [hnone] at hpermit
    cases hpermit

theorem admitted_iff {pubkey : PubKey} :
    p.admitted max pubkey = true ↔ p.slots.permits.size < max := by
  unfold admitted ParkSlots.tryAcquire
  split
  · simp_all
  · simp_all

theorem get?_signal {permits : Table Nat Permit} {slot : Slot} (call : Nat) :
    (ParkSlots.signal permits slot).get? call =
      if call = slot.listener then
        (permits.get? slot.listener).map fun permit => { permit with preempted := true }
      else permits.get? call := by
  unfold ParkSlots.signal
  rw [Table.get?_modify]

theorem others_le_iff (hbounded : p.slots.permits.size ≤ max) (hfull : ¬ p.slots.permits.size < max)
    (pubkey : PubKey) :
    max ≤ p.others pubkey ↔ p.slots.permits.values.any (·.pubkey == pubkey) = false := by
  have hsize : p.slots.permits.values.length = max := by
    have hlength : p.slots.permits.values.length = p.slots.permits.size := by
      rw [Table.values, Table.size, List.length_map]
    omega
  unfold others
  rw [← hsize, Bool.eq_false_iff, Ne, List.any_eq_true]
  constructor
  · intro hall
    have hfilter := List.length_filter_eq_length_iff.mp
      (Nat.le_antisymm (List.length_filter_le _ _) hall)
    rintro ⟨permit, hpermit, hsame⟩
    have hother := hfilter permit hpermit
    simp_all
  · intro hnone
    apply Nat.le_of_eq
    symm
    apply List.length_filter_eq_length_iff.mpr
    intro permit hpermit
    by_contra hsame
    exact hnone ⟨permit, hpermit, by simpa using hsame⟩

theorem step_admitted {pubkey : PubKey} (hadmitted : p.slots.permits.size < max)
    (hstep : p.step max (.acquire pubkey) = some after) :
    after.calls = p.calls + 1 ∧ after.latest = p.latest.insert pubkey p.calls ∧
      after.slots.devices = p.slots.devices.insert pubkey ⟨p.slots.nextSeq, p.calls⟩ ∧
      ∃ signalled, after.slots.permits =
          signalled.insert p.calls ⟨pubkey, p.slots.nextSeq, false⟩ ∧
        (p.slots.devices.get? pubkey = none ∧ signalled = p.slots.permits ∨
          ∃ slot, p.slots.devices.get? pubkey = some slot ∧
            signalled = ParkSlots.signal p.slots.permits slot) := by
  have hgets : p.admitted max pubkey = true := admitted_iff.mpr hadmitted
  simp only [step, hgets, if_true, Option.some.injEq] at hstep
  subst hstep
  unfold ParkSlots.tryAcquire
  rw [if_pos hadmitted]
  refine ⟨rfl, rfl, rfl, _, rfl, ?_⟩
  cases hslot : p.slots.devices.get? pubkey with
  | none => exact .inl ⟨rfl, rfl⟩
  | some slot => exact .inr ⟨slot, rfl, rfl⟩

theorem Fits.admit {pubkey : PubKey} (hfits : Fits max p)
    (hadmitted : p.slots.permits.size < max)
    (hstep : p.step max (.acquire pubkey) = some after) : Fits max after := by
  obtain ⟨hcalls, hlatest, hdevices, signalled, hpermits, hsignalled⟩ :=
    step_admitted hadmitted hstep
  obtain ⟨⟨hbounded, hoccupied, htold, hslotted⟩, hcalled, hlately⟩ := hfits
  have hfresh : p.slots.permits.get? p.calls = none := by
    by_contra hheld
    obtain ⟨permit, hpermit⟩ := Option.ne_none_iff_exists'.mp hheld
    exact Nat.lt_irrefl _ (hcalled _ _ hpermit)
  -- a permit from before, and whether it is told to go now
  have hbefore : ∀ call permit, signalled.get? call = some permit →
      ∃ held, p.slots.permits.get? call = some held ∧ permit.pubkey = held.pubkey ∧
        permit.seq = held.seq ∧
        (permit.preempted = true ∧ held.pubkey = pubkey ∧ p.latest.get? pubkey = some call ∨
          permit = held ∧ ∀ slot, p.slots.devices.get? pubkey = some slot →
            slot.listener ≠ call) := by
    intro call permit hpermit
    rcases hsignalled with ⟨hnone, rfl⟩ | ⟨slot, hslot, rfl⟩
    · exact ⟨permit, hpermit, rfl, rfl, .inr ⟨rfl, by simp [hnone]⟩⟩
    · rw [get?_signal] at hpermit
      split at hpermit
      · rename_i hlistener
        obtain ⟨held, hheld, rfl⟩ := Option.map_eq_some_iff.mp hpermit
        obtain ⟨hlast, listener, hlistens, hkey⟩ := hslotted pubkey slot hslot
        rw [hheld, Option.some.injEq] at hlistens
        subst hlistens
        exact ⟨held, hlistener ▸ hheld, rfl, rfl, .inl ⟨rfl, hkey, hlistener ▸ hlast⟩⟩
      · rename_i hother
        refine ⟨permit, hpermit, rfl, rfl, .inr ⟨rfl, fun slot' hslot' => ?_⟩⟩
        rw [hslot, Option.some.injEq] at hslot'
        rw [← hslot']
        exact Ne.symm hother
  have hsize : signalled.size = p.slots.permits.size := by
    rcases hsignalled with ⟨-, rfl⟩ | ⟨slot, -, rfl⟩
    · rfl
    · exact Table.size_modify _ _ _
  have hnew : signalled.get? p.calls = none := by
    by_contra hheld
    obtain ⟨permit, hpermit⟩ := Option.ne_none_iff_exists'.mp hheld
    obtain ⟨held, hheld', -⟩ := hbefore _ _ hpermit
    rw [hfresh] at hheld'
    cases hheld'
  constructor
  case called =>
    intro call permit hpermit
    rw [hpermits, Table.get?_insert] at hpermit
    rw [hcalls]
    split at hpermit
    · rename_i hsame
      omega
    · obtain ⟨held, hheld, -⟩ := hbefore _ _ hpermit
      exact Nat.lt_succ_of_lt (hcalled _ _ hheld)
  case lately =>
    intro key call hlast
    rw [hlatest, Table.get?_insert] at hlast
    rw [hcalls]
    split at hlast
    · cases hlast
      exact Nat.lt_succ_self _
    · exact Nat.lt_succ_of_lt (hlately _ _ hlast)
  case books =>
    constructor
    case bounded =>
      rw [hpermits, Table.size_insert hnew, hsize]
      exact hadmitted
    case occupied =>
      intro call permit hpermit hlast
      rw [hpermits, Table.get?_insert] at hpermit
      rw [hlatest, Table.get?_insert] at hlast
      rw [hdevices, Table.get?_insert]
      split at hpermit
      · rename_i hsame
        cases hpermit
        rw [if_pos rfl, hsame]
        exact ⟨rfl, rfl⟩
      · rename_i hother
        obtain ⟨held, hheld, hkey, hseq, htold'⟩ := hbefore _ _ hpermit
        split at hlast
        · exact (hother (Option.some.inj hlast).symm).elim
        · rename_i hdevice
          rw [if_neg hdevice]
          rcases htold' with ⟨-, hsame, -⟩ | ⟨rfl, -⟩
          · exact (hdevice (hkey.trans hsame)).elim
          · exact hoccupied _ _ hheld hlast
    case signalled =>
      intro call permit hpermit hlast
      rw [hpermits, Table.get?_insert] at hpermit
      rw [hlatest, Table.get?_insert] at hlast
      split at hpermit
      · rename_i hsame
        cases hpermit
        rw [if_pos rfl, hsame] at hlast
        exact (hlast rfl).elim
      · obtain ⟨held, hheld, hkey, hseq, htold'⟩ := hbefore _ _ hpermit
        rcases htold' with ⟨htrue, -⟩ | ⟨rfl, hnot⟩
        · exact htrue
        · split at hlast
          · rename_i hdevice
            apply htold _ _ hheld
            intro hheldLast
            obtain ⟨-, hslot⟩ := hoccupied _ _ hheld hheldLast
            rw [hdevice] at hslot
            exact hnot _ hslot rfl
          · exact htold _ _ hheld hlast
    case slotted =>
      intro key slot hslot
      rw [hdevices, Table.get?_insert] at hslot
      rw [hlatest, Table.get?_insert]
      split at hslot
      · rename_i hsame
        cases hslot
        rw [if_pos hsame]
        refine ⟨rfl, ⟨pubkey, p.slots.nextSeq, false⟩, ?_, hsame.symm⟩
        rw [hpermits, Table.get?_insert, if_pos rfl]
      · rename_i hother
        rw [if_neg hother]
        obtain ⟨hlast, permit, hpermit, hkey⟩ := hslotted key slot hslot
        refine ⟨hlast, ?_⟩
        have hold : slot.listener ≠ p.calls := Nat.ne_of_lt (hlately _ _ hlast)
        rw [hpermits, Table.get?_insert, if_neg hold]
        rcases hsignalled with ⟨-, rfl⟩ | ⟨displaced, hdisplaced, rfl⟩
        · exact ⟨permit, hpermit, hkey⟩
        · rw [get?_signal]
          split
          · rename_i hsame
            rw [← hsame, hpermit]
            exact ⟨_, rfl, hkey⟩
          · exact ⟨permit, hpermit, hkey⟩

theorem Fits.refuse {pubkey : PubKey} (hfits : Fits max p)
    (hrefused : ¬ p.slots.permits.size < max)
    (hstep : p.step max (.acquire pubkey) = some after) : Fits max after := by
  have hgets : p.admitted max pubkey = false :=
    Bool.eq_false_iff.mpr fun hadmitted => hrefused (admitted_iff.mp hadmitted)
  simp only [step, hgets, Bool.false_eq_true, if_false, Option.some.injEq] at hstep
  subst hstep
  unfold ParkSlots.tryAcquire
  rw [if_neg hrefused]
  exact ⟨⟨hfits.books.bounded, hfits.books.occupied, hfits.books.signalled,
    hfits.books.slotted⟩, fun call permit hpermit =>
    Nat.lt_succ_of_lt (hfits.called call permit hpermit), fun key call hlast =>
    Nat.lt_succ_of_lt (hfits.lately key call hlast)⟩

theorem step_dropped {call : Nat} (hstep : p.step max (.drop call) = some after) :
    ∃ permit, p.slots.permits.get? call = some permit ∧ after.calls = p.calls ∧
      after.latest = p.latest ∧
      ((∃ slot, p.slots.devices.get? permit.pubkey = some slot ∧ slot.seq = permit.seq ∧
          after.slots.permits = (ParkSlots.signal p.slots.permits slot).erase call ∧
          after.slots.devices = p.slots.devices.erase permit.pubkey) ∨
        (∀ slot, p.slots.devices.get? permit.pubkey = some slot → slot.seq ≠ permit.seq) ∧
          after.slots.permits = p.slots.permits.erase call ∧
          after.slots.devices = p.slots.devices) := by
  unfold step at hstep
  dsimp only at hstep
  split at hstep
  · rename_i hheld
    obtain ⟨permit, hpermit⟩ := Option.isSome_iff_exists.mp hheld
    cases hstep
    refine ⟨permit, hpermit, rfl, rfl, ?_⟩
    unfold ParkSlots.release
    rw [hpermit]
    dsimp only
    cases hslot : p.slots.devices.get? permit.pubkey with
    | none => exact .inr ⟨by simp, rfl, rfl⟩
    | some slot =>
        dsimp only
        by_cases hseq : slot.seq = permit.seq
        · rw [if_pos hseq]
          exact .inl ⟨slot, rfl, hseq, rfl, rfl⟩
        · rw [if_neg hseq]
          refine .inr ⟨fun other hother => ?_, rfl, rfl⟩
          cases hother
          exact hseq
  · cases hstep

theorem spared_drop {call : Nat} {permit : Permit}
    (hpermit : p.slots.permits.get? call = some permit) :
    p.spared max (.drop call) = true ↔ ∀ slot, p.slots.devices.get? permit.pubkey = some slot →
      slot.seq = permit.seq → slot.listener = call := by
  unfold spared
  dsimp only
  rw [hpermit, Option.all_some]
  cases p.slots.devices.get? permit.pubkey with
  | none => simp
  | some slot =>
      rw [Option.all_some, Bool.or_eq_true, bne_iff_ne, beq_iff_eq]
      constructor
      · rintro hspared other hother hseq
        cases hother
        exact hspared.resolve_left fun hne => hne hseq
      · intro hown
        by_cases hseq : slot.seq = permit.seq
        · exact .inr (hown slot rfl hseq)
        · exact .inl hseq

theorem Fits.drop {call : Nat} (hfits : Fits max p) (hspared : p.spared max (.drop call) = true)
    (hstep : p.step max (.drop call) = some after) : Fits max after := by
  obtain ⟨permit, hpermit, hcalls, hlatest, hleft⟩ := step_dropped hstep
  obtain ⟨⟨hbounded, hoccupied, htold, hslotted⟩, hcalled, hlately⟩ := hfits
  have hown := (spared_drop hpermit).mp hspared
  have hpermits : ∀ other, after.slots.permits.get? other =
      if other = call then none else p.slots.permits.get? other := by
    intro other
    rcases hleft with ⟨slot, hslot, hseq, hpermits, -⟩ | ⟨-, hpermits, -⟩
    · rw [hpermits, Table.get?_erase, get?_signal, hown slot hslot hseq]
      by_cases hsame : other = call
      · simp [hsame]
      · simp [hsame]
    · rw [hpermits, Table.get?_erase]
  have hdevices : ∀ key slot, after.slots.devices.get? key = some slot ↔
      p.slots.devices.get? key = some slot ∧ slot.listener ≠ call := by
    intro key slot
    have hlistener : p.slots.devices.get? key = some slot → slot.listener = call →
        key = permit.pubkey := by
      rintro hslot rfl
      obtain ⟨-, held, hheld, rfl⟩ := hslotted key slot hslot
      rw [hpermit, Option.some.injEq] at hheld
      rw [hheld]
    rcases hleft with ⟨own, hslot, hseq, -, hdevices⟩ | ⟨hnone, -, hdevices⟩
    · rw [hdevices, Table.get?_erase]
      by_cases hsame : key = permit.pubkey
      · rw [if_pos hsame, hsame, hslot]
        constructor
        · intro habsurd
          cases habsurd
        · rintro ⟨hown', hother⟩
          cases hown'
          exact (hother (hown slot hslot hseq)).elim
      · rw [if_neg hsame]
        exact ⟨fun hget => ⟨hget, fun hcall => hsame (hlistener hget hcall)⟩, And.left⟩
    · rw [hdevices]
      refine ⟨fun hget => ⟨hget, fun hcall => ?_⟩, And.left⟩
      have hkey := hlistener hget hcall
      obtain ⟨hlast, -⟩ := hslotted key slot hget
      rw [hkey, hcall] at hlast
      obtain ⟨-, hoccupant⟩ := hoccupied _ _ hpermit hlast
      exact hnone _ hoccupant rfl
  have hkept : ∀ other held, after.slots.permits.get? other = some held →
      other ≠ call ∧ p.slots.permits.get? other = some held := by
    intro other held hheld
    rw [hpermits] at hheld
    split at hheld
    · cases hheld
    · rename_i hother
      exact ⟨hother, hheld⟩
  constructor
  case called =>
    intro other held hheld
    rw [hcalls]
    exact hcalled _ _ (hkept _ _ hheld).2
  case lately =>
    rw [hlatest, hcalls]
    exact hlately
  case books =>
    constructor
    case bounded =>
      have hheld : p.slots.permits.get? call ≠ none := by
        simp [hpermit]
      rcases hleft with ⟨slot, hslot, hseq, hafter, -⟩ | ⟨-, hafter, -⟩
      · have hsignal : (ParkSlots.signal p.slots.permits slot).get? call ≠ none := by
          rw [get?_signal, hown slot hslot hseq, if_pos rfl, hpermit]
          simp
        have hone := Table.size_erase hsignal
        have hsame : (ParkSlots.signal p.slots.permits slot).size = p.slots.permits.size :=
          Table.size_modify _ _ _
        rw [hafter]
        omega
      · have hone := Table.size_erase hheld
        rw [hafter]
        omega
    case occupied =>
      intro other held hheld hlast
      obtain ⟨hother, hbefore⟩ := hkept _ _ hheld
      rw [hlatest] at hlast
      obtain ⟨hquiet, hslot⟩ := hoccupied _ _ hbefore hlast
      exact ⟨hquiet, (hdevices _ _).mpr ⟨hslot, hother⟩⟩
    case signalled =>
      intro other held hheld hlast
      rw [hlatest] at hlast
      exact htold _ _ (hkept _ _ hheld).2 hlast
    case slotted =>
      intro key slot hslot
      obtain ⟨hbefore, hother⟩ := (hdevices _ _).mp hslot
      rw [hlatest, hpermits, if_neg hother]
      exact hslotted key slot hbefore

theorem Fits.step {event : ParkEvent} (hfits : Fits max p) (hspared : p.spared max event = true)
    (hstep : p.step max event = some after) : Fits max after := by
  cases event with
  | acquire pubkey =>
      by_cases hadmitted : p.slots.permits.size < max
      · exact hfits.admit hadmitted hstep
      · exact hfits.refuse hadmitted hstep
  | drop call => exact hfits.drop hspared hstep

theorem keeps_iff {event : ParkEvent} (hfits : Fits max p)
    (hstep : p.step max event = some after) :
    p.Keeps max event after ↔ p.spared max event = true := by
  constructor
  · rintro ⟨hown, hafter⟩
    cases event with
    | acquire pubkey =>
        unfold spared
        rw [Bool.or_eq_true, decide_eq_true_eq, Bool.not_eq_true']
        by_cases hadmitted : p.slots.permits.size < max
        · exact .inl hadmitted
        · right
          apply (others_le_iff hfits.books.bounded hadmitted pubkey).mp
          apply hown
          exact Bool.eq_false_iff.mpr fun hgets => hadmitted (admitted_iff.mp hgets)
    | drop call =>
        obtain ⟨permit, hpermit, -, hlatest, hleft⟩ := step_dropped hstep
        apply (spared_drop hpermit).mpr
        intro slot hslot hseq
        by_contra hother
        rcases hleft.symm with ⟨hnone, -⟩ | ⟨slot', hslot', -, hpermits, -⟩
        · exact hnone slot hslot hseq
        rw [hslot, Option.some.injEq] at hslot'
        subst hslot'
        obtain ⟨hlast, held, hheld, hkey⟩ := hfits.books.slotted _ _ hslot
        have htold : after.slots.permits.get? slot.listener =
            some { held with preempted := true } := by
          rw [hpermits, Table.get?_erase, if_neg hother, get?_signal, if_pos rfl, hheld]
          rfl
        rw [← hkey, ← hlatest] at hlast
        have hquiet := (hafter.occupied _ _ htold hlast).1
        exact Bool.noConfusion hquiet
  · intro hspared
    refine ⟨?_, (hfits.step hspared hstep).books.accounted⟩
    cases event with
    | acquire pubkey =>
        intro hrefused
        have hfull : ¬ p.slots.permits.size < max := by
          intro hadmitted
          rw [admitted_iff.mpr hadmitted] at hrefused
          cases hrefused
        apply (others_le_iff hfits.books.bounded hfull pubkey).mpr
        unfold spared at hspared
        rw [Bool.or_eq_true, decide_eq_true_eq, Bool.not_eq_true'] at hspared
        exact hspared.resolve_left hfull
    | drop call => trivial

end Parking

/-- Over any order of calls and drops, the permits are accounted for and nobody is refused for its
own, exactly where no step goes wrong. -/
theorem permits_accounted_iff (max : Nat) (events : List ParkEvent) :
    AtEach (Parking.step max) {} events (Parking.Keeps max) ↔
      AtEach (Parking.step max) {} events fun p event _ => p.spared max event = true :=
  AtEach.congr_while (Parking.Fits max) Parking.fits_start
    (fun _ _ _ hfits hstep hkeeps => hfits.step ((Parking.keeps_iff hfits hstep).mp hkeeps) hstep)
    fun _ _ _ hfits hstep => Parking.keeps_iff hfits hstep

/-- A device that parks again while its own request is the only one. -/
theorem refused_for_its_own : ¬ ∀ max events,
    AtEach (Parking.step max) {} events (Parking.Keeps max) := by
  intro hclaim
  have hkeeps := hclaim 1 [.acquire 7, .acquire 7] [.acquire 7] (.acquire 7) _ _ ⟨[], rfl⟩ rfl rfl
  exact absurd (hkeeps.1 (by decide)) (by decide)

end UnityLan.Coordinator
