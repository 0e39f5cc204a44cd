import UnityLan.Coordinator.Zone
import UnityLan.Foundation.Fifo

namespace UnityLan.Coordinator

open UnityLan.Foundation

/-! How long the records of a certificate order stay live. The values at a name are a queue with
a bound, and an order takes its room in it from the values that came first. -/

def ChallengeRecords.at (records : ChallengeRecords) (name : String) : List String :=
  (records.filter fun record => record.1 == name).map Prod.snd

theorem ChallengeRecords.at_cons_self (record : String × String) (records : ChallengeRecords) :
    ChallengeRecords.at (record :: records) record.1 =
      record.2 :: ChallengeRecords.at records record.1 := by
  simp [ChallengeRecords.at]

theorem ChallengeRecords.at_cons_other {record : String × String} {name : String}
    (hname : record.1 ≠ name) (records : ChallengeRecords) :
    ChallengeRecords.at (record :: records) name = ChallengeRecords.at records name := by
  simp [ChallengeRecords.at, hname]

namespace ChallengeStore

def valuesAt (store : ChallengeStore) (name : String) : List String :=
  ((store.live.get? name).map Live.values).getD []

def PushesOut (store : ChallengeStore) (records : ChallengeRecords) (record : String × String) :
    Prop :=
  Fifo.PushesOut MAX_VALUES_PER_NAME (store.valuesAt record.1) (records.at record.1) record.2

/-- At no name of the order does one of its values take the place of another, unless that one
comes again later in the order. -/
def Spares (store : ChallengeStore) (records : ChallengeRecords) : Prop :=
  ∀ name, Fifo.Spares MAX_VALUES_PER_NAME (store.valuesAt name) (records.at name)

/-- The device and the deployment have budget left for the order, and there is room for its
names. -/
structure HasRoom (store : ChallengeStore) (device : PubKey) (records : ChallengeRecords) :
    Prop where
  device : (store.issued device).length < store.perDeviceCap
  deployment : store.issuances.length < store.maxCertsPerWeek
  names : store.live.size + store.freshNames records ≤ MAX_LIVE_CHALLENGES

/-- The bounds of the live records. -/
structure Bounded (store : ChallengeStore) : Prop where
  names : store.live.size ≤ MAX_LIVE_CHALLENGES
  values : ∀ name, (store.valuesAt name).length ≤ MAX_VALUES_PER_NAME
  nodup : ∀ name, (store.valuesAt name).Nodup

end ChallengeStore

inductive ZoneUse
  | publish (device : PubKey) (records : ChallengeRecords)
  | lookup (name : String)
  | issuedThisWeek

namespace ZoneUse

def apply (store : ChallengeStore) (now : Nat) : ZoneUse → ChallengeStore
  | .publish device records => (store.publishAt device records now).2
  | .lookup name => (store.lookup name now).2
  | .issuedThisWeek => (store.issuedThisWeek now).2

def PushesOut (store : ChallengeStore) (now : Nat) (record : String × String) : ZoneUse → Prop
  | .publish device records =>
      (store.publishAt device records now).1 = .ok () ∧
        (store.prune now).PushesOut records record
  | .lookup _ => False
  | .issuedThisWeek => False

end ZoneUse

inductive ZoneUses : ChallengeStore → Nat → List (ZoneUse × Nat) → ChallengeStore → Nat → Prop
  | none {store : ChallengeStore} {start finish : Nat} (later : start ≤ finish) :
      ZoneUses store start [] store finish
  | call {store result : ChallengeStore} {start now finish : Nat} {use : ZoneUse}
      {uses : List (ZoneUse × Nat)} (later : start ≤ now)
      (rest : ZoneUses (use.apply store now) now uses result finish) :
      ZoneUses store start ((use, now) :: uses) result finish

def PushedOut (record : String × String) : ChallengeStore → List (ZoneUse × Nat) → Prop
  | _, [] => False
  | store, (use, now) :: uses =>
      use.PushesOut store now record ∨ PushedOut record (use.apply store now) uses

/-- What a publish is to do to the live records. -/
structure Publication (store : ChallengeStore) (device : PubKey) (records : ChallengeRecords)
    (now : Nat) : Prop where
  refused : ∀ error, (store.publishAt device records now).1 = .error error →
    (store.publishAt device records now).2.live =
      store.live.retain fun _ live => live.expiresAt > now
  newest : ∀ name, Fifo.Newest MAX_VALUES_PER_NAME ((store.prune now).valuesAt name)
    (records.at name) ((store.publishAt device records now).2.valuesAt name)
  live : (store.publishAt device records now).1 = .ok () →
    ∀ uses result finish, ZoneUses (store.publishAt device records now).2 now uses result finish →
      finish < now + CHALLENGE_TTL → ∀ record ∈ records,
        result.StillLive [record] finish ∨
          PushedOut record (store.publishAt device records now).2 uses

namespace ChallengeStore

variable {store : ChallengeStore} {device : PubKey} {records : ChallengeRecords}
  {record : String × String} {name value : String} {now finish : Nat}

theorem valuesAt_of_get? {live : Live} (hget : store.live.get? name = some live) :
    store.valuesAt name = live.values := by
  rw [valuesAt, hget]
  rfl

theorem mem_valuesAt :
    value ∈ store.valuesAt name ↔
      ∃ live, store.live.get? name = some live ∧ value ∈ live.values := by
  unfold valuesAt
  cases store.live.get? name with
  | none => simp
  | some live => simp

@[simp] theorem stillLive_singleton :
    store.StillLive [record] now ↔
      ∃ live, store.live.get? record.1 = some live ∧ now < live.expiresAt ∧
        record.2 ∈ live.values := by
  simp [StillLive]

theorem valuesAt_prune (store : ChallengeStore) (name : String) (now : Nat) :
    (store.prune now).valuesAt name = store.valuesAt name ∨
      (store.prune now).valuesAt name = [] := by
  unfold valuesAt ChallengeStore.prune
  rw [Table.get?_retain]
  cases store.live.get? name with
  | none => exact .inl rfl
  | some live =>
      rw [Option.filter_some]
      split
      · exact .inl rfl
      · exact .inr rfl

def pushed (live : Table String Live) (expiresAt : Nat) (record : String × String) :
    Table String Live :=
  live.insert record.1 (((live.get? record.1).getD ⟨[], expiresAt⟩).push record.2 expiresAt)

theorem live_admitOrder :
    (store.admitOrder device records now).live =
      records.foldl (fun live record => pushed live (now + CHALLENGE_TTL) record) store.live := rfl

theorem get?_foldl_pushed (live : Table String Live) (expiresAt : Nat)
    (records : ChallengeRecords) (name : String) :
    (records.foldl (fun live record => pushed live expiresAt record) live).get? name =
      if records.at name = [] then live.get? name
      else some ⟨Fifo.pushAll MAX_VALUES_PER_NAME (((live.get? name).map Live.values).getD [])
        (records.at name), expiresAt⟩ := by
  induction records generalizing live with
  | nil => rfl
  | cons record records ih =>
      rw [List.foldl_cons, ih, pushed, Table.get?_insert]
      by_cases hname : record.1 = name
      · subst hname
        have hpush : ∀ held : Option Live,
            ((held.getD ⟨[], expiresAt⟩).push record.2 expiresAt).values =
              Fifo.push MAX_VALUES_PER_NAME ((held.map Live.values).getD []) record.2 := by
          rintro (_ | held)
          · rfl
          · rfl
        rw [ChallengeRecords.at_cons_self, if_pos rfl, if_neg (List.cons_ne_nil _ _),
          Fifo.pushAll_cons, ← hpush]
        split
        · rename_i hnone
          rw [hnone]
          rfl
        · rfl
      · rw [ChallengeRecords.at_cons_other hname, if_neg (Ne.symm hname)]

theorem mem_at : value ∈ records.at name ↔ (name, value) ∈ records := by
  simp [ChallengeRecords.at]

theorem get?_admitOrder :
    (store.admitOrder device records now).live.get? name =
      if records.at name = [] then store.live.get? name
      else some ⟨Fifo.pushAll MAX_VALUES_PER_NAME (store.valuesAt name) (records.at name),
        now + CHALLENGE_TTL⟩ := by
  rw [live_admitOrder, get?_foldl_pushed]
  rfl

theorem valuesAt_admitOrder :
    (store.admitOrder device records now).valuesAt name =
      Fifo.pushAll MAX_VALUES_PER_NAME (store.valuesAt name) (records.at name) := by
  rw [valuesAt, get?_admitOrder]
  split
  · rename_i hnone
    rw [hnone]
    rfl
  · rfl

theorem get?_foldl_refreshed (live : Table String Live) (expiresAt : Nat)
    (records : ChallengeRecords) (name : String) :
    (records.foldl
        (fun live record =>
          live.modify record.1 fun found => { found with expiresAt := expiresAt })
        live).get? name =
      if records.at name = [] then live.get? name
      else (live.get? name).map fun found => { found with expiresAt := expiresAt } := by
  induction records generalizing live with
  | nil => rfl
  | cons record records ih =>
      rw [List.foldl_cons, ih, Table.get?_modify]
      by_cases hname : record.1 = name
      · subst hname
        rw [ChallengeRecords.at_cons_self, if_pos rfl, if_neg (List.cons_ne_nil _ _),
          Option.map_map]
        split
        · rfl
        · rfl
      · rw [ChallengeRecords.at_cons_other hname, if_neg (Ne.symm hname)]

theorem get?_refresh :
    (store.refresh records now).live.get? name =
      if records.at name = [] then store.live.get? name
      else (store.live.get? name).map
        fun found => { found with expiresAt := now + CHALLENGE_TTL } :=
  get?_foldl_refreshed store.live (now + CHALLENGE_TTL) records name

theorem valuesAt_refresh : (store.refresh records now).valuesAt name = store.valuesAt name := by
  rw [valuesAt, get?_refresh, valuesAt]
  split
  · rfl
  · rw [Option.map_map]
    rfl

theorem at_subset_of_not_novel (hnovel : store.novel records = false) (name : String) :
    records.at name ⊆ store.valuesAt name := by
  intro value hvalue
  have hheld := List.any_eq_false.mp hnovel _ (mem_at.mp hvalue)
  cases hget : store.live.get? name with
  | none => simp [hget] at hheld
  | some live =>
      rw [valuesAt_of_get? hget]
      simpa [hget] using hheld

/-- After an order the values at each name are what a queue comes to, and what the order names
expires a lifetime later. -/
theorem admitted (store : ChallengeStore) (device : PubKey) (records : ChallengeRecords) (now : Nat)
    (hok : (store.publishPruned device records now).1 = .ok ()) (name : String) :
    (store.publishPruned device records now).2.valuesAt name =
        Fifo.pushAll MAX_VALUES_PER_NAME (store.valuesAt name) (records.at name) ∧
      ∀ live, (store.publishPruned device records now).2.live.get? name = some live →
        if records.at name = [] then store.live.get? name = some live
        else live.expiresAt = now + CHALLENGE_TTL := by
  rcases publishPruned_cases store device records now with
    ⟨hnovel, heq⟩ | ⟨error, heq⟩ | ⟨_, _, _, heq⟩
  · rw [heq]
    dsimp only
    constructor
    · rw [valuesAt_refresh, Fifo.pushAll_of_subset (at_subset_of_not_novel hnovel name)]
    · intro live hget
      rw [get?_refresh] at hget
      split at hget
      · rename_i hnone
        rwa [if_pos hnone]
      · rename_i hsome
        rw [if_neg hsome]
        obtain ⟨found, _, rfl⟩ := Option.map_eq_some_iff.mp hget
        rfl
  · rw [heq] at hok
    cases hok
  · rw [heq]
    dsimp only
    refine ⟨valuesAt_admitOrder, ?_⟩
    intro live hget
    rw [get?_admitOrder] at hget
    split at hget
    · rename_i hnone
      rwa [if_pos hnone]
    · rename_i hsome
      rw [if_neg hsome, ← Option.some.inj hget]

theorem refused (store : ChallengeStore) (device : PubKey) (records : ChallengeRecords) (now : Nat)
    {error : PublishError}
    (herror : (store.publishPruned device records now).1 = .error error) :
    (store.publishPruned device records now).2 = store := by
  rcases publishPruned_cases store device records now with ⟨_, heq⟩ | ⟨_, heq⟩ | ⟨_, _, _, heq⟩
  · rw [heq] at herror
    cases herror
  · rw [heq]
  · rw [heq] at herror
    cases herror

theorem publishPruned_ok_iff :
    (store.publishPruned device records now).1 = .ok () ↔
      store.novel records = false ∨ store.HasRoom device records := by
  unfold publishPruned
  split
  · rename_i hnovel
    exact iff_of_true rfl (.inl (by simpa using hnovel))
  · rename_i hnovel
    have hnew : store.novel records ≠ false := by simpa using hnovel
    rw [or_iff_right hnew]
    split
    · rename_i hdevice
      exact iff_of_false nofun fun hroom => Nat.not_le.mpr hroom.device hdevice
    · rename_i hdevice
      split
      · rename_i hdeployment
        exact iff_of_false nofun fun hroom => Nat.not_le.mpr hroom.deployment hdeployment
      · rename_i hdeployment
        split
        · rename_i hnames
          exact iff_of_false nofun fun hroom => Nat.not_lt.mpr hroom.names hnames
        · rename_i hnames
          exact iff_of_true rfl
            ⟨Nat.lt_of_not_le hdevice, Nat.lt_of_not_le hdeployment, Nat.le_of_not_lt hnames⟩

/-! What the calls of the store keep. -/

theorem contains_pushed (live : Table String Live) (expiresAt : Nat) (record : String × String)
    (name : String) (hheld : live.contains name = true) :
    (pushed live expiresAt record).contains name = true := by
  obtain ⟨found, hfound⟩ := Table.contains_iff.mp hheld
  rw [Table.contains_iff, pushed, Table.get?_insert]
  split
  · exact ⟨_, rfl⟩
  · exact ⟨found, hfound⟩

theorem size_pushed (live : Table String Live) (expiresAt : Nat) (record : String × String) :
    (pushed live expiresAt record).size =
      live.size + if live.contains record.1 then 0 else 1 := by
  split
  · rename_i hheld
    apply Table.size_eq_of_keys
    intro name
    rw [pushed, Table.mem_keys_insert]
    constructor
    · rintro (rfl | hkey)
      · exact Table.mem_keys.mpr (Table.contains_iff.mp hheld)
      · exact hkey
    · exact .inr
  · rename_i hfresh
    apply Table.size_insert
    cases hget : live.get? record.1 with
    | none => rfl
    | some found => exact absurd (Table.contains_iff.mpr ⟨found, hget⟩) hfresh

theorem size_foldl_pushed_le (live : Table String Live) (expiresAt : Nat)
    (records : ChallengeRecords) :
    (records.foldl (fun live record => pushed live expiresAt record) live).size ≤
      live.size + (records.filter fun record => !live.contains record.1).length := by
  induction records generalizing live with
  | nil => exact Nat.le_refl _
  | cons record records ih =>
      have hfewer : (records.filter fun later =>
            !(pushed live expiresAt record).contains later.1).length ≤
          (records.filter fun later => !live.contains later.1).length := by
        apply List.Sublist.length_le
        apply List.monotone_filter_right
        intro later hfresh
        cases hheld : live.contains later.1 with
        | false => rfl
        | true => simp [contains_pushed live expiresAt record later.1 hheld] at hfresh
      have hstep := ih (pushed live expiresAt record)
      rw [size_pushed] at hstep
      rw [List.foldl_cons, List.filter_cons]
      cases hheld : live.contains record.1 with
      | true =>
          simp only [hheld, if_true] at hstep
          simp only [Bool.not_true, Bool.false_eq_true, if_false]
          omega
      | false =>
          simp only [hheld, Bool.false_eq_true, if_false] at hstep
          simp only [Bool.not_false, if_true, List.length_cons]
          omega

theorem size_foldl_refreshed (live : Table String Live) (expiresAt : Nat)
    (records : ChallengeRecords) :
    (records.foldl
        (fun live record =>
          live.modify record.1 fun found => { found with expiresAt := expiresAt })
        live).size = live.size := by
  induction records generalizing live with
  | nil => rfl
  | cons record records ih => rw [List.foldl_cons, ih, Table.size_modify]

theorem size_publishPruned_le (hsize : store.live.size ≤ MAX_LIVE_CHALLENGES) :
    (store.publishPruned device records now).2.live.size ≤ MAX_LIVE_CHALLENGES := by
  unfold publishPruned
  split
  · exact (size_foldl_refreshed store.live (now + CHALLENGE_TTL) records).symm ▸ hsize
  · split
    · exact hsize
    · split
      · exact hsize
      · split
        · exact hsize
        · rename_i hroom
          exact Nat.le_trans (size_foldl_pushed_le store.live (now + CHALLENGE_TTL) records)
            (Nat.le_of_not_lt hroom)

theorem Bounded.prune (hbounded : store.Bounded) (now : Nat) : (store.prune now).Bounded := by
  constructor
  · exact Nat.le_trans (List.length_filter_le _ _) hbounded.names
  · intro name
    rcases valuesAt_prune store name now with heq | heq
    · rw [heq]
      exact hbounded.values name
    · rw [heq]
      exact Nat.zero_le _
  · intro name
    rcases valuesAt_prune store name now with heq | heq
    · rw [heq]
      exact hbounded.nodup name
    · rw [heq]
      exact List.nodup_nil

theorem Bounded.publishPruned (hbounded : store.Bounded) (device : PubKey)
    (records : ChallengeRecords) (now : Nat) :
    (store.publishPruned device records now).2.Bounded := by
  cases hanswer : (store.publishPruned device records now).1 with
  | error error => rwa [refused store device records now hanswer]
  | ok _ =>
      have hvalues := fun name => (admitted store device records now hanswer name).1
      constructor
      · exact size_publishPruned_le hbounded.names
      · intro name
        rw [hvalues]
        exact Fifo.length_pushAll_le (by decide) (hbounded.values name)
      · intro name
        rw [hvalues]
        exact Fifo.nodup_pushAll (hbounded.nodup name)

theorem Bounded.publishAt (hbounded : store.Bounded) (device : PubKey)
    (records : ChallengeRecords) (now : Nat) : (store.publishAt device records now).2.Bounded :=
  (hbounded.prune now).publishPruned device records now

def Assured (store : ChallengeStore) (record : String × String) (deadline : Nat) : Prop :=
  ∃ live, store.live.get? record.1 = some live ∧ deadline ≤ live.expiresAt ∧
    record.2 ∈ live.values

variable {deadline : Nat}

theorem Assured.stillLive (hassured : store.Assured record deadline) (hnow : now < deadline) :
    store.StillLive [record] now := by
  obtain ⟨live, hget, hexpires, hvalue⟩ := hassured
  exact stillLive_singleton.mpr ⟨live, hget, Nat.lt_of_lt_of_le hnow hexpires, hvalue⟩

theorem Assured.prune (hassured : store.Assured record deadline) (hnow : now < deadline) :
    (store.prune now).Assured record deadline := by
  obtain ⟨live, hget, hexpires, hvalue⟩ := hassured
  refine ⟨live, ?_, hexpires, hvalue⟩
  have hstays : now < live.expiresAt := Nat.lt_of_lt_of_le hnow hexpires
  simp [ChallengeStore.prune, hget, hstays, Option.filter]

theorem Assured.of_mem (hok : (store.publishPruned device records now).1 = .ok ())
    (hmem : record.2 ∈ (store.publishPruned device records now).2.valuesAt record.1)
    (hbefore : records.at record.1 = [] → store.Assured record deadline)
    (hdeadline : deadline ≤ now + CHALLENGE_TTL) :
    (store.publishPruned device records now).2.Assured record deadline := by
  obtain ⟨live, hget, hvalue⟩ := mem_valuesAt.mp hmem
  refine ⟨live, hget, ?_, hvalue⟩
  have hrow := (admitted store device records now hok record.1).2 live hget
  split at hrow
  · rename_i hnone
    obtain ⟨found, hfound, hexpires, _⟩ := hbefore hnone
    rw [hrow] at hfound
    exact Option.some.inj hfound ▸ hexpires
  · exact hrow ▸ hdeadline

theorem Assured.publishAt (hassured : store.Assured record deadline) (hnow : now < deadline)
    (hdeadline : deadline ≤ now + CHALLENGE_TTL) :
    (store.publishAt device records now).2.Assured record deadline ∨
      (ZoneUse.publish device records).PushesOut store now record := by
  have hpruned := hassured.prune hnow
  unfold ChallengeStore.publishAt
  cases hanswer : ((store.prune now).publishPruned device records now).1 with
  | error error =>
      rw [refused _ device records now hanswer]
      exact .inl hpruned
  | ok _ =>
      obtain ⟨live, hget, _, hvalue⟩ := hpruned
      have hheld := mem_valuesAt.mpr ⟨live, hget, hvalue⟩
      have hfate : record.2 ∈ Fifo.pushAll MAX_VALUES_PER_NAME _ _ ∨
          Fifo.PushesOut MAX_VALUES_PER_NAME _ _ record.2 :=
        Fifo.mem_pushAll_or_pushesOut hheld (records.at record.1)
      rcases hfate with hstays | hpushes
      · rw [← (admitted _ device records now hanswer record.1).1] at hstays
        exact .inl (.of_mem hanswer hstays (fun _ => hassured.prune hnow) hdeadline)
      · exact .inr ⟨hanswer, hpushes⟩

end ChallengeStore

section

variable {maxCertsPerWeek last now start finish deadline : Nat} {store result : ChallengeStore}
  {orders : Orders} {device : PubKey} {records : ChallengeRecords} {record : String × String}
  {use : ZoneUse} {uses : List (ZoneUse × Nat)}

open ChallengeStore

theorem ZoneUse.apply_assured (hassured : store.Assured record deadline) (hnow : now < deadline)
    (hdeadline : deadline ≤ now + CHALLENGE_TTL) (use : ZoneUse) :
    (use.apply store now).Assured record deadline ∨ use.PushesOut store now record := by
  cases use with
  | publish device records => exact hassured.publishAt hnow hdeadline
  | lookup name => exact .inl (hassured.prune hnow)
  | issuedThisWeek => exact .inl (hassured.prune hnow)

theorem ZoneUses.le (huses : ZoneUses store start uses result finish) : start ≤ finish := by
  induction huses with
  | none hlater => exact hlater
  | call hlater _ ih => exact Nat.le_trans hlater ih

theorem ZoneUses.assured (huses : ZoneUses store start uses result finish)
    (hassured : store.Assured record deadline) (hfinish : finish < deadline)
    (hdeadline : deadline ≤ start + CHALLENGE_TTL) :
    result.Assured record deadline ∨ PushedOut record store uses := by
  induction huses with
  | none _ => exact .inl hassured
  | call hlater hrest ih =>
      rename_i use _
      have hnow := Nat.lt_of_le_of_lt hrest.le hfinish
      rcases ZoneUse.apply_assured hassured hnow (by omega) use with hstays | hpushes
      · exact (ih hstays hfinish (by omega)).imp_right .inr
      · exact .inr (.inl hpushes)

theorem bounded_of_publishes (hrun : Publishes maxCertsPerWeek store orders last) :
    store.Bounded := by
  induction hrun with
  | new => exact ⟨Nat.zero_le _, fun _ => Nat.zero_le _, fun _ => List.nodup_nil⟩
  | publish _ device records _ ih => exact ih.publishAt device records _
  | lookup _ _ _ ih => exact ih.prune _
  | issuedThisWeek _ _ ih => exact ih.prune _

/-- The values at each name after a publish are the newest of those held and those of the
order. -/
theorem newest_publishAt (hbounded : store.Bounded) (device : PubKey) (records : ChallengeRecords)
    (now : Nat) (name : String) :
    Fifo.Newest MAX_VALUES_PER_NAME ((store.prune now).valuesAt name) (records.at name)
      ((store.publishAt device records now).2.valuesAt name) := by
  unfold publishAt
  cases hanswer : ((store.prune now).publishPruned device records now).1 with
  | error error =>
      rw [refused _ device records now hanswer]
      exact Fifo.Newest.refl _ _ _
  | ok _ =>
      rw [(admitted _ device records now hanswer name).1]
      exact Fifo.newest_pushAll (by decide) ((hbounded.prune now).values name) _

/-- The records of an admitted order are all live right after it exactly when it spares its
own. -/
theorem stillLive_iff_spares (hbounded : store.Bounded)
    (hok : (store.publishPruned device records now).1 = .ok ()) :
    (∀ record ∈ records,
        record.2 ∈ (store.publishPruned device records now).2.valuesAt record.1) ↔
      store.Spares records := by
  have hname : ∀ name, (∀ value ∈ records.at name,
      value ∈ (store.publishPruned device records now).2.valuesAt name) ↔
        Fifo.Spares MAX_VALUES_PER_NAME (store.valuesAt name) (records.at name) := by
    intro name
    rw [(admitted store device records now hok name).1]
    exact Fifo.forall_mem_pushAll_iff (hbounded.nodup name)
  constructor
  · intro hall name
    exact (hname name).mp fun value hvalue => hall (name, value) (mem_at.mp hvalue)
  · intro hspares record hrecord
    exact (hname record.1).mpr (hspares record.1) record.2 (mem_at.mpr hrecord)

theorem spares_of_not_novel (hbounded : store.Bounded) (hnovel : store.novel records = false) :
    store.Spares records := by
  intro name
  apply (Fifo.forall_mem_pushAll_iff (hbounded.nodup name)).mp
  have hheld := at_subset_of_not_novel hnovel name
  rw [Fifo.pushAll_of_subset hheld]
  exact fun value hvalue => hheld hvalue

theorem spares_if_ok_iff (hbounded : store.Bounded) (device : PubKey) (records : ChallengeRecords)
    (now : Nat) :
    ((store.publishPruned device records now).1 = .ok () → store.Spares records) ↔
      (store.HasRoom device records → store.Spares records) := by
  constructor
  · intro hspares hroom
    exact hspares (publishPruned_ok_iff.mpr (.inr hroom))
  · intro hspares hok
    rcases publishPruned_ok_iff.mp hok with hnovel | hroom
    · exact spares_of_not_novel hbounded hnovel
    · exact hspares hroom

/-- A publish does to the live records what it is to do, exactly when an order that there is room
for spares its own. -/
theorem publication_iff (hbounded : store.Bounded) (device : PubKey) (records : ChallengeRecords)
    (now : Nat) :
    Publication store device records now ↔
      ((store.prune now).HasRoom device records → (store.prune now).Spares records) := by
  refine Iff.trans ?_ (spares_if_ok_iff (hbounded.prune now) device records now)
  constructor
  · intro hpublication hok
    apply (stillLive_iff_spares (hbounded.prune now) hok).mp
    intro record hrecord
    have hlive := hpublication.live hok [] _ now (.none (Nat.le_refl now))
      (Nat.lt_add_of_pos_right (by decide)) record hrecord
    obtain ⟨live, hget, _, hvalue⟩ := stillLive_singleton.mp (hlive.resolve_right id)
    exact mem_valuesAt.mpr ⟨live, hget, hvalue⟩
  · intro hspares
    constructor
    · intro error herror
      exact congrArg live (refused (store.prune now) device records now herror)
    · exact newest_publishAt hbounded device records now
    · intro hok uses result finish huses hfinish record hrecord
      have hmem := (stillLive_iff_spares (hbounded.prune now) hok).mpr (hspares hok) record hrecord
      have hnamed : records.at record.1 ≠ [] := List.ne_nil_of_mem (mem_at.mpr hrecord)
      have hassured : (store.publishAt device records now).2.Assured record
          (now + CHALLENGE_TTL) :=
        .of_mem hok hmem (fun hnone => absurd hnone hnamed) (Nat.le_refl _)
      exact (huses.assured hassured hfinish (Nat.le_refl _)).imp_left
        fun hstays => hstays.stillLive hfinish

/-- In every run the live records stay within their bounds, and each publish does to them what
it is to do exactly when an order that there is room for spares its own. -/
theorem records_published_iff (hrun : Publishes maxCertsPerWeek store orders last) :
    store.Bounded ∧ ∀ device records now,
      Publication store device records now ↔
        ((store.prune now).HasRoom device records → (store.prune now).Spares records) :=
  ⟨bounded_of_publishes hrun, publication_iff (bounded_of_publishes hrun)⟩

theorem records_published_iff_one :
    Publication (ChallengeStore.new 5) 7 [("_acme-challenge.a.b.c", "v1")] 3 := by
  refine ((records_published_iff Publishes.new).2 7 _ 3).mpr ?_
  intro _ name before incoming after value hsplit _ hbefore
  have hone : (ChallengeRecords.at [("_acme-challenge.a.b.c", "v1")] name).length ≤ 1 := by
    unfold ChallengeRecords.at
    rw [List.length_map]
    exact List.length_filter_le _ _
  rw [hsplit, List.length_append, List.length_cons] at hone
  have hlength := List.length_pos_of_mem hbefore
  omega

end

section

/-- The order of a device with two values for its own name. -/
def ownRecords (first second : String) : ChallengeRecords :=
  [("_acme-challenge.a.b.c", first), ("_acme-challenge.a.b.c", second)]

/-- The store after four orders of a device, a second apart, that fill its name. -/
def filledStore : ChallengeStore :=
  (((((ChallengeStore.new 5).publishAt 7 (ownRecords "v1" "v2") 0).2.publishAt 7
    (ownRecords "v3" "v4") 1).2.publishAt 7 (ownRecords "v5" "v6") 2).2.publishAt 7
    (ownRecords "v7" "v8") 3).2

/-- A device that orders again with its first value and a new one loses the first. -/
theorem repeated_value_pushed_out :
    ∃ orders, Publishes 5 filledStore orders 3 ∧
      (filledStore.publishAt 7 (ownRecords "v1" "v9") 4).1 = .ok () ∧
      (filledStore.publishAt 7 (ownRecords "v1" "v9") 4).2.valuesAt "_acme-challenge.a.b.c" =
        ["v2", "v3", "v4", "v5", "v6", "v7", "v8", "v9"] ∧
      ¬ Publication filledStore 7 (ownRecords "v1" "v9") 4 := by
  have hok : (filledStore.publishAt 7 (ownRecords "v1" "v9") 4).1 = .ok () := by decide
  have hvalues : (filledStore.publishAt 7 (ownRecords "v1" "v9") 4).2.valuesAt
      "_acme-challenge.a.b.c" = ["v2", "v3", "v4", "v5", "v6", "v7", "v8", "v9"] := by decide
  refine ⟨_, .publish (.publish (.publish (.publish .new 7 (ownRecords "v1" "v2") (Nat.zero_le 0))
    7 (ownRecords "v3" "v4") (Nat.zero_le 1)) 7 (ownRecords "v5" "v6") (Nat.le_succ 1)) 7
    (ownRecords "v7" "v8") (Nat.le_succ 2), hok, hvalues, ?_⟩
  intro hpublication
  have hlive := hpublication.live hok [] _ 4 (.none (Nat.le_refl 4)) (by decide)
    ("_acme-challenge.a.b.c", "v1") List.mem_cons_self
  obtain ⟨live, hget, _, hvalue⟩ := ChallengeStore.stillLive_singleton.mp (hlive.resolve_right id)
  have hmem := ChallengeStore.mem_valuesAt.mpr ⟨live, hget, hvalue⟩
  rw [hvalues] at hmem
  revert hmem
  decide

end

end UnityLan.Coordinator
