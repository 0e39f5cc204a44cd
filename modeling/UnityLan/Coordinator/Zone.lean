import Mathlib.Data.List.Perm.Subperm
import UnityLan.Common.Basic
import UnityLan.Foundation.Table
import UnityLan.Foundation.Window

namespace UnityLan.Coordinator

open UnityLan.Foundation

/-! The live challenge records of the certificate zone, and the weekly budgets that
orders are charged to. -/

def CHALLENGE_TTL : Nat := 5 * 60

def MAX_LIVE_CHALLENGES : Nat := 4096

def MAX_VALUES_PER_NAME : Nat := 8

def ISSUANCE_WINDOW : Nat := 7 * 24 * 60 * 60

def MAX_CERTS_PER_DEVICE_PER_WEEK : Nat := 5

inductive PublishError
  | deviceBudgetExhausted
  | budgetExhausted
  | tooManyLive
  deriving DecidableEq

def PublishError.text : PublishError → String
  | .deviceBudgetExhausted =>
      "this device has spent its weekly certificate allowance; try again later"
  | .budgetExhausted =>
      "this deployment's weekly certificate budget is exhausted; try again later"
  | .tooManyLive => "too many certificate validations are in flight"

structure Live where
  values : List String
  expiresAt : Nat
  deriving DecidableEq

def Live.push (live : Live) (value : String) (expiresAt : Nat) : Live where
  values :=
    if value ∈ live.values then live.values
    else if live.values.length ≥ MAX_VALUES_PER_NAME then live.values.drop 1 ++ [value]
    else live.values ++ [value]
  expiresAt := expiresAt

structure ChallengeStore where
  live : Table String Live := ∅
  issuances : List Nat := []
  perDevice : Table PubKey (List Nat) := ∅
  maxCertsPerWeek : Nat

/-- The name and the value of each challenge of one certificate order. -/
abbrev ChallengeRecords := List (String × String)

namespace ChallengeStore

def new (maxCertsPerWeek : Nat) : ChallengeStore where
  maxCertsPerWeek := maxCertsPerWeek

def prune (store : ChallengeStore) (now : Nat) : ChallengeStore :=
  { store with
    live := store.live.retain fun _ live => live.expiresAt > now
    issuances := Window.recent ISSUANCE_WINDOW now store.issuances
    perDevice :=
      (store.perDevice.mapValues fun _ ats => Window.recent ISSUANCE_WINDOW now ats).retain
        fun _ ats => !ats.isEmpty }

def novel (store : ChallengeStore) (records : ChallengeRecords) : Bool :=
  records.any fun record =>
    match store.live.get? record.1 with
    | some live => !live.values.contains record.2
    | none => true

def refresh (store : ChallengeStore) (records : ChallengeRecords) (now : Nat) : ChallengeStore :=
  { store with
    live := records.foldl
      (fun live record =>
        live.modify record.1 fun found => { found with expiresAt := now + CHALLENGE_TTL })
      store.live }

def issued (store : ChallengeStore) (device : PubKey) : List Nat :=
  (store.perDevice.get? device).getD []

def perDeviceCap (store : ChallengeStore) : Nat :=
  min MAX_CERTS_PER_DEVICE_PER_WEEK store.maxCertsPerWeek

def freshNames (store : ChallengeStore) (records : ChallengeRecords) : Nat :=
  (records.filter fun record => !store.live.contains record.1).length

def admitOrder (store : ChallengeStore) (device : PubKey) (records : ChallengeRecords) (now : Nat) :
    ChallengeStore :=
  let expiresAt := now + CHALLENGE_TTL
  { store with
    live := records.foldl
      (fun live record =>
        live.insert record.1
          (((live.get? record.1).getD ⟨[], expiresAt⟩).push record.2 expiresAt))
      store.live
    issuances := store.issuances ++ [now]
    perDevice := store.perDevice.insert device (store.issued device ++ [now]) }

def publishPruned (store : ChallengeStore) (device : PubKey) (records : ChallengeRecords)
    (now : Nat) : Except PublishError Unit × ChallengeStore :=
  if !store.novel records then (.ok (), store.refresh records now)
  -- the device before the deployment, so that one that spent its own share leaves the rest alone
  else if (store.issued device).length ≥ store.perDeviceCap then
    (.error .deviceBudgetExhausted, store)
  else if store.issuances.length ≥ store.maxCertsPerWeek then (.error .budgetExhausted, store)
  else if store.live.size + store.freshNames records > MAX_LIVE_CHALLENGES then
    (.error .tooManyLive, store)
  else (.ok (), store.admitOrder device records now)

def publishAt (store : ChallengeStore) (device : PubKey) (records : ChallengeRecords)
    (now : Nat) : Except PublishError Unit × ChallengeStore :=
  (store.prune now).publishPruned device records now

def lookup (store : ChallengeStore) (name : String) (now : Nat) :
    Option (List String) × ChallengeStore :=
  let pruned := store.prune now
  ((pruned.live.get? name).map (·.values), pruned)

def issuedThisWeek (store : ChallengeStore) (now : Nat) : Nat × ChallengeStore :=
  let pruned := store.prune now
  (pruned.issuances.length, pruned)

def charged (store : ChallengeStore) (device : PubKey) (records : ChallengeRecords)
    (now : Nat) : Bool :=
  (store.prune now).novel records &&
    match (store.publishAt device records now).1 with
    | .ok _ => true
    | .error _ => false

/-- The charges that still count at a time, of the deployment and of one device. -/
def spent (store : ChallengeStore) (now : Nat) : List Nat :=
  Window.recent ISSUANCE_WINDOW now store.issuances

def spentBy (store : ChallengeStore) (device : PubKey) (now : Nat) : List Nat :=
  Window.recent ISSUANCE_WINDOW now (store.issued device)

/-- Every value of the order can still be looked up. -/
def StillLive (store : ChallengeStore) (records : ChallengeRecords) (now : Nat) : Prop :=
  ∀ record ∈ records, ∃ live, store.live.get? record.1 = some live ∧ now < live.expiresAt ∧
    record.2 ∈ live.values

variable {store : ChallengeStore} {device other : PubKey} {records : ChallengeRecords}
  {now later : Nat}

theorem StillLive.not_novel (hlive : store.StillLive records now) :
    (store.prune now).novel records = false := by
  apply List.any_eq_false.mpr
  intro record hrecord
  obtain ⟨live, hget, hexpires, hvalue⟩ := hlive record hrecord
  have hpruned : (store.prune now).live.get? record.1 = some live := by
    simp [prune, hget, hexpires, Option.filter]
  simpa [hpruned] using hvalue

@[simp] theorem issued_prune (store : ChallengeStore) (device : PubKey) (now : Nat) :
    (store.prune now).issued device = store.spentBy device now := by
  unfold issued prune spentBy issued
  rw [Table.get?_retain, Table.get?_mapValues]
  cases store.perDevice.get? device with
  | none => rfl
  | some ats =>
      rw [Option.map_some, Option.getD_some]
      cases hrecent : Window.recent ISSUANCE_WINDOW now ats with
      | nil => rfl
      | cons head tail => rfl

theorem publishPruned_cases (store : ChallengeStore) (device : PubKey)
    (records : ChallengeRecords) (now : Nat) :
    (store.novel records = false ∧
        store.publishPruned device records now = (.ok (), store.refresh records now)) ∨
      (∃ error, store.publishPruned device records now = (.error error, store)) ∨
      (store.novel records = true ∧ (store.issued device).length < store.perDeviceCap ∧
        store.issuances.length < store.maxCertsPerWeek ∧
        store.publishPruned device records now =
          (.ok (), store.admitOrder device records now)) := by
  unfold publishPruned
  split
  · rename_i hnovel
    exact .inl ⟨by simpa using hnovel, rfl⟩
  · rename_i hnovel
    split
    · exact .inr (.inl ⟨_, rfl⟩)
    · rename_i hdevice
      split
      · exact .inr (.inl ⟨_, rfl⟩)
      · rename_i hdeployment
        split
        · exact .inr (.inl ⟨_, rfl⟩)
        · exact .inr (.inr ⟨by simpa using hnovel, by omega, by omega, rfl⟩)

theorem publishAt_uncharged (huncharged : store.charged device records now = false) :
    (store.publishAt device records now).2.issuances = (store.prune now).issuances ∧
      (store.publishAt device records now).2.perDevice = (store.prune now).perDevice ∧
      (store.publishAt device records now).2.maxCertsPerWeek = store.maxCertsPerWeek := by
  unfold charged publishAt at huncharged
  unfold publishAt
  rcases publishPruned_cases (store.prune now) device records now with
    ⟨_, heq⟩ | ⟨error, heq⟩ | ⟨hnovel, _, _, heq⟩
  · rw [heq]
    exact ⟨rfl, rfl, rfl⟩
  · rw [heq]
    exact ⟨rfl, rfl, rfl⟩
  · rw [heq, hnovel] at huncharged
    cases huncharged

theorem not_charged (huncharged : (∃ error, (store.publishAt device records now).1 = .error error) ∨
      store.StillLive records now) : store.charged device records now = false := by
  unfold charged
  rcases huncharged with ⟨error, herror⟩ | hlive
  · rw [herror, Bool.and_false]
  · rw [hlive.not_novel, Bool.false_and]

theorem spent_prune (hlater : now ≤ later) : (store.prune now).spent later = store.spent later :=
  Window.recent_recent hlater

theorem spentBy_prune (device : PubKey) (hlater : now ≤ later) :
    (store.prune now).spentBy device later = store.spentBy device later := by
  unfold spentBy
  rw [issued_prune]
  exact Window.recent_recent hlater

theorem publishAt_spares (huncharged : store.charged device records now = false)
    (hlater : now ≤ later) :
    (store.publishAt device records now).2.spent later = store.spent later ∧
      ∀ other, (store.publishAt device records now).2.spentBy other later =
        store.spentBy other later := by
  obtain ⟨hissuances, hdevices, _⟩ := publishAt_uncharged huncharged
  constructor
  · refine Eq.trans ?_ (spent_prune hlater)
    unfold spent
    rw [hissuances]
  · intro other
    refine Eq.trans ?_ (spentBy_prune other hlater)
    unfold spentBy issued
    rw [hdevices]

theorem publishAt_charged (hcharged : store.charged device records now = true) :
    (store.spentBy device now).length < store.perDeviceCap ∧
      (store.spent now).length < store.maxCertsPerWeek ∧
      (store.publishAt device records now).2 =
        (store.prune now).admitOrder device records now := by
  unfold charged publishAt at hcharged
  unfold publishAt
  rcases publishPruned_cases (store.prune now) device records now with
    ⟨hnovel, heq⟩ | ⟨error, heq⟩ | ⟨_, hdevice, hdeployment, heq⟩
  · rw [hnovel] at hcharged
    cases hcharged
  · rw [heq, Bool.and_false] at hcharged
    cases hcharged
  · rw [issued_prune] at hdevice
    exact ⟨hdevice, hdeployment, by rw [heq]⟩

end ChallengeStore

/-- An order that was charged: the device, and when. -/
abbrev Orders := List (PubKey × Nat)

namespace Orders

def times (orders : Orders) : List Nat :=
  orders.map Prod.snd

def ofDevice (orders : Orders) (device : PubKey) : Orders :=
  orders.filter fun order => order.1 == device

end Orders

/-- The calls of one store, at times that never go back; the log is of the charged orders. -/
inductive Publishes (maxCertsPerWeek : Nat) : ChallengeStore → Orders → Nat → Prop
  | new : Publishes maxCertsPerWeek (.new maxCertsPerWeek) [] 0
  | publish {store : ChallengeStore} {orders : Orders} {last : Nat}
      (before : Publishes maxCertsPerWeek store orders last) (device : PubKey)
      (records : ChallengeRecords) {now : Nat} (later : last ≤ now) :
      Publishes maxCertsPerWeek (store.publishAt device records now).2
        (if store.charged device records now then orders ++ [(device, now)] else orders) now
  | lookup {store : ChallengeStore} {orders : Orders} {last : Nat}
      (before : Publishes maxCertsPerWeek store orders last) (name : String) {now : Nat}
      (later : last ≤ now) : Publishes maxCertsPerWeek (store.lookup name now).2 orders now
  | issuedThisWeek {store : ChallengeStore} {orders : Orders} {last : Nat}
      (before : Publishes maxCertsPerWeek store orders last) {now : Nat} (later : last ≤ now) :
      Publishes maxCertsPerWeek (store.issuedThisWeek now).2 orders now

structure Holds (maxCertsPerWeek : Nat) (store : ChallengeStore) (orders : Orders) (last : Nat) :
    Prop where
  cap : store.maxCertsPerWeek = maxCertsPerWeek
  issuances : store.issuances = Window.recent ISSUANCE_WINDOW last orders.times
  perDevice : ∀ device,
    store.issued device = Window.recent ISSUANCE_WINDOW last (orders.ofDevice device).times

structure InBudget (maxCertsPerWeek : Nat) (orders : Orders) : Prop where
  deployment : Window.Paced ISSUANCE_WINDOW maxCertsPerWeek orders.times
  device : ∀ device,
    Window.Paced ISSUANCE_WINDOW (min MAX_CERTS_PER_DEVICE_PER_WEEK maxCertsPerWeek)
      (orders.ofDevice device).times

section

variable {maxCertsPerWeek last now : Nat} {store : ChallengeStore} {orders : Orders}
  {device : PubKey} {records : ChallengeRecords}

theorem Orders.times_append (orders : Orders) (device : PubKey) (now : Nat) :
    Orders.times (orders ++ [(device, now)]) = orders.times ++ [now] :=
  List.map_append

theorem Orders.ofDevice_append_self (orders : Orders) (device : PubKey) (now : Nat) :
    (Orders.ofDevice (orders ++ [(device, now)]) device).times =
      (orders.ofDevice device).times ++ [now] := by
  simp [Orders.ofDevice, Orders.times]

theorem Orders.ofDevice_append_other (orders : Orders) {device other : PubKey} (now : Nat)
    (hother : other ≠ device) :
    Orders.ofDevice (orders ++ [(device, now)]) other = orders.ofDevice other := by
  simp [Orders.ofDevice, hother.symm]

theorem Holds.prune (hholds : Holds maxCertsPerWeek store orders last) (hlater : last ≤ now) :
    Holds maxCertsPerWeek (store.prune now) orders now := by
  constructor
  · exact hholds.cap
  · change Window.recent ISSUANCE_WINDOW now store.issuances = _
    rw [hholds.issuances, Window.recent_recent hlater]
  · intro device
    rw [ChallengeStore.issued_prune, ChallengeStore.spentBy, hholds.perDevice,
      Window.recent_recent hlater]

theorem Holds.of_budgets {store' : ChallengeStore} (hholds : Holds maxCertsPerWeek store orders now)
    (hissuances : store'.issuances = store.issuances)
      (hdevices : store'.perDevice = store.perDevice)
    (hcap : store'.maxCertsPerWeek = store.maxCertsPerWeek) :
    Holds maxCertsPerWeek store' orders now := by
  constructor
  · exact hcap.trans hholds.cap
  · exact hissuances.trans hholds.issuances
  · intro device
    rw [← hholds.perDevice device]
    unfold ChallengeStore.issued
    rw [hdevices]

theorem Holds.admitted (hholds : Holds maxCertsPerWeek store orders now) :
    Holds maxCertsPerWeek (store.admitOrder device records now) (orders ++ [(device, now)])
      now := by
  have hspan : 0 < ISSUANCE_WINDOW := by decide
  constructor
  · exact hholds.cap
  · rw [Orders.times_append, Window.recent_append_now hspan, ← hholds.issuances]
    rfl
  · intro other
    change ((store.perDevice.insert device (store.issued device ++ [now])).get? other).getD [] = _
    rw [Table.get?_insert]
    split
    · rename_i hsame
      subst hsame
      rw [Orders.ofDevice_append_self, Window.recent_append_now hspan, ← hholds.perDevice]
      rfl
    · rename_i hother
      rw [Orders.ofDevice_append_other orders now hother, ← hholds.perDevice]
      rfl

theorem InBudget.admitted (hbudget : InBudget maxCertsPerWeek orders)
    (hdeployment : (Window.recent ISSUANCE_WINDOW now orders.times).length < maxCertsPerWeek)
    (hdevice : (Window.recent ISSUANCE_WINDOW now (orders.ofDevice device).times).length <
      min MAX_CERTS_PER_DEVICE_PER_WEEK maxCertsPerWeek) :
    InBudget maxCertsPerWeek (orders ++ [(device, now)]) := by
  constructor
  · rw [Orders.times_append]
    exact hbudget.deployment.append hdeployment
  · intro other
    rcases eq_or_ne other device with rfl | hother
    · rw [Orders.ofDevice_append_self]
      exact (hbudget.device other).append hdevice
    · rw [Orders.ofDevice_append_other orders now hother]
      exact hbudget.device other

theorem publish_keeps (hholds : Holds maxCertsPerWeek store orders last)
    (hbudget : InBudget maxCertsPerWeek orders) (hlater : last ≤ now) :
    Holds maxCertsPerWeek (store.publishAt device records now).2
        (if store.charged device records now then orders ++ [(device, now)] else orders) now ∧
      InBudget maxCertsPerWeek
        (if store.charged device records now then orders ++ [(device, now)] else orders) := by
  have hpruned := hholds.prune hlater
  cases hcharged : store.charged device records now with
  | false =>
      obtain ⟨hissuances, hdevices, hcap⟩ := ChallengeStore.publishAt_uncharged hcharged
      exact ⟨hpruned.of_budgets hissuances hdevices hcap, hbudget⟩
  | true =>
      obtain ⟨hdevice, hdeployment, hstore⟩ := ChallengeStore.publishAt_charged hcharged
      have hspent := hpruned.perDevice device
      rw [ChallengeStore.issued_prune] at hspent
      rw [hspent, ChallengeStore.perDeviceCap, hholds.cap] at hdevice
      have hissuances : store.spent now = _ := hpruned.issuances
      rw [hissuances, hholds.cap] at hdeployment
      rw [if_pos rfl, hstore]
      exact ⟨hpruned.admitted, hbudget.admitted hdeployment hdevice⟩

theorem publishes_keep (hrun : Publishes maxCertsPerWeek store orders last) :
    Holds maxCertsPerWeek store orders last ∧ InBudget maxCertsPerWeek orders := by
  induction hrun with
  | new => exact ⟨⟨rfl, rfl, fun _ => rfl⟩, ⟨Window.Paced.nil, fun _ => Window.Paced.nil⟩⟩
  | publish _ device records hlater ih => exact publish_keeps ih.1 ih.2 hlater
  | lookup _ name hlater ih => exact ⟨ih.1.prune hlater, ih.2⟩
  | issuedThisWeek _ hlater ih => exact ⟨ih.1.prune hlater, ih.2⟩

theorem Holds.subperm (hholds : Holds maxCertsPerWeek store orders last) (device : PubKey) :
    (store.issued device).Subperm store.issuances := by
  rw [hholds.perDevice, hholds.issuances]
  exact (Window.recent_sublist (List.filter_sublist.map Prod.snd)).subperm

/-- In every run the charged orders stay within the budgets of every window, a device's
record is part of the deployment's, and what is refused or still live costs nothing. -/
theorem issuance_budgeted (hrun : Publishes maxCertsPerWeek store orders last) :
    (∀ start, (Window.opened ISSUANCE_WINDOW start orders.times).length ≤ maxCertsPerWeek) ∧
      (∀ device start,
        (Window.opened ISSUANCE_WINDOW start (orders.ofDevice device).times).length ≤
          min MAX_CERTS_PER_DEVICE_PER_WEEK maxCertsPerWeek) ∧
      (∀ device, (store.issued device).Subperm store.issuances) ∧
      ∀ device records now, last ≤ now →
        ((∃ error, (store.publishAt device records now).1 = .error error) ∨
          store.StillLive records now) →
        ∀ later, now ≤ later →
          (store.publishAt device records now).2.spent later = store.spent later ∧
            ∀ other, (store.publishAt device records now).2.spentBy other later =
              store.spentBy other later := by
  obtain ⟨hholds, hbudget⟩ := publishes_keep hrun
  refine ⟨hbudget.deployment, hbudget.device, hholds.subperm, ?_⟩
  intro device records now _ huncharged later hlater
  exact ChallengeStore.publishAt_spares (ChallengeStore.not_charged huncharged) hlater

theorem issuance_budgeted_once :
    ((ChallengeStore.new 1).publishAt 7 [("_acme-challenge.a.b", "v")] 3).2.issued 7 = [3] ∧
      ∀ start, (Window.opened ISSUANCE_WINDOW start [3]).length ≤ 1 :=
  ⟨by decide,
    (issuance_budgeted (.publish (@Publishes.new 1) 7 [("_acme-challenge.a.b", "v")]
      (Nat.zero_le 3))).1⟩

end

end UnityLan.Coordinator
