import UnityLan.Coordinator.NatTables
import UnityLan.Coordinator.Presence
import UnityLan.Coordinator.Wake
import UnityLan.Foundation.Runs

namespace UnityLan.Coordinator

open UnityLan.Foundation

/-! Refreshes against the clock: how long they are held, how long engines wait for them, and
what the presence reaper makes of it. -/

/-- The attestation lifetimes that a release coordinator accepts. -/
def acceptsTtl (attestationTtlSecs : Nat) : Bool :=
  decide (60 ≤ attestationTtlSecs) && decide (attestationTtlSecs ≤ 7 * 24 * 60 * 60)

def longpollHoldSecs (attestationTtlSecs : Nat) : Nat :=
  max (attestationTtlSecs / 2) 1

def REQUEST_SLACK_SECS : Nat := 60

def REQUEST_TIMEOUT_SECS : Nat := LONGPOLL_HOLD_SECS + REQUEST_SLACK_SECS

inductive Stage where
  /-- On its way to the coordinator, or being answered there. -/
  | asking
  | held (parkedAt : Nat)
  /-- After a hold of that many seconds; being answered, or on its way back. -/
  | answering (heldSecs : Nat)

structure Flight where
  user : UserId
  /-- Since then the device has always had one in flight. -/
  began : Nat
  sentAt : Nat
  stage : Stage
  /-- A snapshot has been built at this stage. -/
  built : Bool
  /-- The time of the last snapshot that was built. -/
  seenAt : Nat

namespace Flight

variable (hold : Nat) (flight : Flight)

def dueBy : Nat :=
  flight.sentAt + REQUEST_SLACK_SECS +
    match flight.stage with
    | .asking => 0
    | .held _ => hold
    | .answering heldSecs => heldSecs

def stageBegan : Nat :=
  match flight.stage with
  | .asking => flight.sentAt
  | .held parkedAt => parkedAt
  | .answering heldSecs => flight.sentAt + heldSecs

def parks (now : Nat) : Option Flight :=
  match flight.stage, flight.built with
  | .asking, true => some { flight with stage := .held now }
  | _, _ => none

def wakes (now : Nat) : Option Flight :=
  match flight.stage with
  | .held parkedAt =>
      some { flight with stage := .answering (min (now - parkedAt) hold), built := false }
  | _ => none

def answers : Option Flight :=
  match flight.stage, flight.built with
  | .asking, true => some { flight with stage := .answering 0 }
  | _, _ => none

def reissues (now : Nat) : Option Flight :=
  match flight.stage, flight.built with
  | .answering _, true => some { flight with sentAt := now, stage := .asking, built := false }
  | _, _ => none

end Flight

namespace Presence

def recordAll (presence : Presence) (places : List (GuildId × RoleId)) (row : MemberPresence)
    (clientVersion : String) (now : Nat) : Presence :=
  places.foldl (fun presence place =>
    (presence.record place.1 place.2 row clientVersion now).2) presence

def evictOthers (presence : Presence) (networks places : List (GuildId × RoleId))
    (pubkey : PubKey) : Presence :=
  networks.foldl (fun presence place =>
    if places.contains place then presence else (presence.evict place.1 place.2 pubkey).2) presence

def rebuilt (presence : Presence) (user : UserId) (places : List (GuildId × RoleId))
    (own : Bool) (row : MemberPresence) (clientVersion : String) (now : Nat) : Presence :=
  let recorded := presence.recordAll places row clientVersion now
  let kept := recorded.evictOthers (recorded.networksOf row.pubkey) places row.pubkey
  if own then (kept.recordSelf user row clientVersion now).2
  else (kept.evictSelf user row.pubkey).2

end Presence

structure Deployment where
  now : Nat
  presence : Presence
  nat : NatTables
  wakers : Wakers
  flights : Table PubKey Flight
  /-- The devices that the reaper has listed as present. -/
  listed : List PubKey

inductive HoldEvent where
  | clock (now : Nat)
  | joined (pubkey : PubKey) (user : UserId)
  | subscribed (task : Nat) (pubkey : PubKey)
  | released (task : Nat)
  | built (places : List (GuildId × RoleId)) (own : Bool) (row : MemberPresence)
      (clientVersion : String) (time : Nat)
  | parked (pubkey : PubKey)
  | woken (pubkey : PubKey)
  | answered (pubkey : PubKey)
  | reissued (pubkey : PubKey)
  | left (pubkey : PubKey)
  | timedOut (pubkey : PubKey)
  | reported (o : NatTables.Op)
  | wakes (pubkey : PubKey)
  | evicted (o : Presence.Op)
  | reapedMap (time : Nat)
  | reapedSelf (time : Nat)
  | listedMap
  | listedSelf
  | pruned (o : NatTables.Op)
  | retained

def NatTables.Op.present? : NatTables.Op → Option (List PubKey)
  | .pruneSourceIp present | .pruneReflexive present | .pruneRelays present
  | .pruneRelayAllocs present | .pruneIce present => some present
  | _ => none

def Presence.Op.evicts : Presence.Op → Bool
  | .evict .. | .evictSelf .. | .evictUser .. => true
  | _ => false

namespace Deployment

def idle : Deployment where
  now := 0
  presence := {}
  nat := {}
  wakers := {}
  flights := ∅
  listed := []

variable (hold : Nat) (d : Deployment)

def inFlight (pubkey : PubKey) : Bool :=
  d.flights.contains pubkey

def unlisted (pubkey : PubKey) : Bool :=
  d.inFlight pubkey && !d.listed.contains pubkey

def advance (pubkey : PubKey) (change : Flight → Option Flight) : Option Deployment := do
  let flight ← d.flights.get? pubkey
  let flight ← change flight
  return { d with flights := d.flights.insert pubkey flight }

def onTime (now : Nat) : Bool :=
  decide (d.now ≤ now) && d.flights.values.all fun flight => decide (now ≤ flight.dueBy hold)

def build (flight : Flight) (time : Nat) : Option Flight :=
  match flight.stage with
  | .held _ => none
  | _ =>
      if flight.stageBegan ≤ time ∧ time ≤ d.now then
        some { flight with built := true, seenAt := time }
      else none

def step : HoldEvent → Option Deployment
  | .clock now => if d.onTime hold now then some { d with now := now } else none
  | .joined pubkey user =>
      if d.inFlight pubkey then none
      else
        some { d with
          flights := d.flights.insert pubkey ⟨user, d.now, d.now, .asking, false, d.now⟩ }
  | .subscribed task pubkey => some { d with wakers := (d.wakers.subscribe task pubkey).2 }
  | .released task => some { d with wakers := d.wakers.release task }
  | .built places own row clientVersion time => do
      let flight ← d.flights.get? row.pubkey
      let built ← d.build flight time
      return { d with
        presence := d.presence.rebuilt flight.user places own row clientVersion time
        flights := d.flights.insert row.pubkey built }
  | .parked pubkey => d.advance pubkey (·.parks d.now)
  | .woken pubkey => d.advance pubkey (·.wakes hold d.now)
  | .answered pubkey => d.advance pubkey (·.answers)
  | .reissued pubkey => d.advance pubkey (·.reissues d.now)
  | .left pubkey => some { d with flights := d.flights.erase pubkey }
  | .timedOut pubkey =>
      if (d.flights.get? pubkey).any fun flight =>
          decide (flight.sentAt + REQUEST_TIMEOUT_SECS < d.now) then
        some { d with flights := d.flights.erase pubkey }
      else none
  | .reported o => if o.present?.isSome then none else some { d with nat := (d.nat.step o).2 }
  | .wakes pubkey => some { d with wakers := d.wakers.wake pubkey }
  | .evicted o => if o.evicts then some { d with presence := (d.presence.step o).2 } else none
  | .reapedMap time =>
      if time ≤ d.now then some { d with presence := (d.presence.reapMap time PRESENCE_TTL_SECS).2 }
      else none
  | .reapedSelf time =>
      if time ≤ d.now then some { d with presence :=
        (d.presence.reapSelf time PRESENCE_TTL_SECS).2 }
      else none
  | .listedMap => some { d with listed := d.presence.mapPubkeys }
  | .listedSelf => some { d with listed := d.listed ++ d.presence.selfPubkeys }
  | .pruned o =>
      if o.present? = some d.listed then some { d with nat := (d.nat.step o).2 } else none
  | .retained => some { d with wakers := d.wakers.retain d.listed }

/-- No request times out that is still held, and the reaper takes nothing of a device that always
has one in flight. An entry of a pair goes with either of its devices. -/
def Healthy (event : HoldEvent) (d' : Deployment) : Prop :=
  match event with
  | .timedOut pubkey => ∀ flight, d.flights.get? pubkey = some flight →
      ∀ parkedAt, flight.stage ≠ .held parkedAt
  | .reapedMap _ => ∀ guild role pubkey flight e, d.flights.get? pubkey = some flight →
      d.presence.map.get? (guild, role, pubkey) = some e → flight.began ≤ e.lastSeen →
        d'.presence.map.get? (guild, role, pubkey) = some e
  | .reapedSelf _ => ∀ pubkey flight e, d.flights.get? pubkey = some flight →
      d.presence.selfMap.get? (flight.user, pubkey) = some e → flight.began ≤ e.lastSeen →
        d'.presence.selfMap.get? (flight.user, pubkey) = some e
  | .pruned _ => ∀ first second, d.inFlight first = true ∨ first ∈ d.listed →
      d.inFlight second = true ∨ second ∈ d.listed →
      d'.nat.relayAllocs.get? (first, second) = d.nat.relayAllocs.get? (first, second) ∧
        d'.nat.ice.get? (first, second) = d.nat.ice.get? (first, second)
  | .retained => ∀ pubkey waker, d.inFlight pubkey = true →
      d.wakers.map.get? pubkey = some waker → waker.pending = true →
        d'.wakers.map.get? pubkey = some waker
  | _ => True

/-- A device with a request in flight that shares an entry, or is owed a wake, had a row when the
reaper listed the devices. -/
def fits : HoldEvent → Bool
  | .pruned _ => (d.nat.relayAllocs.keys ++ d.nat.ice.keys).all fun pair =>
      !d.unlisted pair.1 && !d.unlisted pair.2
  | .retained => d.wakers.map.rows.all fun row => !(row.2.pending && d.unlisted row.1)
  | _ => true

end Deployment

section

variable {hold now : Nat} {flight flight' : Flight} {d d' : Deployment} {event : HoldEvent}

/-! What is known of a flight. -/

inductive Flight.Sound (hold now : Nat) : Flight → Prop
  | asked {user : UserId} {began sentAt seenAt : Nat} (hsent : sentAt ≤ now)
      (hdue : now ≤ sentAt + REQUEST_SLACK_SECS) (hseen : sentAt ≤ seenAt + REQUEST_SLACK_SECS) :
      Sound hold now ⟨user, began, sentAt, .asking, false, seenAt⟩
  | seen {user : UserId} {began sentAt seenAt : Nat} (hsent : sentAt ≤ now)
      (hdue : now ≤ sentAt + REQUEST_SLACK_SECS) (hseen : sentAt ≤ seenAt) :
      Sound hold now ⟨user, began, sentAt, .asking, true, seenAt⟩
  | held {user : UserId} {began sentAt seenAt parkedAt : Nat} (hsent : sentAt ≤ parkedAt)
      (hparked : parkedAt ≤ now) (hslack : parkedAt ≤ sentAt + REQUEST_SLACK_SECS)
      (hdue : now ≤ sentAt + REQUEST_SLACK_SECS + hold) (hseen : sentAt ≤ seenAt) :
      Sound hold now ⟨user, began, sentAt, .held parkedAt, true, seenAt⟩
  | woken {user : UserId} {began sentAt seenAt heldSecs : Nat} (hheld : heldSecs ≤ hold)
      (hsent : sentAt + heldSecs ≤ now) (hdue : now ≤ sentAt + REQUEST_SLACK_SECS + heldSecs)
      (hseen : sentAt ≤ seenAt) :
      Sound hold now ⟨user, began, sentAt, .answering heldSecs, false, seenAt⟩
  | answered {user : UserId} {began sentAt seenAt heldSecs : Nat} (hheld : heldSecs ≤ hold)
      (hsent : sentAt + heldSecs ≤ now) (hdue : now ≤ sentAt + REQUEST_SLACK_SECS + heldSecs)
      (hseen : sentAt + heldSecs ≤ seenAt) :
      Sound hold now ⟨user, began, sentAt, .answering heldSecs, true, seenAt⟩

theorem Flight.Sound.recent (hsound : flight.Sound hold now) :
    now ≤ flight.seenAt + hold + 2 * REQUEST_SLACK_SECS := by
  cases hsound with
  | asked hsent hdue hseen => dsimp only; omega
  | seen hsent hdue hseen => dsimp only; omega
  | held hsent hparked hslack hdue hseen => dsimp only; omega
  | woken hheld hsent hdue hseen => dsimp only; omega
  | answered hheld hsent hdue hseen => dsimp only; omega

theorem Flight.Sound.timely (hsound : flight.Sound hold now) : now ≤ flight.dueBy hold := by
  cases hsound with
  | asked hsent hdue hseen => exact hdue
  | seen hsent hdue hseen => exact hdue
  | held hsent hparked hslack hdue hseen => exact hdue
  | woken hheld hsent hdue hseen => exact hdue
  | answered hheld hsent hdue hseen => exact hdue

theorem Flight.Sound.later {now' : Nat} (hsound : flight.Sound hold now) (hlater : now ≤ now')
    (hdue : now' ≤ flight.dueBy hold) : flight.Sound hold now' := by
  cases hsound with
  | asked hsent _ hseen => exact .asked (Nat.le_trans hsent hlater) hdue hseen
  | seen hsent _ hseen => exact .seen (Nat.le_trans hsent hlater) hdue hseen
  | held hsent hparked hslack _ hseen =>
      exact .held hsent (Nat.le_trans hparked hlater) hslack hdue hseen
  | woken hheld hsent _ hseen => exact .woken hheld (Nat.le_trans hsent hlater) hdue hseen
  | answered hheld hsent _ hseen => exact .answered hheld (Nat.le_trans hsent hlater) hdue hseen

structure Flight.Goes (hold now : Nat) (flight flight' : Flight) : Prop where
  sound : flight.Sound hold now → flight'.Sound hold now
  user : flight'.user = flight.user
  began : flight'.began = flight.began
  seenAt : flight'.seenAt = flight.seenAt

theorem Flight.parks_goes (hparks : flight.parks now = some flight') :
    flight.Goes hold now flight' := by
  unfold parks at hparks
  split at hparks
  · cases hparks
    refine ⟨fun hsound => ?_, rfl, rfl, rfl⟩
    cases hsound with
    | seen hsent hdue hseen =>
        refine .held hsent (Nat.le_refl now) hdue ?_ hseen
        exact Nat.le_trans hdue (Nat.le_add_right _ _)
    | _ => contradiction
  · cases hparks

theorem Flight.wakes_goes (hwakes : flight.wakes hold now = some flight') :
    flight.Goes hold now flight' := by
  unfold wakes at hwakes
  split at hwakes
  · cases hwakes
    refine ⟨fun hsound => ?_, rfl, rfl, rfl⟩
    cases hsound with
    | held hsent hparked hslack hdue hseen =>
        rename_i hstage
        cases hstage
        exact .woken (Nat.min_le_right _ _) (by dsimp only; omega) (by dsimp only; omega) hseen
    | _ => contradiction
  · cases hwakes

theorem Flight.answers_goes (hanswers : flight.answers = some flight') :
    flight.Goes hold now flight' := by
  unfold answers at hanswers
  split at hanswers
  · cases hanswers
    refine ⟨fun hsound => ?_, rfl, rfl, rfl⟩
    cases hsound with
    | seen hsent hdue hseen => exact .answered (Nat.zero_le hold) hsent hdue hseen
    | _ => contradiction
  · cases hanswers

theorem Flight.reissues_goes (hreissues : flight.reissues now = some flight') :
    flight.Goes hold now flight' := by
  unfold reissues at hreissues
  split at hreissues
  · cases hreissues
    refine ⟨fun hsound => ?_, rfl, rfl, rfl⟩
    cases hsound with
    | answered hheld hsent hdue hseen =>
        exact .asked (Nat.le_refl now) (Nat.le_add_right _ _) (by dsimp only; omega)
    | _ => contradiction
  · cases hreissues

theorem Deployment.build_sound {time : Nat} (hold : Nat)
    (hbuild : d.build flight time = some flight') :
    (flight.Sound hold d.now → flight'.Sound hold d.now) ∧ flight'.user = flight.user ∧
      flight'.began = flight.began ∧ flight'.seenAt = time := by
  unfold build at hbuild
  split at hbuild
  · cases hbuild
  · rename_i hasking
    obtain ⟨⟨hafter, _⟩, hbuild⟩ := Option.ite_none_right_eq_some.mp hbuild
    cases hbuild
    refine ⟨fun hsound => ?_, rfl, rfl, rfl⟩
    cases hsound with
    | asked hsent hdue hseen => exact .seen hsent hdue hafter
    | seen hsent hdue hseen => exact .seen hsent hdue hafter
    | held hsent hparked hslack hdue hseen => exact absurd rfl (hasking _)
    | woken hheld hsent hdue hseen => exact .answered hheld hsent hdue hafter
    | answered hheld hsent hdue hseen => exact .answered hheld hsent hdue hafter

/-! What a snapshot leaves of the rows. -/

section

variable {presence : Presence} {user : UserId} {places : List (GuildId × RoleId)} {own : Bool}
  {row : MemberPresence} {clientVersion : String} {time : Nat}

namespace Presence

theorem recordAll_self :
    (presence.recordAll places row clientVersion time).selfMap = presence.selfMap := by
  unfold recordAll
  induction places generalizing presence with
  | nil => rfl
  | cons place rest ih => exact ih

theorem recordAll_other {key : GuildId × RoleId × PubKey} (hother : key.2.2 ≠ row.pubkey) :
    (presence.recordAll places row clientVersion time).map.get? key = presence.map.get? key := by
  unfold recordAll
  induction places generalizing presence with
  | nil => rfl
  | cons place rest ih =>
      refine ih.trans ?_
      change (presence.map.insert (place.1, place.2, row.pubkey) _).get? key = _
      rw [Table.get?_insert, if_neg]
      exact fun hsame => hother (congrArg (·.2.2) hsame)

theorem recordAll_own {guild : GuildId} {role : RoleId}
    (hplace : (guild, role) ∈ places ∨
      presence.map.get? (guild, role, row.pubkey) = some ⟨row, time, clientVersion⟩) :
    (presence.recordAll places row clientVersion time).map.get? (guild, role, row.pubkey) =
      some ⟨row, time, clientVersion⟩ := by
  unfold recordAll
  induction places generalizing presence with
  | nil => exact hplace.resolve_left List.not_mem_nil
  | cons place rest ih =>
      apply ih
      have hrecorded : ((presence.record place.1 place.2 row clientVersion time).2).map.get?
          (guild, role, row.pubkey) =
            if (guild, role, row.pubkey) = (place.1, place.2, row.pubkey) then
              some ⟨row, time, clientVersion⟩
            else presence.map.get? (guild, role, row.pubkey) := Table.get?_insert ..
      rcases hplace with hmem | hkept
      · rcases List.mem_cons.mp hmem with rfl | hrest
        · exact .inr (hrecorded.trans (if_pos rfl))
        · exact .inl hrest
      · rw [hrecorded, hkept, ite_self]
        exact .inr rfl

theorem evictOthers_self {networks : List (GuildId × RoleId)} {pubkey : PubKey} :
    (presence.evictOthers networks places pubkey).selfMap = presence.selfMap := by
  unfold evictOthers
  induction networks generalizing presence with
  | nil => rfl
  | cons place rest ih =>
      refine ih.trans ?_
      dsimp only
      split <;> rfl

theorem evictOthers_get? {networks : List (GuildId × RoleId)} {pubkey : PubKey}
    (key : GuildId × RoleId × PubKey) :
    (presence.evictOthers networks places pubkey).map.get? key =
      if key.2.2 = pubkey ∧ (key.1, key.2.1) ∈ networks ∧ (key.1, key.2.1) ∉ places then none
      else presence.map.get? key := by
  obtain ⟨guild, role, other⟩ := key
  unfold evictOthers
  induction networks generalizing presence with
  | nil => simp
  | cons place rest ih =>
      refine ih.trans ?_
      dsimp only
      by_cases hkept : places.contains place = true
      · rw [if_pos hkept]
        have hmem := List.contains_iff_mem.mp hkept
        by_cases hplace : (guild, role) = place
        · subst hplace
          simp [hmem]
        · simp [hplace]
      · rw [if_neg hkept]
        change (if _ then none else (presence.map.erase (place.1, place.2, pubkey)).get? _) = _
        rw [Table.get?_erase]
        have hmem := mt List.contains_iff_mem.mpr hkept
        by_cases hplace : (guild, role) = place
        · subst hplace
          by_cases hpubkey : other = pubkey <;> simp [hmem, hpubkey]
        · have hother : ¬ (guild, role, other) = (place.1, place.2, pubkey) :=
            fun hsame => hplace (by cases hsame; rfl)
          simp [hplace, hother]

theorem rebuilt_other {key : GuildId × RoleId × PubKey} (hother : key.2.2 ≠ row.pubkey) :
    (presence.rebuilt user places own row clientVersion time).map.get? key =
      presence.map.get? key := by
  have hkept : (presence.rebuilt user places own row clientVersion time).map =
      ((presence.recordAll places row clientVersion time).evictOthers
        ((presence.recordAll places row clientVersion time).networksOf row.pubkey) places
        row.pubkey).map := by
    cases own <;> rfl
  rw [hkept, evictOthers_get?, if_neg (fun hevicted => hother hevicted.1), recordAll_other hother]

theorem rebuilt_own {guild : GuildId} {role : RoleId} {e : PresenceEntry}
    (hrow : (presence.rebuilt user places own row clientVersion time).map.get?
      (guild, role, row.pubkey) = some e) : e.lastSeen = time := by
  have hkept : (presence.rebuilt user places own row clientVersion time).map =
      ((presence.recordAll places row clientVersion time).evictOthers
        ((presence.recordAll places row clientVersion time).networksOf row.pubkey) places
        row.pubkey).map := by
    cases own <;> rfl
  rw [hkept, evictOthers_get?] at hrow
  by_cases hplace : (guild, role) ∈ places
  · rw [if_neg (fun hevicted => hevicted.2.2 hplace), recordAll_own (.inl hplace)] at hrow
    cases hrow
    rfl
  · split at hrow
    · cases hrow
    · rename_i hleft
      refine absurd ⟨rfl, ?_, hplace⟩ hleft
      unfold Presence.networksOf
      refine List.mem_map.mpr ⟨(guild, role, row.pubkey), List.mem_filter.mpr ⟨?_, ?_⟩, rfl⟩
      · rw [Table.mem_keys, hrow]
        exact ⟨e, rfl⟩
      · simp

theorem rebuilt_self {key : UserId × PubKey} :
    (key ≠ (user, row.pubkey) →
      (presence.rebuilt user places own row clientVersion time).selfMap.get? key =
        presence.selfMap.get? key) ∧
    (key = (user, row.pubkey) → ∀ e,
      (presence.rebuilt user places own row clientVersion time).selfMap.get? key = some e →
        e.lastSeen = time) := by
  have hkept : ((presence.recordAll places row clientVersion time).evictOthers
      ((presence.recordAll places row clientVersion time).networksOf row.pubkey) places
      row.pubkey).selfMap = presence.selfMap := evictOthers_self.trans recordAll_self
  cases own with
  | true =>
      change (_ → (Table.insert _ (user, row.pubkey) _).get? key = _) ∧
        (_ → ∀ e, (Table.insert _ (user, row.pubkey) _).get? key = some e → _)
      rw [Table.get?_insert]
      refine ⟨fun hother => ?_, fun hsame e hrow => ?_⟩
      · rw [if_neg hother]
        exact congrArg (·.get? key) hkept
      · rw [if_pos hsame] at hrow
        cases hrow
        rfl
  | false =>
      change (_ → (Table.erase _ (user, row.pubkey)).get? key = _) ∧
        (_ → ∀ e, (Table.erase _ (user, row.pubkey)).get? key = some e → _)
      rw [Table.get?_erase]
      refine ⟨fun hother => ?_, fun hsame e hrow => ?_⟩
      · rw [if_neg hother]
        exact congrArg (·.get? key) hkept
      · rw [if_pos hsame] at hrow
        cases hrow

end Presence

end

namespace Deployment

/-! Every row of a device that always has a request in flight is as recent as its last snapshot. -/

structure Recent (hold : Nat) (d : Deployment) : Prop where
  sound : ∀ pubkey flight, d.flights.get? pubkey = some flight → flight.Sound hold d.now
  map : ∀ guild role pubkey flight e, d.flights.get? pubkey = some flight →
    d.presence.map.get? (guild, role, pubkey) = some e → flight.began ≤ e.lastSeen →
      flight.seenAt ≤ e.lastSeen
  selfMap : ∀ pubkey flight e, d.flights.get? pubkey = some flight →
    d.presence.selfMap.get? (flight.user, pubkey) = some e → flight.began ≤ e.lastSeen →
      flight.seenAt ≤ e.lastSeen

theorem Recent.idle : Recent hold idle where
  sound := by
    intro pubkey flight hflight
    cases hflight
  map := by
    intro guild role pubkey flight e hflight
    cases hflight
  selfMap := by
    intro pubkey flight e hflight
    cases hflight

theorem Recent.fewer (hrecent : d.Recent hold) (hnow : d'.now = d.now)
    (hflights : ∀ pubkey flight, d'.flights.get? pubkey = some flight →
      d.flights.get? pubkey = some flight)
    (hmap : ∀ key e, d'.presence.map.get? key = some e → d.presence.map.get? key = some e)
    (hself : ∀ key e, d'.presence.selfMap.get? key = some e →
      d.presence.selfMap.get? key = some e) : d'.Recent hold where
  sound := by
    intro pubkey flight hflight
    rw [hnow]
    exact hrecent.sound pubkey flight (hflights pubkey flight hflight)
  map := by
    intro guild role pubkey flight e hflight hrow
    exact hrecent.map guild role pubkey flight e (hflights pubkey flight hflight) (hmap _ e hrow)
  selfMap := by
    intro pubkey flight e hflight hrow
    exact hrecent.selfMap pubkey flight e (hflights pubkey flight hflight) (hself _ e hrow)

theorem Recent.tick {now' : Nat} (hrecent : d.Recent hold) (hticks : d.onTime hold now' = true) :
    Recent hold { d with now := now' } where
  sound := by
    obtain ⟨hlater, hdue⟩ := Bool.and_eq_true_iff.mp hticks
    intro pubkey flight hflight
    apply (hrecent.sound pubkey flight hflight).later (of_decide_eq_true hlater)
    exact of_decide_eq_true
      (List.all_eq_true.mp hdue flight (Table.mem_values.mpr ⟨pubkey, hflight⟩))
  map := hrecent.map
  selfMap := hrecent.selfMap

theorem Recent.replace {presence' : Presence} {pubkey : PubKey} (hrecent : d.Recent hold)
    (hsound : flight'.Sound hold d.now)
    (hothers : ∀ key : GuildId × RoleId × PubKey, key.2.2 ≠ pubkey →
      presence'.map.get? key = d.presence.map.get? key)
    (hothersSelf : ∀ key : UserId × PubKey, key.2 ≠ pubkey →
      presence'.selfMap.get? key = d.presence.selfMap.get? key)
    (hmap : ∀ guild role e, presence'.map.get? (guild, role, pubkey) = some e →
      flight'.began ≤ e.lastSeen → flight'.seenAt ≤ e.lastSeen)
    (hself : ∀ e, presence'.selfMap.get? (flight'.user, pubkey) = some e →
      flight'.began ≤ e.lastSeen → flight'.seenAt ≤ e.lastSeen) :
    Recent hold { d with
      presence := presence'
      flights := d.flights.insert pubkey flight' } where
  sound := by
    intro other found hfound
    rw [Table.get?_insert] at hfound
    split at hfound
    · cases hfound
      exact hsound
    · exact hrecent.sound other found hfound
  map := by
    intro guild role other found e hfound hrow
    rw [Table.get?_insert] at hfound
    split at hfound
    · rename_i hsame
      cases hfound
      subst hsame
      exact hmap guild role e hrow
    · rename_i hother
      exact hrecent.map guild role other found e hfound
        ((hothers (guild, role, other) hother).symm.trans hrow)
  selfMap := by
    intro other found e hfound hrow
    rw [Table.get?_insert] at hfound
    split at hfound
    · rename_i hsame
      cases hfound
      subst hsame
      exact hself e hrow
    · rename_i hother
      exact hrecent.selfMap other found e hfound
        ((hothersSelf (found.user, other) hother).symm.trans hrow)

theorem Recent.join {pubkey : PubKey} {user : UserId} (hrecent : d.Recent hold) :
    Recent hold { d with
      flights := d.flights.insert pubkey ⟨user, d.now, d.now, .asking, false, d.now⟩ } := by
  have hsound : (Flight.mk user d.now d.now .asking false d.now).Sound hold d.now :=
    .asked (Nat.le_refl _) (Nat.le_add_right _ _) (Nat.le_add_right _ _)
  apply hrecent.replace hsound
  · exact fun _ _ => rfl
  · exact fun _ _ => rfl
  · exact fun _ _ _ _ hbegan => hbegan
  · exact fun _ _ hbegan => hbegan

theorem Recent.advance {pubkey : PubKey} {change : Flight → Option Flight}
    (hrecent : d.Recent hold)
    (hgoes : ∀ flight flight', change flight = some flight' → flight.Goes hold d.now flight')
    (hadvance : d.advance pubkey change = some d') : d'.Recent hold := by
  obtain ⟨flight, hflight, hadvance⟩ := Option.bind_eq_some_iff.mp hadvance
  obtain ⟨flight', hchange, hadvance⟩ := Option.bind_eq_some_iff.mp hadvance
  cases hadvance
  have hgoes := hgoes flight flight' hchange
  apply hrecent.replace (hgoes.sound (hrecent.sound pubkey flight hflight))
  · exact fun _ _ => rfl
  · exact fun _ _ => rfl
  · intro guild role e hrow hbegan
    rw [hgoes.began] at hbegan
    rw [hgoes.seenAt]
    exact hrecent.map guild role pubkey flight e hflight hrow hbegan
  · intro e hrow hbegan
    rw [hgoes.user] at hrow
    rw [hgoes.began] at hbegan
    rw [hgoes.seenAt]
    exact hrecent.selfMap pubkey flight e hflight hrow hbegan

theorem Recent.build {places : List (GuildId × RoleId)} {own : Bool} {row : MemberPresence}
    {clientVersion : String} {time : Nat} (hrecent : d.Recent hold)
    (hflight : d.flights.get? row.pubkey = some flight)
    (hbuild : d.build flight time = some flight') :
    Recent hold { d with
      presence := d.presence.rebuilt flight.user places own row clientVersion time
      flights := d.flights.insert row.pubkey flight' } := by
  obtain ⟨hsound, huser, _, hseen⟩ := build_sound hold hbuild
  apply hrecent.replace (hsound (hrecent.sound _ flight hflight))
  · exact fun key hother => Presence.rebuilt_other hother
  · exact fun key hother => Presence.rebuilt_self.1 fun hsame => hother (congrArg Prod.snd hsame)
  · intro guild role e hrow _
    exact Nat.le_of_eq (hseen.trans (Presence.rebuilt_own hrow).symm)
  · intro e hrow _
    rw [huser] at hrow
    exact Nat.le_of_eq (hseen.trans (Presence.rebuilt_self.2 rfl e hrow).symm)

theorem evicts_fewer (presence : Presence) {o : Presence.Op} (hevicts : o.evicts = true) :
    (∀ key e, (presence.step o).2.map.get? key = some e → presence.map.get? key = some e) ∧
      ∀ key e, (presence.step o).2.selfMap.get? key = some e →
        presence.selfMap.get? key = some e := by
  cases o with
  | evict guild role pubkey =>
      exact ⟨fun key e hrow => Table.get?_of_erase hrow, fun key e hrow => hrow⟩
  | evictSelf user pubkey =>
      exact ⟨fun key e hrow => hrow, fun key e hrow => Table.get?_of_erase hrow⟩
  | evictUser guild role user =>
      exact ⟨fun key e hrow => Table.get?_of_retain hrow, fun key e hrow => hrow⟩
  | _ => cases hevicts

theorem Recent.step (hrecent : d.Recent hold) (hstep : d.step hold event = some d') :
    d'.Recent hold := by
  cases event with
  | clock now' =>
      obtain ⟨hticks, hstep⟩ := Option.ite_none_right_eq_some.mp hstep
      cases hstep
      exact hrecent.tick hticks
  | joined pubkey user =>
      obtain ⟨_, hstep⟩ := Option.ite_none_left_eq_some.mp hstep
      cases hstep
      exact hrecent.join
  | built places own row clientVersion time =>
      obtain ⟨flight, hflight, hstep⟩ := Option.bind_eq_some_iff.mp hstep
      obtain ⟨flight', hbuild, hstep⟩ := Option.bind_eq_some_iff.mp hstep
      cases hstep
      exact hrecent.build hflight hbuild
  | parked pubkey => exact hrecent.advance (fun _ _ => Flight.parks_goes) hstep
  | woken pubkey => exact hrecent.advance (fun _ _ => Flight.wakes_goes) hstep
  | answered pubkey => exact hrecent.advance (fun _ _ => Flight.answers_goes) hstep
  | reissued pubkey => exact hrecent.advance (fun _ _ => Flight.reissues_goes) hstep
  | left pubkey =>
      cases hstep
      exact hrecent.fewer rfl (fun _ _ => Table.get?_of_erase) (fun _ _ hrow => hrow)
        (fun _ _ hrow => hrow)
  | timedOut pubkey =>
      obtain ⟨_, hstep⟩ := Option.ite_none_right_eq_some.mp hstep
      cases hstep
      exact hrecent.fewer rfl (fun _ _ => Table.get?_of_erase) (fun _ _ hrow => hrow)
        (fun _ _ hrow => hrow)
  | evicted o =>
      obtain ⟨hevicts, hstep⟩ := Option.ite_none_right_eq_some.mp hstep
      cases hstep
      obtain ⟨hmap, hself⟩ := evicts_fewer d.presence hevicts
      exact hrecent.fewer rfl (fun _ _ hflight => hflight) hmap hself
  | reapedMap time =>
      obtain ⟨_, hstep⟩ := Option.ite_none_right_eq_some.mp hstep
      cases hstep
      exact hrecent.fewer rfl (fun _ _ hflight => hflight) (fun _ _ => Table.get?_of_retain)
        (fun _ _ hrow => hrow)
  | reapedSelf time =>
      obtain ⟨_, hstep⟩ := Option.ite_none_right_eq_some.mp hstep
      cases hstep
      exact hrecent.fewer rfl (fun _ _ hflight => hflight) (fun _ _ hrow => hrow)
        (fun _ _ => Table.get?_of_retain)
  | reported o =>
      obtain ⟨_, hstep⟩ := Option.ite_none_left_eq_some.mp hstep
      cases hstep
      exact ⟨hrecent.sound, hrecent.map, hrecent.selfMap⟩
  | pruned o =>
      obtain ⟨_, hstep⟩ := Option.ite_none_right_eq_some.mp hstep
      cases hstep
      exact ⟨hrecent.sound, hrecent.map, hrecent.selfMap⟩
  | _ =>
      cases hstep
      exact ⟨hrecent.sound, hrecent.map, hrecent.selfMap⟩

theorem fresh_of_sound {time : Nat} {e : PresenceEntry} (hhold : hold ≤ LONGPOLL_HOLD_SECS)
    (hsound : flight.Sound hold d.now) (hseen : flight.seenAt ≤ e.lastSeen)
    (htime : time ≤ d.now) : Presence.fresh time PRESENCE_TTL_SECS e = true := by
  have hrecent := hsound.recent
  have hslack : REQUEST_SLACK_SECS = 60 := rfl
  have hlong : LONGPOLL_HOLD_SECS = 900 := rfl
  have hage : PRESENCE_TTL_SECS = LONGPOLL_HOLD_SECS * 2 + 60 := rfl
  apply decide_eq_true
  omega

theorem listed_of_not_unlisted {pubkey : PubKey} (hlisted : (!d.unlisted pubkey) = true)
    (hhere : d.inFlight pubkey = true ∨ pubkey ∈ d.listed) : pubkey ∈ d.listed := by
  rcases hhere with hflying | hmem
  · unfold unlisted at hlisted
    rw [hflying, Bool.true_and, Bool.not_not] at hlisted
    exact List.contains_iff_mem.mp hlisted
  · exact hmem

theorem pruned_kept {ν : Type} {table : Table (PubKey × PubKey) ν} {pair : PubKey × PubKey}
    (hlisted : ∀ key ∈ table.keys, (!d.unlisted key.1 && !d.unlisted key.2) = true)
    (hfirst : d.inFlight pair.1 = true ∨ pair.1 ∈ d.listed)
    (hsecond : d.inFlight pair.2 = true ∨ pair.2 ∈ d.listed) :
    (table.retain fun key _ => NatTables.bothPresent d.listed key).get? pair = table.get? pair := by
  rw [Table.get?_retain]
  cases hentry : table.get? pair with
  | none => rfl
  | some value =>
      have hmem : pair ∈ table.keys := Table.mem_keys.mpr ⟨value, hentry⟩
      obtain ⟨hone, htwo⟩ := Bool.and_eq_true_iff.mp (hlisted pair hmem)
      apply Option.filter_eq_some_iff.mpr
      refine ⟨rfl, ?_⟩
      unfold NatTables.bothPresent
      rw [Bool.and_eq_true, List.contains_iff_mem, List.contains_iff_mem]
      exact ⟨listed_of_not_unlisted hone hfirst, listed_of_not_unlisted htwo hsecond⟩

theorem healthy_pruned {o : NatTables.Op} (hfits : d.fits (.pruned o) = true)
    (hstep : d.step hold (.pruned o) = some d') : d.Healthy (.pruned o) d' := by
  obtain ⟨hpresent, hstep⟩ := Option.ite_none_right_eq_some.mp hstep
  cases hstep
  have hall := List.all_eq_true.mp hfits
  intro first second hfirst hsecond
  cases o with
  | pruneRelayAllocs present =>
      obtain rfl : present = d.listed := Option.some.inj hpresent
      exact ⟨pruned_kept (fun key hkey => hall key (List.mem_append_left _ hkey)) hfirst hsecond,
        rfl⟩
  | pruneIce present =>
      obtain rfl : present = d.listed := Option.some.inj hpresent
      exact ⟨rfl,
        pruned_kept (fun key hkey => hall key (List.mem_append_right _ hkey)) hfirst hsecond⟩
  | pruneSourceIp present => exact ⟨rfl, rfl⟩
  | pruneReflexive present => exact ⟨rfl, rfl⟩
  | pruneRelays present => exact ⟨rfl, rfl⟩
  | _ => cases hpresent

theorem healthy_retained (hfits : d.fits .retained = true)
    (hstep : d.step hold .retained = some d') : d.Healthy .retained d' := by
  cases hstep
  intro pubkey waker hflying hwaker hpending
  have howed := List.all_eq_true.mp hfits (pubkey, waker) (Table.mem_rows.mpr hwaker)
  dsimp only at howed
  rw [hpending, Bool.true_and] at howed
  have hlisted := listed_of_not_unlisted howed (.inl hflying)
  change (d.wakers.map.retain _).get? pubkey = some waker
  rw [Table.get?_retain, hwaker]
  apply Option.filter_eq_some_iff.mpr
  exact ⟨rfl, Bool.or_eq_true_iff.mpr (.inl (List.contains_iff_mem.mpr hlisted))⟩

theorem Recent.healthy (hhold : hold ≤ LONGPOLL_HOLD_SECS) (hrecent : d.Recent hold)
    (hfits : d.fits event = true) (hstep : d.step hold event = some d') : d.Healthy event d' := by
  cases event with
  | timedOut pubkey =>
      obtain ⟨hlate, _⟩ := Option.ite_none_right_eq_some.mp hstep
      intro flight hflight parkedAt hheld
      rw [hflight, Option.any_some] at hlate
      have hlate := of_decide_eq_true hlate
      have hdue := (hrecent.sound pubkey flight hflight).timely
      unfold Flight.dueBy at hdue
      rw [hheld] at hdue
      unfold REQUEST_TIMEOUT_SECS at hlate
      dsimp only at hdue
      omega
  | reapedMap time =>
      obtain ⟨htime, hstep⟩ := Option.ite_none_right_eq_some.mp hstep
      cases hstep
      intro guild role pubkey flight e hflight hrow hbegan
      have hseen := hrecent.map guild role pubkey flight e hflight hrow hbegan
      change (d.presence.map.retain _).get? _ = some e
      rw [Table.get?_retain, hrow]
      apply Option.filter_eq_some_iff.mpr
      exact ⟨rfl, fresh_of_sound hhold (hrecent.sound pubkey flight hflight) hseen htime⟩
  | reapedSelf time =>
      obtain ⟨htime, hstep⟩ := Option.ite_none_right_eq_some.mp hstep
      cases hstep
      intro pubkey flight e hflight hrow hbegan
      have hseen := hrecent.selfMap pubkey flight e hflight hrow hbegan
      change (d.presence.selfMap.retain _).get? _ = some e
      rw [Table.get?_retain, hrow]
      apply Option.filter_eq_some_iff.mpr
      exact ⟨rfl, fresh_of_sound hhold (hrecent.sound pubkey flight hflight) hseen htime⟩
  | pruned o => exact healthy_pruned hfits hstep
  | retained => exact healthy_retained hfits hstep
  | _ => trivial

def heldDevice : MemberPresence := ⟨1, 0, 1, "", "", false, none⟩

def heldRun : List HoldEvent :=
  [.joined 1 1, .clock 60, .built [] false heldDevice "" 60, .parked 1]

theorem heldRun_held (hold : Nat) :
    ∃ t, runs (step hold) Deployment.idle heldRun = some t ∧ t.now = 60 ∧
    t.flights.values = [⟨1, 0, 0, .held 60, true, 60⟩] ∧
    t.flights.get? 1 = some ⟨1, 0, 0, .held 60, true, 60⟩ :=
  ⟨_, rfl, rfl, rfl, rfl⟩

theorem heldRun_fits : meets (step hold) fits Deployment.idle
    (heldRun ++ [.clock 961] ++ [.timedOut 1]) = true := by
  rw [meets_iff]
  intro before event t t' hinit _ _
  have hevent : event ∈ heldRun ++ [.clock 961] ++ [.timedOut 1] := hinit.subset (by simp)
  simp only [heldRun, List.cons_append, List.nil_append, List.mem_cons, List.not_mem_nil,
    or_false] at hevent
  rcases hevent with rfl | rfl | rfl | rfl | rfl | rfl <;> rfl

theorem held_times_out (hhold : LONGPOLL_HOLD_SECS < hold) :
    ¬ AtEach (step hold) Deployment.idle (heldRun ++ [.clock 961] ++ [.timedOut 1]) Healthy := by
  obtain ⟨t, hrun, hnow, hvalues, hflight⟩ := heldRun_held hold
  have hticks : t.onTime hold 961 = true := by
    unfold onTime
    rw [hnow, hvalues, Bool.and_eq_true, List.all_eq_true]
    refine ⟨rfl, fun flight hflight => ?_⟩
    obtain rfl := List.mem_singleton.mp hflight
    have hlong : LONGPOLL_HOLD_SECS = 900 := rfl
    apply decide_eq_true
    change 961 ≤ 0 + 60 + hold
    omega
  have hclock : t.step hold (.clock 961) = some { t with now := 961 } := if_pos hticks
  have hlast : step hold { t with now := 961 } (.timedOut 1) =
      some { t with now := 961, flights := t.flights.erase 1 } := by
    apply if_pos
    change (t.flights.get? 1).any _ = true
    rw [hflight]
    rfl
  have hbefore : runs (step hold) Deployment.idle (heldRun ++ [.clock 961]) =
      some { t with now := 961 } := by
    rw [runs_snoc, hrun]
    exact hclock
  intro hall
  exact hall _ _ _ _ (List.prefix_refl _) hbefore hlast _ hflight 60 rfl

end Deployment

/-- As long as the reaper has every device listed that it prunes, no hold looks like an absence if
and only if it is no longer than the hold of the default lifetime. -/
theorem holds_complete (attestationTtlSecs : Nat) :
    (∀ events, meets (Deployment.step (longpollHoldSecs attestationTtlSecs)) Deployment.fits
        Deployment.idle events = true →
      AtEach (Deployment.step (longpollHoldSecs attestationTtlSecs)) Deployment.idle events
        Deployment.Healthy) ↔
      attestationTtlSecs / 2 ≤ LONGPOLL_HOLD_SECS := by
  have hlong : LONGPOLL_HOLD_SECS = 900 := rfl
  constructor
  · intro hall
    rcases Nat.lt_or_ge LONGPOLL_HOLD_SECS (longpollHoldSecs attestationTtlSecs) with
      hlonger | hhold
    · exact absurd (hall _ Deployment.heldRun_fits) (Deployment.held_times_out hlonger)
    · unfold longpollHoldSecs at hhold
      omega
  · intro hhold events hmeets
    have hshort : longpollHoldSecs attestationTtlSecs ≤ LONGPOLL_HOLD_SECS := by
      unfold longpollHoldSecs
      omega
    refine AtEach.of_meets (Deployment.Recent (longpollHoldSecs attestationTtlSecs)) hmeets
      Deployment.Recent.idle ?_ ?_
    · exact fun d event d' hrecent _ hstep => hrecent.step hstep
    · exact fun d event d' hrecent hfits hstep => hrecent.healthy hshort hfits hstep

/-- A week of lifetime holds every idle engine until it gives up. -/
theorem week_times_out : acceptsTtl (7 * 24 * 60 * 60) = true ∧
    ¬ ∀ events, AtEach (Deployment.step (longpollHoldSecs (7 * 24 * 60 * 60))) Deployment.idle
      events Deployment.Healthy := by
  refine ⟨by decide, fun hall => ?_⟩
  exact Deployment.held_times_out (by decide) (hall _)

end

end UnityLan.Coordinator
