import UnityLan.Coordinator.Dashboard

namespace UnityLan.Coordinator.Dashboard

open UnityLan.Foundation Prog

/-! Whether the version of what the operator is shown vouches for the presence it was made from. -/

/-- A change of presence: whether its scope was bumped for it, and the number of the global version
that counts it. -/
structure Change where
  place : Place
  author : Nat
  announced : Bool := false
  counted : Option Nat := none
  deriving DecidableEq

/-- What one response was made from. -/
structure Reading where
  presence : Presence
  /-- The changes made after presence was read. -/
  later : List Change := []
  version : Option Nat := none

structure Sent where
  reply : AdminReply
  reading : Reading

structure Watch where
  readings : Table Nat Reading := ∅
  answered : List Sent := []
  /-- A response was sent for which presence was not read. -/
  blind : Bool := false

namespace Change

def bumped (author : Nat) (scope : Scope) (change : Change) : Change :=
  if change.author = author ∧ change.place.scope = scope then { change with announced := true }
  else change

def due (author : Nat) (change : Change) : Bool :=
  change.author == author && change.announced && change.counted.isNone

def count (author number : Nat) (change : Change) : Change :=
  if change.due author then { change with counted := some number } else change

end Change

namespace Reading

def changed (author : Nat) (places : List Place) (r : Reading) : Reading :=
  { r with later := r.later ++ places.map fun place => { place, author } }

def each (edit : Change → Change) (r : Reading) : Reading :=
  { r with later := r.later.map edit }

/-- A global bump would count a change that the response has missed, before its version is
read. -/
def misses (author : Nat) (r : Reading) : Bool :=
  r.version.isNone && r.later.any (Change.due author)

end Reading

namespace Watch

def reads (w : Watch) (task : Nat) (presence : Presence) : Watch :=
  { w with readings := w.readings.insert task { presence } }

def versioned (w : Watch) (task version : Nat) : Watch :=
  { w with readings := w.readings.modify task fun r => { r with version := some version } }

def everywhere (w : Watch) (edit : Reading → Reading) : Watch :=
  { w with
    readings := w.readings.mapValues fun _ => edit
    answered := w.answered.map fun sent => { sent with reading := edit sent.reading } }

def answer (w : Watch) (task : Nat) (reply : AdminReply) : Watch :=
  match w.readings.get? task with
  | some r => { w with answered := ⟨reply, r⟩ :: w.answered }
  | none => { w with blind := true }

def gone (w : Watch) (task : Nat) : Watch :=
  { w with readings := w.readings.erase task }

def did (w : Watch) (st : AppState) (task : Nat) :
    (o : (sig.sum adminSig).Op) → (sig.sum adminSig).Res o → Watch
  | .inr .stats, _ => w.reads task st.presence
  | .inr .membership, _ => w.reads task st.presence
  | .inr .global, version => w.versioned task version
  | .inl (.presence p), answer =>
      w.everywhere (.changed task (st.presence.changedPlaces p answer))
  | .inl (.versions (.bump scope)), _ => w.everywhere (.each (Change.bumped task scope))
  | .inl (.versions .bumpGlobal), _ =>
      w.everywhere (.each (Change.count task (st.versions.global + 1)))
  | _, _ => w

end Watch

variable (surface : Surface) (conf : Conf)

def watch : Machine.Observer (operated surface conf) Watch where
  see := fun w st event _ =>
    match event with
    | .did task o answer => w.did st.1 task o answer
    | .ended task _ (.ok (.inr reply)) => (w.answer task reply).gone task
    | .ended task _ _ => w.gone task
    | .dropped task _ => w.gone task
    | _ => w

/-- No global bump counts a change to a response that has read presence before the change and reads
its version after the bump. -/
def noLateCount (w : Watch) (_ : (operated surface conf).State) :
    (operated surface conf).Event → Bool
  | .did task (.inl (.versions .bumpGlobal)) _ =>
      w.readings.rows.all fun row => !row.2.misses task
  | _ => true

/-! The property. -/

inductive Seen
  | stats (pres : PresenceStats)
  | edges (membership : List Edge)

def Seen.Of (presence : Presence) : Seen → Prop
  | .stats pres => pres = statsOf presence.map.rows presence.selfMap.rows
  | .edges membership => membership = membershipOf presence.map.rows

def AdminReply.MadeFrom (seen : Seen) : AdminReply → Prop
  | .stats json => ∃ networks enrolled names waiters pres, seen = .stats pres ∧
      json = statsJson (assemble networks enrolled names waiters json.version pres)
  | .graph json => ∃ seed networks names edges, seen = .edges edges ∧
      json = graphJson surface.anonLabel seed networks edges names json.version

/-- The response shows a presence, no change that its version counts is missing from that, and
where nothing has changed since it is as it stands. -/
structure Sent.Reflects (sent : Sent) (st : AppState) : Prop where
  shows : ∃ seen : Seen, seen.Of sent.reading.presence ∧ sent.reply.MadeFrom surface seen
  counted : ∀ change ∈ sent.reading.later, ∀ number, change.counted = some number →
    sent.reply.version < number
  current : ∀ place, (∀ change ∈ sent.reading.later, change.place ≠ place) →
    ∀ pubkey, sent.reading.presence.rowAt place pubkey = st.presence.rowAt place pubkey

/-- The response shows all that any global bump has counted so far. -/
def Sent.UpToDate (sent : Sent) : Prop :=
  ∀ change ∈ sent.reading.later, change.counted = none

variable {surface conf} in
/-- A client that echoes a version is held, and the version has not moved. -/
def HeldOn (c : (operated surface conf).Config) (task since : Nat) : Prop :=
  (∃ authorization seen deadline next resting,
    c.tasks task = some ⟨.inr (.stats authorization (some since)),
      .op (.inr (.changed seen deadline)) next, resting⟩) ∧
  c.shared.1.versions.global = since

/-! The monitor of a response: it reads its version once, after presence. -/

structure Sight where
  seen : Seen
  version : Option Nat := none

namespace Sight

def allows (m : Option Sight) : (sig.sum adminSig).Op → Prop
  | .inr .global => ∀ sight, m = some sight → sight.version = none
  | _ => True

def next (m : Option Sight) : (o : (sig.sum adminSig).Op) → (sig.sum adminSig).Res o → Option Sight
  | .inr .stats, pres => some { seen := .stats pres }
  | .inr .membership, edges => some { seen := .edges edges }
  | .inr .global, version => m.map fun sight => { sight with version := some version }
  | _, _ => m

def mon : Monitor (sig.sum adminSig) (Option Sight) where
  allows := allows
  expects := fun _ _ _ => True
  next := next

def Answers (surface : Surface) (m : Option Sight) (reply : AdminReply) : Prop :=
  ∃ seen, m = some ⟨seen, some reply.version⟩ ∧ reply.MadeFrom surface seen

end Sight

section

variable {surface conf} {m : Option Sight} {α : Type}

open Sight

theorem allows_global_none : mon.allows none (.inr .global) :=
  fun _ hnone => nomatch hnone

theorem allows_global_fresh (seen : Seen) : mon.allows (some ⟨seen, none⟩) (.inr .global) := by
  rintro sight ⟨⟩
  rfl

theorem left_same (program : Prog sig ApiError α) (m : Option Sight) :
    program.left.Conforms mon (returns fun m' _ => m' = m) m := by
  rw [conforms_left]
  refine ((uses_all program).conforms fun o _ => ⟨trivial, fun _ => rfl⟩).mono ?_
  intro m' result hsame
  cases result with
  | ok _ => exact hsame
  | error _ => trivial

theorem read_conforms (o : AdminOp) (hallowed : mon.allows m (.inr o)) :
    (read o).Conforms mon (returns fun m' answer => m' = mon.next m (.inr o) answer) m :=
  ⟨hallowed, fun _ _ => rfl⟩

theorem stored_same {o : AdminHandler (Except StoreError α)}
    (hsame : o.Conforms mon (returns fun m' _ => m' = m) m) :
    (stored o).Conforms mon (returns fun m' _ => m' = m) m := by
  unfold stored
  refine hsame.andThen fun m' answer hm => ?_
  cases answer with
  | ok value => exact hm
  | error error => trivial

theorem allNetworks_same (m : Option Sight) :
    allNetworks.Conforms mon (returns fun m' _ => m' = m) m :=
  left_same _ m

theorem guildNames_same (ids : List GuildId) (m : Option Sight) :
    (guildNames ids).Conforms mon (returns fun m' _ => m' = m) m := by
  induction ids with
  | nil => rfl
  | cons id rest ih =>
      unfold guildNames
      refine (left_same _ m).andThen fun m₁ name hsame => ?_
      subst hsame
      exact ih.andThen fun m₂ names hsame => hsame

theorem seed_same (m : Option Sight) :
    loadOrCreateDeploymentSeed.Conforms mon (returns fun m' _ => m' = m) m := by
  unfold loadOrCreateDeploymentSeed
  refine (stored_same (read_conforms .deploymentSeed trivial)).andThen fun m₁ found hsame => ?_
  subst hsame
  cases found with
  | some seed => rfl
  | none =>
      refine (left_same _ m₁).andThen fun m₂ seed hsame => ?_
      subst hsame
      exact (stored_same (read_conforms (.insertDeploymentSeed seed) trivial)).andThen
        fun m₃ _ hsame => hsame

theorem waitLoop_none (since deadline rounds : Nat) :
    (waitLoop since deadline rounds).Conforms mon (returns fun m' _ => m' = none) none := by
  induction rounds with
  | zero =>
      unfold waitLoop
      exact (left_same _ none).andThen fun _ answer _ => nomatch answer
  | succ rounds ih =>
      unfold waitLoop
      refine (read_conforms .global allows_global_none).andThen fun m₁ seen hsame => ?_
      subst hsame
      split
      · rfl
      · refine (read_conforms (.changed seen deadline) trivial).andThen fun m₂ moved hsame => ?_
        subst hsame
        split
        · exact ih
        · rfl

theorem wait_none (since hold : Nat) :
    (waitForChangeUntil since hold).Conforms mon (returns fun m' _ => m' = none) none := by
  unfold waitForChangeUntil
  refine (left_same _ none).andThen fun m₁ started hsame => ?_
  subst hsame
  refine (left_same _ none).andThen fun m₂ rounds hsame => ?_
  subst hsame
  exact waitLoop_none since (started + hold) rounds

theorem gatherStats_answers (m : Option Sight) :
    gatherStats.Conforms mon
      (returns fun m' s => Answers surface m' (.stats (statsJson s))) m := by
  unfold gatherStats
  refine (allNetworks_same m).andThen fun m₁ networks hsame => ?_
  subst hsame
  refine (stored_same (read_conforms .countDevices trivial)).andThen fun m₂ enrolled hsame => ?_
  subst hsame
  refine (stored_same (read_conforms .guildIds trivial)).andThen fun m₃ guildIds hsame => ?_
  subst hsame
  refine (read_conforms .stats trivial).andThen fun m₄ pres hsame => ?_
  subst hsame
  refine (guildNames_same _ _).andThen fun m₅ names hsame => ?_
  subst hsame
  refine (read_conforms .waiters trivial).andThen fun m₆ waiters hsame => ?_
  subst hsame
  refine (read_conforms .global (allows_global_fresh _)).andThen fun m₇ version hsame => ?_
  subst hsame
  exact ⟨.stats pres, rfl, networks, enrolled, names, waiters, pres, rfl, rfl⟩

theorem buildGraph_answers (m : Option Sight) :
    (buildGraph surface).Conforms mon
      (returns fun m' json => Answers surface m' (.graph json)) m := by
  unfold buildGraph
  refine (seed_same m).andThen fun m₁ seed hsame => ?_
  subst hsame
  refine (allNetworks_same _).andThen fun m₂ networks hsame => ?_
  subst hsame
  refine (read_conforms .membership trivial).andThen fun m₃ membership hsame => ?_
  subst hsame
  refine (guildNames_same _ _).andThen fun m₄ names hsame => ?_
  subst hsame
  refine (read_conforms .global (allows_global_fresh _)).andThen fun m₅ version hsame => ?_
  subst hsame
  exact ⟨.edges membership, rfl, seed, networks, _, membership, rfl, rfl⟩

theorem adminAuth_same (authorization : Option String) (m : Option Sight) :
    (adminAuth surface authorization).Conforms mon (returns fun m' _ => m' = m) m := by
  unfold adminAuth
  split
  · trivial
  · split
    · rfl
    · trivial

theorem handleAdmin_answers (call : AdminCall) :
    (handleAdmin surface call).Conforms mon (returns (Answers surface)) none := by
  cases call with
  | stats authorization since =>
      unfold handleAdmin adminStats
      refine Conforms.through (fun m' json => Answers surface m' (.stats json)) ?_
        fun m' json hjson => hjson
      refine (adminAuth_same authorization none).andThen fun m₁ _ hsame => ?_
      subst hsame
      refine (read_conforms .global allows_global_none).andThen fun m₂ version hsame => ?_
      subst hsame
      split
      · refine (wait_none _ _).andThen fun m₃ _ hsame => ?_
        subst hsame
        exact (gatherStats_answers none).andThen fun m₄ s hs => hs
      · exact (gatherStats_answers none).andThen fun m₄ s hs => hs
  | graph authorization =>
      unfold handleAdmin adminGraph
      refine Conforms.through (fun m' json => Answers surface m' (.graph json)) ?_
        fun m' json hjson => hjson
      refine (adminAuth_same authorization none).andThen fun m₁ _ hsame => ?_
      subst hsame
      exact buildGraph_answers none

def answersPost (surface : Surface) (m : Option Sight) :
    Except ApiError (Reply ⊕ AdminReply) → Prop
  | .ok (.inr reply) => Answers surface m reply
  | _ => True

theorem start_answers (call : (operated surface conf).Call) :
    ((operated surface conf).start call).Conforms mon (fun m' => answersPost surface m') none := by
  have hreturned : ((operated surface conf).start call).Conforms mon
      (returns fun m' reply => answersPost surface m' (.ok reply)) none := by
    cases call with
    | inl call => exact (left_same _ none).andThen fun _ _ _ => trivial
    | inr call => exact (handleAdmin_answers call).andThen fun _ _ hreply => hreply
  refine hreturned.mono fun m' result hresult => ?_
  cases result with
  | ok reply => exact hresult
  | error error => trivial

end

/-! The invariant. -/

structure Reading.Sound (r : Reading) (st : AppState) : Prop where
  unread : r.version = none → ∀ change ∈ r.later, change.counted = none
  above : ∀ version, r.version = some version →
    ∀ change ∈ r.later, ∀ number, change.counted = some number → version < number
  read : ∀ version, r.version = some version → version ≤ st.versions.global
  numbered : ∀ change ∈ r.later, ∀ number, change.counted = some number →
    number ≤ st.versions.global
  current : ∀ place, (∀ change ∈ r.later, change.place ≠ place) →
    ∀ pubkey, r.presence.rowAt place pubkey = st.presence.rowAt place pubkey

structure Follows (r : Reading) (sight : Sight) : Prop where
  seen : sight.seen.Of r.presence
  version : r.version = sight.version

structure Sent.Made (surface : Surface) (sent : Sent) : Prop where
  version : sent.reading.version = some sent.reply.version
  shows : ∃ seen : Seen, seen.Of sent.reading.presence ∧ sent.reply.MadeFrom surface seen

variable {surface conf} in
structure WatchInv (w : Watch) (st : AppState)
    (views : Nat → Option ((operated surface conf).Call × Option Sight)) : Prop where
  follows : Machine.Shadows Follows w.readings views
  sound : ∀ task r, w.readings.get? task = some r → r.Sound st
  answered : ∀ sent ∈ w.answered, sent.reading.Sound st ∧ sent.Made surface
  sighted : w.blind = false

section

variable {surface conf} {w : Watch} {st st' : AppState} {r : Reading} {task author number : Nat}
  {scope : Scope} {views : Nat → Option ((operated surface conf).Call × Option Sight)}
  {call : (operated surface conf).Call} {m : Option Sight} {choice : Choice}

theorem Reading.Sound.of_state (hsound : r.Sound st)
    (hglobal : st.versions.global ≤ st'.versions.global) (hpresence : st'.presence = st.presence) :
    r.Sound st' where
  unread := hsound.unread
  above := hsound.above
  read := fun version hversion => (hsound.read version hversion).trans hglobal
  numbered := fun change hchange number hnumber =>
    (hsound.numbered change hchange number hnumber).trans hglobal
  current := by
    rw [hpresence]
    exact hsound.current

theorem Reading.Sound.begin (st : AppState) :
    ({ presence := st.presence } : Reading).Sound st where
  unread := fun _ _ hchange => nomatch hchange
  above := fun _ hversion => nomatch hversion
  read := fun _ hversion => nomatch hversion
  numbered := fun _ hchange => nomatch hchange
  current := fun _ _ _ => rfl

theorem Reading.Sound.versioned (hsound : r.Sound st) (hunread : r.version = none) :
    ({ r with version := some st.versions.global } : Reading).Sound st where
  unread := fun hversion => nomatch hversion
  above := by
    intro version _ change hchange number hnumber
    rw [hsound.unread hunread change hchange] at hnumber
    cases hnumber
  read := by
    rintro version ⟨⟩
    exact Nat.le_refl _
  numbered := hsound.numbered
  current := hsound.current

theorem Reading.Sound.changed {p : Presence.Op} (hsound : r.Sound st)
    (hversions : st'.versions = st.versions) (hstep : (st.presence.step p).2 = st'.presence) :
    (r.changed author (st.presence.changedPlaces p (st.presence.step p).1)).Sound st' := by
  have hnew : ∀ change ∈ (r.changed author
      (st.presence.changedPlaces p (st.presence.step p).1)).later,
      change ∈ r.later ∨ change.counted = none := by
    intro change hchange
    rcases List.mem_append.mp hchange with hold | hadded
    · exact .inl hold
    · obtain ⟨place, _, rfl⟩ := List.mem_map.mp hadded
      exact .inr rfl
  constructor
  · intro hversion change hchange
    rcases hnew change hchange with hold | huncounted
    · exact hsound.unread hversion change hold
    · exact huncounted
  · intro version hversion change hchange number hnumber
    rcases hnew change hchange with hold | huncounted
    · exact hsound.above version hversion change hold number hnumber
    · rw [huncounted] at hnumber
      cases hnumber
  · rw [hversions]
    exact hsound.read
  · intro change hchange number hnumber
    rw [hversions]
    rcases hnew change hchange with hold | huncounted
    · exact hsound.numbered change hold number hnumber
    · rw [huncounted] at hnumber
      cases hnumber
  · intro place hkept pubkey
    have hplace : place ∉ st.presence.changedPlaces p (st.presence.step p).1 := by
      intro hplace
      have hadded := List.mem_append_right r.later
        (List.mem_map_of_mem (f := fun place => ({ place, author } : Change)) hplace)
      exact hkept _ hadded rfl
    rw [← hstep, Presence.rowAt_step hplace]
    exact hsound.current place (fun change hchange =>
      hkept change (List.mem_append_left _ hchange)) pubkey

theorem Reading.Sound.each {edit : Change → Change} (hsound : r.Sound st)
    (hpresence : st'.presence = st.presence)
    (hglobal : st.versions.global ≤ st'.versions.global)
    (hplace : ∀ change, (edit change).place = change.place)
    (hcounted : ∀ change ∈ r.later, (edit change).counted = change.counted ∨
      r.version ≠ none ∧ (edit change).counted = some st'.versions.global ∧
        st.versions.global < st'.versions.global) :
    (r.each edit).Sound st' := by
  constructor
  · intro hversion change hchange
    obtain ⟨old, hold, rfl⟩ := List.mem_map.mp hchange
    rcases hcounted old hold with hsame | ⟨hread, _, _⟩
    · rw [hsame]
      exact hsound.unread hversion old hold
    · exact absurd hversion hread
  · intro version hversion change hchange number hnumber
    obtain ⟨old, hold, rfl⟩ := List.mem_map.mp hchange
    rcases hcounted old hold with hsame | ⟨_, hnow, hgrows⟩
    · rw [hsame] at hnumber
      exact hsound.above version hversion old hold number hnumber
    · rw [hnow, Option.some.injEq] at hnumber
      have hread := hsound.read version hversion
      omega
  · exact fun version hversion => (hsound.read version hversion).trans hglobal
  · intro change hchange number hnumber
    obtain ⟨old, hold, rfl⟩ := List.mem_map.mp hchange
    rcases hcounted old hold with hsame | ⟨_, hnow, _⟩
    · rw [hsame] at hnumber
      exact (hsound.numbered old hold number hnumber).trans hglobal
    · rw [hnow, Option.some.injEq] at hnumber
      exact hnumber.ge
  · intro place hkept pubkey
    rw [hpresence]
    refine hsound.current place (fun old hold => ?_) pubkey
    rw [← hplace old]
    exact hkept _ (List.mem_map_of_mem hold)

theorem Reading.Sound.bumped (hsound : r.Sound st) (hpresence : st'.presence = st.presence)
    (hglobal : st'.versions.global = st.versions.global) :
    (r.each (Change.bumped author scope)).Sound st' := by
  apply hsound.each hpresence hglobal.ge
  · intro change
    unfold Change.bumped
    split <;> rfl
  · intro change _
    unfold Change.bumped
    split <;> exact .inl rfl

theorem Reading.Sound.count (hsound : r.Sound st) (hpresence : st'.presence = st.presence)
    (hglobal : st'.versions.global = st.versions.global + 1) (hmisses : r.misses author = false) :
    (r.each (Change.count author (st.versions.global + 1))).Sound st' := by
  apply hsound.each hpresence (by omega)
  · intro change
    unfold Change.count
    split <;> rfl
  · intro change hchange
    unfold Change.count
    split
    · rename_i hdue
      refine .inr ⟨fun hunread => ?_, by rw [hglobal], by omega⟩
      have hmissed : r.misses author = true := by
        rw [Reading.misses, hunread]
        exact List.any_eq_true.mpr ⟨change, hchange, hdue⟩
      rw [hmisses] at hmissed
      cases hmissed
    · exact .inl rfl

theorem WatchInv.everywhere {edit : Reading → Reading} (hinv : WatchInv w st views)
    (hpresence : ∀ r, (edit r).presence = r.presence)
    (hversion : ∀ r, (edit r).version = r.version)
    (hreadings : ∀ task r, w.readings.get? task = some r → (edit r).Sound st')
    (hanswered : ∀ sent ∈ w.answered, (edit sent.reading).Sound st') :
    WatchInv (w.everywhere edit) st' views where
  follows := by
    intro other
    have hrel := hinv.follows other
    rw [Watch.everywhere, Table.get?_mapValues]
    generalize w.readings.get? other = found at hrel ⊢
    generalize (views other).bind Prod.snd = sight at hrel ⊢
    cases hrel with
    | some hfollows =>
        refine .some ⟨?_, (hversion _).trans hfollows.version⟩
        rw [hpresence]
        exact hfollows.seen
    | none => exact .none
  sound := by
    intro other r hr
    rw [Watch.everywhere, Table.get?_mapValues] at hr
    obtain ⟨old, hold, rfl⟩ := Option.map_eq_some_iff.mp hr
    exact hreadings other old hold
  answered := by
    intro sent hsent
    obtain ⟨old, hold, rfl⟩ := List.mem_map.mp hsent
    obtain ⟨hread, hshows⟩ := (hinv.answered old hold).2
    refine ⟨hanswered old hold, ?_, ?_⟩
    · exact (hversion old.reading).trans hread
    · change ∃ seen : Seen, seen.Of (edit old.reading).presence ∧ _
      rw [hpresence]
      exact hshows
  sighted := hinv.sighted

theorem WatchInv.of_state (hinv : WatchInv w st views)
    (hglobal : st.versions.global ≤ st'.versions.global) (hpresence : st'.presence = st.presence) :
    WatchInv w st' views where
  follows := hinv.follows
  sound := fun other r hr => (hinv.sound other r hr).of_state hglobal hpresence
  answered := fun sent hsent =>
    ⟨(hinv.answered sent hsent).1.of_state hglobal hpresence, (hinv.answered sent hsent).2⟩
  sighted := hinv.sighted

theorem WatchInv.reads {seen : Seen} (hinv : WatchInv w st views) (hseen : seen.Of st.presence) :
    WatchInv (w.reads task st.presence) st
      (Function.update views task (some (call, some { seen }))) where
  follows := hinv.follows.begin ⟨hseen, rfl⟩
  sound := by
    intro other r hr
    rw [Watch.reads, Table.get?_insert] at hr
    split at hr
    · cases hr
      exact Reading.Sound.begin st
    · exact hinv.sound other r hr
  answered := hinv.answered
  sighted := hinv.sighted

theorem WatchInv.versioned (hinv : WatchInv w st views) (hview : views task = some (call, m))
    (hallows : Sight.mon.allows m (.inr .global)) :
    WatchInv (w.versioned task st.versions.global) st
      (Function.update views task
        (some (call, Sight.mon.next m (.inr .global) st.versions.global))) where
  follows := hinv.follows.follow hview fun _ _ hfollows => ⟨hfollows.seen, rfl⟩
  sound := by
    intro other r hr
    rw [Watch.versioned, Table.get?_modify] at hr
    split at hr
    · obtain ⟨old, hold, rfl⟩ := Option.map_eq_some_iff.mp hr
      refine (hinv.sound task old hold).versioned ?_
      cases m with
      | none =>
          rw [hinv.follows.ignored hview] at hold
          cases hold
      | some sight =>
          obtain ⟨found, hfound, hfollows⟩ := hinv.follows.followed hview
          rw [hold, Option.some.injEq] at hfound
          rw [hfound, hfollows.version]
          exact hallows sight rfl
    · exact hinv.sound other r hr
  answered := hinv.answered
  sighted := hinv.sighted

theorem WatchInv.gone (hinv : WatchInv w st views)
    (hglobal : st.versions.global = st'.versions.global) (hpresence : st'.presence = st.presence) :
    WatchInv (w.gone task) st' (Function.update views task none) where
  follows := hinv.follows.forget
  sound := by
    intro other r hr
    exact (hinv.sound other r (Table.get?_of_erase hr)).of_state hglobal.le hpresence
  answered := (hinv.of_state hglobal.le hpresence).answered
  sighted := hinv.sighted

theorem WatchInv.answer {reply : AdminReply} (hinv : WatchInv w st views)
    (hview : views task = some (call, m)) (hanswers : Sight.Answers surface m reply) :
    WatchInv (w.answer task reply) st views := by
  obtain ⟨seen, rfl, hmade⟩ := hanswers
  obtain ⟨r, hr, hfollows⟩ := hinv.follows.followed hview
  unfold Watch.answer
  rw [hr]
  refine ⟨hinv.follows, hinv.sound, fun sent hsent => ?_, hinv.sighted⟩
  rcases List.mem_cons.mp hsent with rfl | hold
  · exact ⟨hinv.sound task r hr, hfollows.version, seen, hfollows.seen, hmade⟩
  · exact hinv.answered sent hold

theorem WatchInv.did_left {o : Op} {answer : o.Res} (hinv : WatchInv w st views)
    (hexec : AppState.exec conf task o choice st = some (answer, st'))
    (hallowed : o = .versions .bumpGlobal →
      ∀ other r, w.readings.get? other = some r → r.misses task = false) :
    WatchInv (w.did st task (.inl o) answer) st' views := by
  have hframe := AppState.exec_frame hexec
  cases o with
  | presence p =>
      have hstep := AppState.exec_presence hexec
      have hversions : st'.versions = st.versions := hframe.versions nofun
      obtain rfl : (st.presence.step p).1 = answer := congrArg Prod.fst hstep
      have hafter : (st.presence.step p).2 = st'.presence := congrArg Prod.snd hstep
      refine hinv.everywhere (fun _ => rfl) (fun _ => rfl) ?_ ?_
      · exact fun other r hr => (hinv.sound other r hr).changed hversions hafter
      · exact fun sent hsent => (hinv.answered sent hsent).1.changed hversions hafter
  | versions v =>
      have hpresence : st'.presence = st.presence := hframe.presence nofun
      have hstep : (st.versions.step v).2 = st'.versions := by
        cases hexec
        rfl
      cases v with
      | bump scope =>
          have hglobal : st'.versions.global = st.versions.global := by
            rw [← hstep]
            rfl
          refine hinv.everywhere (fun _ => rfl) (fun _ => rfl) ?_ ?_
          · exact fun other r hr => (hinv.sound other r hr).bumped hpresence hglobal
          · exact fun sent hsent => (hinv.answered sent hsent).1.bumped hpresence hglobal
      | bumpGlobal =>
          have hglobal : st'.versions.global = st.versions.global + 1 := by
            rw [← hstep]
            rfl
          refine hinv.everywhere (fun _ => rfl) (fun _ => rfl) ?_ ?_
          · exact fun other r hr =>
              (hinv.sound other r hr).count hpresence hglobal (hallowed rfl other r hr)
          · intro sent hsent
            have hread : sent.reading.misses task = false := by
              rw [Reading.misses, (hinv.answered sent hsent).2.version]
              rfl
            exact (hinv.answered sent hsent).1.count hpresence hglobal hread
      | subscribe scope =>
          refine hinv.of_state (Nat.le_of_eq ?_) hpresence
          rw [← hstep]
          rfl
      | counter scope =>
          refine hinv.of_state (Nat.le_of_eq ?_) hpresence
          rw [← hstep]
          rfl
  | _ =>
      refine hinv.of_state (Nat.le_of_eq ?_) (hframe.presence nofun)
      rw [hframe.versions nofun]

theorem WatchInv.did {state state' : (operated surface conf).State} {o : (sig.sum adminSig).Op}
    {answer : (sig.sum adminSig).Res o} (hinv : WatchInv w state.1 views)
    (hview : views task = some (call, m)) (hallows : Sight.mon.allows m o)
    (hexec : (operated surface conf).exec task o choice state = some (answer, state'))
    (hallowed : noLateCount surface conf w state (.did task o answer) = true) :
    WatchInv (w.did state.1 task o answer) state'.1
      (Function.update views task (some (call, Sight.mon.next m o answer))) := by
  cases o with
  | inl o =>
      have hsame : Function.update views task (some (call, Sight.mon.next m (.inl o) answer)) =
          views := by
        rw [Function.update_eq_self_iff]
        exact hview.symm
      rw [hsame]
      refine hinv.did_left (Machine.exec_left hexec).1 ?_
      rintro rfl other r hr
      have hrow := List.all_eq_true.mp hallowed _ (Table.mem_rows.mpr hr)
      simpa using hrow
  | inr o =>
      obtain ⟨hright, hsame⟩ := Machine.exec_right hexec
      rw [hsame]
      have hquiet : Sight.mon.next m (.inr o) answer = m → w.did state.1 task (.inr o) answer = w →
          WatchInv (w.did state.1 task (.inr o) answer) state.1
            (Function.update views task (some (call, Sight.mon.next m (.inr o) answer))) := by
        intro hnext hdid
        rw [hnext, hdid, Function.update_eq_self_iff.mpr hview.symm]
        exact hinv
      cases o with
      | stats =>
          obtain ⟨rfl, -⟩ := Prod.mk.inj (Option.some.inj hright)
          exact hinv.reads rfl
      | membership =>
          obtain ⟨rfl, -⟩ := Prod.mk.inj (Option.some.inj hright)
          exact hinv.reads rfl
      | global =>
          obtain ⟨rfl, -⟩ := Prod.mk.inj (Option.some.inj hright)
          exact hinv.versioned hview hallows
      | _ => exact hquiet rfl rfl

end

def watchDiscipline : Machine.Discipline (operated surface conf) (watch surface conf)
    (Machine.passes (noLateCount surface conf)) (Option Sight) where
  mon := Sight.mon
  opening := fun _ _ _ => none
  post := fun _ m result => answersPost surface m result
  inv := fun w state views => WatchInv w state.1 views
  conforms := fun _ _ call => start_answers call
  called := by
    intro w state views task call hinv hfree _
    exact ⟨hinv.follows.ignore hfree, hinv.sound, hinv.answered, hinv.sighted⟩
  did := fun hinv hview hallows hexec hallowed =>
    ⟨trivial, hinv.did hview hallows hexec hallowed⟩
  ended := by
    intro w state views task call m result hinv hview hpost _
    cases result with
    | error error => exact hinv.gone rfl rfl
    | ok reply =>
        cases reply with
        | inl reply => exact hinv.gone rfl rfl
        | inr reply => exact (hinv.answer hview hpost).gone rfl rfl
  dropped := fun hinv _ _ => hinv.gone rfl rfl
  moved := by
    intro w state views world state' hinv hmove _
    obtain ⟨moved, hmoved, rfl⟩ := Option.map_eq_some_iff.mp hmove
    have huntouched := AppState.move_untouched hmoved
    refine hinv.of_state (Nat.le_of_eq ?_) huntouched.presence
    rw [huntouched.versions]

/-! What a version vouches for. -/

/-- Every response shows a presence that it read, and its version counts no change that is missing
from that; and a client that is held on a version has been shown all that is counted. -/
theorem dashboard_vouches {state₀ : (operated surface conf).State}
    {c : (operated surface conf).Config} {w : Watch}
    (hreach : Machine.Reach (watch surface conf) (Machine.passes (noLateCount surface conf))
      ((operated surface conf).idle state₀) {} c w) :
    w.blind = false ∧ (∀ sent ∈ w.answered, sent.Reflects surface c.shared.1) ∧
      ∀ task since, HeldOn c task since →
        ∀ sent ∈ w.answered, sent.reply.version = since → sent.UpToDate := by
  have hstart : @WatchInv surface conf {} state₀.1 fun _ => none :=
    ⟨fun _ => .none, fun _ _ hnone => (nomatch hnone), fun _ hnone => (nomatch hnone), rfl⟩
  obtain ⟨views, -, hinv⟩ := (watchDiscipline surface conf).run hstart hreach
  refine ⟨hinv.sighted, ?_, ?_⟩
  · intro sent hsent
    obtain ⟨hsound, hmade⟩ := hinv.answered sent hsent
    exact ⟨hmade.shows, hsound.above _ hmade.version, hsound.current⟩
  · rintro task since ⟨_, hglobal⟩ sent hsent hversion change hchange
    obtain ⟨hsound, hmade⟩ := hinv.answered sent hsent
    cases hcounted : change.counted with
    | none => rfl
    | some number =>
        have habove := hsound.above _ hmade.version change hchange number hcounted
        have hbelow := hsound.numbered change hchange number hcounted
        omega

def heldOn (c : (operated surface conf).Config) (task : Nat) : Option Nat :=
  match c.tasks task with
  | some ⟨.inr (.stats _ (some since)), .op (.inr (.changed ..)) _, _⟩ =>
      if c.shared.1.versions.global = since then some since else none
  | _ => none

theorem heldOn_sound {c : (operated surface conf).Config} {task since : Nat}
    (hheld : heldOn surface conf c task = some since) : HeldOn c task since := by
  unfold heldOn at hheld
  split at hheld
  · rename_i hrunning
    split at hheld
    · rename_i hglobal
      cases hheld
      exact ⟨⟨_, _, _, _, _, hrunning⟩, hglobal⟩
    · cases hheld
  · cases hheld

def Surface.small : Surface where
  adminToken := some "k"
  anonLabel := fun _ user => toString user

/-- A device of user 1 is present, and was last heard of long ago. -/
def staleDevice : AppState where
  presence :=
    { selfMap := (∅ : Table _ _).insert (1, 1) ⟨⟨1, 0, 1, "ann", "pc", true, none⟩, 0, "1"⟩ }
  now := 100000

abbrev Course := List (operated Surface.small Conf.small).Label

namespace Course

def shown (since : Option Nat) : Course := [.call (.inr (.stats (some "Bearer k") since))]

def reaps : Course := [.call (.inl .reap)]

def steps (task count : Nat) : Course := List.replicate count (.step task (.rounds 1))

end Course

open Course in
/-- The device is reaped, and its absence announced, after a response has read presence and before
it reads its version; then its client is held on that version. -/
def reapedBetweenReads : Course :=
  shown none ++ steps 0 5 ++ reaps ++ steps 1 5 ++ steps 0 3 ++ shown (some 1) ++ steps 2 4

open Course in
def reapedBefore : Course :=
  reaps ++ steps 0 5 ++ shown none ++ steps 1 8 ++ shown (some 1) ++ steps 2 4

def heldMissing (c : (operated surface conf).Config) (w : Watch) (task : Nat) : Bool :=
  (heldOn surface conf c task).any fun since =>
    w.answered.any fun sent =>
      sent.reply.version == since &&
        sent.reading.later.any fun change =>
          change.counted.any fun number => number ≤ since

theorem not_reflects_of_missing {c : (operated surface conf).Config} {w : Watch} {task : Nat}
    (hmissing : heldMissing surface conf c w task = true) :
    ∃ since sent, HeldOn c task since ∧ sent ∈ w.answered ∧ sent.reply.version = since ∧
      ¬ sent.UpToDate ∧ ¬ sent.Reflects surface c.shared.1 := by
  obtain ⟨since, hheld, hany⟩ := (Option.any_eq_true _ _).mp hmissing
  obtain ⟨sent, hsent, hmissed⟩ := List.any_eq_true.mp hany
  rw [Bool.and_eq_true, beq_iff_eq] at hmissed
  obtain ⟨change, hchange, hcounted⟩ := List.any_eq_true.mp hmissed.2
  obtain ⟨number, hnumber, hbelow⟩ := (Option.any_eq_true _ _).mp hcounted
  refine ⟨since, sent, heldOn_sound surface conf hheld, hsent, hmissed.1, ?_, ?_⟩
  · intro hcurrent
    rw [hcurrent change hchange] at hnumber
    cases hnumber
  · intro hreflects
    have habove := hreflects.counted change hchange number hnumber
    have hle : number ≤ since := of_decide_eq_true hbelow
    omega

/-- A client is held on a version that counts the departure of a device it was shown as online. -/
theorem held_client_misses_departure :
    ¬ ∀ c w, Machine.Reach (watch Surface.small Conf.small) Machine.free
        ((operated Surface.small Conf.small).idle (staleDevice, none)) {} c w →
      w.blind = false ∧ (∀ sent ∈ w.answered, sent.Reflects Surface.small c.shared.1) ∧
        ∀ task since, HeldOn c task since →
          ∀ sent ∈ w.answered, sent.reply.version = since → sent.UpToDate := by
  intro hclaim
  have hplay : (Machine.play (watch Surface.small Conf.small) (fun _ _ _ => true)
      ((operated Surface.small Conf.small).idle (staleDevice, none)) {} reapedBetweenReads).any
        (fun last => heldMissing Surface.small Conf.small last.1 last.2 2) = true := by
    decide
  have hrun : ∃ c w, Machine.Reach (watch Surface.small Conf.small) Machine.free
      ((operated Surface.small Conf.small).idle (staleDevice, none)) {} c w ∧
        heldMissing Surface.small Conf.small c w 2 = true :=
    Machine.reach_of_play (fun _ _ _ _ => trivial) hplay
  obtain ⟨c, w, hreach, hmissing⟩ := hrun
  obtain ⟨since, sent, hheld, hsent, hversion, hnot, -⟩ :=
    not_reflects_of_missing Surface.small Conf.small hmissing
  exact hnot ((hclaim c w hreach).2.2 2 since hheld sent hsent hversion)

/-- A client that is held on its first response has been shown all that is counted. -/
theorem dashboard_vouches_held :
    ∃ c w since sent, Machine.Reach (watch Surface.small Conf.small)
        (Machine.passes (noLateCount Surface.small Conf.small))
        ((operated Surface.small Conf.small).idle (staleDevice, none)) {} c w ∧
      HeldOn c 2 since ∧ sent ∈ w.answered ∧ sent.reply.version = since ∧
      sent.Reflects Surface.small c.shared.1 ∧ sent.UpToDate := by
  have hplay : (Machine.play (watch Surface.small Conf.small)
      (noLateCount Surface.small Conf.small)
      ((operated Surface.small Conf.small).idle (staleDevice, none)) {} reapedBefore).any
        (fun last => (heldOn Surface.small Conf.small last.1 2).any fun since =>
          last.2.answered.any fun sent => sent.reply.version == since) = true := by
    decide
  have hrun : ∃ c w, Machine.Reach (watch Surface.small Conf.small)
      (Machine.passes (noLateCount Surface.small Conf.small))
      ((operated Surface.small Conf.small).idle (staleDevice, none)) {} c w ∧
        ((heldOn Surface.small Conf.small c 2).any fun since =>
          w.answered.any fun sent => sent.reply.version == since) = true :=
    Machine.reach_of_play (fun _ _ _ htest => htest) hplay
  obtain ⟨c, w, hreach, hlast⟩ := hrun
  obtain ⟨since, hheld, hany⟩ := (Option.any_eq_true _ _).mp hlast
  obtain ⟨sent, hsent, hecho⟩ := List.any_eq_true.mp hany
  have hwaits := heldOn_sound Surface.small Conf.small hheld
  have hversion : sent.reply.version = since := by simpa using hecho
  obtain ⟨-, hreflects, hcurrent⟩ := dashboard_vouches Surface.small Conf.small hreach
  exact ⟨c, w, since, sent, hreach, hwaits, hsent, hversion, hreflects sent hsent,
    hcurrent 2 since hwaits sent hsent hversion⟩

end UnityLan.Coordinator.Dashboard
