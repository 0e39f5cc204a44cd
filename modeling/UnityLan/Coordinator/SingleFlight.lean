import UnityLan.Foundation.Pool
import UnityLan.Coordinator.RoleSource

namespace UnityLan.Coordinator.SingleFlight

open UnityLan.Foundation Prog

/-! The coalescing of fetches by itself: any callers of any keys, over a cache of any answers.
A fetch starts and ends in two steps, and may be given up between them. -/

variable {V : Type}

inductive Op
  | cached (key : FlightKey)
  | locks (o : Locks.Op)
  | fetch (key : FlightKey)
  | fetched (key : FlightKey)

@[reducible] def Op.Res (V : Type) : Op → Type
  | .cached _ => Option V
  | .locks o => o.Res
  | .fetch _ => Unit
  | .fetched _ => V

@[reducible] def sig (V : Type) : Sig where
  Op := Op
  Res := Op.Res V

def act {ε : Type} (o : Op) : Prog (sig V) ε (o.Res V) :=
  perform (S := sig V) o

def dedup {ε : Type} (key : FlightKey) : Prog (sig V) ε V := do
  match ← act (.cached key) with
  | some hit => return hit
  | none =>
      let gate ← act (.locks (.enter key))
      act (.locks (.lock (.gate gate)))
      let out ←
        match ← act (.cached key) with
        | some hit => pure hit
        | none => do
            act (.fetch key)
            act (.fetched key)
      act (.locks (.unlock (.gate gate)))
      act (.locks (.retire key gate))
      act (.locks .dropClone)
      return out

def live {ε : Type} (cached : Prog Coordinator.sig ε (Option V))
    (fetch : Prog Coordinator.sig ε V) : (o : Op) → Prog Coordinator.sig ε (o.Res V)
  | .cached _ => cached
  | .locks o => Coordinator.act (.locks o)
  | .fetch _ => return ()
  | .fetched _ => fetch

theorem dedup_eq_interpret {ε : Type} (key : FlightKey)
    (cached : Prog Coordinator.sig ε (Option V)) (fetch : Prog Coordinator.sig ε V) :
    Coordinator.dedup key cached fetch = (dedup key).interpret (live cached fetch) := by
  change _ = cached.bind _
  refine congrArg cached.bind (funext fun hit => ?_)
  cases hit with
  | some hit => rfl
  | none =>
      refine congrArg (Prog.op _) (funext fun gate => congrArg (Prog.op _) (funext fun _ => ?_))
      change cached.bind _ = cached.bind _
      refine congrArg cached.bind (funext fun hit => ?_)
      cases hit with
      | some hit => rfl
      | none =>
          change fetch.bind _ = fetch.bind _
          rfl

structure Flight (V : Type) where
  locks : Locks := {}
  cache : Table FlightKey V := ∅

/-- What a fetch brings, and whether it is kept; `none` while nothing came. -/
abbrev Choice (V : Type) := Option (V × Bool)

def exec (task : Nat) : (o : Op) → Choice V → Flight V → Option (o.Res V × Flight V)
  | .cached key, _, s => some (s.cache.get? key, s)
  | .locks o, _, s =>
      match s.locks.step task o with
      | none => none
      | some (answer, locks) => some (answer, { s with locks := locks })
  | .fetch _, _, s => some ((), s)
  | .fetched _, none, _ => none
  | .fetched key, some (value, stored), s =>
      some (value, if stored then { s with cache := s.cache.insert key value } else s)

def suspends : Op → Bool
  | .locks (.lock _) => true
  | .fetched _ => true
  | _ => false

def expire (key : FlightKey) (s : Flight V) : Option (Flight V) :=
  some { s with cache := s.cache.erase key }

def flight (V : Type) : Machine (sig V) where
  State := Flight V
  Call := FlightKey
  Err := Empty
  Reply := V
  Choice := Choice V
  World := FlightKey
  start := dedup
  exec := exec
  suspends := suspends
  release := fun task s => { s with locks := s.locks.release task }
  move := expire

/-! What a run shows of the fetches and of the answers. -/

structure Fetch (V : Type) where
  key : FlightKey
  value : V
  began : Nat
  ended : Nat

structure Answer (V : Type) where
  key : FlightKey
  value : V
  started : Nat
  ended : Nat
  /-- What the cache held when the caller first looked. -/
  found : Option V

structure History (V : Type) where
  now : Nat := 0
  started : Table Nat Nat := ∅
  found : Table Nat V := ∅
  /-- The fetches that run: the caller's, of which key, and since when. -/
  fetching : Table Nat (FlightKey × Nat) := ∅
  fetches : List (Fetch V) := []
  /-- The callers between their look at the gates and the end of their own handle. -/
  leaving : Table Nat Nat := ∅
  answers : List (Answer V) := []

namespace History

variable (g : History V)

def looked (s : Flight V) (task : Nat) (hit : Option V) : History V :=
  match hit, s.locks.clones.get? task with
  | some value, none => { g with found := g.found.insert task value }
  | _, _ => g

def brought (task : Nat) (value : V) : History V :=
  match g.fetching.get? task with
  | none => g
  | some (key, began) =>
      { g with
        fetches := ⟨key, value, began, g.now⟩ :: g.fetches
        fetching := g.fetching.erase task }

def did (s : Flight V) (task : Nat) : (o : Op) → o.Res V → History V
  | .cached _, hit => g.looked s task hit
  | .fetch key, _ => { g with fetching := g.fetching.insert task (key, g.now) }
  | .fetched _, value => g.brought task value
  | .locks (.retire _ gate), _ => { g with leaving := g.leaving.insert task gate }
  | .locks .dropClone, _ => { g with leaving := g.leaving.erase task }
  | .locks _, _ => g

def gone (task : Nat) : History V :=
  { g with
    started := g.started.erase task
    found := g.found.erase task
    fetching := g.fetching.erase task
    leaving := g.leaving.erase task }

def answered (task : Nat) (key : FlightKey) (value : V) : History V :=
  { g with
    answers := ⟨key, value, (g.started.get? task).getD g.now, g.now, g.found.get? task⟩ ::
      g.answers }

def tick : History V :=
  { g with now := g.now + 1 }

end History

def watch : (flight V).Observer (History V) where
  see := fun g s event _ =>
    History.tick <|
      match event with
      | .called task _ => { g with started := g.started.insert task g.now }
      | .did task o answer => g.did s task o answer
      | .ended task key (.ok value) => (g.answered task key value).gone task
      | .ended task _ (.error _) => g.gone task
      | .dropped task _ => g.gone task
      | .moved _ => g

/-- No caller is cancelled with a handle of a gate, and none looks at the gates while another
of its gate has looked and still has its handle. -/
def orderly (g : History V) (s : Flight V) : (flight V).Event → Bool
  | .dropped task _ => (s.locks.clones.get? task).isNone
  | .did _ (.locks (.retire _ gate)) _ => !g.leaving.values.contains gate
  | _ => true

/-! How far a caller has come. -/

inductive Phase (V : Type)
  | asking
  | missed
  | entered (gate : Nat)
  | holding (gate : Nat)
  | looked (gate : Nat)
  | fetching (gate : Nat)
  | leaving (gate : Nat) (out : V)
  | unlocked (gate : Nat) (out : V)
  | retired (gate : Nat) (out : V)
  | done (out : V)

namespace Phase

def door : Phase V → Option Nat
  | .entered gate | .holding gate | .looked gate | .fetching gate => some gate
  | .leaving gate _ | .unlocked gate _ => some gate
  | _ => none

def left : Phase V → Option Nat
  | .retired gate _ => some gate
  | _ => none

def held : Phase V → Option Nat
  | .holding gate | .looked gate | .fetching gate | .leaving gate _ => some gate
  | _ => none

def waits : Phase V → Bool
  | .missed | .entered _ | .holding _ => true
  | _ => false

def fetches : Phase V → Bool
  | .fetching _ => true
  | _ => false

def out : Phase V → Option V
  | .leaving _ out | .unlocked _ out | .retired _ out | .done out => some out
  | _ => none

def next : Phase V → (o : Op) → o.Res V → Phase V
  | .asking, .cached _, some hit => .done hit
  | .asking, .cached _, none => .missed
  | .missed, .locks (.enter _), gate => .entered gate
  | .entered gate, .locks (.lock _), _ => .holding gate
  | .holding gate, .cached _, some hit => .leaving gate hit
  | .holding gate, .cached _, none => .looked gate
  | .looked gate, .fetch _, _ => .fetching gate
  | .fetching gate, .fetched _, value => .leaving gate value
  | .leaving gate out, .locks (.unlock _), _ => .unlocked gate out
  | .unlocked gate out, .locks (.retire ..), _ => .retired gate out
  | .retired _ out, .locks .dropClone, _ => .done out
  | phase, _, _ => phase

end Phase

structure Turn (V : Type) where
  key : FlightKey
  start : Nat
  phase : Phase V

inductive Due (key : FlightKey) : Phase V → Op → Prop
  | look : Due key .asking (.cached key)
  | enter : Due key .missed (.locks (.enter key))
  | lock (gate : Nat) : Due key (.entered gate) (.locks (.lock (.gate gate)))
  | again (gate : Nat) : Due key (.holding gate) (.cached key)
  | fetch (gate : Nat) : Due key (.looked gate) (.fetch key)
  | fetched (gate : Nat) : Due key (.fetching gate) (.fetched key)
  | unlock (gate : Nat) (out : V) : Due key (.leaving gate out) (.locks (.unlock (.gate gate)))
  | retire (gate : Nat) (out : V) : Due key (.unlocked gate out) (.locks (.retire key gate))
  | drop (gate : Nat) (out : V) : Due key (.retired gate out) (.locks .dropClone)

def turns (V : Type) : Monitor (sig V) (Turn V) where
  allows := fun μ o => Due μ.key μ.phase o
  expects := fun _ _ _ => True
  next := fun μ o answer => { μ with phase := μ.phase.next o answer }

theorem dedup_conforms (key : FlightKey) (start : Nat) :
    (dedup key : Prog (sig V) Empty V).Conforms (turns V)
      (fun μ result => ∃ out, result = .ok out ∧ μ.phase = .done out) ⟨key, start, .asking⟩ := by
  refine ⟨.look, fun hit _ => ?_⟩
  cases hit with
  | some hit => exact ⟨hit, rfl, rfl⟩
  | none =>
      refine ⟨.enter, fun gate _ => ⟨.lock gate, fun _ _ => ⟨.again gate, fun hit _ => ?_⟩⟩⟩
      cases hit with
      | some hit =>
          refine ⟨.unlock gate hit, fun _ _ => ⟨.retire gate hit, fun _ _ => ?_⟩⟩
          exact ⟨.drop gate hit, fun _ _ => ⟨hit, rfl, rfl⟩⟩
      | none =>
          refine ⟨.fetch gate, fun _ _ => ⟨.fetched gate, fun out _ => ?_⟩⟩
          refine ⟨.unlock gate out, fun _ _ => ⟨.retire gate out, fun _ _ => ?_⟩⟩
          exact ⟨.drop gate out, fun _ _ => ⟨out, rfl, rfl⟩⟩

/-! The invariant. -/

/-- A fetch of the key brought the value, and ended within the bounds. -/
def Brought (fetches : List (Fetch V)) (key : FlightKey) (value : V) (since till : Nat) : Prop :=
  ∃ fetch ∈ fetches, fetch.key = key ∧ fetch.value = value ∧ fetch.began ≤ fetch.ended ∧
    since ≤ fetch.ended ∧ fetch.ended ≤ till

/-- The value was in the cache at the first look, or a fetch brought it that ended after the
start. -/
def Obtained (fetches : List (Fetch V)) (found : Option V) (key : FlightKey) (value : V)
    (since till : Nat) : Prop :=
  found = some value ∧ Brought fetches key value 0 till ∨ Brought fetches key value since till

structure Fits (g : History V) (s : Flight V) (task : Nat) (key : FlightKey) (μ : Turn V) :
    Prop where
  named : μ.key = key
  started : g.started.get? task = some μ.start
  past : μ.start ≤ g.now
  clone : s.locks.clones.get? task = μ.phase.door.or μ.phase.left
  door : ∀ gate, μ.phase.door = some gate → s.locks.gates.get? key = some gate
  held : ∀ gate, μ.phase.held = some gate → s.locks.held.get? (.gate gate) = some task
  fetching : μ.phase.fetches = true →
    ∃ began, g.fetching.get? task = some (key, began) ∧ began ≤ g.now
  resting : μ.phase.fetches = false → g.fetching.get? task = none
  leaving : g.leaving.get? task = μ.phase.left
  since : μ.phase.waits = true → ∀ value, s.cache.get? key = some value →
    Brought g.fetches key value μ.start g.now
  out : ∀ value, μ.phase.out = some value →
    Obtained g.fetches (g.found.get? task) key value μ.start g.now

structure Idle (g : History V) (s : Flight V) (task : Nat) : Prop where
  clone : s.locks.clones.get? task = none
  fetching : g.fetching.get? task = none
  leaving : g.leaving.get? task = none

structure GatesSound (locks : Locks) : Prop where
  injective : ∀ key other gate, locks.gates.get? key = some gate →
    locks.gates.get? other = some gate → key = other
  below : ∀ key gate, locks.gates.get? key = some gate → gate < locks.nextGate

structure Serves (strict : Prop) (g : History V) (s : Flight V)
    (views : Nat → Option (FlightKey × Turn V)) : Prop where
  fits : ∀ task key μ, views task = some (key, μ) → Fits g s task key μ
  idle : ∀ task, views task = none → Idle g s task
  gates : GatesSound s.locks
  cached : ∀ key value, s.cache.get? key = some value → Brought g.fetches key value 0 g.now
  answered : ∀ answer ∈ g.answers, Obtained g.fetches answer.found answer.key answer.value
    answer.started answer.ended
  tended : strict → ∀ key gate, s.locks.gates.get? key = some gate →
    ∃ task μ, views task = some (key, μ) ∧ μ.phase.door = some gate

structure Spares (task : Nat) (g : History V) (s : Flight V) (g' : History V) (s' : Flight V) :
    Prop where
  now : g.now ≤ g'.now
  fetches : g.fetches ⊆ g'.fetches
  cache : ∀ key value, s'.cache.get? key = some value →
    s.cache.get? key = some value ∨ Brought g'.fetches key value g.now g'.now
  started : ∀ other, other ≠ task → g'.started.get? other = g.started.get? other
  found : ∀ other, other ≠ task → g'.found.get? other = g.found.get? other
  fetching : ∀ other, other ≠ task → g'.fetching.get? other = g.fetching.get? other
  leaving : ∀ other, other ≠ task → g'.leaving.get? other = g.leaving.get? other
  clones : ∀ other, other ≠ task → s'.locks.clones.get? other = s.locks.clones.get? other
  held : ∀ name other, other ≠ task → s.locks.held.get? name = some other →
    s'.locks.held.get? name = some other
  gates : ∀ key other gate, other ≠ task → s.locks.clones.get? other = some gate →
    s.locks.gates.get? key = some gate → s'.locks.gates.get? key = some gate

section

variable {g g' : History V} {s s' : Flight V} {task : Nat} {key : FlightKey} {μ μ' : Turn V}
  {views : Nat → Option (FlightKey × Turn V)} {strict : Prop}

theorem Brought.mono {fetches later : List (Fetch V)} {value : V} {since since' till till' : Nat}
    (hbrought : Brought fetches key value since till) (hlater : fetches ⊆ later)
    (hsince : since' ≤ since) (htill : till ≤ till') : Brought later key value since' till' := by
  obtain ⟨fetch, hmem, hkey, hvalue, hbegan, hfrom, hto⟩ := hbrought
  exact ⟨fetch, hlater hmem, hkey, hvalue, hbegan, Nat.le_trans hsince hfrom,
    Nat.le_trans hto htill⟩

theorem Obtained.mono {fetches later : List (Fetch V)} {found : Option V} {value : V}
    {since till till' : Nat} (hobtained : Obtained fetches found key value since till)
    (hlater : fetches ⊆ later) (htill : till ≤ till') :
    Obtained later found key value since till' :=
  hobtained.imp (fun ⟨hfound, hbrought⟩ => ⟨hfound, hbrought.mono hlater (Nat.le_refl _) htill⟩)
    fun hbrought => hbrought.mono hlater (Nat.le_refl _) htill

theorem Fits.spared {other : Nat} (hfits : Fits g s other key μ) (hspares : Spares task g s g' s')
    (hother : other ≠ task) : Fits g' s' other key μ where
  named := hfits.named
  started := (hspares.started other hother).trans hfits.started
  past := Nat.le_trans hfits.past hspares.now
  clone := (hspares.clones other hother).trans hfits.clone
  door := by
    intro gate hdoor
    refine hspares.gates key other gate hother ?_ (hfits.door gate hdoor)
    rw [hfits.clone, hdoor]
    rfl
  held := fun gate hheld => hspares.held _ other hother (hfits.held gate hheld)
  fetching := by
    intro hfetches
    obtain ⟨began, hget, hbegan⟩ := hfits.fetching hfetches
    exact ⟨began, (hspares.fetching other hother).trans hget, Nat.le_trans hbegan hspares.now⟩
  resting := fun hfetches => (hspares.fetching other hother).trans (hfits.resting hfetches)
  leaving := (hspares.leaving other hother).trans hfits.leaving
  since := by
    intro hwaits value hcached
    rcases hspares.cache key value hcached with hbefore | hbrought
    · exact (hfits.since hwaits value hbefore).mono hspares.fetches (Nat.le_refl _) hspares.now
    · exact hbrought.mono (List.Subset.refl _) hfits.past (Nat.le_refl _)
  out := by
    intro value hout
    rw [hspares.found other hother]
    exact (hfits.out value hout).mono hspares.fetches hspares.now

theorem Idle.spared {other : Nat} (hidle : Idle g s other) (hspares : Spares task g s g' s')
    (hother : other ≠ task) : Idle g' s' other where
  clone := (hspares.clones other hother).trans hidle.clone
  fetching := (hspares.fetching other hother).trans hidle.fetching
  leaving := (hspares.leaving other hother).trans hidle.leaving

theorem Serves.cached_spared (hserves : Serves strict g s views)
    (hspares : Spares task g s g' s') (key : FlightKey) (value : V)
    (hcached : s'.cache.get? key = some value) : Brought g'.fetches key value 0 g'.now := by
  rcases hspares.cache key value hcached with hbefore | hbrought
  · exact (hserves.cached key value hbefore).mono hspares.fetches (Nat.le_refl _) hspares.now
  · exact hbrought.mono (List.Subset.refl _) (Nat.zero_le _) (Nat.le_refl _)

theorem Serves.answered_spared (hserves : Serves strict g s views)
    (hspares : Spares task g s g' s') :
    ∀ answer ∈ g.answers, Obtained g'.fetches answer.found answer.key answer.value
      answer.started answer.ended :=
  fun answer hmem => (hserves.answered answer hmem).mono hspares.fetches (Nat.le_refl _)

theorem Serves.proceed (hserves : Serves strict g s views) (hspares : Spares task g s g' s')
    (hfits : Fits g' s' task key μ') (hgates : GatesSound s'.locks)
    (hanswers : g'.answers = g.answers)
    (htended : strict → ∀ opened gate, s'.locks.gates.get? opened = some gate →
      opened = key ∧ μ'.phase.door = some gate ∨
        ∃ other μ, other ≠ task ∧ views other = some (opened, μ) ∧ μ.phase.door = some gate) :
    Serves strict g' s' (Function.update views task (some (key, μ'))) where
  fits := by
    intro other opened μ hview
    rcases Machine.update_some_cases hview with ⟨rfl, hfound⟩ | ⟨hother, hbefore⟩
    · obtain ⟨rfl, rfl⟩ := Prod.mk.inj hfound
      exact hfits
    · exact (hserves.fits other opened μ hbefore).spared hspares hother
  idle := by
    intro other hview
    by_cases hsame : other = task
    · rw [hsame, Function.update_self] at hview
      cases hview
    · rw [Function.update_of_ne hsame] at hview
      exact (hserves.idle other hview).spared hspares hsame
  gates := hgates
  cached := hserves.cached_spared hspares
  answered := by
    rw [hanswers]
    exact hserves.answered_spared hspares
  tended := by
    intro hstrict opened gate hgate
    rcases htended hstrict opened gate hgate with ⟨rfl, hdoor⟩ | ⟨other, μ, hother, hview, hdoor⟩
    · exact ⟨task, μ', Function.update_self .., hdoor⟩
    · exact ⟨other, μ, (Function.update_of_ne hother ..).trans hview, hdoor⟩

theorem Serves.steady (hserves : Serves strict g s views)
    (hview : views task = some (key, μ)) (hspares : Spares task g s g' s')
    (hfits : Fits g' s' task key μ') (hgates : s'.locks.gates = s.locks.gates)
    (hnext : s'.locks.nextGate = s.locks.nextGate) (hanswers : g'.answers = g.answers)
    (hdoor : μ'.phase.door = μ.phase.door) :
    Serves strict g' s' (Function.update views task (some (key, μ'))) := by
  refine hserves.proceed hspares hfits ⟨?_, ?_⟩ hanswers fun hstrict opened gate hgate => ?_
  · rw [hgates]
    exact hserves.gates.injective
  · rw [hgates, hnext]
    exact hserves.gates.below
  · rw [hgates] at hgate
    obtain ⟨other, μ₀, hother, hopen⟩ := hserves.tended hstrict opened gate hgate
    by_cases hsame : other = task
    · rw [hsame, hview] at hother
      obtain ⟨rfl, rfl⟩ := Prod.mk.inj (Option.some.inj hother)
      exact .inl ⟨rfl, hdoor.trans hopen⟩
    · exact .inr ⟨other, μ₀, hsame, hother, hopen⟩

end

/-! What each operation keeps. -/

section

variable {g : History V} {s : Flight V} {task start gate : Nat} {key : FlightKey} {out : V}
  {views : Nat → Option (FlightKey × Turn V)} {strict : Prop}

theorem spares_tick : Spares task g s g.tick s where
  now := Nat.le_succ _
  fetches := List.Subset.refl _
  cache := fun _ _ => .inl
  started := fun _ _ => rfl
  found := fun _ _ => rfl
  fetching := fun _ _ => rfl
  leaving := fun _ _ => rfl
  clones := fun _ _ => rfl
  held := fun _ _ _ => id
  gates := fun _ _ _ _ _ => id

theorem Fits.tick {μ : Turn V} (hfits : Fits g s task key μ) : Fits g.tick s task key μ where
  named := hfits.named
  started := hfits.started
  past := Nat.le_succ_of_le hfits.past
  clone := hfits.clone
  door := hfits.door
  held := hfits.held
  fetching := fun hfetches =>
    let ⟨began, hget, hbegan⟩ := hfits.fetching hfetches
    ⟨began, hget, Nat.le_succ_of_le hbegan⟩
  resting := hfits.resting
  leaving := hfits.leaving
  since := fun hwaits value hcached =>
    (hfits.since hwaits value hcached).mono (List.Subset.refl _) (Nat.le_refl _) (Nat.le_succ _)
  out := fun value hout => (hfits.out value hout).mono (List.Subset.refl _) (Nat.le_succ _)

theorem Serves.look (hserves : Serves strict g s views)
    (hview : views task = some (key, ⟨key, start, .asking⟩)) :
    Serves strict (g.did s task (.cached key) (s.cache.get? key)).tick s
      (Function.update views task
        (some (key, ⟨key, start, Phase.next .asking (.cached key) (s.cache.get? key)⟩))) := by
  have hfits := hserves.fits _ _ _ hview
  have hclone : s.locks.clones.get? task = none := hfits.clone
  cases hhit : s.cache.get? key with
  | none =>
      have hsame : g.did s task (.cached key) none = g := rfl
      rw [hsame]
      refine hserves.steady hview spares_tick ?_ rfl rfl rfl rfl
      refine { hfits.tick with since := ?_, out := ?_ }
      · intro _ value hcached
        rw [hhit] at hcached
        cases hcached
      · intro value hout
        cases hout
  | some hit =>
      have hfound : g.did s task (.cached key) (some hit) =
          { g with found := g.found.insert task hit } := by
        simp only [History.did, History.looked, hclone]
      rw [hfound]
      refine hserves.steady hview ?_ ?_ rfl rfl rfl rfl
      · refine { spares_tick with found := ?_ }
        intro other hother
        exact (Table.get?_insert ..).trans (if_neg hother)
      · refine { hfits.tick with since := ?_, out := ?_ }
        · intro hwaits
          cases hwaits
        · intro value hout
          cases hout
          refine .inl ⟨(Table.get?_insert ..).trans (if_pos rfl), ?_⟩
          exact (hserves.cached key hit hhit).mono (List.Subset.refl _) (Nat.le_refl _)
            (Nat.le_succ _)

theorem Serves.again (hserves : Serves strict g s views)
    (hview : views task = some (key, ⟨key, start, .holding gate⟩)) :
    Serves strict (g.did s task (.cached key) (s.cache.get? key)).tick s
      (Function.update views task
        (some (key,
          ⟨key, start, Phase.next (.holding gate) (.cached key) (s.cache.get? key)⟩))) := by
  have hfits := hserves.fits _ _ _ hview
  have hclone : s.locks.clones.get? task = some gate := hfits.clone
  have hsame : g.did s task (.cached key) (s.cache.get? key) = g := by
    simp only [History.did, History.looked, hclone]
    cases s.cache.get? key <;> rfl
  rw [hsame]
  cases hhit : s.cache.get? key with
  | none =>
      refine hserves.steady hview spares_tick ?_ rfl rfl rfl rfl
      refine { hfits.tick with since := ?_, out := ?_ }
      · intro hwaits
        cases hwaits
      · intro value hout
        cases hout
  | some hit =>
      refine hserves.steady hview spares_tick ?_ rfl rfl rfl rfl
      refine { hfits.tick with since := ?_, out := ?_ }
      · intro hwaits
        cases hwaits
      · intro value hout
        cases hout
        exact .inr ((hfits.since rfl hit hhit).mono (List.Subset.refl _) (Nat.le_refl _)
          (Nat.le_succ _))

theorem enter_gates {locks locks' : Locks} (hgates : GatesSound locks)
    (hstep : locks.step task (.enter key) = some (gate, locks')) :
    GatesSound locks' ∧ locks'.gates.get? key = some gate ∧
      locks'.clones = locks.clones.insert task gate ∧ locks'.held = locks.held ∧
      (∀ other opened, locks.gates.get? other = some opened →
        locks'.gates.get? other = some opened) ∧
      ∀ other opened, locks'.gates.get? other = some opened →
        other = key ∧ opened = gate ∨ locks.gates.get? other = some opened := by
  simp only [Locks.step] at hstep
  cases hopen : locks.gates.get? key with
  | some opened =>
      rw [hopen] at hstep
      cases hstep
      exact ⟨⟨hgates.injective, hgates.below⟩, hopen, rfl, rfl, fun _ _ => id, fun _ _ => .inr⟩
  | none =>
      rw [hopen] at hstep
      cases hstep
      have hsource : ∀ other opened,
          (locks.gates.insert key locks.nextGate).get? other = some opened →
          other = key ∧ opened = locks.nextGate ∨
            other ≠ key ∧ locks.gates.get? other = some opened := by
        intro other opened hget
        rw [Table.get?_insert] at hget
        split at hget
        · rename_i hsame
          exact .inl ⟨hsame, (Option.some.inj hget).symm⟩
        · rename_i hother
          exact .inr ⟨hother, hget⟩
      refine ⟨⟨?_, ?_⟩, (Table.get?_insert ..).trans (if_pos rfl), rfl, rfl, ?_, ?_⟩
      · intro first second opened hfirst hsecond
        rcases hsource first opened hfirst with ⟨rfl, rfl⟩ | ⟨_, hbefore⟩
        · rcases hsource second _ hsecond with ⟨rfl, _⟩ | ⟨_, hbefore⟩
          · rfl
          · exact absurd (hgates.below _ _ hbefore) (Nat.lt_irrefl _)
        · rcases hsource second _ hsecond with ⟨rfl, rfl⟩ | ⟨_, hbefore'⟩
          · exact absurd (hgates.below _ _ hbefore) (Nat.lt_irrefl _)
          · exact hgates.injective _ _ _ hbefore hbefore'
      · intro other opened hget
        rcases hsource other opened hget with ⟨_, rfl⟩ | ⟨_, hbefore⟩
        · exact Nat.lt_succ_self _
        · exact Nat.lt_succ_of_lt (hgates.below _ _ hbefore)
      · intro other opened hbefore
        refine (Table.get?_insert ..).trans ((if_neg ?_).trans hbefore)
        rintro rfl
        rw [hopen] at hbefore
        cases hbefore
      · intro other opened hget
        exact (hsource other opened hget).imp_right And.right

theorem Serves.enter {locks' : Locks} (hserves : Serves strict g s views)
    (hview : views task = some (key, ⟨key, start, .missed⟩))
    (hstep : s.locks.step task (.enter key) = some (gate, locks')) :
    Serves strict g.tick { s with locks := locks' }
      (Function.update views task (some (key, ⟨key, start, .entered gate⟩))) := by
  have hfits := hserves.fits _ _ _ hview
  obtain ⟨hgates, hopen, hclones, hheld, hkept, hsource⟩ := enter_gates hserves.gates hstep
  refine hserves.proceed ?_ ?_ hgates rfl fun hstrict other opened hget => ?_
  · refine { spares_tick with clones := ?_, held := ?_, gates := ?_ }
    · intro other hother
      rw [hclones]
      exact (Table.get?_insert ..).trans (if_neg hother)
    · intro name other _
      rw [hheld]
      exact id
    · intro other _ opened _ _
      exact hkept other opened
  · refine { hfits.tick with
      clone := ?_, door := ?_, held := ?_, since := hfits.tick.since, out := ?_ }
    · rw [hclones]
      exact (Table.get?_insert ..).trans (if_pos rfl)
    · intro opened hdoor
      cases hdoor
      exact hopen
    · intro opened hheld
      cases hheld
    · intro value hout
      cases hout
  · rcases hsource other opened hget with ⟨rfl, rfl⟩ | hbefore
    · exact .inl ⟨rfl, rfl⟩
    · obtain ⟨holder, μ, hholder, hdoor⟩ := hserves.tended hstrict other opened hbefore
      refine .inr ⟨holder, μ, ?_, hholder, hdoor⟩
      rintro rfl
      rw [hview] at hholder
      cases hholder
      cases hdoor

theorem Serves.lock (hserves : Serves strict g s views)
    (hview : views task = some (key, ⟨key, start, .entered gate⟩))
    (hfree : s.locks.held.contains (.gate gate) = false) :
    Serves strict g.tick
      { s with locks := { s.locks with held := s.locks.held.insert (.gate gate) task } }
      (Function.update views task (some (key, ⟨key, start, .holding gate⟩))) := by
  have hfits := hserves.fits _ _ _ hview
  refine hserves.steady hview ?_ ?_ rfl rfl rfl rfl
  · refine { spares_tick with held := ?_ }
    intro name other _ hheld
    refine (Table.get?_insert ..).trans ((if_neg ?_).trans hheld)
    rintro rfl
    rw [Table.contains_iff.mpr ⟨other, hheld⟩] at hfree
    cases hfree
  · refine { hfits.tick with held := ?_, since := hfits.tick.since, out := ?_ }
    · intro opened hheld
      cases hheld
      exact (Table.get?_insert ..).trans (if_pos rfl)
    · intro value hout
      cases hout

theorem Serves.fetch (hserves : Serves strict g s views)
    (hview : views task = some (key, ⟨key, start, .looked gate⟩)) :
    Serves strict (g.did s task (.fetch key) ()).tick s
      (Function.update views task (some (key, ⟨key, start, .fetching gate⟩))) := by
  have hfits := hserves.fits _ _ _ hview
  refine hserves.steady hview ?_ ?_ rfl rfl rfl rfl
  · refine { spares_tick with fetching := ?_ }
    intro other hother
    exact (Table.get?_insert ..).trans (if_neg hother)
  · refine { hfits.tick with
      held := hfits.held, fetching := ?_, resting := ?_, since := ?_, out := ?_ }
    · intro _
      exact ⟨g.now, (Table.get?_insert ..).trans (if_pos rfl), Nat.le_succ _⟩
    · intro hfetches
      cases hfetches
    · intro hwaits
      cases hwaits
    · intro value hout
      cases hout

theorem Serves.fetched {value : V} {stored : Bool} (hserves : Serves strict g s views)
    (hview : views task = some (key, ⟨key, start, .fetching gate⟩)) :
    Serves strict (g.did s task (.fetched key) value).tick
      (if stored then { s with cache := s.cache.insert key value } else s)
      (Function.update views task (some (key, ⟨key, start, .leaving gate value⟩))) := by
  have hfits := hserves.fits _ _ _ hview
  obtain ⟨began, hbegan, hpast⟩ := hfits.fetching rfl
  have hhistory : g.did s task (.fetched key) value =
      { g with
        fetches := ⟨key, value, began, g.now⟩ :: g.fetches
        fetching := g.fetching.erase task } := by
    simp only [History.did, History.brought, hbegan]
  have hlocks : (if stored then { s with cache := s.cache.insert key value } else s).locks =
      s.locks := by
    split <;> rfl
  have hbrought : ∀ since, since ≤ g.now →
      Brought (⟨key, value, began, g.now⟩ :: g.fetches) key value since (g.now + 1) :=
    fun since hsince =>
      ⟨_, List.mem_cons_self .., rfl, rfl, hpast, hsince, Nat.le_succ _⟩
  rw [hhistory]
  refine hserves.steady hview ?_ ?_ (congrArg Locks.gates hlocks) (congrArg Locks.nextGate hlocks)
    rfl rfl
  · refine { (spares_tick : Spares task g s g.tick s) with
      fetches := List.subset_cons_self .., cache := ?_, fetching := ?_, clones := ?_, held := ?_
      gates := ?_ }
    · intro other kept hcached
      by_cases hstored : stored = true
      · rw [if_pos hstored] at hcached
        have hget := (Table.get?_insert ..).symm.trans hcached
        split at hget
        · rename_i hsame
          cases hget
          exact .inr (hsame ▸ hbrought g.now (Nat.le_refl _))
        · exact .inl hget
      · rw [if_neg hstored] at hcached
        exact .inl hcached
    · intro other hother
      exact (Table.get?_erase ..).trans (if_neg hother)
    · intro other _
      rw [hlocks]
    · intro name other _
      rw [hlocks]
      exact id
    · intro other _ opened _ _
      rw [hlocks]
      exact id
  · refine { hfits.tick with
      clone := ?_, door := ?_, held := ?_, fetching := ?_, resting := ?_, since := ?_, out := ?_ }
    · rw [hlocks]
      exact hfits.clone
    · rw [hlocks]
      exact hfits.door
    · rw [hlocks]
      exact hfits.held
    · intro hfetches
      cases hfetches
    · intro _
      exact (Table.get?_erase ..).trans (if_pos rfl)
    · intro hwaits
      cases hwaits
    · intro fetched hout
      cases hout
      exact .inr (hbrought start hfits.past)

theorem Serves.unlock (hserves : Serves strict g s views)
    (hview : views task = some (key, ⟨key, start, .leaving gate out⟩)) :
    Serves strict g.tick
      { s with locks := { s.locks with held := s.locks.held.erase (.gate gate) } }
      (Function.update views task (some (key, ⟨key, start, .unlocked gate out⟩))) := by
  have hfits := hserves.fits _ _ _ hview
  refine hserves.steady hview ?_ ?_ rfl rfl rfl rfl
  · refine { spares_tick with held := ?_ }
    intro name other hother hheld
    refine (Table.get?_erase ..).trans ((if_neg ?_).trans hheld)
    rintro rfl
    rw [hfits.held gate rfl] at hheld
    exact hother (Option.some.inj hheld).symm
  · refine { hfits.tick with held := ?_, since := hfits.tick.since, out := hfits.tick.out }
    intro opened hheld
    cases hheld

end

/-! The look at the gates counts the handles. -/

section

variable {locks : Locks} {key : FlightKey} {task gate : Nat}

theorem strongCount_shared {other : Nat} (hopen : locks.gates.get? key = some gate)
    (hclone : locks.clones.get? task = some gate) (hshared : locks.clones.get? other = some gate)
    (hother : other ≠ task) : locks.strongCount gate ≠ 2 := by
  have hmap := Table.length_filter_values_pos hopen
  have hcallers := Table.two_le_length_filter_values hshared hclone hother
  unfold Locks.strongCount
  omega

theorem strongCount_alone (hgates : GatesSound locks) (hopen : locks.gates.get? key = some gate)
    (hclone : locks.clones.get? task = some gate)
    (halone : ∀ other, locks.clones.get? other = some gate → other = task) :
    locks.strongCount gate = 2 := by
  unfold Locks.strongCount
  rw [Table.length_filter_values_one hopen fun other hother => hgates.injective _ _ _ hother hopen,
    Table.length_filter_values_one hclone halone]

end

section

variable {g : History V} {s : Flight V} {task start gate : Nat} {key : FlightKey} {out : V}
  {views : Nat → Option (FlightKey × Turn V)} {strict : Prop}

theorem retire_spares {opened : Nat} {other : FlightKey} {holder : Nat}
    (hopen : s.locks.gates.get? key = some gate) (hclone : s.locks.clones.get? task = some gate)
    (hholder : holder ≠ task) (hheld : s.locks.clones.get? holder = some opened)
    (hget : s.locks.gates.get? other = some opened) :
    (if s.locks.strongCount gate = 2 then s.locks.gates.erase key else s.locks.gates).get? other =
      some opened := by
  split
  · rename_i htwo
    refine (Table.get?_erase ..).trans ((if_neg ?_).trans hget)
    rintro rfl
    rw [hopen] at hget
    cases hget
    exact strongCount_shared hopen hclone hheld hholder htwo
  · exact hget

theorem Serves.retire_tended (hserves : Serves strict g s views)
    (hview : views task = some (key, ⟨key, start, .unlocked gate out⟩)) (hstrict : strict)
    (hnone : g.leaving.values.contains gate = false) {other : FlightKey} {opened : Nat}
    (hget : (if s.locks.strongCount gate = 2 then s.locks.gates.erase key
      else s.locks.gates).get? other = some opened) :
    ∃ holder μ, holder ≠ task ∧ views holder = some (other, μ) ∧ μ.phase.door = some opened := by
  have hfits := hserves.fits _ _ _ hview
  have hopen := hfits.door gate rfl
  have hbefore : s.locks.gates.get? other = some opened := by
    split at hget
    · exact Table.get?_of_erase hget
    · exact hget
  by_cases hsame : other = key
  · subst hsame
    rw [hopen] at hbefore
    cases hbefore
    have hcount : s.locks.strongCount gate ≠ 2 := by
      intro htwo
      rw [if_pos htwo, Table.get?_erase, if_pos rfl] at hget
      cases hget
    obtain ⟨holder, hheld, hholder⟩ : ∃ holder, s.locks.clones.get? holder = some gate ∧
        holder ≠ task := by
      by_contra hnobody
      refine hcount (strongCount_alone hserves.gates hopen hfits.clone fun holder hheld => ?_)
      by_contra hholder
      exact hnobody ⟨holder, hheld, hholder⟩
    cases hview' : views holder with
    | none =>
        rw [(hserves.idle holder hview').clone] at hheld
        cases hheld
    | some view =>
        obtain ⟨key', μ⟩ := view
        have hfits' := hserves.fits _ _ _ hview'
        rw [hfits'.clone] at hheld
        rcases Option.or_eq_some_iff.mp hheld with hdoor | ⟨_, hleft⟩
        · obtain rfl := hserves.gates.injective _ _ _ (hfits'.door gate hdoor) hopen
          exact ⟨holder, μ, hholder, hview', hdoor⟩
        · have hmem := Table.mem_values.mpr ⟨holder, hfits'.leaving.trans hleft⟩
          rw [← List.contains_iff_mem, hnone] at hmem
          cases hmem
  · obtain ⟨holder, μ, hholder, hdoor⟩ := hserves.tended hstrict other opened hbefore
    refine ⟨holder, μ, ?_, hholder, hdoor⟩
    rintro rfl
    rw [hview] at hholder
    exact hsame (Prod.mk.inj (Option.some.inj hholder)).1.symm

theorem Serves.retire {locks' : Locks} (hserves : Serves strict g s views)
    (hview : views task = some (key, ⟨key, start, .unlocked gate out⟩))
    (hnone : strict → g.leaving.values.contains gate = false)
    (hstep : s.locks.step task (.retire key gate) = some ((), locks')) :
    Serves strict (g.did s task (.locks (.retire key gate)) ()).tick { s with locks := locks' }
      (Function.update views task (some (key, ⟨key, start, .retired gate out⟩))) := by
  have hfits := hserves.fits _ _ _ hview
  have hlocks : locks' =
      { s.locks with
        gates := if s.locks.strongCount gate = 2 then s.locks.gates.erase key
          else s.locks.gates } := by
    simp only [Locks.step, Option.some.injEq, Prod.mk.injEq, true_and] at hstep
    rw [← hstep]
    split <;> rfl
  have hbefore : ∀ other opened, locks'.gates.get? other = some opened →
      s.locks.gates.get? other = some opened := by
    intro other opened hget
    rw [hlocks] at hget
    dsimp only at hget
    split at hget
    · exact Table.get?_of_erase hget
    · exact hget
  subst hlocks
  refine hserves.proceed ?_ ?_ ⟨?_, ?_⟩ rfl fun hstrict other opened hget => ?_
  · refine { spares_tick with leaving := ?_, gates := ?_ }
    · intro other hother
      exact (Table.get?_insert ..).trans (if_neg hother)
    · intro other holder opened hholder hheld hget
      exact retire_spares (hfits.door gate rfl) hfits.clone hholder hheld hget
  · refine { hfits.tick with
      clone := hfits.clone, door := ?_, held := ?_, leaving := ?_, since := hfits.tick.since
      out := hfits.tick.out }
    · intro opened hdoor
      cases hdoor
    · intro opened hheld
      cases hheld
    · exact (Table.get?_insert ..).trans (if_pos rfl)
  · intro first second opened hfirst hsecond
    exact hserves.gates.injective _ _ _ (hbefore _ _ hfirst) (hbefore _ _ hsecond)
  · intro other opened hget
    exact hserves.gates.below _ _ (hbefore _ _ hget)
  · exact .inr (hserves.retire_tended hview hstrict (hnone hstrict) hget)

theorem Serves.dropClone (hserves : Serves strict g s views)
    (hview : views task = some (key, ⟨key, start, .retired gate out⟩)) :
    Serves strict (g.did s task (.locks .dropClone) ()).tick
      { s with locks := { s.locks with clones := s.locks.clones.erase task } }
      (Function.update views task (some (key, ⟨key, start, .done out⟩))) := by
  have hfits := hserves.fits _ _ _ hview
  refine hserves.steady hview ?_ ?_ rfl rfl rfl rfl
  · refine { spares_tick with leaving := ?_, clones := ?_, gates := ?_ }
    · intro other hother
      exact (Table.get?_erase ..).trans (if_neg hother)
    · intro other hother
      exact (Table.get?_erase ..).trans (if_neg hother)
    · exact fun _ _ _ _ _ => id
  · refine { hfits.tick with
      clone := ?_, leaving := ?_, since := hfits.tick.since, out := hfits.tick.out }
    · exact (Table.get?_erase ..).trans (if_pos rfl)
    · exact (Table.get?_erase ..).trans (if_pos rfl)

/-! A caller comes, or goes. -/

theorem Serves.called (hserves : Serves strict g s views) (hfree : views task = none) :
    Serves strict (History.tick { g with started := g.started.insert task g.now }) s
      (Function.update views task (some (key, ⟨key, g.now, .asking⟩))) := by
  have hidle := hserves.idle task hfree
  refine hserves.proceed ?_ ?_ hserves.gates rfl fun hstrict other opened hget => ?_
  · refine { spares_tick with started := ?_ }
    intro other hother
    exact (Table.get?_insert ..).trans (if_neg hother)
  · constructor
    case named => rfl
    case started => exact (Table.get?_insert ..).trans (if_pos rfl)
    case past => exact Nat.le_succ _
    case clone => exact hidle.clone
    case door =>
      intro opened hdoor
      cases hdoor
    case held =>
      intro opened hheld
      cases hheld
    case fetching =>
      intro hfetches
      cases hfetches
    case resting => exact fun _ => hidle.fetching
    case leaving => exact hidle.leaving
    case since =>
      intro hwaits
      cases hwaits
    case out =>
      intro value hout
      cases hout
  · obtain ⟨holder, μ, hholder, hdoor⟩ := hserves.tended hstrict other opened hget
    refine .inr ⟨holder, μ, ?_, hholder, hdoor⟩
    rintro rfl
    rw [hfree] at hholder
    cases hholder

theorem gone_spares {answers : List (Answer V)} :
    Spares task g s (History.gone { g with answers := answers } task).tick
      { s with locks := s.locks.release task } := by
  refine { (spares_tick : Spares task g s g.tick s) with
    started := ?_, found := ?_, fetching := ?_, leaving := ?_, clones := ?_, held := ?_
    gates := fun _ _ _ _ _ => id }
  · exact fun other hother => (Table.get?_erase ..).trans (if_neg hother)
  · exact fun other hother => (Table.get?_erase ..).trans (if_neg hother)
  · exact fun other hother => (Table.get?_erase ..).trans (if_neg hother)
  · exact fun other hother => (Table.get?_erase ..).trans (if_neg hother)
  · exact fun other hother => (Table.get?_erase ..).trans (if_neg hother)
  · intro name other hother hheld
    refine (Table.get?_retain ..).trans (Option.filter_eq_some_iff.mpr ⟨hheld, ?_⟩)
    exact bne_iff_ne.mpr hother

theorem Serves.gone {answers : List (Answer V)} (hserves : Serves strict g s views)
    (hanswers : ∀ answer ∈ answers, Obtained g.fetches answer.found answer.key answer.value
      answer.started answer.ended)
    (hdoor : strict → ∀ key μ, views task = some (key, μ) → μ.phase.door = none) :
    Serves strict (History.gone { g with answers := answers } task).tick
      { s with locks := s.locks.release task } (Function.update views task none) where
  fits := by
    intro other key μ hview
    obtain ⟨hother, hbefore⟩ := Machine.update_none_cases hview
    exact (hserves.fits other key μ hbefore).spared gone_spares hother
  idle := by
    intro other hview
    by_cases hsame : other = task
    · subst hsame
      constructor
      · exact (Table.get?_erase ..).trans (if_pos rfl)
      · exact (Table.get?_erase ..).trans (if_pos rfl)
      · exact (Table.get?_erase ..).trans (if_pos rfl)
    · rw [Function.update_of_ne hsame] at hview
      exact (hserves.idle other hview).spared gone_spares hsame
  gates := ⟨hserves.gates.injective, hserves.gates.below⟩
  cached := hserves.cached_spared (gone_spares : Spares task g s _ _)
  answered := hanswers
  tended := by
    intro hstrict key opened hget
    obtain ⟨holder, μ, hholder, hopen⟩ := hserves.tended hstrict key opened hget
    refine ⟨holder, μ, (Function.update_of_ne ?_ ..).trans hholder, hopen⟩
    rintro rfl
    rw [hdoor hstrict key μ hholder] at hopen
    cases hopen

theorem Serves.expired (hserves : Serves strict g s views) :
    Serves strict g.tick { s with cache := s.cache.erase key } views := by
  have hspares : ∀ task, Spares task g s g.tick { s with cache := s.cache.erase key } := by
    intro task
    refine { spares_tick with cache := fun other value hcached => ?_, gates := ?_ }
    · exact .inl (Table.get?_of_erase hcached)
    · exact fun _ _ _ _ _ => id
  constructor
  case fits =>
    intro task other μ hview
    exact (hserves.fits task other μ hview).spared (hspares (task + 1))
      (Nat.ne_of_lt (Nat.lt_succ_self _))
  case idle =>
    intro task hview
    exact (hserves.idle task hview).spared (hspares (task + 1))
      (Nat.ne_of_lt (Nat.lt_succ_self _))
  case gates => exact hserves.gates
  case cached => exact hserves.cached_spared (hspares 0)
  case answered => exact hserves.answered
  case tended => exact hserves.tended

end

def serving (V : Type) (strict : Prop) :
    Machine.Discipline (flight V) watch (fun g s event => strict → orderly g s event = true)
      (Turn V) where
  mon := turns V
  opening := fun g _ key => ⟨key, g.now, .asking⟩
  post := fun _ μ result => ∃ out, result = .ok out ∧ μ.phase = .done out
  inv := Serves strict
  conforms := fun g _ key => dedup_conforms key g.now
  called := fun hserves hfree _ => hserves.called hfree
  did := by
    intro g s views task key μ o choice answer s' hserves hview hallows hexec hguard
    obtain ⟨key', start, phase⟩ := μ
    obtain rfl : key' = key := (hserves.fits _ _ _ hview).named
    refine ⟨trivial, ?_⟩
    replace hallows : Due key' phase o := hallows
    replace hexec : exec task o choice s = some (answer, s') := hexec
    cases hallows with
    | look =>
        cases hexec
        exact hserves.look hview
    | enter =>
        simp only [exec] at hexec
        split at hexec
        · cases hexec
        · rename_i hstep
          cases hexec
          exact hserves.enter hview hstep
    | lock gate =>
        simp only [exec, Locks.step] at hexec
        split at hexec
        · cases hexec
        · rename_i hstep
          split at hstep
          · cases hstep
          · rename_i hfree
            cases hstep
            cases hexec
            exact hserves.lock hview (Bool.eq_false_iff.mpr hfree)
    | again gate =>
        cases hexec
        exact hserves.again hview
    | fetch gate =>
        cases hexec
        exact hserves.fetch hview
    | fetched gate =>
        cases choice with
        | none => cases hexec
        | some brought =>
            cases hexec
            exact hserves.fetched hview
    | unlock gate out =>
        cases hexec
        exact hserves.unlock hview
    | retire gate out =>
        cases hexec
        refine hserves.retire hview (fun hstrict => ?_) rfl
        simpa [orderly] using hguard hstrict
    | drop gate out =>
        cases hexec
        exact hserves.dropClone hview
  ended := by
    intro g s views task key μ result hserves hview hpost hguard
    obtain ⟨out, rfl, hdone⟩ := hpost
    have hfits := hserves.fits _ _ _ hview
    refine hserves.gone ?_ fun _ key' μ' hview' => ?_
    · intro answer hmem
      rcases List.mem_cons.mp hmem with rfl | hmem
      · rw [hfits.started]
        exact hfits.out out (hdone ▸ rfl)
      · exact hserves.answered answer hmem
    · rw [hview] at hview'
      cases hview'
      rw [hdone]
      rfl
  dropped := by
    intro g s views task key μ hserves hview hguard
    refine hserves.gone hserves.answered fun hstrict key' μ' hview' => ?_
    have hnone := Option.isNone_iff_eq_none.mp (hguard hstrict)
    rw [(hserves.fits _ _ _ hview').clone] at hnone
    exact (Option.or_eq_none_iff.mp hnone).1
  moved := by
    intro g s views key s' hserves hmoved _
    cases hmoved
    exact hserves.expired

/-! The property. -/

theorem Serves.start (strict : Prop) : Serves strict ({} : History V) {} fun _ => none where
  fits := by
    intro task key μ hview
    cases hview
  idle := fun _ _ => ⟨rfl, rfl, rfl⟩
  gates := by
    constructor
    · intro key other gate hget
      cases hget
    · intro key gate hget
      cases hget
  cached := by
    intro key value hget
    cases hget
  answered := by
    intro answer hmem
    cases hmem
  tended := by
    intro _ key gate hget
    cases hget

section

variable {g : History V} {s : Flight V} {key : FlightKey}
  {views : Nat → Option (FlightKey × Turn V)} {strict : Prop}

theorem Serves.fetcher {task began : Nat} (hserves : Serves strict g s views)
    (hfetching : g.fetching.get? task = some (key, began)) :
    ∃ gate, s.locks.gates.get? key = some gate ∧ s.locks.held.get? (.gate gate) = some task := by
  cases hview : views task with
  | none =>
      rw [(hserves.idle task hview).fetching] at hfetching
      cases hfetching
  | some view =>
      obtain ⟨key', μ⟩ := view
      have hfits := hserves.fits _ _ _ hview
      cases hphase : μ.phase with
      | fetching gate =>
          obtain ⟨began', hget, -⟩ := hfits.fetching (hphase ▸ rfl)
          rw [hget] at hfetching
          cases hfetching
          exact ⟨gate, hfits.door gate (hphase ▸ rfl), hfits.held gate (hphase ▸ rfl)⟩
      | _ =>
          rw [hfits.resting (hphase ▸ rfl)] at hfetching
          cases hfetching

theorem Serves.exclusive {first second began began' : Nat} (hserves : Serves strict g s views)
    (hfirst : g.fetching.get? first = some (key, began))
    (hsecond : g.fetching.get? second = some (key, began')) : first = second := by
  obtain ⟨gate, hopen, hheld⟩ := hserves.fetcher hfirst
  obtain ⟨gate', hopen', hheld'⟩ := hserves.fetcher hsecond
  rw [hopen] at hopen'
  cases hopen'
  rw [hheld] at hheld'
  exact Option.some.inj hheld'

end

/-- In every run no two fetches of a key run at the same time, and what a caller is answered was
in the cache at its first look, or was brought by a fetch that ended while the call ran.  In an
orderly run the map has gates only of keys that a caller is in flight for. -/
theorem flight_coalesces :
    (∀ c g, Machine.Reach watch Machine.free ((flight V).idle {}) {} c g →
      (∀ first second key began began', g.fetching.get? first = some (key, began) →
        g.fetching.get? second = some (key, began') → first = second) ∧
      ∀ answer ∈ g.answers, Obtained g.fetches answer.found answer.key answer.value
        answer.started answer.ended) ∧
    ∀ c g, Machine.Reach watch (Machine.passes orderly) ((flight V).idle {}) {} c g →
      ∀ key gate, c.shared.locks.gates.get? key = some gate →
        ∃ task running, c.tasks task = some running ∧ running.call = key := by
  constructor
  · intro c g hreach
    obtain ⟨views, -, hserves⟩ := (serving V False).run (Serves.start False)
      (hreach.mono fun _ _ _ _ => False.elim)
    exact ⟨fun _ _ _ _ _ => hserves.exclusive, hserves.answered⟩
  · intro c g hreach key gate hopen
    obtain ⟨views, htracks, hserves⟩ := (serving V True).run (Serves.start True)
      (hreach.mono fun _ _ _ hpasses _ => hpasses)
    obtain ⟨task, μ, hview, -⟩ := hserves.tended trivial key gate hopen
    cases htask : c.tasks task with
    | none =>
        rw [htracks.absent task htask] at hview
        cases hview
    | some running =>
        obtain ⟨μ', hview', -⟩ := htracks.present task running htask
        rw [hview] at hview'
        cases hview'
        exact ⟨task, running, htask, rfl⟩

/-! Three callers. -/

def crowded : List (Machine.Label (flight Nat)) :=
  let go (task : Nat) : Machine.Label (flight Nat) := .step task none
  [.call (.name 7), .call (.name 7), go 0, go 1, go 0, go 1, go 0, go 0, go 0,
    .step 0 (some (42, true)), go 0, go 1, go 1, go 1, go 0, go 1, go 0, go 1, go 0, go 1,
    .call (.name 7), go 2, go 2]

def gateLeft (c : (flight Nat).Config) (g : History Nat) : Bool :=
  c.next == 3 && (List.range 3).all (fun task => (c.tasks task).isNone) &&
    (c.shared.locks.gates.get? (.name 7)).isSome &&
    g.answers.any fun answer => g.fetches.all fun fetch => decide (fetch.ended < answer.started)

theorem gates_left_and_answers_from_before :
    ∃ c g, Machine.Reach watch Machine.free ((flight Nat).idle {}) {} c g ∧
      (∀ task, c.tasks task = none) ∧ c.shared.locks.gates.get? (.name 7) ≠ none ∧
      ∃ answer ∈ g.answers,
        ¬Brought g.fetches answer.key answer.value answer.started answer.ended := by
  have hplay : (Machine.play watch (fun _ _ _ => true) ((flight Nat).idle {}) {} crowded).any
      (fun last => gateLeft last.1 last.2) = true := by
    decide
  obtain ⟨c, g, hreach, hleft⟩ : ∃ c g,
      Machine.Reach watch Machine.free ((flight Nat).idle {}) {} c g ∧ gateLeft c g = true :=
    Machine.reach_of_play (fun _ _ _ _ => trivial) hplay
  simp only [gateLeft, Bool.and_eq_true] at hleft
  obtain ⟨⟨⟨hnext, hgone⟩, hgate⟩, hlate⟩ := hleft
  refine ⟨c, g, hreach, fun task => ?_, ?_, ?_⟩
  · by_cases hbelow : task < 3
    · have hmem := List.mem_range.mpr hbelow
      exact Option.isNone_iff_eq_none.mp (List.all_eq_true.mp hgone task hmem)
    · exact hreach.numbered task (by rw [eq_of_beq hnext]; omega)
  · intro hnone
    rw [hnone] at hgate
    cases hgate
  · obtain ⟨answer, hmem, hbefore⟩ := List.any_eq_true.mp hlate
    refine ⟨answer, hmem, ?_⟩
    rintro ⟨fetch, hfetch, -, -, -, hsince, -⟩
    have hended := of_decide_eq_true (List.all_eq_true.mp hbefore fetch hfetch)
    exact absurd hsince (Nat.not_le.mpr hended)

end UnityLan.Coordinator.SingleFlight
