import Mathlib.Data.Set.Function
import UnityLan.Coordinator.Footprint

namespace UnityLan.Coordinator

open UnityLan.Foundation Prog

/-! Whether the version of a snapshot vouches for the presence the snapshot was made
from. -/

structure Change where
  place : Place
  author : Nat
  counted : Bool := false
  deriving DecidableEq

structure View where
  place : Place
  exclude : PubKey
  rows : List MemberPresence
  deriving DecidableEq

/-- What one snapshot was made from. -/
structure Reading where
  views : List View := []
  /-- The changes of the places it read, made after it read them. -/
  later : List Change := []
  /-- The counters its version is made of. -/
  counters : List (Scope × Nat) := []
  /-- The request is held: it reads counters for another reason now. -/
  held : Bool := false
  deriving DecidableEq

namespace Reading

def scopes (r : Reading) : List Scope :=
  r.counters.map Prod.fst

def reads (r : Reading) (place : Place) : Bool :=
  r.views.any fun view => view.place == place

def see (r : Reading) (view : View) : Reading :=
  { r with views := r.views ++ [view] }

def count (r : Reading) (scope : Scope) (counter : Nat) : Reading :=
  if r.held then r else { r with counters := r.counters ++ [(scope, counter)] }

def hold (r : Reading) : Reading :=
  { r with held := true }

def changed (author : Nat) (places : List Place) (r : Reading) : Reading :=
  { r with later := r.later ++ (places.filter r.reads).map fun place => ⟨place, author, false⟩ }

def bumped (author : Nat) (scope : Scope) (r : Reading) : Reading :=
  { r with
    later := r.later.map fun change =>
      if change.author = author ∧ change.place.scope = scope then { change with counted := true }
      else change }

def misses (r : Reading) (author : Nat) (scope : Scope) : Bool :=
  !r.held && !r.scopes.contains scope &&
    r.later.any fun change => change.author == author && change.place.scope == scope

end Reading

/-- An answer that was sent. -/
structure Sent where
  version : Nat
  reading : Reading

structure Updates where
  readings : Table Nat Reading := ∅
  answered : List Sent := []

namespace Updates

def everywhere (u : Updates) (change : Reading → Reading) : Updates where
  readings := u.readings.mapValues fun _ => change
  answered := u.answered.map fun sent => { sent with reading := change sent.reading }

def onTask (u : Updates) (task : Nat) (change : Reading → Reading) : Updates :=
  { u with readings := u.readings.modify task change }

def begin (u : Updates) (task : Nat) : Updates :=
  { u with readings := u.readings.insert task {} }

def gone (u : Updates) (task : Nat) : Updates :=
  { u with readings := u.readings.erase task }

def answer (u : Updates) (task : Nat) (resp : RegisterResp) : Updates :=
  match u.readings.get? task with
  | some r => { u with answered := ⟨resp.version, r⟩ :: u.answered }
  | none => u

def didPresence (u : Updates) (before : Presence) (task : Nat) :
    (p : Presence.Op) → p.Res → Updates
  | .othersIn guild role exclude, rows =>
      u.onTask task (·.see ⟨.network guild role, exclude, rows⟩)
  | .othersOfUser user exclude, rows => u.onTask task (·.see ⟨.own user, exclude, rows⟩)
  | p, answer => u.everywhere (Reading.changed task (before.changedPlaces p answer))

def didVersions (u : Updates) (task : Nat) : (v : Versions.Op) → v.Res → Updates
  | .bump scope, _ => u.everywhere (Reading.bumped task scope)
  | .counter scope, counter => u.onTask task (·.count scope counter)
  | _, _ => u

end Updates

variable (conf : Conf)

def updates : Machine.Observer (machine conf) Updates where
  see := fun u st event _ =>
    match event with
    | .called task _ => u.begin task
    | .did task (.presence p) answer => u.didPresence st.presence task p answer
    | .did task (.versions v) answer => u.didVersions task v answer
    | .did task (.nat (.putSourceIp ..)) _ => u.begin task
    | .did task (.tryAcquire _) _ => u.onTask task Reading.hold
    | .did .. => u
    | .ended task (.register ..) (.ok (.registered resp)) => (u.answer task resp).gone task
    | .ended task _ _ => u.gone task
    | .dropped task _ => u.gone task
    | .moved _ => u

/-- No bump announces a change to a snapshot that has read the changed place before the
change and reads the counter of its scope after the bump. -/
def noLateBump (u : Updates) (_ : AppState) : (machine conf).Event → Bool
  | .did task (.versions (.bump scope)) _ =>
      u.readings.rows.all fun row => row.1 == task || !row.2.misses task scope
  | _ => true

/-! The property. -/

/-- The counters of some scopes as they stand. -/
def countersNow (st : AppState) (scopes : List Scope) : List (Scope × Nat) :=
  scopes.map fun scope => (scope, st.versions.count scope)

/-- No announced change of the caller's scopes is missing from what a snapshot read, and
what has not changed since reads as it did. -/
structure Reading.Reflects (r : Reading) (st : AppState) : Prop where
  announced : ∀ change ∈ r.later, change.place.scope ∈ r.scopes → change.counted = false
  rows : ∀ view ∈ r.views, (∀ change ∈ r.later, change.place ≠ view.place) →
    ∀ p, p ∈ view.rows ↔ p ∈ st.presence.othersAt view.place view.exclude

/-- A request waits in its `select`, and no counter has moved since it looked. -/
def ParkedOn (c : (machine conf).Config) (task : Nat) (req : RegisterReq)
    (receivers : List (Scope × Nat)) : Prop :=
  (∃ callerIp deadline next resting,
    c.tasks task = some ⟨.register req callerIp, .op (.select receivers deadline) next, resting⟩) ∧
  ∀ row ∈ receivers, c.shared.versions.count row.1 = row.2

/-- The lists of counters whose hashes are compared. -/
def Updates.vectors (u : Updates) (st : AppState) : Set (List (Scope × Nat)) :=
  { counters |
    (∃ sent ∈ u.answered, counters = sent.reading.counters ∨
      counters = countersNow st sent.reading.scopes) ∨
    ∃ task r, u.readings.get? task = some r ∧
      (counters = r.counters ∨ counters = countersNow st r.scopes) }

/-! The monitor: a build changes presence before it reads any, and a request parks on the
counters its own version is made of. -/

structure Builder where
  since : Option Nat := none
  /-- The build has read presence. -/
  reading : Bool := false
  counters : List (Scope × Nat) := []
  held : Bool := false
  /-- The counters read since the request is held or was last woken. -/
  polled : List (Scope × Nat) := []
  deriving DecidableEq

def changesPresence : Presence.Op → Bool
  | .record .. => true
  | .recordSelf .. => true
  | .evict .. => true
  | .evictSelf .. => true
  | .evictUser .. => true
  | .reapMap .. => true
  | .reapSelf .. => true
  | _ => false

namespace Builder

/-- What the counters a request parks on say about its `since`. -/
def Parks (μ : Builder) (receivers : List (Scope × Nat)) : Prop :=
  ∃ again, μ.polled = receivers ++ again ∧ again.map Prod.fst = receivers.map Prod.fst ∧
    receivers.map Prod.fst = μ.counters.map Prod.fst ∧
    μ.since = some (conf.scopeHash again) ∧ μ.since = some (conf.scopeHash μ.counters)

def poll (μ : Builder) (rows : List (Scope × Nat)) : Builder :=
  if μ.held then { μ with polled := μ.polled ++ rows }
  else { μ with counters := μ.counters ++ rows }

def allows (μ : Builder) : Op → Prop
  | .presence p => changesPresence p = true → μ.reading = false
  | .select receivers _ => μ.Parks conf receivers
  | _ => True

def next (μ : Builder) : (o : Op) → o.Res → Builder
  | .nat (.putSourceIp ..), _ => { since := μ.since }
  | .presence (.othersIn ..), _ => { μ with reading := true }
  | .presence (.othersOfUser ..), _ => { μ with reading := true }
  | .versions (.counter scope), counter => μ.poll [(scope, counter)]
  | .tryAcquire _, _ => { μ with held := true, polled := [] }
  | .select .., _ => { μ with polled := [] }
  | _, _ => μ

def mon : Monitor sig Builder where
  allows := allows conf
  expects := fun _ _ _ => True
  next := next

end Builder

section

variable {conf} {req : RegisterReq} {ε α : Type} {μ : Builder}

structure SameBuild (μ μ' : Builder) : Prop where
  since : μ'.since = μ.since
  counters : μ'.counters = μ.counters
  held : μ'.held = μ.held
  polled : μ'.polled = μ.polled

theorem answer_same {program : Prog sig ε α} (hprogram : program.Uses (AnswerOp req)) :
    program.Conforms (Builder.mon conf) (returns fun μ' _ => SameBuild μ μ') μ := by
  refine (hprogram.keeps (SameBuild μ) (fun m o ho hsame => ?_) ⟨rfl, rfl, rfl, rfl⟩).mono
    fun μ' result hsame => ?_
  · cases o with
    | presence p =>
        cases p with
        | othersIn guild role exclude =>
            exact ⟨nofun, fun _ _ => ⟨hsame.since, hsame.counters, hsame.held, hsame.polled⟩⟩
        | othersOfUser user exclude =>
            exact ⟨nofun, fun _ _ => ⟨hsame.since, hsame.counters, hsame.held, hsame.polled⟩⟩
        | _ => exact ho.elim
    | versions v => cases v <;> first | exact ⟨trivial, fun _ _ => hsame⟩ | exact ho.elim
    | nat o => cases o <;> first | exact ⟨trivial, fun _ _ => hsame⟩ | exact ho.elim
    | tryAcquire pubkey => exact ho.elim
    | select receivers deadline => exact ho.elim
    | _ => exact ⟨trivial, fun _ _ => hsame⟩
  · cases result with
    | ok _ => exact hsame
    | error _ => trivial

theorem admission_same {program : Prog sig ε α} (hprogram : program.Uses (AdmissionOp req)) :
    program.Conforms (Builder.mon conf) (returns fun μ' _ => μ' = μ) μ := by
  refine (hprogram.conforms fun o ho => ?_).mono fun μ' result hsame => ?_
  · cases o with
    | store q => exact ⟨trivial, fun _ => rfl⟩
    | nowUnix => exact ⟨trivial, fun _ => rfl⟩
    | _ => exact ho.elim
  · cases result with
    | ok _ => exact hsame
    | error _ => trivial

theorem settle_begins (callerIp : IpAddr) (user : UserId) :
    (settle conf req callerIp user).Conforms (Builder.mon conf)
      (returns fun μ' _ => μ' = { since := μ.since }) μ := by
  have huses := @settle_uses conf req callerIp user
  unfold settle at huses ⊢
  rw [uses_act_bind] at huses
  rw [conforms_act_bind]
  refine ⟨trivial, fun answer _ => ?_⟩
  refine ((huses.2 answer).keeps (fun m => m = { since := μ.since }) (fun m o ho hsame => ?_)
    rfl).mono fun μ' result hsame => ?_
  · subst hsame
    cases o with
    | presence p => cases p <;> first | exact ⟨fun _ => rfl, fun _ _ => rfl⟩ | exact ho.elim
    | nat o => cases o <;> exact ⟨trivial, fun _ _ => rfl⟩
    | versions v => exact ho.elim
    | tryAcquire pubkey => exact ho.elim
    | select receivers deadline => exact ho.elim
    | _ => exact ⟨trivial, fun _ _ => rfl⟩
  · cases result with
    | ok _ => exact hsame
    | error _ => trivial

@[simp] theorem poll_nil (μ : Builder) : μ.poll [] = μ := by
  unfold Builder.poll
  split <;> simp

theorem poll_poll (μ : Builder) (first second : List (Scope × Nat)) :
    (μ.poll first).poll second = μ.poll (first ++ second) := by
  cases hheld : μ.held <;> simp [Builder.poll, hheld]

theorem readCounters_polls (scopes : List Scope) :
    (readCounters scopes : Prog sig ε _).Conforms (Builder.mon conf)
      (returns fun μ' rows => μ' = μ.poll rows ∧ rows.map Prod.fst = scopes) μ := by
  induction scopes generalizing μ with
  | nil => exact ⟨(poll_nil μ).symm, rfl⟩
  | cons scope rest ih =>
      unfold readCounters
      rw [conforms_act_bind]
      refine ⟨trivial, fun count _ => ?_⟩
      refine ih.andThen fun μ' rows hrows => ?_
      obtain ⟨rfl, hscopes⟩ := hrows
      refine ⟨poll_poll μ [(scope, count)] rows, ?_⟩
      rw [List.map_cons, hscopes]

theorem aggregate_polls (scopes : List Scope) :
    (aggregate conf scopes : Prog sig ε _).Conforms (Builder.mon conf)
      (returns fun μ' version => ∃ rows, μ' = μ.poll rows ∧ rows.map Prod.fst = scopes ∧
        version = conf.scopeHash rows) μ := by
  unfold aggregate
  refine (readCounters_polls scopes).andThen fun μ' rows hrows => ?_
  exact ⟨rows, hrows.1, hrows.2, rfl⟩

structure Vouched (conf : Conf) (since : Option Nat) (μ : Builder) (built : Built) : Prop where
  since : μ.since = since
  held : μ.held = false
  version : built.resp.version = conf.scopeHash μ.counters
  scopes : built.scopes = μ.counters.map Prod.fst

theorem answer_vouches (user : UserId) (alreadyEnrolled : Bool) (settled : Settled)
    (hcounters : μ.counters = []) (hheld : μ.held = false) :
    (answer conf req user alreadyEnrolled settled).Conforms (Builder.mon conf)
      (returns fun μ' built => Vouched conf μ.since μ' built) μ := by
  unfold answer
  refine (answer_same ((buildGrant_uses conf _ _ _ _).mono (plain_answer _))).andThen
    fun μ₁ grant hsame₁ => ?_
  refine (answer_same (buildSeeds_uses conf _ _ _ _ _)).andThen
    fun μ₂ built hsame₂ => ?_
  refine (answer_same ((deliverToken_uses _).mono (plain_answer _))).andThen
    fun μ₃ token hsame₃ => ?_
  refine (answer_same ((@bumpAll_uses req _ _).mono (plain_answer _))).andThen fun μ₄ _ hsame₄ => ?_
  refine (answer_same ((@wakeAll_uses req _ _).mono (plain_answer _))).andThen fun μ₅ _ hsame₅ => ?_
  have hcounters₅ : μ₅.counters = [] := by
    rw [hsame₅.counters, hsame₄.counters, hsame₃.counters, hsame₂.counters, hsame₁.counters,
      hcounters]
  have hheld₅ : μ₅.held = false := by
    rw [hsame₅.held, hsame₄.held, hsame₃.held, hsame₂.held, hsame₁.held, hheld]
  have hsince₅ : μ₅.since = μ.since := by
    rw [hsame₅.since, hsame₄.since, hsame₃.since, hsame₂.since, hsame₁.since]
  refine (aggregate_polls _).andThen fun μ₆ version hversion => ?_
  obtain ⟨rows, rfl, hscopes, rfl⟩ := hversion
  have hpoll : μ₅.poll rows = { μ₅ with counters := rows } := by
    simp [Builder.poll, hheld₅, hcounters₅]
  rw [hpoll]
  refine (answer_same ((@buildAnchors_uses conf req _).mono (plain_answer _))).andThen
    fun μ₇ anchors hsame₇ => ?_
  refine (answer_same ((@signRelease_uses conf req _).mono (plain_answer _))).andThen
    fun μ₈ release hsame₈ => ?_
  have hrows : μ₈.counters = rows := by rw [hsame₈.counters, hsame₇.counters]
  refine ⟨?_, ?_, ?_, ?_⟩
  · rw [hsame₈.since, hsame₇.since, hsince₅]
  · rw [hsame₈.held, hsame₇.held, hheld₅]
  · rw [hrows]
  · rw [hrows, hscopes]

theorem buildSnapshot_vouches (callerIp : IpAddr) :
    (buildSnapshot conf req callerIp).Conforms (Builder.mon conf)
      (returns fun μ' built => Vouched conf μ.since μ' built) μ := by
  unfold buildSnapshot validatePeerReports
  split
  · trivial
  · refine (admission_same (resolveUser_uses conf)).andThen
      fun μ₁ caller hsame => ?_
    subst hsame
    refine (settle_begins callerIp _).andThen fun μ₂ settled hsame => ?_
    subst hsame
    refine (answer_vouches _ _ settled ?_ ?_ : Conforms _ _ _ { since := μ₁.since })
    · rfl
    · rfl

/-! Waiting. -/

theorem subscribeAll_same (scopes : List Scope) :
    (subscribeAll scopes : Prog sig ε Unit).Conforms (Builder.mon conf)
      (returns fun μ' _ => μ' = μ) μ := by
  induction scopes with
  | nil => rfl
  | cons scope rest ih =>
      unfold subscribeAll
      rw [conforms_act_bind]
      exact ⟨trivial, fun _ _ => ih⟩

theorem parkLoop_parks {scopes : List Scope} {since deadline rounds : Nat}
    (hheld : μ.held = true) (hpolled : μ.polled = []) (hsince : μ.since = some since)
    (hversion : since = conf.scopeHash μ.counters) (hscopes : scopes = μ.counters.map Prod.fst) :
    (parkLoop conf scopes since deadline rounds).Conforms (Builder.mon conf)
      (returns fun μ' _ => μ'.since = some since) μ := by
  induction rounds generalizing μ with
  | zero =>
      unfold parkLoop
      rw [conforms_act_bind]
      exact ⟨trivial, fun answer _ => Empty.elim answer⟩
  | succ rounds ih =>
      unfold parkLoop
      refine (readCounters_polls scopes).andThen fun μ₁ receivers hreceivers => ?_
      obtain ⟨rfl, hread⟩ := hreceivers
      refine (aggregate_polls scopes).andThen fun μ₂ version hagain => ?_
      obtain ⟨again, rfl, hreread, rfl⟩ := hagain
      have hpoll : (μ.poll receivers).poll again = { μ with polled := receivers ++ again } := by
        rw [poll_poll]
        simp [Builder.poll, hheld, hpolled]
      rw [hpoll]
      split
      · exact hsince
      · rename_i hsame
        rw [not_not] at hsame
        rw [conforms_act_bind]
        refine ⟨?_, fun arm _ => ?_⟩
        · refine ⟨again, rfl, hreread.trans hread.symm, hread.trans hscopes, ?_, ?_⟩
          · rw [hsame]
            exact hsince
          · rw [← hversion]
            exact hsince
        · cases arm with
          | scopes => exact ih hheld rfl hsince hversion hscopes
          | personal => exact hsince
          | preempted => exact hsince
          | elapsed => exact hsince

theorem hold_vouches (callerIp : IpAddr) (built : Built)
    (hvouched : Vouched conf req.since μ built)
    (hsince : req.since = some built.resp.version) :
    (hold conf req callerIp built).Conforms (Builder.mon conf)
      (returns fun μ' resp => resp.version = conf.scopeHash μ'.counters) μ := by
  have hrebuild : ∀ μ' : Builder,
      (do return (← buildSnapshot conf req callerIp).resp : Handler RegisterResp).Conforms
        (Builder.mon conf) (returns fun μ' resp => resp.version = conf.scopeHash μ'.counters)
        μ' :=
    fun μ' => (buildSnapshot_vouches callerIp).andThen fun μ'' built hbuilt => hbuilt.version
  unfold hold
  rw [conforms_act_bind]
  refine ⟨trivial, fun acquired _ => ?_⟩
  split
  · unfold waitPark
    refine Conforms.through (fun _ _ => True) ?_ fun μ₁ woke _ => ?_
    · refine (subscribeAll_same _).andThen fun μ₁ _ hsame => ?_
      subst hsame
      simp only [conforms_act_bind]
      refine ⟨trivial, fun started _ => ⟨trivial, fun rounds _ => ?_⟩⟩
      have hparks : (parkLoop conf built.scopes built.resp.version
          (started + conf.longpollHoldSecs) rounds).Conforms
          (Builder.mon conf) _ { μ with held := true, polled := [] } :=
        parkLoop_parks rfl rfl (hvouched.since.trans hsince) hvouched.version hvouched.scopes
      exact hparks.returns_mono fun _ _ _ => trivial
    · split
      · rw [conforms_act_bind]
        exact ⟨trivial, fun _ _ => hrebuild _⟩
      · exact hrebuild _
  · trivial

theorem register_vouches (callerIp : IpAddr) (hsince : μ.since = req.since) :
    (register conf req callerIp).Conforms (Builder.mon conf)
      (returns fun μ' resp => resp.version = conf.scopeHash μ'.counters) μ := by
  unfold register negotiate
  split
  · rw [pure_eq, ret_bind, conforms_act_bind]
    refine ⟨trivial, fun woken _ => ?_⟩
    refine (buildSnapshot_vouches callerIp).andThen fun μ₁ built hbuilt => ?_
    have hvouched : Vouched conf req.since μ₁ built :=
      ⟨hbuilt.since.trans hsince, hbuilt.held, hbuilt.version, hbuilt.scopes⟩
    split
    · rename_i hcurrent
      refine hold_vouches callerIp built hvouched ?_
      simp only [Bool.and_eq_true, beq_iff_eq] at hcurrent
      exact hcurrent.2
    · exact hbuilt.version
  · trivial

end

def builderOf : Call → Builder
  | .register req _ => { since := req.since }
  | _ => {}

def vouchedPost (μ : Builder) : Call → Except ApiError Reply → Prop
  | .register .., .ok (.registered resp) => resp.version = conf.scopeHash μ.counters
  | _, _ => True

theorem side_same {program : Handler Reply} (hprogram : program.Uses SideOp) :
    program.Conforms (Builder.mon conf) (fun _ _ => True) ({} : Builder) := by
  refine (hprogram.keeps (fun m => m = ({} : Builder)) (fun m o ho hsame => ?_) rfl).mono
    fun _ _ _ => trivial
  subst hsame
  cases o with
  | presence p => cases p <;> first | exact ⟨fun _ => rfl, fun _ _ => rfl⟩ | exact ho.elim
  | nat o => cases o <;> exact ⟨trivial, fun _ _ => rfl⟩
  | versions v => cases v <;> first | exact ⟨trivial, fun _ _ => rfl⟩ | exact ho.elim
  | tryAcquire pubkey => exact ho.elim
  | select receivers deadline => exact ho.elim
  | _ => exact ⟨trivial, fun _ _ => rfl⟩

theorem handle_vouches (call : Call) :
    (handle conf call).Conforms (Builder.mon conf) (fun μ => vouchedPost conf μ call)
      (builderOf call) := by
  have hside : ∀ call, (∀ o, CallOp call o → SideOp o) → builderOf call = {} →
      (∀ μ result, vouchedPost conf μ call result) →
      (handle conf call).Conforms (Builder.mon conf) (fun μ => vouchedPost conf μ call)
        (builderOf call) := by
    intro call hinside hopening hpost
    rw [hopening]
    exact (side_same conf ((handle_uses conf call).mono hinside)).mono
      fun μ result _ => hpost μ result
  cases call with
  | register req callerIp =>
      have hregister : (handle conf (.register req callerIp)).Conforms (Builder.mon conf)
          (returns fun μ' reply => vouchedPost conf μ' (.register req callerIp) (.ok reply))
          (builderOf (.register req callerIp)) :=
        (register_vouches callerIp rfl).andThen fun μ resp hvouched => hvouched
      refine hregister.mono fun μ result hresult => ?_
      cases result with
      | ok reply => exact hresult
      | error error => trivial
  | _ => exact hside _ (fun _ h => h) rfl fun _ _ => trivial

/-! The invariant. -/

structure Honest (r : Reading) (st : AppState) : Prop where
  bounded : ∀ row ∈ r.counters, row.2 ≤ st.versions.count row.1
  counted : ∀ change ∈ r.later, change.counted = true → change.place.scope ∈ r.scopes →
    ∃ row ∈ r.counters, row.1 = change.place.scope ∧ row.2 < st.versions.count row.1
  current : ∀ view ∈ r.views, (∀ change ∈ r.later, change.place ≠ view.place) →
    ∀ p, p ∈ view.rows ↔ p ∈ st.presence.othersAt view.place view.exclude

/-- The build of a running task, moreover, has missed no announced change of a scope it
has not counted yet. -/
structure Sound (task : Nat) (r : Reading) (st : AppState) : Prop where
  honest : Honest r st
  others : ∀ change ∈ r.later, change.author ≠ task
  counted : r.held = false → ∀ change ∈ r.later, change.counted = true →
    change.place.scope ∈ r.scopes

structure Follows (μ : Builder) (r : Reading) : Prop where
  counters : r.counters = μ.counters
  held : r.held = μ.held
  views : μ.reading = false → r.views = []

def Rising (counters : List (Scope × Nat)) : Prop :=
  counters.Pairwise fun first second => first.1 = second.1 → first.2 ≤ second.2

structure UpdatesInv (u : Updates) (st : AppState) (views : Nat → Option (Call × Builder)) :
    Prop where
  builds : ∀ task call μ, views task = some (call, μ) →
    ∃ r, u.readings.get? task = some r ∧ Follows μ r
  since : ∀ task call μ, views task = some (call, μ) → μ.since = (builderOf call).since
  rising : ∀ task call μ, views task = some (call, μ) → Rising μ.polled
  polled : ∀ task call μ, views task = some (call, μ) →
    ∀ row ∈ μ.polled, row.2 ≤ st.versions.count row.1
  sound : ∀ task r, u.readings.get? task = some r → Sound task r st
  sent : ∀ sent ∈ u.answered, Honest sent.reading st ∧
    sent.version = conf.scopeHash sent.reading.counters

section

variable {conf} {u : Updates} {st st' : AppState} {views : Nat → Option (Call × Builder)}
  {task : Nat} {call : Call} {μ : Builder} {r : Reading}

theorem Honest.of_state (hhonest : Honest r st)
    (hcounts : ∀ scope, st.versions.count scope ≤ st'.versions.count scope)
    (hpresence : st'.presence = st.presence) : Honest r st' where
  bounded := fun row hrow => (hhonest.bounded row hrow).trans (hcounts row.1)
  counted := by
    intro change hchange hcounted hscope
    obtain ⟨row, hrow, hsame, hbelow⟩ := hhonest.counted change hchange hcounted hscope
    exact ⟨row, hrow, hsame, hbelow.trans_le (hcounts row.1)⟩
  current := by
    rw [hpresence]
    exact hhonest.current

theorem Sound.of_state (hsound : Sound task r st)
    (hcounts : ∀ scope, st.versions.count scope ≤ st'.versions.count scope)
    (hpresence : st'.presence = st.presence) : Sound task r st' :=
  ⟨hsound.honest.of_state hcounts hpresence, hsound.others, hsound.counted⟩

theorem mem_changed {author : Nat} {places : List Place} {change : Change} :
    change ∈ (r.changed author places).later ↔ change ∈ r.later ∨
      change.place ∈ places ∧ r.reads change.place = true ∧ change.author = author ∧
        change.counted = false := by
  simp only [Reading.changed, List.mem_append, List.mem_map, List.mem_filter]
  constructor
  · rintro (hold | ⟨place, ⟨hplace, hreads⟩, rfl⟩)
    · exact .inl hold
    · exact .inr ⟨hplace, hreads, rfl, rfl⟩
  · rintro (hold | ⟨hplace, hreads, hauthor, hcounted⟩)
    · exact .inl hold
    · obtain ⟨place, author', counted⟩ := change
      subst hauthor hcounted
      exact .inr ⟨place, ⟨hplace, hreads⟩, rfl⟩

theorem Honest.changed {p : Presence.Op} {author : Nat} (hhonest : Honest r st)
    (hversions : st'.versions = st.versions)
    (hstep : (st.presence.step p).2 = st'.presence) :
    Honest (r.changed author (st.presence.changedPlaces p (st.presence.step p).1)) st' where
  bounded := by
    rw [hversions]
    exact hhonest.bounded
  counted := by
    intro change hchange hcounted hscope
    rw [hversions]
    rcases mem_changed.mp hchange with hold | ⟨_, _, _, hnew⟩
    · exact hhonest.counted change hold hcounted hscope
    · rw [hnew] at hcounted
      cases hcounted
  current := by
    intro view hview hkept p'
    have hplace : view.place ∉ st.presence.changedPlaces p (st.presence.step p).1 := by
      intro hplace
      have hreads : r.reads view.place = true :=
        List.any_eq_true.mpr ⟨view, hview, beq_self_eq_true _⟩
      exact hkept ⟨view.place, author, false⟩
        (mem_changed.mpr (.inr ⟨hplace, hreads, rfl, rfl⟩)) rfl
    rw [hhonest.current view hview (fun change hchange =>
      hkept change (mem_changed.mpr (.inl hchange))), Presence.mem_othersAt,
      Presence.mem_othersAt]
    refine exists_congr fun pubkey => and_congr_right fun _ => ?_
    rw [← hstep, Presence.rowAt_step hplace]

theorem mem_bumped {author : Nat} {scope : Scope} {change : Change}
    (hchange : change ∈ (r.bumped author scope).later) :
    ∃ old ∈ r.later, change.place = old.place ∧ change.author = old.author ∧
      (change.counted = true →
        old.counted = true ∨ old.author = author ∧ old.place.scope = scope) := by
  simp only [Reading.bumped, List.mem_map] at hchange
  obtain ⟨old, hold, rfl⟩ := hchange
  refine ⟨old, hold, ?_⟩
  split
  · rename_i hmatch
    exact ⟨rfl, rfl, fun _ => .inr hmatch⟩
  · exact ⟨rfl, rfl, .inl⟩

theorem Honest.bumped {author : Nat} {scope : Scope} (hhonest : Honest r st)
    (hcounts : ∀ other, st'.versions.count other =
      if scope = other then st.versions.count other + 1 else st.versions.count other)
    (hpresence : st'.presence = st.presence) : Honest (r.bumped author scope) st' where
  bounded := by
    intro row hrow
    have hle := hhonest.bounded row hrow
    rw [hcounts]
    split <;> omega
  counted := by
    intro change hchange hcounted hscope
    obtain ⟨old, hold, hplace, _, hwhy⟩ := mem_bumped hchange
    rw [hplace] at hscope ⊢
    have hgrows : ∀ row : Scope × Nat, row.2 < st.versions.count row.1 →
        row.2 < st'.versions.count row.1 := by
      intro row hbelow
      rw [hcounts]
      split <;> omega
    rcases hwhy hcounted with hbefore | ⟨_, hbumped⟩
    · obtain ⟨row, hrow, hsame, hbelow⟩ := hhonest.counted old hold hbefore hscope
      exact ⟨row, hrow, hsame, hgrows row hbelow⟩
    · obtain ⟨row, hrow, hsame⟩ := List.mem_map.mp hscope
      refine ⟨row, hrow, hsame, ?_⟩
      have hle := hhonest.bounded row hrow
      rw [hcounts, if_pos (hbumped.symm.trans hsame.symm)]
      omega
  current := by
    intro view hview hkept
    rw [hpresence]
    refine hhonest.current view hview fun old hold hplace => ?_
    refine hkept _ (List.mem_map_of_mem hold) ?_
    split <;> exact hplace

theorem Sound.bumped {author : Nat} {scope : Scope} (hsound : Sound task r st)
    (hcounts : ∀ other, st'.versions.count other =
      if scope = other then st.versions.count other + 1 else st.versions.count other)
    (hpresence : st'.presence = st.presence)
    (hmissed : task = author ∨ r.misses author scope = false) :
    Sound task (r.bumped author scope) st' where
  honest := hsound.honest.bumped hcounts hpresence
  others := by
    intro change hchange
    obtain ⟨old, hold, _, hauthor, _⟩ := mem_bumped hchange
    exact hauthor ▸ hsound.others old hold
  counted := by
    intro hheld change hchange hcounted
    obtain ⟨old, hold, hplace, _, hwhy⟩ := mem_bumped hchange
    show change.place.scope ∈ r.scopes
    rw [hplace]
    rcases hwhy hcounted with hbefore | ⟨hauthor, hscope⟩
    · exact hsound.counted hheld old hold hbefore
    · rcases hmissed with hown | hmissed
      · exact absurd (hauthor.trans hown.symm) (hsound.others old hold)
      · by_contra hopen
        have hheld' : r.held = false := hheld
        have hnone : ∀ change ∈ r.later, change.author = author →
            change.place.scope ≠ old.place.scope := by
          simpa [Reading.misses, hheld', ← hscope, hopen] using hmissed
        exact hnone old hold hauthor rfl

theorem Sound.count {scope : Scope} (hsound : Sound task r st) :
    Sound task (r.count scope (st.versions.count scope)) st := by
  unfold Reading.count
  split
  · exact hsound
  · rename_i hheld
    rw [Bool.not_eq_true] at hheld
    refine ⟨⟨?_, ?_, hsound.honest.current⟩, hsound.others, ?_⟩
    · intro row hrow
      rcases List.mem_append.mp hrow with hold | hnew
      · exact hsound.honest.bounded row hold
      · cases List.mem_singleton.mp hnew
        exact Nat.le_refl _
    · intro change hchange hcounted _
      have hscope := hsound.counted hheld change hchange hcounted
      obtain ⟨row, hrow, hrest⟩ := hsound.honest.counted change hchange hcounted hscope
      exact ⟨row, List.mem_append_left _ hrow, hrest⟩
    · intro _ change hchange hcounted
      have hscope := hsound.counted hheld change hchange hcounted
      simp only [Reading.scopes, List.map_append, List.mem_append]
      exact .inl hscope

theorem Sound.see {view : View} (hsound : Sound task r st)
    (hrows : view.rows = st.presence.othersAt view.place view.exclude) :
    Sound task (r.see view) st := by
  refine ⟨⟨hsound.honest.bounded, hsound.honest.counted, ?_⟩, hsound.others, hsound.counted⟩
  intro other hother hkept
  rcases List.mem_append.mp hother with hold | hnew
  · exact hsound.honest.current other hold hkept
  · cases List.mem_singleton.mp hnew
    rw [hrows]
    exact fun _ => Iff.rfl

theorem Sound.hold (hsound : Sound task r st) : Sound task r.hold st :=
  ⟨⟨hsound.honest.bounded, hsound.honest.counted, hsound.honest.current⟩, hsound.others, nofun⟩

theorem Sound.begin : Sound task {} st := by
  refine ⟨⟨?_, ?_, ?_⟩, ?_, ?_⟩
  all_goals intros; simp_all

theorem Follows.changed {author : Nat} {places : List Place} (hfollows : Follows μ r) :
    Follows μ (r.changed author places) :=
  ⟨hfollows.counters, hfollows.held, hfollows.views⟩

theorem Follows.bumped {author : Nat} {scope : Scope} (hfollows : Follows μ r) :
    Follows μ (r.bumped author scope) :=
  ⟨hfollows.counters, hfollows.held, hfollows.views⟩

theorem UpdatesInv.of_step {u' : Updates} {μ' : Builder} (hinv : UpdatesInv conf u st views)
    (hview : views task = some (call, μ)) (hsince : μ'.since = μ.since)
    (hcounts : ∀ scope, st.versions.count scope ≤ st'.versions.count scope)
    (hbuild : ∀ r, u.readings.get? task = some r → Follows μ r →
      ∃ r', u'.readings.get? task = some r' ∧ Follows μ' r')
    (hothers : ∀ other, other ≠ task → ∀ r μ'', u.readings.get? other = some r → Follows μ'' r →
      ∃ r', u'.readings.get? other = some r' ∧ Follows μ'' r')
    (hrising : Rising μ'.polled) (hpolled : ∀ row ∈ μ'.polled, row.2 ≤ st'.versions.count row.1)
    (hsound : ∀ other r, u'.readings.get? other = some r → Sound other r st')
    (hsent : ∀ sent ∈ u'.answered, Honest sent.reading st' ∧
      sent.version = conf.scopeHash sent.reading.counters) :
    UpdatesInv conf u' st' (Function.update views task (some (call, μ'))) where
  builds := by
    intro other call' μ'' hother
    rcases Machine.update_some_cases hother with ⟨rfl, heq⟩ | ⟨hne, hother⟩
    · obtain ⟨rfl, rfl⟩ := Prod.mk.inj heq
      obtain ⟨r, hreading, hfollows⟩ := hinv.builds _ _ _ hview
      exact hbuild r hreading hfollows
    · obtain ⟨r, hreading, hfollows⟩ := hinv.builds other call' μ'' hother
      exact hothers other hne r μ'' hreading hfollows
  since := by
    intro other call' μ'' hother
    rcases Machine.update_some_cases hother with ⟨rfl, heq⟩ | ⟨_, hother⟩
    · obtain ⟨rfl, rfl⟩ := Prod.mk.inj heq
      exact hsince.trans (hinv.since _ _ _ hview)
    · exact hinv.since other call' μ'' hother
  rising := by
    intro other call' μ'' hother
    rcases Machine.update_some_cases hother with ⟨rfl, heq⟩ | ⟨_, hother⟩
    · obtain ⟨rfl, rfl⟩ := Prod.mk.inj heq
      exact hrising
    · exact hinv.rising other call' μ'' hother
  polled := by
    intro other call' μ'' hother
    rcases Machine.update_some_cases hother with ⟨rfl, heq⟩ | ⟨_, hother⟩
    · obtain ⟨rfl, rfl⟩ := Prod.mk.inj heq
      exact hpolled
    · exact fun row hrow => (hinv.polled other call' μ'' hother row hrow).trans (hcounts row.1)
  sound := hsound
  sent := hsent

theorem UpdatesInv.of_quiet (hinv : UpdatesInv conf u st views)
    (hview : views task = some (call, μ))
    (hcounts : ∀ scope, st'.versions.count scope = st.versions.count scope)
    (hpresence : st'.presence = st.presence) :
    UpdatesInv conf u st' (Function.update views task (some (call, μ))) := by
  have hgrows : ∀ scope, st.versions.count scope ≤ st'.versions.count scope :=
    fun scope => (hcounts scope).ge
  refine hinv.of_step hview rfl hgrows (fun r hr hf => ⟨r, hr, hf⟩)
    (fun _ _ r _ hr hf => ⟨r, hr, hf⟩) (hinv.rising _ _ _ hview) ?_ ?_ ?_
  · exact fun row hrow => (hinv.polled _ _ _ hview row hrow).trans (hgrows row.1)
  · exact fun other r hr => (hinv.sound other r hr).of_state hgrows hpresence
  · exact fun sent hsent =>
      ⟨(hinv.sent sent hsent).1.of_state hgrows hpresence, (hinv.sent sent hsent).2⟩

theorem UpdatesInv.of_own {change : Reading → Reading} {μ' : Builder}
    (hinv : UpdatesInv conf u st views) (hview : views task = some (call, μ))
    (hsince : μ'.since = μ.since) (hversions : st'.versions = st.versions)
    (hpresence : st'.presence = st.presence)
    (hfollows : ∀ r, Follows μ r → Follows μ' (change r))
    (hrising : Rising μ'.polled) (hpolled : ∀ row ∈ μ'.polled, row.2 ≤ st.versions.count row.1)
    (hsound : ∀ r, Sound task r st → Sound task (change r) st) :
    UpdatesInv conf (u.onTask task change) st'
      (Function.update views task (some (call, μ'))) := by
  have hcounts : ∀ scope, st.versions.count scope ≤ st'.versions.count scope := by
    intro scope
    rw [hversions]
  refine hinv.of_step hview hsince hcounts ?_ ?_ hrising ?_ ?_ ?_
  · intro r hr hf
    exact ⟨change r, by simp [Updates.onTask, hr], hfollows r hf⟩
  · intro other hne r μ'' hr hf
    exact ⟨r, by simp [Updates.onTask, hne, hr], hf⟩
  · rw [hversions]
    exact hpolled
  · intro other r hr
    simp only [Updates.onTask, Table.get?_modify] at hr
    split at hr
    · rename_i hsame
      obtain ⟨r', hr', rfl⟩ := Option.map_eq_some_iff.mp hr
      subst hsame
      exact (hsound r' (hinv.sound _ r' hr')).of_state hcounts hpresence
    · exact (hinv.sound other r hr).of_state hcounts hpresence
  · exact fun sent hsent =>
      ⟨(hinv.sent sent hsent).1.of_state hcounts hpresence, (hinv.sent sent hsent).2⟩

variable {choice : Choice}

theorem changedPlaces_silent {presence : Presence} {p : Presence.Op} {answer : p.Res}
    (hsilent : changesPresence p = false) : presence.changedPlaces p answer = [] := by
  cases p <;> first | rfl | cases hsilent

theorem UpdatesInv.of_everywhere {edit : Reading → Reading} (hinv : UpdatesInv conf u st views)
    (hview : views task = some (call, μ))
    (hcounts : ∀ scope, st.versions.count scope ≤ st'.versions.count scope)
    (hfollows : ∀ r μ', Follows μ' r → Follows μ' (edit r))
    (hsound : ∀ other r, u.readings.get? other = some r → Sound other (edit r) st')
    (hsent : ∀ sent ∈ u.answered, Honest (edit sent.reading) st' ∧
      sent.version = conf.scopeHash (edit sent.reading).counters) :
    UpdatesInv conf (u.everywhere edit) st' (Function.update views task (some (call, μ))) := by
  refine hinv.of_step hview rfl hcounts ?_ ?_ (hinv.rising _ _ _ hview) ?_ ?_ ?_
  · intro r hr hf
    exact ⟨edit r, by simp [Updates.everywhere, hr], hfollows r μ hf⟩
  · intro other _ r μ'' hr hf
    exact ⟨edit r, by simp [Updates.everywhere, hr], hfollows r μ'' hf⟩
  · exact fun row hrow => (hinv.polled _ _ _ hview row hrow).trans (hcounts row.1)
  · intro other r hr
    simp only [Updates.everywhere, Table.get?_mapValues] at hr
    obtain ⟨r', hr', rfl⟩ := Option.map_eq_some_iff.mp hr
    exact hsound other r' hr'
  · intro sent hsent'
    obtain ⟨old, hold, rfl⟩ := List.mem_map.mp hsent'
    exact hsent old hold

theorem Sound.changed {p : Presence.Op} {author : Nat} (hsound : Sound task r st)
    (hversions : st'.versions = st.versions) (hstep : (st.presence.step p).2 = st'.presence)
    (hunread : author = task → ∀ place ∈ st.presence.changedPlaces p (st.presence.step p).1,
      r.reads place = false) :
    Sound task (r.changed author (st.presence.changedPlaces p (st.presence.step p).1)) st' where
  honest := hsound.honest.changed hversions hstep
  others := by
    intro change hchange
    rcases mem_changed.mp hchange with hold | ⟨hplace, hreads, hauthor, _⟩
    · exact hsound.others change hold
    · intro hown
      rw [hunread (hauthor.symm.trans hown) change.place hplace] at hreads
      cases hreads
  counted := by
    intro hheld change hchange hcounted
    rcases mem_changed.mp hchange with hold | ⟨_, _, _, hnew⟩
    · exact hsound.counted hheld change hold hcounted
    · rw [hnew] at hcounted
      cases hcounted

theorem UpdatesInv.did_change {p : Presence.Op} {μ' : Builder}
    (hinv : UpdatesInv conf u st views) (hview : views task = some (call, μ)) (hsame : μ' = μ)
    (hallows : changesPresence p = true → μ.reading = false)
    (hversions : st'.versions = st.versions)
    (hstep : (st.presence.step p).2 = st'.presence) :
    UpdatesInv conf
      (u.everywhere (Reading.changed task
        (st.presence.changedPlaces p (st.presence.step p).1))) st'
      (Function.update views task (some (call, μ'))) := by
  subst hsame
  have hcounts : ∀ scope, st.versions.count scope ≤ st'.versions.count scope := by
    intro scope
    rw [hversions]
  refine hinv.of_everywhere hview hcounts (fun _ _ hf => hf.changed) ?_ ?_
  · intro other r hr
    apply (hinv.sound other r hr).changed hversions hstep
    rintro rfl place hplace
    -- the author itself has read nothing yet
    obtain ⟨r', hr', hfollows⟩ := hinv.builds _ _ _ hview
    cases hr.symm.trans hr'
    have hreading : μ'.reading = false := by
      refine hallows ?_
      by_contra hsilent
      rw [changedPlaces_silent (by simpa using hsilent)] at hplace
      cases hplace
    rw [Reading.reads, hfollows.views hreading]
    rfl
  · exact fun sent hsent =>
      ⟨(hinv.sent sent hsent).1.changed hversions hstep, (hinv.sent sent hsent).2⟩

theorem UpdatesInv.did_bump {scope : Scope} (hinv : UpdatesInv conf u st views)
    (hview : views task = some (call, μ))
    (hallowed : noLateBump conf u st (.did task (.versions (.bump scope)) ()) = true)
    (hversions : (st.versions.step (.bump scope)).2 = st'.versions)
    (hpresence : st'.presence = st.presence) :
    UpdatesInv conf (u.everywhere (Reading.bumped task scope)) st'
      (Function.update views task (some (call, μ))) := by
  have hbumped : ∀ other, st'.versions.count other =
      if scope = other then st.versions.count other + 1 else st.versions.count other := by
    intro other
    rw [← hversions, Versions.count_step]
    simp
  have hcounts : ∀ other, st.versions.count other ≤ st'.versions.count other := by
    intro other
    rw [hbumped]
    split <;> omega
  refine hinv.of_everywhere hview hcounts (fun _ _ hf => hf.bumped) ?_ ?_
  · intro other r hr
    refine (hinv.sound other r hr).bumped hbumped hpresence ?_
    have hquiet := List.all_eq_true.mp hallowed (other, r) (Table.mem_rows.mpr hr)
    simpa using hquiet
  · exact fun sent hsent =>
      ⟨(hinv.sent sent hsent).1.bumped hbumped hpresence, (hinv.sent sent hsent).2⟩

theorem UpdatesInv.did_counter {scope : Scope} (hinv : UpdatesInv conf u st views)
    (hview : views task = some (call, μ)) (hversions : st'.versions = st.versions)
    (hpresence : st'.presence = st.presence) :
    UpdatesInv conf (u.onTask task (·.count scope (st.versions.count scope))) st'
      (Function.update views task
        (some (call, μ.poll [(scope, st.versions.count scope)]))) := by
  have hrising : Rising (μ.polled ++ [(scope, st.versions.count scope)]) := by
    refine List.pairwise_append.mpr ⟨hinv.rising _ _ _ hview, by simp, ?_⟩
    intro row hrow last hlast hsame
    cases List.mem_singleton.mp hlast
    have hle := hinv.polled _ _ _ hview row hrow
    rw [hsame] at hle
    exact hle
  refine hinv.of_own hview ?_ hversions hpresence ?_ ?_ ?_ fun r hsound => hsound.count
  · unfold Builder.poll
    split <;> rfl
  · intro r hfollows
    cases hheld : μ.held with
    | true =>
        have hr : r.held = true := hfollows.held.trans hheld
        simp only [Reading.count, hr, Builder.poll, hheld, if_true]
        exact ⟨hfollows.counters, hr, hfollows.views⟩
    | false =>
        have hr : r.held = false := hfollows.held.trans hheld
        simp only [Reading.count, hr, Builder.poll, hheld, Bool.false_eq_true, if_false]
        exact ⟨by rw [hfollows.counters], rfl, hfollows.views⟩
  · unfold Builder.poll
    split
    · exact hrising
    · exact hinv.rising _ _ μ hview
  · unfold Builder.poll
    split
    · intro row hrow
      rcases List.mem_append.mp hrow with hold | hnew
      · exact hinv.polled _ _ _ hview row hold
      · cases List.mem_singleton.mp hnew
        exact Nat.le_refl _
    · exact hinv.polled _ _ μ hview

theorem UpdatesInv.did_begin (hinv : UpdatesInv conf u st views)
    (hview : views task = some (call, μ)) (hversions : st'.versions = st.versions)
    (hpresence : st'.presence = st.presence) :
    UpdatesInv conf (u.begin task) st'
      (Function.update views task (some (call, { since := μ.since }))) := by
  have hcounts : ∀ scope, st.versions.count scope ≤ st'.versions.count scope := by
    intro scope
    rw [hversions]
  refine hinv.of_step hview rfl hcounts ?_ ?_ List.Pairwise.nil
    (fun _ habsurd => by cases habsurd) ?_ ?_
  · intro r _ _
    exact ⟨{}, by simp [Updates.begin], rfl, rfl, fun _ => rfl⟩
  · intro other hne r μ'' hr hf
    exact ⟨r, by simp [Updates.begin, hne, hr], hf⟩
  · intro other r hr
    simp only [Updates.begin, Table.get?_insert] at hr
    split at hr
    · cases hr
      exact Sound.begin
    · exact (hinv.sound other r hr).of_state hcounts hpresence
  · exact fun sent hsent =>
      ⟨(hinv.sent sent hsent).1.of_state hcounts hpresence, (hinv.sent sent hsent).2⟩

theorem UpdatesInv.did {o : Op} {answer : o.Res} (hinv : UpdatesInv conf u st views)
    (hview : views task = some (call, μ)) (hallows : (Builder.mon conf).allows μ o)
    (hexec : AppState.exec conf task o choice st = some (answer, st'))
    (hallowed : noLateBump conf u st (.did task o answer) = true) :
    UpdatesInv conf ((updates conf).see u st (.did task o answer) st') st'
      (Function.update views task (some (call, (Builder.mon conf).next μ o answer))) := by
  have hframe := AppState.exec_frame hexec
  have hquiet : ∀ μ', μ' = μ → st'.versions = st.versions → st'.presence = st.presence →
      UpdatesInv conf u st' (Function.update views task (some (call, μ'))) := by
    rintro _ rfl hversions hpresence
    exact hinv.of_quiet hview (fun _ => by rw [hversions]) hpresence
  cases o with
  | presence p =>
      have hstep := AppState.exec_presence hexec
      have hversions : st'.versions = st.versions :=
        hframe.versions fun _ habsurd => by cases habsurd
      have hanswer : (st.presence.step p).1 = answer := congrArg Prod.fst hstep
      have hpresence : (st.presence.step p).2 = st'.presence := congrArg Prod.snd hstep
      have hsee : ∀ view : View, (st.presence.step p).2 = st.presence →
          view.rows = st.presence.othersAt view.place view.exclude →
          UpdatesInv conf (u.onTask task (·.see view)) st'
            (Function.update views task (some (call, { μ with reading := true }))) := by
        intro view hkept hrows
        refine hinv.of_own hview rfl hversions (hpresence.symm.trans hkept) ?_
          (hinv.rising _ _ μ hview) (hinv.polled _ _ μ hview) fun r hsound => hsound.see hrows
        exact fun r hfollows => ⟨hfollows.counters, hfollows.held, fun habsurd => by cases habsurd⟩
      subst hanswer
      cases p with
      | othersIn guild role exclude => exact hsee ⟨.network guild role, exclude, _⟩ rfl rfl
      | othersOfUser user exclude => exact hsee ⟨.own user, exclude, _⟩ rfl rfl
      | _ => exact hinv.did_change hview rfl hallows hversions hpresence
  | versions v =>
      have hpresence : st'.presence = st.presence :=
        hframe.presence fun _ habsurd => by cases habsurd
      have hstep : st.versions.step v = (answer, st'.versions) := by
        simp only [AppState.exec, Option.some.injEq, Prod.mk.injEq] at hexec
        obtain ⟨hanswer, rfl⟩ := hexec
        exact Prod.ext hanswer rfl
      have hanswer : (st.versions.step v).1 = answer := congrArg Prod.fst hstep
      have hversions : (st.versions.step v).2 = st'.versions := congrArg Prod.snd hstep
      have hcounts : (∀ scope, v ≠ .bump scope) →
          ∀ scope, st'.versions.count scope = st.versions.count scope := by
        intro hother scope
        rw [← hversions, Versions.count_step, if_neg (hother scope)]
      cases v with
      | bump scope => exact hinv.did_bump hview hallowed hversions hpresence
      | counter scope =>
          subst hanswer
          exact hinv.did_counter hview hversions.symm hpresence
      | subscribe scope => exact hinv.of_quiet hview (hcounts (by simp)) hpresence
      | bumpGlobal => exact hinv.of_quiet hview (hcounts (by simp)) hpresence
  | nat n =>
      have hversions : st'.versions = st.versions :=
        hframe.versions fun _ habsurd => by cases habsurd
      have hpresence : st'.presence = st.presence :=
        hframe.presence fun _ habsurd => by cases habsurd
      cases n with
      | putSourceIp pubkey ip => exact hinv.did_begin hview hversions hpresence
      | _ => exact hquiet μ rfl hversions hpresence
  | tryAcquire pubkey =>
      refine hinv.of_own hview rfl (hframe.versions fun _ habsurd => by cases habsurd)
        (hframe.presence fun _ habsurd => by cases habsurd) ?_ List.Pairwise.nil
        (fun _ habsurd => by cases habsurd) fun r hsound => hsound.hold
      exact fun r hfollows => ⟨hfollows.counters, rfl, hfollows.views⟩
  | select receivers deadline =>
      have hversions : st'.versions = st.versions :=
        hframe.versions fun _ habsurd => by cases habsurd
      have hcounts : ∀ scope, st.versions.count scope ≤ st'.versions.count scope := by
        intro scope
        rw [hversions]
      have hpresence : st'.presence = st.presence :=
        hframe.presence fun _ habsurd => by cases habsurd
      refine hinv.of_step hview rfl hcounts (fun r hr hf => ⟨r, hr, hf.counters, hf.held, hf.views⟩)
        (fun _ _ r _ hr hf => ⟨r, hr, hf⟩) List.Pairwise.nil (fun _ habsurd => by cases habsurd) ?_ ?_
      · exact fun other r hr => (hinv.sound other r hr).of_state hcounts hpresence
      · exact fun sent hsent =>
          ⟨(hinv.sent sent hsent).1.of_state hcounts hpresence, (hinv.sent sent hsent).2⟩
  | _ =>
      exact hquiet μ rfl (hframe.versions fun _ habsurd => by cases habsurd)
        (hframe.presence fun _ habsurd => by cases habsurd)

theorem UpdatesInv.called (hinv : UpdatesInv conf u st views) :
    UpdatesInv conf (u.begin task) st
      (Function.update views task (some (call, builderOf call))) := by
  have hopening : (builderOf call).counters = [] ∧ (builderOf call).held = false ∧
      (builderOf call).polled = [] := by
    cases call <;> exact ⟨rfl, rfl, rfl⟩
  obtain ⟨hcounters, hheld, hpolled⟩ := hopening
  refine ⟨?_, ?_, ?_, ?_, ?_, hinv.sent⟩
  · intro other call' μ' hother
    rcases Machine.update_some_cases hother with ⟨rfl, heq⟩ | ⟨hne, hother⟩
    · obtain ⟨rfl, rfl⟩ := Prod.mk.inj heq
      exact ⟨{}, by simp [Updates.begin], hcounters.symm, hheld.symm, fun _ => rfl⟩
    · obtain ⟨r, hr, hfollows⟩ := hinv.builds other call' μ' hother
      exact ⟨r, by simp [Updates.begin, hne, hr], hfollows⟩
  · intro other call' μ' hother
    rcases Machine.update_some_cases hother with ⟨rfl, heq⟩ | ⟨_, hother⟩
    · obtain ⟨rfl, rfl⟩ := Prod.mk.inj heq
      rfl
    · exact hinv.since other call' μ' hother
  · intro other call' μ' hother
    rcases Machine.update_some_cases hother with ⟨rfl, heq⟩ | ⟨_, hother⟩
    · obtain ⟨rfl, rfl⟩ := Prod.mk.inj heq
      rw [hpolled]
      exact List.Pairwise.nil
    · exact hinv.rising other call' μ' hother
  · intro other call' μ' hother
    rcases Machine.update_some_cases hother with ⟨rfl, heq⟩ | ⟨_, hother⟩
    · obtain ⟨rfl, rfl⟩ := Prod.mk.inj heq
      rw [hpolled]
      exact fun _ habsurd => by cases habsurd
    · exact hinv.polled other call' μ' hother
  · intro other r hr
    simp only [Updates.begin, Table.get?_insert] at hr
    split at hr
    · cases hr
      exact Sound.begin
    · exact hinv.sound other r hr

theorem UpdatesInv.gone {u' : Updates} (hinv : UpdatesInv conf u st views)
    (hreadings : u'.readings = u.readings)
    (hsent : ∀ sent ∈ u'.answered, Honest sent.reading st ∧
      sent.version = conf.scopeHash sent.reading.counters) :
    UpdatesInv conf (u'.gone task) (AppState.release task st)
      (Function.update views task none) := by
  refine ⟨?_, ?_, ?_, ?_, ?_, ?_⟩
  · intro other call' μ' hother
    obtain ⟨hne, hother⟩ := Machine.update_none_cases hother
    obtain ⟨r, hr, hfollows⟩ := hinv.builds other call' μ' hother
    exact ⟨r, by simp [Updates.gone, hreadings, hne, hr], hfollows⟩
  · exact fun other call' μ' hother =>
      hinv.since other call' μ' (Machine.update_none_cases hother).2
  · exact fun other call' μ' hother =>
      hinv.rising other call' μ' (Machine.update_none_cases hother).2
  · exact fun other call' μ' hother =>
      hinv.polled other call' μ' (Machine.update_none_cases hother).2
  · intro other r hr
    simp only [Updates.gone, hreadings, Table.get?_erase] at hr
    split at hr
    · cases hr
    · exact (hinv.sound other r hr).of_state (fun _ => Nat.le_refl _) rfl
  · exact fun sent hmem =>
      ⟨(hsent sent hmem).1.of_state (fun _ => Nat.le_refl _) rfl, (hsent sent hmem).2⟩

theorem UpdatesInv.answered {resp : RegisterResp} (hinv : UpdatesInv conf u st views)
    (hview : views task = some (call, μ)) (hversion : resp.version = conf.scopeHash μ.counters) :
    UpdatesInv conf ((u.answer task resp).gone task) (AppState.release task st)
      (Function.update views task none) := by
  obtain ⟨r, hr, hfollows⟩ := hinv.builds _ _ _ hview
  have hanswer : u.answer task resp = { u with answered := ⟨resp.version, r⟩ :: u.answered } := by
    simp [Updates.answer, hr]
  rw [hanswer]
  refine hinv.gone rfl fun sent hsent => ?_
  rcases List.mem_cons.mp hsent with rfl | hold
  · exact ⟨(hinv.sound _ r hr).honest, by rw [hfollows.counters]; exact hversion⟩
  · exact hinv.sent sent hold

theorem UpdatesInv.moved {world : World} (hinv : UpdatesInv conf u st views)
    (hmove : AppState.move world st = some st') : UpdatesInv conf u st' views := by
  have huntouched := AppState.move_untouched hmove
  have hcounts : ∀ scope, st.versions.count scope ≤ st'.versions.count scope := by
    intro scope
    rw [huntouched.versions]
  refine ⟨hinv.builds, hinv.since, hinv.rising, ?_, ?_, ?_⟩
  · rw [huntouched.versions]
    exact hinv.polled
  · exact fun other r hr => (hinv.sound other r hr).of_state hcounts huntouched.presence
  · exact fun sent hsent =>
      ⟨(hinv.sent sent hsent).1.of_state hcounts huntouched.presence, (hinv.sent sent hsent).2⟩

end

def updatesDiscipline :
    Machine.Discipline (machine conf) (updates conf) (Machine.passes (noLateBump conf))
      Builder where
  mon := Builder.mon conf
  opening := fun _ _ call => builderOf call
  post := fun call μ result => vouchedPost conf μ call result
  inv := UpdatesInv conf
  conforms := fun _ _ call => handle_vouches conf call
  called := fun hinv _ _ => hinv.called
  did := fun hinv hview hallows hexec hallowed =>
    ⟨trivial, hinv.did hview hallows hexec hallowed⟩
  ended := by
    intro u st views task call μ result hinv hview hpost _
    have hgone : UpdatesInv conf (u.gone task) (AppState.release task st)
        (Function.update views task none) := hinv.gone rfl hinv.sent
    cases call with
    | register req callerIp =>
        cases result with
        | ok reply =>
            cases reply with
            | registered resp => exact hinv.answered hview hpost
            | _ => exact hgone
        | error error => exact hgone
    | _ => exact hgone
  dropped := fun hinv _ _ => hinv.gone rfl hinv.sent
  moved := fun hinv hmove _ => hinv.moved hmove

/-! What a version vouches for. -/

section

variable {conf} {st : AppState} {r : Reading}

theorem countersNow_eq {counters : List (Scope × Nat)}
    (hnow : ∀ row ∈ counters, st.versions.count row.1 = row.2) :
    countersNow st (counters.map Prod.fst) = counters := by
  unfold countersNow
  rw [List.map_map]
  conv_rhs => rw [← List.map_id counters]
  refine List.map_congr_left fun row hrow => ?_
  simp [hnow row hrow]

theorem mem_countersNow {scopes : List Scope} {row : Scope × Nat}
    (hrow : row ∈ countersNow st scopes) : st.versions.count row.1 = row.2 := by
  obtain ⟨scope, _, rfl⟩ := List.mem_map.mp hrow
  rfl

theorem Honest.reflects (hhonest : Honest r st) (hnow : countersNow st r.scopes = r.counters) :
    r.Reflects st where
  announced := by
    intro change hchange hscope
    by_contra hcounted
    rw [Bool.not_eq_false] at hcounted
    obtain ⟨row, hrow, _, hbelow⟩ := hhonest.counted change hchange hcounted hscope
    rw [← hnow] at hrow
    exact absurd (mem_countersNow hrow) (Nat.ne_of_gt hbelow)
  rows := hhonest.current

theorem again_eq {receivers again : List (Scope × Nat)} (hrising : Rising (receivers ++ again))
    (hbound : ∀ row ∈ receivers ++ again, row.2 ≤ st.versions.count row.1)
    (hscopes : again.map Prod.fst = receivers.map Prod.fst)
    (hnow : ∀ row ∈ receivers, st.versions.count row.1 = row.2) :
    countersNow st (receivers.map Prod.fst) = again := by
  rw [← hscopes]
  refine countersNow_eq fun row hrow => ?_
  have hle := hbound row (List.mem_append_right _ hrow)
  obtain ⟨first, hfirst, hsame⟩ : ∃ first ∈ receivers, first.1 = row.1 := by
    have hmem : row.1 ∈ receivers.map Prod.fst := hscopes ▸ List.mem_map_of_mem hrow
    simpa using hmem
  have hge := (List.pairwise_append.mp hrising).2.2 first hfirst row hrow hsame
  have hfound := hnow first hfirst
  rw [hsame] at hfound
  omega

end

theorem small_scopeHash_injective : Function.Injective Conf.small.scopeHash := by
  intro first
  induction first with
  | nil =>
      intro second hsame
      cases second with
      | nil => rfl
      | cons row rest => simp [Conf.small] at hsame
  | cons row rest ih =>
      intro second hsame
      cases second with
      | nil => simp [Conf.small] at hsame
      | cons row' rest' =>
          obtain ⟨scope, count⟩ := row
          obtain ⟨scope', count'⟩ := row'
          simp only [Conf.small, List.foldr_cons, Nat.add_right_cancel_iff, Nat.pair_eq_pair]
            at hsame
          obtain ⟨⟨hcode, hcount⟩, hrest⟩ := hsame
          have hscope : scope = scope' := by
            cases scope with
            | guild id =>
                cases scope' with
                | guild id' => exact congrArg _ (Nat.mul_left_cancel Nat.two_pos hcode)
                | user id' => exact (Nat.two_mul_ne_two_mul_add_one hcode).elim
            | user id =>
                cases scope' with
                | guild id' => exact (Nat.two_mul_ne_two_mul_add_one hcode.symm).elim
                | user id' =>
                    have hdouble : 2 * id = 2 * id' := Nat.succ.inj hcode
                    exact congrArg _ (Nat.mul_left_cancel Nat.two_pos hdouble)
          rw [hscope, hcount, ih hrest]

/-- Users 1 and 2 hold role 7 of guild 5, which has a network, and have logged in one
device each. -/
def twoMembers : AppState where
  db :=
    { networks := (∅ : Table _ _).insert (5, 7) "lan"
      oauthAuthorized := ((∅ : Table _ _).insert 1 ⟨1, 0⟩).insert 2 ⟨2, 0⟩ }
  discord :=
    { members := ((∅ : Table _ _).insert (5, 1) ⟨"ann", [7]⟩).insert (5, 2) ⟨"bob", [7]⟩ }

def enrolling (pubkey : PubKey) : RegisterReq :=
  { wgPubkey := pubkey, deviceName := "pc", possessionProof := some ⟨pubkey, 7⟩ }

def renewing (pubkey : PubKey) (since : Nat) : RegisterReq :=
  { wgPubkey := pubkey, deviceName := "pc", deviceToken := some "token", since := some since }

open Script in
/-- The second device joins, and announces it, after the first device's build has read
the network and before it reads the version; then the first device parks. -/
def joinBetweenReads : Script Conf.small :=
  call (.register (enrolling 1) (.v4 0)) ++ steps 0 24 (.text "token") ++ steps 0 41 (.key 99) ++
    call (.register (enrolling 2) (.v4 0)) ++ steps 1 24 (.text "token") ++ steps 1 59 (.key 99) ++
    steps 0 14 .go ++ call (.register (renewing 1 33602) (.v4 0)) ++ steps 2 71 (.rounds 1)

open Script in
def registerThenPark : Script Conf.small :=
  call (.register (enrolling 1) (.v4 0)) ++ steps 0 24 (.text "token") ++ steps 0 55 (.key 99) ++
    call (.register (renewing 1 33601) (.v4 0)) ++ steps 1 62 (.rounds 1)

def parkedOn (c : (machine conf).Config) (task : Nat) : Option (RegisterReq × List (Scope × Nat)) :=
  match c.tasks task with
  | some ⟨.register req _, .op (.select receivers _) _, _⟩ =>
      if receivers.all fun row => c.shared.versions.count row.1 == row.2 then some (req, receivers)
      else none
  | _ => none

theorem parkedOn_sound {c : (machine conf).Config} {task : Nat} {req : RegisterReq}
    {receivers : List (Scope × Nat)} (hparked : parkedOn conf c task = some (req, receivers)) :
    ParkedOn conf c task req receivers := by
  unfold parkedOn at hparked
  split at hparked
  · rename_i hrunning
    split at hparked
    · rename_i hnow
      cases hparked
      refine ⟨⟨_, _, _, _, hrunning⟩, fun row hrow => ?_⟩
      simpa using List.all_eq_true.mp hnow row hrow
    · cases hparked
  · cases hparked

def parkedMissing (c : (machine conf).Config) (u : Updates) (task : Nat) : Bool :=
  (parkedOn conf c task).any fun parked =>
    u.answered.any fun sent =>
      parked.1.since == some sent.version &&
        sent.reading.later.any fun change =>
          change.counted && sent.reading.scopes.contains change.place.scope

theorem not_reflects_of_missing {c : (machine conf).Config} {u : Updates} {task : Nat}
    (hmissing : parkedMissing conf c u task = true) :
    ∃ req receivers sent, ParkedOn conf c task req receivers ∧ sent ∈ u.answered ∧
      req.since = some sent.version ∧ ¬ sent.reading.Reflects c.shared := by
  obtain ⟨⟨req, receivers⟩, hparked, hany⟩ := (Option.any_eq_true _ _).mp hmissing
  obtain ⟨sent, hsent, hmissed⟩ := List.any_eq_true.mp hany
  rw [Bool.and_eq_true, beq_iff_eq] at hmissed
  obtain ⟨change, hchange, hcounted⟩ := List.any_eq_true.mp hmissed.2
  rw [Bool.and_eq_true] at hcounted
  refine ⟨req, receivers, sent, parkedOn_sound conf hparked, hsent, hmissed.1, fun hreflects => ?_⟩
  have hscope : change.place.scope ∈ sent.reading.scopes := by simpa using hcounted.2
  have hnot := hreflects.announced change hchange hscope
  exact Bool.false_ne_true (hnot.symm.trans hcounted.1)

end UnityLan.Coordinator
