import UnityLan.Coordinator.Machine

namespace UnityLan.Coordinator

open UnityLan.Foundation Prog

/-! Enrollment keys under concurrent use: the store's two functions on them as the
calls of a pool of their own. -/

structure Presented where
  key : String
  pubkey : PubKey
  now : Nat
  deriving DecidableEq

inductive KeyCall
  | create (key : String) (user : UserId) (expiresAt : Option Nat)
  | consume (presented : Presented)

def runKeyCall : KeyCall → Stored (Option UserId)
  | .create key user expiresAt => do
      sql (.upsertEnrollmentKey key user expiresAt)
      return none
  | .consume presented =>
      return some (← Store.consumeEnrollmentKey presented.key presented.pubkey presented.now)

variable (conf : Conf)

def keyMachine : Machine sig where
  State := AppState
  Call := KeyCall
  Err := StoreError
  Reply := Option UserId
  Choice := Choice
  World := World
  start := runKeyCall
  exec := AppState.exec conf
  suspends := Op.suspends
  release := AppState.release
  move := AppState.move

/-! The history of the calls. -/

/-- What is known of a call that consumes a key. -/
structure KeyUse where
  presented : Presented
  /-- The device that the row it read names as the key's holder. -/
  seen : Option PubKey := none
  /-- Its device held the key when one of its statements ran. -/
  held : Bool := false
  /-- The key had not expired, at the time it presents, when its update ran. -/
  live : Bool := false
  /-- A statement failed in the database. -/
  failed : Bool := false

structure KeyOutcome where
  use : KeyUse
  ok : Bool

namespace KeyUse

def stale (use : KeyUse) : Bool :=
  use.failed || use.seen != some use.presented.pubkey

def holds (use : KeyUse) (db : Database) : Bool :=
  db.usedBy use.presented.key == some use.presented.pubkey

def unexpired (use : KeyUse) (db : Database) : Bool :=
  (db.enrollmentKeys.get? use.presented.key).any fun row =>
    match row.expiresAt with
    | none => true
    | some expires => decide (expires > use.presented.now)

def ran (use : KeyUse) (db : Database) : (q : Query) → Except StoreError q.Res → KeyUse
  | .enrollmentKey _, .ok row =>
      { use with seen := row.bind (·.usedBy), held := use.held || use.holds db }
  | .claimEnrollmentKey .., .ok _ =>
      { use with held := use.held || use.holds db, live := use.unexpired db }
  | _, .ok _ => use
  | _, .error _ => { use with held := use.held || use.holds db, failed := true }

end KeyUse

structure KeyHistory where
  uses : Nat → Option KeyUse := fun _ => none
  outcomes : List KeyOutcome := []

def keyUses : Machine.Observer (keyMachine conf) KeyHistory where
  see := fun h st event _ =>
    match event with
    | .called task (.consume presented) =>
        { h with uses := Function.update h.uses task (some { presented := presented }) }
    | .did task (.store q) answer =>
        { h with
          uses := Function.update h.uses task
            ((h.uses task).map fun use => use.ran st.db q answer) }
    | .ended task (.consume _) result =>
        match h.uses task with
        | some use => { h with outcomes := ⟨use, result.isOk⟩ :: h.outcomes }
        | none => h
    | _ => h

/-- What an enrollment key promises, of the calls that were answered. -/
structure KeysSound (outcomes : List KeyOutcome) : Prop where
  singleUse : ∀ first ∈ outcomes, ∀ second ∈ outcomes, first.ok = true → second.ok = true →
    first.use.presented.key = second.use.presented.key →
      first.use.presented.pubkey = second.use.presented.pubkey
  inTime : ∀ outcome ∈ outcomes, outcome.ok = true →
    outcome.use.held = true ∨ outcome.use.live = true
  retry : ∀ outcome ∈ outcomes, outcome.use.held = true → outcome.ok = true

/-! How far a call has come. -/

inductive KeyStage
  /-- It consumes no key. -/
  | other
  | asking (presented : Presented)
  | looked (presented : Presented) (row : EnrollmentKeyRow)
  | finished (presented : Presented) (ok : Bool)

namespace KeyStage

def allows : KeyStage → Op → Prop
  | .asking presented, o => o = .store (.enrollmentKey presented.key)
  | .looked presented _, o =>
      o = .store (.claimEnrollmentKey presented.key presented.pubkey presented.now)
  | .finished .., _ => False
  | .other, o => ∃ key user expiresAt, o = .store (.upsertEnrollmentKey key user expiresAt)

def next : KeyStage → (o : Op) → o.Res → KeyStage
  | .asking presented, .store (.enrollmentKey _), .ok (some row) => .looked presented row
  | .asking presented, _, _ => .finished presented false
  | .looked presented row, .store (.claimEnrollmentKey ..), .ok claimed =>
      .finished presented (claimed || row.usedBy == some presented.pubkey)
  | .looked presented _, _, _ => .finished presented false
  | stage, _, _ => stage

def mon : Monitor sig KeyStage where
  allows := allows
  expects := fun _ _ _ => True
  next := next

def opening : KeyCall → KeyStage
  | .create .. => .other
  | .consume presented => .asking presented

def post : KeyCall → KeyStage → Except StoreError (Option UserId) → Prop
  | .create .., _, _ => True
  | .consume presented, stage, result => stage = .finished presented result.isOk

end KeyStage

theorem consume_conforms (presented : Presented) :
    (Store.consumeEnrollmentKey presented.key presented.pubkey presented.now).Conforms
      KeyStage.mon (fun stage result => stage = .finished presented result.isOk)
      (.asking presented) := by
  unfold Store.consumeEnrollmentKey
  rw [conforms_sql_bind]
  refine ⟨rfl, fun answer _ => ?_⟩
  cases answer with
  | error error => rfl
  | ok row =>
      cases row with
      | none => rfl
      | some row =>
          change Prog.Conforms _ _ _ _
          rw [conforms_sql_bind]
          refine ⟨rfl, fun claimed _ => ?_⟩
          cases claimed with
          | error error => rfl
          | ok claimed =>
              cases claimed with
              | true => rfl
              | false =>
                  simp only [after, if_neg Bool.false_ne_true]
                  cases hused : row.usedBy with
                  | none => simp [KeyStage.mon, KeyStage.next, hused, Except.isOk, Except.toBool]
                  | some used =>
                      by_cases hown : used = presented.pubkey
                      · simp [KeyStage.mon, KeyStage.next, hused, hown, Except.isOk, Except.toBool]
                      · simp [KeyStage.mon, KeyStage.next, hused, hown, Except.isOk, Except.toBool]

theorem runKeyCall_conforms (call : KeyCall) :
    (runKeyCall call).Conforms KeyStage.mon (KeyStage.post call) (KeyStage.opening call) := by
  cases call with
  | create key user expiresAt =>
      unfold runKeyCall
      rw [conforms_sql_bind]
      refine ⟨⟨key, user, expiresAt, rfl⟩, fun answer _ => ?_⟩
      cases answer with
      | ok _ => trivial
      | error _ => trivial
  | consume presented =>
      refine (consume_conforms presented).bind ?_ ?_
      · intro stage user hstage
        exact hstage
      · intro stage error hstage
        exact hstage

/-! A key keeps its holder, and a call is settled by what it saw of it. -/

structure KeyUse.Settled (db : Database) (use : KeyUse) (ok : Bool) : Prop where
  holder : ok = true → db.usedBy use.presented.key = some use.presented.pubkey
  inTime : ok = true → use.held = true ∨ use.live = true
  retry : use.held = true → ok = !use.stale

def KeyUse.Fits (db : Database) (use : KeyUse) : KeyStage → Prop
  | .other => False
  | .asking presented =>
      use.presented = presented ∧ use.held = false ∧ use.failed = false
  | .looked presented row =>
      use.presented = presented ∧ use.seen = row.usedBy ∧ use.failed = false ∧
        (use.held = true ↔ row.usedBy = some presented.pubkey) ∧
        ∀ holder, row.usedBy = some holder → db.usedBy presented.key = some holder
  | .finished presented ok => use.presented = presented ∧ use.Settled db ok

namespace Database

variable {db db' : Database} {q : Query} {answer : q.Res}

theorem usedBy_kept (key : String) {holder : PubKey} (hrun : db.run q = .ok (answer, db'))
    (hused : db.usedBy key = some holder) : db'.usedBy key = some holder := by
  rcases run_usedBy key hrun with hsame | ⟨pubkey, now, rfl, -⟩
  · rw [hsame, hused]
  · simp only [run] at hrun
    unfold usedBy at hused
    cases hrow : db.enrollmentKeys.get? key with
    | none =>
        rw [hrow] at hused
        cases hused
    | some row =>
        rw [hrow] at hused hrun
        have hheld : row.usedBy = some holder := hused
        have hrefused : claimable row now = false := by simp [claimable, hheld]
        simp only [hrefused, Bool.false_eq_true, if_false] at hrun
        cases hrun
        unfold usedBy
        rw [hrow]
        exact hheld

theorem run_claimed {key : String} {pubkey : PubKey} {now : Nat}
    (hrun : db.run (.claimEnrollmentKey key pubkey now) = .ok (true, db')) :
    ∃ row, db.enrollmentKeys.get? key = some row ∧ claimable row now = true ∧
      db'.usedBy key = some pubkey := by
  simp only [run] at hrun
  cases hrow : db.enrollmentKeys.get? key with
  | none =>
      rw [hrow] at hrun
      cases hrun
  | some row =>
      rw [hrow] at hrun
      cases hclaim : claimable row now with
      | false =>
          simp only [hclaim, Bool.false_eq_true, if_false] at hrun
          cases hrun
      | true =>
          simp only [hclaim, if_true] at hrun
          cases hrun
          exact ⟨row, rfl, hclaim, by simp [usedBy]⟩

end Database

variable {conf}

theorem KeyUse.Settled.kept {db db' : Database} {use : KeyUse} {ok : Bool}
    (hsettled : use.Settled db ok)
    (hkept : ∀ key holder, db.usedBy key = some holder → db'.usedBy key = some holder) :
    use.Settled db' ok :=
  ⟨fun hok => hkept _ _ (hsettled.holder hok), hsettled.inTime, hsettled.retry⟩

theorem KeyUse.Fits.kept {db db' : Database} {use : KeyUse} {stage : KeyStage}
    (hfits : use.Fits db stage)
    (hkept : ∀ key holder, db.usedBy key = some holder → db'.usedBy key = some holder) :
    use.Fits db' stage := by
  cases stage with
  | other => exact hfits
  | asking presented => exact hfits
  | looked presented row =>
      obtain ⟨hpresented, hseen, hfailed, hheld, hrow⟩ := hfits
      exact ⟨hpresented, hseen, hfailed, hheld, fun holder h => hkept _ _ (hrow holder h)⟩
  | finished presented ok => exact ⟨hfits.1, hfits.2.kept hkept⟩

theorem KeyUse.Fits.look {db : Database} {use : KeyUse} {presented : Presented}
    {answer : Except StoreError (Option EnrollmentKeyRow)}
    (hfits : use.Fits db (.asking presented))
    (hanswer : ∀ row, answer = .ok row → row = db.enrollmentKeys.get? presented.key) :
    (use.ran db (.enrollmentKey presented.key) answer).Fits db
      (KeyStage.next (.asking presented) (.store (.enrollmentKey presented.key)) answer) := by
  obtain ⟨rfl, hheld, hfailed⟩ := hfits
  cases answer with
  | error error =>
      refine ⟨rfl, ⟨fun hok => ?_, fun hok => ?_, fun _ => ?_⟩⟩
      · cases hok
      · cases hok
      · simp [KeyUse.ran, KeyUse.stale]
  | ok row =>
      have hrow := hanswer row rfl
      cases row with
      | none =>
          have hunused : use.holds db = false := by
            simp [KeyUse.holds, Database.usedBy, ← hrow]
          refine ⟨rfl, ⟨fun hok => ?_, fun hok => ?_, fun hh => ?_⟩⟩
          · cases hok
          · cases hok
          · simp [KeyUse.ran, hheld, hunused] at hh
      | some row =>
          have hused : db.usedBy use.presented.key = row.usedBy := by
            simp [Database.usedBy, ← hrow]
          refine ⟨rfl, rfl, hfailed, ?_, fun holder hholder => ?_⟩
          · simp [KeyUse.ran, KeyUse.holds, hheld, hused]
          · rw [hused]
            exact hholder

theorem KeyUse.Fits.claim {db db' : Database} {use : KeyUse} {presented : Presented}
    {row : EnrollmentKeyRow} {answer : Except StoreError Bool} {fault : Option String}
    (hfits : use.Fits db (.looked presented row))
    (hstep : db.step (.claimEnrollmentKey presented.key presented.pubkey presented.now) fault =
      (answer, db')) :
    (use.ran db (.claimEnrollmentKey presented.key presented.pubkey presented.now) answer).Fits db'
      (KeyStage.next (.looked presented row)
        (.store (.claimEnrollmentKey presented.key presented.pubkey presented.now)) answer) := by
  obtain ⟨rfl, hseen, hfailed, hheld, hrow⟩ := hfits
  cases answer with
  | error error =>
      refine ⟨rfl, ⟨fun hok => ?_, fun hok => ?_, fun _ => ?_⟩⟩
      · cases hok
      · cases hok
      · simp [KeyUse.ran, KeyUse.stale]
  | ok claimed =>
      obtain ⟨-, hrun⟩ := Database.step_ok hstep
      cases claimed with
      | true =>
          obtain ⟨found, hfound, hclaim, hused⟩ := Database.run_claimed hrun
          rw [Database.claimable, Bool.and_eq_true] at hclaim
          have hfree : db.usedBy use.presented.key = none := by
            have hnone : found.usedBy = none := by simpa using hclaim.1
            simp [Database.usedBy, hfound, hnone]
          refine ⟨rfl, ⟨fun _ => hused, fun _ => .inr ?_, fun hh => ?_⟩⟩
          · simp only [KeyUse.ran, KeyUse.unexpired, hfound, Option.any_some]
            exact hclaim.2
          · exfalso
            have hunheld : use.held = false := by
              rw [Bool.eq_false_iff]
              intro hin
              rw [hrow _ (hheld.mp hin)] at hfree
              cases hfree
            simp [KeyUse.ran, KeyUse.holds, hunheld, hfree] at hh
      | false =>
          have hdb := Database.run_claim_refused hrun
          subst hdb
          refine ⟨rfl, ⟨fun hok => ?_, fun hok => .inl ?_, fun _ => ?_⟩⟩
          · have hown : row.usedBy = some use.presented.pubkey := by simpa using hok
            exact hrow _ hown
          · have hown : row.usedBy = some use.presented.pubkey := by simpa using hok
            simp [KeyUse.ran, hheld.mpr hown]
          · simp [KeyUse.ran, KeyUse.stale, hfailed, hseen, bne]

/-! Runs of the pool. -/

structure KeyInv (h : KeyHistory) (st : AppState)
    (views : Nat → Option (KeyCall × KeyStage)) : Prop where
  consuming : ∀ task presented stage, views task = some (.consume presented, stage) →
    ∃ use, h.uses task = some use ∧ use.presented = presented ∧ use.Fits st.db stage
  creating : ∀ task key user expiresAt stage,
    views task = some (.create key user expiresAt, stage) → stage = .other
  settled : ∀ outcome ∈ h.outcomes, outcome.use.Settled st.db outcome.ok

namespace KeyInv

variable {h : KeyHistory} {st st' : AppState} {views : Nat → Option (KeyCall × KeyStage)}

theorem of_db (hinv : KeyInv h st views) (hdb : st'.db = st.db) : KeyInv h st' views := by
  refine ⟨?_, hinv.creating, ?_⟩
  · rw [hdb]
    exact hinv.consuming
  · rw [hdb]
    exact hinv.settled

theorem unset (hinv : KeyInv h st views) (task : Nat) :
    KeyInv h st (Function.update views task none) := by
  refine ⟨?_, ?_, hinv.settled⟩
  · intro other presented stage hview
    exact hinv.consuming other presented stage (Machine.update_none_cases hview).2
  · intro other key user expiresAt stage hview
    exact hinv.creating other key user expiresAt stage (Machine.update_none_cases hview).2

theorem called {task : Nat} {call : KeyCall} (hinv : KeyInv h st views) :
    KeyInv ((keyUses conf).see h st (.called task call) st) st
      (Function.update views task (some (call, KeyStage.opening call))) := by
  cases call with
  | create key user expiresAt =>
      refine ⟨?_, ?_, hinv.settled⟩
      · intro other presented stage hview
        rcases Machine.update_some_cases hview with ⟨-, hcall⟩ | ⟨-, hview⟩
        · cases hcall
        · exact hinv.consuming other presented stage hview
      · intro other key' user' expiresAt' stage hview
        rcases Machine.update_some_cases hview with ⟨-, hcall⟩ | ⟨-, hview⟩
        · cases hcall
          rfl
        · exact hinv.creating other key' user' expiresAt' stage hview
  | consume asked =>
      refine ⟨?_, ?_, hinv.settled⟩
      · intro other presented stage hview
        rcases Machine.update_some_cases hview with ⟨rfl, hcall⟩ | ⟨hother, hview⟩
        · cases hcall
          exact ⟨{ presented := asked }, Function.update_self .., rfl, rfl, rfl, rfl⟩
        · obtain ⟨use, huse, hrest⟩ := hinv.consuming other presented stage hview
          exact ⟨use, (Function.update_of_ne hother ..).trans huse, hrest⟩
      · intro other key user expiresAt stage hview
        rcases Machine.update_some_cases hview with ⟨-, hcall⟩ | ⟨-, hview⟩
        · cases hcall
        · exact hinv.creating other key user expiresAt stage hview

theorem holders_kept {db db' : Database} {q : Query} {answer : Except StoreError q.Res}
    {fault : Option String} (hstep : db.step q fault = (answer, db')) (key : String)
    (holder : PubKey) (hused : db.usedBy key = some holder) : db'.usedBy key = some holder := by
  cases answer with
  | error error => rw [Database.step_error hstep, hused]
  | ok answer => exact Database.usedBy_kept key (Database.step_ok hstep).2 hused

theorem fits_ran {db db' : Database} {use : KeyUse} {stage : KeyStage} {q : Query}
    {answer : Except StoreError q.Res} {fault : Option String} (hfits : use.Fits db stage)
    (hallows : stage.allows (.store q)) (hstep : db.step q fault = (answer, db')) :
    (use.ran db q answer).Fits db' (stage.next (.store q) answer) := by
  cases stage with
  | other => exact hfits.elim
  | finished presented ok => exact hallows.elim
  | asking presented =>
      cases hallows
      have hsame : db' = db := by
        cases answer with
        | error error => exact Database.step_error hstep
        | ok row =>
            have hrun := (Database.step_ok hstep).2
            cases hrun
            rfl
      rw [hsame]
      refine hfits.look fun row hrow => ?_
      subst hrow
      have hrun := (Database.step_ok hstep).2
      cases hrun
      rfl
  | looked presented row =>
      cases hallows
      exact hfits.claim hstep

theorem did {task : Nat} {call : KeyCall} {stage : KeyStage} {o : Op} {choice : Choice}
    {answer : o.Res} (hinv : KeyInv h st views) (hview : views task = some (call, stage))
    (hallows : stage.allows o)
    (hexec : AppState.exec conf task o choice st = some (answer, st')) :
    KeyInv ((keyUses conf).see h st (.did task o answer) st') st'
      (Function.update views task (some (call, stage.next o answer))) := by
  have hstore : ∃ q, o = .store q := by
    cases stage with
    | other =>
        obtain ⟨key, user, expiresAt, rfl⟩ := hallows
        exact ⟨_, rfl⟩
    | asking presented => exact ⟨_, hallows⟩
    | looked presented row => exact ⟨_, hallows⟩
    | finished presented ok => exact hallows.elim
  obtain ⟨q, rfl⟩ := hstore
  have hstep := AppState.exec_store hexec
  have hkept := holders_kept hstep
  refine ⟨?_, ?_, fun outcome hin => (hinv.settled outcome hin).kept hkept⟩
  · intro other presented stage' hview'
    rcases Machine.update_some_cases hview' with ⟨rfl, hcall⟩ | ⟨hother, hview'⟩
    · cases hcall
      obtain ⟨use, huse, hpresented, hfits⟩ := hinv.consuming other presented stage hview
      refine ⟨use.ran st.db q answer, ?_, ?_, fits_ran hfits hallows hstep⟩
      · simp [keyUses, huse]
      · rw [← hpresented]
        cases q <;> cases answer <;> rfl
    · obtain ⟨use, huse, hpresented, hfits⟩ := hinv.consuming other presented stage' hview'
      exact ⟨use, (Function.update_of_ne hother ..).trans huse, hpresented, hfits.kept hkept⟩
  · intro other key user expiresAt stage' hview'
    rcases Machine.update_some_cases hview' with ⟨rfl, hcall⟩ | ⟨-, hview'⟩
    · cases hcall
      have hstage := hinv.creating other key user expiresAt stage hview
      rw [hstage]
      rfl
    · exact hinv.creating other key user expiresAt stage' hview'

theorem ended {task : Nat} {call : KeyCall} {stage : KeyStage}
    {result : Except StoreError (Option UserId)} (hinv : KeyInv h st views)
    (hview : views task = some (call, stage)) (hpost : KeyStage.post call stage result) :
    KeyInv ((keyUses conf).see h st (.ended task call result) st) st
      (Function.update views task none) := by
  have hunset := hinv.unset task
  cases call with
  | create key user expiresAt => exact hunset
  | consume presented =>
      obtain ⟨use, huse, hpresented, hfits⟩ := hinv.consuming task presented stage hview
      subst hpost
      have hsee : (keyUses conf).see h st (.ended task (.consume presented) result) st =
          { h with outcomes := ⟨use, result.isOk⟩ :: h.outcomes } := by
        simp only [keyUses, huse]
        rfl
      rw [hsee]
      refine ⟨hunset.consuming, hunset.creating, fun outcome hin => ?_⟩
      rcases List.mem_cons.mp hin with rfl | hearlier
      · exact hfits.2
      · exact hinv.settled outcome hearlier

end KeyInv

variable (conf)

def keyDiscipline :
    Machine.Discipline (keyMachine conf) (keyUses conf) Machine.free KeyStage where
  mon := KeyStage.mon
  opening := fun _ _ call => KeyStage.opening call
  post := KeyStage.post
  inv := KeyInv
  conforms := fun _ _ call => runKeyCall_conforms call
  called := fun hinv _ _ => hinv.called
  did := fun hinv hview hallows hexec _ => ⟨trivial, hinv.did hview hallows hexec⟩
  ended := by
    intro h st views task call stage result hinv hview hpost _
    have hreleased : KeyInv h (AppState.release task st) views := hinv.of_db rfl
    exact hreleased.ended hview hpost
  dropped := by
    intro h st views task call stage hinv _ _
    have hreleased : KeyInv h (AppState.release task st) views := hinv.of_db rfl
    exact hreleased.unset task
  moved := fun hinv hmove _ => hinv.of_db (AppState.move_untouched hmove).db

/-- In every run an enrollment key keeps its promises exactly when no call of the
key's holder is stale. -/
theorem keys_sound {st : AppState} {c : (keyMachine conf).Config} {h : KeyHistory}
    (hreach : Machine.Reach (keyUses conf) Machine.free ((keyMachine conf).idle st) {} c h) :
    KeysSound h.outcomes ↔
      ∀ outcome ∈ h.outcomes, outcome.use.held = true → outcome.use.stale = false := by
  have hstart : KeyInv {} st fun _ => none := by
    refine ⟨fun _ _ _ hview => ?_, fun _ _ _ _ _ hview => ?_, fun _ hin => ?_⟩
    · cases hview
    · cases hview
    · cases hin
  obtain ⟨views, -, hinv⟩ := (keyDiscipline conf).run hstart hreach
  constructor
  · intro hsound outcome hin hheld
    have hok := hsound.retry outcome hin hheld
    rw [(hinv.settled outcome hin).retry hheld] at hok
    simpa using hok
  · intro hfresh
    refine ⟨?_, ?_, ?_⟩
    · intro first hfirst second hsecond hok₁ hok₂ hkey
      have hholder₁ := (hinv.settled first hfirst).holder hok₁
      have hholder₂ := (hinv.settled second hsecond).holder hok₂
      rw [hkey, hholder₂] at hholder₁
      exact (Option.some.inj hholder₁).symm
    · exact fun outcome hin => (hinv.settled outcome hin).inTime
    · intro outcome hin hheld
      rw [(hinv.settled outcome hin).retry hheld, hfresh outcome hin hheld]
      rfl

/-! Two registers of one device that carry the same key. -/

/-- Both calls read the row; the first claims the key, the second updates nothing. -/
def sameDeviceTwice : List (keyMachine Conf.small).Label :=
  [.call (.create "key" 1 none), .step 0 .go, .step 0 .go,
    .call (.consume ⟨"key", 1, 0⟩), .call (.consume ⟨"key", 1, 0⟩), .step 1 .go, .step 2 .go,
    .step 1 .go, .step 1 .go, .step 2 .go, .step 2 .go]

/-- The second call of the key's holder is refused. -/
theorem keys_unsound_twice :
    ¬ ∀ c h, Machine.Reach (keyUses Conf.small) Machine.free
      ((keyMachine Conf.small).idle {}) {} c h → KeysSound h.outcomes := by
  intro hclaim
  have hplay : (Machine.play (keyUses Conf.small) (fun _ _ _ => true)
      ((keyMachine Conf.small).idle {}) {} sameDeviceTwice).any
        (fun last => last.2.outcomes.any fun outcome => outcome.use.held && !outcome.ok) =
          true := by
    decide
  have hrun : ∃ c h, Machine.Reach (keyUses Conf.small) Machine.free
      ((keyMachine Conf.small).idle {}) {} c h ∧
        (h.outcomes.any fun outcome => outcome.use.held && !outcome.ok) = true :=
    Machine.reach_of_play (fun _ _ _ _ => trivial) hplay
  obtain ⟨c, h, hreach, hrefused⟩ := hrun
  obtain ⟨outcome, hin, hlast⟩ := List.any_eq_true.mp hrefused
  rw [Bool.and_eq_true] at hlast
  have hok := (hclaim c h hreach).retry outcome hin hlast.1
  rw [hok] at hlast
  exact Bool.false_ne_true hlast.2

def sameDeviceRetries : List (keyMachine Conf.small).Label :=
  [.call (.create "key" 1 none), .step 0 .go, .step 0 .go,
    .call (.consume ⟨"key", 1, 0⟩), .step 1 .go, .step 1 .go, .step 1 .go,
    .call (.consume ⟨"key", 1, 0⟩), .step 2 .go, .step 2 .go, .step 2 .go]

theorem keys_sound_retry :
    ∃ c h, Machine.Reach (keyUses Conf.small) Machine.free
        ((keyMachine Conf.small).idle {}) {} c h ∧
      (h.outcomes.any fun outcome => outcome.use.held && outcome.ok) = true ∧
      KeysSound h.outcomes := by
  have hplay : (Machine.play (keyUses Conf.small) (fun _ _ _ => true)
      ((keyMachine Conf.small).idle {}) {} sameDeviceRetries).any
        (fun last => (last.2.outcomes.any fun outcome => outcome.use.held && outcome.ok) &&
          last.2.outcomes.all fun outcome => !outcome.use.held || !outcome.use.stale) = true := by
    decide
  have hrun : ∃ c h, Machine.Reach (keyUses Conf.small) Machine.free
      ((keyMachine Conf.small).idle {}) {} c h ∧
        ((h.outcomes.any fun outcome => outcome.use.held && outcome.ok) &&
          h.outcomes.all fun outcome => !outcome.use.held || !outcome.use.stale) = true :=
    Machine.reach_of_play (fun _ _ _ _ => trivial) hplay
  obtain ⟨c, h, hreach, hlast⟩ := hrun
  rw [Bool.and_eq_true] at hlast
  refine ⟨c, h, hreach, hlast.1, (keys_sound Conf.small hreach).mpr fun outcome hin hheld => ?_⟩
  have hfresh := List.all_eq_true.mp hlast.2 outcome hin
  rw [hheld] at hfresh
  simpa using hfresh

end UnityLan.Coordinator
