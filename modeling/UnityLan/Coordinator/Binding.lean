import UnityLan.Coordinator.Admission
import UnityLan.Coordinator.Removal

namespace UnityLan.Coordinator

open UnityLan.Foundation Prog

/-! Whose device a login makes: the row of a device that its owner has logged in for. -/

structure Login where
  /-- The owner has completed a login for the device, and no removal has voided it. -/
  completed : Bool := false
  /-- Another account has completed one since. -/
  overtaken : Bool := false
  /-- The registers of the device that were called since. -/
  later : Nat → Option RegisterReq := fun _ => none
  /-- One of these made a row for somebody else. -/
  misowned : Bool := false

namespace Login

def called (l : Login) (task : Nat) (req : RegisterReq) : Login :=
  { l with later := Function.update l.later task (some req) }

def gone (l : Login) (task : Nat) : Login :=
  { l with later := Function.update l.later task none }

def void (l : Login) : Login :=
  { misowned := l.misowned }

def logIn (l : Login) : Login :=
  if l.completed then { l with overtaken := false }
  else { completed := true, misowned := l.misowned }

def make (l : Login) (task : Nat) (mine : Bool) : Login :=
  if l.completed && (l.later task).isSome && !mine then { l with misowned := true } else l

def ran (pubkey : PubKey) (owner : UserId) (l : Login) (task : Nat) : Query → Login
  | .upsertOauth key user _ =>
      if key = pubkey then if user = owner then l.logIn else { l with overtaken := true } else l
  | .deleteDevice key _ => if key = pubkey then l.void else l
  | .deleteOauth key => if key = pubkey then l.void else l
  | .insertDevice key row => if key = pubkey then l.make task (row.userId == owner) else l
  | _ => l

end Login

variable (conf : Conf) (pubkey : PubKey) (owner : UserId)

/-- Watch the logins and registers of one device. -/
def logins : Machine.Observer (machine conf) Login where
  see := fun l _ event _ =>
    match event with
    | .called task (.register req _) => if req.wgPubkey = pubkey then l.called task req else l
    | .called .. => l
    | .did task (.store q) (.ok _) => l.ran pubkey owner task q
    | .did .. => l
    | .ended task _ _ => l.gone task
    | .dropped task _ => l.gone task
    | .moved _ => l

namespace Login

def relies (l : Login) (task : Nat) : Bool :=
  l.completed && (l.later task).any (passesPossession conf)

end Login

/-- When a register that holds the device looks its login up, no other account has
completed one since the owner; and a key it falls back on is the owner's. -/
def undisputed (l : Login) (st : AppState) : (machine conf).Event → Bool
  | .did task (.store (.oauthUser key)) _ => key != pubkey || !l.relies conf task || !l.overtaken
  | .did task (.store (.enrollmentKey key)) _ =>
      !l.relies conf task || (st.db.enrollmentKeys.get? key).all fun row => row.userId == owner
  | _ => true

/-! How a register of the device comes by the user it makes a row for. -/

inductive Claim
  | applicant
  /-- It saw a row of the device. -/
  | enrolled
  /-- A login or a key named its user. -/
  | granted (user : UserId)
  /-- It will not pass. -/
  | stopped

structure Claimant where
  passes : Bool
  claim : Claim := .applicant

namespace Claimant

def read (c : Claimant) : (q : Query) → q.Res → Claimant
  | .device key, some _ => if key = pubkey then { c with claim := .enrolled } else c
  | .oauthUser key, some user =>
      if key = pubkey then { c with claim := if c.passes then .granted user else .stopped } else c
  | .enrollmentKey _, some row =>
      { c with claim := if c.passes then .granted row.userId else .stopped }
  | _, _ => c

def next (c : Claimant) : (o : Op) → o.Res → Claimant
  | .store q, .ok answer =>
      match c.claim with
      | .applicant => c.read pubkey q answer
      | _ => c
  | .tryAcquire _, _ => { passes := c.passes }
  | _, _ => c

def allows (c : Claimant) : Op → Prop
  | .store (.insertDevice key row) =>
      match c.claim with
      | .enrolled => True
      | .granted user => row.userId = user
      | _ => key ≠ pubkey
  | _ => True

def mon : Monitor sig Claimant where
  allows := allows pubkey
  expects := fun _ _ _ => True
  next := next pubkey

def StandsFor (c : Claimant) (user : UserId) : Prop :=
  c.claim = .enrolled ∨ c.claim = .granted user

def ofRequest (req : RegisterReq) : Claimant :=
  { passes := passesPossession conf req }

end Claimant

section

variable {conf} {pubkey} {owner} {req : RegisterReq} {ε α : Type} {c : Claimant}

theorem claimant_passes {o : Op} {answer : o.Res} :
    ((Claimant.mon pubkey).next c o answer).passes = c.passes := by
  show (Claimant.next pubkey c o answer).passes = c.passes
  unfold Claimant.next
  split
  · split
    · unfold Claimant.read
      split
      all_goals try split
      all_goals rfl
    · rfl
  · rfl
  · rfl

theorem standing_keeps (user : UserId) {inside : Op → Prop} {program : Prog sig ε α}
    (hprogram : program.Uses inside) (hacquire : ∀ key, ¬ inside (.tryAcquire key))
    (hinsert : ∀ key row, inside (.store (.insertDevice key row)) → row.userId = user)
    (hstands : c.StandsFor user) :
    program.Conforms (Claimant.mon pubkey) (returns fun c' _ => c' = c) c := by
  have hkept : program.Conforms (Claimant.mon pubkey) (fun c' _ => c' = c) c := by
    refine hprogram.conforms fun o ho => ?_
    have hfixed : ∀ answer, (Claimant.mon pubkey).next c o answer = c := by
      intro answer
      show Claimant.next pubkey c o answer = c
      unfold Claimant.next
      split
      · rcases hstands with henrolled | hgranted
        · rw [henrolled]
        · rw [hgranted]
      · exact absurd ho (hacquire _)
      · rfl
    refine ⟨?_, hfixed⟩
    show Claimant.allows pubkey c o
    unfold Claimant.allows
    split
    · rcases hstands with henrolled | hgranted
      · rw [henrolled]
        trivial
      · rw [hgranted]
        exact hinsert _ _ ho
    · trivial
  refine hkept.mono fun c' result hsame => ?_
  cases result with
  | ok value => exact hsame
  | error error => trivial

theorem verifyPossession_passes {rest : Unit → Handler α} {post : Claimant → α → Prop}
    (hrest : passesPossession conf req = true →
      (rest ()).Conforms (Claimant.mon pubkey) (returns post) c) :
    (verifyPossession conf req >>= rest).Conforms (Claimant.mon pubkey) (returns post) c := by
  unfold verifyPossession
  unfold passesPossession at hrest
  cases houtcome : possession conf req with
  | proven => exact hrest (by simp [houtcome])
  | unproven => exact hrest (by simp [houtcome])
  | rejectInvalid => trivial
  | rejectMissing => trivial

theorem consumeEnrollmentKey_grants (key : String) (now : Nat) :
    (Store.consumeEnrollmentKey key pubkey now).Conforms (Claimant.mon pubkey)
      (returns fun c' user => c' = ⟨true, .granted user⟩) ⟨true, .applicant⟩ := by
  simp only [Store.consumeEnrollmentKey, conforms_sql_bind]
  refine ⟨trivial, fun found _ => ?_⟩
  rcases found with error | _ | row
  · trivial
  · trivial
  have hread : (Claimant.mon pubkey).next ⟨true, .applicant⟩ (.store (.enrollmentKey key))
      (.ok (some row)) = ⟨true, .granted row.userId⟩ := rfl
  rw [hread]
  simp only [after, conforms_sql_bind]
  refine ⟨trivial, fun claimed _ => ?_⟩
  rcases claimed with error | _ | _
  · trivial
  · simp only [Bool.false_eq_true, if_false]
    split
    · split
      · rfl
      · trivial
    · trivial
  · rfl

theorem enrollingUser_grants (hkey : req.wgPubkey = pubkey) :
    (enrollingUser conf req).Conforms (Claimant.mon pubkey)
      (returns fun c' caller => c' = ⟨passesPossession conf req, .granted caller.1⟩)
      (.ofRequest conf req) := by
  subst hkey
  unfold enrollingUser
  refine Conforms.through (fun c' bound =>
    Option.elim bound (c' = .ofRequest conf req) fun user => c' =
      ⟨passesPossession conf req, if passesPossession conf req then .granted user else .stopped⟩)
    ?_ ?_
  · refine Conforms.mapError_returns ?_
    refine ⟨trivial, fun found _ => ?_⟩
    rcases found with error | _ | user
    · trivial
    · rfl
    · simp [returns, Claimant.mon, Claimant.next, Claimant.read, Claimant.ofRequest]
  · intro c' bound hc
    cases bound with
    | some user =>
        subst hc
        apply verifyPossession_passes
        intro hpasses
        simp [hpasses, returns]
    | none =>
        subst hc
        dsimp only
        split
        · trivial
        · rename_i key _
          apply verifyPossession_passes
          intro hpasses
          rw [Claimant.ofRequest, hpasses, conforms_act_bind]
          refine ⟨trivial, fun now _ => ?_⟩
          exact (consumeEnrollmentKey_grants key now).mapError_returns.andThen
            fun c' user hgranted => hgranted

theorem resolveUser_stands (hkey : req.wgPubkey = pubkey) :
    (resolveUser conf req).Conforms (Claimant.mon pubkey)
      (returns fun c' caller => c'.passes = passesPossession conf req ∧ c'.StandsFor caller.1)
      (.ofRequest conf req) := by
  unfold resolveUser
  refine Conforms.through (fun c' owner =>
    owner.elim (c' = .ofRequest conf req) fun _ => c' = ⟨passesPossession conf req, .enrolled⟩)
    ?_ ?_
  · refine Conforms.mapError_returns ?_
    simp only [Store.deviceOwner, conforms_sql_bind]
    refine ⟨trivial, fun found _ => ?_⟩
    rcases found with error | _ | row
    · trivial
    · rfl
    · simp [after, returns, Claimant.mon, Claimant.next, Claimant.read, Claimant.ofRequest, hkey]
  · intro c' owner hc
    cases owner with
    | some user =>
        have hauthenticate : (authenticateEnrolled req).Conforms (Claimant.mon pubkey)
            (returns fun c'' _ => c'' = c') c' := by
          apply standing_keeps user authenticateEnrolled_uses
          · exact fun _ h => h
          · exact fun _ _ h => h.elim
          · exact .inl (congrArg Claimant.claim hc)
        refine hauthenticate.andThen fun c'' _ hsame => ?_
        rw [hsame, hc]
        exact ⟨rfl, .inl rfl⟩
    | none =>
        subst hc
        refine (enrollingUser_grants hkey).returns_mono fun c'' caller hgranted => ?_
        rw [hgranted]
        exact ⟨rfl, .inr rfl⟩

theorem buildSnapshot_stands (hkey : req.wgPubkey = pubkey) (callerIp : IpAddr) :
    (buildSnapshot conf req callerIp).Conforms (Claimant.mon pubkey)
      (returns fun c' _ => c'.passes = passesPossession conf req) (.ofRequest conf req) := by
  unfold buildSnapshot validatePeerReports
  split
  · trivial
  · have hresolve : (resolveUser conf req).Conforms (Claimant.mon pubkey) _ _ :=
      resolveUser_stands hkey
    refine hresolve.andThen ?_
    rintro c₁ ⟨user, alreadyEnrolled⟩ ⟨hpasses, hstands⟩
    have hsettle : (settle conf req callerIp user).Conforms (Claimant.mon pubkey)
        (returns fun c' _ => c' = c₁) c₁ := by
      apply standing_keeps user (settle_owned conf callerIp user)
      · exact fun _ h => h
      · exact fun _ _ h => h.2
      · exact hstands
    refine hsettle.andThen fun c₂ settled hsame => ?_
    subst hsame
    have htell : (answer conf req user alreadyEnrolled settled).Conforms (Claimant.mon pubkey)
        (returns fun c' _ => c' = c₂) c₂ := by
      apply standing_keeps user (answer_uses conf user alreadyEnrolled settled)
      · rintro _ (h | h) <;> exact h
      · rintro _ _ (h | h) <;> exact h.elim
      · exact hstands
    exact htell.returns_mono fun c₃ built hsame => hsame ▸ hpasses

theorem register_stands (hkey : req.wgPubkey = pubkey) (callerIp : IpAddr) :
    (register conf req callerIp).Conforms (Claimant.mon pubkey) (fun _ _ => True)
      (.ofRequest conf req) := by
  have hbuilds : Builds conf req (Claimant.mon pubkey) (fun c => c = .ofRequest conf req)
      (fun c _ => c.passes = passesPossession conf req) := by
    constructor
    · rintro c key rfl
      exact ⟨trivial, fun _ => rfl⟩
    · rintro c ip rfl
      exact buildSnapshot_stands hkey ip
    · intro c built hpasses
      exact ⟨trivial, fun _ => congrArg (Claimant.mk · .applicant) hpasses⟩
    · rintro c o (hpark | rfl) rfl
      · unfold ParkOp at hpark
        split at hpark
        all_goals first | exact ⟨trivial, fun _ _ => rfl⟩ | exact hpark.elim
      · exact ⟨trivial, fun _ _ => rfl⟩
  exact (hbuilds.register callerIp rfl).mono fun _ _ _ => trivial

end

def claimantOf : Call → Option Claimant
  | .register req _ => if req.wgPubkey = pubkey then some (.ofRequest conf req) else none
  | _ => none

theorem handle_stands (call : Call) :
    (handle conf call).Conforms (optional (Claimant.mon pubkey)) (fun _ _ => True)
      (claimantOf conf pubkey call) := by
  have hother : (handle conf call).Conforms (optional (Claimant.mon pubkey)) (fun _ _ => True)
      none := (conforms_ignored _).mono fun _ _ _ => trivial
  cases call with
  | register req callerIp =>
      simp only [claimantOf]
      split
      · rename_i hkey
        apply conforms_followed
        exact (register_stands hkey callerIp).bind (fun _ _ _ => trivial) fun _ _ _ => trivial
      · exact hother
  | _ => exact hother

/-! The invariant: what a register that came after the login stands on is the owner's. -/

def Claim.Holds (pubkey : PubKey) (owner : UserId) (db : Database) : Claim → Prop
  | .applicant => True
  | .enrolled => (db.devices.get? pubkey).isSome
  | .granted user => user = owner
  | .stopped => True

structure LoginInv (l : Login) (st : AppState) (views : Nat → Option (Call × Option Claimant)) :
    Prop where
  kept : l.misowned = false
  later : ∀ task req, l.later task = some req → ∃ call c,
    views task = some (call, some c) ∧ c.passes = passesPossession conf req
  bound : l.completed = true → l.overtaken = false →
    ∀ row, st.db.oauthAuthorized.get? pubkey = some row → row.userId = owner
  holds : l.completed = true → ∀ task req call c, l.later task = some req →
    views task = some (call, some c) → c.claim.Holds pubkey owner st.db

section

variable {conf} {pubkey} {owner} {l : Login} {st st' : AppState} {task : Nat} {call : Call}
  {views : Nat → Option (Call × Option Claimant)} {m : Option Claimant} {c : Claimant}

theorem LoginInv.of_db (hinv : LoginInv conf pubkey owner l st views) (hdb : st'.db = st.db) :
    LoginInv conf pubkey owner l st' views := by
  refine ⟨hinv.kept, hinv.later, ?_, ?_⟩
  · rw [hdb]
    exact hinv.bound
  · rw [hdb]
    exact hinv.holds

theorem LoginInv.gone (hinv : LoginInv conf pubkey owner l st views) :
    LoginInv conf pubkey owner (l.gone task) (AppState.release task st)
      (Function.update views task none) := by
  have hlater : ∀ other req, (l.gone task).later other = some req →
      other ≠ task ∧ l.later other = some req :=
    fun other req hother => Machine.update_none_cases hother
  refine ⟨hinv.kept, ?_, hinv.bound, ?_⟩
  · intro other req hother
    obtain ⟨hne, hbefore⟩ := hlater other req hother
    obtain ⟨call', c', hview, hpasses⟩ := hinv.later other req hbefore
    exact ⟨call', c', (Function.update_of_ne hne _ _).trans hview, hpasses⟩
  · intro hcompleted other req call' c' hother hview
    obtain ⟨hne, hbefore⟩ := hlater other req hother
    rw [Function.update_of_ne hne] at hview
    exact hinv.holds hcompleted other req call' c' hbefore hview

theorem LoginInv.called (hinv : LoginInv conf pubkey owner l st views)
    (hfree : views task = none) :
    LoginInv conf pubkey owner ((logins conf pubkey owner).see l st (.called task call) st) st
      (Function.update views task (some (call, claimantOf conf pubkey call))) := by
  have hlater : l.later task = none := by
    cases hlater : l.later task with
    | none => rfl
    | some req =>
        obtain ⟨call', c', hview, _⟩ := hinv.later task req hlater
        rw [hfree] at hview
        cases hview
  have hother : LoginInv conf pubkey owner l st
      (Function.update views task (some (call, claimantOf conf pubkey call))) := by
    have hne : ∀ other req, l.later other = some req → other ≠ task := by
      rintro other req hsome rfl
      rw [hlater] at hsome
      cases hsome
    refine ⟨hinv.kept, ?_, hinv.bound, ?_⟩
    · intro other req hsome
      obtain ⟨call', c', hview, hpasses⟩ := hinv.later other req hsome
      exact ⟨call', c', (Function.update_of_ne (hne other req hsome) _ _).trans hview, hpasses⟩
    · intro hcompleted other req call' c' hsome hview
      rw [Function.update_of_ne (hne other req hsome)] at hview
      exact hinv.holds hcompleted other req call' c' hsome hview
  cases call with
  | register req callerIp =>
      simp only [logins]
      split
      · rename_i hkey
        have hclaimant : claimantOf conf pubkey (.register req callerIp) =
            some (.ofRequest conf req) := if_pos hkey
        rw [hclaimant]
        refine ⟨hinv.kept, ?_, hinv.bound, ?_⟩
        · intro other req' hsome
          rcases Machine.update_some_cases hsome with ⟨rfl, rfl⟩ | ⟨hne, hsome⟩
          · exact ⟨_, _, Function.update_self .., rfl⟩
          · obtain ⟨call', c', hview, hpasses⟩ := hinv.later other req' hsome
            exact ⟨call', c', (Function.update_of_ne hne _ _).trans hview, hpasses⟩
        · intro hcompleted other req' call' c' hsome hview
          rcases Machine.update_some_cases hview with ⟨rfl, heq⟩ | ⟨hne, hview⟩
          · obtain ⟨rfl, hc⟩ := Prod.mk.inj heq
            cases hc
            trivial
          · simp only [Login.called, Function.update_of_ne hne] at hsome
            exact hinv.holds hcompleted other req' call' c' hsome hview
      · exact hother
  | _ => exact hother

variable {q : Query} {answer : q.Res} {db db' : Database}

theorem holds_kept {claim : Claim} (hrun : db.run q = .ok (answer, db'))
    (hkeeps : ∀ user, q ≠ .deleteDevice pubkey user) (hholds : claim.Holds pubkey owner db) :
    claim.Holds pubkey owner db' := by
  cases claim with
  | enrolled =>
      rcases Database.run_device pubkey hrun with hsame | ⟨user, hdelete⟩ | ⟨row, _, habsent⟩
      · exact hsame.trans hholds
      · exact absurd hdelete (hkeeps user)
      · simp [Claim.Holds, habsent] at hholds
  | _ => exact hholds

theorem LoginInv.holds_next {req : RegisterReq} (hinv : LoginInv conf pubkey owner l st views)
    (hcompleted : l.completed = true) (hlater : l.later task = some req)
    (hview : views task = some (call, some c))
    (hrun : st.db.run q = .ok (answer, db')) (hkeeps : ∀ user, q ≠ .deleteDevice pubkey user)
    (hallowed : undisputed conf pubkey owner l st (.did task (.store q) (.ok answer)) = true) :
    ((Claimant.mon pubkey).next c (.store q) (.ok answer)).claim.Holds pubkey owner db' := by
  have hkept := holds_kept hrun hkeeps (hinv.holds hcompleted task req call c hlater hview)
  have hrelies : c.passes = true → l.relies conf task = true := by
    intro hpasses
    obtain ⟨call', c', hview', hpasses'⟩ := hinv.later task req hlater
    rw [hview, Option.some.injEq, Prod.mk.injEq, Option.some.injEq] at hview'
    obtain ⟨-, rfl⟩ := hview'
    simp [Login.relies, hcompleted, hlater, ← hpasses', hpasses]
  show (Claimant.next pubkey c (.store q) (.ok answer)).claim.Holds pubkey owner db'
  simp only [Claimant.next]
  split
  · unfold Claimant.read
    split
    · rename_i key row
      split
      · rename_i hkey
        subst hkey
        simp only [Database.run, Except.ok.injEq, Prod.mk.injEq] at hrun
        obtain ⟨hrow, rfl⟩ := hrun
        simp [Claim.Holds, hrow]
      · exact hkept
    · rename_i key user
      split
      · rename_i hkey
        subst hkey
        cases hpasses : c.passes with
        | false => trivial
        | true =>
            have hopen : l.overtaken = false := by
              simpa [undisputed, hrelies hpasses] using hallowed
            simp only [Database.run, Except.ok.injEq, Prod.mk.injEq] at hrun
            obtain ⟨row, hrow, rfl⟩ := Option.map_eq_some_iff.mp hrun.1
            exact hinv.bound hcompleted hopen row hrow
      · exact hkept
    · rename_i key row
      cases hpasses : c.passes with
      | false => trivial
      | true =>
          simp only [Database.run, Except.ok.injEq, Prod.mk.injEq] at hrun
          have howner : row.userId = owner := by
            simpa [undisputed, hrelies hpasses, hrun.1] using hallowed
          exact howner
    · exact hkept
  · exact hkept

theorem LoginInv.of_next {l' : Login} {o : Op} {answer : o.Res}
    (hinv : LoginInv conf pubkey owner l st views) (hview : views task = some (call, m))
    (hkept : l'.misowned = false)
    (hlater : ∀ other req, l'.later other = some req → l.later other = some req)
    (hbound : l'.completed = true → l'.overtaken = false →
      ∀ row, st'.db.oauthAuthorized.get? pubkey = some row → row.userId = owner)
    (hothers : l'.completed = true → ∀ other req call' c', l'.later other = some req →
      views other = some (call', some c') → c'.claim.Holds pubkey owner st'.db)
    (hnext : l'.completed = true → ∀ req c, l'.later task = some req → m = some c →
      ((Claimant.mon pubkey).next c o answer).claim.Holds pubkey owner st'.db) :
    LoginInv conf pubkey owner l' st' (Function.update views task
      (some (call, (optional (Claimant.mon pubkey)).next m o answer))) := by
  refine ⟨hkept, ?_, hbound, ?_⟩
  · intro other req hsome
    obtain ⟨call', c', hview', hpasses⟩ := hinv.later other req (hlater other req hsome)
    rcases eq_or_ne other task with rfl | hne
    · rw [hview, Option.some.injEq, Prod.mk.injEq] at hview'
      obtain ⟨rfl, rfl⟩ := hview'
      exact ⟨call, _, Function.update_self .., claimant_passes.trans hpasses⟩
    · exact ⟨call', c', (Function.update_of_ne hne _ _).trans hview', hpasses⟩
  · intro hcompleted other req call' c' hsome hview'
    rcases Machine.update_some_cases hview' with ⟨rfl, heq⟩ | ⟨_, hview'⟩
    · obtain ⟨rfl, hmap⟩ := Prod.mk.inj heq
      obtain ⟨before, rfl, rfl⟩ := Option.map_eq_some_iff.mp hmap.symm
      exact hnext hcompleted req before hsome rfl
    · exact hothers hcompleted other req call' c' hsome hview'

theorem LoginInv.of_run {l' : Login} (hinv : LoginInv conf pubkey owner l st views)
    (hview : views task = some (call, m)) (hkept : l'.misowned = false)
    (hlater : l'.completed = true → ∀ other req, l'.later other = some req →
      l.completed = true)
    (hsubset : ∀ other req, l'.later other = some req → l.later other = some req)
    (hbound : l'.completed = true → l'.overtaken = false →
      ∀ row, st'.db.oauthAuthorized.get? pubkey = some row → row.userId = owner)
    (hrun : st.db.run q = .ok (answer, st'.db)) (hkeeps : ∀ user, q ≠ .deleteDevice pubkey user)
    (hallowed : undisputed conf pubkey owner l st (.did task (.store q) (.ok answer)) = true) :
    LoginInv conf pubkey owner l' st' (Function.update views task
      (some (call, (optional (Claimant.mon pubkey)).next m (.store q) (.ok answer)))) := by
  refine hinv.of_next hview hkept hsubset hbound ?_ ?_
  · intro hcompleted other req call' c' hsome hview'
    have hheld := hinv.holds (hlater hcompleted other req hsome) other req call' c'
      (hsubset other req hsome) hview'
    exact holds_kept hrun hkeeps hheld
  · rintro hcompleted req c hsome rfl
    exact hinv.holds_next (hlater hcompleted task req hsome) (hsubset task req hsome) hview hrun
      hkeeps hallowed

theorem LoginInv.of_plain (hinv : LoginInv conf pubkey owner l st views)
    (hview : views task = some (call, m)) (hrun : st.db.run q = .ok (answer, st'.db))
    (hkeeps : ∀ user, q ≠ .deleteDevice pubkey user)
    (hbinds : ∀ user now, q ≠ .upsertOauth pubkey user now)
    (hallowed : undisputed conf pubkey owner l st (.did task (.store q) (.ok answer)) = true) :
    LoginInv conf pubkey owner l st' (Function.update views task
      (some (call, (optional (Claimant.mon pubkey)).next m (.store q) (.ok answer)))) := by
  refine hinv.of_run hview hinv.kept (fun hcompleted _ _ _ => hcompleted) (fun _ _ h => h) ?_
    hrun hkeeps hallowed
  intro hcompleted hopen row hrow
  rcases Database.run_binding pubkey hrun with hsame | hgone | ⟨user, now, hlogin, _⟩
  · exact hinv.bound hcompleted hopen row (hsame.symm.trans hrow)
  · rw [hgone] at hrow
    cases hrow
  · exact absurd hlogin (hbinds user now)

theorem LoginInv.voided (hinv : LoginInv conf pubkey owner l st views)
    (hview : views task = some (call, m)) :
    LoginInv conf pubkey owner l.void st' (Function.update views task
      (some (call, (optional (Claimant.mon pubkey)).next m (.store q) (.ok answer)))) := by
  refine hinv.of_next hview hinv.kept ?_ ?_ ?_ ?_
  · intro other req hsome
    cases hsome
  · intro hcompleted
    cases hcompleted
  · intro hcompleted
    cases hcompleted
  · intro hcompleted
    cases hcompleted

theorem LoginInv.logged_in {now : Nat} {answer : Unit}
    (hinv : LoginInv conf pubkey owner l st views) (hview : views task = some (call, m))
    (hrun : st.db.run (.upsertOauth pubkey owner now) = .ok (answer, st'.db))
    (hallowed : undisputed conf pubkey owner l st
      (.did task (.store (.upsertOauth pubkey owner now)) (.ok answer)) = true) :
    LoginInv conf pubkey owner l.logIn st' (Function.update views task
      (some (call, (optional (Claimant.mon pubkey)).next m
        (.store (.upsertOauth pubkey owner now)) (.ok answer)))) := by
  have hbound : ∀ row, st'.db.oauthAuthorized.get? pubkey = some row → row.userId = owner := by
    intro row hrow
    simp only [Database.run, Except.ok.injEq, Prod.mk.injEq] at hrun
    rw [← hrun.2] at hrow
    simp only [Table.get?_replace, if_pos, Option.some.injEq] at hrow
    rw [← hrow]
  unfold Login.logIn
  split
  · rename_i hcompleted
    refine hinv.of_run hview hinv.kept (fun _ _ _ _ => hcompleted) (fun _ _ h => h)
      (fun _ _ => hbound) hrun nofun hallowed
  · refine hinv.of_run hview hinv.kept ?_ ?_ (fun _ _ => hbound) hrun nofun hallowed
    · intro _ other req hsome
      cases hsome
    · intro other req hsome
      cases hsome

theorem LoginInv.contested {user : UserId} {now : Nat} {answer : Unit}
    (hinv : LoginInv conf pubkey owner l st views) (hview : views task = some (call, m))
    (hrun : st.db.run (.upsertOauth pubkey user now) = .ok (answer, st'.db))
    (hallowed : undisputed conf pubkey owner l st
      (.did task (.store (.upsertOauth pubkey user now)) (.ok answer)) = true) :
    LoginInv conf pubkey owner { l with overtaken := true } st' (Function.update views task
      (some (call, (optional (Claimant.mon pubkey)).next m
        (.store (.upsertOauth pubkey user now)) (.ok answer)))) := by
  refine hinv.of_run hview hinv.kept (fun hcompleted _ _ _ => hcompleted) (fun _ _ h => h) ?_
    hrun nofun hallowed
  intro _ hopen
  cases hopen

theorem LoginInv.makes {row : DeviceRow} {answer : Unit}
    (hinv : LoginInv conf pubkey owner l st views) (hview : views task = some (call, m))
    (hallows : (optional (Claimant.mon pubkey)).allows m (.store (.insertDevice pubkey row)))
    (hrun : st.db.run (.insertDevice pubkey row) = .ok (answer, db')) :
    l.make task (row.userId == owner) = l := by
  unfold Login.make
  split
  · rename_i hrelies
    simp only [Bool.and_eq_true, Bool.not_eq_true', beq_eq_false_iff_ne] at hrelies
    obtain ⟨⟨hcompleted, hsome⟩, hother⟩ := hrelies
    obtain ⟨req, hlater⟩ := Option.isSome_iff_exists.mp hsome
    obtain ⟨call', c, hview', _⟩ := hinv.later task req hlater
    rw [hview, Option.some.injEq, Prod.mk.injEq] at hview'
    obtain ⟨rfl, rfl⟩ := hview'
    have hheld := hinv.holds hcompleted task req call c hlater hview
    have hclaim : Claimant.allows pubkey c (.store (.insertDevice pubkey row)) := hallows
    simp only [Claimant.allows] at hclaim
    split at hclaim
    · rename_i henrolled
      rw [henrolled] at hheld
      simp only [Database.run] at hrun
      split at hrun
      · cases hrun
      · rename_i devices hinsert
        have hpresent : (st.db.devices.get? pubkey).isSome = true := hheld
        rw [(UniqueTable.insertNew_some hinsert).1] at hpresent
        cases hpresent
    · rename_i user hgranted
      rw [hgranted] at hheld
      exact absurd (hclaim.trans hheld) hother
    · exact absurd rfl hclaim
  · rfl

theorem LoginInv.ran (hinv : LoginInv conf pubkey owner l st views)
    (hview : views task = some (call, m))
    (hallows : (optional (Claimant.mon pubkey)).allows m (.store q))
    (hrun : st.db.run q = .ok (answer, st'.db))
    (hallowed : undisputed conf pubkey owner l st (.did task (.store q) (.ok answer)) = true) :
    LoginInv conf pubkey owner (l.ran pubkey owner task q) st' (Function.update views task
      (some (call, (optional (Claimant.mon pubkey)).next m (.store q) (.ok answer)))) := by
  unfold Login.ran
  split
  · rename_i key user now
    split
    · rename_i hkey
      subst hkey
      split
      · rename_i howner
        subst howner
        exact hinv.logged_in hview hrun hallowed
      · exact hinv.contested hview hrun hallowed
    · rename_i hkey
      refine hinv.of_plain hview hrun nofun ?_ hallowed
      rintro _ _ heq
      cases heq
      exact hkey rfl
  · rename_i key user
    split
    · exact hinv.voided hview
    · rename_i hkey
      refine hinv.of_plain hview hrun ?_ nofun hallowed
      rintro _ heq
      cases heq
      exact hkey rfl
  · rename_i key
    split
    · exact hinv.voided hview
    · exact hinv.of_plain hview hrun nofun nofun hallowed
  · rename_i key row
    have hplain := hinv.of_plain hview hrun nofun nofun hallowed
    split
    · rename_i hkey
      subst hkey
      rw [hinv.makes hview hallows hrun]
      exact hplain
    · exact hplain
  · rename_i hupsert hdelete _ _
    exact hinv.of_plain hview hrun (fun user => hdelete pubkey user)
      (fun user now => hupsert pubkey user now) hallowed

theorem LoginInv.of_other {o : Op} {answer : o.Res}
    (hinv : LoginInv conf pubkey owner l st views) (hview : views task = some (call, m))
    (hdb : st'.db = st.db)
    (hnext : ∀ c, ((Claimant.mon pubkey).next c o answer).claim = c.claim ∨
      ((Claimant.mon pubkey).next c o answer).claim = .applicant) :
    LoginInv conf pubkey owner l st' (Function.update views task
      (some (call, (optional (Claimant.mon pubkey)).next m o answer))) := by
  refine hinv.of_next hview hinv.kept (fun _ _ h => h) ?_ ?_ ?_
  · rw [hdb]
    exact hinv.bound
  · rw [hdb]
    exact hinv.holds
  · rintro hcompleted req c hlater rfl
    rw [hdb]
    rcases hnext c with hsame | hanew
    · rw [hsame]
      exact hinv.holds hcompleted task req call c hlater hview
    · rw [hanew]
      trivial

theorem LoginInv.did {o : Op} {choice : Choice} {answer : o.Res}
    (hinv : LoginInv conf pubkey owner l st views) (hview : views task = some (call, m))
    (hallows : (optional (Claimant.mon pubkey)).allows m o)
    (hexec : AppState.exec conf task o choice st = some (answer, st'))
    (hallowed : undisputed conf pubkey owner l st (.did task o answer) = true) :
    LoginInv conf pubkey owner ((logins conf pubkey owner).see l st (.did task o answer) st') st'
      (Function.update views task
        (some (call, (optional (Claimant.mon pubkey)).next m o answer))) := by
  cases o with
  | store q =>
      have hstep := AppState.exec_store hexec
      cases answer with
      | ok answer => exact hinv.ran hview hallows (Database.step_ok hstep).2 hallowed
      | error error => exact hinv.of_other hview (Database.step_error hstep) fun c => .inl rfl
  | tryAcquire key =>
      exact hinv.of_other hview
        ((AppState.exec_frame hexec).db fun _ habsurd => by cases habsurd) fun c => .inr rfl
  | _ =>
      exact hinv.of_other hview
        ((AppState.exec_frame hexec).db fun _ habsurd => by cases habsurd) fun c => .inl rfl

end

def loginDiscipline :
    Machine.Discipline (machine conf) (logins conf pubkey owner)
      (Machine.passes (undisputed conf pubkey owner)) (Option Claimant) where
  mon := optional (Claimant.mon pubkey)
  opening := fun _ _ call => claimantOf conf pubkey call
  post := fun _ _ _ => True
  inv := LoginInv conf pubkey owner
  conforms := fun _ _ call => handle_stands conf pubkey call
  called := fun hinv hfree _ => hinv.called hfree
  did := by
    intro l st views task call m o choice answer st' hinv hview hallows hexec hallowed
    refine ⟨?_, hinv.did hview hallows hexec hallowed⟩
    cases m <;> trivial
  ended := fun hinv _ _ _ => hinv.gone
  dropped := fun hinv _ _ => hinv.gone
  moved := fun hinv hmove _ => hinv.of_db (AppState.move_untouched hmove).db

/-- As long as no other account completes a login for the device between the owner's and
the lookup of a register that holds it, the row such a register makes is the owner's. -/
theorem login_makes_owner {st₀ : AppState} {c : (machine conf).Config} {l : Login}
    (hreach : Machine.Reach (logins conf pubkey owner)
      (Machine.passes (undisputed conf pubkey owner)) ((machine conf).idle st₀) {} c l) :
    l.misowned = false := by
  have hstart : LoginInv conf pubkey owner {} st₀ fun _ => none := by
    refine ⟨rfl, ?_, ?_, ?_⟩
    · intro task req hlater
      cases hlater
    · intro hcompleted
      cases hcompleted
    · intro hcompleted
      cases hcompleted
  obtain ⟨views, _, hinv⟩ := (loginDiscipline conf pubkey owner).run hstart hreach
  exact hinv.kept

open Script in
def ownerLogin : Script Conf.small :=
  move (.accessToken "grant" (some (1, "ann"))) ++ call (.oauthComplete ⟨1, "grant"⟩) ++
    steps 0 6 .go

open Script in
def loginAndRegister : Script Conf.small :=
  ownerLogin ++ call (.register (personalDevice 1 "pc") (.v4 0)) ++ steps 1 24 (.text "token")

open Script in
/-- Someone who knows the public key logs in for it under an account of their own before the
device registers. -/
def contestedLogin : Script Conf.small :=
  ownerLogin ++ move (.accessToken "other" (some (2, "eve"))) ++
    call (.oauthComplete ⟨1, "other"⟩) ++ steps 1 6 .go ++
    call (.register (personalDevice 1 "pc") (.v4 0)) ++ steps 2 24 (.text "token")

/-- The later login takes the device, although its proof was never shown. -/
theorem login_makes_other :
    ¬ ∀ c l, Machine.Reach (logins Conf.small 1 1) Machine.free
      ((machine Conf.small).idle {}) {} c l → l.misowned = false := by
  intro hclaim
  have hplay : (Machine.play (logins Conf.small 1 1) (fun _ _ _ => true)
      ((machine Conf.small).idle {}) {} contestedLogin).any
        (fun last => last.2.misowned) = true := by
    decide
  have hrun : ∃ c l, Machine.Reach (logins Conf.small 1 1) Machine.free
      ((machine Conf.small).idle {}) {} c l ∧ l.misowned = true :=
    Machine.reach_of_play (fun _ _ _ _ => trivial) hplay
  obtain ⟨c, l, hreach, hmisowned⟩ := hrun
  exact Bool.false_ne_true ((hclaim c l hreach).symm.trans hmisowned)

/-- A device that registers after its owner's login has a row of the owner's. -/
theorem login_makes_owner_registered :
    ∃ c l, Machine.Reach (logins Conf.small 1 1) (Machine.passes (undisputed Conf.small 1 1))
        ((machine Conf.small).idle {}) {} c l ∧
      (c.shared.db.devices.get? 1).map (·.userId) = some 1 ∧ l.misowned = false := by
  have hplay : (Machine.play (logins Conf.small 1 1) (undisputed Conf.small 1 1)
      ((machine Conf.small).idle {}) {} loginAndRegister).any
        (fun last => (last.1.shared.db.devices.get? 1).map (·.userId) == some 1) = true := by
    decide
  have hrun : ∃ c l, Machine.Reach (logins Conf.small 1 1)
      (Machine.passes (undisputed Conf.small 1 1)) ((machine Conf.small).idle {}) {} c l ∧
        ((c.shared.db.devices.get? 1).map (·.userId) == some 1) = true :=
    Machine.reach_of_play (fun _ _ _ htest => htest) hplay
  obtain ⟨c, l, hreach, hrow⟩ := hrun
  exact ⟨c, l, hreach, beq_iff_eq.mp hrow, login_makes_owner Conf.small 1 1 hreach⟩

end UnityLan.Coordinator
