import UnityLan.Coordinator.Footprint

namespace UnityLan.Coordinator

open UnityLan.Foundation Prog

/-! What the removal of a device means for its later requests. -/

/-- The history of one device around its removals. -/
structure Removal where
  /-- `remove_device` has run. -/
  removed : Bool := false
  /-- Since then a login was completed for it, or it claimed an unused key. -/
  authorized : Bool := false
  /-- The tasks called since its row was last deleted. -/
  later : Nat → Bool := fun _ => false
  /-- A later task made a row for it without an authorization. -/
  recreated : Bool := false

namespace Removal

def called (task : Nat) (r : Removal) : Removal :=
  { r with later := Function.update r.later task true }

def ran (pubkey : PubKey) (task : Nat) (r : Removal) (before after : Bool) :
    (q : Query) → q.Res → Removal
  | .deleteDevice key _, _ =>
      if key = pubkey then { r with later := fun _ => false } else r
  | .deleteOauth key, _ =>
      if key = pubkey then
        { r with removed := true, authorized := false, later := fun _ => false }
      else r
  | .upsertOauth key _ _, _ => if key = pubkey then { r with authorized := true } else r
  | .claimEnrollmentKey _ key _, claimed =>
      if key = pubkey ∧ claimed = true then { r with authorized := true } else r
  | _, _ =>
      if !before && after && r.removed && !r.authorized && r.later task then
        { r with recreated := true }
      else r

end Removal

variable (conf : Conf) (pubkey : PubKey)

def hasRow (st : AppState) : Bool :=
  (st.db.devices.get? pubkey).isSome

/-- Watch the removals of one device. -/
def removals : Machine.Observer (machine conf) Removal where
  see := fun r st event st' =>
    match event with
    | .called task _ => r.called task
    | .did task (.store q) (.ok answer) =>
        r.ran pubkey task (hasRow pubkey st) (hasRow pubkey st') q answer
    | _ => r

def passesPossession (req : RegisterReq) : Bool :=
  match possession conf req with
  | .proven => true
  | .unproven => true
  | .rejectInvalid => false
  | .rejectMissing => false

def presentedKey (req : RegisterReq) : Option String :=
  if passesPossession conf req then req.enrollmentKey else none

def reusesKey (st : AppState) (req : RegisterReq) : Bool :=
  match presentedKey conf req with
  | some key => st.db.usedBy key == some req.wgPubkey
  | none => false

/-- After a removal, and before a new authorization, no request of the device
presents a key the device used before. -/
def reusesNoKey (r : Removal) (st : AppState) : (machine conf).Event → Bool
  | .called _ (.register req _) =>
      req.wgPubkey != pubkey || !r.removed || r.authorized || !reusesKey conf st req
  | _ => true

/-! How far a task has come on its way to a row for the device. -/

inductive Standing
  /-- It acts for nobody, or for another device. -/
  | outsider
  | applicant (key : Option String)
  /-- It saw a row of the device. -/
  | enrolled
  /-- A login or a key let it in. -/
  | cleared

namespace Standing

def allows : Standing → Op → Prop
  | .outsider, .store (.insertDevice key _) => key ≠ pubkey
  | .applicant _, .store (.insertDevice key _) => key ≠ pubkey
  | .applicant presented, .store (.enrollmentKey key) => presented = some key
  | _, _ => True

def read (presented : Option String) : (q : Query) → q.Res → Standing
  | .device key, some _ => if key = pubkey then .enrolled else .applicant presented
  | .oauthUser key, some _ => if key = pubkey then .cleared else .applicant presented
  | .enrollmentKey _, some row =>
      if row.usedBy = some pubkey then .cleared else .applicant presented
  | .claimEnrollmentKey _ key _, true =>
      if key = pubkey then .cleared else .applicant presented
  | _, _ => .applicant presented

def next : Standing → (o : Op) → o.Res → Standing
  | .applicant presented, .store q, .ok answer => read pubkey presented q answer
  | standing, _, _ => standing

def mon : Monitor sig Standing where
  allows := allows pubkey
  expects := fun _ _ _ => True
  next := next pubkey

def admitted (standing : Standing) : Prop :=
  standing = .enrolled ∨ standing = .cleared

end Standing

def standingOf : Call → Standing
  | .register req _ =>
      if req.wgPubkey = pubkey then .applicant (presentedKey conf req) else .outsider
  | _ => .outsider

/-! The programs. -/

section

variable {conf} {pubkey} {req : RegisterReq} {ε α : Type}

theorem outsider_conforms {inside : Op → Prop} {program : Prog sig ε α}
    (hprogram : program.Uses inside)
    (hinside : ∀ row, ¬ inside (.store (.insertDevice pubkey row))) :
    program.Conforms (Standing.mon pubkey) (fun _ _ => True) .outsider := by
  refine (hprogram.conforms fun o ho => ⟨?_, fun _ => rfl⟩).mono fun _ _ _ => trivial
  show Standing.allows pubkey .outsider o
  unfold Standing.allows
  split
  · rintro rfl
    exact hinside _ ho
  all_goals trivial

variable (pubkey) in
def Admits (program : Prog sig ε α) (μ : Standing) : Prop :=
  program.Conforms (Standing.mon pubkey) (returns fun μ' _ => μ'.admitted) μ

theorem admitted_admits (program : Prog sig ε α) {μ : Standing} (hadmitted : μ.admitted) :
    Admits pubkey program μ := by
  have hignored : ∀ o, True → (Standing.mon pubkey).allows μ o ∧
      ∀ answer, (Standing.mon pubkey).next μ o answer = μ := by
    intro o _
    rcases hadmitted with rfl | rfl
    · exact ⟨trivial, fun _ => rfl⟩
    · exact ⟨trivial, fun _ => rfl⟩
  refine (program.uses_all.conforms hignored).mono fun μ' result hsame => ?_
  cases result with
  | ok _ => exact hsame ▸ hadmitted
  | error _ => trivial

theorem verifyPossession_bind_admits {rest : Unit → Handler α} {μ : Standing}
    (hrest : passesPossession conf req = true → Admits pubkey (rest ()) μ) :
    Admits pubkey (verifyPossession conf req >>= rest) μ := by
  unfold verifyPossession
  unfold passesPossession at hrest
  cases houtcome : possession conf req with
  | proven => exact hrest (by simp [houtcome])
  | unproven => exact hrest (by simp [houtcome])
  | rejectInvalid => trivial
  | rejectMissing => trivial

theorem consumeEnrollmentKey_admits (key : String) (now : Nat) :
    Admits pubkey (Store.consumeEnrollmentKey key pubkey now) (.applicant (some key)) := by
  simp only [Admits, Store.consumeEnrollmentKey, conforms_sql_bind]
  refine ⟨rfl, fun found _ => ?_⟩
  rcases found with error | _ | row
  · trivial
  · trivial
  by_cases hused : row.usedBy = some pubkey
  · have hread : (Standing.mon pubkey).next (.applicant (some key))
        (.store (.enrollmentKey key)) (.ok (some row)) = .cleared := by
      simp [Standing.mon, Standing.next, Standing.read, hused]
    rw [hread]
    exact admitted_admits _ (.inr rfl)
  · have hread : (Standing.mon pubkey).next (.applicant (some key))
        (.store (.enrollmentKey key)) (.ok (some row)) = .applicant (some key) := by
      simp [Standing.mon, Standing.next, Standing.read, hused]
    rw [hread]
    simp only [after, conforms_sql_bind]
    refine ⟨trivial, fun claimed _ => ?_⟩
    rcases claimed with error | _ | _
    · trivial
    · simp only [Bool.false_eq_true, if_false]
      split
      · rename_i used hsome
        split
        · rename_i hsame
          exact absurd (hsome.trans (congrArg some hsame)) hused
        · trivial
      · trivial
    · simp [returns, Standing.mon, Standing.next, Standing.read, Standing.admitted]

theorem enrollingUser_admits (hkey : req.wgPubkey = pubkey) :
    Admits pubkey (enrollingUser conf req) (.applicant (presentedKey conf req)) := by
  subst hkey
  unfold enrollingUser
  refine Conforms.through (fun μ bound =>
    Option.elim bound (μ = .applicant (presentedKey conf req)) fun _ => μ = .cleared) ?_ ?_
  · refine Conforms.mapError_returns ?_
    refine ⟨trivial, fun found _ => ?_⟩
    rcases found with error | _ | user
    · trivial
    · rfl
    · simp [returns, Standing.mon, Standing.next, Standing.read]
  · intro μ bound hμ
    cases bound with
    | some user =>
        subst hμ
        exact admitted_admits _ (.inr rfl)
    | none =>
        subst hμ
        dsimp only
        split
        · trivial
        · rename_i key hkey
          refine verifyPossession_bind_admits fun hpass => ?_
          have hpresented : presentedKey conf req = some key := by
            simp [presentedKey, hpass, hkey]
          rw [hpresented, Admits, conforms_act_bind]
          refine ⟨trivial, fun now _ => ?_⟩
          exact (consumeEnrollmentKey_admits key now).mapError_returns.andThen
            fun μ user hadmitted => hadmitted

/-- A request of the device that is let in was let in by its row, by a login or by
a key. -/
theorem resolveUser_admits (hkey : req.wgPubkey = pubkey) :
    Admits pubkey (resolveUser conf req) (.applicant (presentedKey conf req)) := by
  unfold resolveUser
  refine Conforms.through (fun μ owner =>
    owner.elim (μ = .applicant (presentedKey conf req)) fun _ => μ = .enrolled) ?_ ?_
  · refine Conforms.mapError_returns ?_
    simp only [Store.deviceOwner, conforms_sql_bind]
    refine ⟨trivial, fun found _ => ?_⟩
    rcases found with error | _ | row
    · trivial
    · rfl
    · simp [after, returns, Standing.mon, Standing.next, Standing.read, hkey]
  · intro μ owner hμ
    cases owner with
    | some user =>
        subst hμ
        exact admitted_admits _ (.inl rfl)
    | none =>
        subst hμ
        exact enrollingUser_admits hkey

theorem buildSnapshot_admits (hkey : req.wgPubkey = pubkey) (callerIp : IpAddr) :
    Admits pubkey (buildSnapshot conf req callerIp)
      (.applicant (presentedKey conf req)) := by
  unfold buildSnapshot validatePeerReports
  split
  · trivial
  · exact (resolveUser_admits hkey).andThen fun μ caller hadmitted =>
      admitted_admits _ hadmitted

theorem register_admits (hkey : req.wgPubkey = pubkey) (callerIp : IpAddr) :
    Admits pubkey (register conf req callerIp) (.applicant (presentedKey conf req)) := by
  unfold register negotiate
  split
  · rw [Admits, pure_eq, ret_bind, conforms_act_bind]
    refine ⟨trivial, fun woken _ => ?_⟩
    exact (buildSnapshot_admits hkey callerIp).andThen fun μ built hadmitted =>
      admitted_admits _ hadmitted
  · trivial

variable (conf) (pubkey) in
theorem handle_conforms (call : Call) :
    (handle conf call).Conforms (Standing.mon pubkey) (fun _ _ => True)
      (standingOf conf pubkey call) := by
  cases call with
  | register req callerIp =>
      by_cases hkey : req.wgPubkey = pubkey
      · simp only [standingOf, if_pos hkey]
        exact ((register_admits hkey callerIp).mono fun _ _ _ => trivial).bind
          (fun _ _ _ => trivial) fun _ _ _ => trivial
      · simp only [standingOf, if_neg hkey]
        refine outsider_conforms (handle_uses conf (.register req callerIp)) fun row hrow => ?_
        exact hkey (Eq.symm hrow)
  | _ => exact outsider_conforms (handle_uses conf _) fun row hrow => hrow

end

/-! The invariant: after a removal, and until a new authorization, there is no login
to be let in by, and no later task is past its admission unless a row is there. -/

def Standing.Sound (db : Database) : Standing → Prop
  | .outsider => True
  | .applicant presented => ∀ key, presented = some key → db.usedBy key ≠ some pubkey
  | .enrolled => (db.devices.get? pubkey).isSome
  | .cleared => False

abbrev Views := Nat → Option (Call × Standing)

structure RemovalInv (r : Removal) (st : AppState) (views : Views) : Prop where
  kept : r.recreated = false
  unbound : r.removed = true → r.authorized = false →
    st.db.oauthAuthorized.get? pubkey = none
  sound : r.removed = true → r.authorized = false →
    ∀ task call μ, views task = some (call, μ) → r.later task = true →
      μ.Sound pubkey st.db

section

variable {conf} {pubkey} {r : Removal} {st st' : AppState} {views : Views}

theorem RemovalInv.of_db (hinv : RemovalInv pubkey r st views) (hdb : st'.db = st.db) :
    RemovalInv pubkey r st' views := by
  constructor
  · exact hinv.kept
  · rw [hdb]
    exact hinv.unbound
  · rw [hdb]
    exact hinv.sound

theorem RemovalInv.unset (hinv : RemovalInv pubkey r st views) (task : Nat) :
    RemovalInv pubkey r st (Function.update views task none) := by
  refine ⟨hinv.kept, hinv.unbound, fun hremoved hauthorized other call μ hview hlater => ?_⟩
  by_cases hsame : other = task
  · rw [hsame, Function.update_self] at hview
    cases hview
  · rw [Function.update_of_ne hsame] at hview
    exact hinv.sound hremoved hauthorized other call μ hview hlater

/-- A call starts where it has no row, no login and, under the condition, no used
key of the device. -/
theorem standingOf_sound {call : Call} {task : Nat}
    (hallowed : reusesNoKey conf pubkey r st (.called task call) = true)
    (hremoved : r.removed = true) (hauthorized : r.authorized = false) :
    (standingOf conf pubkey call).Sound pubkey st.db := by
  cases call with
  | register req callerIp =>
      by_cases hkey : req.wgPubkey = pubkey
      · simp only [standingOf, if_pos hkey]
        intro key hpresented hused
        simp [reusesNoKey, hremoved, hauthorized, reusesKey, hpresented, hused,
          hkey] at hallowed
      · simp only [standingOf, if_neg hkey]
        trivial
  | _ => trivial

theorem RemovalInv.called {call : Call} {task : Nat} (hinv : RemovalInv pubkey r st views)
    (hallowed : reusesNoKey conf pubkey r st (.called task call) = true) :
    RemovalInv pubkey (r.called task) st
      (Function.update views task (some (call, standingOf conf pubkey call))) := by
  refine ⟨hinv.kept, hinv.unbound, fun hremoved hauthorized other call' μ hview hlater => ?_⟩
  by_cases hsame : other = task
  · rw [hsame, Function.update_self, Option.some.injEq, Prod.mk.injEq] at hview
    obtain ⟨rfl, rfl⟩ := hview
    exact standingOf_sound hallowed hremoved hauthorized
  · rw [Function.update_of_ne hsame] at hview
    have hlater' : r.later other = true := by simpa [Removal.called, hsame] using hlater
    exact hinv.sound hremoved hauthorized other call' μ hview hlater'

def quiet (pubkey : PubKey) : (q : Query) → q.Res → Prop
  | .deleteDevice key _, _ => key ≠ pubkey
  | .deleteOauth key, _ => key ≠ pubkey
  | .upsertOauth key _ _, _ => key ≠ pubkey
  | .claimEnrollmentKey _ key _, claimed => key ≠ pubkey ∨ claimed = false
  | _, _ => True

variable {db db' : Database} {q : Query} {answer : q.Res} {μ : Standing}

theorem sound_kept (hrun : db.run q = .ok (answer, db')) (hquiet : quiet pubkey q answer)
    (hsound : μ.Sound pubkey db) : μ.Sound pubkey db' := by
  cases μ with
  | outsider => trivial
  | cleared => exact hsound
  | enrolled =>
      rcases Database.run_device pubkey hrun with hsame | ⟨user, rfl⟩ | ⟨row, rfl, habsent⟩
      · exact hsame.trans hsound
      · exact absurd rfl hquiet
      · simp [Standing.Sound, habsent] at hsound
  | applicant presented =>
      intro key hkey hused
      rcases Database.run_usedBy key hrun with hsame | ⟨claimant, now, rfl, hclaimed⟩
      · exact hsound key hkey (hsame ▸ hused)
      · rcases hquiet with hother | rfl
        · exact hother (Option.some.inj (hclaimed.symm.trans hused))
        · exact hsound key hkey (Database.run_claim_refused hrun ▸ hused)

theorem next_sound (hrun : db.run q = .ok (answer, db')) (hquiet : quiet pubkey q answer)
    (hallows : (Standing.mon pubkey).allows μ (.store q)) (hsound : μ.Sound pubkey db)
    (hunbound : db.oauthAuthorized.get? pubkey = none) :
    ((Standing.mon pubkey).next μ (.store q) (.ok answer)).Sound pubkey db' := by
  have hkept := sound_kept hrun hquiet hsound
  cases μ with
  | outsider => exact hkept
  | enrolled => exact hkept
  | cleared => exact hkept
  | applicant presented =>
      simp only [Standing.mon, Standing.next]
      unfold Standing.read
      split
      · rename_i key row
        split
        · rename_i hkey
          subst hkey
          simp only [Database.run, Except.ok.injEq, Prod.mk.injEq] at hrun
          obtain ⟨hrow, rfl⟩ := hrun
          simp [Standing.Sound, hrow]
        · exact hkept
      · rename_i key user
        split
        · rename_i hkey
          subst hkey
          simp only [Database.run, Except.ok.injEq, Prod.mk.injEq] at hrun
          simp [hunbound] at hrun
        · exact hkept
      · rename_i key row
        split
        · rename_i hused
          simp only [Database.run, Except.ok.injEq, Prod.mk.injEq] at hrun
          refine hsound key hallows ?_
          simp [Database.usedBy, hrun.1, hused]
        · exact hkept
      · rename_i key claimant now
        split
        · rename_i hkey
          rcases hquiet with hother | hrefused
          · exact absurd hkey hother
          · cases hrefused
        · exact hkept
      · exact hkept

theorem ran_quiet {task : Nat} {before after : Bool} (hquiet : quiet pubkey q answer) :
    r.ran pubkey task before after q answer = r ∨
      before = false ∧ after = true ∧ r.removed = true ∧ r.authorized = false ∧
        r.later task = true := by
  have hnoted : (if !before && after && r.removed && !r.authorized && r.later task then
        { r with recreated := true } else r) = r ∨
      before = false ∧ after = true ∧ r.removed = true ∧ r.authorized = false ∧
        r.later task = true := by
    split
    · rename_i hcreated
      right
      simpa [and_assoc] using hcreated
    · exact .inl rfl
  cases q with
  | deleteDevice key user => exact .inl (if_neg hquiet)
  | deleteOauth key => exact .inl (if_neg hquiet)
  | upsertOauth key user now => exact .inl (if_neg hquiet)
  | claimEnrollmentKey key claimant now =>
      refine .inl (if_neg ?_)
      rintro ⟨rfl, hclaimed⟩
      rcases hquiet with hother | hrefused
      · exact hother rfl
      · rw [hclaimed] at hrefused
        cases hrefused
  | _ => exact hnoted

theorem no_row_made {task : Nat} {call : Call} (hinv : RemovalInv pubkey r st views)
    (hview : views task = some (call, μ)) (hallows : (Standing.mon pubkey).allows μ (.store q))
    (hrun : st.db.run q = .ok (answer, st'.db)) (hquiet : quiet pubkey q answer)
    (hremoved : r.removed = true) (hauthorized : r.authorized = false)
    (hlater : r.later task = true) :
    ¬ (hasRow pubkey st = false ∧ hasRow pubkey st' = true) := by
  rintro ⟨hbefore, hafter⟩
  have hsound := hinv.sound hremoved hauthorized task call μ hview hlater
  rcases Database.run_device pubkey hrun with hsame | ⟨user, rfl⟩ | ⟨row, rfl, _⟩
  · have hequal : hasRow pubkey st' = hasRow pubkey st := hsame
    rw [hbefore, hafter] at hequal
    cases hequal
  · exact absurd rfl hquiet
  · cases μ with
    | outsider => exact hallows rfl
    | applicant presented => exact hallows rfl
    | enrolled => exact Bool.false_ne_true (hbefore.symm.trans hsound)
    | cleared => exact hsound

theorem RemovalInv.ran_quiet {task : Nat} {call : Call} (hinv : RemovalInv pubkey r st views)
    (hview : views task = some (call, μ)) (hallows : (Standing.mon pubkey).allows μ (.store q))
    (hrun : st.db.run q = .ok (answer, st'.db)) (hquiet : quiet pubkey q answer) :
    RemovalInv pubkey (r.ran pubkey task (hasRow pubkey st) (hasRow pubkey st') q answer) st'
      (Function.update views task
        (some (call, (Standing.mon pubkey).next μ (.store q) (.ok answer)))) := by
  have hsame : r.ran pubkey task (hasRow pubkey st) (hasRow pubkey st') q answer = r := by
    rcases UnityLan.Coordinator.ran_quiet hquiet with
      hsame | ⟨hbefore, hafter, hremoved, hauthorized, hlater⟩
    · exact hsame
    · exact absurd ⟨hbefore, hafter⟩
        (no_row_made hinv hview hallows hrun hquiet hremoved hauthorized hlater)
  rw [hsame]
  refine ⟨hinv.kept, fun hremoved hauthorized => ?_, ?_⟩
  · rcases Database.run_oauth hrun (hinv.unbound hremoved hauthorized) with
      habsent | ⟨user, now, rfl⟩
    · exact habsent
    · exact absurd rfl hquiet
  · intro hremoved hauthorized other call' μ' hview' hlater
    by_cases hother : other = task
    · subst hother
      rw [Function.update_self, Option.some.injEq, Prod.mk.injEq] at hview'
      obtain ⟨rfl, rfl⟩ := hview'
      exact next_sound hrun hquiet hallows
        (hinv.sound hremoved hauthorized other call μ hview hlater)
        (hinv.unbound hremoved hauthorized)
    · rw [Function.update_of_ne hother] at hview'
      exact sound_kept hrun hquiet (hinv.sound hremoved hauthorized other call' μ' hview' hlater)

theorem RemovalInv.ran_loud {task : Nat} {before after : Bool} {views' : Views}
    (hinv : RemovalInv pubkey r st views)
    (hrun : st.db.run q = .ok (answer, st'.db)) (hloud : ¬ quiet pubkey q answer) :
    RemovalInv pubkey (r.ran pubkey task before after q answer) st' views' := by
  cases q with
  | deleteDevice key user =>
      obtain rfl : key = pubkey := not_not.mp hloud
      simp only [Removal.ran, if_pos]
      refine ⟨hinv.kept, fun hremoved hauthorized => ?_, ?_⟩
      · rcases Database.run_oauth hrun (hinv.unbound hremoved hauthorized) with
          habsent | ⟨user, now, hlogin⟩
        · exact habsent
        · cases hlogin
      · intro _ _ _ _ _ _ hlater
        cases hlater
  | deleteOauth key =>
      obtain rfl : key = pubkey := not_not.mp hloud
      simp only [Removal.ran, if_pos]
      refine ⟨hinv.kept, fun _ _ => ?_, ?_⟩
      · simp only [Database.run, Except.ok.injEq, Prod.mk.injEq] at hrun
        simp [← hrun.2]
      · intro _ _ _ _ _ _ hlater
        cases hlater
  | upsertOauth key user now =>
      obtain rfl : key = pubkey := not_not.mp hloud
      simp only [Removal.ran, if_pos]
      refine ⟨hinv.kept, fun _ hauthorized => ?_, fun _ hauthorized => ?_⟩
      · cases hauthorized
      · cases hauthorized
  | claimEnrollmentKey key claimant now =>
      simp only [quiet, not_or, not_not, Bool.not_eq_false] at hloud
      obtain ⟨rfl, rfl⟩ := hloud
      simp only [Removal.ran, and_self, if_pos]
      refine ⟨hinv.kept, fun _ hauthorized => ?_, fun _ hauthorized => ?_⟩
      · cases hauthorized
      · cases hauthorized
  | _ => exact absurd trivial hloud

theorem RemovalInv.did {task : Nat} {call : Call} {o : Op} {choice : Choice} {answer : o.Res}
    (hinv : RemovalInv pubkey r st views) (hview : views task = some (call, μ))
    (hallows : (Standing.mon pubkey).allows μ o)
    (hexec : AppState.exec conf task o choice st = some (answer, st')) :
    RemovalInv pubkey ((removals conf pubkey).see r st (.did task o answer) st') st'
      (Function.update views task
        (some (call, (Standing.mon pubkey).next μ o answer))) := by
  by_cases hstore : ∃ q, o = .store q
  · obtain ⟨q, rfl⟩ := hstore
    have hstep := AppState.exec_store hexec
    cases answer with
    | ok answer =>
        obtain ⟨_, hrun⟩ := Database.step_ok hstep
        by_cases hquiet : quiet pubkey q answer
        · exact hinv.ran_quiet hview hallows hrun hquiet
        · exact hinv.ran_loud hrun hquiet
    | error error =>
        have hnext : (Standing.mon pubkey).next μ (.store q) (.error error) = μ := by
          cases μ <;> rfl
        rw [hnext, ← hview, Function.update_eq_self]
        exact hinv.of_db (Database.step_error hstep)
  · have hother : ∀ q, o ≠ .store q := fun q hq => hstore ⟨q, hq⟩
    have hnext : (Standing.mon pubkey).next μ o answer = μ := by
      cases μ <;> cases o <;> first | rfl | exact absurd rfl (hother _)
    have hsee : (removals conf pubkey).see r st (.did task o answer) st' = r := by
      cases o <;> first | rfl | exact absurd rfl (hother _)
    rw [hnext, hsee, ← hview, Function.update_eq_self]
    exact hinv.of_db ((AppState.exec_frame hexec).db hother)

end

def removalDiscipline :
    Machine.Discipline (machine conf) (removals conf pubkey)
      (Machine.passes (reusesNoKey conf pubkey)) Standing where
  mon := Standing.mon pubkey
  opening := fun _ _ call => standingOf conf pubkey call
  post := fun _ _ _ => True
  inv := RemovalInv pubkey
  conforms := fun _ _ call => handle_conforms conf pubkey call
  called := fun hinv _ hallowed => hinv.called hallowed
  did := fun hinv hview hallows hexec _ => ⟨trivial, hinv.did hview hallows hexec⟩
  ended := by
    intro r st views task call μ result hinv _ _ _
    have hreleased : RemovalInv pubkey r (AppState.release task st) views := hinv.of_db rfl
    exact hreleased.unset task
  dropped := by
    intro r st views task call μ hinv _ _
    have hreleased : RemovalInv pubkey r (AppState.release task st) views := hinv.of_db rfl
    exact hreleased.unset task
  moved := fun hinv hmove _ => hinv.of_db (AppState.move_untouched hmove).db

/-- A removed device does not come back without a new authorization, in every run in
which it presents no key it used before. -/
theorem removed_stays_removed {st : AppState} {c : (machine conf).Config} {r : Removal}
    (hreach : Machine.Reach (removals conf pubkey) (Machine.passes (reusesNoKey conf pubkey))
      ((machine conf).idle st) {} c r) : r.recreated = false := by
  have hstart : RemovalInv pubkey {} st fun _ => none := by
    refine ⟨rfl, fun hremoved => ?_, fun hremoved => ?_⟩
    · cases hremoved
    · cases hremoved
  obtain ⟨views, _, hinv⟩ := (removalDiscipline conf pubkey).run hstart hreach
  exact hinv.kept

/-! The two ways a removed device asks to be let in again. -/

def headless : RegisterReq where
  wgPubkey := 1
  deviceName := "pc"
  enrollmentKey := some "key"
  possessionProof := some ⟨1, 7⟩

open Script in
def enrolledAndRemoved : Script Conf.small :=
  call (.enroll 1) ++ steps 0 4 (.text "key") ++
    call (.register headless (.v4 0)) ++ steps 1 21 (.text "token") ++ steps 1 29 (.key 99) ++
    call (.manage ⟨"token", .remove "pc"⟩) ++ steps 2 15 .go

open Script in
def reenrollment : Script Conf.small :=
  enrolledAndRemoved ++ call (.register headless (.v4 0)) ++ steps 3 44 (.text "token")

open Script in
def newLogin : Script Conf.small :=
  enrolledAndRemoved ++ move (.accessToken "grant" (some (1, "ann"))) ++
    call (.oauthComplete ⟨1, "grant"⟩) ++ steps 3 6 .go ++
    call (.register { headless with enrollmentKey := none } (.v4 0)) ++
    steps 4 44 (.text "token")

/-- The removal is not final: the key the device used once lets it in again. -/
theorem removed_device_returns :
    ¬ ∀ c r, Machine.Reach (removals Conf.small 1) Machine.free
      ((machine Conf.small).idle {}) {} c r → r.recreated = false := by
  intro hfinal
  have hplay : (Machine.play (removals Conf.small 1) (fun _ _ _ => true)
      ((machine Conf.small).idle {}) {} reenrollment).any
        (fun last => last.2.recreated) = true := by
    decide
  have hrun : ∃ c r, Machine.Reach (removals Conf.small 1) Machine.free
      ((machine Conf.small).idle {}) {} c r ∧ r.recreated = true :=
    Machine.reach_of_play (fun _ _ _ _ => trivial) hplay
  obtain ⟨c, r, hreach, hrecreated⟩ := hrun
  exact Bool.false_ne_true ((hfinal c r hreach).symm.trans hrecreated)

/-- A device that was removed and logged in for again has a row, and it was not made
behind its owner's back. -/
theorem removed_stays_removed_new_login :
    ∃ c r, Machine.Reach (removals Conf.small 1) (Machine.passes (reusesNoKey Conf.small 1))
        ((machine Conf.small).idle {}) {} c r ∧
      r.removed = true ∧ hasRow 1 c.shared = true ∧ r.recreated = false := by
  have hplay : (Machine.play (removals Conf.small 1) (reusesNoKey Conf.small 1)
      ((machine Conf.small).idle {}) {} newLogin).any
        (fun last => last.2.removed && hasRow 1 last.1.shared) = true := by
    decide
  have hrun : ∃ c r, Machine.Reach (removals Conf.small 1)
      (Machine.passes (reusesNoKey Conf.small 1)) ((machine Conf.small).idle {}) {} c r ∧
        (r.removed && hasRow 1 c.shared) = true :=
    Machine.reach_of_play (fun _ _ _ htest => htest) hplay
  obtain ⟨c, r, hreach, hlast⟩ := hrun
  rw [Bool.and_eq_true] at hlast
  exact ⟨c, r, hreach, hlast.1, hlast.2, removed_stays_removed Conf.small 1 hreach⟩

end UnityLan.Coordinator
