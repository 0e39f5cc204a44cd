import UnityLan.Coordinator.Footprint

namespace UnityLan.Coordinator

open UnityLan.Foundation Prog

/-! What a register shows of its caller before it makes a row or answers. -/

/-- What the lookups of one build found for the caller's public key. -/
structure Evidence where
  req : RegisterReq
  /-- The owner lookup found a row. -/
  found : Bool := false
  /-- The token lookup found the row, with the token the request presents. -/
  token : Bool := false
  /-- The key is bound by a login, or has used the enrollment key the request presents. -/
  credential : Bool := false
  /-- The caller is let in. -/
  admitted : Bool := false

variable (conf : Conf)

def provesPossession (req : RegisterReq) : Bool :=
  req.possessionProof.any (verifyEnrollProof conf req)

namespace Evidence

def sawRow (e : Evidence) (row : DeviceRow) : Evidence :=
  { e with
    found := true
    token := e.found && decideDeviceAuth row.token e.req.deviceToken }

def read (e : Evidence) : (q : Query) → q.Res → Evidence
  | .device key, some row => if key = e.req.wgPubkey then e.sawRow row else e
  | .oauthUser key, some _ =>
      if key = e.req.wgPubkey then { e with credential := true } else e
  | .enrollmentKey key, some row =>
      if e.req.enrollmentKey = some key ∧ row.usedBy = some e.req.wgPubkey then
        { e with credential := true }
      else e
  | .claimEnrollmentKey key claimant _, true =>
      if e.req.enrollmentKey = some key ∧ claimant = e.req.wgPubkey then
        { e with credential := true }
      else e
  | _, _ => e

def next (e : Evidence) : (o : Op) → o.Res → Evidence
  | .store q, .ok answer => if e.admitted then e else e.read q answer
  | .nat (.putSourceIp ..), _ => { e with admitted := true }
  | .tryAcquire _, _ => { req := e.req }
  | _, _ => e

/-- The caller presented the token of the row it was checked against, or proved to hold
the private key and has an enrollment for it. -/
def sufficient (e : Evidence) : Bool :=
  e.token || provesPossession conf e.req && e.credential

def awaitsToken (e : Evidence) (key : PubKey) : Bool :=
  e.found && !e.admitted && key == e.req.wgPubkey

end Evidence

structure Admissions where
  evidence : Table Nat Evidence := ∅
  /-- A request made a row, or was answered, on insufficient evidence. -/
  unproven : Bool := false

namespace Admissions

def begin (h : Admissions) (task : Nat) (req : RegisterReq) : Admissions :=
  { h with evidence := h.evidence.insert task { req := req } }

def sees (h : Admissions) (task : Nat) (o : Op) (answer : o.Res) : Admissions :=
  { h with evidence := h.evidence.modify task (·.next o answer) }

def relies (h : Admissions) (task : Nat) : Admissions :=
  match h.evidence.get? task with
  | some e => if e.sufficient conf then h else { h with unproven := true }
  | none => h

def gone (h : Admissions) (task : Nat) : Admissions :=
  { h with evidence := h.evidence.erase task }

end Admissions

def admissions : Machine.Observer (machine conf) Admissions where
  see := fun h _ event _ =>
    match event with
    | .called task (.register req _) => h.begin task req
    | .called .. => h
    | .did task (.store (.insertDevice pubkey row)) answer =>
        (h.sees task (.store (.insertDevice pubkey row)) answer).relies conf task
    | .did task o answer => h.sees task o answer
    | .ended task (.register ..) (.ok _) => (h.relies conf task).gone task
    | .ended task _ _ => h.gone task
    | .dropped task _ => h.gone task
    | .moved _ => h

def asksProof (req : RegisterReq) : Bool :=
  conf.requireEnrollProof || req.possessionProof.isSome

/-- A token lookup finds the row that the owner lookup of its request found, and the
deployment does not waive the proof of possession. -/
def rowStays (h : Admissions) (_ : AppState) : (machine conf).Event → Bool
  | .called _ (.register req _) => asksProof conf req
  | .did task (.store (.device key)) (.ok none) =>
      (h.evidence.get? task).all fun e => !e.awaitsToken key
  | _ => true

/-! The monitor. -/

namespace Evidence

def allows (e : Evidence) : Op → Prop
  | .store (.insertDevice ..) => asksProof conf e.req = true → e.sufficient conf = true
  | _ => True

def expects (e : Evidence) : (o : Op) → o.Res → Prop
  | .store (.device key), .ok none => e.awaitsToken key = false
  | _, _ => True

def mon : Monitor sig Evidence where
  allows := allows conf
  expects := expects
  next := next

structure Proven (req : RegisterReq) (e : Evidence) : Prop where
  asked : e.req = req
  proven : asksProof conf req = true → e.sufficient conf = true

structure Applying (req : RegisterReq) (e : Evidence) : Prop where
  asked : e.req = req
  waiting : e.admitted = false

end Evidence

section

variable {conf} {req : RegisterReq} {ε α : Type} {e : Evidence}

attribute [local simp] Evidence.read Evidence.next

@[simp] theorem next_req (o : Op) (answer : o.Res) : (e.next o answer).req = e.req := by
  unfold Evidence.next
  split
  · split
    · rfl
    · unfold Evidence.read
      split
      all_goals try split
      all_goals rfl
  all_goals rfl

theorem proven_next {o : Op} {answer : o.Res} (hproven : e.Proven conf req)
    (hadmitted : e.admitted = true) (ho : ∀ pubkey, o ≠ .tryAcquire pubkey) :
    (e.next o answer).Proven conf req ∧ (e.next o answer).admitted = true := by
  unfold Evidence.next
  split
  · rw [if_pos hadmitted]
    exact ⟨hproven, hadmitted⟩
  · exact ⟨⟨hproven.asked, hproven.proven⟩, rfl⟩
  · exact absurd rfl (ho _)
  · exact ⟨hproven, hadmitted⟩

theorem proven_keeps {inside : Op → Prop} {program : Prog sig ε α}
    (hprogram : program.Uses inside) (hinside : ∀ pubkey, ¬ inside (.tryAcquire pubkey))
    (hproven : e.Proven conf req) (hadmitted : e.admitted = true) :
    program.Conforms (Evidence.mon conf)
      (returns fun e' _ => e'.Proven conf req ∧ e'.admitted = true) e := by
  have hkept : program.Conforms (Evidence.mon conf)
      (fun e' _ => e'.Proven conf req ∧ e'.admitted = true) e := by
    refine hprogram.keeps (fun e' : Evidence => e'.Proven conf req ∧ e'.admitted = true) ?_
      ⟨hproven, hadmitted⟩
    intro e' o ho hinv
    refine ⟨?_, fun answer _ => proven_next hinv.1 hinv.2 ?_⟩
    · show Evidence.allows conf e' o
      unfold Evidence.allows
      split
      · rw [hinv.1.asked]
        exact hinv.1.proven
      · trivial
    · rintro pubkey rfl
      exact hinside pubkey ho
  refine hkept.mono fun e' result hinv => ?_
  cases result with
  | ok value => exact hinv
  | error error => trivial

theorem verifyPossession_bind {rest : Unit → Handler α} {post : Evidence → α → Prop}
    (hrest : (asksProof conf req = true → provesPossession conf req = true) →
      (rest ()).Conforms (Evidence.mon conf) (returns post) e) :
    (verifyPossession conf req >>= rest).Conforms (Evidence.mon conf) (returns post) e := by
  unfold verifyPossession
  cases houtcome : possession conf req with
  | proven =>
      apply hrest
      intro _
      unfold possession decidePossession at houtcome
      unfold provesPossession
      cases hproof : req.possessionProof with
      | none =>
          rw [hproof] at houtcome
          cases hrequire : conf.requireEnrollProof <;> simp [hrequire] at houtcome
      | some proof =>
          rw [hproof] at houtcome
          cases hvalid : verifyEnrollProof conf req proof with
          | true => simp [hvalid]
          | false => simp [hvalid] at houtcome
  | unproven =>
      apply hrest
      intro hasks
      unfold possession decidePossession at houtcome
      unfold asksProof at hasks
      cases hproof : req.possessionProof with
      | none => simp_all
      | some proof =>
          rw [hproof] at houtcome
          cases hvalid : verifyEnrollProof conf req proof <;> simp [hvalid] at houtcome
  | rejectInvalid => trivial
  | rejectMissing => trivial

theorem applying_next (q : Query) (answer : Except StoreError q.Res) (happlying : e.Applying req) :
    ((Evidence.mon conf).next e (.store q) answer).Applying req := by
  refine ⟨(next_req _ _).trans happlying.asked, ?_⟩
  cases answer with
  | error error => exact happlying.waiting
  | ok answer =>
      have hopen : e.admitted = false := happlying.waiting
      simp only [Evidence.mon, Evidence.next, hopen, Bool.false_eq_true, if_false]
      unfold Evidence.read
      split
      all_goals try split
      all_goals exact hopen

theorem credential_used {key : String} {row : EnrollmentKeyRow} (happlying : e.Applying req)
    (hkey : req.enrollmentKey = some key) (hused : row.usedBy = some req.wgPubkey) :
    (e.next (.store (.enrollmentKey key)) (.ok (some row))).credential = true := by
  have hopen : e.admitted = false := happlying.waiting
  simp [Evidence.next, Evidence.read, hopen, happlying.asked, hkey, hused]

theorem credential_claimed {key : String} {now : Nat} (happlying : e.Applying req)
    (hkey : req.enrollmentKey = some key) :
    (e.next (.store (.claimEnrollmentKey key req.wgPubkey now)) (.ok true)).credential = true := by
  have hopen : e.admitted = false := happlying.waiting
  simp [Evidence.next, Evidence.read, hopen, happlying.asked, hkey]

theorem credential_bound {user : UserId} (happlying : e.Applying req) :
    (e.next (.store (.oauthUser req.wgPubkey)) (.ok (some user))).credential = true := by
  have hopen : e.admitted = false := happlying.waiting
  simp [Evidence.next, Evidence.read, hopen, happlying.asked]

theorem credential_kept (q : Query) (answer : Except StoreError q.Res)
    (hcredential : e.credential = true) : (e.next (.store q) answer).credential = true := by
  cases answer with
  | error error => exact hcredential
  | ok answer =>
      simp only [Evidence.next]
      split
      · exact hcredential
      · unfold Evidence.read
        split
        all_goals try split
        all_goals first | exact hcredential | rfl

theorem consumeEnrollmentKey_proven {key : String} (now : Nat) (hkey : req.enrollmentKey = some key)
    (happlying : e.Applying req) :
    (Store.consumeEnrollmentKey key req.wgPubkey now).Conforms (Evidence.mon conf)
      (returns fun e' _ => e'.Applying req ∧ e'.credential = true) e := by
  simp only [Store.consumeEnrollmentKey, conforms_sql_bind]
  refine ⟨trivial, fun found _ => ?_⟩
  rcases found with error | _ | row
  · trivial
  · trivial
  have happlying₁ : ((Evidence.mon conf).next e (.store (.enrollmentKey key))
      (.ok (some row))).Applying req :=
    applying_next _ _ happlying
  simp only [after, conforms_sql_bind]
  refine ⟨trivial, fun claimed _ => ?_⟩
  rcases claimed with error | _ | _
  · trivial
  · simp only [Bool.false_eq_true, if_false]
    split
    · rename_i used hused
      split
      · rename_i hsame
        have hown : row.usedBy = some req.wgPubkey := hused.trans (congrArg some hsame)
        exact ⟨applying_next _ _ happlying₁,
          credential_kept _ _ (credential_used happlying hkey hown)⟩
      · trivial
    · trivial
  · exact ⟨applying_next _ _ happlying₁, credential_claimed happlying₁ hkey⟩

theorem proven_of_credential (happlying : e.Applying req) (hcredential : e.credential = true)
    (hproof : asksProof conf req = true → provesPossession conf req = true) :
    e.Proven conf req := by
  refine ⟨happlying.asked, fun hasks => ?_⟩
  unfold Evidence.sufficient
  rw [happlying.asked, hproof hasks, hcredential]
  exact Bool.or_true _

theorem enrollingUser_proven (happlying : e.Applying req) :
    (enrollingUser conf req).Conforms (Evidence.mon conf)
      (returns fun e' _ => e'.Proven conf req) e := by
  unfold enrollingUser
  refine Conforms.through (fun e' bound => e'.Applying req ∧
    ∀ user, bound = some user → e'.credential = true) ?_ ?_
  · refine Conforms.mapError_returns ?_
    refine ⟨trivial, fun found _ => ?_⟩
    rcases found with error | _ | user
    · trivial
    · exact ⟨applying_next _ _ happlying, nofun⟩
    · exact ⟨applying_next _ _ happlying, fun _ _ => credential_bound happlying⟩
  · rintro e₁ bound ⟨happlying₁, hbound⟩
    cases bound with
    | some user =>
        apply verifyPossession_bind
        intro hproof
        exact proven_of_credential happlying₁ (hbound user rfl) hproof
    | none =>
        dsimp only
        split
        · trivial
        · rename_i key hkey
          apply verifyPossession_bind
          intro hproof
          rw [conforms_act_bind]
          refine ⟨trivial, fun now _ => ?_⟩
          refine (consumeEnrollmentKey_proven now hkey happlying₁).mapError_returns.andThen ?_
          rintro e₂ user ⟨happlying₂, hcredential⟩
          exact proven_of_credential happlying₂ hcredential hproof

theorem authenticateEnrolled_proven (happlying : e.Applying req) (hfound : e.found = true) :
    (authenticateEnrolled req).Conforms (Evidence.mon conf)
      (returns fun e' _ => e'.Proven conf req) e := by
  have hopen : e.admitted = false := happlying.waiting
  unfold authenticateEnrolled
  refine Conforms.through (fun e' stored => e'.Applying req ∧
    ∃ token, stored = some token ∧ e'.token = decideDeviceAuth token req.deviceToken) ?_ ?_
  · refine Conforms.mapError_returns ?_
    simp only [Store.deviceAuth, conforms_sql_bind]
    refine ⟨trivial, fun found hexpected => ?_⟩
    rcases found with error | _ | row
    · trivial
    · have hnot : e.awaitsToken req.wgPubkey = false := hexpected
      simp [Evidence.awaitsToken, hfound, hopen, happlying.asked] at hnot
    · refine ⟨applying_next _ _ happlying, row.token, rfl, ?_⟩
      simp [Evidence.mon, Evidence.next, Evidence.read, Evidence.sawRow, hopen, hfound,
        happlying.asked]
  · rintro e₁ stored ⟨happlying₁, token, rfl, htoken⟩
    dsimp only
    split
    · rename_i hauth
      refine ⟨happlying₁.asked, fun _ => ?_⟩
      rw [Evidence.sufficient, htoken, hauth]
      rfl
    · trivial

theorem resolveUser_proven (happlying : e.Applying req) :
    (resolveUser conf req).Conforms (Evidence.mon conf)
      (returns fun e' _ => e'.Proven conf req) e := by
  have hopen : e.admitted = false := happlying.waiting
  unfold resolveUser
  refine Conforms.through (fun e' owner => e'.Applying req ∧
    ∀ user, owner = some user → e'.found = true) ?_ ?_
  · refine Conforms.mapError_returns ?_
    simp only [Store.deviceOwner, conforms_sql_bind]
    refine ⟨trivial, fun found _ => ?_⟩
    rcases found with error | _ | row
    · trivial
    · exact ⟨applying_next _ _ happlying, nofun⟩
    · refine ⟨applying_next _ _ happlying, fun _ _ => ?_⟩
      simp [Evidence.mon, Evidence.next, Evidence.read, Evidence.sawRow, hopen,
        happlying.asked]
  · rintro e₁ owner ⟨happlying₁, howner⟩
    cases owner with
    | some user =>
        exact (authenticateEnrolled_proven happlying₁ (howner user rfl)).andThen
          fun e₂ _ hproven => hproven
    | none => exact enrollingUser_proven happlying₁

theorem settle_proven (callerIp : IpAddr) (user : UserId) (hproven : e.Proven conf req) :
    (settle conf req callerIp user).Conforms (Evidence.mon conf)
      (returns fun e' _ => e'.Proven conf req ∧ e'.admitted = true) e := by
  have huses := @settle_uses conf req callerIp user
  unfold settle at huses ⊢
  rw [uses_act_bind] at huses
  rw [conforms_act_bind]
  refine ⟨trivial, fun answer _ => ?_⟩
  apply proven_keeps (huses.2 answer)
  · intro pubkey hacquire
    exact hacquire
  · exact ⟨hproven.asked, hproven.proven⟩
  · rfl

theorem buildSnapshot_proven (callerIp : IpAddr) :
    (buildSnapshot conf req callerIp).Conforms (Evidence.mon conf)
      (returns fun e' _ => e'.Proven conf req) { req := req } := by
  unfold buildSnapshot validatePeerReports
  split
  · trivial
  · have hopening : ({ req := req } : Evidence).Applying req := ⟨rfl, rfl⟩
    refine (resolveUser_proven hopening).andThen fun e₁ caller hproven₁ => ?_
    refine (settle_proven callerIp caller.1 hproven₁).andThen ?_
    rintro e₂ settled ⟨hproven₂, hadmitted₂⟩
    have htell := @answer_uses conf req caller.1 caller.2 settled
    refine (proven_keeps htell ?_ hproven₂ hadmitted₂).returns_mono fun e₃ _ h => h.1
    rintro pubkey (hanswer | hcounter)
    · exact hanswer
    · exact hcounter

theorem waitPark_ignored (scopes : List Scope) (since : Nat) :
    (waitPark conf scopes since).Conforms (Evidence.mon conf)
      (returns fun e' _ => e' = e) e := by
  have hignored : ∀ o, ParkOp o → (Evidence.mon conf).allows e o ∧
      ∀ answer, (Evidence.mon conf).next e o answer = e := by
    intro o ho
    unfold ParkOp at ho
    split at ho
    all_goals first | exact ⟨trivial, fun _ => rfl⟩ | exact ho.elim
  refine ((waitPark_uses conf scopes since).conforms hignored).mono fun e' result hsame => ?_
  cases result with
  | ok woke => exact hsame
  | error error => trivial

theorem hold_proven (callerIp : IpAddr) (built : Built) (hasked : e.req = req) :
    (hold conf req callerIp built).Conforms (Evidence.mon conf)
      (returns fun e' _ => e'.Proven conf req) e := by
  have hrebuild : (do return (← buildSnapshot conf req callerIp).resp :
      Handler RegisterResp).Conforms (Evidence.mon conf)
        (returns fun e' _ => e'.Proven conf req) { req := req } :=
    (buildSnapshot_proven callerIp).andThen fun e' built hproven => hproven
  unfold hold
  rw [conforms_act_bind]
  refine ⟨trivial, fun acquired _ => ?_⟩
  split
  · refine (waitPark_ignored _ _).andThen fun e₁ woke hsame => ?_
    subst hsame
    have hanew : (Evidence.mon conf).next e (.tryAcquire req.wgPubkey) acquired =
        { req := req } := by
      rw [← hasked]
      rfl
    rw [hanew]
    split
    · rw [conforms_act_bind]
      exact ⟨trivial, fun _ _ => hrebuild⟩
    · exact hrebuild
  · trivial

theorem register_proven (callerIp : IpAddr) :
    (register conf req callerIp).Conforms (Evidence.mon conf)
      (returns fun e' _ => e'.Proven conf req) { req := req } := by
  unfold register negotiate
  split
  · rw [pure_eq, ret_bind, conforms_act_bind]
    refine ⟨trivial, fun woken _ => ?_⟩
    refine (buildSnapshot_proven callerIp).andThen fun e₁ built hproven => ?_
    split
    · exact hold_proven callerIp built hproven.asked
    · exact hproven
  · trivial

end

def evidenceOf : Call → Option Evidence
  | .register req _ => some { req := req }
  | _ => none

def provenPost : Call → Option Evidence → Except ApiError Reply → Prop
  | .register req _, some e, .ok _ => e.Proven conf req
  | _, _, _ => True

theorem handle_proven (call : Call) :
    (handle conf call).Conforms (optional (Evidence.mon conf)) (provenPost conf call)
      (evidenceOf call) := by
  have hside : ∀ call, evidenceOf call = none → (∀ result, provenPost conf call none result) →
      (handle conf call).Conforms (optional (Evidence.mon conf)) (provenPost conf call)
        (evidenceOf call) := by
    intro call hopening hpost
    rw [hopening]
    refine (conforms_ignored _).mono fun e result hsame => ?_
    rw [hsame]
    exact hpost result
  cases call with
  | register req callerIp =>
      apply conforms_followed
      have hregister : (handle conf (.register req callerIp)).Conforms (Evidence.mon conf)
          (returns fun e' _ => e'.Proven conf req) { req := req } :=
        (register_proven callerIp).andThen fun e resp hproven => hproven
      refine hregister.mono fun e result hresult => ?_
      cases result with
      | ok reply => exact hresult
      | error error => trivial
  | _ => exact hside _ rfl fun _ => trivial

/-! The invariant. -/

structure AdmissionsInv (h : Admissions) (views : Nat → Option (Call × Option Evidence)) :
    Prop where
  proven : h.unproven = false
  known : ∀ task e, h.evidence.get? task = some e → ∃ callerIp,
    views task = some (.register e.req callerIp, some e) ∧ asksProof conf e.req = true
  followed : ∀ task call e, views task = some (call, some e) → h.evidence.get? task = some e

section

variable {conf} {h : Admissions} {views : Nat → Option (Call × Option Evidence)} {task : Nat}
  {call : Call} {m : Option Evidence} {e : Evidence}

theorem AdmissionsInv.sees {o : Op} {answer : o.Res} (hinv : AdmissionsInv conf h views)
    (hview : views task = some (call, m)) :
    AdmissionsInv conf (h.sees task o answer)
      (Function.update views task (some (call, m.map (·.next o answer)))) := by
  constructor
  · exact hinv.proven
  · intro other e hother
    simp only [Admissions.sees, Table.get?_modify] at hother
    split at hother
    · rename_i hsame
      subst hsame
      obtain ⟨before, hbefore, rfl⟩ := Option.map_eq_some_iff.mp hother
      obtain ⟨callerIp, hview', hasks⟩ := hinv.known other before hbefore
      rw [hview, Option.some.injEq, Prod.mk.injEq] at hview'
      obtain ⟨rfl, rfl⟩ := hview'
      refine ⟨callerIp, ?_, ?_⟩
      · rw [Function.update_self, next_req]
        rfl
      · rw [next_req]
        exact hasks
    · rename_i hne
      obtain ⟨callerIp, hview', hasks⟩ := hinv.known other e hother
      exact ⟨callerIp, (Function.update_of_ne hne _ _).trans hview', hasks⟩
  · intro other call' e hother
    rcases Machine.update_some_cases hother with ⟨rfl, heq⟩ | ⟨hne, hother⟩
    · obtain ⟨rfl, hmap⟩ := Prod.mk.inj heq
      obtain ⟨before, rfl, rfl⟩ := Option.map_eq_some_iff.mp hmap.symm
      simp [Admissions.sees, hinv.followed other _ before hview]
    · simp [Admissions.sees, hne, hinv.followed other call' e hother]

theorem relies_sufficient (hsufficient : ∀ e, h.evidence.get? task = some e →
    e.sufficient conf = true) : h.relies conf task = h := by
  unfold Admissions.relies
  split
  · rename_i e hevidence
    rw [if_pos (hsufficient e hevidence)]
  · rfl

theorem AdmissionsInv.gone (hinv : AdmissionsInv conf h views) :
    AdmissionsInv conf (h.gone task) (Function.update views task none) := by
  constructor
  · exact hinv.proven
  · intro other e hother
    simp only [Admissions.gone, Table.get?_erase] at hother
    split at hother
    · cases hother
    · rename_i hne
      obtain ⟨callerIp, hview', hasks⟩ := hinv.known other e hother
      exact ⟨callerIp, (Function.update_of_ne hne _ _).trans hview', hasks⟩
  · intro other call' e hother
    obtain ⟨hne, hother⟩ := Machine.update_none_cases hother
    simp [Admissions.gone, hne, hinv.followed other call' e hother]

theorem AdmissionsInv.called {st : AppState} (hinv : AdmissionsInv conf h views)
    (hfree : views task = none) (hallowed : rowStays conf h st (.called task call) = true) :
    AdmissionsInv conf ((admissions conf).see h st (.called task call) st)
      (Function.update views task (some (call, evidenceOf call))) := by
  have hunknown : h.evidence.get? task = none := by
    cases hevidence : h.evidence.get? task with
    | none => rfl
    | some e =>
        obtain ⟨callerIp, hview, _⟩ := hinv.known task e hevidence
        rw [hfree] at hview
        cases hview
  have hside : evidenceOf call = none →
      AdmissionsInv conf h (Function.update views task (some (call, evidenceOf call))) := by
    intro hnone
    constructor
    · exact hinv.proven
    · intro other e hother
      have hne : other ≠ task := by
        rintro rfl
        rw [hunknown] at hother
        cases hother
      obtain ⟨callerIp, hview, hasks⟩ := hinv.known other e hother
      exact ⟨callerIp, (Function.update_of_ne hne _ _).trans hview, hasks⟩
    · intro other call' e hother
      rcases Machine.update_some_cases hother with ⟨rfl, heq⟩ | ⟨_, hother⟩
      · obtain ⟨rfl, hsome⟩ := Prod.mk.inj heq
        rw [hnone] at hsome
        cases hsome
      · exact hinv.followed other call' e hother
  cases call with
  | register req callerIp =>
      constructor
      · exact hinv.proven
      · intro other e hother
        simp only [admissions, Admissions.begin, Table.get?_insert] at hother
        split at hother
        · rename_i hsame
          subst hsame
          cases hother
          exact ⟨callerIp, Function.update_self .., hallowed⟩
        · rename_i hne
          obtain ⟨callerIp', hview, hasks⟩ := hinv.known other e hother
          exact ⟨callerIp', (Function.update_of_ne hne _ _).trans hview, hasks⟩
      · intro other call' e hother
        rcases Machine.update_some_cases hother with ⟨rfl, heq⟩ | ⟨hne, hother⟩
        · obtain ⟨rfl, hsome⟩ := Prod.mk.inj heq
          cases hsome
          simp [admissions, Admissions.begin]
        · simp [admissions, Admissions.begin, hne, hinv.followed other call' e hother]
  | _ => exact hside rfl

theorem AdmissionsInv.expects {st : AppState} {o : Op} {answer : o.Res}
    (hinv : AdmissionsInv conf h views) (hview : views task = some (call, m))
    (hallowed : rowStays conf h st (.did task o answer) = true) :
    (optional (Evidence.mon conf)).expects m o answer := by
  cases m with
  | none => trivial
  | some e =>
      have hevidence := hinv.followed task call e hview
      show Evidence.expects e o answer
      unfold Evidence.expects
      split
      · simpa [rowStays, hevidence] using hallowed
      · trivial

theorem insertDevice_next {pubkey : PubKey} {row : DeviceRow}
    {answer : Except StoreError (Query.insertDevice pubkey row).Res} :
    e.next (.store (.insertDevice pubkey row)) answer = e := by
  cases answer with
  | error error => rfl
  | ok answer =>
      show (if e.admitted then e else e) = e
      split <;> rfl

theorem AdmissionsInv.did {st st' : AppState} {o : Op} {answer : o.Res}
    (hinv : AdmissionsInv conf h views) (hview : views task = some (call, m))
    (hallows : (optional (Evidence.mon conf)).allows m o) :
    AdmissionsInv conf ((admissions conf).see h st (.did task o answer) st')
      (Function.update views task
        (some (call, (optional (Evidence.mon conf)).next m o answer))) := by
  have hsees : AdmissionsInv conf (h.sees task o answer) (Function.update views task
      (some (call, (optional (Evidence.mon conf)).next m o answer))) := hinv.sees hview
  cases o with
  | store q =>
      cases q with
      | insertDevice pubkey row =>
          show AdmissionsInv conf ((h.sees task _ answer).relies conf task) _
          rw [relies_sufficient]
          · exact hsees
          · intro e' hevidence
            simp only [Admissions.sees, Table.get?_modify, if_pos] at hevidence
            obtain ⟨e, hbefore, rfl⟩ := Option.map_eq_some_iff.mp hevidence
            obtain ⟨callerIp, hview', hasks⟩ := hinv.known task e hbefore
            rw [hview, Option.some.injEq, Prod.mk.injEq] at hview'
            obtain ⟨rfl, rfl⟩ := hview'
            rw [insertDevice_next]
            exact hallows hasks
      | _ => exact hsees
  | _ => exact hsees

theorem AdmissionsInv.ended {st st' : AppState} {result : Except ApiError Reply}
    (hinv : AdmissionsInv conf h views) (hview : views task = some (call, m))
    (hpost : provenPost conf call m result) :
    AdmissionsInv conf ((admissions conf).see h st (.ended task call result) st')
      (Function.update views task none) := by
  have hgone : AdmissionsInv conf (h.gone task) (Function.update views task none) := hinv.gone
  cases call with
  | register req callerIp =>
      cases result with
      | error error => exact hgone
      | ok reply =>
          show AdmissionsInv conf ((h.relies conf task).gone task) _
          rw [relies_sufficient]
          · exact hgone
          · intro e hevidence
            obtain ⟨callerIp', hview', hasks⟩ := hinv.known task e hevidence
            rw [hview, Option.some.injEq, Prod.mk.injEq] at hview'
            obtain ⟨hcall, rfl⟩ := hview'
            cases hcall
            exact hpost.proven hasks
  | _ => exact hgone

end

def admissionDiscipline :
    Machine.Discipline (machine conf) (admissions conf) (Machine.passes (rowStays conf))
      (Option Evidence) where
  mon := optional (Evidence.mon conf)
  opening := fun _ _ call => evidenceOf call
  post := fun call m result => provenPost conf call m result
  inv := fun h _ views => AdmissionsInv conf h views
  conforms := fun _ _ call => handle_proven conf call
  called := fun hinv hfree hallowed => hinv.called hfree hallowed
  did := fun hinv hview hallows _ hallowed => ⟨hinv.expects hview hallowed, hinv.did hview hallows⟩
  ended := fun hinv hview hpost _ => hinv.ended hview hpost
  dropped := fun hinv _ _ => hinv.gone
  moved := fun hinv _ _ => hinv

/-- As long as no row vanishes between the two lookups of a request, and a proof is asked
for, no request makes a row or is answered that did not show to hold the device. -/
theorem registers_proven {st₀ : AppState} {c : (machine conf).Config} {h : Admissions}
    (hreach : Machine.Reach (admissions conf) (Machine.passes (rowStays conf))
      ((machine conf).idle st₀) {} c h) : h.unproven = false := by
  have hstart : AdmissionsInv conf {} fun _ => none := by
    refine ⟨rfl, ?_, ?_⟩
    · intro task e hevidence
      simp at hevidence
    · intro task call e hview
      cases hview
  obtain ⟨views, _, hinv⟩ := (admissionDiscipline conf).run hstart hreach
  exact hinv.proven

/-- User 1 has logged in two devices. -/
def twoLogins : AppState where
  db := { oauthAuthorized := ((∅ : Table _ _).insert 1 ⟨1, 0⟩).insert 2 ⟨1, 0⟩ }

def spy : RegisterReq :=
  { wgPubkey := 1, deviceName := "spy", peerOwnDevices := true }

open Script in
def firstDevice : Script Conf.small :=
  call (.register (personalDevice 1 "pc") (.v4 0)) ++ steps 0 24 (.text "token") ++
    steps 0 23 (.key 99)

open Script in
/-- The owner removes the first device with the second one, after the owner lookup of a
request with neither token nor proof. -/
def removalBetweenLookups : Script Conf.small :=
  firstDevice ++ call (.register (personalDevice 2 "pad") (.v4 0)) ++ steps 1 47 (.text "sibling") ++
    call (.register spy (.v4 0)) ++ steps 2 2 .go ++
    call (.manage ⟨"sibling", .remove "pc"⟩) ++ steps 3 15 .go ++ steps 2 11 (.text "stolen")

/-- A removal lets a request without token, proof or enrollment make the row anew. -/
theorem unproven_register_makes_row :
    ¬ ∀ c h, Machine.Reach (admissions Conf.small) Machine.free
      ((machine Conf.small).idle twoLogins) {} c h → h.unproven = false := by
  intro hclaim
  have hplay : (Machine.play (admissions Conf.small) (fun _ _ _ => true)
      ((machine Conf.small).idle twoLogins) {} removalBetweenLookups).any
        (fun last => last.2.unproven) = true := by
    decide +kernel
  have hrun : ∃ c h, Machine.Reach (admissions Conf.small) Machine.free
      ((machine Conf.small).idle twoLogins) {} c h ∧ h.unproven = true :=
    Machine.reach_of_play (fun _ _ _ _ => trivial) hplay
  obtain ⟨c, h, hreach, hunproven⟩ := hrun
  exact Bool.false_ne_true ((hclaim c h hreach).symm.trans hunproven)

theorem registers_proven_enrolled :
    ∃ c h, Machine.Reach (admissions Conf.small) (Machine.passes (rowStays Conf.small))
        ((machine Conf.small).idle twoLogins) {} c h ∧
      (c.shared.db.devices.get? 1).isSome = true ∧ h.unproven = false := by
  have hplay : (Machine.play (admissions Conf.small) (rowStays Conf.small)
      ((machine Conf.small).idle twoLogins) {} firstDevice).any
        (fun last => (last.1.shared.db.devices.get? 1).isSome) = true := by
    decide
  have hrun : ∃ c h, Machine.Reach (admissions Conf.small)
      (Machine.passes (rowStays Conf.small)) ((machine Conf.small).idle twoLogins) {} c h ∧
        (c.shared.db.devices.get? 1).isSome = true :=
    Machine.reach_of_play (fun _ _ _ htest => htest) hplay
  obtain ⟨c, h, hreach, hrow⟩ := hrun
  exact ⟨c, h, hreach, hrow, registers_proven Conf.small hreach⟩

end UnityLan.Coordinator
