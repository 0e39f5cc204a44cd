import UnityLan.Coordinator.Admission
import UnityLan.Coordinator.Gates

namespace UnityLan.Coordinator

open UnityLan.Foundation Prog

/-! Who writes what about whom in the tables devices keep about each other.  A request is
followed through each of its builds: what let it in, the users the store named for its key, and
the devices it read from a network it was answered to hold or from those of its user. -/

structure Reporter where
  callerIp : IpAddr
  evidence : Evidence
  gate : Gate
  /-- The token lookup missed the row that the owner lookup had found. -/
  lapsed : Bool := false
  owners : List UserId := []
  peers : List PubKey := []

namespace Reporter

def start (req : RegisterReq) (callerIp : IpAddr) : Reporter where
  callerIp := callerIp
  evidence := { req := req }
  gate := { req := req }

def key (r : Reporter) : PubKey :=
  r.evidence.req.wgPubkey

def misses (r : Reporter) : (o : Op) → o.Res → Bool
  | .store (.device pubkey), .ok none => r.evidence.awaitsToken pubkey
  | _, _ => false

def named (r : Reporter) : (o : Op) → o.Res → List UserId
  | .store (.device pubkey), .ok (some row) => if pubkey = r.key then [row.userId] else []
  | .store (.oauthUser pubkey), .ok (some user) => if pubkey = r.key then [user] else []
  | .store (.enrollmentKey secret), .ok (some row) =>
      if r.evidence.req.enrollmentKey = some secret then [row.userId] else []
  | _, _ => []

def seen (r : Reporter) : (o : Op) → o.Res → List PubKey
  | .presence (.othersIn guild role _), others =>
      if r.owners.any fun user => r.gate.holds user (guild, role) then
        others.map MemberPresence.pubkey
      else []
  | .presence (.othersOfUser user _), others =>
      if user ∈ r.owners then others.map MemberPresence.pubkey else []
  | _, _ => []

variable (conf : Conf)

def next (r : Reporter) : (o : Op) → o.Res → Reporter
  | .tryAcquire _, _ => start r.evidence.req r.callerIp
  | o, answer =>
      { r with
        evidence := r.evidence.next o answer
        gate := r.gate.next conf o answer
        lapsed := r.lapsed || r.misses o answer
        owners := r.named o answer ++ r.owners
        peers := r.seen o answer ++ r.peers }

def authentic (r : Reporter) : Bool :=
  r.evidence.sufficient conf

def excused (r : Reporter) : Bool :=
  r.lapsed || !asksProof conf r.evidence.req

def allows (r : Reporter) : Op → Prop
  | .nat (.putSourceIp pubkey ip) =>
      pubkey = r.key ∧ ip = r.callerIp ∧ (r.authentic conf = true ∨ r.excused conf = true)
  | .nat (.recordReflexives _ comembers) => comembers ⊆ r.peers
  | .nat (.recordAllocs owner _ comembers) => owner = r.key ∧ comembers ⊆ r.peers
  | .nat (.recordIce owner _ comembers) => owner = r.key ∧ comembers ⊆ r.peers
  | _ => True

def mon : Monitor sig Reporter where
  allows := allows conf
  expects := fun _ _ _ => True
  next := next conf

/-- The operations that are not gated; a held request is not started anew. -/
def plain : Op → Bool
  | .nat (.putSourceIp ..) => false
  | .nat (.recordReflexives ..) => false
  | .nat (.recordAllocs ..) => false
  | .nat (.recordIce ..) => false
  | .tryAcquire _ => false
  | _ => true

structure Later (r r' : Reporter) : Prop where
  req : r'.evidence.req = r.evidence.req
  asked : r'.gate.req = r.gate.req
  callerIp : r'.callerIp = r.callerIp
  owners : ∀ user, user ∈ r.owners → user ∈ r'.owners
  peers : ∀ pubkey, pubkey ∈ r.peers → pubkey ∈ r'.peers

theorem Later.refl (r : Reporter) : Later r r :=
  ⟨rfl, rfl, rfl, fun _ => id, fun _ => id⟩

theorem Later.trans {r r' r'' : Reporter} (hfirst : Later r r') (hsecond : Later r' r'') :
    Later r r'' :=
  ⟨hsecond.req.trans hfirst.req, hsecond.asked.trans hfirst.asked,
    hsecond.callerIp.trans hfirst.callerIp,
    fun user huser => hsecond.owners user (hfirst.owners user huser),
    fun pubkey hpubkey => hsecond.peers pubkey (hfirst.peers pubkey hpubkey)⟩

structure Onward (r r' : Reporter) : Prop extends Later r r' where
  gate : Gate.Extends r.gate r'.gate

theorem Onward.refl (r : Reporter) : Onward r r :=
  ⟨Later.refl r, Gate.Extends.refl _⟩

theorem Onward.trans {r r' r'' : Reporter} (hfirst : Onward r r') (hsecond : Onward r' r'') :
    Onward r r'' :=
  ⟨hfirst.toLater.trans hsecond.toLater, hfirst.gate.trans hsecond.gate⟩

variable {conf} {r : Reporter} {ε α : Type} {req : RegisterReq} {callerIp : IpAddr} {user : UserId}

theorem plain_allowed {o : Op} (hplain : plain o = true) : allows conf r o := by
  unfold allows
  split
  · cases hplain
  · cases hplain
  · cases hplain
  · cases hplain
  · trivial

theorem next_eq {o : Op} {answer : o.Res} (hother : ∀ pubkey, o ≠ .tryAcquire pubkey) :
    r.next conf o answer =
      { r with
        evidence := r.evidence.next o answer
        gate := r.gate.next conf o answer
        lapsed := r.lapsed || r.misses o answer
        owners := r.named o answer ++ r.owners
        peers := r.seen o answer ++ r.peers } := by
  unfold next
  split
  · exact absurd rfl (hother _)
  · rfl

theorem later_next {o : Op} {answer : o.Res} (hother : ∀ pubkey, o ≠ .tryAcquire pubkey) :
    Later r (r.next conf o answer) := by
  rw [next_eq hother]
  refine ⟨next_req o answer, ?_, rfl, ?_, ?_⟩
  · exact learn_req
  · exact fun user huser => List.mem_append_right _ huser
  · exact fun pubkey hpubkey => List.mem_append_right _ hpubkey

theorem onward_next {o : Op} {answer : o.Res} (hother : ∀ pubkey, o ≠ .tryAcquire pubkey)
    (hlisted : o ≠ .store .allNetworks) : Onward r (r.next conf o answer) := by
  refine ⟨later_next hother, ?_⟩
  rw [next_eq hother]
  exact Gate.extends_next hlisted

theorem plain_later {o : Op} {answer : o.Res} (hplain : plain o = true) :
    Later r (r.next conf o answer) := by
  apply later_next
  rintro pubkey rfl
  cases hplain

theorem later_conforms {inside : Op → Prop} {program : Prog sig ε α}
    (hprogram : program.Uses inside) (hinside : ∀ o, inside o → plain o = true) :
    program.Conforms (mon conf) (fun r' _ => Later r r') r := by
  refine hprogram.keeps (Later r) (fun r' o ho hlater => ?_) (Later.refl r)
  exact ⟨plain_allowed (hinside o ho), fun answer _ =>
    hlater.trans (plain_later (hinside o ho))⟩

theorem onward_conforms {inside : Op → Prop} {program : Prog sig ε α}
    (hprogram : program.Uses inside)
    (hinside : ∀ o, inside o → plain o = true ∧ o ≠ .store .allNetworks) :
    program.Conforms (mon conf) (returns fun r' _ => Onward r r') r := by
  have hkept : program.Conforms (mon conf) (fun r' _ => Onward r r') r := by
    refine hprogram.keeps (Onward r) (fun r' o ho honward => ?_) (Onward.refl r)
    obtain ⟨hplain, hlisted⟩ := hinside o ho
    refine ⟨plain_allowed hplain, fun answer _ => honward.trans (onward_next ?_ hlisted)⟩
    rintro pubkey rfl
    cases hplain
  refine hkept.mono fun r' result honward => ?_
  cases result with
  | ok value => exact honward
  | error error => trivial

theorem attest_onward : ∀ o, AttestOp req o → plain o = true ∧ o ≠ .store .allNetworks := by
  intro o h
  have hanswer := attest_answer req o h
  cases o with
  | nat n => exact h.elim
  | tryAcquire pubkey => exact hanswer.elim
  | store q =>
      refine ⟨rfl, ?_⟩
      rintro hlisted
      cases hlisted
      exact hanswer.elim
  | _ => exact ⟨rfl, by simp⟩

theorem quiet_onward : ∀ o, QuietOp req o → plain o = true ∧ o ≠ .store .allNetworks :=
  fun o h => attest_onward o (quiet_attest req o h)

theorem counter_onward : ∀ o, CounterOp o → plain o = true ∧ o ≠ .store .allNetworks := by
  intro o h
  unfold CounterOp at h
  split at h
  · exact ⟨rfl, by simp⟩
  · exact h.elim

theorem admission_later : ∀ o, AdmissionOp req o → plain o = true := by
  intro o h
  unfold AdmissionOp at h
  split at h <;> trivial

/-! Letting the caller in. -/

def sound (r : Reporter) : Option Evidence :=
  if r.lapsed then none else some r.evidence

theorem sound_next {o : Op} {answer : o.Res} {e' : Evidence}
    (hother : ∀ pubkey, o ≠ .tryAcquire pubkey) (hsound : (r.next conf o answer).sound = some e') :
    ∃ e, r.sound = some e ∧ (Evidence.mon conf).expects e o answer ∧
      (Evidence.mon conf).next e o answer = e' := by
  rw [next_eq hother] at hsound
  simp only [sound, Option.ite_none_left_eq_some, Option.some.injEq, Bool.or_eq_true,
    not_or, Bool.not_eq_true] at hsound ⊢
  obtain ⟨⟨hlapsed, hmisses⟩, rfl⟩ := hsound
  refine ⟨r.evidence, ⟨hlapsed, rfl⟩, ?_, rfl⟩
  show Evidence.expects r.evidence o answer
  unfold Evidence.expects
  split
  · exact hmisses
  · trivial

structure Opens (req : RegisterReq) (callerIp : IpAddr) (r : Reporter) : Prop where
  applying : r.evidence.Applying req
  opened : r.gate.req = req
  callerIp : r.callerIp = callerIp

structure Admitted (conf : Conf) (req : RegisterReq) (callerIp : IpAddr) (user : UserId)
    (r : Reporter) : Prop where
  asked : r.evidence.req = req
  opened : r.gate.req = req
  callerIp : r.callerIp = callerIp
  owned : user ∈ r.owners
  proven : ∀ e, r.sound = some e → e.Proven conf req

theorem Admitted.accounted (hadmitted : Admitted conf req callerIp user r) :
    r.authentic conf = true ∨ r.excused conf = true := by
  unfold authentic excused
  rw [hadmitted.asked]
  cases hlapsed : r.lapsed with
  | true => exact .inr rfl
  | false =>
      cases hasks : asksProof conf req with
      | false => exact .inr rfl
      | true =>
          have hproven := hadmitted.proven r.evidence (by simp [sound, hlapsed])
          exact .inl (hproven.proven hasks)

theorem mem_named {o : Op} {answer : o.Res} (hother : ∀ pubkey, o ≠ .tryAcquire pubkey)
    (hnamed : user ∈ r.named o answer) : user ∈ (r.next conf o answer).owners := by
  rw [next_eq hother]
  exact List.mem_append_left _ hnamed

theorem consumeEnrollmentKey_named {secret : String} (now : Nat)
    (hasked : r.evidence.req = req) (hsecret : req.enrollmentKey = some secret) :
    (Store.consumeEnrollmentKey secret req.wgPubkey now).Conforms (mon conf)
      (returns fun r' user => user ∈ r'.owners) r := by
  simp only [Store.consumeEnrollmentKey, conforms_sql_bind]
  refine ⟨trivial, fun found _ => ?_⟩
  rcases found with error | _ | row
  · trivial
  · trivial
  have hnamed : row.userId ∈
      (r.next conf (.store (.enrollmentKey secret)) (.ok (some row))).owners := by
    apply mem_named (by simp)
    simp [named, hasked, hsecret]
  simp only [after, conforms_sql_bind]
  refine ⟨trivial, fun claimed _ => ?_⟩
  have hkept : row.userId ∈ ((r.next conf (.store (.enrollmentKey secret)) (.ok (some row))).next
      conf (.store (.claimEnrollmentKey secret req.wgPubkey now)) claimed).owners :=
    (later_next (by simp)).owners _ hnamed
  rcases claimed with error | _ | _
  · trivial
  · simp only [Bool.false_eq_true, if_false]
    split
    · split
      · exact hkept
      · trivial
    · trivial
  · exact hkept

theorem enrollingUser_named (hasked : r.evidence.req = req) :
    (enrollingUser conf req).Conforms (mon conf)
      (returns fun r' caller => caller.1 ∈ r'.owners) r := by
  have hpossession : ∀ r' : Reporter, (verifyPossession conf req).Conforms (mon conf)
      (returns fun r'' _ => r'' = r') r' := by
    intro r'
    unfold verifyPossession
    split <;> trivial
  unfold enrollingUser
  refine Conforms.through (fun r' bound => r'.evidence.req = req ∧
    ∀ user, bound = some user → user ∈ r'.owners) ?_ ?_
  · refine Conforms.mapError_returns ?_
    refine ⟨trivial, fun found _ => ?_⟩
    have hlater : Later r (r.next conf (.store (.oauthUser req.wgPubkey)) found) :=
      later_next (by simp)
    rcases found with error | _ | user
    · trivial
    · exact ⟨hlater.req.trans hasked, nofun⟩
    · refine ⟨hlater.req.trans hasked, fun other hother => ?_⟩
      cases hother
      apply mem_named (by simp)
      simp [named, key, hasked]
  · rintro r₁ bound ⟨hasked₁, hbound⟩
    cases bound with
    | some user =>
        refine (hpossession r₁).andThen fun r₂ _ hsame => ?_
        rw [hsame]
        exact hbound user rfl
    | none =>
        dsimp only
        split
        · trivial
        · rename_i secret hsecret
          refine (hpossession r₁).andThen fun r₂ _ hsame => ?_
          rw [hsame, conforms_act_bind]
          refine ⟨trivial, fun now _ => ?_⟩
          have hlater : Later r₁ (r₁.next conf .nowUnix now) := later_next (by simp)
          exact (consumeEnrollmentKey_named now (hlater.req.trans hasked₁) hsecret)
            |>.mapError_returns.andThen fun r₃ user howned => howned

theorem resolveUser_named (hasked : r.evidence.req = req) :
    (resolveUser conf req).Conforms (mon conf)
      (returns fun r' caller => caller.1 ∈ r'.owners) r := by
  unfold resolveUser
  refine Conforms.through (fun r' owner => r'.evidence.req = req ∧
    ∀ user, owner = some user → user ∈ r'.owners) ?_ ?_
  · refine Conforms.mapError_returns ?_
    simp only [Store.deviceOwner, conforms_sql_bind]
    refine ⟨trivial, fun found _ => ?_⟩
    have hlater : Later r (r.next conf (.store (.device req.wgPubkey)) found) :=
      later_next (by simp)
    rcases found with error | _ | row
    · trivial
    · exact ⟨hlater.req.trans hasked, nofun⟩
    · refine ⟨hlater.req.trans hasked, fun other hother => ?_⟩
      cases hother
      apply mem_named (by simp)
      simp [named, key, hasked]
  · rintro r₁ owner ⟨hasked₁, howner⟩
    cases owner with
    | some user =>
        refine (later_conforms authenticateEnrolled_uses admission_later).bind
          (fun r₂ _ hlater => ?_) fun _ _ _ => trivial
        exact hlater.owners user (howner user rfl)
    | none => exact enrollingUser_named hasked₁

theorem resolveUser_admits (hopens : Opens req callerIp r) :
    (resolveUser conf req).Conforms (mon conf)
      (returns fun r' caller => Admitted conf req callerIp caller.1 r') r := by
  have hevidence : (resolveUser conf req).Conforms (mon conf)
      (fun r' result => ∀ e, r'.sound = some e → returns (fun e' _ => e'.Proven conf req) e result)
      r := by
    refine (resolveUser_uses conf).lift sound (fun r' o ho => plain_allowed (admission_later o ho))
      (fun r' o answer e' ho hsound => sound_next ?_ hsound) fun e he => ?_
    · rintro pubkey rfl
      exact ho
    · unfold sound at he
      split at he
      · cases he
      · cases he
        exact resolveUser_proven hopens.applying
  have hlater := @later_conforms conf r _ _ _ _ (@resolveUser_uses conf req) admission_later
  refine ((hevidence.and hlater).and (resolveUser_named hopens.applying.asked)).mono ?_
  rintro r' result ⟨⟨hproven, hlater⟩, howned⟩
  cases result with
  | error error => trivial
  | ok caller =>
      exact ⟨hlater.req.trans hopens.applying.asked, hlater.asked.trans hopens.opened,
        hlater.callerIp.trans hopens.callerIp, howned, hproven⟩

/-! Settling it. -/

def Settling (req : RegisterReq) : Op → Prop
  | .nat _ => False
  | o => SettleOp req o

theorem inner_settling : ∀ o, InnerOp req o → Settling req o := by
  intro o h
  cases o with
  | store q =>
      cases q with
      | insertDevice pubkey row => exact h.elim
      | _ => exact h
  | nat n => exact h.elim
  | _ => exact h

theorem identity_settling : ∀ o, IdentityOp req user o → Settling req o := by
  intro o h
  unfold IdentityOp at h
  split at h <;> first | trivial | exact h.1

theorem touch_settling {personal : Bool} : ∀ o, TouchOp req personal o → Settling req o := by
  intro o h
  unfold TouchOp at h
  split at h
  · exact h.1
  · trivial
  · exact h.elim

theorem settling_plain : ∀ o, Settling req o → plain o = true := by
  intro o h
  cases o with
  | nat n => exact h.elim
  | tryAcquire pubkey => exact h.elim
  | _ => rfl

theorem resolveDevice_settling (networks : List Network) (cache : MemberCache) :
    (resolveDevice conf req user networks cache).Uses (Settling req) := by
  unfold resolveDevice
  refine ((holdsAnyNetworkRole_inner _ _ _).mono inner_settling).bind fun held => ?_
  dsimp only
  split
  · trivial
  · have hallocate : (Store.allocateDevice conf req.wgPubkey user
        (sanitizeLabel req.deviceName)).Uses (Settling req) :=
      (allocateDevice_uses conf _ _).mono identity_settling
    refine Uses.bind (hallocate.mapError _) fun allocated => ?_
    refine Uses.bind (Uses.mapError (by simp [Settling, SettleOp, RegisterQuery]) _) fun _ => ?_
    exact Uses.bind (Uses.mapError (by simp [Settling, SettleOp, RegisterQuery]) _)
      fun _ => trivial

theorem settling_conforms {program : Handler α} {value : Gate → α → Prop}
    (hprogram : program.Uses (Settling req))
    (hgate : program.Conforms (Gate.mon conf) (returns value) r.gate) :
    program.Conforms (mon conf) (returns fun r' a => Later r r' ∧ value r'.gate a) r := by
  have hnext : ∀ (r' : Reporter) (o : Op) (answer : o.Res) (m' : Gate), Settling req o →
      some (r'.next conf o answer).gate = some m' →
      ∃ m, some r'.gate = some m ∧ (Gate.mon conf).expects m o answer ∧
        (Gate.mon conf).next m o answer = m' := by
    intro r' o answer m' ho hm'
    refine ⟨r'.gate, rfl, trivial, ?_⟩
    rw [← Option.some.inj hm', next_eq]
    · rfl
    · rintro pubkey rfl
      exact ho
  have hlifted : program.Conforms (mon conf)
      (fun r' result => ∀ m, some r'.gate = some m → returns value m result) r := by
    apply hprogram.lift (fun r' : Reporter => some r'.gate)
      (fun r' o ho => plain_allowed (settling_plain o ho)) hnext
    rintro m hm
    cases hm
    exact hgate
  refine (hlifted.and (later_conforms hprogram settling_plain)).mono ?_
  rintro r' result ⟨hvalue, hlater⟩
  cases result with
  | ok a => exact ⟨hlater, hvalue r'.gate rfl⟩
  | error error => trivial

theorem settle_conforms (hadmitted : Admitted conf req callerIp user r) :
    (settle conf req callerIp user).Conforms (mon conf)
      (returns fun r' settled => Later r r' ∧ Gate.Held user r'.gate settled.m) r := by
  have hgate : (settle conf req callerIp user).Conforms (Gate.mon conf)
      (returns fun m settled => m.req = req ∧ Gate.Identified settled.device m settled.m ∧
        Gate.Held user m settled.m) r.gate :=
    Gate.settle_conforms callerIp hadmitted.opened
  unfold settle at hgate ⊢
  rw [conforms_act_bind] at hgate ⊢
  have hown : req.wgPubkey = r.key := by
    rw [key, hadmitted.asked]
  refine ⟨⟨hown, hadmitted.callerIp.symm, hadmitted.accounted⟩, fun answer _ => ?_⟩
  have hstart : Later r (r.next conf (.nat (.putSourceIp req.wgPubkey callerIp)) answer) :=
    later_next (by simp)
  refine (@settling_conforms conf
    (r.next conf (.nat (.putSourceIp req.wgPubkey callerIp)) answer) Settled req _ _ ?_
    (hgate.2 answer trivial)).returns_mono fun r' settled h => ⟨hstart.trans h.1, h.2.2.2⟩
  simp only [uses_act_bind]
  refine ⟨trivial, fun now => ?_⟩
  refine Uses.bind (Uses.mapError (by simp [Settling, SettleOp, RegisterQuery]) _)
    fun allNetworks => ?_
  simp only [uses_act_bind]
  refine ⟨trivial, fun memo => ?_⟩
  refine (resolveDevice_settling _ _).bind fun resolved => ?_
  refine ((retireSuperseded_inner _ _).mono inner_settling).bind fun changed => ?_
  refine ((resolveMembership_inner _ _ _ _ _ _).mono inner_settling).bind fun membership => ?_
  refine Uses.bind ?_ fun _ => Uses.bind ?_ fun _ => ?_
  · unfold rememberRoleless
    split <;> simp [Settling, SettleOp]
  · unfold touchIdentity
    split
    · exact ((touchDevice_uses _).mono touch_settling).mapError _
    · trivial
  · exact ((recordOwnDevice_inner _ _ _ _ _).mono inner_settling).bind fun changed => trivial

/-! What it is answered. -/

theorem addShared_known {others : List MemberPresence} {net : SharedNetwork} {peers : Peers}
    {pubkey : PubKey} (hpubkey : pubkey ∈ (others.foldl (addShared net) peers).keys) :
    pubkey ∈ peers.keys ∨ pubkey ∈ others.map MemberPresence.pubkey := by
  induction others generalizing peers with
  | nil => exact .inl hpubkey
  | cons mp rest ih =>
      rcases ih hpubkey with hold | hrest
      · rcases Table.mem_keys_insert.mp hold with rfl | hbefore
        · exact .inr (List.mem_cons_self ..)
        · exact .inl hbefore
      · exact .inr (List.mem_cons_of_mem _ hrest)

theorem addSibling_known {siblings : List MemberPresence} {guilds : List GuildId} {peers : Peers}
    {pubkey : PubKey} (hpubkey : pubkey ∈ (siblings.foldl (addSibling guilds) peers).keys) :
    pubkey ∈ peers.keys ∨ pubkey ∈ siblings.map MemberPresence.pubkey := by
  induction siblings generalizing peers with
  | nil => exact .inl hpubkey
  | cons mp rest ih =>
      rcases ih hpubkey with hold | hrest
      · unfold addSibling at hold
        split at hold
        · exact .inl hold
        · rcases Table.mem_keys_insert.mp hold with rfl | hbefore
          · exact .inr (List.mem_cons_self ..)
          · exact .inl hbefore
      · exact .inr (List.mem_cons_of_mem _ hrest)

theorem gatherShared_conforms {membership : Membership} {peers : Peers}
    (held : List ((GuildId × RoleId) × String))
    (hheld : ∀ entry ∈ held, r.gate.holds user entry.1 = true) (howned : user ∈ r.owners)
    (hpeers : peers.keys ⊆ r.peers) :
    (gatherShared req membership held peers).Conforms (mon conf)
      (returns fun r' peers' => Onward r r' ∧ peers'.keys ⊆ r'.peers) r := by
  induction held generalizing peers r with
  | nil => exact ⟨Onward.refl r, hpeers⟩
  | cons entry rest ih =>
      obtain ⟨⟨guild, role⟩, name⟩ := entry
      unfold gatherShared
      rw [conforms_act_bind]
      refine ⟨trivial, fun others _ => ?_⟩
      have honward : Onward r
          (r.next conf (.presence (.othersIn guild role req.wgPubkey)) others) :=
        onward_next (by simp) (by simp)
      have hseen : others.map MemberPresence.pubkey ⊆
          (r.next conf (.presence (.othersIn guild role req.wgPubkey)) others).peers := by
        have hholds : r.owners.any (fun owner => r.gate.holds owner (guild, role)) = true :=
          List.any_eq_true.mpr ⟨user, howned, hheld _ (List.mem_cons_self ..)⟩
        intro pubkey hpubkey
        apply List.mem_append_left
        simpa [seen, hholds] using hpubkey
      refine Conforms.returns_mono (ih (fun other hother => ?_) (honward.owners user howned) ?_)
        fun r' peers' h => ⟨honward.trans h.1, h.2⟩
      · exact honward.gate.holds (hheld other (List.mem_cons_of_mem _ hother))
      · intro pubkey hpubkey
        rcases addShared_known hpubkey with hbefore | hother
        · exact honward.peers pubkey (hpeers hbefore)
        · exact hseen hother

theorem gatherPeers_conforms {membership : Membership} (guilds : List GuildId)
    (hheld : Gate.Held user r.gate membership) (howned : user ∈ r.owners) :
    (gatherPeers req user membership guilds).Conforms (mon conf)
      (returns fun r' peers => Onward r r' ∧ peers.keys ⊆ r'.peers) r := by
  unfold gatherPeers
  refine (gatherShared_conforms _ (fun entry hentry => ?_) howned (by simp [Table.keys])).andThen
    fun r₁ peers hgathered => ?_
  · exact hheld entry.1 (List.of_mem_zip hentry).1
  · obtain ⟨honward, hpeers⟩ := hgathered
    split
    · rw [conforms_act_bind]
      refine ⟨trivial, fun siblings _ => ?_⟩
      have honward₁ : Onward r₁
          (r₁.next conf (.presence (.othersOfUser user req.wgPubkey)) siblings) :=
        onward_next (by simp) (by simp)
      refine ⟨honward.trans honward₁, fun pubkey hpubkey => ?_⟩
      rcases addSibling_known hpubkey with hbefore | hsibling
      · exact honward₁.peers pubkey (hpeers hbefore)
      · apply List.mem_append_left
        simpa [seen, honward.owners user howned] using hsibling
    · exact ⟨honward, hpeers⟩

theorem act_onward {o : Op} {f : o.Res → Prog sig ε α} {post : Reporter → Except ε α → Prop}
    (hallows : allows conf r o) (hother : ∀ pubkey, o ≠ .tryAcquire pubkey)
    (hlisted : o ≠ .store .allNetworks)
    (hrest : ∀ r' answer, Onward r r' → (f answer).Conforms (mon conf) post r') :
    (@bind (Prog sig ε) _ (no_index o.Res) α (act o) f).Conforms (mon conf) post r :=
  (conforms_act_bind ..).mpr
    ⟨hallows, fun answer _ => hrest _ answer (onward_next hother hlisted)⟩

theorem recordPeerReports_conforms {comembers : List PubKey} (hasked : r.evidence.req = req)
    (hknown : comembers ⊆ r.peers) :
    (recordPeerReports req comembers).Conforms (mon conf) (returns fun r' _ => Onward r r') r := by
  have howner : ∀ r', Onward r r' → req.wgPubkey = r'.key ∧ comembers ⊆ r'.peers := by
    intro r' honward
    refine ⟨?_, fun pubkey hpubkey => honward.peers pubkey (hknown hpubkey)⟩
    rw [key, honward.req, hasked]
  unfold recordPeerReports
  refine act_onward ?_ (by simp) (by simp) fun r₁ reflexive honward₁ => ?_
  · exact hknown
  refine act_onward trivial (by simp) (by simp) fun r₂ _ honward₂ => ?_
  have hsofar₂ := honward₁.trans honward₂
  refine act_onward ?_ (by simp) (by simp) fun r₃ allocs honward₃ => ?_
  · exact howner r₂ hsofar₂
  have hsofar₃ := hsofar₂.trans honward₃
  refine act_onward ?_ (by simp) (by simp) fun r₄ ice honward₄ => ?_
  · exact howner r₃ hsofar₃
  exact hsofar₃.trans honward₄

theorem buildSeeds_conforms {membership : Membership} (guilds : List GuildId)
    (now attSchema : Nat) (hasked : r.evidence.req = req)
    (hheld : Gate.Held user r.gate membership) (howned : user ∈ r.owners) :
    (buildSeeds conf req user membership guilds now attSchema).Conforms (mon conf)
      (returns fun r' _ => Onward r r') r := by
  unfold buildSeeds
  refine (gatherPeers_conforms guilds hheld howned).andThen fun r₁ peers hgathered => ?_
  obtain ⟨honward₁, hpeers⟩ := hgathered
  refine (recordPeerReports_conforms (honward₁.req.trans hasked) hpeers).andThen
    fun r₂ wakeTargets honward₂ => ?_
  refine act_onward trivial (by simp) (by simp) fun r₃ relays honward₃ => ?_
  refine act_onward trivial (by simp) (by simp) fun r₄ relayAllocs honward₄ => ?_
  refine act_onward trivial (by simp) (by simp) fun r₅ ice honward₅ => ?_
  refine act_onward trivial (by simp) (by simp) fun r₆ reflexive honward₆ => ?_
  refine (onward_conforms (attestPeers_signs conf _ _ _ _ _) attest_onward).andThen
    fun r₇ all honward₇ => ?_
  exact honward₁.trans (honward₂.trans (honward₃.trans (honward₄.trans (honward₅.trans
    (honward₆.trans honward₇)))))

theorem answer_conforms (alreadyEnrolled : Bool) {settled : Settled}
    (hasked : r.evidence.req = req) (hheld : Gate.Held user r.gate settled.m)
    (howned : user ∈ r.owners) :
    (answer conf req user alreadyEnrolled settled).Conforms (mon conf)
      (returns fun r' _ => Onward r r') r := by
  have hquiet : ∀ o, QuietOp req o → plain o = true ∧ o ≠ .store .allNetworks := quiet_onward
  unfold answer
  refine (onward_conforms (buildGrant_quiet conf _ _ _ _) hquiet).andThen
    fun r₁ grant honward₁ => ?_
  refine (buildSeeds_conforms _ _ _ (honward₁.req.trans hasked)
    (fun network hnetwork => honward₁.gate.holds (hheld network hnetwork))
    (honward₁.owners user howned)).andThen fun r₂ built honward₂ => ?_
  refine (onward_conforms (deliverToken_quiet _) hquiet).andThen
    fun r₃ token honward₃ => ?_
  refine (onward_conforms (bumpAll_quiet _) hquiet).andThen fun r₄ _ honward₄ => ?_
  refine (onward_conforms (wakeAll_quiet _) hquiet).andThen fun r₅ _ honward₅ => ?_
  refine (onward_conforms (aggregate_uses conf _) counter_onward).andThen
    fun r₆ version honward₆ => ?_
  refine (onward_conforms (buildAnchors_quiet conf _) hquiet).andThen
    fun r₇ anchors honward₇ => ?_
  refine (onward_conforms (signRelease_quiet conf _) hquiet).andThen
    fun r₈ release honward₈ => ?_
  exact honward₁.trans (honward₂.trans (honward₃.trans (honward₄.trans (honward₅.trans
    (honward₆.trans (honward₇.trans honward₈))))))

structure Ended (req : RegisterReq) (callerIp : IpAddr) (r : Reporter) : Prop where
  asked : r.evidence.req = req
  callerIp : r.callerIp = callerIp

theorem buildSnapshot_conforms (hopens : Opens req callerIp r) :
    (buildSnapshot conf req callerIp).Conforms (mon conf)
      (returns fun r' _ => Ended req callerIp r') r := by
  unfold buildSnapshot validatePeerReports
  split
  · trivial
  · refine (resolveUser_admits hopens).andThen fun r₁ caller hadmitted => ?_
    refine (settle_conforms hadmitted).andThen fun r₂ settled hsettled => ?_
    obtain ⟨hlater, hheld⟩ := hsettled
    have hasked : r₂.evidence.req = req := hlater.req.trans hadmitted.asked
    refine (answer_conforms _ hasked hheld (hlater.owners _ hadmitted.owned)).returns_mono
      fun r₃ built honward => ?_
    exact ⟨honward.req.trans hasked,
      honward.callerIp.trans (hlater.callerIp.trans hadmitted.callerIp)⟩

theorem builds_ended :
    BuildsFrom conf req callerIp (mon conf) (Opens req callerIp)
      fun r _ => Ended req callerIp r where
  subscribe := fun r pubkey hopens =>
    ⟨trivial, fun _ => ⟨hopens.applying, hopens.opened, hopens.callerIp⟩⟩
  build := fun r hopens => buildSnapshot_conforms hopens
  acquire := by
    rintro r built ⟨rfl, rfl⟩
    exact ⟨trivial, fun _ => ⟨⟨rfl, rfl⟩, rfl, rfl⟩⟩
  wait := by
    rintro r o (hpark | rfl) hopens
    · unfold ParkOp at hpark
      split at hpark
      all_goals
        first
          | exact ⟨trivial, fun _ _ => ⟨hopens.applying, hopens.opened, hopens.callerIp⟩⟩
          | exact hpark.elim
    · exact ⟨trivial, fun _ _ => ⟨hopens.applying, hopens.opened, hopens.callerIp⟩⟩

def ofCall : Call → Option Reporter
  | .register req callerIp => some (start req callerIp)
  | _ => none

theorem handle_conforms (call : Call) :
    (handle conf call).Conforms (Prog.within SideOp (mon conf)) (fun _ _ => True)
      (ofCall call) := by
  have huses := handle_uses conf call
  have hside : ∀ call, ofCall call = none → (handle conf call).Uses SideOp →
      (handle conf call).Conforms (Prog.within SideOp (mon conf)) (fun _ _ => True)
        (ofCall call) := by
    intro call hother huses
    rw [hother]
    exact huses.conforms_within.mono fun _ _ _ => trivial
  cases call with
  | register req callerIp =>
      apply conforms_within
      have hopens : Opens req callerIp (start req callerIp) := ⟨⟨rfl, rfl⟩, rfl, rfl⟩
      exact ((builds_ended.register hopens).bind (fun _ _ _ => trivial) fun _ _ _ => trivial)
  | _ => exact hside _ rfl huses

end Reporter

/-! What one operation writes. -/

def news {κ ν : Type} [DecidableEq κ] [DecidableEq ν] (before after : Table κ ν) : List κ :=
  (after.rows.filter fun row => before.get? row.1 != some row.2).map Prod.fst

/-- Who wrote about whom; a reflexive address is written by the device of the request. -/
def reported (reporter : PubKey) (before after : NatTables) : List (PubKey × PubKey) :=
  (news before.reflexive after.reflexive).map (fun pubkey => (reporter, pubkey)) ++
    news before.relayAllocs after.relayAllocs ++ news before.ice after.ice

section

variable {κ ν : Type} [DecidableEq κ] [DecidableEq ν] {before after : Table κ ν} {key : κ}

theorem mem_news :
    key ∈ news before after ↔
      ∃ value, after.get? key = some value ∧ before.get? key ≠ some value := by
  unfold news
  constructor
  · intro hkey
    obtain ⟨row, hrow, rfl⟩ := List.mem_map.mp hkey
    obtain ⟨hmem, hchanged⟩ := List.mem_filter.mp hrow
    exact ⟨row.2, Table.mem_rows.mp hmem, by simpa using hchanged⟩
  · rintro ⟨value, hafter, hbefore⟩
    refine List.mem_map.mpr ⟨(key, value), List.mem_filter.mpr ⟨?_, ?_⟩, rfl⟩
    · exact Table.mem_rows.mpr hafter
    · simpa using hbefore

theorem news_kept (hkept : ∀ key value, after.get? key = some value → before.get? key =
    some value) :
    news before after = [] := by
  apply List.eq_nil_iff_forall_not_mem.mpr
  intro key hkey
  obtain ⟨value, hafter, hbefore⟩ := mem_news.mp hkey
  exact hbefore (hkept key value hafter)

theorem publish_get? {target : κ → PubKey} {rows : List (κ × ν)} {table : Table κ ν} {value : ν}
    (hafter : (NatTables.publish target rows table).2.get? key = some value) :
    table.get? key = some value ∨ (key, value) ∈ rows := by
  induction rows generalizing table with
  | nil => exact .inl hafter
  | cons row rest ih =>
      obtain ⟨rowKey, rowValue⟩ := row
      unfold NatTables.publish at hafter
      split at hafter
      · exact (ih hafter).imp id (List.mem_cons_of_mem _)
      · rcases ih hafter with hinserted | hrest
        · rw [Table.get?_insert] at hinserted
          split at hinserted
          · rename_i hsame
            cases hinserted
            rw [hsame]
            exact .inr (List.mem_cons_self ..)
          · exact .inl hinserted
        · exact .inr (List.mem_cons_of_mem _ hrest)

theorem published {target : κ → PubKey} {rows : List (κ × ν)}
    (hkey : key ∈ news before (NatTables.publish target rows before).2) :
    ∃ value, (key, value) ∈ rows := by
  obtain ⟨value, hafter, hbefore⟩ := mem_news.mp hkey
  exact ⟨value, (publish_get? hafter).resolve_left hbefore⟩

end

namespace NatTables

variable {tables : NatTables} {reporter owner pubkey : PubKey} {pair : PubKey × PubKey}
  {comembers : List PubKey}

@[simp] theorem news_self {κ ν : Type} [DecidableEq κ] [DecidableEq ν] (table : Table κ ν) :
    news table table = [] :=
  news_kept fun _ _ => id

@[simp] theorem news_retain {κ ν : Type} [DecidableEq κ] [DecidableEq ν] (table : Table κ ν)
    (keep : κ → ν → Bool) : news table (table.retain keep) = [] := by
  apply news_kept
  intro key value hkept
  rw [Table.get?_retain] at hkept
  exact (Option.filter_eq_some_iff.mp hkept).1

theorem reported_reflexives {observed : List ObservedEndpoint}
    (hpair : pair ∈ reported reporter tables (tables.recordReflexives observed comembers).2) :
    pair.1 = reporter ∧ pair.2 ∈ comembers := by
  simp only [reported, recordReflexives, news_self, List.append_nil, List.mem_map] at hpair
  obtain ⟨pubkey, hnew, rfl⟩ := hpair
  obtain ⟨endpoint, haccepted⟩ := published hnew
  obtain ⟨o, ho, heq⟩ := List.mem_map.mp haccepted
  cases heq
  have hfilter := (List.mem_filter.mp ho).2
  simp only [Bool.and_eq_true] at hfilter
  exact ⟨rfl, by simpa using hfilter.1⟩

theorem reported_allocs {allocated : List RelayAllocation}
    (hpair : pair ∈ reported reporter tables (tables.recordAllocs owner allocated comembers).2) :
    pair.1 = owner ∧ pair.2 ∈ comembers := by
  simp only [reported, recordAllocs, news_self, List.append_nil, List.map_nil,
    List.nil_append] at hpair
  obtain ⟨relayed, haccepted⟩ := published hpair
  obtain ⟨a, ha, heq⟩ := List.mem_map.mp haccepted
  cases heq
  exact ⟨rfl, by simpa using (List.mem_filter.mp ha).2⟩

theorem reported_ice {offers : List IceEndpoint}
    (hpair : pair ∈ reported reporter tables (tables.recordIce owner offers comembers).2) :
    pair.1 = owner ∧ pair.2 ∈ comembers := by
  simp only [reported, recordIce, news_self, List.append_nil, List.map_nil,
    List.nil_append] at hpair
  obtain ⟨params, haccepted⟩ := published hpair
  obtain ⟨e, he, heq⟩ := List.mem_map.mp haccepted
  cases heq
  exact ⟨rfl, by simpa using (List.mem_filter.mp he).2⟩

@[simp] theorem reported_self : reported reporter tables tables = [] := by
  simp [reported]

theorem reported_step {n : Op} (hreflexives : ∀ observed comembers,
      n ≠ .recordReflexives observed comembers)
    (hallocs : ∀ owner allocated comembers, n ≠ .recordAllocs owner allocated comembers)
    (hice : ∀ owner offers comembers, n ≠ .recordIce owner offers comembers) :
    reported reporter tables (tables.step n).2 = [] := by
  cases n with
  | recordReflexives observed comembers => exact absurd rfl (hreflexives _ _)
  | recordAllocs owner allocated comembers => exact absurd rfl (hallocs _ _ _)
  | recordIce owner offers comembers => exact absurd rfl (hice _ _ _)
  | recordRelay pubkey capable addr secret =>
      simp only [step, recordRelay]
      split <;> simp [reported]
  | _ => simp [reported, step]

theorem source_step {n : Op} {ip : IpAddr}
    (hsource : (tables.step n).2.sourceIp.get? pubkey = some ip) :
    tables.sourceIp.get? pubkey = some ip ∨ n = .putSourceIp pubkey ip := by
  cases n with
  | putSourceIp other otherIp =>
      simp only [step, Table.get?_insert] at hsource
      split at hsource
      · rename_i hsame
        cases hsource
        exact .inr (by rw [hsame])
      · exact .inl hsource
  | recordRelay other capable addr secret =>
      simp only [step, recordRelay] at hsource
      split at hsource <;> exact .inl hsource
  | pruneSourceIp present =>
      simp only [step, Table.get?_retain] at hsource
      exact .inl (Option.filter_eq_some_iff.mp hsource).1
  | _ => exact .inl hsource

theorem reflexive_step {n : Op} {endpoint : SocketAddr}
    (hreflexive : (tables.step n).2.reflexive.get? pubkey = some endpoint) :
    tables.reflexive.get? pubkey = some endpoint ∨
      tables.sourceIp.get? pubkey = some endpoint.ip := by
  cases n with
  | recordReflexives observed comembers =>
      refine (publish_get? hreflexive).imp id fun haccepted => ?_
      obtain ⟨o, ho, heq⟩ := List.mem_map.mp haccepted
      cases heq
      have hfilter := (List.mem_filter.mp ho).2
      simp only [Bool.and_eq_true, beq_iff_eq] at hfilter
      exact hfilter.2
  | recordRelay other capable addr secret =>
      simp only [step, recordRelay] at hreflexive
      split at hreflexive <;> exact .inl hreflexive
  | pruneReflexive present =>
      simp only [step, Table.get?_retain] at hreflexive
      exact .inl (Option.filter_eq_some_iff.mp hreflexive).1
  | _ => exact .inl hreflexive

end NatTables

/-! The run. -/

def sharing (st : AppState) (first second : PubKey) : Bool :=
  (st.presence.networksOf first).any (st.presence.networksOf second).contains ||
    match st.db.devices.get? first, st.db.devices.get? second with
    | some a, some b =>
        a.userId == b.userId || st.db.networks.keys.any fun network =>
          [a.userId, b.userId].all fun user =>
            holdsRole (st.discord.members.get? (network.1, user)) network.2
    | _, _ => false

structure Reports where
  requests : Table Nat Reporter := ∅
  /-- Who connected from where, and was authenticated. -/
  connected : List (PubKey × IpAddr) := []
  /-- A request was let in without evidence. -/
  slipped : Bool := false
  /-- A device wrote for another, or about one its build did not read from a network it was
  answered to hold nor from its owner. -/
  unshared : Bool := false
  /-- It wrote about one it shares neither a network nor an owner with as it writes. -/
  apart : Bool := false

variable (conf : Conf)

namespace Reports

def begin (h : Reports) (task : Nat) (req : RegisterReq) (callerIp : IpAddr) : Reports :=
  { h with requests := h.requests.insert task (.start req callerIp) }

def follows (h : Reports) (task : Nat) (o : Op) (answer : o.Res) : Reports :=
  { h with requests := h.requests.modify task (·.next conf o answer) }

def connects (h : Reports) (task : Nat) : Op → Reports
  | .nat (.putSourceIp ..) =>
      match h.requests.get? task with
      | some r =>
          if r.authentic conf then { h with connected := (r.key, r.callerIp) :: h.connected }
          else { h with slipped := h.slipped || r.excused conf }
      | none => h
  | _ => h

def writes (h : Reports) (task : Nat) (st st' : AppState) : Reports :=
  match h.requests.get? task with
  | some r =>
      let pairs := reported r.key st.nat st'.nat
      { h with
        unshared := h.unshared ||
          !pairs.all fun pair => pair.1 == r.key && r.peers.contains pair.2
        apart := h.apart || !pairs.all fun pair => sharing st pair.1 pair.2 }
  | none =>
      { h with unshared := h.unshared || !(reported 0 st.nat st'.nat).isEmpty }

def gone (h : Reports) (task : Nat) : Reports :=
  { h with requests := h.requests.erase task }

end Reports

def reports : Machine.Observer (machine conf) Reports where
  see := fun h st event st' =>
    match event with
    | .called task (.register req callerIp) => h.begin task req callerIp
    | .called .. => h
    | .did task o answer => ((h.connects conf task o).writes task st st').follows conf task o answer
    | .ended task _ _ => h.gone task
    | .dropped task _ => h.gone task
    | .moved _ => h

namespace Reports

def Accounts (h : Reports) (pubkey : PubKey) (ip : IpAddr) : Prop :=
  h.slipped = false → (pubkey, ip) ∈ h.connected

end Reports

structure ReportsInv (h : Reports) (st : AppState)
    (views : Nat → Option (Call × Option Reporter)) : Prop where
  shared : h.unshared = false
  known : Machine.Mirrors h.requests views
  sources : ∀ pubkey ip, st.nat.sourceIp.get? pubkey = some ip → h.Accounts pubkey ip
  reflexives : ∀ pubkey endpoint, st.nat.reflexive.get? pubkey = some endpoint →
    h.Accounts pubkey endpoint.ip

section

variable {conf} {h : Reports} {views : Nat → Option (Call × Option Reporter)} {task : Nat}
  {call : Call} {st st' : AppState} {choice : Choice} {μ : Option Reporter} {r : Reporter} {o : Op}
  {answer : o.Res}

theorem exec_tables (hexec : AppState.exec conf task o choice st = some (answer, st')) :
    st'.nat = st.nat ∨ ∃ n, o = .nat n ∧ (st.nat.step n).2 = st'.nat := by
  cases o
  case nat n => exact .inr ⟨n, rfl, congrArg Prod.snd (AppState.exec_nat hexec)⟩
  all_goals exact .inl ((AppState.exec_frame hexec).nat (by simp))

theorem reported_allowed (hallows : Reporter.allows conf r o)
    (hexec : AppState.exec conf task o choice st = some (answer, st')) :
    ∀ pair ∈ reported r.key st.nat st'.nat, pair.1 = r.key ∧ pair.2 ∈ r.peers := by
  intro pair hpair
  rcases exec_tables hexec with hsame | ⟨n, rfl, hafter⟩
  · rw [hsame, NatTables.reported_self] at hpair
    cases hpair
  · rw [← hafter] at hpair
    cases n
    case recordReflexives observed comembers =>
      obtain ⟨hreporter, hcomember⟩ := NatTables.reported_reflexives hpair
      exact ⟨hreporter, hallows hcomember⟩
    case recordAllocs owner allocated comembers =>
      obtain ⟨howner, hcomember⟩ := NatTables.reported_allocs hpair
      exact ⟨howner.trans hallows.1, hallows.2 hcomember⟩
    case recordIce owner offers comembers =>
      obtain ⟨howner, hcomember⟩ := NatTables.reported_ice hpair
      exact ⟨howner.trans hallows.1, hallows.2 hcomember⟩
    all_goals
      rw [NatTables.reported_step (by simp) (by simp) (by simp)] at hpair
      cases hpair

theorem reported_side (hside : SideOp o) (key : PubKey)
    (hexec : AppState.exec conf task o choice st = some (answer, st')) :
    reported key st.nat st'.nat = [] := by
  rcases exec_tables hexec with hsame | ⟨n, rfl, hafter⟩
  · rw [hsame, NatTables.reported_self]
  · rw [← hafter]
    apply NatTables.reported_step
    · rintro observed comembers rfl
      exact hside
    · rintro owner allocated comembers rfl
      exact hside
    · rintro owner offers comembers rfl
      exact hside

namespace Reports

theorem connects_requests : (h.connects conf task o).requests = h.requests := by
  unfold connects
  split
  · split
    · split <;> rfl
    · rfl
  · rfl

theorem connects_unshared : (h.connects conf task o).unshared = h.unshared := by
  unfold connects
  split
  · split
    · split <;> rfl
    · rfl
  · rfl

theorem connects_accounts {pubkey : PubKey} {ip : IpAddr} (haccounts : h.Accounts pubkey ip) :
    (h.connects conf task o).Accounts pubkey ip := by
  unfold connects
  split
  · split
    · split
      · exact fun hslipped => List.mem_cons_of_mem _ (haccounts hslipped)
      · intro hslipped
        simp only [Bool.or_eq_false_iff] at hslipped
        exact haccounts hslipped.1
    · exact haccounts
  · exact haccounts

theorem connects_own {pubkey : PubKey} {ip : IpAddr} (hrequest : h.requests.get? task = some r)
    (hallows : Reporter.allows conf r (.nat (.putSourceIp pubkey ip))) :
    (h.connects conf task (.nat (.putSourceIp pubkey ip))).Accounts pubkey ip := by
  obtain ⟨rfl, rfl, hlet⟩ := hallows
  simp only [connects, hrequest]
  split
  · exact fun _ => List.mem_cons_self ..
  · rename_i hauthentic
    intro hslipped
    simp [hlet.resolve_left hauthentic] at hslipped

theorem writes_requests : (h.writes task st st').requests = h.requests := by
  unfold writes
  split <;> rfl

theorem writes_accounts {pubkey : PubKey} {ip : IpAddr} (haccounts : h.Accounts pubkey ip) :
    (h.writes task st st').Accounts pubkey ip := by
  unfold writes
  split <;> exact haccounts

end Reports

theorem ReportsInv.called (hinv : ReportsInv h st views) (hfree : views task = none) :
    ReportsInv ((reports conf).see h st (.called task call) st) st
      (Function.update views task (some (call, Reporter.ofCall call))) := by
  cases call
  case register req callerIp =>
    exact ⟨hinv.shared, hinv.known.begin _, hinv.sources, hinv.reflexives⟩
  all_goals exact ⟨hinv.shared, hinv.known.ignore hfree, hinv.sources, hinv.reflexives⟩

theorem ReportsInv.did (hinv : ReportsInv h st views) (hview : views task = some (call, μ))
    (hallows : (Prog.within SideOp (Reporter.mon conf)).allows μ o)
    (hexec : AppState.exec conf task o choice st = some (answer, st')) :
    ReportsInv ((reports conf).see h st (.did task o answer) st') st'
      (Function.update views task
        (some (call, (Prog.within SideOp (Reporter.mon conf)).next μ o answer))) := by
  have hrequest : h.requests.get? task = μ := hinv.known.followed hview
  have hconnected : (h.connects conf task o).requests.get? task = μ := by
    rw [Reports.connects_requests, hrequest]
  have hsource : ∀ pubkey ip, st'.nat.sourceIp.get? pubkey = some ip →
      (h.connects conf task o).Accounts pubkey ip := by
    intro pubkey ip hip
    have hcases : st.nat.sourceIp.get? pubkey = some ip ∨ o = .nat (.putSourceIp pubkey ip) := by
      rcases exec_tables hexec with hsame | ⟨n, rfl, hafter⟩
      · rw [hsame] at hip
        exact .inl hip
      · rw [← hafter] at hip
        exact (NatTables.source_step hip).imp id (congrArg _)
    rcases hcases with hbefore | rfl
    · exact Reports.connects_accounts (hinv.sources pubkey ip hbefore)
    · cases μ with
      | none => exact hallows.elim
      | some r => exact Reports.connects_own hrequest hallows
  have hreflexive : ∀ pubkey endpoint, st'.nat.reflexive.get? pubkey = some endpoint →
      (h.connects conf task o).Accounts pubkey endpoint.ip := by
    intro pubkey endpoint hendpoint
    apply Reports.connects_accounts
    rcases exec_tables hexec with hsame | ⟨n, rfl, hafter⟩
    · rw [hsame] at hendpoint
      exact hinv.reflexives pubkey endpoint hendpoint
    · rw [← hafter] at hendpoint
      rcases NatTables.reflexive_step hendpoint with hbefore | hsource
      · exact hinv.reflexives pubkey endpoint hbefore
      · exact hinv.sources pubkey endpoint.ip hsource
  refine ⟨?_, ?_, fun pubkey ip hip => ?_, fun pubkey endpoint hendpoint => ?_⟩
  · show ((h.connects conf task o).writes task st st').unshared = false
    have hbefore : (h.connects conf task o).unshared = false := by
      rw [Reports.connects_unshared, hinv.shared]
    unfold Reports.writes
    cases μ with
    | none =>
        have hside : SideOp o := hallows
        rw [hconnected]
        simp [hbefore, reported_side hside _ hexec]
    | some r =>
        rw [hconnected]
        simp only [hbefore, Bool.false_or, Bool.not_eq_false', List.all_eq_true,
          Bool.and_eq_true, beq_iff_eq, List.contains_iff_mem]
        exact reported_allowed hallows hexec
  · show Machine.Mirrors (((h.connects conf task o).writes task st st').requests.modify task
      fun r => r.next conf o answer) _
    rw [Reports.writes_requests, Reports.connects_requests]
    exact hinv.known.follow hview fun r => r.next conf o answer
  · exact Reports.writes_accounts (hsource pubkey ip hip)
  · exact Reports.writes_accounts (hreflexive pubkey endpoint hendpoint)

theorem ReportsInv.gone (hinv : ReportsInv h st views) :
    ReportsInv (h.gone task) (AppState.release task st) (Function.update views task none) :=
  ⟨hinv.shared, hinv.known.forget, hinv.sources, hinv.reflexives⟩

theorem ReportsInv.moved (hinv : ReportsInv h st views) {world : World}
    (hmove : AppState.move world st = some st') : ReportsInv h st' views := by
  have hnat := (AppState.move_untouched hmove).nat
  refine ⟨hinv.shared, hinv.known, ?_, ?_⟩
  · rw [hnat]
    exact hinv.sources
  · rw [hnat]
    exact hinv.reflexives

end

def reportDiscipline :
    Machine.Discipline (machine conf) (reports conf) Machine.free (Option Reporter) where
  mon := Prog.within SideOp (Reporter.mon conf)
  opening := fun _ _ call => Reporter.ofCall call
  post := fun _ _ _ => True
  inv := fun h st views => ReportsInv h st views
  conforms := fun _ _ call => Reporter.handle_conforms call
  called := fun hinv hfree _ => hinv.called hfree
  did := fun hinv hview hallows hexec _ =>
    ⟨by cases ‹Option Reporter› <;> trivial, hinv.did hview hallows hexec⟩
  ended := fun hinv _ _ _ => hinv.gone
  dropped := fun hinv _ _ => hinv.gone
  moved := fun hinv hmove _ => hinv.moved hmove

/-- Whatever devices report, a device writes for itself alone, and only about those its build read
from a network it was answered to hold or from its owner; and while nobody is let in without
evidence, a reflexive address is one its device connected from. -/
theorem reports_accounted {st₀ : AppState} {c : (machine conf).Config} {h : Reports}
    (hempty : st₀.nat = {})
    (hreach : Machine.Reach (reports conf) Machine.free ((machine conf).idle st₀) {} c h) :
    h.unshared = false ∧
      (h.slipped = false → ∀ pubkey endpoint,
        c.shared.nat.reflexive.get? pubkey = some endpoint →
          (pubkey, endpoint.ip) ∈ h.connected) := by
  have hstart : ReportsInv {} st₀ fun _ => none := by
    refine ⟨rfl, fun task => by simp, ?_, ?_⟩
    all_goals
      rw [hempty]
      intro pubkey found hfound
      cases hfound
  obtain ⟨views, _, hinv⟩ := (reportDiscipline conf).run hstart hreach
  exact ⟨hinv.shared, fun hslipped pubkey endpoint hendpoint =>
    hinv.reflexives pubkey endpoint hendpoint hslipped⟩

/-- Two users hold the network of role 7 in guild 5. -/
def meshmates : AppState where
  db :=
    { networks := (∅ : Table (GuildId × RoleId) String).insert (5, 7) "lan"
      oauthAuthorized := ((∅ : Table PubKey OauthRow).insert 1 ⟨1, 0⟩).insert 2 ⟨2, 0⟩ }
  discord :=
    { guilds := (∅ : Table GuildId String).insert 5 "guild"
      roles := (∅ : Table GuildId (List (RoleId × String))).insert 5 [(7, "lan")]
      members :=
        ((∅ : Table (GuildId × UserId) MemberRoles).insert (5, 1) ⟨"ann", [7]⟩).insert
          (5, 2) ⟨"bob", [7]⟩ }

def reportedPad : RegisterReq where
  wgPubkey := 2
  deviceName := "pad"
  possessionProof := some ⟨2, 7⟩

def reportingPc : RegisterReq where
  wgPubkey := 1
  deviceName := "pc"
  possessionProof := some ⟨1, 7⟩
  observed := [⟨2, ⟨.v4 9, 77⟩⟩]
  relayAllocated := [⟨2, ⟨.v4 8, 1⟩⟩]

open Script in
def evictedMeanwhile : Script Conf.small :=
  call (.register reportedPad (.v4 9)) ++ steps 0 24 (.text "token") ++ steps 0 57 (.key 99) ++
    call (.register reportingPc (.v4 8)) ++ steps 1 42 (.text "token") ++
    move (.member 5 2 none) ++ call (.memberRemove 5 2) ++ steps 2 5 .go ++ steps 1 3 .go

theorem evictedMeanwhile_reported :
    ∃ c h, Machine.Reach (reports Conf.small) Machine.free
        ((machine Conf.small).idle meshmates) {} c h ∧
      c.shared.nat.reflexive.get? 2 = some ⟨.v4 9, 77⟩ ∧
        h.slipped = false ∧ h.apart = true := by
  have hplay : (Machine.play (reports Conf.small) (fun _ _ _ => true)
      ((machine Conf.small).idle meshmates) {} evictedMeanwhile).any (fun last =>
        decide (last.1.shared.nat.reflexive.get? 2 = some ⟨.v4 9, 77⟩) &&
          (!last.2.slipped && last.2.apart)) = true := by
    decide +kernel
  have hrun : ∃ c h, Machine.Reach (reports Conf.small) Machine.free
      ((machine Conf.small).idle meshmates) {} c h ∧
        (decide (c.shared.nat.reflexive.get? 2 = some ⟨.v4 9, 77⟩) &&
          (!h.slipped && h.apart)) = true :=
    Machine.reach_of_play (fun _ _ _ _ => trivial) hplay
  obtain ⟨c, h, hreach, hlast⟩ := hrun
  simp only [Bool.and_eq_true, decide_eq_true_eq, Bool.not_eq_true'] at hlast
  exact ⟨c, h, hreach, hlast⟩

/-- The device written about can have left by the time it is written about. -/
theorem reporter_shares_nothing :
    ¬ ∀ (conf : Conf) (st₀ : AppState) (c : (machine conf).Config) (h : Reports),
      st₀.nat = {} →
      Machine.Reach (reports conf) Machine.free ((machine conf).idle st₀) {} c h →
      h.apart = false := by
  intro hclaim
  obtain ⟨c, h, hreach, -, -, hapart⟩ := evictedMeanwhile_reported
  rw [hclaim _ _ c h rfl hreach] at hapart
  cases hapart

theorem reports_accounted_pad :
    ∃ c h, Machine.Reach (reports Conf.small) Machine.free
        ((machine Conf.small).idle meshmates) {} c h ∧
      c.shared.nat.reflexive.get? 2 = some ⟨.v4 9, 77⟩ ∧
        h.unshared = false ∧ (2, .v4 9) ∈ h.connected := by
  obtain ⟨c, h, hreach, hstored, hslipped, -⟩ := evictedMeanwhile_reported
  obtain ⟨hshared, hconnected⟩ := reports_accounted Conf.small rfl hreach
  exact ⟨c, h, hreach, hstored, hshared, hconnected hslipped _ _ hstored⟩

end UnityLan.Coordinator
