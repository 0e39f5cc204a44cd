import UnityLan.Coordinator.Footprint

namespace UnityLan.Coordinator

open UnityLan.Foundation Prog

/-! What a request writes on the strength of a member lookup.  The monitor follows
the lookups of one member of one guild: a request records that member only in roles
its own lookup returned, and caches only what it fetched. -/

structure Looked where
  /-- The device the request is for. -/
  device : Option PubKey := none
  /-- The answer the request goes by, from its lookup until it has announced itself. -/
  roles : Option (Option MemberRoles) := none
  /-- The task made the role source forget the member. -/
  forgot : Bool := false
  deriving DecidableEq

def announces (device : Option PubKey) : Presence.Op → Bool
  | .recordSelf .. => true
  | .evictSelf _ pubkey => device == some pubkey
  | _ => false

variable (guild : GuildId) (user : UserId)

def isMember (g : GuildId) (u : UserId) : Bool :=
  g == guild && u == user

namespace Looked

def allows (μ : Looked) : Op → Prop
  | .presence (.record g role p _ _) =>
      isMember guild user g p.userId = true →
        ∃ roles, μ.roles = some (some roles) ∧ role ∈ roles.roleIds
  | .caches (.storeMember g u roles) =>
      isMember guild user g u = true → μ.roles = some roles
  | _ => True

def learn (μ : Looked) (g : GuildId) (u : UserId) (member : Option MemberRoles) : Looked :=
  if isMember guild user g u then { μ with roles := some member } else μ

def next (μ : Looked) : (o : Op) → o.Res → Looked
  | .caches (.cachedMember g u), some member => learn guild user μ g u member
  | .fetchMember g u, answer => learn guild user μ g u answer.roles
  | .caches (.forget g u), _ =>
      if isMember guild user g u then { μ with forgot := true } else μ
  | .presence o, _ => if announces μ.device o then { μ with roles := none } else μ
  | _, _ => μ

def mon : Monitor sig Looked where
  allows := allows guild user
  expects := fun _ _ _ => True
  next := next guild user

end Looked

structure Knows (req : RegisterReq) (caller : UserId) (cache : MemberCache) (μ : Looked) :
    Prop where
  device : μ.device = some req.wgPubkey
  roles : caller = user → ∀ roles, cache.lookup guild = some (some roles) →
    μ.roles = some (some roles)

def plain : Op → Bool
  | .presence (.record ..) => false
  | .presence (.recordSelf ..) => false
  | .presence (.evictSelf ..) => false
  | .caches (.cachedMember ..) => false
  | .caches (.storeMember ..) => false
  | .caches (.forget ..) => false
  | .fetchMember .. => false
  | _ => true

section

variable {guild} {user} {req : RegisterReq} {ε α : Type} {μ : Looked}

theorem plain_ignored {o : Op} (hplain : plain o = true) :
    (Looked.mon guild user).allows μ o ∧
      ∀ answer, (Looked.mon guild user).next μ o answer = μ := by
  cases o with
  | presence o => cases o <;> first | exact ⟨trivial, fun _ => rfl⟩ | cases hplain
  | caches o => cases o <;> first | exact ⟨trivial, fun _ => rfl⟩ | cases hplain
  | fetchMember g u => cases hplain
  | _ => exact ⟨trivial, fun _ => rfl⟩

theorem plain_conforms {inside : Op → Prop} {program : Prog sig ε α}
    (hprogram : program.Uses inside) (hinside : ∀ o, inside o → plain o = true) :
    program.Conforms (Looked.mon guild user) (fun μ' _ => μ' = μ) μ :=
  hprogram.conforms fun o ho => plain_ignored (hinside o ho)

theorem plain_returns {inside : Op → Prop} {program : Prog sig ε α}
    (hprogram : program.Uses inside) (hinside : ∀ o, inside o → plain o = true) :
    program.Conforms (Looked.mon guild user) (returns fun μ' _ => μ' = μ) μ := by
  refine (plain_conforms hprogram hinside).mono fun μ' result hsame => ?_
  cases result with
  | ok _ => exact hsame
  | error _ => trivial

theorem label_plain : ∀ o, LabelOp o → plain o = true := by
  intro o h
  unfold LabelOp at h
  split at h <;> trivial

theorem identity_plain : ∀ o, IdentityOp req user o → plain o = true := by
  intro o h
  unfold IdentityOp at h
  split at h <;> trivial

theorem touch_plain {personal : Bool} : ∀ o, TouchOp req personal o → plain o = true := by
  intro o h
  unfold TouchOp at h
  split at h <;> trivial

theorem admission_plain : ∀ o, AdmissionOp req o → plain o = true := by
  intro o h
  unfold AdmissionOp at h
  split at h <;> trivial

theorem evict_plain {pubkey : PubKey} : ∀ o, EvictOp pubkey o → plain o = true := by
  intro o h
  unfold EvictOp at h
  split at h <;> trivial

theorem park_plain : ∀ o, ParkOp o → plain o = true := by
  intro o h
  unfold ParkOp at h
  split at h <;> trivial

theorem answer_plain : ∀ o, AnswerOp req o → plain o = true := by
  intro o h
  unfold AnswerOp at h
  split at h <;> trivial

theorem tell_plain : ∀ o, TellOp req o → plain o = true := by
  intro o h
  rcases h with hanswer | hcounter
  · exact answer_plain o hanswer
  · unfold CounterOp at hcounter
    split at hcounter <;> trivial

theorem store_plain {inside : Query → Prop} : ∀ o, StoreOp inside o → plain o = true := by
  intro o h
  unfold StoreOp at h
  split at h <;> trivial

/-! Lookups. -/

theorem fetchMember_conforms (g : GuildId) (u : UserId) :
    (RoleSource.fetchMember g u : Prog sig ε _).Conforms (Looked.mon guild user)
      (returns fun μ' member => μ' = μ.learn guild user g u member) μ := by
  simp only [RoleSource.fetchMember, conforms_act_bind]
  refine ⟨trivial, fun answer _ => ?_⟩
  have hnext : (Looked.mon guild user).next μ (.fetchMember g u) answer =
      μ.learn guild user g u answer.roles := rfl
  rw [hnext]
  cases answer with
  | found roles =>
      simp only [conforms_act_bind]
      refine ⟨?_, fun _ _ => ?_⟩
      · intro hmember
        simp [Looked.learn, hmember, MemberAnswer.roles]
      · rfl
  | notFound =>
      simp only [conforms_act_bind]
      refine ⟨?_, fun _ _ => ?_⟩
      · intro hmember
        simp [Looked.learn, hmember, MemberAnswer.roles]
      · rfl
  | failed => rfl

/-- After a lookup the request goes by its answer; a lookup in the personal scope asks
nobody. -/
theorem member_conforms (g : GuildId) (u : UserId) :
    (RoleSource.member g u : Prog sig ε _).Conforms (Looked.mon guild user)
      (returns fun μ' member =>
        μ' = μ.learn guild user g u member ∨ member = none ∧ μ' = μ) μ := by
  unfold RoleSource.member
  split
  · exact .inr ⟨rfl, rfl⟩
  simp only [dedup, conforms_act_bind]
  refine ⟨trivial, fun hit _ => ?_⟩
  cases hit with
  | some member => exact .inl rfl
  | none =>
      simp only [conforms_act_bind]
      refine ⟨trivial, fun gate _ => ⟨trivial, fun _ _ => ⟨trivial, fun again _ => ?_⟩⟩⟩
      cases again with
      | some member =>
          simp only [pure_eq, ret_bind, conforms_act_bind, conforms_ret]
          exact ⟨trivial, fun _ _ => ⟨trivial, fun _ _ => ⟨trivial, fun _ _ => .inl rfl⟩⟩⟩
      | none =>
          refine (fetchMember_conforms g u).andThen fun μ' member hlearned => ?_
          simp only [pure_eq, conforms_act_bind, conforms_ret]
          exact ⟨trivial, fun _ _ => ⟨trivial, fun _ _ => ⟨trivial, fun _ _ => .inl hlearned⟩⟩⟩

variable {caller : UserId} {cache : MemberCache}

theorem lookupMember_conforms (g : GuildId) (hknows : Knows guild user req caller cache μ) :
    (lookupMember cache g caller).Conforms (Looked.mon guild user)
      (returns fun μ' looked =>
        Knows guild user req caller looked.2 μ' ∧ looked.2.lookup g = some looked.1) μ := by
  unfold lookupMember
  split
  · rename_i member hcached
    exact ⟨hknows, hcached⟩
  · rename_i hmissing
    refine (member_conforms g caller).andThen fun μ' member hlearned => ?_
    refine ⟨⟨?_, fun hcaller roles hroles => ?_⟩, by simp⟩
    · rcases hlearned with rfl | ⟨-, rfl⟩
      · unfold Looked.learn
        split <;> exact hknows.device
      · exact hknows.device
    · by_cases hguild : g = guild
      · subst hguild
        simp only [List.lookup_cons_self, Option.some.injEq] at hroles
        subst hroles
        rcases hlearned with rfl | ⟨hnone, -⟩
        · simp [Looked.learn, isMember, hcaller]
        · cases hnone
      · have hbeq : (guild == g) = false := beq_false_of_ne (Ne.symm hguild)
        have hother : cache.lookup guild = some (some roles) := by
          simpa [List.lookup_cons, hbeq] using hroles
        have hsame : μ' = μ := by
          rcases hlearned with rfl | ⟨-, rfl⟩
          · simp [Looked.learn, isMember, hguild]
          · rfl
        rw [hsame]
        exact hknows.roles hcaller roles hother

theorem holdsAnyNetworkRole_conforms (networks : List Network)
    (hknows : Knows guild user req caller cache μ) :
    (holdsAnyNetworkRole caller networks cache).Conforms (Looked.mon guild user)
      (returns fun μ' held => Knows guild user req caller held.2 μ') μ := by
  induction networks generalizing cache μ with
  | nil => exact hknows
  | cons net rest ih =>
      unfold holdsAnyNetworkRole
      refine (lookupMember_conforms net.guildId hknows).andThen fun μ' looked hlooked => ?_
      dsimp only
      split
      · exact hlooked.1
      · exact ih hlooked.1

theorem resolveDevice_conforms (networks : List Network)
    (hknows : Knows guild user req caller cache μ) :
    (resolveDevice conf req caller networks cache).Conforms (Looked.mon guild user)
      (returns fun μ' resolved => Knows guild user req caller resolved.2 μ') μ := by
  unfold resolveDevice
  refine (holdsAnyNetworkRole_conforms networks hknows).andThen fun μ' held hknows' => ?_
  dsimp only
  split
  · exact hknows'
  · refine (plain_returns ((allocateDevice_uses conf _ _).mapError _) identity_plain).andThen
      fun μ'' allocated hsame => ?_
    subst hsame
    have hensure : (sql (.ensurePrimary caller req.wgPubkey)).Uses (IdentityOp req caller) := by
      simp [IdentityOp]
    refine (plain_returns (hensure.mapError _) identity_plain).andThen fun μ'' _ hsame => ?_
    subst hsame
    have hprimary : (sql (.primaryPubkey caller)).Uses (IdentityOp req caller) := by
      simp [IdentityOp]
    refine (plain_returns (hprimary.mapError _) identity_plain).andThen fun μ'' _ hsame => ?_
    subst hsame
    exact hknows'

theorem retireSuperseded_conforms (changed : List Scope)
    (hdevice : μ.device = some req.wgPubkey) :
    (retireSuperseded req caller changed).Conforms (Looked.mon guild user)
      (returns fun μ' _ => μ' = μ) μ := by
  unfold retireSuperseded
  split
  · rfl
  · have hfind : ∀ token, (sql (.deviceByToken token)).Uses
        (StoreOp fun q => q = .deviceByToken token) := by
      intro token
      simp [StoreOp]
    refine (plain_returns ((hfind _).mapError _) store_plain).andThen fun μ' found hsame => ?_
    subst hsame
    cases found with
    | none => rfl
    | some old =>
        dsimp only
        split
        · rename_i hsupersede
          refine (plain_returns ((removeDevice_uses _ _).mapError _) store_plain).andThen
            fun μ' _ hsame => ?_
          subst hsame
          rw [conforms_act_bind]
          refine ⟨trivial, fun networks _ => ?_⟩
          refine (plain_returns (evictFrom_uses _ _ _) evict_plain).andThen
            fun μ'' changed hsame => ?_
          subst hsame
          rw [conforms_act_bind]
          refine ⟨trivial, fun removed _ => ?_⟩
          have hother : old.2 ≠ req.wgPubkey := by
            simp only [shouldSupersede, Bool.and_eq_true, bne_iff_ne] at hsupersede
            exact hsupersede.2
          have hquiet : announces μ''.device (.evictSelf old.1 old.2) = false := by
            simp [announces, hdevice, Ne.symm hother]
          show Looked.next guild user μ'' (.presence (.evictSelf old.1 old.2)) removed = μ''
          simp [Looked.next, hquiet]
        · rfl

/-! The walk over the networks. -/

theorem recordPresence_conforms (device : Device) (now : Nat) (net : Network) (walk : Walk)
    (hjustified : isMember guild user net.guildId caller = true →
      ∃ roles, μ.roles = some (some roles) ∧ net.roleId ∈ roles.roleIds) :
    (recordPresence req caller device now net walk).Conforms (Looked.mon guild user)
      (returns fun μ' walk' => μ' = μ ∧ walk'.cache = walk.cache) μ := by
  unfold recordPresence
  split
  · exact ⟨rfl, rfl⟩
  · rw [conforms_act_bind]
    refine ⟨hjustified, fun recorded _ => ?_⟩
    cases recorded with
    | true => exact ⟨rfl, rfl⟩
    | false => exact ⟨rfl, rfl⟩

theorem walkHeld_conforms (device : Device) (now : Nat) (net : Network) (member : MemberRoles)
    (walk : Walk)
    (hjustified : isMember guild user net.guildId caller = true →
      ∃ roles, μ.roles = some (some roles) ∧ net.roleId ∈ roles.roleIds) :
    (walkHeld req caller device now net member walk).Conforms (Looked.mon guild user)
      (returns fun μ' walk' => μ' = μ ∧ walk'.cache = walk.cache) μ := by
  unfold walkHeld
  refine (plain_returns ((walkCommunity_uses _ _).mono name_label) label_plain).andThen
    fun μ₁ labelled hsame => ?_
  subst hsame
  refine (plain_returns ((roleName_uses _ _).mono name_label) label_plain).andThen
    fun μ₂ name hsame => ?_
  subst hsame
  refine (plain_returns (walkUsername_uses _ _ _) label_plain).andThen fun μ₃ username hsame => ?_
  subst hsame
  dsimp only
  split
  · refine (recordPresence_conforms device now net _ hjustified).andThen fun μ₄ walk' hwalk => ?_
    exact ⟨hwalk.1, hwalk.2⟩
  · exact ⟨rfl, rfl⟩

theorem walkNetwork_conforms (device : Device) (now : Nat) (walk : Walk) (net : Network)
    (hknows : Knows guild user req caller walk.cache μ) :
    (walkNetwork req caller device now walk net).Conforms (Looked.mon guild user)
      (returns fun μ' walk' => Knows guild user req caller walk'.cache μ') μ := by
  unfold walkNetwork
  refine (lookupMember_conforms net.guildId hknows).andThen fun μ' looked hlooked => ?_
  obtain ⟨hknows', hcached⟩ := hlooked
  obtain ⟨member, cache⟩ := looked
  cases member with
  | none => exact hknows'
  | some roles =>
      dsimp only
      split
      · rename_i hholds
        refine Conforms.returns_mono (walkHeld_conforms device now net roles _ fun hmember => ?_)
          fun μ'' walk' hwalk => ?_
        · simp only [isMember, Bool.and_eq_true, beq_iff_eq] at hmember
          obtain ⟨hguild, hcaller⟩ := hmember
          exact ⟨roles, hknows'.roles hcaller roles (hguild ▸ hcached), by simpa using hholds⟩
        · obtain ⟨rfl, hcache⟩ := hwalk
          rw [hcache]
          exact hknows'
      · exact hknows'

theorem resolveMembership_conforms (networks : List Network) (device : Device) (now : Nat)
    (changed : List Scope) (hknows : Knows guild user req caller cache μ) :
    (resolveMembership req caller networks device cache now changed).Conforms
      (Looked.mon guild user) (returns fun μ' _ => μ'.device = some req.wgPubkey) μ := by
  unfold resolveMembership
  refine Conforms.through (fun μ' walk => Knows guild user req caller walk.cache μ') ?_ ?_
  · refine Conforms.foldlM networks _ _ (fun m walk net _ hround => ?_) hknows
    exact walkNetwork_conforms device now walk net hround
  intro μ' walk hknows'
  rw [conforms_act_bind]
  refine ⟨trivial, fun recorded _ => ?_⟩
  refine (plain_returns (evictFrom_uses _ _ _) evict_plain).andThen fun μ'' changed hsame => ?_
  subst hsame
  dsimp only
  split
  · have hhandle : (sql (.userHandle caller)).Uses LabelOp := by
      simp [LabelOp]
    refine (plain_returns (hhandle.mapError _) label_plain).andThen fun μ₁ handle hsame => ?_
    subst hsame
    cases handle with
    | none => exact hknows'.device
    | some handle =>
        refine (plain_returns (userLabel_uses _ _) label_plain).andThen fun μ₂ label hsame => ?_
        subst hsame
        exact hknows'.device
  · exact hknows'.device

theorem announceSelf_conforms (device : Device) (m : Membership) (now : Nat)
    (hdevice : μ.device = some req.wgPubkey) :
    (announceSelf req caller device m now).Conforms (Looked.mon guild user)
      (returns fun μ' _ => μ'.device = some req.wgPubkey) μ := by
  have hnext : ∀ (o : Presence.Op) (result : o.Res),
      (Looked.next guild user μ (.presence o) result).device = some req.wgPubkey := by
    intro o result
    show (if announces μ.device o then { μ with roles := none } else μ).device = _
    split <;> exact hdevice
  unfold announceSelf
  split
  · exact ⟨trivial, fun recorded _ => hnext _ recorded⟩
  · exact ⟨trivial, fun removed _ => hnext _ removed⟩

theorem settle_conforms (callerIp : IpAddr) (hdevice : μ.device = some req.wgPubkey) :
    (settle conf req callerIp caller).Conforms (Looked.mon guild user)
      (returns fun μ' _ => μ'.device = some req.wgPubkey) μ := by
  unfold settle
  simp only [conforms_act_bind]
  refine ⟨trivial, fun _ _ => ⟨trivial, fun now _ => ?_⟩⟩
  have hnetworks : (sql .allNetworks).Uses (StoreOp fun q => q = .allNetworks) := by
    simp [StoreOp]
  refine (plain_returns (hnetworks.mapError _) store_plain).andThen fun μ₁ allNetworks hsame => ?_
  subst hsame
  simp only [conforms_act_bind]
  refine ⟨trivial, fun memo _ => ?_⟩
  have hknows : Knows guild user req caller [] μ₁ := by
    refine ⟨hdevice, fun _ roles hroles => ?_⟩
    cases hroles
  refine (resolveDevice_conforms _ hknows).andThen fun μ₂ resolved hknows₂ => ?_
  refine (retireSuperseded_conforms [] hknows₂.device).andThen fun μ₃ changed hsame => ?_
  subst hsame
  refine (resolveMembership_conforms _ _ _ _ hknows₂).andThen fun μ₄ membership hdevice₄ => ?_
  have hremember : ∀ walked, (rememberRoleless caller walked membership.1).Uses
      fun o => plain o = true := by
    intro walked
    unfold rememberRoleless
    split
    · simp [plain]
    · trivial
  refine (plain_returns (hremember _) fun o h => h).andThen fun μ₅ _ hsame => ?_
  subst hsame
  have htouch : (touchIdentity req membership.1).Uses (TouchOp req membership.1.personal) := by
    unfold touchIdentity
    split
    · exact (touchDevice_uses _).mapError _
    · trivial
  refine (plain_returns htouch touch_plain).andThen fun μ₆ _ hsame => ?_
  subst hsame
  unfold recordOwnDevice
  refine Conforms.through (fun μ' _ => μ'.device = some req.wgPubkey) ?_ fun _ _ h => h
  exact (announceSelf_conforms _ _ _ hdevice₄).andThen fun _ _ h => h

theorem buildSnapshot_conforms (callerIp : IpAddr) (hdevice : μ.device = some req.wgPubkey) :
    (buildSnapshot conf req callerIp).Conforms (Looked.mon guild user)
      (returns fun μ' _ => μ'.device = some req.wgPubkey) μ := by
  unfold buildSnapshot validatePeerReports
  split
  · trivial
  · refine (plain_returns (resolveUser_uses conf) admission_plain).andThen
      fun μ₁ caller hsame => ?_
    subst hsame
    refine (settle_conforms callerIp hdevice).andThen fun μ₂ settled hdevice₂ => ?_
    refine Conforms.returns_mono (plain_returns (answer_uses conf _ _ _) tell_plain)
      fun μ₃ built hsame => ?_
    subst hsame
    exact hdevice₂

theorem register_conforms (callerIp : IpAddr) (hdevice : μ.device = some req.wgPubkey) :
    (register conf req callerIp).Conforms (Looked.mon guild user)
      (returns fun μ' _ => μ'.device = some req.wgPubkey) μ := by
  unfold register negotiate
  split
  · rw [pure_eq, ret_bind, conforms_act_bind]
    refine ⟨trivial, fun woken _ => ?_⟩
    refine (buildSnapshot_conforms callerIp hdevice).andThen fun μ₁ built hdevice₁ => ?_
    split
    · unfold hold
      rw [conforms_act_bind]
      refine ⟨trivial, fun acquired _ => ?_⟩
      split
      · refine (plain_returns (waitPark_uses conf _ _) park_plain).andThen
          fun μ₂ woke hsame => ?_
        subst hsame
        split
        · rw [conforms_act_bind]
          refine ⟨trivial, fun _ _ => ?_⟩
          exact (buildSnapshot_conforms callerIp hdevice₁).andThen fun _ _ h => h
        · exact (buildSnapshot_conforms callerIp hdevice₁).andThen fun _ _ h => h
      · trivial
    · exact hdevice₁
  · trivial

/-! Every other call. -/

theorem side_allowed (μ : Looked) : ∀ o, SideOp o → (Looked.mon guild user).allows μ o := by
  intro o h
  show Looked.allows guild user μ o
  unfold Looked.allows
  split
  · exact h.elim
  · exact h.elim
  · trivial

theorem evictUser_plain : ∀ o, EvictUserOp guild user o → plain o = true := by
  intro o h
  unfold EvictUserOp at h
  split at h <;> trivial

theorem revoke_conforms (g : GuildId) (u : UserId) (held : List RoleId) :
    (revoke g u held).Conforms (Looked.mon guild user)
      (returns fun μ' _ => isMember guild user g u = true → μ'.forgot = true) μ := by
  unfold revoke RoleSource.forget
  rw [conforms_act_bind]
  refine ⟨trivial, fun _ _ => ?_⟩
  have hforgot : isMember guild user g u = true →
      ((Looked.mon guild user).next μ (.caches (.forget g u)) ()).forgot = true := by
    intro hmember
    simp [Looked.mon, Looked.next, hmember]
  rw [conforms_act_bind]
  refine ⟨trivial, fun found _ => ?_⟩
  cases found with
  | error _ => exact hforgot
  | ok nets =>
      refine (plain_returns (evictMember_uses _ _ _ _) evictUser_plain).andThen
        fun μ' changed hsame => ?_
      subst hsame
      split
      · refine Conforms.returns_mono
          (plain_returns ((@bumpAll_uses { wgPubkey := 0 } _ _).mono (plain_answer _)) answer_plain)
          fun μ'' _ hsame => ?_
        subst hsame
        exact hforgot
      · exact hforgot

end

def forgets : Call → Bool
  | .memberUpdate g u _ => isMember guild user g u
  | .memberRemove g u => isMember guild user g u
  | _ => false

def lookedOf : Call → Looked
  | .register req _ => { device := some req.wgPubkey }
  | _ => {}

def lookedPost (call : Call) (μ : Looked) : Except ApiError Reply → Prop :=
  returns (fun μ' _ => forgets guild user call = true → μ'.forgot = true) μ

theorem handle_lookups (conf : Conf) (call : Call) :
    (handle conf call).Conforms (Looked.mon guild user) (lookedPost guild user call)
      (lookedOf call) := by
  have hside : ∀ call, (∀ o, CallOp call o → SideOp o) → forgets guild user call = false →
      (handle conf call).Conforms (Looked.mon guild user) (lookedPost guild user call)
        (lookedOf call) := by
    intro call hinside hforgets
    have huses := (handle_uses conf call).mono hinside
    refine (huses.allowed fun μ o ho => side_allowed μ o ho).mono fun μ result _ => ?_
    cases result with
    | ok reply =>
        intro h
        rw [hforgets] at h
        cases h
    | error error => trivial
  cases call with
  | register req callerIp =>
      refine (register_conforms callerIp rfl).andThen fun μ resp _ => ?_
      intro h
      cases h
  | memberUpdate g u left =>
      simp only [handle, memberUpdate, bind_assoc, conforms_act_bind]
      refine ⟨trivial, fun _ _ => ?_⟩
      exact (revoke_conforms g u left).andThen fun μ _ hforgot => hforgot
  | memberRemove g u =>
      simp only [handle, memberRemove, bind_assoc, conforms_act_bind]
      refine ⟨trivial, fun _ _ => ?_⟩
      exact (revoke_conforms g u []).andThen fun μ _ hforgot => hforgot
  | _ => exact hside _ (fun _ h => h) rfl

end UnityLan.Coordinator
