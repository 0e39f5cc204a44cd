import UnityLan.Coordinator.Footprint

namespace UnityLan.Coordinator

open UnityLan.Foundation Prog

/-! What a failed role lookup does to a member who holds a network role. -/

/-- What the coordinator made of one member of one network. -/
structure Outcome where
  req : Nat → Option RegisterReq := fun _ => none
  caller : Nat → Option UserId := fun _ => none
  evicted : Bool := false
  roleless : Bool := false
  reclaimable : Bool := false
  remembered : Bool := false

def Outcome.unharmed (o : Outcome) : Bool :=
  !o.evicted && !o.roleless && !o.reclaimable && !o.remembered

variable (guild : GuildId) (role : RoleId) (user : UserId)

def withdrawn (req : RegisterReq) : Bool :=
  req.paused || req.disabledNetworks.contains ⟨guild, role⟩

def rolelessAnswer (resp : RegisterResp) : Bool :=
  match resp.grant with
  | none => true
  | some grant => grant.attestations.any fun att =>
      att.attestation.payload.attestation.guildId == PERSONAL_SCOPE

def requestOf : Call → Option RegisterReq
  | .register req _ => some req
  | _ => none

namespace Outcome

def called (o : Outcome) (task : Nat) (call : Call) : Outcome :=
  { o with
    req := Function.update o.req task (requestOf call)
    caller := Function.update o.caller task none }

def evicts (o : Outcome) (task : Nat) (g : GuildId) (r : RoleId) (pubkey : PubKey) : Bool :=
  g == guild && r == role && o.caller task == some user &&
    match o.req task with
    | some req => pubkey == req.wgPubkey && !withdrawn guild role req
    | none => false

def didPresence (o : Outcome) (task : Nat) : (p : Presence.Op) → p.Res → Outcome
  | .evict g r pubkey, removed =>
      { o with evicted := o.evicted || removed && o.evicts guild role user task g r pubkey }
  | _, _ => o

def didStore (o : Outcome) (task : Nat) : Query → Outcome
  | .touchDevice _ _ personal =>
      { o with reclaimable := o.reclaimable || personal && o.caller task == some user }
  | _ => o

def didRoleless (o : Outcome) (task : Nat) : RolelessMemo.Op → Outcome
  | .fresh u => { o with caller := Function.update o.caller task (some u) }
  | .remember u => { o with remembered := o.remembered || u == user }
  | .forget _ => o

def answered (o : Outcome) (task : Nat) : Reply → Outcome
  | .registered resp =>
      { o with roleless := o.roleless || o.caller task == some user && rolelessAnswer resp }
  | _ => o

end Outcome

variable (conf : Conf)

def outcomes : Machine.Observer (machine conf) Outcome where
  see := fun o _ event _ =>
    match event with
    | .called task call => o.called task call
    | .did task (.presence p) answer => o.didPresence guild role user task p answer
    | .did task (.store q) (.ok _) => o.didStore user task q
    | .did task (.roleless r) _ => o.didRoleless user task r
    | .ended task _ (.ok reply) => o.answered user task reply
    | _ => o

/-- The member's roles keep the network role, and the network stays registered. -/
def rolesKept : (machine conf).Event → Bool
  | .moved (.member g u roles) => !(g == guild && u == user) || holdsRole roles role
  | .did _ (.store (.deleteNetwork g r)) _ => !(g == guild && r == role)
  | _ => true

def lookupAnswered : (machine conf).Event → Bool
  | .did _ (.fetchMember g u) answer => !(g == guild && u == user) || answer != .failed
  | _ => true

/-- The member holds the role of a registered network, and nothing the coordinator
remembers says otherwise. -/
structure SettledMember (st : AppState) : Prop where
  realGuild : guild ≠ PERSONAL_SCOPE
  network : (st.db.networks.get? (guild, role)).isSome = true
  holds : holdsRole (st.discord.members.get? (guild, user)) role = true
  cache : ∀ entry, st.caches.members.get? (guild, user) = some entry →
    holdsRole entry.roles role = true
  memo : st.roleless.seen.get? user = none
  keys : ∀ g key, st.signing.keys.get? g = some key → key.signer.guildId = g

/-! The monitor: while lookups answer with the role, a request treats the member as one
who holds it. -/

structure Asker where
  req : Option RegisterReq := none
  caller : Option UserId := none

namespace Asker

def allows (μ : Asker) : Op → Prop
  | .caches (.storeMember g u member) => g = guild → u = user → holdsRole member role = true
  | .presence (.evict g r pubkey) =>
      g = guild → r = role → μ.caller = some user →
        ∀ req, μ.req = some req → pubkey = req.wgPubkey → withdrawn guild role req = true
  | .store (.touchDevice _ _ personal) => μ.caller = some user → personal = false
  | .roleless (.remember u) => u ≠ user
  | .signing (.keepKey g key) => key.signer.guildId = g
  | _ => True

def expects (_ : Asker) : (o : Op) → o.Res → Prop
  | .store .allNetworks, .ok nets =>
      ∃ net ∈ nets, net.guildId = guild ∧ net.roleId = role
  | .roleless (.fresh u), answer => u = user → answer = false
  | .caches (.cachedMember g u), some member =>
      g = guild → u = user → holdsRole member role = true
  | .fetchMember g u, answer => g = guild → u = user → holdsRole answer.roles role = true
  | .signing (.key g), some key => key.signer.guildId = g
  | _, _ => True

def next (μ : Asker) : (o : Op) → o.Res → Asker
  | .roleless (.fresh u), _ => { μ with caller := some u }
  | _, _ => μ

def mon : Monitor sig Asker where
  allows := allows guild role user
  expects := expects guild role user
  next := next

end Asker

def harmless : Op → Bool
  | .caches (.storeMember ..) => false
  | .presence (.evict ..) => false
  | .store (.touchDevice ..) => false
  | .roleless (.remember _) => false
  | .roleless (.fresh _) => false
  | .signing (.keepKey ..) => false
  | _ => true

section

variable {guild} {role} {user} {conf} {req : RegisterReq} {ε α : Type} {μ : Asker}

theorem harmless_ignored {o : Op} (hharmless : harmless o = true) :
    (Asker.mon guild role user).allows μ o ∧
      ∀ answer, (Asker.mon guild role user).next μ o answer = μ := by
  cases o with
  | store q => cases q <;> first | exact ⟨trivial, fun _ => rfl⟩ | cases hharmless
  | presence o => cases o <;> first | exact ⟨trivial, fun _ => rfl⟩ | cases hharmless
  | caches o => cases o <;> first | exact ⟨trivial, fun _ => rfl⟩ | cases hharmless
  | roleless o => cases o <;> first | exact ⟨trivial, fun _ => rfl⟩ | cases hharmless
  | signing o => cases o <;> first | exact ⟨trivial, fun _ => rfl⟩ | cases hharmless
  | _ => exact ⟨trivial, fun _ => rfl⟩

theorem harmless_conforms {inside : Op → Prop} {program : Prog sig ε α}
    (hprogram : program.Uses inside)
    (hinside : ∀ o, inside o → harmless o = true) :
    program.Conforms (Asker.mon guild role user) (returns fun μ' _ => μ' = μ) μ := by
  refine (hprogram.conforms fun o ho => harmless_ignored (hinside o ho)).mono
    fun μ' result hsame => ?_
  cases result with
  | ok _ => exact hsame
  | error _ => trivial

theorem label_harmless : ∀ o, LabelOp o → harmless o = true := by
  intro o h
  unfold LabelOp at h
  split at h <;> trivial

theorem identity_harmless : ∀ o, IdentityOp req user o → harmless o = true := by
  intro o h
  unfold IdentityOp at h
  split at h <;> trivial

theorem admission_harmless : ∀ o, AdmissionOp req o → harmless o = true := by
  intro o h
  unfold AdmissionOp at h
  split at h <;> trivial

theorem park_harmless : ∀ o, ParkOp o → harmless o = true := by
  intro o h
  unfold ParkOp at h
  split at h <;> trivial

theorem counter_harmless : ∀ o, CounterOp o → harmless o = true := by
  intro o h
  unfold CounterOp at h
  split at h <;> trivial

/-- The second half of a snapshot writes nothing about the member; the keys it keeps
are those of their guilds. -/
theorem answering_conforms {program : Prog sig ε α} (hprogram : program.Uses (AnswerOp req)) :
    program.Conforms (Asker.mon guild role user) (returns fun μ' _ => μ' = μ) μ := by
  refine (hprogram.conforms fun o ho => ?_).mono fun μ' result hsame => ?_
  · cases o with
    | signing o =>
        cases o with
        | keepKey g key => exact ⟨ho, fun _ => rfl⟩
        | _ => exact ⟨trivial, fun _ => rfl⟩
    | store q => cases q <;> first | exact ⟨trivial, fun _ => rfl⟩ | exact ho.elim
    | presence o => cases o <;> first | exact ⟨trivial, fun _ => rfl⟩ | exact ho.elim
    | caches o => exact ho.elim
    | roleless o => exact ho.elim
    | _ => exact ⟨trivial, fun _ => rfl⟩
  · cases result with
    | ok _ => exact hsame
    | error _ => trivial

/-! Lookups. -/

/-- What a lookup of the build may say: the member holds the role, and the personal
scope has no members. -/
def Sees (guild : GuildId) (role : RoleId) (user : UserId) (u : UserId) (g : GuildId)
    (member : Option MemberRoles) : Prop :=
  (g = guild → u = user → holdsRole member role = true) ∧
    (g = PERSONAL_SCOPE → member = none)

theorem fetched_sees (g : GuildId) (u : UserId) :
    (RoleSource.fetchMember g u : Prog sig ε _).Conforms (Asker.mon guild role user)
      (returns fun μ' member => μ' = μ ∧ (g = guild → u = user → holdsRole member role = true))
      μ := by
  simp only [RoleSource.fetchMember, conforms_act_bind]
  refine ⟨trivial, fun answer hexpected => ?_⟩
  cases answer with
  | found roles =>
      simp only [conforms_act_bind]
      exact ⟨hexpected, fun _ _ => ⟨rfl, hexpected⟩⟩
  | notFound =>
      simp only [conforms_act_bind]
      exact ⟨hexpected, fun _ _ => ⟨rfl, hexpected⟩⟩
  | failed => exact ⟨rfl, hexpected⟩

theorem member_sees (hreal : guild ≠ PERSONAL_SCOPE) (g : GuildId) (u : UserId) :
    (RoleSource.member g u : Prog sig ε _).Conforms (Asker.mon guild role user)
      (returns fun μ' member => μ' = μ ∧ Sees guild role user u g member) μ := by
  unfold RoleSource.member
  split
  · rename_i hpersonal
    refine ⟨rfl, fun hguild => ?_, fun _ => rfl⟩
    exact absurd (hguild.symm.trans hpersonal) hreal
  rename_i hscope
  have hsees : ∀ member, (g = guild → u = user → holdsRole member role = true) →
      Sees guild role user u g member :=
    fun member hmember => ⟨hmember, fun hpersonal => absurd hpersonal hscope⟩
  simp only [dedup, conforms_act_bind]
  refine ⟨trivial, fun hit hexpected => ?_⟩
  cases hit with
  | some member => exact ⟨rfl, hsees member hexpected⟩
  | none =>
      simp only [conforms_act_bind]
      refine ⟨trivial, fun gate _ => ⟨trivial, fun _ _ => ⟨trivial, fun again hagain => ?_⟩⟩⟩
      cases again with
      | some member =>
          simp only [pure_eq, ret_bind, conforms_act_bind, conforms_ret]
          exact ⟨trivial, fun _ _ => ⟨trivial, fun _ _ => ⟨trivial, fun _ _ =>
            ⟨rfl, hsees member hagain⟩⟩⟩⟩
      | none =>
          refine (fetched_sees g u).andThen fun μ' member hmember => ?_
          obtain ⟨rfl, hmember⟩ := hmember
          simp only [pure_eq, conforms_act_bind, conforms_ret]
          exact ⟨trivial, fun _ _ => ⟨trivial, fun _ _ => ⟨trivial, fun _ _ =>
            ⟨rfl, hsees member hmember⟩⟩⟩⟩

def Cached (guild : GuildId) (role : RoleId) (user caller : UserId) (cache : MemberCache) :
    Prop :=
  ∀ g member, cache.lookup g = some member → Sees guild role user caller g member

variable {caller : UserId} {cache : MemberCache}

theorem cached_nil : Cached guild role user caller [] := by
  intro g member hmember
  cases hmember

theorem lookupMember_sees (hreal : guild ≠ PERSONAL_SCOPE) (g : GuildId)
    (hcached : Cached guild role user caller cache) :
    (lookupMember cache g caller).Conforms (Asker.mon guild role user)
      (returns fun μ' looked => μ' = μ ∧ Cached guild role user caller looked.2 ∧
        Sees guild role user caller g looked.1) μ := by
  unfold lookupMember
  split
  · rename_i member hmember
    exact ⟨rfl, hcached, hcached g member hmember⟩
  · refine (member_sees hreal g caller).andThen fun μ' member hsees => ?_
    obtain ⟨rfl, hsees⟩ := hsees
    refine ⟨rfl, fun g' member' hlookup => ?_, hsees⟩
    rw [List.lookup_cons] at hlookup
    by_cases hsame : g' = g
    · subst hsame
      rw [beq_self_eq_true, Option.some.injEq] at hlookup
      exact hlookup ▸ hsees
    · rw [beq_false_of_ne hsame] at hlookup
      exact hcached g' member' hlookup

theorem holdsAnyNetworkRole_sees (hreal : guild ≠ PERSONAL_SCOPE) (networks : List Network)
    (hcached : Cached guild role user caller cache) :
    (holdsAnyNetworkRole caller networks cache).Conforms (Asker.mon guild role user)
      (returns fun μ' held => μ' = μ ∧ Cached guild role user caller held.2) μ := by
  induction networks generalizing cache with
  | nil => exact ⟨rfl, hcached⟩
  | cons net rest ih =>
      unfold holdsAnyNetworkRole
      refine (lookupMember_sees hreal net.guildId hcached).andThen fun μ' looked hlooked => ?_
      obtain ⟨rfl, hcached', _⟩ := hlooked
      dsimp only
      split
      · exact ⟨rfl, hcached'⟩
      · exact ih hcached'

theorem resolveDevice_sees (hreal : guild ≠ PERSONAL_SCOPE) (networks : List Network)
    (hcached : Cached guild role user caller cache) :
    (resolveDevice conf req caller networks cache).Conforms (Asker.mon guild role user)
      (returns fun μ' resolved => μ' = μ ∧ Cached guild role user caller resolved.2) μ := by
  unfold resolveDevice
  refine (holdsAnyNetworkRole_sees hreal networks hcached).andThen fun μ' held hheld => ?_
  obtain ⟨rfl, hcached'⟩ := hheld
  dsimp only
  split
  · exact ⟨rfl, hcached'⟩
  · refine (harmless_conforms ((allocateDevice_uses conf _ _).mapError _)
      identity_harmless).andThen fun μ₁ allocated hsame => ?_
    subst hsame
    have hensure : (sql (.ensurePrimary caller req.wgPubkey)).Uses (IdentityOp req caller) := by
      simp [IdentityOp]
    refine (harmless_conforms (hensure.mapError _) identity_harmless).andThen
      fun μ₂ _ hsame => ?_
    subst hsame
    have hprimary : (sql (.primaryPubkey caller)).Uses (IdentityOp req caller) := by
      simp [IdentityOp]
    refine (harmless_conforms (hprimary.mapError _) identity_harmless).andThen
      fun μ₃ _ hsame => ?_
    subst hsame
    exact ⟨rfl, hcached'⟩

/-! Evictions. -/

theorem evictFrom_conforms (pubkey : PubKey) (networks : List (GuildId × RoleId))
    (changed : List Scope)
    (howed : (guild, role) ∈ networks → μ.caller = some user →
      ∀ req, μ.req = some req → pubkey = req.wgPubkey → withdrawn guild role req = true) :
    (evictFrom pubkey networks changed).Conforms (Asker.mon guild role user)
      (returns fun μ' _ => μ' = μ) μ := by
  induction networks generalizing changed with
  | nil => rfl
  | cons network rest ih =>
      obtain ⟨g, r⟩ := network
      simp only [evictFrom, conforms_act_bind]
      refine ⟨?_, fun removed _ => ih _ fun hmem => howed (by simp [hmem])⟩
      rintro rfl rfl hcaller
      exact howed (by simp) hcaller

theorem retireSuperseded_harmless (changed : List Scope) (hreq : μ.req = some req) :
    (retireSuperseded req caller changed).Conforms (Asker.mon guild role user)
      (returns fun μ' _ => μ' = μ) μ := by
  unfold retireSuperseded
  split
  · rfl
  · have hfind : ∀ token, (sql (.deviceByToken token)).Uses fun o => harmless o = true := by
      intro token
      simp [harmless]
    refine (harmless_conforms ((hfind _).mapError _) fun _ h => h).andThen
      fun μ' found hsame => ?_
    subst hsame
    cases found with
    | none => rfl
    | some old =>
        dsimp only
        split
        · rename_i hsupersede
          have hother : old.2 ≠ req.wgPubkey := by
            simp only [shouldSupersede, Bool.and_eq_true, bne_iff_ne] at hsupersede
            exact hsupersede.2
          have hremoval : ∀ o, StoreOp (RemovalQuery caller old.2) o → harmless o = true := by
            refine StoreOp.mono fun q hremoval => ?_
            cases q <;> first | rfl | exact hremoval.elim
          refine (harmless_conforms ((removeDevice_uses _ _).mapError _) hremoval).andThen
            fun μ₁ _ hsame => ?_
          subst hsame
          rw [conforms_act_bind]
          refine ⟨trivial, fun networks _ => ?_⟩
          refine (evictFrom_conforms old.2 networks changed ?_).andThen fun μ₂ _ hsame => ?_
          · intro _ _ req' hreq' hpubkey
            have hasked : req = req' := Option.some.inj (hreq.symm.trans hreq')
            exact absurd (hasked ▸ hpubkey) hother
          subst hsame
          rw [conforms_act_bind]
          exact ⟨trivial, fun removed _ => rfl⟩
        · rfl

/-! The walk. -/

structure Listed (guild : GuildId) (role : RoleId) (user caller : UserId) (req : RegisterReq)
    (done : List Network) (walk : Walk) : Prop where
  cache : Cached guild role user caller walk.cache
  real : ∀ network ∈ walk.m.status, network.guildId ≠ PERSONAL_SCOPE
  listed : caller = user → ∀ net ∈ done, net.guildId = guild → net.roleId = role →
    walk.m.status ≠ [] ∧ (optedOut req net = false → (guild, role) ∈ walk.m.held)

theorem Listed.skip {done : List Network} {walk : Walk} {net : Network}
    (hlisted : Listed guild role user caller req done walk)
    (hother : caller = user → ¬ (net.guildId = guild ∧ net.roleId = role)) :
    Listed guild role user caller req (done ++ [net]) walk where
  cache := hlisted.cache
  real := hlisted.real
  listed := by
    intro hcaller net' hmem hguild hrole
    rcases List.mem_append.mp hmem with hmem | hmem
    · exact hlisted.listed hcaller net' hmem hguild hrole
    · cases List.mem_singleton.mp hmem
      exact absurd ⟨hguild, hrole⟩ (hother hcaller)

theorem recordPresence_harmless (device : Device) (now : Nat) (net : Network) (walk : Walk) :
    (recordPresence req caller device now net walk).Conforms (Asker.mon guild role user)
      (returns fun μ' walk' => μ' = μ ∧ walk'.cache = walk.cache ∧ walk'.m = walk.m) μ := by
  unfold recordPresence
  split
  · exact ⟨rfl, rfl, rfl⟩
  · rw [conforms_act_bind]
    refine ⟨trivial, fun recorded _ => ?_⟩
    cases recorded <;> exact ⟨rfl, rfl, rfl⟩

theorem walkHeld_lists {done : List Network} {walk : Walk} (device : Device) (now : Nat)
    (net : Network) (member : MemberRoles) (hreal : net.guildId ≠ PERSONAL_SCOPE)
    (hlisted : Listed guild role user caller req done walk) :
    (walkHeld req caller device now net member walk).Conforms (Asker.mon guild role user)
      (returns fun μ' walk' => μ' = μ ∧
        Listed guild role user caller req (done ++ [net]) walk') μ := by
  unfold walkHeld
  refine (harmless_conforms ((walkCommunity_uses _ _).mono name_label) label_harmless).andThen
    fun μ₁ labelled hsame => ?_
  subst hsame
  refine (harmless_conforms ((roleName_uses _ _).mono name_label) label_harmless).andThen
    fun μ₂ name hsame => ?_
  subst hsame
  refine (harmless_conforms (walkUsername_uses _ _ _) label_harmless).andThen
    fun μ₃ username hsame => ?_
  subst hsame
  dsimp only
  split
  · refine (recordPresence_harmless device now net _).andThen fun μ₄ walk' hwalk => ?_
    obtain ⟨rfl, hcache, hm⟩ := hwalk
    refine ⟨rfl, ?_, ?_, ?_⟩
    · simpa [Walk.hold, hcache, Walk.enable, Walk.list] using hlisted.cache
    · intro network hnetwork
      simp only [Walk.hold, hm, Walk.enable, Walk.list, List.mem_append,
        List.mem_singleton] at hnetwork
      rcases hnetwork with hnetwork | rfl
      · exact hlisted.real network hnetwork
      · exact hreal
    · intro hcaller net' hmem hguild hrole
      simp only [Walk.hold, hm, Walk.enable, Walk.list]
      refine ⟨by simp, fun hopted => ?_⟩
      rcases List.mem_append.mp hmem with hmem | hmem
      · exact List.mem_append_left _ ((hlisted.listed hcaller net' hmem hguild hrole).2 hopted)
      · cases List.mem_singleton.mp hmem
        simp [hguild, hrole]
  · rename_i hopted
    refine ⟨rfl, ?_, ?_, ?_⟩
    · simpa [Walk.list] using hlisted.cache
    · intro network hnetwork
      simp only [Walk.list, List.mem_append, List.mem_singleton] at hnetwork
      rcases hnetwork with hnetwork | rfl
      · exact hlisted.real network hnetwork
      · exact hreal
    · intro hcaller net' hmem hguild hrole
      simp only [Walk.list]
      refine ⟨by simp, fun hjoined => ?_⟩
      rcases List.mem_append.mp hmem with hmem | hmem
      · exact (hlisted.listed hcaller net' hmem hguild hrole).2 hjoined
      · cases List.mem_singleton.mp hmem
        simp [hjoined] at hopted

theorem walkNetwork_lists (hreal : guild ≠ PERSONAL_SCOPE) {done : List Network} {walk : Walk}
    (device : Device) (now : Nat) (net : Network)
    (hlisted : Listed guild role user caller req done walk) :
    (walkNetwork req caller device now walk net).Conforms (Asker.mon guild role user)
      (returns fun μ' walk' => μ' = μ ∧
        Listed guild role user caller req (done ++ [net]) walk') μ := by
  unfold walkNetwork
  refine (lookupMember_sees hreal net.guildId hlisted.cache).andThen fun μ' looked hlooked => ?_
  obtain ⟨rfl, hcached, hsees⟩ := hlooked
  have hlisted' : Listed guild role user caller req done { walk with cache := looked.2 } :=
    ⟨hcached, hlisted.real, hlisted.listed⟩
  obtain ⟨member, cache⟩ := looked
  cases member with
  | none =>
      refine ⟨rfl, hlisted'.skip fun hcaller hsame => ?_⟩
      have hholds := hsees.1 hsame.1 hcaller
      cases hholds
  | some roles =>
      have hscope : net.guildId ≠ PERSONAL_SCOPE := by
        intro hpersonal
        cases hsees.2 hpersonal
      dsimp only
      split
      · exact walkHeld_lists device now net roles hscope hlisted'
      · rename_i hlacks
        refine ⟨rfl, hlisted'.skip fun hcaller hsame => hlacks ?_⟩
        have hholds := hsees.1 hsame.1 hcaller
        simpa [holdsRole, hsame.2] using hholds

structure Kept (m : Membership) : Prop where
  listed : m.status ≠ []
  real : ∀ network ∈ m.status, network.guildId ≠ PERSONAL_SCOPE
  shared : m.personal = false

theorem resolveMembership_keeps (hreal : guild ≠ PERSONAL_SCOPE) (networks : List Network)
    (device : Device) (now : Nat) (changed : List Scope) (hreq : μ.req = some req)
    (hcaller : μ.caller = some caller) (hcached : Cached guild role user caller cache)
    (hnetwork : caller = user → ∃ net ∈ networks, net.guildId = guild ∧ net.roleId = role) :
    (resolveMembership req caller networks device cache now changed).Conforms
      (Asker.mon guild role user)
      (returns fun μ' membership => μ' = μ ∧ (caller = user → Kept membership.1)) μ := by
  unfold resolveMembership
  refine Conforms.through (fun μ' walk => μ' = μ ∧
    Listed guild role user caller req networks walk) ?_ ?_
  · refine Conforms.foldlM_done [] networks _
      (fun done μ' walk => μ' = μ ∧ Listed guild role user caller req done walk)
      (fun done μ' walk net _ hround => ?_) ⟨rfl, hcached, ?_, ?_⟩
    · obtain ⟨rfl, hlisted⟩ := hround
      exact walkNetwork_lists hreal device now net hlisted
    · intro network hnetwork
      cases hnetwork
    · intro _ net hmem
      cases hmem
  rintro μ' walk ⟨rfl, hlisted⟩
  have hkept : caller = user → Kept { walk.m with
      personal := walk.m.status.isEmpty && wantsPersonalScope req } := by
    intro huser
    obtain ⟨net, hmem, hguild, hrole⟩ := hnetwork huser
    have hstatus := (hlisted.listed huser net hmem hguild hrole).1
    refine ⟨hstatus, hlisted.real, ?_⟩
    simp [hstatus]
  rw [conforms_act_bind]
  refine ⟨trivial, fun recorded _ => ?_⟩
  refine (evictFrom_conforms req.wgPubkey _ _ ?_).andThen fun μ₁ changed hsame => ?_
  · intro hevicted huser req' hreq' _
    have hasked : req = req' := Option.some.inj (hreq.symm.trans hreq')
    have hsame : caller = user := Option.some.inj (hcaller.symm.trans huser)
    subst hasked
    obtain ⟨net, hmem, hguild, hrole⟩ := hnetwork hsame
    have hheld := (hlisted.listed hsame net hmem hguild hrole).2
    rw [List.mem_filter] at hevicted
    by_cases hopted : optedOut req net = true
    · rw [optedOut, hguild, hrole] at hopted
      rw [withdrawn, hopted, Bool.or_true]
    · have hjoined := hheld (by simpa using hopted)
      have hpaused : req.paused = true := by simpa [hjoined] using hevicted.2
      simp [withdrawn, hpaused]
  subst hsame
  dsimp only
  split
  · rename_i hpersonal
    have hnot : caller ≠ user := by
      intro huser
      exact Bool.false_ne_true ((hkept huser).shared.symm.trans hpersonal)
    have hhandle : (sql (.userHandle caller)).Uses LabelOp := by
      simp [LabelOp]
    refine (harmless_conforms (hhandle.mapError _) label_harmless).andThen
      fun μ₂ handle hsame => ?_
    subst hsame
    cases handle with
    | none => exact ⟨rfl, hkept⟩
    | some handle =>
        refine (harmless_conforms (userLabel_uses _ _) label_harmless).andThen
          fun μ₃ label hsame => ?_
        subst hsame
        exact ⟨rfl, fun huser => absurd huser hnot⟩
  · exact ⟨rfl, hkept⟩

theorem settle_keeps (hreal : guild ≠ PERSONAL_SCOPE) (callerIp : IpAddr)
    (hreq : μ.req = some req) :
    (settle conf req callerIp caller).Conforms (Asker.mon guild role user)
      (returns fun μ' settled => μ'.req = some req ∧ μ'.caller = some caller ∧
        (caller = user → Kept settled.m)) μ := by
  unfold settle
  simp only [conforms_act_bind]
  refine ⟨trivial, fun _ _ => ⟨trivial, fun now _ => ?_⟩⟩
  refine Conforms.through (fun μ' nets => μ' = μ ∧
    ∃ net ∈ nets, net.guildId = guild ∧ net.roleId = role) ?_ ?_
  · refine Conforms.mapError_returns ?_
    rw [conforms_sql]
    refine ⟨trivial, fun answer hexpected => ?_⟩
    cases answer with
    | ok nets => exact ⟨rfl, hexpected⟩
    | error error => trivial
  rintro μ₁ allNetworks ⟨rfl, hnetwork⟩
  simp only [conforms_act_bind]
  refine ⟨trivial, fun memo hmemo => ?_⟩
  have hwalked : caller = user → ∃ net ∈ (if !memo then allNetworks else []),
      net.guildId = guild ∧ net.roleId = role := by
    intro huser
    have hfresh : memo = false := hmemo huser
    simpa [hfresh] using hnetwork
  -- from here on the monitor knows who is calling
  generalize hknown : (Asker.mon guild role user).next μ₁ (.roleless (.fresh caller)) memo = μ₂
  have hasked : μ₂.req = some req ∧ μ₂.caller = some caller := by
    rw [← hknown]
    exact ⟨hreq, rfl⟩
  obtain ⟨hreq₂, hcaller₂⟩ := hasked
  refine (resolveDevice_sees hreal _ cached_nil).andThen fun μ₃ resolved hresolved => ?_
  obtain ⟨rfl, hcached⟩ := hresolved
  refine (retireSuperseded_harmless [] hreq₂).andThen fun μ₃ changed hsame => ?_
  subst hsame
  refine (resolveMembership_keeps hreal _ _ _ _ hreq₂ hcaller₂ hcached hwalked).andThen
    fun μ₄ membership hkept => ?_
  obtain ⟨rfl, hkept⟩ := hkept
  refine Conforms.through (fun μ' _ => μ'.req = some req ∧ μ'.caller = some caller) ?_ ?_
  · unfold rememberRoleless
    split
    · rename_i hempty
      refine ⟨?_, fun _ _ => ⟨hreq₂, hcaller₂⟩⟩
      intro huser
      simp [(hkept huser).listed] at hempty
    · exact ⟨hreq₂, hcaller₂⟩
  rintro μ₅ _ ⟨hreq₅, hcaller₅⟩
  refine Conforms.through (fun μ' _ => μ'.req = some req ∧ μ'.caller = some caller) ?_ ?_
  · unfold touchIdentity
    split
    · refine Conforms.mapError_returns ?_
      simp only [Store.touchDevice, conforms_act_bind]
      refine ⟨trivial, fun now _ => (conforms_sql (.touchDevice ..) _).mpr ⟨?_, fun answer _ => ?_⟩⟩
      · intro huser
        have hsame : caller = user := Option.some.inj (hcaller₅.symm.trans huser)
        exact (hkept hsame).shared
      · cases answer with
        | ok _ => exact ⟨hreq₅, hcaller₅⟩
        | error _ => trivial
    · exact ⟨hreq₅, hcaller₅⟩
  rintro μ₆ _ ⟨hreq₆, hcaller₆⟩
  unfold recordOwnDevice announceSelf
  refine Conforms.through (fun μ' _ => μ'.req = some req ∧ μ'.caller = some caller) ?_ ?_
  · split
    · exact ⟨trivial, fun recorded _ => ⟨hreq₆, hcaller₆⟩⟩
    · exact ⟨trivial, fun removed _ => ⟨hreq₆, hcaller₆⟩⟩
  · rintro μ₇ _ ⟨hreq₇, hcaller₇⟩
    exact ⟨hreq₇, hcaller₇, hkept⟩

/-! The grant. -/

theorem withLock_keeps {name : LockName} {body : Stored α} {value : Asker → α → Prop}
    (hbody : body.Conforms (Asker.mon guild role user) (returns value) μ) :
    (withLock name body).Conforms (Asker.mon guild role user) (returns value) μ :=
  withLock_conforms (fun _ _ => ⟨trivial, fun _ => rfl⟩) hbody

theorem guildKeys_get_signs (g : GuildId) :
    (GuildKeys.get conf g).Conforms (Asker.mon guild role user)
      (returns fun μ' key => μ' = μ ∧ key.signer.guildId = g) μ := by
  unfold GuildKeys.get
  refine withLock_keeps ?_
  rw [conforms_act_bind]
  refine ⟨trivial, fun cached hcached => ?_⟩
  cases cached with
  | some key => exact ⟨rfl, hcached⟩
  | none =>
      refine (answering_conforms ((@loadOrCreateSeed_uses { wgPubkey := 0 } g).mono (plain_answer _))).andThen
        fun μ₁ seed hsame => ?_
      subst hsame
      rw [conforms_sql_bind]
      refine ⟨trivial, fun answer _ => ?_⟩
      cases answer with
      | ok rotationChain => exact ⟨rfl, fun _ _ => ⟨rfl, rfl⟩⟩
      | error error => trivial

theorem signWith_scope (signer : Signer) (id : AttIdentity) (schema : Nat) :
    (signWith signer id schema).Conforms (Asker.mon guild role user)
      (returns fun μ' blob => μ' = μ ∧
        blob.payload.attestation.guildId = signer.guildId) μ := by
  simp only [signWith, conforms_act_bind]
  refine ⟨trivial, fun now _ => ?_⟩
  split
  · rename_i blob hsigned
    refine ⟨rfl, ?_⟩
    unfold signAttestation at hsigned
    split at hsigned
    · cases hsigned
      rfl
    · cases hsigned
  · trivial

theorem grantAttestations_scopes (id : AttIdentity) (m : Membership) (attSchema : Nat)
    (guilds : List GuildId) (hreal : ∀ g ∈ guilds, g ≠ PERSONAL_SCOPE) :
    (grantAttestations conf id m attSchema guilds).Conforms (Asker.mon guild role user)
      (returns fun μ' atts => μ' = μ ∧ ∀ att ∈ atts,
        att.attestation.payload.attestation.guildId ≠ PERSONAL_SCOPE) μ := by
  induction guilds with
  | nil => exact ⟨rfl, fun att hatt => by cases hatt⟩
  | cons g rest ih =>
      unfold grantAttestations
      refine (guildKeys_get_signs g).mapError_returns.andThen fun μ₁ key hkey => ?_
      obtain ⟨rfl, hkey⟩ := hkey
      refine (signWith_scope _ _ _).mapError_returns.andThen fun μ₂ blob hblob => ?_
      obtain ⟨rfl, hblob⟩ := hblob
      refine (ih fun g' hg' => hreal g' (by simp [hg'])).andThen fun μ₃ atts hatts => ?_
      obtain ⟨rfl, hatts⟩ := hatts
      refine ⟨rfl, fun att hatt => ?_⟩
      rcases List.mem_cons.mp hatt with rfl | hatt
      · rw [hblob, hkey]
        exact hreal g (by simp)
      · exact hatts att hatt

theorem guilds_real {m : Membership} (hkept : Kept m) : ∀ g ∈ m.guilds, g ≠ PERSONAL_SCOPE := by
  have hrows : ∀ rows : List NetworkStatus,
      (∀ network ∈ rows, network.guildId ≠ PERSONAL_SCOPE) →
      ∀ g ∈ rows.foldr (fun network guilds => insertGuild network.guildId guilds) [],
        g ≠ PERSONAL_SCOPE := by
    intro rows hreal g hmem
    induction rows with
    | nil => cases hmem
    | cons row rest ih =>
        rcases mem_insertGuild.mp hmem with rfl | hmem
        · exact hreal row (by simp)
        · exact ih (fun network hnetwork => hreal network (by simp [hnetwork])) hmem
  unfold Membership.guilds
  rw [hkept.shared]
  exact hrows m.status hkept.real

theorem buildGrant_shared (device : Device) (m : Membership) (attSchema : Nat) :
    (buildGrant conf req caller device m attSchema).Conforms (Asker.mon guild role user)
      (returns fun μ' grant => μ' = μ ∧
        (Kept m → ∀ resp : RegisterResp, resp.grant = grant → rolelessAnswer resp = false))
      μ := by
  by_cases hkept : Kept m
  · have hidentity : m.hasIdentity = true := by
      simp [Membership.hasIdentity, hkept.listed]
    unfold buildGrant
    rw [if_pos hidentity]
    refine (grantAttestations_scopes _ m attSchema _ (guilds_real hkept)).andThen
      fun μ' atts hatts => ?_
    obtain ⟨rfl, hatts⟩ := hatts
    refine ⟨rfl, fun _ resp hgrant => ?_⟩
    simpa [rolelessAnswer, hgrant] using hatts
  · refine (answering_conforms ((buildGrant_uses conf _ _ _ _).mono (plain_answer _))).returns_mono
      fun μ' grant hsame => ⟨hsame, fun h => absurd h hkept⟩

theorem answer_shared (alreadyEnrolled : Bool) (settled : Settled)
    (hkept : caller = user → Kept settled.m) :
    (answer conf req caller alreadyEnrolled settled).Conforms (Asker.mon guild role user)
      (returns fun μ' built => μ' = μ ∧ (caller = user → rolelessAnswer built.resp = false))
      μ := by
  unfold answer
  refine (buildGrant_shared _ _ _).andThen fun μ₁ grant hgrant => ?_
  obtain ⟨rfl, hgrant⟩ := hgrant
  refine (answering_conforms (buildSeeds_uses conf _ _ _ _ _)).andThen
    fun μ₂ seeds hsame => ?_
  subst hsame
  refine (answering_conforms ((deliverToken_uses _).mono (plain_answer _))).andThen
    fun μ₃ deviceToken hsame => ?_
  subst hsame
  refine (answering_conforms ((@bumpAll_uses req _ _).mono (plain_answer _))).andThen
    fun μ₄ _ hsame => ?_
  subst hsame
  refine (answering_conforms ((@wakeAll_uses req _ _).mono (plain_answer _))).andThen
    fun μ₅ _ hsame => ?_
  subst hsame
  refine (harmless_conforms (aggregate_uses conf _) counter_harmless).andThen
    fun μ₆ version hsame => ?_
  subst hsame
  refine (answering_conforms ((@buildAnchors_uses conf req _).mono (plain_answer _))).andThen
    fun μ₇ anchors hsame => ?_
  subst hsame
  refine (answering_conforms ((@signRelease_uses conf req _).mono (plain_answer _))).andThen
    fun μ₈ release hsame => ?_
  subst hsame
  exact ⟨rfl, fun huser => hgrant (hkept huser) _ rfl⟩

def Answered (user : UserId) (req : RegisterReq) (μ : Asker) (resp : RegisterResp) : Prop :=
  μ.req = some req ∧ (μ.caller = some user → rolelessAnswer resp = false)

theorem buildSnapshot_shared (hreal : guild ≠ PERSONAL_SCOPE) (callerIp : IpAddr)
    (hreq : μ.req = some req) :
    (buildSnapshot conf req callerIp).Conforms (Asker.mon guild role user)
      (returns fun μ' built => Answered user req μ' built.resp) μ := by
  unfold buildSnapshot validatePeerReports
  split
  · trivial
  · refine (harmless_conforms (resolveUser_uses conf) admission_harmless).andThen
      fun μ₁ caller hsame => ?_
    subst hsame
    refine (settle_keeps hreal callerIp hreq).andThen fun μ₂ settled hsettled => ?_
    obtain ⟨hreq₂, hcaller₂, hkept⟩ := hsettled
    refine (answer_shared _ settled hkept).returns_mono fun μ₃ built hbuilt => ?_
    obtain ⟨rfl, hshared⟩ := hbuilt
    exact ⟨hreq₂, fun huser => hshared (Option.some.inj (hcaller₂.symm.trans huser))⟩

theorem register_shared (hreal : guild ≠ PERSONAL_SCOPE) (callerIp : IpAddr)
    (hreq : μ.req = some req) :
    (register conf req callerIp).Conforms (Asker.mon guild role user)
      (returns fun μ' resp => Answered user req μ' resp) μ := by
  unfold register negotiate
  split
  · rw [pure_eq, ret_bind, conforms_act_bind]
    refine ⟨trivial, fun woken _ => ?_⟩
    refine Conforms.through (fun μ' built => Answered user req μ' built.resp)
      (buildSnapshot_shared hreal callerIp hreq) fun μ₁ built hbuilt => ?_
    split
    · unfold hold
      rw [conforms_act_bind]
      refine ⟨trivial, fun acquired _ => ?_⟩
      split
      · refine (harmless_conforms (waitPark_uses conf _ _) park_harmless).andThen
          fun μ₂ woke hsame => ?_
        subst hsame
        split
        · rw [conforms_act_bind]
          refine ⟨trivial, fun _ _ => ?_⟩
          exact (buildSnapshot_shared hreal callerIp hbuilt.1).andThen fun _ _ h => h
        · exact (buildSnapshot_shared hreal callerIp hbuilt.1).andThen fun _ _ h => h
      · trivial
    · exact hbuilt
  · trivial

theorem side_harmless {program : Prog sig ε α} (hprogram : program.Uses SideOp)
    (hreq : μ.req = none) :
    program.Conforms (Asker.mon guild role user) (fun μ' _ => μ' = μ) μ := by
  refine hprogram.conforms fun o ho => ?_
  cases o with
  | presence p =>
      cases p with
      | evict g r pubkey =>
          refine ⟨?_, fun _ => rfl⟩
          intro _ _ _ req' hreq'
          rw [hreq] at hreq'
          cases hreq'
      | _ => exact ⟨trivial, fun _ => rfl⟩
  | store q => cases q <;> first | exact ⟨trivial, fun _ => rfl⟩ | exact ho.elim
  | caches c => cases c <;> first | exact ⟨trivial, fun _ => rfl⟩ | exact ho.elim
  | roleless r => cases r <;> first | exact ⟨trivial, fun _ => rfl⟩ | exact ho.elim
  | signing o => exact ho.elim
  | _ => exact ⟨trivial, fun _ => rfl⟩

end

def askerOf (call : Call) : Asker :=
  { req := requestOf call }

def memberPost (μ : Asker) : Except ApiError Reply → Prop
  | .ok (.registered resp) => μ.caller = some user → rolelessAnswer resp = false
  | _ => True

theorem handle_shared (hreal : guild ≠ PERSONAL_SCOPE) (call : Call) :
    (handle conf call).Conforms (Asker.mon guild role user) (memberPost user)
      (askerOf call) := by
  have hside : ∀ call, (∀ o, CallOp call o → SideOp o) → requestOf call = none →
      (handle conf call).Conforms (Asker.mon guild role user) (memberPost user)
        (askerOf call) := by
    intro call hinside hreq
    refine (side_harmless ((handle_uses conf call).mono hinside) hreq).mono
      fun μ result hsame => ?_
    rw [hsame, askerOf, hreq]
    unfold memberPost
    split
    · intro hcaller
      cases hcaller
    · trivial
  cases call with
  | register req callerIp =>
      have hregister : (register conf req callerIp).Conforms (Asker.mon guild role user)
          _ (askerOf (.register req callerIp)) := register_shared hreal callerIp rfl
      refine (hregister.andThen fun μ resp hanswered => ?_ :
        (handle conf (.register req callerIp)).Conforms (Asker.mon guild role user)
          (returns fun μ' reply => memberPost user μ' (.ok reply)) _).mono fun μ result h => ?_
      · exact hanswered.2
      · cases result with
        | ok reply => exact h
        | error error => trivial
  | _ => exact hside _ (fun _ h => h) rfl

/-! The invariant. -/

structure MemberInv (o : Outcome) (st : AppState) (views : Nat → Option (Call × Asker)) :
    Prop where
  settled : SettledMember guild role user st
  unharmed : o.unharmed = true
  req : ∀ task call μ, views task = some (call, μ) → μ.req = o.req task
  caller : ∀ task call μ, views task = some (call, μ) → μ.caller = o.caller task

section

variable {conf} {guild} {role} {user} {o : Outcome} {st st' : AppState}
  {views : Nat → Option (Call × Asker)} {task : Nat} {call : Call} {μ : Asker}

theorem unharmed_iff : o.unharmed = true ↔
    o.evicted = false ∧ o.roleless = false ∧ o.reclaimable = false ∧ o.remembered = false := by
  simp [Outcome.unharmed, and_assoc]

theorem MemberInv.of_step {o' : Outcome} (hinv : MemberInv guild role user o st views)
    (hview : views task = some (call, μ)) (hsettled : SettledMember guild role user st')
    (hreq : o'.req = o.req) (hcaller : o'.caller = o.caller) (hunharmed : o'.unharmed = true) :
    MemberInv guild role user o' st' (Function.update views task (some (call, μ))) where
  settled := hsettled
  unharmed := hunharmed
  req := by
    intro other call' μ' hother
    rw [hreq]
    rcases Machine.update_some_cases hother with ⟨rfl, heq⟩ | ⟨_, hother⟩
    · obtain ⟨rfl, rfl⟩ := Prod.mk.inj heq
      exact hinv.req _ _ _ hview
    · exact hinv.req other call' μ' hother
  caller := by
    intro other call' μ' hother
    rw [hcaller]
    rcases Machine.update_some_cases hother with ⟨rfl, heq⟩ | ⟨_, hother⟩
    · obtain ⟨rfl, rfl⟩ := Prod.mk.inj heq
      exact hinv.caller _ _ _ hview
    · exact hinv.caller other call' μ' hother

theorem SettledMember.of_frame {op : Op} (hsettled : SettledMember guild role user st)
    (hframe : AppState.Frame op st st')
    (hnetwork : ∀ q, op = .store q → (st'.db.networks.get? (guild, role)).isSome = true)
    (hcache : ∀ c, op = .caches c → ∀ entry,
      st'.caches.members.get? (guild, user) = some entry → holdsRole entry.roles role = true)
    (hmemo : ∀ r, op = .roleless r → st'.roleless.seen.get? user = none)
    (hkeys : ∀ s, op = .signing s → ∀ g key, st'.signing.keys.get? g = some key →
      key.signer.guildId = g) :
    SettledMember guild role user st' where
  realGuild := hsettled.realGuild
  network := by
    by_cases hop : ∃ q, op = .store q
    · exact hop.elim hnetwork
    · rw [hframe.db fun q h => hop ⟨q, h⟩]
      exact hsettled.network
  holds := by
    rw [hframe.discord]
    exact hsettled.holds
  cache := by
    by_cases hop : ∃ c, op = .caches c
    · exact hop.elim hcache
    · rw [hframe.caches fun c h => hop ⟨c, h⟩]
      exact hsettled.cache
  memo := by
    by_cases hop : ∃ r, op = .roleless r
    · exact hop.elim hmemo
    · rw [hframe.roleless fun r h => hop ⟨r, h⟩]
      exact hsettled.memo
  keys := by
    by_cases hop : ∃ s, op = .signing s
    · exact hop.elim hkeys
    · rw [hframe.signing fun s h => hop ⟨s, h⟩]
      exact hsettled.keys

def remembers : Op → Bool
  | .store _ => true
  | .caches _ => true
  | .roleless _ => true
  | .signing _ => true
  | _ => false

theorem SettledMember.of_other {op : Op} (hsettled : SettledMember guild role user st)
    (hframe : AppState.Frame op st st') (hother : remembers op = false) :
    SettledMember guild role user st' := by
  refine hsettled.of_frame hframe ?_ ?_ ?_ ?_
  all_goals
    rintro _ rfl
    cases hother

variable {choice : Choice}

theorem MemberInv.did_store {q : Query} {answer : Except StoreError q.Res}
    (hinv : MemberInv guild role user o st views) (hview : views task = some (call, μ))
    (hallows : Asker.allows guild role user μ (.store q))
    (hexec : AppState.exec conf task (.store q) choice st = some (answer, st'))
    (hkept : rolesKept guild role user conf (.did task (.store q) answer) = true) :
    Asker.expects guild role user μ (.store q) answer ∧
      MemberInv guild role user
        ((outcomes guild role user conf).see o st (.did task (.store q) answer) st') st'
        (Function.update views task (some (call, μ))) := by
  have hstep := AppState.exec_store hexec
  have hstays : (st'.db.networks.get? (guild, role)).isSome = true := by
    cases answer with
    | error error =>
        rw [Database.step_error hstep]
        exact hinv.settled.network
    | ok answer =>
        rcases Database.run_network (Database.step_ok hstep).2 hinv.settled.network with
          hstays | rfl
        · exact hstays
        · simp [rolesKept] at hkept
  have hsettled : SettledMember guild role user st' :=
    hinv.settled.of_frame (AppState.exec_frame hexec) (fun _ _ => hstays) nofun nofun nofun
  constructor
  · cases q with
    | allNetworks =>
        cases answer with
        | error error => trivial
        | ok nets =>
            obtain ⟨_, hrun⟩ := Database.step_ok hstep
            obtain ⟨rfl, _⟩ := Prod.mk.inj (Except.ok.inj hrun)
            obtain ⟨name, hname⟩ := Option.isSome_iff_exists.mp hinv.settled.network
            refine ⟨⟨guild, role, name⟩, ?_, rfl, rfl⟩
            exact List.mem_map.mpr ⟨_, Table.mem_rows.mpr hname, rfl⟩
    | _ => trivial
  · cases answer with
    | error error => exact hinv.of_step hview hsettled rfl rfl hinv.unharmed
    | ok answer =>
        cases q with
        | touchDevice pubkey now personal =>
            obtain ⟨hevicted, hroleless, hreclaimable, hremembered⟩ :=
              unharmed_iff.mp hinv.unharmed
            have hpersonal : (personal && o.caller task == some user) = false := by
              cases personal with
              | false => rfl
              | true =>
                  have hother : o.caller task ≠ some user := by
                    intro hcaller
                    cases hallows ((hinv.caller _ _ _ hview).trans hcaller)
                  simpa using hother
            refine hinv.of_step hview hsettled rfl rfl ?_
            rw [unharmed_iff]
            refine ⟨hevicted, hroleless, ?_, hremembered⟩
            show (o.reclaimable || personal && o.caller task == some user) = false
            rw [hreclaimable, hpersonal, Bool.or_false]
        | _ => exact hinv.of_step hview hsettled rfl rfl hinv.unharmed

theorem MemberInv.did_presence {p : Presence.Op} {answer : p.Res}
    (hinv : MemberInv guild role user o st views) (hview : views task = some (call, μ))
    (hallows : Asker.allows guild role user μ (.presence p))
    (hsettled : SettledMember guild role user st') :
    MemberInv guild role user (o.didPresence guild role user task p answer) st'
      (Function.update views task (some (call, μ))) := by
  cases p with
  | evict g r pubkey =>
      obtain ⟨hevicted, hroleless, hreclaimable, hremembered⟩ := unharmed_iff.mp hinv.unharmed
      have hasked : o.evicts guild role user task g r pubkey = false := by
        by_contra hharm
        simp only [Outcome.evicts, Bool.not_eq_false, Bool.and_eq_true, beq_iff_eq] at hharm
        obtain ⟨⟨⟨hguild, hrole⟩, hcaller⟩, hdevice⟩ := hharm
        cases hreq : o.req task with
        | none => simp [hreq] at hdevice
        | some req =>
            simp only [hreq, Bool.and_eq_true, beq_iff_eq, Bool.not_eq_true'] at hdevice
            have howed := hallows hguild hrole ((hinv.caller _ _ _ hview).trans hcaller) req
              ((hinv.req _ _ _ hview).trans hreq) hdevice.1
            exact Bool.false_ne_true (hdevice.2.symm.trans howed)
      refine hinv.of_step hview hsettled rfl rfl ?_
      rw [unharmed_iff]
      refine ⟨?_, hroleless, hreclaimable, hremembered⟩
      simp [Outcome.didPresence, hevicted, hasked]
  | _ => exact hinv.of_step hview hsettled rfl rfl hinv.unharmed

theorem MemberInv.did_caches {c : RoleCaches.Op} {answer : c.Res}
    (hinv : MemberInv guild role user o st views) (hview : views task = some (call, μ))
    (hallows : Asker.allows guild role user μ (.caches c))
    (hexec : AppState.exec conf task (.caches c) choice st = some (answer, st')) :
    Asker.expects guild role user μ (.caches c) answer ∧
      MemberInv guild role user o st' (Function.update views task (some (call, μ))) := by
  have hstep := AppState.exec_caches hexec
  have hsettled : (∀ entry, st'.caches.members.get? (guild, user) = some entry →
      holdsRole entry.roles role = true) → SettledMember guild role user st' :=
    fun hcache => hinv.settled.of_frame (AppState.exec_frame hexec) nofun (fun _ _ => hcache)
      nofun nofun
  have hsame : st'.caches.members = st.caches.members →
      MemberInv guild role user o st' (Function.update views task (some (call, μ))) := by
    intro hmembers
    refine hinv.of_step hview (hsettled ?_) rfl rfl hinv.unharmed
    rw [hmembers]
    exact hinv.settled.cache
  cases c with
  | cachedMember g u =>
      obtain ⟨hhit, hcaches⟩ := Prod.mk.inj hstep
      refine ⟨?_, hsame (congrArg _ hcaches.symm)⟩
      cases answer with
      | none => trivial
      | some member =>
          rintro rfl rfl
          simp only [RoleCaches.cachedMember] at hhit
          split at hhit
          · rename_i entry hentry
            split at hhit
            · exact Option.some.inj hhit ▸ hinv.settled.cache entry hentry
            · cases hhit
          · cases hhit
  | storeMember g u member =>
      have hcaches : st.caches.storeMember st.instant g u member = st'.caches :=
        congrArg Prod.snd hstep
      refine ⟨trivial, hinv.of_step hview (hsettled fun entry hentry => ?_) rfl rfl
        hinv.unharmed⟩
      rw [← hcaches] at hentry
      rcases RoleCaches.mem_storeMember hentry with ⟨hkey, rfl⟩ | hold
      · obtain ⟨rfl, rfl⟩ := Prod.mk.inj hkey
        exact hallows rfl rfl
      · exact hinv.settled.cache entry hold
  | forget g u =>
      have hcaches : st.caches.forget g u = st'.caches := congrArg Prod.snd hstep
      refine ⟨trivial, hinv.of_step hview (hsettled fun entry hentry => ?_) rfl rfl
        hinv.unharmed⟩
      rw [← hcaches, RoleCaches.forget, Table.get?_erase] at hentry
      split at hentry
      · cases hentry
      · exact hinv.settled.cache entry hentry
  | _ => exact ⟨trivial, hsame (congrArg (fun result => result.2.members) hstep).symm⟩

theorem MemberInv.did_signing {s : Signing.Op} {answer : s.Res}
    (hinv : MemberInv guild role user o st views) (hview : views task = some (call, μ))
    (hallows : Asker.allows guild role user μ (.signing s))
    (hexec : AppState.exec conf task (.signing s) choice st = some (answer, st')) :
    Asker.expects guild role user μ (.signing s) answer ∧
      MemberInv guild role user o st' (Function.update views task (some (call, μ))) := by
  have hstep := AppState.exec_signing hexec
  have hsettled : (∀ g key, st'.signing.keys.get? g = some key → key.signer.guildId = g) →
      SettledMember guild role user st' :=
    fun hkeys => hinv.settled.of_frame (AppState.exec_frame hexec) nofun nofun nofun
      fun _ _ => hkeys
  have hsame : st'.signing.keys = st.signing.keys →
      MemberInv guild role user o st' (Function.update views task (some (call, μ))) := by
    intro hkeys
    refine hinv.of_step hview (hsettled ?_) rfl rfl hinv.unharmed
    rw [hkeys]
    exact hinv.settled.keys
  cases s with
  | key g =>
      obtain ⟨hkey, hsigning⟩ := Prod.mk.inj hstep
      refine ⟨?_, hsame (congrArg _ hsigning.symm)⟩
      cases answer with
      | none => trivial
      | some key => exact hinv.settled.keys g key hkey
  | keepKey g key =>
      have hsigning := (Prod.mk.inj hstep).2
      refine ⟨trivial, hinv.of_step hview (hsettled fun g' key' hkey => ?_) rfl rfl
        hinv.unharmed⟩
      rw [← hsigning, Table.get?_insert] at hkey
      split at hkey
      · rename_i hguild
        cases hkey
        exact hguild ▸ hallows
      · exact hinv.settled.keys g' key' hkey
  | fresh g id now schema =>
      exact ⟨trivial, hsame (congrArg (fun result => result.2.keys) hstep).symm⟩
  | keep g id now schema blob =>
      have hsigning := (Prod.mk.inj hstep).2
      refine ⟨trivial, hsame ?_⟩
      rw [← hsigning, Signing.keep]
      split <;> rfl

theorem MemberInv.did_roleless {r : RolelessMemo.Op} {answer : r.Res}
    (hinv : MemberInv guild role user o st views) (hview : views task = some (call, μ))
    (hallows : Asker.allows guild role user μ (.roleless r))
    (hexec : AppState.exec conf task (.roleless r) choice st = some (answer, st')) :
    Asker.expects guild role user μ (.roleless r) answer ∧
      MemberInv guild role user (o.didRoleless user task r) st'
        (Function.update views task (some (call, Asker.next μ (.roleless r) answer))) := by
  have hstep := AppState.exec_roleless hexec
  have hsettled : st'.roleless.seen.get? user = none → SettledMember guild role user st' :=
    fun hmemo => hinv.settled.of_frame (AppState.exec_frame hexec) nofun nofun
      (fun _ _ => hmemo) nofun
  have hmemo := hinv.settled.memo
  cases r with
  | fresh u =>
      obtain ⟨hanswer, hroleless⟩ := Prod.mk.inj hstep
      constructor
      · rintro rfl
        simp [← hanswer, RolelessMemo.fresh, hmemo]
      · refine ⟨hsettled (hroleless ▸ hmemo), hinv.unharmed, ?_, ?_⟩
        · intro other call' μ' hother
          rcases Machine.update_some_cases hother with ⟨rfl, heq⟩ | ⟨_, hother⟩
          · obtain ⟨rfl, rfl⟩ := Prod.mk.inj heq
            have hasked := hinv.req _ _ _ hview
            exact hasked
          · exact hinv.req other call' μ' hother
        · intro other call' μ' hother
          rcases Machine.update_some_cases hother with ⟨rfl, heq⟩ | ⟨hne, hother⟩
          · obtain ⟨rfl, rfl⟩ := Prod.mk.inj heq
            simp [Asker.next, Outcome.didRoleless]
          · simpa [Outcome.didRoleless, hne] using hinv.caller other call' μ' hother
  | remember u =>
      have hother : (u == user) = false := beq_false_of_ne hallows
      have hroleless := (Prod.mk.inj hstep).2
      refine ⟨trivial, hinv.of_step hview (hsettled ?_) rfl rfl ?_⟩
      · have hkept : (st.roleless.remember st.instant u).seen.get? user = none := by
          unfold RolelessMemo.remember
          rw [Table.get?_insert, if_neg (Ne.symm hallows)]
          split
          · simp [hmemo]
          · exact hmemo
        exact hroleless ▸ hkept
      · simpa [Outcome.didRoleless, Outcome.unharmed, hother] using hinv.unharmed
  | forget u =>
      have hroleless := (Prod.mk.inj hstep).2
      refine ⟨trivial, hinv.of_step hview (hsettled ?_) rfl rfl hinv.unharmed⟩
      have hkept : (st.roleless.forget u).seen.get? user = none := by
        simp [RolelessMemo.forget, hmemo]
      exact hroleless ▸ hkept

theorem answer_holds {g : GuildId} {u : UserId} {answer : MemberAnswer}
    (hsettled : SettledMember guild role user st)
    (hexec : AppState.exec conf task (.fetchMember g u) choice st = some (answer, st'))
    (hanswered : lookupAnswered guild user conf (.did task (.fetchMember g u) answer) = true) :
    Asker.expects guild role user μ (.fetchMember g u) answer := by
  rintro rfl rfl
  have hgot : answer ≠ .failed := by simpa [lookupAnswered] using hanswered
  simp only [AppState.exec, Option.some.injEq, Prod.mk.injEq] at hexec
  obtain ⟨hanswer, -⟩ := hexec
  unfold AppState.fetchMember at hanswer
  split at hanswer
  · exact absurd hanswer.symm hgot
  · have hholds := hsettled.holds
    unfold Discord.member at hanswer
    split at hanswer
    · rename_i roles hmember
      rw [hmember] at hholds
      exact hanswer ▸ hholds
    · rename_i hnone
      rw [hnone] at hholds
      cases hholds

theorem MemberInv.did {op : Op} {answer : op.Res}
    (hinv : MemberInv guild role user o st views) (hview : views task = some (call, μ))
    (hallows : (Asker.mon guild role user).allows μ op)
    (hexec : AppState.exec conf task op choice st = some (answer, st'))
    (hkept : rolesKept guild role user conf (.did task op answer) = true)
    (hanswered : lookupAnswered guild user conf (.did task op answer) = true) :
    (Asker.mon guild role user).expects μ op answer ∧
      MemberInv guild role user
        ((outcomes guild role user conf).see o st (.did task op answer) st') st'
        (Function.update views task
          (some (call, (Asker.mon guild role user).next μ op answer))) := by
  cases op with
  | store q => exact hinv.did_store hview hallows hexec hkept
  | caches c => exact hinv.did_caches hview hallows hexec
  | roleless r => exact hinv.did_roleless hview hallows hexec
  | signing s => exact hinv.did_signing hview hallows hexec
  | presence p =>
      exact ⟨trivial, hinv.did_presence hview hallows
        (hinv.settled.of_other (AppState.exec_frame hexec) rfl)⟩
  | fetchMember g u =>
      have hsettled := hinv.settled.of_other (AppState.exec_frame hexec) rfl
      exact ⟨@answer_holds guild role user _ _ _ _ μ _ _ _ _ hinv.settled hexec hanswered,
        hinv.of_step hview hsettled rfl rfl hinv.unharmed⟩
  | _ =>
      have hsettled := hinv.settled.of_other (AppState.exec_frame hexec) rfl
      exact ⟨trivial, hinv.of_step hview hsettled rfl rfl hinv.unharmed⟩

theorem MemberInv.called (hinv : MemberInv guild role user o st views) :
    MemberInv guild role user (o.called task call) st
      (Function.update views task (some (call, askerOf call))) where
  settled := hinv.settled
  unharmed := hinv.unharmed
  req := by
    intro other call' μ' hother
    rcases Machine.update_some_cases hother with ⟨rfl, heq⟩ | ⟨hne, hother⟩
    · obtain ⟨rfl, rfl⟩ := Prod.mk.inj heq
      simp [askerOf, Outcome.called]
    · simpa [Outcome.called, hne] using hinv.req other call' μ' hother
  caller := by
    intro other call' μ' hother
    rcases Machine.update_some_cases hother with ⟨rfl, heq⟩ | ⟨hne, hother⟩
    · obtain ⟨rfl, rfl⟩ := Prod.mk.inj heq
      simp [askerOf, Outcome.called]
    · simpa [Outcome.called, hne] using hinv.caller other call' μ' hother

theorem MemberInv.gone {o' : Outcome} (hinv : MemberInv guild role user o st views)
    (hunharmed : o'.unharmed = true) (hreq : o'.req = o.req) (hcaller : o'.caller = o.caller) :
    MemberInv guild role user o' (AppState.release task st)
      (Function.update views task none) where
  settled := ⟨hinv.settled.realGuild, hinv.settled.network, hinv.settled.holds,
    hinv.settled.cache, hinv.settled.memo, hinv.settled.keys⟩
  unharmed := hunharmed
  req := by
    intro other call' μ' hother
    rw [hreq]
    exact hinv.req other call' μ' (Machine.update_none_cases hother).2
  caller := by
    intro other call' μ' hother
    rw [hcaller]
    exact hinv.caller other call' μ' (Machine.update_none_cases hother).2

theorem MemberInv.answered {reply : Reply} (hinv : MemberInv guild role user o st views)
    (hview : views task = some (call, μ)) (hpost : memberPost user μ (.ok reply)) :
    MemberInv guild role user (o.answered user task reply) (AppState.release task st)
      (Function.update views task none) := by
  cases reply with
  | registered resp =>
      refine hinv.gone ?_ rfl rfl
      obtain ⟨hevicted, hroleless, hreclaimable, hremembered⟩ := unharmed_iff.mp hinv.unharmed
      have hshared : (o.caller task == some user && rolelessAnswer resp) = false := by
        by_cases hcaller : o.caller task = some user
        · rw [hpost ((hinv.caller _ _ _ hview).trans hcaller), Bool.and_false]
        · rw [beq_false_of_ne hcaller, Bool.false_and]
      rw [unharmed_iff]
      refine ⟨hevicted, ?_, hreclaimable, hremembered⟩
      show (o.roleless || o.caller task == some user && rolelessAnswer resp) = false
      rw [hroleless, hshared, Bool.or_false]
  | _ => exact hinv.gone hinv.unharmed rfl rfl

theorem MemberInv.moved {world : World} (hinv : MemberInv guild role user o st views)
    (hmove : AppState.move world st = some st')
    (hkept : rolesKept guild role user conf (.moved world) = true) :
    MemberInv guild role user o st' views := by
  have huntouched := AppState.move_untouched hmove
  have hholds : holdsRole (st'.discord.members.get? (guild, user)) role = true := by
    have hbefore := hinv.settled.holds
    cases world with
    | member g u roles =>
        cases hmove
        by_cases hkey : (guild, user) = (g, u)
        · obtain ⟨rfl, rfl⟩ := Prod.mk.inj hkey
          have hroles : holdsRole roles role = true := by simpa [rolesKept] using hkept
          cases roles with
          | some roles => simpa [AppState.setMember] using hroles
          | none => cases hroles
        · cases roles <;> simpa [AppState.setMember, hkey] using hbefore
    | clock now instant =>
        simp only [AppState.move] at hmove
        split at hmove
        · cases hmove
          exact hbefore
        · cases hmove
    | accessToken token who =>
        cases hmove
        cases who <;> exact hbefore
    | _ =>
        cases hmove
        exact hbefore
  refine ⟨⟨hinv.settled.realGuild, ?_, hholds, ?_, ?_, ?_⟩, hinv.unharmed, hinv.req, hinv.caller⟩
  · rw [huntouched.db]
    exact hinv.settled.network
  · rw [huntouched.caches]
    exact hinv.settled.cache
  · rw [huntouched.roleless]
    exact hinv.settled.memo
  · rw [huntouched.signing]
    exact hinv.settled.keys

end

/-- While every lookup of the member is answered and its roles stay. -/
def answeredRun (_ : Outcome) (_ : AppState) (event : (machine conf).Event) : Bool :=
  rolesKept guild role user conf event && lookupAnswered guild user conf event

def memberDiscipline (hreal : guild ≠ PERSONAL_SCOPE) :
    Machine.Discipline (machine conf) (outcomes guild role user conf)
      (Machine.passes (answeredRun guild role user conf)) Asker where
  mon := Asker.mon guild role user
  opening := fun _ _ call => askerOf call
  post := fun _ μ result => memberPost user μ result
  inv := MemberInv guild role user
  conforms := fun _ _ call => handle_shared guild role user conf hreal call
  called := fun hinv _ _ => hinv.called
  did := fun hinv hview hallows hexec hallowed => by
    obtain ⟨hkept, hanswered⟩ := (Bool.and_eq_true _ _).mp hallowed
    exact hinv.did hview hallows hexec hkept hanswered
  ended := by
    intro o st views task call μ result hinv hview hpost _
    cases result with
    | ok reply => exact hinv.answered hview hpost
    | error error => exact hinv.gone hinv.unharmed rfl rfl
  dropped := fun hinv _ _ => hinv.gone hinv.unharmed rfl rfl
  moved := fun hinv hmove hallowed => by
    obtain ⟨hkept, _⟩ := (Bool.and_eq_true _ _).mp hallowed
    exact hinv.moved hmove hkept

/-- A member of a network whose lookups are answered is never evicted, answered as
role-less, made reclaimable or remembered as role-less. -/
theorem member_stays_member {st₀ : AppState} (hsettled : SettledMember guild role user st₀)
    {c : (machine conf).Config} {o : Outcome}
    (hreach : Machine.Reach (outcomes guild role user conf)
      (Machine.passes (answeredRun guild role user conf)) ((machine conf).idle st₀) {} c o) :
    o.unharmed = true := by
  have hstart : MemberInv guild role user {} st₀ fun _ => none := by
    refine ⟨hsettled, rfl, ?_, ?_⟩
    · intro task call μ h
      cases h
    · intro task call μ h
      cases h
  obtain ⟨views, _, hinv⟩ :=
    (memberDiscipline guild role user conf hsettled.realGuild).run hstart hreach
  exact hinv.unharmed

/-- User 1 holds role 7 of guild 5, which has a network, and has logged its device in. -/
def loggedInMember : AppState where
  db :=
    { networks := (∅ : Table _ _).insert (5, 7) "lan"
      oauthAuthorized := (∅ : Table _ _).insert 1 ⟨1, 0⟩ }
  discord := { members := (∅ : Table _ _).insert (5, 1) ⟨"ann", [7]⟩ }

theorem loggedInMember_settled : SettledMember 5 7 1 loggedInMember where
  realGuild := by decide
  network := by decide
  holds := by decide
  cache := by
    intro entry hentry
    cases hentry
  memo := rfl
  keys := by
    intro g key hkey
    cases hkey

def ownDevice : RegisterReq :=
  { wgPubkey := 1, deviceName := "pc", peerOwnDevices := true, possessionProof := some ⟨1, 7⟩ }

open Script in
def registerTwice : Script Conf.small :=
  call (.register ownDevice (.v4 0)) ++ steps 0 24 (.text "token") ++ steps 0 55 (.key 99) ++
    move (.clock 31 31) ++
    call (.register { ownDevice with deviceToken := some "token" } (.v4 0)) ++ steps 1 11 .go

open Script in
def lookupTimesOut : Script Conf.small :=
  registerTwice ++ steps 1 1 (.fault "timeout") ++ steps 1 39 (.key 99)

/-- A lookup that times out takes the member off the mesh in every way. -/
theorem member_lost_on_timeout :
    ¬ ∀ (guild : GuildId) (role : RoleId) (user : UserId) (st₀ : AppState),
      SettledMember guild role user st₀ →
      ∀ c o, Machine.Reach (outcomes guild role user Conf.small)
        (Machine.passes fun _ _ event => rolesKept guild role user Conf.small event)
        ((machine Conf.small).idle st₀) {} c o →
      o.evicted = false ∧ o.roleless = false ∧ o.reclaimable = false ∧ o.remembered = false := by
  intro hclaim
  have hplay : (Machine.play (outcomes 5 7 1 Conf.small)
      (fun _ _ event => rolesKept 5 7 1 Conf.small event)
      ((machine Conf.small).idle loggedInMember) {} lookupTimesOut).any
        (fun last => last.2.evicted && last.2.roleless && last.2.reclaimable &&
          last.2.remembered) = true := by
    decide
  have hrun : ∃ c o, Machine.Reach (outcomes 5 7 1 Conf.small)
      (Machine.passes fun _ _ event => rolesKept 5 7 1 Conf.small event)
      ((machine Conf.small).idle loggedInMember) {} c o ∧
        (o.evicted && o.roleless && o.reclaimable && o.remembered) = true :=
    Machine.reach_of_play (fun _ _ _ htest => htest) hplay
  obtain ⟨c, o, hreach, hall⟩ := hrun
  simp only [Bool.and_eq_true] at hall
  have hnone := hclaim 5 7 1 loggedInMember loggedInMember_settled c o hreach
  exact Bool.false_ne_true (hnone.1.symm.trans hall.1.1.1)

/-- A member whose lookups are answered registers twice and stays a member. -/
theorem member_stays_member_twice :
    ∃ c o, Machine.Reach (outcomes 5 7 1 Conf.small)
        (Machine.passes (answeredRun 5 7 1 Conf.small))
        ((machine Conf.small).idle loggedInMember) {} c o ∧
      c.tasks 1 = none ∧ o.unharmed = true := by
  have hplay : (Machine.play (outcomes 5 7 1 Conf.small) (answeredRun 5 7 1 Conf.small)
      ((machine Conf.small).idle loggedInMember) {}
      (registerTwice ++ Script.steps 1 51 .go)).any
        (fun last => (last.1.tasks 1).isNone) = true := by
    decide
  have hrun : ∃ c o, Machine.Reach (outcomes 5 7 1 Conf.small)
      (Machine.passes (answeredRun 5 7 1 Conf.small))
      ((machine Conf.small).idle loggedInMember) {} c o ∧ (c.tasks 1).isNone = true :=
    Machine.reach_of_play (fun _ _ _ htest => htest) hplay
  obtain ⟨c, o, hreach, hdone⟩ := hrun
  exact ⟨c, o, hreach, Option.isNone_iff_eq_none.mp hdone,
    member_stays_member 5 7 1 Conf.small loggedInMember_settled hreach⟩

end UnityLan.Coordinator
