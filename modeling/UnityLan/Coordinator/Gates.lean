import UnityLan.Coordinator.Footprint

namespace UnityLan.Coordinator

open UnityLan.Foundation Prog

/-! Whether a device is allocated and whether it is announced and attested are decided apart.
A request is followed through each of its builds: what the role source answered it, and which
rows of its device it knows. -/

structure Gate where
  req : RegisterReq
  networks : List Network := []
  members : List (GuildId × UserId × MemberRoles) := []
  rows : List (Ipv4Addr × String) := []

namespace Gate

def learn (m : Gate) : (o : Op) → o.Res → Gate
  | .store .allNetworks, .ok networks => { req := m.req, networks := networks }
  | .caches (.cachedMember guild user), some (some roles) =>
      { m with members := (guild, user, roles) :: m.members }
  | .fetchMember guild user, .found roles =>
      { m with members := (guild, user, roles) :: m.members }
  | _, _ => m

/-- The user was answered to hold the role of a network, or the request asks to peer the
user's own devices. -/
def entitled (m : Gate) (user : UserId) : Bool :=
  wantsPersonalScope m.req || m.networks.any fun net => m.members.any fun member =>
    member.1 == net.guildId && member.2.1 == user && member.2.2.roleIds.contains net.roleId

def holds (m : Gate) (user : UserId) (network : GuildId × RoleId) : Bool :=
  (m.networks.any fun net => net.guildId == network.1 && net.roleId == network.2) &&
    m.members.any fun member =>
      member.1 == network.1 && member.2.1 == user && member.2.2.roleIds.contains network.2

end Gate

variable (conf : Conf)

def rowStands (row : DeviceRow) : List (Ipv4Addr × String) :=
  if indexIsValid conf.wgNet row.idx then [(addrFromIndex conf.wgNet row.idx, row.deviceName)]
  else []

namespace Gate

def told (m : Gate) : (o : Op) → o.Res → List (Ipv4Addr × String)
  | .store (.device pubkey), .ok (some row) =>
      if pubkey = m.req.wgPubkey then rowStands conf row else []
  | .store (.insertDevice pubkey row), .ok _ =>
      if pubkey = m.req.wgPubkey then rowStands conf row else []
  | _, _ => []

def add (m : Gate) (rows : List (Ipv4Addr × String)) : Gate :=
  { m with rows := rows ++ m.rows }

def allows (m : Gate) : Op → Prop
  | .presence (.record _ _ p _ _) => (p.ip, p.deviceName) ∈ m.rows
  | .presence (.recordSelf _ p _ _) => (p.ip, p.deviceName) ∈ m.rows
  | .store (.insertDevice _ row) => m.entitled row.userId = true
  | _ => True

def next (m : Gate) (o : Op) (answer : o.Res) : Gate :=
  (m.learn o answer).add (m.told conf o answer)

def mon : Monitor sig Gate where
  allows := allows
  expects := fun _ _ _ => True
  next := next conf

structure Extends (m m' : Gate) : Prop where
  req : m'.req = m.req
  networks : m'.networks = m.networks
  members : ∀ member, member ∈ m.members → member ∈ m'.members
  rows : ∀ row, row ∈ m.rows → row ∈ m'.rows

theorem Extends.refl (m : Gate) : Extends m m :=
  ⟨rfl, rfl, fun _ => id, fun _ => id⟩

theorem Extends.trans {m m' m'' : Gate} (hfirst : Extends m m') (hsecond : Extends m' m'') :
    Extends m m'' :=
  ⟨hsecond.req.trans hfirst.req, hsecond.networks.trans hfirst.networks,
    fun member hmember => hsecond.members member (hfirst.members member hmember),
    fun row hrow => hsecond.rows row (hfirst.rows row hrow)⟩

def plain : Op → Bool
  | .presence (.record ..) => false
  | .presence (.recordSelf ..) => false
  | .store (.insertDevice ..) => false
  | .store .allNetworks => false
  | _ => true

variable {conf} {m : Gate} {ε α : Type} {req : RegisterReq} {user : UserId}

theorem plain_allowed {o : Op} (hplain : plain o = true) : allows m o := by
  unfold allows
  split
  · cases hplain
  · cases hplain
  · cases hplain
  · trivial

theorem extends_learn {o : Op} {answer : o.Res} (hother : o ≠ .store .allNetworks) :
    Extends m (m.learn o answer) := by
  unfold learn
  split
  · exact (hother rfl).elim
  · exact ⟨rfl, rfl, fun _ => List.mem_cons_of_mem _, fun _ => id⟩
  · exact ⟨rfl, rfl, fun _ => List.mem_cons_of_mem _, fun _ => id⟩
  · exact Extends.refl m

theorem extends_next {o : Op} {answer : o.Res} (hother : o ≠ .store .allNetworks) :
    Extends m (m.next conf o answer) :=
  (extends_learn hother).trans
    ⟨rfl, rfl, fun _ => id, fun _ hrow => List.mem_append_right _ hrow⟩

theorem plain_conforms {inside : Op → Prop} {program : Prog sig ε α}
    (hprogram : program.Uses inside) (hinside : ∀ o, inside o → plain o = true) :
    program.Conforms (mon conf) (returns fun m' _ => Extends m m') m := by
  have hkept : program.Conforms (mon conf) (fun m' _ => Extends m m') m := by
    refine hprogram.keeps (Extends m) (fun m' o ho hextends => ?_) (Extends.refl m)
    have hplain := hinside o ho
    refine ⟨plain_allowed hplain, fun answer _ => hextends.trans (extends_next ?_)⟩
    rintro rfl
    cases hplain
  refine hkept.mono fun m' result hextends => ?_
  cases result with
  | ok value => exact hextends
  | error error => trivial

theorem label_plain : ∀ o, LabelOp o → plain o = true := by
  intro o h
  unfold LabelOp at h
  split at h <;> trivial

theorem name_plain : ∀ o, NameOp o → plain o = true :=
  fun o h => label_plain o (name_label o h)

theorem touch_plain {personal : Bool} : ∀ o, TouchOp req personal o → plain o = true := by
  intro o h
  unfold TouchOp at h
  split at h <;> trivial

theorem admission_plain : ∀ o, AdmissionOp req o → plain o = true := by
  intro o h
  unfold AdmissionOp at h
  split at h <;> trivial

theorem evict_plain {pubkey : PubKey} : ∀ o, EvictOp pubkey o → plain o = true := by
  intro o h
  unfold EvictOp at h
  split at h <;> trivial

theorem answer_plain : ∀ o, AnswerOp req o → plain o = true := by
  intro o h
  unfold AnswerOp at h
  split at h <;> trivial

theorem park_plain : ∀ o, ParkOp o → plain o = true := by
  intro o h
  unfold ParkOp at h
  split at h <;> trivial

/-! Lookups. -/

def Found (guild : GuildId) (user : UserId) (m m' : Gate) (member : Option MemberRoles) : Prop :=
  Extends m m' ∧ ∀ roles, member = some roles → (guild, user, roles) ∈ m'.members

theorem fetchMember_conforms (guild : GuildId) (user : UserId) :
    (RoleSource.fetchMember guild user : Prog sig ε _).Conforms (mon conf)
      (returns (Found guild user m)) m := by
  rw [RoleSource.fetchMember, conforms_act_bind]
  refine ⟨trivial, fun answer _ => ?_⟩
  have hextends : Extends m (m.next conf (.fetchMember guild user) answer) :=
    extends_next (by simp)
  cases answer with
  | found roles =>
      rw [conforms_act_bind]
      refine ⟨trivial, fun _ _ => ⟨hextends.trans (extends_next (by simp)), ?_⟩⟩
      rintro found hfound
      cases hfound
      exact (@extends_next conf _ _ _ (by simp)).members _ (List.mem_cons_self ..)
  | notFound =>
      rw [conforms_act_bind]
      exact ⟨trivial, fun _ _ =>
        ⟨hextends.trans (extends_next (by simp)), fun _ habsurd => by cases habsurd⟩⟩
  | failed => exact ⟨hextends, fun _ habsurd => by cases habsurd⟩

theorem unlock_conforms {guild : GuildId} {member : Option MemberRoles} {m' : Gate} (gate : Nat)
    (hfound : Found guild user m m' member) :
    (do
      act (.locks (.unlock (.gate gate)))
      act (.locks (.retire (.member guild user) gate))
      act (.locks .dropClone)
      return member : Prog sig ε (Option MemberRoles)).Conforms (mon conf)
      (returns (Found guild user m)) m' := by
  simp only [conforms_act_bind, pure_eq, conforms_ret]
  exact ⟨trivial, fun _ _ => ⟨trivial, fun _ _ => ⟨trivial, fun _ _ => hfound⟩⟩⟩

theorem member_conforms (guild : GuildId) (user : UserId) :
    (RoleSource.member guild user : Prog sig ε _).Conforms (mon conf)
      (returns (Found guild user m)) m := by
  have hhit : ∀ (m' : Gate) (member : Option MemberRoles), Extends m m' →
      Found guild user m
        (m'.next conf (.caches (.cachedMember guild user)) (some member)) member := by
    intro m' member hextends
    refine ⟨hextends.trans (extends_next (by simp)), fun roles hroles => ?_⟩
    cases hroles
    exact List.mem_cons_self ..
  unfold RoleSource.member
  split
  · exact ⟨Extends.refl m, nofun⟩
  · rw [dedup, conforms_act_bind]
    refine ⟨trivial, fun hit _ => ?_⟩
    cases hit with
    | some member => exact hhit m member (Extends.refl m)
    | none =>
        simp only [conforms_act_bind]
        refine ⟨trivial, fun gate _ => ⟨trivial, fun _ _ => ⟨trivial, fun again _ => ?_⟩⟩⟩
        cases again with
        | some member => exact unlock_conforms gate (hhit m member (Extends.refl m))
        | none =>
            refine (fetchMember_conforms guild user).andThen fun m' member hfound => ?_
            exact unlock_conforms gate hfound

def Remembers (user : UserId) (cache : MemberCache) (m : Gate) : Prop :=
  ∀ guild roles, cache.lookup guild = some (some roles) → (guild, user, roles) ∈ m.members

theorem Remembers.extend {cache : MemberCache} {m' : Gate} (hremembers : Remembers user cache m)
    (hextends : Extends m m') : Remembers user cache m' :=
  fun guild roles hlookup => hextends.members _ (hremembers guild roles hlookup)

def Keeps (cache cache' : MemberCache) : Prop :=
  ∀ guild member, cache.lookup guild = some member → cache'.lookup guild = some member

structure Looked (user : UserId) (m : Gate) (cache : MemberCache) (m' : Gate)
    (cache' : MemberCache) : Prop where
  extends_ : Extends m m'
  remembers : Remembers user cache' m'
  keeps : Keeps cache cache'

theorem lookupMember_conforms {cache : MemberCache} (guild : GuildId)
    (hremembers : Remembers user cache m) :
    (lookupMember cache guild user).Conforms (mon conf)
      (returns fun m' looked => Looked user m cache m' looked.2 ∧
        looked.2.lookup guild = some looked.1) m := by
  unfold lookupMember
  split
  · rename_i member hcached
    exact ⟨⟨Extends.refl m, hremembers, fun _ _ => id⟩, hcached⟩
  · rename_i hmissing
    refine (member_conforms guild user).andThen fun m' member hfound => ?_
    refine ⟨⟨hfound.1, ?_, ?_⟩, by simp⟩
    · intro other roles hlookup
      by_cases hsame : other = guild
      · subst hsame
        simp only [List.lookup_cons_self, Option.some.injEq] at hlookup
        exact hfound.2 roles hlookup
      · have hbeq : (other == guild) = false := beq_false_of_ne hsame
        rw [List.lookup_cons, hbeq] at hlookup
        exact hfound.1.members _ (hremembers other roles hlookup)
    · intro other found hlookup
      by_cases hsame : other = guild
      · subst hsame
        rw [hmissing] at hlookup
        cases hlookup
      · have hbeq : (other == guild) = false := beq_false_of_ne hsame
        rw [List.lookup_cons, hbeq]
        exact hlookup

def HoldsNone (networks : List Network) (cache : MemberCache) : Prop :=
  ∀ net ∈ networks, ∃ member, cache.lookup net.guildId = some member ∧
    holdsRole member net.roleId = false

def HoldsOne (user : UserId) (networks : List Network) (m : Gate) : Prop :=
  ∃ net ∈ networks, ∃ roles, (net.guildId, user, roles) ∈ m.members ∧
    roles.roleIds.contains net.roleId = true

theorem holdsAnyNetworkRole_conforms (networks : List Network) {cache : MemberCache}
    (hremembers : Remembers user cache m) :
    (holdsAnyNetworkRole user networks cache).Conforms (mon conf)
      (returns fun m' held => Looked user m cache m' held.2 ∧
        if held.1 then HoldsOne user networks m' else HoldsNone networks held.2) m := by
  induction networks generalizing cache m with
  | nil =>
      refine ⟨⟨Extends.refl m, hremembers, fun _ _ => id⟩, ?_⟩
      intro net hnet
      cases hnet
  | cons net rest ih =>
      unfold holdsAnyNetworkRole
      refine (lookupMember_conforms net.guildId hremembers).andThen fun m' looked hlooked => ?_
      obtain ⟨hlooked, hcached⟩ := hlooked
      dsimp only
      split
      · rename_i hholds
        refine ⟨hlooked, net, List.mem_cons_self .., ?_⟩
        cases hmember : looked.1 with
        | none => simp [hmember, holdsRole] at hholds
        | some roles =>
            rw [hmember] at hcached hholds
            exact ⟨roles, hlooked.remembers net.guildId roles hcached, hholds⟩
      · rename_i hholds
        refine Conforms.returns_mono (ih hlooked.remembers) fun m'' held hheld => ?_
        obtain ⟨hlooked', hheld⟩ := hheld
        refine ⟨⟨hlooked.extends_.trans hlooked'.extends_, hlooked'.remembers, ?_⟩, ?_⟩
        · exact fun guild member h => hlooked'.keeps guild member (hlooked.keeps guild member h)
        · split
          · rename_i hany
            rw [if_pos hany] at hheld
            obtain ⟨found, hfound, hroles⟩ := hheld
            exact ⟨found, List.mem_cons_of_mem _ hfound, hroles⟩
          · rename_i hany
            rw [if_neg hany] at hheld
            intro other hother
            rcases List.mem_cons.mp hother with rfl | hrest
            · exact ⟨looked.1, hlooked'.keeps _ _ hcached, by simpa using hholds⟩
            · exact hheld other hrest

/-! The first gate: allocating the device. -/

theorem uniqueDeviceName_plain (user : UserId) (desired : String) (exclude : Option PubKey) :
    (Store.uniqueDeviceName user desired exclude).Uses fun o => plain o = true := by
  unfold Store.uniqueDeviceName
  rw [uses_sql_bind]
  refine ⟨rfl, fun devices => ?_⟩
  dsimp only
  split
  · trivial
  · split <;> trivial

theorem Extends.entitled {m' : Gate} (hextends : Extends m m')
    (hentitled : m.entitled user = true) :
    m'.entitled user = true := by
  simp only [Gate.entitled, Bool.or_eq_true, List.any_eq_true] at hentitled ⊢
  rw [hextends.req, hextends.networks]
  rcases hentitled with hpersonal | ⟨net, hnet, member, hmember, hholds⟩
  · exact .inl hpersonal
  · exact .inr ⟨net, hnet, member, hextends.members member hmember, hholds⟩

theorem Extends.holds {m' : Gate} {network : GuildId × RoleId} (hextends : Extends m m')
    (hholds : m.holds user network = true) : m'.holds user network = true := by
  simp only [Gate.holds, Bool.and_eq_true, List.any_eq_true] at hholds ⊢
  obtain ⟨hlisted, member, hmember, hrole⟩ := hholds
  rw [hextends.networks]
  exact ⟨hlisted, member, hextends.members member hmember, hrole⟩

theorem holds_of {net : Network} {roles : MemberRoles} (hnet : net ∈ m.networks)
    (hmember : (net.guildId, user, roles) ∈ m.members)
    (hrole : roles.roleIds.contains net.roleId = true) :
    m.holds user (net.guildId, net.roleId) = true := by
  simp only [Gate.holds, Bool.and_eq_true, List.any_eq_true]
  exact ⟨⟨net, hnet, by simp⟩, _, hmember, by simpa using hrole⟩

theorem allocateDevice_conforms (user : UserId) (name : String)
    (hentitled : m.entitled user = true) :
    (Store.allocateDevice conf m.req.wgPubkey user name).Conforms (mon conf)
      (returns fun m' allocated => Extends m m' ∧ allocated ∈ m'.rows) m := by
  unfold Store.allocateDevice
  rw [conforms_sql_bind]
  refine ⟨trivial, fun row _ => ?_⟩
  cases row with
  | error error => trivial
  | ok row =>
      cases row with
      | some row =>
          dsimp only [after]
          split
          · rename_i hvalid
            refine ⟨extends_next (by simp), ?_⟩
            simp [mon, next, told, add, rowStands, hvalid]
          · trivial
      | none =>
          simp only [after, conforms_sql_bind]
          refine ⟨trivial, fun owned _ => ?_⟩
          cases owned with
          | error error => trivial
          | ok owned =>
              dsimp only [after]
              split
              · trivial
              · rw [conforms_sql_bind]
                refine ⟨trivial, fun taken _ => ?_⟩
                cases taken with
                | error error => trivial
                | ok taken =>
                    dsimp only [after]
                    split
                    · trivial
                    · rename_i idx hidx
                      have hvalid := (pickFreeIndex_spec hidx).2
                      refine (plain_conforms (uniqueDeviceName_plain user name none)
                        fun _ h => h).andThen fun m' unique hextends => ?_
                      simp only [conforms_act_bind, conforms_sql_bind]
                      refine ⟨trivial, fun token _ => ⟨?_, fun done _ => ?_⟩⟩
                      · exact hextends.entitled hentitled
                      · cases done with
                        | error error => trivial
                        | ok done =>
                            have hlast : Extends m' (m'.next conf .genEnrollmentKey token) :=
                              extends_next (by simp)
                            refine ⟨(hextends.trans hlast).trans (extends_next (by simp)), ?_⟩
                            have hreq : m'.req = m.req := hextends.req
                            simp [mon, next, told, learn, add, rowStands, hvalid, hreq]

/-- What the rest of a build may rely on: the device stands in the store, or the caller holds
none of the networks and does not peer its own devices. -/
def Resolved (networks : List Network) (cache : MemberCache) (device : Device) (m : Gate) : Prop :=
  (device.ip, device.name) ∈ m.rows ∨
    HoldsNone networks cache ∧ wantsPersonalScope m.req = false

theorem Resolved.extend {networks : List Network} {cache cache' : MemberCache} {device : Device}
    {m' : Gate} (hresolved : Resolved networks cache device m) (hextends : Extends m m')
    (hkeeps : Keeps cache cache') : Resolved networks cache' device m' := by
  rcases hresolved with hrow | ⟨hnone, hpersonal⟩
  · exact .inl (hextends.rows _ hrow)
  · refine .inr ⟨fun net hnet => ?_, by rw [hextends.req]; exact hpersonal⟩
    obtain ⟨member, hcached, hholds⟩ := hnone net hnet
    exact ⟨member, hkeeps _ _ hcached, hholds⟩

theorem HoldsOne.entitled {networks : List Network} (hholds : HoldsOne user networks m)
    (hnetworks : ∀ net ∈ networks, net ∈ m.networks) : m.entitled user = true := by
  obtain ⟨net, hnet, roles, hmember, hrole⟩ := hholds
  simp only [Gate.entitled, Bool.or_eq_true, List.any_eq_true]
  refine .inr ⟨net, hnetworks net hnet, _, hmember, ?_⟩
  simpa using hrole

theorem resolveDevice_conforms (networks : List Network)
    (hnetworks : ∀ net ∈ networks, net ∈ m.networks) (hreq : m.req = req) :
    (resolveDevice conf req user networks []).Conforms (mon conf)
      (returns fun m' resolved => Extends m m' ∧ Remembers user resolved.2 m' ∧
        Resolved networks resolved.2 resolved.1 m') m := by
  have hempty : Remembers user [] m := by
    intro guild roles hlookup
    cases hlookup
  unfold resolveDevice
  refine (holdsAnyNetworkRole_conforms networks hempty).andThen fun m₁ held hheld => ?_
  obtain ⟨hlooked, hheld⟩ := hheld
  have hreq₁ : m₁.req = req := hlooked.extends_.req.trans hreq
  dsimp only
  split
  · rename_i hneither
    simp only [Bool.and_eq_true, Bool.not_eq_true'] at hneither
    rw [if_neg (by simp [hneither.1])] at hheld
    exact ⟨hlooked.extends_, hlooked.remembers, .inr ⟨hheld, by rw [hreq₁]; exact hneither.2⟩⟩
  · rename_i heither
    have hentitled : m₁.entitled user = true := by
      cases hany : held.1 with
      | true =>
          rw [if_pos hany] at hheld
          refine hheld.entitled fun net hnet => ?_
          rw [hlooked.extends_.networks]
          exact hnetworks net hnet
      | false =>
          have hpersonal : wantsPersonalScope m₁.req = true := by
            rw [hreq₁]
            simpa [hany] using heither
          simp [Gate.entitled, hpersonal]
    have hallocate := @allocateDevice_conforms conf _ user (sanitizeLabel req.deviceName)
      hentitled
    rw [hreq₁] at hallocate
    refine hallocate.mapError_returns.andThen fun m₂ allocated hallocated => ?_
    have hensure : (sql (.ensurePrimary user req.wgPubkey)).Uses fun o => plain o = true := by
      simp [plain]
    refine (plain_conforms (hensure.mapError _) fun _ h => h).andThen fun m₃ _ hextends₃ => ?_
    have hprimary : (sql (.primaryPubkey user)).Uses fun o => plain o = true := by
      simp [plain]
    refine (plain_conforms (hprimary.mapError _) fun _ h => h).andThen fun m₄ _ hextends₄ => ?_
    have hafter := hallocated.1.trans (hextends₃.trans hextends₄)
    exact ⟨hlooked.extends_.trans hafter, hlooked.remembers.extend hafter,
      .inl ((hextends₃.trans hextends₄).rows _ hallocated.2)⟩

theorem removeDevice_plain (user : UserId) (pubkey : PubKey) :
    (Store.removeDevice user pubkey).Uses fun o => plain o = true :=
  (removeDevice_uses user pubkey).mono (StoreOp.mono fun q hremoval => by
    cases q <;> first | rfl | exact hremoval.elim)

theorem retireSuperseded_plain (changed : List Scope) :
    (retireSuperseded req user changed).Uses fun o => plain o = true := by
  unfold retireSuperseded
  split
  · trivial
  · rename_i token hsupersede
    have hfind : (sql (.deviceByToken token)).Uses fun o => plain o = true := by
      simp [plain]
    refine Uses.bind (hfind.mapError _) fun found => ?_
    cases found with
    | none => trivial
    | some old =>
        dsimp only
        split
        · refine Uses.bind ((removeDevice_plain _ _).mapError _) fun _ => ?_
          simp only [uses_act_bind]
          refine ⟨rfl, fun networks => ?_⟩
          refine Uses.bind ((evictFrom_uses _ _ _).mono evict_plain) fun changed => ?_
          simp only [uses_act_bind]
          exact ⟨rfl, fun removed => trivial⟩
        · trivial

/-! The second gate: announcing and attesting the device. -/

def Stands (device : Device) (m : Gate) : Prop :=
  (device.ip, device.name) ∈ m.rows

theorem recordPresence_conforms {device : Device} (now : Nat) (net : Network) (walk : Walk)
    (hstands : Stands device m) :
    (recordPresence req user device now net walk).Conforms (mon conf)
      (returns fun m' walk' => Extends m m' ∧ walk'.cache = walk.cache ∧ walk'.m = walk.m) m := by
  unfold recordPresence
  split
  · exact ⟨Extends.refl m, rfl, rfl⟩
  · rw [conforms_act_bind]
    refine ⟨hstands, fun recorded _ => ?_⟩
    cases recorded with
    | true => exact ⟨extends_next (by simp), rfl, rfl⟩
    | false => exact ⟨extends_next (by simp), rfl, rfl⟩

theorem walkHeld_conforms {device : Device} (now : Nat) (net : Network) (roles : MemberRoles)
    (walk : Walk) (hstands : Stands device m) :
    (walkHeld req user device now net roles walk).Conforms (mon conf)
      (returns fun m' walk' => Extends m m' ∧ walk'.cache = walk.cache ∧
        ∀ network ∈ walk'.m.held,
          network ∈ walk.m.held ∨ network = (net.guildId, net.roleId)) m := by
  unfold walkHeld
  refine (plain_conforms (walkCommunity_uses _ _) name_plain).andThen
    fun m₁ labelled hextends₁ => ?_
  refine (plain_conforms (roleName_uses _ _) name_plain).andThen fun m₂ name hextends₂ => ?_
  refine (plain_conforms (walkUsername_uses _ _ _) label_plain).andThen
    fun m₃ username hextends₃ => ?_
  have hextends := hextends₁.trans (hextends₂.trans hextends₃)
  dsimp only
  split
  · refine (recordPresence_conforms now net _ (hextends.rows _ hstands)).andThen
      fun m₄ walk' hwalk => ?_
    obtain ⟨hextends₄, hcache, hsame⟩ := hwalk
    refine ⟨hextends.trans hextends₄, hcache, fun network hnetwork => ?_⟩
    simpa [Walk.hold, hsame, Walk.enable, Walk.list] using hnetwork
  · exact ⟨hextends, rfl, fun network hnetwork => .inl hnetwork⟩

structure Walks (user : UserId) (networks : List Network) (device : Device) (first : Gate)
    (m : Gate) (walk : Walk) : Prop where
  later : Extends first m
  remembers : Remembers user walk.cache m
  resolved : Resolved networks walk.cache device m
  listed : walk.m.status ≠ [] → Stands device m
  held : ∀ network ∈ walk.m.held, m.holds user network = true

theorem walkNetwork_conforms {networks : List Network} {device : Device} {first : Gate}
    {walk : Walk} {net : Network} (now : Nat) (hnet : net ∈ networks)
    (hknown : net ∈ first.networks) (hwalks : Walks user networks device first m walk) :
    (walkNetwork req user device now walk net).Conforms (mon conf)
      (returns (Walks user networks device first)) m := by
  unfold walkNetwork
  refine (lookupMember_conforms net.guildId hwalks.remembers).andThen fun m₁ looked hlooked => ?_
  obtain ⟨hlooked, hcached⟩ := hlooked
  obtain ⟨member, cache⟩ := looked
  have hresolved := hwalks.resolved.extend hlooked.extends_ hlooked.keeps
  have hskipped : Walks user networks device first m₁ { walk with cache := cache } :=
    ⟨hwalks.later.trans hlooked.extends_, hlooked.remembers, hresolved,
      fun hlisted => hlooked.extends_.rows _ (hwalks.listed hlisted),
      fun network hnetwork => hlooked.extends_.holds (hwalks.held network hnetwork)⟩
  cases member with
  | none => exact hskipped
  | some roles =>
      dsimp only
      split
      · rename_i hholds
        have hstands : Stands device m₁ := by
          rcases hresolved with hrow | ⟨hnone, -⟩
          · exact hrow
          · obtain ⟨member, hlookup, hnot⟩ := hnone net hnet
            rw [hcached, Option.some.injEq] at hlookup
            subst hlookup
            have hheld : holdsRole (some roles) net.roleId = true := hholds
            exact Bool.noConfusion (hheld.symm.trans hnot)
        refine Conforms.returns_mono (walkHeld_conforms now net roles _ hstands)
          fun m₂ walk' hwalk => ?_
        obtain ⟨hextends, hcache, hheld⟩ := hwalk
        refine ⟨hskipped.later.trans hextends, ?_, ?_, fun _ => hextends.rows _ hstands, ?_⟩
        · rw [hcache]
          exact hlooked.remembers.extend hextends
        · exact .inl (hextends.rows _ hstands)
        · intro network hnetwork
          rcases hheld network hnetwork with hold | rfl
          · exact hextends.holds (hskipped.held network hold)
          · have hlisted : net ∈ m₁.networks := by
              rw [hskipped.later.networks]
              exact hknown
            exact hextends.holds
              (holds_of hlisted (hlooked.remembers _ _ hcached) hholds)
      · exact hskipped

def Held (user : UserId) (m : Gate) (membership : Membership) : Prop :=
  ∀ network ∈ membership.held, m.holds user network = true

def Identified (device : Device) (m : Gate) (membership : Membership) : Prop :=
  membership.hasIdentity = true → Stands device m

theorem resolveMembership_conforms (networks : List Network) (device : Device)
    {cache : MemberCache} (now : Nat) (changed : List Scope) (hreq : m.req = req)
    (hnetworks : ∀ net ∈ networks, net ∈ m.networks) (hremembers : Remembers user cache m)
    (hresolved : Resolved networks cache device m) :
    (resolveMembership req user networks device cache now changed).Conforms (mon conf)
      (returns fun m' settled => Extends m m' ∧ Identified device m' settled.1 ∧
        Held user m' settled.1) m := by
  unfold resolveMembership
  refine Conforms.through (Walks user networks device m) ?_ ?_
  · refine Conforms.foldlM networks _ _ (fun m' walk net hnet hround => ?_) ?_
    · exact walkNetwork_conforms now hnet (hnetworks net hnet) hround
    · exact ⟨Extends.refl m, hremembers, hresolved, fun hlisted => (hlisted rfl).elim, nofun⟩
  intro m₁ walk hwalks
  rw [conforms_act_bind]
  refine ⟨trivial, fun recorded _ => ?_⟩
  have hextends₁ : Extends m₁ (m₁.next conf (.presence (.networksOf req.wgPubkey)) recorded) :=
    extends_next (by simp)
  refine (plain_conforms (evictFrom_uses _ _ _) evict_plain).andThen fun m₂ changed hextends₂ => ?_
  have hextends := hextends₁.trans hextends₂
  have hreq₁ : m₁.req = req := hwalks.later.req.trans hreq
  have hidentified : ∀ {m' : Gate} (username : String), Extends m₁ m' →
      Identified device m'
        { walk.m with
          personal := walk.m.status.isEmpty && wantsPersonalScope req, username := username } ∧
      Held user m'
        { walk.m with
          personal := walk.m.status.isEmpty && wantsPersonalScope req, username := username } := by
    intro m' username hlater
    refine ⟨fun hidentity => ?_, fun network hnetwork =>
      hlater.holds (hwalks.held network hnetwork)⟩
    simp only [Membership.hasIdentity, Bool.or_eq_true, Bool.not_eq_true', Bool.and_eq_true,
      List.isEmpty_iff] at hidentity
    rcases hidentity with hlisted | ⟨hnothing, hpersonal⟩
    · refine hlater.rows _ (hwalks.listed fun hnil => ?_)
      simp [hnil] at hlisted
    · rcases hwalks.resolved with hrow | ⟨-, hnot⟩
      · exact hlater.rows _ hrow
      · rw [hreq₁, hpersonal] at hnot
        cases hnot
  dsimp only
  split
  · have hhandle : (sql (.userHandle user)).Uses LabelOp := by
      simp [LabelOp]
    refine (plain_conforms (hhandle.mapError _) label_plain).andThen fun m₃ handle hextends₃ => ?_
    cases handle with
    | none =>
        exact ⟨hwalks.later.trans (hextends.trans hextends₃),
          hidentified _ (hextends.trans hextends₃)⟩
    | some handle =>
        refine (plain_conforms (userLabel_uses _ _) label_plain).andThen
          fun m₄ label hextends₄ => ?_
        have hall := hextends.trans (hextends₃.trans hextends₄)
        exact ⟨hwalks.later.trans hall, hidentified _ hall⟩
  · exact ⟨hwalks.later.trans hextends, hidentified _ hextends⟩

theorem recordOwnDevice_conforms {device : Device} {membership : Membership} (now : Nat)
    (changed : List Scope) (hidentified : Identified device m membership) :
    (recordOwnDevice req user device membership now changed).Conforms (mon conf)
      (returns fun m' _ => Extends m m') m := by
  unfold recordOwnDevice announceSelf
  split
  · rename_i hjoins
    simp only [Bool.and_eq_true] at hjoins
    rw [conforms_act_bind]
    exact ⟨hidentified hjoins.2, fun recorded _ => extends_next (by simp)⟩
  · rw [conforms_act_bind]
    exact ⟨trivial, fun removed _ => extends_next (by simp)⟩

theorem settle_conforms (callerIp : IpAddr) (hreq : m.req = req) :
    (settle conf req callerIp user).Conforms (mon conf)
      (returns fun m' settled => m'.req = req ∧ Identified settled.device m' settled.m ∧
        Held user m' settled.m) m := by
  unfold settle
  simp only [conforms_act_bind]
  refine ⟨trivial, fun _ _ => ⟨trivial, fun now _ => ?_⟩⟩
  refine Conforms.through (fun m' networks => m'.req = req ∧ m'.networks = networks) ?_ ?_
  · refine Conforms.mapError_returns ((conforms_sql ..).mpr ⟨trivial, fun networks _ => ?_⟩)
    cases networks with
    | error error => trivial
    | ok networks => exact ⟨hreq, rfl⟩
  intro m₁ allNetworks hbegun
  obtain ⟨hreq₁, hnetworks⟩ := hbegun
  rw [conforms_act_bind]
  refine ⟨trivial, fun memo _ => ?_⟩
  have hwalked : ∀ net ∈ (if !memo then allNetworks else []), net ∈ m₁.networks := by
    intro net hnet
    split at hnet
    · rw [hnetworks]
      exact hnet
    · cases hnet
  refine (resolveDevice_conforms _ hwalked hreq₁).andThen fun m₂ resolved hresolved => ?_
  obtain ⟨hextends₂, hremembers, hresolved⟩ := hresolved
  refine (plain_conforms (retireSuperseded_plain []) fun _ h => h).andThen
    fun m₃ changed hextends₃ => ?_
  have hreq₃ : m₃.req = req := (hextends₂.trans hextends₃).req.trans hreq₁
  have hknown : ∀ net ∈ (if !memo then allNetworks else []), net ∈ m₃.networks := by
    rw [(hextends₂.trans hextends₃).networks]
    exact hwalked
  refine (resolveMembership_conforms _ _ now changed hreq₃ hknown (hremembers.extend hextends₃)
    (hresolved.extend hextends₃ fun _ _ => id)).andThen fun m₄ membership hmembership => ?_
  obtain ⟨hextends₄, hidentified, hheld⟩ := hmembership
  have hremember : (rememberRoleless user (!memo) membership.1).Uses fun o => plain o = true := by
    unfold rememberRoleless
    split
    · simp [plain]
    · trivial
  refine (plain_conforms hremember fun _ h => h).andThen fun m₅ _ hextends₅ => ?_
  have htouch : (touchIdentity req membership.1).Uses (TouchOp req membership.1.personal) := by
    unfold touchIdentity
    split
    · exact (touchDevice_uses _).mapError _
    · trivial
  refine (plain_conforms htouch touch_plain).andThen fun m₆ _ hextends₆ => ?_
  have hlater := hextends₅.trans hextends₆
  have hidentified₆ : Identified resolved.1 m₆ membership.1 :=
    fun hidentity => hlater.rows _ (hidentified hidentity)
  refine (recordOwnDevice_conforms now membership.2 hidentified₆).andThen
    fun m₇ changed hextends₇ => ?_
  refine ⟨?_, fun hidentity => hextends₇.rows _ (hidentified₆ hidentity), fun network hnetwork =>
    (hlater.trans hextends₇).holds (hheld network hnetwork)⟩
  exact (hextends₄.trans (hlater.trans hextends₇)).req.trans hreq₃

def attestedDevice (attestation : GuildAttestation) : Ipv4Addr × String :=
  (attestation.attestation.payload.attestation.wgIp,
    attestation.attestation.payload.attestation.deviceName)

theorem signWith_conforms (signer : Signer) (id : AttIdentity) (schema : Nat) :
    (signWith signer id schema).Conforms (mon conf)
      (returns fun m' blob => Extends m m' ∧
        (blob.payload.attestation.wgIp, blob.payload.attestation.deviceName) =
          (id.ip, id.deviceName)) m := by
  refine (conforms_act_bind ..).mpr ⟨trivial, fun now _ => ?_⟩
  split
  · rename_i blob hsigned
    unfold signAttestation at hsigned
    split at hsigned
    · cases hsigned
      exact ⟨extends_next (by simp), rfl⟩
    · cases hsigned
  · trivial

theorem grantAttestations_conforms (request : RegisterReq) (id : AttIdentity)
    (membership : Membership) (schema : Nat) (guilds : List GuildId) :
    (grantAttestations conf id membership schema guilds).Conforms (mon conf)
      (returns fun m' attestations => Extends m m' ∧
        ∀ attestation ∈ attestations, attestedDevice attestation = (id.ip, id.deviceName)) m := by
  induction guilds generalizing m with
  | nil =>
      refine ⟨Extends.refl m, fun attestation hattestation => ?_⟩
      cases hattestation
  | cons guild rest ih =>
      unfold grantAttestations
      have hkey := (@guildKeys_get_uses conf request guild).mapError internal
      refine (plain_conforms hkey fun o h => answer_plain o (plain_answer request o h)).andThen
        fun m₁ key hextends₁ => ?_
      refine (signWith_conforms key.signer id schema).mapError_returns.andThen
        fun m₂ blob hblob => ?_
      refine ih.andThen fun m₃ attestations hrest => ?_
      refine ⟨hextends₁.trans (hblob.1.trans hrest.1), fun attestation hattestation => ?_⟩
      rcases List.mem_cons.mp hattestation with rfl | hlater
      · exact hblob.2
      · exact hrest.2 attestation hlater

def GrantStands (m : Gate) (grant : Option Grant) : Prop :=
  ∀ granted, grant = some granted → ∀ attestation ∈ granted.attestations,
    attestedDevice attestation ∈ m.rows

theorem GrantStands.extend {m' : Gate} {grant : Option Grant} (hstands : GrantStands m grant)
    (hextends : Extends m m') : GrantStands m' grant :=
  fun granted hgranted attestation hattestation =>
    hextends.rows _ (hstands granted hgranted attestation hattestation)

theorem buildGrant_conforms {device : Device} {membership : Membership} (schema : Nat)
    (hidentified : Identified device m membership) :
    (buildGrant conf req user device membership schema).Conforms (mon conf)
      (returns fun m' grant => Extends m m' ∧ GrantStands m' grant) m := by
  unfold buildGrant
  split
  · rename_i hidentity
    refine (grantAttestations_conforms req _ membership schema _).andThen
      fun m' attestations hattested => ?_
    refine ⟨hattested.1, fun granted hgranted attestation hattestation => ?_⟩
    cases hgranted
    rw [hattested.2 attestation hattestation]
    exact hattested.1.rows _ (hidentified hidentity)
  · exact ⟨Extends.refl m, fun granted hgranted => nomatch hgranted⟩

theorem answer_conforms (alreadyEnrolled : Bool) {settled : Settled}
    (hidentified : Identified settled.device m settled.m) :
    (answer conf req user alreadyEnrolled settled).Conforms (mon conf)
      (returns fun m' built => Extends m m' ∧ GrantStands m' built.resp.grant) m := by
  have hplain : ∀ o, PlainOp req o → plain o = true :=
    fun o h => answer_plain o (plain_answer req o h)
  have hcounter : ∀ o, CounterOp o → plain o = true := fun o h => park_plain o (counter_park o h)
  unfold answer
  refine (buildGrant_conforms _ hidentified).andThen fun m₁ grant hgrant => ?_
  refine (plain_conforms (buildSeeds_uses conf _ _ _ _ _) answer_plain).andThen
    fun m₂ built hextends₂ => ?_
  refine (plain_conforms (deliverToken_uses _) hplain).andThen fun m₃ token hextends₃ => ?_
  refine (plain_conforms (bumpAll_uses _) hplain).andThen fun m₄ _ hextends₄ => ?_
  refine (plain_conforms (wakeAll_uses _) hplain).andThen fun m₅ _ hextends₅ => ?_
  refine (plain_conforms (aggregate_uses conf _) hcounter).andThen fun m₆ _ hextends₆ => ?_
  refine (plain_conforms (buildAnchors_uses conf _) hplain).andThen
    fun m₇ _ hextends₇ => ?_
  refine (plain_conforms (signRelease_uses conf _) hplain).andThen
    fun m₈ _ hextends₈ => ?_
  have hextends := hextends₂.trans (hextends₃.trans (hextends₄.trans (hextends₅.trans
    (hextends₆.trans (hextends₇.trans hextends₈)))))
  exact ⟨hgrant.1.trans hextends, hgrant.2.extend hextends⟩

def Granted (req : RegisterReq) (m : Gate) (built : Built) : Prop :=
  m.req = req ∧ GrantStands m built.resp.grant

theorem buildSnapshot_conforms (callerIp : IpAddr) (hreq : m.req = req) :
    (buildSnapshot conf req callerIp).Conforms (mon conf) (returns (Granted req)) m := by
  unfold buildSnapshot validatePeerReports
  split
  · trivial
  · refine (plain_conforms (resolveUser_uses conf) admission_plain).andThen
      fun m₁ caller hextends₁ => ?_
    refine (settle_conforms callerIp (hextends₁.req.trans hreq)).andThen
      fun m₂ settled hsettled => ?_
    exact (answer_conforms _ hsettled.2.1).returns_mono fun m₃ built hanswer =>
      ⟨hanswer.1.req.trans hsettled.1, hanswer.2⟩

theorem builds_granted : Builds conf req (mon conf) (fun m => m.req = req) (Granted req) where
  subscribe := fun _ _ hreq => ⟨trivial, fun _ => (extends_next (by simp)).req.trans hreq⟩
  build := fun _ callerIp hreq => buildSnapshot_conforms callerIp hreq
  acquire := fun _ _ hgranted =>
    ⟨trivial, fun _ => (extends_next (by simp)).req.trans hgranted.1⟩
  wait := by
    intro m o ho hreq
    have hplain : plain o = true := by
      rcases ho with hpark | rfl
      · exact park_plain o hpark
      · rfl
    refine ⟨plain_allowed hplain, fun answer _ => (extends_next ?_).req.trans hreq⟩
    rintro rfl
    cases hplain

def attested : Except ApiError Reply → List (Ipv4Addr × String)
  | .ok (.registered resp) => (resp.grant.elim [] Grant.attestations).map attestedDevice
  | _ => []

def grantedPost : Option Gate → Except ApiError Reply → Prop
  | some m, result => ∀ device ∈ attested result, device ∈ m.rows
  | none, _ => True

def gateOf : Call → Option Gate
  | .register req _ => some { req := req }
  | _ => none

theorem handle_granted (call : Call) :
    (handle conf call).Conforms (optional (mon conf)) grantedPost (gateOf call) := by
  have hside : ∀ call, gateOf call = none →
      (handle conf call).Conforms (optional (mon conf)) grantedPost (gateOf call) := by
    intro call hopening
    rw [hopening]
    refine (conforms_ignored _).mono fun m result hsame => ?_
    rw [hsame]
    trivial
  cases call with
  | register req callerIp =>
      apply conforms_followed
      have hregister : (handle conf (.register req callerIp)).Conforms (mon conf)
          (returns fun m reply => ∀ device ∈ attested (.ok reply), device ∈ m.rows)
          { req := req } := by
        have hbuilds : Builds conf req (mon conf) (fun m => m.req = req) (Granted req) :=
          builds_granted
        refine (hbuilds.register callerIp (m := { req := req }) rfl).andThen fun m resp hresp => ?_
        obtain ⟨built, hgranted, rfl⟩ := hresp
        intro device hdevice
        simp only [attested, List.mem_map] at hdevice
        obtain ⟨attestation, hattestation, rfl⟩ := hdevice
        cases hgrant : built.resp.grant with
        | none => simp [hgrant] at hattestation
        | some granted =>
            rw [hgrant] at hattestation
            exact hgranted.2 granted hgrant attestation hattestation
      refine hregister.mono fun m result hresult => ?_
      cases result with
      | ok reply => exact hresult
      | error error =>
          intro device hdevice
          cases hdevice
  | _ => exact hside _ rfl

end Gate

/-! The run. -/

structure Gates where
  requests : Table Nat Gate := ∅
  /-- A register recorded or attested a device that it never saw allocated. -/
  unallocated : Bool := false
  /-- A row was made for a user that holds no network and does not peer its own devices. -/
  unentitled : Bool := false

def standing (st : AppState) (pubkey : PubKey) : List (Ipv4Addr × String) :=
  (st.db.devices.get? pubkey).elim [] (rowStands conf)

def Gate.allocated (gate : Gate) (device : Ipv4Addr × String) : Bool :=
  device ∈ gate.rows && device.1 != 0

namespace Gates

def begin (h : Gates) (task : Nat) (req : RegisterReq) : Gates :=
  { h with requests := h.requests.insert task { req := req } }

def sees (h : Gates) (st' : AppState) (task : Nat) (o : Op) (answer : o.Res) : Gates :=
  { h with
    requests := h.requests.modify task fun gate =>
      (gate.learn o answer).add (standing conf st' gate.req.wgPubkey) }

def announces (h : Gates) (task : Nat) (devices : List (Ipv4Addr × String)) : Gates :=
  match h.requests.get? task with
  | some gate => { h with unallocated := h.unallocated || !devices.all gate.allocated }
  | none => h

def allocates (h : Gates) (task : Nat) (user : UserId) : Gates :=
  match h.requests.get? task with
  | some gate => { h with unentitled := h.unentitled || !gate.entitled user }
  | none => h

def goes (h : Gates) (task : Nat) : Op → Gates
  | .presence (.record _ _ p _ _) => h.announces task [(p.ip, p.deviceName)]
  | .presence (.recordSelf _ p _ _) => h.announces task [(p.ip, p.deviceName)]
  | .store (.insertDevice _ row) => h.allocates task row.userId
  | _ => h

def gone (h : Gates) (task : Nat) : Gates :=
  { h with requests := h.requests.erase task }

end Gates

def gates : Machine.Observer (machine conf) Gates where
  see := fun h _ event st' =>
    match event with
    | .called task (.register req _) => h.begin task req
    | .called .. => h
    | .did task o answer => (h.goes task o).sees conf st' task o answer
    | .ended task _ result => (h.announces task (Gate.attested result)).gone task
    | .dropped task _ => h.gone task
    | .moved _ => h

/-- The history knows of a request what its build knows, and all rows are of devices with an
address. -/
structure Gate.Matches (gate m : Gate) : Prop where
  req : gate.req = m.req
  networks : gate.networks = m.networks
  members : gate.members = m.members
  rows : ∀ row ∈ m.rows, row ∈ gate.rows
  assigned : ∀ row ∈ gate.rows, row.1 ≠ 0

structure GatesInv (h : Gates) (views : Nat → Option (Call × Option Gate)) : Prop where
  allocated : h.unallocated = false
  entitled : h.unentitled = false
  known : Machine.Shadows Gate.Matches h.requests views

section

variable {conf} {h : Gates} {views : Nat → Option (Call × Option Gate)} {task : Nat} {call : Call}
  {st st' : AppState} {choice : Choice} {m gate : Gate} {o : Op} {answer : o.Res}

theorem rowStands_assigned {row : DeviceRow} {device : Ipv4Addr × String}
    (hdevice : device ∈ rowStands conf row) : device.1 ≠ 0 := by
  unfold rowStands at hdevice
  split at hdevice
  · rename_i hvalid
    cases List.mem_singleton.mp hdevice
    exact addrFromIndex_ne_zero hvalid
  · cases hdevice

theorem standing_assigned {pubkey : PubKey} {device : Ipv4Addr × String}
    (hdevice : device ∈ standing conf st pubkey) : device.1 ≠ 0 := by
  unfold standing at hdevice
  cases hrow : st.db.devices.get? pubkey with
  | none => simp [hrow] at hdevice
  | some row =>
      rw [hrow] at hdevice
      exact rowStands_assigned hdevice

theorem told_standing {device : Ipv4Addr × String}
    (hexec : AppState.exec conf task o choice st = some (answer, st'))
    (hdevice : device ∈ m.told conf o answer) : device ∈ standing conf st' m.req.wgPubkey := by
  unfold Gate.told at hdevice
  split at hdevice
  · rename_i pubkey row
    split at hdevice
    · rename_i hown
      have hrun := (Database.step_ok (AppState.exec_store hexec)).2
      simp only [Database.run, Except.ok.injEq, Prod.mk.injEq] at hrun
      rw [standing, ← hown, ← hrun.2, hrun.1]
      exact hdevice
    · cases hdevice
  · rename_i pubkey row _
    split at hdevice
    · rename_i hown
      have hrun := (Database.step_ok (AppState.exec_store hexec)).2
      simp only [Database.run] at hrun
      split at hrun
      · cases hrun
      · rename_i devices hinsert
        have hafter := (Prod.mk.inj (Except.ok.inj hrun)).2
        rw [standing, ← hown, ← hafter, (UniqueTable.insertNew_some hinsert).2]
        simpa using hdevice
    · cases hdevice
  · cases hdevice

theorem learn_req : (gate.learn o answer).req = gate.req := by
  unfold Gate.learn
  split <;> rfl

theorem Gate.Matches.next (hmatches : gate.Matches m)
    (hexec : AppState.exec conf task o choice st = some (answer, st')) :
    ((gate.learn o answer).add (standing conf st' gate.req.wgPubkey)).Matches
      (m.next conf o answer) := by
  have hlearn : (gate.learn o answer).Matches (m.learn o answer) := by
    obtain ⟨hreq, hnetworks, hmembers, hrows, hassigned⟩ := hmatches
    unfold Gate.learn
    split
    · exact ⟨hreq, rfl, rfl, fun _ => id, nofun⟩
    · exact ⟨hreq, hnetworks, congrArg (List.cons _) hmembers, hrows, hassigned⟩
    · exact ⟨hreq, hnetworks, congrArg (List.cons _) hmembers, hrows, hassigned⟩
    · exact ⟨hreq, hnetworks, hmembers, hrows, hassigned⟩
  refine ⟨hlearn.req, hlearn.networks, hlearn.members, fun row hrow => ?_, fun row hrow => ?_⟩
  · rcases List.mem_append.mp hrow with htold | hbefore
    · refine List.mem_append_left _ ?_
      rw [hmatches.req]
      exact told_standing hexec htold
    · exact List.mem_append_right _ (hlearn.rows row hbefore)
  · rcases List.mem_append.mp hrow with hstanding | hbefore
    · exact standing_assigned hstanding
    · exact hlearn.assigned row hbefore

theorem Gate.Matches.entitled (hmatches : gate.Matches m) (user : UserId) :
    gate.entitled user = m.entitled user := by
  unfold Gate.entitled
  rw [hmatches.req, hmatches.networks, hmatches.members]

theorem Gate.Matches.allocated (hmatches : gate.Matches m) {device : Ipv4Addr × String}
    (hdevice : device ∈ m.rows) : gate.allocated device = true := by
  have hrow := hmatches.rows device hdevice
  have hassigned := hmatches.assigned device hrow
  simp_all [Gate.allocated]

theorem announces_rows {devices : List (Ipv4Addr × String)}
    (hdevices : ∀ gate, h.requests.get? task = some gate →
      ∀ device ∈ devices, gate.allocated device = true) : h.announces task devices = h := by
  unfold Gates.announces
  split
  · rename_i gate hgate
    have hall : devices.all gate.allocated = true := List.all_eq_true.mpr (hdevices gate hgate)
    simp [hall]
  · rfl

theorem GatesInv.goes (hinv : GatesInv h views) {μ : Option Gate}
    (hview : views task = some (call, μ))
    (hallows : (optional (Gate.mon conf)).allows μ o) : h.goes task o = h := by
  cases μ with
  | none =>
      have hignored := hinv.known.ignored hview
      unfold Gates.goes
      split
      · exact announces_rows fun gate hgate => nomatch hignored.symm.trans hgate
      · exact announces_rows fun gate hgate => nomatch hignored.symm.trans hgate
      · simp [Gates.allocates, hignored]
      · rfl
  | some m =>
      obtain ⟨gate, hgate, hmatches⟩ := hinv.known.followed hview
      have hone : ∀ device ∈ m.rows, h.announces task [device] = h := by
        intro device hdevice
        apply announces_rows
        intro gate' hgate' device' hdevice'
        cases hgate.symm.trans hgate'
        cases List.mem_singleton.mp hdevice'
        exact hmatches.allocated hdevice
      unfold Gates.goes
      split
      · exact hone _ hallows
      · exact hone _ hallows
      · have hentitled := (hmatches.entitled _).trans hallows
        simp [Gates.allocates, hgate, hentitled]
      · rfl

theorem GatesInv.called (hinv : GatesInv h views) (hfree : views task = none) :
    GatesInv ((gates conf).see h st (.called task call) st)
      (Function.update views task (some (call, Gate.gateOf call))) := by
  cases call
  case register req callerIp =>
    refine ⟨hinv.allocated, hinv.entitled, hinv.known.begin ?_⟩
    exact ⟨rfl, rfl, rfl, fun _ => id, nofun⟩
  all_goals exact ⟨hinv.allocated, hinv.entitled, hinv.known.ignore hfree⟩

theorem GatesInv.did (hinv : GatesInv h views) {μ : Option Gate}
    (hview : views task = some (call, μ)) (hallows : (optional (Gate.mon conf)).allows μ o)
    (hexec : AppState.exec conf task o choice st = some (answer, st')) :
    GatesInv ((gates conf).see h st (.did task o answer) st')
      (Function.update views task
        (some (call, (optional (Gate.mon conf)).next μ o answer))) := by
  have hsame : h.goes task o = h := hinv.goes hview hallows
  show GatesInv ((h.goes task o).sees conf st' task o answer) _
  rw [hsame]
  refine ⟨hinv.allocated, hinv.entitled, hinv.known.follow hview ?_⟩
  exact fun gate m hmatches => hmatches.next hexec

theorem GatesInv.gone (hinv : GatesInv h views) :
    GatesInv (h.gone task) (Function.update views task none) :=
  ⟨hinv.allocated, hinv.entitled, hinv.known.forget⟩

theorem GatesInv.ended (hinv : GatesInv h views) {μ : Option Gate}
    {result : Except ApiError Reply} (hview : views task = some (call, μ))
    (hpost : Gate.grantedPost μ result) :
    GatesInv ((gates conf).see h st (.ended task call result) st')
      (Function.update views task none) := by
  have hsame : h.announces task (Gate.attested result) = h := by
    apply announces_rows
    intro gate hgate device hdevice
    cases μ with
    | none => exact nomatch (hinv.known.ignored hview).symm.trans hgate
    | some m =>
        obtain ⟨gate', hgate', hmatches⟩ := hinv.known.followed hview
        cases hgate'.symm.trans hgate
        exact hmatches.allocated (hpost device hdevice)
  show GatesInv ((h.announces task (Gate.attested result)).gone task) _
  rw [hsame]
  exact hinv.gone

end

def gateDiscipline :
    Machine.Discipline (machine conf) (gates conf) Machine.free (Option Gate) where
  mon := optional (Gate.mon conf)
  opening := fun _ _ call => Gate.gateOf call
  post := fun _ m result => Gate.grantedPost m result
  inv := fun h _ views => GatesInv h views
  conforms := fun _ _ call => Gate.handle_granted call
  called := fun hinv hfree _ => hinv.called hfree
  did := fun hinv hview hallows hexec _ =>
    ⟨by cases ‹Option Gate› <;> trivial, hinv.did hview hallows hexec⟩
  ended := fun hinv hview hpost _ => hinv.ended hview hpost
  dropped := fun hinv _ _ => hinv.gone
  moved := fun hinv _ _ => hinv

/-- Whatever the role source answers from one call to the next, a device that is recorded or
attested stood in the store under an address of its own while it was, and no row is made for a
user that neither holds a network nor peers its own devices. -/
theorem gates_agree {st₀ : AppState} {c : (machine conf).Config} {h : Gates}
    (hreach : Machine.Reach (gates conf) Machine.free ((machine conf).idle st₀) {} c h) :
    h.unallocated = false ∧ h.unentitled = false := by
  have hstart : GatesInv {} fun _ => none := by
    refine ⟨rfl, rfl, fun task => ?_⟩
    simp
  obtain ⟨views, _, hinv⟩ := (gateDiscipline conf).run hstart hreach
  exact ⟨hinv.allocated, hinv.entitled⟩

/-- User 1 has logged in a device, and holds the network of role 7 in guild 5. -/
def roleHolder : AppState where
  db :=
    { networks := (∅ : Table (GuildId × RoleId) String).insert (5, 7) "lan"
      oauthAuthorized := (∅ : Table PubKey OauthRow).insert 1 ⟨1, 0⟩ }
  discord :=
    { guilds := (∅ : Table GuildId String).insert 5 "guild"
      roles := (∅ : Table GuildId (List (RoleId × String))).insert 5 [(7, "lan")]
      members := (∅ : Table (GuildId × UserId) MemberRoles).insert (5, 1) ⟨"ann", [7]⟩ }

open Script in
def losesRole : Script Conf.small :=
  call (.register { wgPubkey := 1, deviceName := "pc", possessionProof := some ⟨1, 7⟩ } (.v4 0)) ++
    steps 0 24 (.text "token") ++ move (.member 5 1 none) ++ steps 0 55 (.key 99)

theorem gates_agree_recorded :
    ∃ c h, Machine.Reach (gates Conf.small) Machine.free
        ((machine Conf.small).idle roleHolder) {} c h ∧
      (c.shared.presence.rowAt (.network 5 7) 1).isSome = true ∧
        h.unallocated = false ∧ h.unentitled = false := by
  have hplay : (Machine.play (gates Conf.small) (fun _ _ _ => true)
      ((machine Conf.small).idle roleHolder) {} losesRole).any
        (fun last => (last.1.shared.presence.rowAt (.network 5 7) 1).isSome) = true := by
    decide
  have hrun : ∃ c h, Machine.Reach (gates Conf.small) Machine.free
      ((machine Conf.small).idle roleHolder) {} c h ∧
        (c.shared.presence.rowAt (.network 5 7) 1).isSome = true :=
    Machine.reach_of_play (fun _ _ _ _ => trivial) hplay
  obtain ⟨c, h, hreach, hrecorded⟩ := hrun
  exact ⟨c, h, hreach, hrecorded, gates_agree Conf.small hreach⟩

end UnityLan.Coordinator
