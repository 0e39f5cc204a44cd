import UnityLan.Coordinator.Lookup

namespace UnityLan.Coordinator

open UnityLan.Foundation Prog

/-! What a revocation of roles means for the requests after it. -/

/-- The history of one gateway event: a member of a guild is left with the held
roles. -/
structure Revocation where
  device : Nat → Option PubKey := fun _ => none
  /-- The tasks that handle the event, with no grant since they were called. -/
  handling : Nat → Bool := fun _ => false
  /-- Such a handler has returned, and there was no grant since. -/
  revoked : Bool := false
  /-- The tasks called since then. -/
  later : Nat → Bool := fun _ => false
  /-- The tasks that go by a lookup of the member, and whether what they go by was
  fetched before the event. -/
  carried : Table Nat Bool := ∅
  cacheOld : Bool := false
  memoOld : Bool := false
  /-- The member was recorded in a role outside the held ones. -/
  recorded : Bool := false
  /-- A later request was answered from what was fetched before the event. -/
  stale : Bool := false

variable (guild : GuildId) (user : UserId) (held : List RoleId)

def within (st : AppState) : Bool :=
  match st.discord.members.get? (guild, user) with
  | some roles => roles.roleIds.all held.contains
  | none => true

def handles : Call → Bool
  | .memberUpdate g u left => isMember guild user g u && left == held
  | .memberRemove g u => isMember guild user g u && held == []
  | _ => false

def deviceOf : Call → Option PubKey
  | .register req _ => some req.wgPubkey
  | _ => none

namespace Revocation

def called (r : Revocation) (st : AppState) (task : Nat) (call : Call) : Revocation :=
  { r with
    device := Function.update r.device task (deviceOf call)
    handling :=
      Function.update r.handling task (handles guild user held call && within guild user held st)
    later := Function.update r.later task r.revoked }

def happened (r : Revocation) (st : AppState) : Revocation :=
  { r with
    carried := r.carried.mapValues fun _ _ => true
    memoOld := (st.roleless.seen.get? user).isSome }

def isOld (r : Revocation) (task : Nat) : Bool :=
  r.carried.get? task == some true

def didCaches (r : Revocation) (st : AppState) (task : Nat) :
    (o : RoleCaches.Op) → o.Res → Revocation
  | .forget g u, _ =>
      if isMember guild user g u then
        { (if r.handling task then r.happened user st else r) with cacheOld := false }
      else r
  | .cachedMember g u, some _ =>
      if isMember guild user g u then
        { r with
          carried := r.carried.insert task r.cacheOld
          stale := r.stale || r.revoked && r.later task && r.cacheOld }
      else r
  | .storeMember g u _, _ =>
      if isMember guild user g u then { r with cacheOld := r.isOld task } else r
  | _, _ => r

def didRoleless (r : Revocation) (task : Nat) : (o : RolelessMemo.Op) → o.Res → Revocation
  | .fresh u, answer =>
      { r with
        stale := r.stale || u == user && answer && r.revoked && r.later task && r.memoOld }
  | .remember u, _ => if u == user then { r with memoOld := r.isOld task } else r
  | .forget u, _ => if u == user then { r with memoOld := false } else r

def didPresence (r : Revocation) (task : Nat) : Presence.Op → Revocation
  | .record g role p _ _ =>
      if isMember guild user g p.userId && r.revoked && !held.contains role then
        { r with recorded := true }
      else r
  | o => if announces (r.device task) o then { r with carried := r.carried.erase task } else r

def gone (r : Revocation) (task : Nat) : Revocation :=
  { r with
    handling := Function.update r.handling task false
    carried := r.carried.erase task }

def moved (r : Revocation) (st' : AppState) : Revocation :=
  if within guild user held st' then r
  else { r with handling := fun _ => false, revoked := false, later := fun _ => false }

end Revocation

variable (conf : Conf)

def revocations : Machine.Observer (machine conf) Revocation where
  see := fun r st event st' =>
    match event with
    | .called task call => r.called guild user held st task call
    | .did task (.caches o) answer => r.didCaches guild user st task o answer
    | .did task (.roleless o) answer => r.didRoleless user task o answer
    | .did task (.presence o) _ => r.didPresence guild user held task o
    | .did task (.fetchMember g u) _ =>
        if isMember guild user g u then { r with carried := r.carried.insert task false } else r
    | .did .. => r
    | .ended task _ (.ok _) =>
        { r.gone task with revoked := r.revoked || r.handling task }
    | .ended task _ (.error _) => r.gone task
    | .dropped task _ => r.gone task
    | .moved _ => r.moved guild user held st'

/-- When the event is handled, no request is between a lookup of the member and its
announcement, and none has just remembered the member as role-less. -/
def noLookupUnderway (r : Revocation) (st : AppState) : (machine conf).Event → Bool
  | .did task (.caches (.forget g u)) _ =>
      !(isMember guild user g u && r.handling task) ||
        r.carried.rows.isEmpty && (st.roleless.seen.get? user).isNone
  | _ => true

/-! The invariant. -/

def Below (roles : Option MemberRoles) : Prop :=
  ∀ found, roles = some found → ∀ role ∈ found.roleIds, role ∈ held

/-- From the event on, and until a grant, nothing anybody goes by exceeds the held
roles or is older than the event. -/
structure Clean (r : Revocation) (st : AppState) (views : Nat → Option (Call × Looked)) :
    Prop where
  within : within guild user held st = true
  tasks : ∀ task call μ, views task = some (call, μ) →
    ∀ member, μ.roles = some member → Below held member
  cache : ∀ entry, st.caches.members.get? (guild, user) = some entry → Below held entry.roles
  carried : ∀ task, r.carried.get? task ≠ some true
  cacheOld : r.cacheOld = false
  memoOld : r.memoOld = false

def past (r : Revocation) (views : Nat → Option (Call × Looked)) : Prop :=
  r.revoked = true ∨
    ∃ task call μ, views task = some (call, μ) ∧ r.handling task = true ∧ μ.forgot = true

structure RevocationInv (r : Revocation) (st : AppState)
    (views : Nat → Option (Call × Looked)) : Prop where
  recorded : r.recorded = false
  stale : r.stale = false
  device : ∀ task call μ, views task = some (call, μ) → μ.device = r.device task
  carried : ∀ task call μ, views task = some (call, μ) → μ.roles.isSome = true →
    (r.carried.get? task).isSome = true
  handling : ∀ task call μ, views task = some (call, μ) → r.handling task = true →
    handles guild user held call = true ∧ within guild user held st = true
  clean : past r views → Clean guild user held r st views

section

variable {conf} {guild} {user} {held} {r : Revocation} {st st' : AppState}
  {views : Nat → Option (Call × Looked)} {task : Nat} {call : Call} {μ : Looked}

theorem within_same (hdiscord : st'.discord = st.discord) :
    within guild user held st' = within guild user held st := by
  unfold within
  rw [hdiscord]

theorem past_set {r' : Revocation} {μ' : Looked} (hview : views task = some (call, μ))
    (hrevoked : r'.revoked = r.revoked) (hhandling : r'.handling = r.handling)
    (hforgot : r.handling task = true → μ'.forgot = true → μ.forgot = true)
    (hpast : past r' (Function.update views task (some (call, μ')))) : past r views := by
  rcases hpast with hdone | ⟨other, call', μ'', hother, hhandles, hgone⟩
  · exact .inl (hrevoked ▸ hdone)
  · rw [hhandling] at hhandles
    rcases Machine.update_some_cases hother with ⟨rfl, heq⟩ | ⟨_, hother⟩
    · obtain ⟨rfl, rfl⟩ := Prod.mk.inj heq
      exact .inr ⟨_, call', μ, hview, hhandles, hforgot hhandles hgone⟩
    · exact .inr ⟨other, call', μ'', hother, hhandles, hgone⟩

/-- A step of a task that is not the event: it keeps the promises if what the task
goes by, the cache and the ages stay as the event leaves them. -/
theorem RevocationInv.of_step {r' : Revocation} {μ' : Looked}
    (hinv : RevocationInv guild user held r st views) (hview : views task = some (call, μ))
    (hrevoked : r'.revoked = r.revoked) (hhandling : r'.handling = r.handling)
    (hdevices : r'.device = r.device) (hdiscord : st'.discord = st.discord)
    (hdevice : μ'.device = μ.device)
    (hforgot : r.handling task = true → μ'.forgot = true → μ.forgot = true)
    (hcarried : μ'.roles.isSome = true → (r'.carried.get? task).isSome = true)
    (hothers : ∀ other, other ≠ task → r'.carried.get? other = r.carried.get? other)
    (hrecorded : (past r views → Clean guild user held r st views) → r'.recorded = false)
    (hstale : (past r views → Clean guild user held r st views) → r'.stale = false)
    (hroles : Clean guild user held r st views → ∀ member, μ'.roles = some member →
      Below held member)
    (hcache : Clean guild user held r st views → ∀ entry,
      st'.caches.members.get? (guild, user) = some entry → Below held entry.roles)
    (hages : Clean guild user held r st views →
      r'.carried.get? task ≠ some true ∧ r'.cacheOld = false ∧ r'.memoOld = false) :
    RevocationInv guild user held r' st' (Function.update views task (some (call, μ'))) where
  recorded := hrecorded hinv.clean
  stale := hstale hinv.clean
  device := by
    intro other call' μ'' hother
    rw [hdevices]
    rcases Machine.update_some_cases hother with ⟨rfl, heq⟩ | ⟨_, hother⟩
    · obtain ⟨rfl, rfl⟩ := Prod.mk.inj heq
      exact hdevice.trans (hinv.device _ _ _ hview)
    · exact hinv.device other call' μ'' hother
  carried := by
    intro other call' μ'' hother hsome
    rcases Machine.update_some_cases hother with ⟨rfl, heq⟩ | ⟨hne, hother⟩
    · obtain ⟨rfl, rfl⟩ := Prod.mk.inj heq
      exact hcarried hsome
    · rw [hothers other hne]
      exact hinv.carried other call' μ'' hother hsome
  handling := by
    intro other call' μ'' hother hhandles
    rw [within_same hdiscord]
    rw [hhandling] at hhandles
    rcases Machine.update_some_cases hother with ⟨rfl, heq⟩ | ⟨_, hother⟩
    · obtain ⟨rfl, rfl⟩ := Prod.mk.inj heq
      exact hinv.handling _ _ _ hview hhandles
    · exact hinv.handling other call' μ'' hother hhandles
  clean := by
    intro hpast
    have hclean := hinv.clean (past_set hview hrevoked hhandling hforgot hpast)
    obtain ⟨hage, hcacheOld, hmemoOld⟩ := hages hclean
    refine ⟨(within_same hdiscord).trans hclean.within, ?_, hcache hclean, ?_, hcacheOld, hmemoOld⟩
    · intro other call' μ'' hother
      rcases Machine.update_some_cases hother with ⟨rfl, heq⟩ | ⟨_, hother⟩
      · obtain ⟨rfl, rfl⟩ := Prod.mk.inj heq
        exact hroles hclean
      · exact hclean.tasks other call' μ'' hother
    · intro other
      by_cases hsame : other = task
      · rw [hsame]
        exact hage
      · rw [hothers other hsame]
        exact hclean.carried other

theorem RevocationInv.of_quiet (hinv : RevocationInv guild user held r st views)
    (hview : views task = some (call, μ)) (hdiscord : st'.discord = st.discord)
    (hcaches : ∀ entry, st'.caches.members.get? (guild, user) = some entry →
      st.caches.members.get? (guild, user) = some entry) :
    RevocationInv guild user held r st' (Function.update views task (some (call, μ))) :=
  hinv.of_step hview rfl rfl rfl hdiscord rfl (fun _ h => h) (hinv.carried _ _ _ hview)
    (fun _ _ => rfl)
    (fun _ => hinv.recorded) (fun _ => hinv.stale) (fun hclean => hclean.tasks _ _ _ hview)
    (fun hclean entry hentry => hclean.cache entry (hcaches entry hentry))
    (fun hclean => ⟨hclean.carried task, hclean.cacheOld, hclean.memoOld⟩)

variable {choice : Choice}

theorem RevocationInv.happens (hinv : RevocationInv guild user held r st views)
    (hview : views task = some (call, μ)) (hhandling : r.handling task = true)
    (hnone : ∀ other, r.carried.get? other = none)
    (hmemo : (st.roleless.seen.get? user).isNone = true)
    (hdiscord : st'.discord = st.discord)
    (hcache : st'.caches.members.get? (guild, user) = none) :
    RevocationInv guild user held { r.happened user st with cacheOld := false } st'
      (Function.update views task (some (call, { μ with forgot := true }))) := by
  have hcarried : ∀ other, (r.happened user st).carried.get? other = none := by
    intro other
    simp [Revocation.happened, hnone other]
  have hroles : ∀ other call' μ', views other = some (call', μ') → μ'.roles = none := by
    intro other call' μ' hother
    by_contra hsome
    have hthere := hinv.carried other call' μ' hother (Option.isSome_iff_ne_none.mpr hsome)
    simp [hnone other] at hthere
  refine ⟨hinv.recorded, hinv.stale, ?_, ?_, ?_, fun _ => ?_⟩
  · intro other call' μ' hother
    rcases Machine.update_some_cases hother with ⟨rfl, heq⟩ | ⟨_, hother⟩
    · obtain ⟨rfl, rfl⟩ := Prod.mk.inj heq
      exact hinv.device other call' μ hview
    · exact hinv.device other call' μ' hother
  · intro other call' μ' hother hsome
    rcases Machine.update_some_cases hother with ⟨rfl, heq⟩ | ⟨_, hother⟩
    · obtain ⟨rfl, rfl⟩ := Prod.mk.inj heq
      simp [hroles _ _ _ hview] at hsome
    · simp [hroles other call' μ' hother] at hsome
  · intro other call' μ' hother hhandles
    rw [within_same hdiscord]
    rcases Machine.update_some_cases hother with ⟨rfl, heq⟩ | ⟨_, hother⟩
    · obtain ⟨rfl, rfl⟩ := Prod.mk.inj heq
      exact hinv.handling _ _ _ hview hhandles
    · exact hinv.handling other call' μ' hother hhandles
  · refine ⟨?_, ?_, ?_, ?_, rfl, ?_⟩
    · rw [within_same hdiscord]
      exact (hinv.handling _ _ _ hview hhandling).2
    · intro other call' μ' hother member hmember
      rcases Machine.update_some_cases hother with ⟨rfl, heq⟩ | ⟨_, hother⟩
      · obtain ⟨rfl, rfl⟩ := Prod.mk.inj heq
        simp [hroles _ _ _ hview] at hmember
      · simp [hroles other call' μ' hother] at hmember
    · intro entry hentry
      rw [hcache] at hentry
      cases hentry
    · intro other hold
      rw [hcarried other] at hold
      cases hold
    · rw [Option.isNone_iff_eq_none] at hmemo
      simp [Revocation.happened, hmemo]

theorem RevocationInv.did_forget {g : GuildId} {u : UserId}
    (hinv : RevocationInv guild user held r st views) (hview : views task = some (call, μ))
    (hallowed : noLookupUnderway guild user conf r st (.did task (.caches (.forget g u)) ()) = true)
    (hdiscord : st'.discord = st.discord)
    (hcaches : st.caches.forget g u = st'.caches) :
    RevocationInv guild user held (r.didCaches guild user st task (.forget g u) ()) st'
      (Function.update views task
        (some (call, (Looked.mon guild user).next μ (.caches (.forget g u)) ()))) := by
  by_cases hmember : isMember guild user g u = true
  · have hkey : g = guild ∧ u = user := by simpa [isMember] using hmember
    obtain ⟨rfl, rfl⟩ := hkey
    have hgone : st'.caches.members.get? (g, u) = none := by
      simp [← hcaches, RoleCaches.forget]
    have hnext : (Looked.mon g u).next μ (.caches (.forget g u)) () =
        { μ with forgot := true } := by
      simp [Looked.mon, Looked.next, hmember]
    rw [hnext]
    simp only [Revocation.didCaches, hmember, if_true]
    by_cases hhandling : r.handling task = true
    · have hquiet : r.carried.rows.isEmpty = true ∧ (st.roleless.seen.get? u).isNone = true := by
        simpa [noLookupUnderway, hmember, hhandling] using hallowed
      rw [if_pos hhandling]
      refine hinv.happens hview hhandling (fun other => ?_) hquiet.2 hdiscord hgone
      simp only [Table.get?, List.isEmpty_iff.mp hquiet.1, List.find?_nil, Option.map_none]
    · rw [if_neg hhandling]
      exact hinv.of_step hview rfl rfl rfl hdiscord rfl (fun h _ => absurd h hhandling)
        (hinv.carried task call μ hview) (fun _ _ => rfl) (fun _ => hinv.recorded)
        (fun _ => hinv.stale) (fun hclean => hclean.tasks task call μ hview)
        (fun _ entry hentry => by rw [hgone] at hentry; cases hentry)
        (fun hclean => ⟨hclean.carried task, rfl, hclean.memoOld⟩)
  · have hnext : (Looked.mon guild user).next μ (.caches (.forget g u)) () = μ := by
      simp [Looked.mon, Looked.next, hmember]
    rw [hnext]
    simp only [Revocation.didCaches, hmember, Bool.false_eq_true, if_false]
    refine hinv.of_quiet hview hdiscord fun entry hentry => ?_
    rw [← hcaches, RoleCaches.forget, Table.get?_erase] at hentry
    split at hentry
    · cases hentry
    · exact hentry

theorem RevocationInv.did_caches {o : RoleCaches.Op} {answer : o.Res}
    (hinv : RevocationInv guild user held r st views) (hview : views task = some (call, μ))
    (hallows : (Looked.mon guild user).allows μ (.caches o))
    (hallowed : noLookupUnderway guild user conf r st (.did task (.caches o) answer) = true)
    (hdiscord : st'.discord = st.discord)
    (hstep : st.caches.step st.instant o = (answer, st'.caches)) :
    RevocationInv guild user held (r.didCaches guild user st task o answer) st'
      (Function.update views task
        (some (call, (Looked.mon guild user).next μ (.caches o) answer))) := by
  have hkept : ∀ members, st'.caches.members = members → members = st.caches.members →
      ∀ entry, st'.caches.members.get? (guild, user) = some entry →
        st.caches.members.get? (guild, user) = some entry := by
    rintro _ hmembers rfl entry hentry
    rwa [hmembers] at hentry
  cases o with
  | forget g u =>
      exact hinv.did_forget hview hallowed hdiscord (congrArg Prod.snd hstep)
  | cachedMember g u =>
      obtain ⟨hhit, hcaches⟩ := Prod.mk.inj hstep
      cases answer with
      | none =>
          exact hinv.of_quiet hview hdiscord (hkept _ (congrArg _ hcaches.symm) rfl)
      | some member =>
          by_cases hmember : isMember guild user g u = true
          · obtain ⟨rfl, rfl⟩ : g = guild ∧ u = user := by simpa [isMember] using hmember
            have hnext : (Looked.mon g u).next μ (.caches (.cachedMember g u)) (some member) =
                { μ with roles := some member } := by
              simp [Looked.mon, Looked.next, Looked.learn, hmember]
            rw [hnext]
            simp only [Revocation.didCaches, hmember, if_true]
            obtain ⟨entry, hentry, hroles⟩ : ∃ entry,
                st.caches.members.get? (g, u) = some entry ∧ entry.roles = member := by
              simp only [RoleCaches.cachedMember] at hhit
              split at hhit
              · rename_i entry hentry
                split at hhit
                · exact ⟨entry, hentry, Option.some.inj hhit⟩
                · cases hhit
              · cases hhit
            refine hinv.of_step hview rfl rfl rfl hdiscord rfl (fun _ h => h) (by simp)
              (fun other hne => by simp [hne]) (fun _ => hinv.recorded) ?_ ?_ ?_ ?_
            · intro hclean
              cases hrevoked : r.revoked with
              | false => simp [hinv.stale]
              | true => simp [hinv.stale, (hclean (.inl hrevoked)).cacheOld]
            · rintro hclean _ hsome
              cases hsome
              exact hroles ▸ hclean.cache entry hentry
            · intro hclean entry hentry
              exact hclean.cache entry (hkept _ (congrArg _ hcaches.symm) rfl entry hentry)
            · exact fun hclean => ⟨by simp [hclean.cacheOld], hclean.cacheOld, hclean.memoOld⟩
          · have hnext : (Looked.mon guild user).next μ (.caches (.cachedMember g u))
                (some member) = μ := by
              simp [Looked.mon, Looked.next, Looked.learn, hmember]
            rw [hnext]
            simp only [Revocation.didCaches, hmember, Bool.false_eq_true, if_false]
            exact hinv.of_quiet hview hdiscord (hkept _ (congrArg _ hcaches.symm) rfl)
  | storeMember g u roles =>
      have hcaches : st.caches.storeMember st.instant g u roles = st'.caches :=
        congrArg Prod.snd hstep
      have hstored : ∀ entry, st'.caches.members.get? (guild, user) = some entry →
          (isMember guild user g u = true ∧ entry.roles = roles) ∨
            st.caches.members.get? (guild, user) = some entry := by
        intro entry hentry
        rw [← hcaches] at hentry
        rcases RoleCaches.mem_storeMember hentry with ⟨hkey, rfl⟩ | hold
        · obtain ⟨rfl, rfl⟩ := Prod.mk.inj hkey
          exact .inl ⟨by simp [isMember], rfl⟩
        · exact .inr hold
      by_cases hmember : isMember guild user g u = true
      · simp only [Revocation.didCaches, hmember, if_true]
        have hlooked : μ.roles = some roles := hallows hmember
        refine hinv.of_step hview rfl rfl rfl hdiscord rfl (fun _ h => h)
          (hinv.carried _ _ _ hview) (fun _ _ => rfl) (fun _ => hinv.recorded)
          (fun _ => hinv.stale) (fun hclean => hclean.tasks _ _ _ hview) ?_ ?_
        · intro hclean entry hentry
          rcases hstored entry hentry with ⟨_, rfl⟩ | hold
          · exact hclean.tasks _ _ _ hview _ hlooked
          · exact hclean.cache entry hold
        · intro hclean
          have hyoung : r.isOld task = false := by
            simpa [Revocation.isOld] using hclean.carried task
          exact ⟨hclean.carried task, hyoung, hclean.memoOld⟩
      · simp only [Revocation.didCaches, hmember, Bool.false_eq_true, if_false]
        refine hinv.of_quiet hview hdiscord fun entry hentry => ?_
        rcases hstored entry hentry with ⟨hsame, _⟩ | hold
        · exact absurd hsame hmember
        · exact hold
  | _ =>
      have hmembers := (congrArg (fun result => result.2.members) hstep).symm
      exact hinv.of_quiet hview hdiscord (hkept _ hmembers rfl)

theorem RevocationInv.did_roleless {o : RolelessMemo.Op} {answer : o.Res}
    (hinv : RevocationInv guild user held r st views) (hview : views task = some (call, μ))
    (hdiscord : st'.discord = st.discord) (hcaches : st'.caches = st.caches) :
    RevocationInv guild user held (r.didRoleless user task o answer) st'
      (Function.update views task (some (call, μ))) := by
  have hcache : Clean guild user held r st views → ∀ entry,
      st'.caches.members.get? (guild, user) = some entry → Below held entry.roles := by
    rw [hcaches]
    exact fun hclean => hclean.cache
  cases o with
  | fresh u =>
      refine hinv.of_step hview rfl rfl rfl hdiscord rfl (fun _ h => h)
        (hinv.carried _ _ _ hview) (fun _ _ => rfl) (fun _ => hinv.recorded) ?_
        (fun hclean => hclean.tasks _ _ _ hview) hcache
        (fun hclean => ⟨hclean.carried task, hclean.cacheOld, hclean.memoOld⟩)
      intro hclean
      cases hrevoked : r.revoked with
      | false => simp [Revocation.didRoleless, hinv.stale, hrevoked]
      | true => simp [Revocation.didRoleless, hinv.stale, (hclean (.inl hrevoked)).memoOld]
  | remember u =>
      by_cases hsame : u = user
      · simp only [Revocation.didRoleless, hsame, beq_self_eq_true, if_true]
        refine hinv.of_step hview rfl rfl rfl hdiscord rfl (fun _ h => h)
          (hinv.carried _ _ _ hview) (fun _ _ => rfl) (fun _ => hinv.recorded)
          (fun _ => hinv.stale) (fun hclean => hclean.tasks _ _ _ hview) hcache
          (fun hclean => ⟨hclean.carried task, hclean.cacheOld, ?_⟩)
        simpa [Revocation.isOld] using hclean.carried task
      · simp only [Revocation.didRoleless, beq_iff_eq, hsame, if_false]
        exact hinv.of_quiet hview hdiscord (by rw [hcaches]; exact fun _ h => h)
  | forget u =>
      by_cases hsame : u = user
      · simp only [Revocation.didRoleless, hsame, beq_self_eq_true, if_true]
        exact hinv.of_step hview rfl rfl rfl hdiscord rfl (fun _ h => h)
          (hinv.carried _ _ _ hview) (fun _ _ => rfl) (fun _ => hinv.recorded)
          (fun _ => hinv.stale) (fun hclean => hclean.tasks _ _ _ hview) hcache
          (fun hclean => ⟨hclean.carried task, hclean.cacheOld, rfl⟩)
      · simp only [Revocation.didRoleless, beq_iff_eq, hsame, if_false]
        exact hinv.of_quiet hview hdiscord (by rw [hcaches]; exact fun _ h => h)

theorem RevocationInv.did_fetch {g : GuildId} {u : UserId} {answer : MemberAnswer}
    (hinv : RevocationInv guild user held r st views) (hview : views task = some (call, μ))
    (hexec : AppState.exec conf task (.fetchMember g u) choice st = some (answer, st')) :
    RevocationInv guild user held
      (if isMember guild user g u then { r with carried := r.carried.insert task false } else r)
      st' (Function.update views task
        (some (call, (Looked.mon guild user).next μ (.fetchMember g u) answer))) := by
  have hframe := AppState.exec_frame hexec
  have hcaches : st'.caches = st.caches := hframe.caches fun _ h => by cases h
  by_cases hmember : isMember guild user g u = true
  · obtain ⟨rfl, rfl⟩ : g = guild ∧ u = user := by simpa [isMember] using hmember
    have hnext : (Looked.mon g u).next μ (.fetchMember g u) answer =
        { μ with roles := some answer.roles } := by
      simp [Looked.mon, Looked.next, Looked.learn, hmember]
    rw [hnext, if_pos hmember]
    refine hinv.of_step hview rfl rfl rfl hframe.discord rfl (fun _ h => h) (by simp)
      (fun other hne => by simp [hne]) (fun _ => hinv.recorded) (fun _ => hinv.stale) ?_
      (by rw [hcaches]; exact fun hclean => hclean.cache)
      (fun hclean => ⟨by simp, hclean.cacheOld, hclean.memoOld⟩)
    rintro hclean _ hsome
    cases hsome
    intro found hfound role hrole
    have hwithin := hclean.within
    rw [within, AppState.exec_fetchMember hexec hfound] at hwithin
    simpa using List.all_eq_true.mp hwithin role hrole
  · have hnext : (Looked.mon guild user).next μ (.fetchMember g u) answer = μ := by
      simp [Looked.mon, Looked.next, Looked.learn, hmember]
    rw [hnext, if_neg hmember]
    exact hinv.of_quiet hview hframe.discord (by rw [hcaches]; exact fun _ h => h)

theorem RevocationInv.did_presence {o : Presence.Op} {answer : o.Res}
    (hinv : RevocationInv guild user held r st views) (hview : views task = some (call, μ))
    (hallows : (Looked.mon guild user).allows μ (.presence o))
    (hdiscord : st'.discord = st.discord) (hcaches : st'.caches = st.caches) :
    RevocationInv guild user held (r.didPresence guild user held task o) st'
      (Function.update views task
        (some (call, (Looked.mon guild user).next μ (.presence o) answer))) := by
  have hcache : Clean guild user held r st views → ∀ entry,
      st'.caches.members.get? (guild, user) = some entry → Below held entry.roles := by
    rw [hcaches]
    exact fun hclean => hclean.cache
  have hdevice := hinv.device _ _ _ hview
  -- every operation but a record only ends what the task goes by, or does nothing
  have hothers : RevocationInv guild user held
      (if announces (r.device task) o then { r with carried := r.carried.erase task } else r) st'
      (Function.update views task
        (some (call, if announces μ.device o then { μ with roles := none } else μ))) := by
    rw [hdevice]
    by_cases hannounces : announces (r.device task) o = true
    · rw [if_pos hannounces, if_pos hannounces]
      exact hinv.of_step hview rfl rfl rfl hdiscord hdevice.symm (fun _ h => h)
        (fun hsome => by simp at hsome) (fun other hne => by simp [hne])
        (fun _ => hinv.recorded) (fun _ => hinv.stale) (fun _ _ hsome => by cases hsome) hcache
        (fun hclean => ⟨by simp, hclean.cacheOld, hclean.memoOld⟩)
    · rw [if_neg hannounces, if_neg hannounces]
      exact hinv.of_quiet hview hdiscord (by rw [hcaches]; exact fun _ h => h)
  cases o with
  | record g role p clientVersion now =>
      have hnext : (Looked.mon guild user).next μ
          (.presence (.record g role p clientVersion now)) answer = μ := rfl
      rw [hnext]
      by_cases hbad : (isMember guild user g p.userId && r.revoked && !held.contains role) = true
      · simp only [Bool.and_eq_true, Bool.not_eq_true', List.contains_eq_mem,
          decide_eq_false_iff_not] at hbad
        obtain ⟨⟨hmember, hrevoked⟩, hrole⟩ := hbad
        obtain ⟨roles, hroles, hheld⟩ := hallows hmember
        have hbelow := (hinv.clean (.inl hrevoked)).tasks _ _ _ hview _ hroles
        exact absurd (hbelow roles rfl role hheld) hrole
      · simp only [Revocation.didPresence, hbad, Bool.false_eq_true, if_false]
        exact hinv.of_quiet hview hdiscord (by rw [hcaches]; exact fun _ h => h)
  | _ => exact hothers

theorem RevocationInv.did {o : Op} {answer : o.Res}
    (hinv : RevocationInv guild user held r st views) (hview : views task = some (call, μ))
    (hallows : (Looked.mon guild user).allows μ o)
    (hexec : AppState.exec conf task o choice st = some (answer, st'))
    (hallowed : noLookupUnderway guild user conf r st (.did task o answer) = true) :
    RevocationInv guild user held
      ((revocations guild user held conf).see r st (.did task o answer) st') st'
      (Function.update views task (some (call, (Looked.mon guild user).next μ o answer))) := by
  have hframe := AppState.exec_frame hexec
  have hother : (∀ c, o ≠ .caches c) → st'.caches = st.caches := hframe.caches
  cases o with
  | caches o =>
      exact hinv.did_caches hview hallows hallowed hframe.discord (AppState.exec_caches hexec)
  | roleless o =>
      exact hinv.did_roleless hview hframe.discord (hother fun _ h => by cases h)
  | presence o =>
      exact hinv.did_presence hview hallows hframe.discord (hother fun _ h => by cases h)
  | fetchMember g u => exact hinv.did_fetch hview hexec
  | _ =>
      refine hinv.of_quiet hview hframe.discord fun entry hentry => ?_
      rwa [hother fun _ h => by cases h] at hentry

theorem RevocationInv.called (hinv : RevocationInv guild user held r st views)
    (hfresh : views task = none) :
    RevocationInv guild user held (r.called guild user held st task call) st
      (Function.update views task (some (call, lookedOf call))) := by
  have hpast : past (r.called guild user held st task call)
      (Function.update views task (some (call, lookedOf call))) → past r views := by
    rintro (hdone | ⟨other, call', μ', hother, hhandles, hforgot⟩)
    · exact .inl hdone
    · rcases Machine.update_some_cases hother with ⟨rfl, heq⟩ | ⟨hne, hother⟩
      · obtain ⟨rfl, rfl⟩ := Prod.mk.inj heq
        cases call' <;> cases hforgot
      · refine .inr ⟨other, call', μ', hother, ?_, hforgot⟩
        simpa [Revocation.called, hne] using hhandles
  have hroles : (lookedOf call).roles = none := by
    cases call <;> rfl
  refine ⟨hinv.recorded, hinv.stale, ?_, ?_, ?_, fun h => ?_⟩
  · intro other call' μ' hother
    rcases Machine.update_some_cases hother with ⟨rfl, heq⟩ | ⟨hne, hother⟩
    · obtain ⟨rfl, rfl⟩ := Prod.mk.inj heq
      cases call' <;> simp [Revocation.called, lookedOf, deviceOf]
    · simpa [Revocation.called, hne] using hinv.device other call' μ' hother
  · intro other call' μ' hother hsome
    rcases Machine.update_some_cases hother with ⟨rfl, heq⟩ | ⟨_, hother⟩
    · obtain ⟨rfl, rfl⟩ := Prod.mk.inj heq
      simp [hroles] at hsome
    · exact hinv.carried other call' μ' hother hsome
  · intro other call' μ' hother hhandles
    rcases Machine.update_some_cases hother with ⟨rfl, heq⟩ | ⟨hne, hother⟩
    · obtain ⟨rfl, rfl⟩ := Prod.mk.inj heq
      simpa [Revocation.called] using hhandles
    · exact hinv.handling other call' μ' hother
        (by simpa [Revocation.called, hne] using hhandles)
  · have hclean := hinv.clean (hpast h)
    refine ⟨hclean.within, ?_, hclean.cache, hclean.carried, hclean.cacheOld, hclean.memoOld⟩
    intro other call' μ' hother member hmember
    rcases Machine.update_some_cases hother with ⟨rfl, heq⟩ | ⟨_, hother⟩
    · obtain ⟨rfl, rfl⟩ := Prod.mk.inj heq
      simp [hroles] at hmember
    · exact hclean.tasks other call' μ' hother member hmember

/-- A task goes; if it handled the event, the event had happened. -/
theorem RevocationInv.gone {revoked : Bool} (hinv : RevocationInv guild user held r st views)
    (hcaches : st'.caches = st.caches) (hdiscord : st'.discord = st.discord)
    (hrevoked : revoked = true → past r views) :
    RevocationInv guild user held { r.gone task with revoked := revoked } st'
      (Function.update views task none) := by
  have hpast : past { r.gone task with revoked := revoked } (Function.update views task none) →
      past r views := by
    rintro (hdone | ⟨other, call', μ', hother, hhandles, hforgot⟩)
    · exact hrevoked hdone
    · obtain ⟨hne, hother⟩ := Machine.update_none_cases hother
      refine .inr ⟨other, call', μ', hother, ?_, hforgot⟩
      simpa [Revocation.gone, hne] using hhandles
  refine ⟨hinv.recorded, hinv.stale, ?_, ?_, ?_, fun h => ?_⟩
  · intro other call' μ' hother
    exact hinv.device other call' μ' (Machine.update_none_cases hother).2
  · intro other call' μ' hother hsome
    obtain ⟨hne, hother⟩ := Machine.update_none_cases hother
    simpa [Revocation.gone, hne] using hinv.carried other call' μ' hother hsome
  · intro other call' μ' hother hhandles
    obtain ⟨hne, hother⟩ := Machine.update_none_cases hother
    rw [within_same hdiscord]
    exact hinv.handling other call' μ' hother (by simpa [Revocation.gone, hne] using hhandles)
  · have hclean := hinv.clean (hpast h)
    refine ⟨(within_same hdiscord).trans hclean.within, ?_, ?_, ?_, hclean.cacheOld,
      hclean.memoOld⟩
    · intro other call' μ' hother
      exact hclean.tasks other call' μ' (Machine.update_none_cases hother).2
    · rw [hcaches]
      exact hclean.cache
    · intro other
      by_cases hsame : other = task
      · simp [Revocation.gone, hsame]
      · simpa [Revocation.gone, hsame] using hclean.carried other

theorem RevocationInv.moved (hinv : RevocationInv guild user held r st views)
    (hcaches : st'.caches = st.caches) :
    RevocationInv guild user held (r.moved guild user held st') st' views := by
  by_cases hwithin : within guild user held st' = true
  · rw [Revocation.moved, if_pos hwithin]
    refine ⟨hinv.recorded, hinv.stale, hinv.device, hinv.carried, ?_, fun hpast => ?_⟩
    · intro other call' μ' hother hhandles
      exact ⟨(hinv.handling other call' μ' hother hhandles).1, hwithin⟩
    · have hclean := hinv.clean hpast
      exact ⟨hwithin, hclean.tasks, by rw [hcaches]; exact hclean.cache, hclean.carried,
        hclean.cacheOld, hclean.memoOld⟩
  · rw [Revocation.moved, if_neg hwithin]
    refine ⟨hinv.recorded, hinv.stale, hinv.device, hinv.carried, ?_, fun hpast => ?_⟩
    · intro other call' μ' hother hhandles
      cases hhandles
    · rcases hpast with hdone | ⟨_, _, _, _, hhandles, _⟩
      · cases hdone
      · cases hhandles

end

theorem forgets_of_handles {call : Call} (hhandles : handles guild user held call = true) :
    forgets guild user call = true := by
  cases call with
  | memberUpdate g u left =>
      simp only [handles, Bool.and_eq_true] at hhandles
      exact hhandles.1
  | memberRemove g u =>
      simp only [handles, Bool.and_eq_true] at hhandles
      exact hhandles.1
  | _ => cases hhandles

def revocationDiscipline :
    Machine.Discipline (machine conf) (revocations guild user held conf)
      (Machine.passes (noLookupUnderway guild user conf)) Looked where
  mon := Looked.mon guild user
  opening := fun _ _ call => lookedOf call
  post := fun call μ result => lookedPost guild user call μ result
  inv := RevocationInv guild user held
  conforms := fun _ _ call => handle_lookups guild user conf call
  called := fun hinv hfresh _ => hinv.called hfresh
  did := fun hinv hview hallows hexec hallowed =>
    ⟨trivial, hinv.did hview hallows hexec hallowed⟩
  ended := by
    intro r st views task call μ result hinv hview hpost _
    cases result with
    | error error => exact hinv.gone rfl rfl fun h => .inl h
    | ok reply =>
        refine hinv.gone rfl rfl fun hdone => ?_
        rw [Bool.or_eq_true] at hdone
        rcases hdone with hrevoked | hhandling
        · exact .inl hrevoked
        · have hhandles := (hinv.handling task call μ hview hhandling).1
          exact .inr ⟨task, call, μ, hview, hhandling,
            hpost (forgets_of_handles guild user held hhandles)⟩
  dropped := fun hinv _ _ => hinv.gone rfl rfl fun h => .inl h
  moved := fun hinv hmove _ => hinv.moved (AppState.move_untouched hmove).caches

/-- After a revocation the member is recorded in no role outside the held ones and no
later request is answered from older data, in every run in which no lookup of the
member was under way when the event was handled. -/
theorem revoked_stays_revoked {st : AppState} {c : (machine conf).Config} {r : Revocation}
    (hreach : Machine.Reach (revocations guild user held conf)
      (Machine.passes (noLookupUnderway guild user conf)) ((machine conf).idle st) {} c r) :
    r.recorded = false ∧ r.stale = false := by
  have hstart : RevocationInv guild user held {} st fun _ => none := by
    refine ⟨rfl, rfl, ?_, ?_, ?_, fun hpast => ?_⟩
    · intro _ _ _ hview
      cases hview
    · intro _ _ _ hview
      cases hview
    · intro _ _ _ hview
      cases hview
    · rcases hpast with hdone | ⟨_, _, _, hview, _⟩
      · cases hdone
      · cases hview
  obtain ⟨views, _, hinv⟩ := (revocationDiscipline guild user held conf).run hstart hreach
  exact ⟨hinv.recorded, hinv.stale⟩

/-! A member loses its role while its device registers, and after it has. -/

def memberDevice : RegisterReq where
  wgPubkey := 1
  deviceName := "pc"
  enrollmentKey := some "key"
  possessionProof := some ⟨1, 7⟩

open Script in
def memberOfNetwork : Script Conf.small :=
  move (.guildName 5 "guild") ++ move (.guildRoles 5 [(7, "lan")]) ++
    move (.member 5 1 (some ⟨"ann", [7]⟩)) ++
    call (.networkAdd 5 7) ++ steps 0 13 .go ++ call (.enroll 1) ++ steps 1 4 (.text "key") ++
    call (.register memberDevice (.v4 0))

open Script in
def revokedInFlight : Script Conf.small :=
  memberOfNetwork ++ steps 2 15 .go ++ move (.member 5 1 (some ⟨"ann", []⟩)) ++
    call (.memberUpdate 5 1 []) ++ steps 3 5 .go ++ steps 2 28 (.text "token") ++
    call (.register { memberDevice with deviceToken := some "token" } (.v4 0)) ++ steps 4 8 .go

open Script in
def revokedAtRest : Script Conf.small :=
  memberOfNetwork ++ steps 2 24 (.text "token") ++ steps 2 52 (.key 99) ++
    move (.member 5 1 (some ⟨"ann", []⟩)) ++ call (.memberUpdate 5 1 []) ++ steps 3 7 .go ++
    call (.register { memberDevice with deviceToken := some "token" } (.v4 0)) ++ steps 4 50 (.key 99)

/-- A register in flight records the member again, and leaves the old answer behind. -/
theorem revoked_member_returns :
    ¬ ∀ c r, Machine.Reach (revocations 5 1 [] Conf.small) Machine.free
      ((machine Conf.small).idle {}) {} c r → r.recorded = false ∧ r.stale = false := by
  intro hfinal
  have hplay : (Machine.play (revocations 5 1 [] Conf.small) (fun _ _ _ => true)
      ((machine Conf.small).idle {}) {} revokedInFlight).any
        (fun last => last.2.recorded && last.2.stale) = true := by
    decide
  have hrun : ∃ c r, Machine.Reach (revocations 5 1 [] Conf.small) Machine.free
      ((machine Conf.small).idle {}) {} c r ∧ (r.recorded && r.stale) = true :=
    Machine.reach_of_play (fun _ _ _ _ => trivial) hplay
  obtain ⟨c, r, hreach, hboth⟩ := hrun
  rw [Bool.and_eq_true] at hboth
  exact Bool.false_ne_true ((hfinal c r hreach).1.symm.trans hboth.1)

/-- A member that loses its role between two registers stays out. -/
theorem revoked_stays_revoked_at_rest :
    ∃ c r, Machine.Reach (revocations 5 1 [] Conf.small)
        (Machine.passes (noLookupUnderway 5 1 Conf.small)) ((machine Conf.small).idle {}) {} c r ∧
      r.revoked = true ∧ r.recorded = false ∧ r.stale = false := by
  have hplay : (Machine.play (revocations 5 1 [] Conf.small) (noLookupUnderway 5 1 Conf.small)
      ((machine Conf.small).idle {}) {} revokedAtRest).any
        (fun last => last.2.revoked && (last.1.tasks 4).isNone) = true := by
    decide
  have hrun : ∃ c r, Machine.Reach (revocations 5 1 [] Conf.small)
      (Machine.passes (noLookupUnderway 5 1 Conf.small)) ((machine Conf.small).idle {}) {} c r ∧
        (r.revoked && (c.tasks 4).isNone) = true :=
    Machine.reach_of_play (fun _ _ _ htest => htest) hplay
  obtain ⟨c, r, hreach, hlast⟩ := hrun
  rw [Bool.and_eq_true] at hlast
  exact ⟨c, r, hreach, hlast.1, revoked_stays_revoked 5 1 [] Conf.small hreach⟩

end UnityLan.Coordinator
