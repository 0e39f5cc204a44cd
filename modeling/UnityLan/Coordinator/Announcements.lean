import UnityLan.Coordinator.LongPoll

namespace UnityLan.Coordinator

open UnityLan.Foundation Prog

/-! Whether a change of presence is announced: the version of its scope moves before the
request that made it is gone. -/

/-- A change of presence by one request, with the version of its scope at that moment. -/
structure Announcement where
  place : Place
  count : Nat
  /-- The request has bumped the scope since. -/
  bumped : Bool := false
  deriving DecidableEq

structure Announcements where
  building : Table Nat (List Announcement) := ∅
  /-- What requests that are gone had changed. -/
  gone : List Announcement := []

def Announcement.bump (scope : Scope) (change : Announcement) : Announcement :=
  if change.place.scope = scope then { change with bumped := true } else change

namespace Announcement

variable {scope : Scope} {change : Announcement}

@[simp] theorem bump_place : (change.bump scope).place = change.place := by
  unfold bump
  split <;> rfl

@[simp] theorem bump_count : (change.bump scope).count = change.count := by
  unfold bump
  split <;> rfl

theorem bump_bumped (hbumped : (change.bump scope).bumped = true) :
    change.bumped = true ∨ change.place.scope = scope := by
  unfold bump at hbumped
  split at hbumped
  · rename_i hscope
    exact .inr hscope
  · exact .inl hbumped

theorem bump_pending (hpending : (change.bump scope).bumped = false) :
    change.bumped = false ∧ change.place.scope ≠ scope := by
  unfold bump at hpending
  split at hpending
  · cases hpending
  · rename_i hscope
    exact ⟨hpending, hscope⟩

end Announcement

namespace Announcements

def begin (a : Announcements) (task : Nat) : Announcements :=
  { a with building := a.building.insert task [] }

def changed (a : Announcements) (task : Nat) (places : List Place) (versions : Versions) :
    Announcements :=
  { a with
    building := a.building.modify task fun changes =>
      changes ++ places.map fun place => ⟨place, versions.count place.scope, false⟩ }

def bumped (a : Announcements) (task : Nat) (scope : Scope) : Announcements :=
  { a with building := a.building.modify task fun changes => changes.map (·.bump scope) }

def made (a : Announcements) (task : Nat) : List Announcement :=
  (a.building.get? task).getD []

def leave (a : Announcements) (task : Nat) : Announcements where
  building := a.building.erase task
  gone := a.gone ++ a.made task

def quiet (a : Announcements) (task : Nat) : Bool :=
  (a.made task).all (·.bumped)

end Announcements

variable (conf : Conf)

def announcements : Machine.Observer (machine conf) Announcements where
  see := fun a st event _ =>
    match event with
    | .called task (.register ..) => a.begin task
    | .did task (.presence p) answer =>
        a.changed task (st.presence.changedPlaces p answer) st.versions
    | .did task (.versions (.bump scope)) _ => a.bumped task scope
    | .ended task _ _ => a.leave task
    | .dropped task _ => a.leave task
    | _ => a

/-- No request fails or is dropped between a change it made and its bump of the scope. -/
def endsAnnounced (a : Announcements) (_ : AppState) : (machine conf).Event → Bool
  | .ended task _ (.error _) => a.quiet task
  | .dropped task _ => a.quiet task
  | _ => true

/-! The monitor: the scopes a request has changed and not bumped since. -/

def changesScopes : (p : Presence.Op) → p.Res → List Scope
  | .record guild .., changed => if changed then [.guild guild] else []
  | .recordSelf user .., changed => if changed then [.user user] else []
  | .evict guild .., removed => if removed then [.guild guild] else []
  | .evictSelf user .., removed => if removed then [.user user] else []
  | .evictUser guild .., removed => if removed then [.guild guild] else []
  | .reapMap .., scopes => scopes
  | .reapSelf .., scopes => scopes
  | _, _ => []

def owedNext (owed : List Scope) : (o : Op) → o.Res → List Scope
  | .presence p, answer => owed ++ changesScopes p answer
  | .versions (.bump scope), _ => owed.filter (· ≠ scope)
  | _, _ => owed

def owedMon : Monitor sig (List Scope) where
  allows := fun _ _ => True
  expects := fun _ _ _ => True
  next := owedNext

def Calm : Op → Prop
  | .presence p => changesPresence p = false
  | _ => True

theorem changesScopes_silent {p : Presence.Op} {answer : p.Res}
    (hsilent : changesPresence p = false) : changesScopes p answer = [] := by
  cases p with
  | networksOf pubkey => rfl
  | othersIn guild role exclude => rfl
  | othersOfUser user exclude => rfl
  | mapPubkeys => rfl
  | selfPubkeys => rfl
  | _ => cases hsilent

theorem scopes_changedPlaces (presence : Presence) (p : Presence.Op) :
    (presence.changedPlaces p (presence.step p).1).map Place.scope =
      changesScopes p (presence.step p).1 := by
  cases p with
  | reapMap now maxAge =>
      simp only [Presence.changedPlaces, List.map_map]
      rfl
  | reapSelf now maxAge =>
      simp only [Presence.changedPlaces, List.map_map]
      rfl
  | record guild role entry clientVersion now =>
      simp only [Presence.changedPlaces, changesScopes]
      split <;> rfl
  | recordSelf user entry clientVersion now =>
      simp only [Presence.changedPlaces, changesScopes]
      split <;> rfl
  | evict guild role pubkey =>
      simp only [Presence.changedPlaces, changesScopes]
      split <;> rfl
  | evictSelf user pubkey =>
      simp only [Presence.changedPlaces, changesScopes]
      split <;> rfl
  | evictUser guild role user =>
      simp only [Presence.changedPlaces, changesScopes]
      split <;> rfl
  | _ => rfl

section

variable {conf} {req : RegisterReq} {ε α : Type} {owed changed : List Scope}

theorem calm_next {o : Op} {answer : o.Res} (hcalm : Calm o) (howed : owed ⊆ changed) :
    owedNext owed o answer ⊆ changed := by
  cases o with
  | presence p =>
      have hsilent : changesScopes p answer = [] := changesScopes_silent hcalm
      simpa [owedNext, hsilent] using howed
  | versions v =>
      cases v with
      | bump scope => exact List.Subset.trans (List.filter_subset_self owed) howed
      | _ => exact howed
  | _ => exact howed

theorem calm_owes {program : Prog sig ε α} {inside : Op → Prop} (hprogram : program.Uses inside)
    (hcalm : ∀ o, inside o → Calm o) (howed : owed ⊆ changed) :
    program.Conforms owedMon (returns fun owed' _ => owed' ⊆ changed) owed := by
  have hkept : program.Conforms owedMon (fun owed' _ => owed' ⊆ changed) owed := by
    apply hprogram.keeps fun owed' : List Scope => owed' ⊆ changed
    · intro owed' o ho howed'
      exact ⟨trivial, fun answer _ => calm_next (hcalm o ho) howed'⟩
    · exact howed
  refine hkept.mono fun owed' result howed' => ?_
  cases result with
  | ok value => exact howed'
  | error error => trivial

theorem calm_store {inside : Query → Prop} : ∀ o, StoreOp inside o → Calm o := by
  intro o ho
  cases o with
  | store q => trivial
  | _ => exact ho.elim

theorem calm_label : ∀ o, LabelOp o → Calm o := by
  intro o ho
  cases o with
  | presence p => exact ho.elim
  | _ => trivial

theorem calm_member {guild : GuildId} {user : UserId} : ∀ o, MemberOp guild user o → Calm o := by
  intro o ho
  cases o with
  | presence p => exact ho.elim
  | _ => trivial

theorem calm_identity {user : UserId} : ∀ o, IdentityOp req user o → Calm o := by
  intro o ho
  cases o with
  | presence p => exact ho.elim
  | _ => trivial

theorem calm_touch {personal : Bool} : ∀ o, TouchOp req personal o → Calm o := by
  intro o ho
  cases o with
  | presence p => exact ho.elim
  | _ => trivial

theorem calm_admission : ∀ o, AdmissionOp req o → Calm o := by
  intro o ho
  cases o with
  | presence p => exact ho.elim
  | _ => trivial

theorem calm_park : ∀ o, ParkOp o → Calm o := by
  intro o ho
  cases o with
  | presence p => exact ho.elim
  | _ => trivial

theorem calm_counter : ∀ o, CounterOp o → Calm o := by
  intro o ho
  cases o with
  | presence p => exact ho.elim
  | _ => trivial

theorem calm_answer : ∀ o, AnswerOp req o → Calm o := by
  intro o ho
  cases o with
  | presence p =>
      cases p with
      | othersIn guild role exclude => rfl
      | othersOfUser user exclude => rfl
      | _ => exact ho.elim
  | _ => trivial

/-! What is changed is handed on. -/

theorem owes_inserted {scope : Scope} (happened : Bool) (howed : owed ⊆ changed) :
    owed ++ (if happened then [scope] else []) ⊆
      if happened then scope.insertInto changed else changed := by
  intro other hother
  cases happened with
  | false =>
      rw [if_neg Bool.false_ne_true, List.append_nil] at hother
      exact howed hother
  | true =>
      rw [if_pos rfl, List.mem_append, List.mem_singleton] at hother
      rw [if_pos rfl, Scope.mem_insertInto]
      rcases hother with hold | hnew
      · exact .inr (howed hold)
      · exact .inl hnew

theorem evictFrom_owes (pubkey : PubKey) (networks : List (GuildId × RoleId))
    (howed : owed ⊆ changed) :
    (evictFrom pubkey networks changed).Conforms owedMon
      (returns fun owed' changed' => owed' ⊆ changed') owed := by
  induction networks generalizing owed changed with
  | nil => exact howed
  | cons network rest ih =>
      obtain ⟨guild, role⟩ := network
      unfold evictFrom
      rw [conforms_act_bind]
      refine ⟨trivial, fun removed _ => ?_⟩
      apply ih
      exact owes_inserted removed howed

theorem lookupMember_owes (cache : MemberCache) (guild : GuildId) (user : UserId)
    (howed : owed ⊆ changed) :
    (lookupMember cache guild user).Conforms owedMon
      (returns fun owed' _ => owed' ⊆ changed) owed :=
  calm_owes (lookupMember_uses cache guild user) calm_member howed

theorem holdsAnyNetworkRole_owes (user : UserId) (networks : List Network) (cache : MemberCache)
    (howed : owed ⊆ changed) :
    (holdsAnyNetworkRole user networks cache).Conforms owedMon
      (returns fun owed' _ => owed' ⊆ changed) owed := by
  induction networks generalizing owed cache with
  | nil => exact howed
  | cons net rest ih =>
      unfold holdsAnyNetworkRole
      refine (lookupMember_owes cache net.guildId user howed).andThen
        fun owed₁ looked howed₁ => ?_
      dsimp only
      split
      · exact howed₁
      · exact ih looked.2 howed₁

theorem resolveDevice_owes (user : UserId) (networks : List Network) (cache : MemberCache)
    (howed : owed ⊆ changed) :
    (resolveDevice conf req user networks cache).Conforms owedMon
      (returns fun owed' _ => owed' ⊆ changed) owed := by
  unfold resolveDevice
  refine (holdsAnyNetworkRole_owes user networks cache howed).andThen fun owed₁ held howed₁ => ?_
  dsimp only
  split
  · exact howed₁
  · have hensure : (sql (.ensurePrimary user req.wgPubkey)).Uses (IdentityOp req user) := by
      simp [IdentityOp]
    have hprimary : (sql (.primaryPubkey user)).Uses (IdentityOp req user) := by
      simp [IdentityOp]
    refine (calm_owes ((allocateDevice_uses conf _ _).mapError _) calm_identity howed₁).andThen
      fun owed₂ allocated howed₂ => ?_
    refine (calm_owes (hensure.mapError _) calm_identity howed₂).andThen
      fun owed₃ _ howed₃ => ?_
    refine (calm_owes (hprimary.mapError _) calm_identity howed₃).andThen
      fun owed₄ primary howed₄ => ?_
    exact howed₄

theorem retireSuperseded_owes (user : UserId) (howed : owed ⊆ changed) :
    (retireSuperseded req user changed).Conforms owedMon
      (returns fun owed' changed' => owed' ⊆ changed') owed := by
  unfold retireSuperseded
  split
  · exact howed
  · rename_i oldToken _
    have hfind : (sql (.deviceByToken oldToken)).Uses (StoreOp fun _ => True) := by
      simp [StoreOp]
    refine (calm_owes (hfind.mapError _) calm_store howed).andThen fun owed₁ found howed₁ => ?_
    cases found with
    | none => exact howed₁
    | some old =>
        obtain ⟨owner, oldPubkey⟩ := old
        dsimp only
        split
        · refine (calm_owes ((removeDevice_uses _ _).mapError _) calm_store howed₁).andThen
            fun owed₂ _ howed₂ => ?_
          rw [conforms_act_bind]
          refine ⟨trivial, fun networks _ => ?_⟩
          have hread : owedNext owed₂ (.presence (.networksOf oldPubkey)) networks ⊆ changed :=
            calm_next rfl howed₂
          refine (evictFrom_owes oldPubkey networks hread).andThen fun owed₃ changed₃ howed₃ => ?_
          rw [conforms_act_bind]
          exact ⟨trivial, fun removed _ => owes_inserted removed howed₃⟩
        · exact howed₁

/-! The walk. -/

theorem recordPresence_owes (user : UserId) (device : Device) (now : Nat) (net : Network)
    (walk : Walk) (howed : owed ⊆ walk.changed) :
    (recordPresence req user device now net walk).Conforms owedMon
      (returns fun owed' walk' => owed' ⊆ walk'.changed) owed := by
  unfold recordPresence
  split
  · exact howed
  · rw [conforms_act_bind]
    refine ⟨trivial, fun recorded _ => ?_⟩
    have hinserted : owed ++ (if recorded then [Scope.guild net.guildId] else []) ⊆ _ :=
      owes_inserted recorded howed
    cases recorded with
    | false => exact hinserted
    | true => exact hinserted

theorem walkHeld_owes (user : UserId) (device : Device) (now : Nat) (net : Network)
    (member : MemberRoles) (walk : Walk) (howed : owed ⊆ walk.changed) :
    (walkHeld req user device now net member walk).Conforms owedMon
      (returns fun owed' walk' => owed' ⊆ walk'.changed) owed := by
  unfold walkHeld
  refine (calm_owes ((walkCommunity_uses _ _).mono name_label) calm_label howed).andThen
    fun owed₁ community howed₁ => ?_
  refine (calm_owes ((roleName_uses _ _).mono name_label) calm_label howed₁).andThen
    fun owed₂ name howed₂ => ?_
  refine (calm_owes (walkUsername_uses _ _ _) calm_label howed₂).andThen
    fun owed₃ username howed₃ => ?_
  dsimp only
  split
  · refine (recordPresence_owes user device now net _ ?_).andThen fun owed₄ walk₄ howed₄ => ?_
    · exact howed₃
    · exact howed₄
  · exact howed₃

theorem walkNetwork_owes (user : UserId) (device : Device) (now : Nat) (walk : Walk)
    (net : Network) (howed : owed ⊆ walk.changed) :
    (walkNetwork req user device now walk net).Conforms owedMon
      (returns fun owed' walk' => owed' ⊆ walk'.changed) owed := by
  unfold walkNetwork
  refine (lookupMember_owes walk.cache net.guildId user howed).andThen
    fun owed₁ looked howed₁ => ?_
  obtain ⟨member, cache⟩ := looked
  cases member with
  | none => exact howed₁
  | some roles =>
      dsimp only
      split
      · apply walkHeld_owes
        exact howed₁
      · exact howed₁

theorem resolveMembership_owes (user : UserId) (networks : List Network) (device : Device)
    (cache : MemberCache) (now : Nat) (howed : owed ⊆ changed) :
    (resolveMembership req user networks device cache now changed).Conforms owedMon
      (returns fun owed' resolved => owed' ⊆ resolved.2) owed := by
  unfold resolveMembership
  have hwalk : (networks.foldlM (walkNetwork req user device now)
      { m := { username := s!"user-{user}" }, cache := cache, changed := changed }).Conforms
      owedMon (returns fun owed' walk => owed' ⊆ walk.changed) owed := by
    apply Conforms.foldlM networks _ fun (owed' : List Scope) (walk : Walk) => owed' ⊆ walk.changed
    · intro owed' walk net _ howed'
      exact walkNetwork_owes user device now walk net howed'
    · exact howed
  refine hwalk.andThen fun owed₁ walk howed₁ => ?_
  rw [conforms_act_bind]
  refine ⟨trivial, fun recorded _ => ?_⟩
  have hread : owedNext owed₁ (.presence (.networksOf req.wgPubkey)) recorded ⊆ walk.changed :=
    calm_next rfl howed₁
  refine (evictFrom_owes req.wgPubkey _ hread).andThen fun owed₂ changed₂ howed₂ => ?_
  dsimp only
  split
  · have hhandle : (sql (.userHandle user)).Uses LabelOp := by
      simp [LabelOp]
    refine (calm_owes (hhandle.mapError _) calm_label howed₂).andThen
      fun owed₃ handle howed₃ => ?_
    cases handle with
    | none => exact howed₃
    | some handle =>
        refine (calm_owes (userLabel_uses _ _) calm_label howed₃).andThen
          fun owed₄ username howed₄ => ?_
        exact howed₄
  · exact howed₂

theorem recordOwnDevice_owes (user : UserId) (device : Device) (m : Membership) (now : Nat)
    (howed : owed ⊆ changed) :
    (recordOwnDevice req user device m now changed).Conforms owedMon
      (returns fun owed' changed' => owed' ⊆ changed') owed := by
  unfold recordOwnDevice announceSelf
  split
  · rw [conforms_act_bind]
    exact ⟨trivial, fun recorded _ => owes_inserted recorded howed⟩
  · rw [conforms_act_bind]
    exact ⟨trivial, fun removed _ => owes_inserted removed howed⟩

theorem settle_owes (callerIp : IpAddr) (user : UserId) :
    (settle conf req callerIp user).Conforms owedMon
      (returns fun owed' settled => owed' ⊆ settled.changed) [] := by
  have hnetworks : (sql .allNetworks).Uses (StoreOp fun _ => True) := by
    simp [StoreOp]
  have hnone : ([] : List Scope) ⊆ [] := List.Subset.refl _
  unfold settle
  simp only [conforms_act_bind]
  refine ⟨trivial, fun _ _ => ⟨trivial, fun now _ => ?_⟩⟩
  refine (calm_owes (hnetworks.mapError _) calm_store hnone).andThen
    fun owed₁ allNetworks howed₁ => ?_
  simp only [conforms_act_bind]
  refine ⟨trivial, fun memo _ => ?_⟩
  refine (resolveDevice_owes user _ [] howed₁).andThen fun owed₂ resolved howed₂ => ?_
  refine (retireSuperseded_owes user howed₂).andThen fun owed₃ retired howed₃ => ?_
  refine (resolveMembership_owes user _ _ _ now howed₃).andThen fun owed₄ membership howed₄ => ?_
  obtain ⟨m, changed₄⟩ := membership
  have hremember : (rememberRoleless user (!memo) m).Uses Calm := by
    unfold rememberRoleless
    split
    · simp [Calm]
    · trivial
  have htouch : (touchIdentity req m).Uses Calm := by
    unfold touchIdentity
    split
    · exact ((touchDevice_uses m.personal).mono calm_touch).mapError _
    · trivial
  refine (calm_owes hremember (fun _ h => h) howed₄).andThen fun owed₅ _ howed₅ => ?_
  refine (calm_owes htouch (fun _ h => h) howed₅).andThen fun owed₆ _ howed₆ => ?_
  refine (recordOwnDevice_owes user _ m now howed₆).andThen fun owed₇ changed₇ howed₇ => ?_
  exact howed₇

/-! What is handed on is bumped. -/

theorem bumpEach_owes (scopes : List Scope) (howed : owed ⊆ scopes) :
    (bumpAll.bumpEach scopes : Prog sig ε Unit).Conforms owedMon
      (returns fun owed' _ => owed' ⊆ []) owed := by
  induction scopes generalizing owed with
  | nil => exact howed
  | cons scope rest ih =>
      unfold bumpAll.bumpEach
      rw [conforms_act_bind]
      refine ⟨trivial, fun _ _ => ?_⟩
      apply ih
      intro other hother
      obtain ⟨hmem, hne⟩ := List.mem_filter.mp hother
      have hne' : other ≠ scope := by simpa using hne
      exact (List.mem_cons.mp (howed hmem)).resolve_left hne'

theorem bumpAll_owes (scopes : List Scope) (howed : owed ⊆ scopes) :
    (bumpAll scopes : Prog sig ε Unit).Conforms owedMon
      (returns fun owed' _ => owed' ⊆ []) owed := by
  unfold bumpAll
  split
  · exact howed
  · refine (bumpEach_owes scopes howed).andThen fun owed₁ _ howed₁ => ?_
    exact ⟨trivial, fun _ _ => howed₁⟩

theorem answer_owes (user : UserId) (alreadyEnrolled : Bool) (settled : Settled)
    (howed : owed ⊆ settled.changed) :
    (answer conf req user alreadyEnrolled settled).Conforms owedMon
      (returns fun owed' _ => owed' ⊆ []) owed := by
  unfold answer
  refine (calm_owes ((buildGrant_uses conf _ _ _ _).mono (plain_answer _)) calm_answer
    howed).andThen
    fun owed₁ grant howed₁ => ?_
  refine (calm_owes (buildSeeds_uses conf _ _ _ _ _) calm_answer howed₁).andThen
    fun owed₂ built howed₂ => ?_
  refine (calm_owes ((deliverToken_uses _).mono (plain_answer _)) calm_answer howed₂).andThen
    fun owed₃ token howed₃ => ?_
  refine (bumpAll_owes settled.changed howed₃).andThen fun owed₄ _ howed₄ => ?_
  refine (calm_owes ((@wakeAll_uses req _ _).mono (plain_answer _)) calm_answer howed₄).andThen
    fun owed₅ _ howed₅ => ?_
  refine (calm_owes (aggregate_uses conf _) calm_counter howed₅).andThen
    fun owed₆ version howed₆ => ?_
  refine (calm_owes ((@buildAnchors_uses conf req _).mono (plain_answer _)) calm_answer
    howed₆).andThen
    fun owed₇ anchors howed₇ => ?_
  refine (calm_owes ((@signRelease_uses conf req _).mono (plain_answer _)) calm_answer
    howed₇).andThen
    fun owed₈ release howed₈ => ?_
  exact howed₈

theorem buildSnapshot_owes (callerIp : IpAddr) :
    (buildSnapshot conf req callerIp).Conforms owedMon
      (returns fun owed' _ => owed' ⊆ []) [] := by
  unfold buildSnapshot validatePeerReports
  split
  · trivial
  · have hnone : ([] : List Scope) ⊆ [] := List.Subset.refl _
    refine (calm_owes (resolveUser_uses conf) calm_admission hnone).andThen
      fun owed₁ caller howed₁ => ?_
    cases List.subset_nil.mp howed₁
    refine (settle_owes callerIp caller.1).andThen fun owed₂ settled howed₂ => ?_
    exact answer_owes caller.1 caller.2 settled howed₂

theorem hold_owes (callerIp : IpAddr) (built : Built) :
    (hold conf req callerIp built).Conforms owedMon (returns fun owed' _ => owed' ⊆ []) [] := by
  have hnone : ([] : List Scope) ⊆ [] := List.Subset.refl _
  have hrebuild : (do return (← buildSnapshot conf req callerIp).resp :
      Handler RegisterResp).Conforms owedMon (returns fun owed' _ => owed' ⊆ []) [] :=
    (buildSnapshot_owes callerIp).andThen fun owed' built howed => howed
  unfold hold
  rw [conforms_act_bind]
  refine ⟨trivial, fun acquired _ => ?_⟩
  split
  · refine (calm_owes (waitPark_uses conf _ _) calm_park hnone).andThen
      fun owed₁ woke howed₁ => ?_
    cases List.subset_nil.mp howed₁
    split
    · rw [conforms_act_bind]
      exact ⟨trivial, fun _ _ => hrebuild⟩
    · exact hrebuild
  · trivial

theorem register_owes (callerIp : IpAddr) :
    (register conf req callerIp).Conforms owedMon (returns fun owed' _ => owed' ⊆ []) [] := by
  unfold register negotiate
  split
  · rw [pure_eq, ret_bind, conforms_act_bind]
    refine ⟨trivial, fun woken _ => ?_⟩
    refine (buildSnapshot_owes callerIp).andThen fun owed₁ built howed₁ => ?_
    cases List.subset_nil.mp howed₁
    split
    · exact hold_owes callerIp built
    · exact howed₁
  · trivial

end

def owedPost (owed : List Scope) : Call → Except ApiError Reply → Prop
  | .register .., .ok _ => owed = []
  | _, _ => True

theorem handle_owes (call : Call) :
    (handle conf call).Conforms owedMon (fun owed => owedPost owed call) [] := by
  have hside : ∀ call, (∀ owed result, owedPost owed call result) →
      (handle conf call).Conforms owedMon (fun owed => owedPost owed call) [] := by
    intro call hpost
    exact ((uses_all _).allowed fun _ _ _ => trivial).mono fun owed result _ => hpost owed result
  cases call with
  | register req callerIp =>
      have hregister : (handle conf (.register req callerIp)).Conforms owedMon
          (returns fun owed _ => owed ⊆ []) [] :=
        (register_owes callerIp).andThen fun owed resp howed => howed
      refine hregister.mono fun owed result howed => ?_
      cases result with
      | ok reply => exact List.subset_nil.mp howed
      | error error => trivial
  | _ => exact hside _ fun _ _ => trivial

/-! The invariant. -/

/-- The scope of a change has been bumped since. -/
def Announcement.Announced (change : Announcement) (st : AppState) : Prop :=
  change.count < st.versions.count change.place.scope

structure Owing (owed : List Scope) (st : AppState) (changes : List Announcement) : Prop where
  counted : ∀ change ∈ changes, change.count ≤ st.versions.count change.place.scope
  announced : ∀ change ∈ changes, change.bumped = true → change.Announced st
  owed : ∀ change ∈ changes, change.bumped = false → change.place.scope ∈ owed

structure AnnouncementsInv (a : Announcements) (st : AppState)
    (views : Nat → Option (Call × List Scope)) : Prop where
  running : ∀ task changes, a.building.get? task = some changes → ∃ req callerIp owed,
    views task = some (.register req callerIp, owed) ∧ Owing owed st changes
  gone : ∀ change ∈ a.gone, change.Announced st

section

variable {conf} {a : Announcements} {st st' : AppState} {task : Nat} {call : Call}
  {views : Nat → Option (Call × List Scope)} {owed owed' : List Scope}
  {changes : List Announcement}

theorem Owing.of_counts (howing : Owing owed st changes)
    (hcounts : ∀ scope, st.versions.count scope ≤ st'.versions.count scope) :
    Owing owed st' changes where
  counted := fun change hchange => (howing.counted change hchange).trans (hcounts _)
  announced := fun change hchange hbumped =>
    (howing.announced change hchange hbumped).trans_le (hcounts _)
  owed := howing.owed

theorem Owing.changed {places : List Place} {more : List Scope} (howing : Owing owed st changes)
    (hmore : places.map Place.scope = more) :
    Owing (owed ++ more) st
      (changes ++ places.map fun place => ⟨place, st.versions.count place.scope, false⟩) := by
  constructor
  · intro change hchange
    rcases List.mem_append.mp hchange with hold | hnew
    · exact howing.counted change hold
    · obtain ⟨place, _, rfl⟩ := List.mem_map.mp hnew
      exact Nat.le_refl _
  · intro change hchange hbumped
    rcases List.mem_append.mp hchange with hold | hnew
    · exact howing.announced change hold hbumped
    · obtain ⟨place, _, rfl⟩ := List.mem_map.mp hnew
      cases hbumped
  · intro change hchange hbumped
    rcases List.mem_append.mp hchange with hold | hnew
    · exact List.mem_append_left _ (howing.owed change hold hbumped)
    · obtain ⟨place, hplace, rfl⟩ := List.mem_map.mp hnew
      apply List.mem_append_right
      exact hmore ▸ List.mem_map_of_mem hplace

theorem Owing.bumped {scope : Scope} (howing : Owing owed st changes)
    (hcounts : ∀ other, st'.versions.count other =
      if scope = other then st.versions.count other + 1 else st.versions.count other) :
    Owing (owed.filter (· ≠ scope)) st' (changes.map (·.bump scope)) := by
  have hgrows : ∀ other, st.versions.count other ≤ st'.versions.count other := by
    intro other
    rw [hcounts]
    split <;> omega
  have hreaches : ∀ old ∈ changes, old.place.scope = scope →
      old.count < st'.versions.count old.place.scope := by
    intro old hold hscope
    rw [hcounts, if_pos hscope.symm]
    exact Nat.lt_succ_of_le (howing.counted old hold)
  constructor
  · intro change hchange
    obtain ⟨old, hold, rfl⟩ := List.mem_map.mp hchange
    rw [Announcement.bump_count, Announcement.bump_place]
    exact (howing.counted old hold).trans (hgrows _)
  · intro change hchange hbumped
    obtain ⟨old, hold, rfl⟩ := List.mem_map.mp hchange
    unfold Announcement.Announced
    rw [Announcement.bump_count, Announcement.bump_place]
    rcases Announcement.bump_bumped hbumped with hbefore | hscope
    · exact (howing.announced old hold hbefore).trans_le (hgrows _)
    · exact hreaches old hold hscope
  · intro change hchange hpending
    obtain ⟨old, hold, rfl⟩ := List.mem_map.mp hchange
    obtain ⟨hbefore, hother⟩ := Announcement.bump_pending hpending
    rw [Announcement.bump_place]
    exact List.mem_filter.mpr ⟨howing.owed old hold hbefore, by simpa using hother⟩

theorem AnnouncementsInv.of_step {a' : Announcements}
    {change : List Announcement → List Announcement}
    (hinv : AnnouncementsInv a st views) (hview : views task = some (call, owed))
    (hbuilding : a'.building = a.building.modify task change) (hgone : a'.gone = a.gone)
    (hcounts : ∀ scope, st.versions.count scope ≤ st'.versions.count scope)
    (howing : ∀ changes, Owing owed st changes → Owing owed' st' (change changes)) :
    AnnouncementsInv a' st' (Function.update views task (some (call, owed'))) := by
  constructor
  · intro other changes hother
    rw [hbuilding, Table.get?_modify] at hother
    split at hother
    · rename_i hsame
      subst hsame
      obtain ⟨before, hbefore, rfl⟩ := Option.map_eq_some_iff.mp hother
      obtain ⟨req, callerIp, owed₀, hview₀, howing₀⟩ := hinv.running other before hbefore
      rw [hview, Option.some.injEq, Prod.mk.injEq] at hview₀
      obtain ⟨rfl, rfl⟩ := hview₀
      exact ⟨req, callerIp, owed', Function.update_self .., howing before howing₀⟩
    · rename_i hne
      obtain ⟨req, callerIp, owed₀, hview₀, howing₀⟩ := hinv.running other changes hother
      exact ⟨req, callerIp, owed₀, (Function.update_of_ne hne _ _).trans hview₀,
        howing₀.of_counts hcounts⟩
  · intro change hchange
    rw [hgone] at hchange
    exact (hinv.gone change hchange).trans_le (hcounts _)

theorem AnnouncementsInv.of_quiet (hinv : AnnouncementsInv a st views)
    (hview : views task = some (call, owed))
    (hcounts : ∀ scope, st'.versions.count scope = st.versions.count scope) :
    AnnouncementsInv a st' (Function.update views task (some (call, owed))) := by
  have hgrows : ∀ scope, st.versions.count scope ≤ st'.versions.count scope :=
    fun scope => (hcounts scope).ge
  constructor
  · intro other changes hother
    obtain ⟨req, callerIp, owed₀, hview₀, howing₀⟩ := hinv.running other changes hother
    refine ⟨req, callerIp, owed₀, ?_, howing₀.of_counts hgrows⟩
    rcases eq_or_ne other task with rfl | hne
    · rw [Function.update_self, ← hview, hview₀]
    · rw [Function.update_of_ne hne, hview₀]
  · intro change hchange
    exact (hinv.gone change hchange).trans_le (hgrows _)

variable {choice : Choice}

theorem AnnouncementsInv.did {o : Op} {answer : o.Res} (hinv : AnnouncementsInv a st views)
    (hview : views task = some (call, owed))
    (hexec : AppState.exec conf task o choice st = some (answer, st')) :
    AnnouncementsInv ((announcements conf).see a st (.did task o answer) st') st'
      (Function.update views task (some (call, owedNext owed o answer))) := by
  have hframe := AppState.exec_frame hexec
  have hquiet : st'.versions = st.versions →
      AnnouncementsInv a st' (Function.update views task (some (call, owed))) := by
    intro hversions
    exact hinv.of_quiet hview fun scope => by rw [hversions]
  cases o with
  | presence p =>
      have hversions : st'.versions = st.versions :=
        hframe.versions fun _ habsurd => by cases habsurd
      have hanswer : (st.presence.step p).1 = answer :=
        congrArg Prod.fst (AppState.exec_presence hexec)
      subst hanswer
      refine hinv.of_step hview rfl rfl ?_ ?_
      · intro scope
        rw [hversions]
      · intro changes howing
        have hcounts : ∀ scope, st.versions.count scope ≤ st'.versions.count scope := by
          intro scope
          rw [hversions]
        exact (howing.changed (scopes_changedPlaces st.presence p)).of_counts hcounts
  | versions v =>
      have hversions : (st.versions.step v).2 = st'.versions := by
        simp only [AppState.exec, Option.some.injEq, Prod.mk.injEq] at hexec
        rw [← hexec.2]
      have hcounts : ∀ scope, st'.versions.count scope =
          if v = .bump scope then st.versions.count scope + 1 else st.versions.count scope := by
        intro scope
        rw [← hversions, Versions.count_step]
      cases v with
      | bump scope =>
          have hbumped : ∀ other, st'.versions.count other =
              if scope = other then st.versions.count other + 1 else st.versions.count other := by
            intro other
            rw [hcounts]
            simp
          refine hinv.of_step hview rfl rfl ?_ ?_
          · intro other
            rw [hbumped]
            split <;> omega
          · intro changes howing
            exact howing.bumped hbumped
      | bumpGlobal => exact hinv.of_quiet hview fun scope => (hcounts scope).trans (if_neg (by simp))
      | subscribe other => exact hinv.of_quiet hview fun scope => (hcounts scope).trans (if_neg (by simp))
      | counter other => exact hinv.of_quiet hview fun scope => (hcounts scope).trans (if_neg (by simp))
  | _ => exact hquiet (hframe.versions fun _ habsurd => by cases habsurd)

theorem AnnouncementsInv.begin {req : RegisterReq} {callerIp : IpAddr}
    (hinv : AnnouncementsInv a st views) :
    AnnouncementsInv (a.begin task) st
      (Function.update views task (some (.register req callerIp, []))) := by
  constructor
  · intro other changes hother
    simp only [Announcements.begin, Table.get?_insert] at hother
    split at hother
    · rename_i hsame
      subst hsame
      cases hother
      exact ⟨req, callerIp, [], Function.update_self .., by simp, by simp, by simp⟩
    · rename_i hne
      obtain ⟨req', callerIp', owed', hview', howing'⟩ := hinv.running other changes hother
      exact ⟨req', callerIp', owed', (Function.update_of_ne hne _ _).trans hview', howing'⟩
  · exact hinv.gone

theorem AnnouncementsInv.called (hinv : AnnouncementsInv a st views) (hfree : views task = none) :
    AnnouncementsInv ((announcements conf).see a st (.called task call) st) st
      (Function.update views task (some (call, []))) := by
  have hother : AnnouncementsInv a st (Function.update views task (some (call, []))) := by
    constructor
    · intro other changes hother
      obtain ⟨req, callerIp, owed', hview', howing'⟩ := hinv.running other changes hother
      have hne : other ≠ task := by
        rintro rfl
        rw [hfree] at hview'
        cases hview'
      exact ⟨req, callerIp, owed', (Function.update_of_ne hne _ _).trans hview', howing'⟩
    · exact hinv.gone
  cases call with
  | register req callerIp => exact hinv.begin
  | _ => exact hother

theorem AnnouncementsInv.leave (hinv : AnnouncementsInv a st views)
    (hannounced : ∀ changes, a.building.get? task = some changes →
      ∀ change ∈ changes, change.Announced st) :
    AnnouncementsInv (a.leave task) (AppState.release task st)
      (Function.update views task none) := by
  constructor
  · intro other changes hother
    simp only [Announcements.leave, Table.get?_erase] at hother
    split at hother
    · cases hother
    · rename_i hne
      obtain ⟨req, callerIp, owed', hview', howing'⟩ := hinv.running other changes hother
      exact ⟨req, callerIp, owed', (Function.update_of_ne hne _ _).trans hview',
        howing'.of_counts fun _ => Nat.le_refl _⟩
  · intro change hchange
    rcases List.mem_append.mp hchange with hold | hnew
    · exact hinv.gone change hold
    · unfold Announcements.made at hnew
      cases hmade : a.building.get? task with
      | none =>
          rw [hmade] at hnew
          cases hnew
      | some changes =>
          rw [hmade] at hnew
          exact hannounced changes hmade change hnew

theorem AnnouncementsInv.leave_quiet (hinv : AnnouncementsInv a st views)
    (hquiet : a.quiet task = true) :
    AnnouncementsInv (a.leave task) (AppState.release task st)
      (Function.update views task none) := by
  apply hinv.leave
  intro changes hmade change hchange
  obtain ⟨req, callerIp, owed', _, howing⟩ := hinv.running task changes hmade
  have hall : changes.all (·.bumped) = true := by
    simpa [Announcements.quiet, Announcements.made, hmade] using hquiet
  exact howing.announced change hchange (List.all_eq_true.mp hall change hchange)

theorem AnnouncementsInv.leave_settled (hinv : AnnouncementsInv a st views)
    (hview : views task = some (call, owed)) {reply : Reply}
    (hpost : owedPost owed call (.ok reply)) :
    AnnouncementsInv (a.leave task) (AppState.release task st)
      (Function.update views task none) := by
  apply hinv.leave
  intro changes hmade change hchange
  obtain ⟨req, callerIp, owed', hview', howing⟩ := hinv.running task changes hmade
  rw [hview, Option.some.injEq, Prod.mk.injEq] at hview'
  obtain ⟨rfl, rfl⟩ := hview'
  cases hbumped : change.bumped with
  | true => exact howing.announced change hchange hbumped
  | false =>
      have howed := howing.owed change hchange hbumped
      rw [(hpost : owed = [])] at howed
      cases howed

theorem AnnouncementsInv.moved {world : World} (hinv : AnnouncementsInv a st views)
    (hmove : AppState.move world st = some st') : AnnouncementsInv a st' views := by
  have hversions : st'.versions = st.versions := (AppState.move_untouched hmove).versions
  have hcounts : ∀ scope, st.versions.count scope ≤ st'.versions.count scope := by
    intro scope
    rw [hversions]
  constructor
  · intro task changes hmade
    obtain ⟨req, callerIp, owed', hview', howing⟩ := hinv.running task changes hmade
    exact ⟨req, callerIp, owed', hview', howing.of_counts hcounts⟩
  · intro change hchange
    exact (hinv.gone change hchange).trans_le (hcounts _)

end

def announcementsDiscipline :
    Machine.Discipline (machine conf) (announcements conf) (Machine.passes (endsAnnounced conf))
      (List Scope) where
  mon := owedMon
  opening := fun _ _ _ => []
  post := fun call owed result => owedPost owed call result
  inv := AnnouncementsInv
  conforms := fun _ _ call => handle_owes conf call
  called := fun hinv hfree _ => hinv.called hfree
  did := fun hinv hview _ hexec _ => ⟨trivial, hinv.did hview hexec⟩
  ended := by
    intro a st views task call owed result hinv hview hpost hallowed
    cases result with
    | ok reply => exact hinv.leave_settled hview hpost
    | error error => exact hinv.leave_quiet hallowed
  dropped := fun hinv _ hallowed => hinv.leave_quiet hallowed
  moved := fun hinv hmove _ => hinv.moved hmove

/-- As long as no request ends between a change of presence and its bump, the version of
the scope has moved by the time the request is gone, and whoever is parked on the scope
looked at its version after the change. -/
theorem changes_announced {st₀ : AppState} {c : (machine conf).Config} {a : Announcements}
    (hreach : Machine.Reach (announcements conf) (Machine.passes (endsAnnounced conf))
      ((machine conf).idle st₀) {} c a) :
    ∀ change ∈ a.gone, change.Announced c.shared ∧
      ∀ task req receivers, ParkedOn conf c task req receivers →
        ∀ row ∈ receivers, row.1 = change.place.scope → change.count < row.2 := by
  have hstart : AnnouncementsInv {} st₀ fun _ => none := by
    constructor
    · intro task changes hmade
      simp at hmade
    · intro change hchange
      cases hchange
  obtain ⟨views, _, hinv⟩ := (announcementsDiscipline conf).run hstart hreach
  intro change hchange
  have hannounced := hinv.gone change hchange
  refine ⟨hannounced, fun task req receivers hparked row hrow hscope => ?_⟩
  rw [← hparked.2 row hrow, hscope]
  exact hannounced

open Script in
/-- While the first device is parked, the second one joins, and its request is dropped
before it announces that. -/
def droppedJoin : Script Conf.small :=
  registerThenPark ++ call (.register (enrolling 2) (.v4 0)) ++ steps 2 48 (.text "token") ++ drop 2

def parkedBefore (c : (machine conf).Config) (a : Announcements) (task : Nat) : Bool :=
  (parkedOn conf c task).any fun parked =>
    a.gone.any fun change =>
      parked.2.any fun row => row.1 == change.place.scope && row.2 == change.count

/-- A device stays parked while a peer it was never told of is present. -/
theorem change_unannounced :
    ¬ ∀ c a, Machine.Reach (announcements Conf.small) Machine.free
        ((machine Conf.small).idle twoMembers) {} c a →
      ∀ change ∈ a.gone, change.Announced c.shared ∧
        ∀ task req receivers, ParkedOn Conf.small c task req receivers →
          ∀ row ∈ receivers, row.1 = change.place.scope → change.count < row.2 := by
  intro hclaim
  have hplay : (Machine.play (announcements Conf.small) (fun _ _ _ => true)
      ((machine Conf.small).idle twoMembers) {} droppedJoin).any
        (fun last => parkedBefore Conf.small last.1 last.2 1) = true := by
    decide +kernel
  have hrun : ∃ c a, Machine.Reach (announcements Conf.small) Machine.free
      ((machine Conf.small).idle twoMembers) {} c a ∧ parkedBefore Conf.small c a 1 = true :=
    Machine.reach_of_play (fun _ _ _ _ => trivial) hplay
  obtain ⟨c, a, hreach, hparked⟩ := hrun
  obtain ⟨⟨req, receivers⟩, hwaits, hany⟩ := (Option.any_eq_true _ _).mp hparked
  obtain ⟨change, hchange, hrow⟩ := List.any_eq_true.mp hany
  obtain ⟨row, hmem, hsame⟩ := List.any_eq_true.mp hrow
  rw [Bool.and_eq_true, beq_iff_eq, beq_iff_eq] at hsame
  have hbelow := (hclaim c a hreach change hchange).2 1 req receivers
    (parkedOn_sound Conf.small hwaits) row hmem hsame.1
  omega

theorem changes_announced_parked :
    ∃ c a change req receivers row, Machine.Reach (announcements Conf.small)
        (Machine.passes (endsAnnounced Conf.small)) ((machine Conf.small).idle twoMembers) {} c a ∧
      change ∈ a.gone ∧ ParkedOn Conf.small c 1 req receivers ∧ row ∈ receivers ∧
      row.1 = change.place.scope ∧ change.count < row.2 := by
  have hplay : (Machine.play (announcements Conf.small) (endsAnnounced Conf.small)
      ((machine Conf.small).idle twoMembers) {} registerThenPark).any
        (fun last => (parkedOn Conf.small last.1 1).any fun parked =>
          last.2.gone.any fun change =>
            parked.2.any fun row => row.1 == change.place.scope) = true := by
    decide
  have hrun : ∃ c a, Machine.Reach (announcements Conf.small)
      (Machine.passes (endsAnnounced Conf.small)) ((machine Conf.small).idle twoMembers) {} c a ∧
        ((parkedOn Conf.small c 1).any fun parked =>
          a.gone.any fun change =>
            parked.2.any fun row => row.1 == change.place.scope) = true :=
    Machine.reach_of_play (fun _ _ _ htest => htest) hplay
  obtain ⟨c, a, hreach, hlast⟩ := hrun
  obtain ⟨⟨req, receivers⟩, hwaits, hany⟩ := (Option.any_eq_true _ _).mp hlast
  obtain ⟨change, hchange, hrow⟩ := List.any_eq_true.mp hany
  obtain ⟨row, hmem, hsame⟩ := List.any_eq_true.mp hrow
  have hscope : row.1 = change.place.scope := by simpa using hsame
  have hparked := parkedOn_sound Conf.small hwaits
  refine ⟨c, a, change, req, receivers, row, hreach, hchange, hparked, hmem, hscope, ?_⟩
  exact (changes_announced Conf.small hreach change hchange).2 1 req receivers hparked row hmem
    hscope

end UnityLan.Coordinator
