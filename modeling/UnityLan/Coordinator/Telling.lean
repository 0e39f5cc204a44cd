import UnityLan.Coordinator.Footprint

namespace UnityLan.Coordinator

open UnityLan.Foundation Prog

/-! What a register says of devices, and where it has it from: its own row and label,
the rows it read, the attestations it found in the cache. -/

structure Said where
  pubkey : PubKey
  userId : UserId
  username : String
  deviceName : String
  isPrimary : Bool
  deriving DecidableEq

namespace Said

def ofRow (p : MemberPresence) : Said :=
  ⟨p.pubkey, p.userId, p.username, p.deviceName, p.isPrimary⟩

def ofIdentity (id : AttIdentity) : Said :=
  ⟨id.pubkey, id.userId, id.username, id.deviceName, id.isPrimary⟩

def ofAttestation (att : Attestation) : Said :=
  ⟨att.wgPubkey, att.userId, att.username, att.deviceName, att.isPrimary⟩

end Said

/-- A user, under a name. -/
abbrev Naming := UserId × String

def MemberPresence.naming (p : MemberPresence) : Naming :=
  (p.userId, p.username)

def AttIdentity.naming (id : AttIdentity) : Naming :=
  (id.userId, id.username)

def attestationNaming (att : Attestation) : Naming :=
  (att.userId, att.username)

def attested (blob : AttestationBlob) : Attestation :=
  blob.payload.attestation

theorem naming_of_said {att : Attestation} {id : AttIdentity}
    (hsaid : Said.ofAttestation att = .ofIdentity id) : attestationNaming att = id.naming :=
  congrArg (fun said : Said => (said.userId, said.username)) hsaid

/-- Every attestation of a response, the caller's own first. -/
def allAttested (resp : RegisterResp) : List Attestation :=
  ((resp.grant.elim [] (·.attestations)) ++ resp.seeds.flatMap (·.attestations)).map
    fun att => attested att.attestation

structure Telling where
  pubkey : PubKey
  /-- What this build read of the device's name and primary flag. -/
  name : Option String := none
  primary : Option Bool := none
  /-- What it says of the device itself, once it knows its user's name. -/
  own : Option Said := none
  /-- The rows of other devices it read. -/
  seen : List Said := []
  /-- The names it was told. -/
  labels : List Naming := []

namespace Telling

def learn (t : Telling) (naming : Naming) : Telling :=
  { t with labels := naming :: t.labels }

def saying (t : Telling) (user : UserId) (username : String) : Said :=
  ⟨t.pubkey, user, username, t.name.getD "", t.primary.getD false⟩

def named (t : Telling) (user : UserId) (username : String) : Telling :=
  { t.learn (user, username) with own := some (t.own.getD (t.saying user username)) }

def saw (t : Telling) (rows : List MemberPresence) : Telling :=
  { t with
    seen := t.seen ++ rows.map Said.ofRow
    labels := t.labels ++ rows.map (·.naming) }

def ran (t : Telling) : (q : Query) → q.Res → Telling
  | .device key, some row => if key = t.pubkey then { t with name := some row.deviceName } else t
  | .insertDevice key row, _ =>
      if key = t.pubkey then { t with name := some row.deviceName } else t
  | .primaryPubkey _, primary =>
      -- the owner's primary device, read right after the device's name
      if t.name.isSome && t.primary.isNone then
        { t with primary := some (primary == some t.pubkey) }
      else t
  | .userLabel user, some label => t.learn (user, label)
  | .insertUserLabel user label, _ => t.learn (user, label)
  | .userHandle user, none => t.named user s!"user-{user}"
  | _, _ => t

def next (t : Telling) : (o : Op) → o.Res → Telling
  | .nat (.putSourceIp ..), _ => { pubkey := t.pubkey }
  | .tryAcquire _, _ => { pubkey := t.pubkey }
  | .store q, .ok answer => t.ran q answer
  | .knownLabel user, some label => t.named user label
  | .keepLabel user label, _ => t.named user label
  | .presence (.othersIn ..), rows => t.saw rows
  | .presence (.othersOfUser ..), rows => t.saw rows
  | _, _ => t

def Speaks (t : Telling) (p : MemberPresence) : Prop :=
  t.own = some (.ofRow p) ∧ p.naming ∈ t.labels

def allows (t : Telling) : Op → Prop
  | .presence (.record _ _ p _ _) => t.Speaks p
  | .presence (.recordSelf _ p _ _) => t.Speaks p
  | .keepLabel user label => (user, label) ∈ t.labels
  | .signing (.fresh _ id _ _) => id.naming ∈ t.labels
  | .signing (.keep _ id _ _ blob) =>
      Said.ofAttestation (attested blob) = .ofIdentity id ∧ id.naming ∈ t.labels
  | _ => True

def expects (_ : Telling) : (o : Op) → o.Res → Prop
  | .signing (.fresh _ id _ _), some blob => Said.ofAttestation (attested blob) = .ofIdentity id
  | _, _ => True

def mon : Monitor sig Telling where
  allows := allows
  expects := expects
  next := next

def Vouches (t : Telling) (att : Attestation) : Prop :=
  attestationNaming att ∈ t.labels ∧
    (t.own = some (.ofAttestation att) ∨ Said.ofAttestation att ∈ t.seen)

def Resets : Op → Prop
  | .nat (.putSourceIp ..) => True
  | .tryAcquire _ => True
  | _ => False

structure Grows (t t' : Telling) : Prop where
  pubkey : t'.pubkey = t.pubkey
  own : ∀ said, t.own = some said → t'.own = some said
  seen : t.seen ⊆ t'.seen
  labels : t.labels ⊆ t'.labels

variable {t t' t'' : Telling}

theorem Grows.refl (t : Telling) : t.Grows t where
  pubkey := rfl
  own := fun _ h => h
  seen := List.Subset.refl _
  labels := List.Subset.refl _

theorem Grows.trans (hfirst : t.Grows t') (hsecond : t'.Grows t'') : t.Grows t'' where
  pubkey := hsecond.pubkey.trans hfirst.pubkey
  own := fun said h => hsecond.own said (hfirst.own said h)
  seen := fun _ h => hsecond.seen (hfirst.seen h)
  labels := fun _ h => hsecond.labels (hfirst.labels h)

theorem Grows.vouches {att : Attestation} (hgrows : t.Grows t') (hvouches : t.Vouches att) :
    t'.Vouches att := by
  obtain ⟨hlabel, hown | hseen⟩ := hvouches
  · exact ⟨hgrows.labels hlabel, .inl (hgrows.own _ hown)⟩
  · exact ⟨hgrows.labels hlabel, .inr (hgrows.seen hseen)⟩

theorem learn_grows (naming : Naming) : t.Grows (t.learn naming) where
  pubkey := rfl
  own := fun _ h => h
  seen := List.Subset.refl _
  labels := List.subset_cons_self _ _

theorem named_grows (user : UserId) (username : String) : t.Grows (t.named user username) where
  pubkey := rfl
  own := by
    intro said h
    simp [named, h]
  seen := List.Subset.refl _
  labels := List.subset_cons_self _ _

theorem saw_grows (rows : List MemberPresence) : t.Grows (t.saw rows) where
  pubkey := rfl
  own := fun _ h => h
  seen := List.subset_append_left _ _
  labels := List.subset_append_left _ _

theorem ran_grows (q : Query) (answer : q.Res) : t.Grows (t.ran q answer) := by
  unfold ran
  split
  · split
    · constructor <;> first | rfl | exact fun _ h => h
    · exact .refl t
  · split
    · constructor <;> first | rfl | exact fun _ h => h
    · exact .refl t
  · split
    · constructor <;> first | rfl | exact fun _ h => h
    · exact .refl t
  · exact learn_grows _
  · exact learn_grows _
  · exact named_grows _ _
  · exact .refl t

theorem next_grows {o : Op} (ho : ¬ Resets o) (answer : o.Res) : t.Grows (t.next o answer) := by
  unfold next
  split
  · exact absurd trivial ho
  · exact absurd trivial ho
  · exact ran_grows _ _
  · exact named_grows _ _
  · exact named_grows _ _
  · exact saw_grows _
  · exact saw_grows _
  · exact .refl t

theorem next_pubkey (o : Op) (answer : o.Res) : (t.next o answer).pubkey = t.pubkey := by
  by_cases ho : Resets o
  · unfold Resets at ho
    split at ho
    · rfl
    · rfl
    · exact ho.elim
  · exact (next_grows ho answer).pubkey

section

variable {ε α : Type}

theorem grows_of_uses {inside : Op → Prop} {program : Prog sig ε α} (hprogram : program.Uses inside)
    (hinside : ∀ o, inside o → ¬ Resets o ∧ ∀ t : Telling, t.allows o) :
    program.Conforms mon (returns fun t' _ => t.Grows t') t := by
  have hkept : program.Conforms mon (fun t' _ => t.Grows t') t := by
    refine hprogram.keeps (fun t' => t.Grows t') (fun t' o ho hgrows => ?_) (.refl t)
    obtain ⟨hresets, hallowed⟩ := hinside o ho
    exact ⟨hallowed t', fun answer _ => hgrows.trans (next_grows hresets answer)⟩
  refine hkept.mono fun t' result hgrows => ?_
  cases result with
  | ok value => exact hgrows
  | error error => trivial

theorem same_of_uses {inside : Op → Prop} {program : Prog sig ε α} (hprogram : program.Uses inside)
    (hinside : ∀ o, inside o → t.allows o ∧ ∀ answer, t.next o answer = t) :
    program.Conforms mon (returns fun t' _ => t' = t) t := by
  refine (hprogram.conforms hinside).mono fun t' result hsame => ?_
  cases result with
  | ok value => exact hsame
  | error error => trivial

end

structure Unnamed (req : RegisterReq) (device : Device) (t : Telling) : Prop where
  pubkey : t.pubkey = req.wgPubkey
  name : t.name.getD "" = device.name
  primary : t.primary.getD false = device.isPrimary
  own : t.own = none
  /-- The primary flag is read with the name. -/
  settled : t.name.isSome = true → t.primary.isSome = true

structure Identified (req : RegisterReq) (user : UserId) (device : Device) (username : String)
    (t : Telling) : Prop where
  pubkey : t.pubkey = req.wgPubkey
  own : t.own = some ⟨req.wgPubkey, user, username, device.name, device.isPrimary⟩
  label : (user, username) ∈ t.labels

variable {conf : Conf} {req : RegisterReq} {user : UserId} {device : Device} {username : String}

theorem Unnamed.learn (hunnamed : Unnamed req device t) (naming : Naming) :
    Unnamed req device (t.learn naming) where
  pubkey := hunnamed.pubkey
  name := hunnamed.name
  primary := hunnamed.primary
  own := hunnamed.own
  settled := hunnamed.settled

theorem Unnamed.named (hunnamed : Unnamed req device t) (user : UserId) (username : String) :
    Identified req user device username (t.named user username) where
  pubkey := hunnamed.pubkey
  own := by
    simp [Telling.named, hunnamed.own, saying, hunnamed.pubkey, hunnamed.name, hunnamed.primary]
  label := List.mem_cons_self

theorem Identified.speaks (hidentified : Identified req user device username t) :
    t.Speaks (presenceOf req user device username) :=
  ⟨hidentified.own, hidentified.label⟩

/-! The label of a user. -/

theorem name_same {o : Op} (ho : NameOp o) : t.allows o ∧ ∀ answer, t.next o answer = t := by
  unfold NameOp at ho
  split at ho
  · refine ⟨trivial, fun answer => ?_⟩
    cases answer <;> rfl
  all_goals first | exact ho.elim | exact ⟨trivial, fun _ => rfl⟩

theorem member_same {guild : GuildId} {o : Op} (ho : MemberOp guild user o) :
    t.allows o ∧ ∀ answer, t.next o answer = t := by
  unfold MemberOp at ho
  split at ho
  all_goals first | exact ho.elim | exact ⟨trivial, fun _ => rfl⟩

theorem evict_same {pubkey : PubKey} {o : Op} (ho : EvictOp pubkey o) :
    t.allows o ∧ ∀ answer, t.next o answer = t := by
  unfold EvictOp at ho
  split at ho
  all_goals first | exact ho.elim | exact ⟨trivial, fun _ => rfl⟩

theorem touch_same {personal : Bool} {o : Op} (ho : TouchOp req personal o) :
    t.allows o ∧ ∀ answer, t.next o answer = t := by
  unfold TouchOp at ho
  split at ho
  · refine ⟨trivial, fun answer => ?_⟩
    cases answer <;> rfl
  all_goals first | exact ho.elim | exact ⟨trivial, fun _ => rfl⟩

theorem claimLabel_learns (desired : String) (tries : List Nat)
    (hunnamed : Unnamed req device t) :
    (Store.claimLabel user desired tries).Conforms mon
      (returns fun t' claimed => Unnamed req device t' ∧
        ∀ label, claimed = some label → (user, label) ∈ t'.labels) t := by
  induction tries with
  | nil => exact ⟨hunnamed, nofun⟩
  | cons n rest ih =>
      rw [Store.claimLabel, conforms_act_bind]
      refine ⟨trivial, fun answer _ => ?_⟩
      cases answer with
      | ok _ =>
          refine ⟨hunnamed.learn _, ?_⟩
          rintro label ⟨⟩
          exact List.mem_cons_self
      | error error =>
          cases error with
          | uniqueViolation =>
              refine (conforms_sql_bind ..).mpr ⟨trivial, fun found _ => ?_⟩
              rcases found with error | _ | label
              · trivial
              · exact ih
              · refine ⟨hunnamed.learn _, ?_⟩
                rintro label ⟨⟩
                exact List.mem_cons_self
          | database why => trivial
          | message text => trivial

theorem storeUserLabel_learns (seed : String) (hunnamed : Unnamed req device t) :
    (Store.userLabel user seed).Conforms mon
      (returns fun t' label => Unnamed req device t' ∧ (user, label) ∈ t'.labels) t := by
  rw [Store.userLabel, conforms_sql_bind]
  refine ⟨trivial, fun found _ => ?_⟩
  rcases found with error | _ | label
  · trivial
  · refine (claimLabel_learns _ _ hunnamed).andThen fun t₁ claimed hclaimed => ?_
    cases claimed with
    | some label => exact ⟨hclaimed.1, hclaimed.2 label rfl⟩
    | none =>
        refine (conforms_act_bind ..).mpr ⟨trivial, fun answer _ => ?_⟩
        cases answer with
        | ok _ => exact ⟨hclaimed.1.learn _, List.mem_cons_self⟩
        | error error => trivial
  · exact ⟨hunnamed.learn _, List.mem_cons_self⟩

theorem userLabel_identifies (seed : String) (hunnamed : Unnamed req device t) :
    (userLabel user seed).Conforms mon
      (returns fun t' label => Identified req user device label t') t := by
  rw [userLabel, conforms_act_bind]
  refine ⟨trivial, fun known _ => ?_⟩
  cases known with
  | some label => exact hunnamed.named user label
  | none =>
      refine (storeUserLabel_learns seed hunnamed).mapError_returns.andThen
        fun t₁ label hlearnt => ?_
      exact (conforms_act_bind ..).mpr ⟨hlearnt.2, fun _ _ => hlearnt.1.named user label⟩

/-! What the device is called. -/

structure Reading (req : RegisterReq) (t : Telling) : Prop where
  pubkey : t.pubkey = req.wgPubkey
  own : t.own = none
  primary : t.primary = none

theorem Reading.reads (hreading : Reading req t) (name : String) :
    Reading req { t with name := some name } where
  pubkey := hreading.pubkey
  own := hreading.own
  primary := hreading.primary

theorem uniqueDeviceName_reads (desired : String) (exclude : Option PubKey) :
    (Store.uniqueDeviceName user desired exclude).Conforms mon (returns fun t' _ => t' = t) t := by
  have huses : (Store.uniqueDeviceName user desired exclude).Uses
      (StoreOp fun q => q = .userDevices user) := by
    simp only [Store.uniqueDeviceName, uses_sql_bind]
    refine ⟨rfl, fun devices => ?_⟩
    split
    · trivial
    · split <;> trivial
  refine same_of_uses huses fun o ho => ?_
  unfold StoreOp at ho
  split at ho
  · subst ho
    refine ⟨trivial, fun answer => ?_⟩
    cases answer <;> rfl
  · exact ho.elim

theorem allocateDevice_reads (name : String) (hreading : Reading req t) :
    (Store.allocateDevice conf req.wgPubkey user name).Conforms mon
      (returns fun t' given => Reading req t' ∧ t'.name = some given.2) t := by
  have hinsert : ∀ row, t.ran (.insertDevice req.wgPubkey row) () =
      { t with name := some row.deviceName } := fun row => if_pos hreading.pubkey.symm
  have hread : ∀ row, t.ran (.device req.wgPubkey) (some row) =
      { t with name := some row.deviceName } := fun row => if_pos hreading.pubkey.symm
  rw [Store.allocateDevice, conforms_sql_bind]
  refine ⟨trivial, fun found _ => ?_⟩
  rcases found with error | _ | row
  · trivial
  · refine (conforms_sql_bind ..).mpr ⟨trivial, fun owned _ => ?_⟩
    cases owned with
    | error error => trivial
    | ok owned =>
        dsimp only [after]
        split
        · trivial
        · refine (conforms_sql_bind ..).mpr ⟨trivial, fun taken _ => ?_⟩
          cases taken with
          | error error => trivial
          | ok taken =>
              dsimp only [after]
              split
              · trivial
              · refine (uniqueDeviceName_reads (t := t) _ _).andThen fun t₁ chosen hsame => ?_
                subst hsame
                refine (conforms_act_bind ..).mpr ⟨trivial, fun token _ => ?_⟩
                refine (conforms_sql_bind ..).mpr ⟨trivial, fun inserted _ => ?_⟩
                cases inserted with
                | error error => trivial
                | ok _ =>
                    show Reading req (t₁.ran (.insertDevice req.wgPubkey _) ()) ∧
                      (t₁.ran (.insertDevice req.wgPubkey _) ()).name = some chosen
                    rw [hinsert]
                    exact ⟨hreading.reads chosen, rfl⟩
  · show after mon _ _ (t.ran (.device req.wgPubkey) (some row)) _
    rw [hread]
    dsimp only [after]
    split
    · exact ⟨hreading.reads row.deviceName, rfl⟩
    · trivial

theorem lookupMember_same (cache : MemberCache) (guild : GuildId) :
    (lookupMember cache guild user).Conforms mon (returns fun t' _ => t' = t) t :=
  same_of_uses (lookupMember_uses cache guild user) fun _ => member_same

theorem holdsAnyNetworkRole_same (networks : List Network) (cache : MemberCache) :
    (holdsAnyNetworkRole user networks cache).Conforms mon (returns fun t' _ => t' = t) t := by
  induction networks generalizing cache with
  | nil => rfl
  | cons net rest ih =>
      unfold holdsAnyNetworkRole
      refine (lookupMember_same cache net.guildId).andThen fun t₁ looked hsame => ?_
      subst hsame
      dsimp only
      split
      · rfl
      · exact ih _

theorem resolveDevice_names (networks : List Network) (cache : MemberCache)
    (hreading : Reading req t)
    (hnameless : t.name = none) :
    (resolveDevice conf req user networks cache).Conforms mon
      (returns fun t' resolved => Unnamed req resolved.1 t') t := by
  unfold resolveDevice
  refine (holdsAnyNetworkRole_same networks cache).andThen fun t₁ held hsame => ?_
  subst hsame
  dsimp only
  split
  · constructor
    · exact hreading.pubkey
    · simp [hnameless]
    · simp [hreading.primary]
    · exact hreading.own
    · simp [hnameless]
  · refine (allocateDevice_reads _ hreading).mapError_returns.andThen fun t₂ given hgiven => ?_
    obtain ⟨hreading₂, hname⟩ := hgiven
    refine Conforms.through (fun t₃ _ => t₃ = t₂) ?_ ?_
    · refine Conforms.mapError_returns ((conforms_sql ..).mpr ⟨trivial, fun answer _ => ?_⟩)
      cases answer with
      | ok _ => rfl
      | error error => trivial
    · rintro t₃ _ rfl
      refine Conforms.through (fun t₄ primary =>
        t₄ = { t₃ with primary := some (primary == some req.wgPubkey) }) ?_ ?_
      · refine Conforms.mapError_returns ((conforms_sql ..).mpr ⟨trivial, fun answer _ => ?_⟩)
        cases answer with
        | ok primary =>
            show (if t₃.name.isSome && t₃.primary.isNone then _ else t₃) = _
            rw [hname, hreading₂.primary, hreading₂.pubkey]
            rfl
        | error error => trivial
      · rintro t₄ primary rfl
        constructor
        · exact hreading₂.pubkey
        · simp [hname]
        · rfl
        · exact hreading₂.own
        · exact fun _ => rfl

theorem removal_same {pubkey : PubKey} {o : Op} (hunnamed : Unnamed req device t)
    (ho : StoreOp (RemovalQuery user pubkey) o) :
    t.allows o ∧ ∀ answer, t.next o answer = t := by
  unfold StoreOp at ho
  split at ho
  · rename_i q
    refine ⟨trivial, fun answer => ?_⟩
    cases answer with
    | error error => rfl
    | ok answer =>
        show t.ran q answer = t
        unfold RemovalQuery at ho
        split at ho
        all_goals first | exact ho.elim | rfl | skip
        refine if_neg ?_
        rw [Bool.and_eq_true, not_and]
        intro hname
        simp [Option.isSome_iff_ne_none.mp (hunnamed.settled hname)]
  · exact ho.elim

theorem evictFrom_same (pubkey : PubKey) (networks : List (GuildId × RoleId))
    (changed : List Scope) :
    (evictFrom pubkey networks changed).Conforms mon (returns fun t' _ => t' = t) t :=
  same_of_uses (evictFrom_uses pubkey networks changed) fun _ => evict_same

theorem retireSuperseded_same (changed : List Scope) (hunnamed : Unnamed req device t) :
    (retireSuperseded req user changed).Conforms mon (returns fun t' _ => t' = t) t := by
  unfold retireSuperseded
  split
  · rfl
  · refine Conforms.through (fun t₁ _ => t₁ = t) ?_ ?_
    · refine Conforms.mapError_returns ((conforms_sql ..).mpr ⟨trivial, fun answer _ => ?_⟩)
      cases answer with
      | ok _ => rfl
      | error error => trivial
    · rintro t₁ found rfl
      cases found with
      | none => rfl
      | some old =>
          dsimp only
          split
          · refine (same_of_uses ((removeDevice_uses _ _).mapError _) fun o ho =>
              removal_same hunnamed ho).andThen fun t₂ _ hsame => ?_
            subst hsame
            refine (conforms_act_bind ..).mpr ⟨trivial, fun networks _ => ?_⟩
            refine (evictFrom_same (t := t₂) _ _ _).andThen fun t₃ changed hsame => ?_
            subst hsame
            exact (conforms_act_bind ..).mpr ⟨trivial, fun removed _ => rfl⟩
          · rfl

/-! The walk over the networks. -/

structure Walked (req : RegisterReq) (user : UserId) (device : Device) (t : Telling) (walk : Walk) :
    Prop where
  resolved : walk.labelResolved = true → walk.m.status ≠ [] ∧
    Identified req user device walk.m.username t
  unresolved : walk.labelResolved = false → walk.m.status = [] ∧ walk.m.username = s!"user-{user}" ∧
    Unnamed req device t

theorem walkUsername_identifies {walk : Walk} (member : MemberRoles)
    (hwalked : Walked req user device t walk) :
    (walkUsername user member walk).Conforms mon
      (returns fun t' username => Identified req user device username t') t := by
  unfold walkUsername
  split
  · rename_i hresolved
    exact (hwalked.resolved hresolved).2
  · rename_i hopen
    exact userLabel_identifies _ (hwalked.unresolved (Bool.eq_false_of_not_eq_true hopen)).2.2

theorem Walked.of_identified {walk : Walk} (hresolved : walk.labelResolved = true)
    (hlisted : walk.m.status ≠ []) (hidentified : Identified req user device walk.m.username t) :
    Walked req user device t walk where
  resolved := fun _ => ⟨hlisted, hidentified⟩
  unresolved := fun hopen => absurd (hresolved.symm.trans hopen) Bool.noConfusion

theorem recordPresence_speaks {walk : Walk} (now : Nat) (net : Network)
    (hidentified : Identified req user device walk.m.username t) :
    (recordPresence req user device now net walk).Conforms mon
      (returns fun t' walk' => t' = t ∧ walk'.m = walk.m ∧
        walk'.labelResolved = walk.labelResolved) t := by
  unfold recordPresence
  split
  · exact ⟨rfl, rfl, rfl⟩
  · refine (conforms_act_bind ..).mpr ⟨hidentified.speaks, fun recorded _ => ?_⟩
    cases recorded with
    | true => exact ⟨rfl, rfl, rfl⟩
    | false => exact ⟨rfl, rfl, rfl⟩

theorem walkHeld_walks {walk : Walk} (now : Nat) (net : Network) (member : MemberRoles)
    (hwalked : Walked req user device t walk) :
    (walkHeld req user device now net member walk).Conforms mon
      (returns fun t' walk' => Walked req user device t' walk') t := by
  unfold walkHeld
  refine (same_of_uses (walkCommunity_uses _ _) fun _ => name_same).andThen
    fun t₁ labelled hsame => ?_
  subst hsame
  refine (same_of_uses (roleName_uses _ _) fun _ => name_same).andThen fun t₂ name hsame => ?_
  subst hsame
  refine (walkUsername_identifies member hwalked).andThen fun t₃ username hidentified => ?_
  dsimp only
  have hlisted : ∀ status : NetworkStatus, walk.m.status ++ [status] ≠ [] := by
    intro status
    simp
  split
  · refine (recordPresence_speaks now net hidentified).andThen fun t₄ walk' hsame => ?_
    obtain ⟨rfl, hm, hresolved⟩ := hsame
    apply Walked.of_identified
    · exact hresolved
    · simp [Walk.hold, hm, Walk.enable, Walk.list]
    · show Identified req user device walk'.m.username t₄
      rw [hm]
      exact hidentified
  · exact Walked.of_identified rfl (hlisted _) hidentified

theorem walkNetwork_walks {walk : Walk} (now : Nat) (net : Network)
    (hwalked : Walked req user device t walk) :
    (walkNetwork req user device now walk net).Conforms mon
      (returns fun t' walk' => Walked req user device t' walk') t := by
  unfold walkNetwork
  refine (lookupMember_same _ _).andThen fun t₁ looked hsame => ?_
  subst hsame
  have hlooked : ∀ cache, Walked req user device t₁ { walk with cache := cache } :=
    fun cache => ⟨hwalked.resolved, hwalked.unresolved⟩
  dsimp only
  split
  · exact hlooked _
  · split
    · exact walkHeld_walks now net _ (hlooked _)
    · exact hlooked _

def Introduced (req : RegisterReq) (user : UserId) (device : Device) (m : Membership)
    (t : Telling) : Prop :=
  t.pubkey = req.wgPubkey ∧
    (m.hasIdentity = true → Identified req user device m.username t)

theorem resolveMembership_introduces (networks : List Network) (cache : MemberCache) (now : Nat)
    (changed : List Scope) (hunnamed : Unnamed req device t) :
    (resolveMembership req user networks device cache now changed).Conforms mon
      (returns fun t' result => Introduced req user device result.1 t') t := by
  unfold resolveMembership
  refine Conforms.through (fun t' walk => Walked req user device t' walk) ?_ ?_
  · refine Conforms.foldlM networks _ _ (fun t' walk net _ hwalked => ?_) ?_
    · exact walkNetwork_walks now net hwalked
    · exact ⟨nofun, fun _ => ⟨rfl, rfl, hunnamed⟩⟩
  · intro t₁ walk hwalked
    refine (conforms_act_bind ..).mpr ⟨trivial, fun recorded _ => ?_⟩
    refine (evictFrom_same (t := t₁) _ _ _).andThen fun t₂ changed hsame => ?_
    subst hsame
    cases hresolved : walk.labelResolved with
    | true =>
        obtain ⟨hlisted, hidentified⟩ := hwalked.resolved hresolved
        have hshared : (walk.m.status.isEmpty && wantsPersonalScope req) = false := by
          simp [hlisted]
        simp only [hshared]
        exact ⟨hidentified.pubkey, fun _ => hidentified⟩
    | false =>
        obtain ⟨hempty, husername, hunnamed₂⟩ := hwalked.unresolved hresolved
        dsimp only
        split
        · refine Conforms.through (fun t₃ handle =>
            Option.elim handle (Identified req user device s!"user-{user}" t₃)
              fun _ => t₃ = t₂) ?_ ?_
          · refine Conforms.mapError_returns ((conforms_sql ..).mpr ⟨trivial, fun answer _ => ?_⟩)
            rcases answer with error | _ | handle
            · trivial
            · exact hunnamed₂.named user _
            · rfl
          · intro t₃ handle hhandle
            cases handle with
            | none => exact ⟨hhandle.pubkey, fun _ => husername ▸ hhandle⟩
            | some handle =>
                obtain rfl : t₃ = t₂ := hhandle
                refine (userLabel_identifies _ hunnamed₂).andThen fun t₄ username hidentified => ?_
                exact ⟨hidentified.pubkey, fun _ => hidentified⟩
        · rename_i hshared
          refine ⟨hunnamed₂.pubkey, fun hidentity => ?_⟩
          simp only [Membership.hasIdentity, hempty, List.isEmpty_nil, Bool.not_true,
            Bool.true_and, Bool.false_or] at hidentity hshared
          exact absurd hidentity hshared

theorem recordOwnDevice_introduces (m : Membership) (now : Nat) (changed : List Scope)
    (hintroduced : Introduced req user device m t) :
    (recordOwnDevice req user device m now changed).Conforms mon
      (returns fun t' _ => t' = t) t := by
  unfold recordOwnDevice announceSelf
  refine Conforms.through (fun t' _ => t' = t) ?_ fun t' _ hsame => hsame
  split
  · rename_i hjoins
    simp only [Bool.and_eq_true] at hjoins
    exact ⟨(hintroduced.2 hjoins.2).speaks, fun _ _ => rfl⟩
  · exact ⟨trivial, fun _ _ => rfl⟩

theorem settle_introduces (callerIp : IpAddr) (hpubkey : t.pubkey = req.wgPubkey) :
    (settle conf req callerIp user).Conforms mon
      (returns fun t' settled => Introduced req user settled.device settled.m t') t := by
  unfold settle
  refine (conforms_act_bind ..).mpr ⟨trivial, fun _ _ => ?_⟩
  have hstart : Reading req { pubkey := t.pubkey } := ⟨hpubkey, rfl, rfl⟩
  refine (conforms_act_bind ..).mpr ⟨trivial, fun now _ => ?_⟩
  refine Conforms.through (fun t₁ _ => t₁ = { pubkey := t.pubkey }) ?_ ?_
  · refine Conforms.mapError_returns ((conforms_sql ..).mpr ⟨trivial, fun answer _ => ?_⟩)
    cases answer with
    | ok _ => rfl
    | error error => trivial
  · rintro t₁ allNetworks rfl
    refine (conforms_act_bind ..).mpr ⟨trivial, fun memo _ => ?_⟩
    refine (resolveDevice_names _ _ hstart rfl).andThen fun t₂ resolved hunnamed => ?_
    refine (retireSuperseded_same _ hunnamed).andThen fun t₃ changed hsame => ?_
    subst hsame
    refine (resolveMembership_introduces _ _ _ _ hunnamed).andThen fun t₄ member hintroduced => ?_
    refine Conforms.through (fun t₅ _ => t₅ = t₄) ?_ ?_
    · unfold rememberRoleless
      split
      · exact ⟨trivial, fun _ _ => rfl⟩
      · rfl
    · rintro t₅ _ rfl
      refine Conforms.through (fun t₆ _ => t₆ = t₅) ?_ ?_
      · unfold touchIdentity
        split
        · exact (same_of_uses (touchDevice_uses _) fun _ => touch_same).mapError_returns
        · rfl
      · rintro t₆ _ rfl
        refine (recordOwnDevice_introduces _ _ _ hintroduced).andThen fun t₇ changed hsame => ?_
        subst hsame
        exact hintroduced

/-! Signing what is said. -/

def Sanctioned (t : Telling) (id : AttIdentity) : Prop :=
  id.naming ∈ t.labels ∧ (t.own = some (.ofIdentity id) ∨ Said.ofIdentity id ∈ t.seen)

theorem Sanctioned.grows {id : AttIdentity} (hsanctioned : t.Sanctioned id) (hgrows : t.Grows t') :
    t'.Sanctioned id := by
  obtain ⟨hlabel, hown | hseen⟩ := hsanctioned
  · exact ⟨hgrows.labels hlabel, .inl (hgrows.own _ hown)⟩
  · exact ⟨hgrows.labels hlabel, .inr (hgrows.seen hseen)⟩

theorem Sanctioned.vouches {id : AttIdentity} {att : Attestation} (hsanctioned : t.Sanctioned id)
    (hsaid : Said.ofAttestation att = .ofIdentity id) : t.Vouches att :=
  ⟨naming_of_said hsaid ▸ hsanctioned.1, hsaid ▸ hsanctioned.2⟩

theorem plain_grows {o : Op} (ho : PlainOp req o) : ¬ Resets o ∧ ∀ t : Telling, t.allows o := by
  unfold PlainOp at ho
  split at ho
  · exact ho.elim
  · exact ho.elim
  · exact ho.elim
  · rename_i hpresence hfresh hkeep
    constructor
    · intro hresets
      unfold Resets at hresets
      split at hresets
      · exact ho
      · exact ho
      · exact hresets
    · intro t
      unfold allows
      split
      · exact absurd rfl (hpresence _)
      · exact absurd rfl (hpresence _)
      · exact ho.elim
      · exact absurd rfl (hfresh _ _ _ _)
      · exact absurd rfl (hkeep _ _ _ _ _)
      · trivial

theorem withLock_same (t : Telling) (o : Locks.Op) :
    mon.allows t (.locks o) ∧ ∀ answer, mon.next t (.locks o) answer = t :=
  ⟨trivial, fun _ => rfl⟩

theorem guildKey_grows (guild : GuildId) :
    (GuildKeys.get conf guild).Conforms mon (returns fun t' _ => t.Grows t') t :=
  grows_of_uses (@guildKeys_get_uses conf { wgPubkey := 0 } guild) fun _ => plain_grows

theorem signWith_states (signer : Signer) (id : AttIdentity) (schema : Nat) :
    (signWith signer id schema).Conforms mon
      (returns fun t' blob => t' = t ∧ Said.ofAttestation (attested blob) = .ofIdentity id) t := by
  refine (conforms_act_bind ..).mpr ⟨trivial, fun now _ => ?_⟩
  split
  · rename_i blob hsigned
    unfold signAttestation at hsigned
    split at hsigned
    · cases hsigned
      exact ⟨rfl, rfl⟩
    · cases hsigned
  · trivial

theorem grantAttestations_vouches (id : AttIdentity) (m : Membership) (attSchema : Nat)
    (guilds : List GuildId) (hsanctioned : t.Sanctioned id) :
    (grantAttestations conf id m attSchema guilds).Conforms mon
      (returns fun t' atts => t.Grows t' ∧ ∀ att ∈ atts, t'.Vouches (attested att.attestation))
      t := by
  induction guilds generalizing t with
  | nil => exact ⟨.refl t, fun _ habsurd => absurd habsurd List.not_mem_nil⟩
  | cons guild rest ih =>
      unfold grantAttestations
      refine (guildKey_grows guild).mapError_returns.andThen fun t₁ key hgrows₁ => ?_
      refine (signWith_states _ _ _).mapError_returns.andThen fun t₂ blob hblob => ?_
      obtain ⟨rfl, hsaid⟩ := hblob
      have hsanctioned₂ := hsanctioned.grows hgrows₁
      refine (ih hsanctioned₂).andThen fun t₃ atts hatts => ?_
      obtain ⟨hgrows₃, hvouched⟩ := hatts
      refine ⟨hgrows₁.trans hgrows₃, fun att hatt => ?_⟩
      rcases List.mem_cons.mp hatt with rfl | hatt
      · exact hgrows₃.vouches (hsanctioned₂.vouches hsaid)
      · exact hvouched att hatt

theorem attestation_vouches (guild : GuildId) (id : AttIdentity) (now schema : Nat)
    (hsanctioned : t.Sanctioned id) :
    (SignCache.attestation conf guild id now schema).Conforms mon
      (returns fun t' blob => t.Grows t' ∧ t'.Vouches (attested blob)) t := by
  have hhit : ∀ blob : AttestationBlob, Said.ofAttestation (attested blob) = .ofIdentity id →
      t.Grows t ∧ t.Vouches (attested blob) :=
    fun blob hsaid => ⟨.refl t, hsanctioned.vouches hsaid⟩
  refine (conforms_act_bind ..).mpr ⟨hsanctioned.1, fun hit hexpected => ?_⟩
  cases hit with
  | some blob => exact hhit blob hexpected
  | none =>
      refine withLock_conforms withLock_same ?_
      refine (conforms_act_bind ..).mpr ⟨hsanctioned.1, fun again hexpected => ?_⟩
      cases again with
      | some blob => exact hhit blob hexpected
      | none =>
          refine (guildKey_grows guild).andThen fun t₁ key hgrows₁ => ?_
          refine (signWith_states _ _ _).andThen fun t₂ blob hblob => ?_
          obtain ⟨rfl, hsaid⟩ := hblob
          have hsanctioned₂ := hsanctioned.grows hgrows₁
          refine (conforms_act_bind ..).mpr ⟨⟨hsaid, hsanctioned₂.1⟩, fun _ _ => ?_⟩
          exact ⟨hgrows₁, hsanctioned₂.vouches hsaid⟩

/-! The caller's own attestations, and those of its peers. -/

theorem Identified.sanctioned {ip : Ipv4Addr}
    (hidentified : Identified req user device username t) :
    t.Sanctioned ⟨user, username, device.name, device.isPrimary, ip, req.wgPubkey⟩ :=
  ⟨hidentified.label, .inl hidentified.own⟩

theorem buildGrant_vouches (m : Membership) (attSchema : Nat)
    (hintroduced : Introduced req user device m t) :
    (buildGrant conf req user device m attSchema).Conforms mon
      (returns fun t' grant => t.Grows t' ∧
        ∀ att ∈ grant.elim [] (·.attestations), t'.Vouches (attested att.attestation)) t := by
  unfold buildGrant
  split
  · rename_i hidentity
    have hsanctioned := @Identified.sanctioned _ _ _ _ _ device.ip (hintroduced.2 hidentity)
    exact (grantAttestations_vouches _ m attSchema _ hsanctioned).andThen
      fun t' atts hatts => hatts
  · exact ⟨.refl t, nofun⟩

def Read (t : Telling) (mp : MemberPresence) : Prop :=
  Said.ofRow mp ∈ t.seen ∧ mp.naming ∈ t.labels

theorem Read.grows {mp : MemberPresence} (hread : t.Read mp) (hgrows : t.Grows t') : t'.Read mp :=
  ⟨hgrows.seen hread.1, hgrows.labels hread.2⟩

theorem Read.sanctioned {mp : MemberPresence} (hread : t.Read mp) :
    t.Sanctioned (identityOf mp) :=
  ⟨hread.2, .inr hread.1⟩

theorem saw_reads {rows : List MemberPresence} {mp : MemberPresence} (hmem : mp ∈ rows) :
    (t.saw rows).Read mp :=
  ⟨List.mem_append_right _ (List.mem_map_of_mem hmem),
    List.mem_append_right _ (List.mem_map_of_mem hmem)⟩

def Gathered (t : Telling) (peers : Peers) : Prop :=
  ∀ pubkey peer, peers.get? pubkey = some peer → t.Read peer.mp

theorem Gathered.grows {peers : Peers} (hgathered : t.Gathered peers) (hgrows : t.Grows t') :
    t'.Gathered peers :=
  fun pubkey peer hpeer => (hgathered pubkey peer hpeer).grows hgrows

theorem gatherShared_gathers (m : Membership) (held : List ((GuildId × RoleId) × String))
    {peers : Peers} (hgathered : t.Gathered peers) :
    (gatherShared req m held peers).Conforms mon
      (returns fun t' peers' => t.Grows t' ∧ t'.Gathered peers') t := by
  induction held generalizing t peers with
  | nil => exact ⟨.refl t, hgathered⟩
  | cons network rest ih =>
      refine (conforms_act_bind ..).mpr ⟨trivial, fun others _ => ?_⟩
      have hsaw : t.Grows (t.saw others) := saw_grows others
      refine (ih ?_).returns_mono fun t' peers' hpeers' => ⟨hsaw.trans hpeers'.1, hpeers'.2⟩
      apply foldl_from
      · exact fun peers mp => addShared_from _
      · exact hgathered.grows hsaw
      · exact fun mp hmem => saw_reads hmem

theorem gatherPeers_gathers (m : Membership) (grantGuilds : List GuildId) :
    (gatherPeers req user m grantGuilds).Conforms mon
      (returns fun t' peers => t.Grows t' ∧ t'.Gathered peers) t := by
  unfold gatherPeers
  refine (@gatherShared_gathers t _ m _ ∅ nofun).andThen fun t₁ peers hpeers => ?_
  obtain ⟨hgrows, hgathered⟩ := hpeers
  split
  · refine (conforms_act_bind ..).mpr ⟨trivial, fun siblings _ => ?_⟩
    have hsaw : t₁.Grows (t₁.saw siblings) := saw_grows siblings
    refine ⟨hgrows.trans hsaw, ?_⟩
    apply foldl_from
    · exact fun peers mp => addSibling_from _
    · exact hgathered.grows hsaw
    · exact fun mp hmem => saw_reads hmem
  · exact ⟨hgrows, hgathered⟩

theorem peerAttestations_vouches {mp : MemberPresence} (m : Membership) (now attSchema : Nat)
    (guilds : List GuildId) (hread : t.Read mp) :
    (peerAttestations conf mp m now attSchema guilds).Conforms mon
      (returns fun t' atts => t.Grows t' ∧ ∀ att ∈ atts, t'.Vouches (attested att.attestation))
      t := by
  induction guilds generalizing t with
  | nil => exact ⟨.refl t, fun _ habsurd => absurd habsurd List.not_mem_nil⟩
  | cons guild rest ih =>
      unfold peerAttestations
      refine (attestation_vouches guild _ now attSchema hread.sanctioned).mapError_returns.andThen
        fun t₁ blob hblob => ?_
      obtain ⟨hgrows₁, hvouches⟩ := hblob
      refine (ih (hread.grows hgrows₁)).andThen fun t₂ atts hatts => ?_
      obtain ⟨hgrows₂, hvouched⟩ := hatts
      refine ⟨hgrows₁.trans hgrows₂, fun att hatt => ?_⟩
      rcases List.mem_cons.mp hatt with rfl | hatt
      · exact hgrows₂.vouches hvouches
      · exact hvouched att hatt

theorem attestPeers_vouches (m : Membership) (now attSchema : Nat) (exchange : Exchange)
    (peers : List (PubKey × Peer)) (hread : ∀ row ∈ peers, t.Read row.2.mp) :
    (attestPeers conf req m now attSchema exchange peers).Conforms mon
      (returns fun t' seeds => t.Grows t' ∧
        ∀ entry ∈ seeds, ∀ att ∈ entry.2.attestations, t'.Vouches (attested att.attestation))
      t := by
  induction peers generalizing t with
  | nil => exact ⟨.refl t, fun _ habsurd => absurd habsurd List.not_mem_nil⟩
  | cons row rest ih =>
      unfold attestPeers
      refine (peerAttestations_vouches m now attSchema _ (hread row List.mem_cons_self)).andThen
        fun t₁ atts hatts => ?_
      obtain ⟨hgrows₁, hvouched₁⟩ := hatts
      have hrest : ∀ other ∈ rest, t₁.Read other.2.mp := fun other hother =>
        (hread other (List.mem_cons_of_mem _ hother)).grows hgrows₁
      refine (ih hrest).andThen fun t₂ seeds hseeds => ?_
      obtain ⟨hgrows₂, hvouched₂⟩ := hseeds
      refine ⟨hgrows₁.trans hgrows₂, fun entry hentry att hatt => ?_⟩
      rcases List.mem_cons.mp hentry with rfl | hentry
      · exact hgrows₂.vouches (hvouched₁ att hatt)
      · exact hvouched₂ entry hentry att hatt

theorem buildSeeds_vouches (m : Membership) (grantGuilds : List GuildId) (now attSchema : Nat) :
    (buildSeeds conf req user m grantGuilds now attSchema).Conforms mon
      (returns fun t' built => t.Grows t' ∧ ∀ entry ∈ built.1, ∀ att ∈ entry.2.attestations,
        t'.Vouches (attested att.attestation)) t := by
  unfold buildSeeds
  refine (gatherPeers_gathers m grantGuilds).andThen fun t₁ peers hpeers => ?_
  obtain ⟨hgrows₁, hgathered⟩ := hpeers
  have hreports : (recordPeerReports req peers.keys).Conforms mon (returns fun t' _ => t₁.Grows t')
      t₁ := grows_of_uses (recordPeerReports_uses _) fun _ => plain_grows
  refine hreports.andThen fun t₂ wakeTargets hgrows₂ => ?_
  simp only [conforms_act_bind]
  refine ⟨trivial, fun relays _ => ⟨trivial, fun relayAllocs _ => ⟨trivial, fun ice _ =>
    ⟨trivial, fun reflexive _ => ?_⟩⟩⟩⟩
  have hread : ∀ row ∈ peers.rows, t₂.Read row.2.mp := by
    intro row hrow
    exact (hgathered row.1 row.2 (Table.mem_rows.mp hrow)).grows hgrows₂
  refine (attestPeers_vouches m now attSchema _ peers.rows hread).andThen fun t₃ all hall => ?_
  exact ⟨(hgrows₁.trans hgrows₂).trans hall.1, hall.2⟩

theorem mem_applyDelta {all : List (PubKey × Seed)} {seed : Seed}
    (hmem : seed ∈ (applyDelta req all).1) : ∃ entry ∈ all, entry.2 = seed := by
  unfold applyDelta at hmem
  split at hmem
  · exact List.mem_map.mp hmem
  · obtain ⟨entry, hentry, rfl⟩ := List.mem_map.mp hmem
    exact ⟨entry, (List.mem_filter.mp hentry).1, rfl⟩

theorem answer_vouches (alreadyEnrolled : Bool) (settled : Settled)
    (hintroduced : Introduced req user settled.device settled.m t) :
    (answer conf req user alreadyEnrolled settled).Conforms mon
      (returns fun t' built => t'.pubkey = req.wgPubkey ∧
        ∀ att ∈ allAttested built.resp, t'.Vouches att) t := by
  have hplain : ∀ {ε α : Type} {t : Telling} {program : Prog sig ε α},
      program.Uses (PlainOp req) → program.Conforms mon (returns fun t' _ => t.Grows t') t :=
    fun huses => grows_of_uses huses fun _ => plain_grows
  unfold answer
  refine (buildGrant_vouches _ _ hintroduced).andThen fun t₁ grant hgrant => ?_
  refine (buildSeeds_vouches _ _ _ _).andThen fun t₂ built hbuilt => ?_
  dsimp only
  refine (hplain (deliverToken_uses _)).andThen fun t₃ deviceToken hgrows₃ => ?_
  refine (hplain (bumpAll_uses _)).andThen fun t₄ _ hgrows₄ => ?_
  refine (hplain (wakeAll_uses _)).andThen fun t₅ _ hgrows₅ => ?_
  have hcounted : ∀ scopes, (aggregate conf scopes : Handler Nat).Conforms mon
      (returns fun t' _ => t' = t₅) t₅ := by
    intro scopes
    refine same_of_uses (aggregate_uses conf scopes) fun o ho => ?_
    unfold CounterOp at ho
    split at ho
    · exact ⟨trivial, fun _ => rfl⟩
    · exact ho.elim
  refine (hcounted _).andThen fun t₆ version hsame => ?_
  subst hsame
  refine (hplain (buildAnchors_uses conf _)).andThen fun t₇ anchors hgrows₇ => ?_
  refine (hplain (signRelease_uses conf _)).andThen fun t₈ release hgrows₈ => ?_
  have hlater : t₂.Grows t₈ :=
    (((hgrows₃.trans hgrows₄).trans hgrows₅).trans hgrows₇).trans hgrows₈
  refine ⟨((hgrant.1.trans hbuilt.1).trans hlater).pubkey.trans hintroduced.1, fun att hatt => ?_⟩
  obtain ⟨guildAtt, hmem, rfl⟩ := List.mem_map.mp hatt
  rcases List.mem_append.mp hmem with hown | hseed
  · exact (hbuilt.1.trans hlater).vouches (hgrant.2 guildAtt hown)
  · obtain ⟨seed, hseed, hmem⟩ := List.mem_flatMap.mp hseed
    obtain ⟨entry, hentry, rfl⟩ := mem_applyDelta hseed
    exact hlater.vouches (hbuilt.2 entry hentry guildAtt hmem)

theorem resolveUser_pubkey (hpubkey : t.pubkey = req.wgPubkey) :
    (resolveUser conf req).Conforms mon (returns fun t' _ => t'.pubkey = req.wgPubkey) t := by
  have hkept : (resolveUser conf req).Conforms mon (fun t' _ => t'.pubkey = req.wgPubkey) t := by
    refine (resolveUser_uses conf).keeps (fun t' : Telling => t'.pubkey = req.wgPubkey)
      (fun t' o ho hpubkey => ⟨?_, fun answer _ => (next_pubkey o answer).trans hpubkey⟩) hpubkey
    unfold AdmissionOp at ho
    split at ho
    all_goals first | exact ho.elim | trivial
  refine hkept.mono fun t' result hpubkey' => ?_
  cases result with
  | ok value => exact hpubkey'
  | error error => trivial

theorem buildSnapshot_vouches (callerIp : IpAddr) (hpubkey : t.pubkey = req.wgPubkey) :
    (buildSnapshot conf req callerIp).Conforms mon
      (returns fun t' built => t'.pubkey = req.wgPubkey ∧
        ∀ att ∈ allAttested built.resp, t'.Vouches att) t := by
  unfold buildSnapshot validatePeerReports
  split
  · trivial
  · refine (resolveUser_pubkey hpubkey).andThen fun t₁ caller hpubkey₁ => ?_
    refine (settle_introduces callerIp hpubkey₁).andThen fun t₂ settled hintroduced => ?_
    exact answer_vouches caller.2 settled hintroduced

theorem register_vouches (callerIp : IpAddr) :
    (register conf req callerIp).Conforms mon
      (returns fun t' resp => ∀ att ∈ allAttested resp, t'.Vouches att)
      { pubkey := req.wgPubkey } := by
  have hbuilds : Builds conf req mon (fun t => t.pubkey = req.wgPubkey)
      (fun t built => t.pubkey = req.wgPubkey ∧ ∀ att ∈ allAttested built.resp, t.Vouches att) := by
    have hnext : ∀ (t : Telling) (o : Op) (answer : o.Res), t.pubkey = req.wgPubkey →
        (mon.next t o answer).pubkey = req.wgPubkey :=
      fun t o answer hpubkey => (next_pubkey o answer).trans hpubkey
    constructor
    · intro t pubkey hpubkey
      exact ⟨trivial, fun answer => hnext t (.wakers (.subscribe pubkey)) answer hpubkey⟩
    · intro t ip hpubkey
      exact buildSnapshot_vouches ip hpubkey
    · intro t built hbuilt
      exact ⟨trivial, fun answer => hnext t (.tryAcquire req.wgPubkey) answer hbuilt.1⟩
    · intro t o ho hpubkey
      refine ⟨?_, fun answer _ => hnext t o answer hpubkey⟩
      rcases ho with hpark | rfl
      · unfold ParkOp at hpark
        split at hpark
        all_goals first | exact hpark.elim | trivial
      · trivial
  refine (hbuilds.register callerIp rfl).returns_mono fun t' resp hresp => ?_
  obtain ⟨built, hbuilt, rfl⟩ := hresp
  exact hbuilt.2

end Telling

/-- A register tells of devices; every other call advertises and attests none. -/
def tellings : Monitor sig (Option Telling) :=
  Prog.within SideOp Telling.mon

def tellingOf : Call → Option Telling
  | .register req _ => some { pubkey := req.wgPubkey }
  | _ => none

def toldPost : Call → Option Telling → Except ApiError Reply → Prop
  | .register .., m, .ok (.registered resp) =>
      ∃ t, m = some t ∧ ∀ att ∈ allAttested resp, t.Vouches att
  | _, _, _ => True

theorem handle_tells (conf : Conf) (call : Call) :
    (handle conf call).Conforms tellings (toldPost call) (tellingOf call) := by
  have hside : ∀ call, CallOp call = SideOp → tellingOf call = none →
      (∀ m result, toldPost call m result) →
      (handle conf call).Conforms tellings (toldPost call) (tellingOf call) := by
    intro call hclass hnone hpost
    have huses : (handle conf call).Uses SideOp := hclass ▸ handle_uses conf call
    rw [hnone]
    exact huses.conforms_within.mono fun m result _ => hpost m result
  cases call with
  | register req callerIp =>
      apply conforms_within
      have hregister : (handle conf (.register req callerIp)).Conforms Telling.mon
          (returns fun t' reply => ∃ resp, reply = .registered resp ∧
            ∀ att ∈ allAttested resp, t'.Vouches att) { pubkey := req.wgPubkey } :=
        (Telling.register_vouches callerIp).andThen fun t' resp hresp => ⟨resp, rfl, hresp⟩
      refine hregister.mono fun t' result hresult => ?_
      cases result with
      | ok reply =>
          obtain ⟨resp, rfl, hresp⟩ := hresult
          exact ⟨t', rfl, hresp⟩
      | error error => trivial
  | _ => exact hside _ rfl rfl fun _ _ => trivial

end UnityLan.Coordinator
