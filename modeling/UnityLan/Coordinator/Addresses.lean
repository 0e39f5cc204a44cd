import UnityLan.Coordinator.Gates
import UnityLan.Coordinator.Allocation
import UnityLan.Coordinator.Usernames

namespace UnityLan.Coordinator

open UnityLan.Foundation Prog

/-! Which device an address is told to be of: by the store, by the rows, and by the requests
that have read either. -/

abbrev Seat := PubKey × Ipv4Addr

def MemberPresence.seat (p : MemberPresence) : Seat :=
  (p.pubkey, p.ip)

def AttIdentity.seat (id : AttIdentity) : Seat :=
  (id.pubkey, id.ip)

def attestationSeat (att : Attestation) : Seat :=
  (att.wgPubkey, att.wgIp)

/-- What a build has been told of addresses. -/
abbrev Seats := List Seat

variable (conf : Conf)

def rowSeats (pubkey : PubKey) (row : DeviceRow) : Seats :=
  if indexIsValid conf.wgNet row.idx then [(pubkey, addrFromIndex conf.wgNet row.idx)] else []

namespace Seats

def told : (o : Op) → o.Res → Seats
  | .store (.device pubkey), .ok (some row) => rowSeats conf pubkey row
  | .store (.insertDevice pubkey row), .ok _ => rowSeats conf pubkey row
  | .presence (.othersIn ..), rows => rows.map MemberPresence.seat
  | .presence (.othersOfUser ..), rows => rows.map MemberPresence.seat
  | _, _ => []

def next (s : Seats) : (o : Op) → o.Res → Seats
  | .nat (.putSourceIp ..), _ => []
  | .tryAcquire _, _ => []
  | o, answer => told conf o answer ++ s

def Holds (s : Seats) (seat : Seat) : Prop :=
  seat.2 = 0 ∨ seat ∈ s

def allows (s : Seats) : Op → Prop
  | .presence o => ∀ p ∈ o.written, s.Holds p.seat
  | .signing (.keep _ id _ _ blob) => attestationSeat (attested blob) = id.seat
  | _ => True

def expects (_ : Seats) : (o : Op) → o.Res → Prop
  | .signing (.fresh _ id _ _), some blob => attestationSeat (attested blob) = id.seat
  | _, _ => True

def mon : Monitor sig Seats where
  allows := allows
  expects := expects
  next := next conf

variable {conf} {s s' : Seats} {ε α : Type} {req : RegisterReq} {user : UserId}
  {device : Device} {seat : Seat}

theorem Holds.grows (hholds : s.Holds seat) (hgrows : s ⊆ s') : s'.Holds seat :=
  hholds.imp_right fun hmem => hgrows hmem

theorem next_of_not_resets {o : Op} (ho : ¬ Telling.Resets o) (answer : o.Res) :
    next conf s o answer = told conf o answer ++ s := by
  unfold next
  split
  · exact absurd trivial ho
  · exact absurd trivial ho
  · rfl

theorem next_grows {o : Op} (ho : ¬ Telling.Resets o) (answer : o.Res) :
    s ⊆ next conf s o answer := by
  rw [next_of_not_resets ho]
  exact List.subset_append_right _ _

def Announces (seat : Seat) (o : Op) : Prop :=
  ¬ Telling.Resets o ∧ ∀ s : Seats, s.Holds seat → s.allows o

def Still (o : Op) : Prop :=
  ¬ Telling.Resets o ∧ ∀ s : Seats, s.allows o

theorem Still.announces {o : Op} (hstill : Still o) : Announces seat o :=
  ⟨hstill.1, fun s _ => hstill.2 s⟩

theorem announces_grows {inside : Op → Prop} {program : Prog sig ε α}
    (hprogram : program.Uses inside) (hinside : ∀ o, inside o → Announces seat o)
    (hholds : s.Holds seat) :
    program.Conforms (mon conf) (returns fun s' _ => s ⊆ s') s := by
  have hkept : program.Conforms (mon conf) (fun s' _ => s ⊆ s') s := by
    refine hprogram.keeps (fun s' => s ⊆ s') (fun s' o ho hgrows => ?_) (List.Subset.refl s)
    obtain ⟨hresets, hallowed⟩ := hinside o ho
    exact ⟨hallowed s' (hholds.grows hgrows), fun answer _ =>
      List.Subset.trans hgrows (next_grows hresets answer)⟩
  refine hkept.mono fun s' result hgrows => ?_
  cases result with
  | ok value => exact hgrows
  | error error => trivial

theorem still_grows {inside : Op → Prop} {program : Prog sig ε α}
    (hprogram : program.Uses inside) (hinside : ∀ o, inside o → Still o) :
    program.Conforms (mon conf) (returns fun s' _ => s ⊆ s') s := by
  have hzero : s.Holds ((0 : PubKey), 0) := .inl rfl
  exact announces_grows hprogram (fun o ho => (hinside o ho).announces) hzero

/-! The operations that tell of no address. -/

theorem plain_still : ∀ o, PlainOp req o → Still o := by
  intro o ho
  cases o with
  | presence p => exact ho.elim
  | signing o =>
      cases o with
      | fresh => exact ho.elim
      | keep => exact ho.elim
      | _ => exact ⟨id, fun _ => trivial⟩
  | nat n =>
      cases n with
      | putSourceIp => exact ho.elim
      | _ => exact ⟨id, fun _ => trivial⟩
  | tryAcquire => exact ho.elim
  | _ => exact ⟨id, fun _ => trivial⟩

theorem member_still {guild : GuildId} : ∀ o, MemberOp guild user o → Still o := by
  intro o ho
  unfold MemberOp at ho
  split at ho
  all_goals first | exact ho.elim | exact ⟨id, fun _ => trivial⟩

theorem label_still : ∀ o, LabelOp o → Still o := by
  intro o ho
  unfold LabelOp at ho
  split at ho
  all_goals first | exact ho.elim | exact ⟨id, fun _ => trivial⟩

theorem name_still : ∀ o, NameOp o → Still o :=
  fun o ho => label_still o (name_label o ho)

theorem touch_still {personal : Bool} : ∀ o, TouchOp req personal o → Still o := by
  intro o ho
  unfold TouchOp at ho
  split at ho
  all_goals first | exact ho.elim | exact ⟨id, fun _ => trivial⟩

theorem admission_still : ∀ o, AdmissionOp req o → Still o := by
  intro o ho
  unfold AdmissionOp at ho
  split at ho
  all_goals first | exact ho.elim | exact ⟨id, fun _ => trivial⟩

theorem evict_still {pubkey : PubKey} : ∀ o, EvictOp pubkey o → Still o := by
  intro o ho
  unfold EvictOp at ho
  split at ho
  · exact ⟨id, fun _ _ habsurd => by cases habsurd⟩
  · exact ho.elim

theorem counter_still : ∀ o, CounterOp o → Still o := by
  intro o ho
  unfold CounterOp at ho
  split at ho
  · exact ⟨id, fun _ => trivial⟩
  · exact ho.elim

theorem store_still {inside : Query → Prop} : ∀ o, StoreOp inside o → Still o := by
  intro o ho
  unfold StoreOp at ho
  split at ho
  · exact ⟨id, fun _ => trivial⟩
  · exact ho.elim

theorem park_still : ∀ o, ParkOp o ∨ o = .sleep → Still o := by
  rintro o (ho | rfl)
  · unfold ParkOp at ho
    split at ho
    all_goals first | exact ho.elim | exact ⟨id, fun _ => trivial⟩
  · exact ⟨id, fun _ => trivial⟩

/-! The address of the device. -/

theorem sql_still (q : Query) : (sql q).Uses Still :=
  (uses_sql q).mpr ⟨id, fun _ => trivial⟩

theorem holdsAnyNetworkRole_still (networks : List Network) (cache : MemberCache) :
    (holdsAnyNetworkRole user networks cache).Uses Still := by
  induction networks generalizing cache with
  | nil => trivial
  | cons net rest ih =>
      unfold holdsAnyNetworkRole
      refine ((lookupMember_uses _ _ _).mono member_still).bind fun looked => ?_
      dsimp only
      split
      · trivial
      · exact ih _

theorem uniqueDeviceName_still (desired : String) (exclude : Option PubKey) :
    (Store.uniqueDeviceName user desired exclude).Uses Still := by
  unfold Store.uniqueDeviceName
  rw [uses_sql_bind]
  refine ⟨⟨id, fun _ => trivial⟩, fun devices => ?_⟩
  dsimp only
  split
  · trivial
  · split <;> trivial

theorem allocateDevice_tells (pubkey : PubKey) (name : String) :
    (Store.allocateDevice conf pubkey user name).Conforms (mon conf)
      (returns fun s' given => s ⊆ s' ∧ (pubkey, given.1) ∈ s') s := by
  have hrow : ∀ {s : Seats} {row : DeviceRow}, indexIsValid conf.wgNet row.idx = true →
      s ⊆ rowSeats conf pubkey row ++ s ∧
        (pubkey, addrFromIndex conf.wgNet row.idx) ∈ rowSeats conf pubkey row ++ s := by
    intro s row hvalid
    rw [rowSeats, if_pos hvalid]
    exact ⟨List.subset_append_right _ _, List.mem_append_left _ (List.mem_singleton_self _)⟩
  rw [Store.allocateDevice, conforms_sql_bind]
  refine ⟨trivial, fun found _ => ?_⟩
  rcases found with error | _ | row
  · trivial
  · refine (conforms_sql_bind ..).mpr ⟨trivial, fun owned _ => ?_⟩
    cases owned with
    | error error => trivial
    | ok owned =>
        dsimp only [after]
        split
        · trivial
        · refine (conforms_sql_bind ..).mpr ⟨trivial, fun taken _ => ?_⟩
          cases taken with
          | error error => trivial
          | ok taken =>
              dsimp only [after]
              split
              · trivial
              · rename_i idx hidx
                have hvalid := (pickFreeIndex_spec hidx).2
                refine (still_grows (uniqueDeviceName_still _ _) fun _ => id).andThen
                  fun s₁ chosen hgrows₁ => ?_
                refine (conforms_act_bind ..).mpr ⟨trivial, fun token _ => ?_⟩
                refine (conforms_sql_bind ..).mpr ⟨trivial, fun inserted _ => ?_⟩
                cases inserted with
                | error error => trivial
                | ok _ =>
                    obtain ⟨hgrows₂, hmem⟩ := @hrow s₁
                      { idx := idx, userId := user, deviceName := chosen, token := some token }
                      hvalid
                    exact ⟨List.Subset.trans hgrows₁ hgrows₂, hmem⟩
  · dsimp only [after]
    split
    · rename_i hvalid
      exact hrow hvalid
    · trivial

abbrev Seated (req : RegisterReq) (device : Device) (s : Seats) : Prop :=
  s.Holds (req.wgPubkey, device.ip)

theorem resolveDevice_seats (networks : List Network) (cache : MemberCache) :
    (resolveDevice conf req user networks cache).Conforms (mon conf)
      (returns fun s' resolved => Seated req resolved.1 s') s := by
  unfold resolveDevice
  refine (still_grows (holdsAnyNetworkRole_still networks cache) fun _ => id).andThen
    fun s₁ held _ => ?_
  dsimp only
  split
  · exact .inl rfl
  · refine (allocateDevice_tells _ _).mapError_returns.andThen fun s₂ given hgiven => ?_
    refine (still_grows ((sql_still _).mapError _) fun _ => id).andThen fun s₃ _ hgrows₃ => ?_
    refine (still_grows ((sql_still _).mapError _) fun _ => id).andThen fun s₄ primary hgrows₄ => ?_
    exact .inr (hgrows₄ (hgrows₃ hgiven.2))

theorem retireSuperseded_still (changed : List Scope) :
    (retireSuperseded req user changed).Uses Still := by
  unfold retireSuperseded
  split
  · trivial
  · refine ((sql_still _).mapError _).bind fun found => ?_
    cases found with
    | none => trivial
    | some old =>
        dsimp only
        split
        · refine Uses.bind (((removeDevice_uses _ _).mono store_still).mapError _) fun _ => ?_
          simp only [uses_act_bind]
          refine ⟨⟨id, fun _ _ habsurd => by cases habsurd⟩, fun networks => ?_⟩
          refine Uses.bind ((evictFrom_uses _ _ _).mono evict_still) fun changed => ?_
          simp only [uses_act_bind]
          exact ⟨⟨id, fun _ _ habsurd => by cases habsurd⟩, fun removed => trivial⟩
        · trivial

theorem announces_record {presence : Presence.Op} {p : MemberPresence}
    (hwritten : presence.written = some p) (hseat : p.seat = seat) :
    Announces seat (.presence presence) := by
  refine ⟨id, fun s hholds other hother => ?_⟩
  obtain rfl : p = other := Option.some.inj (hwritten.symm.trans hother)
  rw [hseat]
  exact hholds

theorem recordPresence_announces (now : Nat) (net : Network) (walk : Walk) :
    (recordPresence req user device now net walk).Uses (Announces (req.wgPubkey, device.ip)) := by
  unfold recordPresence
  split
  · trivial
  · rw [uses_act_bind]
    refine ⟨announces_record rfl rfl, fun recorded => ?_⟩
    cases recorded <;> trivial

theorem walkNetwork_announces (now : Nat) (net : Network) (walk : Walk) :
    (walkNetwork req user device now walk net).Uses (Announces (req.wgPubkey, device.ip)) := by
  have hstill : ∀ o, Still o → Announces (req.wgPubkey, device.ip) o := fun _ => Still.announces
  unfold walkNetwork
  refine Uses.bind ((lookupMember_uses _ _ _).mono fun o ho => hstill o (member_still o ho))
    fun looked => ?_
  obtain ⟨member, cache⟩ := looked
  cases member with
  | none => trivial
  | some roles =>
      dsimp only
      split
      · unfold walkHeld
        refine Uses.bind ((walkCommunity_uses _ _).mono fun o ho => hstill o (name_still o ho))
          fun labelled => ?_
        refine Uses.bind ((roleName_uses _ _).mono fun o ho => hstill o (name_still o ho))
          fun name => ?_
        refine Uses.bind ((walkUsername_uses _ _ _).mono fun o ho => hstill o (label_still o ho))
          fun username => ?_
        dsimp only
        split
        · exact (recordPresence_announces now net _).bind fun _ => trivial
        · trivial
      · trivial

theorem resolveMembership_announces (networks : List Network) (cache : MemberCache) (now : Nat)
    (changed : List Scope) :
    (resolveMembership req user networks device cache now changed).Uses
      (Announces (req.wgPubkey, device.ip)) := by
  have hstill : ∀ o, Still o → Announces (req.wgPubkey, device.ip) o := fun _ => Still.announces
  unfold resolveMembership
  refine (Uses.foldlM networks (fun walk net => walkNetwork_announces now net walk) _).bind
    fun walk => ?_
  rw [uses_act_bind]
  refine ⟨hstill _ ⟨id, fun _ => nofun⟩, fun recorded => ?_⟩
  refine Uses.bind ((evictFrom_uses _ _ _).mono fun o ho => hstill o (evict_still o ho))
    fun changed => ?_
  dsimp only
  split
  · refine Uses.bind (((sql_still _).mono hstill).mapError _) fun handle => ?_
    cases handle with
    | none => trivial
    | some handle =>
        exact Uses.bind ((userLabel_uses _ _).mono fun o ho => hstill o (label_still o ho))
          fun _ => trivial
  · trivial

theorem recordOwnDevice_announces (m : Membership) (now : Nat) (changed : List Scope) :
    (recordOwnDevice req user device m now changed).Uses
      (Announces (req.wgPubkey, device.ip)) := by
  unfold recordOwnDevice announceSelf
  refine Uses.bind ?_ fun _ => trivial
  split
  · exact (uses_act _).mpr (announces_record rfl rfl)
  · exact (uses_act _).mpr ⟨id, fun _ _ => nofun⟩

theorem settle_seats (callerIp : IpAddr) :
    (settle conf req callerIp user).Conforms (mon conf)
      (returns fun s' settled => Seated req settled.device s') s := by
  unfold settle
  refine (conforms_act_bind ..).mpr ⟨trivial, fun _ _ => ?_⟩
  refine (conforms_act_bind ..).mpr ⟨trivial, fun now _ => ?_⟩
  refine (still_grows ((sql_still _).mapError _) fun _ => id).andThen fun s₁ allNetworks _ => ?_
  refine (conforms_act_bind ..).mpr ⟨trivial, fun memo _ => ?_⟩
  refine (resolveDevice_seats _ _).andThen fun s₂ resolved hseated => ?_
  refine (still_grows (retireSuperseded_still _) fun _ => id).andThen fun s₃ changed hgrows₃ => ?_
  have hseated₃ := hseated.grows hgrows₃
  refine (announces_grows (resolveMembership_announces _ _ _ _) (fun _ => id) hseated₃).andThen
    fun s₄ member hgrows₄ => ?_
  have hseated₄ := hseated₃.grows hgrows₄
  have hremember : (rememberRoleless user (!memo) member.1).Uses Still := by
    unfold rememberRoleless
    split
    · exact (uses_act _).mpr ⟨id, fun _ => trivial⟩
    · trivial
  refine (still_grows hremember fun _ => id).andThen fun s₅ _ hgrows₅ => ?_
  have htouch : (touchIdentity req member.1).Uses Still := by
    unfold touchIdentity
    split
    · exact ((touchDevice_uses _).mono touch_still).mapError _
    · trivial
  refine (still_grows htouch fun _ => id).andThen fun s₆ _ hgrows₆ => ?_
  have hseated₆ := (hseated₄.grows hgrows₅).grows hgrows₆
  refine (announces_grows (recordOwnDevice_announces _ _ _) (fun _ => id) hseated₆).andThen
    fun s₇ changed hgrows₇ => ?_
  exact hseated₆.grows hgrows₇

/-! Signing. -/

def seatOf (att : GuildAttestation) : Seat :=
  attestationSeat (attested att.attestation)

theorem guildKey_grows (guild : GuildId) :
    (GuildKeys.get conf guild).Conforms (mon conf) (returns fun s' _ => s ⊆ s') s :=
  still_grows (@guildKeys_get_uses conf { wgPubkey := 0 } guild) plain_still

theorem signWith_seat (signer : Signer) (id : AttIdentity) (schema : Nat) :
    (signWith signer id schema).Conforms (mon conf)
      (returns fun s' blob => s ⊆ s' ∧ attestationSeat (attested blob) = id.seat) s := by
  refine (conforms_act_bind ..).mpr ⟨trivial, fun now _ => ?_⟩
  split
  · rename_i blob hsigned
    unfold signAttestation at hsigned
    split at hsigned
    · cases hsigned
      exact ⟨List.Subset.refl _, rfl⟩
    · cases hsigned
  · trivial

theorem grantAttestations_seat (id : AttIdentity) (m : Membership) (attSchema : Nat)
    (guilds : List GuildId) :
    (grantAttestations conf id m attSchema guilds).Conforms (mon conf)
      (returns fun s' atts => s ⊆ s' ∧ ∀ att ∈ atts, seatOf att = id.seat) s := by
  induction guilds generalizing s with
  | nil => exact ⟨List.Subset.refl _, fun _ habsurd => absurd habsurd List.not_mem_nil⟩
  | cons guild rest ih =>
      unfold grantAttestations
      refine (guildKey_grows guild).mapError_returns.andThen fun s₁ key hgrows₁ => ?_
      refine (signWith_seat _ _ _).mapError_returns.andThen fun s₂ blob hblob => ?_
      refine ih.andThen fun s₃ atts hatts => ?_
      refine ⟨List.Subset.trans hgrows₁ (List.Subset.trans hblob.1 hatts.1), fun att hatt => ?_⟩
      rcases List.mem_cons.mp hatt with rfl | hatt
      · exact hblob.2
      · exact hatts.2 att hatt

theorem buildGrant_seat (m : Membership) (attSchema : Nat) :
    (buildGrant conf req user device m attSchema).Conforms (mon conf)
      (returns fun s' grant => s ⊆ s' ∧
        ∀ att ∈ grant.elim [] Grant.attestations, seatOf att = (req.wgPubkey, device.ip)) s := by
  unfold buildGrant
  split
  · exact (grantAttestations_seat _ _ _ _).andThen fun s' atts hatts => hatts
  · exact ⟨List.Subset.refl _, nofun⟩

theorem attestation_seat (guild : GuildId) (id : AttIdentity) (now schema : Nat) :
    (SignCache.attestation conf guild id now schema).Conforms (mon conf)
      (returns fun s' blob => s ⊆ s' ∧ attestationSeat (attested blob) = id.seat) s := by
  refine (conforms_act_bind ..).mpr ⟨trivial, fun hit hexpected => ?_⟩
  cases hit with
  | some blob => exact ⟨List.Subset.refl _, hexpected⟩
  | none =>
      refine withLock_conforms (fun _ _ => ⟨trivial, fun _ => rfl⟩) ?_
      refine (conforms_act_bind ..).mpr ⟨trivial, fun again hexpected => ?_⟩
      cases again with
      | some blob => exact ⟨List.Subset.refl _, hexpected⟩
      | none =>
          refine (guildKey_grows guild).andThen fun s₁ key hgrows₁ => ?_
          refine (signWith_seat _ _ _).andThen fun s₂ blob hblob => ?_
          exact (conforms_act_bind ..).mpr
            ⟨hblob.2, fun _ _ => ⟨List.Subset.trans hgrows₁ hblob.1, hblob.2⟩⟩

/-! The peers of the caller. -/

abbrev Gathered (s : Seats) (peers : Peers) : Prop :=
  peers.From fun mp => mp.seat ∈ s

theorem gatherShared_seats (m : Membership) (held : List ((GuildId × RoleId) × String))
    {peers : Peers} (hgathered : s.Gathered peers) :
    (gatherShared req m held peers).Conforms (mon conf)
      (returns fun s' peers' => s ⊆ s' ∧ s'.Gathered peers') s := by
  induction held generalizing s peers with
  | nil => exact ⟨List.Subset.refl _, hgathered⟩
  | cons network rest ih =>
      refine (conforms_act_bind ..).mpr ⟨nofun, fun others _ => ?_⟩
      refine (ih ?_).returns_mono fun s' peers' hpeers' =>
        ⟨List.Subset.trans (List.subset_append_right _ _) hpeers'.1, hpeers'.2⟩
      apply foldl_from
      · exact fun peers mp => addShared_from _
      · exact fun pubkey peer hpeer => List.mem_append_right _ (hgathered pubkey peer hpeer)
      · exact fun mp hmem => List.mem_append_left _ (List.mem_map_of_mem hmem)

theorem gatherPeers_seats (m : Membership) (grantGuilds : List GuildId) :
    (gatherPeers req user m grantGuilds).Conforms (mon conf)
      (returns fun s' peers => s ⊆ s' ∧ s'.Gathered peers) s := by
  unfold gatherPeers
  have hempty : s.Gathered ∅ := fun _ _ hpeer => nomatch hpeer
  refine (gatherShared_seats m _ hempty).andThen fun s₁ peers hpeers => ?_
  obtain ⟨hgrows₁, hgathered⟩ := hpeers
  split
  · refine (conforms_act_bind ..).mpr ⟨nofun, fun siblings _ => ?_⟩
    refine ⟨List.Subset.trans hgrows₁ (List.subset_append_right _ _), ?_⟩
    apply foldl_from
    · exact fun peers mp => addSibling_from _
    · exact fun pubkey peer hpeer => List.mem_append_right _ (hgathered pubkey peer hpeer)
    · exact fun mp hmem => List.mem_append_left _ (List.mem_map_of_mem hmem)
  · exact ⟨hgrows₁, hgathered⟩

theorem peerAttestations_seat (mp : MemberPresence) (m : Membership) (now attSchema : Nat)
    (guilds : List GuildId) :
    (peerAttestations conf mp m now attSchema guilds).Conforms (mon conf)
      (returns fun s' atts => s ⊆ s' ∧ ∀ att ∈ atts, seatOf att = mp.seat) s := by
  induction guilds generalizing s with
  | nil => exact ⟨List.Subset.refl _, fun _ habsurd => absurd habsurd List.not_mem_nil⟩
  | cons guild rest ih =>
      unfold peerAttestations
      refine (attestation_seat guild _ now attSchema).mapError_returns.andThen
        fun s₁ blob hblob => ?_
      refine ih.andThen fun s₂ atts hatts => ?_
      refine ⟨List.Subset.trans hblob.1 hatts.1, fun att hatt => ?_⟩
      rcases List.mem_cons.mp hatt with rfl | hatt
      · exact hblob.2
      · exact hatts.2 att hatt

theorem attestPeers_seats (m : Membership) (now attSchema : Nat) (exchange : Exchange)
    (peers : List (PubKey × Peer)) (hread : ∀ row ∈ peers, row.2.mp.seat ∈ s) :
    (attestPeers conf req m now attSchema exchange peers).Conforms (mon conf)
      (returns fun s' seeds => s ⊆ s' ∧
        ∀ entry ∈ seeds, ∀ att ∈ entry.2.attestations, seatOf att ∈ s') s := by
  induction peers generalizing s with
  | nil => exact ⟨List.Subset.refl _, fun _ habsurd => absurd habsurd List.not_mem_nil⟩
  | cons row rest ih =>
      unfold attestPeers
      refine (peerAttestations_seat _ m now attSchema _).andThen fun s₁ atts hatts => ?_
      have hrest : ∀ other ∈ rest, other.2.mp.seat ∈ s₁ := fun other hother =>
        hatts.1 (hread other (List.mem_cons_of_mem _ hother))
      refine (ih hrest).andThen fun s₂ seeds hseeds => ?_
      refine ⟨List.Subset.trans hatts.1 hseeds.1, fun entry hentry att hatt => ?_⟩
      rcases List.mem_cons.mp hentry with rfl | hentry
      · rw [hatts.2 att hatt]
        exact hseeds.1 (hatts.1 (hread row List.mem_cons_self))
      · exact hseeds.2 entry hentry att hatt

theorem buildSeeds_seats (m : Membership) (grantGuilds : List GuildId) (now attSchema : Nat) :
    (buildSeeds conf req user m grantGuilds now attSchema).Conforms (mon conf)
      (returns fun s' built => s ⊆ s' ∧
        ∀ entry ∈ built.1, ∀ att ∈ entry.2.attestations, seatOf att ∈ s') s := by
  unfold buildSeeds
  refine (gatherPeers_seats m grantGuilds).andThen fun s₁ peers hpeers => ?_
  obtain ⟨hgrows₁, hgathered⟩ := hpeers
  refine (still_grows (recordPeerReports_uses _) plain_still).andThen
    fun s₂ wakeTargets hgrows₂ => ?_
  simp only [conforms_act_bind]
  refine ⟨trivial, fun relays _ => ⟨trivial, fun relayAllocs _ => ⟨trivial, fun ice _ =>
    ⟨trivial, fun reflexive _ => ?_⟩⟩⟩⟩
  have hread : ∀ row ∈ peers.rows, row.2.mp.seat ∈ s₂ := by
    intro row hrow
    exact hgrows₂ (hgathered row.1 row.2 (Table.mem_rows.mp hrow))
  refine (attestPeers_seats m now attSchema _ peers.rows hread).andThen fun s₃ all hall => ?_
  exact ⟨List.Subset.trans hgrows₁ (List.Subset.trans hgrows₂ hall.1), hall.2⟩

structure Answers (s : Seats) (resp : RegisterResp) : Prop where
  own : ∀ att ∈ resp.grant.elim [] Grant.attestations, s.Holds (seatOf att)
  seeds : ∀ seed ∈ resp.seeds, ∀ att ∈ seed.attestations, seatOf att ∈ s

theorem answer_seats (alreadyEnrolled : Bool) (settled : Settled)
    (hseated : Seated req settled.device s) :
    (answer conf req user alreadyEnrolled settled).Conforms (mon conf)
      (returns fun s' built => Answers s' built.resp) s := by
  unfold answer
  refine (buildGrant_seat _ _).andThen fun s₁ grant hgrant => ?_
  refine (buildSeeds_seats _ _ _ _).andThen fun s₂ built hbuilt => ?_
  dsimp only
  refine (still_grows (deliverToken_uses _) plain_still).andThen fun s₃ deviceToken hgrows₃ => ?_
  refine (still_grows (bumpAll_uses _) (@plain_still req)).andThen fun s₄ _ hgrows₄ => ?_
  refine (still_grows (wakeAll_uses _) (@plain_still req)).andThen fun s₅ _ hgrows₅ => ?_
  refine (still_grows (aggregate_uses conf _) counter_still).andThen fun s₆ version hgrows₆ => ?_
  refine (still_grows (buildAnchors_uses conf _) (@plain_still req)).andThen
    fun s₇ anchors hgrows₇ => ?_
  refine (still_grows (signRelease_uses conf _) (@plain_still req)).andThen
    fun s₈ release hgrows₈ => ?_
  have hcounted : s₂ ⊆ s₆ := fun _ hmem => hgrows₆ (hgrows₅ (hgrows₄ (hgrows₃ hmem)))
  have hlater : s₂ ⊆ s₈ := fun _ hmem => hgrows₈ (hgrows₇ (hcounted hmem))
  constructor
  · intro att hatt
    rw [hgrant.2 att hatt]
    exact hseated.grows (List.Subset.trans hgrant.1 (List.Subset.trans hbuilt.1 hlater))
  · intro seed hseed att hatt
    obtain ⟨entry, hentry, rfl⟩ := Telling.mem_applyDelta hseed
    exact hlater (hbuilt.2 entry hentry att hatt)

theorem buildSnapshot_seats (callerIp : IpAddr) :
    (buildSnapshot conf req callerIp).Conforms (mon conf)
      (returns fun s' built => Answers s' built.resp) s := by
  unfold buildSnapshot validatePeerReports
  split
  · trivial
  · refine (still_grows (resolveUser_uses conf) admission_still).andThen fun s₁ caller _ => ?_
    refine (settle_seats callerIp).andThen fun s₂ settled hseated => ?_
    exact answer_seats caller.2 settled hseated

theorem builds_seats : Builds conf req (mon conf) (fun _ => True)
    (fun s built => Answers s built.resp) where
  subscribe := fun _ _ _ => ⟨trivial, fun _ => trivial⟩
  build := fun _ callerIp _ => buildSnapshot_seats callerIp
  acquire := fun _ _ _ => ⟨trivial, fun _ => trivial⟩
  wait := fun s o ho _ => ⟨(park_still o ho).2 s, fun _ _ => trivial⟩

end Seats

/-- A register tells of addresses; every other call tells of none. -/
def seatings : Monitor sig (Option Seats) :=
  Prog.within SideOp (Seats.mon conf)

def seatsOf : Call → Option Seats
  | .register .. => some []
  | _ => none

def seatedPost : Call → Option Seats → Except ApiError Reply → Prop
  | .register .., m, .ok (.registered resp) => ∃ s, m = some s ∧ s.Answers resp
  | _, _, _ => True

theorem handle_seats (call : Call) :
    (handle conf call).Conforms (seatings conf) (seatedPost call) (seatsOf call) := by
  have hside : ∀ call, CallOp call = SideOp → seatsOf call = none →
      (∀ m result, seatedPost call m result) →
      (handle conf call).Conforms (seatings conf) (seatedPost call) (seatsOf call) := by
    intro call hclass hnone hpost
    have huses : (handle conf call).Uses SideOp := hclass ▸ handle_uses conf call
    rw [hnone]
    exact huses.conforms_within.mono fun m result _ => hpost m result
  cases call with
  | register req callerIp =>
      apply conforms_within
      have hbuilds : Builds conf req (Seats.mon conf) (fun _ => True)
          (fun s built => s.Answers built.resp) := Seats.builds_seats
      have hregister : (handle conf (.register req callerIp)).Conforms (Seats.mon conf)
          (returns fun s reply => ∃ resp, reply = .registered resp ∧ s.Answers resp) [] := by
        refine (hbuilds.register callerIp trivial).andThen fun s resp hresp => ?_
        obtain ⟨built, hbuilt, rfl⟩ := hresp
        exact ⟨built.resp, rfl, hbuilt⟩
      refine hregister.mono fun s result hresult => ?_
      cases result with
      | ok reply =>
          obtain ⟨resp, rfl, hresp⟩ := hresult
          exact ⟨s, rfl, hresp⟩
      | error error => trivial
  | _ => exact hside _ rfl rfl fun _ _ => trivial

/-! The run. -/

structure Seatings where
  /-- What each running register was told. -/
  carried : Table Nat Seats := ∅
  /-- The attestations of every response. -/
  responses : List (List Attestation) := []

namespace Seatings

def begin (h : Seatings) (task : Nat) : Seatings :=
  { h with carried := h.carried.insert task [] }

def learns (h : Seatings) (task : Nat) (o : Op) (answer : o.Res) : Seatings :=
  { h with carried := h.carried.modify task fun s => s.next conf o answer }

def answers (h : Seatings) : Call → Except ApiError Reply → Seatings
  | .register .., .ok (.registered resp) =>
      { h with responses := allAttested resp :: h.responses }
  | _, _ => h

def gone (h : Seatings) (task : Nat) : Seatings :=
  { h with carried := h.carried.erase task }

end Seatings

def addresses : Machine.Observer (machine conf) Seatings where
  see := fun h _ event _ =>
    match event with
    | .called task (.register ..) => h.begin task
    | .called .. => h
    | .did task o answer => h.learns conf task o answer
    | .ended task call result => (h.answers call result).gone task
    | .dropped task _ => h.gone task
    | .moved _ => h

def clashes (seat other : Seat) : Bool :=
  other.2 == seat.2 && other.1 != seat.1

/-- A new device gets an address that no row and no running register has for another. -/
def unoccupied (h : Seatings) (st : AppState) : (machine conf).Event → Bool
  | .did _ (.store (.insertDevice pubkey row)) (.ok _) =>
      ((st.presence.map.values ++ st.presence.selfMap.values).map (·.p.seat) ++
        h.carried.values.flatten).all fun other =>
          !clashes (pubkey, addrFromIndex conf.wgNet row.idx) other
  | _ => true

inductive Carries (h : Seatings) (st : AppState) : Seat → Prop
  | stored {pubkey : PubKey} {row : DeviceRow} (hrow : st.db.devices.get? pubkey = some row)
      (hvalid : indexIsValid conf.wgNet row.idx = true) :
      Carries h st (pubkey, addrFromIndex conf.wgNet row.idx)
  | present {place : Place} {pubkey : PubKey} {p : MemberPresence}
      (hrow : st.presence.rowAt place pubkey = some p) : Carries h st p.seat
  | told {task : Nat} {s : Seats} {seat : Seat} (htask : h.carried.get? task = some s)
      (hmem : seat ∈ s) : Carries h st seat

abbrev SeatViews := Nat → Option (Call × Option Gate × Option Seats)

def SeatViews.seats (views : SeatViews) : Nat → Option (Call × Option Seats) :=
  fun task => (views task).map fun view => (view.1, view.2.2)

structure SeatingsInv (h : Seatings) (st : AppState) (views : SeatViews) : Prop where
  carried : Machine.Mirrors h.carried views.seats
  gated : ∀ task call m s, views task = some (call, m, some s) →
    ∃ gate, m = some gate ∧ ∀ row ∈ gate.rows, row.1 ≠ 0
  apart : ∀ seat other, Carries conf h st seat → Carries conf h st other → seat.2 = other.2 →
    seat.1 = other.1
  cached : ∀ key e, st.signing.map.get? key = some e →
    attestationSeat (attested e.blob) = (key.2.1, e.ip)
  answered : ∀ atts ∈ h.responses, ∀ att ∈ atts, ∀ other ∈ atts, att.wgIp = other.wgIp →
    att.wgPubkey = other.wgPubkey

section

variable {conf} {h : Seatings} {st st' : AppState} {views : SeatViews} {task : Nat} {call : Call}
  {choice : Choice} {m : Option Gate} {μ : Option Seats} {o : Op} {answer : o.Res} {seat : Seat}

theorem seats_update {view : Option (Call × Option Gate × Option Seats)} :
    SeatViews.seats (Function.update views task view) =
      Function.update views.seats task (view.map fun view => (view.1, view.2.2)) := by
  funext other
  unfold SeatViews.seats
  by_cases hsame : other = task
  · subst hsame
    rw [Function.update_self, Function.update_self]
  · rw [Function.update_of_ne hsame, Function.update_of_ne hsame]

theorem SeatingsInv.follows (hinv : SeatingsInv conf h st views)
    (hview : views task = some (call, m, μ)) : h.carried.get? task = μ := by
  have hseats : views.seats task = some (call, μ) := by
    rw [SeatViews.seats, hview]
    rfl
  exact hinv.carried.followed hseats

def insertedSeat (conf : Conf) : (o : Op) → o.Res → Seats
  | .store (.insertDevice pubkey row), .ok _ => rowSeats conf pubkey row
  | _, _ => []

theorem mem_rowSeats {pubkey : PubKey} {row : DeviceRow} (hmem : seat ∈ rowSeats conf pubkey row) :
    indexIsValid conf.wgNet row.idx = true ∧
      seat = (pubkey, addrFromIndex conf.wgNet row.idx) := by
  unfold rowSeats at hmem
  split at hmem
  · rename_i hvalid
    exact ⟨hvalid, List.mem_singleton.mp hmem⟩
  · cases hmem

theorem stored_source (hexec : AppState.exec conf task o choice st = some (answer, st'))
    {pubkey : PubKey} {row : DeviceRow} (hrow : st'.db.devices.get? pubkey = some row)
    (hvalid : indexIsValid conf.wgNet row.idx = true) :
    Carries conf h st (pubkey, addrFromIndex conf.wgNet row.idx) ∨
      (pubkey, addrFromIndex conf.wgNet row.idx) ∈ insertedSeat conf o answer := by
  by_cases hstore : ∃ q, o = .store q
  · obtain ⟨q, rfl⟩ := hstore
    have hstep := AppState.exec_store hexec
    cases answer with
    | error error =>
        rw [Database.step_error hstep] at hrow
        exact .inl (.stored hrow hvalid)
    | ok answer =>
        rcases Database.run_row (Database.step_ok hstep).2 hrow with
          ⟨before, hbefore, hidx, _⟩ | ⟨rfl, _⟩
        · rw [hidx] at hvalid ⊢
          exact .inl (.stored hbefore hvalid)
        · right
          change _ ∈ rowSeats conf pubkey row
          rw [rowSeats, if_pos hvalid]
          exact List.mem_singleton_self _
  · rw [(AppState.exec_frame hexec).db fun q hq => hstore ⟨q, hq⟩] at hrow
    exact .inl (.stored hrow hvalid)

theorem told_source (hexec : AppState.exec conf task o choice st = some (answer, st'))
    (hmem : seat ∈ Seats.told conf o answer) :
    Carries conf h st seat ∨ seat ∈ insertedSeat conf o answer := by
  unfold Seats.told at hmem
  split at hmem
  · rename_i pubkey row
    obtain ⟨hvalid, rfl⟩ := mem_rowSeats hmem
    have hrun := (Database.step_ok (AppState.exec_store hexec)).2
    simp only [Database.run, Except.ok.injEq, Prod.mk.injEq] at hrun
    exact .inl (.stored hrun.1 hvalid)
  · exact .inr hmem
  · rename_i guild role exclude rows
    have hrows : rows = st.presence.othersAt (.network guild role) exclude :=
      (congrArg Prod.fst (AppState.exec_presence hexec)).symm
    subst hrows
    obtain ⟨p, hp, rfl⟩ := List.mem_map.mp hmem
    obtain ⟨pubkey, _, hrow⟩ := Presence.mem_othersAt.mp hp
    exact .inl (.present hrow)
  · rename_i user exclude rows
    have hrows : rows = st.presence.othersAt (.own user) exclude :=
      (congrArg Prod.fst (AppState.exec_presence hexec)).symm
    subst hrows
    obtain ⟨p, hp, rfl⟩ := List.mem_map.mp hmem
    obtain ⟨pubkey, _, hrow⟩ := Presence.mem_othersAt.mp hp
    exact .inl (.present hrow)
  · cases hmem

theorem mem_next {s : Seats} (hmem : seat ∈ s.next conf o answer) :
    seat ∈ Seats.told conf o answer ∨ seat ∈ s := by
  unfold Seats.next at hmem
  split at hmem
  · cases hmem
  · cases hmem
  · exact List.mem_append.mp hmem

theorem announced_told (hinv : SeatingsInv conf h st views) (hview : views task = some (call, m, μ))
    {presence : Presence.Op} {p : MemberPresence}
    (hgate : (optional (Gate.mon conf)).allows m (.presence presence))
    (hallows : (seatings conf).allows μ (.presence presence))
    (hwritten : presence.written = some p) : Carries conf h st p.seat := by
  cases μ with
  | none =>
      cases presence with
      | record => exact hallows.elim
      | recordSelf => exact hallows.elim
      | _ => cases hwritten
  | some s =>
      obtain ⟨gate, rfl, hassigned⟩ := hinv.gated task call m s hview
      have hip : p.ip ≠ 0 := by
        cases presence with
        | record =>
            cases hwritten
            exact hassigned _ hgate
        | recordSelf =>
            cases hwritten
            exact hassigned _ hgate
        | _ => cases hwritten
      have hholds : s.Holds p.seat := hallows p hwritten
      exact .told (hinv.follows hview) (hholds.resolve_left hip)

theorem SeatingsInv.source (hinv : SeatingsInv conf h st views)
    (hview : views task = some (call, m, μ))
    (hgate : (optional (Gate.mon conf)).allows m o) (hallows : (seatings conf).allows μ o)
    (hexec : AppState.exec conf task o choice st = some (answer, st'))
    (hcarries : Carries conf (h.learns conf task o answer) st' seat) :
    Carries conf h st seat ∨ seat ∈ insertedSeat conf o answer := by
  cases hcarries with
  | stored hrow hvalid => exact stored_source hexec hrow hvalid
  | @present place pubkey p hrow =>
      left
      by_cases hpresence : ∃ presence, o = .presence presence
      · obtain ⟨presence, rfl⟩ := hpresence
        have hafter : st'.presence = (st.presence.step presence).2 :=
          (congrArg Prod.snd (AppState.exec_presence hexec)).symm
        rw [hafter] at hrow
        rcases Presence.rowAt_source hrow with hbefore | hwritten
        · exact .present hbefore
        · exact announced_told hinv hview hgate hallows hwritten
      · rw [(AppState.exec_frame hexec).presence fun p hp => hpresence ⟨p, hp⟩] at hrow
        exact .present hrow
  | @told other s seat htask hmem =>
      change (h.carried.modify task _).get? other = some s at htask
      rw [Table.get?_modify] at htask
      split at htask
      · obtain ⟨before, hbefore, rfl⟩ := Option.map_eq_some_iff.mp htask
        rcases mem_next hmem with htold | hheld
        · exact told_source hexec htold
        · exact .inl (.told hbefore hheld)
      · exact .inl (.told htask hmem)

theorem not_clashes {other : Seat} (hclash : (!clashes seat other) = true)
    (haddress : other.2 = seat.2) : other.1 = seat.1 := by
  unfold clashes at hclash
  simpa [haddress] using hclash

theorem inserted_apart (hexec : AppState.exec conf task o choice st = some (answer, st'))
    (hallowed : unoccupied conf h st (.did task o answer) = true)
    (hinserted : seat ∈ insertedSeat conf o answer) {other : Seat}
    (hcarries : Carries conf h st other)
    (haddress : other.2 = seat.2) : other.1 = seat.1 := by
  unfold insertedSeat at hinserted
  split at hinserted
  · rename_i pubkey row _
    obtain ⟨hvalid, rfl⟩ := mem_rowSeats hinserted
    have hall := List.all_eq_true.mp hallowed
    cases hcarries with
    | @stored key row' hrow hvalid' =>
        have hrun := (Database.step_ok (AppState.exec_store hexec)).2
        obtain ⟨hfresh, hget⟩ := Database.run_insertDevice hrun
        have hother : key ≠ pubkey := by
          rintro rfl
          exact nomatch hfresh.symm.trans hrow
        have hkept := (hget key).trans ((if_neg hother).trans hrow)
        have hmade := (hget pubkey).trans (if_pos rfl)
        exact UniqueTable.key_unique hkept hmade (addrFromIndex_inj hvalid' hvalid haddress)
    | @present place key p hrow =>
        refine not_clashes (hall p.seat (List.mem_append_left _ ?_)) haddress
        cases place with
        | network guild role =>
            obtain ⟨entry, hentry, rfl⟩ := Option.map_eq_some_iff.mp hrow
            exact List.mem_map.mpr ⟨entry, List.mem_append_left _
              (Table.mem_values.mpr ⟨_, hentry⟩), rfl⟩
        | own user =>
            obtain ⟨entry, hentry, rfl⟩ := Option.map_eq_some_iff.mp hrow
            exact List.mem_map.mpr ⟨entry, List.mem_append_right _
              (Table.mem_values.mpr ⟨_, hentry⟩), rfl⟩
    | @told number s _ htask hmem =>
        refine not_clashes (hall other (List.mem_append_right _ ?_)) haddress
        exact List.mem_flatten.mpr ⟨s, Table.mem_values.mpr ⟨number, htask⟩, hmem⟩
  · cases hinserted

theorem insertedSeat_unique {other : Seat} (hseat : seat ∈ insertedSeat conf o answer)
    (hother : other ∈ insertedSeat conf o answer) : seat = other := by
  unfold insertedSeat at hseat hother
  split at hseat
  · exact (mem_rowSeats hseat).2.trans (mem_rowSeats hother).2.symm
  · cases hseat

theorem cached_step (hcached : ∀ key e, st.signing.map.get? key = some e →
      attestationSeat (attested e.blob) = (key.2.1, e.ip))
    (hallows : (seatings conf).allows μ o)
    (hexec : AppState.exec conf task o choice st = some (answer, st')) :
    ∀ key e, st'.signing.map.get? key = some e →
      attestationSeat (attested e.blob) = (key.2.1, e.ip) := by
  intro key e hentry
  by_cases hsigning : ∃ s, o = .signing s
  · obtain ⟨s, rfl⟩ := hsigning
    have hafter : st'.signing = (st.signing.step (signCacheReuseSecs conf.attestationTtl) s).2 :=
      (congrArg Prod.snd (AppState.exec_signing hexec)).symm
    rw [hafter] at hentry
    rcases Signing.map_source hentry with hbefore | hkept
    · exact hcached key e hbefore
    · obtain ⟨guild, id, now, schema, rfl, rfl, _, _, _, hip⟩ := hkept
      cases μ with
      | none => exact hallows.elim
      | some s =>
          have hseat : attestationSeat (attested e.blob) = id.seat := hallows
          rw [hseat, hip]
          rfl
  · rw [(AppState.exec_frame hexec).signing fun s hs => hsigning ⟨s, hs⟩] at hentry
    exact hcached key e hentry

theorem SeatingsInv.expects (hinv : SeatingsInv conf h st views)
    (hexec : AppState.exec conf task o choice st = some (answer, st')) :
    (both (optional (Gate.mon conf)) (seatings conf)).expects (m, μ) o answer := by
  refine ⟨?_, ?_⟩
  · cases m <;> trivial
  · cases μ with
    | none => trivial
    | some s =>
        change Seats.expects s o answer
        unfold Seats.expects
        split
        · rename_i guild id now schema blob
          have hhit := congrArg Prod.fst (AppState.exec_signing hexec)
          obtain ⟨e, hentry, rfl, _, _, _, hip⟩ := Signing.fresh_entry hhit
          rw [hinv.cached _ e hentry, hip]
          rfl
        · trivial

theorem next_assigned {gate : Gate} (hassigned : ∀ row ∈ gate.rows, row.1 ≠ 0) :
    ∀ row ∈ (gate.next conf o answer).rows, row.1 ≠ 0 := by
  intro row hrow
  rcases List.mem_append.mp hrow with htold | hbefore
  · unfold Gate.told at htold
    split at htold
    · split at htold
      · exact rowStands_assigned htold
      · cases htold
    · split at htold
      · exact rowStands_assigned htold
      · cases htold
    · cases htold
  · unfold Gate.learn at hbefore
    split at hbefore
    · cases hbefore
    · exact hassigned row hbefore
    · exact hassigned row hbefore
    · exact hassigned row hbefore

theorem SeatingsInv.did (hinv : SeatingsInv conf h st views)
    (hview : views task = some (call, m, μ))
    (hallows : (both (optional (Gate.mon conf)) (seatings conf)).allows (m, μ) o)
    (hexec : AppState.exec conf task o choice st = some (answer, st'))
    (hallowed : unoccupied conf h st (.did task o answer) = true) :
    SeatingsInv conf ((addresses conf).see h st (.did task o answer) st') st'
      (Function.update views task
        (some (call, (both (optional (Gate.mon conf)) (seatings conf)).next (m, μ) o answer))) where
  carried := by
    rw [seats_update]
    have hseats : views.seats task = some (call, μ) := by
      rw [SeatViews.seats, hview]
      rfl
    exact hinv.carried.follow hseats fun s => s.next conf o answer
  gated := by
    intro other call' gate' s' hother
    rcases Machine.update_some_cases hother with ⟨rfl, heq⟩ | ⟨_, hother⟩
    · obtain ⟨_, hpair⟩ := Prod.mk.inj heq
      obtain ⟨hgate, hseats⟩ := Prod.mk.inj hpair
      obtain ⟨s, rfl, _⟩ := Option.map_eq_some_iff.mp hseats.symm
      obtain ⟨gate, rfl, hassigned⟩ := hinv.gated other call m s hview
      exact ⟨gate.next conf o answer, hgate, next_assigned hassigned⟩
    · exact hinv.gated other call' gate' s' hother
  apart := by
    intro seat other hseat hother haddress
    rcases hinv.source hview hallows.1 hallows.2 hexec hseat with hbefore | hmade
    · rcases hinv.source hview hallows.1 hallows.2 hexec hother with hbefore' | hmade'
      · exact hinv.apart seat other hbefore hbefore' haddress
      · exact inserted_apart hexec hallowed hmade' hbefore haddress
    · rcases hinv.source hview hallows.1 hallows.2 hexec hother with hbefore' | hmade'
      · exact (inserted_apart hexec hallowed hmade hbefore' haddress.symm).symm
      · exact congrArg Prod.fst (insertedSeat_unique hmade hmade')
  cached := cached_step hinv.cached hallows.2 hexec
  answered := hinv.answered

theorem SeatingsInv.called (hinv : SeatingsInv conf h st views) (hfree : views task = none) :
    SeatingsInv conf ((addresses conf).see h st (.called task call) st) st
      (Function.update views task (some (call, Gate.gateOf call, seatsOf call))) := by
  have hseats : views.seats task = none := by
    rw [SeatViews.seats, hfree]
    rfl
  have hgated : ∀ other call' m s,
      Function.update views task (some (call, Gate.gateOf call, seatsOf call)) other =
        some (call', m, some s) → ∃ gate, m = some gate ∧ ∀ row ∈ gate.rows, row.1 ≠ 0 := by
    intro other call' m s hother
    rcases Machine.update_some_cases hother with ⟨rfl, heq⟩ | ⟨_, hother⟩
    · cases call with
      | register req callerIp =>
          cases heq
          exact ⟨{ req := req }, rfl, nofun⟩
      | _ => cases heq
    · exact hinv.gated other call' m s hother
  cases call with
  | register req callerIp =>
      refine ⟨?_, hgated, ?_, hinv.cached, hinv.answered⟩
      · rw [seats_update]
        exact hinv.carried.begin []
      · have hbefore : ∀ {seat : Seat}, Carries conf (h.begin task) st seat →
            Carries conf h st seat := by
          intro seat hcarries
          cases hcarries with
          | stored hrow hvalid => exact .stored hrow hvalid
          | present hrow => exact .present hrow
          | @told other s _ htask hmem =>
              change (h.carried.insert task []).get? other = some s at htask
              rw [Table.get?_insert] at htask
              split at htask
              · cases htask
                cases hmem
              · exact .told htask hmem
        exact fun seat other hseat hother =>
          hinv.apart seat other (hbefore hseat) (hbefore hother)
  | _ =>
      refine ⟨?_, hgated, hinv.apart, hinv.cached, hinv.answered⟩
      rw [seats_update]
      exact hinv.carried.ignore hseats

theorem SeatingsInv.gone (hinv : SeatingsInv conf h st views) :
    SeatingsInv conf (h.gone task) (AppState.release task st)
      (Function.update views task none) where
  carried := by
    rw [seats_update]
    exact hinv.carried.forget
  gated := by
    intro other call' m s hother
    exact hinv.gated other call' m s (Machine.update_none_cases hother).2
  apart := by
    have hbefore : ∀ {seat : Seat}, Carries conf (h.gone task) (AppState.release task st) seat →
        Carries conf h st seat := by
      intro seat hcarries
      cases hcarries with
      | stored hrow hvalid => exact .stored hrow hvalid
      | present hrow => exact .present hrow
      | told htask hmem => exact .told (Table.get?_of_erase htask) hmem
    exact fun seat other hseat hother => hinv.apart seat other (hbefore hseat) (hbefore hother)
  cached := hinv.cached
  answered := hinv.answered

theorem answered_told {resp : RegisterResp} {s : Seats} {gate : Gate}
    (hassigned : ∀ row ∈ gate.rows, row.1 ≠ 0)
    (hgranted : ∀ device ∈ Gate.attested (.ok (.registered resp)), device ∈ gate.rows)
    (hanswers : s.Answers resp) {att : Attestation} (hatt : att ∈ allAttested resp) :
    attestationSeat att ∈ s := by
  obtain ⟨guildAtt, hmem, rfl⟩ := List.mem_map.mp hatt
  rcases List.mem_append.mp hmem with hown | hseed
  · have hrow := hgranted _ (List.mem_map_of_mem hown)
    exact (hanswers.own guildAtt hown).resolve_left (hassigned _ hrow)
  · obtain ⟨seed, hseed, hmem⟩ := List.mem_flatMap.mp hseed
    exact hanswers.seeds seed hseed guildAtt hmem

theorem SeatingsInv.answers {result : Except ApiError Reply} (hinv : SeatingsInv conf h st views)
    (hview : views task = some (call, m, μ)) (hgranted : Gate.grantedPost m result)
    (hpost : seatedPost call μ result) : SeatingsInv conf (h.answers call result) st views := by
  unfold Seatings.answers
  split
  · rename_i req callerIp resp
    obtain ⟨s, rfl, hanswers⟩ := hpost
    obtain ⟨gate, rfl, hassigned⟩ := hinv.gated task _ m s hview
    refine ⟨hinv.carried, hinv.gated, ?_, hinv.cached, ?_⟩
    · have hbefore : ∀ {seat : Seat},
          Carries conf { h with responses := allAttested resp :: h.responses } st seat →
            Carries conf h st seat := by
        intro seat hcarries
        cases hcarries with
        | stored hrow hvalid => exact .stored hrow hvalid
        | present hrow => exact .present hrow
        | told htask hmem => exact .told htask hmem
      exact fun seat other hseat hother => hinv.apart seat other (hbefore hseat) (hbefore hother)
    · intro atts hatts
      rcases List.mem_cons.mp hatts with rfl | hatts
      · intro att hatt other hother haddress
        have hcarries : ∀ {att : Attestation}, att ∈ allAttested resp →
            Carries conf h st (attestationSeat att) := fun hatt =>
          .told (hinv.follows hview) (answered_told hassigned hgranted hanswers hatt)
        exact hinv.apart _ _ (hcarries hatt) (hcarries hother) haddress
      · exact hinv.answered atts hatts
  · exact hinv

theorem SeatingsInv.moved {world : World} (hinv : SeatingsInv conf h st views)
    (hmove : AppState.move world st = some st') : SeatingsInv conf h st' views := by
  have huntouched := AppState.move_untouched hmove
  have hbefore : ∀ {seat : Seat}, Carries conf h st' seat → Carries conf h st seat := by
    intro seat hcarries
    cases hcarries with
    | stored hrow hvalid =>
        rw [huntouched.db] at hrow
        exact .stored hrow hvalid
    | present hrow =>
        rw [huntouched.presence] at hrow
        exact .present hrow
    | told htask hmem => exact .told htask hmem
  refine ⟨hinv.carried, hinv.gated, ?_, ?_, hinv.answered⟩
  · exact fun seat other hseat hother => hinv.apart seat other (hbefore hseat) (hbefore hother)
  · rw [huntouched.signing]
    exact hinv.cached

end

def addressDiscipline :
    Machine.Discipline (machine conf) (addresses conf) (Machine.passes (unoccupied conf))
      (Option Gate × Option Seats) where
  mon := both (optional (Gate.mon conf)) (seatings conf)
  opening := fun _ _ call => (Gate.gateOf call, seatsOf call)
  post := fun call m result => Gate.grantedPost m.1 result ∧ seatedPost call m.2 result
  inv := fun h st views => SeatingsInv conf h st views
  conforms := fun _ _ call => (Gate.handle_granted call).both (handle_seats conf call)
  called := fun hinv hfree _ => hinv.called hfree
  did := fun hinv hview hallows hexec hallowed =>
    ⟨hinv.expects hexec, hinv.did hview hallows hexec hallowed⟩
  ended := fun hinv hview hpost _ => (hinv.answers hview hpost.1 hpost.2).gone
  dropped := fun hinv _ _ => hinv.gone
  moved := fun hinv hmove _ => hinv.moved hmove

theorem restarted_carries {st₀ : AppState} {seat : Seat}
    (hcarries : Carries conf {} st₀.restarted seat) :
    ∃ pubkey row, st₀.db.devices.get? pubkey = some row ∧
      indexIsValid conf.wgNet row.idx = true ∧
        seat = (pubkey, addrFromIndex conf.wgNet row.idx) := by
  cases hcarries with
  | stored hrow hvalid => exact ⟨_, _, hrow, hvalid, rfl⟩
  | @present place pubkey p hrow => cases place <;> cases hrow
  | told htask => cases htask

theorem restarted_seated (st₀ : AppState) :
    SeatingsInv conf {} st₀.restarted fun _ => none := by
  refine ⟨fun _ => rfl, ?_, ?_, ?_, ?_⟩
  · intro task call m s hview
    cases hview
  · intro seat other hseat hother haddress
    obtain ⟨key, row, hrow, hvalid, rfl⟩ := restarted_carries conf hseat
    obtain ⟨key', row', hrow', hvalid', rfl⟩ := restarted_carries conf hother
    exact UniqueTable.key_unique hrow hrow' (addrFromIndex_inj hvalid hvalid' haddress)
  · intro key e hentry
    cases hentry
  · intro atts hatts
    cases hatts

/-- No two devices of a response are attested under one address. -/
def Apart (atts : List Attestation) : Prop :=
  ∀ att ∈ atts, ∀ other ∈ atts, att.wgIp = other.wgIp → att.wgPubkey = other.wgPubkey

/-- As long as no address is given out again that is still known of another device, the devices
of every response are apart. -/
theorem addresses_apart {st₀ : AppState} {c : (machine conf).Config} {h : Seatings}
    (hreach : Machine.Reach (addresses conf) (Machine.passes (unoccupied conf))
      ((machine conf).idle st₀.restarted) {} c h) : ∀ atts ∈ h.responses, Apart atts := by
  obtain ⟨views, _, hinv⟩ := (addressDiscipline conf).run (restarted_seated conf st₀) hreach
  exact hinv.answered

/-- A user who has logged in for two devices with the same hint. -/
def pairOfDevices : AppState where
  db :=
    { oauthAuthorized := ((∅ : Table _ _).insert 1 ⟨1, 0⟩).insert 16777215 ⟨1, 0⟩
      userHandles := (∅ : Table _ _).insert 1 "ann" }

open Script in
def enrolledPc : Script Conf.small :=
  call (.register (personalDevice 1 "pc") (.v4 0)) ++ steps 0 28 (.text "token") ++
    steps 0 23 (.key 99)

open Script in
/-- The first device is removed while a refresh of it has its address, but not its row yet; then
the second enrolls. -/
def removedInFlight : Script Conf.small :=
  enrolledPc ++
    call (.register { personalDevice 1 "pc" with deviceToken := some "token" } (.v4 0)) ++
    steps 1 9 .go ++ call (.manage ⟨"token", .remove "pc"⟩) ++ steps 2 15 .go ++ steps 1 7 .go ++
    call (.register (personalDevice 16777215 "pad") (.v4 0)) ++ steps 3 51 (.text "other")

open Script in
def bothEnrolled : Script Conf.small :=
  enrolledPc ++ call (.register (personalDevice 16777215 "pad") (.v4 0)) ++
    steps 1 51 (.text "other")

/-- The second device is told of the first under its own address. -/
theorem removed_address_shared :
    ¬ ∀ c h, Machine.Reach (addresses Conf.small) Machine.free
      ((machine Conf.small).idle pairOfDevices.restarted) {} c h →
        ∀ atts ∈ h.responses, Apart atts := by
  intro hclaim
  have hplay : (Machine.play (addresses Conf.small) (fun _ _ _ => true)
      ((machine Conf.small).idle pairOfDevices.restarted) {} removedInFlight).any
        (fun last => last.2.responses.any fun atts => atts.any fun att => atts.any fun other =>
          att.wgIp == other.wgIp && att.wgPubkey != other.wgPubkey) = true := by
    decide
  have hrun : ∃ c h, Machine.Reach (addresses Conf.small) Machine.free
      ((machine Conf.small).idle pairOfDevices.restarted) {} c h ∧
        (h.responses.any fun atts => atts.any fun att => atts.any fun other =>
          att.wgIp == other.wgIp && att.wgPubkey != other.wgPubkey) = true :=
    Machine.reach_of_play (fun _ _ _ _ => trivial) hplay
  obtain ⟨c, h, hreach, hshared⟩ := hrun
  obtain ⟨atts, hatts, hshared⟩ := List.any_eq_true.mp hshared
  obtain ⟨att, hatt, hshared⟩ := List.any_eq_true.mp hshared
  obtain ⟨other, hother, hshared⟩ := List.any_eq_true.mp hshared
  rw [Bool.and_eq_true, beq_iff_eq, bne_iff_ne] at hshared
  exact hshared.2 (hclaim c h hreach atts hatts att hatt other hother hshared.1)

/-- Two devices with the same hint get addresses apart, and the second is told of both. -/
theorem addresses_apart_both :
    ∃ c h, Machine.Reach (addresses Conf.small) (Machine.passes (unoccupied Conf.small))
        ((machine Conf.small).idle pairOfDevices.restarted) {} c h ∧
      (∃ atts ∈ h.responses, atts.length = 2) ∧ ∀ atts ∈ h.responses, Apart atts := by
  have hplay : (Machine.play (addresses Conf.small) (unoccupied Conf.small)
      ((machine Conf.small).idle pairOfDevices.restarted) {} bothEnrolled).any
        (fun last => last.2.responses.any fun atts => atts.length == 2) = true := by
    decide +kernel
  have hrun : ∃ c h, Machine.Reach (addresses Conf.small)
      (Machine.passes (unoccupied Conf.small))
      ((machine Conf.small).idle pairOfDevices.restarted) {} c h ∧
        (h.responses.any fun atts => atts.length == 2) = true :=
    Machine.reach_of_play (fun _ _ _ htest => htest) hplay
  obtain ⟨c, h, hreach, hboth⟩ := hrun
  obtain ⟨atts, hatts, hlength⟩ := List.any_eq_true.mp hboth
  exact ⟨c, h, hreach, ⟨atts, hatts, beq_iff_eq.mp hlength⟩, addresses_apart Conf.small hreach⟩

end UnityLan.Coordinator
