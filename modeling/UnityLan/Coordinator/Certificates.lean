import UnityLan.Coordinator.Acme
import UnityLan.Coordinator.Usernames

namespace UnityLan.Coordinator

open UnityLan.Foundation Prog

/-! Who is certified under which name. -/

def Conf.domain (conf : Conf) : String :=
  conf.dnsDomain.getD ""

/-- The names of a device: its own under its user's label, those of the services registered to it,
and the bare alias if it is the primary device. -/
def ownNames (domain : String) (db : Database) (user : UserId) (pubkey : PubKey) : List String :=
  match db.userLabels.get? user with
  | none => []
  | some label =>
      ((db.devices.get? pubkey).toList.map fun row =>
          challengeName s!"{row.deviceName}.{label}" domain) ++
        ((servicesOf db pubkey).map fun service => challengeName s!"{service}.{label}" domain) ++
        if db.primaryDevice.get? user = some pubkey then [challengeName label domain] else []

/-! A name determines the label it is under. -/

def Under (domain label name : String) : Prop :=
  ∃ first : List Char, name = String.ofList
    ((first ++ '.' :: label.toList ++ '.' :: domain.toList).map toAsciiLowercase)

theorem under_bare (domain label : String) : Under domain label (challengeName label domain) := by
  refine ⟨"_acme-challenge".toList, ?_⟩
  unfold challengeName
  congr 2
  show ("_acme-challenge." ++ label ++ "." ++ domain).toList = _
  simp [String.toList_append]

theorem under_named (domain label first : String) :
    Under domain label (challengeName s!"{first}.{label}" domain) := by
  refine ⟨"_acme-challenge.".toList ++ first.toList, ?_⟩
  unfold challengeName
  congr 2
  show ("_acme-challenge." ++ (first ++ "." ++ label) ++ "." ++ domain).toList = _
  simp [String.toList_append]

theorem toAsciiLowercase_plain {c : Char} (hplain : (isLabelChar c || c == '-') = true) :
    toAsciiLowercase c = c := by
  unfold toAsciiLowercase
  rw [if_neg]
  rintro ⟨hlow, hhigh⟩
  simp only [isLabelChar, Bool.or_eq_true, Bool.and_eq_true, decide_eq_true_eq,
    beq_iff_eq] at hplain
  rcases hplain with (⟨hletter, -⟩ | ⟨-, hdigit⟩) | rfl
  · exact absurd (Char.le_trans hletter hhigh) (by decide)
  · exact absurd (Char.le_trans hlow hdigit) (by decide)
  · exact absurd hlow (by decide)

theorem map_plain {label : String} (hplain : isPlainLabel label = true) :
    label.toList.map toAsciiLowercase = label.toList := by
  conv_rhs => rw [← List.map_id label.toList]
  apply List.map_congr_left
  intro c hc
  exact toAsciiLowercase_plain (List.all_eq_true.mp hplain c hc)

theorem dot_not_plain {label : String} (hplain : isPlainLabel label = true) :
    '.' ∉ label.toList := by
  intro hdot
  have hnot := List.all_eq_true.mp hplain '.' hdot
  revert hnot
  decide

theorem after_last_dot {first second label label' : List Char}
    (hsame : first ++ '.' :: label = second ++ '.' :: label') (hlabel : '.' ∉ label)
    (hlabel' : '.' ∉ label') : label = label' := by
  have hlast : ∀ first label : List Char, '.' ∉ label →
      (first ++ '.' :: label).reverse.takeWhile (· != '.') = label.reverse := by
    intro first label hlabel
    have hall : ∀ c ∈ label.reverse, (c != '.') = true := by
      intro c hc
      simp only [bne_iff_ne, ne_eq]
      rintro rfl
      exact hlabel (List.mem_reverse.mp hc)
    rw [List.reverse_append, List.reverse_cons, List.append_assoc,
      List.takeWhile_append_of_pos hall]
    simp
  have hreversed := hlast first label hlabel
  rw [hsame, hlast second label' hlabel'] at hreversed
  exact (List.reverse_injective hreversed).symm

theorem Under.unique {domain label label' name : String} (hfirst : Under domain label name)
    (hsecond : Under domain label' name) (hplain : isPlainLabel label = true)
    (hplain' : isPlainLabel label' = true) : label = label' := by
  obtain ⟨first, hfirst⟩ := hfirst
  obtain ⟨second, hsecond⟩ := hsecond
  have hchars := congrArg String.toList (hfirst.symm.trans hsecond)
  simp only [String.toList_ofList, List.map_append, List.map_cons, map_plain hplain,
    map_plain hplain'] at hchars
  apply String.toList_inj.mp
  exact after_last_dot (List.append_cancel_right hchars) (dot_not_plain hplain)
    (dot_not_plain hplain')

/-! What a request may rely on.  It is followed by what the store tells it of its own names. -/

structure Claimed where
  who : Option (UserId × PubKey) := none
  label : Option String := none
  names : List String := []

namespace Claimed

def tells (domain : String) (user : UserId) (pubkey : PubKey) (label : String) :
    (o : (sig.sum zoneSig).Op) → (sig.sum zoneSig).Res o → List String
  | .inl (.store (.device key)), .ok (some row) =>
      if key = pubkey then [challengeName s!"{row.deviceName}.{label}" domain] else []
  | .inr (.deviceServices key), .ok services =>
      if key = pubkey then
        services.map fun service => challengeName s!"{service}.{label}" domain
      else []
  | .inl (.store (.primaryPubkey owner)), .ok (some primary) =>
      if owner = user ∧ primary = pubkey then [challengeName label domain] else []
  | _, _ => []

def told (domain : String) (m : Claimed) (o : (sig.sum zoneSig).Op)
    (answer : (sig.sum zoneSig).Res o) : List String :=
  match m.who, m.label with
  | some (user, pubkey), some label => tells domain user pubkey label o answer
  | _, _ => []

def next (domain : String) (m : Claimed) :
    (o : (sig.sum zoneSig).Op) → (sig.sum zoneSig).Res o → Claimed
  | .inl (.store (.deviceByToken _)), .ok (some who) => { who := some who }
  | .inl (.store (.userLabel user)), .ok (some label) =>
      if m.who.map Prod.fst = some user then { m with label := some label } else m
  | o, answer => { m with names := m.told domain o answer ++ m.names }

def allows (m : Claimed) : (sig.sum zoneSig).Op → Prop
  | .inl (.store (.insertUserLabel ..)) => False
  | .inr (.publish _ records) => m.who.isSome ∧ ∀ record ∈ records, record.1 ∈ m.names
  | _ => True

def mon (domain : String) : Monitor (sig.sum zoneSig) Claimed where
  allows := allows
  expects := fun _ _ _ => True
  next := next domain

end Claimed

def ZoneSide : (sig.sum zoneSig).Op → Prop
  | .inl (.store (.insertUserLabel _ label)) => isPlainLabel label = true
  | .inr (.publish ..) => False
  | _ => True

section

variable {M : Type} {mon : Monitor (sig.sum zoneSig) M} {m : M} {pubkey : PubKey}

theorem ask_conforms {q : Query} (hallowed : mon.allows m (.inl (.store q))) :
    (ask q).Conforms mon
      (returns fun m' answer => m' = mon.next m (.inl (.store q)) (.ok answer)) m := by
  unfold ask
  rw [conforms_left]
  refine Conforms.mapError_returns ((conforms_sql ..).mpr ⟨hallowed, fun answer _ => ?_⟩)
  cases answer with
  | ok answer => rfl
  | error error => trivial

theorem deviceServices_conforms (hallowed : mon.allows m (.inr (.deviceServices pubkey))) :
    (deviceServices pubkey).Conforms mon
      (returns fun m' services => m' = mon.next m (.inr (.deviceServices pubkey)) (.ok services))
      m := by
  refine ⟨hallowed, fun answer _ => ?_⟩
  cases answer with
  | ok services => rfl
  | error error => trivial

theorem publish_conforms {records : ChallengeRecords}
    (hallowed : mon.allows m (.inr (.publish pubkey records))) :
    (publish pubkey records).Conforms mon (returns fun _ _ => True) m := by
  refine ⟨hallowed, fun answer _ => ?_⟩
  cases answer <;> trivial

end

namespace Claimed

variable {domain username deviceName : String} {user : UserId} {pubkey : PubKey} {m : Claimed}

/-- The request is known to be the device's, and what its user is called; the records are under
names it was told. -/
structure Recorded (user : UserId) (pubkey : PubKey) (username : String)
    (records : ChallengeRecords) (m : Claimed) : Prop where
  who : m.who = some (user, pubkey)
  label : m.label = some username
  named : ∀ record ∈ records, record.1 ∈ m.names

theorem Recorded.append {first second : ChallengeRecords}
    (hfirst : m.Recorded user pubkey username first)
    (hsecond : ∀ record ∈ second, record.1 ∈ m.names) :
    m.Recorded user pubkey username (first ++ second) := by
  refine ⟨hfirst.who, hfirst.label, fun record hrecord => ?_⟩
  rcases List.mem_append.mp hrecord with hbefore | hnew
  · exact hfirst.named record hbefore
  · exact hsecond record hnew

theorem aliasRecords_conforms {records : ChallengeRecords}
    (hrecorded : m.Recorded user pubkey username records) (value : Option String) :
    (aliasRecords domain user pubkey username value).Conforms (mon domain)
      (returns fun m' bare => m'.Recorded user pubkey username (records ++ bare)) m := by
  unfold aliasRecords
  cases value with
  | none => exact hrecorded.append fun record hrecord => nomatch hrecord
  | some value =>
      refine (ask_conforms trivial).andThen fun m' primary hnext => ?_
      subst hnext
      have hkept : ((mon domain).next m (.inl (.store (.primaryPubkey user)))
          (.ok primary)).Recorded user pubkey username records :=
        ⟨hrecorded.who, hrecorded.label, fun record hrecord =>
          List.mem_append_right _ (hrecorded.named record hrecord)⟩
      show Recorded user pubkey username (records ++ if primary == some pubkey then _ else _) _
      split
      · rename_i hprimary
        apply hkept.append
        intro record hrecord
        cases List.mem_singleton.mp hrecord
        apply List.mem_append_left
        rw [eq_of_beq hprimary]
        simp [told, tells, hrecorded.who, hrecorded.label]
      · exact hkept.append fun record hrecord => nomatch hrecord

theorem orderRecords_conforms (req : AcmeChallengeReq)
    (hwho : m.who = some (user, pubkey)) (hlabel : m.label = some username)
    (hnamed : challengeName s!"{deviceName}.{username}" domain ∈ m.names) :
    (orderRecords domain user pubkey username deviceName req).Conforms (mon domain)
      (returns fun m' records => m'.Recorded user pubkey username records) m := by
  unfold orderRecords
  refine (deviceServices_conforms trivial).andThen fun m₁ held hnext => ?_
  have hown : m₁.Recorded user pubkey username
      (req.device.map fun value => (challengeName s!"{deviceName}.{username}" domain, value)) := by
    rw [hnext]
    refine ⟨hwho, hlabel, fun record hrecord => ?_⟩
    obtain ⟨value, _, rfl⟩ := List.mem_map.mp hrecord
    exact List.mem_append_right _ hnamed
  have hserved : ∀ record ∈ (req.services.filter fun service => held.contains service.1).map
      fun service => (challengeName s!"{service.1}.{username}" domain, service.2),
      record.1 ∈ m₁.names := by
    intro record hrecord
    obtain ⟨service, hservice, rfl⟩ := List.mem_map.mp hrecord
    have hheld : service.1 ∈ held := by
      simpa using (List.mem_filter.mp hservice).2
    rw [hnext]
    apply List.mem_append_left
    simp only [told, tells, hwho, hlabel, if_true]
    exact List.mem_map.mpr ⟨service.1, hheld, rfl⟩
  exact (aliasRecords_conforms (hown.append hserved) req.primary).andThen
    fun m₂ bare hrecorded => hrecorded

theorem acmeChallenge_conforms {conf : Conf} (req : AcmeChallengeReq) :
    (acmeChallenge conf req).Conforms (mon conf.domain) (returns fun _ _ => True) {} := by
  unfold acmeChallenge
  cases hdns : conf.dnsDomain with
  | none => trivial
  | some domain =>
      have hdomain : conf.domain = domain := by
        simp [Conf.domain, hdns]
      rw [hdomain]
      refine (ask_conforms trivial).andThen fun m₁ who hwho => ?_
      cases who with
      | none => trivial
      | some who =>
          obtain ⟨user, pubkey⟩ := who
          refine (ask_conforms trivial).andThen fun m₂ label hlabel => ?_
          cases label with
          | none => trivial
          | some username =>
              refine (ask_conforms trivial).andThen fun m₃ row hrow => ?_
              cases row with
              | none => trivial
              | some row =>
                  dsimp only [Option.map_some]
                  split
                  · trivial
                  · have hknown : m₃.who = some (user, pubkey) ∧ m₃.label = some username ∧
                        challengeName s!"{row.deviceName}.{username}" domain ∈ m₃.names := by
                      subst hrow hlabel hwho
                      simp [mon, next, told, tells]
                    obtain ⟨hwho₃, hlabel₃, hnamed₃⟩ := hknown
                    refine (orderRecords_conforms req hwho₃ hlabel₃ hnamed₃).andThen
                      fun m₄ records hrecorded => ?_
                    have hpublish : m₄.allows (.inr (.publish pubkey records)) :=
                      ⟨by simp [hrecorded.who], hrecorded.named⟩
                    refine Conforms.andThen (publish_conforms ?_) fun _ _ _ => trivial
                    exact hpublish

end Claimed

section

variable {conf : Conf}

theorem call_side (call : Call) : ∀ o, CallOp call o → ZoneSide (.inl o) := by
  intro o h
  cases o with
  | store q =>
      cases q with
      | insertUserLabel user label =>
          cases call with
          | register req callerIp => exact h
          | _ => exact h.elim
      | _ => trivial
  | _ => trivial

theorem registerServices_side (req : ServiceRegisterReq) :
    (registerServices conf req).Uses ZoneSide := by
  have hask : ∀ q : Query, ZoneSide (.inl (.store q)) → (ask q).Uses ZoneSide := by
    intro q hq
    exact Uses.left (Uses.mapError ((uses_sql q).mpr hq) _)
  unfold registerServices
  split
  · trivial
  · split
    · trivial
    · refine (hask (.deviceByToken req.token) trivial).bind fun found => ?_
      cases found with
      | none => trivial
      | some who => exact (hask (.replaceServices who.1 who.2 req.names) trivial).bind fun _ =>
        trivial

def claimedOf : (site conf).Call → Option Claimed
  | .inr (.acmeChallenge _) => some {}
  | _ => none

theorem site_conforms (call : (site conf).Call) :
    ((site conf).start call).Conforms (Prog.within ZoneSide (Claimed.mon conf.domain))
      (fun _ _ => True) (claimedOf call) := by
  have hside : ∀ call : (site conf).Call, claimedOf call = none →
      ((site conf).start call).Uses ZoneSide →
      ((site conf).start call).Conforms (Prog.within ZoneSide (Claimed.mon conf.domain))
        (fun _ _ => True) (claimedOf call) := by
    intro call hother huses
    rw [hother]
    exact huses.conforms_within.mono fun _ _ _ => trivial
  rcases call with call | ⟨req⟩ | ⟨req⟩
  · apply hside _ rfl
    exact (Uses.left ((handle_uses conf call).mono (call_side call))).bind fun _ => trivial
  · have hinner : (handleZone conf (.acmeChallenge req)).Conforms (Claimed.mon conf.domain)
        (returns fun _ _ => True) {} :=
      (Claimed.acmeChallenge_conforms req).andThen fun _ _ _ => trivial
    have houter : ((site conf).start (.inr (.acmeChallenge req))).Conforms
        (Claimed.mon conf.domain) (returns fun _ _ => True) {} :=
      hinner.andThen fun _ _ _ => trivial
    exact conforms_within (houter.mono fun _ _ _ => trivial)
  · apply hside _ rfl
    have hinner : (handleZone conf (.registerServices req)).Uses ZoneSide :=
      (registerServices_side req).bind fun _ => trivial
    exact hinner.bind fun _ => trivial

end

/-! The run. -/

/-- What a challenge request was authenticated as, and the names that were the device's own as the
request went on. -/
structure Order where
  who : Option (UserId × PubKey) := none
  names : List String := []

structure Certificates where
  orders : Table Nat Order := ∅
  /-- The names values were written at, with the user of the device. -/
  written : List (UserId × String) := []
  /-- A name was written that was at no moment of the request the device's own. -/
  foreign : Bool := false
  /-- A name was written that was not the device's own as it was. -/
  stale : Bool := false

variable (conf : Conf)

def Order.authenticate (order : Order) :
    (o : (sig.sum zoneSig).Op) → (sig.sum zoneSig).Res o → Order
  | .inl (.store (.deviceByToken _)), .ok (some who) => { who := some who }
  | _, _ => order

def Order.finds (order : Order) (domain : String) (db : Database) : Order :=
  match order.who with
  | some (user, pubkey) => { order with names := ownNames domain db user pubkey ++ order.names }
  | none => order

namespace Certificates

def begin (h : Certificates) (task : Nat) : Certificates :=
  { h with orders := h.orders.insert task {} }

def writes (h : Certificates) (task : Nat) (db : Database) :
    (o : (sig.sum zoneSig).Op) → (sig.sum zoneSig).Res o → Certificates
  | .inr (.publish _ records), .ok _ =>
      match h.orders.get? task with
      | some ⟨some (user, pubkey), names⟩ =>
          { h with
            written := (records.map fun record => (user, record.1)) ++ h.written
            foreign := h.foreign || !records.all fun record => names.contains record.1
            stale := h.stale || !records.all fun record =>
              (ownNames conf.domain db user pubkey).contains record.1 }
      | _ => { h with foreign := true }
  | _, _ => h

def follows (h : Certificates) (task : Nat) (o : (sig.sum zoneSig).Op)
    (answer : (sig.sum zoneSig).Res o) (db' : Database) : Certificates :=
  { h with
    orders := h.orders.modify task fun order =>
      (order.authenticate o answer).finds conf.domain db' }

def gone (h : Certificates) (task : Nat) : Certificates :=
  { h with orders := h.orders.erase task }

end Certificates

def certificates : Machine.Observer (site conf) Certificates where
  see := fun h st event st' =>
    match event with
    | .called task (.inr (.acmeChallenge _)) => h.begin task
    | .called .. => h
    | .did task o answer =>
        (h.writes conf task (AppState.db st.1) o answer).follows conf task o answer
          (AppState.db st'.1)
    | .ended task _ _ => h.gone task
    | .dropped task _ => h.gone task
    | .moved _ => h

def PlainLabels (db : Database) : Prop :=
  ∀ user label, db.userLabels.get? user = some label → isPlainLabel label = true

structure Claimed.Stands (domain : String) (db : Database) (m : Claimed) : Prop where
  label : ∀ label, m.label = some label → ∃ who, m.who = some who ∧ Labelled db (who.1, label)
  names : ∀ name ∈ m.names, ∃ who label, m.who = some who ∧ Labelled db (who.1, label) ∧
    Under domain label name

structure Order.Knows (order : Order) (m : Claimed) : Prop where
  who : order.who = m.who
  names : ∀ name ∈ m.names, name ∈ order.names

variable {conf} in
structure CertificatesInv (h : Certificates) (db : Database)
    (views : Nat → Option ((site conf).Call × Option Claimed)) : Prop where
  owned : h.foreign = false
  plain : PlainLabels db
  known : Machine.Shadows Order.Knows h.orders views
  stands : ∀ task call m, views task = some (call, some m) → m.Stands conf.domain db
  written : ∀ entry ∈ h.written, ∃ label, Labelled db (entry.1, label) ∧
    Under conf.domain label entry.2

section

variable {conf} {domain : String} {db db' : Database} {m : Claimed} {order : Order}
  {o : (sig.sum zoneSig).Op} {answer : (sig.sum zoneSig).Res o} {task : Nat} {choice : Choice}
  {state state' : (site conf).State}

theorem PlainLabels.run {q : Query} {result : q.Res} (hplain : PlainLabels db)
    (hquery : ∀ user label, q = .insertUserLabel user label → isPlainLabel label = true)
    (hrun : db.run q = .ok (result, db')) : PlainLabels db' := by
  by_cases hwrites : Database.writes q = some .userLabels
  · cases q <;> try (cases hwrites; done)
    case insertUserLabel user label =>
      intro other held hheld
      rw [(Database.run_insertUserLabel hrun).2 other] at hheld
      split at hheld
      · cases hheld
        exact hquery _ _ rfl
      · exact hplain other held hheld
  · intro other held hheld
    rw [(Database.run_frame hrun).userLabels hwrites] at hheld
    exact hplain other held hheld

theorem exec_labels (hexec : (site conf).exec task o choice state = some (answer, state'))
    (hplain : PlainLabels (AppState.db state.1))
    (hinsert : ∀ user label, o = .inl (.store (.insertUserLabel user label)) →
      isPlainLabel label = true) :
    PlainLabels (AppState.db state'.1) ∧ ∀ naming, Labelled (AppState.db state.1) naming →
      Labelled (AppState.db state'.1) naming := by
  cases o with
  | inl o =>
      have hleft : AppState.exec conf task o choice state.1 = some (answer, state'.1) :=
        (Machine.exec_left hexec).1
      refine ⟨?_, fun naming => AppState.exec_labelled hleft⟩
      by_cases hstore : ∃ q, o = .store q
      · obtain ⟨q, rfl⟩ := hstore
        have hstep := AppState.exec_store hleft
        cases answer with
        | ok result =>
            refine hplain.run (fun user label hq => ?_) (Database.step_ok hstep).2
            exact hinsert user label (by rw [hq])
        | error error =>
            rw [Database.step_error hstep]
            exact hplain
      · rw [(AppState.exec_frame hleft).db fun q hq => hstore ⟨q, hq⟩]
        exact hplain
  | inr o =>
      rw [(Machine.exec_right hexec).2]
      exact ⟨hplain, fun _ => id⟩

theorem ownNames_some {db : Database} {user : UserId} {label : String}
    (hlabelled : Labelled db (user, label)) (pubkey : PubKey) :
    ownNames domain db user pubkey =
      ((db.devices.get? pubkey).toList.map fun row =>
          challengeName s!"{row.deviceName}.{label}" domain) ++
        ((servicesOf db pubkey).map fun service => challengeName s!"{service}.{label}" domain) ++
        if db.primaryDevice.get? user = some pubkey then [challengeName label domain] else [] := by
  have hlabel : db.userLabels.get? user = some label := hlabelled
  unfold ownNames
  rw [hlabel]

theorem exec_read {q : Query} {result : q.Res}
    (hexec : (site conf).exec task (.inl (.store q)) choice state = some (.ok result, state')) :
    (AppState.db state.1).run q = .ok (result, AppState.db state'.1) := by
  have hleft : AppState.exec conf task (.store q) choice state.1 = some (.ok result, state'.1) :=
    (Machine.exec_left hexec).1
  exact (Database.step_ok (AppState.exec_store hleft)).2

theorem tells_own {user : UserId} {pubkey : PubKey} {label name : String}
    (hexec : (site conf).exec task o choice state = some (answer, state'))
    (hlabelled : Labelled (AppState.db state'.1) (user, label))
    (hname : name ∈ Claimed.tells domain user pubkey label o answer) :
    Under domain label name ∧ name ∈ ownNames domain (AppState.db state'.1) user pubkey := by
  rw [ownNames_some hlabelled]
  unfold Claimed.tells at hname
  split at hname
  · split at hname
    · rename_i row hkey
      subst hkey
      have hrun := exec_read hexec
      simp only [Database.run, Except.ok.injEq, Prod.mk.injEq] at hrun
      rw [List.mem_singleton.mp hname, ← hrun.2, hrun.1]
      exact ⟨under_named .., by simp⟩
    · cases hname
  · split at hname
    · rename_i key services hkey
      subst hkey
      obtain ⟨hanswer, hsame⟩ := Machine.exec_right hexec
      have hservices : servicesOf (AppState.db state'.1) key = services := by
        rw [hsame]
        simp only [zone] at hanswer
        split at hanswer
        · cases hanswer
        · simp only [Option.some.injEq, Prod.mk.injEq, Except.ok.injEq] at hanswer
          exact hanswer.1
      obtain ⟨service, hservice, rfl⟩ := List.mem_map.mp hname
      refine ⟨under_named .., ?_⟩
      apply List.mem_append_left
      apply List.mem_append_right
      rw [hservices]
      exact hname
    · cases hname
  · split at hname
    · rename_i primary hprimary
      obtain ⟨rfl, rfl⟩ := hprimary
      have hrun := exec_read hexec
      simp only [Database.run, Except.ok.injEq, Prod.mk.injEq] at hrun
      rw [List.mem_singleton.mp hname, ← hrun.2, if_pos hrun.1]
      exact ⟨under_bare .., by simp⟩
    · cases hname
  · cases hname

theorem told_own {name : String}
    (hexec : (site conf).exec task o choice state = some (answer, state'))
    (hstands : m.Stands domain (AppState.db state'.1)) (hname : name ∈ m.told domain o answer) :
    ∃ who label, m.who = some who ∧ Labelled (AppState.db state'.1) (who.1, label) ∧
      Under domain label name ∧ name ∈ ownNames domain (AppState.db state'.1) who.1 who.2 := by
  unfold Claimed.told at hname
  split at hname
  · rename_i user pubkey label hwho hlabel
    obtain ⟨who, hwho', hlabelled⟩ := hstands.label label hlabel
    rw [hwho] at hwho'
    cases hwho'
    exact ⟨(user, pubkey), label, hwho, hlabelled, tells_own hexec hlabelled hname⟩
  · cases hname

/-! One operation of a request. -/

theorem Claimed.Stands.kept (hstands : m.Stands domain db)
    (hkept : ∀ naming, Labelled db naming → Labelled db' naming) : m.Stands domain db' := by
  constructor
  · intro label hlabel
    obtain ⟨who, hwho, hlabelled⟩ := hstands.label label hlabel
    exact ⟨who, hwho, hkept _ hlabelled⟩
  · intro name hname
    obtain ⟨who, label, hwho, hlabelled, hunder⟩ := hstands.names name hname
    exact ⟨who, label, hwho, hkept _ hlabelled, hunder⟩

theorem Claimed.Stands.next
    (hexec : (site conf).exec task o choice state = some (answer, state'))
    (hstands : m.Stands domain (AppState.db state'.1)) :
    (m.next domain o answer).Stands domain (AppState.db state'.1) := by
  unfold Claimed.next
  split
  · refine ⟨fun label hlabel => ?_, fun name hname => ?_⟩
    · cases hlabel
    · cases hname
  · rename_i user label
    split
    · rename_i hasked
      obtain ⟨who, hwho, rfl⟩ := Option.map_eq_some_iff.mp hasked
      have hrun := exec_read hexec
      simp only [Database.run, Except.ok.injEq, Prod.mk.injEq] at hrun
      refine ⟨fun found hfound => ?_, hstands.names⟩
      cases hfound
      refine ⟨who, hwho, ?_⟩
      rw [← hrun.2]
      exact hrun.1
    · exact hstands
  · refine ⟨hstands.label, fun name hname => ?_⟩
    rcases List.mem_append.mp hname with htold | hbefore
    · obtain ⟨who, label, hwho, hlabelled, hunder, -⟩ := told_own hexec hstands htold
      exact ⟨who, label, hwho, hlabelled, hunder⟩
    · exact hstands.names name hbefore

namespace Order

theorem finds_who : (order.finds domain db).who = order.who := by
  unfold finds
  split <;> rfl

theorem finds_kept {name : String} (hname : name ∈ order.names) :
    name ∈ (order.finds domain db).names := by
  unfold finds
  split
  · exact List.mem_append_right _ hname
  · exact hname

theorem finds_own {name : String} {who : UserId × PubKey} (hwho : order.who = some who)
    (hname : name ∈ ownNames domain db who.1 who.2) :
    name ∈ (order.finds domain db).names := by
  unfold finds
  rw [hwho]
  exact List.mem_append_left _ hname

theorem Knows.next (hknows : order.Knows m)
    (hexec : (site conf).exec task o choice state = some (answer, state'))
    (hstands : m.Stands domain (AppState.db state'.1)) :
    ((order.authenticate o answer).finds domain (AppState.db state'.1)).Knows
      (m.next domain o answer) := by
  unfold Claimed.next
  split
  · exact ⟨finds_who, fun name hname => nomatch hname⟩
  · split
    · exact ⟨finds_who.trans hknows.who, fun name hname => finds_kept (hknows.names name hname)⟩
    · exact ⟨finds_who.trans hknows.who, fun name hname => finds_kept (hknows.names name hname)⟩
  · rename_i hnot _
    have hsame : order.authenticate o answer = order := by
      unfold authenticate
      split
      · exact (hnot _ _ rfl HEq.rfl).elim
      · rfl
    rw [hsame]
    refine ⟨finds_who.trans hknows.who, fun name hname => ?_⟩
    rcases List.mem_append.mp hname with htold | hbefore
    · obtain ⟨who, label, hwho, -, -, hown⟩ := told_own hexec hstands htold
      exact finds_own (hknows.who.trans hwho) hown
    · exact finds_kept (hknows.names name hbefore)

end Order

section

variable {h : Certificates} {views : Nat → Option ((site conf).Call × Option Claimed)}
  {call : (site conf).Call} {μ : Option Claimed}

theorem Certificates.writes_orders : (h.writes conf task db o answer).orders = h.orders := by
  unfold writes
  split
  · split <;> rfl
  · rfl

theorem CertificatesInv.writes (hinv : CertificatesInv h db views)
    (answer : (sig.sum zoneSig).Res o) (hview : views task = some (call, μ))
    (hallows : (Prog.within ZoneSide (Claimed.mon conf.domain)).allows μ o) :
    (h.writes conf task db o answer).foreign = false ∧
      ∀ entry ∈ (h.writes conf task db o answer).written, ∃ label,
        Labelled db (entry.1, label) ∧ Under conf.domain label entry.2 := by
  unfold Certificates.writes
  split
  · rename_i device records result
    cases μ with
    | none => exact hallows.elim
    | some m =>
        obtain ⟨hwho, hnamed⟩ : m.who.isSome ∧ ∀ record ∈ records, record.1 ∈ m.names := hallows
        obtain ⟨who, hwho⟩ := Option.isSome_iff_exists.mp hwho
        obtain ⟨order, horder, hknows⟩ := hinv.known.followed hview
        obtain ⟨found, names⟩ := order
        have hfound : found = some who := hknows.who.trans hwho
        subst hfound
        rw [horder]
        refine ⟨?_, fun entry hentry => ?_⟩
        · have hall : records.all (fun record => names.contains record.1) = true := by
            apply List.all_eq_true.mpr
            intro record hrecord
            exact List.contains_iff_mem.mpr (hknows.names _ (hnamed record hrecord))
          simp only [hinv.owned, hall, Bool.not_true, Bool.or_self]
        · rcases List.mem_append.mp hentry with hnew | hbefore
          · obtain ⟨record, hrecord, rfl⟩ := List.mem_map.mp hnew
            obtain ⟨who', label, hwho', hlabelled, hunder⟩ :=
              (hinv.stands task call m hview).names _ (hnamed record hrecord)
            rw [hwho] at hwho'
            cases hwho'
            exact ⟨label, hlabelled, hunder⟩
          · exact hinv.written entry hbefore
  · exact ⟨hinv.owned, hinv.written⟩

theorem CertificatesInv.did (hinv : CertificatesInv h (AppState.db state.1) views)
    (hview : views task = some (call, μ))
    (hallows : (Prog.within ZoneSide (Claimed.mon conf.domain)).allows μ o)
    (hexec : (site conf).exec task o choice state = some (answer, state')) :
    CertificatesInv ((certificates conf).see h state (.did task o answer) state')
      (AppState.db state'.1) (Function.update views task
        (some (call, (Prog.within ZoneSide (Claimed.mon conf.domain)).next μ o answer))) := by
  have hinsert : ∀ user label, o = .inl (.store (.insertUserLabel user label)) →
      isPlainLabel label = true := by
    rintro user label rfl
    cases μ with
    | none => exact hallows
    | some m => exact hallows.elim
  obtain ⟨hplain, hkept⟩ := exec_labels hexec hinv.plain hinsert
  obtain ⟨howned, hwritten⟩ := hinv.writes answer hview hallows
  have hstands : ∀ m, μ = some m → m.Stands conf.domain (AppState.db state'.1) := by
    rintro m rfl
    exact (hinv.stands task call m hview).kept hkept
  constructor
  · exact howned
  · exact hplain
  · show Machine.Shadows Order.Knows (((h.writes conf task _ o answer).orders).modify task _) _
    rw [Certificates.writes_orders]
    exact hinv.known.advance hview fun order m hm hknows => hknows.next hexec (hstands m hm)
  · intro other call' m hother
    rcases Machine.update_some_cases hother with ⟨rfl, heq⟩ | ⟨_, hother⟩
    · obtain ⟨rfl, hmap⟩ := Prod.mk.inj heq
      obtain ⟨before, rfl, rfl⟩ := Option.map_eq_some_iff.mp hmap.symm
      exact (hstands before rfl).next hexec
    · exact (hinv.stands other call' m hother).kept hkept
  · intro entry hentry
    obtain ⟨label, hlabelled, hunder⟩ := hwritten entry hentry
    exact ⟨label, hkept _ hlabelled, hunder⟩

theorem CertificatesInv.called (hinv : CertificatesInv h db views) (hfree : views task = none) :
    CertificatesInv ((certificates conf).see h state (.called task call) state) db
      (Function.update views task (some (call, claimedOf call))) := by
  have hignored : ∀ call : (site conf).Call, CertificatesInv h db
      (Function.update views task (some (call, none))) := by
    intro call
    refine ⟨hinv.owned, hinv.plain, hinv.known.ignore hfree, ?_, hinv.written⟩
    intro other call' m hother
    rcases Machine.update_some_cases hother with ⟨rfl, heq⟩ | ⟨_, hother⟩
    · cases heq
    · exact hinv.stands other call' m hother
  rcases call with call | ⟨req⟩ | ⟨req⟩
  · exact hignored _
  · refine ⟨hinv.owned, hinv.plain, hinv.known.begin ⟨rfl, fun name hname => nomatch hname⟩, ?_,
      hinv.written⟩
    intro other call' m hother
    rcases Machine.update_some_cases hother with ⟨rfl, heq⟩ | ⟨_, hother⟩
    · cases heq
      exact ⟨fun label hlabel => (nomatch hlabel), fun name hname => nomatch hname⟩
    · exact hinv.stands other call' m hother
  · exact hignored _

theorem CertificatesInv.gone (hinv : CertificatesInv h db views) :
    CertificatesInv (h.gone task) db (Function.update views task none) := by
  refine ⟨hinv.owned, hinv.plain, hinv.known.forget, ?_, hinv.written⟩
  intro other call m hother
  exact hinv.stands other call m (Machine.update_none_cases hother).2

end

end

def certificateDiscipline :
    Machine.Discipline (site conf) (certificates conf) Machine.free (Option Claimed) where
  mon := Prog.within ZoneSide (Claimed.mon conf.domain)
  opening := fun _ _ call => claimedOf call
  post := fun _ _ _ => True
  inv := fun h state views => CertificatesInv h (AppState.db state.1) views
  conforms := fun _ _ call => site_conforms call
  called := fun hinv hfree _ => hinv.called hfree
  did := fun hinv hview hallows hexec _ =>
    ⟨by cases ‹Option Claimed› <;> trivial, hinv.did hview hallows hexec⟩
  ended := fun hinv _ _ _ => hinv.gone
  dropped := fun hinv _ _ => hinv.gone
  moved := fun hinv hmove _ => by
    obtain ⟨moved, hmoved, rfl⟩ := Option.map_eq_some_iff.mp hmove
    show CertificatesInv _ (AppState.db moved) _
    rw [(AppState.move_untouched hmoved).db]
    exact hinv

/-- Every name a device writes at was its own at some moment of the request, and no two users
write at one name. -/
theorem challenge_names_owned {s₀ : (site conf).State} {c : (site conf).Config}
    {h : Certificates} (hplain : PlainLabels (AppState.db s₀.1))
    (hreach : Machine.Reach (certificates conf) Machine.free ((site conf).idle s₀) {} c h) :
    h.foreign = false ∧ ∀ first ∈ h.written, ∀ second ∈ h.written, first.2 = second.2 →
      first.1 = second.1 := by
  have hstart : CertificatesInv {} (AppState.db s₀.1)
      (fun _ => none : Nat → Option ((site conf).Call × Option Claimed)) := by
    refine ⟨rfl, hplain, fun task => by simp, ?_, ?_⟩
    · intro task call m hview
      cases hview
    · intro entry hentry
      cases hentry
  obtain ⟨views, _, hinv⟩ := (certificateDiscipline conf).run hstart hreach
  refine ⟨hinv.owned, fun first hfirst second hsecond hname => ?_⟩
  obtain ⟨label, hlabelled, hunder⟩ := hinv.written first hfirst
  obtain ⟨label', hlabelled', hunder'⟩ := hinv.written second hsecond
  rw [hname] at hunder
  have hsame : label = label' :=
    hunder.unique hunder' (hinv.plain _ _ hlabelled) (hinv.plain _ _ hlabelled')
  exact UniqueTable.key_unique hlabelled hlabelled' hsame

def Conf.certifying : Conf :=
  { Conf.small with dnsDomain := some "mesh.example.com" }

def primaryPc : AppState where
  db :=
    { devices :=
        { table :=
            ((∅ : Table PubKey DeviceRow).insert 1 ⟨0, 1, "pc", some "pc-token", none, false⟩).insert
              2 ⟨1, 1, "pad", some "pad-token", none, false⟩
          indexNodup := by decide }
      userLabels := { table := (∅ : Table UserId String).insert 1 "ann", indexNodup := by decide }
      primaryDevice := (∅ : Table UserId PubKey).insert 1 1 }

def certifyingSite : (site Conf.certifying).State :=
  (primaryPc, ChallengeStore.new 10)

theorem certifyingSite_plain : PlainLabels (AppState.db certifyingSite.1) := by
  intro user label hlabel
  have hcases : (if user = 1 then some "ann" else (∅ : Table UserId String).get? user) =
      some label := (Table.get?_insert ..).symm.trans hlabel
  split at hcases
  · cases hcases
    decide
  · cases hcases

def aliasOrder : AcmeChallengeReq where
  token := "pc-token"
  device := ["own"]
  primary := some "bare"

def movedPrimary : List (site Conf.certifying).Label :=
  .call (.inr (.acmeChallenge aliasOrder)) :: List.replicate 5 (.step 0 .go) ++
    .call (.inl (.manage ⟨"pad-token", .setPrimary "pad"⟩)) :: List.replicate 3 (.step 1 .go) ++
    [.step 0 .go]

theorem movedPrimary_written :
    ∃ c h, Machine.Reach (certificates Conf.certifying) Machine.free
        ((site Conf.certifying).idle certifyingSite) {} c h ∧
      (1, "_acme-challenge.ann.mesh.example.com") ∈ h.written ∧ h.stale = true := by
  have hplay : (Machine.play (certificates Conf.certifying) (fun _ _ _ => true)
      ((site Conf.certifying).idle certifyingSite) {} movedPrimary).any (fun last =>
        last.2.written.contains (1, "_acme-challenge.ann.mesh.example.com") &&
          last.2.stale) = true := by
    decide
  have hrun : ∃ c h, Machine.Reach (certificates Conf.certifying) Machine.free
      ((site Conf.certifying).idle certifyingSite) {} c h ∧
        (h.written.contains (1, "_acme-challenge.ann.mesh.example.com") && h.stale) = true :=
    Machine.reach_of_play (fun _ _ _ _ => trivial) hplay
  obtain ⟨c, h, hreach, hlast⟩ := hrun
  rw [Bool.and_eq_true, List.contains_iff_mem] at hlast
  exact ⟨c, h, hreach, hlast⟩

/-- What an order read may no longer be so when it writes. -/
theorem challenge_name_stale :
    ¬ ∀ (conf : Conf) (s₀ : (site conf).State) (c : (site conf).Config) (h : Certificates),
      PlainLabels (AppState.db s₀.1) →
      Machine.Reach (certificates conf) Machine.free ((site conf).idle s₀) {} c h →
      h.stale = false := by
  intro hclaim
  obtain ⟨c, h, hreach, -, hstale⟩ := movedPrimary_written
  rw [hclaim _ _ c h certifyingSite_plain hreach] at hstale
  cases hstale

theorem challenge_names_owned_pc :
    ∃ c h, Machine.Reach (certificates Conf.certifying) Machine.free
        ((site Conf.certifying).idle certifyingSite) {} c h ∧
      (1, "_acme-challenge.ann.mesh.example.com") ∈ h.written ∧ h.foreign = false ∧
        ∀ first ∈ h.written, ∀ second ∈ h.written, first.2 = second.2 → first.1 = second.1 := by
  obtain ⟨c, h, hreach, hwritten, -⟩ := movedPrimary_written
  exact ⟨c, h, hreach, hwritten, challenge_names_owned _ certifyingSite_plain hreach⟩

end UnityLan.Coordinator
