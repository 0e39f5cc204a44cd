import UnityLan.Coordinator.Telling

namespace UnityLan.Coordinator

open UnityLan.Foundation Prog

/-! The names users are attested under: the labels the store allocated. -/

def Labelled (db : Database) (naming : Naming) : Prop :=
  db.userLabels.get? naming.1 = some naming.2

/-- A coordinator that has just started has its database, and nothing in memory. -/
def AppState.restarted (st : AppState) : AppState where
  db := st.db
  discord := st.discord
  oauth := st.oauth
  now := st.now
  instant := st.instant

/-- The names a run put into attestations, and the labels it allocated. -/
structure Usernames where
  attested : List Naming := []
  allocated : List Naming := []

namespace Usernames

def attest (g : Usernames) (atts : List Attestation) : Usernames :=
  { g with attested := atts.map attestationNaming ++ g.attested }

def allocate (g : Usernames) (naming : Naming) : Usernames :=
  { g with allocated := naming :: g.allocated }

def note (g : Usernames) : (o : Op) → o.Res → Usernames
  | .signing (.keep _ _ _ _ blob), _ => g.attest [Coordinator.attested blob]
  | .store (.insertUserLabel user label), .ok _ => g.allocate (user, label)
  | _, _ => g

end Usernames

variable (conf : Conf)

/-- Watch what is kept in the sign cache, what registers are answered, and the labels. -/
def usernames : Machine.Observer (machine conf) Usernames where
  see := fun g _ event _ =>
    match event with
    | .did _ o answer => g.note o answer
    | .ended _ (.register ..) (.ok (.registered resp)) => g.attest (allAttested resp)
    | _ => g

/-- A handle is asked for only of users it was stored for, or whose label is the one
made of their id. -/
def handleKnown (_ : Usernames) (st : AppState) : (machine conf).Event → Bool
  | .did _ (.store (.userHandle user)) _ =>
      (st.db.userHandles.get? user).isSome || st.db.userLabels.get? user == some s!"user-{user}"
  | _ => true

/-! What one operation does to the labels, the rows, the memo and the sign cache. -/

variable {conf}

theorem Database.run_label {db db' : Database} {q : Query} {answer : q.Res} {naming : Naming}
    (hrun : db.run q = .ok (answer, db')) (hlabelled : Labelled db naming) :
    Labelled db' naming := by
  by_cases hwrites : Database.writes q = some .userLabels
  · cases q <;> try (cases hwrites; done)
    case insertUserLabel user label =>
      obtain ⟨hfresh, hget⟩ := Database.run_insertUserLabel hrun
      have hother : naming.1 ≠ user := by
        intro hsame
        rw [Labelled, hsame, hfresh] at hlabelled
        cases hlabelled
      exact (hget naming.1).trans ((if_neg hother).trans hlabelled)
  · rw [Labelled, (Database.run_frame hrun).userLabels hwrites]
    exact hlabelled

def Presence.Op.written : Presence.Op → Option MemberPresence
  | .record _ _ p _ _ => some p
  | .recordSelf _ p _ _ => some p
  | _ => none

theorem recordIn_source {κ : Type} [DecidableEq κ] {map : Table κ PresenceEntry} {key other : κ}
    {p row : MemberPresence} {clientVersion : String} {now : Nat}
    (hrow : ((recordIn map key p clientVersion now).2.get? other).map (·.p) = some row) :
    (map.get? other).map (·.p) = some row ∨ p = row := by
  simp only [recordIn, Table.get?_insert] at hrow
  split at hrow
  · exact .inr (Option.some.inj hrow)
  · exact .inl hrow

theorem filter_source {κ : Type} [DecidableEq κ] {map : Table κ PresenceEntry} {key : κ}
    {keep : κ → PresenceEntry → Bool} {row : MemberPresence}
    (hrow : ((map.retain keep).get? key).map (·.p) = some row) :
    (map.get? key).map (·.p) = some row := by
  rw [Table.get?_retain] at hrow
  obtain ⟨entry, hentry, rfl⟩ := Option.map_eq_some_iff.mp hrow
  rw [(Option.filter_eq_some_iff.mp hentry).1]
  rfl

theorem Presence.rowAt_source {presence : Presence} {o : Presence.Op} {place : Place}
    {pubkey : PubKey} {row : MemberPresence}
    (hrow : (presence.step o).2.rowAt place pubkey = some row) :
    presence.rowAt place pubkey = some row ∨ o.written = some row := by
  cases o with
  | record guild role p clientVersion now =>
      cases place with
      | network g r => exact (recordIn_source hrow).imp_right (congrArg some)
      | own user => exact .inl hrow
  | recordSelf user p clientVersion now =>
      cases place with
      | network g r => exact .inl hrow
      | own user => exact (recordIn_source hrow).imp_right (congrArg some)
  | evict guild role key =>
      cases place with
      | network g r => exact .inl (filter_source hrow)
      | own user => exact .inl hrow
  | evictSelf user key =>
      cases place with
      | network g r => exact .inl hrow
      | own user => exact .inl (filter_source hrow)
  | evictUser guild role user =>
      cases place with
      | network g r => exact .inl (filter_source hrow)
      | own user => exact .inl hrow
  | reapMap now maxAge =>
      cases place with
      | network g r => exact .inl (filter_source hrow)
      | own user => exact .inl hrow
  | reapSelf now maxAge =>
      cases place with
      | network g r => exact .inl hrow
      | own user => exact .inl (filter_source hrow)
  | _ => exact .inl hrow

/-- Every entry attests what it was kept as; it does not know for which user. -/
def CacheFaithful (signing : Signing) : Prop :=
  ∀ key e, signing.map.get? key = some e → Said.ofAttestation (attested e.blob) =
    ⟨key.2.1, (attested e.blob).userId, e.username, e.deviceName, e.isPrimary⟩

theorem Signing.map_source {signing : Signing} {reuseSecs : Nat} {o : Signing.Op}
    {key : GuildId × PubKey × Nat} {e : CachedAtt}
    (hentry : (signing.step reuseSecs o).2.map.get? key = some e) :
    signing.map.get? key = some e ∨ ∃ guild id now schema, o = .keep guild id now schema e.blob ∧
      key = (guild, id.pubkey, schema) ∧ e.username = id.username ∧
      e.deviceName = id.deviceName ∧ e.isPrimary = id.isPrimary ∧ e.ip = id.ip := by
  cases o with
  | keep guild id now schema blob =>
      simp only [Signing.step, Signing.keep, Table.get?_insert] at hentry
      split at hentry
      · rename_i hkey
        cases hentry
        exact .inr ⟨guild, id, now, schema, rfl, hkey, rfl, rfl, rfl, rfl⟩
      · left
        split at hentry
        · rw [Table.get?_retain] at hentry
          exact (Option.filter_eq_some_iff.mp hentry).1
        · exact hentry
  | _ => exact .inl hentry

theorem Signing.fresh_entry {signing : Signing} {reuseSecs : Nat} {guild : GuildId}
    {id : AttIdentity} {now schema : Nat} {blob : AttestationBlob}
    (hhit : signing.fresh reuseSecs guild id now schema = some blob) :
    ∃ e, signing.map.get? (guild, id.pubkey, schema) = some e ∧ e.blob = blob ∧
      e.username = id.username ∧ e.deviceName = id.deviceName ∧ e.isPrimary = id.isPrimary ∧
      e.ip = id.ip := by
  unfold Signing.fresh at hhit
  split at hhit
  · cases hhit
  · rename_i e hentry
    split at hhit
    · rename_i hsame
      obtain ⟨_, hip, hprimary, husername, hname⟩ := hsame
      exact ⟨e, hentry, Option.some.inj hhit, husername, hname, hprimary, hip⟩
    · cases hhit

theorem CacheFaithful.hit {signing : Signing} {reuseSecs : Nat} {guild : GuildId}
    {id : AttIdentity} {now schema : Nat} {blob : AttestationBlob}
    (hfaithful : CacheFaithful signing)
    (hhit : signing.fresh reuseSecs guild id now schema = some blob)
    (huser : (attested blob).userId = id.userId) :
    Said.ofAttestation (attested blob) = .ofIdentity id := by
  obtain ⟨e, hentry, rfl, husername, hname, hprimary, _⟩ := Signing.fresh_entry hhit
  rw [hfaithful _ e hentry, huser, husername, hname, hprimary]
  rfl

section

variable {task : Nat} {choice : Choice} {st st' : AppState}

theorem AppState.exec_memo {o : Op} {answer : o.Res} {user : UserId} {label : String}
    (hexec : AppState.exec conf task o choice st = some (answer, st'))
    (hmemo : st'.userLabels.get? user = some label) :
    st.userLabels.get? user = some label ∨ o = .keepLabel user label := by
  cases o
  case keepLabel owner name =>
    cases hexec
    simp only [Table.get?_insert] at hmemo
    split at hmemo
    · rename_i hsame
      cases hmemo
      exact .inr (hsame ▸ rfl)
    · exact .inl hmemo
  all_goals
    left
    simp only [AppState.exec] at hexec
    (repeat' split at hexec) <;> first
      | (cases hexec; exact hmemo)
      | cases hexec

theorem AppState.exec_labelled {o : Op} {answer : o.Res} {naming : Naming}
    (hexec : AppState.exec conf task o choice st = some (answer, st'))
    (hlabelled : Labelled st.db naming) : Labelled st'.db naming := by
  by_cases hstore : ∃ q, o = .store q
  · obtain ⟨q, rfl⟩ := hstore
    have hstep := AppState.exec_store hexec
    cases answer with
    | ok answer => exact Database.run_label (Database.step_ok hstep).2 hlabelled
    | error error =>
        rw [Database.step_error hstep]
        exact hlabelled
  · rw [(AppState.exec_frame hexec).db fun q hq => hstore ⟨q, hq⟩]
    exact hlabelled

theorem CacheFaithful.step {m : Option Telling} {o : Op} {answer : o.Res}
    (hfaithful : CacheFaithful st.signing) (hallows : tellings.allows m o)
    (hexec : AppState.exec conf task o choice st = some (answer, st')) :
    CacheFaithful st'.signing := by
  by_cases hsigning : ∃ s, o = .signing s
  · obtain ⟨s, rfl⟩ := hsigning
    have hafter : st'.signing = (st.signing.step (signCacheReuseSecs conf.attestationTtl) s).2 :=
      (congrArg Prod.snd (AppState.exec_signing hexec)).symm
    intro key e hentry
    rw [hafter] at hentry
    rcases Signing.map_source hentry with hbefore | hkept
    · exact hfaithful key e hbefore
    · obtain ⟨guild, id, now, schema, rfl, rfl, husername, hname, hprimary, _⟩ := hkept
      cases m with
      | none => exact hallows.elim
      | some t =>
          have hsaid : Said.ofAttestation (attested e.blob) = .ofIdentity id := hallows.1
          have huser : (attested e.blob).userId = id.userId := congrArg Said.userId hsaid
          rw [hsaid, huser, husername, hname, hprimary]
          rfl
  · rw [(AppState.exec_frame hexec).signing fun s hs => hsigning ⟨s, hs⟩]
    exact hfaithful

end

/-! The invariant: every name that is known anywhere is the label of its user. -/

def teaches : (o : Op) → o.Res → List Naming
  | .store (.userLabel user), .ok (some label) => [(user, label)]
  | .store (.insertUserLabel user label), .ok _ => [(user, label)]
  | .store (.userHandle user), .ok none => [(user, s!"user-{user}")]
  | .knownLabel user, some label => [(user, label)]
  | .keepLabel user label, _ => [(user, label)]
  | .presence (.othersIn ..), rows => rows.map (·.naming)
  | .presence (.othersOfUser ..), rows => rows.map (·.naming)
  | _, _ => []

theorem labels_next {t : Telling} {o : Op} {answer : o.Res} {naming : Naming}
    (hmem : naming ∈ (t.next o answer).labels) : naming ∈ t.labels ∨ naming ∈ teaches o answer := by
  unfold Telling.next at hmem
  split at hmem
  · cases hmem
  · cases hmem
  · unfold Telling.ran at hmem
    split at hmem
    · split at hmem <;> exact .inl hmem
    · split at hmem <;> exact .inl hmem
    · split at hmem <;> exact .inl hmem
    · exact (List.mem_cons.mp hmem).symm.imp_right List.mem_singleton.mpr
    · exact (List.mem_cons.mp hmem).symm.imp_right List.mem_singleton.mpr
    · exact (List.mem_cons.mp hmem).symm.imp_right List.mem_singleton.mpr
    · exact .inl hmem
  · exact (List.mem_cons.mp hmem).symm.imp_right List.mem_singleton.mpr
  · exact (List.mem_cons.mp hmem).symm.imp_right List.mem_singleton.mpr
  · exact List.mem_append.mp hmem
  · exact List.mem_append.mp hmem
  · exact .inl hmem

structure NamesSound (st : AppState) : Prop where
  rows : ∀ place pubkey p, st.presence.rowAt place pubkey = some p → Labelled st.db p.naming
  memo : ∀ user label, st.userLabels.get? user = some label → Labelled st.db (user, label)
  cached : ∀ key e, st.signing.map.get? key = some e →
    Labelled st.db (attestationNaming (attested e.blob))
  faithful : CacheFaithful st.signing

structure UsernamesInv (g : Usernames) (st : AppState)
    (views : Nat → Option (Call × Option Telling)) : Prop where
  sound : NamesSound st
  told : ∀ task call t, views task = some (call, some t) →
    ∀ naming ∈ t.labels, Labelled st.db naming
  attested : ∀ naming ∈ g.attested, Labelled st.db naming
  allocated : ∀ naming ∈ g.allocated, Labelled st.db naming

section

variable {g : Usernames} {st st' : AppState} {task : Nat} {call : Call} {choice : Choice}
  {views : Nat → Option (Call × Option Telling)} {m : Option Telling} {o : Op} {answer : o.Res}

theorem othersAt_labelled (hsound : NamesSound st) {place : Place} {exclude : PubKey}
    {naming : Naming} (hmem : naming ∈ (st.presence.othersAt place exclude).map (·.naming)) :
    Labelled st.db naming := by
  obtain ⟨p, hp, rfl⟩ := List.mem_map.mp hmem
  obtain ⟨pubkey, _, hrow⟩ := Presence.mem_othersAt.mp hp
  exact hsound.rows place pubkey p hrow

theorem keeps_labelled {user : UserId} {label : String}
    (hknown : ∀ t, m = some t → ∀ naming ∈ t.labels, Labelled st.db naming)
    (hallows : tellings.allows m (.keepLabel user label)) : Labelled st.db (user, label) := by
  cases m with
  | none => exact hallows.elim
  | some t => exact hknown t rfl _ hallows

theorem NamesSound.teaches (hsound : NamesSound st)
    (hexec : AppState.exec conf task o choice st = some (answer, st'))
    (hallowed : handleKnown conf g st (.did task o answer) = true)
    (hknown : ∀ t, m = some t → ∀ naming ∈ t.labels, Labelled st.db naming)
    (hallows : tellings.allows m o) {naming : Naming} (hmem : naming ∈ teaches o answer) :
    Labelled st'.db naming := by
  unfold Coordinator.teaches at hmem
  split at hmem
  · rename_i user label
    obtain rfl := List.mem_singleton.mp hmem
    have hrun := (Database.step_ok (AppState.exec_store hexec)).2
    simp only [Database.run, Except.ok.injEq, Prod.mk.injEq] at hrun
    rw [← hrun.2]
    exact hrun.1
  · rename_i user label _
    obtain rfl := List.mem_singleton.mp hmem
    have hrun := (Database.step_ok (AppState.exec_store hexec)).2
    exact ((Database.run_insertUserLabel hrun).2 user).trans (if_pos rfl)
  · rename_i user
    obtain rfl := List.mem_singleton.mp hmem
    have hrun := (Database.step_ok (AppState.exec_store hexec)).2
    simp only [Database.run, Except.ok.injEq, Prod.mk.injEq] at hrun
    rw [← hrun.2]
    have hlabel : st.db.userLabels.get? user = some s!"user-{user}" := by
      simpa [handleKnown, hrun.1] using hallowed
    exact hlabel
  · rename_i user label
    obtain rfl := List.mem_singleton.mp hmem
    simp only [AppState.exec, Option.some.injEq, Prod.mk.injEq] at hexec
    rw [← hexec.2]
    exact hsound.memo user label hexec.1
  · rename_i user label _
    obtain rfl := List.mem_singleton.mp hmem
    exact AppState.exec_labelled hexec (keeps_labelled hknown hallows)
  · rename_i guild role exclude rows
    have hrows : rows = st.presence.othersAt (.network guild role) exclude :=
      (congrArg Prod.fst (AppState.exec_presence hexec)).symm
    subst hrows
    exact AppState.exec_labelled hexec (othersAt_labelled hsound hmem)
  · rename_i user exclude rows
    have hrows : rows = st.presence.othersAt (.own user) exclude :=
      (congrArg Prod.fst (AppState.exec_presence hexec)).symm
    subst hrows
    exact AppState.exec_labelled hexec (othersAt_labelled hsound hmem)
  · cases hmem

theorem writes_labelled {p : Presence.Op} {row : MemberPresence}
    (hknown : ∀ t, m = some t → ∀ naming ∈ t.labels, Labelled st.db naming)
    (hallows : tellings.allows m (.presence p)) (hwritten : p.written = some row) :
    Labelled st.db row.naming := by
  unfold Presence.Op.written at hwritten
  split at hwritten
  · cases hwritten
    cases m with
    | none => exact hallows.elim
    | some t => exact hknown t rfl _ hallows.2
  · cases hwritten
    cases m with
    | none => exact hallows.elim
    | some t => exact hknown t rfl _ hallows.2
  · cases hwritten

theorem kept_labelled {guild : GuildId} {id : AttIdentity} {now schema : Nat}
    {blob : AttestationBlob}
    (hknown : ∀ t, m = some t → ∀ naming ∈ t.labels, Labelled st.db naming)
    (hallows : tellings.allows m (.signing (.keep guild id now schema blob))) :
    Labelled st.db (attestationNaming (attested blob)) := by
  cases m with
  | none => exact hallows.elim
  | some t =>
      rw [naming_of_said hallows.1]
      exact hknown t rfl _ hallows.2

theorem NamesSound.step (hsound : NamesSound st)
    (hexec : AppState.exec conf task o choice st = some (answer, st'))
    (hknown : ∀ t, m = some t → ∀ naming ∈ t.labels, Labelled st.db naming)
    (hallows : tellings.allows m o) : NamesSound st' := by
  have hframe := AppState.exec_frame hexec
  constructor
  · intro place pubkey row hrow
    apply AppState.exec_labelled hexec
    by_cases hpresence : ∃ p, o = .presence p
    · obtain ⟨p, rfl⟩ := hpresence
      have hafter : st'.presence = (st.presence.step p).2 :=
        (congrArg Prod.snd (AppState.exec_presence hexec)).symm
      rw [hafter] at hrow
      rcases Presence.rowAt_source hrow with hbefore | hwritten
      · exact hsound.rows place pubkey row hbefore
      · exact writes_labelled hknown hallows hwritten
    · rw [hframe.presence fun p hp => hpresence ⟨p, hp⟩] at hrow
      exact hsound.rows place pubkey row hrow
  · intro user label hmemo
    apply AppState.exec_labelled hexec
    rcases AppState.exec_memo hexec hmemo with hbefore | rfl
    · exact hsound.memo user label hbefore
    · exact keeps_labelled hknown hallows
  · intro key e hentry
    apply AppState.exec_labelled hexec
    by_cases hsigning : ∃ s, o = .signing s
    · obtain ⟨s, rfl⟩ := hsigning
      have hafter : st'.signing =
          (st.signing.step (signCacheReuseSecs conf.attestationTtl) s).2 :=
        (congrArg Prod.snd (AppState.exec_signing hexec)).symm
      rw [hafter] at hentry
      rcases Signing.map_source hentry with hbefore | hkept
      · exact hsound.cached key e hbefore
      · obtain ⟨guild, id, now, schema, rfl, _⟩ := hkept
        exact kept_labelled hknown hallows
    · rw [hframe.signing fun s hs => hsigning ⟨s, hs⟩] at hentry
      exact hsound.cached key e hentry
  · exact hsound.faithful.step hallows hexec

theorem NamesSound.expects (hsound : NamesSound st)
    (hexec : AppState.exec conf task o choice st = some (answer, st'))
    (hknown : ∀ t, m = some t → ∀ naming ∈ t.labels, Labelled st.db naming)
    (hallows : tellings.allows m o) : tellings.expects m o answer := by
  cases m with
  | none => trivial
  | some t =>
      show Telling.expects t o answer
      unfold Telling.expects
      split
      · rename_i guild id now schema blob
        have hhit := congrArg Prod.fst (AppState.exec_signing hexec)
        obtain ⟨e, hentry, rfl, husername, _⟩ := Signing.fresh_entry hhit
        refine hsound.faithful.hit hhit ?_
        have hasked : Labelled st.db (id.userId, id.username) := hknown t rfl _ hallows
        have hkept : Labelled st.db (attestationNaming (attested e.blob)) :=
          hsound.cached _ e hentry
        have hname : (attested e.blob).username = id.username :=
          (congrArg Said.username (hsound.faithful _ e hentry)).trans husername
        exact UniqueTable.key_unique hkept hasked hname
      · trivial

theorem UsernamesInv.knows (hinv : UsernamesInv g st views) (hview : views task = some (call, m)) :
    ∀ t, m = some t → ∀ naming ∈ t.labels, Labelled st.db naming := by
  rintro t rfl
  exact hinv.told task call t hview

theorem UsernamesInv.did (hinv : UsernamesInv g st views) (hview : views task = some (call, m))
    (hallows : tellings.allows m o)
    (hexec : AppState.exec conf task o choice st = some (answer, st'))
    (hallowed : handleKnown conf g st (.did task o answer) = true) :
    UsernamesInv ((usernames conf).see g st (.did task o answer) st') st'
      (Function.update views task (some (call, tellings.next m o answer))) := by
  have hknown := hinv.knows hview
  have hkept : ∀ naming, Labelled st.db naming → Labelled st'.db naming :=
    fun _ => AppState.exec_labelled hexec
  have htaught : ∀ naming ∈ teaches o answer, Labelled st'.db naming :=
    fun naming => hinv.sound.teaches hexec hallowed hknown hallows
  constructor
  · exact hinv.sound.step hexec hknown hallows
  · intro other call' t hother naming hmem
    rcases Machine.update_some_cases hother with ⟨rfl, heq⟩ | ⟨_, hother⟩
    · obtain ⟨rfl, hmap⟩ := Prod.mk.inj heq
      obtain ⟨before, rfl, rfl⟩ := Option.map_eq_some_iff.mp hmap.symm
      rcases labels_next hmem with hmem | hmem
      · exact hkept naming (hinv.told other _ before hview naming hmem)
      · exact htaught naming hmem
    · exact hkept naming (hinv.told other call' t hother naming hmem)
  · show ∀ naming ∈ (g.note o answer).attested, Labelled st'.db naming
    unfold Usernames.note
    split
    · intro naming hmem
      rcases List.mem_append.mp hmem with hmem | hmem
      · obtain rfl := List.mem_singleton.mp hmem
        exact hkept _ (kept_labelled hknown hallows)
      · exact hkept naming (hinv.attested naming hmem)
    · exact fun naming hmem => hkept naming (hinv.attested naming hmem)
    · exact fun naming hmem => hkept naming (hinv.attested naming hmem)
  · show ∀ naming ∈ (g.note o answer).allocated, Labelled st'.db naming
    unfold Usernames.note
    split
    · exact fun naming hmem => hkept naming (hinv.allocated naming hmem)
    · intro naming hmem
      rcases List.mem_cons.mp hmem with rfl | hmem
      · exact htaught _ (List.mem_singleton_self _)
      · exact hkept naming (hinv.allocated naming hmem)
    · exact fun naming hmem => hkept naming (hinv.allocated naming hmem)

theorem UsernamesInv.called (hinv : UsernamesInv g st views) :
    UsernamesInv g st (Function.update views task (some (call, tellingOf call))) := by
  constructor
  · exact hinv.sound
  · intro other call' t hother naming hmem
    rcases Machine.update_some_cases hother with ⟨rfl, heq⟩ | ⟨_, hother⟩
    · obtain ⟨rfl, htelling⟩ := Prod.mk.inj heq
      unfold tellingOf at htelling
      split at htelling
      · cases htelling
        cases hmem
      · cases htelling
    · exact hinv.told other call' t hother naming hmem
  · exact hinv.attested
  · exact hinv.allocated

theorem UsernamesInv.gone (hinv : UsernamesInv g st views) :
    UsernamesInv g (AppState.release task st) (Function.update views task none) := by
  constructor
  · exact ⟨hinv.sound.rows, hinv.sound.memo, hinv.sound.cached, hinv.sound.faithful⟩
  · intro other call' t hother
    exact hinv.told other call' t (Machine.update_none_cases hother).2
  · exact hinv.attested
  · exact hinv.allocated

theorem UsernamesInv.ended {result : Except ApiError Reply} (hinv : UsernamesInv g st views)
    (hview : views task = some (call, m)) (hpost : toldPost call m result) :
    UsernamesInv ((usernames conf).see g st (.ended task call result) (AppState.release task st))
      (AppState.release task st) (Function.update views task none) := by
  have hgone : UsernamesInv g (AppState.release task st) (Function.update views task none) :=
    hinv.gone
  cases call with
  | register req callerIp =>
      rcases result with error | reply
      · exact hgone
      · cases reply with
        | registered resp =>
            obtain ⟨t, rfl, hvouched⟩ := hpost
            refine ⟨hgone.sound, hgone.told, fun naming hmem => ?_, hgone.allocated⟩
            rcases List.mem_append.mp hmem with hmem | hmem
            · obtain ⟨att, hatt, rfl⟩ := List.mem_map.mp hmem
              exact hinv.told task _ t hview _ (hvouched att hatt).1
            · exact hinv.attested naming hmem
        | _ => exact hgone
  | _ => exact hgone

theorem UsernamesInv.moved {world : World} (hinv : UsernamesInv g st views)
    (hmove : AppState.move world st = some st') : UsernamesInv g st' views := by
  have huntouched := AppState.move_untouched hmove
  have hmemo : st'.userLabels = st.userLabels := by
    cases world
    case clock now instant =>
      simp only [AppState.move] at hmove
      split at hmove <;> cases hmove
      rfl
    case member guild user roles =>
      cases hmove
      cases roles <;> rfl
    case accessToken token who =>
      cases hmove
      cases who <;> rfl
    all_goals
      cases hmove
      rfl
  have hsound : NamesSound st' := by
    constructor
    · rw [huntouched.presence, huntouched.db]
      exact hinv.sound.rows
    · rw [hmemo, huntouched.db]
      exact hinv.sound.memo
    · rw [huntouched.signing, huntouched.db]
      exact hinv.sound.cached
    · rw [huntouched.signing]
      exact hinv.sound.faithful
  refine ⟨hsound, ?_, ?_, ?_⟩
  · rw [huntouched.db]
    exact hinv.told
  · rw [huntouched.db]
    exact hinv.attested
  · rw [huntouched.db]
    exact hinv.allocated

end

variable (conf)

def usernamesDiscipline :
    Machine.Discipline (machine conf) (usernames conf) (Machine.passes (handleKnown conf))
      (Option Telling) where
  mon := tellings
  opening := fun _ _ call => tellingOf call
  post := fun call m result => toldPost call m result
  inv := fun g st views => UsernamesInv g st views
  conforms := fun _ _ call => handle_tells conf call
  called := fun hinv _ _ => hinv.called
  did := fun hinv hview hallows hexec hallowed =>
    ⟨hinv.sound.expects hexec (hinv.knows hview) hallows, hinv.did hview hallows hexec hallowed⟩
  ended := fun hinv hview hpost _ => hinv.ended hview hpost
  dropped := fun hinv _ _ => hinv.gone
  moved := fun hinv hmove _ => hinv.moved hmove

theorem restarted_inv (st₀ : AppState) :
    UsernamesInv { allocated := st₀.db.userLabels.table.rows } st₀.restarted fun _ => none := by
  refine ⟨⟨?_, ?_, ?_, ?_⟩, ?_, ?_, ?_⟩
  · intro place pubkey p hrow
    cases place <;> cases hrow
  · intro user label hmemo
    cases hmemo
  · intro key e hentry
    cases hentry
  · intro key e hentry
    cases hentry
  · intro task call t hview
    cases hview
  · intro naming hmem
    cases hmem
  · intro naming hmem
    exact Table.mem_rows.mp hmem

/-- Every name a user was attested under is its label, labels stay, and no two users were
attested under one name. -/
structure Usernames.Unique (g : Usernames) (db : Database) : Prop where
  attested : ∀ naming ∈ g.attested, db.userLabels.get? naming.1 = some naming.2
  allocated : ∀ naming ∈ g.allocated, db.userLabels.get? naming.1 = some naming.2
  unshared : ∀ first ∈ g.attested, ∀ second ∈ g.attested, first.2 = second.2 → first.1 = second.1

/-- As long as nobody needs the fallback name, names are unique and stay. -/
theorem usernames_unique {st₀ : AppState} {c : (machine conf).Config} {g : Usernames}
    (hreach : Machine.Reach (usernames conf) (Machine.passes (handleKnown conf))
      ((machine conf).idle st₀.restarted) { allocated := st₀.db.userLabels.table.rows } c g) :
    g.Unique c.shared.db := by
  obtain ⟨views, _, hinv⟩ := (usernamesDiscipline conf).run (restarted_inv st₀) hreach
  refine ⟨hinv.attested, hinv.allocated, fun first hfirst second hsecond hname => ?_⟩
  exact UniqueTable.key_unique (hinv.attested first hfirst) (hinv.attested second hsecond) hname

/-- User 1 has an enrollment key and was never asked for a handle; user 2 has logged in,
and its handle looks like the fallback name of user 1. -/
def handleLikeId : AppState where
  db :=
    { enrollmentKeys := (∅ : Table _ _).insert "key" ⟨1, none, none⟩
      oauthAuthorized := (∅ : Table _ _).insert 2 ⟨2, 0⟩
      userHandles := (∅ : Table _ _).insert 2 "user-1" }

open Script in
def keyEnrollment : Script Conf.small :=
  call (.register { personalDevice 1 "pc" with enrollmentKey := some "key" } (.v4 0)) ++
    steps 0 27 (.text "token") ++ steps 0 23 (.key 99)

open Script in
def bothUsers : Script Conf.small :=
  keyEnrollment ++ call (.register (personalDevice 2 "pad") (.v4 0)) ++ steps 1 46 (.text "other")

open Script in
def namedUser : Script Conf.small :=
  call (.register (personalDevice 2 "pad") (.v4 0)) ++ steps 0 28 (.text "token") ++
    steps 0 23 (.key 99)

/-- The fallback name of one user is the label of another. -/
theorem fallback_name_shared :
    ¬ ∀ c g, Machine.Reach (usernames Conf.small) Machine.free
      ((machine Conf.small).idle handleLikeId.restarted)
      { allocated := handleLikeId.db.userLabels.table.rows } c g → g.Unique c.shared.db := by
  intro hclaim
  have hplay : (Machine.play (usernames Conf.small) (fun _ _ _ => true)
      ((machine Conf.small).idle handleLikeId.restarted)
      { allocated := handleLikeId.db.userLabels.table.rows } bothUsers).any
        (fun last => last.2.attested.contains (1, "user-1") &&
          last.2.attested.contains (2, "user-1")) = true := by
    decide
  have hrun : ∃ c g, Machine.Reach (usernames Conf.small) Machine.free
      ((machine Conf.small).idle handleLikeId.restarted)
      { allocated := handleLikeId.db.userLabels.table.rows } c g ∧
        (g.attested.contains (1, "user-1") && g.attested.contains (2, "user-1")) = true :=
    Machine.reach_of_play (fun _ _ _ _ => trivial) hplay
  obtain ⟨c, g, hreach, hboth⟩ := hrun
  rw [Bool.and_eq_true, List.contains_iff_mem, List.contains_iff_mem] at hboth
  have hsame := (hclaim c g hreach).unshared _ hboth.1 _ hboth.2 rfl
  exact absurd hsame (by decide)

/-- A user with a stored handle is attested under its label. -/
theorem usernames_unique_handle :
    ∃ c g, Machine.Reach (usernames Conf.small) (Machine.passes (handleKnown Conf.small))
        ((machine Conf.small).idle handleLikeId.restarted)
        { allocated := handleLikeId.db.userLabels.table.rows } c g ∧
      (2, "user-1") ∈ g.attested ∧ g.Unique c.shared.db := by
  have hplay : (Machine.play (usernames Conf.small) (handleKnown Conf.small)
      ((machine Conf.small).idle handleLikeId.restarted)
      { allocated := handleLikeId.db.userLabels.table.rows } namedUser).any
        (fun last => last.2.attested.contains (2, "user-1")) = true := by
    decide
  have hrun : ∃ c g, Machine.Reach (usernames Conf.small)
      (Machine.passes (handleKnown Conf.small)) ((machine Conf.small).idle handleLikeId.restarted)
      { allocated := handleLikeId.db.userLabels.table.rows } c g ∧
        g.attested.contains (2, "user-1") = true :=
    Machine.reach_of_play (fun _ _ _ htest => htest) hplay
  obtain ⟨c, g, hreach, hattested⟩ := hrun
  exact ⟨c, g, hreach, List.contains_iff_mem.mp hattested, usernames_unique Conf.small hreach⟩

end UnityLan.Coordinator
