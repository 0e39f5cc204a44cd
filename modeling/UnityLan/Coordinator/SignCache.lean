import UnityLan.Coordinator.Footprint
import UnityLan.Coordinator.Machine

namespace UnityLan.Coordinator

open UnityLan.Foundation Prog

/-! The signature cache beside signing afresh: calls for attestations that interleave. -/

structure SignCall where
  guild : GuildId
  id : AttIdentity
  now : Nat
  schema : Nat
  deriving DecidableEq

variable (conf : Conf)

def signCalls : Machine sig where
  State := AppState
  Call := SignCall
  Err := StoreError
  Reply := AttestationBlob
  Choice := Choice
  World := World
  start := fun call => SignCache.attestation conf call.guild call.id call.now call.schema
  exec := AppState.exec conf
  suspends := Op.suspends
  release := AppState.release
  move := AppState.move

/-- The calls made so far. -/
def asking : (signCalls conf).Observer (List SignCall) where
  see := fun g _ event _ =>
    match event with
    | .called _ call => call :: g
    | _ => g

/-- The clock does not go back, and no call is made with a time that has not come. -/
def clocked (_ : List SignCall) (st : AppState) : (signCalls conf).Event → Bool
  | .called _ call => call.now ≤ st.now
  | .moved (.clock now _) => st.now ≤ now
  | _ => true

def signedAfresh (anchor : Anchor) (call : SignCall) (user : UserId) (time : Nat) : Attestation :=
  Signer.attestation ⟨anchor, call.guild, conf.wgNet, conf.attestationTtl⟩
    { call.id with userId := user } time

/-- The blob is what signing for the user gives the call, under the anchor of the guild and
in the layout of the call; it lives beyond the margin. -/
def AnswersFor (db : Database) (call : SignCall) (user : UserId) (blob : AttestationBlob) : Prop :=
  ∃ anchor time, db.guildSigningKeys.get? call.guild = some anchor ∧
    call.now < time + conf.attestationTtl ∧
    call.now + signCacheReuseSecs conf.attestationTtl ≤ time + conf.attestationTtl ∧
    ∀ later, later < time + conf.attestationTtl →
      verifyAttestation blob anchor later call.guild call.schema =
        .ok (signedAfresh conf anchor call user time)

/-- The two calls ask for the same attestation, but perhaps of another user. -/
structure SameButUser (asked call : SignCall) : Prop where
  guild : asked.guild = call.guild
  schema : asked.schema = call.schema
  id : asked.id = { call.id with userId := asked.id.userId }

/-! What a task knows while it signs. -/

structure Signs where
  call : SignCall
  anchor : Option Anchor := none
  clock : Option Nat := none
  blob : Option AttestationBlob := none

def isSchema (schema : Nat) : Prop :=
  schema = ATTESTATION_SCHEMA_V1 ∨ schema = ATTESTATION_SCHEMA_V2

def ownBlob (anchor : Anchor) (call : SignCall) (time : Nat) : AttestationBlob :=
  ⟨anchor, ⟨call.schema, signedAfresh conf anchor call call.id.userId time⟩⟩

namespace Signs

def allows (m : Signs) : Op → Prop
  | .store (.signingSeed guild) => guild = m.call.guild
  | .store (.insertSigningSeed guild _) => guild = m.call.guild
  | .store (.rotationChain _) => True
  | .signing (.key guild) => guild = m.call.guild
  | .signing (.keepKey guild key) =>
      guild = m.call.guild ∧ ∃ anchor, m.anchor = some anchor ∧
        key.signer = ⟨anchor, guild, conf.wgNet, conf.attestationTtl⟩
  | .signing (.fresh guild id now schema) => m.call = ⟨guild, id, now, schema⟩
  | .signing (.keep guild id now schema blob) =>
      m.call = ⟨guild, id, now, schema⟩ ∧ isSchema schema ∧
        ∃ anchor time, m.anchor = some anchor ∧ m.clock = some time ∧
          blob = ownBlob conf anchor m.call time
  | .locks _ => True
  | .nowUnix => True
  | .genSigningKey => True
  | _ => False

def expects (m : Signs) : (o : Op) → o.Res → Prop
  | .signing (.key _), some key =>
      key.signer = ⟨key.signer.key, m.call.guild, conf.wgNet, conf.attestationTtl⟩
  | _, _ => True

def next (m : Signs) : (o : Op) → o.Res → Signs
  | .store (.signingSeed _), .ok (some anchor) => { m with anchor := some anchor }
  | .store (.insertSigningSeed _ anchor), .ok _ => { m with anchor := some anchor }
  | .signing (.key _), some key => { m with anchor := some key.signer.key }
  | .signing (.fresh ..), some blob => { m with blob := some blob }
  | .signing (.keep _ _ _ _ blob), _ => { m with blob := some blob }
  | .nowUnix, now => { m with clock := some now }
  | _, _ => m

def mon : Monitor sig Signs where
  allows := allows conf
  expects := expects conf
  next := next

variable {conf}

theorem lock_keeps (m : Signs) (o : Locks.Op) :
    (mon conf).allows m (.locks o) ∧ ∀ answer, (mon conf).next m (.locks o) answer = m :=
  ⟨trivial, fun _ => rfl⟩

theorem loadOrCreateSeed_conforms {m : Signs} :
    (Store.loadOrCreateSeed m.call.guild).Conforms (mon conf)
      (returns fun m' anchor => m'.call = m.call ∧ m'.anchor = some anchor) m := by
  rw [Store.loadOrCreateSeed, conforms_sql_bind]
  refine ⟨rfl, fun seed _ => ?_⟩
  cases seed with
  | error error => trivial
  | ok seed =>
      cases seed with
      | some seed => exact ⟨rfl, rfl⟩
      | none =>
          simp only [after, conforms_act_bind, conforms_sql_bind]
          refine ⟨trivial, fun fresh _ => ⟨rfl, fun done _ => ?_⟩⟩
          cases done with
          | error error => trivial
          | ok done => exact ⟨rfl, rfl⟩

theorem guildKeys_conforms {m : Signs} :
    (GuildKeys.get conf m.call.guild).Conforms (mon conf)
      (returns fun m' key => m'.call = m.call ∧ ∃ anchor, m'.anchor = some anchor ∧
        key.signer = ⟨anchor, m.call.guild, conf.wgNet, conf.attestationTtl⟩) m := by
  unfold GuildKeys.get
  refine withLock_conforms lock_keeps ?_
  refine (conforms_act_bind ..).mpr ⟨rfl, fun cached hcached => ?_⟩
  cases cached with
  | some key => exact ⟨rfl, key.signer.key, rfl, hcached⟩
  | none =>
      refine loadOrCreateSeed_conforms.andThen fun m' anchor hanchor => ?_
      refine (conforms_sql_bind ..).mpr ⟨trivial, fun chain _ => ?_⟩
      cases chain with
      | error error => trivial
      | ok chain =>
          refine (conforms_act_bind ..).mpr ⟨⟨?_, anchor, hanchor.2, rfl⟩, fun _ _ => ?_⟩
          · exact congrArg SignCall.guild hanchor.1.symm
          · exact ⟨hanchor.1, anchor, hanchor.2, rfl⟩

theorem signWith_conforms {m : Signs} (signer : Signer) (id : AttIdentity) (schema : Nat) :
    (signWith signer id schema).Conforms (mon conf)
      (returns fun m' blob => m'.call = m.call ∧ m'.anchor = m.anchor ∧ isSchema schema ∧
        ∃ time, m'.clock = some time ∧ blob = ⟨signer.key, ⟨schema, signer.attestation id time⟩⟩)
      m := by
  refine (conforms_act_bind ..).mpr ⟨trivial, fun now _ => ?_⟩
  split
  · rename_i blob hsigned
    unfold signAttestation at hsigned
    split at hsigned
    · rename_i hschema
      cases hsigned
      exact ⟨rfl, rfl, hschema, now, rfl, rfl⟩
    · cases hsigned
  · trivial

theorem attestation_conforms (call : SignCall) :
    ((signCalls conf).start call).Conforms (mon conf)
      (returns fun m blob => m.blob = some blob) { call := call } := by
  refine (conforms_act_bind ..).mpr ⟨rfl, fun hit _ => ?_⟩
  cases hit with
  | some blob => exact rfl
  | none =>
      refine withLock_conforms lock_keeps ?_
      refine (conforms_act_bind ..).mpr ⟨rfl, fun again _ => ?_⟩
      cases again with
      | some blob => exact rfl
      | none =>
          refine Conforms.andThen (guildKeys_conforms (m := { call := call })) fun m key hkey => ?_
          obtain ⟨hcall, anchor, hanchor, hsigner⟩ := hkey
          refine (signWith_conforms key.signer call.id call.schema).andThen fun m' blob hblob => ?_
          obtain ⟨hcall', hanchor', hschema, time, htime, hblob⟩ := hblob
          refine (conforms_act_bind ..).mpr ⟨⟨?_, hschema, anchor, time, ?_, htime, ?_⟩, ?_⟩
          · exact hcall'.trans hcall
          · exact hanchor'.trans hanchor
          · rw [hblob, hsigner, hcall', hcall]
            rfl
          · exact fun _ _ => rfl

end Signs

theorem Database.run_anchor {db db' : Database} {q : Query} {answer : q.Res} {guild : GuildId}
    {anchor : Anchor} (hrun : db.run q = .ok (answer, db'))
    (hanchor : db.guildSigningKeys.get? guild = some anchor) :
    db'.guildSigningKeys.get? guild = some anchor := by
  by_cases hwrites : writes q = some .guildSigningKeys
  · cases q <;> try (cases hwrites; done)
    case insertSigningSeed other key =>
      simp only [run] at hrun
      split at hrun
      · cases hrun
      · rename_i hfresh
        cases hrun
        have hother : guild ≠ other := by
          rintro rfl
          simp [Table.contains, hanchor] at hfresh
        simpa [hother] using hanchor
  · rw [(run_frame hrun).guildSigningKeys hwrites]
    exact hanchor

theorem AppState.exec_now {task : Nat} {o : Op} {choice : Choice} {answer : o.Res}
    {st st' : AppState} (hexec : AppState.exec conf task o choice st = some (answer, st')) :
    st'.now = st.now := by
  cases o
  all_goals
    simp only [AppState.exec] at hexec
    (repeat' split at hexec) <;> first
      | (cases hexec; rfl)
      | cases hexec

namespace Signing

variable {signing : Signing} {reuseSecs : Nat} {o : Op}

theorem step_entry {key : GuildId × PubKey × Nat} {e : CachedAtt}
    (hentry : (signing.step reuseSecs o).2.map.get? key = some e) :
    signing.map.get? key = some e ∨ ∃ guild id now schema blob,
      o = .keep guild id now schema blob ∧ key = (guild, id.pubkey, schema) ∧
        e = ⟨blob, now, id.ip, id.isPrimary, id.username, id.deviceName⟩ := by
  cases o with
  | keep guild id now schema blob =>
      simp only [step, keep, Table.get?_insert] at hentry
      split at hentry
      · rename_i hkey
        cases hentry
        exact .inr ⟨guild, id, now, schema, blob, rfl, hkey, rfl⟩
      · left
        split at hentry
        · rw [Table.get?_retain] at hentry
          exact (Option.filter_eq_some_iff.mp hentry).1
        · exact hentry
  | _ => exact .inl hentry

theorem step_key {guild : GuildId} {key : GuildKey}
    (hkey : (signing.step reuseSecs o).2.keys.get? guild = some key) :
    signing.keys.get? guild = some key ∨ o = .keepKey guild key := by
  cases o with
  | keepKey other loaded =>
      simp only [step, Table.get?_insert] at hkey
      split at hkey
      · rename_i hsame
        cases hkey
        exact .inr (hsame ▸ rfl)
      · exact .inl hkey
  | keep other id now schema blob =>
      simp only [step, keep] at hkey
      split at hkey <;> exact .inl hkey
  | _ => exact .inl hkey

theorem fresh_hit {guild : GuildId} {id : AttIdentity} {now schema : Nat}
    {blob : AttestationBlob} (hhit : signing.fresh reuseSecs guild id now schema = some blob) :
    ∃ e, signing.map.get? (guild, id.pubkey, schema) = some e ∧ e.blob = blob ∧
      now - e.signedAt < reuseSecs ∧ e.ip = id.ip ∧ e.isPrimary = id.isPrimary ∧
      e.username = id.username ∧ e.deviceName = id.deviceName := by
  unfold fresh at hhit
  split at hhit
  · cases hhit
  · rename_i e hentry
    split at hhit
    · rename_i hsame
      exact ⟨e, hentry, Option.some.inj hhit, hsame⟩
    · cases hhit

end Signing

/-! What the cache holds, and what was handed out, was signed for some call. -/

structure Keeps (g : List SignCall) (db : Database) (key : GuildId × PubKey × Nat)
    (e : CachedAtt) (asked : SignCall) (anchor : Anchor) (time : Nat) : Prop where
  made : asked ∈ g
  keyed : key = (asked.guild, asked.id.pubkey, asked.schema)
  entry : e.ip = asked.id.ip ∧ e.isPrimary = asked.id.isPrimary ∧
    e.username = asked.id.username ∧ e.deviceName = asked.id.deviceName
  layout : isSchema asked.schema
  row : db.guildSigningKeys.get? asked.guild = some anchor
  signed : e.signedAt ≤ time
  blob : e.blob = ownBlob conf anchor asked time

structure Hands (g : List SignCall) (db : Database) (call : SignCall) (blob : AttestationBlob)
    (asked : SignCall) (anchor : Anchor) (time : Nat) : Prop where
  made : asked ∈ g
  same : SameButUser asked call
  layout : isSchema asked.schema
  row : db.guildSigningKeys.get? asked.guild = some anchor
  margin : call.now + signCacheReuseSecs conf.attestationTtl ≤ time + conf.attestationTtl
  blob : blob = ownBlob conf anchor asked time

structure SignTask (g : List SignCall) (st : AppState) (asked : SignCall) (m : Signs) : Prop where
  call : m.call = asked
  made : asked ∈ g
  begun : asked.now ≤ st.now
  anchor : ∀ anchor, m.anchor = some anchor →
    st.db.guildSigningKeys.get? asked.guild = some anchor
  clock : ∀ time, m.clock = some time → asked.now ≤ time
  blob : ∀ blob, m.blob = some blob → ∃ first anchor time,
    Hands conf g st.db asked blob first anchor time

structure CacheInv (g : List SignCall) (st : AppState)
    (views : Nat → Option (SignCall × Signs)) : Prop where
  keys : ∀ guild key, st.signing.keys.get? guild = some key →
    key.signer = ⟨key.signer.key, guild, conf.wgNet, conf.attestationTtl⟩ ∧
      st.db.guildSigningKeys.get? guild = some key.signer.key
  cached : ∀ key e, st.signing.map.get? key = some e → ∃ asked anchor time,
    Keeps conf g st.db key e asked anchor time
  tasks : ∀ task call m, views task = some (call, m) → SignTask conf g st call m

structure Later (g g' : List SignCall) (st st' : AppState) : Prop where
  made : ∀ call, call ∈ g → call ∈ g'
  row : ∀ guild anchor, st.db.guildSigningKeys.get? guild = some anchor →
    st'.db.guildSigningKeys.get? guild = some anchor
  now : st.now ≤ st'.now

section

variable {conf} {g g' : List SignCall} {st st' : AppState} {call asked : SignCall} {m : Signs}
  {task : Nat} {views : Nat → Option (SignCall × Signs)} {anchor : Anchor} {time : Nat}

theorem Keeps.later {key : GuildId × PubKey × Nat} {e : CachedAtt}
    (hkeeps : Keeps conf g st.db key e asked anchor time) (hlater : Later g g' st st') :
    Keeps conf g' st'.db key e asked anchor time :=
  { hkeeps with
    made := hlater.made asked hkeeps.made
    row := hlater.row _ _ hkeeps.row }

theorem Hands.later {blob : AttestationBlob}
    (hhands : Hands conf g st.db call blob asked anchor time) (hlater : Later g g' st st') :
    Hands conf g' st'.db call blob asked anchor time :=
  { hhands with
    made := hlater.made asked hhands.made
    row := hlater.row _ _ hhands.row }

theorem SignTask.later (htask : SignTask conf g st call m) (hlater : Later g g' st st') :
    SignTask conf g' st' call m where
  call := htask.call
  made := hlater.made call htask.made
  begun := Nat.le_trans htask.begun hlater.now
  anchor := fun anchor hanchor => hlater.row _ _ (htask.anchor anchor hanchor)
  clock := htask.clock
  blob := fun blob hblob => by
    obtain ⟨first, anchor, time, hhands⟩ := htask.blob blob hblob
    exact ⟨first, anchor, time, hhands.later hlater⟩

theorem sameButUser_id {first second : AttIdentity} (hpubkey : first.pubkey = second.pubkey)
    (hip : first.ip = second.ip) (hprimary : first.isPrimary = second.isPrimary)
    (husername : first.username = second.username)
    (hname : first.deviceName = second.deviceName) :
    first = { second with userId := first.userId } := by
  cases first
  cases second
  simp_all

theorem Keeps.hands {e : CachedAtt} (httl : 0 < conf.attestationTtl)
    (hkeeps : Keeps conf g st.db (call.guild, call.id.pubkey, call.schema) e asked anchor time)
    (hfresh : call.now - e.signedAt < signCacheReuseSecs conf.attestationTtl ∧
      e.ip = call.id.ip ∧ e.isPrimary = call.id.isPrimary ∧ e.username = call.id.username ∧
      e.deviceName = call.id.deviceName) :
    Hands conf g st.db call e.blob asked anchor time where
  made := hkeeps.made
  same := by
    obtain ⟨-, hip, hprimary, husername, hname⟩ := hfresh
    obtain ⟨hip', hprimary', husername', hname'⟩ := hkeeps.entry
    have hkeyed := hkeeps.keyed
    simp only [Prod.mk.injEq] at hkeyed
    obtain ⟨hguild, hpubkey, hschema⟩ := hkeyed
    exact ⟨hguild.symm, hschema.symm, sameButUser_id hpubkey.symm (hip'.symm.trans hip)
      (hprimary'.symm.trans hprimary) (husername'.symm.trans husername)
      (hname'.symm.trans hname)⟩
  layout := hkeeps.layout
  row := hkeeps.row
  margin := by
    have hsigned := hkeeps.signed
    have hnow := hfresh.1
    unfold signCacheReuseSecs at hnow ⊢
    omega
  blob := hkeeps.blob

theorem Hands.answers {db : Database} {blob : AttestationBlob}
    (hhands : Hands conf g db call blob asked anchor time) :
    AnswersFor conf db call asked.id.userId blob := by
  have hmargin := hhands.margin
  refine ⟨anchor, time, hhands.same.guild ▸ hhands.row, ?_, hmargin, fun later hlater => ?_⟩
  · unfold signCacheReuseSecs at hmargin
    omega
  · have hschema := hhands.layout
    rw [hhands.same.schema] at hschema
    refine verifyAttestation_ok.mpr ⟨hschema, ?_, rfl, hlater⟩
    rw [hhands.blob]
    unfold ownBlob signedAfresh
    rw [hhands.same.schema, hhands.same.guild, hhands.same.id]

/-! One operation of a task. -/

theorem exec_later {o : Op} {choice : Choice} {answer : o.Res}
    (hexec : AppState.exec conf task o choice st = some (answer, st')) : Later g g st st' := by
  refine ⟨fun _ => id, fun guild anchor hanchor => ?_,
    Nat.le_of_eq (AppState.exec_now conf hexec).symm⟩
  by_cases hstore : ∃ q, o = .store q
  · obtain ⟨q, rfl⟩ := hstore
    have hstep := AppState.exec_store hexec
    cases answer with
    | ok answer => exact Database.run_anchor (Database.step_ok hstep).2 hanchor
    | error error =>
        rw [Database.step_error hstep]
        exact hanchor
  · rw [(AppState.exec_frame hexec).db fun q hq => hstore ⟨q, hq⟩]
    exact hanchor

theorem exec_signing_step {o : Op} {choice : Choice} {answer : o.Res}
    (hexec : AppState.exec conf task o choice st = some (answer, st')) :
    st'.signing = st.signing ∨ ∃ s, o = .signing s ∧
      st'.signing = (st.signing.step (signCacheReuseSecs conf.attestationTtl) s).2 := by
  by_cases hsigning : ∃ s, o = .signing s
  · obtain ⟨s, rfl⟩ := hsigning
    exact .inr ⟨s, rfl, (congrArg Prod.snd (AppState.exec_signing hexec)).symm⟩
  · exact .inl ((AppState.exec_frame hexec).signing fun s hs => hsigning ⟨s, hs⟩)

theorem CacheInv.keys_did {o : Op} {choice : Choice} {answer : o.Res}
    (hinv : CacheInv conf g st views) (htask : SignTask conf g st call m)
    (hallows : m.allows conf o)
    (hexec : AppState.exec conf task o choice st = some (answer, st')) {guild : GuildId}
    {key : GuildKey} (hkey : st'.signing.keys.get? guild = some key) :
    key.signer = ⟨key.signer.key, guild, conf.wgNet, conf.attestationTtl⟩ ∧
      st'.db.guildSigningKeys.get? guild = some key.signer.key := by
  have hlater : Later g g st st' := exec_later hexec
  have hbefore : st.signing.keys.get? guild = some key ∨ o = .signing (.keepKey guild key) := by
    rcases exec_signing_step hexec with hsame | ⟨s, rfl, hstep⟩
    · rw [hsame] at hkey
      exact .inl hkey
    · rw [hstep] at hkey
      exact (Signing.step_key hkey).imp_right (congrArg _)
  rcases hbefore with hheld | rfl
  · obtain ⟨hsigner, hrow⟩ := hinv.keys guild key hheld
    exact ⟨hsigner, hlater.row _ _ hrow⟩
  · obtain ⟨rfl, anchor, hanchor, hsigner⟩ := hallows
    have hrow := htask.anchor anchor hanchor
    rw [hsigner]
    refine ⟨rfl, hlater.row _ _ ?_⟩
    rw [htask.call]
    exact hrow

theorem CacheInv.cached_did {o : Op} {choice : Choice} {answer : o.Res}
    (hinv : CacheInv conf g st views) (htask : SignTask conf g st call m)
    (hallows : m.allows conf o)
    (hexec : AppState.exec conf task o choice st = some (answer, st'))
    {key : GuildId × PubKey × Nat} {e : CachedAtt}
    (hentry : st'.signing.map.get? key = some e) :
    ∃ asked anchor time, Keeps conf g st'.db key e asked anchor time := by
  have hlater : Later g g st st' := exec_later hexec
  have hold : st.signing.map.get? key = some e →
      ∃ asked anchor time, Keeps conf g st'.db key e asked anchor time := by
    intro hheld
    obtain ⟨asked, anchor, time, hkeeps⟩ := hinv.cached key e hheld
    exact ⟨asked, anchor, time, hkeeps.later hlater⟩
  rcases exec_signing_step hexec with hsame | ⟨s, rfl, hstep⟩
  · rw [hsame] at hentry
    exact hold hentry
  · rw [hstep] at hentry
    rcases Signing.step_entry hentry with hheld | ⟨guild, id, now, schema, blob, rfl, rfl, rfl⟩
    · exact hold hheld
    · obtain ⟨hcall, hschema, anchor, time, hanchor, htime, hblob⟩ := hallows
      have hasked : call = ⟨guild, id, now, schema⟩ := htask.call.symm.trans hcall
      have hrow := hlater.row _ _ (htask.anchor anchor hanchor)
      have hnow := htask.clock time htime
      have hmade := htask.made
      subst hasked
      refine ⟨_, anchor, time, hmade, rfl, ⟨rfl, rfl, rfl, rfl⟩, hschema, hrow, hnow, ?_⟩
      rw [hblob, htask.call]

theorem SignTask.did {o : Op} {choice : Choice} {answer : o.Res} (httl : 0 < conf.attestationTtl)
    (hinv : CacheInv conf g st views) (htask : SignTask conf g st call m)
    (hallows : m.allows conf o)
    (hexec : AppState.exec conf task o choice st = some (answer, st')) :
    SignTask conf g st' call (m.next o answer) := by
  have hlater : Later g g st st' := exec_later hexec
  have hkept := htask.later hlater
  cases o <;> try exact hkept
  case nowUnix =>
    cases hexec
    exact { hkept with
      clock := fun time htime => by
        cases htime
        exact htask.begun }
  case store q =>
    cases answer with
    | error error => cases q <;> exact hkept
    | ok answer =>
        have hrun := (Database.step_ok (AppState.exec_store hexec)).2
        cases q <;> try exact hkept
        case signingSeed guild =>
          have hguild : guild = call.guild := hallows.trans (congrArg SignCall.guild htask.call)
          simp only [Database.run, Except.ok.injEq, Prod.mk.injEq] at hrun
          obtain ⟨hrow, hdb⟩ := hrun
          cases answer with
          | none => exact hkept
          | some anchor =>
              exact { hkept with
                anchor := fun known hknown => by
                  cases hknown
                  rw [← hdb, ← hguild]
                  exact hrow }
        case insertSigningSeed guild anchor =>
          have hguild : guild = call.guild := hallows.trans (congrArg SignCall.guild htask.call)
          simp only [Database.run] at hrun
          split at hrun
          · cases hrun
          · simp only [Except.ok.injEq, Prod.mk.injEq, true_and] at hrun
            exact { hkept with
              anchor := fun known hknown => by
                cases hknown
                rw [← hrun, ← hguild]
                simp }
  case signing s =>
    have hstep := AppState.exec_signing hexec
    cases s with
    | key guild =>
        have hguild : guild = call.guild := hallows.trans (congrArg SignCall.guild htask.call)
        cases answer with
        | none => exact hkept
        | some key =>
            have hheld : st.signing.keys.get? guild = some key := congrArg Prod.fst hstep
            exact { hkept with
              anchor := fun known hknown => by
                cases hknown
                rw [← hguild]
                exact hlater.row _ _ (hinv.keys guild key hheld).2 }
    | keepKey guild key => exact hkept
    | fresh guild id now schema =>
        have hasked : call = ⟨guild, id, now, schema⟩ := htask.call.symm.trans hallows
        cases answer with
        | none => exact hkept
        | some blob =>
            obtain ⟨e, hentry, rfl, hfresh⟩ := Signing.fresh_hit (congrArg Prod.fst hstep)
            obtain ⟨asked, anchor, time, hkeeps⟩ := hinv.cached _ e hentry
            exact { hkept with
              blob := fun blob hblob => by
                cases hblob
                subst hasked
                exact ⟨asked, anchor, time, (hkeeps.hands httl hfresh).later hlater⟩ }
    | keep guild id now schema blob =>
        obtain ⟨hcall, hschema, anchor, time, hanchor, htime, hblob⟩ := hallows
        have hasked : call = ⟨guild, id, now, schema⟩ := htask.call.symm.trans hcall
        have hnow := htask.clock time htime
        exact { hkept with
          blob := fun found hfound => by
            cases hfound
            refine ⟨call, anchor, time, hkept.made, ⟨rfl, rfl, rfl⟩, ?_, ?_, ?_, ?_⟩
            · rw [hasked]
              exact hschema
            · exact hkept.anchor anchor hanchor
            · unfold signCacheReuseSecs
              omega
            · rw [hblob, htask.call] }

theorem CacheInv.did {o : Op} {choice : Choice} {answer : o.Res} (httl : 0 < conf.attestationTtl)
    (hinv : CacheInv conf g st views) (hview : views task = some (call, m))
    (hallows : m.allows conf o)
    (hexec : AppState.exec conf task o choice st = some (answer, st')) :
    m.expects conf o answer ∧
      CacheInv conf g st' (Function.update views task (some (call, m.next o answer))) := by
  have htask := hinv.tasks task call m hview
  have hlater : Later g g st st' := exec_later hexec
  refine ⟨?_, ⟨fun guild key => hinv.keys_did htask hallows hexec,
    fun key e => hinv.cached_did htask hallows hexec, fun other asked m' hview' => ?_⟩⟩
  · unfold Signs.expects
    split
    · rename_i guild key
      have hstep := AppState.exec_signing hexec
      have hguild : guild = m.call.guild := hallows
      rw [← hguild]
      exact (hinv.keys guild key (congrArg Prod.fst hstep)).1
    · trivial
  · rcases Machine.update_some_cases hview' with ⟨rfl, hsame⟩ | ⟨-, hother⟩
    · cases hsame
      exact htask.did httl hinv hallows hexec
    · exact (hinv.tasks other asked m' hother).later hlater

theorem CacheInv.later (hinv : CacheInv conf g st views) (hlater : Later g g' st st')
    (hsigning : st'.signing = st.signing) : CacheInv conf g' st' views where
  keys := fun guild key hkey => by
    rw [hsigning] at hkey
    obtain ⟨hsigner, hrow⟩ := hinv.keys guild key hkey
    exact ⟨hsigner, hlater.row _ _ hrow⟩
  cached := fun key e hentry => by
    rw [hsigning] at hentry
    obtain ⟨asked, anchor, time, hkeeps⟩ := hinv.cached key e hentry
    exact ⟨asked, anchor, time, hkeeps.later hlater⟩
  tasks := fun task call m hview => (hinv.tasks task call m hview).later hlater

theorem CacheInv.begin (hinv : CacheInv conf g st views) (hnow : call.now ≤ st.now) :
    CacheInv conf (call :: g) st (Function.update views task (some (call, { call := call }))) := by
  have hlater : Later g (call :: g) st st :=
    ⟨fun _ => List.mem_cons_of_mem _, fun _ _ => id, Nat.le_refl _⟩
  have hkept := hinv.later hlater rfl
  refine ⟨hkept.keys, hkept.cached, fun other asked m hview => ?_⟩
  rcases Machine.update_some_cases hview with ⟨rfl, hsame⟩ | ⟨-, hother⟩
  · cases hsame
    exact ⟨rfl, List.mem_cons_self .., hnow, nofun, nofun, nofun⟩
  · exact hkept.tasks other asked m hother

theorem CacheInv.leave (hinv : CacheInv conf g st views) :
    CacheInv conf g (AppState.release task st) (Function.update views task none) := by
  have hkept : CacheInv conf g (AppState.release task st) views :=
    hinv.later ⟨fun _ => id, fun _ _ => id, Nat.le_refl _⟩ rfl
  exact ⟨hkept.keys, hkept.cached, fun other asked m hview =>
    hkept.tasks other asked m (Machine.update_none_cases hview).2⟩

theorem CacheInv.move {world : World} (hinv : CacheInv conf g st views)
    (hmove : AppState.move world st = some st')
    (hclock : clocked conf g st (.moved world) = true) : CacheInv conf g st' views := by
  have hsame := AppState.move_untouched hmove
  refine hinv.later ⟨fun _ => id, fun guild anchor hanchor => hsame.db ▸ hanchor, ?_⟩ hsame.signing
  cases world
  case clock now instant =>
    simp only [AppState.move] at hmove
    split at hmove
    · cases hmove
      simpa [clocked] using hclock
    · cases hmove
  case member guild user roles =>
    cases hmove
    cases roles <;> exact Nat.le_refl _
  case accessToken token who =>
    cases hmove
    cases who <;> exact Nat.le_refl _
  all_goals
    cases hmove
    exact Nat.le_refl _

end

def signDiscipline (httl : 0 < conf.attestationTtl) :
    (signCalls conf).Discipline (asking conf) (Machine.passes (clocked conf)) Signs where
  mon := Signs.mon conf
  opening := fun _ _ call => { call := call }
  post := fun _ => returns fun m blob => m.blob = some blob
  inv := CacheInv conf
  conforms := fun _ _ call => Signs.attestation_conforms call
  called := fun hinv _ hclock => hinv.begin (by simpa [Machine.passes, clocked] using hclock)
  did := fun hinv hview hallows hexec _ => hinv.did httl hview hallows hexec
  ended := fun hinv _ _ _ => hinv.leave
  dropped := fun hinv _ _ => hinv.leave
  moved := fun hinv hmove hclock => hinv.move hmove hclock

/-- Whatever the interleaving, the blob a call is answered with is what signing afresh gives
it, for the user of a call that asked for the same but for the user: its own user, unless
calls for one key name several. -/
theorem cache_agrees (httl : 0 < conf.attestationTtl) {start : AppState}
    (hstart : start.signing = {}) {c : (signCalls conf).Config} {g : List SignCall}
    (hreach : Machine.Reach (asking conf) (Machine.passes (clocked conf))
      ((signCalls conf).idle start) [] c g)
    {task : Nat} {call : SignCall} {blob : AttestationBlob} {c' : (signCalls conf).Config}
    (hended : Machine.Step c (.ended task call (.ok blob)) c') :
    (∃ asked ∈ g, SameButUser asked call ∧
      AnswersFor conf c.shared.db call asked.id.userId blob) ∧
    ((∀ asked ∈ g, asked.id.pubkey = call.id.pubkey → asked.id.userId = call.id.userId) →
      AnswersFor conf c.shared.db call call.id.userId blob) := by
  have hbegin : CacheInv conf [] start fun _ => none := by
    refine ⟨fun guild key hkey => ?_, fun key e hentry => ?_, nofun⟩
    · rw [hstart] at hkey
      cases hkey
    · rw [hstart] at hentry
      cases hentry
  obtain ⟨views, htracks, hinv⟩ := (signDiscipline conf httl).run hbegin hreach
  cases hended with
  | finish running =>
      obtain ⟨m, hview, hblob, -⟩ := htracks.running running
      obtain ⟨asked, anchor, time, hhands⟩ := (hinv.tasks _ _ m hview).blob blob hblob
      have hanswers := hhands.answers
      refine ⟨⟨asked, hhands.made, hhands.same, hanswers⟩, fun howner => ?_⟩
      have hpubkey : asked.id.pubkey = call.id.pubkey := by
        rw [hhands.same.id]
      rw [← howner asked hhands.made hpubkey]
      exact hanswers

/-- A call for a device of a user, in guild 3. -/
def SignCall.small (user : UserId) (now : Nat) : SignCall where
  guild := 3
  id := ⟨user, "alice", "pc", false, 1, 7⟩
  now := now
  schema := ATTESTATION_SCHEMA_V1

/-- Two calls for one key, one after the other; the second one is a hit. -/
def signTwice (second : UserId) : List (signCalls Conf.small).Label :=
  [.move (.clock 1000 0), .call (SignCall.small 1 1000)] ++
    List.replicate 15 (.step 0 (.key 9)) ++
    [.move (.clock 1100 0), .call (SignCall.small second 1100), .step 1 .go]

def handsFirstTo (second : UserId) (call : SignCall) (blob : AttestationBlob) : Bool :=
  call == SignCall.small second 1100 && blob.payload.attestation.userId == 1

theorem handsFirstTo_iff {second : UserId} {call : SignCall} {blob : AttestationBlob} :
    handsFirstTo second call blob = true ↔
      call = SignCall.small second 1100 ∧ blob.payload.attestation.userId = 1 := by
  simp [handsFirstTo]

def handsFirst (second : UserId) (c : (signCalls Conf.small).Config) : Bool :=
  match c.tasks 1 with
  | some ⟨call, .ret blob, _⟩ => handsFirstTo second call blob
  | _ => false

theorem handsFirst_ended {second : UserId} {c : (signCalls Conf.small).Config}
    (hhands : handsFirst second c = true) :
    ∃ blob c', Machine.Step c (.ended 1 (SignCall.small second 1100) (.ok blob)) c' ∧
      blob.payload.attestation.userId = 1 := by
  unfold handsFirst at hhands
  split at hhands
  · rename_i call blob resting hrunning
    obtain ⟨rfl, huser⟩ := handsFirstTo_iff.mp hhands
    exact ⟨blob, _, .finish hrunning, huser⟩
  · cases hhands

/-- The second user is answered with an attestation of the first one. -/
theorem cache_mixes_users :
    ¬ ∀ c g, Machine.Reach (asking Conf.small) (Machine.passes (clocked Conf.small))
      ((signCalls Conf.small).idle {}) [] c g →
        ∀ task call blob c', Machine.Step c (.ended task call (.ok blob)) c' →
          AnswersFor Conf.small c.shared.db call call.id.userId blob := by
  intro hclaim
  have hplay : (Machine.play (asking Conf.small) (clocked Conf.small)
      ((signCalls Conf.small).idle {}) [] (signTwice 2)).any
        (fun last => handsFirst 2 last.1) = true := by
    decide
  have hrun : ∃ c g, Machine.Reach (asking Conf.small) (Machine.passes (clocked Conf.small))
      ((signCalls Conf.small).idle {}) [] c g ∧ handsFirst 2 c = true :=
    Machine.reach_of_play (fun _ _ _ htest => htest) hplay
  obtain ⟨c, g, hreach, hhands⟩ := hrun
  obtain ⟨blob, c', hended, huser⟩ := handsFirst_ended hhands
  obtain ⟨anchor, time, -, hlives, -, hverifies⟩ := hclaim c g hreach 1 _ blob c' hended
  obtain ⟨-, hblob, -⟩ := verifyAttestation_ok.mp (hverifies _ hlives)
  rw [hblob] at huser
  have hsame : (2 : UserId) = 1 := huser
  exact absurd hsame (by decide)

theorem cache_agrees_hit :
    ∃ c g blob c', Machine.Reach (asking Conf.small) (Machine.passes (clocked Conf.small))
        ((signCalls Conf.small).idle {}) [] c g ∧
      Machine.Step c (.ended 1 (SignCall.small 1 1100) (.ok blob)) c' ∧
      (∃ asked ∈ g, SameButUser asked (SignCall.small 1 1100) ∧
        AnswersFor Conf.small c.shared.db (SignCall.small 1 1100) asked.id.userId blob) := by
  have hplay : (Machine.play (asking Conf.small) (clocked Conf.small)
      ((signCalls Conf.small).idle {}) [] (signTwice 1)).any
        (fun last => handsFirst 1 last.1) = true := by
    decide
  have hrun : ∃ c g, Machine.Reach (asking Conf.small) (Machine.passes (clocked Conf.small))
      ((signCalls Conf.small).idle {}) [] c g ∧ handsFirst 1 c = true :=
    Machine.reach_of_play (fun _ _ _ htest => htest) hplay
  obtain ⟨c, g, hreach, hhands⟩ := hrun
  obtain ⟨blob, c', hended, -⟩ := handsFirst_ended hhands
  exact ⟨c, g, blob, c', hreach, hended, (cache_agrees Conf.small (by decide) rfl hreach hended).1⟩

end UnityLan.Coordinator
