import UnityLan.Common.NetId
import UnityLan.Coordinator.Database
import UnityLan.Coordinator.NatTables
import UnityLan.Coordinator.Presence
import UnityLan.Coordinator.Roles
import UnityLan.Coordinator.Signer
import UnityLan.Coordinator.Wake
import UnityLan.Foundation.Prog

namespace UnityLan.Coordinator

open UnityLan.Foundation

/-! The state every handler reaches, and the atomic operations handlers are made
of: one critical section, one SQL statement, one answer of Discord. -/

/-- The peering-relevant content of a seed, as `seed_rev` hashes it. -/
structure SeedContent where
  pubkey : PubKey
  ip : Ipv4Addr
  isPrimary : Bool
  username : String
  deviceName : String
  endpoint : Option SocketAddr
  punch : Option SocketAddr
  networks : List SharedNetwork
  relay : Option RelayInfo
  ice : Option IceParams
  deriving DecidableEq

/-- The deployment: its configuration, and the hash functions of the libraries it
is built on. -/
structure Conf where
  wgNet : Ipv4Net
  attestationTtl : Nat := ATTESTATION_TTL_SECS
  longpollHoldSecs : Nat := LONGPOLL_HOLD_SECS
  maxParked : Nat
  enrollPublic : Key
  requireEnrollProof : Bool := true
  stunPort : Option (BitVec 16) := none
  dnsDomain : Option String := none
  release : Option ReleaseManifest := none
  releaseSigned : Option String := none
  sip : PubKey → Nat
  scopeHash : List (Scope × Nat) → Nat
  seedHash : SeedContent → Nat
  relayCredential : String → String → String

structure AppState where
  db : Database := {}
  versions : Versions := {}
  wakers : Wakers := {}
  parkSlots : ParkSlots := {}
  presence : Presence := {}
  caches : RoleCaches := {}
  roleless : RolelessMemo := {}
  locks : Locks := {}
  signing : Signing := {}
  nat : NatTables := {}
  userLabels : Table UserId String := ∅
  /-- Discord, the access tokens it would accept, and the two clocks. -/
  discord : Discord := {}
  oauth : Table String (UserId × String) := ∅
  now : Nat := 0
  instant : Nat := 0

/-- What ended the `select` of a parked request. -/
inductive Arm
  | scopes
  | personal
  | preempted
  | elapsed
  deriving DecidableEq

inductive Op
  | store (q : Query)
  | versions (o : Versions.Op)
  | presence (o : Presence.Op)
  | wakers (o : Wakers.Op)
  | tryAcquire (pubkey : PubKey)
  /-- Suspend until a receiver changed, the slot was taken or the hold elapsed. -/
  | select (receivers : List (Scope × Nat)) (deadline : Nat)
  | sleep
  | caches (o : RoleCaches.Op)
  | roleless (o : RolelessMemo.Op)
  | locks (o : Locks.Op)
  | fetchMember (guild : GuildId) (user : UserId)
  | fetchGuild (guild : GuildId)
  | fetchRoles (guild : GuildId)
  | signing (o : Signing.Op)
  | nat (o : NatTables.Op)
  | knownLabel (user : UserId)
  | keepLabel (user : UserId) (label : String)
  | verifyOauth (accessToken : String)
  | nowUnix
  | instant
  | genEnrollmentKey
  | genSigningKey
  /-- How often a loop without a bound of its own will go round in this run. -/
  | rounds
  /-- Never answers. -/
  | never

@[reducible] def Op.Res : Op → Type
  | .store q => Except StoreError q.Res
  | .versions o => o.Res
  | .presence o => o.Res
  | .wakers o => o.Res
  | .tryAcquire _ => Bool
  | .select .. => Arm
  | .sleep => Unit
  | .caches o => o.Res
  | .roleless o => o.Res
  | .locks o => o.Res
  | .fetchMember .. => MemberAnswer
  | .fetchGuild _ => Option String
  | .fetchRoles _ => Option (List (RoleId × String))
  | .signing o => o.Res
  | .nat o => o.Res
  | .knownLabel _ => Option String
  | .keepLabel .. => Unit
  | .verifyOauth _ => Except String (UserId × String)
  | .nowUnix => Nat
  | .instant => Nat
  | .genEnrollmentKey => String
  | .genSigningKey => Anchor
  | .rounds => Nat
  | .never => Empty

@[reducible] def sig : Sig where
  Op := Op
  Res := Op.Res

/-- What is decided outside the program while one operation runs. -/
inductive Choice
  | go
  /-- The statement, the lookup or the verification fails. -/
  | fault (why : String)
  | arm (arm : Arm)
  | text (fresh : String)
  | key (fresh : Anchor)
  | rounds (bound : Nat)
  deriving DecidableEq

def Choice.why : Choice → Option String
  | .fault why => some why
  | _ => none

namespace AppState

/-- Whether an arm of a parked request's `select` is ready. -/
def ready (st : AppState) (task : Nat) (receivers : List (Scope × Nat)) (deadline : Nat) :
    Arm → Bool
  | .scopes => receivers.any fun rx => st.versions.count rx.1 != rx.2
  | .personal => st.wakers.changed task
  | .preempted => st.parkSlots.preempted task
  | .elapsed => deadline ≤ st.instant

def fetchMember (st : AppState) (guild : GuildId) (user : UserId) :
    Option String → MemberAnswer
  | some _ => .failed
  | none => st.discord.member guild user

/-- One operation of a task; `none` where it has to wait. -/
def exec (conf : Conf) (task : Nat) : (o : Op) → Choice → AppState →
    Option (o.Res × AppState)
  | .store q, choice, st =>
      let (answer, db) := st.db.step q choice.why
      some (answer, { st with db := db })
  | .versions o, _, st =>
      let (answer, versions) := st.versions.step o
      some (answer, { st with versions := versions })
  | .presence o, _, st =>
      let (answer, presence) := st.presence.step o
      some (answer, { st with presence := presence })
  | .wakers o, _, st =>
      let (answer, wakers) := st.wakers.step task o
      some (answer, { st with wakers := wakers })
  | .tryAcquire pubkey, _, st =>
      let (answer, parkSlots) := st.parkSlots.tryAcquire conf.maxParked task pubkey
      some (answer, { st with parkSlots := parkSlots })
  | .select receivers deadline, choice, st =>
      match choice with
      | .arm arm =>
          if st.ready task receivers deadline arm then
            some (arm,
              if arm = .personal then { st with wakers := st.wakers.markSeen task } else st)
          else none
      | _ => none
  | .sleep, _, st => some ((), st)
  | .caches o, _, st =>
      let (answer, caches) := st.caches.step st.instant o
      some (answer, { st with caches := caches })
  | .roleless o, _, st =>
      let (answer, roleless) := st.roleless.step st.instant o
      some (answer, { st with roleless := roleless })
  | .locks o, _, st =>
      match st.locks.step task o with
      | none => none
      | some (answer, locks) => some (answer, { st with locks := locks })
  | .fetchMember guild user, choice, st =>
      some (st.fetchMember guild user choice.why, st)
  | .fetchGuild guild, choice, st =>
      some (if choice.why.isSome then none else st.discord.guilds.get? guild, st)
  | .fetchRoles guild, choice, st =>
      some (if choice.why.isSome then none else st.discord.roles.get? guild, st)
  | .signing o, _, st =>
      let (answer, signing) := st.signing.step (signCacheReuseSecs conf.attestationTtl) o
      some (answer, { st with signing := signing })
  | .nat o, _, st =>
      let (answer, nat) := st.nat.step o
      some (answer, { st with nat := nat })
  | .knownLabel user, _, st => some (st.userLabels.get? user, st)
  | .keepLabel user label, _, st =>
      some ((), { st with userLabels := st.userLabels.insert user label })
  | .verifyOauth accessToken, choice, st =>
      match choice.why, st.oauth.get? accessToken with
      | none, some who => some (.ok who, st)
      | some why, _ => some (.error why, st)
      | none, none => some (.error "unauthorized", st)
  | .nowUnix, _, st => some (st.now, st)
  | .instant, _, st => some (st.instant, st)
  | .genEnrollmentKey, choice, st =>
      match choice with
      | .text fresh => some (fresh, st)
      | _ => none
  | .genSigningKey, choice, st =>
      match choice with
      | .key fresh => some (fresh, st)
      | _ => none
  | .rounds, choice, st =>
      match choice with
      | .rounds bound => some (bound, st)
      | _ => none
  | .never, _, _ => none

def release (task : Nat) (st : AppState) : AppState :=
  { st with
    wakers := st.wakers.release task
    parkSlots := st.parkSlots.release task
    locks := st.locks.release task }

/-! What one operation leaves as it is, component by component. -/

structure Frame (o : Op) (st st' : AppState) : Prop where
  db : (∀ q, o ≠ .store q) → st'.db = st.db
  versions : (∀ v, o ≠ .versions v) → st'.versions = st.versions
  wakers : (∀ w, o ≠ .wakers w) → (∀ receivers deadline, o ≠ .select receivers deadline) →
    st'.wakers = st.wakers
  parkSlots : (∀ pubkey, o ≠ .tryAcquire pubkey) → st'.parkSlots = st.parkSlots
  presence : (∀ p, o ≠ .presence p) → st'.presence = st.presence
  caches : (∀ c, o ≠ .caches c) → st'.caches = st.caches
  roleless : (∀ r, o ≠ .roleless r) → st'.roleless = st.roleless
  nat : (∀ n, o ≠ .nat n) → st'.nat = st.nat
  signing : (∀ s, o ≠ .signing s) → st'.signing = st.signing
  discord : st'.discord = st.discord
  instant : st'.instant = st.instant

variable {conf : Conf} {task : Nat} {choice : Choice} {st st' : AppState}

theorem exec_frame {o : Op} {answer : o.Res}
    (hexec : exec conf task o choice st = some (answer, st')) : Frame o st st' := by
  cases o
  all_goals
    simp only [exec] at hexec
    (repeat' split at hexec) <;> first
      | (cases hexec; constructor <;> intros <;> first | rfl | simp_all)
      | cases hexec

theorem exec_store {q : Query} {answer : Except StoreError q.Res}
    (hexec : exec conf task (.store q) choice st = some (answer, st')) :
    st.db.step q choice.why = (answer, st'.db) := by
  cases hexec
  rfl

theorem exec_caches {c : RoleCaches.Op} {answer : c.Res}
    (hexec : exec conf task (.caches c) choice st = some (answer, st')) :
    st.caches.step st.instant c = (answer, st'.caches) := by
  cases hexec
  rfl

theorem exec_roleless {r : RolelessMemo.Op} {answer : r.Res}
    (hexec : exec conf task (.roleless r) choice st = some (answer, st')) :
    st.roleless.step st.instant r = (answer, st'.roleless) := by
  cases hexec
  rfl

theorem exec_presence {p : Presence.Op} {answer : p.Res}
    (hexec : exec conf task (.presence p) choice st = some (answer, st')) :
    st.presence.step p = (answer, st'.presence) := by
  cases hexec
  rfl

theorem exec_nat {n : NatTables.Op} {answer : n.Res}
    (hexec : exec conf task (.nat n) choice st = some (answer, st')) :
    st.nat.step n = (answer, st'.nat) := by
  cases hexec
  rfl

theorem exec_signing {s : Signing.Op} {answer : s.Res}
    (hexec : exec conf task (.signing s) choice st = some (answer, st')) :
    st.signing.step (signCacheReuseSecs conf.attestationTtl) s = (answer, st'.signing) := by
  cases hexec
  rfl

theorem exec_fetchMember {guild : GuildId} {user : UserId} {answer : MemberAnswer}
    {roles : MemberRoles}
    (hexec : exec conf task (.fetchMember guild user) choice st = some (answer, st'))
    (hfound : answer.roles = some roles) : st.discord.members.get? (guild, user) = some roles := by
  cases hexec
  unfold fetchMember at hfound
  split at hfound
  · cases hfound
  · unfold Discord.member at hfound
    split at hfound
    · rename_i hmember
      cases hfound
      exact hmember
    · cases hfound

end AppState

def Op.suspends : Op → Bool
  | .store _ => true
  | .select .. => true
  | .sleep => true
  | .locks (.lock _) => true
  | .fetchMember .. => true
  | .fetchGuild _ => true
  | .fetchRoles _ => true
  | .verifyOauth _ => true
  | .never => true
  | _ => false

/-! Handlers. -/

inductive StatusCode
  | badRequest
  | unauthorized
  | notFound
  | conflict
  | upgradeRequired
  | tooManyRequests
  | internalServerError
  | notImplemented
  | serviceUnavailable
  deriving DecidableEq

structure ApiError where
  status : StatusCode
  message : String
  deriving DecidableEq

abbrev Stored (α : Type) := Prog sig StoreError α

abbrev Handler (α : Type) := Prog sig ApiError α

def internal (error : StoreError) : ApiError :=
  ⟨.internalServerError, error.text⟩

def act (o : Op) : Prog sig ε o.Res :=
  Prog.perform (S := sig) o

def sql (q : Query) : Stored q.Res :=
  Prog.performOr (S := sig) (.store q) id

/-! How single operations are seen by the rules for programs. -/

section

open Prog

variable {ε ε' α β M : Type} {inside : Op → Prop}

@[simp] theorem uses_act (o : Op) :
    @Prog.Uses sig ε (no_index o.Res) inside (act o) ↔ inside o := by
  simp [act, perform]

@[simp] theorem uses_act_bind (o : Op) (f : o.Res → Prog sig ε α) :
    (@bind (Prog sig ε) _ (no_index o.Res) α (act o) f).Uses inside ↔ inside o ∧ ∀ answer,
      (f answer).Uses inside := Iff.rfl

theorem performOr_bind (o : Op) (read : o.Res → Except ε α) (f : α → Prog sig ε β) :
    (performOr (S := sig) o read : Prog sig ε α) >>= f =
      .op (S := sig) o fun answer =>
        match read answer with
        | .ok value => f value
        | .error error => .fail error := by
  simp only [performOr, op_bind]
  congr 1
  funext answer
  cases read answer <;> rfl

@[simp] theorem uses_sql (q : Query) :
    @Prog.Uses sig StoreError (no_index q.Res) inside (sql q) ↔ inside (.store q) := by
  constructor
  · exact fun h => h.1
  · intro hinside
    refine ⟨hinside, fun answer => ?_⟩
    cases answer <;> trivial

@[simp] theorem uses_sql_bind (q : Query) (f : q.Res → Stored α) :
    (@bind (Prog sig StoreError) _ (no_index q.Res) α (sql q) f).Uses inside ↔
      inside (.store q) ∧ ∀ answer, (f answer).Uses inside := by
  rw [sql, performOr_bind, uses_op]
  refine and_congr_right fun _ => ⟨fun h answer => h (.ok answer), fun h answer => ?_⟩
  cases answer with
  | ok value => exact h value
  | error error => trivial

variable {mon : Monitor sig M} {post : M → Except ε α → Prop}

@[simp] theorem conforms_act_bind (o : Op) (f : o.Res → Prog sig ε α) (m : M) :
    (@bind (Prog sig ε) _ (no_index o.Res) α (act o) f).Conforms mon post m ↔
      mon.allows m o ∧
        ∀ answer, mon.expects m o answer →
          (f answer).Conforms mon post (mon.next m o answer) := Iff.rfl

theorem conforms_sql (q : Query) {post : M → Except StoreError q.Res → Prop} (m : M) :
    (sql q).Conforms mon post m ↔
      mon.allows m (.store q) ∧
        ∀ answer : Except StoreError q.Res, mon.expects m (.store q) answer →
          post (mon.next m (.store q) answer) answer := by
  refine and_congr_right fun _ => forall_congr' fun answer => imp_congr_right fun _ => ?_
  cases answer <;> rfl

@[simp] theorem conforms_sql_bind (q : Query) {α : Type} (f : q.Res → Stored α)
    {post : M → Except StoreError α → Prop} (m : M) :
    (@bind (Prog sig StoreError) _ (no_index q.Res) α (sql q) f).Conforms mon post m ↔
      mon.allows m (.store q) ∧
        ∀ answer : Except StoreError q.Res, mon.expects m (.store q) answer →
          after mon post f (mon.next m (.store q) answer) answer := by
  rw [conforms_bind, conforms_sql]

end

end UnityLan.Coordinator
