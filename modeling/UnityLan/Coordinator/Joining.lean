import UnityLan.Coordinator.Machine

namespace UnityLan.Coordinator

open UnityLan.Foundation

/-! A user joins a guild.  Two memos may still say that it is not there, and only events of
the types the shard was asked for are delivered. -/

inductive EventType
  | guildCreate
  | interactionCreate
  | memberAdd
  | memberUpdate
  | memberRemove
  deriving DecidableEq

def flags : List EventType :=
  [.guildCreate, .interactionCreate, .memberUpdate, .memberRemove]

def Call.event : Call → Option EventType
  | .enroll _ => some .interactionCreate
  | .networkAdd .. => some .interactionCreate
  | .networkRemove .. => some .interactionCreate
  | .memberAdd .. => some .memberAdd
  | .memberUpdate .. => some .memberUpdate
  | .memberRemove .. => some .memberRemove
  | _ => none

def delivered (call : Call) : Bool :=
  call.event.all fun event => event ∈ flags

/-- When an answer was remembered, and whether the user joined the guild since. -/
structure Memo where
  recorded : Nat
  joined : Bool := false

namespace Memo

def join (memo : Memo) : Memo :=
  { memo with joined := true }

def outlived (memo : Memo) (ttl instant : Nat) : Bool :=
  memo.joined && instant - memo.recorded < ttl

end Memo

structure Joining where
  /-- The member is remembered as absent, and the user as holding no role anywhere. -/
  absent : Option Memo := none
  roleless : Option Memo := none
  /-- A lookup was answered from a memo that was recorded before the join. -/
  stale : Bool := false

variable (guild : GuildId) (user : UserId)

namespace Joining

def saw (g : Joining) (instant : Nat) : (o : Op) → o.Res → Joining
  | .caches (.storeMember g' u roles), _ =>
      if g' = guild ∧ u = user then
        { g with absent := if roles.isNone then some ⟨instant, false⟩ else none }
      else g
  | .caches (.forget g' u), _ =>
      if g' = guild ∧ u = user then { g with absent := none } else g
  | .caches (.cachedMember g' u), some none =>
      if g' = guild ∧ u = user then { g with stale := g.stale || g.absent.any (·.joined) } else g
  | .roleless (.remember u), _ =>
      if u = user then { g with roleless := some ⟨instant, false⟩ } else g
  | .roleless (.forget u), _ => if u = user then { g with roleless := none } else g
  | .roleless (.fresh u), true =>
      if u = user then { g with stale := g.stale || g.roleless.any (·.joined) } else g
  | _, _ => g

def moved (g : Joining) (st : AppState) : World → Joining
  | .member g' u (some _) =>
      if g' = guild ∧ u = user ∧ (st.discord.members.get? (guild, user)).isNone then
        { g with absent := g.absent.map Memo.join, roleless := g.roleless.map Memo.join }
      else g
  | _ => g

def lapsed (g : Joining) (instant : Nat) : Op → Bool
  | .caches (.cachedMember g' u) =>
      !(g' = guild ∧ u = user) || !g.absent.any (·.outlived MEMBER_ABSENT_TTL instant)
  | .roleless (.fresh u) =>
      !(u = user) || !g.roleless.any (·.outlived RolelessMemo.TTL instant)
  | _ => true

end Joining

variable (conf : Conf)

def joinings : (machine conf).Observer Joining where
  see := fun g st event _ =>
    match event with
    | .did _ o answer => g.saw guild user st.instant o answer
    | .moved world => g.moved guild user st world
    | _ => g

/-- The shard delivers what it was asked for. -/
def subscribed (_ : Joining) (_ : AppState) : (machine conf).Event → Bool
  | .called _ call => delivered call
  | _ => true

/-- And no lookup comes while a memo from before the join may still be used. -/
def subscribedLate (g : Joining) (st : AppState) : (machine conf).Event → Bool
  | .called _ call => delivered call
  | .did _ o _ => g.lapsed guild user st.instant o
  | _ => true

structure JoiningInv (g : Joining) (st : AppState) : Prop where
  absent : ∀ recorded, st.caches.members.get? (guild, user) = some ⟨recorded, none⟩ →
    ∃ memo, g.absent = some memo ∧ memo.recorded = recorded
  roleless : ∀ recorded, st.roleless.seen.get? user = some recorded →
    ∃ memo, g.roleless = some memo ∧ memo.recorded = recorded
  stale : g.stale = false

section

variable {guild} {user} {conf} {g : Joining} {st st' : AppState} {task : Nat} {choice : Choice}

theorem storeMember_self {caches : RoleCaches} {instant : Nat} {roles : Option MemberRoles}
    {entry : CachedMember}
    (hentry : (caches.storeMember instant guild user roles).members.get? (guild, user) =
      some entry) : entry = ⟨instant, roles⟩ := by
  unfold RoleCaches.storeMember at hentry
  dsimp only at hentry
  split at hentry
  · rw [Table.get?_retain, Option.filter_eq_some_iff, Table.get?_insert, if_pos rfl] at hentry
    exact (Option.some.inj hentry.1).symm
  · rw [Table.get?_insert, if_pos rfl] at hentry
    exact (Option.some.inj hentry).symm

theorem remember_self {memo : RolelessMemo} {instant : Nat} :
    (memo.remember instant user).seen.get? user = some instant := by
  simp [RolelessMemo.remember]

theorem remember_other {memo : RolelessMemo} {instant recorded : Nat} {other : UserId}
    (hother : user ≠ other)
    (hseen : (memo.remember instant other).seen.get? user = some recorded) :
    memo.seen.get? user = some recorded := by
  unfold RolelessMemo.remember at hseen
  dsimp only at hseen
  rw [Table.get?_insert, if_neg hother] at hseen
  split at hseen
  · rw [Table.get?_retain, Option.filter_eq_some_iff] at hseen
    exact hseen.1
  · exact hseen

theorem cachedMember_absent {caches : RoleCaches} {instant : Nat}
    (hcached : caches.cachedMember instant guild user = some none) :
    ∃ recorded, caches.members.get? (guild, user) = some ⟨recorded, none⟩ ∧
      instant - recorded < MEMBER_ABSENT_TTL := by
  unfold RoleCaches.cachedMember at hcached
  split at hcached
  · rename_i entry hentry
    split at hcached
    · rename_i hfresh
      obtain ⟨recorded, roles⟩ := entry
      cases Option.some.inj hcached
      exact ⟨recorded, hentry, of_decide_eq_true hfresh⟩
    · cases hcached
  · cases hcached

theorem fresh_seen {memo : RolelessMemo} {instant : Nat} (hfresh : memo.fresh instant user = true) :
    ∃ recorded, memo.seen.get? user = some recorded ∧ instant - recorded < RolelessMemo.TTL := by
  unfold RolelessMemo.fresh at hfresh
  split at hfresh
  · rename_i recorded hseen
    exact ⟨recorded, hseen, by simpa using hfresh⟩
  · cases hfresh

theorem joined_lapsed {memo : Option Memo} {ttl instant recorded : Nat}
    (hlapsed : (!memo.any (·.outlived ttl instant)) = true)
    (hmemo : ∃ found, memo = some found ∧ found.recorded = recorded)
    (hrecent : instant - recorded < ttl) : memo.any (·.joined) = false := by
  obtain ⟨found, rfl, rfl⟩ := hmemo
  simpa [Memo.outlived, hrecent] using hlapsed

theorem JoiningInv.caches_did {c : RoleCaches.Op} {answer : c.Res}
    (hinv : JoiningInv guild user g st)
    (hlapsed : g.lapsed guild user st.instant (.caches c) = true)
    (hexec : AppState.exec conf task (.caches c) choice st = some (answer, st')) :
    JoiningInv guild user (g.saw guild user st.instant (.caches c) answer) st' := by
  have hstep := AppState.exec_caches hexec
  have hafter : (st.caches.step st.instant c).2 = st'.caches := congrArg Prod.snd hstep
  have hroleless : st'.roleless = st.roleless := (AppState.exec_frame hexec).roleless (by simp)
  have hkept : ∀ recorded, st'.roleless.seen.get? user = some recorded →
      ∃ memo, g.roleless = some memo ∧ memo.recorded = recorded := by
    rw [hroleless]
    exact hinv.roleless
  cases c with
  | storeMember g' u roles =>
      by_cases hsame : g' = guild ∧ u = user
      · simp only [Joining.saw, if_pos hsame]
        obtain ⟨rfl, rfl⟩ := hsame
        refine ⟨fun recorded hentry => ?_, hkept, hinv.stale⟩
        rw [← hafter] at hentry
        cases storeMember_self hentry
        exact ⟨_, rfl, rfl⟩
      · simp only [Joining.saw, if_neg hsame]
        refine ⟨fun recorded hentry => ?_, hkept, hinv.stale⟩
        rw [← hafter] at hentry
        rcases RoleCaches.mem_storeMember hentry with ⟨hkey, -⟩ | hheld
        · cases hkey
          exact (hsame ⟨rfl, rfl⟩).elim
        · exact hinv.absent recorded hheld
  | forget g' u =>
      by_cases hsame : g' = guild ∧ u = user
      · simp only [Joining.saw, if_pos hsame]
        obtain ⟨rfl, rfl⟩ := hsame
        refine ⟨fun recorded hentry => ?_, hkept, hinv.stale⟩
        rw [← hafter] at hentry
        simp [RoleCaches.step, RoleCaches.forget] at hentry
      · simp only [Joining.saw, if_neg hsame]
        refine ⟨fun recorded hentry => ?_, hkept, hinv.stale⟩
        rw [← hafter] at hentry
        have hkey : (guild, user) ≠ (g', u) := by
          rintro hkey
          cases hkey
          exact hsame ⟨rfl, rfl⟩
        simp only [RoleCaches.step, RoleCaches.forget, Table.get?_erase, if_neg hkey] at hentry
        exact hinv.absent recorded hentry
  | cachedMember g' u =>
      have hheld : JoiningInv guild user g st' := by
        refine ⟨?_, hkept, hinv.stale⟩
        rw [← hafter]
        exact hinv.absent
      rcases answer with _ | _ | roles
      · exact hheld
      · by_cases hsame : g' = guild ∧ u = user
        · simp only [Joining.saw, if_pos hsame]
          simp only [Joining.lapsed, hsame, and_self, decide_true, Bool.not_true,
            Bool.false_or] at hlapsed
          obtain ⟨rfl, rfl⟩ := hsame
          obtain ⟨recorded, hentry, hrecent⟩ := cachedMember_absent (congrArg Prod.fst hstep)
          refine ⟨hheld.absent, hheld.roleless, ?_⟩
          rw [joined_lapsed hlapsed (hinv.absent recorded hentry) hrecent, hinv.stale]
          rfl
        · simp only [Joining.saw, if_neg hsame]
          exact hheld
      · exact hheld
  | _ =>
      refine ⟨?_, hkept, hinv.stale⟩
      rw [← hafter]
      exact hinv.absent

theorem JoiningInv.roleless_did {r : RolelessMemo.Op} {answer : r.Res}
    (hinv : JoiningInv guild user g st)
    (hlapsed : g.lapsed guild user st.instant (.roleless r) = true)
    (hexec : AppState.exec conf task (.roleless r) choice st = some (answer, st')) :
    JoiningInv guild user (g.saw guild user st.instant (.roleless r) answer) st' := by
  have hstep := AppState.exec_roleless hexec
  have hafter : (st.roleless.step st.instant r).2 = st'.roleless := congrArg Prod.snd hstep
  have hcaches : st'.caches = st.caches := (AppState.exec_frame hexec).caches (by simp)
  have hkept : ∀ recorded, st'.caches.members.get? (guild, user) = some ⟨recorded, none⟩ →
      ∃ memo, g.absent = some memo ∧ memo.recorded = recorded := by
    rw [hcaches]
    exact hinv.absent
  cases r with
  | remember u =>
      by_cases hsame : u = user
      · simp only [Joining.saw, if_pos hsame]
        subst hsame
        refine ⟨hkept, fun recorded hseen => ?_, hinv.stale⟩
        rw [← hafter, RolelessMemo.step, remember_self] at hseen
        cases hseen
        exact ⟨_, rfl, rfl⟩
      · simp only [Joining.saw, if_neg hsame]
        refine ⟨hkept, fun recorded hseen => ?_, hinv.stale⟩
        rw [← hafter] at hseen
        exact hinv.roleless recorded (remember_other (Ne.symm hsame) hseen)
  | forget u =>
      by_cases hsame : u = user
      · simp only [Joining.saw, if_pos hsame]
        subst hsame
        refine ⟨hkept, fun recorded hseen => ?_, hinv.stale⟩
        rw [← hafter] at hseen
        simp [RolelessMemo.step, RolelessMemo.forget] at hseen
      · simp only [Joining.saw, if_neg hsame]
        refine ⟨hkept, fun recorded hseen => ?_, hinv.stale⟩
        rw [← hafter] at hseen
        simp only [RolelessMemo.step, RolelessMemo.forget, Table.get?_erase,
          if_neg (Ne.symm hsame)] at hseen
        exact hinv.roleless recorded hseen
  | fresh u =>
      have hheld : JoiningInv guild user g st' := by
        refine ⟨hkept, ?_, hinv.stale⟩
        rw [← hafter]
        exact hinv.roleless
      rcases answer with _ | _
      · exact hheld
      · by_cases hsame : u = user
        · simp only [Joining.saw, if_pos hsame]
          simp only [Joining.lapsed, hsame, decide_true, Bool.not_true,
            Bool.false_or] at hlapsed
          subst hsame
          obtain ⟨recorded, hseen, hrecent⟩ := fresh_seen (congrArg Prod.fst hstep)
          refine ⟨hheld.absent, hheld.roleless, ?_⟩
          rw [joined_lapsed hlapsed (hinv.roleless recorded hseen) hrecent, hinv.stale]
          rfl
        · simp only [Joining.saw, if_neg hsame]
          exact hheld

theorem JoiningInv.did {o : Op} {answer : o.Res} (hinv : JoiningInv guild user g st)
    (hlapsed : g.lapsed guild user st.instant o = true)
    (hexec : AppState.exec conf task o choice st = some (answer, st')) :
    JoiningInv guild user (g.saw guild user st.instant o answer) st' := by
  have hframe := AppState.exec_frame hexec
  cases o
  case caches c => exact hinv.caches_did hlapsed hexec
  case roleless r => exact hinv.roleless_did hlapsed hexec
  all_goals
    refine ⟨?_, ?_, hinv.stale⟩
    · rw [hframe.caches (by simp)]
      exact hinv.absent
    · rw [hframe.roleless (by simp)]
      exact hinv.roleless

theorem JoiningInv.moved {world : World} (hinv : JoiningInv guild user g st)
    (hmove : AppState.move world st = some st') :
    JoiningInv guild user (g.moved guild user st world) st' := by
  have hsame := AppState.move_untouched hmove
  have hjoined : ∀ {memo : Option Memo} {recorded : Nat},
      (∃ found, memo = some found ∧ found.recorded = recorded) →
        ∃ found, memo.map Memo.join = some found ∧ found.recorded = recorded := by
    rintro memo recorded ⟨found, rfl, hrecorded⟩
    exact ⟨found.join, rfl, hrecorded⟩
  unfold Joining.moved
  split
  · split
    · refine ⟨fun recorded hentry => hjoined ?_, fun recorded hseen => hjoined ?_, hinv.stale⟩
      · rw [hsame.caches] at hentry
        exact hinv.absent recorded hentry
      · rw [hsame.roleless] at hseen
        exact hinv.roleless recorded hseen
    · exact ⟨hsame.caches ▸ hinv.absent, hsame.roleless ▸ hinv.roleless, hinv.stale⟩
  · exact ⟨hsame.caches ▸ hinv.absent, hsame.roleless ▸ hinv.roleless, hinv.stale⟩

end

/-- No lookup is answered from a memo from before the join, in every run in which the lookups
after it come when the memos there were are too old or an event made the coordinator
forget them. -/
theorem joined_member_visible {start : AppState} (hcaches : start.caches = {})
    (hroleless : start.roleless = {}) {c : (machine conf).Config} {g : Joining}
    (hreach : Machine.Reach (joinings guild user conf)
      (Machine.passes (subscribedLate guild user conf)) ((machine conf).idle start) {} c g) :
    g.stale = false := by
  have hinv : JoiningInv guild user g c.shared := by
    induction hreach with
    | start =>
        refine ⟨fun recorded hentry => ?_, fun recorded hseen => ?_, rfl⟩
        · have hnone : start.caches.members.get? (guild, user) = some ⟨recorded, none⟩ := hentry
          rw [hcaches] at hnone
          cases hnone
        · have hnone : start.roleless.seen.get? user = some recorded := hseen
          rw [hroleless] at hnone
          cases hnone
    | step _ taken allowed ih =>
        cases taken with
        | call call => exact ih
        | perform running executed => exact ih.did allowed executed
        | finish running => exact ⟨ih.absent, ih.roleless, ih.stale⟩
        | abort running => exact ⟨ih.absent, ih.roleless, ih.stale⟩
        | drop running _ => exact ⟨ih.absent, ih.roleless, ih.stale⟩
        | move moved => exact ih.moved moved
  exact hinv.stale

/-! User 1 joins guild 5, which has a network for its role 7. -/

/-- The user has logged in, and the coordinator has just started. -/
def soloUser : AppState where
  db :=
    { networks := (∅ : Table (GuildId × RoleId) String).insert (5, 7) "lan"
      oauthAuthorized := (∅ : Table PubKey OauthRow).insert 1 ⟨1, 0⟩
      userHandles := (∅ : Table UserId String).insert 1 "ann" }
  discord :=
    { guilds := (∅ : Table GuildId String).insert 5 "guild"
      roles := (∅ : Table GuildId (List (RoleId × String))).insert 5 [(7, "lan")] }

def soloAgain : RegisterReq :=
  { personalDevice 1 "pc" with deviceToken := some "token" }

open Script in
def registersThenJoins : Script Conf.small :=
  call (.register (personalDevice 1 "pc") (.v4 0)) ++ steps 0 31 (.text "token") ++
    move (.member 5 1 (some ⟨"ann", [7]⟩))

open Script in
def registersAgain : Script Conf.small :=
  registersThenJoins ++ call (.register soloAgain (.v4 0)) ++ steps 1 7 .go

open Script in
def registersUpdated : Script Conf.small :=
  registersThenJoins ++ call (.memberUpdate 5 1 [7]) ++ steps 1 4 .go ++
    call (.register soloAgain (.v4 0)) ++ steps 2 40 .go

/-- No event tells of the join, and the memo that the user holds no role answers for it. -/
theorem joined_member_unseen :
    ¬ ∀ c g, Machine.Reach (joinings 5 1 Conf.small) (Machine.passes (subscribed Conf.small))
      ((machine Conf.small).idle soloUser) {} c g → g.stale = false := by
  intro hvisible
  have hplay : (Machine.play (joinings 5 1 Conf.small) (subscribed Conf.small)
      ((machine Conf.small).idle soloUser) {} registersAgain).any
        (fun last => last.2.stale) = true := by
    decide
  have hrun : ∃ c g, Machine.Reach (joinings 5 1 Conf.small)
      (Machine.passes (subscribed Conf.small)) ((machine Conf.small).idle soloUser) {} c g ∧
        g.stale = true :=
    Machine.reach_of_play (fun _ _ _ htest => htest) hplay
  obtain ⟨c, g, hreach, hstale⟩ := hrun
  exact Bool.false_ne_true ((hvisible c g hreach).symm.trans hstale)

/-- With an update in between, the device is recorded in the network. -/
theorem joined_member_recorded :
    ∃ c g, Machine.Reach (joinings 5 1 Conf.small)
        (Machine.passes (subscribedLate 5 1 Conf.small)) ((machine Conf.small).idle soloUser) {} c
          g ∧
      (c.shared.presence.rowAt (.network 5 7) 1).isSome = true ∧ g.stale = false := by
  have hplay : (Machine.play (joinings 5 1 Conf.small) (subscribedLate 5 1 Conf.small)
      ((machine Conf.small).idle soloUser) {} registersUpdated).any
        (fun last => (last.1.shared.presence.rowAt (.network 5 7) 1).isSome) = true := by
    decide
  have hrun : ∃ c g, Machine.Reach (joinings 5 1 Conf.small)
      (Machine.passes (subscribedLate 5 1 Conf.small))
        ((machine Conf.small).idle soloUser) {} c g ∧
          (c.shared.presence.rowAt (.network 5 7) 1).isSome = true :=
    Machine.reach_of_play (fun _ _ _ htest => htest) hplay
  obtain ⟨c, g, hreach, hrecorded⟩ := hrun
  exact ⟨c, g, hreach, hrecorded, joined_member_visible 5 1 Conf.small rfl rfl hreach⟩

end UnityLan.Coordinator
