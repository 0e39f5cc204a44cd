import UnityLan.Engine.Issuing
import UnityLan.Foundation.Window

namespace UnityLan.Engine.Cert

open UnityLan.Foundation Prog

/-! How often a device goes to the CA. -/

def WEEK : Nat := 7 * 24 * 60 * 60

/-- What a run has been through. -/
structure Ledger where
  busy : Bool := false
  /-- Of the last reconcile. -/
  wanted : Option CertNames := none
  /-- The certificate in place, and when it expires. -/
  held : Option (CertNames × Nat) := none
  /-- Since when other names are wanted than the held ones. -/
  differs : Option Nat := none
  /-- The failures since the last success, and when the last one was. -/
  failures : Nat := 0
  failedAt : Nat := 0
  /-- When the certificate expires that is being put in place. -/
  expected : Nat := 0
  /-- When certificates were obtained since the wanted names changed, the last one first. -/
  streak : List Nat := []
  /-- Every certificate obtained lasts, and was put in place. -/
  lasting : Bool := true

def Leaf.lasts (leaf : Leaf) (now : Nat) : Bool :=
  leaf.notAfter.any fun notAfter => now + RENEW_BEFORE + WEEK / 5 ≤ notAfter

namespace Ledger

variable (g : Ledger)

def asked (now : Nat) (wanted : Option CertNames) : Ledger :=
  { g with
    busy := true
    wanted := wanted
    differs :=
      if g.held.any fun held => wanted != some held.1 then some (g.differs.getD now) else none
    streak := if wanted = g.wanted then g.streak else [] }

def answered (now : Nat) : (o : CertOp) → o.Answer → Ledger
  | .finalize, .ok leaf =>
      { g with
        expected := leaf.notAfter.getD 0
        streak := now :: g.streak
        lasting := g.lasting && leaf.lasts now }
  | .writeCert _, .error _ | .writeKey _, .error _ => { g with lasting := false }
  | .writeKey _, .ok _ =>
      { g with
        held := g.wanted.map fun names => (names, g.expected)
        differs := none
        failures := 0
        failedAt := 0 }
  | _, _ => g

def did (now : Nat) (o : CertOp) (answer : o.Answer) : Ledger :=
  if o.fails answer then
    { g.answered now o answer with failures := g.failures + 1, failedAt := now }
  else g.answered now o answer

end Ledger

def ledger : issuing.Observer Ledger where
  see g s event _ :=
    match event with
    | .called _ r => g.asked s.clock r.wanted
    | .did _ o answer => g.did s.clock o answer
    | .ended _ _ _ | .dropped _ _ => { g with busy := false }
    | .moved _ => g

/-- One reconcile at a time, which runs to its end, and the record can be written. -/
def recorded (g : Ledger) (_ : Certs) : issuing.Event → Bool
  | .called _ _ => !g.busy
  | .did _ (.saveState _) answer => answer.isOk
  | .dropped _ _ => false
  | _ => true

def backoffAfter (failures : Nat) : Nat :=
  IssuedState.backoff { failures := failures }

/-- An attempt may be made now: the wait after the last failure is over, and where the held
certificate is alive and not due, other names have been wanted for a while. -/
structure Ledger.Allows (g : Ledger) (now : Nat) : Prop where
  waited : 0 < g.failures → g.failedAt + backoffAfter g.failures ≤ now
  settled : ∀ names expiresAt, g.held = some (names, expiresAt) → g.wanted ≠ some names →
    now + RENEW_BEFORE ≤ expiresAt → ∃ since, g.differs = some since ∧ since + SETTLE ≤ now

def CertOp.attempts : CertOp → Bool
  | .loadAccount | .newOrder _ => true
  | _ => false

/-- What every step of a run is to respect. -/
def Ledger.Respects (g : Ledger) (s : Certs) : issuing.Event → Prop
  | .did _ o _ => o.attempts = true → g.Allows s.clock
  | _ => True

/-- Not more than five certificates in seven days, both ends of them counted. -/
def Ledger.Weekly (g : Ledger) : Prop :=
  Window.Paced (WEEK + 1) 5 g.streak

/-! What the record says of the run. -/

structure Agrees (g : Ledger) (state : IssuedState) : Prop where
  names : state.names = g.held.map Prod.fst
  expires : ∀ names expiresAt, g.held = some (names, expiresAt) → state.expiresAt = expiresAt
  early : state.lastFailure < LATEST
  since : ∀ since, g.differs = some since → state.pendingSince = 0 ∨ since ≤ state.pendingSince

structure Counts (g : Ledger) (state : IssuedState) : Prop where
  failures : state.failures = min g.failures U32_MAX
  failedAt : g.failedAt ≤ state.lastFailure

structure Noted (g : Ledger) (state : IssuedState) : Prop where
  since : ∀ since, g.differs = some since → since ≤ state.pendingSince
  none : g.differs = none → state.pendingSince = 0

structure Books (g : Ledger) (s : Certs) : Prop where
  early : s.clock < LATEST
  failedAt : g.failedAt ≤ s.clock
  obtained : ∀ time ∈ g.streak, time ≤ s.clock
  differs : ∀ since, g.differs = some since → since ≤ s.clock
  other : g.differs.isSome = g.held.any fun held => g.wanted != some held.1

structure Spaced (g : Ledger) : Prop where
  apart : g.streak.Pairwise fun later earlier => earlier + (WEEK / 5 + 1) ≤ later
  held : ∀ time ∈ g.streak, ∃ names expiresAt, g.held = some (names, expiresAt) ∧
    g.wanted = some names ∧ time + RENEW_BEFORE + WEEK / 5 ≤ expiresAt

structure Spacing (g : Ledger) (notAfter : Nat) : Prop where
  apart : g.streak.Pairwise fun later earlier => earlier + (WEEK / 5 + 1) ≤ later
  lasts : ∀ time ∈ g.streak, time + RENEW_BEFORE + WEEK / 5 ≤ notAfter

section

variable {g g' : Ledger} {s s' : Certs} {state state' : IssuedState} {r : Reconcile} {now : Nat}

theorem backoff_eq {failures : Nat} (hfailures : state.failures = min failures U32_MAX) :
    state.backoff = backoffAfter failures := by
  unfold backoffAfter IssuedState.backoff
  rw [hfailures]
  dsimp only
  by_cases hnone : failures = 0
  · rw [hnone]
    rfl
  · have hsome : min failures U32_MAX ≠ 0 := by
      unfold U32_MAX
      omega
    have hsame : min (min failures U32_MAX) 32 = min failures 32 := by
      unfold U32_MAX
      omega
    rw [if_neg hsome, if_neg hnone, hsame]

theorem backoff_le : state.backoff ≤ 24 * 60 * 60 := by
  unfold IssuedState.backoff
  split
  · exact Nat.zero_le _
  · exact Nat.min_le_right ..

theorem decide_issue {names : CertNames} (hissue : decide r state now = .issue names) :
    r.wanted = some names ∧
      ((state.names == some names && now < state.expiresAt) = true →
        state.expiresAt - now < RENEW_BEFORE) ∧
      ((state.names == some names && now < state.expiresAt) = false → now < state.expiresAt →
        RENEW_BEFORE ≤ state.expiresAt - now → SETTLE ≤ now - state.pendingSince) ∧
      (0 < state.failures → min (state.lastFailure + state.backoff) U64_MAX ≤ now) := by
  unfold decide at hissue
  split at hissue
  · cases hissue
  · rename_i domain hdomain
    split at hissue
    · cases hissue
    · split at hissue
      · cases hissue
      · rename_i names' hnames
        dsimp only at hissue
        split at hissue
        · cases hissue
        · split at hissue
          · cases hissue
          · split at hissue
            · cases hissue
            · split at hissue
              · cases hissue
              · rename_i hheld hsettle hretry
                obtain rfl := Action.issue.inj hissue
                refine ⟨?_, ?_, ?_, ?_⟩
                · unfold Reconcile.wanted
                  rw [hdomain, Option.bind_some, hnames]
                · intro hlive
                  simpa [hlive] using hheld
                · intro hnot hlive hdue
                  refine Nat.le_of_not_lt fun hshort => hsettle ?_
                  rw [hnot, decide_eq_true hlive, decide_eq_false (Nat.not_lt.mpr hdue),
                    decide_eq_true hshort]
                  rfl
                · intro hfailed
                  refine Nat.le_of_not_lt fun hearly => hretry ?_
                  rw [decide_eq_true hfailed, decide_eq_true hearly]
                  rfl

theorem agrees_iff (hagrees : Agrees g state) (hbooks : Books g s) (hwanted : g.wanted = r.wanted) :
    ((r.wanted.isSome && r.wanted == state.names) || state.names.isNone) = !g.differs.isSome := by
  rw [hbooks.other, hagrees.names, hwanted]
  cases g.held with
  | none => cases r.wanted <;> rfl
  | some held =>
      cases r.wanted with
      | none => rfl
      | some names =>
          change (true && some names == some held.1 || false) = !(some names != some held.1)
          rw [Bool.true_and, Bool.or_false, bne, Bool.not_not]

theorem notePending_agrees (hagrees : Agrees g state) (hbooks : Books g s)
    (hwanted : g.wanted = r.wanted) :
    Agrees g (notePending r state s.clock).2 ∧ Noted g (notePending r state s.clock).2 := by
  have hstamp : (notePending r state s.clock).2 =
      { state with
        pendingSince := if g.differs.isSome then
            if state.pendingSince = 0 then s.clock else state.pendingSince
          else 0 } := by
    have hsame := agrees_iff hagrees hbooks hwanted
    unfold notePending
    dsimp only
    rw [show (r.dnsDomain.bind fun domain =>
      CertNames.new r.hostname r.primaryAlias domain r.services) = r.wanted from rfl, hsame]
    cases g.differs <;> rfl
  rw [hstamp]
  have hsince : ∀ since, g.differs = some since →
      since ≤ if state.pendingSince = 0 then s.clock else state.pendingSince := by
    intro since hdiffers
    split
    · exact hbooks.differs since hdiffers
    · rename_i hstamped
      exact (hagrees.since since hdiffers).resolve_left hstamped
  constructor
  · refine ⟨hagrees.names, hagrees.expires, hagrees.early, fun since hdiffers => ?_⟩
    rw [hdiffers]
    exact .inr (hsince since hdiffers)
  · refine ⟨fun since hdiffers => ?_, fun hnone => ?_⟩
    · rw [hdiffers]
      exact hsince since hdiffers
    · rw [hnone]
      rfl

theorem allows_of_issue {names : CertNames} (hagrees : Agrees g state) (hcounts : Counts g state)
    (hnoted : Noted g state) (hbooks : Books g s) (hwanted : g.wanted = r.wanted)
    (hissue : decide r state s.clock = .issue names) : g.Allows s.clock := by
  obtain ⟨hnames, -, hsettle, hretry⟩ := decide_issue hissue
  constructor
  · intro hfailed
    have hsome : 0 < state.failures := by
      rw [hcounts.failures]
      unfold U32_MAX
      omega
    have hback : state.backoff = backoffAfter g.failures := backoff_eq hcounts.failures
    have hle : state.backoff ≤ 24 * 60 * 60 := backoff_le
    have hretry := hretry hsome
    have hearly := hagrees.early
    have hsince := hcounts.failedAt
    have hclock := hbooks.early
    unfold LATEST at hearly hclock
    unfold U64_MAX at hretry
    omega
  · intro names' expiresAt hheld hother hlive
    have hdiffers : g.differs.isSome = true := by
      rw [hbooks.other, hheld]
      simpa using hother
    obtain ⟨since, hsome⟩ := Option.isSome_iff_exists.mp hdiffers
    have hexpires : state.expiresAt = expiresAt := hagrees.expires names' expiresAt hheld
    have hnot : (state.names == some names && s.clock < state.expiresAt) = false := by
      rw [hagrees.names, hheld, ← hnames, ← hwanted]
      rw [Bool.and_eq_false_iff]
      exact .inl (beq_eq_false_iff_ne.mpr (Ne.symm hother))
    have hdue : 0 < RENEW_BEFORE := by decide
    have hwait := hsettle hnot (by omega) (by omega)
    have hstamp := hnoted.since since hsome
    refine ⟨since, hsome, ?_⟩
    unfold SETTLE at hwait ⊢
    omega

theorem apart_of_issue {names : CertNames} (hagrees : Agrees g state) (hspaced : Spaced g)
    (hwanted : g.wanted = r.wanted) (hissue : decide r state now = .issue names) :
    ∀ time ∈ g.streak, time + (WEEK / 5 + 1) ≤ now := by
  intro time htime
  obtain ⟨held, expiresAt, hheld, hsame, hlasts⟩ := hspaced.held time htime
  obtain ⟨hnames, hrenew, -, -⟩ := decide_issue hissue
  have hexpires : state.expiresAt = expiresAt := hagrees.expires held expiresAt hheld
  have hequal : state.names = some names := by
    rw [hagrees.names, hheld, ← hnames, ← hwanted, hsame]
    rfl
  have hlong : WEEK / 5 < RENEW_BEFORE + WEEK / 5 := by decide
  by_cases hlive : now < state.expiresAt
  · have hdue := hrenew (by rw [hequal, decide_eq_true hlive, beq_self_eq_true]; rfl)
    omega
  · omega

theorem Ledger.Allows.later {later : Nat} (hallows : g.Allows now) (hlater : now ≤ later) :
    g.Allows later where
  waited := fun hfailed => Nat.le_trans (hallows.waited hfailed) hlater
  settled := by
    intro names expiresAt hheld hother hlive
    obtain ⟨since, hsome, hsettled⟩ := hallows.settled names expiresAt hheld hother (by omega)
    exact ⟨since, hsome, Nat.le_trans hsettled hlater⟩

theorem Agrees.congr (hagrees : Agrees g state) (hheld : g'.held = g.held)
    (hdiffers : g'.differs = g.differs) : Agrees g' state where
  names := by rw [hheld, hagrees.names]
  expires := by
    rw [hheld]
    exact hagrees.expires
  early := hagrees.early
  since := by
    rw [hdiffers]
    exact hagrees.since

theorem Noted.congr (hnoted : Noted g state) (hdiffers : g'.differs = g.differs) :
    Noted g' state where
  since := by
    rw [hdiffers]
    exact hnoted.since
  none := by
    rw [hdiffers]
    exact hnoted.none

theorem Spaced.congr (hspaced : Spaced g) (hstreak : g'.streak = g.streak)
    (hheld : g'.held = g.held)
    (hwanted : g'.wanted = g.wanted) : Spaced g' where
  apart := by
    rw [hstreak]
    exact hspaced.apart
  held := by
    rw [hstreak, hheld, hwanted]
    exact hspaced.held

end

/-! What holds in each phase of a reconcile. -/

structure Sound (g : Ledger) (state : IssuedState) : Prop where
  agrees : Agrees g state
  counts : Counts g state
  spaced : g.lasting = true → Spaced g

structure Trying (g : Ledger) (state : IssuedState) (names : CertNames) : Prop where
  agrees : Agrees g state
  noted : Noted g state
  counts : Counts g state
  wanted : g.wanted = some names

def Fits (g : Ledger) (s : Certs) : Phase → Prop
  | .starting => Sound g (s.record.readOr {})
  | .read state | .shown state _ => s.record.readOr {} = state ∧ Sound g state
  | .stamped state _ => Sound g state ∧ Noted g state
  | .ready state _ => s.record.readOr {} = state ∧ Sound g state ∧ Noted g state
  | .ordering state _ names | .ordered state _ names =>
      Trying g state names ∧ g.Allows s.clock ∧ (g.lasting = true → Spaced g ∧
        ∀ time ∈ g.streak, time + (WEEK / 5 + 1) ≤ s.clock)
  | .obtained state _ names _ notAfter | .placed state _ names _ notAfter =>
      Trying g state names ∧ g.expected = notAfter ∧ (g.lasting = true → Spacing g notAfter)
  | .paired names _ notAfter =>
      g.held = some (names, notAfter) ∧ g.differs = none ∧ g.failures = 0 ∧ g.failedAt = 0 ∧
        (g.lasting = true → Spaced g)
  | .failed state _ =>
      Agrees g state ∧ Noted g state ∧ (g.lasting = true → Spaced g) ∧
        ∃ failures, g.failures = failures + 1 ∧ state.failures = min failures U32_MAX
  | .failing state _ => Sound g state ∧ Noted g state
  | .finished _ => Sound g (s.record.readOr {}) ∧ Noted g (s.record.readOr {})

section

variable {g g' : Ledger} {s s' : Certs} {state : IssuedState} {r : Reconcile} {now : Nat}
  {choice : CertChoice} {o : CertOp} {answer : o.Answer} {phase : Phase} {live : Bool}
  {names : CertNames}

theorem exec_clock (hexec : s.exec choice o = some (answer, s')) : s'.clock = s.clock := by
  cases o with
  | token | register | setStatus => cases hexec
  | loadAccount =>
      unfold Certs.exec at hexec
      dsimp only at hexec
      split at hexec <;> cases hexec <;> rfl
  | _ =>
      cases hexec
      rfl

theorem exec_saveState {answer : Except String Unit}
    (hexec : s.exec choice (.saveState state) = some (answer, s')) (hok : answer.isOk = true) :
    s'.record = .holding state := by
  cases hexec
  exact Stored.write_isOk hok

theorem Books.answered (hbooks : Books g s) : Books (g.answered s.clock o answer) s := by
  cases o with
  | finalize =>
      cases answer with
      | error error => exact hbooks
      | ok leaf =>
          refine ⟨hbooks.early, hbooks.failedAt, fun time htime => ?_, hbooks.differs, hbooks.other⟩
          rcases List.mem_cons.mp htime with rfl | htime
          · exact Nat.le_refl _
          · exact hbooks.obtained time htime
  | writeCert chain =>
      cases answer with
      | ok => exact hbooks
      | error => exact ⟨hbooks.early, hbooks.failedAt, hbooks.obtained, hbooks.differs,
        hbooks.other⟩
  | writeKey key =>
      cases answer with
      | error => exact ⟨hbooks.early, hbooks.failedAt, hbooks.obtained, hbooks.differs,
        hbooks.other⟩
      | ok =>
          refine ⟨hbooks.early, Nat.zero_le _, hbooks.obtained, fun _ hnone => ?_, ?_⟩
          · cases hnone
          · unfold Ledger.answered
            dsimp only
            cases g.wanted with
            | none => rfl
            | some names => simp
  | _ => exact hbooks

theorem Books.did (hbooks : Books g s) (hclock : s'.clock = s.clock) :
    Books (g.did s.clock o answer) s' := by
  have hanswered : Books (g.answered s.clock o answer) s := hbooks.answered
  unfold Ledger.did
  split
  · exact ⟨hclock ▸ hanswered.early, hclock ▸ Nat.le_refl _, hclock ▸ hanswered.obtained,
      hclock ▸ hanswered.differs, hanswered.other⟩
  · exact ⟨hclock ▸ hanswered.early, hclock ▸ hanswered.failedAt, hclock ▸ hanswered.obtained,
      hclock ▸ hanswered.differs, hanswered.other⟩

theorem Trying.given_up (htrying : Trying g state names) (hheld : g'.held = g.held)
    (hdiffers : g'.differs = g.differs) (hfailures : g'.failures = g.failures + 1)
    (hspaced : g'.lasting = true → Spaced g') : Fits g' s' (.failed state live) :=
  ⟨htrying.agrees.congr hheld hdiffers, htrying.noted.congr hdiffers, hspaced, g.failures,
    hfailures,
    htrying.counts.failures⟩

theorem Spacing.obtain {leaf : Leaf} (hbooks : Books g s) (hspaced : Spaced g)
    (hapart : ∀ time ∈ g.streak, time + (WEEK / 5 + 1) ≤ s.clock)
    (hlasts : leaf.lasts s.clock = true) (hstreak : g'.streak = s.clock :: g.streak) :
    Spacing g' (leaf.notAfter.getD 0) := by
  unfold Leaf.lasts at hlasts
  obtain ⟨notAfter, hsome, hlong⟩ := (Option.any_eq_true _ _).mp hlasts
  have hlong : s.clock + RENEW_BEFORE + WEEK / 5 ≤ notAfter := of_decide_eq_true hlong
  constructor
  · rw [hstreak]
    exact List.pairwise_cons.mpr ⟨hapart, hspaced.apart⟩
  · intro time htime
    rw [hsome, Option.getD_some]
    rw [hstreak] at htime
    rcases List.mem_cons.mp htime with rfl | htime
    · exact hlong
    · have hbefore := hbooks.obtained time htime
      omega

theorem Fits.ordering (hfits : Fits g s (.ordering state live names)) (hprepares : o.prepares names)
    (hclock : s'.clock = s.clock) :
    Fits (g.did s.clock o answer) s' ((Phase.ordering state live names).next r o answer) := by
  obtain ⟨htrying, hallows, hspaced⟩ := hfits
  unfold Phase.next Ledger.did
  by_cases hfails : o.fails answer = true
  · rw [if_pos hfails, if_pos hfails]
    cases o with
    | loadAccount | restoreAccount | createAccount | saveAccount | newOrder =>
        exact htrying.given_up rfl rfl rfl fun hlasting => (hspaced hlasting).1.congr rfl rfl rfl
    | _ => exact hprepares.elim
  · rw [if_neg hfails, if_neg hfails]
    have hstill : Trying g state names ∧ g.Allows s'.clock ∧ (g.lasting = true → Spaced g ∧
        ∀ time ∈ g.streak, time + (WEEK / 5 + 1) ≤ s'.clock) := by
      rw [hclock]
      exact ⟨htrying, hallows, hspaced⟩
    cases o with
    | loadAccount | restoreAccount | createAccount | saveAccount | newOrder => exact hstill
    | _ => exact hprepares.elim

theorem Fits.ordered (hfits : Fits g s (.ordered state live names)) (hbooks : Books g s)
    (hfulfils : o.fulfils) (hclock : s'.clock = s.clock) :
    Fits (g.did s.clock o answer) s' ((Phase.ordered state live names).next r o answer) := by
  obtain ⟨htrying, hallows, hspaced⟩ := hfits
  unfold Phase.next Ledger.did
  by_cases hfails : o.fails answer = true
  · rw [if_pos hfails, if_pos hfails]
    cases o with
    | finalize =>
        cases answer with
        | error error =>
            exact htrying.given_up rfl rfl rfl fun hlasting =>
              (hspaced hlasting).1.congr rfl rfl rfl
        | ok leaf =>
            refine htrying.given_up rfl rfl rfl fun hlasting => ?_
            have hlasts : leaf.lasts s.clock = true := (Bool.and_eq_true_iff.mp hlasting).2
            unfold Leaf.lasts at hlasts
            rw [Option.isNone_iff_eq_none.mp hfails] at hlasts
            cases hlasts
    | authorizations | publishChallenges | awaitReady =>
        exact htrying.given_up rfl rfl rfl fun hlasting => (hspaced hlasting).1.congr rfl rfl rfl
    | _ => exact hfulfils.elim
  · rw [if_neg hfails, if_neg hfails]
    cases o with
    | finalize =>
        cases answer with
        | error error => exact absurd rfl hfails
        | ok leaf =>
            refine ⟨⟨htrying.agrees.congr rfl rfl, htrying.noted.congr rfl,
              ⟨htrying.counts.failures, htrying.counts.failedAt⟩, htrying.wanted⟩, rfl,
              fun hlasting => ?_⟩
            obtain ⟨hbefore, hlasts⟩ := Bool.and_eq_true_iff.mp hlasting
            exact .obtain hbooks (hspaced hbefore).1 (hspaced hbefore).2 hlasts rfl
    | authorizations | publishChallenges | awaitReady =>
        change Trying g state names ∧ g.Allows s'.clock ∧ _
        rw [hclock]
        exact ⟨htrying, hallows, hspaced⟩
    | _ => exact hfulfils.elim

theorem Fits.writing {leaf : Leaf} {notAfter : Nat}
    (hfits : Fits g s (.obtained state live names leaf notAfter)) :
    (∀ chain answer, Fits (g.did s.clock (.writeCert chain) answer) s'
      ((Phase.obtained state live names leaf notAfter).next r (.writeCert chain) answer)) ∧
    ∀ key answer, Fits (g.did s.clock (.writeKey key) answer) s'
      ((Phase.placed state live names leaf notAfter).next r (.writeKey key) answer) := by
  obtain ⟨htrying, hexpected, hspacing⟩ := hfits
  constructor
  · intro chain answer
    cases answer with
    | error error => exact htrying.given_up rfl rfl rfl fun hlasting => by cases hlasting
    | ok => exact ⟨htrying, hexpected, hspacing⟩
  · intro key answer
    cases answer with
    | error error => exact htrying.given_up rfl rfl rfl fun hlasting => by cases hlasting
    | ok =>
        have hheld : (g.did s.clock (.writeKey key) (.ok ())).held = some (names, notAfter) := by
          change g.wanted.map _ = _
          rw [htrying.wanted, hexpected]
          rfl
        refine ⟨hheld, rfl, rfl, rfl, fun hlasting => ?_⟩
        have hspaced := hspacing hlasting
        exact ⟨hspaced.apart, fun time htime =>
          ⟨names, notAfter, hheld, htrying.wanted, hspaced.lasts time htime⟩⟩

theorem Fits.success {leaf : Leaf} {notAfter : Nat}
    (hfits : Fits g s (.paired names leaf notAfter)) :
    Sound g { names := some names, expiresAt := notAfter } ∧
      Noted g { names := some names, expiresAt := notAfter } := by
  obtain ⟨hheld, hdiffers, hfailures, hfailedAt, hspaced⟩ := hfits
  have hearly : 0 < LATEST := by decide
  refine ⟨⟨⟨?_, ?_, hearly, ?_⟩, ⟨?_, ?_⟩, hspaced⟩, ⟨?_, fun _ => rfl⟩⟩
  · rw [hheld]
    rfl
  · intro names' expiresAt hsome
    rw [hheld] at hsome
    exact (Prod.mk.inj (Option.some.inj hsome)).2
  · intro since hsome
    rw [hdiffers] at hsome
    cases hsome
  · rw [hfailures]
    rfl
  · exact Nat.le_of_eq hfailedAt
  · intro since hsome
    rw [hdiffers] at hsome
    cases hsome

theorem Fits.failing (hfits : Fits g s (.failed state live)) (hbooks : Books g s) :
    Fits g s (.failing { state with
      failures := min (state.failures + 1) U32_MAX, lastFailure := s.clock } live) := by
  obtain ⟨hagrees, hnoted, hspaced, failures, hfailures, hcount⟩ := hfits
  refine ⟨⟨⟨hagrees.names, hagrees.expires, hbooks.early, hagrees.since⟩, ⟨?_, hbooks.failedAt⟩,
    hspaced⟩, ⟨hnoted.since, hnoted.none⟩⟩
  dsimp only
  rw [hcount, hfailures]
  unfold U32_MAX
  omega

theorem notePending_unmoved (hunmoved : (notePending r state now).1 = false) :
    (notePending r state now).2 = state := by
  have hsame : (notePending r state now).2.pendingSince = state.pendingSince := by
    simpa [notePending] using hunmoved
  calc (notePending r state now).2
      = { state with pendingSince := (notePending r state now).2.pendingSince } := rfl
    _ = state := by rw [hsame]

theorem Fits.did (hfits : Fits g s phase) (hbooks : Books g s) (hwanted : g.wanted = r.wanted)
    (hallows : phase.Allows o) (hexec : s.exec choice o = some (answer, s'))
    {task : Nat} (hguard : recorded g s (.did task o answer) = true) :
    Fits (g.did s.clock o answer) s' (phase.next r o answer) := by
  have hclock := exec_clock hexec
  cases phase with
  | starting =>
      cases o with
      | loadState =>
          cases hexec
          have hnext : Phase.starting.next r .loadState (s.record.readOr {}) =
              if (s.record.readOr {}).names.isSome then .read (s.record.readOr {})
              else .shown (s.record.readOr {}) false := rfl
          rw [hnext]
          split <;> exact ⟨rfl, hfits⟩
      | _ => exact hallows.elim
  | read state =>
      cases o with
      | now =>
          cases hexec
          exact hfits
      | _ => exact hallows.elim
  | shown state live =>
      cases o with
      | now =>
          cases hexec
          obtain ⟨hrecord, hsound⟩ := hfits
          obtain ⟨hagrees, hnoted⟩ := notePending_agrees hsound.agrees hbooks hwanted
          have hsound' : Sound g (notePending r state s.clock).2 :=
            ⟨hagrees, ⟨hsound.counts.failures, hsound.counts.failedAt⟩, hsound.spaced⟩
          have hnext : (Phase.shown state live).next r .now s.clock =
              if (notePending r state s.clock).1 then .stamped (notePending r state s.clock).2 live
              else .ready (notePending r state s.clock).2 live := rfl
          rw [hnext]
          split
          · exact ⟨hsound', hnoted⟩
          · rename_i hunmoved
            refine ⟨?_, hsound', hnoted⟩
            rw [notePending_unmoved (Bool.eq_false_iff.mpr hunmoved)]
            exact hrecord
      | _ => exact hallows.elim
  | stamped state live =>
      cases o with
      | saveState saved =>
          obtain rfl : saved = state := hallows
          have hrecord := exec_saveState hexec hguard
          exact ⟨by rw [hrecord]; rfl, hfits⟩
      | _ => exact hallows.elim
  | ready state live =>
      cases o with
      | now =>
          cases hexec
          obtain ⟨hrecord, hsound, hnoted⟩ := hfits
          cases hdecide : decide r state s.clock with
          | idle why =>
              rw [Phase.ready_idle hdecide]
              change Sound g (s.record.readOr {}) ∧ Noted g (s.record.readOr {})
              rw [hrecord]
              exact ⟨hsound, hnoted⟩
          | issue names =>
              rw [Phase.ready_issue hdecide]
              refine ⟨⟨hsound.agrees, hnoted, hsound.counts, ?_⟩, ?_, fun hlasting => ?_⟩
              · exact hwanted.trans (decide_issue hdecide).1
              · exact allows_of_issue hsound.agrees hsound.counts hnoted hbooks hwanted hdecide
              · exact ⟨hsound.spaced hlasting,
                  apart_of_issue hsound.agrees (hsound.spaced hlasting) hwanted hdecide⟩
      | _ => exact hallows.elim
  | ordering state live names => exact hfits.ordering hallows hclock
  | ordered state live names => exact hfits.ordered hbooks hallows hclock
  | obtained state live names leaf notAfter =>
      cases o with
      | writeCert chain => exact (Fits.writing hfits).1 chain answer
      | _ => exact hallows.elim
  | placed state live names leaf notAfter =>
      cases o with
      | writeKey key => exact (Fits.writing hfits).2 key answer
      | _ => exact hallows.elim
  | paired names leaf notAfter =>
      cases o with
      | saveState saved =>
          obtain rfl : saved = { names := some names, expiresAt := notAfter } := hallows
          have hrecord := exec_saveState hexec hguard
          change Sound g (s'.record.readOr {}) ∧ Noted g (s'.record.readOr {})
          rw [hrecord]
          exact Fits.success hfits
      | dropOrder => exact hfits
      | _ => exact hallows.elim
  | failed state live =>
      cases o with
      | dropOrder => exact hfits
      | now =>
          cases hexec
          exact hfits.failing hbooks
      | _ => exact hallows.elim
  | failing state live =>
      cases o with
      | saveState saved =>
          obtain rfl : saved = state := hallows
          have hrecord := exec_saveState hexec hguard
          change Sound g (s'.record.readOr {}) ∧ Noted g (s'.record.readOr {})
          rw [hrecord]
          exact hfits
      | _ => exact hallows.elim
  | finished shown => cases o <;> exact hallows.elim

theorem Fits.later {later : Nat} (hfits : Fits g s phase) (hlater : s.clock ≤ later) :
    Fits g { s with clock := later } phase := by
  cases phase with
  | ordering state live names | ordered state live names =>
      obtain ⟨htrying, hallows, hspaced⟩ := hfits
      refine ⟨htrying, hallows.later hlater, fun hlasting => ⟨(hspaced hlasting).1, ?_⟩⟩
      exact fun time htime => Nat.le_trans ((hspaced hlasting).2 time htime) hlater
  | _ => exact hfits

theorem Books.later {later : Nat} (hbooks : Books g s) (hlater : s.clock ≤ later)
    (hlatest : later < LATEST) : Books g { s with clock := later } where
  early := hlatest
  failedAt := Nat.le_trans hbooks.failedAt hlater
  obtained := fun time htime => Nat.le_trans (hbooks.obtained time htime) hlater
  differs := fun since hsome => Nat.le_trans (hbooks.differs since hsome) hlater
  other := hbooks.other

theorem Books.asked (hbooks : Books g s) (wanted : Option CertNames) :
    Books (g.asked s.clock wanted) s where
  early := hbooks.early
  failedAt := hbooks.failedAt
  obtained := by
    intro time htime
    unfold Ledger.asked at htime
    dsimp only at htime
    split at htime
    · exact hbooks.obtained time htime
    · cases htime
  differs := by
    intro since hsome
    unfold Ledger.asked at hsome
    dsimp only at hsome
    split at hsome
    · obtain rfl := Option.some.inj hsome
      cases hdiffers : g.differs with
      | none => exact Nat.le_refl _
      | some since => exact hbooks.differs since hdiffers
    · cases hsome
  other := by
    unfold Ledger.asked
    dsimp only
    split
    · rename_i hother
      rw [hother]
      rfl
    · rename_i hsame
      rw [Bool.eq_false_iff.mpr hsame]
      rfl

theorem Ledger.did_kept : (g.did now o answer).busy = g.busy ∧ (g.did now o answer).wanted =
    g.wanted := by
  have hanswered : (g.answered now o answer).busy = g.busy ∧
      (g.answered now o answer).wanted = g.wanted := by
    cases o with
    | finalize | writeCert | writeKey => cases answer <;> exact ⟨rfl, rfl⟩
    | _ => exact ⟨rfl, rfl⟩
  unfold Ledger.did
  split <;> exact hanswered

theorem Books.idle (hbooks : Books g s) : Books { g with busy := false } s :=
  ⟨hbooks.early, hbooks.failedAt, hbooks.obtained, hbooks.differs, hbooks.other⟩

theorem Fits.idle {shown shown' : Option (CertNames × Nat)} (hfits : Fits g s (.finished shown)) :
    Fits { g with busy := false } s (.finished shown') := by
  obtain ⟨hsound, hnoted⟩ := hfits
  exact ⟨⟨hsound.agrees.congr rfl rfl, ⟨hsound.counts.failures, hsound.counts.failedAt⟩,
    fun hlasting => (hsound.spaced hlasting).congr rfl rfl rfl⟩, hnoted.congr rfl⟩

theorem Sound.asked (hsound : Sound g state) (hnoted : Noted g state) (wanted : Option CertNames) :
    Sound (g.asked now wanted) state := by
  refine ⟨⟨hsound.agrees.names, hsound.agrees.expires, hsound.agrees.early, fun since hsome => ?_⟩,
    ⟨hsound.counts.failures, hsound.counts.failedAt⟩, fun hlasting => ?_⟩
  · unfold Ledger.asked at hsome
    dsimp only at hsome
    split at hsome
    · obtain rfl := Option.some.inj hsome
      cases hdiffers : g.differs with
      | none => exact .inl (hnoted.none hdiffers)
      | some since => exact .inr (hnoted.since since hdiffers)
    · cases hsome
  · have hspaced := hsound.spaced hlasting
    by_cases hsame : wanted = g.wanted
    · refine hspaced.congr ?_ rfl hsame
      exact if_pos hsame
    · have hempty : (g.asked now wanted).streak = [] := if_neg hsame
      constructor
      · rw [hempty]
        exact .nil
      · rw [hempty]
        intro time htime
        cases htime

end

def pacing : Machine.Solo issuing ledger (Machine.passes recorded) Pass where
  mon := passing
  opening := fun _ _ r => { r := r }
  post := fun _ μ result => μ.Ends result
  rest := fun g s => Books g s ∧ g.busy = false ∧ Fits g s (.finished none)
  fits := fun g s r μ =>
    Books g s ∧ g.busy = true ∧ μ.r = r ∧ g.wanted = r.wanted ∧ Fits g s μ.phase
  conforms := fun _ _ r => conforms_reconcile r
  alone := by
    rintro g s r μ task r' ⟨-, hbusy, -⟩ hguard
    have hidle : (!g.busy) = true := hguard
    rw [hbusy] at hidle
    cases hidle
  called := by
    rintro g s task r ⟨hbooks, -, hsound, hnoted⟩ -
    exact ⟨hbooks.asked r.wanted, rfl, rfl, rfl, hsound.asked hnoted r.wanted⟩
  did := by
    rintro g s task r ⟨r', phase⟩ o choice answer s' ⟨hbooks, hbusy, hsame, hwanted, hfits⟩ hallows
      hexec hguard
    obtain rfl : r' = r := hsame
    refine ⟨trivial, hbooks.did (exec_clock hexec), Ledger.did_kept.1.trans hbusy, rfl,
      Ledger.did_kept.2.trans hwanted, ?_⟩
    exact hfits.did hbooks hwanted hallows hexec hguard
  ended := by
    rintro g s task r μ result ⟨hbooks, -, -, -, hfits⟩ hends -
    cases result with
    | error error => exact error.elim
    | ok status =>
        obtain ⟨shown, hover, -⟩ := hends
        rw [hover] at hfits
        exact ⟨hbooks.idle, rfl, hfits.idle⟩
  dropped := by
    rintro g s task r μ - hguard
    cases hguard
  movedRest := by
    rintro g s later s' ⟨hbooks, hbusy, hfits⟩ hmove -
    obtain ⟨hlater, hlatest, rfl⟩ := move_cases hmove
    exact ⟨hbooks.later hlater hlatest, hbusy, hfits.later hlater⟩
  movedFits := by
    rintro g s r μ later s' ⟨hbooks, hbusy, hsame, hwanted, hfits⟩ hmove -
    obtain ⟨hlater, hlatest, rfl⟩ := move_cases hmove
    exact ⟨hbooks.later hlater hlatest, hbusy, hsame, hwanted, hfits.later hlater⟩

theorem fresh_rests (cert key : Stored String) :
    Books {} (fresh cert key) ∧ ({} : Ledger).busy = false ∧
      Fits {} (fresh cert key) (.finished none) := by
  have hearly : 0 < LATEST := by decide
  have hnone : ∀ time ∈ ([] : List Nat), False := fun time htime => by cases htime
  refine ⟨⟨hearly, Nat.le_refl _, fun time htime => (hnone time htime).elim, fun _ hsome => ?_,
    rfl⟩,
    rfl, ⟨⟨rfl, fun _ _ hsome => ?_, hearly, fun _ hsome => ?_⟩, ⟨rfl, Nat.le_refl _⟩,
      fun _ => ⟨.nil, fun time htime => (hnone time htime).elim⟩⟩,
        ⟨fun _ hsome => ?_, fun _ => rfl⟩⟩
  all_goals cases hsome

theorem ordering_of_attempts {phase : Phase} {o : CertOp} (hallows : phase.Allows o)
    (hattempts : o.attempts = true) : ∃ state live names, phase = .ordering state live names := by
  cases o with
  | loadAccount | newOrder =>
      cases phase with
      | ordering state live names => exact ⟨state, live, names, rfl⟩
      | _ => exact hallows.elim
  | _ => cases hattempts

theorem Fits.weekly {g : Ledger} {s : Certs} {phase : Phase} (hfits : Fits g s phase)
    (hlasting : g.lasting = true) : g.Weekly := by
  have hspan : WEEK + 1 ≤ 5 * (WEEK / 5 + 1) := by decide
  have happart : g.streak.Pairwise fun later earlier => earlier + (WEEK / 5 + 1) ≤ later := by
    cases phase with
    | starting => exact (hfits.spaced hlasting).apart
    | read | shown => exact (hfits.2.spaced hlasting).apart
    | stamped | failing | finished => exact (hfits.1.spaced hlasting).apart
    | ready => exact (hfits.2.1.spaced hlasting).apart
    | ordering | ordered => exact (hfits.2.2 hlasting).1.apart
    | obtained | placed => exact (hfits.2.2 hlasting).apart
    | paired => exact (hfits.2.2.2.2 hlasting).apart
    | failed => exact (hfits.2.2.1 hlasting).apart
  exact Window.Paced.of_spaced happart hspan

/-- An attempt is never too early, and while certificates last and are put in place, there are not
more than five of them in seven days. -/
theorem issuance_paced (cert key : Stored String) {c : issuing.Config} {g : Ledger}
    (hreach : Machine.Reach ledger (Machine.passes recorded) (issuing.idle (fresh cert key)) {} c
      g) :
    (∀ event c', Machine.Step c event c' → recorded g c.shared event = true →
      g.Respects c.shared event) ∧ (g.lasting = true → g.Weekly) := by
  constructor
  · intro event c' hstep hrecorded
    cases hstep with
    | call | finish | abort | drop | move => trivial
    | perform running executed =>
        intro hattempts
        obtain ⟨μ, ⟨-, -, -, -, hfits⟩, hallows, -⟩ :=
          pacing.fits_reached (fresh_rests cert key) hreach running
        obtain ⟨state, live, names, hphase⟩ := ordering_of_attempts hallows hattempts
        rw [hphase] at hfits
        exact hfits.2.1
  · intro hlasting
    refine pacing.held_reached (fun g _ => g.lasting = true → g.Weekly) ?_ ?_
      (fresh_rests cert key) hreach hlasting
    · exact fun g s hrest => hrest.2.2.weekly
    · exact fun g s r μ hfits => hfits.2.2.2.2.weekly

def hourly (count notAfter : Nat) : List issuing.Label :=
  (List.range count).flatMap fun n =>
    [.move (3600 * n), .call laptopReconcile] ++
      List.replicate 14 (.step n { leaf := { key := "key", chain := "chain", notAfter := some notAfter } })

def inPlace (_ : issuing.Config) (g : Ledger) : Bool :=
  g.lasting && g.streak == [0]

theorem issuance_paced_first :
    ∃ c g, Machine.Reach ledger (Machine.passes recorded) (issuing.idle (fresh .absent .absent)) {}
      c g ∧
      g.streak = [0] ∧ g.Weekly := by
  have hplay : (Machine.play ledger recorded (issuing.idle (fresh .absent .absent)) {}
      (hourly 1 7776000)).any (fun last => inPlace last.1 last.2) = true := by
    decide
  have hrun : ∃ c g, Machine.Reach ledger (Machine.passes recorded)
      (issuing.idle (fresh .absent .absent)) {} c g ∧ inPlace c g = true :=
    Machine.reach_of_play (fun _ _ _ hrecorded => hrecorded) hplay
  obtain ⟨c, g, hreach, hend⟩ := hrun
  obtain ⟨hlasting, hstreak⟩ := Bool.and_eq_true_iff.mp hend
  exact ⟨c, g, hreach, eq_of_beq hstreak, (issuance_paced .absent .absent hreach).2 hlasting⟩

def tooMany (_ : issuing.Config) (g : Ledger) : Bool :=
  5 < (Window.opened (WEEK + 1) 0 g.streak).length

/-- Certificates that live for seven days are renewed by every reconcile. -/
theorem short_lived_renewed :
    ∃ c g, Machine.Reach ledger (Machine.passes recorded) (issuing.idle (fresh .absent .absent)) {}
      c g ∧
      ¬g.Weekly := by
  have hplay : (Machine.play ledger recorded (issuing.idle (fresh .absent .absent)) {}
      (hourly 6 604800)).any (fun last => tooMany last.1 last.2) = true := by
    decide
  have hrun : ∃ c g, Machine.Reach ledger (Machine.passes recorded)
      (issuing.idle (fresh .absent .absent)) {} c g ∧ tooMany c g = true :=
    Machine.reach_of_play (fun _ _ _ hrecorded => hrecorded) hplay
  obtain ⟨c, g, hreach, hend⟩ := hrun
  exact ⟨c, g, hreach, fun hweekly => Nat.not_le_of_lt (of_decide_eq_true hend) (hweekly 0)⟩

end UnityLan.Engine.Cert
