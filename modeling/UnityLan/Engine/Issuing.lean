import UnityLan.Engine.Cert
import UnityLan.Foundation.Pool
import UnityLan.Foundation.Stored

namespace UnityLan.Engine.Cert

open UnityLan.Foundation Prog

/-! The reconciles of a device, operation by operation, over its files and the CA. -/

structure Certs where
  clock : Nat := 0
  record : Stored IssuedState := .absent
  account : Stored String := .absent
  cert : Stored String
  key : Stored String

structure CertChoice where
  fault : Option Fault := none
  error : Option String := none
  credentials : String := ""
  pending : Bool := false
  leaf : Leaf := { key := "", chain := "", notAfter := none }

def CertChoice.answers {α : Type} (choice : CertChoice) (value : α) : Except String α :=
  match choice.error with
  | none => .ok value
  | some error => .error error

namespace Certs

variable (s : Certs) (choice : CertChoice)

def exec : (o : CertOp) → Option (o.Answer × Certs)
  -- not of the reconcile itself
  | .token | .register _ _ | .setStatus _ => none
  | .now => some (s.clock, s)
  | .loadState => some (s.record.readOr {}, s)
  | .saveState state =>
      let (answer, record) := s.record.write choice.fault state
      some (answer, { s with record := record })
  | .loadAccount =>
      match s.account with
      | .absent => some (none, s)
      | .damaged => some (some none, s)
      | .holding credentials => some (some (some credentials), s)
  | .createAccount _ => some (choice.answers choice.credentials, s)
  | .saveAccount credentials =>
      let (answer, account) := s.account.write choice.fault credentials
      some (answer, { s with account := account })
  | .authorizations => some (choice.answers choice.pending, s)
  | .restoreAccount _ | .newOrder _ | .publishChallenges _ | .awaitReady =>
      some (choice.answers (), s)
  | .finalize => some (choice.answers choice.leaf, s)
  | .writeCert chain =>
      let (answer, cert) := s.cert.write choice.fault chain
      some (answer, { s with cert := cert })
  | .writeKey key =>
      let (answer, key) := s.key.write choice.fault key
      some (answer, { s with key := key })
  | .dropOrder => some ((), s)

end Certs

/-- A device that never had a certificate. -/
def fresh (cert key : Stored String) : Certs where
  cert := cert
  key := key

def LATEST : Nat := 2 ^ 63

abbrev issuing : Machine CertSig where
  State := Certs
  Call := Reconcile
  Err := Empty
  Reply := CertStatus
  Choice := CertChoice
  -- The time moves on.
  World := Nat
  start := reconcile
  exec := fun _ o choice s => s.exec choice o
  -- The process may be killed anywhere.
  suspends := fun _ => true
  release := fun _ s => s
  move := fun now s => if s.clock ≤ now && now < LATEST then some { s with clock := now } else none

theorem move_cases {later : Nat} {s s' : Certs} (hmove : issuing.move later s = some s') :
    s.clock ≤ later ∧ later < LATEST ∧ s' = { s with clock := later } := by
  dsimp only at hmove
  split at hmove
  · rename_i hlater
    obtain ⟨hafter, hlatest⟩ := Bool.and_eq_true_iff.mp hlater
    exact ⟨of_decide_eq_true hafter, of_decide_eq_true hlatest, (Option.some.inj hmove).symm⟩
  · cases hmove

/-- The names that a reconcile is to have a certificate for. -/
def Reconcile.wanted (r : Reconcile) : Option CertNames :=
  r.dnsDomain.bind fun domain => CertNames.new r.hostname r.primaryAlias domain r.services

def CertOp.fails : (o : CertOp) → o.Answer → Bool
  | .loadAccount, answer => answer == some none
  | .createAccount _, answer => !answer.isOk
  | .authorizations, answer => !answer.isOk
  | .finalize, .ok leaf => leaf.notAfter.isNone
  | .finalize, .error _ => true
  | .restoreAccount _, answer | .saveAccount _, answer | .newOrder _, answer
  | .publishChallenges _, answer | .awaitReady, answer | .writeCert _, answer
  | .writeKey _, answer => !answer.isOk
  | _, _ => false

def CertOp.prepares (names : CertNames) : CertOp → Prop
  | .newOrder ordered => ordered = names.all
  | .loadAccount | .restoreAccount _ | .createAccount _ | .saveAccount _ => True
  | _ => False

def CertOp.fulfils : CertOp → Prop
  | .authorizations | .publishChallenges _ | .awaitReady | .finalize => True
  | _ => False

/-! How far a reconcile is. -/

inductive Phase
  | starting
  | read (state : IssuedState)
  | shown (state : IssuedState) (live : Bool)
  /-- The stamp moved, and is to be recorded. -/
  | stamped (state : IssuedState) (live : Bool)
  | ready (state : IssuedState) (live : Bool)
  | ordering (state : IssuedState) (live : Bool) (names : CertNames)
  | ordered (state : IssuedState) (live : Bool) (names : CertNames)
  | obtained (state : IssuedState) (live : Bool) (names : CertNames) (leaf : Leaf) (notAfter : Nat)
  /-- The certificate is written. -/
  | placed (state : IssuedState) (live : Bool) (names : CertNames) (leaf : Leaf) (notAfter : Nat)
  /-- Its key is, too. -/
  | paired (names : CertNames) (leaf : Leaf) (notAfter : Nat)
  | failed (state : IssuedState) (live : Bool)
  /-- The failure is to be recorded. -/
  | failing (state : IssuedState) (live : Bool)
  | finished (shown : Option (CertNames × Nat))

namespace Phase

def shows (state : IssuedState) (live : Bool) : Option (CertNames × Nat) :=
  if live then state.names.map fun names => (names, state.expiresAt) else none

def fail : Phase → Phase
  | .ordering state live _ | .ordered state live _ | .obtained state live _ _ _
  | .placed state live _ _ _ => .failed state live
  | phase => phase

def proceed (r : Reconcile) : Phase → (o : CertOp) → o.Answer → Phase
  | .starting, .loadState, state =>
      if state.names.isSome then .read state else .shown state false
  | .read state, .now, now => .shown state (now < state.expiresAt)
  | .shown state live, .now, now =>
      if (notePending r state now).1 then .stamped (notePending r state now).2 live
      else .ready (notePending r state now).2 live
  | .stamped state live, .saveState _, _ => .ready state live
  | .ready state live, .now, now =>
      match decide r state now with
      | .idle _ => .finished (shows state live)
      | .issue names => .ordering state live names
  | .ordering state live names, .newOrder _, _ => .ordered state live names
  | .ordered state live names, .finalize, .ok leaf =>
      .obtained state live names leaf (leaf.notAfter.getD 0)
  | .obtained state live names leaf notAfter, .writeCert _, _ =>
      .placed state live names leaf notAfter
  | .placed _ _ names leaf notAfter, .writeKey _, _ => .paired names leaf notAfter
  | .paired names _ notAfter, .saveState _, _ => .finished (some (names, notAfter))
  | .failed state live, .now, now =>
      .failing { state with failures := min (state.failures + 1) U32_MAX, lastFailure := now } live
  | .failing state live, .saveState _, _ => .finished (shows state live)
  | phase, _, _ => phase

def next (r : Reconcile) (phase : Phase) (o : CertOp) (answer : o.Answer) : Phase :=
  if o.fails answer then phase.fail else phase.proceed r o answer

theorem ready_idle {r : Reconcile} {state : IssuedState} {live : Bool} {now : Nat}
    {why : Option String} (hdecide : decide r state now = .idle why) :
    (ready state live).next r .now now = .finished (shows state live) := by
  simp [next, proceed, CertOp.fails, hdecide]

theorem ready_issue {r : Reconcile} {state : IssuedState} {live : Bool} {now : Nat}
    {names : CertNames} (hdecide : decide r state now = .issue names) :
    (ready state live).next r .now now = .ordering state live names := by
  simp [next, proceed, CertOp.fails, hdecide]

def Allows : Phase → CertOp → Prop
  | .starting, .loadState | .read _, .now | .shown _ _, .now | .ready _ _, .now => True
  | .stamped state _, .saveState saved => saved = state
  | .ordering _ _ names, o => o.prepares names
  | .ordered _ _ _, o => o.fulfils
  | .obtained _ _ _ leaf _, .writeCert chain => chain = leaf.chain
  | .placed _ _ _ leaf _, .writeKey key => key = leaf.key
  | .paired names _ notAfter, .saveState saved =>
      saved = { names := some names, expiresAt := notAfter }
  | .paired _ _ _, .dropOrder | .failed _ _, .dropOrder | .failed _ _, .now => True
  | .failing state _, .saveState saved => saved = state
  | _, _ => False

end Phase

def CertStatus.Shows (status : CertStatus) (stateDir : String) : Option (CertNames × Nat) → Prop
  | none => status.names = [] ∧ status.certPath = none ∧ status.keyPath = none
  | some (names, expiresAt) =>
      status.names = names.all ∧ status.certPath = some (Cert.certPath stateDir) ∧
        status.keyPath = some (Cert.keyPath stateDir) ∧ status.expiresAt = expiresAt

structure Pass where
  r : Reconcile
  phase : Phase := .starting

namespace Pass

def next (μ : Pass) (o : CertOp) (answer : o.Answer) : Pass :=
  { μ with phase := μ.phase.next μ.r o answer }

def Ends (μ : Pass) : Except Empty CertStatus → Prop
  | .ok status => ∃ shown, μ.phase = .finished shown ∧ status.Shows μ.r.stateDir shown
  | .error error => error.elim

end Pass

def passing : Monitor CertSig Pass where
  allows := fun μ => μ.phase.Allows
  expects := fun _ _ _ => True
  next := Pass.next

section

variable {r : Reconcile} {state : IssuedState} {live : Bool} {names : CertNames} {ε α : Type}
  {μ : Pass} {post : Pass → Except ε α → Prop}

theorem conforms_ask {o : CertOp} {next : o.Answer → CertM ε α} (hallows : μ.phase.Allows o)
    (hnext : ∀ answer, (next answer).Conforms passing post (μ.next o answer)) :
    (ask o >>= next).Conforms passing post μ :=
  ⟨hallows, fun answer _ => hnext answer⟩

def goesTo (r : Reconcile) (state : IssuedState) (live : Bool) (after : Phase) (μ : Pass)
    (result : Except String α) : Prop :=
  μ = if result.isOk then ⟨r, after⟩ else ⟨r, .failed state live⟩

theorem goesTo_must {o : CertOp} {before after : Phase} (hallows : before.Allows o)
    {read : o.Answer → Except String α}
    (hgoes : ∀ answer, o.fails answer = false → before.proceed r o answer = after)
    (hfail : before.fail = .failed state live)
    (hread : ∀ answer, o.fails answer = !(read answer).isOk) :
    (must o read).Conforms passing (goesTo r state live after) ⟨r, before⟩ := by
  refine ⟨hallows, fun answer _ => ?_⟩
  have hfails := hread answer
  dsimp only
  generalize read answer = result at hfails
  have hnext : Pass.next ⟨r, before⟩ o answer =
      if result.isOk then ⟨r, after⟩ else ⟨r, .failed state live⟩ := by
    unfold Pass.next Phase.next
    dsimp only
    cases hresult : result.isOk with
    | true =>
        have hfine : o.fails answer = false := hfails.trans (congrArg (!·) hresult)
        rw [hfine, if_neg Bool.false_ne_true, hgoes answer hfine]
        rfl
    | false =>
        have hgiven : o.fails answer = true := hfails.trans (congrArg (!·) hresult)
        rw [hgiven, if_pos rfl, hfail]
        rfl
  cases result <;> exact hnext

theorem goesTo_context {context : String} {program : CertM String α} {before after : Phase}
    (hprogram : program.Conforms passing (goesTo r state live after) ⟨r, before⟩) :
    (withContext context program).Conforms passing (goesTo r state live after) ⟨r, before⟩ := by
  refine hprogram.mapError fun μ result hgoes => ?_
  cases result <;> exact hgoes

theorem goesTo_bind {β : Type} {program : CertM String β} {next : β → CertM String α}
    {before after : Phase} {post : Pass → Except String α → Prop}
    (hprogram : program.Conforms passing (goesTo r state live after) ⟨r, before⟩)
    (hnext : ∀ value, (next value).Conforms passing post ⟨r, after⟩)
    (hfail : ∀ error, post ⟨r, .failed state live⟩ (.error error)) :
    (program >>= next).Conforms passing post ⟨r, before⟩ := by
  refine hprogram.bind ?_ ?_
  · rintro μ value rfl
    exact hnext value
  · rintro μ error rfl
    exact hfail error

theorem conforms_account (cfg : CertConfig) :
    (account cfg).Conforms passing (goesTo r state live (.ordering state live names))
      ⟨r, .ordering state live names⟩ := by
  unfold account
  refine conforms_ask trivial fun answer => ?_
  match answer with
  | some none => exact rfl
  | some (some credentials) =>
      exact goesTo_context (goesTo_must (by trivial) (fun _ _ => rfl) rfl fun _ => rfl)
  | none =>
      refine goesTo_bind (goesTo_context
        (goesTo_must (by trivial) (fun _ _ => rfl) rfl fun _ => rfl))
        (fun credentials => ?_) fun _ => rfl
      exact goesTo_context (goesTo_must (by trivial) (fun _ _ => rfl) rfl fun _ => rfl)

def attempted (r : Reconcile) (state : IssuedState) (live : Bool) (names : CertNames) (μ : Pass) :
    Except String Nat → Prop
  | .ok notAfter => ∃ leaf, μ = ⟨r, .paired names leaf notAfter⟩
  | .error _ => μ = ⟨r, .failed state live⟩

theorem conforms_finalize :
    finalize.Conforms passing (attempted r state live names) ⟨r, .ordered state live names⟩ := by
  unfold finalize withContext
  refine ⟨trivial, fun answer _ => ?_⟩
  match answer with
  | .error error => exact rfl
  | .ok ⟨key, chain, none⟩ => exact rfl
  | .ok ⟨key, chain, some notAfter⟩ =>
      let leaf : Leaf := ⟨key, chain, some notAfter⟩
      have hcert : (withContext "writing the certificate" (must (.writeCert chain) id)).Conforms
          passing (goesTo r state live (.placed state live names leaf notAfter))
          ⟨r, .obtained state live names leaf notAfter⟩ :=
        goesTo_context (goesTo_must (by exact rfl) (fun _ _ => rfl) rfl fun _ => rfl)
      have hkey : (withContext "writing the certificate key" (must (.writeKey key) id)).Conforms
          passing (goesTo r state live (.paired names leaf notAfter))
          ⟨r, .placed state live names leaf notAfter⟩ :=
        goesTo_context (goesTo_must (by exact rfl) (fun _ _ => rfl) rfl fun _ => rfl)
      have hrest : (do
          withContext "writing the certificate" (must (.writeCert chain) id)
          withContext "writing the certificate key" (must (.writeKey key) id)
          return notAfter : CertM String Nat).Conforms passing (attempted r state live names)
            ⟨r, .obtained state live names leaf notAfter⟩ := by
        refine goesTo_bind hcert (fun _ => ?_) fun _ => rfl
        exact goesTo_bind hkey (fun _ => (conforms_ret notAfter _).mpr ⟨leaf, rfl⟩) fun _ => rfl
      exact hrest

theorem conforms_fulfil (token : String) :
    (fulfil token).Conforms passing (attempted r state live names)
      ⟨r, .ordered state live names⟩ := by
  have hstays : ∀ {β : Type} {o : CertOp} {read : o.Answer → Except String β}, o.fulfils →
      (∀ answer, o.fails answer = false →
        (Phase.ordered state live names).proceed r o answer = .ordered state live names) →
      (∀ answer, o.fails answer = !(read answer).isOk) →
      (must o read).Conforms passing (goesTo r state live (.ordered state live names))
        ⟨r, .ordered state live names⟩ :=
    fun hfulfils hsame hread => goesTo_must (by exact hfulfils) hsame rfl hread
  unfold fulfil
  refine goesTo_bind (hstays (by trivial) (fun _ _ => rfl) fun _ => rfl) (fun pending => ?_)
    fun _ => rfl
  cases pending with
  | false => exact conforms_finalize
  | true =>
      refine goesTo_bind (goesTo_context (hstays (by trivial) (fun _ _ => rfl) fun _ => rfl))
        (fun _ => ?_) fun _ => rfl
      exact goesTo_bind (hstays (by trivial) (fun _ _ => rfl) fun _ => rfl)
        (fun _ => conforms_finalize) fun _ => rfl

theorem conforms_issue (cfg : CertConfig) (token : String) :
    (issue cfg token names).Conforms passing (attempted r state live names)
      ⟨r, .ordering state live names⟩ := by
  unfold issue
  refine goesTo_bind (conforms_account cfg) (fun _ => ?_) fun _ => rfl
  have horder : (withContext "creating the ACME order" (must (.newOrder names.all) id)).Conforms passing
      (goesTo r state live (.ordered state live names)) ⟨r, .ordering state live names⟩ :=
    goesTo_context (goesTo_must (by exact rfl) (fun _ _ => rfl) rfl fun _ => rfl)
  refine goesTo_bind horder (fun _ => ?_) fun _ => rfl
  rw [conforms_bind, conforms_attempt]
  refine (conforms_fulfil token).mono fun μ result hresult => ?_
  cases result with
  | ok notAfter =>
      obtain ⟨leaf, rfl⟩ := hresult
      exact conforms_ask trivial fun _ => ⟨leaf, rfl⟩
  | error error =>
      obtain rfl : μ = ⟨r, .failed state live⟩ := hresult
      exact conforms_ask trivial fun _ => rfl

def issuedStatus (r : Reconcile) (names : CertNames) (expiresAt : Nat) : CertStatus where
  enabled := r.enabled
  domain := r.dnsDomain
  names := names.all
  certPath := some (certPath r.stateDir)
  keyPath := some (keyPath r.stateDir)
  expiresAt := expiresAt

def attempting (r : Reconcile) (state : IssuedState) (status : CertStatus) (names : CertNames) :
    CertM Empty CertStatus := do
  match ← (issue r.cfg r.token names).attempt with
  | .ok expiresAt =>
      let _ ← ask (.saveState { names := some names, expiresAt := expiresAt })
      return issuedStatus r names expiresAt
  | .error error =>
      let now ← ask .now
      let _ ← ask (.saveState
        { state with failures := min (state.failures + 1) U32_MAX, lastFailure := now })
      return { status with blocked := some error }

def deciding (r : Reconcile) (state : IssuedState) (status : CertStatus) :
    CertM Empty CertStatus := do
  match decide r state (← ask .now) with
  | .idle why => return { status with blocked := why }
  | .issue names => attempting r state status names

def judging (r : Reconcile) (state : IssuedState) (status : CertStatus) :
    CertM Empty CertStatus := do
  let (moved, state) := notePending r state (← ask .now)
  if moved then
    let _ ← ask (.saveState state)
  deciding r state status

theorem reconcile_eq (r : Reconcile) :
    reconcile r = (do
      let state ← ask .loadState
      match state.names with
      | none => judging r state { enabled := r.enabled, domain := r.dnsDomain }
      | some names => do
          let now ← ask .now
          judging r state (if now < state.expiresAt then issuedStatus r names state.expiresAt
            else { enabled := r.enabled, domain := r.dnsDomain })) := by
  unfold reconcile
  refine congrArg (Prog.op (S := CertSig) CertOp.loadState) (funext fun state => ?_)
  generalize state.names = names
  cases names <;> rfl

theorem shows_blocked {status : CertStatus} {stateDir : String} {shown : Option (CertNames × Nat)}
    (hshows : status.Shows stateDir shown) (why : Option String) :
    ({ status with blocked := why } : CertStatus).Shows stateDir shown := by
  cases shown <;> exact hshows

theorem conforms_attempting {status : CertStatus}
    (hshows : status.Shows r.stateDir (Phase.shows state live)) :
    (attempting r state status names).Conforms passing Pass.Ends
      ⟨r, .ordering state live names⟩ := by
  unfold attempting
  rw [conforms_bind, conforms_attempt]
  refine (conforms_issue r.cfg r.token).mono fun μ result hresult => ?_
  cases result with
  | ok expiresAt =>
      obtain ⟨leaf, rfl⟩ := hresult
      exact conforms_ask rfl fun _ => ⟨_, rfl, rfl, rfl, rfl, rfl⟩
  | error error =>
      obtain rfl : μ = ⟨r, .failed state live⟩ := hresult
      exact conforms_ask trivial fun now => conforms_ask rfl fun _ =>
        ⟨_, rfl, shows_blocked hshows _⟩

theorem conforms_deciding {status : CertStatus}
    (hshows : status.Shows r.stateDir (Phase.shows state live)) :
    (deciding r state status).Conforms passing Pass.Ends ⟨r, .ready state live⟩ := by
  unfold deciding
  refine conforms_ask trivial fun now => ?_
  have hnext : (⟨r, .ready state live⟩ : Pass).next .now now =
      ⟨r, match decide r state now with
        | .idle _ => .finished (Phase.shows state live)
        | .issue names => .ordering state live names⟩ := rfl
  rw [hnext]
  cases decide r state now with
  | idle why => exact ⟨_, rfl, shows_blocked hshows _⟩
  | issue names => exact conforms_attempting hshows

theorem conforms_judging {status : CertStatus}
    (hshows : status.Shows r.stateDir (Phase.shows state live)) :
    (judging r state status).Conforms passing Pass.Ends ⟨r, .shown state live⟩ := by
  unfold judging
  refine conforms_ask trivial fun now => ?_
  have hshows' : status.Shows r.stateDir (Phase.shows (notePending r state now).2 live) := hshows
  have hnext : (⟨r, .shown state live⟩ : Pass).next .now now =
      ⟨r, if (notePending r state now).1 then .stamped (notePending r state now).2 live
        else .ready (notePending r state now).2 live⟩ := rfl
  rw [hnext]
  generalize notePending r state now = noted at hshows'
  obtain ⟨moved, state'⟩ := noted
  cases moved with
  | false => exact conforms_deciding hshows'
  | true => exact conforms_ask rfl fun _ => conforms_deciding hshows'

theorem conforms_reconcile (r : Reconcile) :
    (reconcile r).Conforms passing Pass.Ends { r := r } := by
  rw [reconcile_eq]
  refine conforms_ask trivial fun state => ?_
  have hnext : (⟨r, .starting⟩ : Pass).next .loadState state =
      ⟨r, if state.names.isSome then .read state else .shown state false⟩ := rfl
  rw [hnext]
  cases hnames : state.names with
  | none => exact conforms_judging ⟨rfl, rfl, rfl⟩
  | some names =>
      refine conforms_ask trivial fun now => ?_
      have hread : (⟨r, .read state⟩ : Pass).next .now now =
          ⟨r, .shown state (now < state.expiresAt)⟩ := rfl
      rw [if_pos (Option.isSome_some), hread]
      by_cases hlive : now < state.expiresAt
      · rw [if_pos hlive, decide_eq_true hlive]
        have hshows : Phase.shows state true = some (names, state.expiresAt) := by
          rw [Phase.shows, if_pos rfl, hnames]
          rfl
        exact conforms_judging (hshows ▸ ⟨rfl, rfl, rfl, rfl⟩)
      · rw [if_neg hlive, decide_eq_false hlive]
        exact conforms_judging ⟨rfl, rfl, rfl⟩

end

def laptopReconcile : Reconcile where
  stateDir := "/var/lib/unity"
  token := "token"
  cfg := {}
  hostname := "laptop.gordon.unity.internal"
  primaryAlias := none
  dnsDomain := some "mesh.example.com"
  enabled := true
  exposed := true
  services := []

end UnityLan.Engine.Cert
