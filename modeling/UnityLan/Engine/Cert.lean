import UnityLan.Common.Api
import UnityLan.Foundation.Eval

namespace UnityLan.Engine.Cert

open UnityLan.Foundation Prog

/-! The certificate of a device: what it names, when one is ordered, and the reconcile that orders
it.  Times are in seconds. -/

def DEFAULT_DIRECTORY : String := "https://acme-v02.api.letsencrypt.org/directory"

def RENEW_BEFORE : Nat := 30 * 24 * 60 * 60

def SETTLE : Nat := 10 * 60

def U64_MAX : Nat := 2 ^ 64 - 1

def U32_MAX : Nat := 2 ^ 32 - 1

def asciiLower (text : String) : String :=
  String.ofList (text.toList.map Char.toLower)

theorem toList_asciiLower (text : String) :
    (asciiLower text).toList = text.toList.map Char.toLower := by
  unfold asciiLower
  exact String.toList_ofList

theorem toNat_toLower (c : Char) :
    c.toLower.toNat = if 65 ≤ c.toNat ∧ c.toNat ≤ 90 then c.toNat + 32 else c.toNat := by
  unfold Char.toLower
  have hupper : (c.val ≥ 'A'.val ∧ c.val ≤ 'Z'.val) ↔ 65 ≤ c.toNat ∧ c.toNat ≤ 90 :=
    and_congr UInt32.le_iff_toNat_le UInt32.le_iff_toNat_le
  split
  · rename_i h
    rw [if_pos (hupper.mp h)]
    obtain ⟨_, hmost⟩ := hupper.mp h
    change (c.val + 32).toNat = c.val.toNat + 32
    rw [UInt32.toNat_add]
    have hsmall : c.val.toNat ≤ 90 := hmost
    exact Nat.mod_eq_of_lt (show c.val.toNat + 32 < 2 ^ 32 by omega)
  · rename_i h
    rw [if_neg fun h' => h (hupper.mpr h')]

theorem toLower_idem (c : Char) : c.toLower.toLower = c.toLower := by
  apply Char.toNat_inj.mp
  rw [toNat_toLower c.toLower]
  have hlower := toNat_toLower c
  split at hlower
  · rw [if_neg (by omega)]
  · rw [if_neg (by omega)]

def trimEndDots (name : String) : String :=
  String.ofList (name.toList.reverse.dropWhile (· == '.')).reverse

theorem trimEndDots_eq {name : String} {last : Char} {rest : List Char}
    (hlist : name.toList.reverse = last :: rest) (hlast : last ≠ '.') :
    trimEndDots name = name := by
  unfold trimEndDots
  rw [hlist, List.dropWhile_cons_of_neg (by simpa using hlast), ← hlist, List.reverse_reverse,
    String.ofList_toList]

def stripSuffix (suffix name : List Char) : Option (List Char) :=
  if suffix.isSuffixOf name then some (name.take (name.length - suffix.length)) else none

def splitOnceDot (name : String) : Option (String × String) :=
  match name.toList.span (· != '.') with
  | (_, []) => none
  | (label, _ :: rest) => some (String.ofList label, String.ofList rest)

def certificateAlias (name domain : String) : Option String :=
  (stripSuffix ("." ++ DNS_SUFFIX).toList (trimEndDots name).toList).map fun stem =>
    asciiLower (String.ofList stem ++ "." ++ domain)

structure CertNames where
  device : String
  primary : Option String := none
  services : List String := []
  deriving DecidableEq

namespace CertNames

def new (hostname : String) (primaryAlias : Option String) (domain : String)
    (services : List String) : Option CertNames := do
  let device ← certificateAlias hostname domain
  let (_, user) ← splitOnceDot device
  return {
    device := device
    primary := primaryAlias.bind fun name => certificateAlias name domain
    services := services.map fun label => asciiLower (label ++ "." ++ user) }

def wildcard (names : CertNames) : String :=
  "*." ++ names.device

def all (names : CertNames) : List String :=
  [names.device, names.wildcard] ++ names.primary.toList ++ names.services

end CertNames

/-- `issued.json`. -/
structure IssuedState where
  names : Option CertNames := none
  expiresAt : Nat := 0
  lastFailure : Nat := 0
  failures : Nat := 0
  pendingSince : Nat := 0
  deriving DecidableEq

def IssuedState.backoff (state : IssuedState) : Nat :=
  if state.failures = 0 then 0
  else min (min (300 * 2 ^ min state.failures 32) U64_MAX) (24 * 60 * 60)

structure CertConfig where
  acmeDirectory : Option String := none

structure Reconcile where
  stateDir : String
  token : String
  cfg : CertConfig
  hostname : String
  primaryAlias : Option String
  dnsDomain : Option String
  enabled : Bool
  exposed : Bool
  services : List String

def certPath (stateDir : String) : String :=
  stateDir ++ "/certs/cert.pem"

def keyPath (stateDir : String) : String :=
  stateDir ++ "/certs/key.pem"

inductive Action
  /-- Why there is nothing to do, where that is worth a word. -/
  | idle (why : Option String)
  | issue (names : CertNames)
  deriving DecidableEq

/-- Stamps when the wanted names stopped matching; whether the stamp moved. -/
def notePending (r : Reconcile) (state : IssuedState) (now : Nat) : Bool × IssuedState :=
  let wanted := r.dnsDomain.bind fun domain =>
    CertNames.new r.hostname r.primaryAlias domain r.services
  let agrees := wanted.isSome && wanted == state.names
  let pendingSince :=
    if agrees || state.names.isNone then 0
    else if state.pendingSince = 0 then now
    else state.pendingSince
  (pendingSince != state.pendingSince, { state with pendingSince := pendingSince })

def unrenewed : String :=
  "no port is exposed, so this certificate will not be renewed"

def exposeFirst : String :=
  "expose a port first — a certificate is only useful if something is listening"

def batched (minutes : Nat) : String :=
  s!"the services this certificate covers changed; reissuing in about {minutes} minutes " ++
    "(batched, so naming a few in a row costs one certificate)"

def backingOff (minutes : Nat) : String :=
  s!"the last attempt failed; retrying in about {minutes} minutes"

def decide (r : Reconcile) (state : IssuedState) (now : Nat) : Action :=
  match r.dnsDomain with
  | none => .idle none
  | some domain =>
      if !r.enabled then .idle none else
      match CertNames.new r.hostname r.primaryAlias domain r.services with
      | none => .idle (some "this device has no mesh name yet")
      | some names =>
          let held := state.names == some names && now < state.expiresAt
          let renewDue := state.expiresAt - now < RENEW_BEFORE
          let waited := now - state.pendingSince
          let retryAt := min (state.lastFailure + state.backoff) U64_MAX
          if !r.exposed then .idle (some (if held then unrenewed else exposeFirst))
          else if held && !renewDue then .idle none
          else if !held && now < state.expiresAt && !renewDue && waited < SETTLE then
            .idle (some (batched (max ((SETTLE - waited) / 60) 1)))
          else if 0 < state.failures && now < retryAt then
            .idle (some (backingOff (max ((retryAt - now) / 60) 1)))
          else .issue names

structure CertStatus where
  enabled : Bool := false
  domain : Option String := none
  names : List String := []
  certPath : Option String := none
  keyPath : Option String := none
  expiresAt : Nat := 0
  blocked : Option String := none
  deriving DecidableEq

/-! The reconcile, by its steps on the disk and over the network. -/

structure Leaf where
  key : String
  chain : String
  /-- `none` where the certificate does not parse. -/
  notAfter : Option Nat
  deriving DecidableEq

inductive CertOp
  /-- The token of the enrollment, as it is when it is read. -/
  | token
  | register (token : String) (web : List String)
  | now
  | loadState
  | saveState (state : IssuedState)
  | loadAccount
  | restoreAccount (credentials : String)
  | createAccount (directory : String)
  | saveAccount (credentials : String)
  | newOrder (names : List String)
  /-- Collects the challenges; whether there is one to publish. -/
  | authorizations
  | publishChallenges (token : String)
  | awaitReady
  | finalize
  | writeCert (chain : String)
  | writeKey (key : String)
  | dropOrder
  | setStatus (status : CertStatus)

abbrev CertOp.Answer : CertOp → Type
  | .token => Option String
  | .register _ _ => Except String (List String)
  | .now => Nat
  | .loadState => IssuedState
  /- The file, and what it decodes to. -/
  | .loadAccount => Option (Option String)
  | .createAccount _ => Except String String
  | .authorizations => Except String Bool
  | .finalize => Except String Leaf
  | .dropOrder => Unit
  | .setStatus _ => Unit
  | _ => Except String Unit

abbrev CertSig : Sig where
  Op := CertOp
  Res := CertOp.Answer

abbrev CertM (ε α : Type) := Prog CertSig ε α

def ask {ε : Type} (o : CertOp) : CertM ε o.Answer :=
  perform (S := CertSig) o

def must {α : Type} (o : CertOp) (read : o.Answer → Except String α) : CertM String α :=
  performOr o read

def withContext {α : Type} (context : String) (program : CertM String α) : CertM String α :=
  program.mapError fun error => context ++ ": " ++ error

def account (cfg : CertConfig) : CertM String Unit := do
  match ← ask .loadAccount with
  | some none => throw "decoding the saved ACME account"
  | some (some credentials) =>
      withContext "restoring the saved ACME account" (must (.restoreAccount credentials) id)
  | none =>
      let credentials ← withContext "creating an ACME account"
        (must (.createAccount (cfg.acmeDirectory.getD DEFAULT_DIRECTORY)) id)
      withContext "saving the ACME account" (must (.saveAccount credentials) id)

def finalize : CertM String Nat := do
  let leaf ← withContext "finalizing the order" (must .finalize id)
  match leaf.notAfter with
  | none => throw "the CA returned an unparseable certificate"
  | some notAfter =>
      withContext "writing the certificate" (must (.writeCert leaf.chain) id)
      withContext "writing the certificate key" (must (.writeKey leaf.key) id)
      return notAfter

def fulfil (token : String) : CertM String Nat := do
  let pending ← must .authorizations id
  if pending then
    withContext "asking the coordinator to publish the challenge"
      (must (.publishChallenges token) id)
    must .awaitReady id
  finalize

/-- One issuance; the order is dropped however it ends. -/
def issue (cfg : CertConfig) (token : String) (names : CertNames) : CertM String Nat := do
  account cfg
  withContext "creating the ACME order" (must (.newOrder names.all) id)
  match ← (fulfil token).attempt with
  | .ok expiresAt =>
      ask .dropOrder
      return expiresAt
  | .error error =>
      ask .dropOrder
      throw error

def reconcile (r : Reconcile) : CertM Empty CertStatus := do
  let state ← ask .loadState
  let bare : CertStatus := { enabled := r.enabled, domain := r.dnsDomain }
  let issued (names : CertNames) (expiresAt : Nat) : CertStatus :=
    { bare with
      names := names.all
      certPath := some (certPath r.stateDir)
      keyPath := some (keyPath r.stateDir)
      expiresAt := expiresAt }
  let status ←
    match state.names with
    | none => pure bare
    | some names => do
        let now ← ask .now
        pure (if now < state.expiresAt then issued names state.expiresAt else bare)
  let (moved, state) := notePending r state (← ask .now)
  if moved then
    let _ ← ask (.saveState state)
  match decide r state (← ask .now) with
  | .idle why => return { status with blocked := why }
  | .issue names =>
      match ← (issue r.cfg r.token names).attempt with
      | .ok expiresAt =>
          let _ ← ask (.saveState { names := some names, expiresAt := expiresAt })
          return issued names expiresAt
      | .error error =>
          let now ← ask .now
          let failed := { state with
            failures := min (state.failures + 1) U32_MAX
            lastFailure := now }
          let _ ← ask (.saveState failed)
          return { status with blocked := some error }

structure Request where
  stateDir : String
  cfg : CertConfig
  hostname : String
  primaryAlias : Option String
  dnsDomain : Option String
  enabled : Bool
  exposed : Bool
  web : List String

/-- The task that a pass starts. -/
def spawned (request : Request) : CertM Empty Unit := do
  match ← ask .token with
  | none => return ()
  | some token =>
      let services ←
        if request.web.isEmpty then pure []
        else do
          match ← ask (.register token request.web) with
          | .ok registered => pure registered
          | .error _ => pure []
      let report ← reconcile {
        stateDir := request.stateDir
        token := token
        cfg := request.cfg
        hostname := request.hostname
        primaryAlias := request.primaryAlias
        dnsDomain := request.dnsDomain
        enabled := request.enabled
        exposed := request.exposed
        services := services }
      ask (.setStatus report)

end UnityLan.Engine.Cert
