import UnityLan.Coordinator.Store

namespace UnityLan.Coordinator

open UnityLan.Foundation

/-! Who is calling, and may they act as this device? -/

variable (conf : Conf)

/-- Only the bearer token admits an enrolled device; a row without one fails closed. -/
def decideDeviceAuth (stored presented : Option String) : Bool :=
  match stored, presented with
  | some stored, some presented => stored == presented
  | _, _ => false

def authenticateEnrolled (req : RegisterReq) : Handler Unit := do
  match ← (Store.deviceAuth req.wgPubkey).mapError internal with
  -- the row vanished since `deviceOwner`: left to the rebuild
  | none => return
  | some stored =>
      if decideDeviceAuth stored req.deviceToken then return
      else throw ⟨.unauthorized, "device token missing or invalid"⟩

inductive PossessionOutcome
  | proven
  | unproven
  | rejectInvalid
  | rejectMissing
  deriving DecidableEq

def decidePossession (valid : Option Bool) (require : Bool) : PossessionOutcome :=
  match valid, require with
  | some true, _ => .proven
  | some false, _ => .rejectInvalid
  | none, true => .rejectMissing
  | none, false => .unproven

def verifyEnrollProof (req : RegisterReq) (proof : EnrollProof) : Bool :=
  proof.device == req.wgPubkey && proof.deployment == conf.enrollPublic

def possession (req : RegisterReq) : PossessionOutcome :=
  decidePossession (req.possessionProof.map (verifyEnrollProof conf req))
    conf.requireEnrollProof

def verifyPossession (req : RegisterReq) : Handler Unit :=
  match possession conf req with
  | .proven => return
  | .unproven => return
  | .rejectInvalid => throw ⟨.unauthorized, "enrollment possession proof invalid"⟩
  | .rejectMissing =>
      throw ⟨.unauthorized, "enrollment requires a possession proof; update the client"⟩

def enrollingUser (req : RegisterReq) : Handler (UserId × Bool) := do
  match ← (sql (.oauthUser req.wgPubkey)).mapError internal with
  | some user =>
      verifyPossession conf req
      return (user, false)
  | none =>
      match req.enrollmentKey with
      | none =>
          throw ⟨.unauthorized,
            "device not enrolled; log in (oauth) or provide an enrollment_key"⟩
      | some key =>
          verifyPossession conf req
          let now ← act .nowUnix
          let user ← (Store.consumeEnrollmentKey key req.wgPubkey now).mapError
            fun error => ⟨.unauthorized, error.text⟩
          return (user, false)

def resolveUser (req : RegisterReq) : Handler (UserId × Bool) := do
  match ← (Store.deviceOwner req.wgPubkey).mapError internal with
  | some user =>
      authenticateEnrolled req
      return (user, true)
  | none => enrollingUser conf req

end UnityLan.Coordinator
