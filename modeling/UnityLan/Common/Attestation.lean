import UnityLan.Common.Basic

namespace UnityLan

/-! Signatures are symbolic: a signed value names the key that signed it, and only
that key's anchor verifies it. -/

inductive WireError
  | badSignature
  | postcard
  deriving DecidableEq

def WireError.text : WireError → String
  | .badSignature => "signature verification failed"
  | .postcard => "postcard (de)serialization failed"

structure Signed (α : Type) where
  signer : Anchor
  payload : α
  deriving DecidableEq

namespace Signed

variable {α : Type}

def sign (key : Anchor) (value : α) : Signed α :=
  ⟨key, value⟩

def verify (signed : Signed α) (anchor : Anchor) : Except WireError α :=
  if signed.signer = anchor then .ok signed.payload else .error .badSignature

@[simp] theorem verify_ok {signed : Signed α} {anchor : Anchor} {value : α} :
    signed.verify anchor = .ok value ↔ signed.signer = anchor ∧ signed.payload = value := by
  unfold verify
  split
  · rename_i hsigner
    simp [hsigner]
  · rename_i hsigner
    simp [hsigner]

end Signed

def ATTESTATION_SCHEMA_V1 : Nat := 0

def ATTESTATION_SCHEMA_V2 : Nat := 1

def PERSONAL_SCOPE : GuildId := 0

def DNS_SUFFIX : String := "unity.internal"

structure Attestation where
  guildId : GuildId
  userId : UserId
  username : String
  deviceName : String
  isPrimary : Bool
  wgIp : Ipv4Addr
  wgNet : Ipv4Net
  wgPubkey : PubKey
  issuedAt : Nat
  expiresAt : Nat
  deriving DecidableEq

namespace Attestation

def isExpired (att : Attestation) (now : Nat) : Bool :=
  now ≥ att.expiresAt

def hostname (att : Attestation) : String :=
  s!"{att.deviceName}.{att.username}.{DNS_SUFFIX}"

def primaryAlias (att : Attestation) : Option String :=
  if att.isPrimary then some s!"{att.username}.{DNS_SUFFIX}" else none

end Attestation

structure AttestationBytes where
  layout : Nat
  attestation : Attestation
  deriving DecidableEq

abbrev AttestationBlob := Signed AttestationBytes

inductive AttestationError
  | wire (error : WireError)
  | expired
  | guildMismatch (expected got : GuildId)
  | unknownSchema (got : Nat)
  deriving DecidableEq

def AttestationError.text : AttestationError → String
  | .wire error => error.text
  | .expired => "attestation expired"
  | .guildMismatch expected got =>
      s!"attestation guild mismatch: expected {expected}, got {got}"
  | .unknownSchema got =>
      s!"attestation wire layout {got} is not one this build reads (peer version skew)"

def signAttestation (key : Anchor) (att : Attestation) (schema : Nat) :
    Except AttestationError AttestationBlob :=
  if schema = ATTESTATION_SCHEMA_V1 ∨ schema = ATTESTATION_SCHEMA_V2 then
    .ok (.sign key ⟨schema, att⟩)
  else .error (.unknownSchema schema)

def verifyAttestation (signed : AttestationBlob) (anchor : Anchor) (now : Nat)
    (expectedGuild : GuildId) (schema : Nat) : Except AttestationError Attestation :=
  if schema = ATTESTATION_SCHEMA_V1 ∨ schema = ATTESTATION_SCHEMA_V2 then
    match signed.verify anchor with
    | .error error => .error (.wire error)
    | .ok bytes =>
        -- bytes of the other layout do not decode as this one
        if bytes.layout ≠ schema then .error (.wire .postcard)
        else if bytes.attestation.guildId ≠ expectedGuild then
          .error (.guildMismatch expectedGuild bytes.attestation.guildId)
        else if bytes.attestation.isExpired now then .error .expired
        else .ok bytes.attestation
  else .error (.unknownSchema schema)

theorem verifyAttestation_ok {signed : AttestationBlob} {anchor : Anchor}
    {now guild schema : Nat} {att : Attestation} :
    verifyAttestation signed anchor now guild schema = .ok att ↔
      (schema = ATTESTATION_SCHEMA_V1 ∨ schema = ATTESTATION_SCHEMA_V2) ∧
        signed = ⟨anchor, ⟨schema, att⟩⟩ ∧ att.guildId = guild ∧ now < att.expiresAt := by
  constructor
  · intro hverified
    unfold verifyAttestation at hverified
    split at hverified
    · rename_i hschema
      cases hbytes : signed.verify anchor with
      | error error =>
          rw [hbytes] at hverified
          cases hverified
      | ok bytes =>
          simp only [hbytes] at hverified
          obtain ⟨hsigner, hpayload⟩ := Signed.verify_ok.mp hbytes
          split at hverified
          · cases hverified
          · rename_i hlayout
            split at hverified
            · cases hverified
            · rename_i hguild
              split at hverified
              · cases hverified
              · rename_i hfresh
                cases hverified
                simp only [Attestation.isExpired, decide_eq_true_eq] at hfresh
                refine ⟨hschema, ?_, Decidable.not_not.mp hguild, Nat.lt_of_not_le hfresh⟩
                rw [← hsigner, ← Decidable.not_not.mp hlayout, ← hpayload]
    · cases hverified
  · rintro ⟨hschema, rfl, rfl, hfresh⟩
    unfold verifyAttestation
    rw [if_pos hschema]
    simp [Signed.verify, Attestation.isExpired, hfresh]

end UnityLan
