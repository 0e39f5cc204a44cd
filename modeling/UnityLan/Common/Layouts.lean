import UnityLan.Common.Attestation
import UnityLan.Foundation.Postcard

namespace UnityLan.Layouts

open Foundation Foundation.Codec

/-! The bytes of an attestation, in both of its layouts, and what they are read as. -/

/-- The fields as the wire has them. -/
structure WireAttestation where
  guildId : BitVec 64
  userId : BitVec 64
  username : Text
  deviceName : Text
  isPrimary : Bool
  wgIp : Ipv4Addr
  wgNet : Ipv4Net
  wgPubkey : PubKey
  issuedAt : BitVec 64
  expiresAt : BitVec 64
  deriving DecidableEq

def addr : Codec Ipv4Addr :=
  word 4 (by decide)

def net : Codec Ipv4Net :=
  record (addr.prod (word 1 (by decide) : Codec (BitVec 8)))
    (fun read => if hlen : read.2.toNat < 33 then some ⟨read.1, ⟨read.2.toNat, hlen⟩⟩ else none)
    (fun net => (net.addr, BitVec.ofNat 8 net.prefixLen.val)) (by
      intro net
      have hbyte : (BitVec.ofNat 8 net.prefixLen.val).toNat = net.prefixLen.val := by
        rw [BitVec.toNat_ofNat]
        omega
      simp only [hbyte]
      rw [dif_pos net.prefixLen.isLt])

def pubkey : Codec PubKey :=
  word 32 (by decide)

def layoutV1 : Codec WireAttestation :=
  record (u64.prod (u64.prod (text.prod (text.prod (bool.prod (addr.prod (net.prod (pubkey.prod
      (u64.prod u64)))))))))
    (fun (guildId, userId, username, deviceName, isPrimary, wgIp, wgNet, wgPubkey, issuedAt,
        expiresAt) =>
      some ⟨guildId, userId, username, deviceName, isPrimary, wgIp, wgNet, wgPubkey, issuedAt,
        expiresAt⟩)
    (fun att => (att.guildId, att.userId, att.username, att.deviceName, att.isPrimary, att.wgIp,
      att.wgNet, att.wgPubkey, att.issuedAt, att.expiresAt))
    fun _ => rfl

/-- The layout with its schema in front. -/
def layoutV2 : Codec (BitVec 32 × WireAttestation) :=
  u32.prod layoutV1

/-! Signed bytes. -/

/-- A signature verifies under the anchor of its key. -/
structure SignatureScheme where
  Secret : Type
  anchor : Secret → Anchor
  sign : Secret → List Byte → List Byte
  verify : Anchor → List Byte → List Byte → Bool
  length_sign : ∀ secret message, (sign secret message).length = 64
  verify_sign : ∀ secret message, verify (anchor secret) message (sign secret message) = true

/-- The signature of a message is none of another message, nor under another anchor. -/
def SignatureScheme.Binds (scheme : SignatureScheme) (secret : scheme.Secret)
    (message : List Byte) : Prop :=
  ∀ anchor other, scheme.verify anchor other (scheme.sign secret message) = true →
    anchor = scheme.anchor secret ∧ other = message

structure Envelope where
  payload : List Byte
  sig : List Byte
  deriving DecidableEq

inductive EnvelopeError
  | badSignature
  | badSignatureLength
  | postcard
  deriving DecidableEq

inductive LayoutError
  | wire (error : EnvelopeError)
  | expired
  | guildMismatch (expected got : BitVec 64)
  | unknownSchema (got : Nat)
  | schemaMismatch (expected got : Nat)
  deriving DecidableEq

variable (scheme : SignatureScheme)

namespace Envelope

variable {α : Type}

def sign (secret : scheme.Secret) (codec : Codec α) (value : α) : Envelope :=
  ⟨codec.encode value, scheme.sign secret (codec.encode value)⟩

def verify (signed : Envelope) (anchor : Anchor) (codec : Codec α) : Except EnvelopeError α :=
  if signed.sig.length ≠ 64 then .error .badSignatureLength
  else if !scheme.verify anchor signed.payload signed.sig then .error .badSignature
  else
    match codec.decode signed.payload with
    | none => .error .postcard
    | some (value, _) => .ok value

end Envelope

def signAttestation (secret : scheme.Secret) (att : WireAttestation) (schema : Nat) :
    Except LayoutError Envelope :=
  if schema = ATTESTATION_SCHEMA_V1 then .ok (.sign scheme secret layoutV1 att)
  else if schema = ATTESTATION_SCHEMA_V2 then
    .ok (.sign scheme secret layoutV2 (BitVec.ofNat 32 ATTESTATION_SCHEMA_V2, att))
  else .error (.unknownSchema schema)

def readLayout (signed : Envelope) (anchor : Anchor) (schema : Nat) :
    Except LayoutError WireAttestation :=
  if schema = ATTESTATION_SCHEMA_V1 then
    match signed.verify scheme anchor layoutV1 with
    | .error error => .error (.wire error)
    | .ok att => .ok att
  else if schema = ATTESTATION_SCHEMA_V2 then
    match signed.verify scheme anchor layoutV2 with
    | .error error => .error (.wire error)
    | .ok v2 =>
        -- the envelope said this layout, and the signed bytes say another
        if v2.1.toNat ≠ ATTESTATION_SCHEMA_V2 then
          .error (.schemaMismatch ATTESTATION_SCHEMA_V2 v2.1.toNat)
        else .ok v2.2
  else .error (.unknownSchema schema)

def verifyAttestation (signed : Envelope) (anchor : Anchor) (now : Nat)
    (expectedGuild : BitVec 64) (schema : Nat) : Except LayoutError WireAttestation :=
  match readLayout scheme signed anchor schema with
  | .error error => .error error
  | .ok att =>
      if att.guildId ≠ expectedGuild then .error (.guildMismatch expectedGuild att.guildId)
      else if att.expiresAt.toNat ≤ now then .error .expired
      else .ok att

/-! What is read. -/

section

variable {scheme} {α β : Type}

theorem verify_ok {signed : Envelope} {anchor : Anchor} {codec : Codec α} {value : α}
    (hverified : signed.verify scheme anchor codec = .ok value) :
    scheme.verify anchor signed.payload signed.sig = true ∧
      ∃ rest, codec.decode signed.payload = some (value, rest) := by
  unfold Envelope.verify at hverified
  split at hverified
  · cases hverified
  · split at hverified
    · cases hverified
    · rename_i hsig
      split at hverified
      · cases hverified
      · rename_i hdecoded
        cases hverified
        exact ⟨by simpa using hsig, _, hdecoded⟩

theorem verify_sign (secret : scheme.Secret) (codec : Codec α) (value : α) :
    (Envelope.sign scheme secret codec value).verify scheme (scheme.anchor secret) codec =
      .ok value := by
  have hdecoded := codec.decode_encode value []
  rw [List.append_nil] at hdecoded
  unfold Envelope.verify Envelope.sign
  simp [scheme.length_sign, scheme.verify_sign, hdecoded]

theorem decode_prod {first : Codec α} {second : Codec β} {bytes rest : List Byte} {a : α} {b : β}
    (hdecoded : (first.prod second).decode bytes = some ((a, b), rest)) :
    ∃ left, first.decode bytes = some (a, left) ∧ second.decode left = some (b, rest) := by
  simp only [prod, Option.bind_eq_bind, Option.bind_eq_some_iff, Prod.exists] at hdecoded
  obtain ⟨a', left, hfirst, b', rest', hsecond, hsame⟩ := hdecoded
  cases hsame
  exact ⟨left, hfirst, hsecond⟩

theorem decode_guild {bytes rest : List Byte} {att : WireAttestation}
    (hdecoded : layoutV1.decode bytes = some (att, rest)) :
    ∃ left, u64.decode bytes = some (att.guildId, left) := by
  simp only [layoutV1, record, Option.bind_eq_bind, Option.bind_eq_some_iff] at hdecoded
  obtain ⟨⟨⟨guildId, fields⟩, left⟩, hfields, value, hbuilt, hsame⟩ := hdecoded
  cases hbuilt
  cases hsame
  obtain ⟨left, hguild, -⟩ := decode_prod hfields
  exact ⟨left, hguild⟩

theorem encode_prod (first : Codec α) (second : Codec β) (a : α) (b : β) :
    (first.prod second).encode (a, b) = first.encode a ++ second.encode b :=
  rfl

theorem encode_guild (att : WireAttestation) :
    ∃ fields, layoutV1.encode att = u64.encode att.guildId ++ fields :=
  ⟨_, rfl⟩

theorem tag_read_as_guild {tag : BitVec 32} {guild : BitVec 64} {fields left : List Byte}
    (hread : u64.decode (u32.encode tag ++ fields) = some (guild, left)) :
    guild.toNat = tag.toNat := by
  have htag : tag.toNat < 2 ^ 32 := tag.isLt
  have hvarint : takeVarint 1 (9 + 1) (varint (4 + 1) tag.toNat ++ fields) =
      some (tag.toNat, fields) :=
    takeVarint_varint (by decide) (Nat.lt_of_lt_of_le htag (by decide))
      (Nat.lt_of_lt_of_le htag (by decide)) fields
  simp only [u64, u32, hvarint, Option.map_some, Option.some.injEq, Prod.mk.injEq] at hread
  rw [← hread.1, BitVec.toNat_ofNat, Nat.mod_eq_of_lt (Nat.lt_of_lt_of_le htag (by decide))]

theorem guild_read_as_tag {tag : BitVec 32} {guild : BitVec 64} {fields left : List Byte}
    (hread : u32.decode (u64.encode guild ++ fields) = some (tag, left)) :
    tag.toNat = guild.toNat := by
  simp only [u64, u32, Option.map_eq_some_iff] at hread
  obtain ⟨⟨value, rest⟩, htaken, hsame⟩ := hread
  cases hsame
  have hlower : value < 2 ^ 32 := takeVarint_lt htaken
  have hnumber : (BitVec.ofNat 32 value).toNat = value := by
    rw [BitVec.toNat_ofNat, Nat.mod_eq_of_lt hlower]
  exact hnumber.trans (takeVarint_shorter (by decide) htaken).1

theorem readLayout_ok {signed : Envelope} {anchor : Anchor} {schema : Nat} {att : WireAttestation}
    (hread : readLayout scheme signed anchor schema = .ok att) :
    scheme.verify anchor signed.payload signed.sig = true ∧
      (schema = ATTESTATION_SCHEMA_V1 ∧
          (∃ rest, layoutV1.decode signed.payload = some (att, rest)) ∨
        schema = ATTESTATION_SCHEMA_V2 ∧ ∃ tag rest,
          layoutV2.decode signed.payload = some ((tag, att), rest) ∧
            tag.toNat = ATTESTATION_SCHEMA_V2) := by
  unfold readLayout at hread
  split at hread
  · rename_i hschema
    split at hread
    · cases hread
    · rename_i hverified
      cases hread
      obtain ⟨hsig, hdecoded⟩ := verify_ok hverified
      exact ⟨hsig, .inl ⟨hschema, hdecoded⟩⟩
  · split at hread
    · rename_i hschema
      split at hread
      · cases hread
      · rename_i v2 hverified
        split at hread
        · cases hread
        · rename_i htag
          cases hread
          obtain ⟨hsig, rest, hdecoded⟩ := verify_ok hverified
          exact ⟨hsig, .inr ⟨hschema, v2.1, rest, hdecoded, Decidable.not_not.mp htag⟩⟩
    · cases hread

theorem verifyAttestation_ok {signed : Envelope} {anchor : Anchor} {now schema : Nat}
    {guild : BitVec 64} {att : WireAttestation}
    (hverified : verifyAttestation scheme signed anchor now guild schema = .ok att) :
    readLayout scheme signed anchor schema = .ok att ∧ att.guildId = guild ∧
      now < att.expiresAt.toNat := by
  unfold verifyAttestation at hverified
  split at hverified
  · cases hverified
  · rename_i hread
    split at hverified
    · cases hverified
    · rename_i hguild
      split at hverified
      · cases hverified
      · rename_i hfresh
        cases hverified
        exact ⟨hread, Decidable.not_not.mp hguild, Nat.not_le.mp hfresh⟩

theorem verifyAttestation_fresh {signed : Envelope} {anchor : Anchor} {now schema : Nat}
    {guild : BitVec 64} {att : WireAttestation}
    (hread : readLayout scheme signed anchor schema = .ok att) (hguild : att.guildId = guild)
    (hfresh : now < att.expiresAt.toNat) :
    verifyAttestation scheme signed anchor now guild schema = .ok att := by
  unfold verifyAttestation
  rw [hread]
  change ite _ _ _ = _
  rw [if_neg (Decidable.not_not.mpr hguild), if_neg (Nat.not_le.mpr hfresh)]

theorem signAttestation_ok {secret : scheme.Secret} {att : WireAttestation} {schema : Nat}
    {signed : Envelope} (hsigned : signAttestation scheme secret att schema = .ok signed) :
    signed.sig = scheme.sign secret signed.payload ∧
      readLayout scheme signed (scheme.anchor secret) schema = .ok att ∧
        (schema = ATTESTATION_SCHEMA_V1 ∧ signed.payload = layoutV1.encode att ∨
          schema = ATTESTATION_SCHEMA_V2 ∧ signed.payload =
            layoutV2.encode (BitVec.ofNat 32 ATTESTATION_SCHEMA_V2, att)) := by
  unfold signAttestation at hsigned
  split at hsigned
  · rename_i hschema
    cases hsigned
    refine ⟨rfl, ?_, .inl ⟨hschema, rfl⟩⟩
    unfold readLayout
    rw [if_pos hschema, verify_sign]
  · rename_i hother
    split at hsigned
    · rename_i hschema
      cases hsigned
      refine ⟨rfl, ?_, .inr ⟨hschema, rfl⟩⟩
      unfold readLayout
      rw [if_neg hother, if_pos hschema, verify_sign]
      rfl
    · cases hsigned

end

/-- What is signed in a layout comes back from it, nothing else passes for it, and in the other
layout it is refused unless a guild has the number of the tag. -/
theorem layouts_separated (scheme : SignatureScheme) (secret : scheme.Secret)
    (att : WireAttestation) (schema : Nat) (signed : Envelope)
    (hsigned : signAttestation scheme secret att schema = .ok signed) :
    (∀ now < att.expiresAt.toNat,
      verifyAttestation scheme signed (scheme.anchor secret) now att.guildId schema = .ok att) ∧
    (scheme.Binds secret signed.payload → ∀ payload anchor,
      payload ≠ signed.payload ∨ anchor ≠ scheme.anchor secret → ∀ now guild schema' read,
        verifyAttestation scheme ⟨payload, signed.sig⟩ anchor now guild schema' ≠ .ok read) ∧
    ∀ schema' ≠ schema, ∀ anchor now guild read,
      verifyAttestation scheme signed anchor now guild schema' = .ok read →
        (schema = ATTESTATION_SCHEMA_V1 → att.guildId = 1#64) ∧
          (schema = ATTESTATION_SCHEMA_V2 → guild = 1#64) := by
  obtain ⟨hsig, hread, hlayout⟩ := signAttestation_ok hsigned
  refine ⟨fun now hfresh => ?_, fun hbinds payload anchor hchanged now guild schema' read hok => ?_,
    fun schema' hother anchor now guild read hok => ?_⟩
  · exact verifyAttestation_fresh hread rfl hfresh
  · have hverified := (readLayout_ok (verifyAttestation_ok hok).1).1
    rw [hsig] at hverified
    obtain ⟨hanchor, hpayload⟩ := hbinds anchor payload hverified
    exact hchanged.elim (fun hdiffers => hdiffers hpayload) fun hdiffers => hdiffers hanchor
  · obtain ⟨hread', hguild, -⟩ := verifyAttestation_ok hok
    obtain ⟨-, hdecoded⟩ := readLayout_ok hread'
    rcases hlayout with ⟨rfl, hpayload⟩ | ⟨rfl, hpayload⟩
    · refine ⟨fun _ => ?_, fun habsurd => absurd habsurd (by decide)⟩
      rcases hdecoded with ⟨hsame, -⟩ | ⟨-, tag, rest, hdecoded, htag⟩
      · exact (hother hsame).elim
      · obtain ⟨fields, hfields⟩ := encode_guild att
        rw [hpayload, hfields] at hdecoded
        obtain ⟨left, htagged, -⟩ := decode_prod hdecoded
        apply BitVec.eq_of_toNat_eq
        rw [← guild_read_as_tag htagged, htag]
        rfl
    · refine ⟨fun habsurd => absurd habsurd (by decide), fun _ => ?_⟩
      rcases hdecoded with ⟨-, rest, hdecoded⟩ | ⟨hsame, -⟩
      · obtain ⟨left, hguildRead⟩ := decode_guild hdecoded
        rw [hpayload, layoutV2, encode_prod] at hguildRead
        apply BitVec.eq_of_toNat_eq
        rw [← hguild, tag_read_as_guild hguildRead]
        rfl
      · exact (hother hsame).elim

/-- Two keys; the one message has a signature of its own under the first. -/
def schemeFor (message : List Byte) : SignatureScheme :=
  let stamp (anchor : Anchor) (other : List Byte) : List Byte :=
    List.replicate 64 (if anchor = 1 ∧ other = message then 1 else 0)
  { Secret := Bool
    anchor := fun secret => if secret then 1 else 2
    sign := fun secret => stamp (if secret then 1 else 2)
    verify := fun anchor other sig => decide (sig = stamp anchor other)
    length_sign := fun _ _ => List.length_replicate
    verify_sign := fun _ _ => decide_eq_true rfl }

theorem schemeFor_binds (message : List Byte) : (schemeFor message).Binds true message := by
  intro anchor other hverified
  have hsame := of_decide_eq_true hverified
  simpa [schemeFor] using hsame

def laptop : WireAttestation where
  guildId := 42#64
  userId := 333#64
  username := ⟨"alice", by decide⟩
  deviceName := ⟨"laptop", by decide⟩
  isPrimary := true
  wgIp := 0x64402a07#32
  wgNet := ⟨0x64400000#32, 10⟩
  wgPubkey := 9
  issuedAt := 1000#64
  expiresAt := 2800#64

/-- The bytes of the laptop, changed or under another key, are refused. -/
theorem layouts_separated_laptop :
    let scheme := schemeFor (layoutV2.encode (BitVec.ofNat 32 ATTESTATION_SCHEMA_V2, laptop))
    ∃ signed, signAttestation scheme true laptop ATTESTATION_SCHEMA_V2 = .ok signed ∧
      verifyAttestation scheme signed 1 1000 42#64 ATTESTATION_SCHEMA_V2 = .ok laptop ∧
      (∀ payload ≠ signed.payload, ∀ read,
        verifyAttestation scheme ⟨payload, signed.sig⟩ 1 1000 42#64 ATTESTATION_SCHEMA_V2 ≠
          .ok read) ∧
      ∀ read, verifyAttestation scheme signed 1 1000 42#64 ATTESTATION_SCHEMA_V1 ≠ .ok read := by
  refine ⟨_, rfl, ?_⟩
  obtain ⟨hreturns, hbound, hother⟩ := layouts_separated
    (schemeFor (layoutV2.encode (BitVec.ofNat 32 ATTESTATION_SCHEMA_V2, laptop))) true laptop
    ATTESTATION_SCHEMA_V2 _ rfl
  refine ⟨hreturns 1000 (by decide), fun payload hchanged read => ?_, fun read hok => ?_⟩
  · exact hbound (schemeFor_binds _) payload 1 (.inl hchanged) 1000 42#64 _ read
  · have hguild := (hother ATTESTATION_SCHEMA_V1 (by decide) 1 1000 42#64 read hok).2 rfl
    revert hguild
    decide

def craftedName : String :=
  String.ofList (List.replicate 45 (Char.ofNat 0) ++ [Char.ofNat 127])

def crafted : WireAttestation :=
  { laptop with
    guildId := 1#64
    userId := 7#64
    username := ⟨craftedName, by decide⟩ }

def hidden : WireAttestation where
  guildId := 7#64
  userId := 46#64
  username := ⟨"", by decide⟩
  deviceName := ⟨"", by decide⟩
  isPrimary := false
  wgIp := 0
  wgNet := ⟨0, 0⟩
  wgPubkey := 0
  issuedAt := 0
  expiresAt := 127#64

/-- An attestation of one layout is accepted as one of the other. -/
theorem crafted_accepted :
    ¬ ∀ (scheme : SignatureScheme) (secret : scheme.Secret) (att : WireAttestation) schema signed,
      signAttestation scheme secret att schema = .ok signed →
        ∀ schema' ≠ schema, ∀ now guild read,
          verifyAttestation scheme signed (scheme.anchor secret) now guild schema' ≠ .ok read := by
  intro hclaim
  have hbytes : ∃ rest, layoutV1.encode crafted =
      layoutV2.encode (BitVec.ofNat 32 ATTESTATION_SCHEMA_V2, hidden) ++ rest := by
    refine ⟨(layoutV1.encode crafted).drop
      (layoutV2.encode (BitVec.ofNat 32 ATTESTATION_SCHEMA_V2, hidden)).length, ?_⟩
    decide
  obtain ⟨rest, hbytes⟩ := hbytes
  have hdecoded := layoutV2.decode_encode (BitVec.ofNat 32 ATTESTATION_SCHEMA_V2, hidden) rest
  rw [← hbytes] at hdecoded
  refine hclaim (schemeFor []) true crafted ATTESTATION_SCHEMA_V1 _ rfl ATTESTATION_SCHEMA_V2
    (by decide) 5 7#64 hidden ?_
  have hverified : (Envelope.sign (schemeFor []) true layoutV1 crafted).verify (schemeFor []) 1
      layoutV2 = .ok (BitVec.ofNat 32 ATTESTATION_SCHEMA_V2, hidden) := by
    have hsig := (schemeFor []).verify_sign true (layoutV1.encode crafted)
    have hlength := (schemeFor []).length_sign true (layoutV1.encode crafted)
    have hanchor : (schemeFor []).anchor true = 1 := rfl
    rw [hanchor] at hsig
    unfold Envelope.verify Envelope.sign
    rw [if_neg (Decidable.not_not.mpr hlength), hsig, if_neg (by decide), hdecoded]
  have hread : readLayout (schemeFor []) (Envelope.sign (schemeFor []) true layoutV1 crafted) 1
      ATTESTATION_SCHEMA_V2 = .ok hidden := by
    unfold readLayout
    rw [if_neg (by decide), if_pos rfl, hverified]
    rfl
  exact verifyAttestation_fresh hread rfl (by decide)

end UnityLan.Layouts
