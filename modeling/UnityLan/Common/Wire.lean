import UnityLan.Common.Layouts
import UnityLan.Foundation.Base64
import UnityLan.Foundation.Sequences

namespace UnityLan.Layouts

open Foundation Foundation.Codec

/-! Signed envelopes as the text they travel as. -/

/-- An envelope whose parts have a length that can be written. -/
abbrev Sealed :=
  { signed : Envelope // signed.payload.length < 2 ^ 64 ∧ signed.sig.length < 2 ^ 64 }

def envelope : Codec Sealed :=
  record ((list byte).prod (list byte))
    (fun read => some ⟨⟨read.1.1, read.2.1⟩, read.1.2, read.2.2⟩)
    (fun signed => (⟨signed.1.payload, signed.2.1⟩, ⟨signed.1.sig, signed.2.2⟩))
    fun _ => rfl

inductive TransportError
  | base64
  | postcard
  deriving DecidableEq

namespace Envelope

def toBase64 (signed : Sealed) : String :=
  String.ofList (Base64.encode (envelope.encode signed))

/-- What stands behind the envelope is not looked at. -/
def fromBase64 (text : String) : Except TransportError Sealed :=
  match Base64.decode text.toList with
  | none => .error .base64
  | some bytes =>
      match envelope.decode bytes with
      | none => .error .postcard
      | some (signed, _) => .ok signed

theorem fromBase64_ok {text : String} {signed : Sealed} :
    fromBase64 text = .ok signed ↔ ∃ bytes rest, text = String.ofList (Base64.encode bytes) ∧
      envelope.decode bytes = some (signed, rest) := by
  unfold fromBase64
  constructor
  · intro hread
    split at hread
    · cases hread
    · rename_i bytes hbytes
      split at hread
      · cases hread
      · rename_i signed' rest hdecoded
        cases hread
        refine ⟨bytes, rest, ?_, hdecoded⟩
        rw [← Base64.decode_eq_some.mp hbytes, String.ofList_toList]
  · rintro ⟨bytes, rest, rfl, hdecoded⟩
    rw [String.toList_ofList, Base64.decode_encode]
    simp only [hdecoded]

@[simp] theorem fromBase64_toBase64 (signed : Sealed) : fromBase64 (toBase64 signed) = .ok signed := by
  have hdecoded := envelope.decode_encode signed []
  rw [List.append_nil] at hdecoded
  exact fromBase64_ok.mpr ⟨_, [], rfl, hdecoded⟩

end Envelope

/-- An envelope comes back from the text it travels as; and whatever text holds a value that
verifies is the one text of some bytes that begin with an envelope, whose signature is of the bytes
the value is read from. -/
theorem envelope_travels (scheme : SignatureScheme) {α : Type} (codec : Codec α) :
    (∀ signed : Sealed, Envelope.fromBase64 (Envelope.toBase64 signed) = .ok signed) ∧
    (∀ (secret : scheme.Secret) (value : α) (signed : Sealed),
      signed.1 = Envelope.sign scheme secret codec value →
        ∃ received, Envelope.fromBase64 (Envelope.toBase64 signed) = .ok received ∧
          received.1.verify scheme (scheme.anchor secret) codec = .ok value) ∧
    ∀ (text : String) (signed : Sealed) (anchor : Anchor) (value : α),
      Envelope.fromBase64 text = .ok signed → signed.1.verify scheme anchor codec = .ok value →
        ∃ bytes rest behind, text = String.ofList (Base64.encode bytes) ∧
          envelope.decode bytes = some (signed, rest) ∧
            scheme.verify anchor signed.1.payload signed.1.sig = true ∧
              codec.decode signed.1.payload = some (value, behind) := by
  refine ⟨Envelope.fromBase64_toBase64, ?_, ?_⟩
  · intro secret value signed hsigned
    refine ⟨signed, Envelope.fromBase64_toBase64 signed, ?_⟩
    rw [hsigned, verify_sign]
  · intro text signed anchor value hread hverified
    obtain ⟨bytes, rest, htext, hdecoded⟩ := Envelope.fromBase64_ok.mp hread
    obtain ⟨hsig, behind, hvalue⟩ := verify_ok hverified
    exact ⟨bytes, rest, behind, htext, hdecoded, hsig, hvalue⟩

/-! The release manifest. -/

inductive Platform
  | linuxAmd64
  | windowsAmd64
  deriving DecidableEq

structure WireArtifact where
  platform : Platform
  url : Text
  sha256 : { bytes : List Byte // bytes.length = 32 }
  size : BitVec 64
  deriving DecidableEq

structure WireManifest where
  version : Text
  artifacts : Sized WireArtifact
  deriving DecidableEq

def platform : Codec Platform :=
  record u32
    (fun index =>
      if index = 0 then some .linuxAmd64 else if index = 1 then some .windowsAmd64 else none)
    (fun platform =>
      match platform with
      | .linuxAmd64 => 0
      | .windowsAmd64 => 1)
    (fun platform => by cases platform <;> rfl)

def artifact : Codec WireArtifact :=
  record (platform.prod (text.prod ((array 32).prod u64)))
    (fun (platform, url, sha256, size) => some ⟨platform, url, sha256, size⟩)
    (fun artifact => (artifact.platform, artifact.url, artifact.sha256, artifact.size))
    fun _ => rfl

def manifest : Codec WireManifest :=
  record (text.prod (list artifact))
    (fun (version, artifacts) => some ⟨version, artifacts⟩)
    (fun manifest => (manifest.version, manifest.artifacts))
    fun _ => rfl

def WireManifest.artifactFor (manifest : WireManifest) (platform : Platform) :
    Option WireArtifact :=
  manifest.artifacts.1.find? fun artifact => artifact.platform == platform

def peekSignedManifest (blob : String) : Except TransportError WireManifest :=
  match Envelope.fromBase64 blob with
  | .error error => .error error
  | .ok signed =>
      match manifest.decode signed.1.payload with
      | none => .error .postcard
      | some (read, _) => .ok read

variable (scheme : SignatureScheme)

def openManifest (anchor : Anchor) (blob : String) : Option WireManifest :=
  match Envelope.fromBase64 blob with
  | .error _ => none
  | .ok signed =>
      match signed.1.verify scheme anchor manifest with
      | .error _ => none
      | .ok read => some read

variable {scheme}

theorem peek_of_open {anchor : Anchor} {blob : String} {read : WireManifest}
    (hopened : openManifest scheme anchor blob = some read) :
    peekSignedManifest blob = .ok read := by
  unfold openManifest at hopened
  unfold peekSignedManifest
  split at hopened
  · cases hopened
  · rename_i signed hblob
    split at hopened
    · cases hopened
    · rename_i read' hverified
      cases hopened
      obtain ⟨-, rest, hdecoded⟩ := verify_ok hverified
      simp only [hdecoded]

def signManifest (secret : scheme.Secret) (read : WireManifest)
    (hsize : (manifest.encode read).length < 2 ^ 64) : Sealed :=
  ⟨Envelope.sign scheme secret manifest read, hsize, by
    change (scheme.sign secret _).length < 2 ^ 64
    rw [scheme.length_sign]
    decide⟩

theorem open_signed (secret : scheme.Secret) (read : WireManifest)
    (hsize : (manifest.encode read).length < 2 ^ 64) :
    openManifest scheme (scheme.anchor secret)
      (Envelope.toBase64 (signManifest secret read hsize)) = some read := by
  unfold openManifest
  rw [Envelope.fromBase64_toBase64]
  simp only [signManifest, verify_sign]

end UnityLan.Layouts
