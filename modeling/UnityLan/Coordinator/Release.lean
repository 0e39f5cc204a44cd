import Mathlib.Data.List.TakeWhile
import UnityLan.Common.Wire
import UnityLan.Engine.Rollback
import UnityLan.Foundation.Hex

namespace UnityLan.Coordinator.Release

open Foundation Foundation.Codec Layouts

/-! The release that the coordinator advertises: its configuration, the blob signed offline, and
what is served of them. -/

/-! Hexadecimal text. -/

abbrev Bytes32 := { bytes : List Byte // bytes.length = 32 }

inductive Failure
  | bail (message : String)
  | panicked
  deriving DecidableEq

def trim (text : String) : String :=
  Engine.SelfUpdate.Rollback.trim text

def toHex (bytes : List Byte) : String :=
  String.ofList (Hex.encode bytes)

section

variable {ε : Type} (length : Nat → ε) (fault : Hex.Fault → ε)

def hex32 (hex : String) : Except ε Bytes32 :=
  if (trim hex).utf8ByteSize ≠ 64 then .error (length (trim hex).utf8ByteSize)
  else
    match hread : Hex.octets 32 (trim hex).toList with
    | .error reason => .error (fault reason)
    | .ok bytes => .ok ⟨bytes, Hex.octets_length hread⟩

end

/-- Of the release key. -/
def parseHex32 (hex : String) : Option Bytes32 :=
  (hex32 (fun _ => ()) (fun _ => ()) hex).toOption

/-- Of an artifact in the configuration. -/
def parseSha256 : String → Except Failure Bytes32 :=
  hex32 (fun length => .bail ("sha256 must be 64 hex chars, got " ++ toString length)) fun fault =>
    match fault with
    | .digit => .bail "bad sha256 hex: invalid digit found in string"
    | .cut => .panicked

/-- Of the seed of the release key. -/
def fromHex32 : String → Except Failure Bytes32 :=
  hex32 (fun length => .bail ("expected 64 hex chars, got " ++ toString length)) fun fault =>
    match fault with
    | .digit => .bail "bad hex"
    | .cut => .panicked

/-- The 32 numbers of a text. -/
def Written (hex : String) (bytes : Bytes32) : Prop :=
  ∃ pairs, (trim hex).toList = Hex.joined pairs ∧ pairs.length = 32 ∧ Hex.Numbers pairs bytes.1

/-- A character of the text goes on where a number ends. -/
def CutInside (hex : String) : Prop :=
  (trim hex).utf8ByteSize = 64 ∧ ∃ index < 32,
    (∃ bytes, Hex.octets index (trim hex).toList = .ok bytes) ∧
      ¬ Hex.Boundary (trim hex).toList (2 * index + 2)

section

variable {ε : Type} {length : Nat → ε} {fault : Hex.Fault → ε} {hex : String}

theorem utf8Length_trim (hex : String) :
    Hex.utf8Length (trim hex).toList = (trim hex).utf8ByteSize := by
  rw [← Hex.utf8ByteSize_ofList, String.ofList_toList]

theorem hex32_cases (length : Nat → ε) (fault : Hex.Fault → ε) (hex : String) :
    (trim hex).utf8ByteSize ≠ 64 ∧
        hex32 length fault hex = .error (length (trim hex).utf8ByteSize) ∨
      (trim hex).utf8ByteSize = 64 ∧ ((∃ reason, Hex.octets 32 (trim hex).toList = .error reason ∧
          hex32 length fault hex = .error (fault reason)) ∨
        ∃ bytes : Bytes32, Hex.octets 32 (trim hex).toList = .ok bytes.1 ∧
          hex32 length fault hex = .ok bytes) := by
  unfold hex32
  split
  · rename_i hlength
    exact .inl ⟨hlength, rfl⟩
  · rename_i hlength
    refine .inr ⟨Decidable.not_not.mp hlength, ?_⟩
    split
    · rename_i reason hread
      exact .inl ⟨reason, hread, rfl⟩
    · rename_i bytes hread
      exact .inr ⟨⟨bytes, Hex.octets_length hread⟩, hread, rfl⟩

theorem hex32_ok {bytes : Bytes32} : hex32 length fault hex = .ok bytes ↔ Written hex bytes := by
  have hread (hlength : (trim hex).utf8ByteSize = 64) :
      Hex.octets 32 (trim hex).toList = .ok bytes.1 ↔ Written hex bytes :=
    Hex.octets_all (by rw [utf8Length_trim, hlength])
  rcases hex32_cases length fault hex with ⟨hother, hfailed⟩ | ⟨hlength, ⟨reason, hfault, hfailed⟩ |
    ⟨bytes', hoctets, hdone⟩⟩
  · rw [hfailed]
    refine iff_of_false (by intro hsome; cases hsome) ?_
    rintro ⟨pairs, hpairs, hcount, hnumbers⟩
    rw [← utf8Length_trim, hpairs, Hex.utf8Length_joined hnumbers.sizes, hcount] at hother
    exact hother rfl
  · rw [hfailed, ← hread hlength, hfault]
    exact iff_of_false (by intro hsome; cases hsome) (by intro hsome; cases hsome)
  · rw [hdone, ← hread hlength, hoctets, Except.ok.injEq, Except.ok.injEq, Subtype.ext_iff]

theorem hex32_cut (hlength : ∀ count, length count ≠ fault .cut)
    (hdigit : fault .digit ≠ fault .cut) :
    hex32 length fault hex = .error (fault .cut) ↔ CutInside hex := by
  unfold CutInside
  rw [← Hex.octets_cut]
  rcases hex32_cases length fault hex with ⟨hother, hfailed⟩ | ⟨hsize, ⟨reason, hfault, hfailed⟩ |
    ⟨bytes', hoctets, hdone⟩⟩
  · rw [hfailed, Except.error.injEq]
    exact iff_of_false (hlength _) fun hcut => hother hcut.1
  · rw [hfailed, hfault]
    cases reason with
    | digit => exact iff_of_false (by simpa using hdigit) (by simp)
    | cut => exact iff_of_true rfl ⟨hsize, rfl⟩
  · rw [hdone, hoctets]
    exact iff_of_false (by intro hcut; cases hcut) (by rintro ⟨-, hcut⟩; cases hcut)

end

theorem trim_blanks {before after middle : List Char} (hbefore : before.all isWhitespace = true)
    (hafter : after.all isWhitespace = true) (hmiddle : ∀ c ∈ middle, isWhitespace c = false) :
    trim (String.ofList (before ++ middle ++ after)) = String.ofList middle := by
  have hfront : ∀ c ∈ before, isWhitespace c = true := List.all_eq_true.mp hbefore
  have hback : ∀ c ∈ after.reverse, isWhitespace c = true := by
    intro c hc
    exact List.all_eq_true.mp hafter c (List.mem_reverse.mp hc)
  have hstays {text : List Char} (hplain : ∀ c ∈ text, isWhitespace c = false) :
      text.dropWhile isWhitespace = text := by
    cases text with
    | nil => rfl
    | cons first rest =>
        exact List.dropWhile_cons_of_neg (by simp [hplain first List.mem_cons_self])
  have hreversed : ∀ c ∈ middle.reverse, isWhitespace c = false := by
    intro c hc
    exact hmiddle c (List.mem_reverse.mp hc)
  unfold trim Engine.SelfUpdate.Rollback.trim
  rw [String.toList_ofList, List.append_assoc, List.dropWhile_append_of_pos hfront]
  cases middle with
  | nil =>
      have hgone : after.dropWhile isWhitespace = [] :=
        by
        rw [List.dropWhile_eq_nil_iff]
        exact List.all_eq_true.mp hafter
      rw [List.nil_append, hgone]
      rfl
  | cons first rest =>
      have hhead : ((first :: rest) ++ after).dropWhile isWhitespace = (first :: rest) ++ after :=
        List.dropWhile_cons_of_neg (by simp [hmiddle first List.mem_cons_self])
      rw [hhead, List.reverse_append, List.dropWhile_append_of_pos hback, hstays hreversed,
        List.reverse_reverse]

theorem digit_plain : ∀ value < 16, isWhitespace (Hex.digit value) = false := by
  decide +kernel

def digitPairs (bytes : List Byte) : List (Char × Char) :=
  bytes.map fun byte => (Hex.digit (byte.toNat / 16), Hex.digit (byte.toNat % 16))

theorem encode_digitPairs (bytes : List Byte) :
    Hex.encode bytes = Hex.joined (digitPairs bytes) := by
  unfold Hex.encode Hex.joined digitPairs
  rw [List.flatMap_map]
  rfl

theorem numbers_digitPairs (bytes : List Byte) : Hex.Numbers (digitPairs bytes) bytes := by
  constructor
  · intro two htwo
    obtain ⟨byte, -, rfl⟩ := List.mem_map.mp htwo
    have hbound := byte.isLt
    exact ⟨Hex.digit_size _ (by omega), Hex.digit_size _ (by omega)⟩
  · unfold digitPairs
    rw [List.map_map]
    refine List.map_congr_left fun byte _ => ?_
    exact Hex.number_digits byte

theorem encode_plain {bytes : List Byte} {c : Char} (hc : c ∈ Hex.encode bytes) :
    isWhitespace c = false := by
  obtain ⟨byte, -, hdigit⟩ := List.mem_flatMap.mp hc
  have hbound := byte.isLt
  rcases List.mem_pair.mp hdigit with rfl | rfl
  · exact digit_plain _ (by omega)
  · exact digit_plain _ (by omega)

theorem written_toHex (before after : List Char) (hbefore : before.all isWhitespace = true)
    (hafter : after.all isWhitespace = true) (bytes : Bytes32) :
    Written (String.ofList (before ++ (toHex bytes.1).toList ++ after)) bytes := by
  refine ⟨digitPairs bytes.1, ?_, ?_, numbers_digitPairs bytes.1⟩
  · unfold toHex
    rw [String.toList_ofList, trim_blanks hbefore hafter fun c hc => encode_plain hc,
      String.toList_ofList, encode_digitPairs]
  · unfold digitPairs
    rw [List.length_map, bytes.2]

/-- The three readers of 32 bytes agree on every text, a reader that slices panics where a
character goes on, and what is written is read back. -/
theorem hex_read (hex : String) (bytes : Bytes32) :
    (parseHex32 hex = some bytes ↔ Written hex bytes) ∧
    (parseSha256 hex = .ok bytes ↔ Written hex bytes) ∧
    (fromHex32 hex = .ok bytes ↔ Written hex bytes) ∧
    (parseSha256 hex = .error .panicked ↔ CutInside hex) ∧
    (fromHex32 hex = .error .panicked ↔ CutInside hex) ∧
    ∀ before after : List Char, before.all isWhitespace = true → after.all isWhitespace = true →
      Written (String.ofList (before ++ (toHex bytes.1).toList ++ after)) bytes := by
  refine ⟨?_, hex32_ok, hex32_ok, ?_, ?_, fun before after hbefore hafter =>
    written_toHex _ _ hbefore hafter bytes⟩
  · have hsome : parseHex32 hex = some bytes ↔
        hex32 (fun _ => ()) (fun _ => ()) hex = .ok bytes := by
      unfold parseHex32
      cases hex32 (fun _ => ()) (fun _ => ()) hex with
      | error reason => simp [Except.toOption]
      | ok found => simp [Except.toOption]
    rw [hsome, hex32_ok]
  · exact hex32_cut (fun _ => Failure.noConfusion) Failure.noConfusion
  · exact hex32_cut (fun _ => Failure.noConfusion) Failure.noConfusion

/-! The configuration. -/

def MAX_RELEASE_ARTIFACT_BYTES : Nat := 1024 * 1024 * 1024

structure ArtifactConfig where
  platform : Platform
  url : Text
  sha256 : String
  size : BitVec 64

structure ReleaseConfig where
  version : Text
  artifacts : Sized ArtifactConfig
  signedBlob : Option String := none

def ArtifactConfig.toArtifact (artifact : ArtifactConfig) : Except Failure WireArtifact :=
  match parseSha256 artifact.sha256 with
  | .error failure => .error failure
  | .ok sha256 => .ok ⟨artifact.platform, artifact.url, sha256, artifact.size⟩

def toArtifacts : List ArtifactConfig → Except Failure (List WireArtifact)
  | [] => .ok []
  | artifact :: rest =>
      match artifact.toArtifact with
      | .error failure => .error failure
      | .ok first =>
          match toArtifacts rest with
          | .error failure => .error failure
          | .ok others => .ok (first :: others)

theorem toArtifacts_length {artifacts : List ArtifactConfig} {built : List WireArtifact}
    (hbuilt : toArtifacts artifacts = .ok built) : built.length = artifacts.length := by
  fun_induction toArtifacts artifacts generalizing built with
  | case1 =>
      cases hbuilt
      rfl
  | case2 => cases hbuilt
  | case3 => cases hbuilt
  | case4 artifact rest first _ others hothers ih =>
      cases hbuilt
      rw [List.length_cons, List.length_cons, ih hothers]

def ReleaseConfig.toManifest (config : ReleaseConfig) : Except Failure WireManifest :=
  match hbuilt : toArtifacts config.artifacts.1 with
  | .error failure => .error failure
  | .ok artifacts =>
      .ok ⟨config.version, artifacts, by
        rw [toArtifacts_length hbuilt]
        exact config.artifacts.2⟩

inductive Refusal
  | notSemver (version : String)
  | invalidUrl (url : String)
  | notHttps (url : String)
  | size
  | duplicatePlatform (platform : Platform)
  | invalidBlob (error : TransportError)
  | otherVersion (blob config : String)
  deriving DecidableEq

structure Checks where
  semver : String → Bool
  scheme : String → Option String

variable (checks : Checks)

def validateArtifacts : List Platform → List ArtifactConfig → Except Refusal Unit
  | _, [] => .ok ()
  | platforms, artifact :: rest =>
      match checks.scheme artifact.url.1 with
      | none => .error (.invalidUrl artifact.url.1)
      | some scheme =>
          if scheme ≠ "https" then .error (.notHttps artifact.url.1)
          else if artifact.size = 0 ∨ MAX_RELEASE_ARTIFACT_BYTES < artifact.size.toNat then
            .error .size
          else if artifact.platform ∈ platforms then .error (.duplicatePlatform artifact.platform)
          else validateArtifacts (artifact.platform :: platforms) rest

def validateBlob (version : Text) : Option String → Except Refusal Unit
  | none => .ok ()
  | some blob =>
      match peekSignedManifest blob with
      | .error error => .error (.invalidBlob error)
      | .ok read =>
          if read.version ≠ version then .error (.otherVersion read.version.1 version.1)
          else .ok ()

def ReleaseConfig.validate (config : ReleaseConfig) : Except Refusal Unit :=
  if !checks.semver config.version.1 then .error (.notSemver config.version.1)
  else
    match validateArtifacts checks [] config.artifacts.1 with
    | .error refusal => .error refusal
    | .ok _ => validateBlob config.version config.signedBlob

/-- What a configuration is that passes. -/
structure Valid (config : ReleaseConfig) : Prop where
  semver : checks.semver config.version.1 = true
  https : ∀ artifact ∈ config.artifacts.1, checks.scheme artifact.url.1 = some "https"
  size : ∀ artifact ∈ config.artifacts.1,
    0 < artifact.size.toNat ∧ artifact.size.toNat ≤ MAX_RELEASE_ARTIFACT_BYTES
  distinct : (config.artifacts.1.map ArtifactConfig.platform).Nodup
  blob : ∀ blob, config.signedBlob = some blob →
    ∃ read, peekSignedManifest blob = .ok read ∧ read.version = config.version

section

variable {checks} {config : ReleaseConfig}

theorem validateArtifacts_ok {platforms : List Platform} {artifacts : List ArtifactConfig} :
    validateArtifacts checks platforms artifacts = .ok () ↔
      (∀ artifact ∈ artifacts, checks.scheme artifact.url.1 = some "https") ∧
      (∀ artifact ∈ artifacts,
        0 < artifact.size.toNat ∧ artifact.size.toNat ≤ MAX_RELEASE_ARTIFACT_BYTES) ∧
      (artifacts.map ArtifactConfig.platform).Nodup ∧
      ∀ artifact ∈ artifacts, artifact.platform ∉ platforms := by
  induction artifacts generalizing platforms with
  | nil => simp [validateArtifacts]
  | cons artifact rest ih =>
      rw [validateArtifacts]
      simp only [List.forall_mem_cons, List.map_cons, List.nodup_cons]
      split
      · rename_i hscheme
        simp [hscheme]
      · rename_i scheme hscheme
        split
        · rename_i hother
          simp [hscheme, hother]
        · rename_i hhttps
          have hzero : artifact.size = 0 ↔ ¬ 0 < artifact.size.toNat := by
            rw [Nat.not_lt, Nat.le_zero, ← BitVec.toNat_inj]
            rfl
          split
          · rename_i hsize
            refine iff_of_false (by intro hsome; cases hsome) ?_
            rintro ⟨-, ⟨hbounds, -⟩, -⟩
            rw [hzero] at hsize
            omega
          · rename_i hsize
            rw [hzero] at hsize
            split
            · rename_i hseen
              refine iff_of_false (by intro hsome; cases hsome) ?_
              rintro ⟨-, -, -, hfresh, -⟩
              exact hfresh hseen
            · rename_i hfresh
              rw [ih, hscheme, Decidable.not_not.mp hhttps]
              have hsplit : (∀ other ∈ rest, other.platform ∉ artifact.platform :: platforms) ↔
                  artifact.platform ∉ rest.map ArtifactConfig.platform ∧
                    ∀ other ∈ rest, other.platform ∉ platforms := by
                simp only [List.mem_cons, not_or, List.mem_map, not_exists, not_and]
                constructor
                · intro hall
                  exact ⟨fun other hother => (hall other hother).1, fun other hother =>
                    (hall other hother).2⟩
                · rintro ⟨hdistinct, hothers⟩ other hother
                  exact ⟨hdistinct other hother, hothers other hother⟩
              rw [hsplit]
              constructor
              · rintro ⟨hhttps, hsizes, hnodup, hdistinct, hothers⟩
                exact ⟨⟨rfl, hhttps⟩, ⟨by omega, hsizes⟩, ⟨hdistinct, hnodup⟩, hfresh, hothers⟩
              · rintro ⟨⟨-, hhttps⟩, ⟨-, hsizes⟩, ⟨hdistinct, hnodup⟩, -, hothers⟩
                exact ⟨hhttps, hsizes, hnodup, hdistinct, hothers⟩

theorem validateBlob_ok {version : Text} {signedBlob : Option String} :
    validateBlob version signedBlob = .ok () ↔ ∀ blob, signedBlob = some blob →
      ∃ read, peekSignedManifest blob = .ok read ∧ read.version = version := by
  cases signedBlob with
  | none => simp [validateBlob]
  | some blob =>
      unfold validateBlob
      cases hpeeked : peekSignedManifest blob with
      | error error => simp [hpeeked]
      | ok read =>
          by_cases hversion : read.version = version
          · simp [hpeeked, hversion]
          · simp [hpeeked, hversion]

theorem validate_ok : config.validate checks = .ok () ↔ Valid checks config := by
  unfold ReleaseConfig.validate
  cases hsemver : checks.semver config.version.1 with
  | false =>
      refine iff_of_false (by intro hsome; cases hsome) fun hvalid => ?_
      rw [hvalid.semver] at hsemver
      cases hsemver
  | true =>
      change (match validateArtifacts checks [] config.artifacts.1 with
        | .error refusal => .error refusal
        | .ok _ => validateBlob config.version config.signedBlob) = Except.ok () ↔ _
      cases hartifacts : validateArtifacts checks [] config.artifacts.1 with
      | error refusal =>
          refine iff_of_false (by intro hsome; cases hsome) fun hvalid => ?_
          have hdone : validateArtifacts checks [] config.artifacts.1 = .ok () :=
            validateArtifacts_ok.mpr ⟨hvalid.https, hvalid.size, hvalid.distinct,
              fun _ _ => List.not_mem_nil⟩
          rw [hartifacts] at hdone
          cases hdone
      | ok done =>
          obtain ⟨hhttps, hsize, hdistinct, -⟩ := validateArtifacts_ok.mp hartifacts
          exact validateBlob_ok.trans
            ⟨fun hblob => ⟨hsemver, hhttps, hsize, hdistinct, hblob⟩, Valid.blob⟩

end

/-! Signing, offline. -/

inductive SignError
  | refused (refusal : Refusal)
  | failed (failure : Failure)
  /-- A payload that no memory holds. -/
  | memory

/-- The blob of a configuration, under the key of a seed; a blob that it has is ignored. -/
def signRelease (scheme : SignatureScheme) (fromSeed : Bytes32 → scheme.Secret)
    (config : ReleaseConfig) (seedHex : String) : Except SignError String :=
  match ({ config with signedBlob := none } : ReleaseConfig).validate checks with
  | .error refusal => .error (.refused refusal)
  | .ok _ =>
      match config.toManifest with
      | .error failure => .error (.failed failure)
      | .ok read =>
          match fromHex32 seedHex with
          | .error failure => .error (.failed failure)
          | .ok seed =>
              if hsize : (manifest.encode read).length < 2 ^ 64 then
                .ok (Envelope.toBase64 (signManifest (fromSeed seed) read hsize))
              else .error .memory

/-! What is served. -/

structure Served where
  release : Option WireManifest := none
  releaseSigned : Option String := none
  /-- The blob that is still to be swapped in, behind the manifest it came with. -/
  swapping : Option (Option String) := none
  /-- Whether the task that reloads is there. -/
  reloads : Bool := true

inductive Event
  /-- The configuration is read anew, and all that is not of the release is in order. -/
  | read (config : Option ReleaseConfig)
  /-- It cannot be read. -/
  | unreadable
  | swapped

def buildRelease : Option ReleaseConfig → Except Failure (Option WireManifest)
  | none => .ok none
  | some config =>
      match config.toManifest with
      | .error failure => .error failure
      | .ok read => .ok (some read)

def validateRelease : Option ReleaseConfig → Except Refusal Unit
  | none => .ok ()
  | some config => config.validate checks

def Served.step (served : Served) : Event → Option Served
  | .read config =>
      if served.reloads && served.swapping.isNone then
        match validateRelease checks config with
        | .error _ => some served
        | .ok _ =>
            match buildRelease config with
            | .error (.bail _) => some served
            | .error .panicked => some { served with reloads := false }
            | .ok release =>
                some
                  { served with
                    release := release
                    swapping := some (config.bind ReleaseConfig.signedBlob) }
      else none
  | .unreadable => if served.reloads && served.swapping.isNone then some served else none
  | .swapped =>
      match served.swapping with
      | none => none
      | some releaseSigned =>
          some { served with releaseSigned := releaseSigned, swapping := none }

end UnityLan.Coordinator.Release
