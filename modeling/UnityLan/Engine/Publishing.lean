import UnityLan.Coordinator.Release

namespace UnityLan.Engine.SelfUpdate.Publishing

open Foundation Foundation.Codec Layouts Coordinator.Release Rollback

/-! A release on its way: signed offline, served by the coordinator, staged by an engine that has
the release key baked in. -/

def ofPlatform : Layouts.Platform → SelfUpdate.Platform
  | .linuxAmd64 => .linuxAmd64
  | .windowsAmd64 => .windowsAmd64

def ofArtifact (artifact : WireArtifact) : ReleaseArtifact where
  platform := ofPlatform artifact.platform
  url := artifact.url.1
  sha256 := artifact.sha256.1.map UInt8.ofBitVec
  size := artifact.size.toNat

def ofManifest (read : WireManifest) : ReleaseManifest where
  version := read.version.1
  artifacts := read.artifacts.1.map ofArtifact

/-- The pipeline, its key, and the engines of a platform. -/
structure Pipeline where
  scheme : SignatureScheme
  fromSeed : Bytes32 → scheme.Secret
  checks : Checks
  semver : Semver
  seed : Bytes32
  platform : Option Layouts.Platform

namespace Pipeline

variable (pipeline : Pipeline)

def anchor : Anchor :=
  pipeline.scheme.anchor (pipeline.fromSeed pipeline.seed)

def build : Build where
  semver := pipeline.semver
  releasePk := some pipeline.anchor
  platform := pipeline.platform.map ofPlatform
  verify := fun anchor blob => (openManifest pipeline.scheme anchor blob).map ofManifest

end Pipeline

theorem ofPlatform_beq (a b : Layouts.Platform) : (ofPlatform a == ofPlatform b) = (a == b) := by
  cases a <;> cases b <;> rfl

theorem artifactFor_ofManifest (read : WireManifest) (platform : Layouts.Platform) :
    (ofManifest read).artifactFor (ofPlatform platform) =
      (read.artifactFor platform).map ofArtifact := by
  have hsame : (fun artifact => artifact.platform == ofPlatform platform) ∘ ofArtifact =
      fun artifact : WireArtifact => artifact.platform == platform := by
    funext artifact
    exact ofPlatform_beq _ _
  unfold ReleaseManifest.artifactFor ofManifest WireManifest.artifactFor
  rw [List.find?_map, hsame]

/-! From the configuration to the manifest. -/

structure Built (config : ArtifactConfig) (artifact : WireArtifact) : Prop where
  platform : artifact.platform = config.platform
  url : artifact.url = config.url
  sha256 : Written config.sha256 artifact.sha256
  size : artifact.size = config.size

theorem built_of_toArtifact {config : ArtifactConfig} {artifact : WireArtifact}
    (hbuilt : config.toArtifact = .ok artifact) : Built config artifact := by
  unfold ArtifactConfig.toArtifact at hbuilt
  split at hbuilt
  · cases hbuilt
  · rename_i sha256 hread
    cases hbuilt
    exact ⟨rfl, rfl, hex32_ok.mp hread, rfl⟩

theorem toArtifacts_ok {configs : List ArtifactConfig} {artifacts : List WireArtifact}
    (hbuilt : toArtifacts configs = .ok artifacts) : List.Forall₂ Built configs artifacts := by
  fun_induction toArtifacts configs generalizing artifacts with
  | case1 =>
      cases hbuilt
      exact .nil
  | case2 => cases hbuilt
  | case3 => cases hbuilt
  | case4 config rest first hfirst others hothers ih =>
      cases hbuilt
      exact .cons (built_of_toArtifact hfirst) (ih hothers)

theorem toManifest_ok {config : ReleaseConfig} {read : WireManifest}
    (hbuilt : config.toManifest = .ok read) :
    read.version = config.version ∧
      List.Forall₂ Built config.artifacts.1 read.artifacts.1 := by
  unfold ReleaseConfig.toManifest at hbuilt
  split at hbuilt
  · cases hbuilt
  · rename_i artifacts hartifacts
    cases hbuilt
    exact ⟨rfl, toArtifacts_ok hartifacts⟩

theorem exists_built {configs : List ArtifactConfig} {artifacts : List WireArtifact}
    {artifact : WireArtifact} (hbuilt : List.Forall₂ Built configs artifacts)
    (hmem : artifact ∈ artifacts) : ∃ config ∈ configs, Built config artifact := by
  induction hbuilt with
  | nil => cases hmem
  | cons hfirst _ ih =>
      rcases List.mem_cons.mp hmem with rfl | hrest
      · exact ⟨_, List.mem_cons_self, hfirst⟩
      · obtain ⟨config, hconfig, hown⟩ := ih hrest
        exact ⟨config, List.mem_cons_of_mem _ hconfig, hown⟩

theorem built_of_artifactFor {config : ReleaseConfig} {read : WireManifest}
    {platform : Layouts.Platform} {artifact : WireArtifact} (hbuilt : config.toManifest = .ok read)
    (hfound : read.artifactFor platform = some artifact) :
    artifact.platform = platform ∧ ∃ own ∈ config.artifacts.1, Built own artifact := by
  obtain ⟨-, hartifacts⟩ := toManifest_ok hbuilt
  have hmem := List.mem_of_find?_eq_some hfound
  have hplatform := List.find?_some hfound
  obtain ⟨own, hown, hsame⟩ := exists_built hartifacts hmem
  exact ⟨by simpa using hplatform, own, hown, hsame⟩

/-! A coordinator and an engine, over any run. -/

structure World where
  served : Served := {}
  device : Device
  /-- What the release key has signed. -/
  minted : List (ReleaseConfig × WireManifest) := []
  /-- The configurations that a reload has accepted. -/
  loaded : List ReleaseConfig := []

inductive Event
  | minted (config : ReleaseConfig)
  | coordinator (event : Coordinator.Release.Event)
  /-- The engine hears the coordinator. -/
  | polled
  /-- It hears someone else in its place. -/
  | injected (releaseSigned : Option String)
  | restarted (version : String)

namespace Pipeline

variable (pipeline : Pipeline)

def sign (config : ReleaseConfig) : Except SignError String :=
  signRelease pipeline.checks pipeline.scheme pipeline.fromSeed config (toHex pipeline.seed.1)

def unforged (minted : List (ReleaseConfig × WireManifest)) : Option String → Bool
  | none => true
  | some blob =>
      match Envelope.fromBase64 blob with
      | .error _ => true
      | .ok signed =>
          !pipeline.scheme.verify pipeline.anchor signed.1.payload signed.1.sig ||
            decide (signed.1.payload ∈ minted.map fun made => manifest.encode made.2)

def mint (world : World) (config : ReleaseConfig) : World :=
  match pipeline.sign config, config.toManifest with
  | .ok _, .ok read => { world with minted := world.minted ++ [(config, read)] }
  | _, _ => world

def load (world : World) : Coordinator.Release.Event → List ReleaseConfig
  | .read (some config) =>
      match config.validate pipeline.checks, config.toManifest with
      | .ok _, .ok _ => world.loaded ++ [config]
      | _, _ => world.loaded
  | _ => world.loaded

def heard (world : World) (releaseSigned : Option String) : Option World :=
  if pipeline.unforged world.minted releaseSigned then
    (world.device.step pipeline.build (.responded releaseSigned)).map fun device =>
      { world with device := device }
  else none

def step (world : World) : Event → Option World
  | .minted config => some (pipeline.mint world config)
  | .coordinator event =>
      (world.served.step pipeline.checks event).map fun served =>
        { world with served := served, loaded := pipeline.load world event }
  | .polled => pipeline.heard world world.served.releaseSigned
  | .injected releaseSigned => pipeline.heard world releaseSigned
  | .restarted version =>
      (world.device.step pipeline.build (.restarted version)).map fun device =>
        { world with device := device }

structure Inv (world : World) : Prop where
  minted : ∀ made ∈ world.minted,
    Valid pipeline.checks { made.1 with signedBlob := none } ∧ made.1.toManifest = .ok made.2
  loaded : ∀ config ∈ world.loaded, Valid pipeline.checks config
  served : ∀ blob, world.served.releaseSigned = some blob →
    ∃ config ∈ world.loaded, config.signedBlob = some blob
  swapping : ∀ blob, world.served.swapping = some (some blob) →
    ∃ config ∈ world.loaded, config.signedBlob = some blob

/-- The update is an artifact of a configuration that was signed. -/
structure Blessed (world : World) (update : PendingUpdate) (config : ReleaseConfig)
    (artifact : ArtifactConfig) : Prop where
  minted : ∃ read, (config, read) ∈ world.minted
  listed : artifact ∈ config.artifacts.1
  semver : pipeline.checks.semver config.version.1 = true
  version : update.version = config.version.1
  platform : pipeline.platform = some artifact.platform
  url : update.artifact.url = artifact.url.1
  https : pipeline.checks.scheme artifact.url.1 = some "https"
  size : update.artifact.size = artifact.size.toNat ∧ 0 < update.artifact.size ∧
    update.artifact.size ≤ MAX_RELEASE_ARTIFACT_BYTES
  sha256 : ∃ sha256 : Bytes32, Written artifact.sha256 sha256 ∧
    update.artifact.sha256 = sha256.1.map UInt8.ofBitVec

end Pipeline

section

variable {pipeline : Pipeline} {world world' : World}

theorem minted_of_open {minted : List (ReleaseConfig × WireManifest)} {blob : String}
    {read : WireManifest} (hunforged : pipeline.unforged minted (some blob) = true)
    (hopened : openManifest pipeline.scheme pipeline.anchor blob = some read) :
    ∃ made ∈ minted, made.2 = read := by
  unfold openManifest at hopened
  unfold Pipeline.unforged at hunforged
  split at hopened
  · cases hopened
  · rename_i signed hblob
    simp only [hblob] at hunforged
    split at hopened
    · cases hopened
    · rename_i read' hverified
      cases hopened
      obtain ⟨hsig, rest, hdecoded⟩ := verify_ok hverified
      rw [hsig] at hunforged
      simp only [Bool.not_true, Bool.false_or, decide_eq_true_eq, List.mem_map] at hunforged
      obtain ⟨made, hmade, hpayload⟩ := hunforged
      refine ⟨made, hmade, ?_⟩
      have hown := manifest.decode_encode made.2 []
      rw [List.append_nil, hpayload, hdecoded] at hown
      exact (congrArg Prod.fst (Option.some.inj hown)).symm

theorem stage_opened {device : Device} {blob : Option String} {update : PendingUpdate}
    (hstaged : device.stage pipeline.build blob = some update) :
    ∃ text read platform artifact, blob = some text ∧
      openManifest pipeline.scheme pipeline.anchor text = some read ∧
      pipeline.platform = some platform ∧ read.artifactFor platform = some artifact ∧
      update = ⟨read.version.1, ofArtifact artifact⟩ := by
  unfold Device.stage stageWith at hstaged
  cases blob with
  | none => cases hstaged
  | some text =>
      simp only [Pipeline.build] at hstaged
      cases hopened : openManifest pipeline.scheme pipeline.anchor text with
      | none => simp [hopened] at hstaged
      | some read =>
          simp only [hopened, Option.map_some] at hstaged
          unfold Rollback.stageManifest at hstaged
          split at hstaged
          · cases hstaged
          · split at hstaged
            · cases hstaged
            · cases hplatform : pipeline.platform with
              | none => simp [hplatform] at hstaged
              | some platform =>
                  simp only [hplatform, Option.map_some, artifactFor_ofManifest] at hstaged
                  cases hartifact : read.artifactFor platform with
                  | none => simp [hartifact] at hstaged
                  | some artifact =>
                      simp only [hartifact, Option.map_some, Option.some.injEq] at hstaged
                      exact ⟨text, read, platform, artifact, rfl, hopened, rfl, hartifact,
                        hstaged.symm⟩

/-! What is signed. -/

theorem fromHex32_toHex (bytes : Bytes32) : fromHex32 (toHex bytes.1) = .ok bytes := by
  have hwritten := written_toHex [] [] rfl rfl bytes
  rw [List.nil_append, List.append_nil, String.ofList_toList] at hwritten
  exact hex32_ok.mpr hwritten

theorem sign_ok {config : ReleaseConfig} {blob : String}
    (hsigned : pipeline.sign config = .ok blob) :
    Valid pipeline.checks { config with signedBlob := none } ∧
      ∃ read, config.toManifest = .ok read ∧ ∃ hsize : (manifest.encode read).length < 2 ^ 64,
        blob = Envelope.toBase64
          (signManifest (pipeline.fromSeed pipeline.seed) read hsize) := by
  unfold Pipeline.sign signRelease at hsigned
  rw [fromHex32_toHex] at hsigned
  split at hsigned
  · cases hsigned
  · rename_i hvalid
    split at hsigned
    · cases hsigned
    · rename_i read hread
      dsimp only at hsigned
      split at hsigned
      · rename_i hsize
        cases hsigned
        exact ⟨validate_ok.mp hvalid, read, hread, hsize, rfl⟩
      · cases hsigned

/-! The steps of a run. -/

namespace Pipeline.Inv

theorem start (running : String) : pipeline.Inv { device := { running := running } } where
  minted := fun _ hnone => absurd hnone List.not_mem_nil
  loaded := fun _ hnone => absurd hnone List.not_mem_nil
  served := by
    intro blob hnone
    cases hnone
  swapping := by
    intro blob hnone
    cases hnone

theorem mint (hinv : pipeline.Inv world) (config : ReleaseConfig) :
    pipeline.Inv (pipeline.mint world config) := by
  unfold Pipeline.mint
  split
  · rename_i blob read hsigned hread
    refine ⟨?_, hinv.loaded, hinv.served, hinv.swapping⟩
    intro made hmade
    rcases List.mem_append.mp hmade with hearlier | hown
    · exact hinv.minted made hearlier
    · rw [List.mem_singleton.mp hown]
      exact ⟨(sign_ok hsigned).1, hread⟩
  · exact hinv

theorem device (hinv : pipeline.Inv world) (device : Device) :
    pipeline.Inv { world with device := device } :=
  ⟨hinv.minted, hinv.loaded, hinv.served, hinv.swapping⟩

theorem load (hinv : pipeline.Inv world) (event : Coordinator.Release.Event) :
    world.loaded ⊆ pipeline.load world event ∧
      ∀ config ∈ pipeline.load world event, Valid pipeline.checks config := by
  unfold Pipeline.load
  split
  · rename_i config
    split
    · rename_i hvalid _
      refine ⟨List.subset_append_left _ _, fun other hother => ?_⟩
      rcases List.mem_append.mp hother with hearlier | hown
      · exact hinv.loaded other hearlier
      · rw [List.mem_singleton.mp hown]
        exact validate_ok.mp hvalid
    · exact ⟨List.Subset.refl _, hinv.loaded⟩
  · exact ⟨List.Subset.refl _, hinv.loaded⟩

theorem coordinator (hinv : pipeline.Inv world) {event : Coordinator.Release.Event}
    {served : Served} (hstep : world.served.step pipeline.checks event = some served) :
    pipeline.Inv { world with served := served, loaded := pipeline.load world event } := by
  obtain ⟨hgrows, hvalid⟩ := hinv.load event
  have hkeeps {blob : String} (hknown : ∃ config ∈ world.loaded, config.signedBlob = some blob) :
      ∃ config ∈ pipeline.load world event, config.signedBlob = some blob := by
    obtain ⟨config, hconfig, hblob⟩ := hknown
    exact ⟨config, hgrows hconfig, hblob⟩
  -- what is served and what is about to be stay as they are where nothing is built
  have hunmoved : pipeline.Inv { world with loaded := pipeline.load world event } :=
    ⟨hinv.minted, hvalid, fun blob hblob => hkeeps (hinv.served blob hblob),
      fun blob hblob => hkeeps (hinv.swapping blob hblob)⟩
  cases event with
  | read config =>
      dsimp only [Served.step] at hstep
      split at hstep
      · split at hstep
        · cases hstep
          exact hunmoved
        · rename_i hvalidated
          split at hstep
          · cases hstep
            exact hunmoved
          · cases hstep
            exact ⟨hunmoved.minted, hunmoved.loaded, hunmoved.served, hunmoved.swapping⟩
          · rename_i release hbuilt
            cases hstep
            refine ⟨hunmoved.minted, hunmoved.loaded, hunmoved.served, fun blob hblob => ?_⟩
            cases config with
            | none => simp at hblob
            | some config =>
                simp only [Option.bind_some, Option.some.injEq] at hblob
                refine ⟨config, ?_, hblob⟩
                unfold buildRelease at hbuilt
                unfold validateRelease at hvalidated
                cases hread : config.toManifest with
                | error failure => simp [hread] at hbuilt
                | ok read =>
                    simp only at hvalidated
                    simp only [Pipeline.load]
                    rw [hvalidated, hread]
                    exact List.mem_append_right _ (List.mem_singleton_self _)
      · cases hstep
  | unreadable =>
      dsimp only [Served.step] at hstep
      split at hstep
      · cases hstep
        exact hunmoved
      · cases hstep
  | swapped =>
      dsimp only [Served.step] at hstep
      split at hstep
      · cases hstep
      · rename_i releaseSigned hswapping
        cases hstep
        refine ⟨hunmoved.minted, hunmoved.loaded, ?_, ?_⟩
        · rintro blob rfl
          exact hunmoved.swapping blob hswapping
        · intro blob hnone
          cases hnone

theorem step (hinv : pipeline.Inv world) {event : Event}
    (hstep : pipeline.step world event = some world') : pipeline.Inv world' := by
  cases event with
  | minted config =>
      cases hstep
      exact hinv.mint config
  | coordinator event =>
      obtain ⟨served, hserved, rfl⟩ := Option.map_eq_some_iff.mp hstep
      exact hinv.coordinator hserved
  | polled =>
      dsimp only [Pipeline.step, Pipeline.heard] at hstep
      split at hstep
      · obtain ⟨device, -, rfl⟩ := Option.map_eq_some_iff.mp hstep
        exact hinv.device device
      · cases hstep
  | injected releaseSigned =>
      dsimp only [Pipeline.step, Pipeline.heard] at hstep
      split at hstep
      · obtain ⟨device, -, rfl⟩ := Option.map_eq_some_iff.mp hstep
        exact hinv.device device
      · cases hstep
  | restarted version =>
      obtain ⟨device, -, rfl⟩ := Option.map_eq_some_iff.mp hstep
      exact hinv.device device

theorem blessed (hinv : pipeline.Inv world) {blob : Option String} {update : PendingUpdate}
    (hunforged : pipeline.unforged world.minted blob = true)
    (hstaged : world.device.stage pipeline.build blob = some update) :
    ∃ config artifact, pipeline.Blessed world update config artifact := by
  obtain ⟨text, read, platform, artifact, rfl, hopened, hplatform, hfound, rfl⟩ :=
    stage_opened hstaged
  obtain ⟨made, hmade, rfl⟩ := minted_of_open hunforged hopened
  obtain ⟨hvalid, hbuilt⟩ := hinv.minted made hmade
  obtain ⟨hown, config, hconfig, hsame⟩ := built_of_artifactFor hbuilt hfound
  have hsize := hvalid.size config hconfig
  refine ⟨made.1, config, ⟨⟨made.2, hmade⟩, hconfig, hvalid.semver, ?_, ?_, ?_,
    hvalid.https config hconfig, ?_, ⟨artifact.sha256, hsame.sha256, rfl⟩⟩⟩
  · exact congrArg Subtype.val (toManifest_ok hbuilt).1
  · rw [hplatform, ← hsame.platform, hown]
  · exact congrArg Subtype.val hsame.url
  · refine ⟨congrArg BitVec.toNat hsame.size, ?_⟩
    change 0 < artifact.size.toNat ∧ artifact.size.toNat ≤ MAX_RELEASE_ARTIFACT_BYTES
    rw [hsame.size]
    exact hsize

theorem advertised (hinv : pipeline.Inv world) {update : PendingUpdate}
    (hstaged : world.device.stage pipeline.build world.served.releaseSigned = some update) :
    ∃ config ∈ world.loaded, Valid pipeline.checks config ∧
      config.signedBlob = world.served.releaseSigned ∧ config.version.1 = update.version := by
  obtain ⟨text, read, platform, artifact, hblob, hopened, -, -, rfl⟩ := stage_opened hstaged
  obtain ⟨config, hconfig, hsigned⟩ := hinv.served text hblob
  have hvalid := hinv.loaded config hconfig
  obtain ⟨peeked, hpeeked, hversion⟩ := hvalid.blob text hsigned
  rw [peek_of_open hopened] at hpeeked
  cases hpeeked
  exact ⟨config, hconfig, hvalid, hsigned.trans hblob.symm, (congrArg Subtype.val hversion).symm⟩

end Pipeline.Inv

end

/-- The blob that the engine hears. -/
def Event.heard (world : World) : Event → Option (Option String)
  | .polled => some world.served.releaseSigned
  | .injected releaseSigned => some releaseSigned
  | _ => none

/-- A blob that was signed passes where it is configured, is staged as the manifest of its
configuration would be, and is nothing to an engine with another key. -/
theorem signed_staged (pipeline : Pipeline) (config : ReleaseConfig) (blob : String)
    (hsigned : pipeline.sign config = .ok blob) :
    ({ config with signedBlob := some blob } : ReleaseConfig).validate pipeline.checks = .ok () ∧
    ∃ read, config.toManifest = .ok read ∧ ∀ running floor,
      stageWith pipeline.build (some blob) running floor =
        Rollback.stageManifest pipeline.build (ofManifest read) running floor ∧
      ∀ other ≠ pipeline.anchor,
        pipeline.scheme.Binds (pipeline.fromSeed pipeline.seed) (manifest.encode read) →
          stageWith { pipeline.build with releasePk := some other } (some blob) running floor =
            (none, floor) := by
  obtain ⟨hvalid, read, hread, hsize, rfl⟩ := sign_ok hsigned
  have hopened := open_signed (pipeline.fromSeed pipeline.seed) read hsize
  refine ⟨validate_ok.mpr ⟨hvalid.semver, hvalid.https, hvalid.size, hvalid.distinct, ?_⟩,
    read, hread, fun running floor => ⟨?_, ?_⟩⟩
  · intro other hother
    rw [← Option.some.inj hother]
    exact ⟨read, peek_of_open hopened, (toManifest_ok hread).1⟩
  · unfold stageWith
    simp only [Pipeline.build, Pipeline.anchor, hopened, Option.map_some]
  · intro other hother hbinds
    have hrefused : openManifest pipeline.scheme other (Envelope.toBase64
        (signManifest (pipeline.fromSeed pipeline.seed) read hsize)) = none := by
      unfold openManifest
      rw [Envelope.fromBase64_toBase64]
      dsimp only
      split
      · rfl
      · rename_i read' hverified
        obtain ⟨hsig, -⟩ := verify_ok hverified
        exact absurd (hbinds other _ hsig).1 hother
    unfold stageWith
    simp only [Pipeline.build, hrefused, Option.map_none]

/-- One of two releases, with an artifact for Linux. -/
def onePipeline : Pipeline where
  scheme := schemeFor []
  fromSeed := fun _ => true
  checks :=
    { semver := fun text => (twoReleases.parse text).isSome
      scheme := fun url =>
        if url = "https://example.com/engine.tar.gz" then some "https" else none }
  semver := twoReleases
  seed := ⟨List.replicate 32 5, rfl⟩
  platform := some .linuxAmd64

def oneDigest : Bytes32 :=
  ⟨List.replicate 32 7, rfl⟩

def oneRelease : ReleaseConfig where
  version := ⟨"0.5.0", by decide⟩
  artifacts :=
    ⟨[⟨.linuxAmd64, ⟨"https://example.com/engine.tar.gz", by decide⟩, toHex oneDigest.1, 3⟩],
      by decide⟩

def oneManifest : WireManifest where
  version := oneRelease.version
  artifacts :=
    ⟨[⟨.linuxAmd64, ⟨"https://example.com/engine.tar.gz", by decide⟩, oneDigest, 3⟩], by decide⟩

theorem oneRelease_toManifest : oneRelease.toManifest = .ok oneManifest := by
  have hread : parseSha256 (toHex oneDigest.1) = .ok oneDigest := by
    have hwritten := written_toHex [] [] rfl rfl oneDigest
    rw [List.nil_append, List.append_nil, String.ofList_toList] at hwritten
    exact hex32_ok.mpr hwritten
  have hartifacts : toArtifacts oneRelease.artifacts.1 = .ok oneManifest.artifacts.1 := by
    simp only [oneRelease, toArtifacts, ArtifactConfig.toArtifact, hread]
    rfl
  unfold ReleaseConfig.toManifest
  split
  · rename_i failure hfailed
    rw [hartifacts] at hfailed
    cases hfailed
  · rename_i artifacts hbuilt
    obtain rfl := Except.ok.inj (hartifacts.symm.trans hbuilt)
    rfl

/-- The engine on the older release gets the artifact for Linux. -/
theorem signed_staged_one : ∃ blob, onePipeline.sign oneRelease = .ok blob ∧
    ∀ running floor, stageWith onePipeline.build (some blob) running floor =
      Rollback.stageManifest onePipeline.build (ofManifest oneManifest) running floor := by
  have hvalid : oneRelease.validate onePipeline.checks = .ok () := by
    decide +kernel
  have hsize : (manifest.encode oneManifest).length < 2 ^ 64 := by
    decide +kernel
  have hsigned : onePipeline.sign oneRelease =
      .ok (Envelope.toBase64 (signManifest (onePipeline.fromSeed onePipeline.seed) oneManifest hsize)) := by
    have hplain : ({ oneRelease with signedBlob := none } : ReleaseConfig).validate
        onePipeline.checks = .ok () :=
      hvalid
    unfold Pipeline.sign signRelease
    rw [hplain, oneRelease_toManifest, fromHex32_toHex]
    exact dif_pos hsize
  obtain ⟨-, read, hread, hstaged⟩ := signed_staged onePipeline oneRelease _ hsigned
  obtain rfl : oneManifest = read := Except.ok.inj (oneRelease_toManifest.symm.trans hread)
  exact ⟨_, hsigned, fun running floor => (hstaged running floor).1⟩

end UnityLan.Engine.SelfUpdate.Publishing
