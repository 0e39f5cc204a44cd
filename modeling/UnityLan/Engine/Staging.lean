import UnityLan.Engine.SelfUpdate

namespace UnityLan.Engine.SelfUpdate

open UnityLan.Foundation Prog

/-! What one update task writes, as far as it comes. -/

variable {conf : Conf}

/-! What an artifact holds. -/

structure Blessed (conf : Conf) (artifact : ReleaseArtifact) (bytes : Bytes) : Prop where
  size : bytes.length = artifact.size
  digest : conf.digest bytes = artifact.sha256

def latest (found : Option Bytes) (entry : Except String Entry) : Option Bytes :=
  match entry with
  | .ok ⟨.ok name, data⟩ =>
      if name = some BUNDLE_ENGINE then some data.chunks.flatten else found
  | _ => found

def engineIn (conf : Conf) (bytes : Bytes) : Option Bytes :=
  if isGzip bytes then
    match conf.entries bytes with
    | .ok entries => entries.foldl latest none
    | .error _ => none
  else some bytes

def Provides (conf : Conf) (artifact : ReleaseArtifact) (content : Bytes) : Prop :=
  ∃ bytes, Blessed conf artifact bytes ∧ engineIn conf bytes = some content

/-! How far a task is. -/

inductive Stage
  /-- It has not written to the staged engine. -/
  | fetching
  /-- The staged engine that it opened, with what it wrote to it. -/
  | staging (file : FileId Path) (content : Bytes)
  | discarded
  | installed (content : Bytes)
  /-- The marker is open. -/
  | marking (content : Bytes) (file : FileId Path)
  /-- The plan is stored. -/
  | planned (content : Bytes)

namespace Stage

def engaged : Stage → Bool
  | .fetching | .planned _ => false
  | _ => true

def early : Stage → Bool
  | .fetching | .staging _ _ => true
  | _ => false

def content : Stage → Option Bytes
  | .installed content | .marking content _ | .planned content => some content
  | _ => none

def replaced : Stage → Bool
  | .installed _ | .marking _ _ => true
  | _ => false

end Stage

structure Progress where
  update : Option PendingUpdate := none
  stage : Stage := .fetching

def IsGui (path : Path) : Prop :=
  path = .stagedGui ∨ path = .guiBeside ∨ path = .guiUsrBin

namespace Progress

def allows (conf : Conf) (μ : Progress) : Op → Prop
  | .pendingUpdate => μ.update = none ∧ μ.stage = .fetching
  | .create path =>
      IsGui path ∨ path = .stagedEngine ∧ μ.stage.early = true ∨
        path = .marker ∧ ∃ content, μ.stage = .installed content
  | .write file position chunk =>
      IsGui file.born ∨
      (∃ content, μ.stage = .staging file content ∧ position = content.length) ∨
      ∃ content update, μ.stage = .marking content file ∧ position = 0 ∧
        μ.update = some update ∧ chunk = utf8 update.version
  | .rename source target => source = .stagedGui ∧ IsGui target
  | .copy source target => source = .stagedGui ∧ IsGui target
  | .remove path =>
      path = .stagedGui ∨ path = .stagedEngine ∧
        ((∃ file content, μ.stage = .staging file content) ∨
          ∃ content, μ.stage = .installed content)
  | .selfReplace path =>
      path = .stagedEngine ∧ ∃ update file content, μ.update = some update ∧
        μ.stage = .staging file content ∧ Provides conf update.artifact content
  | .storePlan _ => μ.stage.replaced = true
  | _ => True

def expects : (o : Op) → o.Res → Prop
  | .create path, .ok file => ∀ kept, ¬IsGui kept → (file.born = kept ↔ path = kept)
  | _, _ => True

def opened (stage : Stage) (path : Path) (file : FileId Path) : Stage :=
  match path, stage with
  | .stagedEngine, _ => .staging file []
  | .marker, .installed content => .marking content file
  | _, stage => stage

def written (stage : Stage) (file : FileId Path) (chunk : Bytes) : Stage :=
  match stage with
  | .staging own content => if own = file then .staging own (content ++ chunk) else stage
  | .marking content own => if own = file then .installed content else stage
  | stage => stage

def removed (stage : Stage) (path : Path) : Stage :=
  match path, stage with
  | .stagedEngine, .staging _ _ => .discarded
  | _, stage => stage

def replaced : Stage → Stage
  | .staging _ content => .installed content
  | stage => stage

def concluded : Stage → Stage
  | .installed content | .marking content _ => .planned content
  | stage => stage

def next (μ : Progress) : (o : Op) → o.Res → Progress
  | .pendingUpdate, update => { μ with update := update }
  | .create path, .ok file => { μ with stage := opened μ.stage path file }
  | .write file _ chunk, .ok _ => { μ with stage := written μ.stage file chunk }
  | .remove path, _ => { μ with stage := removed μ.stage path }
  | .selfReplace _, .ok _ => { μ with stage := replaced μ.stage }
  | .storePlan _, _ => { μ with stage := concluded μ.stage }
  | _, _ => μ

end Progress

def progress (conf : Conf) : Monitor FileSig Progress where
  allows := Progress.allows conf
  expects := fun _ => Progress.expects
  next := Progress.next

/-! The task keeps to it. -/

section

variable {α : Type} {μ : Progress}

theorem conforms_fallible {o : Op} {read : FileSig.Res o → Except String α} {context : String}
    {post : Progress → Except String α → Prop} :
    (fallible o read context).Conforms (progress conf) post μ ↔
      μ.allows conf o ∧ ∀ answer, Progress.expects o answer →
        post (μ.next o answer) ((read answer).mapError fun error => context ++ ": " ++ error) := by
  unfold fallible performOr
  rw [conforms_mapError]
  refine and_congr Iff.rfl (forall_congr' fun answer => imp_congr Iff.rfl ?_)
  dsimp only
  cases read answer <;> exact Iff.rfl

def Neutral : Op → Prop
  | .fetch _ | .createDir | .chmod _ | .existsAt _ | .currentExe | .notify => True
  | .rename source target | .copy source target => source = .stagedGui ∧ IsGui target
  | .remove path => path = .stagedGui
  | _ => False

theorem neutral_conforms {program : Update α} (hprogram : program.Uses Neutral) :
    program.Conforms (progress conf) (fun μ' _ => μ' = μ) μ := by
  refine hprogram.conforms fun o ho => ?_
  cases o with
  | fetch url => exact ⟨trivial, fun _ => rfl⟩
  | createDir => exact ⟨trivial, fun _ => rfl⟩
  | chmod path => exact ⟨trivial, fun _ => rfl⟩
  | existsAt path => exact ⟨trivial, fun _ => rfl⟩
  | currentExe => exact ⟨trivial, fun _ => rfl⟩
  | notify => exact ⟨trivial, fun _ => rfl⟩
  | rename source target => exact ⟨ho, fun _ => rfl⟩
  | copy source target => exact ⟨ho, fun _ => rfl⟩
  | remove path =>
      obtain rfl : path = .stagedGui := ho
      exact ⟨.inl rfl, fun _ => rfl⟩
  | _ => exact ho.elim

theorem verifyDownload_blessed {artifact : ReleaseArtifact} {buf bytes : Bytes}
    (hverified : verifyDownload conf artifact buf = .ok bytes) :
    Blessed conf artifact bytes := by
  unfold verifyDownload at hverified
  split at hverified
  · cases hverified
  · rename_i hsize
    split at hverified
    · cases hverified
    · rename_i hdigest
      cases hverified
      exact ⟨not_not.mp hsize, not_not.mp hdigest⟩

theorem downloadVerified_blessed (artifact : ReleaseArtifact) :
    (downloadVerified conf artifact).Conforms (progress conf)
      (returns fun μ' bytes => μ' = μ ∧ Blessed conf artifact bytes) μ := by
  unfold downloadVerified
  split
  · trivial
  split
  · trivial
  refine Conforms.through (fun μ' _ => μ' = μ) (conforms_fallible.mpr ⟨trivial, ?_⟩) ?_
  · intro answer _
    cases answer with
    | ok body => rfl
    | error error => trivial
  rintro _ body rfl
  dsimp only
  split
  · trivial
  · rename_i buf hbuf
    cases hbody : collect artifact.size [] body.chunks body.broken with
    | error error =>
        rw [hbody] at hbuf
        cases hbuf
    | ok whole =>
        rw [hbody] at hbuf
        exact ⟨rfl, verifyDownload_blessed hbuf⟩

theorem fallible_neutral {o : Op} {read : FileSig.Res o → Except String α} {context : String}
    (ho : Neutral o) : (fallible o read context).Uses Neutral := by
  apply Uses.mapError
  refine ⟨ho, fun answer => ?_⟩
  dsimp only
  split <;> trivial

theorem findExisting_kept (paths : List Path) :
    (findExisting paths).Conforms (progress conf)
      (fun μ' found => μ' = μ ∧ ∀ target, found = .ok (some target) → target ∈ paths) μ := by
  induction paths with
  | nil =>
      refine ⟨rfl, fun target htarget => ?_⟩
      cases htarget
  | cons path rest ih =>
      refine ⟨trivial, fun found _ => ?_⟩
      cases found with
      | true =>
          refine ⟨rfl, fun target htarget => ?_⟩
          cases htarget
          exact List.mem_cons_self
      | false =>
          exact ih.mono fun μ' found hfound =>
            ⟨hfound.1, fun target htarget => List.mem_cons_of_mem _ (hfound.2 target htarget)⟩

theorem candidates_gui {exe : Except String String} {target : Path}
    (htarget : target ∈ candidates exe) : IsGui target := by
  unfold candidates at htarget
  split at htarget
  · simp only [List.mem_cons, List.not_mem_nil, or_false] at htarget
    exact .inr htarget
  · exact .inr (.inr (List.mem_singleton.mp htarget))

theorem moveOver_neutral {target : Path} (htarget : IsGui target) :
    (moveOver .stagedGui target).Uses Neutral := by
  refine ⟨⟨rfl, htarget⟩, fun renamed => ?_⟩
  cases renamed with
  | ok _ => trivial
  | error _ =>
      have hcopy : Neutral (.copy .stagedGui target) := ⟨rfl, htarget⟩
      exact (fallible_neutral hcopy).bind fun _ => ⟨rfl, fun _ => trivial⟩

theorem replaceBeside_kept :
    (replaceBeside .stagedGui).Conforms (progress conf) (fun μ' _ => μ' = μ) μ := by
  refine ⟨trivial, fun exe _ => (findExisting_kept (candidates exe)).bind ?_ fun _ _ h => h.1⟩
  rintro _ found ⟨rfl, hfound⟩
  cases found with
  | none => rfl
  | some target =>
      refine neutral_conforms ((moveOver_neutral (candidates_gui (hfound target rfl))).bind
        fun _ => (fallible_neutral ?_).bind fun _ => trivial)
      trivial

theorem replaceGui_kept (bundle : Bundle) :
    (replaceGui bundle).Conforms (progress conf) (returns fun μ' _ => μ' = μ) μ := by
  unfold replaceGui
  split
  · refine Conforms.through (fun μ' _ => μ' = μ) ?_ fun _ _ h => h
    exact (conforms_attempt _ _).mpr replaceBeside_kept
  · rfl

theorem copyInto_staging {file : FileId Path} {context : String} {chunks : List Bytes}
    {broken : Option String} {limit : Nat} {content : Bytes} {update : Option PendingUpdate} :
    (copyInto file context limit content.length chunks broken).Conforms (progress conf)
      (returns fun μ' position => ∃ data, μ' = ⟨update, .staging file (content ++ data)⟩ ∧
        position = content.length + data.length ∧ (data.length < limit → data = chunks.flatten))
      ⟨update, .staging file content⟩ := by
  induction chunks generalizing limit content with
  | nil =>
      unfold copyInto
      split
      · exact ⟨[], by simp, rfl, fun _ => rfl⟩
      · split
        · exact ⟨[], by simp, rfl, fun _ => rfl⟩
        · trivial
  | cons chunk rest ih =>
      unfold copyInto
      split
      · rename_i hlimit
        exact ⟨[], by simp, rfl, fun hshort => absurd hshort (by simp [hlimit])⟩
      · refine Conforms.through
          (fun μ' _ => μ' = ⟨update, .staging file (content ++ chunk.take limit)⟩)
          (conforms_fallible.mpr ⟨.inr (.inl ⟨content, rfl, rfl⟩), ?_⟩) ?_
        · intro answer _
          cases answer with
          | error error => trivial
          | ok _ =>
              change Progress.mk update (Progress.written _ _ _) = _
              simp [Progress.written]
        · rintro _ _ rfl
          rw [← List.length_append]
          refine ih.returns_mono ?_
          rintro μ' position ⟨data, rfl, hposition, hwhole⟩
          refine ⟨chunk.take limit ++ data, by simp, ?_, fun hshort => ?_⟩
          · rw [hposition, List.length_append, List.length_append, Nat.add_assoc]
          · rw [List.length_append] at hshort
            have hall : chunk.take limit = chunk := by
              apply List.take_of_length_le
              have hlength := List.length_take (i := limit) (l := chunk)
              omega
            rw [hwhole (by omega), hall]
            rfl

theorem copyInto_gui {file : FileId Path} {context : String} {chunks : List Bytes}
    {broken : Option String} {limit position : Nat} (hborn : IsGui file.born)
    (hstage : ∀ chunk, Progress.written μ.stage file chunk = μ.stage) :
    (copyInto file context limit position chunks broken).Conforms (progress conf)
      (returns fun μ' _ => μ' = μ) μ := by
  induction chunks generalizing limit position with
  | nil =>
      unfold copyInto
      split
      · rfl
      · split
        · rfl
        · trivial
  | cons chunk rest ih =>
      unfold copyInto
      split
      · rfl
      · refine Conforms.through (fun μ' _ => μ' = μ)
          (conforms_fallible.mpr ⟨.inl hborn, ?_⟩) ?_
        · intro answer _
          cases answer with
          | error error => trivial
          | ok _ =>
              change Progress.mk μ.update (Progress.written _ _ _) = _
              rw [hstage]
        · rintro _ _ rfl
          exact ih

def Unpacked (update : Option PendingUpdate) (found : Option Bytes) (μ : Progress)
    (bundle : Bundle) : Prop :=
  match found with
  | some content =>
      bundle.engine = true ∧ ∃ file, file.born = .stagedEngine ∧ μ = ⟨update, .staging file content⟩
  | none => bundle.engine = false ∧ μ = ⟨update, .fetching⟩

theorem finish_entry {written : Nat} {out : Path} {error : String} {bundle : Bundle}
    {post : Progress → Bundle → Prop} (hout : μ.allows conf (.remove out))
    (hpost : written ≤ MAX_UPDATE_BYTES → post μ (bundle.add out)) :
    (if MAX_UPDATE_BYTES < written then do
        let _ ← ask (.remove out)
        throw error
      else do
        makeExecutable out
        return bundle.add out : Update Bundle).Conforms (progress conf) (returns post) μ := by
  split
  · exact ⟨hout, fun _ _ => trivial⟩
  · rename_i hsmall
    refine Conforms.through (fun μ' _ => μ' = μ) (conforms_fallible.mpr ⟨trivial, ?_⟩) ?_
    · intro answer _
      cases answer <;> trivial
    · rintro _ _ rfl
      exact hpost (Nat.le_of_not_lt hsmall)

theorem unpack_engine {update : Option PendingUpdate} {found : Option Bytes} {bundle : Bundle}
    {context opening error : String} {data : Stream} (hunpacked : Unpacked update found μ bundle) :
    (do
      let file ← fallible (.create .stagedEngine) id opening
      let written ← copyInto file context (MAX_UPDATE_BYTES + 1) 0 data.chunks data.broken
      if MAX_UPDATE_BYTES < written then do
        let _ ← ask (.remove .stagedEngine)
        throw error
      else do
        makeExecutable .stagedEngine
        return bundle.add .stagedEngine : Update Bundle).Conforms (progress conf)
      (returns (Unpacked update (some data.chunks.flatten))) μ := by
  have hearly : μ.update = update ∧ μ.stage.early = true := by
    unfold Unpacked at hunpacked
    split at hunpacked
    · obtain ⟨_, file, _, rfl⟩ := hunpacked
      exact ⟨rfl, rfl⟩
    · obtain ⟨_, rfl⟩ := hunpacked
      exact ⟨rfl, rfl⟩
  obtain ⟨rfl, hearly⟩ := hearly
  refine Conforms.through
    (fun μ' file => file.born = .stagedEngine ∧ μ' = ⟨μ.update, .staging file []⟩)
    (conforms_fallible.mpr ⟨.inr (.inl ⟨rfl, hearly⟩), ?_⟩) ?_
  · intro answer hanswer
    cases answer with
    | error error => trivial
    | ok file => exact ⟨(hanswer .stagedEngine (by simp [IsGui])).mpr rfl, rfl⟩
  rintro _ file ⟨hborn, rfl⟩
  refine (@copyInto_staging conf file _ _ _ _ [] μ.update).andThen ?_
  rintro _ written ⟨copied, rfl, hwritten, hwhole⟩
  refine finish_entry (.inr ⟨rfl, .inl ⟨file, _, rfl⟩⟩) fun hsmall => ?_
  rw [List.length_nil, Nat.zero_add] at hwritten
  refine ⟨rfl, file, hborn, ?_⟩
  rw [← hwhole (by omega)]
  rfl

theorem unpack_gui {update : Option PendingUpdate} {found : Option Bytes} {bundle : Bundle}
    {context opening error : String} {data : Stream} (hunpacked : Unpacked update found μ bundle) :
    (do
      let file ← fallible (.create .stagedGui) id opening
      let written ← copyInto file context (MAX_UPDATE_BYTES + 1) 0 data.chunks data.broken
      if MAX_UPDATE_BYTES < written then do
        let _ ← ask (.remove .stagedGui)
        throw error
      else do
        makeExecutable .stagedGui
        return bundle.add .stagedGui : Update Bundle).Conforms (progress conf)
      (returns (Unpacked update found)) μ := by
  refine Conforms.through (fun μ' file => IsGui file.born ∧ μ' = μ)
    (conforms_fallible.mpr ⟨.inl (.inl rfl), ?_⟩) ?_
  · intro answer hanswer
    cases answer with
    | error error => trivial
    | ok file =>
        refine ⟨by_contra fun hgui => ?_, rfl⟩
        exact hgui ((hanswer file.born hgui).mp rfl ▸ .inl rfl)
  rintro _ file ⟨hborn, rfl⟩
  have hapart : ∀ own : FileId Path, own.born = .stagedEngine → own ≠ file := by
    rintro own hown rfl
    rw [hown] at hborn
    simp [IsGui] at hborn
  refine (copyInto_gui hborn fun chunk => ?_).andThen ?_
  · unfold Unpacked at hunpacked
    split at hunpacked
    · obtain ⟨_, own, hown, rfl⟩ := hunpacked
      exact if_neg (hapart own hown)
    · obtain ⟨_, rfl⟩ := hunpacked
      rfl
  · rintro _ written rfl
    refine finish_entry (.inl rfl) fun _ => ?_
    unfold Unpacked at hunpacked ⊢
    split at hunpacked <;> exact hunpacked

theorem unpackEntry_unpacked {update : Option PendingUpdate} {found : Option Bytes}
    {bundle : Bundle} {entry : Except String Entry} (hunpacked : Unpacked update found μ bundle) :
    (unpackEntry bundle entry).Conforms (progress conf)
      (returns (Unpacked update (latest found entry))) μ := by
  unfold unpackEntry
  split
  · trivial
  · rename_i entry
    split
    · trivial
    · rename_i name hname
      obtain ⟨path, data⟩ := entry
      obtain rfl : path = .ok name := hname
      by_cases hengine : name = some BUNDLE_ENGINE
      · have hlatest : latest found (.ok ⟨.ok name, data⟩) = some data.chunks.flatten :=
          if_pos hengine
        rw [hlatest, show Entry.staged name = some .stagedEngine from if_pos hengine]
        exact unpack_engine hunpacked
      · have hlatest : latest found (.ok ⟨.ok name, data⟩) = found := if_neg hengine
        rw [hlatest]
        unfold Entry.staged
        rw [if_neg hengine]
        by_cases hgui : name = some BUNDLE_GUI
        · rw [if_pos hgui]
          exact unpack_gui hunpacked
        · rw [if_neg hgui]
          exact hunpacked

theorem unpackEntries_unpacked {update : Option PendingUpdate}
    (entries : List (Except String Entry)) :
    (entries.foldlM unpackEntry {}).Conforms (progress conf)
      (returns (Unpacked update (entries.foldl latest none))) ⟨update, .fetching⟩ := by
  refine Conforms.foldlM_done [] entries unpackEntry
    (fun done => Unpacked update (done.foldl latest none)) ?_ ⟨rfl, rfl⟩
  intro done μ bundle entry _ hunpacked
  rw [List.foldl_append]
  exact unpackEntry_unpacked hunpacked

def Staged (conf : Conf) (update : Option PendingUpdate) (bytes : Bytes) (μ : Progress)
    (path : Path) : Prop :=
  path = .stagedEngine ∧ ∃ file content, engineIn conf bytes = some content ∧
    μ = ⟨update, .staging file content⟩

theorem writeFile_staged {update : Option PendingUpdate} {bytes : Bytes} {context : String} :
    (writeFile .stagedEngine bytes context).Conforms (progress conf)
      (returns fun μ' _ => ∃ file, μ' = ⟨update, .staging file bytes⟩) ⟨update, .fetching⟩ := by
  unfold writeFile
  refine Conforms.through (fun μ' file => μ' = ⟨update, .staging file []⟩)
    (conforms_fallible.mpr ⟨.inr (.inl ⟨rfl, rfl⟩), ?_⟩) ?_
  · intro answer _
    cases answer <;> trivial
  · rintro _ file rfl
    refine conforms_fallible.mpr ⟨.inr (.inl ⟨[], rfl, rfl⟩), ?_⟩
    intro answer _
    cases answer with
    | error error => trivial
    | ok _ =>
        refine ⟨file, ?_⟩
        change Progress.mk update (Progress.written _ _ _) = _
        simp [Progress.written]

theorem fallible_kept {o : Op} {read : FileSig.Res o → Except String α} {context : String}
    (ho : Neutral o) :
    (fallible o read context).Conforms (progress conf) (returns fun μ' _ => μ' = μ) μ := by
  refine (neutral_conforms (fallible_neutral ho)).mono fun μ' result hkept => ?_
  cases result with
  | ok _ => exact hkept
  | error _ => trivial

theorem stageEngine_staged {update : Option PendingUpdate} {bytes : Bytes} :
    (stageEngine conf bytes).Conforms (progress conf) (returns (Staged conf update bytes))
      ⟨update, .fetching⟩ := by
  unfold stageEngine
  split
  · rename_i hgzip
    refine Conforms.through (fun μ' bundle => bundle.engine = true →
        ∃ file content, engineIn conf bytes = some content ∧ μ' = ⟨update, .staging file content⟩)
      ?_ ?_
    · unfold unpackBundle
      split
      · trivial
      · rename_i entries hentries
        refine (unpackEntries_unpacked entries).returns_mono fun μ' bundle hunpacked hengine => ?_
        unfold Unpacked at hunpacked
        split at hunpacked
        · rename_i content hcontent
          obtain ⟨_, file, _, rfl⟩ := hunpacked
          refine ⟨file, content, ?_, rfl⟩
          unfold engineIn
          rw [if_pos hgzip, hentries]
          exact hcontent
        · rw [hunpacked.1] at hengine
          cases hengine
    · intro μ' bundle hbundle
      refine (replaceGui_kept bundle).andThen ?_
      rintro _ _ rfl
      split
      · rename_i hengine
        exact ⟨rfl, hbundle hengine⟩
      · trivial
  · rename_i hplain
    refine writeFile_staged.andThen ?_
    rintro _ _ ⟨file, rfl⟩
    refine (fallible_kept trivial : (makeExecutable .stagedEngine).Conforms _ _ _).andThen ?_
    rintro _ _ rfl
    exact ⟨rfl, file, bytes, if_neg hplain, rfl⟩

theorem applyBytes_installs {update : PendingUpdate} {bytes : Bytes}
    (hblessed : Blessed conf update.artifact bytes) :
    (applyBytes conf bytes).Conforms (progress conf)
      (returns fun μ' _ => ∃ content, μ' = ⟨some update, .installed content⟩)
      ⟨some update, .fetching⟩ := by
  unfold applyBytes
  refine stageEngine_staged.andThen ?_
  rintro _ _ ⟨rfl, file, content, hcontent, rfl⟩
  refine (fallible_kept trivial : (fallible .currentExe _ _).Conforms _ _ _).andThen ?_
  rintro _ exe rfl
  have hprovides : Provides conf update.artifact content := ⟨bytes, hblessed, hcontent⟩
  refine Conforms.through (fun μ' _ => μ' = ⟨some update, .installed content⟩)
    (conforms_fallible.mpr ⟨⟨rfl, update, file, content, rfl, rfl, hprovides⟩, ?_⟩) ?_
  · intro answer _
    cases answer <;> trivial
  · rintro _ _ rfl
    exact ⟨.inr ⟨rfl, .inr ⟨content, rfl⟩⟩, fun _ _ => ⟨content, rfl⟩⟩

theorem apply_installs {update : PendingUpdate} :
    (apply conf update.artifact).Conforms (progress conf)
      (returns fun μ' _ => ∃ content, μ' = ⟨some update, .installed content⟩)
      ⟨some update, .fetching⟩ := by
  unfold apply
  refine (downloadVerified_blessed update.artifact).andThen ?_
  rintro _ bytes ⟨rfl, hblessed⟩
  refine (fallible_kept trivial : (fallible .createDir _ _).Conforms _ _ _).andThen ?_
  rintro _ _ rfl
  exact applyBytes_installs hblessed

theorem markUpdatePending_installed {update : PendingUpdate} {content : Bytes} :
    (markUpdatePending update.version).Conforms (progress conf)
      (returns fun μ' _ => μ'.update = some update ∧ μ'.stage.replaced = true ∧
        μ'.stage.content = some content) ⟨some update, .installed content⟩ := by
  unfold markUpdatePending
  refine Conforms.through (fun μ' _ => μ'.update = some update ∧ μ'.stage.replaced = true ∧
    μ'.stage.content = some content) ((conforms_attempt _ _).mpr ?_) fun _ _ h => h
  unfold writeFile
  have hopened : (fallible (.create .marker) id "").Conforms (progress conf) (fun μ' result =>
      (∃ file, result = .ok file ∧ μ' = ⟨some update, .marking content file⟩) ∨
      ∃ error, result = .error error ∧ μ' = ⟨some update, .installed content⟩)
      ⟨some update, .installed content⟩ := by
    refine conforms_fallible.mpr ⟨.inr (.inr ⟨rfl, content, rfl⟩), ?_⟩
    intro answer _
    cases answer with
    | ok file => exact .inl ⟨file, rfl, rfl⟩
    | error error => exact .inr ⟨_, rfl, rfl⟩
  refine hopened.bind ?_ ?_
  · rintro _ file (⟨_, ⟨⟩, rfl⟩ | ⟨_, ⟨⟩, _⟩)
    · refine conforms_fallible.mpr ⟨.inr (.inr ⟨content, update, rfl, rfl, rfl, rfl⟩), ?_⟩
      intro answer _
      cases answer with
      | error error => exact ⟨rfl, rfl, rfl⟩
      | ok _ =>
          have hwritten : Progress.written (.marking content file) file (utf8 update.version) =
              .installed content := if_pos rfl
          exact ⟨rfl, by rw [show Progress.stage _ = _ from hwritten]; exact ⟨rfl, rfl⟩⟩
  · rintro _ _ (⟨_, hfile, _⟩ | ⟨_, _, rfl⟩)
    · cases hfile
    · exact ⟨rfl, rfl, rfl⟩

def Concludes (μ : Progress) (update : PendingUpdate) : Prop :=
  μ.update = some update ∧ ∃ content, μ.stage = .planned content

theorem applyUpdate_conforms :
    (applyUpdate conf).Conforms (progress conf) (returns Concludes) {} := by
  unfold applyUpdate
  refine ⟨⟨rfl, rfl⟩, fun pending _ => ?_⟩
  cases pending with
  | none => trivial
  | some update =>
      refine apply_installs.andThen ?_
      rintro _ plan ⟨content, rfl⟩
      refine markUpdatePending_installed.andThen ?_
      rintro μ' _ ⟨hupdate, hreplaced, hcontent⟩
      refine ⟨hreplaced, fun _ _ => ⟨trivial, fun _ _ => ⟨hupdate, content, ?_⟩⟩⟩
      change Progress.concluded μ'.stage = _
      cases hstage : μ'.stage <;> simp_all [Stage.replaced, Stage.content, Progress.concluded]

end

end UnityLan.Engine.SelfUpdate
