import UnityLan.Engine.Staging

namespace UnityLan.Engine.SelfUpdate

open UnityLan.Foundation Prog

/-! What overlapping update tasks leave installed. -/

/-- Before the first request. -/
def Host.boot (data : Path → Option Bytes) (floor : Option String) : Host where
  files := .ofContents data
  floor := floor

/-! What is remembered of a run. -/

structure Ledger where
  /-- The manifests that verified. -/
  noted : List ReleaseManifest := []
  updates : Nat → Option PendingUpdate := fun _ => none
  /-- The task that opened the staged engine, until its plan is stored. -/
  holder : Option Nat := none
  /-- The version of the engine that is installed. -/
  installed : String
  /-- What the engine was when a task had replaced it. -/
  installs : List (Nat × Bytes) := []
  returned : List (Nat × PendingUpdate) := []

namespace Ledger

variable (g : Ledger)

def yielded (task : Nat) : Option Nat :=
  if g.holder = some task then none else g.holder

def leave (task : Nat) : Ledger :=
  { g with
    updates := Function.update g.updates task none
    holder := g.yielded task }

def ended (task : Nat) : Except String PendingUpdate → Ledger
  | .ok update => { g.leave task with returned := g.returned ++ [(task, update)] }
  | .error _ => g.leave task

def did (task : Nat) (host' : Host) : (o : Op) → o.Res → Ledger
  | .pendingUpdate, update => { g with updates := Function.update g.updates task update }
  | .create .stagedEngine, .ok _ => { g with holder := some task }
  | .selfReplace _, .ok _ =>
      { g with
        installed := ((g.updates task).map PendingUpdate.version).getD g.installed
        installs := g.installs ++ [(task, (host'.files.read? .engine).getD [])] }
  | .storePlan _, _ => { g with holder := g.yielded task }
  | _, _ => g

end Ledger

/-- The marker names this version, where it names one. -/
def Named (version : String) (files : Files Path UInt8) : Prop :=
  ∀ text, files.read? .marker = some text → text = [] ∨ text = utf8 version

/-- A task opens the staged engine only while it is no other's, and replaces the engine only
where the marker names no other version than its own. -/
def Ledger.orderly (g : Ledger) (host : Host) (task : Nat) : Op → Prop
  | .create .stagedEngine => ∀ other, g.holder = some other → other = task
  | .selfReplace _ => ∀ update, g.updates task = some update → Named update.version host.files
  | _ => True

section

variable (conf : Conf)

def observer : (machine conf).Observer Ledger where
  see g _ event host' :=
    match event with
    | .did task o answer => g.did task host' o answer
    | .ended task _ result => g.ended task result
    | .dropped task _ => g.leave task
    | .moved (.noted (some manifest) _) => { g with noted := g.noted ++ [manifest] }
    | _ => g

def Orderly (g : Ledger) (host : Host) (event : (machine conf).Event) : Prop :=
  match event with
  | .did task o _ => g.orderly host task o
  | _ => True

def Genuine (old : Bytes) (noted : List ReleaseManifest) (files : Files Path UInt8) : Prop :=
  ∃ content, files.read? .engine = some content ∧
    (content = old ∨ ∃ manifest ∈ noted, ∃ artifact ∈ manifest.artifacts,
      Provides conf artifact content)

structure Safe (old : Bytes) (g : Ledger) (host : Host) : Prop where
  engine : Genuine conf old g.noted host.files
  /-- A task that returned had installed its own artifact. -/
  returned : ∀ task update, (task, update) ∈ g.returned →
    ∃ content, (task, content) ∈ g.installs ∧ Provides conf update.artifact content
  marker : Named g.installed host.files

end

/-! How the tasks under way fit the host and the history. -/

def Committed (noted : List ReleaseManifest) (update : PendingUpdate) : Prop :=
  ∃ manifest ∈ noted, update.version = manifest.version ∧ update.artifact ∈ manifest.artifacts

structure Fits (conf : Conf) (g : Ledger) (files : Files Path UInt8) (task : Nat) (μ : Progress) :
    Prop where
  update : g.updates task = μ.update
  committed : ∀ update, μ.update = some update → Committed g.noted update
  done : ∀ content, μ.stage.content = some content →
    (task, content) ∈ g.installs ∧
      ∃ update, μ.update = some update ∧ Provides conf update.artifact content
  holder : μ.stage.engaged = true ↔ g.holder = some task
  version : μ.stage.replaced = true →
    ∃ update, μ.update = some update ∧ g.installed = update.version
  staged : ∀ file content, μ.stage = .staging file content →
    file.born = .stagedEngine ∧ files.contents file = content ∧
      ∀ found, files.names .stagedEngine = some found → found = file
  marking : ∀ content file, μ.stage = .marking content file →
    file.born = .marker ∧ files.contents file = [] ∧ files.names .marker = some file

structure Passes (g g' : Ledger) (files files' : Files Path UInt8) (task : Nat) : Prop where
  updates : g'.updates task = g.updates task
  noted : ∀ manifest ∈ g.noted, manifest ∈ g'.noted
  installs : ∀ entry ∈ g.installs, entry ∈ g'.installs
  holder : g'.holder = some task ↔ g.holder = some task
  installed : g.holder = some task → g'.installed = g.installed
  staged : g.holder = some task → Files.Keeps .stagedEngine files files'
  marker : g.holder = some task → Files.Keeps .marker files files'

structure Inv (conf : Conf) (old : Bytes) (g : Ledger) (host : Host)
    (views : Nat → Option (Unit × Progress)) : Prop where
  settled : ∀ path, ¬IsGui path → host.files.Settled path
  pending : ∀ update, host.pending = some update → Committed g.noted update
  fits : ∀ {task call μ}, views task = some (call, μ) → Fits conf g host.files task μ
  absent : ∀ {task}, views task = none → g.updates task = none ∧ g.holder ≠ some task
  safe : Safe conf old g host

section

variable {conf : Conf} {old : Bytes} {g g' : Ledger} {host host' : Host}
  {files files' : Files Path UInt8} {task other : Nat} {call : Unit} {μ μ' : Progress}
  {views : Nat → Option (Unit × Progress)}

theorem Committed.grow {noted noted' : List ReleaseManifest} {update : PendingUpdate}
    (hgrow : ∀ manifest ∈ noted, manifest ∈ noted') (hcommitted : Committed noted update) :
    Committed noted' update := by
  obtain ⟨manifest, hnoted, hupdate⟩ := hcommitted
  exact ⟨manifest, hgrow manifest hnoted, hupdate⟩

theorem Genuine.grow {noted noted' : List ReleaseManifest}
    (hgrow : ∀ manifest ∈ noted, manifest ∈ noted') (hgenuine : Genuine conf old noted files)
    (hread : files'.read? .engine = files.read? .engine) : Genuine conf old noted' files' := by
  obtain ⟨content, hcontent, hwhose⟩ := hgenuine
  refine ⟨content, hread.trans hcontent, hwhose.imp id ?_⟩
  rintro ⟨manifest, hnoted, hartifact⟩
  exact ⟨manifest, hgrow manifest hnoted, hartifact⟩

theorem Genuine.of_committed {noted : List ReleaseManifest} {update : PendingUpdate}
    {content : Bytes} (hcommitted : Committed noted update)
    (hprovides : Provides conf update.artifact content)
    (hread : files.read? .engine = some content) : Genuine conf old noted files := by
  obtain ⟨manifest, hnoted, -, hartifact⟩ := hcommitted
  exact ⟨content, hread, .inr ⟨manifest, hnoted, update.artifact, hartifact, hprovides⟩⟩

theorem Named.of_read {version : String} (hnamed : Named version files)
    (hread : files'.read? .marker = files.read? .marker) : Named version files' := by
  intro text htext
  exact hnamed text (hread.symm.trans htext)

theorem Fits.pass (hfits : Fits conf g files task μ) (hpasses : Passes g g' files files' task) :
    Fits conf g' files' task μ where
  update := hpasses.updates.trans hfits.update
  committed := fun update hupdate => (hfits.committed update hupdate).grow hpasses.noted
  done := fun content hcontent =>
    (hfits.done content hcontent).imp (hpasses.installs _) id
  holder := hfits.holder.trans hpasses.holder.symm
  version := by
    intro hreplaced
    have hengaged : μ.stage.engaged = true := by
      cases hstage : μ.stage <;> simp_all [Stage.replaced, Stage.engaged]
    rw [hpasses.installed (hfits.holder.mp hengaged)]
    exact hfits.version hreplaced
  staged := by
    intro file content hstage
    have hkeeps := hpasses.staged (hfits.holder.mp (hstage ▸ rfl))
    obtain ⟨hborn, hcontents, hnames⟩ := hfits.staged file content hstage
    refine ⟨hborn, (hkeeps.contents file hborn).trans hcontents, ?_⟩
    exact fun found hfound => hnames found (hkeeps.names.symm.trans hfound)
  marking := by
    intro content file hstage
    have hkeeps := hpasses.marker (hfits.holder.mp (hstage ▸ rfl))
    obtain ⟨hborn, hcontents, hnames⟩ := hfits.marking content file hstage
    exact ⟨hborn, (hkeeps.contents file hborn).trans hcontents, hkeeps.names.trans hnames⟩

theorem Inv.act (hinv : Inv conf old g host views) (hview : views task = some (call, μ))
    (hsettled : ∀ path, ¬IsGui path → host'.files.Settled path)
    (hpending : host'.pending = host.pending) (hsafe : Safe conf old g' host')
    (hfits : Fits conf g' host'.files task μ')
    (hothers : ∀ other, other ≠ task → Passes g g' host.files host'.files other)
    (hnoted : g'.noted = g.noted) :
    Inv conf old g' host' (Function.update views task (some (call, μ'))) where
  settled := hsettled
  pending := by
    rw [hpending, hnoted]
    exact hinv.pending
  fits := by
    intro other call' ν hother
    rcases Machine.update_some_cases hother with ⟨rfl, heq⟩ | ⟨hne, hother⟩
    · obtain ⟨rfl, rfl⟩ := Prod.mk.inj heq
      exact hfits
    · exact (hinv.fits hother).pass (hothers other hne)
  absent := by
    intro other hnone
    have hne : other ≠ task := by
      rintro rfl
      rw [Function.update_self] at hnone
      cases hnone
    rw [Function.update_of_ne hne] at hnone
    have hpasses := hothers other hne
    exact ⟨hpasses.updates.trans (hinv.absent hnone).1,
      fun hholder => (hinv.absent hnone).2 (hpasses.holder.mp hholder)⟩
  safe := hsafe

theorem Safe.keep (hsafe : Safe conf old g host)
    (hengine : host'.files.read? .engine = host.files.read? .engine)
    (hmarker : host'.files.read? .marker = host.files.read? .marker) :
    Safe conf old g host' where
  engine := hsafe.engine.grow (fun _ h => h) hengine
  returned := hsafe.returned
  marker := hsafe.marker.of_read hmarker

theorem Passes.of_idle (hbefore : g.holder ≠ some task) (hafter : g'.holder ≠ some task)
    (hupdates : g'.updates task = g.updates task) (hnoted : g'.noted = g.noted)
    (hinstalls : ∀ entry ∈ g.installs, entry ∈ g'.installs) :
    Passes g g' files files' task where
  updates := hupdates
  noted := fun _ hmanifest => hnoted ▸ hmanifest
  installs := hinstalls
  holder := ⟨fun h => absurd h hafter, fun h => absurd h hbefore⟩
  installed := fun h => absurd h hbefore
  staged := fun h => absurd h hbefore
  marker := fun h => absurd h hbefore

theorem not_isGui : ¬IsGui .stagedEngine ∧ ¬IsGui .engine ∧ ¬IsGui .marker := by
  unfold IsGui
  decide

theorem Inv.quiet (hinv : Inv conf old g host views) (hview : views task = some (call, μ))
    (hsettled : ∀ path, ¬IsGui path → host'.files.Settled path)
    (hpending : host'.pending = host.pending)
    (hkeeps : ∀ path, ¬IsGui path → Files.Keeps path host.files host'.files) :
    Inv conf old g host' (Function.update views task (some (call, μ))) := by
  obtain ⟨hstaged, hengine, hmarker⟩ := not_isGui
  have hpasses : ∀ other, Passes g g host.files host'.files other := fun other =>
    ⟨rfl, fun _ h => h, fun _ h => h, Iff.rfl, fun _ => rfl, fun _ => hkeeps _ hstaged,
      fun _ => hkeeps _ hmarker⟩
  refine hinv.act hview hsettled hpending ?_ ((hinv.fits hview).pass (hpasses task))
    (fun other _ => hpasses other) rfl
  exact hinv.safe.keep ((hkeeps _ hengine).read? (hinv.settled _ hengine))
    ((hkeeps _ hmarker).read? (hinv.settled _ hmarker))

theorem Inv.still (hinv : Inv conf old g host views) (hview : views task = some (call, μ)) :
    Inv conf old g host (Function.update views task (some (call, μ))) :=
  hinv.quiet hview hinv.settled rfl fun _ _ => .refl

end

/-! One operation of a task. -/

section

variable {conf : Conf} {old : Bytes} {g : Ledger} {host host' : Host} {task : Nat} {call : Unit}
  {μ : Progress} {views : Nat → Option (Unit × Progress)} {choice : Choice}

theorem Inv.begin (hinv : Inv conf old g host views) (hview : views task = some (call, μ))
    (hfresh : μ.update = none ∧ μ.stage = .fetching) :
    Inv conf old (g.did task host .pendingUpdate host.pending) host
      (Function.update views task (some (call, μ.next .pendingUpdate host.pending))) := by
  have hfits := hinv.fits hview
  obtain ⟨update, stage⟩ := μ
  obtain ⟨rfl, rfl⟩ := hfresh
  refine hinv.act hview hinv.settled rfl
    ⟨hinv.safe.engine, hinv.safe.returned, hinv.safe.marker⟩ ?_ ?_ rfl
  · constructor
    · exact Function.update_self ..
    · exact hinv.pending
    · intro content hcontent
      cases hcontent
    · exact hfits.holder
    · intro hreplaced
      cases hreplaced
    · intro file content hstage
      cases hstage
    · intro content file hstage
      cases hstage
  · intro other hne
    exact ⟨Function.update_of_ne hne .., fun _ h => h, fun _ h => h, Iff.rfl, fun _ => rfl,
      fun _ => .refl, fun _ => .refl⟩

theorem Inv.open_staged (hinv : Inv conf old g host views) (hview : views task = some (call, μ))
    (hguard : ∀ other, g.holder = some other → other = task) :
    Inv conf old { g with holder := some task }
      { host with files := (host.files.create .stagedEngine).1 }
      (Function.update views task (some (call,
        { μ with stage := .staging (host.files.create .stagedEngine).2 [] }))) := by
  obtain ⟨hstaged, hengine, hmarker⟩ := not_isGui
  have hfits := hinv.fits hview
  have hkeeps : ∀ path, Path.stagedEngine ≠ path → ¬IsGui path →
      Files.Keeps path host.files (host.files.create .stagedEngine).1 :=
    fun path hne hpath => Files.create_keeps (hinv.settled path hpath) hne
  have hsafe : Safe conf old g { host with files := (host.files.create .stagedEngine).1 } :=
    hinv.safe.keep ((hkeeps .engine (by decide) hengine).read? (hinv.settled _ hengine))
      ((hkeeps .marker (by decide) hmarker).read? (hinv.settled _ hmarker))
  refine hinv.act hview (fun path hpath => Files.create_settled (hinv.settled path hpath)) rfl
    ⟨hsafe.engine, hsafe.returned, hsafe.marker⟩ ?_ ?_ rfl
  · constructor
    · exact hfits.update
    · exact hfits.committed
    · intro content hcontent
      cases hcontent
    · exact ⟨fun _ => rfl, fun _ => rfl⟩
    · intro hreplaced
      cases hreplaced
    · intro file content hstage
      cases hstage
      refine ⟨(Files.create_born (hinv.settled _ hstaged)).mpr rfl, Files.create_contents, ?_⟩
      intro found hfound
      exact (Option.some.inj (Files.create_names.symm.trans hfound)).symm
    · intro content file hstage
      cases hstage
  · intro other hne
    refine .of_idle (fun hheld => hne (hguard other hheld)) ?_ rfl rfl fun _ h => h
    exact fun hheld => hne (Option.some.inj hheld).symm

theorem Inv.open_marker {content : Bytes} (hinv : Inv conf old g host views)
    (hview : views task = some (call, μ)) (hstage : μ.stage = .installed content) :
    Inv conf old g { host with files := (host.files.create .marker).1 }
      (Function.update views task (some (call,
        { μ with stage := .marking content (host.files.create .marker).2 }))) := by
  obtain ⟨hstaged, hengine, hmarker⟩ := not_isGui
  have hfits := hinv.fits hview
  have hheld : g.holder = some task := hfits.holder.mp (by rw [hstage]; rfl)
  have hkeeps : ∀ path, Path.marker ≠ path → ¬IsGui path →
      Files.Keeps path host.files (host.files.create .marker).1 :=
    fun path hne hpath => Files.create_keeps (hinv.settled path hpath) hne
  refine hinv.act hview (fun path hpath => Files.create_settled (hinv.settled path hpath)) rfl
    ⟨?_, hinv.safe.returned, ?_⟩ ?_ ?_ rfl
  · exact hinv.safe.engine.grow (fun _ h => h)
      ((hkeeps .engine (by decide) hengine).read? (hinv.settled _ hengine))
  · intro text htext
    exact .inl (Option.some.inj (htext.symm.trans Files.read?_create))
  · constructor
    · exact hfits.update
    · exact hfits.committed
    · intro found hfound
      apply hfits.done found
      rw [hstage]
      exact hfound
    · exact ⟨fun _ => hheld, fun _ => rfl⟩
    · intro _
      apply hfits.version
      rw [hstage]
      rfl
    · intro file content hstaging
      cases hstaging
    · intro content file hmarking
      cases hmarking
      exact ⟨(Files.create_born (hinv.settled _ hmarker)).mpr rfl, Files.create_contents,
        Files.create_names⟩
  · intro other hne
    have hother : g.holder ≠ some other :=
      fun hheld' => hne (Option.some.inj (hheld'.symm.trans hheld))
    exact .of_idle hother hother rfl rfl fun _ h => h

theorem Inv.write_staged {file : FileId Path} {content chunk : Bytes}
    (hinv : Inv conf old g host views) (hview : views task = some (call, μ))
    (hstage : μ.stage = .staging file content) :
    Inv conf old g { host with files := host.files.write file content.length chunk }
      (Function.update views task (some (call,
        { μ with stage := .staging file (content ++ chunk) }))) := by
  obtain ⟨hstaged, hengine, hmarker⟩ := not_isGui
  have hfits := hinv.fits hview
  have hheld : g.holder = some task := hfits.holder.mp (by rw [hstage]; rfl)
  obtain ⟨hborn, hcontents, hnames⟩ := hfits.staged file content hstage
  have hkeeps : ∀ path, Path.stagedEngine ≠ path →
      Files.Keeps path host.files (host.files.write file content.length chunk) :=
    fun path hne => Files.write_keeps fun hsame => hne (hborn.symm.trans hsame)
  refine hinv.act hview hinv.settled rfl ?_ ?_ ?_ rfl
  · exact hinv.safe.keep ((hkeeps .engine (by decide)).read? (hinv.settled _ hengine))
      ((hkeeps .marker (by decide)).read? (hinv.settled _ hmarker))
  · constructor
    · exact hfits.update
    · exact hfits.committed
    · intro found hfound
      cases hfound
    · exact ⟨fun _ => hheld, fun _ => rfl⟩
    · intro hreplaced
      cases hreplaced
    · intro own written hstaging
      cases hstaging
      refine ⟨hborn, ?_, hnames⟩
      exact Files.write_contents.trans (by rw [hcontents, overwrite_end])
    · intro content file hmarking
      cases hmarking
  · intro other hne
    have hother : g.holder ≠ some other :=
      fun hheld' => hne (Option.some.inj (hheld'.symm.trans hheld))
    exact .of_idle hother hother rfl rfl fun _ h => h

theorem Inv.write_marker {file : FileId Path} {content : Bytes} {update : PendingUpdate}
    (hinv : Inv conf old g host views) (hview : views task = some (call, μ))
    (hstage : μ.stage = .marking content file) (hupdate : μ.update = some update) :
    Inv conf old g { host with files := host.files.write file 0 (utf8 update.version) }
      (Function.update views task (some (call, { μ with stage := .installed content }))) := by
  obtain ⟨hstaged, hengine, hmarker⟩ := not_isGui
  have hfits := hinv.fits hview
  have hheld : g.holder = some task := hfits.holder.mp (by rw [hstage]; rfl)
  obtain ⟨hborn, hcontents, hnames⟩ := hfits.marking content file hstage
  have hversion : g.installed = update.version := by
    obtain ⟨own, hown, hinstalled⟩ := hfits.version (by rw [hstage]; rfl)
    rw [hinstalled, Option.some.inj (hown.symm.trans hupdate)]
  have hkeeps : ∀ path, Path.marker ≠ path →
      Files.Keeps path host.files (host.files.write file 0 (utf8 update.version)) :=
    fun path hne => Files.write_keeps fun hsame => hne (hborn.symm.trans hsame)
  refine hinv.act hview hinv.settled rfl ⟨?_, hinv.safe.returned, ?_⟩ ?_ ?_ rfl
  · exact hinv.safe.engine.grow (fun _ h => h)
      ((hkeeps .engine (by decide)).read? (hinv.settled _ hengine))
  · intro text htext
    obtain ⟨found, hfound, rfl⟩ := Files.read?_eq_some.mp htext
    obtain rfl := Option.some.inj (hnames.symm.trans hfound)
    rw [Files.write_contents, hcontents, hversion]
    right
    simp [overwrite]
  · constructor
    · exact hfits.update
    · exact hfits.committed
    · intro found hfound
      apply hfits.done found
      rw [hstage]
      exact hfound
    · exact ⟨fun _ => hheld, fun _ => rfl⟩
    · intro _
      exact ⟨update, hupdate, hversion⟩
    · intro file content hstaging
      cases hstaging
    · intro content file hmarking
      cases hmarking
  · intro other hne
    have hother : g.holder ≠ some other :=
      fun hheld' => hne (Option.some.inj (hheld'.symm.trans hheld))
    exact .of_idle hother hother rfl rfl fun _ h => h

theorem Inv.remove_staged {files : Files Path UInt8} (hinv : Inv conf old g host views)
    (hview : views task = some (call, μ)) (hheld : g.holder = some task)
    (hstage : (∃ file content, μ.stage = .staging file content) ∨
      ∃ content, μ.stage = .installed content)
    (hfiles : files = host.files ∨ files = host.files.remove .stagedEngine) :
    Inv conf old g { host with files := files }
      (Function.update views task (some (call,
        { μ with stage := Progress.removed μ.stage .stagedEngine }))) := by
  obtain ⟨hstaged, hengine, hmarker⟩ := not_isGui
  have hfits := hinv.fits hview
  have hkeeps : ∀ path, path ≠ Path.stagedEngine → Files.Keeps path host.files files := by
    intro path hne
    rcases hfiles with rfl | rfl
    · exact .refl
    · exact Files.remove_keeps hne
  have hsettled : ∀ path, ¬IsGui path → files.Settled path := by
    intro path hpath
    rcases hfiles with rfl | rfl
    · exact hinv.settled path hpath
    · exact Files.remove_settled (hinv.settled path hpath)
  refine hinv.act hview hsettled rfl ?_ ?_ ?_ rfl
  · exact hinv.safe.keep ((hkeeps .engine (by decide)).read? (hinv.settled _ hengine))
      ((hkeeps .marker (by decide)).read? (hinv.settled _ hmarker))
  · rcases hstage with ⟨file, content, hstage⟩ | ⟨content, hstage⟩
    · rw [hstage]
      constructor
      · exact hfits.update
      · exact hfits.committed
      · intro found hfound
        cases hfound
      · exact ⟨fun _ => hheld, fun _ => rfl⟩
      · intro hreplaced
        cases hreplaced
      · intro own written hstaging
        cases hstaging
      · intro content file hmarking
        cases hmarking
    · rw [hstage]
      constructor
      · exact hfits.update
      · exact hfits.committed
      · intro found hfound
        apply hfits.done found
        rw [hstage]
        exact hfound
      · exact ⟨fun _ => hheld, fun _ => rfl⟩
      · intro _
        apply hfits.version
        rw [hstage]
        rfl
      · intro own written hstaging
        cases hstaging
      · intro content file hmarking
        cases hmarking
  · intro other hne
    have hother : g.holder ≠ some other :=
      fun hheld' => hne (Option.some.inj (hheld'.symm.trans hheld))
    exact .of_idle hother hother rfl rfl fun _ h => h

theorem Inv.install {file : FileId Path} {content : Bytes} {update : PendingUpdate}
    (hinv : Inv conf old g host views) (hview : views task = some (call, μ))
    (hupdate : μ.update = some update) (hstage : μ.stage = .staging file content)
    (hprovides : Provides conf update.artifact content)
    (hguard : Named update.version host.files) :
    Inv conf old
      { g with
        installed := update.version
        installs := g.installs ++ [(task, content)] }
      { host with files := host.files.replace .engine content }
      (Function.update views task (some (call, { μ with stage := .installed content }))) := by
  obtain ⟨hstaged, hengine, hmarker⟩ := not_isGui
  have hfits := hinv.fits hview
  have hheld : g.holder = some task := hfits.holder.mp (by rw [hstage]; rfl)
  have hread : (host.files.replace .engine content).read? .engine = some content :=
    Files.read?_replace
  refine hinv.act hview (fun path hpath => Files.replace_settled (hinv.settled path hpath)) rfl
    ⟨?_, ?_, ?_⟩ ?_ ?_ rfl
  · exact .of_committed (hfits.committed update hupdate) hprovides hread
  · intro other returned hreturned
    obtain ⟨found, hfound, hown⟩ := hinv.safe.returned other returned hreturned
    exact ⟨found, List.mem_append_left _ hfound, hown⟩
  · exact hguard.of_read ((Files.replace_keeps (hinv.settled _ hmarker) (by decide)).read?
      (hinv.settled _ hmarker))
  · constructor
    · exact hfits.update
    · exact hfits.committed
    · intro found hfound
      obtain rfl := Option.some.inj hfound
      exact ⟨List.mem_append_right _ (List.mem_singleton_self _), update, hupdate, hprovides⟩
    · exact ⟨fun _ => hheld, fun _ => rfl⟩
    · intro _
      exact ⟨update, hupdate, rfl⟩
    · intro own written hstaging
      cases hstaging
    · intro content file hmarking
      cases hmarking
  · intro other hne
    have hother : g.holder ≠ some other :=
      fun hheld' => hne (Option.some.inj (hheld'.symm.trans hheld))
    exact .of_idle hother hother rfl rfl fun _ h => List.mem_append_left _ h

theorem yielded_self : g.yielded task ≠ some task := by
  unfold Ledger.yielded
  split
  · nofun
  · assumption

theorem yielded_other {other : Nat} (hne : other ≠ task) :
    g.yielded task = some other ↔ g.holder = some other := by
  unfold Ledger.yielded
  split
  · rename_i hheld
    rw [hheld]
    exact ⟨nofun, fun hsame => absurd (Option.some.inj hsame).symm hne⟩
  · exact Iff.rfl

theorem Inv.plan {plan : Option ExecPlan} (hinv : Inv conf old g host views)
    (hview : views task = some (call, μ)) (hreplaced : μ.stage.replaced = true) :
    Inv conf old { g with holder := g.yielded task } { host with execSlot := plan }
      (Function.update views task (some (call,
        { μ with stage := Progress.concluded μ.stage }))) := by
  have hfits := hinv.fits hview
  refine hinv.act hview hinv.settled rfl
    ⟨hinv.safe.engine, hinv.safe.returned, hinv.safe.marker⟩ ?_ ?_ rfl
  · have hcontent : ∃ content, Progress.concluded μ.stage = .planned content ∧
        μ.stage.content = some content := by
      cases hstage : μ.stage with
      | installed content => exact ⟨content, rfl, rfl⟩
      | marking content file => exact ⟨content, rfl, rfl⟩
      | _ =>
          rw [hstage] at hreplaced
          cases hreplaced
    obtain ⟨content, hplanned, hcontent⟩ := hcontent
    rw [hplanned]
    constructor
    · exact hfits.update
    · exact hfits.committed
    · intro found hfound
      obtain rfl := Option.some.inj hfound
      exact hfits.done content hcontent
    · exact ⟨nofun, fun hheld => absurd hheld yielded_self⟩
    · intro hreplaced
      cases hreplaced
    · intro own written hstaging
      cases hstaging
    · intro content file hmarking
      cases hmarking
  · intro other hne
    exact ⟨rfl, fun _ h => h, fun _ h => h, yielded_other hne, fun _ => rfl, fun _ => .refl,
      fun _ => .refl⟩

/-! What the system makes of an operation. -/

variable {o : Op} {answer : o.Res}

def Still : Op → Prop
  | .fetch _ | .createDir | .chmod _ | .existsAt _ | .currentExe => True
  | _ => False

theorem exec_still (hstill : Still o) (hexec : host.exec o choice = some (answer, host')) :
    host' = host := by
  cases o with
  | fetch url => cases choice <;> cases hexec <;> rfl
  | createDir => cases choice <;> cases hexec <;> rfl
  | chmod path => cases choice <;> cases hexec <;> rfl
  | existsAt path => cases choice <;> cases hexec <;> rfl
  | currentExe => cases choice <;> cases hexec <;> rfl
  | _ => exact hstill.elim

theorem Inv.still_did (hinv : Inv conf old g host views) (hview : views task = some (call, μ))
    (hstill : Still o) (hexec : host.exec o choice = some (answer, host')) :
    Progress.expects o answer ∧
      Inv conf old (g.did task host' o answer) host'
        (Function.update views task (some (call, μ.next o answer))) := by
  obtain rfl := exec_still hstill hexec
  cases o with
  | fetch url => exact ⟨trivial, hinv.still hview⟩
  | createDir => exact ⟨trivial, hinv.still hview⟩
  | chmod path => exact ⟨trivial, hinv.still hview⟩
  | existsAt path => exact ⟨trivial, hinv.still hview⟩
  | currentExe => exact ⟨trivial, hinv.still hview⟩
  | _ => exact hstill.elim

theorem ne_of_gui {path gui : Path} (hpath : ¬IsGui path) (hgui : IsGui gui) : gui ≠ path := by
  rintro rfl
  exact hpath hgui

theorem Inv.open_gui {path : Path} (hinv : Inv conf old g host views)
    (hview : views task = some (call, μ)) (hgui : IsGui path) :
    Inv conf old g { host with files := (host.files.create path).1 }
      (Function.update views task (some (call, μ))) :=
  hinv.quiet hview (fun kept hkept => Files.create_settled (hinv.settled kept hkept)) rfl
    fun kept hkept => Files.create_keeps (hinv.settled kept hkept) (ne_of_gui hkept hgui)

theorem written_gui {files : Files Path UInt8} {file : FileId Path} {chunk : Bytes}
    (hfits : Fits conf g files task μ) (hgui : IsGui file.born) :
    Progress.written μ.stage file chunk = μ.stage := by
  obtain ⟨hstaged, -, hmarker⟩ := not_isGui
  cases hstage : μ.stage with
  | staging own content =>
      apply if_neg
      rintro rfl
      rw [(hfits.staged own content hstage).1] at hgui
      exact hstaged hgui
  | marking content own =>
      apply if_neg
      rintro rfl
      rw [(hfits.marking content own hstage).1] at hgui
      exact hmarker hgui
  | _ => rfl

theorem Inv.did (hinv : Inv conf old g host views) (hview : views task = some (call, μ))
    (hallows : μ.allows conf o) (hexec : host.exec o choice = some (answer, host'))
    (hguard : g.orderly host task o) :
    Progress.expects o answer ∧
      Inv conf old (g.did task host' o answer) host'
        (Function.update views task (some (call, μ.next o answer))) := by
  have hfits := hinv.fits hview
  cases o with
  | pendingUpdate =>
      cases hexec
      exact ⟨trivial, hinv.begin hview hallows⟩
  | fetch url => exact hinv.still_did hview trivial hexec
  | createDir => exact hinv.still_did hview trivial hexec
  | chmod path => exact hinv.still_did hview trivial hexec
  | existsAt path => exact hinv.still_did hview trivial hexec
  | currentExe => exact hinv.still_did hview trivial hexec
  | create path =>
      cases choice with
      | go =>
          cases hexec
          refine ⟨fun kept hkept => Files.create_born (hinv.settled kept hkept), ?_⟩
          rcases hallows with hgui | ⟨rfl, -⟩ | ⟨rfl, content, hstage⟩
          · have hopen := hinv.open_gui hview hgui
            rcases hgui with rfl | rfl | rfl
            · exact hopen
            · exact hopen
            · exact hopen
          · exact hinv.open_staged hview hguard
          · have hopen := hinv.open_marker hview hstage
            obtain ⟨update, stage⟩ := μ
            obtain rfl : stage = .installed content := hstage
            exact hopen
      | fails error =>
          cases hexec
          refine ⟨trivial, ?_⟩
          have hstill := hinv.still hview
          cases path <;> exact hstill
      | answers body => cases hexec
      | installedAt exe => cases hexec
  | write file position chunk =>
      cases choice with
      | go =>
          cases hexec
          refine ⟨trivial, ?_⟩
          rcases hallows with hgui | ⟨content, hstage, rfl⟩ |
            ⟨content, update, hstage, rfl, hupdate, rfl⟩
          · have hquiet : Inv conf old g
                { host with files := host.files.write file position chunk }
                (Function.update views task (some (call, μ))) :=
              hinv.quiet hview hinv.settled rfl
                fun kept hkept => Files.write_keeps (ne_of_gui hkept hgui)
            change Inv conf old g _ (Function.update views task
              (some (call, { μ with stage := Progress.written μ.stage file chunk })))
            rw [written_gui hfits hgui]
            exact hquiet
          · have hwrite : Inv conf old g
                { host with files := host.files.write file content.length chunk }
                (Function.update views task (some (call,
                  { μ with stage := .staging file (content ++ chunk) }))) :=
              hinv.write_staged hview hstage
            have hwritten : Progress.written μ.stage file chunk =
                .staging file (content ++ chunk) := by
              rw [hstage]
              exact if_pos rfl
            change Inv conf old g _ (Function.update views task
              (some (call, { μ with stage := Progress.written μ.stage file chunk })))
            rw [hwritten]
            exact hwrite
          · have hwrite := hinv.write_marker hview hstage hupdate
            have hwritten : Progress.written μ.stage file (utf8 update.version) =
                .installed content := by
              rw [hstage]
              exact if_pos rfl
            change Inv conf old g _ (Function.update views task
              (some (call, { μ with stage := Progress.written μ.stage file _ })))
            rw [hwritten]
            exact hwrite
      | fails error =>
          cases hexec
          exact ⟨trivial, hinv.still hview⟩
      | answers body => cases hexec
      | installedAt exe => cases hexec
  | rename source target =>
      obtain ⟨rfl, htarget⟩ := hallows
      cases choice with
      | go =>
          change some (host.rename .stagedGui target) = some (answer, host') at hexec
          unfold Host.rename at hexec
          split at hexec
          · cases hexec
            exact ⟨trivial, hinv.still hview⟩
          · rename_i files hrename
            cases hexec
            refine ⟨trivial, hinv.quiet hview ?_ rfl ?_⟩
            · intro kept hkept
              exact Files.rename_settled hrename (ne_of_gui hkept (.inl rfl)).symm
                (ne_of_gui hkept htarget).symm (hinv.settled kept hkept)
            · intro kept hkept
              exact Files.rename_keeps hrename (ne_of_gui hkept (.inl rfl)).symm
                (ne_of_gui hkept htarget).symm
      | fails error =>
          cases hexec
          exact ⟨trivial, hinv.still hview⟩
      | answers body => cases hexec
      | installedAt exe => cases hexec
  | copy source target =>
      obtain ⟨rfl, htarget⟩ := hallows
      cases choice with
      | go =>
          change some (host.copy .stagedGui target) = some (answer, host') at hexec
          unfold Host.copy at hexec
          split at hexec
          · cases hexec
            exact ⟨trivial, hinv.still hview⟩
          · rename_i data hread
            cases hexec
            refine ⟨trivial, hinv.quiet hview ?_ rfl ?_⟩
            · intro kept hkept
              exact Files.create_settled (hinv.settled kept hkept)
            · intro kept hkept
              have hsettled := hinv.settled kept hkept
              have hne := ne_of_gui hkept htarget
              refine (Files.create_keeps hsettled hne).trans (Files.write_keeps ?_)
              exact fun hborn => hne ((Files.create_born hsettled).mp hborn)
      | fails error =>
          cases hexec
          exact ⟨trivial, hinv.still hview⟩
      | answers body => cases hexec
      | installedAt exe => cases hexec
  | remove path =>
      have hgone : answer = () ∧ (host' = host ∨
          host' = { host with files := host.files.remove path }) := by
        cases choice with
        | go =>
            cases hexec
            exact ⟨rfl, .inr rfl⟩
        | fails error =>
            cases hexec
            exact ⟨rfl, .inl rfl⟩
        | answers body => cases hexec
        | installedAt exe => cases hexec
      obtain ⟨rfl, hhost⟩ := hgone
      refine ⟨trivial, ?_⟩
      rcases hallows with rfl | ⟨rfl, hstage⟩
      · rcases hhost with rfl | rfl
        · exact hinv.still hview
        · refine hinv.quiet hview ?_ rfl ?_
          · exact fun kept hkept => Files.remove_settled (hinv.settled kept hkept)
          · exact fun kept hkept => Files.remove_keeps (ne_of_gui hkept (.inl rfl)).symm
      · have hheld : g.holder = some task := by
          apply hfits.holder.mp
          rcases hstage with ⟨file, content, hstage⟩ | ⟨content, hstage⟩
          · rw [hstage]
            rfl
          · rw [hstage]
            rfl
        rcases hhost with rfl | rfl
        · exact hinv.remove_staged hview hheld hstage (.inl rfl)
        · exact hinv.remove_staged hview hheld hstage (.inr rfl)
  | selfReplace path =>
      obtain ⟨rfl, update, file, content, hupdate, hstage, hprovides⟩ := hallows
      cases choice with
      | go =>
          change some (host.selfReplace .stagedEngine) = some (answer, host') at hexec
          unfold Host.selfReplace at hexec
          split at hexec
          · cases hexec
            exact ⟨trivial, hinv.still hview⟩
          · rename_i data hread
            cases hexec
            have hdata : data = content := by
              obtain ⟨found, hfound, hcontents⟩ := Files.read?_eq_some.mp hread
              obtain ⟨-, hown, hnames⟩ := hfits.staged file content hstage
              rw [← hcontents, hnames found hfound, hown]
            subst hdata
            refine ⟨trivial, ?_⟩
            have hinstall := hinv.install hview hupdate hstage hprovides
              (hguard update (hfits.update.trans hupdate))
            have hreplaced : Progress.replaced μ.stage = .installed data := by
              rw [hstage]
              rfl
            change Inv conf old
              { g with
                installed := ((g.updates task).map PendingUpdate.version).getD g.installed
                installs := g.installs ++
                  [(task, ((host.files.replace .engine data).read? .engine).getD [])] } _
              (Function.update views task
                (some (call, { μ with stage := Progress.replaced μ.stage })))
            have hversion : ((g.updates task).map PendingUpdate.version).getD g.installed =
                update.version := by
              rw [hfits.update, hupdate]
              rfl
            rw [hreplaced, hversion, Files.read?_replace]
            exact hinstall
      | fails error =>
          cases hexec
          exact ⟨trivial, hinv.still hview⟩
      | answers body => cases hexec
      | installedAt exe => cases hexec
  | storePlan plan =>
      cases hexec
      exact ⟨trivial, hinv.plan hview hallows⟩
  | notify =>
      cases hexec
      exact ⟨trivial, hinv.quiet hview hinv.settled rfl fun _ _ => .refl⟩

/-! A task that is gone. -/

theorem Inv.leave {g' : Ledger} (hinv : Inv conf old g host views)
    (hview : views task = some (call, μ))
    (hupdates : g'.updates = Function.update g.updates task none)
    (hholder : g'.holder = g.yielded task) (hnoted : g'.noted = g.noted)
    (hinstalls : g'.installs = g.installs) (hinstalled : g'.installed = g.installed)
    (hreturned : ∀ other update, (other, update) ∈ g'.returned →
      ∃ content, (other, content) ∈ g.installs ∧ Provides conf update.artifact content) :
    Inv conf old g' host (Function.update views task none) := by
  have hpasses : ∀ other, other ≠ task → Passes g g' host.files host.files other := by
    intro other hne
    refine ⟨?_, fun _ h => hnoted ▸ h, fun _ h => hinstalls ▸ h, ?_, fun _ => hinstalled,
      fun _ => .refl, fun _ => .refl⟩
    · rw [hupdates]
      exact Function.update_of_ne hne ..
    · rw [hholder]
      exact yielded_other hne
  constructor
  · exact hinv.settled
  · rw [hnoted]
    exact hinv.pending
  · intro other call' ν hother
    have hne : other ≠ task := by
      rintro rfl
      rw [Function.update_self] at hother
      cases hother
    rw [Function.update_of_ne hne] at hother
    exact (hinv.fits hother).pass (hpasses other hne)
  · intro other hnone
    by_cases hsame : other = task
    · subst hsame
      rw [hupdates, hholder]
      exact ⟨Function.update_self .., yielded_self⟩
    · rw [Function.update_of_ne hsame] at hnone
      obtain ⟨hupdate, hidle⟩ := hinv.absent hnone
      have hpasses := hpasses other hsame
      exact ⟨hpasses.updates.trans hupdate, fun hheld => hidle (hpasses.holder.mp hheld)⟩
  · constructor
    · rw [hnoted]
      exact hinv.safe.engine
    · rw [hinstalls]
      exact hreturned
    · rw [hinstalled]
      exact hinv.safe.marker

theorem Inv.ended {result : Except String PendingUpdate} (hinv : Inv conf old g host views)
    (hview : views task = some (call, μ)) (hpost : returns Concludes μ result) :
    Inv conf old (g.ended task result) host (Function.update views task none) := by
  cases result with
  | error error => exact hinv.leave hview rfl rfl rfl rfl rfl hinv.safe.returned
  | ok update =>
      refine hinv.leave hview rfl rfl rfl rfl rfl ?_
      intro other returned hreturned
      rcases List.mem_append.mp hreturned with hbefore | hnow
      · exact hinv.safe.returned other returned hbefore
      · obtain ⟨rfl, rfl⟩ := Prod.mk.inj (List.mem_singleton.mp hnow)
        obtain ⟨hupdate, content, hstage⟩ := hpost
        have hdone := (hinv.fits hview).done content (by rw [hstage]; rfl)
        obtain ⟨hinstalled, own, hown, hprovides⟩ := hdone
        obtain rfl := Option.some.inj (hown.symm.trans hupdate)
        exact ⟨content, hinstalled, hprovides⟩

/-! What happens around the tasks. -/

theorem stageManifest_committed {manifest : ReleaseManifest} {floor : Option String}
    {update : PendingUpdate} (hstaged : stageManifest conf manifest floor = some update) :
    update.version = manifest.version ∧ update.artifact ∈ manifest.artifacts := by
  unfold stageManifest at hstaged
  split at hstaged
  · cases hstaged
  · split at hstaged
    · cases hstaged
    · obtain ⟨platform, -, hstaged⟩ := Option.bind_eq_some_iff.mp hstaged
      obtain ⟨artifact, hartifact, rfl⟩ := Option.map_eq_some_iff.mp hstaged
      exact ⟨rfl, List.mem_of_find?_eq_some hartifact⟩

theorem Inv.note {noted : List ReleaseManifest} (hinv : Inv conf old g host views)
    (hgrow : ∀ manifest ∈ g.noted, manifest ∈ noted) (hfiles : host'.files = host.files)
    (hpending : ∀ update, host'.pending = some update → Committed noted update) :
    Inv conf old { g with noted := noted } host' views := by
  constructor
  · rw [hfiles]
    exact hinv.settled
  · exact hpending
  · intro other call ν hother
    rw [hfiles]
    exact (hinv.fits hother).pass
      ⟨rfl, hgrow, fun _ h => h, Iff.rfl, fun _ => rfl, fun _ => .refl, fun _ => .refl⟩
  · exact hinv.absent
  · constructor
    · exact hinv.safe.engine.grow hgrow (by rw [hfiles])
    · exact hinv.safe.returned
    · rw [hfiles]
      exact hinv.safe.marker

end

section

variable (conf : Conf) (old : Bytes)

def discipline : Machine.Discipline (machine conf) (observer conf) (Orderly conf) Progress where
  mon := progress conf
  opening := fun _ _ _ => {}
  post := fun _ => returns Concludes
  inv := Inv conf old
  conforms := fun _ _ _ => applyUpdate_conforms
  called := by
    intro g host views task call hinv hfresh _
    obtain ⟨hupdate, hidle⟩ := hinv.absent hfresh
    constructor
    · exact hinv.settled
    · exact hinv.pending
    · intro other call' ν hother
      rcases Machine.update_some_cases hother with ⟨rfl, heq⟩ | ⟨hne, hother⟩
      · obtain ⟨rfl, rfl⟩ := Prod.mk.inj heq
        constructor
        · exact hupdate
        · intro update habsurd
          cases habsurd
        · intro content hcontent
          cases hcontent
        · exact ⟨nofun, fun hheld => absurd hheld hidle⟩
        · intro hreplaced
          cases hreplaced
        · intro file content hstage
          cases hstage
        · intro content file hstage
          cases hstage
      · exact hinv.fits hother
    · intro other hnone
      by_cases hsame : other = task
      · subst hsame
        rw [Function.update_self] at hnone
        cases hnone
      · rw [Function.update_of_ne hsame] at hnone
        exact hinv.absent hnone
    · exact hinv.safe
  did := fun hinv hview hallows hexec hguard => hinv.did hview hallows hexec hguard
  ended := fun hinv hview hpost _ => hinv.ended hview hpost
  dropped := fun hinv hview _ => hinv.leave hview rfl rfl rfl rfl rfl hinv.safe.returned
  moved := by
    intro g host views world host' hinv hmove _
    cases world with
    | noted manifest written =>
        cases hmove
        cases manifest with
        | none => exact hinv.note (fun _ h => h) rfl fun update hupdate => by cases hupdate
        | some manifest =>
            refine hinv.note (fun _ h => List.mem_append_left _ h) rfl fun update hupdate => ?_
            exact ⟨manifest, List.mem_append_right _ (List.mem_singleton_self _),
              stageManifest_committed hupdate⟩
    | tornDown =>
        change (if host.restart then some _ else none) = some host' at hmove
        split at hmove
        · cases hmove
          exact hinv.note (fun _ h => h) rfl hinv.pending
        · cases hmove

end

/-- While no task opens the staged engine of another, or replaces the engine where the marker names
another version, what is installed is whole, each task that returns has installed its own artifact,
and the marker names what is installed. -/
theorem updates_safe (conf : Conf) (data : Path → Option Bytes) (floor : Option String)
    (old : Bytes) (version : String) (hengine : data .engine = some old)
    (hmarker : Named version (.ofContents data)) {c : (machine conf).Config} {g : Ledger}
    (hreach : Machine.Reach (observer conf) (Orderly conf)
      ((machine conf).idle (Host.boot data floor)) { installed := version } c g) :
    Safe conf old g c.shared := by
  have hstart : Inv conf old { installed := version } (Host.boot data floor) fun _ => none := by
    constructor
    · exact fun path _ => Files.ofContents_settled data
    · intro update hupdate
      cases hupdate
    · intro task call μ hview
      cases hview
    · exact fun _ => ⟨rfl, nofun⟩
    · refine ⟨⟨old, ?_, .inl rfl⟩, nofun, hmarker⟩
      exact (Files.read?_ofContents data).trans hengine
  obtain ⟨views, -, hinv⟩ := (discipline conf old).run hstart hreach
  exact hinv.safe

/-! One update, and two at once. -/

def tinyConf : Conf where
  version := "1"
  platform := some .linuxAmd64
  precedence := fun first second => some (compare first.length second.length)
  digest := id
  entries := fun _ => .error "not an archive"
  argv := ["unitylan-engine", "run"]

def tinyArtifact : ReleaseArtifact where
  platform := .linuxAmd64
  url := "https://releases.example.com/engine"
  sha256 := [1, 2, 3]
  size := 3

def tinyRelease : ReleaseManifest where
  version := "22"
  artifacts := [tinyArtifact]

def tinyHost : Host :=
  .boot (fun path => if path = .engine then some [9] else none) none

def applied (c : (machine tinyConf).Config) (g : Ledger) : Bool :=
  c.shared.files.read? .engine == some [1, 2, 3] && g.returned.length == 1

def truncated (c : (machine tinyConf).Config) (g : Ledger) : Bool :=
  c.shared.files.read? .engine == some [] &&
    decide (∀ artifacts ∈ g.noted.map ReleaseManifest.artifacts, artifacts = [tinyArtifact])

def stagedBy (task : Nat) : List ((machine tinyConf).Label) :=
  [.step task .go, .step task (.answers ⟨[[1], [2, 3]], none⟩), .step task .go, .step task .go,
    .step task .go, .step task .go, .step task (.installedAt "/usr/bin/unitylan-engine")]

def Ledger.keepsOrder (g : Ledger) (host : Host) (task : Nat) : Op → Bool
  | .create .stagedEngine => g.holder.all (· == task)
  | .selfReplace _ => (g.updates task).all fun update =>
      (host.files.read? .marker).all fun text => text == [] || text == utf8 update.version
  | _ => true

def Ledger.admits (g : Ledger) (host : Host) : (machine tinyConf).Event → Bool
  | .did task o _ => g.keepsOrder host task o
  | _ => true

theorem orderly_of_test {g : Ledger} {host : Host} {task : Nat} {o : Op}
    (htest : g.keepsOrder host task o = true) : g.orderly host task o := by
  cases o with
  | create path =>
      cases path with
      | stagedEngine =>
          intro other hheld
          simpa [Ledger.keepsOrder, hheld] using htest
      | _ => trivial
  | selfReplace path =>
      intro update hupdate text htext
      simpa [Ledger.keepsOrder, hupdate, htext] using htest
  | _ => trivial

/-- An update is downloaded, staged, installed and marked. -/
theorem updates_safe_applied :
    ∃ c g, Machine.Reach (observer tinyConf) (Orderly tinyConf) ((machine tinyConf).idle tinyHost)
        { installed := "1" } c g ∧
      applied c g = true ∧ Safe tinyConf [9] g c.shared := by
  have hplay : (Machine.play (observer tinyConf)
      Ledger.admits ((machine tinyConf).idle tinyHost) { installed := "1" }
      ([.move (.noted (some tinyRelease) true), .call ()] ++ stagedBy 0 ++
        List.replicate 7 (.step 0 .go))).any (fun last => applied last.1 last.2) = true := by
    decide +kernel
  have hadmits : ∀ (g : Ledger) (host : Host) (event : (machine tinyConf).Event),
      g.admits host event = true → Orderly tinyConf g host event := by
    intro g host event htest
    cases event with
    | did task o answer => exact orderly_of_test htest
    | _ => trivial
  obtain ⟨c, g, hreach, hproperty⟩ := Machine.reach_of_play hadmits hplay
  refine ⟨c, g, hreach, hproperty, ?_⟩
  exact updates_safe tinyConf _ none [9] "1" rfl (fun text htext => by cases htext) hreach

/-- A second task stages the engine while the first replaces it: what is installed is empty. -/
theorem truncated_engine_installed :
    ¬ ∀ (conf : Conf) (data : Path → Option Bytes) (floor : Option String) (old : Bytes)
      (version : String) (c : (machine conf).Config) (g : Ledger), data .engine = some old →
        Named version (.ofContents data) →
          Machine.Reach (observer conf) Machine.free ((machine conf).idle (Host.boot data floor))
              { installed := version } c g →
            Safe conf old g c.shared := by
  intro hclaim
  have hplay : (Machine.play (observer tinyConf) (fun _ _ _ => true)
      ((machine tinyConf).idle tinyHost) { installed := "1" }
      ([.move (.noted (some tinyRelease) true), .call ()] ++ stagedBy 0 ++
        .call () :: (stagedBy 1).take 4 ++ [.step 0 .go])).any
          (fun last => truncated last.1 last.2) = true := by
    decide +kernel
  have hadmits : ∀ g host event, true = true →
      Machine.free (m := machine tinyConf) (g : Ledger) host event := fun _ _ _ _ => trivial
  obtain ⟨c, g, hreach, hproperty⟩ := Machine.reach_of_play hadmits hplay
  unfold truncated at hproperty
  rw [Bool.and_eq_true, beq_iff_eq, decide_eq_true_iff] at hproperty
  obtain ⟨hread, hnoted⟩ := hproperty
  have hsafe := hclaim tinyConf _ none [9] "1" c g rfl (fun text htext => by cases htext) hreach
  obtain ⟨content, hcontent, hwhose⟩ := hsafe.engine
  obtain rfl := Option.some.inj (hread.symm.trans hcontent)
  rcases hwhose with hold | ⟨manifest, hmanifest, artifact, hartifact, bytes, hblessed, hengine⟩
  · cases hold
  · rw [hnoted _ (List.mem_map_of_mem hmanifest), List.mem_singleton] at hartifact
    subst hartifact
    have hbytes : bytes = [1, 2, 3] := hblessed.digest
    subst hbytes
    cases hengine

end UnityLan.Engine.SelfUpdate
