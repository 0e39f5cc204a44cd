import UnityLan.Engine.Updates
import UnityLan.Foundation.Eval

namespace UnityLan.Engine.SelfUpdate

open UnityLan.Foundation Prog

/-! What an update leaves installed, of the engine and of the GUI. -/

def latestOf (binary : String) (found : Option Bytes) (entry : Except String Entry) :
    Option Bytes :=
  match entry with
  | .ok ⟨.ok name, data⟩ => if name = some binary then some data.chunks.flatten else found
  | _ => found

/-- The GUI that an artifact carries. -/
def guiIn (conf : Conf) (bytes : Bytes) : Option Bytes :=
  if isGzip bytes then
    match conf.entries bytes with
    | .ok entries => entries.foldl (latestOf BUNDLE_GUI) none
    | .error _ => none
  else none

namespace Host

variable (host : Host)

/-- Where a GUI is installed. -/
def guiAt : Option Path :=
  [Path.guiBeside, .guiUsrBin].find? fun path => (host.files.names path).isSome

/-- A host where the running engine finds its path, and where a GUI can be copied. -/
def obliges (o : FileSig.Op) (choice : Choice) (host : Host) : Option (FileSig.Res o × Host) :=
  match o, choice with
  | .copy _ _, .fails _ => none
  | .currentExe, .fails _ => none
  | o, choice => host.exec o choice

end Host

/-- An update takes all of its effect, or has none. -/
structure AllOrNothing (conf : Conf) (bytes : Bytes) (host host' : Host)
    (result : Except String ExecPlan) : Prop where
  unchanged : ∀ error, result = .error error → ∀ path ∈ [Path.engine, .guiBeside, .guiUsrBin],
    host'.files.read? path = host.files.read? path
  engine : ∀ plan, result = .ok plan →
    ∃ content, engineIn conf bytes = some content ∧ host'.files.read? .engine = some content
  gui : ∀ plan content target, result = .ok plan → guiIn conf bytes = some content →
    host.guiAt = some target → host'.files.read? target = some content

/-- The engine is replaced, or is as it was. -/
structure EngineSafe (conf : Conf) (bytes : Bytes) (host host' : Host)
    (result : Except String ExecPlan) : Prop where
  unchanged : ∀ error, result = .error error →
    host'.files.read? .engine = host.files.read? .engine
  engine : ∀ plan, result = .ok plan →
    ∃ content, engineIn conf bytes = some content ∧ host'.files.read? .engine = some content

variable {conf : Conf} {host host' : Host} {bundle : Bundle}

abbrev exec (o : FileSig.Op) (choice : Choice) (host : Host) : Option (FileSig.Res o × Host) :=
  host.exec o choice

/-! What runs alone. -/

section

variable {run : (o : FileSig.Op) → Choice → Host → Option (FileSig.Res o × Host)} {α : Type}

theorem eval_ask {o : FileSig.Op} {result : Except String (FileSig.Res o)}
    (heval : Eval run (ask o) host result host') :
    ∃ choice answer, run o choice host = some (answer, host') ∧ result = .ok answer := by
  cases heval with
  | op hexecuted hrest =>
      cases hrest
      exact ⟨_, _, hexecuted, rfl⟩

theorem eval_fallible {o : FileSig.Op} {read : FileSig.Res o → Except String α}
    {context : String} {result : Except String α} (heval : Eval run (fallible o read context) host result host') :
    ∃ choice answer, run o choice host = some (answer, host') ∧
      result = (read answer).mapError fun error => context ++ ": " ++ error := by
  obtain ⟨inner, hinner, rfl⟩ := eval_mapError heval
  cases hinner with
  | op hexecuted hrest =>
      dsimp only at hrest
      split at hrest
      · rename_i hread
        cases hrest
        exact ⟨_, _, hexecuted, by rw [hread]⟩
      · rename_i hread
        cases hrest
        exact ⟨_, _, hexecuted, by rw [hread]⟩

end

/-! What is written to a file. -/

structure Fills (file : FileId Path) (files files' : Files Path UInt8) : Prop where
  names : files'.names = files.names
  contents : ∀ other, other ≠ file → files'.contents other = files.contents other

namespace Fills

variable {file : FileId Path} {files files' last : Files Path UInt8} {path : Path}

theorem refl : Fills file files files :=
  ⟨rfl, fun _ _ => rfl⟩

theorem trans (hfirst : Fills file files files') (hsecond : Fills file files' last) :
    Fills file files last where
  names := hsecond.names.trans hfirst.names
  contents := fun other hother =>
    (hsecond.contents other hother).trans (hfirst.contents other hother)

theorem settled (hfills : Fills file files files') (hsettled : files.Settled path) :
    files'.Settled path := by
  intro name found hfound
  rw [hfills.names] at hfound
  exact hsettled name found hfound

theorem keeps (hfills : Fills file files files') (hborn : file.born ≠ path) :
    Files.Keeps path files files' where
  names := congrFun hfills.names path
  contents := by
    rintro found rfl
    apply hfills.contents
    rintro rfl
    exact hborn rfl

end Fills

theorem exec_write {file : FileId Path} {position : Nat} {chunk : Bytes} {choice : Choice}
    {answer : Except String Unit}
    (hexec : host.exec (.write file position chunk) choice = some (answer, host')) :
    (host' = { host with files := host.files.write file position chunk } ∧ answer = .ok ()) ∨
      host' = host ∧ ∃ error, answer = .error error := by
  cases choice with
  | go =>
      cases hexec
      exact .inl ⟨rfl, rfl⟩
  | fails error =>
      cases hexec
      exact .inr ⟨rfl, error, rfl⟩
  | _ => cases hexec

theorem exec_chmod {path : Path} {choice : Choice} {answer : Except String Unit}
    (hexec : host.exec (.chmod path) choice = some (answer, host')) : host' = host := by
  cases choice with
  | go =>
      cases hexec
      rfl
  | fails error =>
      cases hexec
      rfl
  | _ => cases hexec

theorem exec_create {path : Path} {choice : Choice} {answer : Except String (FileId Path)}
    (hexec : host.exec (.create path) choice = some (answer, host')) :
    (host' = { host with files := (host.files.create path).1 } ∧
        answer = .ok (host.files.create path).2) ∨
      host' = host ∧ ∃ error, answer = .error error := by
  cases choice with
  | go =>
      cases hexec
      exact .inl ⟨rfl, rfl⟩
  | fails error =>
      cases hexec
      exact .inr ⟨rfl, error, rfl⟩
  | _ => cases hexec

theorem copyInto_fills {file : FileId Path} {context : String} {chunks : List Bytes}
    {broken : Option String} {limit position : Nat} {result : Except String Nat}
    (heval : Eval exec (copyInto file context limit position chunks broken) host result host') :
    Fills file host.files host'.files ∧
      ∀ written, result = .ok written → position = (host.files.contents file).length →
        ∃ data, host'.files.contents file = host.files.contents file ++ data ∧
          written = position + data.length ∧ (data.length < limit → data = chunks.flatten) := by
  induction chunks generalizing limit position host with
  | nil =>
      unfold copyInto at heval
      split at heval
      · cases heval
        exact ⟨.refl, fun _ hwritten _ => ⟨[], by simp, by cases hwritten; rfl, fun _ => rfl⟩⟩
      · split at heval
        · cases heval
          exact ⟨.refl, fun _ hwritten _ => ⟨[], by simp, by cases hwritten; rfl, fun _ => rfl⟩⟩
        · cases heval
          exact ⟨.refl, fun _ hwritten => by cases hwritten⟩
  | cons chunk rest ih =>
      unfold copyInto at heval
      split at heval
      · rename_i hlimit
        cases heval
        exact ⟨.refl, fun _ hwritten _ =>
          ⟨[], by simp, by cases hwritten; rfl, fun hshort => absurd hshort (by simp [hlimit])⟩⟩
      · rcases eval_bind heval with ⟨_, between, hwrite, hrest⟩ | ⟨_, hwrite, rfl⟩
        · obtain ⟨_, answer, hexec, hanswer⟩ := eval_fallible hwrite
          obtain ⟨rfl, rfl⟩ | ⟨-, error, rfl⟩ := exec_write hexec
          · obtain ⟨hfills, hwhole⟩ := ih hrest
            have hone : Fills file host.files
                (host.files.write file position (chunk.take limit)) :=
              ⟨rfl, fun _ hother => Files.write_contents_other hother⟩
            refine ⟨hone.trans hfills, fun written hwritten hposition => ?_⟩
            have happended : (host.files.write file position (chunk.take limit)).contents file =
                host.files.contents file ++ chunk.take limit := by
              rw [Files.write_contents, hposition, overwrite_end]
            obtain ⟨data, hdata, hcount, hall⟩ := hwhole written hwritten (by
              dsimp only
              rw [happended, List.length_append, hposition])
            refine ⟨chunk.take limit ++ data, ?_, ?_, fun hshort => ?_⟩
            · rw [hdata]
              dsimp only
              rw [happended, List.append_assoc]
            · rw [hcount, List.length_append, Nat.add_assoc]
            · rw [List.length_append] at hshort
              have hlength := List.length_take (i := limit) (l := chunk)
              have htake : chunk.take limit = chunk := List.take_of_length_le (by omega)
              rw [hall (by omega), htake]
              rfl
          · cases hanswer
        · obtain ⟨_, answer, hexec, hanswer⟩ := eval_fallible hwrite
          obtain ⟨-, rfl⟩ | ⟨rfl, -⟩ := exec_write hexec
          · cases hanswer
          · exact ⟨.refl, fun _ hwritten => by cases hwritten⟩

/-! What is unpacked. -/

structure Staging (files files' : Files Path UInt8) : Prop where
  keeps : ∀ path, path ≠ .stagedEngine → path ≠ .stagedGui → Files.Keeps path files files'
  settled : ∀ path, files'.Settled path

def Holds (binary : String) (staged : Path) (extracted : Bool)
    (entries : List (Except String Entry)) (files : Files Path UInt8) : Prop :=
  (extracted = true ↔ (entries.foldl (latestOf binary) none).isSome) ∧
    ∀ content, entries.foldl (latestOf binary) none = some content →
      files.read? staged = some content

theorem unpackEntry_stages {name : Option String} {data : Stream} {out : Path}
    {result : Except String Bundle} (hstaged : Entry.staged name = some out)
    (hsettled : ∀ path, host.files.Settled path)
    (heval : Eval exec (unpackEntry bundle (.ok ⟨.ok name, data⟩)) host result host') :
    (∀ path, path ≠ out → Files.Keeps path host.files host'.files) ∧
      (∀ path, host'.files.Settled path) ∧
      ∀ extracted, result = .ok extracted →
        extracted = bundle.add out ∧ host'.files.read? out = some data.chunks.flatten := by
  unfold unpackEntry at heval
  dsimp only at heval
  rw [hstaged] at heval
  rcases eval_bind heval with ⟨file, created, hcreate, hrest⟩ | ⟨_, hcreate, rfl⟩
  · obtain ⟨_, answer, hexec, hanswer⟩ := eval_fallible hcreate
    obtain ⟨rfl, rfl⟩ | ⟨-, error, rfl⟩ := exec_create hexec
    swap
    · cases hanswer
    cases hanswer
    have hkeeps : ∀ path, path ≠ out → Files.Keeps path host.files (host.files.create out).1 :=
      fun path hpath => Files.create_keeps (hsettled path) hpath.symm
    have hcreated : ∀ path, (host.files.create out).1.Settled path :=
      fun path => Files.create_settled (hsettled path)
    have hborn : ∀ path, path ≠ out → (host.files.create out).2.born ≠ path :=
      fun path hpath hborn => hpath ((Files.create_born (hsettled path)).mp hborn).symm
    rcases eval_bind hrest with ⟨written, copied, hcopy, hrest⟩ | ⟨_, hcopy, rfl⟩
    · obtain ⟨hfills, hwhole⟩ := copyInto_fills hcopy
      obtain ⟨whole, hcontents, hwritten, hall⟩ := hwhole written rfl (by
        dsimp only
        rw [Files.create_contents]
        rfl)
      dsimp only at hfills hcontents
      rw [Files.create_contents, List.nil_append] at hcontents
      have hcopied : ∀ path, path ≠ out → Files.Keeps path host.files copied.files :=
        fun path hpath => (hkeeps path hpath).trans (hfills.keeps (hborn path hpath))
      have hkept : ∀ path, copied.files.Settled path := fun path => hfills.settled (hcreated path)
      split at hrest
      · -- an entry that is too large is removed again
        rcases eval_bind hrest with ⟨_, removed, hremove, hrest⟩ | ⟨_, hremove, rfl⟩
        · obtain ⟨choice, _, hexec, -⟩ := eval_ask hremove
          cases hrest
          cases choice with
          | go =>
              cases hexec
              exact ⟨fun path hpath => (hcopied path hpath).trans (Files.remove_keeps hpath),
                fun path => Files.remove_settled (hkept path), fun _ hresult => by cases hresult⟩
          | fails error =>
              cases hexec
              exact ⟨hcopied, hkept, fun _ hresult => by cases hresult⟩
          | _ => cases hexec
        · obtain ⟨_, _, _, hanswer⟩ := eval_ask hremove
          cases hanswer
      · rename_i hfits
        have hflat : whole = data.chunks.flatten := hall (by omega)
        have hread : copied.files.read? out = some data.chunks.flatten := by
          refine Files.read?_eq_some.mpr ⟨_, ?_, hcontents.trans hflat⟩
          rw [hfills.names]
          exact Files.create_names
        rcases eval_bind hrest with ⟨_, last, hchmod, hend⟩ | ⟨_, hchmod, rfl⟩
        · obtain ⟨_, _, hexec, -⟩ := eval_fallible hchmod
          obtain rfl := exec_chmod hexec
          cases hend
          exact ⟨hcopied, hkept, fun _ hresult => by cases hresult; exact ⟨rfl, hread⟩⟩
        · obtain ⟨_, _, hexec, -⟩ := eval_fallible hchmod
          obtain rfl := exec_chmod hexec
          exact ⟨hcopied, hkept, fun _ hresult => by cases hresult⟩
    · obtain ⟨hfills, -⟩ := copyInto_fills hcopy
      exact ⟨fun path hpath => (hkeeps path hpath).trans (hfills.keeps (hborn path hpath)),
        fun path => hfills.settled (hcreated path), fun _ hresult => by cases hresult⟩
  · obtain ⟨_, answer, hexec, hanswer⟩ := eval_fallible hcreate
    obtain ⟨-, rfl⟩ | ⟨rfl, -⟩ := exec_create hexec
    · cases hanswer
    · exact ⟨fun _ _ => .refl, hsettled, fun _ hresult => by cases hresult⟩

theorem staged_cases {name : Option String} {out : Path}
    (hstaged : Entry.staged name = some out) :
    (name = some BUNDLE_ENGINE ∧ out = .stagedEngine) ∨
      name = some BUNDLE_GUI ∧ out = .stagedGui := by
  unfold Entry.staged at hstaged
  split at hstaged
  · rename_i hname
    cases hstaged
    exact .inl ⟨hname, rfl⟩
  · split at hstaged
    · rename_i hname
      cases hstaged
      exact .inr ⟨hname, rfl⟩
    · cases hstaged

theorem staged_none {name : Option String} (hstaged : Entry.staged name = none) :
    name ≠ some BUNDLE_ENGINE ∧ name ≠ some BUNDLE_GUI := by
  unfold Entry.staged at hstaged
  constructor
  · rintro rfl
    cases hstaged
  · rintro rfl
    cases hstaged

structure Unpacks (start : Files Path UInt8) (bundle : Bundle)
    (entries : List (Except String Entry)) (files : Files Path UInt8) : Prop where
  staging : Staging start files
  engine : Holds BUNDLE_ENGINE .stagedEngine bundle.engine entries files
  gui : Holds BUNDLE_GUI .stagedGui bundle.gui entries files

theorem Holds.other {binary : String} {staged : Path} {extracted : Bool}
    {entries : List (Except String Entry)} {files files' : Files Path UInt8}
    {entry : Except String Entry} (hholds : Holds binary staged extracted entries files)
    (hsettled : files.Settled staged) (hkeeps : Files.Keeps staged files files')
    (hentry : ∀ found, latestOf binary found entry = found) :
    Holds binary staged extracted (entries ++ [entry]) files' := by
  unfold Holds
  rw [List.foldl_append, List.foldl_cons, List.foldl_nil, hentry, hkeeps.read? hsettled]
  exact hholds

theorem Holds.entered {binary : String} {staged : Path} {entries : List (Except String Entry)}
    {files : Files Path UInt8} {data : Stream}
    (hread : files.read? staged = some data.chunks.flatten) :
    Holds binary staged true (entries ++ [.ok ⟨.ok (some binary), data⟩]) files := by
  unfold Holds
  rw [List.foldl_append]
  simp [latestOf, hread]

theorem Unpacks.entry {start : Files Path UInt8} {entries : List (Except String Entry)}
    {entry : Except String Entry} {result : Except String Bundle}
    (hunpacks : Unpacks start bundle entries host.files)
    (heval : Eval exec (unpackEntry bundle entry) host result host') :
    Staging start host'.files ∧
      ∀ extracted, result = .ok extracted →
        Unpacks start extracted (entries ++ [entry]) host'.files := by
  obtain ⟨hstaging, hengine, hgui⟩ := hunpacks
  match entry with
  | .error error =>
      cases heval
      exact ⟨hstaging, fun _ hresult => by cases hresult⟩
  | .ok ⟨.error error, data⟩ =>
      cases heval
      exact ⟨hstaging, fun _ hresult => by cases hresult⟩
  | .ok ⟨.ok name, data⟩ =>
      cases hstaged : Entry.staged name with
      | none =>
          unfold unpackEntry at heval
          dsimp only at heval
          rw [hstaged] at heval
          cases heval
          obtain ⟨hnoEngine, hnoGui⟩ := staged_none hstaged
          refine ⟨hstaging, fun _ hresult => ?_⟩
          cases hresult
          exact ⟨hstaging,
            hengine.other (hstaging.settled _) .refl fun found => if_neg hnoEngine,
            hgui.other (hstaging.settled _) .refl fun found => if_neg hnoGui⟩
      | some out =>
          obtain ⟨hkeeps, hsettled, hread⟩ := unpackEntry_stages hstaged hstaging.settled heval
          have hout := staged_cases hstaged
          have hstaging' : Staging start host'.files := by
            refine ⟨fun path hpath hpath' => (hstaging.keeps path hpath hpath').trans
              (hkeeps path ?_), hsettled⟩
            obtain ⟨-, rfl⟩ | ⟨-, rfl⟩ := hout
            · exact hpath
            · exact hpath'
          refine ⟨hstaging', fun extracted hresult => ?_⟩
          obtain ⟨rfl, hcontent⟩ := hread extracted hresult
          obtain ⟨rfl, rfl⟩ | ⟨rfl, rfl⟩ := hout
          · exact ⟨hstaging', .entered hcontent,
              hgui.other (hstaging.settled _) (hkeeps _ nofun) fun found =>
                by simp [latestOf, BUNDLE_ENGINE, BUNDLE_GUI]⟩
          · exact ⟨hstaging',
              hengine.other (hstaging.settled _) (hkeeps _ nofun) fun found =>
                by simp [latestOf, BUNDLE_ENGINE, BUNDLE_GUI],
              .entered hcontent⟩

theorem Unpacks.entries {start : Files Path UInt8} {done rest : List (Except String Entry)}
    {result : Except String Bundle} (hunpacks : Unpacks start bundle done host.files)
    (heval : Eval exec (rest.foldlM unpackEntry bundle) host result host') :
    Staging start host'.files ∧
      ∀ extracted, result = .ok extracted →
        Unpacks start extracted (done ++ rest) host'.files := by
  induction rest generalizing bundle done host with
  | nil =>
      cases heval
      refine ⟨hunpacks.staging, fun extracted hresult => ?_⟩
      cases hresult
      rw [List.append_nil]
      exact hunpacks
  | cons entry rest ih =>
      rw [List.foldlM_cons] at heval
      rcases eval_bind heval with ⟨extracted, between, hfirst, hrest⟩ | ⟨_, hfirst, rfl⟩
      · obtain ⟨hstaging, hnext⟩ := ih ((hunpacks.entry hfirst).2 extracted rfl) hrest
        refine ⟨hstaging, fun last hresult => ?_⟩
        rw [List.append_cons]
        exact hnext last hresult
      · exact ⟨(hunpacks.entry hfirst).1, fun _ hresult => by cases hresult⟩

theorem Staging.start {files : Files Path UInt8} (hsettled : ∀ path, files.Settled path) :
    Staging files files :=
  ⟨fun _ _ _ => .refl, hsettled⟩

theorem unpackBundle_unpacks {bytes : Bytes} {result : Except String Bundle}
    (hsettled : ∀ path, host.files.Settled path)
    (heval : Eval exec (unpackBundle conf bytes) host result host') :
    Staging host.files host'.files ∧
      ∀ extracted, result = .ok extracted → ∃ entries, conf.entries bytes = .ok entries ∧
        Unpacks host.files extracted entries host'.files := by
  unfold unpackBundle at heval
  split at heval
  · cases heval
    exact ⟨.start hsettled, fun _ hresult => by cases hresult⟩
  · rename_i entries hentries
    have hnone : ∀ binary staged, Holds binary staged false [] host.files :=
      fun _ _ => ⟨by simp, fun _ hnone => by cases hnone⟩
    obtain ⟨hstaging, hunpacks⟩ :=
      Unpacks.entries ⟨.start hsettled, hnone _ _, hnone _ _⟩ heval
    exact ⟨hstaging, fun extracted hresult => ⟨entries, hentries, hunpacks extracted hresult⟩⟩

/-! What becomes of the GUI. -/

theorem findExisting_eval {paths : List Path} {result : Except String (Option Path)}
    (heval : Eval exec (findExisting paths) host result host') :
    host' = host ∧ result = .ok (paths.find? fun path => (host.files.names path).isSome) := by
  induction paths with
  | nil =>
      cases heval
      exact ⟨rfl, rfl⟩
  | cons path rest ih =>
      unfold findExisting at heval
      rcases eval_bind heval with ⟨found, between, hasked, hrest⟩ | ⟨_, hasked, rfl⟩
      · obtain ⟨_, _, hexec, hanswer⟩ := eval_ask hasked
        cases hanswer
        cases hexec
        rw [List.find?_cons]
        cases hexists : (host.files.names path).isSome with
        | true =>
            rw [hexists] at hrest
            cases hrest
            exact ⟨rfl, rfl⟩
        | false =>
            rw [hexists] at hrest
            exact ih hrest
      · obtain ⟨_, _, _, hanswer⟩ := eval_ask hasked
        cases hanswer

theorem exec_currentExe {choice : Choice} {answer : Except String String}
    (hexec : host.exec .currentExe choice = some (answer, host')) : host' = host := by
  cases choice with
  | installedAt exe =>
      cases hexec
      rfl
  | fails error =>
      cases hexec
      rfl
  | _ => cases hexec

theorem neutral_keeps {o : FileSig.Op} {choice : Choice} {answer : FileSig.Res o} {path : Path}
    (hneutral : Neutral o) (hexec : exec o choice host = some (answer, host'))
    (hpath : ¬IsGui path) (hsettled : host.files.Settled path) :
    Files.Keeps path host.files host'.files ∧ host'.files.Settled path := by
  have hne : ∀ gui, IsGui gui → path ≠ gui := fun gui hgui hsame => hpath (hsame ▸ hgui)
  have hsame : host' = host → Files.Keeps path host.files host'.files ∧ host'.files.Settled path :=
    by
      rintro rfl
      exact ⟨.refl, hsettled⟩
  cases o with
  | rename source target =>
      obtain ⟨rfl, htarget⟩ := hneutral
      cases choice with
      | go =>
          change some (host.rename .stagedGui target) = _ at hexec
          unfold Host.rename at hexec
          split at hexec
          · cases hexec
            exact hsame rfl
          · rename_i files hrename
            cases hexec
            exact ⟨Files.rename_keeps hrename (hne _ (.inl rfl)) (hne _ htarget),
              Files.rename_settled hrename (hne _ (.inl rfl)) (hne _ htarget) hsettled⟩
      | fails error =>
          cases hexec
          exact hsame rfl
      | _ => cases hexec
  | copy source target =>
      obtain ⟨rfl, htarget⟩ := hneutral
      cases choice with
      | go =>
          change some (host.copy .stagedGui target) = _ at hexec
          unfold Host.copy at hexec
          split at hexec
          · cases hexec
            exact hsame rfl
          · cases hexec
            have hcreated := Files.create_keeps hsettled (hne _ htarget).symm
            have hborn : (host.files.create target).2.born ≠ path := fun hborn =>
              hne _ htarget ((Files.create_born hsettled).mp hborn).symm
            exact ⟨hcreated.trans (Files.write_keeps hborn),
              fun name file hfile => Files.create_settled hsettled name file hfile⟩
      | fails error =>
          cases hexec
          exact hsame rfl
      | _ => cases hexec
  | remove gui =>
      obtain rfl : gui = .stagedGui := hneutral
      cases choice with
      | go =>
          cases hexec
          exact ⟨Files.remove_keeps (hne _ (.inl rfl)), Files.remove_settled hsettled⟩
      | fails error =>
          cases hexec
          exact hsame rfl
      | _ => cases hexec
  | chmod gui => exact hsame (exec_chmod hexec)
  | currentExe => exact hsame (exec_currentExe hexec)
  | existsAt gui =>
      cases hexec
      exact hsame rfl
  | notify =>
      cases hexec
      exact ⟨.refl, hsettled⟩
  | fetch url =>
      cases choice <;> first | (cases hexec; exact hsame rfl) | cases hexec
  | createDir =>
      cases choice <;> first | (cases hexec; exact hsame rfl) | cases hexec
  | _ => exact hneutral.elim

theorem replaceGui_keeps {result : Except String Unit} {path : Path} (hpath : ¬IsGui path)
    (hsettled : host.files.Settled path)
    (heval : Eval exec (replaceGui bundle) host result host') :
    Files.Keeps path host.files host'.files ∧ host'.files.Settled path := by
  unfold replaceGui at heval
  split at heval
  · rcases eval_bind heval with ⟨_, between, hattempt, hend⟩ | ⟨_, hattempt, rfl⟩
    · cases hend
      obtain ⟨_, hreplace, -⟩ := eval_attempt hattempt
      unfold replaceBeside at hreplace
      rcases eval_bind hreplace with ⟨exe, first, hasked, hrest⟩ | ⟨_, hasked, rfl⟩
      · obtain ⟨_, _, hexec, hanswer⟩ := eval_ask hasked
        obtain rfl := exec_currentExe hexec
        rcases eval_bind hrest with ⟨found, second, hfind, hmove⟩ | ⟨_, hfind, rfl⟩
        · obtain ⟨rfl, hfound⟩ := findExisting_eval hfind
          cases found with
          | none =>
              cases hmove
              exact ⟨.refl, hsettled⟩
          | some target =>
              have htarget : IsGui target := candidates_gui (List.mem_of_find?_eq_some
                (Except.ok.inj hfound).symm)
              have hchmod : Neutral (.chmod target) := trivial
              have huses : (do moveOver .stagedGui target; makeExecutable target
                               return some target : Update (Option Path)).Uses Neutral :=
                (moveOver_neutral htarget).bind fun _ =>
                  (fallible_neutral hchmod).bind fun _ => trivial
              refine huses.eval (fun host host' : Host => host.files.Settled path →
                  Files.Keeps path host.files host'.files ∧ host'.files.Settled path)
                (fun _ hsettled => ⟨.refl, hsettled⟩) ?_ ?_ hmove hsettled
              · intro first second third hfirst hsecond hsettled
                obtain ⟨hkeeps, hsettled⟩ := hfirst hsettled
                exact ⟨hkeeps.trans (hsecond hsettled).1, (hsecond hsettled).2⟩
              · intro o choice answer before after hneutral hexec hsettled
                exact neutral_keeps hneutral hexec hpath hsettled
        · cases (findExisting_eval hfind).2
      · obtain ⟨_, _, _, hanswer⟩ := eval_ask hasked
        cases hanswer
    · obtain ⟨_, -, hresult⟩ := eval_attempt hattempt
      cases hresult
  · cases heval
    exact ⟨.refl, hsettled⟩

def Placed (target : Path) (content : Bytes) (files : Files Path UInt8) : Prop :=
  ∃ file, files.names target = some file ∧ files.contents file = content ∧ IsGui file.born

theorem Placed.read? {target : Path} {content : Bytes} {files : Files Path UInt8}
    (hplaced : Placed target content files) : files.read? target = some content := by
  obtain ⟨file, hfile, hcontent, -⟩ := hplaced
  exact Files.read?_eq_some.mpr ⟨file, hfile, hcontent⟩

theorem exec_of_obliges {o : FileSig.Op} {choice : Choice} {after : FileSig.Res o × Host}
    (hobliges : Host.obliges o choice host = some after) : exec o choice host = some after := by
  cases o <;> cases choice <;> first | exact hobliges | cases hobliges

theorem eval_of_obliges {α : Type} {program : Update α} {result : Except String α}
    (heval : Eval Host.obliges program host result host') :
    Eval exec program host result host' :=
  heval.weaken fun _ choice _ _ hobliges => ⟨choice, exec_of_obliges hobliges⟩

theorem moveOver_placed {target : Path} {content : Bytes} {result : Except String Unit}
    (htarget : target = .guiBeside ∨ target = .guiUsrBin)
    (hsettled : ∀ path, host.files.Settled path)
    (hstaged : host.files.read? .stagedGui = some content)
    (heval : Eval Host.obliges (moveOver .stagedGui target) host result host') :
    Placed target content host'.files := by
  have hgui : IsGui target := .inr htarget
  have hne : target ≠ .stagedGui := by
    rcases htarget with rfl | rfl <;> nofun
  obtain ⟨file, hfile, hcontent⟩ := Files.read?_eq_some.mp hstaged
  unfold moveOver at heval
  rcases eval_bind heval with ⟨renamed, between, hrename, hrest⟩ | ⟨_, hrename, rfl⟩
  · obtain ⟨choice, answer, hobliges, hanswer⟩ := eval_ask hrename
    cases hanswer
    have hexec : host.exec (.rename .stagedGui target) choice = _ := exec_of_obliges hobliges
    cases choice with
    | go =>
        change some (host.rename .stagedGui target) = _ at hexec
        unfold Host.rename Files.rename at hexec
        rw [hfile] at hexec
        cases hexec
        cases hrest
        exact ⟨file, Function.update_self .., hcontent,
          .inl ((hsettled _ _ _ hfile).mpr rfl)⟩
    | fails error =>
        cases hexec
        rcases eval_bind hrest with ⟨_, copied, hcopy, hremove⟩ | ⟨_, hcopy, rfl⟩
        · obtain ⟨choice, answer, hobliges, -⟩ := eval_fallible hcopy
          have hcopied : Placed target content copied.files := by
            cases choice with
            | go =>
                change some (host.copy .stagedGui target) = _ at hobliges
                unfold Host.copy at hobliges
                rw [hstaged] at hobliges
                cases hobliges
                refine ⟨_, Files.create_names, Files.write_contents.trans ?_, ?_⟩
                · rw [Files.create_contents]
                  simp [overwrite]
                · rw [(Files.create_born (hsettled target)).mpr rfl]
                  exact hgui
            | _ => cases hobliges
          obtain ⟨choice, _, hexec, -⟩ := eval_ask hremove
          have hexec : copied.exec (.remove .stagedGui) choice = _ := exec_of_obliges hexec
          cases choice with
          | go =>
              cases hexec
              obtain ⟨file, hfile, hcopied⟩ := hcopied
              exact ⟨file, (Files.remove_names_other hne).trans hfile, hcopied⟩
          | fails error =>
              cases hexec
              exact hcopied
          | _ => cases hexec
        · obtain ⟨choice, answer, hobliges, hresult⟩ := eval_fallible hcopy
          cases choice with
          | go =>
              change some (host.copy .stagedGui target) = _ at hobliges
              unfold Host.copy at hobliges
              rw [hstaged] at hobliges
              cases hobliges
              cases hresult
          | _ => cases hobliges
    | _ => cases hexec
  · obtain ⟨_, _, _, hanswer⟩ := eval_ask hrename
    cases hanswer

theorem replaceGui_placed {target : Path} {content : Bytes} {result : Except String Unit}
    (hgui : bundle.gui = true) (hat : host.guiAt = some target)
    (hsettled : ∀ path, host.files.Settled path)
    (hstaged : host.files.read? .stagedGui = some content)
    (heval : Eval Host.obliges (replaceGui bundle) host result host') :
    Placed target content host'.files := by
  have htarget : target = .guiBeside ∨ target = .guiUsrBin := by
    simpa using List.mem_of_find?_eq_some hat
  unfold replaceGui at heval
  rw [if_pos hgui] at heval
  rcases eval_bind heval with ⟨_, between, hattempt, hend⟩ | ⟨_, hattempt, rfl⟩
  · cases hend
    obtain ⟨_, hreplace, -⟩ := eval_attempt hattempt
    unfold replaceBeside at hreplace
    rcases eval_bind hreplace with ⟨exe, first, hasked, hrest⟩ | ⟨_, hasked, rfl⟩
    · obtain ⟨choice, _, hexec, hanswer⟩ := eval_ask hasked
      cases hanswer
      have hfirst : first = host ∧ candidates exe = [.guiBeside, .guiUsrBin] := by
        cases choice <;> cases hexec
        exact ⟨rfl, rfl⟩
      obtain ⟨rfl, hcandidates⟩ := hfirst
      rcases eval_bind hrest with ⟨found, second, hfind, hmove⟩ | ⟨_, hfind, rfl⟩
      · obtain ⟨rfl, hfound⟩ := findExisting_eval (eval_of_obliges hfind)
        rw [hcandidates] at hfound
        obtain rfl : found = some target := (Except.ok.inj hfound).trans hat
        dsimp only at hmove
        rcases eval_bind hmove with ⟨_, moved, hmoved, hchmod⟩ | ⟨_, hmoved, rfl⟩
        · have hplaced := moveOver_placed htarget hsettled hstaged hmoved
          rcases eval_bind hchmod with ⟨_, last, hmode, hend⟩ | ⟨_, hmode, rfl⟩
          · obtain ⟨_, _, hexec, -⟩ := eval_fallible (eval_of_obliges hmode)
            obtain rfl := exec_chmod hexec
            cases hend
            exact hplaced
          · obtain ⟨_, _, hexec, -⟩ := eval_fallible (eval_of_obliges hmode)
            obtain rfl := exec_chmod hexec
            exact hplaced
        · exact moveOver_placed htarget hsettled hstaged hmoved
      · cases (findExisting_eval (eval_of_obliges hfind)).2
    · obtain ⟨_, _, _, hanswer⟩ := eval_ask hasked
      cases hanswer
  · obtain ⟨_, -, hresult⟩ := eval_attempt hattempt
    cases hresult

/-! What is installed. -/

theorem eval_writeFile {path : Path} {data : Bytes} {context : String}
    {result : Except String Unit} (hsettled : ∀ path, host.files.Settled path)
    (heval : Eval exec (writeFile path data context) host result host') :
    (∀ other, other ≠ path → Files.Keeps other host.files host'.files) ∧
      (∀ other, host'.files.Settled other) ∧
      (∀ done, result = .ok done → host'.files.read? path = some data) := by
  unfold writeFile at heval
  rcases eval_bind heval with ⟨file, created, hcreate, hwrite⟩ | ⟨_, hcreate, rfl⟩
  · obtain ⟨_, answer, hexec, hanswer⟩ := eval_fallible hcreate
    obtain ⟨rfl, rfl⟩ | ⟨-, error, rfl⟩ := exec_create hexec
    swap
    · cases hanswer
    cases hanswer
    have hkeeps : ∀ other, other ≠ path → Files.Keeps other host.files (host.files.create path).1 :=
      fun other hother => Files.create_keeps (hsettled other) hother.symm
    have hcreated : ∀ other, (host.files.create path).1.Settled other :=
      fun other => Files.create_settled (hsettled other)
    obtain ⟨_, answer, hexec, rfl⟩ := eval_fallible hwrite
    obtain ⟨rfl, rfl⟩ | ⟨rfl, error, rfl⟩ := exec_write hexec
    · refine ⟨fun other hother => (hkeeps other hother).trans (Files.write_keeps fun hborn =>
        hother ((Files.create_born (hsettled other)).mp hborn).symm),
        fun other name file hfile => hcreated other name file hfile, fun _ _ => ?_⟩
      refine Files.read?_eq_some.mpr ⟨_, Files.create_names, Files.write_contents.trans ?_⟩
      dsimp only
      rw [Files.create_contents]
      simp [overwrite]
    · exact ⟨hkeeps, hcreated, fun _ hresult => by cases hresult⟩
  · obtain ⟨_, answer, hexec, hanswer⟩ := eval_fallible hcreate
    obtain ⟨-, rfl⟩ | ⟨rfl, -⟩ := exec_create hexec
    · cases hanswer
    · exact ⟨fun _ _ => .refl, hsettled, fun _ hresult => by cases hresult⟩

def Ready (conf : Conf) (bytes : Bytes) (files : Files Path UInt8) (path : Path) : Prop :=
  path = .stagedEngine ∧
    ∃ content, engineIn conf bytes = some content ∧ files.read? .stagedEngine = some content

theorem stageEngine_ready {bytes : Bytes} {result : Except String Path}
    (hsettled : ∀ path, host.files.Settled path)
    (heval : Eval exec (stageEngine conf bytes) host result host') :
    (Files.Keeps .engine host.files host'.files ∧ host'.files.Settled .engine) ∧
      ∀ path, result = .ok path → Ready conf bytes host'.files path := by
  unfold stageEngine at heval
  split at heval
  · rename_i hgzip
    rcases eval_bind heval with ⟨extracted, unpacked, hunpack, hrest⟩ | ⟨_, hunpack, rfl⟩
    · obtain ⟨hstaging, hunpacks⟩ := unpackBundle_unpacks hsettled hunpack
      obtain ⟨entries, hentries, hunpacks⟩ := hunpacks extracted rfl
      have hengine := hstaging.keeps .engine nofun nofun
      rcases eval_bind hrest with ⟨_, replaced, hgui, hend⟩ | ⟨_, hgui, rfl⟩
      · obtain ⟨hkeeps, hsettled⟩ :=
          replaceGui_keeps not_isGui.2.1 (hstaging.settled .engine) hgui
        obtain ⟨hstaged, -⟩ :=
          replaceGui_keeps not_isGui.1 (hstaging.settled .stagedEngine) hgui
        split at hend
        · rename_i hextracted
          cases hend
          refine ⟨⟨hengine.trans hkeeps, hsettled⟩, fun path hpath => ?_⟩
          cases hpath
          obtain ⟨content, hcontent⟩ := Option.isSome_iff_exists.mp
            (hunpacks.engine.1.mp hextracted)
          refine ⟨rfl, content, ?_, ?_⟩
          · unfold engineIn
            rw [if_pos hgzip, hentries]
            exact hcontent
          · rw [hstaged.read? (hstaging.settled _)]
            exact hunpacks.engine.2 content hcontent
        · cases hend
          exact ⟨⟨hengine.trans hkeeps, hsettled⟩, fun _ hpath => by cases hpath⟩
      · obtain ⟨hkeeps, hsettled⟩ :=
          replaceGui_keeps not_isGui.2.1 (hstaging.settled .engine) hgui
        exact ⟨⟨hengine.trans hkeeps, hsettled⟩, fun _ hpath => by cases hpath⟩
    · obtain ⟨hstaging, -⟩ := unpackBundle_unpacks hsettled hunpack
      exact ⟨⟨hstaging.keeps .engine nofun nofun, hstaging.settled .engine⟩,
        fun _ hpath => by cases hpath⟩
  · rename_i hplain
    rcases eval_bind heval with ⟨_, written, hwrite, hrest⟩ | ⟨_, hwrite, rfl⟩
    · obtain ⟨hkeeps, hwritten, hread⟩ := eval_writeFile hsettled hwrite
      rcases eval_bind hrest with ⟨_, last, hchmod, hend⟩ | ⟨_, hchmod, rfl⟩
      · obtain ⟨_, _, hexec, -⟩ := eval_fallible hchmod
        obtain rfl := exec_chmod hexec
        cases hend
        refine ⟨⟨hkeeps .engine nofun, hwritten .engine⟩, fun path hpath => ?_⟩
        cases hpath
        exact ⟨rfl, bytes, if_neg hplain, hread () rfl⟩
      · obtain ⟨_, _, hexec, -⟩ := eval_fallible hchmod
        obtain rfl := exec_chmod hexec
        exact ⟨⟨hkeeps .engine nofun, hwritten .engine⟩, fun _ hpath => by cases hpath⟩
    · obtain ⟨hkeeps, hwritten, -⟩ := eval_writeFile hsettled hwrite
      exact ⟨⟨hkeeps .engine nofun, hwritten .engine⟩, fun _ hpath => by cases hpath⟩

theorem replace_placed {target : Path} {content data : Bytes} {files : Files Path UInt8}
    (htarget : IsGui target) (hplaced : Placed target content files) :
    Placed target content (files.replace .engine data) := by
  obtain ⟨file, hfile, hcontent, hborn⟩ := hplaced
  have hengine : target ≠ .engine := fun hsame => not_isGui.2.1 (hsame ▸ htarget)
  refine ⟨file, ?_, ?_, hborn⟩
  · exact (Files.create_names_other hengine).trans ((Files.remove_names_other hengine).trans hfile)
  · refine (Files.replace_contents_other fun hsame => ?_).trans hcontent
    exact not_isGui.2.1 (hsame ▸ hborn)

theorem install_eval {bytes : Bytes} {path : Path} {result : Except String ExecPlan}
    (hready : Ready conf bytes host.files path) (hsettled : host.files.Settled .engine)
    (heval : Eval exec
      (do
        let currentExe ← fallible .currentExe id "resolving the engine's install path"
        fallible (.selfReplace path) id "replacing the running engine binary"
        ask (.remove path)
        return execPlan currentExe conf.argv) host result host') :
    EngineSafe conf bytes host host' result ∧
      ∀ target content, IsGui target → Placed target content host.files →
        Placed target content host'.files := by
  obtain ⟨rfl, content, hcontent, hstaged⟩ := hready
  rcases eval_bind heval with ⟨exe, first, hasked, hrest⟩ | ⟨_, hasked, rfl⟩
  · obtain ⟨_, _, hexec, -⟩ := eval_fallible hasked
    obtain rfl := exec_currentExe hexec
    rcases eval_bind hrest with ⟨_, replaced, hreplace, hend⟩ | ⟨_, hreplace, rfl⟩
    · obtain ⟨choice, answer, hexec, hanswer⟩ := eval_fallible hreplace
      cases choice with
      | go =>
          change some (first.selfReplace .stagedEngine) = _ at hexec
          unfold Host.selfReplace at hexec
          rw [hstaged] at hexec
          cases hexec
          have hread : (first.files.replace .engine content).read? .engine = some content :=
            Files.read?_replace
          rcases eval_bind hend with ⟨_, removed, hremove, hend⟩ | ⟨_, hremove, rfl⟩
          · cases hend
            obtain ⟨choice, _, hexec, -⟩ := eval_ask hremove
            cases choice with
            | go =>
                cases hexec
                refine ⟨⟨nofun, fun plan _ => ⟨content, hcontent, ?_⟩⟩,
                  fun target held htarget hplaced => ?_⟩
                · have hne : Path.engine ≠ .stagedEngine := nofun
                  exact ((Files.remove_keeps hne).read?
                    (Files.replace_settled hsettled)).trans hread
                · obtain ⟨file, hfile, hheld⟩ := replace_placed htarget hplaced
                  refine ⟨file, (Files.remove_names_other ?_).trans hfile, hheld⟩
                  exact fun hsame => not_isGui.1 (hsame ▸ htarget)
            | fails error =>
                cases hexec
                exact ⟨⟨nofun, fun plan _ => ⟨content, hcontent, hread⟩⟩,
                  fun target held htarget hplaced => replace_placed htarget hplaced⟩
            | _ => cases hexec
          · obtain ⟨_, _, _, hanswer⟩ := eval_ask hremove
            cases hanswer
      | fails error =>
          cases hexec
          cases hanswer
      | _ => cases hexec
    · obtain ⟨choice, answer, hexec, hanswer⟩ := eval_fallible hreplace
      cases choice with
      | go =>
          change some (first.selfReplace .stagedEngine) = _ at hexec
          unfold Host.selfReplace at hexec
          rw [hstaged] at hexec
          cases hexec
          cases hanswer
      | fails error =>
          cases hexec
          exact ⟨⟨fun _ _ => rfl, fun _ hresult => by cases hresult⟩,
            fun _ _ _ hplaced => hplaced⟩
      | _ => cases hexec
  · obtain ⟨_, _, hexec, -⟩ := eval_fallible hasked
    obtain rfl := exec_currentExe hexec
    exact ⟨⟨fun _ _ => rfl, fun _ hresult => by cases hresult⟩, fun _ _ _ hplaced => hplaced⟩

theorem applyBytes_safe {bytes : Bytes} {result : Except String ExecPlan}
    (hsettled : ∀ path, host.files.Settled path)
    (heval : Eval exec (applyBytes conf bytes) host result host') :
    EngineSafe conf bytes host host' result := by
  unfold applyBytes at heval
  rcases eval_bind heval with ⟨path, staged, hstage, hinstall⟩ | ⟨_, hstage, rfl⟩
  · obtain ⟨⟨hkeeps, hkept⟩, hready⟩ := stageEngine_ready hsettled hstage
    obtain ⟨hunchanged, hengine⟩ := (install_eval (hready path rfl) hkept hinstall).1
    exact ⟨fun error hresult => (hunchanged error hresult).trans
      (hkeeps.read? (hsettled .engine)), hengine⟩
  · obtain ⟨⟨hkeeps, -⟩, -⟩ := stageEngine_ready hsettled hstage
    exact ⟨fun _ _ => hkeeps.read? (hsettled .engine), fun _ hresult => by cases hresult⟩

theorem guiAt_gui {target : Path} (hat : host.guiAt = some target) : IsGui target :=
  .inr (by simpa using List.mem_of_find?_eq_some hat)

theorem stageEngine_placed {bytes content : Bytes} {target path : Path}
    (hsettled : ∀ path, host.files.Settled path) (hgui : guiIn conf bytes = some content)
    (hat : host.guiAt = some target)
    (heval : Eval Host.obliges (stageEngine conf bytes) host (.ok path) host') :
    Placed target content host'.files := by
  unfold guiIn at hgui
  split at hgui
  swap
  · cases hgui
  rename_i hgzip
  unfold stageEngine at heval
  rw [if_pos hgzip] at heval
  rcases eval_bind heval with ⟨extracted, unpacked, hunpack, hrest⟩ | ⟨_, _, hresult⟩
  · obtain ⟨hstaging, hunpacks⟩ := unpackBundle_unpacks hsettled (eval_of_obliges hunpack)
    obtain ⟨entries, hentries, hunpacks⟩ := hunpacks extracted rfl
    rw [hentries] at hgui
    change entries.foldl (latestOf BUNDLE_GUI) none = some content at hgui
    have hexists : unpacked.guiAt = some target := by
      rw [← hat]
      unfold Host.guiAt
      rw [List.find?_cons, List.find?_cons, List.find?_cons, List.find?_cons,
        (hstaging.keeps .guiBeside nofun nofun).names,
        (hstaging.keeps .guiUsrBin nofun nofun).names]
      rfl
    rcases eval_bind hrest with ⟨_, replaced, hreplace, hend⟩ | ⟨_, _, hresult⟩
    · have hplaced := replaceGui_placed (hunpacks.gui.1.mpr (by rw [hgui]; rfl)) hexists
        hstaging.settled (hunpacks.gui.2 content hgui) hreplace
      split at hend
      · cases hend
        exact hplaced
      · cases hend
    · cases hresult
  · cases hresult

/-- An update that fails leaves the engine as it is; one that succeeds installs the engine of the
artifact, and its GUI where that can be put in place. -/
theorem update_applies (conf : Conf) (bytes : Bytes) (data : Path → Option Bytes)
    (floor : Option String) :
    (∀ result host', Eval exec (applyBytes conf bytes) (Host.boot data floor) result host' →
      EngineSafe conf bytes (Host.boot data floor) host' result) ∧
    ∀ plan host' content target,
      Eval Host.obliges (applyBytes conf bytes) (Host.boot data floor) (.ok plan) host' →
        guiIn conf bytes = some content → (Host.boot data floor).guiAt = some target →
          host'.files.read? target = some content := by
  have hsettled : ∀ path, (Host.boot data floor).files.Settled path :=
    fun path => Files.ofContents_settled data
  refine ⟨fun result host' heval => applyBytes_safe hsettled heval, ?_⟩
  intro plan host' content target heval hgui hat
  unfold applyBytes at heval
  rcases eval_bind heval with ⟨path, staged, hstage, hinstall⟩ | ⟨_, _, hresult⟩
  · obtain ⟨⟨-, hkept⟩, hready⟩ := stageEngine_ready hsettled (eval_of_obliges hstage)
    have hplaced := stageEngine_placed hsettled hgui hat hstage
    have hinstalled := (install_eval (hready path rfl) hkept (eval_of_obliges hinstall)).2
    exact (hinstalled target content (guiAt_gui hat) hplaced).read?
  · cases hresult

/-- An archive of these entries. -/
def archiveConf (entries : List (Except String Entry)) : Conf :=
  { tinyConf with entries := fun _ => .ok entries }

def archive : Bytes := [0x1f, 0x8b]

def engineEntry : Except String Entry := .ok ⟨.ok (some BUNDLE_ENGINE), ⟨[[1, 2]], none⟩⟩

def guiEntry : Except String Entry := .ok ⟨.ok (some BUNDLE_GUI), ⟨[[3]], none⟩⟩

def installed : Path → Option Bytes
  | .engine => some [9]
  | .guiBeside => some [8]
  | _ => none

/-- Both halves are replaced. -/
theorem update_applies_both :
    ∃ plan host', Eval Host.obliges (applyBytes (archiveConf [guiEntry, engineEntry]) archive)
        (Host.boot installed none) (.ok plan) host' ∧
      host'.files.read? .guiBeside = some [3] ∧ host'.files.read? .engine = some [1, 2] := by
  have hplay : ((applyBytes (archiveConf [guiEntry, engineEntry]) archive).play Host.obliges
      (List.replicate 6 .go ++ [.installedAt "/opt/unitylan-engine"] ++ List.replicate 3 .go ++
        [.installedAt "/opt/unitylan-engine"] ++ List.replicate 2 .go)
      (Host.boot installed none)).any (fun last => last.1.isOk) = true := by
    decide
  rcases hlast : (applyBytes (archiveConf [guiEntry, engineEntry]) archive).play Host.obliges
      (List.replicate 6 .go ++ [.installedAt "/opt/unitylan-engine"] ++ List.replicate 3 .go ++
        [.installedAt "/opt/unitylan-engine"] ++ List.replicate 2 .go)
      (Host.boot installed none) with _ | ⟨result, host'⟩
  · rw [hlast] at hplay
    cases hplay
  · rw [hlast] at hplay
    cases result with
    | error error => cases hplay
    | ok plan =>
        have heval := eval_of_play hlast
        have happlies := update_applies (archiveConf [guiEntry, engineEntry]) archive installed none
        obtain ⟨content, hcontent, hengine⟩ :=
          (happlies.1 _ host' (eval_of_obliges heval)).engine plan rfl
        obtain rfl : content = [1, 2] := by
          have hprovided : engineIn (archiveConf [guiEntry, engineEntry]) archive = some [1, 2] := by
            decide
          exact Option.some.inj (hcontent.symm.trans hprovided)
        exact ⟨plan, host', heval, happlies.2 plan host' [3] .guiBeside heval rfl rfl, hengine⟩

/-- The staged GUI can be neither renamed nor copied, and the engine is updated without it; and
from an archive without an engine the GUI is installed, though the update fails. -/
theorem halves_apart :
    (¬ ∀ (conf : Conf) (bytes : Bytes) (data : Path → Option Bytes) (floor : Option String)
      (result : Except String ExecPlan) (host' : Host),
        Eval exec (applyBytes conf bytes) (Host.boot data floor) result host' →
          AllOrNothing conf bytes (Host.boot data floor) host' result) ∧
      ∃ error host', Eval exec (applyBytes (archiveConf [guiEntry]) archive)
          (Host.boot installed none) (.error error) host' ∧
        host'.files.read? .guiBeside = some [3] := by
  constructor
  · intro hclaim
    have hplay : ((applyBytes (archiveConf [guiEntry, engineEntry]) archive).play exec
        (List.replicate 6 .go ++ [.installedAt "/opt/unitylan-engine", .go, .fails "", .fails "",
          .installedAt "/opt/unitylan-engine", .go, .go]) (Host.boot installed none)).any
        (fun last => last.1.isOk && last.2.files.read? .guiBeside == some [8]) = true := by
      decide
    rcases hlast : (applyBytes (archiveConf [guiEntry, engineEntry]) archive).play exec
        (List.replicate 6 .go ++ [.installedAt "/opt/unitylan-engine", .go, .fails "", .fails "",
          .installedAt "/opt/unitylan-engine", .go, .go]) (Host.boot installed none)
        with _ | ⟨result, host'⟩
    · rw [hlast] at hplay
      cases hplay
    · rw [hlast, Option.any_some, Bool.and_eq_true, beq_iff_eq] at hplay
      obtain ⟨hends, hread⟩ := hplay
      have hall := hclaim _ _ _ _ _ _ (eval_of_play hlast)
      cases result with
      | error error => cases hends
      | ok plan =>
          have hnew := hall.gui plan [3] .guiBeside rfl rfl rfl
          rw [hread] at hnew
          cases hnew
  · have hplay : ((applyBytes (archiveConf [guiEntry]) archive).play exec
        (List.replicate 3 .go ++ [.installedAt "/opt/unitylan-engine"] ++ List.replicate 3 .go)
        (Host.boot installed none)).any
          (fun last => !last.1.isOk && last.2.files.read? .guiBeside == some [3]) = true := by
      decide
    rcases hlast : (applyBytes (archiveConf [guiEntry]) archive).play exec
        (List.replicate 3 .go ++ [.installedAt "/opt/unitylan-engine"] ++ List.replicate 3 .go)
        (Host.boot installed none) with _ | ⟨result, host'⟩
    · rw [hlast] at hplay
      cases hplay
    · rw [hlast, Option.any_some, Bool.and_eq_true, beq_iff_eq] at hplay
      obtain ⟨hfails, hread⟩ := hplay
      cases result with
      | ok plan => cases hfails
      | error error => exact ⟨error, host', eval_of_play hlast, hread⟩

end UnityLan.Engine.SelfUpdate
