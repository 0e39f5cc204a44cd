import Mathlib.Data.UInt
import UnityLan.Foundation.Files
import UnityLan.Foundation.Pool

namespace UnityLan.Engine.SelfUpdate

open UnityLan.Foundation Prog

/-! The self-update of the engine on Linux.  Every `ApplyUpdate` request has a task of its own; they
share the staged release, the staging paths, the installed files and the marker. -/

abbrev Bytes := List UInt8

/-! The release manifest. -/

inductive Platform
  | linuxAmd64
  | windowsAmd64
  deriving DecidableEq

structure ReleaseArtifact where
  platform : Platform
  url : String
  sha256 : Bytes
  size : Nat
  deriving DecidableEq

structure ReleaseManifest where
  version : String
  artifacts : List ReleaseArtifact

def ReleaseManifest.artifactFor (manifest : ReleaseManifest) (platform : Platform) :
    Option ReleaseArtifact :=
  manifest.artifacts.find? fun artifact => artifact.platform == platform

structure PendingUpdate where
  version : String
  artifact : ReleaseArtifact
  deriving DecidableEq

structure Stream where
  chunks : List Bytes
  broken : Option String := none

structure Entry where
  path : Except String (Option String)
  data : Stream

structure Conf where
  /-- `common::VERSION`. -/
  version : String
  platform : Option Platform
  /-- How two semantic versions compare, where both can be read. -/
  precedence : String → String → Option Ordering
  digest : Bytes → Bytes
  /-- What a compressed archive holds. -/
  entries : Bytes → Except String (List (Except String Entry))
  argv : List String

def MAX_UPDATE_BYTES : Nat := 512 * 1024 * 1024

def BUNDLE_ENGINE : String := "unitylan-engine"

def BUNDLE_GUI : String := "unitylan-gui"

section

variable (conf : Conf)

def isNewer (candidate current : String) : Bool :=
  conf.precedence candidate current == some .gt

def clearsFloor (floor : Option String) (version : String) : Bool :=
  match floor with
  | some floor => !isNewer conf floor version
  | none => true

def raiseFloor (floor : Option String) (version : String) : Option String :=
  let raise :=
    match floor with
    | some floor =>
        if (conf.precedence floor floor).isSome then isNewer conf version floor
        else (conf.precedence version version).isSome
    | none => (conf.precedence version version).isSome
  if raise then some version else floor

def stageManifest (manifest : ReleaseManifest) (floor : Option String) :
    Option PendingUpdate :=
  if !clearsFloor conf floor manifest.version then none
  else if !isNewer conf manifest.version conf.version then none
  else
    conf.platform.bind fun platform =>
      (manifest.artifactFor platform).map fun artifact => ⟨manifest.version, artifact⟩

end

/-! What a task asks of the host. -/

inductive Path
  | stagedEngine
  | stagedGui
  | engine
  | guiBeside
  | guiUsrBin
  | marker
  deriving DecidableEq

def Path.text : Path → String
  | .stagedEngine => "unitylan-engine.update"
  | .stagedGui => "unitylan-gui.update"
  | .engine => "unitylan-engine"
  | .guiBeside => "unitylan-gui"
  | .guiUsrBin => "/usr/bin/unitylan-gui"
  | .marker => "update_pending"

structure ExecPlan where
  exe : String
  args : List String
  deriving DecidableEq

inductive Op
  | pendingUpdate
  | fetch (url : String)
  | createDir
  | create (path : Path)
  | write (file : FileId Path) (position : Nat) (chunk : Bytes)
  | chmod (path : Path)
  | existsAt (path : Path)
  | rename (source target : Path)
  | copy (source target : Path)
  | remove (path : Path)
  | currentExe
  | selfReplace (path : Path)
  | storePlan (plan : ExecPlan)
  | notify

def Op.Res : Op → Type
  | .pendingUpdate => Option PendingUpdate
  | .fetch _ => Except String Stream
  | .create _ => Except String (FileId Path)
  | .existsAt _ => Bool
  | .currentExe => Except String String
  | .remove _ | .storePlan _ | .notify => Unit
  | _ => Except String Unit

def FileSig : Sig where
  Op := Op
  Res := Op.Res

abbrev Update (α : Type) := Prog FileSig String α

structure Host where
  files : Files Path UInt8
  floor : Option String := none
  pending : Option PendingUpdate := none
  execSlot : Option ExecPlan := none
  restart : Bool := false

/-- What the system makes of an operation. -/
inductive Choice
  | go
  | fails (error : String)
  | answers (body : Stream)
  | installedAt (exe : String)

namespace Host

variable (host : Host)

/-- `self_replace` copies the file aside and renames the copy over the running engine. -/
def selfReplace (path : Path) : Except String Unit × Host :=
  match host.files.read? path with
  | none => (.error "No such file or directory", host)
  | some data => (.ok (), { host with files := host.files.replace .engine data })

def copy (source target : Path) : Except String Unit × Host :=
  match host.files.read? source with
  | none => (.error "No such file or directory", host)
  | some data =>
      let created := host.files.create target
      (.ok (), { host with files := created.1.write created.2 0 data })

def rename (source target : Path) : Except String Unit × Host :=
  match host.files.rename source target with
  | none => (.error "No such file or directory", host)
  | some files => (.ok (), { host with files := files })

def exec : (o : Op) → Choice → Option (o.Res × Host)
  | .pendingUpdate, _ => some (host.pending, host)
  | .fetch _, .answers body => some (.ok body, host)
  | .fetch _, .fails error => some (.error error, host)
  | .createDir, .go => some (.ok (), host)
  | .createDir, .fails error => some (.error error, host)
  | .create path, .go =>
      let created := host.files.create path
      some (.ok created.2, { host with files := created.1 })
  | .create _, .fails error => some (.error error, host)
  | .write file position chunk, .go =>
      some (.ok (), { host with files := host.files.write file position chunk })
  | .write _ _ _, .fails error => some (.error error, host)
  | .chmod path, .go =>
      some (if (host.files.names path).isSome then .ok ()
        else .error "No such file or directory", host)
  | .chmod _, .fails error => some (.error error, host)
  | .existsAt path, _ => some ((host.files.names path).isSome, host)
  | .rename source target, .go => some (host.rename source target)
  | .rename _ _, .fails error => some (.error error, host)
  | .copy source target, .go => some (host.copy source target)
  | .copy _ _, .fails error => some (.error error, host)
  | .remove path, .go => some ((), { host with files := host.files.remove path })
  | .remove _, .fails _ => some ((), host)
  | .currentExe, .installedAt exe => some (.ok exe, host)
  | .currentExe, .fails error => some (.error error, host)
  | .selfReplace path, .go => some (host.selfReplace path)
  | .selfReplace _, .fails error => some (.error error, host)
  | .storePlan plan, _ => some ((), { host with execSlot := some plan })
  | .notify, _ => some ((), { host with restart := true })
  | _, _ => none

end Host

/-! The task. -/

def ask (o : Op) : Update o.Res :=
  (.op o .ret : Prog FileSig String (FileSig.Res o))

def fallible (o : Op) (read : FileSig.Res o → Except String α) (context : String) : Update α :=
  (performOr o read).mapError fun error => context ++ ": " ++ error

def collect (size : Nat) (buf : Bytes) : List Bytes → Option String → Except String Bytes
  | [], none => .ok buf
  | [], some error => .error ("reading update body: " ++ error)
  | chunk :: rest, broken =>
      if size < buf.length + chunk.length then
        .error ("update exceeds declared size " ++ toString size ++ " bytes")
      else collect size (buf ++ chunk) rest broken

def verifyDownload (conf : Conf) (artifact : ReleaseArtifact) (buf : Bytes) :
    Except String Bytes :=
  if buf.length ≠ artifact.size then
    .error ("update size " ++ toString buf.length ++ " != declared " ++ toString artifact.size)
  else if conf.digest buf ≠ artifact.sha256 then
    .error "update SHA-256 mismatch — refusing to apply"
  else .ok buf

def downloadVerified (conf : Conf) (artifact : ReleaseArtifact) : Update Bytes :=
  if !artifact.url.startsWith "https://" then
    throw ("refusing non-HTTPS update URL: " ++ artifact.url)
  else if MAX_UPDATE_BYTES < artifact.size then
    throw ("refusing update: declared size " ++ toString artifact.size ++ " exceeds the " ++
      toString MAX_UPDATE_BYTES ++ "-byte ceiling")
  else do
    let body ← fallible (.fetch artifact.url) id ("fetching " ++ artifact.url)
    let downloaded := (collect artifact.size [] body.chunks body.broken).bind
      (verifyDownload conf artifact)
    match downloaded with
    | .error error => throw error
    | .ok buf => return buf

def makeExecutable (path : Path) : Update Unit :=
  fallible (.chmod path) id ("chmod +x on " ++ path.text)

/-- `io::copy` of at most `limit` bytes: how many were written. -/
def copyInto (file : FileId Path) (context : String) (limit position : Nat) :
    List Bytes → Option String → Update Nat
  | [], broken =>
      if limit = 0 then .ret position
      else
        match broken with
        | none => .ret position
        | some error => .fail (context ++ ": " ++ error)
  | chunk :: rest, broken =>
      if limit = 0 then .ret position
      else do
        let part := chunk.take limit
        fallible (.write file position part) id context
        copyInto file context (limit - part.length) (position + part.length) rest broken

structure Bundle where
  engine : Bool := false
  gui : Bool := false

def Entry.staged (name : Option String) : Option Path :=
  if name = some BUNDLE_ENGINE then some .stagedEngine
  else if name = some BUNDLE_GUI then some .stagedGui
  else none

def Bundle.add (bundle : Bundle) : Path → Bundle
  | .stagedEngine => { bundle with engine := true }
  | .stagedGui => { bundle with gui := true }
  | _ => bundle

def unpackEntry (bundle : Bundle) (entry : Except String Entry) : Update Bundle :=
  match entry with
  | .error error => throw ("reading update archive entry: " ++ error)
  | .ok entry =>
      match entry.path with
      | .error error => throw ("update archive entry path: " ++ error)
      | .ok name =>
          match Entry.staged name with
          | none => return bundle
          | some out => do
              let file ← fallible (.create out) id ("writing " ++ out.text)
              let written ← copyInto file ("extracting " ++ out.text) (MAX_UPDATE_BYTES + 1) 0
                entry.data.chunks entry.data.broken
              if MAX_UPDATE_BYTES < written then do
                let _ ← ask (.remove out)
                throw ("refusing update: archive entry " ++ out.text ++ " exceeds the " ++
                  toString MAX_UPDATE_BYTES ++ "-byte ceiling")
              else do
                makeExecutable out
                return bundle.add out

def unpackBundle (conf : Conf) (bytes : Bytes) : Update Bundle :=
  match conf.entries bytes with
  | .error error => throw ("reading update archive: " ++ error)
  | .ok entries => entries.foldlM unpackEntry {}

def findExisting : List Path → Update (Option Path)
  | [] => return none
  | path :: rest => do
      let found : Bool ← ask (.existsAt path)
      if found then return some path else findExisting rest

def candidates (exe : Except String String) : List Path :=
  match exe with
  | .ok _ => [.guiBeside, .guiUsrBin]
  | .error _ => [.guiUsrBin]

def moveOver (staged target : Path) : Update Unit := do
  match ← ask (.rename staged target) with
  | .ok _ => return ()
  | .error _ =>
      fallible (.copy staged target) id ("copying " ++ BUNDLE_GUI ++ " to " ++ target.text)
      ask (.remove staged)

def replaceBeside (staged : Path) : Update (Option Path) := do
  let exe ← ask .currentExe
  match ← findExisting (candidates exe) with
  | none => return none
  | some target =>
      moveOver staged target
      makeExecutable target
      return some target

def replaceGui (bundle : Bundle) : Update Unit :=
  if bundle.gui then do
    let _ ← (replaceBeside .stagedGui).attempt
    return ()
  else return ()

def isGzip (bytes : Bytes) : Bool :=
  [0x1f, 0x8b].isPrefixOf bytes

/-- `fs::write`. -/
def writeFile (path : Path) (data : Bytes) (context : String) : Update Unit := do
  let file ← fallible (.create path) id context
  fallible (.write file 0 data) id context

def stageEngine (conf : Conf) (bytes : Bytes) : Update Path :=
  if isGzip bytes then do
    let bundle ← unpackBundle conf bytes
    replaceGui bundle
    if bundle.engine then return .stagedEngine
    else throw "update archive has no unitylan-engine"
  else do
    writeFile .stagedEngine bytes ("writing " ++ Path.stagedEngine.text)
    makeExecutable .stagedEngine
    return .stagedEngine

def execPlan (currentExe : String) (argv : List String) : ExecPlan where
  exe := currentExe
  args := argv.drop 1

def applyBytes (conf : Conf) (bytes : Bytes) : Update ExecPlan := do
  let staged ← stageEngine conf bytes
  let currentExe ← fallible .currentExe id "resolving the engine's install path"
  fallible (.selfReplace staged) id "replacing the running engine binary"
  ask (.remove staged)
  return execPlan currentExe conf.argv

def apply (conf : Conf) (artifact : ReleaseArtifact) : Update ExecPlan := do
  let bytes ← downloadVerified conf artifact
  fallible .createDir id "creating the state directory"
  applyBytes conf bytes

def utf8 (text : String) : Bytes :=
  text.toUTF8.toList

def markUpdatePending (version : String) : Update Unit := do
  let _ ← (writeFile .marker (utf8 version) "").attempt

/-- The `ApplyUpdate` request and its task; it ends with the release that was applied. -/
def applyUpdate (conf : Conf) : Update PendingUpdate := do
  match ← ask .pendingUpdate with
  | none => throw "no verified update is staged"
  | some update =>
      let plan ← apply conf update.artifact
      markUpdatePending update.version
      ask (.storePlan plan)
      ask .notify
      return update

/-! The engine around the tasks. -/

inductive World
  /-- `note_update`, with the manifest that verified, if one did, and whether the floor is written. -/
  | noted (manifest : Option ReleaseManifest) (written : Bool)
  /-- The mesh loop was torn down, and takes the plan. -/
  | tornDown

def Host.move (conf : Conf) (host : Host) : World → Option Host
  | .noted manifest written =>
      let staged := manifest.bind fun manifest => stageManifest conf manifest host.floor
      some
        { host with
          pending := staged
          floor :=
            match staged with
            | some update =>
                if written then raiseFloor conf host.floor update.version else host.floor
            | none => host.floor }
  | .tornDown =>
      if host.restart then some { host with restart := false, execSlot := none } else none

/-- A task runs on a thread of its own, and is gone with the process at any point. -/
def machine (conf : Conf) : Machine FileSig where
  State := Host
  Call := Unit
  Err := String
  Reply := PendingUpdate
  Choice := Choice
  World := World
  start := fun _ => applyUpdate conf
  exec := fun _ o choice host => host.exec o choice
  suspends := fun _ => true
  release := fun _ host => host
  move := fun world host => host.move conf world

end UnityLan.Engine.SelfUpdate
