import Mathlib.Order.Bounds.Basic
import Mathlib.Order.Defs.LinearOrder
import UnityLan.Common.Api
import UnityLan.Engine.SelfUpdate
import UnityLan.Foundation.Runs

namespace UnityLan.Engine.SelfUpdate.Rollback

open UnityLan.Foundation

/-! The rollback floor: the highest release that was ever staged, kept in a file. -/

structure Semver where
  Version : Type
  order : LinearOrder Version
  parse : String → Option Version
  render : Version → String

def trim (text : String) : String :=
  String.ofList
    ((text.toList.dropWhile isWhitespace).reverse.dropWhile isWhitespace).reverse

namespace Semver

variable (semver : Semver)

instance : LinearOrder semver.Version := semver.order

/-- What is written is read back, and a version has no blanks around it. -/
structure Lawful : Prop where
  parse_render : ∀ version, semver.parse (semver.render version) = some version
  trim_version : ∀ text version, semver.parse text = some version → trim text = text

def isNewer (candidate current : String) : Bool :=
  match semver.parse candidate, semver.parse current with
  | some candidate, some current => decide (current < candidate)
  | _, _ => false

def readFloor (file : Option String) : Option semver.Version :=
  file.bind fun text => semver.parse (trim text)

def clearsFloor (file : Option String) (version : String) : Bool :=
  match semver.readFloor file with
  | some floor => !semver.isNewer (semver.render floor) version
  | none => true

def raiseFloor (file : Option String) (version : String) : Option String :=
  let raise :=
    match semver.readFloor file, semver.parse version with
    | some floor, some version => decide (floor < version)
    | none, some _ => true
    | _, _ => false
  if raise then some version else file

theorem isNewer_iff {candidate current : String} :
    semver.isNewer candidate current = true ↔
      ∃ c r, semver.parse candidate = some c ∧ semver.parse current = some r ∧ r < c := by
  unfold isNewer
  cases semver.parse candidate <;> cases semver.parse current <;> simp

end Semver

/-- A build of the engine: the release key baked into it, and its platform. -/
structure Build where
  semver : Semver
  releasePk : Option Key
  platform : Option Platform
  /-- What a blob holds, where it can be read and its signature is of the key. -/
  verify : Key → String → Option ReleaseManifest

variable {build : Build}

def stageManifest (build : Build) (manifest : ReleaseManifest) (running : String)
    (floor : Option String) : Option PendingUpdate × Option String :=
  if !build.semver.clearsFloor floor manifest.version then (none, floor)
  else if !build.semver.isNewer manifest.version running then (none, floor)
  else
    match build.platform with
    | none => (none, floor)
    | some platform =>
        match manifest.artifactFor platform with
        | none => (none, floor)
        | some artifact =>
            (some ⟨manifest.version, artifact⟩, build.semver.raiseFloor floor manifest.version)

def stageWith (build : Build) (releaseSigned : Option String) (running : String)
    (floor : Option String) : Option PendingUpdate × Option String :=
  match build.releasePk, releaseSigned with
  | some pk, some blob =>
      match build.verify pk blob with
      | some manifest => stageManifest build manifest running floor
      | none => (none, floor)
  | _, _ => (none, floor)

/-! What staging does. -/

theorem stageManifest_cases (build : Build) (manifest : ReleaseManifest) (running : String)
    (floor : Option String) :
    stageManifest build manifest running floor = (none, floor) ∨
      ∃ artifact, build.semver.clearsFloor floor manifest.version = true ∧
        build.semver.isNewer manifest.version running = true ∧
        stageManifest build manifest running floor =
          (some ⟨manifest.version, artifact⟩,
            build.semver.raiseFloor floor manifest.version) := by
  unfold stageManifest
  cases hclears : build.semver.clearsFloor floor manifest.version with
  | false => exact .inl rfl
  | true =>
      cases hnewer : build.semver.isNewer manifest.version running with
      | false => exact .inl rfl
      | true =>
          cases build.platform with
          | none => exact .inl rfl
          | some platform =>
              cases hartifact : manifest.artifactFor platform with
              | none =>
                  left
                  simp [hartifact]
              | some artifact =>
                  right
                  exact ⟨artifact, rfl, rfl, by simp [hartifact]⟩

theorem stageWith_cases (build : Build) (releaseSigned : Option String) (running : String)
    (floor : Option String) :
    stageWith build releaseSigned running floor = (none, floor) ∨
      ∃ version artifact, build.semver.clearsFloor floor version = true ∧
        build.semver.isNewer version running = true ∧
        stageWith build releaseSigned running floor =
          (some ⟨version, artifact⟩, build.semver.raiseFloor floor version) := by
  unfold stageWith
  split
  · split
    · rename_i manifest _
      rcases stageManifest_cases build manifest running floor with hnone | hstaged
      · exact .inl hnone
      · exact .inr ⟨manifest.version, hstaged⟩
    · exact .inl rfl
  · exact .inl rfl

/-! A device over its updates. -/

structure Device where
  running : String
  floor : Option String := none
  /-- The versions that were ever staged, the first of them first. -/
  staged : List String := []

inductive UpdateEvent
  /-- A response of the coordinator, with the blob it carries. -/
  | responded (releaseSigned : Option String)
  /-- The engine comes up on a version that was staged. -/
  | restarted (version : String)

def Device.stage (build : Build) (device : Device) (releaseSigned : Option String) :
    Option PendingUpdate :=
  (stageWith build releaseSigned device.running device.floor).1

def Device.step (build : Build) (device : Device) : UpdateEvent → Option Device
  | .responded releaseSigned =>
      some
        { device with
          floor := (stageWith build releaseSigned device.running device.floor).2
          staged := device.staged ++
            ((device.stage build releaseSigned).map PendingUpdate.version).toList }
  | .restarted version =>
      if version ∈ device.staged then some { device with running := version } else none

namespace Device

def Staged (build : Build) (device : Device) (version : build.semver.Version) : Prop :=
  ∃ text ∈ device.staged, build.semver.parse text = some version

/-- The file holds the highest version that was ever staged, and none before there is one. -/
structure FloorHighest (build : Build) (device : Device) : Prop where
  readable : ∀ text ∈ device.staged, (build.semver.parse text).isSome = true
  absent : device.staged = [] → device.floor = none
  highest : device.staged ≠ [] → ∃ floor, build.semver.readFloor device.floor = some floor ∧
    IsGreatest {version | device.Staged build version} floor

/-- What a response may change. -/
structure Sound (build : Build) (device : Device) (releaseSigned : Option String)
    (device' : Device) : Prop where
  /-- What is staged is newer than what runs, and not older than anything that was staged. -/
  newer : ∀ update, device.stage build releaseSigned = some update →
    ∃ version, build.semver.parse update.version = some version ∧
      (∃ running, build.semver.parse device.running = some running ∧ running < version) ∧
      ∀ earlier, device.Staged build earlier → earlier ≤ version
  refused : device.stage build releaseSigned = none → device'.floor = device.floor

variable {device device' : Device} {version : build.semver.Version}

theorem floorHighest_start (running : String) : FloorHighest build { running := running } where
  readable := fun _ hnone => by cases hnone
  absent := fun _ => rfl
  highest := fun hsome => absurd rfl hsome

theorem FloorHighest.bounds (hfloor : FloorHighest build device)
    (hstaged : device.Staged build version) :
    ∃ floor, build.semver.readFloor device.floor = some floor ∧ version ≤ floor := by
  obtain ⟨text, htext, hparse⟩ := hstaged
  obtain ⟨floor, hread, hgreatest⟩ := hfloor.highest (List.ne_nil_of_mem htext)
  exact ⟨floor, hread, hgreatest.2 ⟨text, htext, hparse⟩⟩

theorem clearsFloor_le (hlawful : build.semver.Lawful) {floor : build.semver.Version}
    {text : String} (hread : build.semver.readFloor device.floor = some floor)
    (hparse : build.semver.parse text = some version)
    (hclears : build.semver.clearsFloor device.floor text = true) : floor ≤ version := by
  unfold Semver.clearsFloor Semver.isNewer at hclears
  rw [hread] at hclears
  simpa [hlawful.parse_render, hparse] using hclears

theorem FloorHighest.clears (hlawful : build.semver.Lawful) (hfloor : FloorHighest build device)
    {text : String} (hparse : build.semver.parse text = some version)
    (hclears : build.semver.clearsFloor device.floor text = true) :
    ∀ earlier, device.Staged build earlier → earlier ≤ version := by
  intro earlier hearlier
  obtain ⟨floor, hread, hbelow⟩ := hfloor.bounds hearlier
  exact hbelow.trans (clearsFloor_le hlawful hread hparse hclears)

theorem FloorHighest.raised (hlawful : build.semver.Lawful) (hfloor : FloorHighest build device)
    {text : String} (hparse : build.semver.parse text = some version)
    (hclears : build.semver.clearsFloor device.floor text = true) :
    build.semver.readFloor (build.semver.raiseFloor device.floor text) = some version := by
  have hown : build.semver.readFloor (some text) = some version := by
    unfold Semver.readFloor
    rw [Option.bind_some, hlawful.trim_version text version hparse, hparse]
  unfold Semver.raiseFloor
  rw [hparse]
  by_cases hstaged : device.staged = []
  · rw [hfloor.absent hstaged]
    exact hown
  · obtain ⟨floor, hread, _⟩ := hfloor.highest hstaged
    rw [hread]
    by_cases hbelow : floor < version
    · simpa [hbelow] using hown
    · have hsame : floor = version :=
        le_antisymm (clearsFloor_le hlawful hread hparse hclears) (not_lt.mp hbelow)
      simpa [hbelow, hsame] using hread

theorem staged_snoc {text : String} (hparse : build.semver.parse text = some version)
    {later : build.semver.Version} :
    { device with staged := device.staged ++ [text] }.Staged build later ↔
      device.Staged build later ∨ later = version := by
  constructor
  · rintro ⟨found, hfound, hlater⟩
    rcases List.mem_append.mp hfound with hearlier | hown
    · exact .inl ⟨found, hearlier, hlater⟩
    · rw [List.mem_singleton.mp hown, hparse] at hlater
      exact .inr (Option.some.inj hlater).symm
  · rintro (⟨found, hfound, hlater⟩ | rfl)
    · exact ⟨found, List.mem_append_left _ hfound, hlater⟩
    · exact ⟨text, List.mem_append_right _ (List.mem_singleton_self _), hparse⟩

theorem FloorHighest.responded (hlawful : build.semver.Lawful)
    (hfloor : FloorHighest build device) {releaseSigned : Option String}
    (hstep : device.step build (.responded releaseSigned) = some device') :
    FloorHighest build device' ∧ device.Sound build releaseSigned device' := by
  cases hstep
  unfold stage
  rcases stageWith_cases build releaseSigned device.running device.floor with
    hnone | ⟨text, artifact, hclears, hnewer, hstaged⟩
  · constructor
    · rw [hnone]
      simpa using hfloor
    · constructor
      · intro update hupdate
        rw [stage, hnone] at hupdate
        cases hupdate
      · intro _
        simp [hnone]
  · obtain ⟨version, running, hparse, hrunning, hlater⟩ := build.semver.isNewer_iff.mp hnewer
    have hbound := hfloor.clears hlawful hparse hclears
    constructor
    · rw [hstaged]
      constructor
      · intro found hfound
        rcases List.mem_append.mp hfound with hearlier | hown
        · exact hfloor.readable found hearlier
        · rw [List.mem_singleton.mp hown, hparse]
          rfl
      · exact fun hempty => absurd hempty (by simp)
      · intro _
        refine ⟨version, hfloor.raised hlawful hparse hclears, ?_, ?_⟩
        · exact (staged_snoc hparse).mpr (.inr rfl)
        · intro later hstaged
          rcases (staged_snoc hparse).mp hstaged with hearlier | rfl
          · exact hbound later hearlier
          · exact le_rfl
    · constructor
      · intro update hupdate
        rw [stage, hstaged] at hupdate
        cases hupdate
        exact ⟨version, hparse, ⟨running, hrunning, hlater⟩, hbound⟩
      · intro hrefused
        rw [stage, hstaged] at hrefused
        cases hrefused

theorem FloorHighest.step (hlawful : build.semver.Lawful) (hfloor : FloorHighest build device)
    {event : UpdateEvent} (hstep : device.step build event = some device') :
    FloorHighest build device' := by
  cases event with
  | responded releaseSigned => exact (hfloor.responded hlawful hstep).1
  | restarted version =>
      dsimp only [Device.step] at hstep
      split at hstep
      · cases hstep
        exact ⟨hfloor.readable, hfloor.absent, hfloor.highest⟩
      · cases hstep

end Device

/-- Over any run of responses and restarts. -/
theorem floor_holds (hlawful : build.semver.Lawful) (running : String)
    (events : List UpdateEvent) :
    Throughout (Device.step build) { running := running } events (Device.FloorHighest build) ∧
      AtEach (Device.step build) { running := running } events fun device event device' =>
        ∀ releaseSigned, event = .responded releaseSigned →
          device.Sound build releaseSigned device' := by
  have hmeets : meets (Device.step build) (fun _ _ => true) { running := running } events = true :=
    meets_events fun _ _ => rfl
  constructor
  · exact Throughout.of_step (Device.FloorHighest build) hmeets (Device.floorHighest_start running)
      (fun _ _ _ hfloor _ hstep => hfloor.step hlawful hstep) fun _ hfloor => hfloor
  · refine AtEach.of_meets (Device.FloorHighest build) hmeets (Device.floorHighest_start running)
      (fun _ _ _ hfloor _ hstep => hfloor.step hlawful hstep) ?_
    rintro device event device' hfloor _ hstep releaseSigned rfl
    exact (hfloor.responded hlawful hstep).2

def twoReleases : Semver where
  Version := Bool
  order := inferInstance
  parse := fun text =>
    if text = "0.4.0" then some false else if text = "0.5.0" then some true else none
  render := fun later => if later then "0.5.0" else "0.4.0"

theorem twoReleases_lawful : twoReleases.Lawful where
  parse_render := by
    rintro (_ | _)
    · rfl
    · rfl
  trim_version := by
    intro text version hparse
    unfold twoReleases at hparse
    dsimp only at hparse
    split at hparse
    · subst text
      decide
    · split at hparse
      · subst text
        decide
      · cases hparse

def armed : Build where
  semver := twoReleases
  releasePk := some 1
  platform := some .linuxAmd64
  verify := fun _ blob =>
    some ⟨blob, [⟨.linuxAmd64, "https://example.com/engine.tar.gz", [7], 3⟩]⟩

theorem floor_holds_two :
    Throughout (Device.step armed) { running := "0.4.0" }
      [.responded (some "0.5.0"), .restarted "0.5.0", .responded (some "0.4.0")]
      (Device.FloorHighest armed) :=
  (floor_holds twoReleases_lawful "0.4.0" _).1

end UnityLan.Engine.SelfUpdate.Rollback
