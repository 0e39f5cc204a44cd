import UnityLan.Common.Rotation
import UnityLan.Foundation.Table

namespace UnityLan.Engine

open UnityLan.Foundation

/-! The engine's pinned anchors: one file for each guild. -/

inductive IoError
  | notFound
  | other (text : String)
  deriving DecidableEq

def IoError.text : IoError → String
  | .notFound => "No such file or directory"
  | .other text => text

inductive PinFile
  | anchor (bytes : Anchor)
  /-- Bytes that are not 32. -/
  | otherLength
  deriving DecidableEq

abbrev Pins := Table GuildId PinFile

structure Disk where
  mkdir : Option IoError := none
  read : Option IoError := none
  write : Option IoError := none

inductive PinError
  | io (error : IoError)
  | notThirtyTwoBytes (guild : GuildId)
  | noRotationPath (guild : GuildId)
  deriving DecidableEq

def PinError.text : PinError → String
  | .io error => error.text
  | .notThirtyTwoBytes guild => s!"pinned anchor file for guild {guild} is not 32 bytes"
  | .noRotationPath guild =>
      s!"guild {guild} trust anchor changed with no valid rotation path — refusing (possible MITM)"

def createPrivateDir (disk : Disk) : Except PinError Unit :=
  match disk.mkdir with
  | some error => .error (.io error)
  | none => .ok ()

def readPin (disk : Disk) (pins : Pins) (guild : GuildId) : Except IoError PinFile :=
  match disk.read, pins.get? guild with
  | some error, _ => .error error
  | none, some file => .ok file
  | none, none => .error .notFound

def writePrivateAtomic (disk : Disk) (pins : Pins) (guild : GuildId) (anchor : Anchor) :
    Except PinError Pins :=
  match disk.write with
  | some error => .error (.io error)
  | none => .ok (pins.insert guild (.anchor anchor))

variable (decodes : Anchor → Bool)

def pinAnchor (disk : Disk) (pins : Pins) (guild : GuildId) (anchor : Anchor)
    (rotationChain : List (Signed RotationCert)) : Except PinError Pins := do
  createPrivateDir disk
  match readPin disk pins guild with
  -- whatever the error was
  | .error _ => writePrivateAtomic disk pins guild anchor
  | .ok .otherLength => throw (.notThirtyTwoBytes guild)
  | .ok (.anchor pinned) =>
      if pinned = anchor then return pins
      if Rotation.walkChain decodes pinned anchor rotationChain then
        writePrivateAtomic disk pins guild anchor
      else throw (.noRotationPath guild)

def loadAnchor (disk : Disk) (pins : Pins) (guild : GuildId) : Except PinError Anchor :=
  match readPin disk pins guild with
  | .error error => .error (.io error)
  | .ok .otherLength => .error (.notThirtyTwoBytes guild)
  | .ok (.anchor bytes) => .ok bytes

def loadAllPinned (unread : GuildId → Bool) (pins : Pins) : List (GuildId × Anchor) :=
  pins.rows.filterMap fun row =>
    if unread row.1 then none
    else
      match row.2 with
      | .anchor bytes => some (row.1, bytes)
      | .otherLength => none

/-! A pin that was read can only move along its guild's rotation chain. -/

theorem readPin_ok {disk : Disk} {pins : Pins} {guild : GuildId} {file : PinFile} :
    readPin disk pins guild = .ok file ↔ disk.read = none ∧ pins.get? guild = some file := by
  unfold readPin
  cases disk.read with
  | some error => simp
  | none =>
      cases pins.get? guild with
      | none => simp
      | some other => simp

theorem writePrivateAtomic_ok {disk : Disk} {pins pins' : Pins} {guild : GuildId}
    {anchor : Anchor} (hwrite : writePrivateAtomic disk pins guild anchor = .ok pins') :
    pins' = pins.insert guild (.anchor anchor) := by
  unfold writePrivateAtomic at hwrite
  cases hfails : disk.write with
  | some error =>
      rw [hfails] at hwrite
      cases hwrite
  | none =>
      rw [hfails] at hwrite
      exact (Except.ok.inj hwrite).symm

inductive Grounds (disk : Disk) (pins : Pins) (guild : GuildId) (anchor : Anchor)
    (rotationChain : List (Signed RotationCert)) : Prop
  | firstUse (error : IoError) (unread : readPin disk pins guild = .error error)
  | rotated (pinned : Anchor) (read : pins.get? guild = some (.anchor pinned))
      (path : Rotation.Path decodes rotationChain pinned anchor)

variable {decodes}

theorem pinAnchor_ok {disk : Disk} {pins pins' : Pins} {guild : GuildId} {anchor : Anchor}
    {rotationChain : List (Signed RotationCert)}
    (hpin : pinAnchor decodes disk pins guild anchor rotationChain = .ok pins') :
    pins'.get? guild = some (.anchor anchor) ∧
      (∀ other, other ≠ guild → pins'.get? other = pins.get? other) ∧
      Grounds decodes disk pins guild anchor rotationChain := by
  have hwritten : ∀ {pins'' : Pins}, writePrivateAtomic disk pins guild anchor = .ok pins'' →
      pins''.get? guild = some (.anchor anchor) ∧
        ∀ other, other ≠ guild → pins''.get? other = pins.get? other := by
    intro pins'' hwrite
    rw [writePrivateAtomic_ok hwrite]
    refine ⟨by simp, fun other hother => ?_⟩
    simp [hother]
  unfold pinAnchor createPrivateDir at hpin
  cases hmkdir : disk.mkdir with
  | some error =>
      rw [hmkdir] at hpin
      cases hpin
  | none =>
      rw [hmkdir] at hpin
      cases hread : readPin disk pins guild with
      | error error =>
          rw [hread] at hpin
          obtain ⟨hpinned, hothers⟩ := hwritten hpin
          exact ⟨hpinned, hothers, .firstUse error hread⟩
      | ok file =>
          rw [hread] at hpin
          obtain ⟨-, hfile⟩ := readPin_ok.mp hread
          cases file with
          | otherLength => cases hpin
          | anchor pinned =>
              by_cases hsame : pinned = anchor
              · have hkept : pins' = pins := by
                  simpa [hsame, bind, Except.bind, pure, Except.pure, eq_comm] using hpin
                subst hsame hkept
                exact ⟨hfile, fun _ _ => rfl, .rotated pinned hfile .refl⟩
              · by_cases hwalks : Rotation.walkChain decodes pinned anchor rotationChain = true
                · have hwrite : writePrivateAtomic disk pins guild anchor = .ok pins' := by
                    simpa [hsame, hwalks, bind, Except.bind] using hpin
                  obtain ⟨hpinned, hothers⟩ := hwritten hwrite
                  exact ⟨hpinned, hothers,
                    .rotated pinned hfile (Rotation.path_of_walkChain hwalks)⟩
                · exfalso
                  simp [hsame, hwalks, bind, Except.bind, throw, throwThe,
                    MonadExceptOf.throw] at hpin

theorem pinAnchor_refused {disk : Disk} {pins : Pins} {guild named : GuildId} {anchor : Anchor}
    {rotationChain : List (Signed RotationCert)}
    (hrefused : pinAnchor decodes disk pins guild anchor rotationChain =
      .error (.noRotationPath named)) : guild = named := by
  have hwrites : ∀ {error : PinError}, writePrivateAtomic disk pins guild anchor = .error error →
      error ≠ .noRotationPath named := by
    intro error hwrite heq
    unfold writePrivateAtomic at hwrite
    cases hfails : disk.write with
    | some failure =>
        rw [hfails, heq] at hwrite
        cases hwrite
    | none =>
        rw [hfails] at hwrite
        cases hwrite
  unfold pinAnchor createPrivateDir at hrefused
  cases hmkdir : disk.mkdir with
  | some error =>
      rw [hmkdir] at hrefused
      cases hrefused
  | none =>
      rw [hmkdir] at hrefused
      cases hread : readPin disk pins guild with
      | error error =>
          rw [hread] at hrefused
          exact (hwrites hrefused rfl).elim
      | ok file =>
          rw [hread] at hrefused
          cases file with
          | otherLength => cases hrefused
          | anchor pinned =>
              simp only [bind, Except.bind] at hrefused
              split at hrefused
              · cases hrefused
              · split at hrefused
                · exact (hwrites hrefused rfl).elim
                · cases hrefused
                  rfl

end UnityLan.Engine
