import Mathlib.Data.List.Basic
import Mathlib.Logic.Function.Basic

namespace UnityLan.Foundation

/-! Files under names.  A file that is open is written to wherever its writer is in it, whatever
becomes of its name; a name that is created anew stands for the same file, which is empty then. -/

structure FileId (π : Type) where
  born : π
  number : Nat
  deriving DecidableEq

structure Files (π β : Type) where
  names : π → Option (FileId π)
  contents : FileId π → List β
  /-- The number of the next file. -/
  next : Nat

def overwrite {β : Type} [Zero β] (position : Nat) (chunk old : List β) : List β :=
  old.takeD position 0 ++ chunk ++ old.drop (position + chunk.length)

theorem takeD_length {β : Type} (old : List β) (value : β) :
    old.takeD old.length value = old := by
  induction old with
  | nil => rfl
  | cons head tail ih => simp [ih]

theorem overwrite_end {β : Type} [Zero β] (chunk old : List β) :
    overwrite old.length chunk old = old ++ chunk := by
  unfold overwrite
  rw [takeD_length, List.drop_eq_nil_of_le (Nat.le_add_right ..), List.append_nil]

namespace Files

variable {π β : Type} {files files' : Files π β} {path other source target : π}

/-- Every name stands for a file of its own. -/
def ofContents (data : π → Option (List β)) : Files π β where
  names := fun path => (data path).map fun _ => ⟨path, 0⟩
  contents := fun file => (data file.born).getD []
  next := 1

def read? (files : Files π β) (path : π) : Option (List β) :=
  (files.names path).map files.contents

def Settled (files : Files π β) (path : π) : Prop :=
  ∀ name file, files.names name = some file → (file.born = path ↔ name = path)

theorem ofContents_settled (data : π → Option (List β)) : (ofContents data).Settled path := by
  intro name file hfile
  obtain ⟨_, _, rfl⟩ := Option.map_eq_some_iff.mp hfile
  exact Iff.rfl

@[simp] theorem read?_ofContents (data : π → Option (List β)) :
    (ofContents data).read? path = data path := by
  unfold read? ofContents
  rw [Option.map_map]
  cases hdata : data path with
  | none => rfl
  | some held => simp [hdata]

theorem read?_eq_some {data : List β} :
    files.read? path = some data ↔
      ∃ file, files.names path = some file ∧ files.contents file = data :=
  Option.map_eq_some_iff

structure Keeps (path : π) (files files' : Files π β) : Prop where
  names : files'.names path = files.names path
  contents : ∀ file, file.born = path → files'.contents file = files.contents file

theorem Keeps.refl : Keeps path files files :=
  ⟨rfl, fun _ _ => rfl⟩

theorem Keeps.trans {last : Files π β} (hfirst : Keeps path files files')
    (hsecond : Keeps path files' last) : Keeps path files last where
  names := hsecond.names.trans hfirst.names
  contents := fun file hborn => (hsecond.contents file hborn).trans (hfirst.contents file hborn)

theorem Keeps.read? (hkeeps : Keeps path files files') (hsettled : files.Settled path) :
    files'.read? path = files.read? path := by
  unfold Files.read?
  rw [hkeeps.names]
  cases hfile : files.names path with
  | none => rfl
  | some file => simp [hkeeps.contents file ((hsettled path file hfile).mpr rfl)]

variable [DecidableEq π]

def create (files : Files π β) (path : π) : Files π β × FileId π :=
  match files.names path with
  | some file => ({ files with contents := Function.update files.contents file [] }, file)
  | none =>
      ({ names := Function.update files.names path (some ⟨path, files.next⟩)
         contents := Function.update files.contents ⟨path, files.next⟩ []
         next := files.next + 1 },
       ⟨path, files.next⟩)

def write [Zero β] (files : Files π β) (file : FileId π) (position : Nat) (chunk : List β) :
    Files π β :=
  { files with
    contents := Function.update files.contents file
      (overwrite position chunk (files.contents file)) }

def remove (files : Files π β) (path : π) : Files π β :=
  { files with names := Function.update files.names path none }

def rename (files : Files π β) (source target : π) : Option (Files π β) :=
  (files.names source).map fun file =>
    { files with
      names := Function.update (Function.update files.names source none) target (some file) }

def replace [Zero β] (files : Files π β) (path : π) (data : List β) : Files π β :=
  let created := (files.remove path).create path
  created.1.write created.2 0 data

/-! What is created. -/

theorem create_names : (files.create path).1.names path = some (files.create path).2 := by
  unfold create
  split
  · assumption
  · exact Function.update_self ..

theorem create_names_other (hother : other ≠ path) :
    (files.create path).1.names other = files.names other := by
  unfold create
  split
  · rfl
  · exact Function.update_of_ne hother ..

theorem create_contents : (files.create path).1.contents (files.create path).2 = [] := by
  unfold create
  split
  · exact Function.update_self ..
  · exact Function.update_self ..

theorem create_born (hsettled : files.Settled other) :
    (files.create path).2.born = other ↔ path = other := by
  unfold create
  split
  · rename_i file hfile
    exact hsettled path file hfile
  · exact Iff.rfl

theorem create_contents_other (hsettled : files.Settled other) (hne : path ≠ other)
    {file : FileId π} (hborn : file.born = other) :
    (files.create path).1.contents file = files.contents file := by
  have hother : file ≠ (files.create path).2 := by
    rintro rfl
    exact hne ((create_born hsettled).mp hborn)
  revert hother
  unfold create
  split
  · exact fun hother => Function.update_of_ne hother ..
  · exact fun hother => Function.update_of_ne hother ..

theorem create_settled (hsettled : files.Settled other) :
    (files.create path).1.Settled other := by
  intro name file hfile
  by_cases hsame : name = path
  · subst hsame
    rw [create_names, Option.some.injEq] at hfile
    rw [← hfile]
    exact create_born hsettled
  · rw [create_names_other hsame] at hfile
    exact hsettled name file hfile

theorem create_keeps (hsettled : files.Settled other) (hne : path ≠ other) :
    Keeps other files (files.create path).1 where
  names := create_names_other hne.symm
  contents := fun _ hborn => create_contents_other hsettled hne hborn

theorem read?_create : (files.create path).1.read? path = some [] :=
  read?_eq_some.mpr ⟨_, create_names, create_contents⟩

/-! What is written. -/

section

variable [Zero β] {file : FileId π} {position : Nat} {chunk : List β}

theorem write_contents :
    (files.write file position chunk).contents file =
      overwrite position chunk (files.contents file) :=
  Function.update_self ..

theorem write_contents_other {found : FileId π} (hother : found ≠ file) :
    (files.write file position chunk).contents found = files.contents found :=
  Function.update_of_ne hother ..

theorem write_keeps (hborn : file.born ≠ path) :
    Keeps path files (files.write file position chunk) where
  names := rfl
  contents := by
    rintro found rfl
    apply write_contents_other
    rintro rfl
    exact hborn rfl

end

/-! What goes by another name, or by none. -/

theorem remove_names_some {name : π} {file : FileId π}
    (hfile : (files.remove path).names name = some file) : files.names name = some file := by
  by_cases hsame : name = path
  · subst hsame
    rw [show (files.remove name).names name = none from Function.update_self ..] at hfile
    cases hfile
  · exact (Function.update_of_ne hsame ..).symm.trans hfile

theorem remove_names_other (hne : other ≠ path) :
    (files.remove path).names other = files.names other :=
  Function.update_of_ne hne ..

theorem remove_keeps (hne : other ≠ path) : Keeps other files (files.remove path) where
  names := remove_names_other hne
  contents := fun _ _ => rfl

theorem remove_settled (hsettled : files.Settled other) : (files.remove path).Settled other :=
  fun name file hfile => hsettled name file (remove_names_some hfile)

theorem rename_contents (hrename : files.rename source target = some files') :
    files'.contents = files.contents := by
  obtain ⟨_, _, rfl⟩ := Option.map_eq_some_iff.mp hrename
  rfl

theorem rename_names_other (hrename : files.rename source target = some files')
    (hsource : other ≠ source) (htarget : other ≠ target) :
    files'.names other = files.names other := by
  obtain ⟨_, _, rfl⟩ := Option.map_eq_some_iff.mp hrename
  exact (Function.update_of_ne htarget ..).trans (Function.update_of_ne hsource ..)

theorem rename_keeps (hrename : files.rename source target = some files')
    (hsource : other ≠ source) (htarget : other ≠ target) : Keeps other files files' where
  names := rename_names_other hrename hsource htarget
  contents := fun file _ => congrFun (rename_contents hrename) file

theorem rename_settled (hrename : files.rename source target = some files')
    (hsource : other ≠ source) (htarget : other ≠ target) (hsettled : files.Settled other) :
    files'.Settled other := by
  obtain ⟨file, hfile, rfl⟩ := Option.map_eq_some_iff.mp hrename
  intro name found hfound
  dsimp only at hfound
  by_cases hname : name = target
  · subst hname
    rw [Function.update_self, Option.some.injEq] at hfound
    subst hfound
    constructor
    · exact fun hborn => absurd ((hsettled source file hfile).mp hborn).symm hsource
    · exact fun hname => absurd hname.symm htarget
  · rw [Function.update_of_ne hname] at hfound
    exact hsettled name found (remove_names_some hfound)

/-! What takes a name in one step. -/

section

variable [Zero β] {data : List β}

theorem read?_replace : (files.replace path data).read? path = some data := by
  refine read?_eq_some.mpr ⟨_, create_names, write_contents.trans ?_⟩
  rw [create_contents]
  simp [overwrite]

theorem replace_settled (hsettled : files.Settled other) :
    (files.replace path data).Settled other :=
  create_settled (remove_settled hsettled)

theorem replace_contents_other {file : FileId π} (hborn : file.born ≠ path) :
    (files.replace path data).contents file = files.contents file := by
  have hcreated : ((files.remove path).create path).2 = ⟨path, files.next⟩ := by
    unfold create
    rw [show (files.remove path).names path = none from Function.update_self ..]
    rfl
  have hne : file ≠ ((files.remove path).create path).2 := by
    rw [hcreated]
    rintro rfl
    exact hborn rfl
  refine (write_contents_other hne).trans ?_
  revert hne
  unfold create
  split
  · exact fun hne => Function.update_of_ne hne ..
  · exact fun hne => Function.update_of_ne hne ..

theorem replace_keeps (hsettled : files.Settled other) (hne : path ≠ other) :
    Keeps other files (files.replace path data) := by
  have hremoved : (files.remove path).Settled other := remove_settled hsettled
  refine (remove_keeps hne.symm).trans ((create_keeps hremoved hne).trans (write_keeps ?_))
  exact fun hborn => hne ((create_born hremoved).mp hborn)

end

end Files

end UnityLan.Foundation
