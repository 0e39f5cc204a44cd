import UnityLan.Coordinator.Machine
import UnityLan.Coordinator.Suffixes

namespace UnityLan.Coordinator

open UnityLan.Foundation Prog

/-! The labels of users, allocated by calls whose statements interleave. -/

structure LabelAsk where
  user : UserId
  handle : String
  fits : user < 2 ^ 64

def labelling (conf : Conf) : Machine sig where
  State := AppState
  Call := LabelAsk
  Err := StoreError
  Reply := String
  Choice := Choice
  World := World
  start := fun ask => Store.userLabel ask.user ask.handle
  exec := AppState.exec conf
  suspends := Op.suspends
  release := AppState.release
  move := AppState.move

namespace LabelAsk

def candidate (ask : LabelAsk) (n : Nat) : String :=
  if n = 0 then sanitizeLabel ask.handle else suffixedLabel (sanitizeLabel ask.handle) (n + 1)

def fallback (ask : LabelAsk) : String :=
  s!"user-{ask.user}"

end LabelAsk

/-! The candidates are labels. -/

theorem sanitizeLabel_starts (s : String) :
    sanitizeLabel s ≠ "" ∧ (sanitizeLabel s).toList.head? ≠ some '-' := by
  obtain ⟨hwordy, hsome⟩ := labelSource_wordy s
  have hhead := joined_head hwordy
  obtain ⟨c, rest, hjoined⟩ := List.exists_cons_of_ne_nil (joined_ne_nil hwordy hsome)
  have htake : (sanitizeLabel s).toList = c :: rest.take 62 := by
    rw [sanitizeLabel_eq, String.toList_ofList, hjoined]
    rfl
  rw [htake]
  constructor
  · intro hempty
    rw [hempty] at htake
    cases htake
  · rw [hjoined] at hhead
    exact hhead

theorem LabelAsk.candidate_isDnsLabel (ask : LabelAsk) {n : Nat} (hlater : n ≠ 0)
    (hbelow : n < MAX_LABEL_SUFFIX) : IsDnsLabel (ask.candidate n) := by
  unfold candidate
  rw [if_neg hlater]
  obtain ⟨hsome, hstarts⟩ := sanitizeLabel_starts ask.handle
  have hcap : MAX_LABEL_SUFFIX = 32 := rfl
  have hlength : MAX_LABEL_LEN = 63 := rfl
  have hdigits : (digits (n + 1)).length ≤ 2 := digits_length (by decide) (by omega)
  exact suffixedLabel_isDnsLabel (sanitizeLabel_plain _) hstarts (by omega) hsome

theorem LabelAsk.fallback_isDnsLabel (ask : LabelAsk) : IsDnsLabel ask.fallback := by
  have hfallback : ask.fallback = String.ofList (joined ["user".toList, digits ask.user]) := by
    rw [← String.toList_inj, String.toList_ofList, fallback, String.toList_append]
    simp only [joined, dashed_cons, dashed_nil, List.append_nil]
    rfl
  have hletters : "user".toList.all isLabelChar = true := by rfl
  have hdigits : (digits ask.user).length ≤ 20 :=
    digits_length (by decide) (Nat.lt_trans ask.fits (by decide))
  refine MadeOfWords.isDnsLabel ⟨_, ?_, List.cons_ne_nil _ _, ?_, hfallback⟩
  · intro word hword
    rcases List.mem_cons.mp hword with rfl | hword
    · exact ⟨by decide, List.all_eq_true.mp hletters⟩
    · rw [List.mem_singleton.mp hword]
      exact ⟨digits_ne_nil _, digits_label _⟩
  · have hword : "user".toList.length = 4 := by rfl
    have hcap : LABEL_CAP = 63 := rfl
    simp only [joined, dashed_cons, dashed_nil, List.append_nil, List.length_append,
      List.length_cons]
    omega

/-! How far a call has come. -/

inductive LabelStage
  | asking
  | trying (n : Nat)
  | looking (n : Nat)
  | falling
  | done (label : String)
  /-- The last insertion violated a constraint. -/
  | refused
  /-- A statement failed. -/
  | broken

namespace LabelStage

def next : LabelStage → (o : Op) → o.Res → LabelStage
  | .asking, .store (.userLabel _), .ok (some label) => .done label
  | .asking, .store (.userLabel _), .ok none => .trying 0
  | .looking _, .store (.userLabel _), .ok (some label) => .done label
  | .looking n, .store (.userLabel _), .ok none =>
      if n + 1 < MAX_LABEL_SUFFIX then .trying (n + 1) else .falling
  | .trying _, .store (.insertUserLabel _ label), .ok _ => .done label
  | .trying n, .store (.insertUserLabel ..), .error .uniqueViolation => .looking n
  | .falling, .store (.insertUserLabel _ label), .ok _ => .done label
  | .falling, .store (.insertUserLabel ..), .error .uniqueViolation => .refused
  | _, _, _ => .broken

def violations : LabelStage → Option Nat
  | .asking => some 0
  | .trying n => some n
  | .looking n => some (n + 1)
  | .falling => some MAX_LABEL_SUFFIX
  | _ => none

end LabelStage

structure LabelTurn where
  ask : LabelAsk
  stage : LabelStage

inductive LabelDue (ask : LabelAsk) : LabelStage → Op → Prop
  | ask : LabelDue ask .asking (.store (.userLabel ask.user))
  | attempt {n : Nat} (below : n < MAX_LABEL_SUFFIX) :
      LabelDue ask (.trying n) (.store (.insertUserLabel ask.user (ask.candidate n)))
  | look {n : Nat} (below : n < MAX_LABEL_SUFFIX) :
      LabelDue ask (.looking n) (.store (.userLabel ask.user))
  | fall : LabelDue ask .falling (.store (.insertUserLabel ask.user ask.fallback))

def labelTurns : Monitor sig LabelTurn where
  allows := fun m o => LabelDue m.ask m.stage o
  expects := fun _ _ _ => True
  next := fun m o answer => { m with stage := m.stage.next o answer }

def claimed (ask : LabelAsk) : LabelTurn → Except StoreError (Option String) → Prop
  | m, .ok (some label) => m = ⟨ask, .done label⟩
  | m, .ok none => m = ⟨ask, .falling⟩
  | m, .error _ => m = ⟨ask, .broken⟩

def labelPost (m : LabelTurn) : Except StoreError String → Prop
  | .ok label => m.stage = .done label
  | .error _ => m.stage = .refused ∨ m.stage = .broken

theorem claimLabel_conforms (ask : LabelAsk) {n left : Nat} (hleft : n + left = MAX_LABEL_SUFFIX) :
    (Store.claimLabel ask.user (sanitizeLabel ask.handle) (List.range' n left)).Conforms labelTurns
      (claimed ask) ⟨ask, if n < MAX_LABEL_SUFFIX then .trying n else .falling⟩ := by
  induction left generalizing n with
  | zero =>
      rw [if_neg (by omega)]
      exact rfl
  | succ left ih =>
      have hbelow : n < MAX_LABEL_SUFFIX := by omega
      rw [if_pos hbelow, List.range'_succ]
      refine ⟨.attempt hbelow, fun inserted _ => ?_⟩
      match inserted with
      | .ok _ => exact rfl
      | .error .uniqueViolation =>
          refine ⟨.look hbelow, fun held _ => ?_⟩
          match held with
          | .ok (some label) => exact rfl
          | .ok none => exact ih (by omega)
          | .error _ => exact rfl
      | .error (.database _) => exact rfl
      | .error (.message _) => exact rfl

theorem userLabel_conforms (ask : LabelAsk) :
    (Store.userLabel ask.user ask.handle).Conforms labelTurns labelPost ⟨ask, .asking⟩ := by
  refine ⟨.ask, fun held _ => ?_⟩
  match held with
  | .ok (some label) => exact rfl
  | .error _ => exact .inr rfl
  | .ok none =>
      have hclaim := claimLabel_conforms ask (Nat.zero_add MAX_LABEL_SUFFIX)
      rw [← List.range_eq_range'] at hclaim
      change (Store.claimLabel ask.user (sanitizeLabel ask.handle) (List.range MAX_LABEL_SUFFIX) >>=
        _).Conforms labelTurns labelPost ⟨ask, .trying 0⟩
      refine (conforms_bind _ _ _).mpr (hclaim.mono fun m result hresult => ?_)
      match result with
      | .ok (some label) => exact hresult ▸ rfl
      | .error _ => exact hresult ▸ .inr rfl
      | .ok none =>
          obtain rfl := hresult
          refine ⟨.fall, fun inserted _ => ?_⟩
          match inserted with
          | .ok _ => exact rfl
          | .error .uniqueViolation => exact .inl rfl
          | .error (.database _) => exact .inr rfl
          | .error (.message _) => exact .inr rfl

/-! What a run shows of the labels. -/

structure Labelling where
  /-- What each call was asked with. -/
  handles : Table Nat String := ∅
  /-- The insertions of each call that violated a constraint. -/
  violated : Table Nat Nat := ∅
  /-- The calls of which a statement failed. -/
  failed : List Nat := []
  allocated : List (UserId × String) := []
  answered : List (UserId × String) := []
  /-- The users of calls that ended in an error though no statement failed. -/
  refused : List UserId := []

namespace Labelling

def called (g : Labelling) (task : Nat) (ask : LabelAsk) : Labelling :=
  { g with
    handles := g.handles.insert task ask.handle
    violated := g.violated.insert task 0 }

def did (g : Labelling) (task : Nat) : (o : Op) → o.Res → Labelling
  | .store (.insertUserLabel user label), .ok _ =>
      { g with allocated := (user, label) :: g.allocated }
  | .store (.insertUserLabel ..), .error .uniqueViolation =>
      { g with violated := g.violated.modify task (· + 1) }
  | .store _, .error _ => { g with failed := task :: g.failed }
  | _, _ => g

def ended (g : Labelling) (task : Nat) (ask : LabelAsk) : Except StoreError String → Labelling
  | .ok label => { g with answered := (ask.user, label) :: g.answered }
  | .error _ => if task ∈ g.failed then g else { g with refused := ask.user :: g.refused }

end Labelling

variable (conf : Conf)

def labellingView : (labelling conf).Observer Labelling where
  see := fun g _ event _ =>
    match event with
    | .called task ask => g.called task ask
    | .did task o answer => g.did task o answer
    | .ended task ask result => g.ended task ask result
    | _ => g

def labelFree (db : Database) (user : UserId) (label : String) : Bool :=
  (db.userLabels.get? user).isNone && !db.userLabels.table.values.contains label

/-- A first candidate that is free has a label of its own, and the last one is free. -/
def labelsWhole (g : Labelling) (st : AppState) : (labelling conf).Event → Bool
  | .did task (.store (.insertUserLabel user label)) _ =>
      match g.violated.get? task with
      | none => true
      | some 0 => !labelFree st.db user label || (g.handles.get? task).all fun handle =>
          sanitizeLabel (sanitizeLabel handle) == sanitizeLabel handle
      | some n => decide (n < MAX_LABEL_SUFFIX) || labelFree st.db user label
  | _ => true

/-! The invariant. -/

/-- Every label is kept. -/
def LabelsGrow (db db' : Database) : Prop :=
  ∀ user label, db.userLabels.get? user = some label → db'.userLabels.get? user = some label

structure LabelFits (g : Labelling) (db : Database) (task : Nat) (ask : LabelAsk)
    (m : LabelTurn) : Prop where
  asked : m.ask = ask
  handle : g.handles.get? task = some ask.handle
  violated : ∀ count, m.stage.violations = some count → g.violated.get? task = some count
  held : ∀ label, m.stage = .done label → db.userLabels.get? ask.user = some label
  failed : m.stage = .broken → task ∈ g.failed
  unrefused : m.stage ≠ .refused

structure LabelsKept (start : Database) (g : Labelling) (db : Database)
    (views : Nat → Option (LabelAsk × LabelTurn)) : Prop where
  fits : ∀ task ask m, views task = some (ask, m) → LabelFits g db task ask m
  kept : LabelsGrow start db
  allocated : ∀ naming ∈ g.allocated,
    db.userLabels.get? naming.1 = some naming.2 ∧ IsDnsLabel naming.2
  answered : ∀ naming ∈ g.answered, db.userLabels.get? naming.1 = some naming.2
  unrefused : g.refused = []

section

variable {start db db' : Database} {g g' : Labelling} {task : Nat} {ask : LabelAsk}
  {m m' : LabelTurn} {views : Nat → Option (LabelAsk × LabelTurn)}

theorem LabelsGrow.refl (db : Database) : LabelsGrow db db :=
  fun _ _ => id

structure LabelSpares (task : Nat) (g g' : Labelling) : Prop where
  handles : ∀ other, other ≠ task → g'.handles.get? other = g.handles.get? other
  violated : ∀ other, other ≠ task → g'.violated.get? other = g.violated.get? other
  failed : g.failed ⊆ g'.failed

theorem LabelSpares.refl (task : Nat) (g : Labelling) : LabelSpares task g g :=
  ⟨fun _ _ => rfl, fun _ _ => rfl, List.Subset.refl _⟩

theorem LabelFits.spared {other : Nat} (hfits : LabelFits g db other ask m)
    (hspares : LabelSpares task g g') (hother : other ≠ task) (hgrow : LabelsGrow db db') :
    LabelFits g' db' other ask m where
  asked := hfits.asked
  handle := (hspares.handles other hother).trans hfits.handle
  violated := fun count hcount =>
    (hspares.violated other hother).trans (hfits.violated count hcount)
  held := fun label hdone => hgrow _ _ (hfits.held label hdone)
  failed := fun hbroken => hspares.failed (hfits.failed hbroken)
  unrefused := hfits.unrefused

theorem LabelsKept.proceed (hkept : LabelsKept start g db views)
    (hspares : LabelSpares task g g') (hgrow : LabelsGrow db db')
    (hfits : LabelFits g' db' task ask m')
    (hallocated : ∀ naming ∈ g'.allocated, naming ∈ g.allocated ∨
      db'.userLabels.get? naming.1 = some naming.2 ∧ IsDnsLabel naming.2)
    (hanswered : g'.answered = g.answered) (hrefused : g'.refused = g.refused) :
    LabelsKept start g' db' (Function.update views task (some (ask, m'))) where
  fits := by
    intro other ask' m hview
    rcases Machine.update_some_cases hview with ⟨rfl, hfound⟩ | ⟨hother, hbefore⟩
    · obtain ⟨rfl, rfl⟩ := Prod.mk.inj hfound
      exact hfits
    · exact (hkept.fits other ask' m hbefore).spared hspares hother hgrow
  kept := fun user label hlabel => hgrow user label (hkept.kept user label hlabel)
  allocated := by
    intro naming hmem
    rcases hallocated naming hmem with hold | hnew
    · exact (hkept.allocated naming hold).imp_left (hgrow _ _)
    · exact hnew
  answered := by
    intro naming hmem
    rw [hanswered] at hmem
    exact hgrow _ _ (hkept.answered naming hmem)
  unrefused := hrefused.trans hkept.unrefused

theorem LabelsKept.left (hkept : LabelsKept start g db views)
    (hspares : LabelSpares task g g')
    (hallocated : g'.allocated = g.allocated)
    (hanswered : ∀ naming ∈ g'.answered, naming ∈ g.answered ∨
      db.userLabels.get? naming.1 = some naming.2) (hrefused : g'.refused = g.refused) :
    LabelsKept start g' db (Function.update views task none) where
  fits := by
    intro other ask m hview
    obtain ⟨hother, hbefore⟩ := Machine.update_none_cases hview
    exact (hkept.fits other ask m hbefore).spared hspares hother (.refl db)
  kept := hkept.kept
  allocated := by
    rw [hallocated]
    exact hkept.allocated
  answered := by
    intro naming hmem
    rcases hanswered naming hmem with hold | hnew
    · exact hkept.answered naming hold
    · exact hnew
  unrefused := hrefused.trans hkept.unrefused

/-! The two statements. -/

theorem step_userLabel {user : UserId} {fault : Option String}
    {answer : Except StoreError (Option String)}
    (hstep : db.step (.userLabel user) fault = (answer, db')) :
    db' = db ∧
      (answer = .ok (db.userLabels.get? user) ∨ ∃ why, answer = .error (.database why)) := by
  unfold Database.step at hstep
  split at hstep
  · cases hstep
    exact ⟨rfl, .inr ⟨_, rfl⟩⟩
  · cases hstep
    exact ⟨rfl, .inl rfl⟩

theorem labelFree_iff {user : UserId} {label : String} :
    labelFree db user label = true ↔ db.userLabels.table.get? user = none ∧
      id label ∉ db.userLabels.table.values.map id := by
  simp [labelFree, UniqueTable.get?]

theorem step_insertUserLabel {user : UserId} {label : String} {fault : Option String}
    {answer : Except StoreError Unit}
    (hstep : db.step (.insertUserLabel user label) fault = (answer, db')) :
    (answer = .ok () ∧ labelFree db user label = true ∧ LabelsGrow db db' ∧
      db'.userLabels.get? user = some label) ∨
    (answer = .error .uniqueViolation ∧ labelFree db user label = false ∧ db' = db) ∨
    (∃ why, answer = .error (.database why)) ∧ db' = db := by
  unfold Database.step at hstep
  split at hstep
  · cases hstep
    exact .inr (.inr ⟨⟨_, rfl⟩, rfl⟩)
  · cases hinsert : db.userLabels.insertNew user label with
    | none =>
        simp only [Database.run, hinsert, Prod.mk.injEq] at hstep
        refine .inr (.inl ⟨hstep.1.symm, Bool.eq_false_iff.mpr fun hfree => ?_, hstep.2.symm⟩)
        unfold UniqueTable.insertNew at hinsert
        rw [dif_pos (labelFree_iff.mp hfree)] at hinsert
        cases hinsert
    | some userLabels =>
        have hrun : db.run (.insertUserLabel user label) =
            .ok ((), { db with userLabels := userLabels }) := by
          simp only [Database.run, hinsert]
        obtain ⟨hfresh, hget⟩ := Database.run_insertUserLabel hrun
        rw [hrun] at hstep
        cases hstep
        refine .inl ⟨rfl, labelFree_iff.mpr ?_, fun other held hheld => ?_, ?_⟩
        · unfold UniqueTable.insertNew at hinsert
          split at hinsert
          · assumption
          · cases hinsert
        · rw [hget, if_neg]
          · exact hheld
          · rintro rfl
            rw [hfresh] at hheld
            cases hheld
        · rw [hget, if_pos rfl]

theorem LabelFits.done {label : String} (hhandle : g.handles.get? task = some ask.handle)
    (hheld : db.userLabels.get? ask.user = some label) :
    LabelFits g db task ask ⟨ask, .done label⟩ where
  asked := rfl
  handle := hhandle
  violated := nofun
  held := by
    intro other hdone
    cases hdone
    exact hheld
  failed := nofun
  unrefused := nofun

theorem LabelFits.broken (hhandle : g.handles.get? task = some ask.handle)
    (hfailed : task ∈ g.failed) : LabelFits g db task ask ⟨ask, .broken⟩ where
  asked := rfl
  handle := hhandle
  violated := nofun
  held := nofun
  failed := fun _ => hfailed
  unrefused := nofun

theorem LabelFits.going {stage : LabelStage} {count : Nat}
    (hhandle : g.handles.get? task = some ask.handle)
    (hviolated : g.violated.get? task = some count) (hcount : stage.violations = some count) :
    LabelFits g db task ask ⟨ask, stage⟩ := by
  constructor
  case asked => rfl
  case handle => exact hhandle
  case violated =>
    intro other hother
    rw [hviolated, ← hcount, ← hother]
  case held =>
    rintro label rfl
    cases hcount
  case failed =>
    rintro rfl
    cases hcount
  case unrefused =>
    rintro rfl
    cases hcount

theorem LabelsKept.look {stage : LabelStage} {fault : Option String}
    {answer : Except StoreError (Option String)} (hkept : LabelsKept start g db views)
    (hview : views task = some (ask, ⟨ask, stage⟩))
    (hdue : LabelDue ask stage (.store (.userLabel ask.user)))
    (hstep : db.step (.userLabel ask.user) fault = (answer, db')) :
    LabelsKept start (g.did task (.store (.userLabel ask.user)) answer) db'
      (Function.update views task
        (some (ask, ⟨ask, stage.next (.store (.userLabel ask.user)) answer⟩))) := by
  have hfits := hkept.fits _ _ _ hview
  obtain ⟨rfl, rfl | ⟨why, rfl⟩⟩ := step_userLabel hstep
  · refine hkept.proceed (.refl task g) (.refl _) ?_ (fun _ => .inl) rfl rfl
    cases hheld : db'.userLabels.get? ask.user with
    | some label =>
        have hdone : stage.next (.store (.userLabel ask.user)) (.ok (some label)) =
            .done label := by
          cases hdue <;> rfl
        rw [hdone]
        exact .done hfits.handle hheld
    | none =>
        cases hdue with
        | ask => exact .going hfits.handle (hfits.violated 0 rfl) rfl
        | @look n below =>
            refine .going hfits.handle (hfits.violated (n + 1) rfl) ?_
            simp only [LabelStage.next]
            split
            · rfl
            · rw [LabelStage.violations, Option.some.injEq]
              omega
  · have hspares : LabelSpares task g { g with failed := task :: g.failed } :=
      ⟨fun _ _ => rfl, fun _ _ => rfl, List.subset_cons_self ..⟩
    refine hkept.proceed hspares (.refl _) ?_ (fun _ => .inl) rfl rfl
    have hbroken : stage.next (.store (.userLabel ask.user)) (.error (.database why)) =
        .broken := by
      cases hdue <;> rfl
    rw [hbroken]
    exact .broken hfits.handle (List.mem_cons_self ..)

theorem LabelsKept.isDnsLabel {st : AppState} {stage : LabelStage} {label : String}
    {inserted : Except StoreError Unit} (hkept : LabelsKept start g st.db views)
    (hview : views task = some (ask, ⟨ask, stage⟩))
    (hdue : LabelDue ask stage (.store (.insertUserLabel ask.user label)))
    (hfree : labelFree st.db ask.user label = true)
    (hallowed : labelsWhole conf g st
      (.did task (.store (.insertUserLabel ask.user label)) inserted) = true) :
    IsDnsLabel label := by
  have hfits := hkept.fits _ _ _ hview
  cases hdue with
  | fall => exact ask.fallback_isDnsLabel
  | @attempt n below =>
      by_cases hfirst : n = 0
      · subst hfirst
        have hviolated := hfits.violated 0 rfl
        have hown : sanitizeLabel (sanitizeLabel ask.handle) = sanitizeLabel ask.handle := by
          simpa [labelsWhole, hviolated, hfree, hfits.handle] using hallowed
        exact (madeOfWords_of_own hown).isDnsLabel
      · exact ask.candidate_isDnsLabel hfirst below

theorem LabelsKept.insert {st : AppState} {stage : LabelStage} {label : String}
    {fault : Option String} {inserted : Except StoreError Unit}
      (hkept : LabelsKept start g st.db views)
    (hview : views task = some (ask, ⟨ask, stage⟩))
    (hdue : LabelDue ask stage (.store (.insertUserLabel ask.user label)))
    (hallowed : labelsWhole conf g st
      (.did task (.store (.insertUserLabel ask.user label)) inserted) = true)
    (hstep : st.db.step (.insertUserLabel ask.user label) fault = (inserted, db')) :
    LabelsKept start (g.did task (.store (.insertUserLabel ask.user label)) inserted) db'
      (Function.update views task
        (some (ask, ⟨ask, stage.next (.store (.insertUserLabel ask.user label)) inserted⟩))) := by
  have hfits := hkept.fits _ _ _ hview
  rcases step_insertUserLabel hstep with
    ⟨rfl, hfree, hgrow, hheld⟩ | ⟨rfl, hfree, rfl⟩ | ⟨⟨why, rfl⟩, rfl⟩
  · have hlabel := hkept.isDnsLabel conf hview hdue hfree hallowed
    have hspares : LabelSpares task g { g with allocated := (ask.user, label) :: g.allocated } :=
      ⟨fun _ _ => rfl, fun _ _ => rfl, List.Subset.refl _⟩
    refine hkept.proceed hspares hgrow ?_ (fun naming hmem => ?_) rfl rfl
    · have hdone : stage.next (.store (.insertUserLabel ask.user label)) (.ok ()) =
          .done label := by
        cases hdue <;> rfl
      rw [hdone]
      exact .done hfits.handle hheld
    · rcases List.mem_cons.mp hmem with rfl | hold
      · exact .inr ⟨hheld, hlabel⟩
      · exact .inl hold
  · have hspares : LabelSpares task g { g with violated := g.violated.modify task (· + 1) } := by
      refine ⟨fun _ _ => rfl, fun other hother => ?_, List.Subset.refl _⟩
      exact (Table.get?_modify ..).trans (if_neg hother)
    refine hkept.proceed hspares (.refl _) ?_ (fun _ => .inl) rfl rfl
    cases hdue with
    | @attempt n below =>
        refine .going hfits.handle ((Table.get?_modify ..).trans ?_) rfl
        rw [if_pos rfl, hfits.violated n rfl]
        rfl
    | fall =>
        have hviolated := hfits.violated MAX_LABEL_SUFFIX rfl
        simp [labelsWhole, hviolated, hfree, MAX_LABEL_SUFFIX] at hallowed
  · have hspares : LabelSpares task g { g with failed := task :: g.failed } :=
      ⟨fun _ _ => rfl, fun _ _ => rfl, List.subset_cons_self ..⟩
    refine hkept.proceed hspares (.refl _) ?_ (fun _ => .inl) rfl rfl
    have hbroken : stage.next (.store (.insertUserLabel ask.user label))
        (.error (.database why)) = .broken := by
      cases hdue <;> rfl
    rw [hbroken]
    exact .broken hfits.handle (List.mem_cons_self ..)

end

def labelsKept (start : Database) :
    Machine.Discipline (labelling conf) (labellingView conf)
      (Machine.passes (labelsWhole conf)) LabelTurn where
  mon := labelTurns
  opening := fun _ _ ask => ⟨ask, .asking⟩
  post := fun _ m result => labelPost m result
  inv := fun g st views => LabelsKept start g st.db views
  conforms := fun _ _ ask => userLabel_conforms ask
  called := by
    intro g st views task ask hkept _ _
    have hspares : LabelSpares task g (g.called task ask) := by
      refine ⟨fun other hother => ?_, fun other hother => ?_, List.Subset.refl _⟩
      · exact (Table.get?_insert ..).trans (if_neg hother)
      · exact (Table.get?_insert ..).trans (if_neg hother)
    refine hkept.proceed hspares (.refl _) (.going ?_ ?_ rfl) (fun _ => .inl) rfl rfl
    · exact (Table.get?_insert ..).trans (if_pos rfl)
    · exact (Table.get?_insert ..).trans (if_pos rfl)
  did := by
    intro g st views task ask m o choice answer st' hkept hview hallows hexec hallowed
    obtain ⟨asked, stage⟩ := m
    obtain rfl : asked = ask := (hkept.fits _ _ _ hview).asked
    refine ⟨trivial, ?_⟩
    replace hallows : LabelDue asked stage o := hallows
    replace hexec : AppState.exec conf task o choice st = some (answer, st') := hexec
    have hdue := hallows
    cases hallows with
    | ask => exact hkept.look hview hdue (AppState.exec_store hexec)
    | look below => exact hkept.look hview hdue (AppState.exec_store hexec)
    | attempt below => exact hkept.insert conf hview hdue hallowed (AppState.exec_store hexec)
    | fall => exact hkept.insert conf hview hdue hallowed (AppState.exec_store hexec)
  ended := by
    intro g st views task ask m result hkept hview hpost _
    have hfits := hkept.fits _ _ _ hview
    cases result with
    | ok label =>
        refine hkept.left ⟨fun _ _ => rfl, fun _ _ => rfl, List.Subset.refl _⟩ rfl
          (fun naming hmem => ?_) rfl
        rcases List.mem_cons.mp hmem with rfl | hold
        · exact .inr (hfits.held label hpost)
        · exact .inl hold
    | error error =>
        have hfailed := hfits.failed (Or.resolve_left hpost hfits.unrefused)
        have hsame : g.ended task ask (.error error) = g := if_pos hfailed
        change LabelsKept start (g.ended task ask (.error error)) st.db _
        rw [hsame]
        exact hkept.left (.refl task g) rfl (fun _ => .inl) rfl
  dropped := by
    intro g st views task ask m hkept _ _
    exact hkept.left (.refl task g) rfl (fun _ => .inl) rfl
  moved := by
    intro g st views world st' hkept hmove _
    change LabelsKept start g st'.db views
    rw [(AppState.move_untouched hmove).db]
    exact hkept

/-- In every run of calls of any users, of which none allocates a cut label and none finds its
last candidate taken: the labels allocated are labels of the DNS, no two users have one label, no
label that was ever held changes, and a call ends with the label of its user, or one of its
statements failed. -/
theorem user_labels_allocated {start : AppState} {c : (labelling conf).Config} {g : Labelling}
    (hreach : Machine.Reach (labellingView conf) (Machine.passes (labelsWhole conf))
      ((labelling conf).idle start) {} c g) :
    (∀ naming ∈ g.allocated, c.shared.db.userLabels.get? naming.1 = some naming.2 ∧
      IsDnsLabel naming.2) ∧
    (∀ first second label, c.shared.db.userLabels.get? first = some label →
      c.shared.db.userLabels.get? second = some label → first = second) ∧
    LabelsGrow start.db c.shared.db ∧
    (∀ naming ∈ g.answered, c.shared.db.userLabels.get? naming.1 = some naming.2) ∧
    g.refused = [] := by
  have hstart : LabelsKept start.db {} start.db fun _ => none := by
    constructor
    · intro task ask m hview
      cases hview
    · exact .refl _
    · intro naming hmem
      cases hmem
    · intro naming hmem
      cases hmem
    · rfl
  obtain ⟨views, -, hkept⟩ := (labelsKept conf start.db).run hstart hreach
  refine ⟨hkept.allocated, fun first second label hfirst hsecond => ?_, hkept.kept,
    hkept.answered, hkept.unrefused⟩
  exact UniqueTable.key_unique hfirst hsecond rfl

def askLabel (user : Nat) (handle : String) : LabelAsk :=
  ⟨user % 2 ^ 64, handle, Nat.mod_lt _ (by decide)⟩

def takeLabels (handles : List String) : List (Machine.Label (labelling Conf.small)) :=
  handles.zipIdx.flatMap fun (handle, user) =>
    .call (askLabel user handle) :: List.replicate 3 (.step user .go)

def squatted : List String :=
  "user-100" :: "a" :: (List.range' 2 31).map fun n => s!"a-{n}"

/-- User 100 asks with a handle whose candidates are all taken. -/
theorem user_left_without_label :
    ¬ ∀ c g, Machine.Reach (labellingView Conf.small) Machine.free
      ((labelling Conf.small).idle {}) {} c g → g.refused = [] := by
  intro hclaim
  have hplay : (Machine.play (labellingView Conf.small) (fun _ _ _ => true)
      ((labelling Conf.small).idle {}) {} (takeLabels squatted ++
        .call (askLabel 100 "a") :: List.replicate 67 (.step 33 .go))).any
      (fun last => last.2.refused == [100]) = true := by
    decide +kernel
  obtain ⟨c, g, hreach, hrefused⟩ : ∃ c g, Machine.Reach (labellingView Conf.small) Machine.free
      ((labelling Conf.small).idle {}) {} c g ∧ (g.refused == [100]) = true :=
    Machine.reach_of_play (fun _ _ _ _ => trivial) hplay
  rw [hclaim c g hreach] at hrefused
  cases hrefused

theorem user_labels_allocated_twice :
    ∃ c g, Machine.Reach (labellingView Conf.small) (Machine.passes (labelsWhole Conf.small))
        ((labelling Conf.small).idle {}) {} c g ∧
      g.answered = [(1, "alice-smith-2"), (0, "alice-smith")] ∧
      (∀ naming ∈ g.allocated, c.shared.db.userLabels.get? naming.1 = some naming.2 ∧
        IsDnsLabel naming.2) ∧
      (∀ first second label, c.shared.db.userLabels.get? first = some label →
        c.shared.db.userLabels.get? second = some label → first = second) ∧
      LabelsGrow ({} : AppState).db c.shared.db ∧
      (∀ naming ∈ g.answered, c.shared.db.userLabels.get? naming.1 = some naming.2) ∧
      g.refused = [] := by
  have hplay : (Machine.play (labellingView Conf.small) (labelsWhole Conf.small)
      ((labelling Conf.small).idle {}) {} (takeLabels ["alice.smith"] ++
        .call (askLabel 1 "alice_smith") :: List.replicate 5 (.step 1 .go))).any
      (fun last => last.2.answered == [(1, "alice-smith-2"), (0, "alice-smith")]) = true := by
    decide
  obtain ⟨c, g, hreach, hanswered⟩ : ∃ c g,
      Machine.Reach (labellingView Conf.small) (Machine.passes (labelsWhole Conf.small))
        ((labelling Conf.small).idle {}) {} c g ∧
      (g.answered == [(1, "alice-smith-2"), (0, "alice-smith")]) = true :=
    Machine.reach_of_play (fun _ _ _ => id) hplay
  exact ⟨c, g, hreach, beq_iff_eq.mp hanswered, user_labels_allocated Conf.small hreach⟩

end UnityLan.Coordinator
