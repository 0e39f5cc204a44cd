import UnityLan.Engine.Fw.Firewall

namespace UnityLan.Engine.Fw

open UnityLan.Foundation

/-! What a device serves after its engine was started anew. -/

/-- An exposure that has no name is named after its port. -/
def Exposed.named (e : Exposed) : Exposed :=
  if e.name.isNone then { e with name := some (defaultLabel e.port) } else e

/-- What is read of the file; a read may be refused. -/
def ExposedFile.read (file : ExposedFile) (refused : Bool) (seeds : List Exposed) :
    List Exposed :=
  match file with
  | .holding exposed => if refused then seeds else exposed
  | .absent | .damaged => seeds

/-- `Firewall::load`, and the ruleset that `init` applies. -/
def Firewall.load (seeds : List Exposed) (refused : Bool) (file : ExposedFile) : Firewall :=
  let exposed := (file.read refused seeds).map Exposed.named
  { exposed := exposed
    file := file
    applied := some ⟨none, effectiveExposed exposed, {}⟩ }

/-- The start of a process, and whether it may read the file. -/
structure Starting where
  refused : Bool := false

/-- Calls and starts; the file system fails as it likes. -/
abbrev restarting (seeds : List Exposed) : Machine FirewallSig where
  State := Firewall
  Call := FirewallCall
  Err := Stop
  Reply := FirewallReply
  Choice := Option WriteFault
  World := Starting
  start := FirewallCall.program
  exec := fun _ o fault fw => some (fw.exec { write := fault } o)
  -- A process is killed wherever it is.
  suspends := fun _ => true
  release := fun _ fw => fw
  move := fun start fw => some (.load seeds start.refused fw.file)

/-! What is remembered of a run. -/

inductive Life
  | idle
  | busy (task : Nat)
  | killed
  deriving DecidableEq

structure Saved where
  life : Life := .killed
  /-- The exposures when a call last returned `Ok`. -/
  last : List Exposed
  /-- The exposures of the calls that were cut short since. -/
  cuts : List (List Exposed) := []
  /-- Exposures were written at some time. -/
  persisted : Bool
  /-- A write failed, and none has gone through since. -/
  failed : Bool := false

namespace Saved

/-- Before the first start. -/
def opening (seeds : List Exposed) : ExposedFile → Saved
  | .holding exposed => { last := exposed, persisted := true }
  | .absent | .damaged => { last := seeds, persisted := false }

def did (g : Saved) : (o : FirewallOp) → Except Stop o.Answer → Saved
  | .write _, .ok _ => { g with persisted := true, failed := false }
  | .write _, .error _ => { g with failed := true }
  | _, _ => g

def ended (g : Saved) (exposed : List Exposed) (ok : Bool) : Saved :=
  if ok then { g with life := .idle, last := exposed, cuts := [] } else { g with life := .idle }

def Recalls (g : Saved) (exposed : List Exposed) : Prop :=
  exposed.map Exposed.named = g.last.map Exposed.named ∨
    ∃ cut ∈ g.cuts, exposed.map Exposed.named = cut.map Exposed.named

/-- What a process has to start with. -/
def Restored (g : Saved) (seeds exposed : List Exposed) : Prop :=
  if g.persisted then
    exposed = g.last.map Exposed.named ∨ ∃ cut ∈ g.cuts, exposed = cut.map Exposed.named
  else exposed = seeds.map Exposed.named

instance (g : Saved) (seeds exposed : List Exposed) : Decidable (g.Restored seeds exposed) :=
  inferInstanceAs (Decidable (if g.persisted then
    exposed = g.last.map Exposed.named ∨ ∃ cut ∈ g.cuts, exposed = cut.map Exposed.named
  else exposed = seeds.map Exposed.named))

end Saved

def saving (seeds : List Exposed) : (restarting seeds).Observer Saved where
  see g _ event fw' :=
    match event with
    | .called task _ => { g with life := .busy task }
    | .did _ o answer => g.did o answer
    | .ended _ _ result => g.ended fw'.exposed result.isOk
    | .dropped _ _ => { g with life := .killed, cuts := fw'.exposed :: g.cuts }
    | .moved _ => { g with life := .idle, failed := false }

/-- One call at a time, in a process that runs. -/
def inTurn {seeds : List Exposed} (g : Saved) (_ : Firewall) : (restarting seeds).Event → Bool
  | .called _ _ => g.life = .idle
  | .moved _ => match g.life with
      | .busy _ => false
      | _ => true
  | _ => true

/-- Once exposures were written, a process finds a file that it can read, and no call finds nothing
to change after a write failed. -/
def readable {seeds : List Exposed} (g : Saved) (fw : Firewall) : (restarting seeds).Event → Bool
  | .moved start => !g.persisted || (!start.refused && fw.file != .damaged)
  | .ended _ _ result => !g.persisted || !g.failed || !result.isOk
  | _ => true

def lasting {seeds : List Exposed} (g : Saved) (fw : Firewall) (event : (restarting seeds).Event) :
    Bool :=
  inTurn g fw event && readable g fw event

/-! How far a call is with its change. -/

inductive Stage
  /-- The exposures are as the call found them. -/
  | fresh
  | counted (before : Nat)
  | closing (name : String) (before : Nat)
  | changed
  | read (exposed : List Exposed)
  | written
  /-- The write failed. -/
  | lost

namespace Stage

def next : (μ : Stage) → (o : FirewallOp) → Except Stop o.Answer → Stage
  | .fresh, .count, .ok before => .counted before
  | .counted before, .closeNamed name, _ => .closing name before
  | .closing _ _, .removed _, .ok 0 => .fresh
  | .closing _ _, .removed _, _ => .changed
  | .fresh, .widen _ _, .ok 0 => .fresh
  | .fresh, .widen _ _, _ => .changed
  | .fresh, .put _, _ => .changed
  | .fresh, .close _ _ _, _ => .changed
  | .changed, .read .exposures, .ok exposed => .read exposed
  | .read _, .write _, .ok _ => .written
  | .read _, .write _, .error _ => .lost
  | μ, _, _ => μ

def Allows (μ : Stage) : FirewallOp → Prop
  | .put _ | .close _ _ _ | .widen _ _ => μ = .fresh
  | .closeNamed _ => ∃ before, μ = .counted before
  | .removed before => ∃ name, μ = .closing name before
  | .write exposed => μ = .read exposed
  | _ => True

def Expects : (o : FirewallOp) → Except Stop o.Answer → Prop
  | .write _, _ => True
  | _, answer => ∃ value, answer = .ok value

def Ends (μ : Stage) (ok : Bool) : Prop :=
  μ = .fresh ∨ μ = if ok then .written else .lost

def follows : Monitor FirewallSig Stage where
  allows := Allows
  expects := fun _ => Expects
  next := next

end Stage

/-! Every call goes through the stages. -/

namespace Stage

variable {α β : Type} {μ : Stage} {o : FirewallOp}

def ends (μ : Stage) (result : Except Stop α) : Prop :=
  μ.Ends result.isOk

theorem conforms_step {next : o.Answer → FirewallM α} (hallows : μ.Allows o)
    (hok : ∀ value, (next value).Conforms follows ends (μ.next o (.ok value)))
    (herror : (∀ exposed, o = .write exposed → ∀ stop, (μ.next o (.error stop)).Ends false)) :
    (ask o >>= next).Conforms follows ends μ := by
  refine ⟨hallows, fun answer hexpects => ?_⟩
  cases answer with
  | ok value => exact hok value
  | error stop =>
      cases o with
      | write exposed => exact herror exposed rfl stop
      | _ =>
          obtain ⟨_, hok⟩ := hexpects
          cases hok

theorem conforms_quiet {next : o.Answer → FirewallM α} (hallows : μ.Allows o)
    (hwrite : ∀ exposed, o ≠ .write exposed)
    (hok : ∀ value, (next value).Conforms follows ends (μ.next o (.ok value))) :
    (ask o >>= next).Conforms follows ends μ :=
  conforms_step hallows hok fun exposed heq => absurd heq (hwrite exposed)

theorem conforms_map {f : α → β} {program : FirewallM α}
    (hprogram : program.Conforms follows ends μ) : (f <$> program).Conforms follows ends μ :=
  hprogram.bind (fun _ _ hends => hends) fun _ _ hends => hends

theorem conforms_reconcile {next : Unit → FirewallM α} (hstage : μ = .fresh ∨ μ = .written)
    (hnext : (next ()).Conforms follows ends μ) :
    (reconcile >>= next).Conforms follows ends μ := by
  have hsame : ∀ {input : Input} (value : input.Value),
      μ.next (.read input) (.ok value) = μ := by
    rcases hstage with rfl | rfl <;> exact fun _ => rfl
  unfold reconcile
  rw [Prog.bind_assoc]
  refine conforms_quiet trivial (fun _ h => by cases h) fun meshAddr => ?_
  rw [hsame, Prog.bind_assoc]
  refine conforms_quiet trivial (fun _ h => by cases h) fun exposed => ?_
  rw [hsame, Prog.bind_assoc]
  refine conforms_quiet trivial (fun _ h => by cases h) fun peers => ?_
  rw [hsame]
  refine conforms_quiet trivial (fun _ h => by cases h) fun _ => ?_
  rcases hstage with rfl | rfl <;> exact hnext

theorem conforms_list {next : List ExposedPort → FirewallM α}
    (hnext : ∀ ports, (next ports).Conforms follows ends μ)
    (hstage : μ = .fresh ∨ μ = .written) : (ask .list >>= next).Conforms follows ends μ := by
  refine conforms_quiet trivial (fun _ h => by cases h) fun ports => ?_
  rcases hstage with rfl | rfl <;> exact hnext ports

theorem conforms_listing (hstage : μ = .fresh ∨ μ = .written) :
    (ask .list).Conforms follows ends μ := by
  rw [← Prog.bind_ret (ask .list)]
  exact conforms_list (fun _ => hstage) hstage

theorem conforms_install {rest : FirewallM α} (hrest : rest.Conforms follows ends .written) :
    (persist >>= fun _ => reconcile >>= fun _ => rest).Conforms follows ends .changed := by
  unfold persist
  rw [Prog.bind_assoc]
  refine conforms_quiet trivial (fun _ h => by cases h) fun exposed => ?_
  refine conforms_step rfl (fun _ => ?_) fun _ _ _ => .inr rfl
  exact conforms_reconcile (.inr rfl) hrest

theorem conforms_settle {count : Nat}
    (hstage : μ = if count = 0 then .fresh else .changed) :
    (settle count).Conforms follows ends μ := by
  unfold settle
  dsimp only
  split
  · rename_i hsome
    rw [if_neg (Nat.ne_of_gt hsome)] at hstage
    subst hstage
    exact conforms_install (conforms_list (fun _ => .inr rfl) (.inr rfl))
  · rename_i hnone
    rw [if_pos (Nat.eq_zero_of_not_pos hnone)] at hstage
    subst hstage
    exact conforms_list (fun _ => .inl rfl) (.inl rfl)

theorem conforms_admitName {name : String} {rest : FirewallM α}
    (hrest : rest.Conforms follows ends .fresh) :
    (admitName name >>= fun _ => rest).Conforms follows ends .fresh := by
  unfold admitName
  dsimp only
  split
  · exact .inl rfl
  · rw [Prog.bind_assoc]
    refine conforms_quiet trivial (fun _ h => by cases h) fun distinct => ?_
    split
    · exact .inl rfl
    · exact hrest

theorem conforms_program (call : FirewallCall) :
    call.program.Conforms follows ends .fresh := by
  cases call with
  | expose proto port scope name kind =>
      refine conforms_map (conforms_admitName ?_)
      refine conforms_quiet rfl (fun _ h => by cases h) fun _ => ?_
      exact conforms_install (conforms_listing (.inr rfl))
  | unexpose proto port scope =>
      refine conforms_map (conforms_quiet rfl (fun _ h => by cases h) fun _ => ?_)
      exact conforms_install (conforms_listing (.inr rfl))
  | exposeNamedScope name scope =>
      refine conforms_map (conforms_quiet rfl (fun _ h => by cases h) fun added => ?_)
      refine conforms_settle ?_
      cases added <;> rfl
  | unexposeNamed name =>
      refine conforms_map (conforms_quiet trivial (fun _ h => by cases h) fun before => ?_)
      refine conforms_quiet ⟨before, rfl⟩ (fun _ h => by cases h) fun _ => ?_
      refine conforms_quiet ⟨name, rfl⟩ (fun _ h => by cases h) fun removed => ?_
      refine conforms_settle ?_
      cases removed <;> rfl
  | updatePeers peers =>
      refine conforms_map (conforms_quiet trivial (fun _ h => by cases h) fun same => ?_)
      split
      · exact .inl rfl
      · refine conforms_quiet trivial (fun _ h => by cases h) fun _ => ?_
        refine conforms_quiet trivial (fun _ h => by cases h) fun _ => ?_
        exact conforms_reconcile (.inl rfl) (.inl rfl)
  | setMeshAddr addr =>
      refine conforms_map (conforms_quiet trivial (fun _ h => by cases h) fun changed => ?_)
      split
      · rw [← Prog.bind_ret reconcile]
        exact conforms_reconcile (.inl rfl) (.inl rfl)
      · exact .inl rfl

end Stage

/-! What the file has of what was left. -/

namespace Saved

variable {g : Saved} {file : ExposedFile} {exposed : List Exposed}

def Kept (g : Saved) : ExposedFile → Prop
  | .absent => g.persisted = false
  | .damaged => True
  | .holding exposed => g.persisted = true ∧ g.Recalls exposed

def Synced (g : Saved) (file : ExposedFile) (exposed : List Exposed) : Prop :=
  ∀ held, file = .holding held → g.failed = false →
    held.map Exposed.named = exposed.map Exposed.named

def Fits (g : Saved) (fw : Firewall) : Stage → Prop
  | .fresh => g.Kept fw.file ∧ g.Synced fw.file fw.exposed
  | .counted before => before = fw.exposed.length ∧ g.Kept fw.file ∧ g.Synced fw.file fw.exposed
  | .closing name before => g.Kept fw.file ∧
      ∃ old, old.length = before ∧ fw.exposed = closeNamed name old ∧ g.Synced fw.file old
  | .changed => g.Kept fw.file
  | .read exposed => exposed = fw.exposed ∧ g.Kept fw.file
  | .written => g.persisted = true ∧ g.failed = false ∧ fw.file = .holding fw.exposed
  | .lost => g.Kept fw.file ∧ g.failed = true

theorem Kept.congr {g' : Saved} (hkept : g.Kept file) (hpersisted : g'.persisted = g.persisted)
    (hrecalls : ∀ held, g.Recalls held → g'.Recalls held) : g'.Kept file := by
  cases file with
  | absent => exact hpersisted.trans hkept
  | damaged => trivial
  | holding held => exact ⟨hpersisted.trans hkept.1, hrecalls held hkept.2⟩

end Saved

section

variable {g : Saved} {fw fw' : Firewall} {μ : Stage} {o : FirewallOp} {fault : Option WriteFault}
  {answer : Except Stop o.Answer}

theorem widen_count {name : String} {scope : ExposeScope} {targets : List Exposed}
    {widened : Nat × List Exposed} :
    widened.1 ≤ (targets.foldl (widenOne name scope) widened).1 ∧
      ((targets.foldl (widenOne name scope) widened).1 = widened.1 →
        (targets.foldl (widenOne name scope) widened).2 = widened.2) := by
  induction targets generalizing widened with
  | nil => exact ⟨Nat.le_refl _, fun _ => rfl⟩
  | cons target rest ih =>
      rw [List.foldl_cons]
      unfold widenOne
      split
      · exact ih
      · obtain ⟨hmore, _⟩ := @ih (widened.1 + 1, _)
        exact ⟨Nat.le_of_succ_le hmore, fun hsame =>
          absurd (hsame ▸ hmore) (Nat.not_succ_le_self _)⟩

theorem fits_did (hfits : g.Fits fw μ) (hsound : fw.poisoned = false) (hallows : μ.Allows o)
    (hexec : fw.exec { write := fault } o = (answer, fw')) :
    Stage.Expects o answer ∧ fw'.poisoned = false ∧
      (g.did o answer).Fits fw' (μ.next o answer) := by
  have hlocked : ∀ {α : Type} {value : α} {result : Except Stop α} {after : Firewall},
      fw.underLock value after = (result, fw') → result = .ok value ∧ fw' = after := by
    intro α value result after hrun
    rcases Firewall.underLock_cases hrun with ⟨_, _⟩ | ⟨_, hvalue, hafter⟩
    · rename_i hpanicked _
      unfold Firewall.underLock at hrun
      rw [hsound, if_neg Bool.false_ne_true] at hrun
      cases hrun
      exact ⟨rfl, rfl⟩
    · exact ⟨hvalue, hafter⟩
  cases o with
  | distinct name =>
      obtain ⟨rfl, rfl⟩ := hlocked hexec
      exact ⟨⟨_, rfl⟩, hsound, by cases μ <;> exact hfits⟩
  | list =>
      obtain ⟨rfl, rfl⟩ := hlocked hexec
      exact ⟨⟨_, rfl⟩, hsound, by cases μ <;> exact hfits⟩
  | samePeers peers =>
      cases hexec
      exact ⟨⟨_, rfl⟩, hsound, by cases μ <;> exact hfits⟩
  | putPeers peers =>
      cases hexec
      exact ⟨⟨_, rfl⟩, hsound, by cases μ <;> exact hfits⟩
  | replaceMesh addr =>
      cases hexec
      exact ⟨⟨_, rfl⟩, hsound, by cases μ <;> exact hfits⟩
  | apply ruleset =>
      cases hexec
      exact ⟨⟨_, rfl⟩, hsound, by cases μ <;> exact hfits⟩
  | count =>
      obtain ⟨rfl, rfl⟩ := hlocked hexec
      refine ⟨⟨_, rfl⟩, hsound, ?_⟩
      cases μ with
      | fresh => exact ⟨rfl, hfits⟩
      | _ => exact hfits
  | read input =>
      cases input with
      | exposures =>
          obtain ⟨rfl, rfl⟩ := hlocked hexec
          refine ⟨⟨_, rfl⟩, hsound, ?_⟩
          cases μ with
          | changed => exact ⟨rfl, hfits⟩
          | _ => exact hfits
      | peers =>
          cases hexec
          exact ⟨⟨_, rfl⟩, hsound, by cases μ <;> exact hfits⟩
      | mesh =>
          cases hexec
          exact ⟨⟨_, rfl⟩, hsound, by cases μ <;> exact hfits⟩
  | put new =>
      obtain ⟨rfl, rfl⟩ := hlocked hexec
      obtain rfl := hallows
      exact ⟨⟨_, rfl⟩, hsound, hfits.1⟩
  | close proto port scope =>
      obtain ⟨rfl, rfl⟩ := hlocked hexec
      obtain rfl := hallows
      exact ⟨⟨_, rfl⟩, hsound, hfits.1⟩
  | widen name scope =>
      obtain ⟨rfl, rfl⟩ := hlocked hexec
      obtain rfl := hallows
      refine ⟨⟨_, rfl⟩, hsound, ?_⟩
      cases hwidened : (widen name scope fw.exposed).1 with
      | zero =>
          have hsame : (widen name scope fw.exposed).2 = fw.exposed := widen_count.2 hwidened
          rw [hsame]
          exact hfits
      | succ more => exact hfits.1
  | closeNamed name =>
      obtain ⟨rfl, rfl⟩ := hlocked hexec
      obtain ⟨before, rfl⟩ := hallows
      obtain ⟨hcount, hkept, hsynced⟩ := hfits
      exact ⟨⟨_, rfl⟩, hsound, hkept, fw.exposed, hcount.symm, rfl, hsynced⟩
  | removed before =>
      obtain ⟨name, rfl⟩ := hallows
      obtain ⟨hkept, old, rfl, hclosed, hsynced⟩ := hfits
      have hfewer : fw.exposed.length ≤ old.length := hclosed ▸ List.length_filter_le ..
      obtain ⟨rfl, rfl⟩ := hlocked ((if_neg (Nat.not_lt.mpr hfewer)).symm.trans hexec)
      refine ⟨⟨_, rfl⟩, hsound, ?_⟩
      cases hremoved : old.length - fw'.exposed.length with
      | zero =>
          have hlength : (closeNamed name old).length = old.length := by
            rw [← hclosed]
            omega
          have hall : closeNamed name old = old :=
            List.filter_eq_self.mpr (List.length_filter_eq_length_iff.mp hlength)
          refine ⟨hkept, ?_⟩
          rw [hclosed, hall]
          exact hsynced
      | succ more => exact hkept
  | write exposed =>
      obtain rfl := hallows
      obtain ⟨rfl, hkept⟩ := hfits
      cases hexec
      refine ⟨trivial, hsound, ?_⟩
      cases fault with
      | none => exact ⟨rfl, rfl, rfl⟩
      | some fault =>
          cases fault with
          | unopened =>
              exact ⟨hkept.congr rfl fun _ => id, rfl⟩
          | cut => exact ⟨trivial, rfl⟩

end

/-! Over a whole run. -/

section

variable {seeds : List Exposed} {g : Saved} {fw : Firewall} {file : ExposedFile}
  {exposed : List Exposed}

theorem named_named : (exposed.map Exposed.named).map Exposed.named =
    exposed.map Exposed.named := by
  rw [List.map_map]
  refine List.map_congr_left fun e _ => ?_
  unfold Exposed.named Function.comp
  split <;> simp_all

structure Saved.Lasting (g : Saved) (fw : Firewall)
    (views : Nat → Option (FirewallCall × Stage)) : Prop where
  sound : fw.poisoned = false
  alone : ∀ task call μ, views task = some (call, μ) → g.life = .busy task ∧ g.Fits fw μ
  kept : (∀ task, g.life ≠ .busy task) → g.Kept fw.file
  synced : g.life = .idle → g.Synced fw.file fw.exposed

/-- A call that returns `Ok` leaves its exposures in the file. -/
theorem kept_ended {μ : Stage} (hfits : g.Fits fw μ) (hends : μ.Ends true)
    (hready : g.persisted = true → g.failed = false) :
    (g.ended fw.exposed true).Kept fw.file ∧ g.Synced fw.file fw.exposed := by
  rcases hends with rfl | rfl
  · obtain ⟨hkept, hsynced⟩ := hfits
    refine ⟨?_, hsynced⟩
    cases hfile : fw.file with
    | absent =>
        rw [hfile] at hkept
        exact hkept
    | damaged => trivial
    | holding held =>
        rw [hfile] at hkept
        exact ⟨hkept.1, .inl (hsynced held hfile (hready hkept.1))⟩
  · obtain ⟨hpersisted, _, hfile⟩ := hfits
    rw [hfile]
    refine ⟨⟨hpersisted, .inl rfl⟩, ?_⟩
    rintro _ ⟨⟩ _
    rfl

theorem kept_dropped {μ : Stage} {life : Life} (hfits : g.Fits fw μ) :
    Saved.Kept { g with life := life, cuts := fw.exposed :: g.cuts } fw.file := by
  have hmore : ∀ held, g.Recalls held →
      Saved.Recalls { g with life := life, cuts := fw.exposed :: g.cuts } held := by
    rintro held (hlast | ⟨cut, hcut, hheld⟩)
    · exact .inl hlast
    · exact .inr ⟨cut, List.mem_cons_of_mem _ hcut, hheld⟩
  cases μ with
  | fresh => exact hfits.1.congr rfl hmore
  | counted before => exact hfits.2.1.congr rfl hmore
  | closing name before => exact hfits.1.congr rfl hmore
  | changed => exact Saved.Kept.congr hfits rfl hmore
  | read exposed => exact hfits.2.congr rfl hmore
  | written =>
      obtain ⟨hpersisted, _, hfile⟩ := hfits
      rw [hfile]
      exact ⟨hpersisted, .inr ⟨fw.exposed, List.mem_cons_self, rfl⟩⟩
  | lost => exact hfits.1.congr rfl hmore

section

variable {views : Nat → Option (FirewallCall × Stage)} {task other : Nat}

theorem Saved.Lasting.free (hlasting : g.Lasting fw views) (hfree : ∀ task, g.life ≠ .busy task) :
    views other = none := by
  by_contra hsome
  obtain ⟨view, hview⟩ := Option.ne_none_iff_exists'.mp hsome
  exact hfree other (hlasting.alone other view.1 view.2 hview).1

theorem Saved.Lasting.only (hlasting : g.Lasting fw views) (hbusy : g.life = .busy task)
    (hother : other ≠ task) : views other = none := by
  by_contra hsome
  obtain ⟨view, hview⟩ := Option.ne_none_iff_exists'.mp hsome
  have hbusy' := (hlasting.alone other view.1 view.2 hview).1
  rw [hbusy, Life.busy.injEq] at hbusy'
  exact hother hbusy'.symm

theorem Saved.Lasting.leave {g' : Saved} (hlasting : g.Lasting fw views)
    (hbusy : g.life = .busy task) (hkept : g'.Kept fw.file)
    (hsynced : g'.life = .idle → g'.Synced fw.file fw.exposed) :
    g'.Lasting fw (Function.update views task none) := by
  refine ⟨hlasting.sound, fun other call μ hview => ?_, fun _ => hkept, hsynced⟩
  obtain ⟨hne, hview⟩ := Machine.update_none_cases hview
  rw [hlasting.only hbusy hne] at hview
  cases hview

end

theorem Saved.Kept.read (hkept : g.Kept file) {refused : Bool} {held : List Exposed}
    (hreadable : g.persisted = true → refused = false) (hfile : file = .holding held) :
    file.read refused seeds = held := by
  subst hfile
  unfold ExposedFile.read
  dsimp only
  rw [hreadable hkept.1, if_neg Bool.false_ne_true]

def storing (seeds : List Exposed) :
    Machine.Discipline (restarting seeds) (saving seeds) (Machine.passes lasting) Stage where
  mon := Stage.follows
  opening := fun _ _ _ => .fresh
  post := fun _ => Stage.ends
  inv := Saved.Lasting
  conforms := fun _ _ call => Stage.conforms_program call
  called := by
    intro g fw views task call hlasting _ hallowed
    have hidle : g.life = .idle := by
      simpa [lasting, inTurn, readable, Machine.passes] using hallowed
    have hfree : ∀ task, g.life ≠ .busy task := by
      rw [hidle]
      exact fun _ hbusy => by cases hbusy
    refine ⟨hlasting.sound, ?_, fun hbusy => absurd rfl (hbusy task), fun hidle => by cases hidle⟩
    intro other call' μ hview
    rcases Machine.update_some_cases hview with ⟨rfl, hfound⟩ | ⟨_, hview⟩
    · cases hfound
      exact ⟨rfl, (hlasting.kept hfree).congr rfl fun _ => id, hlasting.synced hidle⟩
    · rw [hlasting.free hfree] at hview
      cases hview
  did := by
    intro g fw views task call μ o fault answer fw' hlasting hview hallows hexec _
    obtain ⟨hbusy, hfits⟩ := hlasting.alone task call μ hview
    obtain ⟨hexpects, hsound, hnext⟩ :=
      fits_did hfits hlasting.sound hallows (Option.some.inj hexec)
    have hlife : (g.did o answer).life = .busy task := by
      rw [← hbusy]
      cases o <;> cases answer <;> rfl
    refine ⟨hexpects, hsound, ?_, fun hfree => absurd hlife (hfree task), fun hidle => ?_⟩
    · intro other call' μ' hother
      rcases Machine.update_some_cases hother with ⟨rfl, hfound⟩ | ⟨hne, hother⟩
      · cases hfound
        exact ⟨hlife, hnext⟩
      · rw [hlasting.only hbusy hne] at hother
        cases hother
    · rw [show ((saving seeds).see g fw (.did task o answer) fw').life = .busy task from hlife]
        at hidle
      cases hidle
  ended := by
    intro g fw views task call μ result hlasting hview hpost hallowed
    obtain ⟨hbusy, hfits⟩ := hlasting.alone task call μ hview
    cases result with
    | ok reply =>
        have hready : g.persisted = true → g.failed = false := by
          intro hpersisted
          simpa [lasting, inTurn, readable, Machine.passes, Except.isOk, Except.toBool,
            hpersisted] using hallowed
        obtain ⟨hkept, hsynced⟩ := kept_ended hfits hpost hready
        exact hlasting.leave hbusy hkept fun _ => hsynced
    | error stop =>
        rcases hpost with rfl | rfl
        · exact hlasting.leave hbusy (hfits.1.congr rfl fun _ => id) fun _ => hfits.2
        · refine hlasting.leave hbusy (hfits.1.congr rfl fun _ => id) fun _ held _ hfailed => ?_
          rw [show ((saving seeds).see g fw (.ended task call (.error stop)) fw).failed = true from
            hfits.2] at hfailed
          cases hfailed
  dropped := by
    intro g fw views task call μ hlasting hview _
    obtain ⟨hbusy, hfits⟩ := hlasting.alone task call μ hview
    exact hlasting.leave hbusy (kept_dropped hfits) fun hidle => by cases hidle
  moved := by
    intro g fw views start fw' hlasting hmoved hallowed
    obtain ⟨hturn, hread⟩ := (Bool.and_eq_true _ _).mp hallowed
    have hfree : ∀ task, g.life ≠ .busy task := by
      intro task hbusy
      unfold inTurn at hturn
      rw [hbusy] at hturn
      cases hturn
    have hkept := hlasting.kept hfree
    cases hmoved
    refine ⟨rfl, fun other call μ hview => ?_, fun _ => hkept.congr rfl fun _ => id, ?_⟩
    · rw [hlasting.free hfree] at hview
      cases hview
    · intro _ held hfile _
      have hreadable : g.persisted = true → start.refused = false := by
        intro hpersisted
        unfold readable at hread
        rw [hpersisted] at hread
        simpa using ((Bool.and_eq_true _ _).mp hread).1
      have hheld : fw.file.read start.refused seeds = held := hkept.read hreadable hfile
      unfold Firewall.load
      dsimp only
      rw [hheld]
      exact named_named.symm

theorem restored_of_kept (hkept : g.Kept file) {refused : Bool}
    (hreadable : g.persisted = true → refused = false ∧ file ≠ .damaged) :
    g.Restored seeds (Firewall.load seeds refused file).exposed := by
  unfold Saved.Restored Firewall.load
  dsimp only
  cases file with
  | absent =>
      rw [show g.persisted = false from hkept, if_neg Bool.false_ne_true]
      rfl
  | damaged =>
      have hnever : g.persisted = false := by
        by_contra hpersisted
        exact (hreadable (by simpa using hpersisted)).2 rfl
      rw [hnever, if_neg Bool.false_ne_true]
      rfl
  | holding held =>
      have hread : (ExposedFile.holding held).read refused seeds = held :=
        hkept.read (fun hpersisted => (hreadable hpersisted).1) rfl
      obtain ⟨hpersisted, hrecalls⟩ := hkept
      rw [if_pos hpersisted, hread]
      exact hrecalls

theorem opening_lasting {fw : Firewall} (hfile : fw.file = file) (hsound : fw.poisoned = false) :
    (Saved.opening seeds file).Lasting fw fun _ => none where
  sound := hsound
  alone := fun _ _ _ hnone => by cases hnone
  kept := by
    intro _
    rw [hfile]
    cases file with
    | absent => rfl
    | damaged => trivial
    | holding held => exact ⟨rfl, .inl rfl⟩
  synced := fun hidle => by cases file <;> cases hidle

end

/-- In a run of calls and starts in which each process can read the file once exposures were
written, and no call finds nothing to change after a write failed, every process starts with the
exposures that were left. -/
theorem exposures_survive (seeds : List Exposed) (file : ExposedFile)
    {c : (restarting seeds).Config} {g : Saved}
    (hreach : Machine.Reach (saving seeds) (Machine.passes lasting)
      (Machine.idle (restarting seeds) { file := file }) (.opening seeds file) c g)
    (start : Starting)
    (hstart : lasting g c.shared (.moved start : (restarting seeds).Event) = true) :
    g.Restored seeds (Firewall.load seeds start.refused c.shared.file).exposed := by
  obtain ⟨views, _, hinv⟩ := (storing seeds).run (opening_lasting rfl rfl) hreach
  have hlasting : g.Lasting c.shared views := hinv
  obtain ⟨hturn, hread⟩ := (Bool.and_eq_true _ _).mp hstart
  refine restored_of_kept (hlasting.kept fun task hbusy => ?_) fun hpersisted => ?_
  · unfold inTurn at hturn
    rw [hbusy] at hturn
    cases hturn
  · unfold readable at hread
    rw [hpersisted] at hread
    simpa using hread

/-- A configured port, without a name. -/
def sshSeed : Exposed where
  proto := .tcp
  port := 22
  scope := .allPeers
  name := none
  kind := .port

def closing : List (restarting [sshSeed]).Label :=
  [.move {}, .call (.unexpose .tcp 22 .all)] ++ List.replicate 9 (.step 0 none)

def closed (c : (restarting [sshSeed]).Config) (g : Saved) : Bool :=
  decide (g.persisted = true ∧ g.last = []) &&
    lasting g c.shared (.moved {} : (restarting [sshSeed]).Event)

theorem exposures_survive_closed :
    ∃ c g, Machine.Reach (saving [sshSeed]) (Machine.passes lasting)
        (Machine.idle (restarting [sshSeed]) { file := .absent }) (.opening [sshSeed] .absent) c g ∧
      (g.persisted = true ∧ g.last = []) ∧
        g.Restored [sshSeed] (Firewall.load [sshSeed] false c.shared.file).exposed := by
  have hplay : (Machine.play (saving [sshSeed]) lasting
      (Machine.idle (restarting [sshSeed]) { file := .absent }) (.opening [sshSeed] .absent)
      closing).any (fun last => closed last.1 last.2) = true := by
    decide
  have hrun : ∃ c g, Machine.Reach (saving [sshSeed]) (Machine.passes lasting)
      (Machine.idle (restarting [sshSeed]) { file := .absent }) (.opening [sshSeed] .absent) c g ∧
        closed c g = true :=
    Machine.reach_of_play (fun _ _ _ hlasting => hlasting) hplay
  obtain ⟨c, g, hreach, hend⟩ := hrun
  obtain ⟨hclosed, hstart⟩ := (Bool.and_eq_true _ _).mp hend
  exact ⟨c, g, hreach, of_decide_eq_true hclosed,
    exposures_survive [sshSeed] .absent hreach {} hstart⟩

def reopened (c : (restarting [sshSeed]).Config) (g : Saved) : Bool :=
  inTurn g c.shared (.moved {} : (restarting [sshSeed]).Event) &&
    decide (sshSeed.named ∈ (Firewall.load [sshSeed] false c.shared.file).exposed ∧
      ¬ g.Restored [sshSeed] (Firewall.load [sshSeed] false c.shared.file).exposed)

/-- The port is closed, and the next write is cut off by the end of the process: the port is open
when the engine is started anew. -/
theorem cut_write_reopens :
    ∃ c g, Machine.Reach (saving [sshSeed]) (Machine.passes inTurn)
        (Machine.idle (restarting [sshSeed]) { file := .absent }) (.opening [sshSeed] .absent) c g ∧
      inTurn g c.shared (.moved {} : (restarting [sshSeed]).Event) = true ∧
        sshSeed.named ∈ (Firewall.load [sshSeed] false c.shared.file).exposed ∧
          ¬ g.Restored [sshSeed] (Firewall.load [sshSeed] false c.shared.file).exposed := by
  have hplay : (Machine.play (saving [sshSeed]) inTurn
      (Machine.idle (restarting [sshSeed]) { file := .absent }) (.opening [sshSeed] .absent)
      (closing ++ [.call (.expose .tcp 80 .allPeers none .port), .step 1 none, .step 1 none,
        .step 1 none, .step 1 (some .cut), .drop 1])).any (fun last => reopened last.1 last.2) =
          true := by
    decide
  have hrun : ∃ c g, Machine.Reach (saving [sshSeed]) (Machine.passes inTurn)
      (Machine.idle (restarting [sshSeed]) { file := .absent }) (.opening [sshSeed] .absent) c g ∧
        reopened c g = true :=
    Machine.reach_of_play (fun _ _ _ hturn => hturn) hplay
  obtain ⟨c, g, hreach, hend⟩ := hrun
  obtain ⟨hturn, hopen⟩ := (Bool.and_eq_true _ _).mp hend
  exact ⟨c, g, hreach, hturn, of_decide_eq_true hopen⟩

end UnityLan.Engine.Fw
