import UnityLan.Engine.Fw.Firewall

namespace UnityLan.Engine.Fw

open UnityLan.Foundation

/-! What is written and applied, and what is recorded, over runs of calls side by side. -/

def Ruleset.value (ruleset : Ruleset) : (input : Input) → input.Value
  | .exposures => ruleset.exposed
  | .peers => ruleset.peers
  | .mesh => ruleset.meshAddr

def Firewall.Installed (fw : Firewall) (input : Input) : Prop :=
  fw.applied.map (fun ruleset => ruleset.value input) = some (fw.ruleset.value input)

instance (fw : Firewall) (input : Input) : Decidable (fw.Installed input) :=
  inferInstanceAs (Decidable (_ = _))

theorem Firewall.applied_of_installed {fw : Firewall} (hinstalled : ∀ input, fw.Installed input) :
    fw.applied = some fw.ruleset := by
  have hmesh := hinstalled .mesh
  have hexposed := hinstalled .exposures
  have hpeers := hinstalled .peers
  unfold Installed at hmesh hexposed hpeers
  obtain ⟨ruleset, happlied, hmesh⟩ := Option.map_eq_some_iff.mp hmesh
  rw [happlied, Option.map_some, Option.some.injEq] at hexposed hpeers
  rw [happlied]
  congr 1
  obtain ⟨meshAddr, exposed, peers⟩ := ruleset
  cases hmesh
  cases hexposed
  cases hpeers
  rfl

theorem Firewall.installed_congr {fw fw' : Firewall} {input : Input}
    (happlied : fw'.applied = fw.applied) (hvalue : fw'.value input = fw.value input) :
    fw'.Installed input ↔ fw.Installed input := by
  unfold Installed
  rw [happlied]
  cases input with
  | exposures => rw [show fw'.ruleset.value .exposures = fw.ruleset.value .exposures from
      congrArg effectiveExposed hvalue]
  | peers => rw [show fw'.ruleset.value .peers = fw.ruleset.value .peers from hvalue]
  | mesh => rw [show fw'.ruleset.value .mesh = fw.ruleset.value .mesh from hvalue]

/-! The order of the changes.  Every input has a version, which counts the changes of it. -/

inductive Latest
  | running (task : Nat)
  | returned (ok : Bool)
  deriving DecidableEq

def Latest.leave (latest : Latest) (task : Nat) (ok : Bool) : Latest :=
  if latest = .running task then .returned ok else latest

structure Ledger where
  version : Input → Nat
  /-- The versions that the ruleset applied last was computed from. -/
  installed : Input → Nat
  /-- The version of the exposures that was written last. -/
  written : Nat
  /-- The versions that a call has read last. -/
  read : Nat → Input → Nat
  /-- The most recent call on an input. -/
  latest : Input → Latest

def FirewallOp.spares : (o : FirewallOp) → Except Stop o.Answer → Bool
  | .widen _ _, .ok 0 => true
  | .removed _, .ok 0 => true
  | .samePeers _, .ok true => true
  | .replaceMesh _, .ok false => true
  | _, _ => false

namespace Ledger

/-- What is in place at the start is of the first version. -/
def start (fw : Firewall) : Ledger where
  version := fun _ => 1
  installed := fun input => if fw.Installed input then 1 else 0
  written := if fw.file = .holding fw.exposed then 1 else 0
  read := fun _ _ => 0
  latest := fun input =>
    .returned (decide (fw.Installed input ∧ (input = .exposures → fw.file = .holding fw.exposed)))

def touch (g : Ledger) (task : Nat) (input : Input) (changed : Bool) : Ledger :=
  { g with
    version := Function.update g.version input (g.version input + changed.toNat)
    latest := Function.update g.latest input (.running task) }

theorem touch_version (g : Ledger) (task : Nat) (input : Input) (changed : Bool) :
    (g.touch task input changed).version =
      Function.update g.version input (g.version input + changed.toNat) := rfl

theorem touch_latest (g : Ledger) (task : Nat) (input : Input) (changed : Bool) :
    (g.touch task input changed).latest = Function.update g.latest input (.running task) := rfl

def reads (g : Ledger) (task : Nat) (input : Input) : Ledger :=
  { g with
    read := Function.update g.read task (Function.update (g.read task) input (g.version input)) }

def did (g : Ledger) (task : Nat) (fw fw' : Firewall) :
    (o : FirewallOp) → Except Stop o.Answer → Ledger
  | .read input, .ok _ => g.reads task input
  | .write _, .ok _ => { g with written := g.read task .exposures }
  | .write _, .error (.unwritten .cut) => { g with written := 0 }
  | .apply _, .ok _ => { g with installed := g.read task }
  | o, answer =>
      match o.touched answer with
      | some input => g.touch task input (fw'.value input != fw.value input)
      | none => g

def leave (g : Ledger) (task : Nat) (ok : Bool) : Ledger :=
  { g with latest := fun input => (g.latest input).leave task ok }

def Settled (g : Ledger) (input : Input) : Prop :=
  g.installed input = g.version input ∧ (input = .exposures → g.written = g.version .exposures)

instance (g : Ledger) (input : Input) : Decidable (g.Settled input) :=
  inferInstanceAs (Decidable (_ ∧ _))

/-- Nothing is written or applied over what was read later, no call finds an input as it is to be
while that is not in place, and the file is not damaged once the most recent call has left it. -/
def Orderly (g : Ledger) (task : Nat) : (o : FirewallOp) → Except Stop o.Answer → Prop
  | .write _, .ok _ => g.written ≤ g.read task .exposures
  | .write _, .error (.unwritten .cut) =>
      g.latest .exposures = .running task ∨ g.written ≠ g.version .exposures
  | .apply _, .ok _ => ∀ input, g.installed input ≤ g.read task input
  | o, answer => o.spares answer = true → ∀ input, o.touched answer = some input → g.Settled input

end Ledger

/-- The ledger of a run. -/
def ledger : firewall.Observer Ledger where
  see g fw event fw' :=
    match event with
    | .did task o answer => g.did task fw fw' o answer
    | .ended task _ result => g.leave task result.isOk
    | .dropped task _ => g.leave task false
    | _ => g

/-- Every step of the run is in order. -/
def inOrder (g : Ledger) (_ : Firewall) : firewall.Event → Prop
  | .did task o answer => g.Orderly task o answer
  | _ => True

/-! What a call has still to write and to apply, and what it has read for that. -/

structure Holding where
  owes : Input → Bool := fun _ => false
  owesFile : Bool := false
  seen : (input : Input) → Option input.Value := fun _ => none

namespace Holding

def touch (μ : Holding) (input : Input) (owing : Bool) : Holding where
  owes := Function.update μ.owes input owing
  owesFile := if input = .exposures then owing else μ.owesFile
  seen := Function.update μ.seen input none

theorem touch_owes (μ : Holding) (input : Input) (owing : Bool) :
    (μ.touch input owing).owes = Function.update μ.owes input owing := rfl

theorem touch_owesFile (μ : Holding) (input : Input) (owing : Bool) :
    (μ.touch input owing).owesFile = if input = .exposures then owing else μ.owesFile := rfl

theorem touch_seen (μ : Holding) (input : Input) (owing : Bool) :
    (μ.touch input owing).seen = Function.update μ.seen input none := rfl

def next (μ : Holding) : (o : FirewallOp) → Except Stop o.Answer → Holding
  | .read input, .ok value => { μ with seen := Function.update μ.seen input (some value) }
  | .write _, .ok _ => { μ with owesFile := false }
  | .apply _, .ok _ => { μ with owes := fun _ => false }
  | o, answer =>
      match o.touched answer with
      | some input => μ.touch input (!o.spares answer)
      | none => μ

def Allows (μ : Holding) : FirewallOp → Prop
  | .write exposed => μ.seen .exposures = some exposed ∧ μ.owesFile = true
  | .apply ruleset =>
      ∃ meshAddr exposed peers, μ.seen .mesh = some meshAddr ∧
        μ.seen .exposures = some exposed ∧ μ.seen .peers = some peers ∧
        ruleset = ⟨meshAddr, effectiveExposed exposed, peers⟩
  | _ => True

def Free (μ : Holding) : Prop :=
  (∀ input, μ.owes input = false) ∧ μ.owesFile = false

end Holding

def holding : Monitor FirewallSig Holding where
  allows := Holding.Allows
  expects := fun _ _ _ => True
  next := Holding.next

section

variable {μ : Holding} {α : Type}

theorem conforms_ask {o : FirewallOp} {post : Holding → o.Answer → Prop} (hallows : μ.Allows o)
    (hpost : ∀ answer, post (μ.next o (.ok answer)) answer) :
    (ask o).Conforms holding (Prog.returns post) μ := by
  refine ⟨hallows, fun answer _ => ?_⟩
  cases answer with
  | ok value => exact hpost value
  | error error => trivial

theorem conforms_persist (howes : μ.owesFile = true) :
    persist.Conforms holding (Prog.returns fun μ' _ => μ'.owesFile = false) μ := by
  apply Prog.Conforms.through fun μ' exposed =>
    μ'.seen .exposures = some exposed ∧ μ'.owesFile = true
  · exact conforms_ask trivial fun _ => ⟨rfl, howes⟩
  · intro μ' exposed hseen
    exact conforms_ask hseen fun _ => rfl

theorem conforms_reconcile (hwritten : μ.owesFile = false) :
    reconcile.Conforms holding (Prog.returns fun μ' _ => μ'.Free) μ := by
  unfold reconcile
  apply Prog.Conforms.through fun μ' meshAddr =>
    μ'.owesFile = false ∧ μ'.seen .mesh = some meshAddr
  · exact conforms_ask trivial fun _ => ⟨hwritten, rfl⟩
  · intro μ' meshAddr ⟨hwritten, hmesh⟩
    apply Prog.Conforms.through fun μ' exposed =>
      μ'.owesFile = false ∧ μ'.seen .mesh = some meshAddr ∧ μ'.seen .exposures = some exposed
    · exact conforms_ask trivial fun _ => ⟨hwritten, hmesh, rfl⟩
    · intro μ' exposed ⟨hwritten, hmesh, hexposed⟩
      apply Prog.Conforms.through fun μ' peers =>
        μ'.owesFile = false ∧ μ'.seen .mesh = some meshAddr ∧
          μ'.seen .exposures = some exposed ∧ μ'.seen .peers = some peers
      · exact conforms_ask trivial fun _ => ⟨hwritten, hmesh, hexposed, rfl⟩
      · intro μ' peers ⟨hwritten, hmesh, hexposed, hpeers⟩
        have hread : μ'.Allows (.apply ⟨meshAddr, effectiveExposed exposed, peers⟩) :=
          ⟨meshAddr, exposed, peers, hmesh, hexposed, hpeers, rfl⟩
        exact conforms_ask hread fun _ => ⟨fun _ => rfl, hwritten⟩

theorem conforms_list (hfree : μ.Free) :
    (ask .list).Conforms holding (Prog.returns fun μ' _ => μ'.Free) μ :=
  conforms_ask trivial fun _ => hfree

theorem conforms_install {rest : FirewallM α} (howes : μ.owesFile = true)
    (hrest : ∀ μ', μ'.Free → rest.Conforms holding (Prog.returns fun μ' _ => μ'.Free) μ') :
    (persist >>= fun _ => reconcile >>= fun _ => rest).Conforms holding
      (Prog.returns fun μ' _ => μ'.Free) μ := by
  apply (conforms_persist howes).andThen
  intro μ' _ hwritten
  apply (conforms_reconcile hwritten).andThen
  intro μ' _ hfree
  exact hrest μ' hfree

theorem conforms_settle {changed : Nat} (hspared : changed = 0 → μ.Free)
    (howes : 0 < changed → μ.owesFile = true) :
    (settle changed).Conforms holding (Prog.returns fun μ' _ => μ'.Free) μ := by
  have hlast : ∀ μ' : Holding, μ'.Free →
      (do let exposed ← ask .list; return (changed, exposed)).Conforms holding
        (Prog.returns fun μ' _ => μ'.Free) μ' := by
    intro μ' hfree
    apply (conforms_list hfree).andThen
    intro μ' exposed hfree
    exact hfree
  unfold settle
  dsimp only
  split
  · rename_i hsome
    exact conforms_install (howes hsome) hlast
  · rename_i hnone
    exact hlast μ (hspared (by omega))

theorem conforms_admitName (name : String) (hfree : μ.Free) :
    (admitName name).Conforms holding (Prog.returns fun μ' _ => μ'.Free) μ := by
  unfold admitName
  dsimp only
  split
  · trivial
  · apply Prog.Conforms.through fun μ' _ => μ'.Free
    · exact conforms_ask trivial fun _ => hfree
    · intro μ' distinct hfree
      split
      · trivial
      · exact hfree

theorem conforms_map {β : Type} {program : FirewallM α} {f : α → β}
    (hprogram : program.Conforms holding (Prog.returns fun μ' _ => μ'.Free) μ) :
    (f <$> program).Conforms holding (Prog.returns fun μ' _ => μ'.Free) μ :=
  hprogram.andThen fun _ _ hfree => hfree

theorem conforms_change {o : FirewallOp} {next : o.Answer → FirewallM α} (hallows : μ.Allows o)
    (hnext : ∀ answer, (next answer).Conforms holding (Prog.returns fun μ' _ => μ'.Free)
      (μ.next o (.ok answer))) :
    (ask o >>= next).Conforms holding (Prog.returns fun μ' _ => μ'.Free) μ := by
  apply Prog.Conforms.through fun μ' answer => μ' = μ.next o (.ok answer)
  · exact conforms_ask hallows fun _ => rfl
  · rintro μ' answer rfl
    exact hnext answer

theorem free_start : ({} : Holding).Free :=
  ⟨fun _ => rfl, rfl⟩

theorem conforms_program (call : FirewallCall) :
    call.program.Conforms holding (Prog.returns fun μ' _ => μ'.Free) {} := by
  cases call with
  | expose proto port scope name kind =>
      apply conforms_map
      apply (conforms_admitName _ free_start).andThen
      intro μ' _ _
      refine conforms_change trivial fun _ => ?_
      exact conforms_install rfl fun _ => conforms_list
  | unexpose proto port scope =>
      apply conforms_map
      refine conforms_change trivial fun _ => ?_
      exact conforms_install rfl fun _ => conforms_list
  | exposeNamedScope name scope =>
      apply conforms_map
      refine conforms_change trivial fun added => ?_
      cases added with
      | zero =>
          apply conforms_settle _ (fun hsome => absurd hsome (Nat.lt_irrefl 0))
          exact fun _ => ⟨fun input => by cases input <;> rfl, rfl⟩
      | succ more => exact conforms_settle (fun hnone => nomatch hnone) fun _ => rfl
  | unexposeNamed name =>
      apply conforms_map
      refine conforms_change trivial fun before => ?_
      refine conforms_change trivial fun _ => ?_
      refine conforms_change trivial fun removed => ?_
      cases removed with
      | zero =>
          apply conforms_settle _ (fun hsome => absurd hsome (Nat.lt_irrefl 0))
          exact fun _ => ⟨fun input => by cases input <;> rfl, rfl⟩
      | succ more => exact conforms_settle (fun hnone => nomatch hnone) fun _ => rfl
  | updatePeers peers =>
      apply conforms_map
      refine conforms_change trivial fun same => ?_
      cases same with
      | true => exact ⟨fun input => by cases input <;> rfl, rfl⟩
      | false =>
          refine conforms_change trivial fun _ => ?_
          refine conforms_change trivial fun _ => ?_
          apply (conforms_reconcile rfl).andThen
          intro μ' _ hfree
          exact hfree
  | setMeshAddr addr =>
      apply conforms_map
      refine conforms_change trivial fun changed => ?_
      cases changed with
      | true => exact conforms_reconcile rfl
      | false => exact ⟨fun input => by cases input <;> rfl, rfl⟩

end

/-! What holds between the ledger, the firewall and the calls. -/

abbrev Views := Nat → Option (FirewallCall × Holding)

def Pending (views : Views) (owing : Holding → Bool) : Latest → Prop
  | .returned ok => ok = false
  | .running task => ∃ call μ, views task = some (call, μ) ∧ owing μ = true

section

variable {views : Views} {owing : Holding → Bool} {latest : Latest} {task : Nat}
  {call : FirewallCall} {μ μ' : Holding}

theorem Pending.enter (hpending : Pending views owing latest) (hfree : views task = none)
    (view : FirewallCall × Holding) :
    Pending (Function.update views task (some view)) owing latest := by
  cases latest with
  | returned ok => exact hpending
  | running other =>
      obtain ⟨call, μ, hview, howing⟩ := hpending
      have hother : other ≠ task := by
        rintro rfl
        rw [hfree] at hview
        cases hview
      exact ⟨call, μ, by rw [Function.update_of_ne hother, hview], howing⟩

theorem Pending.keep (hpending : Pending views owing latest) (hview : views task = some (call, μ))
    (hkeep : latest = .running task → owing μ = true → owing μ' = true) :
    Pending (Function.update views task (some (call, μ'))) owing latest := by
  cases latest with
  | returned ok => exact hpending
  | running other =>
      obtain ⟨call', ν, hother, howing⟩ := hpending
      by_cases hsame : other = task
      · subst hsame
        rw [hview] at hother
        cases hother
        exact ⟨call, μ', Function.update_self .., hkeep rfl howing⟩
      · exact ⟨call', ν, by rw [Function.update_of_ne hsame, hother], howing⟩

theorem Pending.leave {ok : Bool} (hpending : Pending views owing latest)
    (hview : views task = some (call, μ)) (hdone : ok = true → owing μ = false) :
    Pending (Function.update views task none) owing (latest.leave task ok) := by
  cases latest with
  | returned ok => exact hpending
  | running other =>
      obtain ⟨call', ν, hother, howing⟩ := hpending
      unfold Latest.leave
      by_cases hsame : other = task
      · subst hsame
        rw [hview] at hother
        cases hother
        rw [if_pos rfl]
        cases ok with
        | false => rfl
        | true =>
            rw [hdone rfl] at howing
            cases howing
      · rw [if_neg (fun hrunning => hsame (Latest.running.inj hrunning))]
        exact ⟨call', ν, by rw [Function.update_of_ne hsame, hother], howing⟩

end

structure Kept (g : Ledger) (fw : Firewall) (views : Views) : Prop where
  positive : ∀ input, 0 < g.version input
  installed_le : ∀ input, g.installed input ≤ g.version input
  written_le : g.written ≤ g.version .exposures
  read_le : ∀ task input, g.read task input ≤ g.version input
  installed : ∀ input, g.installed input = g.version input → fw.Installed input
  written : g.written = g.version .exposures → fw.file = .holding fw.exposed
  /-- What a call has read is as it is, where it was not changed since. -/
  seen : ∀ task call μ, views task = some (call, μ) → ∀ input value, μ.seen input = some value →
    g.read task input = g.version input → value = fw.value input
  /-- The most recent call on an input has read its own change. -/
  own : ∀ task call μ, views task = some (call, μ) → ∀ input, g.latest input = .running task →
    μ.seen input ≠ none → g.read task input = g.version input
  applies : ∀ input, g.installed input = g.version input ∨
    Pending views (fun μ => μ.owes input) (g.latest input)
  writes : g.written = g.version .exposures ∨
    Pending views Holding.owesFile (g.latest .exposures)

namespace Kept

variable {g : Ledger} {fw fw' : Firewall} {views : Views} {task : Nat} {call : FirewallCall}
  {μ : Holding}

theorem start (fw : Firewall) : Kept (Ledger.start fw) fw fun _ => none where
  positive := fun _ => Nat.zero_lt_one
  installed_le := by
    intro input
    unfold Ledger.start
    dsimp only
    split
    · exact Nat.le_refl 1
    · exact Nat.zero_le 1
  written_le := by
    unfold Ledger.start
    dsimp only
    split
    · exact Nat.le_refl 1
    · exact Nat.zero_le 1
  read_le := fun _ _ => Nat.zero_le 1
  installed := by
    intro input hlatest
    unfold Ledger.start at hlatest
    dsimp only at hlatest
    split at hlatest
    · assumption
    · cases hlatest
  written := by
    intro hlatest
    unfold Ledger.start at hlatest
    dsimp only at hlatest
    split at hlatest
    · assumption
    · cases hlatest
  seen := fun _ _ _ hview => nomatch hview
  own := fun _ _ _ hview => nomatch hview
  applies := by
    intro input
    by_cases hinstalled : fw.Installed input
    · exact .inl (if_pos hinstalled)
    · exact .inr (decide_eq_false fun hboth => hinstalled hboth.1)
  writes := by
    by_cases hheld : fw.file = .holding fw.exposed
    · exact .inl (if_pos hheld)
    · exact .inr (decide_eq_false fun hboth => hheld (hboth.2 rfl))

theorem enter (hkept : Kept g fw views) (hfree : views task = none) (call : FirewallCall) :
    Kept g fw (Function.update views task (some (call, {}))) where
  positive := hkept.positive
  installed_le := hkept.installed_le
  written_le := hkept.written_le
  read_le := hkept.read_le
  installed := hkept.installed
  written := hkept.written
  seen := by
    intro other call' ν hview input value hseen
    rcases Machine.update_some_cases hview with ⟨_, hsame⟩ | ⟨_, hview⟩
    · cases hsame
      cases hseen
    · exact hkept.seen other call' ν hview input value hseen
  own := by
    intro other call' ν hview input hlatest hseen
    rcases Machine.update_some_cases hview with ⟨_, hsame⟩ | ⟨_, hview⟩
    · cases hsame
      exact absurd rfl hseen
    · exact hkept.own other call' ν hview input hlatest hseen
  applies := fun input => (hkept.applies input).imp_right fun hpending => hpending.enter hfree _
  writes := hkept.writes.imp_right fun hpending => hpending.enter hfree _

theorem leave (hkept : Kept g fw views) (hview : views task = some (call, μ)) {ok : Bool}
    (hdone : ok = true → μ.Free) :
    Kept (g.leave task ok) fw (Function.update views task none) where
  positive := hkept.positive
  installed_le := hkept.installed_le
  written_le := hkept.written_le
  read_le := hkept.read_le
  installed := hkept.installed
  written := hkept.written
  seen := by
    intro other call' ν hother
    exact hkept.seen other call' ν (Machine.update_none_cases hother).2
  own := by
    intro other call' ν hother input hlatest
    apply hkept.own other call' ν (Machine.update_none_cases hother).2 input
    unfold Ledger.leave Latest.leave at hlatest
    dsimp only at hlatest
    split at hlatest
    · cases hlatest
    · exact hlatest
  applies := fun input => (hkept.applies input).imp_right fun hpending =>
    hpending.leave hview fun hok => (hdone hok).1 input
  writes := hkept.writes.imp_right fun hpending =>
    hpending.leave hview fun hok => (hdone hok).2

theorem reads (hkept : Kept g fw views) (hview : views task = some (call, μ)) (input : Input) :
    Kept (g.reads task input) fw (Function.update views task
      (some (call, { μ with seen := Function.update μ.seen input (some (fw.value input)) }))) where
  positive := hkept.positive
  installed_le := hkept.installed_le
  written_le := hkept.written_le
  read_le := by
    intro other input'
    unfold Ledger.reads
    dsimp only
    by_cases hother : other = task
    · subst hother
      rw [Function.update_self]
      by_cases hinput : input' = input
      · subst hinput
        rw [Function.update_self]
      · rw [Function.update_of_ne hinput]
        exact hkept.read_le other input'
    · rw [Function.update_of_ne hother]
      exact hkept.read_le other input'
  installed := hkept.installed
  written := hkept.written
  seen := by
    intro other call' ν hother input' value hseen hread
    unfold Ledger.reads at hread
    dsimp only at hread
    rcases Machine.update_some_cases hother with ⟨rfl, hsame⟩ | ⟨hne, hother⟩
    · cases hsame
      rw [Function.update_self] at hread
      dsimp only at hseen
      by_cases hinput : input' = input
      · subst hinput
        rw [Function.update_self] at hseen
        exact (Option.some.inj hseen).symm
      · rw [Function.update_of_ne hinput] at hseen hread
        exact hkept.seen other call μ hview input' value hseen hread
    · rw [Function.update_of_ne hne] at hread
      exact hkept.seen other call' ν hother input' value hseen hread
  own := by
    intro other call' ν hother input' hlatest hseen
    unfold Ledger.reads
    dsimp only
    rcases Machine.update_some_cases hother with ⟨rfl, hsame⟩ | ⟨hne, hother⟩
    · cases hsame
      rw [Function.update_self]
      dsimp only at hseen
      by_cases hinput : input' = input
      · subst hinput
        rw [Function.update_self]
      · rw [Function.update_of_ne hinput] at hseen ⊢
        exact hkept.own other call μ hview input' hlatest hseen
    · rw [Function.update_of_ne hne]
      exact hkept.own other call' ν hother input' hlatest hseen
  applies := fun input' => (hkept.applies input').imp_right fun hpending =>
    hpending.keep hview fun _ howes => howes
  writes := hkept.writes.imp_right fun hpending =>
    hpending.keep hview fun _ howes => howes

theorem seen_of_paid {owes : Input → Bool} {owesFile : Bool} (hkept : Kept g fw views)
    (hview : views task = some (call, μ)) :
    (∀ other call' ν, Function.update views task
        (some (call, { μ with owes := owes, owesFile := owesFile })) other = some (call', ν) →
      ∀ input value, ν.seen input = some value → g.read other input = g.version input →
        value = fw.value input) ∧
      ∀ other call' ν, Function.update views task
          (some (call, { μ with owes := owes, owesFile := owesFile })) other = some (call', ν) →
        ∀ input, g.latest input = .running other → ν.seen input ≠ none →
          g.read other input = g.version input := by
  constructor
  · intro other call' ν hother
    rcases Machine.update_some_cases hother with ⟨rfl, hsame⟩ | ⟨_, hother⟩
    · cases hsame
      exact hkept.seen other call μ hview
    · exact hkept.seen other call' ν hother
  · intro other call' ν hother
    rcases Machine.update_some_cases hother with ⟨rfl, hsame⟩ | ⟨_, hother⟩
    · cases hsame
      exact hkept.own other call μ hview
    · exact hkept.own other call' ν hother

theorem wrote (hkept : Kept g fw views) (hview : views task = some (call, μ))
    {exposed : List Exposed} (hseen : μ.seen .exposures = some exposed)
    (hnewer : g.written ≤ g.read task .exposures) :
    Kept { g with written := g.read task .exposures } { fw with file := .holding exposed }
      (Function.update views task (some (call, { μ with owesFile := false }))) where
  positive := hkept.positive
  installed_le := hkept.installed_le
  written_le := hkept.read_le task .exposures
  read_le := hkept.read_le
  installed := hkept.installed
  written := by
    intro hlatest
    exact congrArg ExposedFile.holding
      (hkept.seen task call μ hview .exposures exposed hseen hlatest)
  seen := fun other call' ν hother input =>
    match input with
    | .exposures => (hkept.seen_of_paid hview).1 other call' ν hother .exposures
    | .peers => (hkept.seen_of_paid hview).1 other call' ν hother .peers
    | .mesh => (hkept.seen_of_paid hview).1 other call' ν hother .mesh
  own := (hkept.seen_of_paid hview).2
  applies := fun input => (hkept.applies input).imp_right fun hpending =>
    hpending.keep hview fun _ howes => howes
  writes := by
    rcases hkept.writes with hwritten | hpending
    · left
      have hread := hkept.read_le task .exposures
      dsimp only
      omega
    · by_cases hlatest : g.latest .exposures = .running task
      · exact .inl (hkept.own task call μ hview .exposures hlatest (by simp [hseen]))
      · exact .inr (hpending.keep hview fun hrunning => absurd hrunning hlatest)

theorem cut (hkept : Kept g fw views) (hview : views task = some (call, μ))
    (howes : μ.owesFile = true)
    (horder : g.latest .exposures = .running task ∨ g.written ≠ g.version .exposures) :
    Kept { g with written := 0 } { fw with file := .damaged } views where
  positive := hkept.positive
  installed_le := hkept.installed_le
  written_le := Nat.zero_le _
  read_le := hkept.read_le
  installed := hkept.installed
  written := by
    intro hzero
    exact absurd hzero.symm (Nat.ne_of_gt (hkept.positive .exposures))
  seen := fun other call' ν hother input =>
    match input with
    | .exposures => hkept.seen other call' ν hother .exposures
    | .peers => hkept.seen other call' ν hother .peers
    | .mesh => hkept.seen other call' ν hother .mesh
  own := hkept.own
  applies := hkept.applies
  writes := by
    right
    dsimp only
    rcases horder with hrunning | hbehind
    · rw [hrunning]
      exact ⟨call, μ, hview, howes⟩
    · exact hkept.writes.resolve_left hbehind

theorem applied (hkept : Kept g fw views) (hview : views task = some (call, μ))
    {meshAddr : Option Ipv4Addr} {exposed : List Exposed} {peers : PeerSets}
    (hmesh : μ.seen .mesh = some meshAddr) (hexposed : μ.seen .exposures = some exposed)
    (hpeers : μ.seen .peers = some peers)
    (hnewer : ∀ input, g.installed input ≤ g.read task input) :
    Kept { g with installed := g.read task }
      { fw with applied := some ⟨meshAddr, effectiveExposed exposed, peers⟩ }
      (Function.update views task (some (call, { μ with owes := fun _ => false }))) where
  positive := hkept.positive
  installed_le := hkept.read_le task
  written_le := hkept.written_le
  read_le := hkept.read_le
  installed := by
    intro input hlatest
    have hread := hkept.seen task call μ hview input
    unfold Firewall.Installed
    cases input with
    | exposures =>
        rw [Option.map_some]
        exact congrArg (fun e => some (effectiveExposed e)) (hread exposed hexposed hlatest)
    | peers => exact congrArg some (hread peers hpeers hlatest)
    | mesh => exact congrArg some (hread meshAddr hmesh hlatest)
  written := hkept.written
  seen := fun other call' ν hother input =>
    match input with
    | .exposures => (hkept.seen_of_paid hview).1 other call' ν hother .exposures
    | .peers => (hkept.seen_of_paid hview).1 other call' ν hother .peers
    | .mesh => (hkept.seen_of_paid hview).1 other call' ν hother .mesh
  own := (hkept.seen_of_paid hview).2
  applies := by
    intro input
    have hseen : μ.seen input ≠ none := by
      cases input
      · simp [hexposed]
      · simp [hpeers]
      · simp [hmesh]
    rcases hkept.applies input with hinstalled | hpending
    · left
      have hread := hkept.read_le task input
      have hle := hnewer input
      dsimp only
      omega
    · by_cases hlatest : g.latest input = .running task
      · exact .inl (hkept.own task call μ hview input hlatest hseen)
      · exact .inr (hpending.keep hview fun hrunning => absurd hrunning hlatest)
  writes := hkept.writes.imp_right fun hpending =>
    hpending.keep hview fun _ howes => howes

theorem touch (hkept : Kept g fw views) (hview : views task = some (call, μ)) {input : Input}
    {owing : Bool} (hothers : ∀ other, other ≠ input → fw'.value other = fw.value other)
    (happlied : fw'.applied = fw.applied) (hfile : fw'.file = fw.file)
    (hspared : owing = false → fw'.value input = fw.value input ∧ g.Settled input) :
    Kept (g.touch task input (fw'.value input != fw.value input)) fw'
      (Function.update views task (some (call, μ.touch input owing))) := by
  have hgrows : ∀ other, g.version other ≤
      (g.touch task input (fw'.value input != fw.value input)).version other := by
    intro other
    rw [Ledger.touch_version]
    by_cases hother : other = input
    · subst hother
      rw [Function.update_self]
      exact Nat.le_add_right ..
    · rw [Function.update_of_ne hother]
  have hstays : fw'.value input = fw.value input → (fw'.value input != fw.value input) = false :=
    fun hvalue => by simp [hvalue]
  -- What is of the latest version has not been changed.
  have hsame : ∀ other version, version ≤ g.version other →
      version = (g.touch task input (fw'.value input != fw.value input)).version other →
      fw'.value other = fw.value other ∧ version = g.version other := by
    intro other version hle heq
    rw [Ledger.touch_version] at heq
    by_cases hother : other = input
    · subst hother
      rw [Function.update_self] at heq
      cases hchanged : (fw'.value other != fw.value other) with
      | true =>
          rw [hchanged, Bool.toNat_true] at heq
          omega
      | false =>
          rw [hchanged] at heq
          exact ⟨by simpa using hchanged, heq⟩
    · rw [Function.update_of_ne hother] at heq
      exact ⟨hothers other hother, heq⟩
  constructor
  case positive => exact fun other => Nat.lt_of_lt_of_le (hkept.positive other) (hgrows other)
  case installed_le => exact fun other => Nat.le_trans (hkept.installed_le other) (hgrows other)
  case written_le => exact Nat.le_trans hkept.written_le (hgrows .exposures)
  case read_le => exact fun reader other => Nat.le_trans (hkept.read_le reader other) (hgrows other)
  case installed =>
    intro other hlatest
    obtain ⟨hvalue, hversion⟩ := hsame other _ (hkept.installed_le other) hlatest
    exact (Firewall.installed_congr happlied hvalue).mpr (hkept.installed other hversion)
  case written =>
    intro hlatest
    obtain ⟨hvalue, hversion⟩ := hsame .exposures _ hkept.written_le hlatest
    rw [hfile, hkept.written hversion]
    exact congrArg ExposedFile.holding hvalue.symm
  case seen =>
    intro reader call' ν hreader other value hseen hlatest
    obtain ⟨hvalue, hversion⟩ := hsame other _ (hkept.read_le reader other) hlatest
    rw [hvalue]
    rcases Machine.update_some_cases hreader with ⟨rfl, hentry⟩ | ⟨_, hreader⟩
    · cases hentry
      by_cases hother : other = input
      · subst hother
        rw [Holding.touch_seen, Function.update_self] at hseen
        cases hseen
      · rw [Holding.touch_seen, Function.update_of_ne hother] at hseen
        exact hkept.seen reader call μ hview other value hseen hversion
    · exact hkept.seen reader call' ν hreader other value hseen hversion
  case own =>
    intro reader call' ν hreader other hrunning hseen
    have hother : other ≠ input := by
      rintro rfl
      rcases Machine.update_some_cases hreader with ⟨rfl, hentry⟩ | ⟨hne, _⟩
      · cases hentry
        exact hseen (Function.update_self ..)
      · rw [Ledger.touch_latest, Function.update_self] at hrunning
        exact hne (Latest.running.inj hrunning).symm
    rw [Ledger.touch_latest, Function.update_of_ne hother] at hrunning
    rw [Ledger.touch_version, Function.update_of_ne hother]
    rcases Machine.update_some_cases hreader with ⟨rfl, hentry⟩ | ⟨_, hreader⟩
    · cases hentry
      rw [Holding.touch_seen, Function.update_of_ne hother] at hseen
      exact hkept.own reader call μ hview other hrunning hseen
    · exact hkept.own reader call' ν hreader other hrunning hseen
  case applies =>
    intro other
    rw [Ledger.touch_version, Ledger.touch_latest]
    by_cases hother : other = input
    · subst hother
      rw [Function.update_self, Function.update_self]
      cases owing with
      | true => exact .inr ⟨call, _, Function.update_self .., Function.update_self ..⟩
      | false =>
          obtain ⟨hvalue, hsettled⟩ := hspared rfl
          left
          rw [hstays hvalue]
          exact hsettled.1
    · rw [Function.update_of_ne hother, Function.update_of_ne hother]
      refine (hkept.applies other).imp_right fun hpending => hpending.keep hview fun _ howes => ?_
      rw [Holding.touch_owes, Function.update_of_ne hother]
      exact howes
  case writes =>
    rw [Ledger.touch_version, Ledger.touch_latest]
    by_cases hother : input = .exposures
    · subst hother
      rw [Function.update_self, Function.update_self]
      cases owing with
      | true => exact .inr ⟨call, _, Function.update_self .., rfl⟩
      | false =>
          obtain ⟨hvalue, hsettled⟩ := hspared rfl
          left
          rw [hstays hvalue]
          exact hsettled.2 rfl
    · have hexposures := Ne.symm hother
      rw [Function.update_of_ne hexposures, Function.update_of_ne hexposures]
      refine hkept.writes.imp_right fun hpending => hpending.keep hview fun _ howes => ?_
      rw [Holding.touch_owesFile, if_neg hother]
      exact howes

theorem quiet (hkept : Kept g fw views) (hvalues : ∀ input, fw'.value input = fw.value input)
    (happlied : fw'.applied = fw.applied) (hfile : fw'.file = fw.file) : Kept g fw' views where
  positive := hkept.positive
  installed_le := hkept.installed_le
  written_le := hkept.written_le
  read_le := hkept.read_le
  installed := fun input hlatest =>
    (Firewall.installed_congr happlied (hvalues input)).mpr (hkept.installed input hlatest)
  written := by
    intro hlatest
    rw [hfile, hkept.written hlatest]
    exact congrArg ExposedFile.holding (hvalues .exposures).symm
  seen := by
    intro other call' ν hother input value hseen hread
    rw [hvalues]
    exact hkept.seen other call' ν hother input value hseen hread
  own := hkept.own
  applies := hkept.applies
  writes := hkept.writes

end Kept

section

variable {o : FirewallOp} {faults : Faults} {fw fw' : Firewall} {answer : Except Stop o.Answer}
  {input : Input}

theorem widen_none {name : String} {scope : ExposeScope} {exposed : List Exposed}
    (hnone : (widen name scope exposed).1 = 0) : (widen name scope exposed).2 = exposed := by
  unfold widen at hnone ⊢
  suffices h : ∀ (targets : List Exposed) (widened : Nat × List Exposed),
      (widened.1 = 0 → widened.2 = exposed) →
      (targets.foldl (widenOne name scope) widened).1 = 0 →
        (targets.foldl (widenOne name scope) widened).2 = exposed from
    h _ (0, exposed) (fun _ => rfl) hnone
  intro targets
  induction targets with
  | nil => exact fun widened hkept hnone => hkept hnone
  | cons target targets ih =>
      intro widened hkept
      apply ih
      unfold widenOne
      split
      · exact hkept
      · intro hsome
        cases hsome

theorem exec_spared (hexec : fw.exec faults o = (answer, fw')) (hspared : o.spares answer = true)
    (input : Input) : fw'.value input = fw.value input := by
  cases o with
  | widen name scope =>
      rcases Firewall.underLock_cases hexec with ⟨_, rfl⟩ | ⟨_, rfl, rfl⟩
      · rfl
      · have hnone : (widen name scope fw.exposed).1 = 0 := by
          generalize (widen name scope fw.exposed).1 = added at hspared
          cases added with
          | zero => rfl
          | succ more => cases hspared
        cases input with
        | exposures => exact widen_none hnone
        | peers => rfl
        | mesh => rfl
  | removed before =>
      by_cases hgrown : before < fw.exposed.length
      · cases (if_pos hgrown).symm.trans hexec
        cases input <;> rfl
      · rw [underLock_quiet ((if_neg hgrown).symm.trans hexec)]
  | samePeers peers =>
      cases hexec
      rfl
  | replaceMesh addr =>
      cases hexec
      have hsame : fw.meshAddr = some addr := by
        cases hchanged : (fw.meshAddr != some addr) with
        | true =>
            rw [hchanged] at hspared
            cases hspared
        | false => simpa using hchanged
      cases input with
      | exposures => rfl
      | peers => rfl
      | mesh => exact hsame.symm
  | _ => cases answer <;> cases hspared

theorem did_plain (g : Ledger) (task : Nat) (fw fw' : Firewall) (hplain : o.plain = true) :
    g.did task fw fw' o answer =
      match o.touched answer with
      | some input => g.touch task input (fw'.value input != fw.value input)
      | none => g := by
  cases o <;> first | rfl | cases hplain

theorem next_plain (μ : Holding) (hplain : o.plain = true) :
    μ.next o answer =
      match o.touched answer with
      | some input => μ.touch input (!o.spares answer)
      | none => μ := by
  cases o <;> first | rfl | cases hplain

theorem orderly_plain {g : Ledger} {task : Nat} (hplain : o.plain = true)
    (horder : g.Orderly task o answer) (hspared : o.spares answer = true)
    (htouched : o.touched answer = some input) : g.Settled input := by
  cases o <;> first | exact horder hspared input htouched | cases hplain

theorem Kept.did {g : Ledger} {views : Views} {task : Nat} {call : FirewallCall} {μ : Holding}
    (hkept : Kept g fw views) (hview : views task = some (call, μ)) (hallows : μ.Allows o)
    (hexec : fw.exec faults o = (answer, fw')) (horder : g.Orderly task o answer) :
    Kept (g.did task fw fw' o answer) fw'
      (Function.update views task (some (call, μ.next o answer))) := by
  have hself : Function.update views task (some (call, μ)) = views := by
    rw [← hview, Function.update_eq_self]
  cases hplain : o.plain with
  | true =>
      obtain ⟨happlied, hfile, hvalues⟩ := exec_plain hplain hexec
      rw [did_plain g task fw fw' hplain, next_plain μ hplain]
      cases htouched : o.touched answer with
      | none =>
          rw [hself]
          apply hkept.quiet _ happlied hfile
          intro input
          exact hvalues input (by simp [htouched])
      | some input =>
          apply hkept.touch hview _ happlied hfile
          · intro hspares
            have hspared : o.spares answer = true := by simpa using hspares
            exact ⟨exec_spared hexec hspared input,
              orderly_plain hplain horder hspared htouched⟩
          · intro other hother
            apply hvalues other
            rw [htouched]
            exact fun hsame => hother (Option.some.inj hsame).symm
  | false =>
      cases o with
      | read input =>
          cases input with
          | exposures =>
              rcases Firewall.underLock_cases hexec with ⟨rfl, rfl⟩ | ⟨_, rfl, rfl⟩
              · exact hself.symm ▸ hkept
              · exact hkept.reads hview .exposures
          | peers =>
              cases hexec
              exact hkept.reads hview .peers
          | mesh =>
              cases hexec
              exact hkept.reads hview .mesh
      | write exposed =>
          obtain ⟨hseen, howes⟩ := hallows
          obtain ⟨write, apply⟩ := faults
          match write with
          | none =>
              cases hexec
              exact hkept.wrote hview hseen horder
          | some .unopened =>
              cases hexec
              exact hself.symm ▸ hkept
          | some .cut =>
              cases hexec
              exact hself.symm ▸ hkept.cut hview howes horder
      | apply ruleset =>
          obtain ⟨meshAddr, exposed, peers, hmesh, hexposed, hpeers, rfl⟩ := hallows
          obtain ⟨write, apply⟩ := faults
          cases apply with
          | true =>
              cases hexec
              exact hself.symm ▸ hkept
          | false =>
              cases hexec
              exact hkept.applied hview hmesh hexposed hpeers horder
      | _ => cases hplain

end

def keeping : Machine.Discipline firewall ledger inOrder Holding where
  mon := holding
  opening := fun _ _ _ => {}
  post := fun _ => Prog.returns fun μ _ => μ.Free
  inv := Kept
  conforms := fun _ _ call => conforms_program call
  called := fun hkept hfree _ => hkept.enter hfree _
  did := by
    intro g fw views task call μ o faults answer fw' hkept hview hallows hexec horder
    exact ⟨trivial, hkept.did hview hallows (Option.some.inj hexec) horder⟩
  ended := by
    intro g fw views task call μ result hkept hview hpost _
    apply hkept.leave hview
    intro hok
    cases result with
    | ok reply => exact hpost
    | error stop => cases hok
  dropped := by
    intro g fw views task call μ hkept hview _
    exact hkept.leave hview fun hok => nomatch hok
  moved := fun {_ _ _ world} => world.elim

/-- Where every step is in order, the file holds the exposures and the applied ruleset is that of
the inputs, once the most recent call on each input has returned `Ok`. -/
theorem firewall_converges {fw : Firewall} {c : firewall.Config} {g : Ledger}
    (hreach : Machine.Reach ledger inOrder (Machine.idle firewall fw) (Ledger.start fw) c g)
    (hreturned : ∀ input, g.latest input = .returned true) :
    c.shared.applied = some c.shared.ruleset ∧ c.shared.file = .holding c.shared.exposed := by
  obtain ⟨views, htracks, hkept⟩ := Machine.Discipline.run keeping (Kept.start fw) hreach
  have hdone : ∀ {owing : Holding → Bool} (input : Input),
      ¬ Pending views owing (g.latest input) := by
    intro owing input hpending
    rw [hreturned input] at hpending
    cases hpending
  constructor
  · apply Firewall.applied_of_installed
    intro input
    exact hkept.installed input ((hkept.applies input).resolve_right (hdone input))
  · exact hkept.written (hkept.writes.resolve_right (hdone .exposures))

instance (g : Ledger) (task : Nat) (o : FirewallOp) (answer : Except Stop o.Answer) :
    Decidable (g.Orderly task o answer) := by
  unfold Ledger.Orderly
  split <;> infer_instance

def inOrderTest (g : Ledger) (_ : Firewall) : firewall.Event → Bool
  | .did task o answer => decide (g.Orderly task o answer)
  | _ => true

theorem inOrder_of_test (g : Ledger) (fw : Firewall) (event : firewall.Event)
    (htest : inOrderTest g fw event = true) : inOrder g fw event := by
  cases event with
  | did task o answer =>
      change g.Orderly task o answer
      exact of_decide_eq_true htest
  | _ => trivial

/-- A firewall with nothing exposed, as it is after the start. -/
def loaded : Firewall where
  file := .holding []
  applied := some ⟨none, [], {}⟩

def joined : PeerSets where
  ownDevices := [2]

/-- The address of the device is set, a port is opened and the peers are refreshed twice with the
same sets, of which the first apply may fail. -/
def refreshedTwice (failing : Bool) : List firewall.Label :=
  .call (.setMeshAddr 1) :: List.replicate 6 (.step 0 {}) ++
    .call (.expose .tcp 22 .ownDevices (some "ssh") .port) :: List.replicate 10 (.step 1 {}) ++
    .call (.updatePeers joined) :: List.replicate 8 (.step 2 { apply := failing }) ++
    .call (.updatePeers joined) :: List.replicate 2 (.step 3 {})

def allReturned (_ : firewall.Config) (g : Ledger) : Bool :=
  decide (∀ input, g.latest input = .returned true)

theorem firewall_converges_refreshed :
    ∃ c g, Machine.Reach ledger inOrder (Machine.idle firewall loaded) (Ledger.start loaded) c g ∧
      c.shared.applied = some c.shared.ruleset ∧ c.shared.file = .holding c.shared.exposed := by
  have hplay : (Machine.play ledger inOrderTest (Machine.idle firewall loaded)
      (Ledger.start loaded) (refreshedTwice false)).any
        (fun last => allReturned last.1 last.2) = true := by
    decide
  have hrun : ∃ c g, Machine.Reach ledger inOrder (Machine.idle firewall loaded)
      (Ledger.start loaded) c g ∧ allReturned c g = true :=
    Machine.reach_of_play inOrder_of_test hplay
  obtain ⟨c, g, hreach, hreturned⟩ := hrun
  exact ⟨c, g, hreach, firewall_converges hreach (of_decide_eq_true hreturned)⟩

/-- No call is running, the most recent ones have returned `Ok`, and the applied ruleset is not that
of the inputs. -/
def isBehind (c : firewall.Config) (g : Ledger) : Bool :=
  allReturned c g && decide (c.shared.applied ≠ some c.shared.ruleset) &&
    (List.range c.next).all fun task => (c.tasks task).isNone

/-- A refresh like one whose apply failed applies nothing. -/
theorem refresh_not_applied :
    ∃ c g, Machine.Reach ledger Machine.free (Machine.idle firewall loaded) (Ledger.start loaded)
        c g ∧
      (∀ task, c.tasks task = none) ∧ (∀ input, g.latest input = .returned true) ∧
        c.shared.applied ≠ some c.shared.ruleset := by
  have hplay : (Machine.play ledger (fun _ _ _ => true) (Machine.idle firewall loaded)
      (Ledger.start loaded) (refreshedTwice true)).any
        (fun last => isBehind last.1 last.2) = true := by
    decide
  have hrun : ∃ c g, Machine.Reach ledger Machine.free (Machine.idle firewall loaded)
      (Ledger.start loaded) c g ∧ isBehind c g = true :=
    Machine.reach_of_play (fun _ _ _ _ => trivial) hplay
  obtain ⟨c, g, hreach, hbehind⟩ := hrun
  simp only [isBehind, Bool.and_eq_true, List.all_eq_true, List.mem_range,
    Option.isNone_iff_eq_none] at hbehind
  obtain ⟨⟨hreturned, happlied⟩, hidle⟩ := hbehind
  refine ⟨c, g, hreach, fun task => ?_, of_decide_eq_true hreturned, of_decide_eq_true happlied⟩
  rcases Nat.lt_or_ge task c.next with hbelow | habove
  · exact hidle task hbelow
  · exact hreach.numbered task habove

end UnityLan.Engine.Fw
