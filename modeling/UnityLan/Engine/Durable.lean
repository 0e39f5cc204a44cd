import UnityLan.Engine.Netcfg

namespace UnityLan.Engine

open UnityLan.Foundation Fw

/-! How far a call is. -/

structure Doing where
  call : NetCall
  began : Bool := false
  owes : List Slot := []
  opened : Bool := false
  seen : (slot : Slot) → Option slot.Value := fun _ => none
  tells : Bool := false
  /-- A discovery disables networks. -/
  found : Bool := false

namespace NetCall

def assigned : NetCall → (slot : Slot) → Option slot.Value
  | .setPaused paused, .paused => some paused
  | .setDisableNew disable, .disableNew => some disable
  | .setPeerOwnDevices enabled, .peerOwn => some enabled
  | .setCertsEnabled enabled, .certsEnabled => some enabled
  | _, _ => none

end NetCall

namespace Doing

variable (μ : Doing)

def next : (o : NetOp) → o.Answer → Doing
  | .change call, changed =>
      { μ with
        began := true
        owes := if changed then call.slots else []
        seen := call.assigned
        tells := changed && call.wakes }
  | .discover _ _, changed =>
      { μ with
        began := true
        owes := (if changed.1 then [Slot.known] else []) ++ (if changed.2 then [.optout] else [])
        found := changed.2 }
  | .snapshot slot, value => { μ with seen := Function.update μ.seen slot (some value) }
  | .truncate _, .ok _ => { μ with opened := true }
  | .fill _ _, .ok _ => { μ with opened := false, owes := μ.owes.tail }
  | .notify, _ => { μ with tells := false }
  | _, _ => μ

def Allows : NetOp → Prop
  | .change call => call = μ.call ∧ μ.call.isDiscovery = false ∧ μ.began = false
  | .discover present _ => μ.call = .reconcileNew present ∧ μ.began = false
  | .snapshot slot => slot ∈ μ.call.slots ∧ μ.began = true
  | .truncate slot => ∃ rest, μ.owes = slot :: rest ∧ μ.opened = false
  | .fill slot value => ∃ rest, μ.owes = slot :: rest ∧ μ.opened = true ∧
      μ.seen slot = some value
  | .policy => True
  | .notify => μ.began = true

def Expects : (o : NetOp) → o.Answer → Prop
  | .truncate _, answer => answer = .ok ()
  | .fill _ _, answer => answer = .ok ()
  | _, _ => True

end Doing

def Doing.Ends (μ : Doing) : Except Unit Bool → Prop
  | .ok changed =>
      μ.began = true ∧ μ.owes = [] ∧ μ.tells = false ∧
        (μ.call.isDiscovery = true → changed = μ.found)
  | .error _ => False

def doing : Monitor NetSig Doing where
  allows := Doing.Allows
  expects := fun _ => Doing.Expects
  next := Doing.next

section

variable {μ : Doing}

theorem conforms_act {o : NetOp} {next : o.Answer → NetM Bool} (hallows : μ.Allows o)
    (hnext : ∀ answer, Doing.Expects o answer →
      (next answer).Conforms doing Doing.Ends (μ.next o answer)) :
    (act o >>= next).Conforms doing Doing.Ends μ :=
  ⟨hallows, hnext⟩

theorem conforms_writeJson {slot : Slot} {value : slot.Value} {rest : NetM Bool} (owed : List Slot)
    (howes : μ.owes = slot :: owed) (hopened : μ.opened = false) (hseen : μ.seen slot = some value)
    (hrest : rest.Conforms doing Doing.Ends { μ with owes := owed }) :
    (writeJson slot value >>= fun _ => rest).Conforms doing Doing.Ends μ := by
  refine ⟨⟨owed, howes, hopened⟩, ?_⟩
  rintro answer rfl
  refine ⟨⟨owed, howes, rfl, hseen⟩, ?_⟩
  rintro answer rfl
  have hdone : ({ μ with opened := true } : Doing).next (.fill slot value) (.ok ()) =
      { μ with owes := owed } := by
    unfold Doing.next
    dsimp only
    rw [howes, ← hopened]
    rfl
  rw [show (doing.next (doing.next μ (.truncate slot) (.ok ())) (.fill slot value) (.ok ())) =
    { μ with owes := owed } from hdone]
  exact hrest

theorem seen_snapshot {slot : Slot} {value : slot.Value} :
    (μ.next (.snapshot slot) value).seen slot = some value := by
  unfold Doing.next
  dsimp only
  exact Function.update_self ..

theorem conforms_assign {call : NetCall} {slot : Slot} {value : slot.Value}
    (hslots : call.slots = [slot]) (hassigned : call.assigned slot = some value)
    (hsetter : call.isDiscovery = false) :
    (assign call slot value).Conforms doing Doing.Ends { call := call } := by
  have hno : ∀ changed : Bool, call.isDiscovery = true → changed = false :=
    fun _ hfound => absurd hfound (Bool.eq_false_iff.mp hsetter)
  unfold assign
  refine conforms_act ⟨rfl, hsetter, rfl⟩ fun changed _ => ?_
  cases changed with
  | false => exact ⟨rfl, rfl, rfl, hno _⟩
  | true =>
      refine conforms_writeJson [] hslots rfl hassigned ?_
      cases hwakes : call.wakes with
      | true => exact conforms_act rfl fun _ _ => ⟨rfl, rfl, rfl, hno _⟩
      | false => exact ⟨rfl, rfl, hwakes, hno _⟩

theorem conforms_adjust {call : NetCall} {slot : Slot} (hslots : call.slots = [slot])
    (hsetter : call.isDiscovery = false) :
    (adjust call slot).Conforms doing Doing.Ends { call := call } := by
  have hno : ∀ changed : Bool, call.isDiscovery = true → changed = false :=
    fun _ hfound => absurd hfound (Bool.eq_false_iff.mp hsetter)
  unfold adjust
  refine conforms_act ⟨rfl, hsetter, rfl⟩ fun changed _ => ?_
  cases changed with
  | false => exact ⟨rfl, rfl, rfl, hno _⟩
  | true =>
      have hmem : slot ∈ call.slots := hslots ▸ List.mem_singleton.mpr rfl
      refine conforms_act ⟨hmem, rfl⟩ fun value _ => ?_
      refine conforms_writeJson [] hslots rfl seen_snapshot ?_
      exact conforms_act rfl fun _ _ => ⟨rfl, rfl, rfl, hno _⟩

theorem conforms_discovery (present : List (GuildId × RoleId)) :
    (discovery present).Conforms doing Doing.Ends { call := .reconcileNew present } := by
  unfold discovery
  refine conforms_act trivial fun disableNew _ => ?_
  refine conforms_act ⟨rfl, rfl⟩ fun changed _ => ?_
  obtain ⟨known, optout⟩ := changed
  have hoptout : ∀ μ : Doing, μ.call = .reconcileNew present → μ.began = true →
      μ.owes = (if optout then [Slot.optout] else []) → μ.opened = false → μ.tells = false →
      μ.found = optout →
      (do
        if optout then
          let disabled ← act (.snapshot .optout)
          writeJson .optout disabled
        return optout : NetM Bool).Conforms doing Doing.Ends μ := by
    intro μ hcall hbegan howes hopened htells hfound
    cases optout with
    | false => exact ⟨hbegan, howes, htells, fun _ => hfound.symm⟩
    | true =>
        have hmem : Slot.optout ∈ μ.call.slots := by
          rw [hcall]
          exact List.mem_cons_of_mem _ (List.mem_singleton.mpr rfl)
        refine conforms_act ⟨hmem, hbegan⟩ fun disabled _ => ?_
        refine conforms_writeJson [] howes hopened seen_snapshot ?_
        exact ⟨hbegan, rfl, htells, fun _ => hfound.symm⟩
  cases known with
  | false => exact hoptout _ rfl rfl rfl rfl rfl rfl
  | true =>
      refine conforms_act ⟨List.mem_cons_self, rfl⟩ fun value _ => ?_
      refine conforms_writeJson (if optout then [Slot.optout] else []) rfl rfl seen_snapshot ?_
      exact hoptout _ rfl rfl rfl rfl rfl rfl

theorem conforms_call (call : NetCall) :
    call.program.Conforms doing Doing.Ends { call := call } := by
  cases call with
  | setPaused paused => exact conforms_assign rfl rfl rfl
  | setDisableNew disable => exact conforms_assign rfl rfl rfl
  | setPeerOwnDevices enabled => exact conforms_assign rfl rfl rfl
  | setCertsEnabled enabled => exact conforms_assign rfl rfl rfl
  | setBlocked userId username blocked => exact conforms_adjust rfl rfl
  | set guildId roleId enabled => exact conforms_adjust rfl rfl
  | reconcileNew present => exact conforms_discovery present

end

/-! What holds between the settings, their files and the calls under way. -/

structure Working (defaults : Defaults) (g : Diary) (s : Netcfg) (μ : Doing) : Prop where
  effect : μ.call.Effect g.finding s.memory
  settled : ∀ slot ∈ μ.call.slots, (μ.call.settled g.finding g.promises).Holds slot (s.memory slot)
  /-- What is not owed is on disk. -/
  written : ∀ slot ∈ μ.call.slots, slot ∉ μ.owes → s.files.load defaults slot = s.memory slot
  kept : ∀ slot ∈ μ.call.slots, g.torn slot = false →
    g.promises.Holds slot (s.files.load defaults slot)
  current : ∀ slot ∈ μ.call.slots, ∀ value, μ.seen slot = some value → s.memory slot = value
  owes : ∀ slot ∈ μ.owes, slot ∈ μ.call.slots
  told : μ.tells = false → ∀ slot ∈ μ.call.slots, g.told slot = true
  pending : μ.call.isDiscovery = true → g.pending = false → Slot.optout ∉ μ.owes
  found : μ.call.isDiscovery = true → μ.found = g.pending

structure Calm (defaults : Defaults) (g : Diary) (s : Netcfg) (slot : Slot) : Prop where
  written : s.files.load defaults slot = s.memory slot
  holds : g.promises.Holds slot (s.memory slot)
  whole : g.torn slot = false
  told : g.told slot = true

abbrev Doings : Type := Nat → Option (NetCall × Doing)

def Doings.At (views : Doings) (task : Nat) (μ : Doing) (slot : Slot) : Prop :=
  ∃ call, views task = some (call, μ) ∧ μ.began = true ∧ slot ∈ μ.call.slots

structure Live (defaults : Defaults) (g : Diary) (s : Netcfg) (views : Doings) : Prop where
  working : ∀ {task call μ}, views task = some (call, μ) → μ.began = true → Working defaults g s μ
  early : ∀ {task call μ}, views task = some (call, μ) → μ.began = false → μ = { call := call }
  apart : ∀ {first second μ μ' slot}, views.At first μ slot → views.At second μ' slot →
    first = second
  calm : ∀ {slot}, (∀ task μ, ¬views.At task μ slot) → Calm defaults g s slot

structure Durable (defaults : Defaults) (g : Diary) (s : Netcfg) (views : Doings) : Prop where
  running : ∀ task, g.running.get? task = (views task).map fun view => (view.1, view.2.began)
  named : ∀ {task call μ}, views task = some (call, μ) → μ.call = call
  live : s.alive = true → Live defaults g s views
  dead : s.alive = false → ∀ slot, g.promises.Holds slot (s.files.load defaults slot)

structure Unmoved (g g' : Diary) (s s' : Netcfg) (slot : Slot) : Prop where
  memory : s'.memory slot = s.memory slot
  file : s'.files slot = s.files slot
  promises : g'.promises.Agree g.promises slot
  torn : g'.torn slot = g.torn slot
  told : g.told slot = true → g'.told slot = true

section

variable {defaults : Defaults} {g g' : Diary} {s s' : Netcfg} {μ μ' : Doing} {slot : Slot}
  {views : Doings} {task : Nat} {call : NetCall}

theorem Unmoved.load (hsame : Unmoved g g' s s' slot) :
    s'.files.load defaults slot = s.files.load defaults slot := by
  unfold StateDir.load
  rw [hsame.file]

theorem Unmoved.refl : Unmoved g g s s slot :=
  ⟨rfl, rfl, .refl, rfl, id⟩

theorem Calm.unmoved (hcalm : Calm defaults g s slot) (hsame : Unmoved g g' s s' slot) :
    Calm defaults g' s' slot where
  written := by rw [hsame.load, hsame.memory, hcalm.written]
  holds := by
    rw [hsame.memory, hsame.promises.holds]
    exact hcalm.holds
  whole := hsame.torn.trans hcalm.whole
  told := hsame.told hcalm.told

theorem effect_finding {finding finding' : List (GuildId × RoleId)} {settings : Settings}
    (hfinding : call.isDiscovery = true → finding = finding') :
    call.Effect finding settings ↔ call.Effect finding' settings := by
  cases call with
  | reconcileNew present => rw [hfinding rfl]
  | _ => exact Iff.rfl

theorem settled_finding {finding finding' : List (GuildId × RoleId)} {p : Promises}
    (hfinding : call.isDiscovery = true → finding = finding') :
    call.settled finding p = call.settled finding' p := by
  cases call with
  | reconcileNew present => rw [hfinding rfl]
  | _ => rfl

theorem Working.unmoved (hworking : Working defaults g s μ)
    (hsame : ∀ slot ∈ μ.call.slots, Unmoved g g' s s' slot)
    (hfinding : μ.call.isDiscovery = true → g'.finding = g.finding ∧ g'.pending = g.pending) :
    Working defaults g' s' μ where
  effect := by
    rw [effect_finding fun hfound => (hfinding hfound).1]
    exact effect_congr (fun slot hslot => (hsame slot hslot).memory.symm) hworking.effect
  settled := by
    intro slot hslot
    rw [settled_finding fun hfound => (hfinding hfound).1, (hsame slot hslot).memory,
      (hsame slot hslot).promises.settled.holds]
    exact hworking.settled slot hslot
  written := by
    intro slot hslot howed
    rw [(hsame slot hslot).load, (hsame slot hslot).memory]
    exact hworking.written slot hslot howed
  kept := by
    intro slot hslot htorn
    rw [(hsame slot hslot).load, (hsame slot hslot).promises.holds]
    exact hworking.kept slot hslot ((hsame slot hslot).torn.symm.trans htorn)
  current := by
    intro slot hslot value hseen
    rw [(hsame slot hslot).memory]
    exact hworking.current slot hslot value hseen
  owes := hworking.owes
  told := fun htells slot hslot => (hsame slot hslot).told (hworking.told htells slot hslot)
  pending := fun hfound hpending =>
    hworking.pending hfound ((hfinding hfound).2.symm.trans hpending)
  found := fun hfound => (hworking.found hfound).trans (hfinding hfound).2.symm

theorem discovers_optout (hfound : call.isDiscovery = true) :
    Slot.known ∈ call.slots ∧ Slot.optout ∈ call.slots := by
  cases call with
  | reconcileNew present => exact ⟨List.mem_cons_self, List.mem_cons_of_mem _ List.mem_cons_self⟩
  | _ => cases hfound

theorem At.of_update {view : Option (NetCall × Doing)} {other : Nat}
    (hat : Doings.At (Function.update views task view) other μ slot) (hother : other ≠ task) :
    views.At other μ slot := by
  obtain ⟨call, hview, hbegan, hslot⟩ := hat
  rw [Function.update_of_ne hother] at hview
  exact ⟨call, hview, hbegan, hslot⟩

theorem Live.work (hlive : Live defaults g s views) (hview : views task = some (call, μ))
    (hnamed : μ'.call = μ.call) (hbegan : μ'.began = true)
    (hfree : μ.began = true ∨ ∀ slot ∈ μ.call.slots, ∀ other ν, ¬views.At other ν slot)
    (hworking : Working defaults g' s' μ')
    (hsame : ∀ slot, slot ∉ μ.call.slots → Unmoved g g' s s' slot)
    (hfinding : μ.call.isDiscovery = false → g'.finding = g.finding ∧ g'.pending = g.pending) :
    Live defaults g' s' (Function.update views task (some (call, μ'))) := by
  -- what another call has been at is not a setting of this one
  have hothers : ∀ {other ν slot}, other ≠ task → views.At other ν slot → slot ∉ μ.call.slots := by
    intro other ν slot hother hat hslot
    rcases hfree with hbegun | hfree
    · exact hother (hlive.apart hat ⟨call, hview, hbegun, hslot⟩)
    · exact hfree slot hslot other ν hat
  constructor
  · intro other call' ν hother hν
    rcases Machine.update_some_cases hother with ⟨-, hview'⟩ | ⟨hne, hview'⟩
    · obtain ⟨rfl, rfl⟩ := Prod.mk.inj hview'
      exact hworking
    · refine (hlive.working hview' hν).unmoved
        (fun slot hslot => hsame slot (hothers hne ⟨call', hview', hν, hslot⟩)) fun hfound => ?_
      have hknown := (discovers_optout hfound).1
      refine hfinding (Bool.eq_false_iff.mpr fun hdiscovery => ?_)
      exact hothers hne ⟨call', hview', hν, hknown⟩ (discovers_optout hdiscovery).1
  · intro other call' ν hother hν
    rcases Machine.update_some_cases hother with ⟨-, hview'⟩ | ⟨hne, hview'⟩
    · obtain ⟨rfl, rfl⟩ := Prod.mk.inj hview'
      rw [hbegan] at hν
      cases hν
    · exact hlive.early hview' hν
  · intro first second ν ν' slot hfirst hsecond
    by_cases hone : first = task
    · subst hone
      by_contra hne
      obtain ⟨call', hview', -, hslot⟩ := hfirst
      rw [Function.update_self] at hview'
      obtain ⟨rfl, rfl⟩ := Prod.mk.inj (Option.some.inj hview')
      rw [hnamed] at hslot
      exact hothers (Ne.symm hne) (At.of_update hsecond (Ne.symm hne)) hslot
    · by_cases htwo : second = task
      · subst htwo
        obtain ⟨call', hview', -, hslot⟩ := hsecond
        rw [Function.update_self] at hview'
        obtain ⟨rfl, rfl⟩ := Prod.mk.inj (Option.some.inj hview')
        rw [hnamed] at hslot
        exact absurd hslot (hothers hone (At.of_update hfirst hone))
      · exact hlive.apart (At.of_update hfirst hone) (At.of_update hsecond htwo)
  · intro slot hcalm
    have hslot : slot ∉ μ.call.slots := fun hslot =>
      hcalm task μ' ⟨call, Function.update_self .., hbegan, hnamed ▸ hslot⟩
    refine (hlive.calm fun other ν hat => ?_).unmoved (hsame slot hslot)
    by_cases hother : other = task
    · subst hother
      obtain ⟨call', hview', -, hin⟩ := hat
      rw [hview] at hview'
      obtain ⟨rfl, rfl⟩ := Prod.mk.inj (Option.some.inj hview')
      exact hslot hin
    · refine hcalm other ν ?_
      obtain ⟨call', hview', hν, hin⟩ := hat
      exact ⟨call', by rw [Function.update_of_ne hother]; exact hview', hν, hin⟩

theorem Durable.clear (hdurable : Durable defaults g s views)
    (hclear : g.clear call = true) :
    ∀ slot ∈ call.slots, ∀ other ν, ¬views.At other ν slot := by
  intro slot hslot other ν hat
  obtain ⟨call', hview, hbegan, hin⟩ := hat
  have hentry : g.running.get? other = some (call', ν.began) := by
    rw [hdurable.running other, hview]
    rfl
  have hfree := List.all_eq_true.mp hclear _ (Table.mem_values.mpr ⟨other, hentry⟩)
  rw [hdurable.named hview] at hin
  simp only [hbegan, Bool.not_true, Bool.false_or, List.all_eq_true] at hfree
  have := hfree slot hslot
  simp [hin] at this

theorem assigned_apply {value : slot.Value} {settings : Settings}
    (hassigned : call.assigned slot = some value) : call.apply false settings slot = value := by
  unfold NetCall.apply
  cases call <;> cases slot <;> cases hassigned <;> exact Function.update_self ..

theorem isDiscovery_false (hsetter : call.isDiscovery = false) (present : List (GuildId × RoleId)) :
    call ≠ .reconcileNew present := by
  rintro rfl
  cases hsetter

theorem settled_setter (hsetter : call.isDiscovery = false) {finding : List (GuildId × RoleId)}
    {p : Promises} : call.settled finding p = p.settle call := by
  cases call with
  | reconcileNew present => cases hsetter
  | _ => rfl

theorem Working.change (hsetter : call.isDiscovery = false)
    (hcalm : ∀ slot ∈ call.slots, Calm defaults g s slot)
    (hnames : call.renames s.memory = false) {changed : Bool}
    (hchanged : call.slots.any (call.due false s.memory) = changed) :
    Working defaults (g.did task s (.change call) changed)
      { s with memory := call.apply false s.memory }
      (({ call := call } : Doing).next (.change call) changed) where
  effect := apply_effect (isDiscovery_false hsetter)
  settled := by
    intro slot hslot
    rw [show (({ call := call } : Doing).next (.change call) changed).call = call from rfl,
      settled_setter hsetter]
    exact apply_holds (isDiscovery_false hsetter) (hcalm slot hslot).holds
  written := by
    intro slot hslot howed
    cases changed with
    | true => exact absurd hslot howed
    | false =>
        dsimp only
        rw [apply_same (isDiscovery_false hsetter) hchanged hnames]
        exact (hcalm slot hslot).written
  kept := by
    intro slot hslot _
    change g.promises.Holds slot (s.files.load defaults slot)
    rw [(hcalm slot hslot).written]
    exact (hcalm slot hslot).holds
  current := fun _ _ _ hassigned => assigned_apply hassigned
  owes := by
    intro slot howed
    cases changed with
    | true => exact howed
    | false => cases howed
  told := by
    intro htells slot hslot
    have hsilent : (changed && call.wakes) = false := htells
    unfold Diary.did
    dsimp only
    rw [hsilent, (hcalm slot hslot).told]
    rfl
  pending := fun hfound => absurd hfound (Bool.eq_false_iff.mp hsetter)
  found := fun hfound => absurd hfound (Bool.eq_false_iff.mp hsetter)

theorem Working.discover {present : List (GuildId × RoleId)} {disableNew : Bool}
    (hcalm : ∀ slot ∈ (NetCall.reconcileNew present).slots, Calm defaults g s slot) :
    Working defaults
      (g.did task s (.discover present disableNew)
        (NetCall.due (.reconcileNew present) disableNew s.memory .known,
          NetCall.due (.reconcileNew present) disableNew s.memory .optout))
      { s with
        memory := NetCall.apply (.reconcileNew present) disableNew s.memory
        holder := some task }
      (({ call := .reconcileNew present } : Doing).next (.discover present disableNew)
        (NetCall.due (.reconcileNew present) disableNew s.memory .known,
          NetCall.due (.reconcileNew present) disableNew s.memory .optout)) where
  effect := discover_effect
  settled := fun slot hslot => discover_holds (hcalm slot hslot).holds
  written := by
    intro slot hslot howed
    have hsame : NetCall.due (.reconcileNew present) disableNew s.memory slot = false := by
      refine Bool.eq_false_iff.mpr fun hdue => howed ?_
      rcases List.mem_cons.mp hslot with rfl | hslot
      · exact List.mem_append_left _ (by simp [hdue])
      · obtain rfl := List.mem_singleton.mp hslot
        exact List.mem_append_right _ (by simp [hdue])
    dsimp only
    rw [discover_same hsame]
    exact (hcalm slot hslot).written
  kept := by
    intro slot hslot _
    change g.promises.Holds slot (s.files.load defaults slot)
    rw [(hcalm slot hslot).written]
    exact (hcalm slot hslot).holds
  current := fun _ _ _ hseen => by cases hseen
  owes := by
    intro slot howed
    rcases List.mem_append.mp howed with hknown | hoptout
    · split at hknown
      · obtain rfl := List.mem_singleton.mp hknown
        exact List.mem_cons_self
      · cases hknown
    · split at hoptout
      · obtain rfl := List.mem_singleton.mp hoptout
        exact List.mem_cons_of_mem _ List.mem_cons_self
      · cases hoptout
  told := fun _ slot hslot => (hcalm slot hslot).told
  pending := by
    intro _ hpending howed
    have hnone : NetCall.due (.reconcileNew present) disableNew s.memory .optout = false := hpending
    rcases List.mem_append.mp howed with hknown | hoptout
    · split at hknown
      · cases List.mem_singleton.mp hknown
      · cases hknown
    · dsimp only at hoptout
      rw [hnone] at hoptout
      cases hoptout
  found := fun _ => rfl

theorem Working.snapshot (hworking : Working defaults g s μ) :
    Working defaults g s (μ.next (.snapshot slot) (s.memory slot)) where
  effect := hworking.effect
  settled := hworking.settled
  written := hworking.written
  kept := hworking.kept
  current := by
    intro other hother value hseen
    unfold Doing.next at hseen
    dsimp only at hseen
    by_cases hsame : other = slot
    · subst hsame
      rw [Function.update_self] at hseen
      exact Option.some.inj hseen
    · rw [Function.update_of_ne hsame] at hseen
      exact hworking.current other hother value hseen
  owes := hworking.owes
  told := hworking.told
  pending := hworking.pending
  found := hworking.found

theorem load_put_self {stored : Stored slot.Value} :
    (s.put slot stored).files.load defaults slot = stored.readOr (defaults.value slot) := by
  unfold StateDir.load Netcfg.put
  dsimp only
  rw [Function.update_self]

theorem load_put_other {other : Slot} (hother : other ≠ slot) {stored : Stored slot.Value} :
    (s.put slot stored).files.load defaults other = s.files.load defaults other := by
  unfold StateDir.load Netcfg.put
  dsimp only
  rw [Function.update_of_ne hother]

theorem Working.truncate (hworking : Working defaults g s μ) {rest : List Slot}
    (howes : μ.owes = slot :: rest) :
    Working defaults (g.did task s (.truncate slot) (.ok ())) (s.put slot .damaged)
      (μ.next (.truncate slot) (.ok ())) where
  effect := hworking.effect
  settled := hworking.settled
  written := by
    intro other hother howed
    have hne : other ≠ slot := by
      rintro rfl
      exact howed (howes ▸ List.mem_cons_self)
    rw [load_put_other hne]
    exact hworking.written other hother howed
  kept := by
    intro other hother htorn
    by_cases hne : other = slot
    · subst hne
      rw [show (g.did task s (.truncate other) (.ok ())).torn other = true from
        Function.update_self ..] at htorn
      cases htorn
    · rw [load_put_other hne]
      exact hworking.kept other hother ((Function.update_of_ne hne ..).symm.trans htorn)
  current := hworking.current
  owes := hworking.owes
  told := hworking.told
  pending := hworking.pending
  found := hworking.found

theorem Working.notify (hworking : Working defaults g s μ) :
    Working defaults (g.did task s .notify ()) s (μ.next .notify ()) where
  effect := hworking.effect
  settled := hworking.settled
  written := hworking.written
  kept := hworking.kept
  current := hworking.current
  owes := hworking.owes
  told := fun _ _ _ => rfl
  pending := hworking.pending
  found := hworking.found

theorem Working.filled (hworking : Working defaults g s μ) {rest : List Slot}
    (howes : μ.owes = slot :: rest) {value : slot.Value} (hseen : μ.seen slot = some value) :
    slot ∈ μ.call.slots ∧ (μ.next (.fill slot value) (.ok ())).owes = rest ∧
      ∀ other ∈ μ.call.slots, other ∉ rest →
        (s.put slot (.holding value)).files.load defaults other = s.memory other := by
  have hmem : slot ∈ μ.call.slots := hworking.owes slot (howes ▸ List.mem_cons_self)
  refine ⟨hmem, ?_, ?_⟩
  · unfold Doing.next
    dsimp only
    rw [howes]
    rfl
  · intro other hother howed
    by_cases hne : other = slot
    · subst hne
      exact load_put_self.trans (hworking.current other hmem value hseen).symm
    · rw [load_put_other hne]
      refine hworking.written other hother ?_
      rw [howes]
      exact fun hin => (List.mem_cons.mp hin).elim hne howed

theorem Working.fill (hworking : Working defaults g s μ)
    (hrunning : g.running.get? task = some (μ.call, true)) {rest : List Slot}
    (howes : μ.owes = slot :: rest) {value : slot.Value} (hseen : μ.seen slot = some value)
    (hknown : slot ≠ .known) :
    Working defaults (g.did task s (.fill slot value) (.ok ())) (s.put slot (.holding value))
      (μ.next (.fill slot value) (.ok ())) := by
  obtain ⟨hmem, hrest, hwritten⟩ := hworking.filled howes hseen
  have hdid : g.did task s (.fill slot value) (.ok ()) =
      { g with torn := Function.update g.torn slot μ.call.loosens } := by
    unfold Diary.did Diary.filled
    dsimp only
    rw [if_neg hknown, hrunning]
    rfl
  have hfewer : ∀ other ∈ rest, other ∈ μ.owes := fun other hin =>
    howes ▸ List.mem_cons_of_mem _ hin
  rw [hdid]
  constructor
  · exact hworking.effect
  · exact hworking.settled
  · rw [hrest]
    exact hwritten
  · intro other hother htorn
    by_cases hne : other = slot
    · subst hne
      have htight : μ.call.loosens = false := (Function.update_self ..).symm.trans htorn
      have hsettled := hworking.settled other hmem
      have hload : (s.put other (.holding value)).files.load defaults other = s.memory other :=
        load_put_self.trans (hworking.current other hmem value hseen).symm
      rw [hload]
      exact holds_of_settled htight hsettled
    · rw [load_put_other hne]
      exact hworking.kept other hother ((Function.update_of_ne hne ..).symm.trans htorn)
  · exact hworking.current
  · rw [hrest]
    exact fun other hin => hworking.owes other (hfewer other hin)
  · exact hworking.told
  · rw [hrest]
    exact fun hfound hpending hin => hworking.pending hfound hpending (hfewer _ hin)
  · exact hworking.found

theorem Working.fill_known (hworking : Working defaults g s μ) {present : List (GuildId × RoleId)}
    (hcall : μ.call = .reconcileNew present)
    {rest : List Slot} (howes : μ.owes = .known :: rest) {value : List (GuildId × RoleId)}
    (hseen : μ.seen .known = some value) :
    Working defaults (g.did task s (.fill .known value) (.ok ())) (s.put .known (.holding value))
      (μ.next (.fill .known value) (.ok ())) := by
  obtain ⟨-, hrest, hwritten⟩ := hworking.filled howes hseen
  have hfewer : ∀ other ∈ rest, other ∈ μ.owes := fun other hin =>
    howes ▸ List.mem_cons_of_mem _ hin
  have hoptout : Slot.optout ∈ μ.call.slots := by
    rw [hcall]
    exact List.mem_cons_of_mem _ List.mem_cons_self
  have hheld : ∀ net ∈ g.finding ++ g.promises.disabled, net ∈ s.memory .optout := by
    have hsettled := hworking.settled .optout hoptout
    rw [hcall] at hsettled
    exact hsettled
  constructor
  · exact hworking.effect
  · intro other hother
    change (μ.call.settled g.finding (g.promises.disable g.finding)).Holds other (s.memory other)
    replace hother : other ∈ (NetCall.reconcileNew present).slots := hcall ▸ hother
    rw [hcall]
    rcases List.mem_cons.mp hother with rfl | hother
    · trivial
    · obtain rfl := List.mem_singleton.mp hother
      intro net hnet
      rcases List.mem_append.mp hnet with hnew | hold
      · exact hheld net (List.mem_append_left _ hnew)
      · exact hheld net hold
  · rw [hrest]
    exact hwritten
  · intro other hother htorn
    change (g.promises.disable g.finding).Holds other _
    replace hother : other ∈ (NetCall.reconcileNew present).slots := hcall ▸ hother
    rcases List.mem_cons.mp hother with rfl | hother
    · trivial
    · obtain rfl := List.mem_singleton.mp hother
      rw [load_put_other (by decide)]
      have hwhole : (g.torn .optout || !g.finding.isEmpty && g.pending) = false := by
        refine Eq.trans ?_ htorn
        unfold Diary.did Diary.filled
        dsimp only
        rw [if_pos rfl]
        dsimp only
        rw [Function.update_self, Function.update_of_ne (by decide)]
      obtain ⟨hbefore, hnow⟩ := Bool.or_eq_false_iff.mp hwhole
      rcases Bool.and_eq_false_iff.mp hnow with hnone | hpending
      · have hempty : g.finding = [] := by simpa using hnone
        have hkept := hworking.kept .optout hoptout hbefore
        intro net hnet
        rw [hempty] at hnet
        exact hkept net hnet
      · have hfound : μ.call.isDiscovery = true := by
          rw [hcall]
          rfl
        have hload := hworking.written .optout hoptout (hworking.pending hfound hpending)
        rw [hload]
        exact hheld
  · exact hworking.current
  · rw [hrest]
    exact fun other hin => hworking.owes other (hfewer other hin)
  · exact hworking.told
  · rw [hrest]
    exact fun hfound hpending hin => hworking.pending hfound hpending (hfewer _ hin)
  · exact hworking.found

theorem unmoved_change {changed : Bool} (hother : slot ∉ call.slots) :
    Unmoved g (g.did task s (.change call) changed) s
      { s with memory := call.apply false s.memory } slot where
  memory := apply_other hother
  file := rfl
  promises := .refl
  torn := rfl
  told := by
    intro htold
    unfold Diary.did
    dsimp only
    rw [htold, List.contains_eq_mem, decide_eq_false hother, Bool.and_false]
    rfl

theorem unmoved_truncate {other : Slot} (hother : other ≠ slot) :
    Unmoved g (g.did task s (.truncate slot) (.ok ())) s (s.put slot .damaged) other where
  memory := rfl
  file := Function.update_of_ne hother ..
  promises := .refl
  torn := Function.update_of_ne hother ..
  told := id

theorem unmoved_fill {other : Slot} (hother : other ≠ slot)
    (hknown : slot = .known → other ≠ .optout) {value : slot.Value} :
    Unmoved g (g.did task s (.fill slot value) (.ok ())) s (s.put slot (.holding value)) other := by
  unfold Diary.did Diary.filled
  dsimp only
  split
  · rename_i hfound
    refine ⟨rfl, Function.update_of_ne hother .., disable_agree (hknown hfound), ?_, id⟩
    dsimp only
    rw [Function.update_of_ne (hknown hfound), Function.update_of_ne hother]
  · exact ⟨rfl, Function.update_of_ne hother .., .refl, Function.update_of_ne hother .., id⟩

theorem known_discovers (hknown : Slot.known ∈ call.slots) :
    ∃ present, call = .reconcileNew present := by
  cases call with
  | reconcileNew present => exact ⟨present, rfl⟩
  | _ => simp [NetCall.slots] at hknown

/-! One obligation for each kind of step. -/

theorem Durable.listed (hdurable : Durable defaults g s views)
    {running : Table Nat (NetCall × Bool)}
    (hview : views task = some (call, μ))
    (hsame : ∀ other, other ≠ task → running.get? other = g.running.get? other)
    (htask : running.get? task = some (call, μ'.began)) (other : Nat) :
    running.get? other =
      (Function.update views task (some (call, μ')) other).map fun view =>
        (view.1, view.2.began) := by
  by_cases hother : other = task
  · subst hother
    rw [htask, Function.update_self]
    rfl
  · rw [hsame other hother, Function.update_of_ne hother]
    exact hdurable.running other

theorem Durable.renamed (hdurable : Durable defaults g s views)
    (hview : views task = some (call, μ)) (hnamed : μ'.call = μ.call) {other : Nat}
    {call' : NetCall} {ν : Doing}
    (hother : Function.update views task (some (call, μ')) other = some (call', ν)) :
    ν.call = call' := by
  rcases Machine.update_some_cases hother with ⟨-, hview'⟩ | ⟨-, hview'⟩
  · obtain ⟨rfl, rfl⟩ := Prod.mk.inj hview'
    exact hnamed.trans (hdurable.named hview)
  · exact hdurable.named hview'

theorem Durable.work (hdurable : Durable defaults g s views) (hlive : Live defaults g s views)
    (hview : views task = some (call, μ)) (hbegan : μ.began = true)
    (hnamed : μ'.call = μ.call) (hgoes : μ'.began = true) (halive : s'.alive = true)
    (hrunning : g'.running = g.running) (hworking : Working defaults g' s' μ')
    (hsame : ∀ slot, slot ∉ μ.call.slots → Unmoved g g' s s' slot)
    (hfinding : g'.finding = g.finding ∧ g'.pending = g.pending) :
    Durable defaults g' s' (Function.update views task (some (call, μ'))) where
  running := by
    refine hdurable.listed hview (fun other _ => by rw [hrunning]) ?_
    rw [hrunning, hdurable.running task, hview, hgoes, ← hbegan]
    rfl
  named := hdurable.renamed hview hnamed
  live := fun _ => hlive.work hview hnamed hgoes (.inl hbegan) hworking hsame fun _ => hfinding
  dead := fun hdead => absurd halive (Bool.eq_false_iff.mp hdead)

theorem Durable.begin (hdurable : Durable defaults g s views) (hlive : Live defaults g s views)
    (hview : views task = some (call, μ)) (hclear : g.clear μ.call = true)
    (hnamed : μ'.call = μ.call) (hgoes : μ'.began = true) (halive : s'.alive = true)
    (hrunning : g'.running = g.begin task) (hworking : Working defaults g' s' μ')
    (hsame : ∀ slot, slot ∉ μ.call.slots → Unmoved g g' s s' slot)
    (hfinding : μ.call.isDiscovery = false → g'.finding = g.finding ∧ g'.pending = g.pending) :
    Durable defaults g' s' (Function.update views task (some (call, μ'))) where
  running := by
    refine hdurable.listed hview (fun other hother => ?_) ?_
    · rw [hrunning, Diary.begin, Table.get?_modify, if_neg hother]
    · rw [hrunning, Diary.begin, Table.get?_modify, if_pos rfl, hdurable.running task, hview, hgoes]
      rfl
  named := hdurable.renamed hview hnamed
  live := fun _ =>
    hlive.work hview hnamed hgoes (.inr (hdurable.clear hclear)) hworking hsame hfinding
  dead := fun hdead => absurd halive (Bool.eq_false_iff.mp hdead)

theorem Durable.idle (hdurable : Durable defaults g s views) (hview : views task = some (call, μ)) :
    Durable defaults g s (Function.update views task (some (call, μ))) := by
  rw [Function.update_eq_self_iff.mpr hview.symm]
  exact hdurable

theorem Durable.did (hdurable : Durable defaults g s views) (hview : views task = some (call, μ))
    {o : NetOp} {answer : o.Answer} {choice : NetChoice} (hallows : μ.Allows o)
    (hexec : (if s.alive then s.exec task choice o else none) = some (answer, s'))
    (hguard : carefully g s (.did task o answer : (netcfg defaults).Event) = true) :
    Doing.Expects o answer ∧
      Durable defaults (g.did task s o answer) s'
        (Function.update views task (some (call, μ.next o answer))) := by
  have hspared := (Bool.and_eq_true_iff.mp hguard).2
  by_cases halive : s.alive = true
  case neg =>
    rw [if_neg halive] at hexec
    cases hexec
  rw [if_pos halive] at hexec
  have hlive := hdurable.live halive
  -- what is owed is owed by a call that has been at its settings
  have hbegan : ∀ {slot rest}, μ.owes = slot :: rest → μ.began = true := by
    intro slot rest howes
    by_contra hbegan
    rw [hlive.early hview (Bool.eq_false_iff.mpr hbegan)] at howes
    cases howes
  cases o with
  | change changing =>
      obtain ⟨rfl, hsetter, hearly⟩ := hallows
      obtain ⟨hclear, hnames⟩ := Bool.and_eq_true_iff.mp hspared
      obtain rfl := hdurable.named hview
      have hone : μ = { call := μ.call } := hlive.early hview hearly
      unfold Netcfg.exec at hexec
      dsimp only at hexec
      split at hexec
      case isFalse => cases hexec
      obtain ⟨rfl, rfl⟩ := Prod.mk.inj (Option.some.inj hexec)
      have hworking : Working defaults (g.did task s (.change μ.call) _) _ _ :=
        Working.change hsetter (fun slot hslot => hlive.calm (hdurable.clear hclear slot hslot))
          (by simpa using hnames) rfl
      rw [← hone] at hworking
      exact ⟨trivial, hdurable.begin hlive hview hclear rfl rfl halive rfl hworking
        (fun slot hslot => unmoved_change hslot) fun _ => ⟨rfl, rfl⟩⟩
  | discover present disableNew =>
      obtain ⟨hcall, hearly⟩ := hallows
      have hclear : g.clear μ.call = true := hcall ▸ hspared
      have hone : μ = { call := .reconcileNew present } := by
        rw [← hcall, hdurable.named hview]
        exact hlive.early hview hearly
      unfold Netcfg.exec at hexec
      dsimp only at hexec
      split at hexec
      case isFalse => cases hexec
      obtain ⟨rfl, rfl⟩ := Prod.mk.inj (Option.some.inj hexec)
      have hworking : Working defaults (g.did task s (.discover present disableNew) _) _ _ :=
        Working.discover fun slot hslot => hlive.calm (hdurable.clear (hcall ▸ hclear) slot hslot)
      rw [← hone] at hworking
      refine ⟨trivial, hdurable.begin hlive hview hclear rfl rfl halive rfl hworking
        (fun slot hslot => ⟨apply_other (hcall ▸ hslot), rfl, .refl, rfl, id⟩) fun hsetter => ?_⟩
      rw [hcall] at hsetter
      cases hsetter
  | policy =>
      cases hexec
      exact ⟨trivial, hdurable.idle hview⟩
  | snapshot slot =>
      unfold Netcfg.exec at hexec
      dsimp only at hexec
      split at hexec
      case isFalse => cases hexec
      obtain ⟨rfl, rfl⟩ := Prod.mk.inj (Option.some.inj hexec)
      exact ⟨trivial, hdurable.work hlive hview hallows.2 rfl hallows.2 halive rfl
        (hlive.working hview hallows.2).snapshot (fun _ _ => .refl) ⟨rfl, rfl⟩⟩
  | truncate slot =>
      obtain ⟨rest, howes, -⟩ := hallows
      have hwritten : choice.refused = false := by
        by_contra hrefused
        unfold Netcfg.exec at hexec
        dsimp only at hexec
        rw [if_pos (by simpa using hrefused)] at hexec
        obtain ⟨rfl, rfl⟩ := Prod.mk.inj (Option.some.inj hexec)
        cases hspared
      unfold Netcfg.exec at hexec
      dsimp only at hexec
      rw [hwritten, if_neg Bool.false_ne_true] at hexec
      obtain ⟨rfl, rfl⟩ := Prod.mk.inj (Option.some.inj hexec)
      have hworking := hlive.working hview (hbegan howes)
      have hmem : slot ∈ μ.call.slots := hworking.owes slot (howes ▸ List.mem_cons_self)
      exact ⟨rfl, hdurable.work hlive hview (hbegan howes) rfl (hbegan howes) halive rfl
        (hworking.truncate howes) (fun other hother =>
          unmoved_truncate fun hsame => hother (hsame ▸ hmem)) ⟨rfl, rfl⟩⟩
  | fill slot value =>
      obtain ⟨rest, howes, -, hseen⟩ := hallows
      have hwritten : choice.refused = false := by
        by_contra hrefused
        unfold Netcfg.exec at hexec
        dsimp only at hexec
        rw [if_pos (by simpa using hrefused)] at hexec
        obtain ⟨rfl, rfl⟩ := Prod.mk.inj (Option.some.inj hexec)
        cases hspared
      unfold Netcfg.exec at hexec
      dsimp only at hexec
      rw [hwritten, if_neg Bool.false_ne_true] at hexec
      obtain ⟨rfl, rfl⟩ := Prod.mk.inj (Option.some.inj hexec)
      have hworking := hlive.working hview (hbegan howes)
      have hmem : slot ∈ μ.call.slots := hworking.owes slot (howes ▸ List.mem_cons_self)
      have hdone : Working defaults (g.did task s (.fill slot value) (.ok ()))
          (s.put slot (.holding value)) (μ.next (.fill slot value) (.ok ())) := by
        by_cases hknown : slot = .known
        · subst hknown
          obtain ⟨present, hcall⟩ := known_discovers hmem
          exact hworking.fill_known hcall howes hseen
        · refine hworking.fill ?_ howes hseen hknown
          rw [hdurable.running task, hview, hdurable.named hview]
          exact congrArg (fun began => some (call, began)) (hbegan howes)
      have hother : ∀ other, other ∉ μ.call.slots →
          Unmoved g (g.did task s (.fill slot value) (.ok ())) s
            (s.put slot (.holding value)) other := by
        intro other hother
        have hne : other ≠ slot := by
          rintro rfl
          exact hother hmem
        refine unmoved_fill hne ?_
        rintro rfl rfl
        obtain ⟨present, hcall⟩ := known_discovers hmem
        exact hother (hcall ▸ List.mem_cons_of_mem _ List.mem_cons_self)
      have hsame : (g.did task s (.fill slot value) (.ok ())).running = g.running ∧
          (g.did task s (.fill slot value) (.ok ())).finding = g.finding ∧
          (g.did task s (.fill slot value) (.ok ())).pending = g.pending := by
        unfold Diary.did Diary.filled
        dsimp only
        split <;> exact ⟨rfl, rfl, rfl⟩
      exact ⟨rfl, hdurable.work hlive hview (hbegan howes) rfl (hbegan howes) halive hsame.1
        hdone hother hsame.2⟩
  | notify =>
      cases hexec
      exact ⟨trivial, hdurable.work hlive hview hallows rfl hallows halive rfl
        (hlive.working hview hallows).notify
        (fun _ _ => ⟨rfl, rfl, .refl, rfl, fun _ => rfl⟩) ⟨rfl, rfl⟩⟩

theorem Durable.called (hdurable : Durable defaults g s views) (hfree : views task = none)
    (halive : s.alive = true) :
    Durable defaults { g with running := g.running.insert task (call, false) } s
      (Function.update views task (some (call, { call := call }))) := by
  have hlive := hdurable.live halive
  -- the call has been nowhere yet
  have hbefore : ∀ {other ν slot},
      Doings.At (Function.update views task (some (call, { call := call }))) other ν slot →
        views.At other ν slot := by
    rintro other ν slot ⟨call', hview, hbegan, hslot⟩
    rcases Machine.update_some_cases hview with ⟨-, hone⟩ | ⟨-, hold⟩
    · obtain ⟨rfl, rfl⟩ := Prod.mk.inj hone
      cases hbegan
    · exact ⟨call', hold, hbegan, hslot⟩
  constructor
  · intro other
    by_cases hother : other = task
    · subst hother
      rw [Table.get?_insert, if_pos rfl, Function.update_self]
      rfl
    · rw [Table.get?_insert, if_neg hother, Function.update_of_ne hother]
      exact hdurable.running other
  · intro other call' ν hview
    rcases Machine.update_some_cases hview with ⟨-, hone⟩ | ⟨-, hold⟩
    · obtain ⟨rfl, rfl⟩ := Prod.mk.inj hone
      rfl
    · exact hdurable.named hold
  · refine fun _ => ⟨?_, ?_, ?_, ?_⟩
    · intro other call' ν hview hbegan
      rcases Machine.update_some_cases hview with ⟨-, hone⟩ | ⟨-, hold⟩
      · obtain ⟨rfl, rfl⟩ := Prod.mk.inj hone
        cases hbegan
      · exact (hlive.working hold hbegan).unmoved (fun _ _ => ⟨rfl, rfl, .refl, rfl, id⟩)
          fun _ => ⟨rfl, rfl⟩
    · intro other call' ν hview hbegan
      rcases Machine.update_some_cases hview with ⟨-, hone⟩ | ⟨-, hold⟩
      · obtain ⟨rfl, rfl⟩ := Prod.mk.inj hone
        rfl
      · exact hlive.early hold hbegan
    · exact fun hfirst hsecond => hlive.apart (hbefore hfirst) (hbefore hsecond)
    · intro slot hcalm
      refine (hlive.calm fun other ν hat => hcalm other ν ?_).unmoved
        ⟨rfl, rfl, .refl, rfl, id⟩
      obtain ⟨call', hview, hbegan, hslot⟩ := hat
      refine ⟨call', ?_, hbegan, hslot⟩
      rw [Function.update_of_ne]
      · exact hview
      · rintro rfl
        rw [hfree] at hview
        cases hview
  · exact fun hdead => absurd halive (Bool.eq_false_iff.mp hdead)

theorem Durable.forgotten (hdurable : Durable defaults g s views) (other : Nat) :
    (g.running.erase task).get? other =
      (Function.update views task none other).map fun view => (view.1, view.2.began) := by
  by_cases hother : other = task
  · subst hother
    rw [Table.get?_erase, if_pos rfl, Function.update_self]
    rfl
  · rw [Table.get?_erase, if_neg hother, Function.update_of_ne hother]
    exact hdurable.running other

theorem settles {finding : List (GuildId × RoleId)} {p : Promises} {value : slot.Value}
    (hsettled : (call.settled finding p).Holds slot value) : (p.settle call).Holds slot value := by
  cases call with
  | reconcileNew present => exact holds_of_disable hsettled
  | _ => exact hsettled

theorem Durable.ended (hdurable : Durable defaults g s views) (hview : views task = some (call, μ))
    (halive : s.alive = true) (hbegan : μ.began = true) (howes : μ.owes = [])
    (htells : μ.tells = false) (hmemory : s'.memory = s.memory) (hfiles : s'.files = s.files)
    (hgoes : s'.alive = true) :
    Durable defaults (g.ended task call true) s' (Function.update views task none) := by
  have hlive := hdurable.live halive
  have hworking := hlive.working hview hbegan
  obtain rfl := hdurable.named hview
  have hothers : ∀ {other ν slot}, other ≠ task → views.At other ν slot → slot ∉ μ.call.slots :=
    fun hother hat hslot => hother (hlive.apart hat ⟨_, hview, hbegan, hslot⟩)
  have hsame : ∀ slot, slot ∉ μ.call.slots →
      Unmoved g (g.ended task μ.call true) s s' slot := by
    intro slot hslot
    refine ⟨by rw [hmemory], by rw [hfiles], settle_agree hslot, ?_, id⟩
    unfold Diary.ended
    dsimp only
    rw [List.contains_eq_mem, decide_eq_false hslot]
    exact Bool.and_true _
  refine ⟨hdurable.forgotten, ?_, fun _ => ⟨?_, ?_, ?_, ?_⟩,
    fun hdead => absurd hgoes (Bool.eq_false_iff.mp hdead)⟩
  · exact fun hother => hdurable.named (Machine.update_none_cases hother).2
  · intro other call' ν hother hν
    obtain ⟨hne, hview'⟩ := Machine.update_none_cases hother
    exact (hlive.working hview' hν).unmoved
      (fun slot hslot => hsame slot (hothers hne ⟨call', hview', hν, hslot⟩)) fun _ => ⟨rfl, rfl⟩
  · exact fun hother => hlive.early (Machine.update_none_cases hother).2
  · rintro first second ν ν' slot ⟨call₁, hfirst, hone⟩ ⟨call₂, hsecond, htwo⟩
    exact hlive.apart ⟨call₁, (Machine.update_none_cases hfirst).2, hone⟩
      ⟨call₂, (Machine.update_none_cases hsecond).2, htwo⟩
  · intro slot hcalm
    by_cases hslot : slot ∈ μ.call.slots
    · constructor
      · rw [hmemory, hfiles]
        exact hworking.written slot hslot (by rw [howes]; exact List.not_mem_nil)
      · rw [hmemory]
        exact settles (hworking.settled slot hslot)
      · unfold Diary.ended
        dsimp only
        rw [List.contains_eq_mem, decide_eq_true hslot]
        exact Bool.and_false _
      · exact hworking.told htells slot hslot
    · refine (hlive.calm fun other ν hat => ?_).unmoved (hsame slot hslot)
      obtain ⟨call', hview', hν, hin⟩ := hat
      by_cases hother : other = task
      · subst hother
        rw [hview] at hview'
        obtain ⟨rfl, rfl⟩ := Prod.mk.inj (Option.some.inj hview')
        exact hslot hin
      · exact hcalm other ν ⟨call', by rw [Function.update_of_ne hother]; exact hview', hν, hin⟩

theorem Durable.dropped (hdurable : Durable defaults g s views) (hdead : s.alive = false)
    (hfiles : s'.files = s.files) (hstays : s'.alive = false) :
    Durable defaults { g with running := g.running.erase task } s'
      (Function.update views task none) where
  running := hdurable.forgotten
  named := fun hother => hdurable.named (Machine.update_none_cases hother).2
  live := fun halive => absurd halive (Bool.eq_false_iff.mp hstays)
  dead := by
    intro _ slot
    rw [hfiles]
    exact hdurable.dead hdead slot

theorem Durable.killed (hdurable : Durable defaults g s views) (halive : s.alive = true)
    (hspared : spared g s (.moved .killed : (netcfg defaults).Event) = true) :
    Durable defaults g { s with alive := false } views where
  running := hdurable.running
  named := hdurable.named
  live := fun hlive => by cases hlive
  dead := by
    intro _ slot
    have hlive := hdurable.live halive
    have hwhole : g.torn slot = false → g.promises.Holds slot (s.files.load defaults slot) := by
      intro htorn
      by_cases hat : ∃ task μ, views.At task μ slot
      · obtain ⟨task, μ, call, hview, hbegan, hslot⟩ := hat
        exact (hlive.working hview hbegan).kept slot hslot htorn
      · have hcalm := hlive.calm fun task μ hmeets => hat ⟨task, μ, hmeets⟩
        rw [hcalm.written]
        exact hcalm.holds
    have htorn : g.torn slot = false ∨ g.promises.carries slot = false := by
      have hall := List.all_eq_true.mp hspared
      cases slot with
      | optout => simpa [Bool.and_eq_false_iff] using hall .optout (by decide)
      | blocked => simpa [Bool.and_eq_false_iff] using hall .blocked (by decide)
      | paused => simpa [Bool.and_eq_false_iff] using hall .paused (by decide)
      | known | disableNew | peerOwn | certsEnabled => exact .inr rfl
    rcases htorn with htorn | hnone
    · exact hwhole htorn
    · exact Promises.holds_of_carries hnone

theorem Durable.loaded (hdurable : Durable defaults g s views) (hdead : s.alive = false)
    (hgone : g.running.keys.isEmpty = true) :
    Durable defaults { running := ∅, promises := g.promises }
      { memory := s.files.load defaults, files := s.files, alive := true } views := by
  have hnone : ∀ task, views task = none := by
    intro task
    have habsent : g.running.get? task = none := by
      refine Table.not_mem_keys.mp fun hin => ?_
      rw [List.isEmpty_iff.mp hgone] at hin
      cases hin
    rw [hdurable.running task] at habsent
    exact Option.map_eq_none_iff.mp habsent
  refine ⟨fun task => by rw [hnone task]; rfl, hdurable.named, fun _ => ⟨?_, ?_, ?_, ?_⟩,
    fun halive => by cases halive⟩
  · intro task call μ hview
    rw [hnone task] at hview
    cases hview
  · intro task call μ hview
    rw [hnone task] at hview
    cases hview
  · rintro first second μ μ' slot ⟨call, hview, -⟩
    rw [hnone first] at hview
    cases hview
  · exact fun _ => ⟨rfl, hdurable.dead hdead _, rfl, rfl⟩

end

def durably (defaults : Defaults) :
    Machine.Discipline (netcfg defaults) (diary defaults) (Machine.passes carefully) Doing where
  mon := doing
  opening := fun _ _ call => { call := call }
  post := fun _ μ result => μ.Ends result
  inv := fun g s views => Durable defaults g s views
  conforms := fun _ _ call => conforms_call call
  called := by
    intro g s views task call hdurable hfree hguard
    exact hdurable.called hfree (Bool.and_eq_true_iff.mp hguard).1
  did := fun hdurable hview hallows hexec hguard => hdurable.did hview hallows hexec hguard
  ended := by
    intro g s views task call μ result hdurable hview hends hguard
    cases result with
    | error error => exact hends.elim
    | ok changed =>
        obtain ⟨hbegan, howes, htells, -⟩ := hends
        have halive : s.alive = true := (Bool.and_eq_true_iff.mp hguard).1
        refine hdurable.ended hview halive hbegan howes htells ?_ ?_ ?_
        · dsimp only
          split <;> rfl
        · dsimp only
          split <;> rfl
        · dsimp only
          split <;> exact halive
  dropped := by
    intro g s views task call μ hdurable hview hguard
    have hdead : s.alive = false := by
      simpa [plausibly] using (Bool.and_eq_true_iff.mp hguard).1
    refine hdurable.dropped hdead ?_ ?_
    · dsimp only
      split <;> rfl
    · dsimp only
      split <;> exact hdead
  moved := by
    intro g s views move s' hdurable hmoved hguard
    obtain ⟨hpossible, hspared⟩ := Bool.and_eq_true_iff.mp hguard
    cases move with
    | killed =>
        dsimp only at hmoved
        split at hmoved
        · rename_i halive
          obtain rfl := Option.some.inj hmoved
          exact hdurable.killed halive hspared
        · cases hmoved
    | loaded =>
        dsimp only at hmoved
        split at hmoved
        · cases hmoved
        · rename_i hdead
          obtain rfl := Option.some.inj hmoved
          exact hdurable.loaded (Bool.eq_false_iff.mpr hdead) hpossible

section

variable {defaults : Defaults} {c c' : (netcfg defaults).Config} {g : Diary}
  {event : (netcfg defaults).Event}

theorem durable_off (memory : Settings) (files : StateDir) :
    Durable defaults {} { memory := memory, files := files } fun _ => none where
  running := fun _ => rfl
  named := fun hview => by cases hview
  live := fun halive => by cases halive
  dead := fun _ slot => Promises.holds_of_carries (by cases slot <;> rfl)

theorem Durable.respects {views : Doings} (hdurable : Durable defaults g c.shared views)
    (htracks : (durably defaults).Tracks c views) (hstep : Machine.Step c event c')
    (hallowed : carefully g c.shared event = true) : Respects g c.shared event := by
  cases hstep with
  | call | perform | drop => trivial
  | finish running =>
      obtain ⟨μ, hview, hends, -⟩ := htracks.running running
      obtain ⟨hbegan, howes, htells, hfound⟩ : Doing.Ends μ (.ok _) := hends
      have halive : c.shared.alive = true := (Bool.and_eq_true_iff.mp hallowed).1
      have hworking := (hdurable.live halive).working hview hbegan
      obtain rfl := hdurable.named hview
      refine ⟨hworking.effect, ?_, fun _ => hworking.told htells,
        fun hdiscovery => (hfound hdiscovery).trans (hworking.found hdiscovery)⟩
      refine effect_congr (fun slot hslot => ?_) hworking.effect
      exact (hworking.written slot hslot (by rw [howes]; exact List.not_mem_nil)).symm
  | abort running =>
      obtain ⟨μ, -, hends, -⟩ := htracks.running running
      exact False.elim hends
  | move moved =>
      rename_i move shared
      cases move with
      | killed => trivial
      | loaded =>
          dsimp only at moved
          split at moved
          · cases moved
          · rename_i hdead
            exact hdurable.dead (Bool.eq_false_iff.mpr hdead)

end

/-- What an `Ok` call has chosen is in memory and on disk, the loop is woken for it, and every
process starts with what was closed. -/
theorem choices_durable (defaults : Defaults) (memory : Settings) (files : StateDir)
    {c c' : (netcfg defaults).Config} {g : Diary} {event : (netcfg defaults).Event}
    (hreach : Machine.Reach (diary defaults) (Machine.passes carefully)
      ((netcfg defaults).idle { memory := memory, files := files }) {} c g)
    (hstep : Machine.Step c event c') (hallowed : carefully g c.shared event = true) :
    Respects g c.shared event := by
  obtain ⟨views, htracks, hinv⟩ := (durably defaults).run (durable_off memory files) hreach
  have hdurable : Durable defaults g c.shared views := hinv
  exact hdurable.respects htracks hstep hallowed

def cautious : Defaults where
  disableNew := true
  peerOwn := false

/-- The directory of a device that was never started. -/
def unused : Netcfg where
  memory := cautious.value
  files := fun _ => .absent

def optingOut : List (netcfg cautious).Label :=
  [.move .loaded, .call (.set 1 10 false)] ++ List.replicate 5 (.step 0 {})

def returning (c : (netcfg cautious).Config) (g : Diary) : Bool :=
  match Machine.advance c (.step 0 {}) with
  | some (.ended 0 (.set 1 10 false) (.ok changed), _) =>
      changed && carefully g c.shared
        (.ended 0 (.set 1 10 false) (.ok changed) : (netcfg cautious).Event)
  | _ => false

theorem choices_durable_opt_out :
    ∃ c g c', Machine.Reach (diary cautious) (Machine.passes carefully)
        ((netcfg cautious).idle unused) {} c g ∧
      Machine.Step c (.ended 0 (.set 1 10 false) (.ok true)) c' ∧
        Respects g c.shared
          (.ended 0 (.set 1 10 false) (.ok true) : (netcfg cautious).Event) := by
  have hplay : (Machine.play (diary cautious) carefully ((netcfg cautious).idle unused) {}
      optingOut).any (fun last => returning last.1 last.2) = true := by
    decide
  have hrun : ∃ c g, Machine.Reach (diary cautious) (Machine.passes carefully)
      ((netcfg cautious).idle unused) {} c g ∧ returning c g = true :=
    Machine.reach_of_play (fun _ _ _ hcareful => hcareful) hplay
  obtain ⟨c, g, hreach, hend⟩ := hrun
  unfold returning at hend
  split at hend
  · rename_i changed c' hadvance
    obtain ⟨rfl, hcareful⟩ := Bool.and_eq_true_iff.mp hend
    have hstep := Machine.advance_sound hadvance
    exact ⟨c, g, c', hreach, hstep,
      choices_durable cautious cautious.value (fun _ => .absent) hreach hstep hcareful⟩
  · cases hend

def unwritten : List (netcfg cautious).Label :=
  [.move .loaded, .call (.setPaused true), .step 0 {}, .step 0 { refused := true }]

def failing (c : (netcfg cautious).Config) (g : Diary) : Bool :=
  match Machine.advance c (.step 0 {}) with
  | some (.ended 0 (.setPaused true) (.error ()), _) =>
      plausibly g c.shared
          (.ended 0 (.setPaused true) (.error ()) : (netcfg cautious).Event) &&
        !NetCall.due (.setPaused true) (c.shared.memory .disableNew) c.shared.memory .paused
  | _ => false

/-- After the error the same call finds nothing to write. -/
theorem refused_write_forgotten :
    ∃ c g c', Machine.Reach (diary cautious) (Machine.passes plausibly)
        ((netcfg cautious).idle unused) {} c g ∧
      Machine.Step c (.ended 0 (.setPaused true) (.error ())) c' ∧
        plausibly g c.shared
          (.ended 0 (.setPaused true) (.error ()) : (netcfg cautious).Event) = true ∧
          ¬Respects g c.shared
            (.ended 0 (.setPaused true) (.error ()) : (netcfg cautious).Event) := by
  have hplay : (Machine.play (diary cautious) plausibly ((netcfg cautious).idle unused) {}
      unwritten).any (fun last => failing last.1 last.2) = true := by
    decide
  have hrun : ∃ c g, Machine.Reach (diary cautious) (Machine.passes plausibly)
      ((netcfg cautious).idle unused) {} c g ∧ failing c g = true :=
    Machine.reach_of_play (fun _ _ _ hpossible => hpossible) hplay
  obtain ⟨c, g, hreach, hend⟩ := hrun
  unfold failing at hend
  split at hend
  · rename_i c' hadvance
    obtain ⟨hpossible, hnothing⟩ := Bool.and_eq_true_iff.mp hend
    refine ⟨c, g, c', hreach, Machine.advance_sound hadvance, hpossible, ?_⟩
    rintro ⟨slot, hslot, hdue⟩
    obtain rfl := List.mem_singleton.mp hslot
    rw [hdue] at hnothing
    cases hnothing
  · cases hend

end UnityLan.Engine
