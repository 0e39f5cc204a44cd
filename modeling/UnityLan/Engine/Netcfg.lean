import UnityLan.Engine.Fw.Presence
import UnityLan.Foundation.Pool
import UnityLan.Foundation.Stored

namespace UnityLan.Engine

open UnityLan.Foundation Fw

/-! What the owner chose on a device: in memory, and in one file for each setting. -/

inductive Slot
  | optout
  | paused
  | known
  | disableNew
  | peerOwn
  | certsEnabled
  | blocked
  deriving DecidableEq

abbrev Slot.Value : Slot → Type
  | .optout | .known => List (GuildId × RoleId)
  | .blocked => Table UserId String
  | .paused | .disableNew | .peerOwn | .certsEnabled => Bool

abbrev Settings : Type := (slot : Slot) → slot.Value

def Settings.localNet (settings : Settings) : LocalNet where
  disabled := settings .optout
  known := settings .known
  disableNew := settings .disableNew
  paused := settings .paused
  blocked := settings .blocked

/-- What the configuration says of the first run. -/
structure Defaults where
  disableNew : Bool
  peerOwn : Bool

def Defaults.value (defaults : Defaults) : Settings
  | .optout | .known => []
  | .blocked => ∅
  | .paused | .certsEnabled => false
  | .disableNew => defaults.disableNew
  | .peerOwn => defaults.peerOwn

abbrev StateDir : Type := (slot : Slot) → Stored slot.Value

/-- `LocalNet::load`, with `read_json_or` for each file. -/
def StateDir.load (files : StateDir) (defaults : Defaults) : Settings := fun slot =>
  (files slot).readOr (defaults.value slot)

inductive NetCall
  | setPaused (paused : Bool)
  | setDisableNew (disable : Bool)
  | setPeerOwnDevices (enabled : Bool)
  | setCertsEnabled (enabled : Bool)
  | setBlocked (userId : UserId) (username : String) (blocked : Bool)
  | set (guildId : GuildId) (roleId : RoleId) (enabled : Bool)
  | reconcileNew (present : List (GuildId × RoleId))
  deriving DecidableEq

namespace NetCall

def slots : NetCall → List Slot
  | .setPaused _ => [.paused]
  | .setDisableNew _ => [.disableNew]
  | .setPeerOwnDevices _ => [.peerOwn]
  | .setCertsEnabled _ => [.certsEnabled]
  | .setBlocked _ _ _ => [.blocked]
  | .set _ _ _ => [.optout]
  | .reconcileNew _ => [.known, .optout]

def apply (call : NetCall) (disableNew : Bool) (settings : Settings) : Settings :=
  match call with
  | .setPaused paused => Function.update settings .paused paused
  | .setDisableNew disable => Function.update settings .disableNew disable
  | .setPeerOwnDevices enabled => Function.update settings .peerOwn enabled
  | .setCertsEnabled enabled => Function.update settings .certsEnabled enabled
  | .setBlocked userId username blocked =>
      Function.update settings .blocked
        (if blocked then (settings .blocked).insert userId username
        else (settings .blocked).erase userId)
  | .set guildId roleId enabled =>
      Function.update settings .optout
        (if enabled then (settings .optout).filter fun net => net != (guildId, roleId)
        else if (settings .optout).contains (guildId, roleId) then settings .optout
        else settings .optout ++ [(guildId, roleId)])
  | .reconcileNew present =>
      let found := { settings.localNet with disableNew := disableNew }.reconcileNew present
      Function.update (Function.update settings .known found.known) .optout found.disabled

/-- Whether a call finds a setting to change; of a user that is blocked already the name does not
count. -/
def due (call : NetCall) (disableNew : Bool) (settings : Settings) (slot : Slot) : Bool :=
  match call, slot with
  | .setPaused paused, .paused => settings .paused != paused
  | .setDisableNew disable, .disableNew => settings .disableNew != disable
  | .setPeerOwnDevices enabled, .peerOwn => settings .peerOwn != enabled
  | .setCertsEnabled enabled, .certsEnabled => settings .certsEnabled != enabled
  | .setBlocked userId _ blocked, .blocked => (settings .blocked).contains userId != blocked
  | .set guildId roleId enabled, .optout =>
      (settings .optout).contains (guildId, roleId) == enabled
  | .reconcileNew present, .known =>
      present.any fun net => !(settings .known).contains net
  | .reconcileNew present, .optout =>
      disableNew && present.any fun net =>
        !(settings .known).contains net && !(settings .optout).contains net
  | _, _ => false

def wakes : NetCall → Bool
  | .setDisableNew _ | .reconcileNew _ => false
  | _ => true

def isDiscovery : NetCall → Bool
  | .reconcileNew _ => true
  | _ => false

end NetCall

inductive NetOp
  /-- The section of a setter under its lock. -/
  | change (call : NetCall)
  | policy
  /-- The section of a discovery, which keeps its locks. -/
  | discover (present : List (GuildId × RoleId)) (disableNew : Bool)
  | snapshot (slot : Slot)
  /-- The file is opened, and empty. -/
  | truncate (slot : Slot)
  | fill (slot : Slot) (value : slot.Value)
  | notify

abbrev NetOp.Answer : NetOp → Type
  | .change _ => Bool
  | .policy => Bool
  | .discover _ _ => Bool × Bool
  | .snapshot slot => slot.Value
  | .truncate _ | .fill _ _ => Except Unit Unit
  | .notify => Unit

abbrev NetSig : Sig where
  Op := NetOp
  Res := NetOp.Answer

abbrev NetM := Prog NetSig Unit

def act (o : NetOp) : NetM o.Answer :=
  .op o .ret

def orFail (o : NetOp) (read : o.Answer → Except Unit Unit) : NetM Unit :=
  Prog.performOr o read

def writeJson (slot : Slot) (value : slot.Value) : NetM Unit := do
  orFail (.truncate slot) id
  orFail (.fill slot value) id

def assign (call : NetCall) (slot : Slot) (value : slot.Value) : NetM Bool := do
  let changed ← act (.change call)
  if changed then
    writeJson slot value
    if call.wakes then act .notify
  return changed

def adjust (call : NetCall) (slot : Slot) : NetM Bool := do
  let changed ← act (.change call)
  if changed then
    let value ← act (.snapshot slot)
    writeJson slot value
    act .notify
  return changed

/-- `reconcile_new`. -/
def discovery (present : List (GuildId × RoleId)) : NetM Bool := do
  let disableNew ← act .policy
  let changed ← act (.discover present disableNew)
  if changed.1 then
    let known ← act (.snapshot .known)
    writeJson .known known
  if changed.2 then
    let disabled ← act (.snapshot .optout)
    writeJson .optout disabled
  return changed.2

def NetCall.program : NetCall → NetM Bool
  | .setPaused paused => assign (.setPaused paused) .paused paused
  | .setDisableNew disable => assign (.setDisableNew disable) .disableNew disable
  | .setPeerOwnDevices enabled => assign (.setPeerOwnDevices enabled) .peerOwn enabled
  | .setCertsEnabled enabled => assign (.setCertsEnabled enabled) .certsEnabled enabled
  | .setBlocked userId username blocked => adjust (.setBlocked userId username blocked) .blocked
  | .set guildId roleId enabled => adjust (.set guildId roleId enabled) .optout
  | .reconcileNew present => discovery present

structure Netcfg where
  memory : Settings
  files : StateDir
  /-- The discovery that has the locks of the networks. -/
  holder : Option Nat := none
  alive : Bool := false

structure NetChoice where
  refused : Bool := false
  deriving DecidableEq

namespace Netcfg

variable (s : Netcfg) (task : Nat)

def unlocked (slot : Slot) : Bool :=
  s.holder.all (· == task) || (slot != .known && slot != .optout)

def put (slot : Slot) (stored : Stored slot.Value) : Netcfg :=
  { s with files := Function.update s.files slot stored }

def exec (choice : NetChoice) : (o : NetOp) → Option (o.Answer × Netcfg)
  | .change call =>
      if call.slots.all (s.unlocked task) then
        some (call.slots.any (call.due false s.memory),
          { s with memory := call.apply false s.memory })
      else none
  | .policy => some (s.memory .disableNew, s)
  | .discover present disableNew =>
      if s.holder.isNone then
        let call := NetCall.reconcileNew present
        some ((call.due disableNew s.memory .known, call.due disableNew s.memory .optout),
          { s with memory := call.apply disableNew s.memory, holder := some task })
      else none
  | .snapshot slot => if s.unlocked task slot then some (s.memory slot, s) else none
  | .truncate slot =>
      some (if choice.refused then (.error (), s) else (.ok (), s.put slot .damaged))
  | .fill slot value =>
      some (if choice.refused then (.error (), s) else (.ok (), s.put slot (.holding value)))
  | .notify => some ((), s)

end Netcfg

inductive NetMove
  | killed
  | loaded
  deriving DecidableEq

abbrev netcfg (defaults : Defaults) : Machine NetSig where
  State := Netcfg
  Call := NetCall
  Err := Unit
  Reply := Bool
  Choice := NetChoice
  World := NetMove
  start := NetCall.program
  exec := fun task o choice s => if s.alive then s.exec task choice o else none
  suspends := fun _ => true
  release := fun task s => if s.holder = some task then { s with holder := none } else s
  move := fun move s =>
    match move with
    | .killed => if s.alive then some { s with alive := false } else none
    | .loaded =>
        if s.alive then none
        else some { memory := s.files.load defaults, files := s.files, alive := true }

/-! What was promised, and what a run has done about it. -/

/-- What the calls that returned `Ok`, and the policy, have closed. -/
structure Promises where
  disabled : List (GuildId × RoleId) := []
  blocked : List UserId := []
  paused : Bool := false

namespace Promises

variable (p : Promises)

def Holds : (slot : Slot) → slot.Value → Prop
  | .optout, value => ∀ net ∈ p.disabled, net ∈ value
  | .blocked, value => ∀ userId ∈ p.blocked, value.contains userId = true
  | .paused, value => p.paused = true → value = true
  | .known, _ | .disableNew, _ | .peerOwn, _ | .certsEnabled, _ => True

def carries : Slot → Bool
  | .optout => !p.disabled.isEmpty
  | .blocked => !p.blocked.isEmpty
  | .paused => p.paused
  | _ => false

def disable (found : List (GuildId × RoleId)) : Promises :=
  { p with disabled := found ++ p.disabled }

/-- A setter has returned `Ok`. -/
def settle : NetCall → Promises
  | .setPaused paused => { p with paused := paused }
  | .setBlocked userId _ blocked =>
      { p with
        blocked := if blocked then userId :: p.blocked else p.blocked.filter (· != userId) }
  | .set guildId roleId enabled =>
      { p with
        disabled :=
          if enabled then p.disabled.filter (· != (guildId, roleId))
          else (guildId, roleId) :: p.disabled }
  | _ => p

end Promises

namespace NetCall

def loosens : NetCall → Bool
  | .setPaused paused => !paused
  | .setBlocked _ _ blocked => !blocked
  | .set _ _ enabled => enabled
  | _ => false

def renames (call : NetCall) (settings : Settings) : Bool :=
  match call with
  | .setBlocked userId username true =>
      ((settings .blocked).get? userId).any fun name => name != username
  | _ => false

/-- What a call is there for; a discovery also for the networks that it is to disable. -/
def Effect (call : NetCall) (finding : List (GuildId × RoleId)) (settings : Settings) : Prop :=
  match call with
  | .setPaused paused => settings .paused = paused
  | .setDisableNew disable => settings .disableNew = disable
  | .setPeerOwnDevices enabled => settings .peerOwn = enabled
  | .setCertsEnabled enabled => settings .certsEnabled = enabled
  | .setBlocked userId username blocked =>
      (settings .blocked).get? userId = if blocked then some username else none
  | .set guildId roleId enabled => (settings .optout).contains (guildId, roleId) = !enabled
  | .reconcileNew present =>
      (∀ net ∈ present, net ∈ settings .known) ∧ ∀ net ∈ finding, net ∈ settings .optout

end NetCall

structure Diary where
  /-- The calls under way, and whether each has been at its setting. -/
  running : Table Nat (NetCall × Bool) := ∅
  promises : Promises := {}
  /-- The files that are without what was promised by what a call under way has done. -/
  torn : Slot → Bool := fun _ => false
  /-- The networks that the discovery under way disables, and whether it has to write them. -/
  finding : List (GuildId × RoleId) := []
  pending : Bool := false
  /-- The mesh loop was woken since the setting changed. -/
  told : Slot → Bool := fun _ => true

namespace Diary

variable (g : Diary)

def filled (task : Nat) (slot : Slot) : Diary :=
  let torn := Function.update g.torn slot ((g.running.get? task).any fun entry => entry.1.loosens)
  if slot = .known then
    { g with
      promises := g.promises.disable g.finding
      torn := Function.update torn .optout
        (torn .optout || !g.finding.isEmpty && g.pending) }
  else { g with torn := torn }

def begin (task : Nat) : Table Nat (NetCall × Bool) :=
  g.running.modify task fun entry => (entry.1, true)

def clear (call : NetCall) : Bool :=
  g.running.values.all fun entry =>
    !entry.2 || call.slots.all fun slot => !entry.1.slots.contains slot

def did (task : Nat) (s : Netcfg) : (o : NetOp) → o.Answer → Diary
  | .change call, changed =>
      { g with
        running := g.begin task
        told := fun slot => g.told slot && !(changed && call.wakes && call.slots.contains slot) }
  | .discover present disableNew, changed =>
      { g with
        running := g.begin task
        finding :=
          if disableNew then present.filter fun net => !(s.memory .known).contains net else []
        pending := changed.2 }
  | .truncate slot, .ok _ => { g with torn := Function.update g.torn slot true }
  | .fill slot _, .ok _ => g.filled task slot
  | .notify, _ => { g with told := fun _ => true }
  | _, _ => g

def ended (task : Nat) (call : NetCall) (ok : Bool) : Diary :=
  { g with
    running := g.running.erase task
    promises := if ok then g.promises.settle call else g.promises
    torn := fun slot => g.torn slot && !(ok && call.slots.contains slot) }

end Diary

def diary (defaults : Defaults) : (netcfg defaults).Observer Diary where
  see g s event _ :=
    match event with
    | .called task call => { g with running := g.running.insert task (call, false) }
    | .did task o answer => g.did task s o answer
    | .ended task call result => g.ended task call result.isOk
    | .dropped task _ => { g with running := g.running.erase task }
    | .moved .killed => g
    | .moved .loaded => { running := ∅, promises := g.promises }

/-- A process runs its calls to their ends, or to its own. -/
def plausibly {defaults : Defaults} (g : Diary) (s : Netcfg) :
    (netcfg defaults).Event → Bool
  | .called _ _ | .ended _ _ _ => s.alive
  | .dropped _ _ => !s.alive
  | .moved .loaded => g.running.keys.isEmpty
  | _ => true

/-- No call comes to a setting while another that has been at it is under way, none blocks a user
again under another name, no write fails, and a process does not end where a file is without what
was promised. -/
def spared {defaults : Defaults} (g : Diary) (s : Netcfg) : (netcfg defaults).Event → Bool
  | .did _ (.change call) _ => g.clear call && !call.renames s.memory
  | .did _ (.discover present _) _ => g.clear (.reconcileNew present)
  | .did _ (.truncate _) answer | .did _ (.fill _ _) answer => answer.isOk
  | .moved .killed => [Slot.optout, .blocked, .paused].all fun slot =>
      !(g.torn slot && g.promises.carries slot)
  | _ => true

def carefully {defaults : Defaults} (g : Diary) (s : Netcfg) (event : (netcfg defaults).Event) :
    Bool :=
  plausibly g s event && spared g s event

/-- What every step of a run is to respect. A discovery is asked for by the mesh loop, which it tells
whether networks were disabled. -/
def Respects {defaults : Defaults} (g : Diary) (s : Netcfg) : (netcfg defaults).Event → Prop
  | .ended _ call (.ok changed) =>
      call.Effect g.finding s.memory ∧ call.Effect g.finding (s.files.load defaults) ∧
        (call.wakes = true → ∀ slot ∈ call.slots, g.told slot = true) ∧
          (call.isDiscovery = true → changed = g.pending)
  | .ended _ call (.error _) => ∃ slot ∈ call.slots, call.due (s.memory .disableNew) s.memory slot
  | .moved .loaded => ∀ slot, g.promises.Holds slot (s.files.load defaults slot)
  | _ => True

/-! What a call does to a setting. -/

section

variable {p q : Promises} {call : NetCall} {settings settings' : Settings} {slot : Slot}
  {present finding : List (GuildId × RoleId)} {disableNew : Bool}

theorem Promises.holds_of_carries {value : slot.Value} (hnone : p.carries slot = false) :
    p.Holds slot value := by
  cases slot with
  | optout =>
      have hempty : p.disabled = [] := by simpa [Promises.carries] using hnone
      intro net hnet
      rw [hempty] at hnet
      cases hnet
  | blocked =>
      have hempty : p.blocked = [] := by simpa [Promises.carries] using hnone
      intro userId huser
      rw [hempty] at huser
      cases huser
  | paused =>
      intro hpaused
      rw [show p.paused = false from hnone] at hpaused
      cases hpaused
  | known | disableNew | peerOwn | certsEnabled => trivial

def NetCall.settled (call : NetCall) (finding : List (GuildId × RoleId)) (p : Promises) :
    Promises :=
  match call with
  | .reconcileNew _ => p.disable finding
  | _ => p.settle call

theorem apply_other (hother : slot ∉ call.slots) :
    call.apply disableNew settings slot = settings slot := by
  cases call with
  | reconcileNew present =>
      simp only [NetCall.slots, List.mem_cons, List.not_mem_nil, or_false, not_or] at hother
      exact (Function.update_of_ne hother.2 ..).trans (Function.update_of_ne hother.1 ..)
  | _ => exact Function.update_of_ne (by simpa [NetCall.slots] using hother) ..

def Promises.Agree (p q : Promises) : Slot → Prop
  | .optout => p.disabled = q.disabled
  | .blocked => p.blocked = q.blocked
  | .paused => p.paused = q.paused
  | .known | .disableNew | .peerOwn | .certsEnabled => True

theorem Promises.Agree.refl : p.Agree p slot := by
  cases slot <;> trivial

theorem Promises.Agree.holds (hagree : p.Agree q slot) {value : slot.Value} :
    p.Holds slot value ↔ q.Holds slot value := by
  cases slot with
  | optout => simp only [Promises.Holds, show p.disabled = q.disabled from hagree]
  | blocked => simp only [Promises.Holds, show p.blocked = q.blocked from hagree]
  | paused => simp only [Promises.Holds, show p.paused = q.paused from hagree]
  | known | disableNew | peerOwn | certsEnabled => exact Iff.rfl

theorem Promises.Agree.settled (hagree : p.Agree q slot) :
    (call.settled finding p).Agree (call.settled finding q) slot := by
  cases slot with
  | optout =>
      have hsame : p.disabled = q.disabled := hagree
      cases call <;> simp [NetCall.settled, Promises.settle, Promises.disable, Promises.Agree,
        hsame]
  | blocked =>
      have hsame : p.blocked = q.blocked := hagree
      cases call <;> simp [NetCall.settled, Promises.settle, Promises.disable, Promises.Agree,
        hsame]
  | paused =>
      have hsame : p.paused = q.paused := hagree
      cases call <;> simp [NetCall.settled, Promises.settle, Promises.disable, Promises.Agree,
        hsame]
  | known | disableNew | peerOwn | certsEnabled => trivial

theorem settle_agree (hother : slot ∉ call.slots) : (p.settle call).Agree p slot := by
  cases slot with
  | optout | blocked | paused =>
      cases call <;> first | rfl | simp [NetCall.slots] at hother
  | known | disableNew | peerOwn | certsEnabled => trivial

theorem disable_agree (hother : slot ≠ .optout) : (p.disable finding).Agree p slot := by
  cases slot with
  | optout => exact absurd rfl hother
  | _ => trivial

theorem settle_other (hother : slot ∉ call.slots) {value : slot.Value} :
    (p.settle call).Holds slot value ↔ p.Holds slot value :=
  (settle_agree hother).holds

theorem disable_other (hother : slot ≠ .optout) {value : slot.Value} :
    (p.disable finding).Holds slot value ↔ p.Holds slot value :=
  (disable_agree hother).holds

theorem holds_of_disable {value : slot.Value} (hholds : (p.disable finding).Holds slot value) :
    p.Holds slot value := by
  cases slot with
  | optout => exact fun net hnet => hholds net (List.mem_append_right _ hnet)
  | _ => exact hholds

theorem holds_of_settled {value : slot.Value} (htight : call.loosens = false)
    (hholds : (call.settled finding p).Holds slot value) : p.Holds slot value := by
  cases call with
  | reconcileNew present => exact holds_of_disable hholds
  | setPaused paused =>
      cases slot with
      | paused =>
          have hpaused : paused = true := by simpa [NetCall.loosens] using htight
          exact fun _ => hholds hpaused
      | _ => exact hholds
  | setBlocked userId username blocked =>
      have hblocked : blocked = true := by simpa [NetCall.loosens] using htight
      subst hblocked
      cases slot with
      | blocked => exact fun other hother => hholds other (List.mem_cons_of_mem _ hother)
      | _ => exact hholds
  | set guildId roleId enabled =>
      have henabled : enabled = false := htight
      subst henabled
      cases slot with
      | optout => exact fun net hnet => hholds net (List.mem_cons_of_mem _ hnet)
      | _ => exact hholds
  | setDisableNew | setPeerOwnDevices | setCertsEnabled => exact hholds

theorem reconcileNew_spec (localnet : LocalNet) (present : List (GuildId × RoleId)) :
    (∀ net, net ∈ (localnet.reconcileNew present).known ↔ net ∈ localnet.known ∨ net ∈ present) ∧
      ∀ net, net ∈ (localnet.reconcileNew present).disabled ↔ net ∈ localnet.disabled ∨
        localnet.disableNew = true ∧ net ∈ present ∧ net ∉ localnet.known := by
  induction present generalizing localnet with
  | nil => simp [LocalNet.reconcileNew]
  | cons head rest ih =>
      unfold LocalNet.reconcileNew at ih ⊢
      rw [List.foldl_cons]
      obtain ⟨hknown, hdisabled⟩ := ih (if localnet.known.contains head then localnet
        else { localnet with
          known := localnet.known ++ [head]
          disabled :=
            if localnet.disableNew && !localnet.disabled.contains head then
              localnet.disabled ++ [head]
            else localnet.disabled })
      refine ⟨fun net => (hknown net).trans ?_, fun net => (hdisabled net).trans ?_⟩
      · by_cases hseen : head ∈ localnet.known
        · simp only [List.contains_eq_mem, hseen, decide_true, if_true, List.mem_cons]
          grind
        · simp only [List.contains_eq_mem, hseen, decide_false, Bool.false_eq_true, if_false,
            List.mem_append, List.mem_cons, List.not_mem_nil, or_false]
          grind
      · by_cases hseen : head ∈ localnet.known
        · simp only [List.contains_eq_mem, hseen, decide_true, if_true, List.mem_cons]
          grind
        · simp only [List.contains_eq_mem, hseen, decide_false, Bool.false_eq_true, if_false,
            List.mem_append, List.mem_cons, List.not_mem_nil, or_false]
          grind

theorem reconcileNew_known {localnet : LocalNet} (hold : ∀ net ∈ present, net ∈ localnet.known) :
    localnet.reconcileNew present = localnet := by
  induction present with
  | nil => rfl
  | cons head rest ih =>
      have hhead : localnet.known.contains head = true := by
        simpa using hold head List.mem_cons_self
      unfold LocalNet.reconcileNew at ih ⊢
      rw [List.foldl_cons, if_pos hhead]
      exact ih fun net hnet => hold net (List.mem_cons_of_mem _ hnet)

theorem reconcileNew_disabled {localnet : LocalNet}
    (hheld : localnet.disableNew = true → ∀ net ∈ present, net ∉ localnet.known →
      net ∈ localnet.disabled) :
    (localnet.reconcileNew present).disabled = localnet.disabled := by
  induction present generalizing localnet with
  | nil => rfl
  | cons head rest ih =>
      unfold LocalNet.reconcileNew at ih ⊢
      rw [List.foldl_cons]
      by_cases hseen : localnet.known.contains head = true
      · rw [if_pos hseen]
        exact ih fun hpolicy net hnet => hheld hpolicy net (List.mem_cons_of_mem _ hnet)
      · have hsame : (if localnet.disableNew && !localnet.disabled.contains head then
            localnet.disabled ++ [head] else localnet.disabled) = localnet.disabled := by
          refine if_neg fun hnew => ?_
          obtain ⟨hpolicy, hmissing⟩ := (Bool.and_eq_true _ _).mp hnew
          have hmem := hheld hpolicy head List.mem_cons_self (by simpa using hseen)
          simp [hmem] at hmissing
        rw [if_neg hseen]
        refine (ih fun hpolicy net hnet hnew => ?_).trans hsame
        dsimp only at hnew ⊢
        rw [hsame]
        exact hheld hpolicy net (List.mem_cons_of_mem _ hnet) fun hknown =>
          hnew (List.mem_append_left _ hknown)

theorem apply_same (hsetter : ∀ present, call ≠ .reconcileNew present)
    (hsame : call.slots.any (call.due false settings) = false)
    (hnames : call.renames settings = false) : call.apply false settings = settings := by
  cases call with
  | setPaused paused =>
      have hpaused : settings .paused = paused := by simpa [NetCall.slots, NetCall.due] using hsame
      exact Function.update_eq_self_iff.mpr hpaused.symm
  | setDisableNew disable =>
      have hdisable : settings .disableNew = disable := by
        simpa [NetCall.slots, NetCall.due] using hsame
      exact Function.update_eq_self_iff.mpr hdisable.symm
  | setPeerOwnDevices enabled =>
      have henabled : settings .peerOwn = enabled := by
        simpa [NetCall.slots, NetCall.due] using hsame
      exact Function.update_eq_self_iff.mpr henabled.symm
  | setCertsEnabled enabled =>
      have henabled : settings .certsEnabled = enabled := by
        simpa [NetCall.slots, NetCall.due] using hsame
      exact Function.update_eq_self_iff.mpr henabled.symm
  | setBlocked userId username blocked =>
      have hheld : (settings .blocked).contains userId = blocked := by
        simpa [NetCall.slots, NetCall.due] using hsame
      refine Function.update_eq_self_iff.mpr ?_
      cases blocked with
      | true =>
          obtain ⟨name, hname⟩ := Table.contains_iff.mp hheld
          have hsamename : name = username := by
            simpa [NetCall.renames, hname] using hnames
          rw [if_pos rfl, Table.insert_eq_self (hsamename ▸ hname)]
      | false =>
          rw [if_neg Bool.false_ne_true, Table.erase_eq_self]
          simpa [Table.contains] using hheld
  | set guildId roleId enabled =>
      have hheld : (settings .optout).contains (guildId, roleId) = !enabled := by
        cases enabled <;> simpa [NetCall.slots, NetCall.due] using hsame
      refine Function.update_eq_self_iff.mpr ?_
      cases enabled with
      | true =>
          rw [if_pos rfl, List.filter_eq_self.mpr]
          intro net hnet
          rw [bne_iff_ne]
          rintro rfl
          rw [List.contains_iff_mem.mpr hnet] at hheld
          cases hheld
      | false =>
          rw [if_neg Bool.false_ne_true]
          exact if_pos hheld
  | reconcileNew present => exact absurd rfl (hsetter present)

def newlyFound (disableNew : Bool) (present : List (GuildId × RoleId)) (settings : Settings) :
    List (GuildId × RoleId) :=
  if disableNew then present.filter fun net => !(settings .known).contains net else []

theorem mem_newlyFound {net : GuildId × RoleId} :
    net ∈ newlyFound disableNew present settings ↔
      disableNew = true ∧ net ∈ present ∧ net ∉ settings .known := by
  unfold newlyFound
  cases disableNew <;> simp

theorem apply_effect (hsetter : ∀ present, call ≠ .reconcileNew present) :
    call.Effect finding (call.apply false settings) := by
  cases call with
  | setBlocked userId username blocked =>
      unfold NetCall.Effect NetCall.apply
      dsimp only
      rw [Function.update_self]
      cases blocked <;> simp
  | set guildId roleId enabled =>
      unfold NetCall.Effect NetCall.apply
      dsimp only
      rw [Function.update_self]
      cases enabled with
      | true => simp
      | false =>
          rw [if_neg Bool.false_ne_true]
          split
          · assumption
          · simp
  | reconcileNew present => exact absurd rfl (hsetter present)
  | setPaused paused => exact Function.update_self (f := settings) Slot.paused paused
  | setDisableNew disable => exact Function.update_self (f := settings) Slot.disableNew disable
  | setPeerOwnDevices enabled => exact Function.update_self (f := settings) Slot.peerOwn enabled
  | setCertsEnabled enabled =>
      exact Function.update_self (f := settings) Slot.certsEnabled enabled

theorem discover_effect :
    NetCall.Effect (.reconcileNew present) (newlyFound disableNew present settings)
      (NetCall.apply (.reconcileNew present) disableNew settings) := by
  obtain ⟨hknown, hdisabled⟩ :=
    reconcileNew_spec { settings.localNet with disableNew := disableNew } present
  constructor
  · intro net hnet
    unfold NetCall.apply
    dsimp only
    rw [Function.update_of_ne (by decide), Function.update_self]
    exact (hknown net).mpr (.inr hnet)
  · intro net hnet
    unfold NetCall.apply
    dsimp only
    rw [Function.update_self]
    exact (hdisabled net).mpr (.inr (mem_newlyFound.mp hnet))

theorem apply_holds (hsetter : ∀ present, call ≠ .reconcileNew present)
    (hholds : p.Holds slot (settings slot)) :
    (p.settle call).Holds slot (call.apply false settings slot) := by
  by_cases hslot : slot ∈ call.slots
  · cases call with
    | setPaused paused =>
        obtain rfl := List.mem_singleton.mp hslot
        intro hpaused
        have hset : paused = true := hpaused
        unfold NetCall.apply
        dsimp only
        rw [Function.update_self, hset]
    | setBlocked userId username blocked =>
        obtain rfl := List.mem_singleton.mp hslot
        intro other hother
        unfold NetCall.apply
        dsimp only
        rw [Function.update_self]
        cases blocked with
        | true =>
            rw [if_pos rfl, Table.contains, Table.get?_insert]
            split
            · rfl
            · rename_i hne
              exact hholds other ((List.mem_cons.mp hother).resolve_left hne)
        | false =>
            obtain ⟨hheld, hne⟩ := List.mem_filter.mp hother
            rw [if_neg Bool.false_ne_true, Table.contains, Table.get?_erase,
              if_neg (by simpa using hne)]
            exact hholds other hheld
    | set guildId roleId enabled =>
        obtain rfl := List.mem_singleton.mp hslot
        intro net hnet
        unfold NetCall.apply
        dsimp only
        rw [Function.update_self]
        cases enabled with
        | true =>
            obtain ⟨hheld, hne⟩ := List.mem_filter.mp hnet
            exact List.mem_filter.mpr ⟨hholds net hheld, hne⟩
        | false =>
            have hmem : net = (guildId, roleId) ∨ net ∈ settings .optout :=
              (List.mem_cons.mp hnet).imp_right (hholds net)
            rw [if_neg Bool.false_ne_true]
            split
            · rename_i hheld
              rcases hmem with rfl | hmem
              · simpa using hheld
              · exact hmem
            · rcases hmem with rfl | hmem
              · simp
              · exact List.mem_append_left _ hmem
    | reconcileNew present => exact absurd rfl (hsetter present)
    | setDisableNew | setPeerOwnDevices | setCertsEnabled =>
        obtain rfl := List.mem_singleton.mp hslot
        trivial
  · rw [settle_other hslot, apply_other hslot]
    exact hholds

theorem discover_holds (hholds : p.Holds slot (settings slot)) :
    (p.disable (newlyFound disableNew present settings)).Holds slot
      (NetCall.apply (.reconcileNew present) disableNew settings slot) := by
  by_cases hslot : slot = .optout
  · subst hslot
    intro net hnet
    have hdisabled :=
      (reconcileNew_spec { settings.localNet with disableNew := disableNew } present).2
    unfold NetCall.apply
    dsimp only
    rw [Function.update_self]
    rcases List.mem_append.mp hnet with hnew | hheld
    · exact (hdisabled net).mpr (.inr (mem_newlyFound.mp hnew))
    · exact (hdisabled net).mpr (.inl (hholds net hheld))
  · rw [disable_other hslot]
    cases slot with
    | optout => exact absurd rfl hslot
    | known => trivial
    | _ => exact hholds

theorem discover_same (hsame : NetCall.due (.reconcileNew present) disableNew settings slot =
    false) :
    NetCall.apply (.reconcileNew present) disableNew settings slot = settings slot := by
  unfold NetCall.apply
  dsimp only
  cases slot with
  | known =>
      rw [Function.update_of_ne (by decide), Function.update_self, reconcileNew_known]
      · rfl
      · simpa [NetCall.due, Settings.localNet] using hsame
  | optout =>
      rw [Function.update_self, reconcileNew_disabled]
      · rfl
      · simpa [NetCall.due, Settings.localNet] using hsame
  | _ => rfl

theorem effect_congr (hsame : ∀ slot ∈ call.slots, settings slot = settings' slot)
    (heffect : call.Effect finding settings) : call.Effect finding settings' := by
  cases call with
  | reconcileNew present =>
      obtain ⟨hknown, hdisabled⟩ := heffect
      refine ⟨?_, ?_⟩
      · rw [← hsame .known (by simp [NetCall.slots])]
        exact hknown
      · rw [← hsame .optout (by simp [NetCall.slots])]
        exact hdisabled
  | _ =>
      unfold NetCall.Effect at heffect ⊢
      dsimp only at heffect ⊢
      rw [← hsame _ (List.mem_singleton.mpr rfl)]
      exact heffect

end

end UnityLan.Engine
