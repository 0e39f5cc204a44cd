import Mathlib.Data.Fintype.Basic
import Mathlib.Data.List.Dedup
import UnityLan.Foundation.Eval
import UnityLan.Foundation.Pool
import UnityLan.Engine.Fw.Exposure

namespace UnityLan.Engine.Fw

open UnityLan.Foundation

/-! The live firewall.  The daemon and the control socket change its inputs, each behind a lock of
its own; the exposures are written to a file, and the ruleset of all inputs is applied. -/

inductive Input
  | exposures
  | peers
  | mesh
  deriving DecidableEq

instance : Fintype Input where
  elems := {.exposures, .peers, .mesh}
  complete := by
    intro input
    cases input <;> decide

abbrev Input.Value : Input → Type
  | .exposures => List Exposed
  | .peers => PeerSets
  | .mesh => Option Ipv4Addr

instance : (input : Input) → DecidableEq input.Value
  | .exposures => inferInstanceAs (DecidableEq (List Exposed))
  | .peers => inferInstanceAs (DecidableEq PeerSets)
  | .mesh => inferInstanceAs (DecidableEq (Option Ipv4Addr))

/-- `exposed.json`. -/
inductive ExposedFile
  | absent
  | holding (exposed : List Exposed)
  /-- It does not parse. -/
  | damaged
  deriving DecidableEq

structure Ruleset where
  meshAddr : Option Ipv4Addr
  exposed : List Exposed
  peers : PeerSets
  deriving DecidableEq

structure Firewall where
  exposed : List Exposed := []
  peers : PeerSets := {}
  meshAddr : Option Ipv4Addr := none
  file : ExposedFile := .absent
  /-- The ruleset that the backend applied last. -/
  applied : Option Ruleset := none
  /-- A call panicked with the lock of the exposures held. -/
  poisoned : Bool := false
  deriving DecidableEq

def Firewall.value (fw : Firewall) : (input : Input) → input.Value
  | .exposures => fw.exposed
  | .peers => fw.peers
  | .mesh => fw.meshAddr

def Firewall.ruleset (fw : Firewall) : Ruleset :=
  ⟨fw.meshAddr, effectiveExposed fw.exposed, fw.peers⟩

/-! What the calls do to the exposures. -/

def defaultLabel (port : Port) : String :=
  s!"port-{port.toNat}"

def labelError (label : String) : String :=
  s!"{label.quote} is not a usable service name: use lower-case letters, digits and dashes " ++
    s!"(at most {MAX_SERVICE_LABEL_LEN}), not starting or ending with a dash, and not only digits"

def tooManyServices : String :=
  s!"this device already serves {MAX_SERVICES_PER_DEVICE} named services, " ++
    "the most one device may announce"

def distinctNames (name : String) (exposed : List Exposed) : Nat :=
  (exposed.filterMap Exposed.name ++ [name]).dedup.length

def Exposed.opensTo (proto : Proto) (port : Port) (scope : ExposeScope) (e : Exposed) : Bool :=
  e.proto == proto && e.port == port && e.scope == scope

/-- The first exposure of the port to the scope is named anew; a new one goes last. -/
def put (new : Exposed) : List Exposed → List Exposed
  | [] => [new]
  | e :: rest =>
      if e.opensTo new.proto new.port new.scope then
        (if new.name.isSome then { e with name := new.name, kind := new.kind } else e) :: rest
      else e :: put new rest

def RemoveScope.hits (scope : RemoveScope) (e : Exposed) : Bool :=
  match scope with
  | .all => true
  | .exact scope => e.scope == scope

def close (proto : Proto) (port : Port) (scope : RemoveScope) (exposed : List Exposed) :
    List Exposed :=
  exposed.filter fun e => !(e.proto == proto && e.port == port && scope.hits e)

def widenOne (name : String) (scope : ExposeScope) (widened : Nat × List Exposed) (e : Exposed) :
    Nat × List Exposed :=
  if widened.2.any (Exposed.opensTo e.proto e.port scope) then widened
  else (widened.1 + 1, widened.2 ++ [⟨e.proto, e.port, scope, some name, e.kind⟩])

/-- The ports of a name are opened to one more scope; how many were not open to it. -/
def widen (name : String) (scope : ExposeScope) (exposed : List Exposed) : Nat × List Exposed :=
  (exposed.filter fun e => e.name == some name).foldl (widenOne name scope) (0, exposed)

def closeNamed (name : String) (exposed : List Exposed) : List Exposed :=
  exposed.filter fun e => e.name != some name

structure ExposedPort where
  proto : Proto
  port : Port
  scope : ExposeScope
  label : String
  name : Option String
  kind : ServiceKind
  active : Bool
  deriving DecidableEq

def listed (exposed : List Exposed) (peers : PeerSets) : List ExposedPort :=
  exposed.map fun e =>
    { proto := e.proto
      port := e.port
      scope := e.scope
      label := peers.label e.scope
      name := e.name
      kind := e.kind
      active := (peers.sources e.scope).all fun ips => !ips.isEmpty }

/-! The steps of the calls: each section under a lock, each write and each apply. -/

inductive WriteFault
  /-- The file was not opened, and is as it was. -/
  | unopened
  /-- It was cut off before all was written. -/
  | cut
  deriving DecidableEq

/-- Why a call did not return `Ok`. -/
inductive Stop
  | refused (message : String)
  | unwritten (fault : WriteFault)
  | unapplied
  | panicked
  deriving DecidableEq

inductive FirewallOp
  | distinct (name : String)
  | put (new : Exposed)
  | close (proto : Proto) (port : Port) (scope : RemoveScope)
  | widen (name : String) (scope : ExposeScope)
  | count
  | closeNamed (name : String)
  /-- The exposures that are gone of so many. -/
  | removed (before : Nat)
  | samePeers (peers : PeerSets)
  | putPeers (peers : PeerSets)
  | replaceMesh (addr : Ipv4Addr)
  | read (input : Input)
  | write (exposed : List Exposed)
  | apply (ruleset : Ruleset)
  | list

abbrev FirewallOp.Answer : FirewallOp → Type
  | .distinct _ => Nat
  | .widen _ _ => Nat
  | .count => Nat
  | .removed _ => Nat
  | .samePeers _ => Bool
  | .replaceMesh _ => Bool
  | .read input => input.Value
  | .list => List ExposedPort
  | _ => Unit

abbrev FirewallSig : Sig where
  Op := FirewallOp
  Res o := Except Stop o.Answer

abbrev FirewallM := Prog FirewallSig Stop

def ask (o : FirewallOp) : FirewallM o.Answer :=
  Prog.performOr o id

/-- What goes wrong outside of the engine. -/
structure Faults where
  write : Option WriteFault := none
  apply : Bool := false
  deriving DecidableEq

def ExposedFile.written (file : ExposedFile) (exposed : List Exposed) :
    Option WriteFault → ExposedFile
  | none => .holding exposed
  | some .unopened => file
  | some .cut => .damaged

namespace Firewall

def underLock {α : Type} (fw : Firewall) (answer : α) (after : Firewall) :
    Except Stop α × Firewall :=
  if fw.poisoned then (.error .panicked, fw) else (.ok answer, after)

def exec (faults : Faults) (fw : Firewall) : (o : FirewallOp) → Except Stop o.Answer × Firewall
  | .distinct name => fw.underLock (distinctNames name fw.exposed) fw
  | .put new => fw.underLock () { fw with exposed := Fw.put new fw.exposed }
  | .close proto port scope =>
      fw.underLock () { fw with exposed := Fw.close proto port scope fw.exposed }
  | .widen name scope =>
      let widened := Fw.widen name scope fw.exposed
      fw.underLock widened.1 { fw with exposed := widened.2 }
  | .count => fw.underLock fw.exposed.length fw
  | .closeNamed name => fw.underLock () { fw with exposed := Fw.closeNamed name fw.exposed }
  | .removed before =>
      -- The subtraction is checked, and its temporary still holds the lock.
      if before < fw.exposed.length then (.error .panicked, { fw with poisoned := true })
      else fw.underLock (before - fw.exposed.length) fw
  | .samePeers peers => (.ok (fw.peers == peers), fw)
  | .putPeers peers => (.ok (), { fw with peers := peers })
  | .replaceMesh addr => (.ok (fw.meshAddr != some addr), { fw with meshAddr := some addr })
  | .read .exposures => fw.underLock fw.exposed fw
  | .read .peers => (.ok fw.peers, fw)
  | .read .mesh => (.ok fw.meshAddr, fw)
  | .write exposed =>
      (faults.write.elim (.ok ()) fun fault => .error (.unwritten fault),
        { fw with file := fw.file.written exposed faults.write })
  | .apply ruleset =>
      if faults.apply then (.error .unapplied, fw)
      else (.ok (), { fw with applied := some ruleset })
  | .list => fw.underLock (listed fw.exposed fw.peers) fw

end Firewall

theorem Firewall.underLock_cases {fw fw' after : Firewall} {α : Type} {value : α}
    {answer : Except Stop α} (hrun : fw.underLock value after = (answer, fw')) :
    answer = .error .panicked ∧ fw' = fw ∨
      fw.poisoned = false ∧ answer = .ok value ∧ fw' = after := by
  unfold underLock at hrun
  split at hrun
  · cases hrun
    exact .inl ⟨rfl, rfl⟩
  · rename_i hsound
    cases hrun
    exact .inr ⟨by simpa using hsound, rfl, rfl⟩

/-! What the steps do, by their kind. -/

def FirewallOp.touched : (o : FirewallOp) → Except Stop o.Answer → Option Input
  | .put _, .ok _ => some .exposures
  | .close _ _ _, .ok _ => some .exposures
  | .widen _ _, .ok _ => some .exposures
  | .closeNamed _, .ok _ => some .exposures
  | .removed _, .ok 0 => some .exposures
  | .samePeers _, .ok true => some .peers
  | .putPeers _, .ok _ => some .peers
  | .replaceMesh _, .ok _ => some .mesh
  | _, _ => none

def FirewallOp.plain : FirewallOp → Bool
  | .read _ => false
  | .write _ => false
  | .apply _ => false
  | _ => true

section

variable {o : FirewallOp} {faults : Faults} {fw fw' : Firewall} {answer : Except Stop o.Answer}

theorem underLock_frame {value : o.Answer} {exposed : List Exposed}
    (htouched : o.touched (.ok value) = some .exposures)
    (hrun : fw.underLock value { fw with exposed := exposed } = (answer, fw')) :
    fw'.applied = fw.applied ∧ fw'.file = fw.file ∧
      ∀ input, o.touched answer ≠ some input → fw'.value input = fw.value input := by
  rcases Firewall.underLock_cases hrun with ⟨_, rfl⟩ | ⟨_, rfl, rfl⟩
  · exact ⟨rfl, rfl, fun _ _ => rfl⟩
  · refine ⟨rfl, rfl, fun input hother => ?_⟩
    cases input with
    | exposures => exact absurd htouched hother
    | peers => rfl
    | mesh => rfl

theorem underLock_quiet {α : Type} {value : α} {answer : Except Stop α}
    (hrun : fw.underLock value fw = (answer, fw')) : fw' = fw := by
  rcases Firewall.underLock_cases hrun with ⟨_, rfl⟩ | ⟨_, _, rfl⟩
  · rfl
  · rfl

theorem exec_plain (hplain : o.plain = true) (hexec : fw.exec faults o = (answer, fw')) :
    fw'.applied = fw.applied ∧ fw'.file = fw.file ∧
      ∀ input, o.touched answer ≠ some input → fw'.value input = fw.value input := by
  have hsame : fw' = fw → fw'.applied = fw.applied ∧ fw'.file = fw.file ∧
      ∀ input, o.touched answer ≠ some input → fw'.value input = fw.value input := by
    rintro rfl
    exact ⟨rfl, rfl, fun _ _ => rfl⟩
  cases o with
  | distinct name => exact hsame (underLock_quiet hexec)
  | count => exact hsame (underLock_quiet hexec)
  | list => exact hsame (underLock_quiet hexec)
  | put new => exact underLock_frame rfl hexec
  | close proto port scope => exact underLock_frame rfl hexec
  | widen name scope => exact underLock_frame rfl hexec
  | closeNamed name => exact underLock_frame rfl hexec
  | removed before =>
      by_cases hgrown : before < fw.exposed.length
      · cases (if_pos hgrown).symm.trans hexec
        refine ⟨rfl, rfl, fun input _ => ?_⟩
        cases input <;> rfl
      · exact hsame (underLock_quiet ((if_neg hgrown).symm.trans hexec))
  | samePeers peers =>
      cases hexec
      exact hsame rfl
  | putPeers peers =>
      cases hexec
      refine ⟨rfl, rfl, fun input hother => ?_⟩
      cases input with
      | exposures => rfl
      | peers => exact absurd rfl hother
      | mesh => rfl
  | replaceMesh addr =>
      cases hexec
      refine ⟨rfl, rfl, fun input hother => ?_⟩
      cases input with
      | exposures => rfl
      | peers => rfl
      | mesh => exact absurd rfl hother
  | read input => cases hplain
  | write exposed => cases hplain
  | apply ruleset => cases hplain

def FirewallOp.changes : FirewallOp → Option Input
  | .put _ => some .exposures
  | .close _ _ _ => some .exposures
  | .widen _ _ => some .exposures
  | .closeNamed _ => some .exposures
  | .putPeers _ => some .peers
  | .replaceMesh _ => some .mesh
  | _ => none

theorem exec_keeps {input : Input} (hother : o.changes ≠ some input) :
    (fw.exec faults o).2.value input = fw.value input := by
  have hsame : ∀ {α : Type} (value : α), (fw.underLock value fw).2.value input = fw.value input :=
    fun value => congrArg (Firewall.value · input) (underLock_quiet (Prod.eta _).symm)
  have htouched : o.plain = true → (∀ answer, o.touched answer ≠ some input) →
      (fw.exec faults o).2.value input = fw.value input := fun hplain hnever =>
    (exec_plain hplain (Prod.eta _).symm).2.2 input (hnever _)
  cases o with
  | distinct name => exact hsame _
  | count => exact hsame _
  | list => exact hsame _
  | samePeers peers => rfl
  | removed before =>
      dsimp only [Firewall.exec]
      split
      · cases input <;> rfl
      · exact hsame _
  | read read =>
      cases read with
      | exposures => exact hsame _
      | peers => rfl
      | mesh => rfl
  | write exposed => cases input <;> rfl
  | apply ruleset =>
      dsimp only [Firewall.exec]
      split
      · rfl
      · cases input <;> rfl
  | put new => exact htouched rfl fun answer => by cases answer <;> first | exact hother | nofun
  | close proto port scope =>
      exact htouched rfl fun answer => by cases answer <;> first | exact hother | nofun
  | widen name scope =>
      exact htouched rfl fun answer => by cases answer <;> first | exact hother | nofun
  | closeNamed name =>
      exact htouched rfl fun answer => by cases answer <;> first | exact hother | nofun
  | putPeers peers =>
      exact htouched rfl fun answer => by cases answer <;> first | exact hother | nofun
  | replaceMesh addr =>
      exact htouched rfl fun answer => by cases answer <;> first | exact hother | nofun

end

/-! The calls. -/

def persist : FirewallM Unit := do
  let exposed ← ask (.read .exposures)
  ask (.write exposed)

def reconcile : FirewallM Unit := do
  let meshAddr ← ask (.read .mesh)
  let exposed ← ask (.read .exposures)
  let peers ← ask (.read .peers)
  ask (.apply ⟨meshAddr, effectiveExposed exposed, peers⟩)

def admitName (name : String) : FirewallM Unit := do
  if !validLabel name then throw (.refused (labelError name))
  let distinct ← ask (.distinct name)
  if MAX_SERVICES_PER_DEVICE < distinct then throw (.refused tooManyServices)

def expose (proto : Proto) (port : Port) (scope : ExposeScope) (name : Option String)
    (kind : ServiceKind) : FirewallM (List ExposedPort) := do
  let name := name.getD (defaultLabel port)
  admitName name
  ask (.put ⟨proto, port, scope, some name, kind⟩)
  persist
  reconcile
  ask .list

def unexpose (proto : Proto) (port : Port) (scope : RemoveScope) :
    FirewallM (List ExposedPort) := do
  ask (.close proto port scope)
  persist
  reconcile
  ask .list

def settle (changed : Nat) : FirewallM (Nat × List ExposedPort) := do
  if 0 < changed then
    persist
    reconcile
  let exposed ← ask .list
  return (changed, exposed)

def exposeNamedScope (name : String) (scope : ExposeScope) :
    FirewallM (Nat × List ExposedPort) := do
  let added ← ask (.widen name scope)
  settle added

def unexposeNamed (name : String) : FirewallM (Nat × List ExposedPort) := do
  let before ← ask .count
  ask (.closeNamed name)
  let removed ← ask (.removed before)
  settle removed

def updatePeers (peers : PeerSets) : FirewallM Bool := do
  let same ← ask (.samePeers peers)
  if same then return false
  -- What is ambiguous among the exposures is logged.
  let _ ← ask (.read .exposures)
  ask (.putPeers peers)
  reconcile
  return true

def setMeshAddr (addr : Ipv4Addr) : FirewallM Unit := do
  let changed ← ask (.replaceMesh addr)
  if changed then reconcile

section

variable {inside : FirewallOp → Prop} {o : FirewallOp}

theorem uses_ask (hinside : inside o) : (ask o).Uses inside := by
  refine ⟨hinside, fun answer => ?_⟩
  cases answer <;> trivial

theorem uses_step {α : Type} {next : o.Answer → FirewallM α} (hinside : inside o)
    (hnext : ∀ answer, (next answer).Uses inside) : (ask o >>= next).Uses inside :=
  (uses_ask hinside).bind hnext

theorem uses_map {α β : Type} {f : α → β} {program : FirewallM α}
    (hprogram : program.Uses inside) : (f <$> program).Uses inside :=
  hprogram.bind fun _ => trivial

theorem uses_reconcile (hreads : ∀ input, inside (.read input))
    (happlies : ∀ ruleset, inside (.apply ruleset)) : reconcile.Uses inside :=
  uses_step (hreads _) fun _ => uses_step (hreads _) fun _ =>
    uses_step (hreads _) fun _ => uses_ask (happlies _)

end

inductive FirewallCall
  | expose (proto : Proto) (port : Port) (scope : ExposeScope) (name : Option String)
      (kind : ServiceKind)
  | unexpose (proto : Proto) (port : Port) (scope : RemoveScope)
  | exposeNamedScope (name : String) (scope : ExposeScope)
  | unexposeNamed (name : String)
  | updatePeers (peers : PeerSets)
  | setMeshAddr (addr : Ipv4Addr)

inductive FirewallReply
  | exposed (ports : List ExposedPort)
  | changed (count : Nat) (ports : List ExposedPort)
  | refreshed (changed : Bool)
  | placed
  deriving DecidableEq

namespace FirewallCall

def program : FirewallCall → FirewallM FirewallReply
  | .expose proto port scope name kind => .exposed <$> Fw.expose proto port scope name kind
  | .unexpose proto port scope => .exposed <$> Fw.unexpose proto port scope
  | .exposeNamedScope name scope =>
      (fun reply => .changed reply.1 reply.2) <$> Fw.exposeNamedScope name scope
  | .unexposeNamed name => (fun reply => .changed reply.1 reply.2) <$> Fw.unexposeNamed name
  | .updatePeers peers => .refreshed <$> Fw.updatePeers peers
  | .setMeshAddr addr => (fun _ => .placed) <$> Fw.setMeshAddr addr

def Asks (call : FirewallCall) : FirewallOp → Prop
  | .put new => ∃ proto port scope name kind, call = .expose proto port scope name kind ∧
      new = ⟨proto, port, scope, some (name.getD (defaultLabel port)), kind⟩ ∧
      validLabel (name.getD (defaultLabel port)) = true
  | .close proto port scope => call = .unexpose proto port scope
  | .widen name scope => call = .exposeNamedScope name scope
  | .closeNamed name => call = .unexposeNamed name
  | .putPeers peers => call = .updatePeers peers
  | .replaceMesh addr => call = .setMeshAddr addr
  | _ => True

def changes : FirewallCall → Input
  | .updatePeers _ => .peers
  | .setMeshAddr _ => .mesh
  | _ => .exposures

section

variable {call : FirewallCall}

theorem Asks.changes {o : FirewallOp} {input : Input} (hasks : call.Asks o)
    (hother : call.changes ≠ input) : o.changes ≠ some input := by
  rintro hsome
  cases o with
  | put new =>
      obtain ⟨_, _, _, _, _, rfl, _⟩ := hasks
      exact hother (Option.some.inj hsome)
  | close proto port scope =>
      cases hasks
      exact hother (Option.some.inj hsome)
  | widen name scope =>
      cases hasks
      exact hother (Option.some.inj hsome)
  | closeNamed name =>
      cases hasks
      exact hother (Option.some.inj hsome)
  | putPeers peers =>
      cases hasks
      exact hother (Option.some.inj hsome)
  | replaceMesh addr =>
      cases hasks
      exact hother (Option.some.inj hsome)
  | _ => cases hsome

theorem asks_reconcile : reconcile.Uses call.Asks :=
  uses_reconcile (fun _ => trivial) fun _ => trivial

theorem asks_install {α : Type} {rest : FirewallM α} (hrest : rest.Uses call.Asks) :
    (persist >>= fun _ => reconcile >>= fun _ => rest).Uses call.Asks := by
  have hpersist : persist.Uses call.Asks := uses_step trivial fun _ => uses_ask trivial
  exact hpersist.bind fun _ => asks_reconcile.bind fun _ => hrest

theorem asks_settle (changed : Nat) : (settle changed).Uses call.Asks := by
  have hlast : (do let exposed ← ask .list; return (changed, exposed) :
      FirewallM (Nat × List ExposedPort)).Uses call.Asks :=
    uses_step trivial fun _ => trivial
  unfold settle
  dsimp only
  split
  · exact asks_install hlast
  · exact hlast

theorem asks_admitName {α : Type} {name : String} {rest : FirewallM α}
    (hrest : validLabel name = true → rest.Uses call.Asks) :
    (admitName name >>= fun _ => rest).Uses call.Asks := by
  unfold admitName
  dsimp only
  split
  · trivial
  · rename_i hvalid
    have hrest := hrest (by simpa using hvalid)
    rw [Prog.bind_assoc]
    refine uses_step trivial fun distinct => ?_
    split
    · trivial
    · exact hrest

theorem asks_program (call : FirewallCall) : call.program.Uses call.Asks := by
  cases call with
  | expose proto port scope name kind =>
      apply uses_map
      apply asks_admitName
      intro hvalid
      exact uses_step ⟨proto, port, scope, name, kind, rfl, rfl, hvalid⟩ fun _ =>
        asks_install (uses_ask trivial)
  | unexpose proto port scope =>
      apply uses_map
      exact uses_step rfl fun _ => asks_install (uses_ask trivial)
  | exposeNamedScope name scope =>
      apply uses_map
      exact uses_step rfl asks_settle
  | unexposeNamed name =>
      apply uses_map
      exact uses_step trivial fun _ => uses_step rfl fun _ => uses_step trivial asks_settle
  | updatePeers peers =>
      apply uses_map
      refine uses_step trivial fun same => ?_
      cases same with
      | true => trivial
      | false =>
          exact uses_step trivial fun _ => uses_step rfl fun _ =>
            asks_reconcile.bind fun _ => trivial
  | setMeshAddr addr =>
      apply uses_map
      refine uses_step rfl fun changed => ?_
      cases changed with
      | true => exact asks_reconcile
      | false => trivial

end

end FirewallCall

/-- Calls side by side. -/
abbrev firewall : Machine FirewallSig where
  State := Firewall
  Call := FirewallCall
  Err := Stop
  Reply := FirewallReply
  Choice := Faults
  World := Empty
  start := FirewallCall.program
  exec := fun _ o faults fw => some (fw.exec faults o)
  suspends := fun _ => false
  release := fun _ fw => fw
  move := fun world _ => world.elim

end UnityLan.Engine.Fw
