import UnityLan.Foundation.Annex
import UnityLan.Engine.Fw.Firewall
import UnityLan.Engine.Rollback
import UnityLan.Engine.Status

namespace UnityLan.Engine.Control

open UnityLan.Foundation Fw

/-! The daemon's side of the control socket: one request a connection, or the status for as long as
the client stays. -/

inductive Access
  /-- Every request. -/
  | full
  /-- `Status` and `Watch` only. -/
  | readOnly
  deriving DecidableEq

inductive ExposeOp
  | list
  | add (proto : Proto) (port : Port) (scope : ExposeScope) (name : Option String)
      (kind : ServiceKind)
  | remove (proto : Proto) (port : Port) (scope : RemoveScope)
  | addScopeNamed (name : String) (scope : ExposeScope)
  | removeNamed (name : String)

inductive ControlRequest
  | status
  | watch
  | manage (op : ManageOp)
  | expose (op : ExposeOp)
  | setNetwork (guildId : GuildId) (roleId : RoleId) (enabled : Bool)
  | login
  | setConnected (connected : Bool)
  | setNewNetworkDefault (disable : Bool)
  | setCertsEnabled (enabled : Bool)
  | setOwnDevicePeering (enabled : Bool)
  | logout
  | blockPeer (userId : UserId) (username : String)
  | unblockPeer (userId : UserId)
  | applyUpdate

def Access.allows : Access → ControlRequest → Bool
  | .full, _ => true
  | .readOnly, .status => true
  | .readOnly, .watch => true
  | .readOnly, _ => false

structure ExposeResp where
  message : String
  exposed : List ExposedPort

inductive ControlResponse
  | status (report : StatusReport)
  | manage (resp : ManageResp)
  | expose (resp : ExposeResp)
  | network (message : String) (networks : List NetworkStatus)
  | login (authorizeUrl : String)
  | connected (connected : Bool) (message : String)
  | logout (message : String)
  | update (version : String) (message : String)
  | error (message : String)

/-! The scope of an exposure, against the networks of the device. -/

def netLabel (n : NetworkStatus) : String :=
  if n.guildName.isEmpty then n.name else s!"{n.name} @ {n.guildName}"

def listing (held : List NetworkStatus) : String :=
  ", ".intercalate (held.map netLabel)

def resolveScope (scope : ExposeScope) (held : List NetworkStatus) : Except String ExposeScope :=
  match scope with
  | .net guildId roleId =>
      if held.any fun n => n.guildId == guildId && n.roleId == roleId then
        .ok (.net guildId roleId)
      else
        .error s!"not a member of network {guildId}/{roleId} (your networks: {listing held})"
  | .unresolved guild name =>
      match held.filter fun n => n.name == name && guild.all fun g => n.guildName == g with
      | [] => .error s!"not a member of network '{name}' (your networks: {listing held})"
      | [only] => .ok (.net only.guildId only.roleId)
      | many =>
          .error (s!"network '{name}' is ambiguous — you hold it in {many.length} communities " ++
            "(" ++ ", ".intercalate (many.map NetworkStatus.guildName) ++
            "). Name one with `--guild`.")
  | other => .ok other

/-- A scope that names no network, or one that a report has. -/
def Admissible (reports : List StatusReport) : ExposeScope → Prop
  | .allPeers => True
  | .ownDevices => True
  | .net guildId roleId =>
      ∃ report ∈ reports, ∃ n ∈ report.networks, n.guildId = guildId ∧ n.roleId = roleId
  | .unresolved _ _ => False

section

variable {reports reports' : List StatusReport} {report : StatusReport} {scope scope' : ExposeScope}

theorem Admissible.mono (hmore : reports ⊆ reports') (hadmissible : Admissible reports scope) :
    Admissible reports' scope := by
  cases scope with
  | net guildId roleId =>
      obtain ⟨report, hreport, n, hn, hnames⟩ := hadmissible
      exact ⟨report, hmore hreport, n, hn, hnames⟩
  | _ => exact hadmissible

theorem resolveScope_admissible (hreport : report ∈ reports)
    (hresolved : resolveScope scope report.networks = .ok scope') : Admissible reports scope' := by
  unfold resolveScope at hresolved
  split at hresolved
  · rename_i guildId roleId
    split at hresolved
    · rename_i hknown
      cases hresolved
      obtain ⟨n, hn, hnames⟩ := List.any_eq_true.mp hknown
      rw [Bool.and_eq_true, beq_iff_eq, beq_iff_eq] at hnames
      exact ⟨report, hreport, n, hn, hnames⟩
    · cases hresolved
  · rename_i guild name
    split at hresolved
    · cases hresolved
    · rename_i only honly
      cases hresolved
      have hmem : only ∈ report.networks.filter fun n =>
          n.name == name && guild.all fun g => n.guildName == g := by
        rw [honly]
        exact List.mem_singleton_self only
      exact ⟨report, hreport, only, (List.mem_filter.mp hmem).1, rfl, rfl⟩
    · cases hresolved
  · rename_i hnet hunresolved
    cases hresolved
    cases scope with
    | allPeers => trivial
    | ownDevices => trivial
    | net guildId roleId => exact (hnet guildId roleId rfl).elim
    | unresolved guild name => exact (hunresolved guild name rfl).elim

end

/-! The steps of a connection, beside those of the firewall. -/

def MAX_REQUEST_BYTES : Nat := 64 * 1024

inductive ServerOp
  /-- The line of the request; `none` where it does not arrive, or not in time. -/
  | readLine
  /-- The current status, and how often it was sent. -/
  | report
  /-- The handler of a request that the firewall has no part in. -/
  | handle (req : ControlRequest)
  /-- A line to the client; whether it was written. -/
  | respond (resp : ControlResponse)
  /-- How many lines a subscription gets to see at most. -/
  | rounds
  /-- The status was sent once more; `false` once the daemon is shutting down. -/
  | changed (seen : Nat)

abbrev ServerOp.Answer : ServerOp → Type
  | .readLine => Option String
  | .report => Nat × StatusReport
  | .handle _ => ControlResponse
  | .respond _ => Bool
  | .rounds => Nat
  | .changed _ => Bool

abbrev ServerSig : Sig where
  Op := ServerOp
  Res := ServerOp.Answer

abbrev DaemonSig : Sig := FirewallSig.sum ServerSig

abbrev ServerM := Prog DaemonSig Stop

def act (o : ServerOp) : ServerM o.Answer :=
  Prog.perform (S := FirewallSig.sum ServerSig) (.inr o)

/-- What is around the connections. -/
structure Setup where
  /-- `serde_json`, of a request. -/
  parse : String → Option ControlRequest
  /-- `firewall = true`. -/
  firewall : Bool
  /-- What the other handlers keep, and what is decided outside of them. -/
  Rest : Type
  Outside : Type
  handler : ControlRequest → Outside → StatusReport × Rest → ControlResponse × StatusReport × Rest
  /-- An error of the system. -/
  describe : Stop → String

def Setup.errorText (setup : Setup) : Stop → String
  | .refused message => message
  | stop => setup.describe stop

/-! The connections. -/

def send (resp : ControlResponse) : ServerM Unit := do
  let written ← act (.respond resp)
  if !written then throw (.refused "writing to the control client")

def resolved {α : Type} : Except String α → ServerM α
  | .ok value => return value
  | .error message => throw (.refused message)

def removedLabel : RemoveScope → String
  | .exact scope => s!" ({scope.fallbackLabel})"
  | .all => ""

def exposedMessage (proto : Proto) (port : Port) (scope : ExposeScope) (name : Option String)
    (exposed : List ExposedPort) : String :=
  let label :=
    (exposed.find? fun e => e.proto == proto && e.port == port && e.scope == scope).elim
      scope.fallbackLabel ExposedPort.label
  let bare := s!"{proto.asStr}/{port.toNat}"
  let what := name.elim bare fun name => s!"{name} ({bare})"
  s!"exposed {what} ({label})"

def openedMessage (name : String) (scope : ExposeScope) (added : Nat)
    (exposed : List ExposedPort) : String :=
  let serves := exposed.any fun e => e.name == some name
  let label :=
    (exposed.find? fun e => e.scope == scope).elim scope.fallbackLabel ExposedPort.label
  match added, serves with
  | 0, false => s!"no service named {name.quote} is running here"
  | 0, true => s!"{name} was already open to {label}"
  | n, _ => s!"opened {name} to {label} ({n} port(s))"

def closedMessage (name : String) (removed : Nat) : String :=
  if removed = 0 then s!"no service named {name.quote} is running here"
  else s!"closed {name} ({removed} port(s))"

def applyExpose (op : ExposeOp) (held : List NetworkStatus) : ServerM ExposeResp :=
  match op with
  | .list => do
      let exposed ← (ask .list).left
      return ⟨"exposed ports", exposed⟩
  | .add proto port scope name kind => do
      let scope ← resolved (resolveScope scope held)
      let exposed ← (Fw.expose proto port scope name kind).left
      return ⟨exposedMessage proto port scope name exposed, exposed⟩
  | .remove proto port scope => do
      let exposed ← (Fw.unexpose proto port scope).left
      return ⟨s!"closed {proto.asStr}/{port.toNat}{removedLabel scope}", exposed⟩
  | .addScopeNamed name scope => do
      let scope ← resolved (resolveScope scope held)
      let done ← (Fw.exposeNamedScope name scope).left
      return ⟨openedMessage name scope done.1 done.2, done.2⟩
  | .removeNamed name => do
      let done ← (Fw.unexposeNamed name).left
      return ⟨closedMessage name done.1, done.2⟩

def READ_ONLY : String :=
  "this control endpoint is read-only; it answers Status and Watch only"

def streamStatus : Nat → ServerM Unit
  | 0 => throw (.refused "writing to the control client")
  | rounds + 1 => do
      let current ← act .report
      send (.status current.2)
      let more ← act (.changed current.1)
      if more then streamStatus rounds

section

variable (setup : Setup)

/-- The answer to an exposure; a panic ends the connection without one. -/
def exposeResponse : Except Stop ExposeResp → ServerM ControlResponse
  | .ok resp => return .expose resp
  | .error .panicked => throw .panicked
  | .error stop => return .error (setup.errorText stop)

def respondTo (req : ControlRequest) : ServerM ControlResponse :=
  match req with
  | .status => do
      let current ← act .report
      return .status current.2
  | .watch => return .error "Watch is not a one-shot request"
  | .expose op =>
      if setup.firewall then do
        let current ← act .report
        let result ← (applyExpose op current.2.networks).attempt
        exposeResponse setup result
      else return .error "firewall disabled (set firewall = true)"
  | req => act (.handle req)

def dispatch (access : Access) (req : ControlRequest) : ServerM Unit :=
  -- Refused ahead of every handler.
  if !access.allows req then send (.error READ_ONLY)
  else
    match req with
    | .watch => do
        let rounds ← act .rounds
        streamStatus rounds
    | req => do
        let resp ← respondTo setup req
        send resp

def handleConn (access : Access) : ServerM Unit := do
  let line ← act .readLine
  match line with
  | none => throw (.refused "control request not received within the read timeout")
  | some line =>
      if line.utf8ByteSize = 0 then return ()
      else if MAX_REQUEST_BYTES ≤ line.utf8ByteSize then
        throw (.refused s!"control request exceeds {MAX_REQUEST_BYTES}-byte cap")
      else
        match setup.parse (SelfUpdate.Rollback.trim line) with
        | none => throw (.refused "not a control request")
        | some req => dispatch setup access req

/-! The daemon: the connections of its endpoints, its own calls of the firewall, and the status
that it sends. -/

inductive ServerCall
  | connection (access : Access)
  | updatePeers (peers : PeerSets)
  | setMeshAddr (addr : Ipv4Addr)

def ServerCall.access : ServerCall → Option Access
  | .connection access => some access
  | _ => none

def ServerCall.program : ServerCall → ServerM Unit
  | .connection access => handleConn setup access
  | .updatePeers peers => do
      let _ ← (Fw.updatePeers peers).left
      return ()
  | .setMeshAddr addr => (Fw.setMeshAddr addr).left

structure Daemon where
  fw : Firewall := {}
  /-- How often the status was sent. -/
  version : Nat := 0
  report : StatusReport := {}
  rest : setup.Rest

/-- What is decided outside, for one step. -/
inductive Deciding
  | fails (faults : Faults)
  | line (text : Option String)
  | written (ok : Bool)
  | rounds (count : Nat)
  | sentMore (more : Bool)
  | handled (outside : setup.Outside)
  | go

end

variable {setup : Setup}

namespace Daemon

def handled (d : Daemon setup) (req : ControlRequest) (outside : setup.Outside) :
    ControlResponse × Daemon setup :=
  let done := setup.handler req outside (d.report, d.rest)
  (done.1,
    { d with
      version := if done.2.1 = d.report then d.version else d.version + 1
      report := done.2.1
      rest := done.2.2 })

def serve (d : Daemon setup) :
    (o : ServerOp) → Deciding setup → Option (o.Answer × Daemon setup)
  | .readLine, .line text => some (text, d)
  | .report, _ => some ((d.version, d.report), d)
  | .handle req, .handled outside => some (d.handled req outside)
  | .respond _, .written ok => some (ok, d)
  | .rounds, .rounds count => some (count, d)
  | .changed seen, .sentMore true => if d.version ≠ seen then some (true, d) else none
  | .changed _, .sentMore false => some (false, d)
  | _, _ => none

def exec (d : Daemon setup) : (o : DaemonSig.Op) → Deciding setup →
    Option (DaemonSig.Res o × Daemon setup)
  | .inl o, .fails faults =>
      let done := d.fw.exec faults o
      some (done.1, { d with fw := done.2 })
  | .inr o, deciding => d.serve o deciding
  | _, _ => none

end Daemon

variable (setup) in
abbrev server : Machine DaemonSig where
  State := Daemon setup
  Call := ServerCall
  Err := Stop
  Reply := Unit
  Choice := Deciding setup
  World := StatusReport × setup.Rest
  start := ServerCall.program setup
  exec := fun _ o deciding d => d.exec o deciding
  suspends
    | .inr .readLine => true
    | .inr (.handle _) => true
    | .inr (.respond _) => true
    | .inr (.changed _) => true
    | _ => false
  release := fun _ d => d
  move := fun sent d =>
    some { d with version := d.version + 1, report := sent.1, rest := sent.2 }

/-! What a connection may do to the firewall. -/

structure Conn where
  access : Option Access
  reports : List StatusReport := []
  exposures : List (List Exposed) := []

namespace Conn

def Opens (μ : Conn) : FirewallOp → Prop
  | .put new => Admissible μ.reports new.scope
  | .widen _ scope => Admissible μ.reports scope
  | .write exposed => exposed ∈ μ.exposures
  | .apply ruleset => ∃ exposed ∈ μ.exposures, ruleset.exposed = effectiveExposed exposed
  | _ => True

def Allows (μ : Conn) : DaemonSig.Op → Prop
  | .inl o => μ.access ≠ some .readOnly ∧ μ.Opens o
  | .inr (.handle _) => μ.access ≠ some .readOnly
  | .inr (.respond resp) =>
      μ.access = some .readOnly →
        (∃ report ∈ μ.reports, resp = .status report) ∨ resp = .error READ_ONLY
  | _ => True

def next (μ : Conn) : (o : DaemonSig.Op) → DaemonSig.Res o → Conn
  | .inl (.read .exposures), .ok exposed => { μ with exposures := exposed :: μ.exposures }
  | .inr .report, current => { μ with reports := current.2 :: μ.reports }
  | _, _ => μ

def mon : Monitor DaemonSig Conn where
  allows := Allows
  expects := fun _ _ _ => True
  next := next

structure Grows (μ μ' : Conn) : Prop where
  access : μ'.access = μ.access
  reports : μ.reports ⊆ μ'.reports
  exposures : μ.exposures ⊆ μ'.exposures

variable {μ μ' μ'' : Conn}

theorem Grows.refl (μ : Conn) : μ.Grows μ :=
  ⟨rfl, List.Subset.refl _, List.Subset.refl _⟩

theorem Grows.trans (hfirst : μ.Grows μ') (hsecond : μ'.Grows μ'') : μ.Grows μ'' :=
  ⟨hsecond.access.trans hfirst.access, List.Subset.trans hfirst.reports hsecond.reports,
    List.Subset.trans hfirst.exposures hsecond.exposures⟩

theorem grows_next (o : DaemonSig.Op) (answer : DaemonSig.Res o) :
    μ.Grows (μ.next o answer) := by
  unfold next
  split
  · exact ⟨rfl, List.Subset.refl _, List.subset_cons_self _ _⟩
  · exact ⟨rfl, List.subset_cons_self _ _, List.Subset.refl _⟩
  · exact Grows.refl μ

/-- However a program ends, more was read; and where it returns, the value is as it is to be. -/
def growing {α : Type} (value : Conn → α → Prop) (μ μ' : Conn) : Except Stop α → Prop
  | .ok result => μ.Grows μ' ∧ value μ' result
  | .error _ => μ.Grows μ'

section

variable {S : Sig} {sees : Monitor S Conn} {α β : Type}

theorem growing_bind {program : Prog S Stop α} {f : α → Prog S Stop β}
    {mid : Conn → α → Prop} {last : Conn → β → Prop}
    (hprogram : program.Conforms sees (growing mid μ) μ)
    (hrest : ∀ μ' value, μ.Grows μ' → mid μ' value → (f value).Conforms sees (growing last μ') μ') :
    (program >>= f).Conforms sees (growing last μ) μ := by
  refine hprogram.bind (fun μ' value hmid => ?_) fun _ _ hgrows => hgrows
  refine (hrest μ' value hmid.1 hmid.2).mono fun μ'' result hlast => ?_
  cases result with
  | ok value => exact ⟨hmid.1.trans hlast.1, hlast.2⟩
  | error error => exact hmid.1.trans hlast

def done (_ : Conn) (_ : α) : Prop := True

end

/-! The calls of the firewall. -/

section

variable {o : FirewallOp}

theorem growing_ask (hallows : μ.Allows (.inl o)) :
    (ask o).Conforms mon.onLeft (growing done μ) μ := by
  refine ⟨hallows, fun answer _ => ?_⟩
  have hgrows : μ.Grows (μ.next (.inl o) answer) := grows_next (.inl o) answer
  cases answer with
  | ok value => exact ⟨hgrows, trivial⟩
  | error error => exact hgrows

theorem growing_read (hfull : μ.access ≠ some .readOnly) :
    (ask (.read .exposures)).Conforms mon.onLeft
      (growing (fun μ' exposed => exposed ∈ μ'.exposures) μ) μ := by
  refine ⟨⟨hfull, trivial⟩, fun answer _ => ?_⟩
  have hgrows : μ.Grows (μ.next (.inl (.read .exposures)) answer) := grows_next (.inl _) answer
  cases answer with
  | ok exposed => exact ⟨hgrows, List.mem_cons_self⟩
  | error error => exact hgrows

theorem Grows.full (hgrows : μ.Grows μ') (hfull : μ.access ≠ some .readOnly) :
    μ'.access ≠ some .readOnly :=
  hgrows.access ▸ hfull

theorem growing_persist (hfull : μ.access ≠ some .readOnly) :
    persist.Conforms mon.onLeft (growing done μ) μ :=
  growing_bind (growing_read hfull) fun _ _ hgrows hread =>
    growing_ask ⟨hgrows.full hfull, hread⟩

theorem growing_reconcile (hfull : μ.access ≠ some .readOnly) :
    reconcile.Conforms mon.onLeft (growing done μ) μ := by
  unfold reconcile
  refine growing_bind (growing_ask ⟨hfull, trivial⟩) fun μ₁ meshAddr hgrows₁ _ => ?_
  have hfull₁ := hgrows₁.full hfull
  refine growing_bind (growing_read hfull₁) fun μ₂ exposed hgrows₂ hread => ?_
  have hfull₂ := hgrows₂.full hfull₁
  have hallows : μ₂.Allows (.inl (.read .peers)) := ⟨hfull₂, trivial⟩
  refine growing_bind (growing_ask hallows) fun μ₃ peers hgrows₃ _ => ?_
  exact growing_ask ⟨hgrows₃.full hfull₂, exposed, hgrows₃.exposures hread, rfl⟩

theorem growing_install {α : Type} {rest : FirewallM α} (hfull : μ.access ≠ some .readOnly)
    (hrest : ∀ μ', μ'.access ≠ some .readOnly → rest.Conforms mon.onLeft (growing done μ') μ') :
    (persist >>= fun _ => reconcile >>= fun _ => rest).Conforms mon.onLeft (growing done μ) μ := by
  refine growing_bind (growing_persist hfull) fun μ₁ _ hgrows₁ _ => ?_
  have hfull₁ := hgrows₁.full hfull
  refine growing_bind (growing_reconcile hfull₁) fun μ₂ _ hgrows₂ _ => ?_
  exact hrest μ₂ (hgrows₂.full hfull₁)

theorem growing_admitName (hfull : μ.access ≠ some .readOnly) (name : String) :
    (admitName name).Conforms mon.onLeft (growing done μ) μ := by
  unfold admitName
  dsimp only
  split
  · exact Grows.refl μ
  · refine growing_bind (growing_ask ⟨hfull, trivial⟩) fun μ' distinct _ _ => ?_
    split
    · exact Grows.refl μ'
    · exact ⟨Grows.refl μ', trivial⟩

theorem growing_list (hfull : μ.access ≠ some .readOnly) :
    (ask .list).Conforms mon.onLeft (growing done μ) μ :=
  growing_ask ⟨hfull, trivial⟩

theorem growing_expose (hfull : μ.access ≠ some .readOnly) (proto : Proto) (port : Port)
    {scope : ExposeScope} (name : Option String) (kind : ServiceKind)
    (hscope : Admissible μ.reports scope) :
    (expose proto port scope name kind).Conforms mon.onLeft (growing done μ) μ := by
  unfold expose
  refine growing_bind (growing_admitName hfull _) fun μ₁ _ hgrows₁ _ => ?_
  have hput : μ₁.Allows (.inl (.put ⟨proto, port, scope, some (name.getD (defaultLabel port)),
      kind⟩)) :=
    ⟨hgrows₁.full hfull, hscope.mono hgrows₁.reports⟩
  refine growing_bind (growing_ask hput) fun μ₂ _ hgrows₂ _ => ?_
  exact growing_install (hgrows₂.full (hgrows₁.full hfull)) fun _ => growing_list

theorem growing_unexpose (hfull : μ.access ≠ some .readOnly) (proto : Proto) (port : Port)
    (scope : RemoveScope) :
    (unexpose proto port scope).Conforms mon.onLeft (growing done μ) μ := by
  unfold unexpose
  refine growing_bind (growing_ask ⟨hfull, trivial⟩) fun μ' _ hgrows _ => ?_
  exact growing_install (hgrows.full hfull) fun _ => growing_list

theorem growing_settle (hfull : μ.access ≠ some .readOnly) (changed : Nat) :
    (settle changed).Conforms mon.onLeft (growing done μ) μ := by
  have hlast : ∀ μ', μ'.access ≠ some .readOnly →
      (do let exposed ← ask .list; return (changed, exposed) :
        FirewallM (Nat × List ExposedPort)).Conforms mon.onLeft (growing done μ') μ' :=
    fun μ' hfull' => growing_bind (growing_list hfull') fun μ'' _ _ _ => ⟨Grows.refl μ'', trivial⟩
  unfold settle
  dsimp only
  split
  · exact growing_install hfull hlast
  · exact hlast μ hfull

theorem growing_exposeNamedScope (hfull : μ.access ≠ some .readOnly) (name : String)
    {scope : ExposeScope} (hscope : Admissible μ.reports scope) :
    (exposeNamedScope name scope).Conforms mon.onLeft (growing done μ) μ :=
  growing_bind (growing_ask ⟨hfull, hscope⟩) fun _ added hgrows _ =>
    growing_settle (hgrows.full hfull) added

theorem growing_unexposeNamed (hfull : μ.access ≠ some .readOnly) (name : String) :
    (unexposeNamed name).Conforms mon.onLeft (growing done μ) μ := by
  unfold unexposeNamed
  refine growing_bind (growing_ask ⟨hfull, trivial⟩) fun μ₁ before hgrows₁ _ => ?_
  have hfull₁ := hgrows₁.full hfull
  refine growing_bind (growing_ask ⟨hfull₁, trivial⟩) fun μ₂ _ hgrows₂ _ => ?_
  have hfull₂ := hgrows₂.full hfull₁
  refine growing_bind (growing_ask ⟨hfull₂, trivial⟩) fun μ₃ removed hgrows₃ _ => ?_
  exact growing_settle (hgrows₃.full hfull₂) removed

theorem growing_updatePeers (hfull : μ.access ≠ some .readOnly) (peers : PeerSets) :
    (updatePeers peers).Conforms mon.onLeft (growing done μ) μ := by
  unfold updatePeers
  refine growing_bind (growing_ask ⟨hfull, trivial⟩) fun μ₁ same hgrows₁ _ => ?_
  have hfull₁ := hgrows₁.full hfull
  cases same with
  | true => exact ⟨Grows.refl μ₁, trivial⟩
  | false =>
      refine growing_bind (growing_ask ⟨hfull₁, trivial⟩) fun μ₂ _ hgrows₂ _ => ?_
      have hfull₂ := hgrows₂.full hfull₁
      refine growing_bind (growing_ask ⟨hfull₂, trivial⟩) fun μ₃ _ hgrows₃ _ => ?_
      refine growing_bind (growing_reconcile (hgrows₃.full hfull₂)) fun μ₄ _ _ _ => ?_
      exact ⟨Grows.refl μ₄, trivial⟩

theorem growing_setMeshAddr (hfull : μ.access ≠ some .readOnly) (addr : Ipv4Addr) :
    (setMeshAddr addr).Conforms mon.onLeft (growing done μ) μ := by
  unfold setMeshAddr
  refine growing_bind (growing_ask ⟨hfull, trivial⟩) fun μ' changed hgrows _ => ?_
  cases changed with
  | true => exact growing_reconcile (hgrows.full hfull)
  | false => exact ⟨Grows.refl μ', trivial⟩

end

/-! The calls of the daemon. -/

theorem growing_act {o : ServerOp} (hallows : μ.Allows (.inr o)) :
    (act o).Conforms mon (growing done μ) μ :=
  ⟨hallows, fun answer _ => ⟨grows_next (.inr o) answer, trivial⟩⟩

theorem growing_report (μ : Conn) :
    (act .report).Conforms mon (growing (fun μ' current => current.2 ∈ μ'.reports) μ) μ :=
  ⟨trivial, fun answer _ => ⟨grows_next (.inr .report) answer, List.mem_cons_self⟩⟩

theorem growing_left {α : Type} {program : FirewallM α}
    (hprogram : program.Conforms mon.onLeft (growing done μ) μ) :
    (program.left : ServerM α).Conforms mon (growing done μ) μ :=
  (Prog.conforms_left program μ).mpr hprogram

theorem growing_send {resp : ControlResponse} (hallows : μ.Allows (.inr (.respond resp))) :
    (send resp).Conforms mon (growing done μ) μ := by
  unfold send
  refine growing_bind (growing_act hallows) fun μ' written _ _ => ?_
  cases written with
  | true => exact ⟨Grows.refl μ', trivial⟩
  | false => exact Grows.refl μ'

theorem growing_streamStatus (rounds : Nat) :
    (streamStatus rounds).Conforms mon (growing done μ) μ := by
  induction rounds generalizing μ with
  | zero => exact Grows.refl μ
  | succ rounds ih =>
      unfold streamStatus
      refine growing_bind (growing_report μ) fun μ₁ current _ hreport => ?_
      have hallows : μ₁.Allows (.inr (.respond (.status current.2))) :=
        fun _ => .inl ⟨current.2, hreport, rfl⟩
      refine growing_bind (growing_send hallows) fun μ₂ _ _ _ => ?_
      refine growing_bind (growing_act (o := .changed current.1) trivial) fun μ₃ more _ _ => ?_
      cases more with
      | true => exact ih
      | false => exact ⟨Grows.refl μ₃, trivial⟩

theorem growing_resolved {scope : ExposeScope} {report : StatusReport}
    (hreport : report ∈ μ.reports) :
    (resolved (resolveScope scope report.networks)).Conforms mon
      (growing (fun μ' scope' => Admissible μ'.reports scope') μ) μ := by
  cases hresolve : resolveScope scope report.networks with
  | ok scope' => exact ⟨Grows.refl μ, resolveScope_admissible hreport hresolve⟩
  | error message => exact Grows.refl μ

theorem growing_applyExpose (hfull : μ.access ≠ some .readOnly) (op : ExposeOp)
    {report : StatusReport} (hreport : report ∈ μ.reports) :
    (applyExpose op report.networks).Conforms mon (growing done μ) μ := by
  cases op with
  | list =>
      exact growing_bind (growing_left (growing_list hfull)) fun μ' _ _ _ =>
        ⟨Grows.refl μ', trivial⟩
  | add proto port scope name kind =>
      refine growing_bind (growing_resolved hreport) fun μ₁ scope' hgrows₁ hscope => ?_
      have hexpose := growing_expose (hgrows₁.full hfull) proto port name kind hscope
      exact growing_bind (growing_left hexpose) fun μ₂ _ _ _ => ⟨Grows.refl μ₂, trivial⟩
  | remove proto port scope =>
      exact growing_bind (growing_left (growing_unexpose hfull proto port scope))
        fun μ' _ _ _ => ⟨Grows.refl μ', trivial⟩
  | addScopeNamed name scope =>
      refine growing_bind (growing_resolved hreport) fun μ₁ scope' hgrows₁ hscope => ?_
      have hwiden := growing_exposeNamedScope (hgrows₁.full hfull) name hscope
      exact growing_bind (growing_left hwiden) fun μ₂ _ _ _ => ⟨Grows.refl μ₂, trivial⟩
  | removeNamed name =>
      exact growing_bind (growing_left (growing_unexposeNamed hfull name))
        fun μ' _ _ _ => ⟨Grows.refl μ', trivial⟩

theorem Grows.answers (hgrows : μ.Grows μ') (hfull : μ.access ≠ some .readOnly)
    (resp : ControlResponse) : μ'.Allows (.inr (.respond resp)) :=
  fun honly => absurd honly (hgrows.full hfull)

variable {setup : Setup}

def mayAnswer (μ : Conn) (resp : ControlResponse) : Prop :=
  μ.Allows (.inr (.respond resp))

theorem growing_exposeOp (hfull : μ.access ≠ some .readOnly) (op : ExposeOp) :
    (respondTo setup (.expose op)).Conforms mon (growing mayAnswer μ) μ := by
  unfold respondTo
  dsimp only
  split
  · refine growing_bind (growing_report μ) fun μ₁ current hgrows₁ hreport => ?_
    have hfull₁ := hgrows₁.full hfull
    have hattempt : (applyExpose op current.2.networks).attempt.Conforms mon (growing done μ₁)
        μ₁ := by
      rw [Prog.conforms_attempt]
      refine (growing_applyExpose hfull₁ op hreport).mono fun μ' result hresult => ⟨?_, trivial⟩
      cases result with
      | ok resp => exact hresult.1
      | error stop => exact hresult
    refine growing_bind hattempt fun μ₂ result hgrows₂ _ => ?_
    have hanswers := (Grows.refl μ₂).answers (hgrows₂.full hfull₁)
    unfold exposeResponse
    split
    · exact ⟨Grows.refl μ₂, hanswers _⟩
    · exact Grows.refl μ₂
    · exact ⟨Grows.refl μ₂, hanswers _⟩
  · exact ⟨Grows.refl μ, (Grows.refl μ).answers hfull _⟩

theorem growing_status (μ : Conn) :
    (respondTo setup .status).Conforms mon (growing mayAnswer μ) μ :=
  growing_bind (growing_report μ) fun μ' current _ hreport =>
    ⟨Grows.refl μ', fun _ => .inl ⟨current.2, hreport, rfl⟩⟩

theorem growing_respondTo (hfull : μ.access ≠ some .readOnly) (req : ControlRequest) :
    (respondTo setup req).Conforms mon (growing mayAnswer μ) μ := by
  have hhandle : (act (.handle req)).Conforms mon (growing mayAnswer μ) μ :=
    ⟨hfull, fun answer _ => ⟨Grows.refl μ, (Grows.refl μ).answers hfull answer⟩⟩
  cases req with
  | status => exact growing_status μ
  | watch => exact ⟨Grows.refl μ, (Grows.refl μ).answers hfull _⟩
  | expose op => exact growing_exposeOp hfull op
  | _ => exact hhandle

theorem growing_dispatch {access : Access} (haccess : μ.access = some access)
    (req : ControlRequest) :
    (dispatch setup access req).Conforms mon (growing done μ) μ := by
  have hrespond : (respondTo setup req).Conforms mon (growing mayAnswer μ) μ →
      (respondTo setup req >>= send).Conforms mon (growing done μ) μ := fun hresp =>
    growing_bind hresp fun _ _ _ hanswer => growing_send hanswer
  unfold dispatch
  split
  · exact growing_send fun _ => .inr rfl
  · rename_i hallowed
    have hallows : access.allows req = true := by simpa using hallowed
    split
    · exact growing_bind (growing_act (o := .rounds) trivial) fun _ rounds _ _ =>
        growing_streamStatus rounds
    · rename_i hwatch
      apply hrespond
      cases access with
      | full => exact growing_respondTo (by rw [haccess]; exact fun h => by cases h) req
      | readOnly =>
          cases req with
          | status => exact growing_status μ
          | watch => exact absurd rfl hwatch
          | _ => cases hallows

theorem growing_handleConn {access : Access} (haccess : μ.access = some access) :
    (handleConn setup access).Conforms mon (growing done μ) μ := by
  unfold handleConn
  refine growing_bind (growing_act (o := .readLine) trivial) fun μ' line hgrows _ => ?_
  have haccess' := hgrows.access.trans haccess
  cases line with
  | none => exact Grows.refl μ'
  | some line =>
      dsimp only
      split
      · exact ⟨Grows.refl μ', trivial⟩
      · split
        · exact Grows.refl μ'
        · split
          · exact Grows.refl μ'
          · exact growing_dispatch haccess' _

theorem growing_program (call : ServerCall) :
    (call.program setup).Conforms mon (growing done ⟨call.access, [], []⟩)
      ⟨call.access, [], []⟩ := by
  have hown : ∀ call : ServerCall, call.access = none →
      (⟨call.access, [], []⟩ : Conn).access ≠ some .readOnly := by
    intro call hnone
    rw [hnone]
    exact fun h => by cases h
  cases call with
  | connection access => exact growing_handleConn rfl
  | updatePeers peers =>
      exact growing_bind (growing_left (growing_updatePeers (hown (.updatePeers peers) rfl) peers))
        fun μ' _ _ _ => ⟨Grows.refl μ', trivial⟩
  | setMeshAddr addr =>
      exact growing_left (growing_setMeshAddr (hown (.setMeshAddr addr) rfl) addr)

end Conn

/-! What the firewall holds, of a scope. -/

def Opened (exposed : List Exposed) (scope : ExposeScope) : Prop :=
  ∃ e ∈ exposed, e.scope = scope

/-- Some exposure with the scope is among the inputs, in the file or in the ruleset. -/
inductive Holds (fw : Firewall) (scope : ExposeScope) : Prop
  | stored (hopened : Opened fw.exposed scope)
  | written {exposed : List Exposed} (hfile : fw.file = .holding exposed)
      (hopened : Opened exposed scope)
  | applied {ruleset : Ruleset} (happlied : fw.applied = some ruleset)
      (hopened : Opened ruleset.exposed scope)

def Brings (scope : ExposeScope) : FirewallOp → Prop
  | .put new => new.scope = scope
  | .widen _ wider => wider = scope
  | .write exposed => Opened exposed scope
  | .apply ruleset => Opened ruleset.exposed scope
  | _ => False

section

variable {exposed : List Exposed} {scope wider : ExposeScope} {name : String} {new : Exposed}

theorem Opened.of_filter {keeps : Exposed → Bool} (hopened : Opened (exposed.filter keeps) scope) :
    Opened exposed scope := by
  obtain ⟨e, he, hscope⟩ := hopened
  exact ⟨e, List.mem_of_mem_filter he, hscope⟩

theorem Opened.tail {e : Exposed} (hopened : Opened exposed scope) :
    Opened (e :: exposed) scope := by
  obtain ⟨other, hother, hscope⟩ := hopened
  exact ⟨other, List.mem_cons_of_mem _ hother, hscope⟩

theorem Opened.of_put (hopened : Opened (put new exposed) scope) :
    Opened exposed scope ∨ new.scope = scope := by
  induction exposed with
  | nil =>
      obtain ⟨e, he, hscope⟩ := hopened
      rw [List.mem_singleton.mp he] at hscope
      exact .inr hscope
  | cons head rest ih =>
      obtain ⟨e, he, hscope⟩ := hopened
      unfold put at he
      split at he
      · rcases List.mem_cons.mp he with rfl | he
        · refine .inl ⟨head, List.mem_cons_self, ?_⟩
          rw [← hscope]
          split <;> rfl
        · exact .inl ⟨e, List.mem_cons_of_mem _ he, hscope⟩
      · rcases List.mem_cons.mp he with rfl | he
        · exact .inl ⟨e, List.mem_cons_self, hscope⟩
        · exact (ih ⟨e, he, hscope⟩).imp_left Opened.tail

theorem Opened.of_widenOne {widened : Nat × List Exposed} {e : Exposed}
    (hopened : Opened (widenOne name wider widened e).2 scope) :
    Opened widened.2 scope ∨ wider = scope := by
  unfold widenOne at hopened
  split at hopened
  · exact .inl hopened
  · obtain ⟨other, hother, hscope⟩ := hopened
    rcases List.mem_append.mp hother with hother | hother
    · exact .inl ⟨other, hother, hscope⟩
    · rw [List.mem_singleton.mp hother] at hscope
      exact .inr hscope

theorem Opened.of_widen (hopened : Opened (widen name wider exposed).2 scope) :
    Opened exposed scope ∨ wider = scope := by
  have hfold : ∀ (targets : List Exposed) (widened : Nat × List Exposed),
      Opened (targets.foldl (widenOne name wider) widened).2 scope →
      Opened widened.2 scope ∨ wider = scope := by
    intro targets
    induction targets with
    | nil => exact fun _ hopened => .inl hopened
    | cons target targets ih =>
        intro widened hopened
        rcases ih _ hopened with hone | hwider
        · exact hone.of_widenOne
        · exact .inr hwider
  exact hfold _ _ hopened

theorem webScopes_opened (found : List Exposed) (scopes : List ExposeScope)
    (hmem : scope ∈ found.foldl (fun scopes e =>
      if scopes.contains e.scope then scopes else scopes ++ [e.scope]) scopes) :
    scope ∈ scopes ∨ Opened found scope := by
  induction found generalizing scopes with
  | nil => exact .inl hmem
  | cons head rest ih =>
      rcases ih _ hmem with hbefore | hrest
      · dsimp only at hbefore
        split at hbefore
        · exact .inl hbefore
        · rcases List.mem_append.mp hbefore with hearlier | hown
          · exact .inl hearlier
          · exact .inr ⟨head, List.mem_cons_self, (List.mem_singleton.mp hown).symm⟩
      · exact .inr hrest.tail

theorem Opened.of_effective (hopened : Opened (effectiveExposed exposed) scope) :
    Opened exposed scope := by
  obtain ⟨e, he, hscope⟩ := hopened
  rcases List.mem_append.mp he with he | he
  · exact ⟨e, he, hscope⟩
  · obtain ⟨web, hweb, rfl⟩ := List.mem_map.mp he
    cases hscope
    rcases webScopes_opened _ [] hweb with hnone | hfound
    · exact absurd hnone List.not_mem_nil
    · exact hfound.of_filter

end

section

variable {o : FirewallOp} {faults : Faults} {fw fw' : Firewall} {answer : Except Stop o.Answer}
  {scope : ExposeScope}

theorem holds_underLock {α : Type} {value : α} {answer : Except Stop α} {exposed : List Exposed}
    (hrun : fw.underLock value { fw with exposed := exposed } = (answer, fw'))
    (hholds : Holds fw' scope) : Holds fw scope ∨ Opened exposed scope := by
  rcases Firewall.underLock_cases hrun with ⟨_, rfl⟩ | ⟨_, _, rfl⟩
  · exact .inl hholds
  · cases hholds with
    | stored hopened => exact .inr hopened
    | written hfile hopened => exact .inl (.written hfile hopened)
    | applied happlied hopened => exact .inl (.applied happlied hopened)

theorem holds_write {exposed : List Exposed} {answer : Except Stop Unit}
    (hexec : fw.exec faults (.write exposed) = (answer, fw')) (hholds : Holds fw' scope) :
    Holds fw scope ∨ Opened exposed scope := by
  cases hexec
  cases hholds with
  | stored hopened => exact .inl (.stored hopened)
  | applied happlied hopened => exact .inl (.applied happlied hopened)
  | written hfile hopened =>
      dsimp only at hfile
      unfold ExposedFile.written at hfile
      split at hfile
      · cases hfile
        exact .inr hopened
      · exact .inl (.written hfile hopened)
      · cases hfile

theorem holds_apply {ruleset : Ruleset} {answer : Except Stop Unit}
    (hexec : fw.exec faults (.apply ruleset) = (answer, fw')) (hholds : Holds fw' scope) :
    Holds fw scope ∨ Opened ruleset.exposed scope := by
  unfold Firewall.exec at hexec
  dsimp only at hexec
  split at hexec
  · cases hexec
    exact .inl hholds
  · cases hexec
    cases hholds with
    | stored hopened => exact .inl (.stored hopened)
    | written hfile hopened => exact .inl (.written hfile hopened)
    | applied happlied hopened =>
        cases happlied
        exact .inr hopened

theorem Holds.congr (hexposed : fw'.exposed = fw.exposed) (hfile : fw'.file = fw.file)
    (happlied : fw'.applied = fw.applied) (hholds : Holds fw' scope) : Holds fw scope := by
  cases hholds with
  | stored hopened => exact .stored (hexposed ▸ hopened)
  | written hholding hopened => exact .written (hfile ▸ hholding) hopened
  | applied hsome hopened => exact .applied (happlied ▸ hsome) hopened

theorem holds_exec (hexec : fw.exec faults o = (answer, fw')) (hholds : Holds fw' scope) :
    Holds fw scope ∨ Brings scope o := by
  have hstored : ∀ {exposed : List Exposed}, (Opened exposed scope → Opened fw.exposed scope) →
      Holds fw scope ∨ Opened exposed scope → Holds fw scope ∨ Brings scope o :=
    fun hless hcases => .inl (hcases.elim id fun hopened => .stored (hless hopened))
  have hmore : ∀ {exposed : List Exposed},
      (Opened exposed scope → Opened fw.exposed scope ∨ Brings scope o) →
      Holds fw scope ∨ Opened exposed scope → Holds fw scope ∨ Brings scope o := by
    intro exposed hbrings hcases
    rcases hcases with hbefore | hopened
    · exact .inl hbefore
    · exact (hbrings hopened).imp_left Holds.stored
  have hplain : o.plain = true → o.changes ≠ some .exposures →
      Holds fw scope ∨ Brings scope o := by
    intro hplain hother
    have hframe := exec_plain hplain hexec
    have hexposed : fw'.exposed = fw.exposed := by
      have hkept : (fw.exec faults o).2.value .exposures = fw.value .exposures := exec_keeps hother
      rw [hexec] at hkept
      exact hkept
    exact .inl (hholds.congr hexposed hframe.2.1 hframe.1)
  cases o with
  | put new => exact hmore Opened.of_put (holds_underLock hexec hholds)
  | widen name wider => exact hmore Opened.of_widen (holds_underLock hexec hholds)
  | close proto port scope => exact hstored Opened.of_filter (holds_underLock hexec hholds)
  | closeNamed name => exact hstored Opened.of_filter (holds_underLock hexec hholds)
  | write exposed => exact holds_write hexec hholds
  | apply ruleset => exact holds_apply hexec hholds
  | read input =>
      have hsame : fw' = fw := by
        cases input with
        | exposures => exact underLock_quiet hexec
        | peers => exact (congrArg Prod.snd hexec).symm
        | mesh => exact (congrArg Prod.snd hexec).symm
      exact .inl (hsame ▸ hholds)
  | distinct name => exact hplain rfl fun h => by cases h
  | count => exact hplain rfl fun h => by cases h
  | removed before => exact hplain rfl fun h => by cases h
  | samePeers peers => exact hplain rfl fun h => by cases h
  | putPeers peers => exact hplain rfl fun h => by cases h
  | replaceMesh addr => exact hplain rfl fun h => by cases h
  | list => exact hplain rfl fun h => by cases h

theorem read_exposures {exposed : List Exposed}
    (hexec : fw.exec faults (.read .exposures) = (.ok exposed, fw')) : exposed = fw.exposed := by
  rcases Firewall.underLock_cases hexec with ⟨herror, _⟩ | ⟨_, hok, _⟩
  · cases herror
  · exact Except.ok.inj hok

end

/-! Runs of the daemon. -/

section

variable {setup : Setup} {d d' : Daemon setup} {deciding : Deciding setup}

theorem exec_firewall {o : FirewallOp} {answer : Except Stop o.Answer}
    (hexec : d.exec (.inl o) deciding = some (answer, d')) :
    ∃ faults, d.fw.exec faults o = (answer, d'.fw) := by
  cases deciding with
  | fails faults =>
      cases hexec
      exact ⟨faults, rfl⟩
  | _ => cases hexec

theorem serve_quiet {o : ServerOp} {answer : o.Answer}
    (hserve : d.serve o deciding = some (answer, d')) (hquiet : ∀ req, o ≠ .handle req) :
    d' = d := by
  unfold Daemon.serve at hserve
  split at hserve
  · cases hserve
    rfl
  · cases hserve
    rfl
  · exact absurd rfl (hquiet _)
  · cases hserve
    rfl
  · cases hserve
    rfl
  · split at hserve
    · cases hserve
      rfl
    · cases hserve
  · cases hserve
    rfl
  · cases hserve

theorem serve_fw {o : ServerOp} {answer : o.Answer}
    (hserve : d.serve o deciding = some (answer, d')) : d'.fw = d.fw := by
  cases o with
  | handle req =>
      cases deciding with
      | handled outside =>
          cases hserve
          rfl
      | _ => cases hserve
  | _ => rw [serve_quiet hserve fun req h => by cases h]

end

/-- Every status that the daemon has had. -/
def statuses (setup : Setup) : (server setup).Observer (List StatusReport) where
  see := fun h _ _ d => d.report :: h

def Origin (start : Firewall) (h : List StatusReport) (scope : ExposeScope) : Prop :=
  Holds start scope ∨ Admissible h scope

structure ServerInv (setup : Setup) (start : Firewall) (h : List StatusReport) (d : Daemon setup)
    (views : Nat → Option (ServerCall × Conn)) : Prop where
  current : d.report ∈ h
  held : ∀ scope, Holds d.fw scope → Origin start h scope
  access : ∀ task call μ, views task = some (call, μ) → μ.access = call.access
  known : ∀ task call μ, views task = some (call, μ) → μ.reports ⊆ h
  read : ∀ task call μ, views task = some (call, μ) →
    ∀ exposed ∈ μ.exposures, ∀ scope, Opened exposed scope → Origin start h scope

section

variable {setup : Setup} {start : Firewall} {h h' : List StatusReport} {d d' : Daemon setup}
  {views : Nat → Option (ServerCall × Conn)} {task : Nat} {call : ServerCall} {μ : Conn}
  {scope : ExposeScope}

theorem Origin.mono (hmore : h ⊆ h') (horigin : Origin start h scope) : Origin start h' scope :=
  horigin.imp_right (Admissible.mono hmore)

theorem ServerInv.brings (hinv : ServerInv setup start h d views)
    (hview : views task = some (call, μ)) {o : FirewallOp} (hopens : μ.Opens o)
    (hbrings : Brings scope o) : Origin start h scope := by
  have hknown := hinv.known task call μ hview
  have hread := hinv.read task call μ hview
  cases o with
  | put new =>
      have hscope : Admissible μ.reports new.scope := hopens
      rw [show new.scope = scope from hbrings] at hscope
      exact .inr (hscope.mono hknown)
  | widen name wider =>
      have hscope : Admissible μ.reports wider := hopens
      rw [show wider = scope from hbrings] at hscope
      exact .inr (hscope.mono hknown)
  | write exposed => exact hread exposed hopens scope hbrings
  | apply ruleset =>
      obtain ⟨exposed, hexposed, heffective⟩ := hopens
      have hopened : Opened ruleset.exposed scope := hbrings
      rw [heffective] at hopened
      exact hread exposed hexposed scope hopened.of_effective
  | _ => exact hbrings.elim

theorem ServerInv.more (hinv : ServerInv setup start h d views) (hmore : h ⊆ h')
    (hcurrent : d'.report ∈ h') (hfw : d'.fw = d.fw) : ServerInv setup start h' d' views where
  current := hcurrent
  held := fun scope hholds => (hinv.held scope (hfw ▸ hholds)).mono hmore
  access := hinv.access
  known := fun task call μ hview => List.Subset.trans (hinv.known task call μ hview) hmore
  read := fun task call μ hview exposed hexposed scope hopened =>
    (hinv.read task call μ hview exposed hexposed scope hopened).mono hmore

theorem ServerInv.called (hinv : ServerInv setup start h d views) (call : ServerCall) :
    ServerInv setup start h d
      (Function.update views task (some (call, ⟨call.access, [], []⟩))) where
  current := hinv.current
  held := hinv.held
  access := by
    intro other call' μ' hview
    rcases Machine.update_some_cases hview with ⟨-, hsame⟩ | ⟨-, hother⟩
    · cases hsame
      rfl
    · exact hinv.access other call' μ' hother
  known := by
    intro other call' μ' hview
    rcases Machine.update_some_cases hview with ⟨-, hsame⟩ | ⟨-, hother⟩
    · cases hsame
      exact List.nil_subset h
    · exact hinv.known other call' μ' hother
  read := by
    intro other call' μ' hview
    rcases Machine.update_some_cases hview with ⟨-, hsame⟩ | ⟨-, hother⟩
    · cases hsame
      exact fun _ hnone => absurd hnone List.not_mem_nil
    · exact hinv.read other call' μ' hother

theorem ServerInv.leave (hinv : ServerInv setup start h d views) :
    ServerInv setup start h d (Function.update views task none) where
  current := hinv.current
  held := hinv.held
  access := fun other call μ hview => hinv.access other call μ (Machine.update_none_cases hview).2
  known := fun other call μ hview => hinv.known other call μ (Machine.update_none_cases hview).2
  read := fun other call μ hview => hinv.read other call μ (Machine.update_none_cases hview).2

theorem ServerInv.advance (hinv : ServerInv setup start h d views)
    (hview : views task = some (call, μ)) {μ' : Conn} (hgrows : μ.Grows μ')
    (hcurrent : d'.report ∈ h') (hmore : h ⊆ h')
    (hheld : ∀ scope, Holds d'.fw scope → Origin start h' scope) (hknown : μ'.reports ⊆ h')
    (hread : ∀ exposed ∈ μ'.exposures, ∀ scope, Opened exposed scope → Origin start h' scope) :
    ServerInv setup start h' d' (Function.update views task (some (call, μ'))) where
  current := hcurrent
  held := hheld
  access := by
    intro other call' ν hview'
    rcases Machine.update_some_cases hview' with ⟨rfl, hsame⟩ | ⟨-, hother⟩
    · cases hsame
      exact hgrows.access.trans (hinv.access _ _ _ hview)
    · exact hinv.access other call' ν hother
  known := by
    intro other call' ν hview'
    rcases Machine.update_some_cases hview' with ⟨-, hsame⟩ | ⟨-, hother⟩
    · cases hsame
      exact hknown
    · exact List.Subset.trans (hinv.known other call' ν hother) hmore
  read := by
    intro other call' ν hview' exposed hexposed scope hopened
    rcases Machine.update_some_cases hview' with ⟨-, hsame⟩ | ⟨-, hother⟩
    · cases hsame
      exact hread exposed hexposed scope hopened
    · exact (hinv.read other call' ν hother exposed hexposed scope hopened).mono hmore

theorem ServerInv.read_firewall (hinv : ServerInv setup start h d views)
    (hview : views task = some (call, μ)) {o : FirewallOp} {faults : Faults} {fw' : Firewall}
    {answer : Except Stop o.Answer} (hexec : d.fw.exec faults o = (answer, fw')) :
    ∀ exposed ∈ (μ.next (.inl o) answer).exposures, ∀ scope, Opened exposed scope →
      Origin start h scope := by
  have hbefore := hinv.read task call μ hview
  cases o with
  | read input =>
      cases input with
      | exposures =>
          cases answer with
          | error stop => exact hbefore
          | ok read =>
              intro exposed hexposed scope hopened
              rcases List.mem_cons.mp hexposed with rfl | hexposed
              · rw [read_exposures hexec] at hopened
                exact hinv.held scope (.stored hopened)
              · exact hbefore exposed hexposed scope hopened
      | peers => exact hbefore
      | mesh => exact hbefore
  | _ => exact hbefore

theorem ServerInv.did (hinv : ServerInv setup start h d views)
    (hview : views task = some (call, μ)) {o : DaemonSig.Op} {deciding : Deciding setup}
    {answer : DaemonSig.Res o} (hallows : μ.Allows o)
    (hexec : d.exec o deciding = some (answer, d')) :
    ServerInv setup start (d'.report :: h) d'
      (Function.update views task (some (call, μ.next o answer))) := by
  have hmore : h ⊆ d'.report :: h := List.subset_cons_self _ _
  have hgrows : μ.Grows (μ.next o answer) := Conn.grows_next o answer
  have hknown := hinv.known task call μ hview
  cases o with
  | inl o =>
      obtain ⟨faults, hfw⟩ := exec_firewall hexec
      have hreports : (μ.next (.inl o) answer).reports = μ.reports := by
        unfold Conn.next
        split
        · rfl
        · rename_i hother _
          cases hother
        · rfl
      refine hinv.advance hview hgrows List.mem_cons_self hmore ?_ ?_ ?_
      · intro scope hholds
        rcases holds_exec hfw hholds with hbefore | hbrings
        · exact (hinv.held scope hbefore).mono hmore
        · exact (hinv.brings hview hallows.2 hbrings).mono hmore
      · rw [hreports]
        exact List.Subset.trans hknown hmore
      · intro exposed hexposed scope hopened
        exact (hinv.read_firewall hview hfw exposed hexposed scope hopened).mono hmore
  | inr o =>
      have hexposures : (μ.next (.inr o) answer).exposures = μ.exposures := by
        unfold Conn.next
        split
        · rename_i hother _
          cases hother
        · rfl
        · rfl
      refine hinv.advance hview hgrows List.mem_cons_self hmore ?_ ?_ ?_
      · intro scope hholds
        rw [serve_fw hexec] at hholds
        exact (hinv.held scope hholds).mono hmore
      · cases o with
        | report =>
            cases deciding <;> cases hexec <;>
              exact List.cons_subset_cons _ hknown
        | _ => exact List.Subset.trans hknown hmore
      · rw [hexposures]
        exact fun exposed hexposed scope hopened =>
          (hinv.read task call μ hview exposed hexposed scope hopened).mono hmore

def serverDiscipline (setup : Setup) (start : Firewall) :
    (server setup).Discipline (statuses setup) Machine.free Conn where
  mon := Conn.mon
  opening := fun _ _ call => ⟨call.access, [], []⟩
  post := fun call => Conn.growing Conn.done ⟨call.access, [], []⟩
  inv := ServerInv setup start
  conforms := fun _ _ call => Conn.growing_program call
  called := fun {_ _ _ _ call} hinv _ _ =>
    (hinv.more (List.subset_cons_self _ _) List.mem_cons_self rfl).called call
  did := fun hinv hview hallows hexec _ => ⟨trivial, hinv.did hview hallows hexec⟩
  ended := fun hinv _ _ _ =>
    (hinv.more (List.subset_cons_self _ _) List.mem_cons_self rfl).leave
  dropped := fun hinv _ _ =>
    (hinv.more (List.subset_cons_self _ _) List.mem_cons_self rfl).leave
  moved := by
    intro h d views world d' hinv hmove _
    cases hmove
    exact hinv.more (List.subset_cons_self _ _) List.mem_cons_self rfl

theorem server_begins (d : Daemon setup) :
    ServerInv setup d.fw [d.report] d fun _ => none where
  current := List.mem_singleton_self d.report
  held := fun _ hholds => .inl hholds
  access := fun _ _ _ hview => by cases hview
  known := fun _ _ _ hview => by cases hview
  read := fun _ _ _ hview => by cases hview

/-- Whatever the connections ask for, and however they interleave: a scope that the firewall holds
was there at the start, or names no network, or names one that a status of the daemon has had. -/
theorem scopes_admissible {start : Daemon setup} {c : (server setup).Config}
    (hreach : Machine.Reach (statuses setup) Machine.free ((server setup).idle start)
      [start.report] c h) (hholds : Holds c.shared.fw scope) :
    Holds start.fw scope ∨ Admissible h scope := by
  obtain ⟨views, -, hinv⟩ :=
    (serverDiscipline setup start.fw).run (server_begins start) hreach
  exact hinv.held scope hholds

/-- `ctl expose`, of a port to a network by its name. -/
def exposeLine : String :=
  "\x7b\"Expose\":\x7b\"Add\":\x7b\"proto\":\"Tcp\",\"port\":8080,\"net\":\"lan\"," ++
    "\"name\":\"web\"\x7d\x7d\x7d"

def logoutLine : String := "\"Logout\""

/-- A daemon with a firewall. -/
def Setup.small : Setup where
  parse := fun line =>
    if line = exposeLine then
      some (.expose (.add .tcp 8080 (.unresolved none "lan") (some "web") .port))
    else if line = logoutLine then some .logout
    else none
  firewall := true
  Rest := Unit
  Outside := Unit
  handler := fun _ _ kept =>
    (.logout "logging out — tearing down the mesh and un-enrolling", kept)
  describe := fun _ => "the firewall did not take it"

def Daemon.small : Daemon Setup.small where
  rest := ()

def lanMember : StatusReport where
  networks := [⟨5, 7, "lan", "guild", true⟩]

def exposedByName : List (server Setup.small).Label :=
  [.move (lanMember, ()), .call (.connection .full), .step 0 (.line (some exposeLine)),
    .step 0 .go] ++
    List.replicate 9 (.step 0 (.fails {})) ++ [.step 0 (.written true)]

theorem scopes_admissible_lan :
    ∃ c h, Machine.Reach (statuses Setup.small) Machine.free
        ((server Setup.small).idle Daemon.small) [Daemon.small.report] c h ∧
      Holds c.shared.fw (.net 5 7) ∧
      (Holds Daemon.small.fw (.net 5 7) ∨ Admissible h (.net 5 7)) := by
  have hplay : (Machine.play (statuses Setup.small) (fun _ _ _ => true)
      ((server Setup.small).idle Daemon.small) [Daemon.small.report] exposedByName).any
        (fun last => last.1.shared.fw.exposed.any fun e => e.scope == .net 5 7) = true := by
    decide +kernel
  have hrun : ∃ c h, Machine.Reach (statuses Setup.small) Machine.free
      ((server Setup.small).idle Daemon.small) [Daemon.small.report] c h ∧
        (c.shared.fw.exposed.any fun e => e.scope == .net 5 7) = true :=
    Machine.reach_of_play (fun _ _ _ _ => trivial) hplay
  obtain ⟨c, h, hreach, hany⟩ := hrun
  obtain ⟨e, he, hscope⟩ := List.any_eq_true.mp hany
  have hholds : Holds c.shared.fw (.net 5 7) := .stored ⟨e, he, beq_iff_eq.mp hscope⟩
  exact ⟨c, h, hreach, hholds, scopes_admissible hreach hholds⟩

/-- Whatever else runs: a step of a connection on a read-only endpoint leaves the daemon as it is,
and what it sends is a status that the daemon has had, or the refusal. -/
theorem readOnly_inert {start : Daemon setup} {c c' : (server setup).Config}
    (hreach : Machine.Reach (statuses setup) Machine.free ((server setup).idle start)
      [start.report] c h) {running : (server setup).Task} {o : DaemonSig.Op}
    {answer : DaemonSig.Res o} (hrunning : c.tasks task = some running)
    (hcall : running.call = .connection .readOnly)
    (hstep : Machine.Step c (.did task o answer) c') :
    c'.shared = c.shared ∧
      ∀ resp, o = .inr (.respond resp) →
        (∃ report ∈ h, resp = .status report) ∨ resp = .error READ_ONLY := by
  obtain ⟨views, htracks, hinv⟩ :=
    (serverDiscipline setup start.fw).run (server_begins start) hreach
  obtain ⟨μ, hview, hconforms, -⟩ := htracks.running hrunning
  have honly : μ.access = some .readOnly := by
    rw [hinv.access task _ μ hview, hcall]
    rfl
  cases hstep with
  | perform running' executed =>
      cases hrunning.symm.trans running'
      have hallows : μ.Allows o := hconforms.1
      cases o with
      | inl o => exact absurd honly hallows.1
      | inr o =>
          have hquiet : ∀ req, o ≠ .handle req := by
            rintro req rfl
            exact hallows honly
          refine ⟨serve_quiet executed hquiet, fun resp hresp => ?_⟩
          cases hresp
          rcases hallows honly with ⟨report, hreport, rfl⟩ | hrefused
          · exact .inl ⟨report, hinv.known task _ μ hview hreport, rfl⟩
          · exact .inr hrefused

def refusing (c : (server Setup.small).Config) : Bool :=
  match c.tasks 0 with
  | some ⟨.connection .readOnly, .op (.inr (.respond (.error message))) _, _⟩ =>
      message == READ_ONLY
  | _ => false

/-- A logout on the endpoint of the proxy is refused. -/
theorem readOnly_inert_logout :
    ∃ c c' h, Machine.Reach (statuses Setup.small) Machine.free
        ((server Setup.small).idle Daemon.small) [Daemon.small.report] c h ∧
      Machine.Step c (.did 0 (.inr (.respond (.error READ_ONLY))) true) c' ∧
      c'.shared = c.shared := by
  have hplay : (Machine.play (statuses Setup.small) (fun _ _ _ => true)
      ((server Setup.small).idle Daemon.small) [Daemon.small.report]
      [.call (.connection .readOnly), .step 0 (.line (some logoutLine))]).any
        (fun last => refusing last.1) = true := by
    decide +kernel
  have hrun : ∃ c h, Machine.Reach (statuses Setup.small) Machine.free
      ((server Setup.small).idle Daemon.small) [Daemon.small.report] c h ∧ refusing c = true :=
    Machine.reach_of_play (fun _ _ _ _ => trivial) hplay
  obtain ⟨c, h, hreach, hrefusing⟩ := hrun
  unfold refusing at hrefusing
  split at hrefusing
  · rename_i message next resting hrunning
    cases beq_iff_eq.mp hrefusing
    have hwritten : (server Setup.small).exec 0 (.inr (.respond (.error READ_ONLY))) (.written true)
        c.shared = some (true, c.shared) := rfl
    have hstep := Machine.Step.perform hrunning hwritten
    exact ⟨c, _, h, hreach, hstep, (readOnly_inert hreach hrunning rfl hstep).1⟩
  · cases hrefusing

end

end UnityLan.Engine.Control
