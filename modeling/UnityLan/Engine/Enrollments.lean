import UnityLan.Engine.Dns
import UnityLan.Engine.Fw.Announced
import UnityLan.Engine.Lifecycle
import UnityLan.Foundation.Runs

namespace UnityLan.Engine

open UnityLan.Foundation Prog Cert Fw

/-! What an enrollment leaves behind.  The mesh loop writes the zone, the status, the peer sets of
the firewall and the book of services; the certificate reconciles it starts run on by themselves
and write the certificate files and their part of the status. -/

/-- Something that is kept, with the first enrollment it may tell of. -/
structure Left (α : Type) where
  since : Nat
  value : α
  deriving DecidableEq

def Since {α : Type} (era : Nat) (kept : Option (Left α)) : Prop :=
  ∀ left ∈ kept, era ≤ left.since

/-- A file; one that was cut off does not decode. -/
abbrev StateFile (α : Type) := Option (Left (Option α))

namespace StateFile

variable {α : Type}

def written (file : StateFile α) (since : Nat) (value : α) : Option WriteFault → StateFile α
  | none => some ⟨since, some value⟩
  | some .unopened => file
  | some .cut => some ⟨since, none⟩

def reading (file : StateFile α) (since : Nat) : Nat :=
  file.elim since fun left => min since left.since

def replaced (file : StateFile α) (since : Nat) (value : α) (fault : Option WriteFault) :
    StateFile α :=
  if fault.isSome then file else some ⟨since, some value⟩

end StateFile

/-- The directory `certs`. -/
structure Certs where
  cert : StateFile String := none
  key : StateFile String := none
  account : StateFile String := none
  issued : StateFile IssuedState := none
  deriving DecidableEq

structure Shown where
  hostname : String
  identity : String
  peers : List (String × Ipv4Addr)
  deriving DecidableEq

abbrev Heard := Left (List MeshService)

structure Status where
  shown : Option (Left Shown) := none
  routes : Option (Left (List String)) := none
  services : List (Ipv4Addr × List Heard) := []
  cert : Option (Left CertStatus) := none
  deriving DecidableEq

/-- A reconcile under way. -/
structure CertTask where
  enrollment : Nat
  /-- The first enrollment of which it has anything in hand. -/
  since : Nat
  ordering : Bool := false
  rest : CertM Empty Unit

structure Host where
  daemon : Daemon
  /-- How many logouts completed. -/
  era : Nat := 0
  /-- The first pass of the enrollment is made. -/
  looping : Bool := false
  /-- The teardown removed the certificate files. -/
  wiped : Bool := false
  /-- `wg.key`. -/
  key : Option (Left PubKey) := none
  certs : Certs := {}
  zone : Option (Left ZoneData) := none
  peers : Option (Left PeerSets) := none
  book : List (PubKey × Heard) := []
  status : Status := {}
  /-- The single-flight flag of the enrollment. -/
  running : Bool := false
  tasks : List CertTask := []

structure Snapshot where
  device : SelfDevice
  seeds : List SeedPeer
  /-- The names that the services won. -/
  resolved : List (String × Ipv4Addr) := []
  sets : PeerSets := {}
  routes : List String := []
  certsEnabled : Bool := true
  exposed : Bool := false
  web : List String := []
  stateDir : String := "/var/lib/unitylan"
  cfg : CertConfig := {}

structure Outcome where
  failure : Option String := none
  fault : Option WriteFault := none
  now : Nat := 0
  registered : List String := []
  credentials : String := ""
  pending : Bool := true
  leaf : Leaf := ⟨"", "", none⟩

namespace Outcome

def network {α : Type} (outcome : Outcome) (value : α) : Except String α :=
  outcome.failure.elim (.ok value) .error

def disk (outcome : Outcome) : Except String Unit :=
  if outcome.fault.isSome then .error (outcome.failure.getD "write failed") else .ok ()

end Outcome

namespace Host

variable (host : Host)

def start (wgKey : Option PubKey) (tokenFile : Option String) (certs : Certs) : Host where
  daemon := Daemon.start wgKey tokenFile
  key := wgKey.map (Left.mk 0)
  certs := certs

def heardSince : Nat :=
  host.book.foldl (fun since entry => min since entry.2.since) host.era

def heardAt (seeds : List SeedPeer) (ip : Ipv4Addr) : List Heard :=
  (seeds.filter fun seed => seed.ip == ip).flatMap fun seed =>
    (host.book.filter fun entry => entry.1 == seed.pubkey && !entry.2.value.isEmpty).map Prod.snd

def serviceRow (seeds : List SeedPeer) (ip : Ipv4Addr) : Ipv4Addr × List Heard :=
  (ip, if (host.heardAt seeds ip).isEmpty then ((host.status.services.lookup ip).getD [])
    else host.heardAt seeds ip)

/-- `ServiceBook::retain_peers`. -/
def retained (seeds : List SeedPeer) : Host :=
  { host with book := host.book.filter fun entry => seeds.any fun seed => seed.pubkey == entry.1 }

/-- `dns::update`, with the services that won a name. -/
def zoned (snapshot : Snapshot) : Host :=
  { host with
    zone := some ⟨host.heardSince,
      ZoneData.rebuilt snapshot.device snapshot.seeds snapshot.resolved⟩ }

/-- `control::update` and `control::set_services`; the certificate keeps all but its domain. -/
def reported (snapshot : Snapshot) : Host :=
  { host with
    status :=
      { shown := some ⟨host.era, snapshot.device.hostname, snapshot.device.username,
          snapshot.seeds.map fun seed => (seed.primaryAlias.getD seed.hostname, seed.ip)⟩
        routes := some ⟨host.era, snapshot.routes⟩
        services := snapshot.seeds.map fun seed => host.serviceRow snapshot.seeds seed.ip
        cert := some ⟨host.status.cert.elim host.era fun left => min host.era left.since,
          { (host.status.cert.elim {} Left.value : CertStatus) with
            domain := snapshot.device.dnsDomain }⟩ } }

def request (snapshot : Snapshot) : Request where
  stateDir := snapshot.stateDir
  cfg := snapshot.cfg
  hostname := snapshot.device.hostname
  primaryAlias := snapshot.device.primaryAlias
  dnsDomain := snapshot.device.dnsDomain
  enabled := snapshot.certsEnabled
  exposed := snapshot.exposed
  web := snapshot.web

/-- `spawn_cert_reconcile`. -/
def spawning (snapshot : Snapshot) : Host :=
  if snapshot.device.dnsDomain.isNone && !snapshot.certsEnabled then host
  else if host.running then host
  else
    { host with
      running := true
      tasks := host.tasks ++ [⟨host.era, host.era, false, spawned (request snapshot)⟩] }

/-- `apply_state`. -/
def applied (snapshot : Snapshot) : Host :=
  { ((((host.retained snapshot.seeds).zoned snapshot).reported snapshot).spawning snapshot) with
    looping := true
    peers := some ⟨host.era, snapshot.sets⟩ }

def ticked (snapshot : Snapshot) : Host :=
  { host.zoned snapshot with
    status := { host.status with
      services := host.status.services.map fun row => host.serviceRow snapshot.seeds row.1 } }

/-- `ServiceBook::set`. -/
def announced (pubkey : PubKey) (services : List MeshService) : Host :=
  { host with
    book := (pubkey, ⟨host.era, services⟩) ::
      host.book.filter fun entry => entry.1 != pubkey }

def loggedOut (daemon : Daemon) : Host :=
  { host with
    daemon := daemon
    era := host.era + 1
    looping := false
    wiped := false
    key := none
    running := false
    status := {} }

def onLife (daemon : Daemon) : Event → Option Host
  | .keyed _ =>
      some { host with daemon := daemon, key := some (host.key.getD ⟨host.era, daemon.pubkey⟩) }
  | .loggedOut => if host.looping then some { host with daemon := daemon } else none
  | .unenrolled => some { host with daemon := daemon, peers := none }
  | .cleared => if host.wiped then some (host.loggedOut daemon) else none
  -- The process ends, and its tasks with it.
  | .stopped => some { host with daemon := daemon, tasks := [] }
  | _ => some { host with daemon := daemon }

def exec (task : CertTask) (outcome : Outcome) : (o : CertOp) → o.Answer × Host × CertTask
  | .token => (host.daemon.token, host, task)
  | .register _ _ => (outcome.network outcome.registered, host, task)
  | .now => (outcome.now, host, task)
  | .loadState =>
      ((host.certs.issued.bind Left.value).getD {}, host,
        { task with since := host.certs.issued.reading task.since })
  | .saveState state =>
      (outcome.disk, { host with certs := { host.certs with
        issued := host.certs.issued.written task.since state outcome.fault } }, task)
  | .loadAccount =>
      (host.certs.account.map Left.value, host,
        { task with since := host.certs.account.reading task.since })
  | .restoreAccount _ => (outcome.network (), host, task)
  | .createAccount _ => (outcome.network outcome.credentials, host, task)
  | .saveAccount credentials =>
      (outcome.disk, { host with certs := { host.certs with
        account := host.certs.account.replaced task.since credentials outcome.fault } }, task)
  | .newOrder _ =>
      (outcome.network (), host, { task with ordering := outcome.failure.isNone })
  | .authorizations => (outcome.network outcome.pending, host, task)
  | .publishChallenges _ => (outcome.network (), host, task)
  | .awaitReady => (outcome.network (), host, task)
  | .finalize => (outcome.network outcome.leaf, host, task)
  | .writeCert chain =>
      (outcome.disk, { host with certs := { host.certs with
        cert := host.certs.cert.written task.since chain outcome.fault } }, task)
  | .writeKey key =>
      (outcome.disk, { host with certs := { host.certs with
        key := host.certs.key.replaced task.since key outcome.fault } }, task)
  | .dropOrder => ((), host, { task with ordering := false })
  | .setStatus status =>
      ((), { host with status := { host.status with cert := some ⟨task.since, status⟩ } }, task)

/-- One step of a reconcile; `none` where it is at its end. -/
def did (index : Nat) (task : CertTask) (outcome : Outcome) : Option Host :=
  match task.rest with
  | .op o next =>
      let done := host.exec task outcome o
      some { done.2.1 with
        tasks := done.2.1.tasks.set index { done.2.2 with rest := next done.1 } }
  | _ => none

def finished (index : Nat) (task : CertTask) : Option Host :=
  match task.rest with
  | .ret _ =>
      some { host with
        running := host.running && task.enrollment != host.era
        tasks := host.tasks.eraseIdx index }
  | _ => none

end Host

inductive HostEvent
  | life (event : Event)
  | applied (snapshot : Snapshot)
  | ticked (snapshot : Snapshot)
  | announced (pubkey : PubKey) (services : List MeshService)
  /-- The teardown removes the certificate files. -/
  | wiped
  | did (index : Nat) (outcome : Outcome)
  | finished (index : Nat)

namespace Host

variable (host : Host)

def step : HostEvent → Option Host
  | .life event => (host.daemon.step event).bind fun daemon => host.onLife daemon event
  | .applied snapshot => if host.daemon.phase = .meshed then some (host.applied snapshot) else none
  | .ticked snapshot =>
      if host.daemon.phase = .meshed ∧ host.looping = true then some (host.ticked snapshot)
      else none
  | .announced pubkey services =>
      if host.daemon.phase = .meshed ∧ host.looping = true then
        some (host.announced pubkey services)
      else none
  | .wiped =>
      if host.daemon.phase = .tornDown then some { host with certs := {}, wiped := true } else none
  | .did index outcome =>
      (host.tasks[index]?).bind fun task => host.did index task outcome
  | .finished index => (host.tasks[index]?).bind fun task => host.finished index task

def run (events : List HostEvent) : Option Host :=
  runs step host events

end Host

end UnityLan.Engine
