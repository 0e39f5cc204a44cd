import UnityLan.Common.Api
import UnityLan.Foundation.Table

namespace UnityLan.Coordinator

open UnityLan.Foundation

/-! The peer-keyed tables clients publish about each other.  Each operation is one
critical section; the two writes that touch a pair answer whom to wake. -/

structure RelayReg where
  addr : SocketAddr
  secret : String
  deriving DecidableEq

structure NatTables where
  sourceIp : Table PubKey IpAddr := ∅
  reflexive : Table PubKey SocketAddr := ∅
  relays : Table PubKey RelayReg := ∅
  /-- `(owner, peer)`: the relayed address `owner` allocated to reach `peer`. -/
  relayAllocs : Table (PubKey × PubKey) SocketAddr := ∅
  /-- `(owner, peer)`: the session parameters of `owner` for reaching `peer`. -/
  ice : Table (PubKey × PubKey) IceParams := ∅

namespace NatTables

def acceptedReflexives (tables : NatTables) (observed : List ObservedEndpoint)
    (comembers : List PubKey) : List ObservedEndpoint :=
  observed.filter fun o =>
    comembers.contains o.pubkey && tables.sourceIp.get? o.pubkey == some o.endpoint.ip

/-- Write the entries that are new or changed; the answer lists their targets. -/
def publish [DecidableEq κ] [DecidableEq ν] (target : κ → PubKey) :
    List (κ × ν) → Table κ ν → List PubKey × Table κ ν
  | [], table => ([], table)
  | (key, value) :: rest, table =>
      if table.get? key = some value then publish target rest table
      else
        let (targets, table') := publish target rest (table.insert key value)
        (target key :: targets, table')

def recordReflexives (tables : NatTables) (observed : List ObservedEndpoint)
    (comembers : List PubKey) : List PubKey × NatTables :=
  let accepted := (tables.acceptedReflexives observed comembers).map fun o =>
    (o.pubkey, o.endpoint)
  let (targets, reflexive) := publish id accepted tables.reflexive
  (targets, { tables with reflexive := reflexive })

def recordRelay (tables : NatTables) (pubkey : PubKey) (capable : Bool)
    (addr : Option SocketAddr) (secret : Option String) : NatTables :=
  match capable, addr, secret with
  | true, some addr, some secret =>
      { tables with relays := tables.relays.insert pubkey ⟨addr, secret⟩ }
  | _, _, _ => { tables with relays := tables.relays.erase pubkey }

def recordAllocs (tables : NatTables) (owner : PubKey) (allocated : List RelayAllocation)
    (comembers : List PubKey) : List PubKey × NatTables :=
  let accepted := (allocated.filter fun a => comembers.contains a.peer).map fun a =>
    ((owner, a.peer), a.relayed)
  let (targets, relayAllocs) := publish Prod.snd accepted tables.relayAllocs
  (targets, { tables with relayAllocs := relayAllocs })

def recordIce (tables : NatTables) (owner : PubKey) (offers : List IceEndpoint)
    (comembers : List PubKey) : List PubKey × NatTables :=
  let accepted := (offers.filter fun e => comembers.contains e.peer).map fun e =>
    ((owner, e.peer), e.params)
  let (targets, ice) := publish Prod.snd accepted tables.ice
  (targets, { tables with ice := ice })

inductive Op
  | putSourceIp (pubkey : PubKey) (ip : IpAddr)
  | recordReflexives (observed : List ObservedEndpoint) (comembers : List PubKey)
  | recordRelay (pubkey : PubKey) (capable : Bool) (addr : Option SocketAddr)
      (secret : Option String)
  | recordAllocs (owner : PubKey) (allocated : List RelayAllocation)
      (comembers : List PubKey)
  | recordIce (owner : PubKey) (offers : List IceEndpoint) (comembers : List PubKey)
  | relays
  | relayAllocs
  | ice
  | reflexive
  | pruneSourceIp (present : List PubKey)
  | pruneReflexive (present : List PubKey)
  | pruneRelays (present : List PubKey)
  | pruneRelayAllocs (present : List PubKey)
  | pruneIce (present : List PubKey)
  deriving DecidableEq

@[reducible] def Op.Res : Op → Type
  | .putSourceIp .. => Unit
  | .recordReflexives .. => List PubKey
  | .recordRelay .. => Unit
  | .recordAllocs .. => List PubKey
  | .recordIce .. => List PubKey
  | .relays => Table PubKey RelayReg
  | .relayAllocs => Table (PubKey × PubKey) SocketAddr
  | .ice => Table (PubKey × PubKey) IceParams
  | .reflexive => Table PubKey SocketAddr
  | .pruneSourceIp _ => Unit
  | .pruneReflexive _ => Unit
  | .pruneRelays _ => Unit
  | .pruneRelayAllocs _ => Unit
  | .pruneIce _ => Unit

def bothPresent (present : List PubKey) (pair : PubKey × PubKey) : Bool :=
  present.contains pair.1 && present.contains pair.2

def step (tables : NatTables) : (o : Op) → o.Res × NatTables
  | .putSourceIp pubkey ip =>
      ((), { tables with sourceIp := tables.sourceIp.insert pubkey ip })
  | .recordReflexives observed comembers => tables.recordReflexives observed comembers
  | .recordRelay pubkey capable addr secret =>
      ((), tables.recordRelay pubkey capable addr secret)
  | .recordAllocs owner allocated comembers => tables.recordAllocs owner allocated comembers
  | .recordIce owner offers comembers => tables.recordIce owner offers comembers
  | .relays => (tables.relays, tables)
  | .relayAllocs => (tables.relayAllocs, tables)
  | .ice => (tables.ice, tables)
  | .reflexive => (tables.reflexive, tables)
  | .pruneSourceIp present =>
      ((), { tables with sourceIp := tables.sourceIp.retain fun pk _ => present.contains pk })
  | .pruneReflexive present =>
      ((), { tables with reflexive := tables.reflexive.retain fun pk _ => present.contains pk })
  | .pruneRelays present =>
      ((), { tables with relays := tables.relays.retain fun pk _ => present.contains pk })
  | .pruneRelayAllocs present =>
      ((),
        { tables with
          relayAllocs := tables.relayAllocs.retain fun pair _ => bothPresent present pair })
  | .pruneIce present =>
      ((), { tables with ice := tables.ice.retain fun pair _ => bothPresent present pair })

end NatTables

end UnityLan.Coordinator
