import UnityLan.Coordinator.State

namespace UnityLan.Coordinator

open UnityLan.Foundation

/-! NAT-traversal brokering: the state clients publish about each other, and the
punch and relay targets handed back. -/

def MAX_PEER_REPORTS : Nat := 256

def MAX_ICE_REPORTS : Nat := 128

def MAX_ICE_CANDIDATES : Nat := 16

def MAX_ICE_CREDENTIAL_BYTES : Nat := 256

def MAX_ICE_CANDIDATE_BYTES : Nat := 512

def MAX_RELAY_SECRET_BYTES : Nat := 256

def oversizedIce (params : IceParams) : Bool :=
  params.ufrag.utf8ByteSize > MAX_ICE_CREDENTIAL_BYTES ||
    params.pwd.utf8ByteSize > MAX_ICE_CREDENTIAL_BYTES ||
    params.candidates.length > MAX_ICE_CANDIDATES ||
    params.candidates.any fun c => c.utf8ByteSize > MAX_ICE_CANDIDATE_BYTES

def peerReportsError (req : RegisterReq) : Option String :=
  if req.observed.length > MAX_PEER_REPORTS ∨ req.needRelay.length > MAX_PEER_REPORTS ∨
      req.relayAllocated.length > MAX_PEER_REPORTS then
    some "too many peer reports"
  else if req.ice.length > MAX_ICE_REPORTS then some "too many ICE reports"
  else if req.relaySecret.any fun secret => secret.utf8ByteSize > MAX_RELAY_SECRET_BYTES then
    some "relay secret is too long"
  else if req.ice.any fun e => oversizedIce e.params then
    some "ICE parameters exceed the allowed limits"
  else none

def validatePeerReports (req : RegisterReq) : Handler Unit :=
  match peerReportsError req with
  | some message => throw ⟨.badRequest, message⟩
  | none => return

/-- Record the reports this device sent about its co-members, and its own relay.
The answer lists the peers to wake. -/
def recordPeerReports (req : RegisterReq) (comembers : List PubKey) :
    Handler (List PubKey) := do
  let reflexive ← act (.nat (.recordReflexives req.observed comembers))
  act (.nat (.recordRelay req.wgPubkey req.relayCapable req.relayAddr req.relaySecret))
  let allocs ← act (.nat (.recordAllocs req.wgPubkey req.relayAllocated comembers))
  let ice ← act (.nat (.recordIce req.wgPubkey req.ice comembers))
  return (reflexive ++ allocs ++ ice).dedup

def punchTarget (callerDialable : Bool) (peerEndpoint peerReflexive : Option SocketAddr) :
    Option SocketAddr :=
  if !callerDialable && peerEndpoint.isNone then peerReflexive else none

structure RelayCandidate where
  pubkey : PubKey
  networks : List SharedNetwork
  reg : RelayReg
  deriving DecidableEq

def issueRelayCreds (conf : Conf) (reg : RelayReg) (now : Nat) : RelayInfo :=
  let username := toString (now + RELAY_CRED_TTL_SECS)
  { turnAddr := reg.addr
    username := username
    credential := conf.relayCredential reg.secret username
    realm := "unitylan"
    peerRelayed := none }

def lowest : List RelayCandidate → Option RelayCandidate
  | [] => none
  | head :: tail =>
      match lowest tail with
      | none => some head
      | some other => if other.pubkey < head.pubkey then some other else some head

def relayTarget (conf : Conf) (peer : PubKey) (peerNetworks : List SharedNetwork)
    (candidates : List RelayCandidate) (now : Nat) : Option RelayInfo :=
  (lowest (candidates.filter fun candidate =>
    candidate.pubkey != peer && candidate.networks.any peerNetworks.contains)).map
    fun candidate => issueRelayCreds conf candidate.reg now

def pruneNatTables (present : List PubKey) : Handler Unit := do
  act (.nat (.pruneSourceIp present))
  act (.nat (.pruneReflexive present))
  act (.nat (.pruneRelays present))
  act (.nat (.pruneRelayAllocs present))
  act (.nat (.pruneIce present))
  act (.wakers (.retain present))

end UnityLan.Coordinator
