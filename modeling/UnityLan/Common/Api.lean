import UnityLan.Common.Attestation

namespace UnityLan

/-! What the coordinator and the engine say to each other. -/

structure NetworkRef where
  guildId : GuildId
  roleId : RoleId
  deriving DecidableEq

structure ObservedEndpoint where
  pubkey : PubKey
  endpoint : SocketAddr
  deriving DecidableEq

structure RelayAllocation where
  peer : PubKey
  relayed : SocketAddr
  deriving DecidableEq

structure IceParams where
  ufrag : String
  pwd : String
  candidates : List String
  deriving DecidableEq

structure IceEndpoint where
  peer : PubKey
  params : IceParams
  deriving DecidableEq

structure HeldPeer where
  pubkey : PubKey
  rev : Nat
  deriving DecidableEq

/-- The key confirmation of an enrolling device; only the holder of the private
key behind `device` can make it, for one deployment's enrollment key. -/
structure EnrollProof where
  device : PubKey
  deployment : Key
  deriving DecidableEq

structure RegisterReq where
  wgPubkey : PubKey
  deviceName : String := ""
  enrollmentKey : Option String := none
  deviceToken : Option String := none
  possessionProof : Option EnrollProof := none
  endpoint : Option SocketAddr := none
  since : Option Nat := none
  disabledNetworks : List NetworkRef := []
  observed : List ObservedEndpoint := []
  supersede : Option String := none
  paused : Bool := false
  relayCapable : Bool := false
  relayAddr : Option SocketAddr := none
  relaySecret : Option String := none
  needRelay : List PubKey := []
  relayAllocated : List RelayAllocation := []
  ice : List IceEndpoint := []
  peerOwnDevices : Bool := true
  proto : Nat := 0
  protoMin : Nat := 0
  clientVersion : String := ""
  held : List HeldPeer := []

structure RotationCert where
  prevAnchor : Anchor
  newAnchor : Anchor
  issuedAt : Nat
  deriving DecidableEq

structure GuildAnchor where
  guildId : GuildId
  pubkey : Anchor
  rotationChain : List (Signed RotationCert)
  deriving DecidableEq

structure GuildAttestation where
  attestation : AttestationBlob
  communityName : String
  attSchema : Nat
  deriving DecidableEq

structure SharedNetwork where
  name : String
  community : String
  guildId : GuildId
  roleId : RoleId
  deriving DecidableEq

structure RelayInfo where
  turnAddr : SocketAddr
  username : String
  credential : String
  realm : String
  peerRelayed : Option SocketAddr
  deriving DecidableEq

structure Grant where
  attestations : List GuildAttestation
  networks : List String
  deriving DecidableEq

structure Seed where
  attestations : List GuildAttestation
  endpoint : Option SocketAddr
  punch : Option SocketAddr
  networks : List SharedNetwork
  relay : Option RelayInfo
  ice : Option IceParams
  rev : Nat
  deriving DecidableEq

structure NetworkStatus where
  guildId : GuildId
  roleId : RoleId
  name : String
  guildName : String
  enabled : Bool
  deriving DecidableEq

structure ReleaseManifest where
  version : String
  deriving DecidableEq

structure RegisterResp where
  anchors : List GuildAnchor := []
  grant : Option Grant := none
  deviceToken : Option String := none
  seeds : List Seed := []
  version : Nat := 0
  networks : List NetworkStatus := []
  dnsDomain : Option String := none
  stunPort : Option (BitVec 16) := none
  proto : Nat := 0
  protoMin : Nat := 0
  protoMax : Nat := 0
  release : Option (Signed ReleaseManifest) := none
  releaseSigned : Option String := none
  /-- The wire's `partial`: `seeds` is a delta to merge into the held set. -/
  isPartial : Bool := false
  removed : List PubKey := []

inductive ManageOp
  | list
  | rename (newName : String)
  | setPrimary (deviceName : String)
  | remove (deviceName : String)
  deriving DecidableEq

structure ManageReq where
  token : String
  op : ManageOp

structure DeviceInfo where
  deviceName : String
  isPrimary : Bool
  isSelf : Bool
  deriving DecidableEq

structure ManageResp where
  message : String
  devices : List DeviceInfo

structure RefusedService where
  name : String
  reason : String
  deriving DecidableEq

def MAX_WEB_SERVICES_PER_DEVICE : Nat := 8

def MAX_SERVICE_LABEL_LEN : Nat := 24

def validLabel (label : String) : Bool :=
  let chars := label.toList
  !chars.isEmpty && decide (label.utf8ByteSize ≤ MAX_SERVICE_LABEL_LEN) &&
    (chars.all fun char => char.isLower || char.isDigit || char == '-') &&
    chars.head? != some '-' && chars.getLast? != some '-' && !chars.all Char.isDigit

def MAX_DEVICE_CHALLENGES : Nat := 2

def MAX_CHALLENGE_VALUE_LEN : Nat := 64

def validChallengeValue (value : String) : Bool :=
  !value.isEmpty && decide (value.utf8ByteSize ≤ MAX_CHALLENGE_VALUE_LEN) &&
    value.toList.all fun c => c.isAlphanum || c == '-' || c == '_'

/-- Values and never names; those of services are keyed by their label, in its order. -/
structure AcmeChallengeReq where
  token : String
  device : List String
  primary : Option String := none
  services : List (String × String) := []

structure AcmeChallengeResp where
  names : List String
  deriving DecidableEq

structure ServiceRegisterReq where
  token : String
  names : List String

structure ServiceRegisterResp where
  registered : List String
  refused : List RefusedService
  deriving DecidableEq

structure OauthCompleteReq where
  wgPubkey : PubKey
  accessToken : String

end UnityLan
