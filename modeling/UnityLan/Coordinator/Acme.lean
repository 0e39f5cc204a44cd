import UnityLan.Coordinator.Machine
import UnityLan.Coordinator.Zone
import UnityLan.Foundation.Annex

namespace UnityLan.Coordinator

open UnityLan.Foundation Prog

/-! `/acme-challenge` and `/services`: the names a device is certified under are derived from its
own rows.  They are built onto the coordinator, with the challenge records beside its state. -/

inductive ZoneOp
  /-- The labels registered to a device, in order. -/
  | deviceServices (pubkey : PubKey)
  | publish (device : PubKey) (records : ChallengeRecords)

@[reducible] def ZoneOp.Res : ZoneOp → Type
  | .deviceServices _ => Except StoreError (List String)
  | .publish .. => Except PublishError Unit

@[reducible] def zoneSig : Sig where
  Op := ZoneOp
  Res := ZoneOp.Res

abbrev ZoneHandler (α : Type) := Prog (sig.sum zoneSig) ApiError α

variable (conf : Conf)

def challengeName (name domain : String) : String :=
  String.ofList ((s!"_acme-challenge.{name}.{domain}").toList.map toAsciiLowercase)

def servicesOf (db : Database) (pubkey : PubKey) : List String :=
  ((db.deviceServices.rows.filter fun row => row.2 == pubkey).map
    fun row => row.1.2).insertionSort (· ≤ ·)

def ask (q : Query) : ZoneHandler q.Res :=
  ((sql q).mapError internal).left

def orderError (req : AcmeChallengeReq) : Option String :=
  if req.device.isEmpty || req.device.length > MAX_DEVICE_CHALLENGES then
    some "a certificate order raises one or two challenges for a device's own name"
  else if req.services.length > MAX_WEB_SERVICES_PER_DEVICE then
    some "more service challenges than a device may hold service names"
  else if !(req.device ++ req.primary.toList ++ req.services.map Prod.snd).all
      validChallengeValue then
    some s!"a dns-01 challenge value is unpadded base64url, at most {MAX_CHALLENGE_VALUE_LEN} characters"
  else none

def noIdentity : ApiError :=
  ⟨.conflict, "this device has no mesh identity yet; register before requesting a certificate"⟩

def deviceServices (pubkey : PubKey) : ZoneHandler (List String) :=
  Prog.performOr (S := sig.sum zoneSig) (.inr (.deviceServices pubkey)) fun
    | .ok labels => .ok labels
    | .error error => .error (internal error)

def publish (device : PubKey) (records : ChallengeRecords) : ZoneHandler Unit :=
  Prog.performOr (S := sig.sum zoneSig) (.inr (.publish device records)) fun
    | .ok _ => .ok ()
    | .error why => .error ⟨.tooManyRequests, why.text⟩

def aliasRecords (domain : String) (user : UserId) (pubkey : PubKey) (username : String) :
    Option String → ZoneHandler ChallengeRecords
  | none => return []
  | some value => do
      let primary ← ask (.primaryPubkey user)
      return if primary == some pubkey then [(challengeName username domain, value)] else []

def orderRecords (domain : String) (user : UserId) (pubkey : PubKey)
    (username deviceName : String) (req : AcmeChallengeReq) : ZoneHandler ChallengeRecords := do
  let own := req.device.map fun value => (challengeName s!"{deviceName}.{username}" domain, value)
  let held ← deviceServices pubkey
  let services := (req.services.filter fun service => held.contains service.1).map fun service =>
    (challengeName s!"{service.1}.{username}" domain, service.2)
  let bare ← aliasRecords domain user pubkey username req.primary
  return own ++ services ++ bare

def acmeChallenge (req : AcmeChallengeReq) : ZoneHandler AcmeChallengeResp :=
  match conf.dnsDomain with
  | none =>
      throw ⟨.notImplemented, "this deployment issues no certificates ([dns] is not configured)"⟩
  | some domain => do
      match ← ask (.deviceByToken req.token) with
      | none => throw ⟨.unauthorized, "invalid device token"⟩
      | some (user, pubkey) =>
          match ← ask (.userLabel user) with
          | none => throw noIdentity
          | some username =>
              match (← ask (.device pubkey)).map DeviceRow.deviceName with
              | none => throw noIdentity
              | some deviceName =>
                  match orderError req with
                  | some message => throw ⟨.badRequest, message⟩
                  | none => do
                      let records ← orderRecords domain user pubkey username deviceName req
                      publish pubkey records
                      return ⟨(records.map Prod.fst).eraseDups⟩

def registerServices (req : ServiceRegisterReq) : ZoneHandler ServiceRegisterResp :=
  match conf.dnsDomain with
  | none =>
      throw ⟨.notImplemented, "this deployment issues no certificates ([dns] is not configured)"⟩
  | some _ =>
      if req.names.length > MAX_WEB_SERVICES_PER_DEVICE then
        throw ⟨.badRequest,
          s!"a device may certify at most {MAX_WEB_SERVICES_PER_DEVICE} service names"⟩
      else do
        match ← ask (.deviceByToken req.token) with
        | none => throw ⟨.unauthorized, "invalid device token"⟩
        | some (user, pubkey) =>
            let sorted ← ask (.replaceServices user pubkey req.names)
            return ⟨sorted.1, sorted.2⟩

inductive ZoneCall
  | acmeChallenge (req : AcmeChallengeReq)
  | registerServices (req : ServiceRegisterReq)

inductive ZoneReply
  | published (resp : AcmeChallengeResp)
  | registered (resp : ServiceRegisterResp)

def handleZone : ZoneCall → ZoneHandler ZoneReply
  | .acmeChallenge req => return .published (← acmeChallenge conf req)
  | .registerServices req => return .registered (← registerServices conf req)

def zone : (machine conf).Annex zoneSig where
  State := ChallengeStore
  Call := ZoneCall
  Reply := ZoneReply
  start := handleZone conf
  exec
    | .deviceServices pubkey, choice, st, store =>
        match Choice.why choice with
        | some why => some (.error (.database why), store)
        | none => some (.ok (servicesOf (AppState.db st) pubkey), store)
    | .publish device records, _, st, store =>
        some (store.publishAt device records (AppState.instant st))
  suspends
    | .deviceServices _ => true
    | .publish .. => false

/-- The coordinator with its certificate zone. -/
def site : Machine (sig.sum zoneSig) :=
  (machine conf).withAnnex (zone conf)

end UnityLan.Coordinator
