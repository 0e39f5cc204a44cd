import Mathlib.Data.List.TakeDrop
import UnityLan.Coordinator.Acme
import UnityLan.Engine.Cert

namespace UnityLan.Engine.Cert

open UnityLan.Foundation Prog Coordinator

/-! The order of a certificate, from the authorizations that the CA raises to the certificate. -/

inductive AuthorizationStatus
  | pending
  | valid
  | invalid
  | revoked
  | expired
  | deactivated
  deriving DecidableEq

def AuthorizationStatus.text : AuthorizationStatus → String
  | .pending => "Pending"
  | .valid => "Valid"
  | .invalid => "Invalid"
  | .revoked => "Revoked"
  | .expired => "Expired"
  | .deactivated => "Deactivated"

/-- One name of the order, and what has to be published for it. -/
structure Authorization where
  identifier : String
  status : AuthorizationStatus
  value : String
  deriving DecidableEq

inductive Kind
  | device
  | primary
  | service (label : String)
  deriving DecidableEq

namespace CertNames

def serviceLabel (names : CertNames) (name : String) : Option String :=
  (names.services.find? (· == name)).bind fun service => (splitOnceDot service).map Prod.fst

def kindOf (names : CertNames) (identifier : String) : Option Kind :=
  if identifier = names.device ∨ identifier = names.wildcard then some .device
  else if some identifier = names.primary then some .primary
  else (names.serviceLabel identifier).map .service

end CertNames

/-- The values to publish; a service has one, under its label. -/
structure Collected where
  device : List String := []
  primary : Option String := none
  services : Table String String := ∅

def Collected.add (collected : Collected) (value : String) : Kind → Collected
  | .device => { collected with device := collected.device ++ [value] }
  | .primary => { collected with primary := some value }
  | .service label => { collected with services := collected.services.insert label value }

def collectOne (names : CertNames) (collected : Collected) (authz : Authorization) :
    Except String Collected :=
  match authz.status with
  | .valid => .ok collected
  | .pending =>
      match names.kindOf authz.identifier with
      | some kind => .ok (collected.add authz.value kind)
      | none =>
          .error s!"the CA asked us to validate {authz.identifier.quote}, which we did not order"
  | other => .error s!"ACME authorization is {other.text}, cannot proceed"

def collect (names : CertNames) (authorizations : List Authorization) : Except String Collected :=
  authorizations.foldlM (collectOne names) {}

inductive AcmeOp
  | authorizations
  /-- `coord::acme_challenge`. -/
  | postChallenge (collected : Collected)
  | setReady (identifier : String)
  /-- Whether the order is ready. -/
  | pollReady
  | finalize

abbrev AcmeOp.Answer : AcmeOp → Type
  | .authorizations => List Authorization
  | .postChallenge _ => Except String Unit
  | .setReady _ => Unit
  | .pollReady => Bool
  | .finalize => Unit

abbrev AcmeSig : Sig where
  Op := AcmeOp
  Res := AcmeOp.Answer

def acme (o : AcmeOp) : Prog AcmeSig String o.Answer :=
  perform (S := AcmeSig) o

def tell : List Authorization → Prog AcmeSig String Unit
  | [] => return ()
  | authz :: rest => do
      if authz.status = .pending then
        acme (.setReady authz.identifier)
      tell rest

def order (names : CertNames) : Prog AcmeSig String Unit := do
  match collect names (← acme .authorizations) with
  | .error error => throw error
  | .ok collected =>
      if collected.device.isEmpty && collected.services.rows.isEmpty then acme .finalize
      else if collected.device.length > MAX_DEVICE_CHALLENGES then
        throw (s!"the CA raised {collected.device.length} challenges for this device's name; " ++
          s!"expected at most {MAX_DEVICE_CHALLENGES}")
      else do
        (performOr (S := AcmeSig) (.postChallenge collected) id).mapError fun error =>
          "asking the coordinator to publish the challenge: " ++ error
        tell (← acme .authorizations)
        if ← acme .pollReady then acme .finalize
        else throw "the CA left the order Invalid rather than ready"

/-! The CA and the coordinator that an order is run against. -/

def lookupName (identifier : String) : String :=
  "_acme-challenge." ++
    if ['*', '.'].isPrefixOf identifier.toList then String.ofList (identifier.toList.drop 2)
    else identifier

inductive Step
  | posted (req : AcmeChallengeReq) (answer : Option (Except ApiError AcmeChallengeResp))
  /-- The CA is told, and whether the value is published. -/
  | told (authz : Authorization) (published : Bool)
  /-- With what is still pending. -/
  | finalized (pending : List Authorization)

structure Site where
  conf : Conf
  db : Database
  now : Nat
  token : String
  store : ChallengeStore
  authorizations : List Authorization
  /-- What the coordinator published of the order. -/
  records : ChallengeRecords := []
  log : List Step := []

namespace Site

variable (site : Site)

def pending : List Authorization :=
  site.authorizations.filter fun authz => authz.status = .pending

def request (collected : Collected) : AcmeChallengeReq where
  token := site.token
  device := collected.device
  primary := collected.primary
  services := collected.services.rows.insertionSort fun first second => first.1 ≤ second.1

def handlerExec : (o : (sig.sum zoneSig).Op) → Unit → ChallengeStore × ChallengeRecords →
    Option ((sig.sum zoneSig).Res o × (ChallengeStore × ChallengeRecords))
  | .inl (.store q), _, s => some ((site.db.run q).map Prod.fst, s)
  | .inr (.deviceServices pubkey), _, s => some (.ok (servicesOf site.db pubkey), s)
  | .inr (.publish device records), _, s =>
      let done := s.1.publishAt device records site.now
      some (done.1, (done.2, match done.1 with
        | .ok _ => records
        | .error _ => s.2))
  | _, _, _ => none

def handled (req : AcmeChallengeReq) :
    Option (Except ApiError AcmeChallengeResp × (ChallengeStore × ChallengeRecords)) :=
  (acmeChallenge site.conf req).play site.handlerExec (List.replicate 6 ())
    (site.store, site.records)

def post (collected : Collected) : Except String Unit × Site :=
  let req := site.request collected
  match site.handled req with
  | some (answer, store, records) =>
      (match answer with
        | .ok _ => .ok ()
        | .error error => .error error.message,
        { site with
          store := store
          records := records
          log := site.log ++ [.posted req (some answer)] })
  | none => (.error "sending /acme-challenge", { site with log := site.log ++ [.posted req none] })

def validated (identifier : String) (authz : Authorization) : Authorization :=
  if authz.identifier = identifier then
    { authz with
      status :=
        if site.records.contains (lookupName identifier, authz.value) then .valid else .invalid }
  else authz

def toldStep (authz : Authorization) : Step :=
  .told authz (site.records.contains (lookupName authz.identifier, authz.value))

def answers : (o : AcmeOp) → Site → o.Answer × Site
  | .authorizations, site => (site.authorizations, site)
  | .postChallenge collected, site => site.post collected
  | .setReady identifier, site =>
      ((), { site with
        authorizations := site.authorizations.map (site.validated identifier)
        log := site.log ++
          (site.authorizations.filter fun authz => authz.identifier = identifier).map
            site.toldStep })
  | .pollReady, site => (site.authorizations.all fun authz => authz.status = .valid, site)
  | .finalize, site => ((), { site with log := site.log ++ [.finalized site.pending] })

def run (names : CertNames) : Except String Unit × Site :=
  (order names).run (S := AcmeSig) answers site

end Site

structure Identity where
  user : UserId
  pubkey : PubKey
  username : String
  deviceName : String
  domain : String
  primary : Bool
  labels : List String

structure Registered (site : Site) (device : Identity) : Prop where
  domain : site.conf.dnsDomain = some device.domain
  row : ∃ row, site.db.devices.get? device.pubkey = some row ∧ row.deviceName = device.deviceName
  token : site.db.run (.deviceByToken site.token) =
    .ok (some (device.user, device.pubkey), site.db)
  label : site.db.userLabels.get? device.user = some device.username
  primary : device.primary = true → site.db.primaryDevice.get? device.user = some device.pubkey
  services : ∀ label ∈ device.labels, label ∈ servicesOf site.db device.pubkey

def Identity.records (device : Identity) (db : Database) (req : AcmeChallengeReq) :
    ChallengeRecords :=
  (req.device.map fun value =>
      (challengeName s!"{device.deviceName}.{device.username}" device.domain, value)) ++
    ((req.services.filter fun service =>
        (servicesOf db device.pubkey).contains service.1).map fun service =>
      (challengeName s!"{service.1}.{device.username}" device.domain, service.2)) ++
    if db.primaryDevice.get? device.user = some device.pubkey then
      req.primary.toList.map fun value => (challengeName device.username device.domain, value)
    else []

def Site.published (site : Site) (device : Identity) (req : AcmeChallengeReq) :
    Except ApiError AcmeChallengeResp × (ChallengeStore × ChallengeRecords) :=
  match orderError req with
  | some message => (.error ⟨.badRequest, message⟩, (site.store, site.records))
  | none =>
      let records := device.records site.db req
      match site.store.publishAt device.pubkey records site.now with
      | (.ok _, store) => (.ok ⟨(records.map Prod.fst).eraseDups⟩, (store, records))
      | (.error why, store) =>
          (.error ⟨.tooManyRequests, why.text⟩, (store, site.records))

variable {site : Site} {device : Identity}

theorem play_ask {α : Type} {q : Query} {answer : q.Res} {db : Database}
    (hanswer : site.db.run q = .ok (answer, db)) (f : q.Res → ZoneHandler α)
    (choices : List Unit) (s : ChallengeStore × ChallengeRecords) :
    (Coordinator.ask q >>= f).play site.handlerExec (() :: choices) s =
      (f answer).play site.handlerExec choices s := by
  simp only [Coordinator.ask, sql, performOr, mapError, left, op_bind, play, Site.handlerExec,
    hanswer]
  rfl

theorem play_services {α : Type} (f : List String → ZoneHandler α) (choices : List Unit)
    (s : ChallengeStore × ChallengeRecords) :
    (deviceServices device.pubkey >>= f).play site.handlerExec (() :: choices) s =
      (f (servicesOf site.db device.pubkey)).play site.handlerExec choices s := rfl

theorem play_publish {records : ChallengeRecords} {resp : AcmeChallengeResp} (choices : List Unit) :
    (publish device.pubkey records >>= fun _ => (.ret resp : ZoneHandler AcmeChallengeResp)).play
        site.handlerExec (() :: choices) (site.store, site.records) =
      some (match site.store.publishAt device.pubkey records site.now with
        | (.ok _, store) => (.ok resp, (store, records))
        | (.error why, store) => (.error ⟨.tooManyRequests, why.text⟩, (store, site.records))) := by
  simp only [publish, performOr, op_bind, play, Site.handlerExec]
  rcases site.store.publishAt device.pubkey records site.now with ⟨published | why, store⟩
  · rfl
  · rfl

theorem handled_eq {site : Site} {device : Identity} (hregistered : Registered site device)
    (req : AcmeChallengeReq) (htoken : req.token = site.token) :
    site.handled req = some (site.published device req) := by
  obtain ⟨row, hrow, hname⟩ := hregistered.row
  have hlabel : site.db.run (.userLabel device.user) = .ok (some device.username, site.db) := by
    change Except.ok (site.db.userLabels.get? device.user, site.db) = _
    rw [hregistered.label]
  have hdevice : site.db.run (.device device.pubkey) = .ok (some row, site.db) := by
    change Except.ok (site.db.devices.get? device.pubkey, site.db) = _
    rw [hrow]
  have hprimary : site.db.run (.primaryPubkey device.user) =
      .ok (site.db.primaryDevice.get? device.user, site.db) := rfl
  unfold Site.handled acmeChallenge
  rw [hregistered.domain]
  dsimp only [List.replicate]
  rw [htoken, play_ask hregistered.token]
  dsimp only
  rw [play_ask hlabel]
  dsimp only
  rw [play_ask hdevice]
  dsimp only [Option.map_some]
  rw [hname]
  unfold Site.published
  cases orderError req with
  | some message => rfl
  | none =>
      dsimp only
      unfold orderRecords Identity.records
      rw [Prog.bind_assoc, play_services, Prog.bind_assoc]
      cases hbare : req.primary with
      | none =>
          unfold aliasRecords
          dsimp only [pure_eq]
          rw [ret_bind, ret_bind, play_publish]
          simp only [Option.toList_none, List.map_nil, ite_self]
      | some value =>
          unfold aliasRecords
          dsimp only
          rw [Prog.bind_assoc, play_ask hprimary]
          dsimp only [pure_eq]
          rw [ret_bind, ret_bind, play_publish]
          simp only [beq_iff_eq, Option.toList_some, List.map_cons, List.map_nil]

/-! Names under the domain. -/

def under (stem domain : String) : String :=
  asciiLower (stem ++ "." ++ domain)

theorem toAsciiLowercase_eq : toAsciiLowercase = Char.toLower := by
  funext c
  have hupper : ('A' ≤ c ∧ c ≤ 'Z') ↔ 65 ≤ c.toNat ∧ c.toNat ≤ 90 :=
    and_congr UInt32.le_iff_toNat_le UInt32.le_iff_toNat_le
  unfold toAsciiLowercase
  split
  · rename_i h
    calc
      Char.ofNat (c.toNat + 32) = Char.ofNat c.toLower.toNat := by
        rw [toNat_toLower, if_pos (hupper.mp h)]
      _ = c.toLower := Char.ofNat_toNat _
  · rename_i h
    apply Char.toNat_inj.mp
    rw [toNat_toLower, if_neg fun h' => h (hupper.mpr h')]

theorem toLower_ne {c other : Char} (hother : other.toNat < 97) (hne : c ≠ other) :
    c.toLower ≠ other := by
  intro hsame
  have hlower := toNat_toLower c
  rw [hsame] at hlower
  split at hlower
  · omega
  · exact hne (Char.toNat_inj.mp hlower.symm)

theorem lookupName_plain {name : String} (hplain : name.toList.head? ≠ some '*') :
    lookupName name = "_acme-challenge." ++ name := by
  unfold lookupName
  rw [if_neg]
  intro hwild
  obtain ⟨rest, hrest⟩ := List.isPrefixOf_iff_prefix.mp hwild
  rw [← hrest] at hplain
  exact hplain rfl

theorem lookupName_wildcard {name : String} (hplain : name.toList.head? ≠ some '*') :
    lookupName ("*." ++ name) = lookupName name := by
  rw [lookupName_plain hplain]
  unfold lookupName
  have hlist : ("*." ++ name).toList = '*' :: '.' :: name.toList := by simp
  rw [hlist, if_pos (by simp)]
  congr 1
  exact String.toList_inj.mp (by rw [String.toList_ofList]; rfl)

theorem lookupName_under {stem : String} (domain : String) (hne : stem.toList ≠ [])
    (hplain : '*' ∉ stem.toList) :
    (under stem domain).toList.head? ≠ some '*' ∧
      lookupName (under stem domain) = challengeName stem domain := by
  have hhead : (under stem domain).toList.head? ≠ some '*' := by
    obtain ⟨c, rest, hlist⟩ := List.exists_cons_of_ne_nil hne
    unfold under
    rw [toList_asciiLower, String.toList_append, String.toList_append, hlist]
    simp only [List.cons_append, List.map_cons, List.head?_cons, ne_eq, Option.some.injEq]
    apply toLower_ne (by decide)
    rintro rfl
    exact hplain (hlist ▸ List.mem_cons_self)
  refine ⟨hhead, ?_⟩
  rw [lookupName_plain hhead]
  apply String.toList_inj.mp
  unfold challengeName under
  rw [String.toList_ofList, toAsciiLowercase_eq, String.toList_append, toList_asciiLower]
  change _ = ("_acme-challenge." ++ stem ++ "." ++ domain).toList.map Char.toLower
  simp [String.toList_append]

theorem splitOnceDot_eq {label rest : List Char} (hlabel : '.' ∉ label) :
    splitOnceDot (String.ofList (label ++ '.' :: rest)) =
      some (String.ofList label, String.ofList rest) := by
  have hkept : ∀ c ∈ label, (c != '.') = true := by
    intro c hc
    simpa using fun h : c = '.' => hlabel (h ▸ hc)
  unfold splitOnceDot
  rw [String.toList_ofList, List.span_eq_takeWhile_dropWhile,
    List.takeWhile_append_of_pos hkept, List.dropWhile_append_of_pos hkept,
    List.takeWhile_cons_of_neg (by simp), List.dropWhile_cons_of_neg (by simp), List.append_nil]

theorem certificateAlias_eq (stem domain : String) :
    certificateAlias (stem ++ "." ++ DNS_SUFFIX) domain = some (under stem domain) := by
  have htrim : trimEndDots (stem ++ "." ++ DNS_SUFFIX) = stem ++ "." ++ DNS_SUFFIX := by
    have hend : ∃ rest, DNS_SUFFIX.toList.reverse = 'l' :: rest :=
      ⟨"anretni.ytinu".toList, by decide⟩
    obtain ⟨rest, hrest⟩ := hend
    have hreversed : (stem ++ "." ++ DNS_SUFFIX).toList.reverse =
        'l' :: (rest ++ (stem ++ ".").toList.reverse) := by
      rw [String.toList_append, List.reverse_append, hrest, List.cons_append]
    exact trimEndDots_eq hreversed (by decide)
  unfold certificateAlias
  rw [htrim]
  have hsplit : (stem ++ "." ++ DNS_SUFFIX).toList = stem.toList ++ ("." ++ DNS_SUFFIX).toList := by
    simp
  unfold stripSuffix
  rw [hsplit, if_pos (by simp), List.length_append, Nat.add_sub_cancel, List.take_left]
  simp [under]

namespace Identity

def bare (device : Identity) : String :=
  under device.username device.domain

def host (device : Identity) : String :=
  under (device.deviceName ++ "." ++ device.username) device.domain

def service (device : Identity) (label : String) : String :=
  under (label ++ "." ++ device.username) device.domain

def names? (device : Identity) : Option CertNames :=
  CertNames.new (device.deviceName ++ "." ++ device.username ++ "." ++ DNS_SUFFIX)
    (if device.primary then some (device.username ++ "." ++ DNS_SUFFIX) else none) device.domain
    device.labels

structure Plain (device : Identity) : Prop where
  deviceName : isPlainLabel device.deviceName = true ∧ device.deviceName ≠ ""
  username : isPlainLabel device.username = true ∧ device.username ≠ ""
  labels : ∀ label ∈ device.labels, validLabel label = true

end Identity

theorem not_mem_plain {label : String} {c : Char} (hplain : isPlainLabel label = true)
    (hother : (isLabelChar c || c == '-') = false) : c ∉ label.toList := by
  intro hc
  have hin := List.all_eq_true.mp hplain c hc
  rw [hother] at hin
  cases hin

theorem plain_of_valid {label : String} (hvalid : validLabel label = true) :
    isPlainLabel label = true ∧ label ≠ "" := by
  unfold validLabel at hvalid
  simp only [Bool.and_eq_true] at hvalid
  obtain ⟨⟨⟨⟨⟨hne, _⟩, hchars⟩, _⟩, _⟩, _⟩ := hvalid
  constructor
  · unfold isPlainLabel
    refine List.all_eq_true.mpr fun c hc => ?_
    have hchar := List.all_eq_true.mp hchars c hc
    exact hchar
  · rintro rfl
    simp at hne

theorem toList_under (stem domain : String) :
    (under stem domain).toList =
      stem.toList.map Char.toLower ++ '.' :: domain.toList.map Char.toLower := by
  unfold under
  rw [toList_asciiLower]
  simp

theorem lower_plain {label : String} (hplain : isPlainLabel label = true) :
    label.toList.map Char.toLower = label.toList := by
  refine (List.map_congr_left fun c hc => ?_).trans (List.map_id _)
  apply Char.toNat_inj.mp
  rw [toNat_toLower, if_neg, id]
  rintro ⟨hleast, hmost⟩
  have hchar := List.all_eq_true.mp hplain c hc
  unfold isLabelChar at hchar
  simp only [Bool.or_eq_true, Bool.and_eq_true, decide_eq_true_eq, beq_iff_eq] at hchar
  rcases hchar with (⟨hletter, _⟩ | ⟨_, hdigit⟩) | rfl
  · have hletter : 97 ≤ c.toNat := UInt32.le_iff_toNat_le.mp hletter
    omega
  · have hdigit : c.toNat ≤ 57 := UInt32.le_iff_toNat_le.mp hdigit
    omega
  · exact absurd hleast (by decide)

theorem splitOnceDot_under {label : String} (user domain : String)
    (hplain : isPlainLabel label = true) :
    splitOnceDot (under (label ++ "." ++ user) domain) = some (label, under user domain) := by
  have hlist : under (label ++ "." ++ user) domain =
      String.ofList (label.toList ++ '.' :: (under user domain).toList) := by
    apply String.toList_inj.mp
    rw [toList_under, String.toList_ofList, toList_under, String.toList_append,
      String.toList_append, List.map_append, List.map_append, lower_plain hplain]
    simp
  rw [hlist, splitOnceDot_eq (not_mem_plain hplain rfl), String.ofList_toList,
    String.ofList_toList]

theorem lower_service (device : Identity) (label : String) :
    asciiLower (label ++ "." ++ device.bare) = device.service label := by
  apply String.toList_inj.mp
  unfold Identity.service Identity.bare
  rw [toList_asciiLower, toList_under]
  simp only [String.toList_append, List.map_append, toList_under, List.map_map, List.map_cons,
    funext toLower_idem, Function.comp_def]
  simp

theorem names?_eq {device : Identity} (hplain : device.Plain) :
    device.names? = some {
      device := device.host
      primary := if device.primary then some device.bare else none
      services := device.labels.map device.service } := by
  have hprimary : ((if device.primary then some (device.username ++ "." ++ DNS_SUFFIX)
      else none).bind fun name => certificateAlias name device.domain) =
        if device.primary then some device.bare else none := by
    cases device.primary with
    | true =>
        rw [if_pos rfl, if_pos rfl, Option.bind_some, certificateAlias_eq]
        rfl
    | false =>
        rw [if_neg Bool.false_ne_true, if_neg Bool.false_ne_true, Option.bind_none]
  have hservices : (device.labels.map fun label => asciiLower (label ++ "." ++ device.bare)) =
      device.labels.map device.service :=
    List.map_congr_left fun label _ => lower_service device label
  have hsplit : splitOnceDot device.host = some (device.deviceName, device.bare) :=
    splitOnceDot_under device.username device.domain hplain.deviceName.1
  unfold Identity.names? CertNames.new
  rw [certificateAlias_eq, hprimary]
  simp only [Option.bind_eq_bind, Option.bind_some]
  rw [show under (device.deviceName ++ "." ++ device.username) device.domain = device.host from rfl,
    hsplit, Option.bind_some]
  rw [← hservices]
  rfl

/-! What is published for each kind of a name. -/

namespace Identity

def challenge (device : Identity) : Kind → String
  | .device => challengeName s!"{device.deviceName}.{device.username}" device.domain
  | .primary => challengeName device.username device.domain
  | .service label => challengeName s!"{label}.{device.username}" device.domain

def Has (device : Identity) : Kind → Prop
  | .device => True
  | .primary => device.primary = true
  | .service label => label ∈ device.labels

def Called (device : Identity) (identifier : String) : Kind → Prop
  | .device => identifier = device.host ∨ identifier = "*." ++ device.host
  | .primary => identifier = device.bare
  | .service label => identifier = device.service label

end Identity

section

variable {device : Identity} {names : CertNames} {identifier : String} {kind : Kind}

theorem star_not_mem {first second : String} (hfirst : isPlainLabel first = true)
    (hsecond : isPlainLabel second = true) : '*' ∉ (first ++ "." ++ second).toList := by
  simp only [String.toList_append, List.mem_append, not_or]
  exact ⟨⟨not_mem_plain hfirst rfl, by decide⟩, not_mem_plain hsecond rfl⟩

theorem lookupName_called (hplain : device.Plain) (hhas : device.Has kind)
    (hcalled : device.Called identifier kind) : lookupName identifier = device.challenge kind := by
  have hdotted : ∀ first : String, isPlainLabel first = true →
      (under (first ++ "." ++ device.username) device.domain).toList.head? ≠ some '*' ∧
        lookupName (under (first ++ "." ++ device.username) device.domain) =
          challengeName (first ++ "." ++ device.username) device.domain := by
    intro first hfirst
    refine lookupName_under device.domain ?_ (star_not_mem hfirst hplain.username.1)
    simp
  cases kind with
  | device =>
      obtain ⟨hhead, hlookup⟩ := hdotted _ hplain.deviceName.1
      rcases hcalled with rfl | rfl
      · exact hlookup
      · exact (lookupName_wildcard hhead).trans hlookup
  | primary =>
      obtain rfl : identifier = device.bare := hcalled
      refine (lookupName_under device.domain ?_ (not_mem_plain hplain.username.1 rfl)).2
      exact fun hempty => hplain.username.2 (String.toList_inj.mp hempty)
  | service label =>
      obtain rfl : identifier = device.service label := hcalled
      exact (hdotted _ (plain_of_valid (hplain.labels label hhas)).1).2

theorem serviceLabel_name (hplain : device.Plain)
    (hservices : names.services = device.labels.map device.service)
    (hname : identifier ∈ names.services) : ∃ label ∈ device.labels,
      names.serviceLabel identifier = some label ∧ identifier = device.service label := by
  have hsome : (names.services.find? (· == identifier)).isSome := by
    rw [List.find?_isSome]
    exact ⟨identifier, hname, beq_self_eq_true identifier⟩
  obtain ⟨service, hfind⟩ := Option.isSome_iff_exists.mp hsome
  obtain rfl : service = identifier := by simpa using List.find?_some hfind
  obtain ⟨label, hlabel, rfl⟩ := List.mem_map.mp (hservices ▸ hname)
  refine ⟨label, hlabel, ?_, rfl⟩
  unfold CertNames.serviceLabel
  rw [hfind, Option.bind_some]
  unfold Identity.service
  rw [splitOnceDot_under _ _ (plain_of_valid (hplain.labels label hlabel)).1]
  rfl

theorem serviceLabel_mem {label : String} (hlabel : names.serviceLabel identifier = some label) :
    identifier ∈ names.services := by
  unfold CertNames.serviceLabel at hlabel
  obtain ⟨service, hfind, _⟩ := Option.bind_eq_some_iff.mp hlabel
  obtain rfl : service = identifier := by simpa using List.find?_some hfind
  exact List.mem_of_find?_eq_some hfind

theorem names_fields (hplain : device.Plain) (hnames : device.names? = some names) :
    names.device = device.host ∧
      names.primary = (if device.primary then some device.bare else none) ∧
      names.services = device.labels.map device.service := by
  rw [names?_eq hplain] at hnames
  cases hnames
  exact ⟨rfl, rfl, rfl⟩

theorem kindOf_called (hplain : device.Plain) (hnames : device.names? = some names)
    (hkind : names.kindOf identifier = some kind) :
    device.Has kind ∧ device.Called identifier kind := by
  obtain ⟨hdevice, hprimary, hservices⟩ := names_fields hplain hnames
  unfold CertNames.kindOf CertNames.wildcard at hkind
  rw [hdevice] at hkind
  split at hkind
  · rename_i hown
    cases hkind
    exact ⟨trivial, hown⟩
  · split at hkind
    · rename_i hbare
      cases hkind
      rw [hprimary] at hbare
      cases hflag : device.primary with
      | false => simp [hflag] at hbare
      | true =>
          rw [hflag, if_pos rfl] at hbare
          exact ⟨hflag, Option.some.inj hbare⟩
    · obtain ⟨label, hlabel, rfl⟩ := Option.map_eq_some_iff.mp hkind
      obtain ⟨other, hother, hfound, hcalled⟩ :=
        serviceLabel_name hplain hservices (serviceLabel_mem hlabel)
      obtain rfl : other = label := Option.some.inj (hfound.symm.trans hlabel)
      exact ⟨hother, hcalled⟩

theorem kindOf_name (hplain : device.Plain) (hnames : device.names? = some names)
    (hname : identifier ∈ names.all) : ∃ kind, names.kindOf identifier = some kind := by
  obtain ⟨_, _, hservices⟩ := names_fields hplain hnames
  unfold CertNames.kindOf
  split
  · exact ⟨_, rfl⟩
  rename_i hother
  split
  · exact ⟨_, rfl⟩
  rename_i hnot
  have hservice : identifier ∈ names.services := by
    unfold CertNames.all at hname
    rcases List.mem_append.mp hname with hname | hservice
    · rcases List.mem_append.mp hname with hown | hprimary
      · exact absurd (by simpa using hown) hother
      · exact absurd (Option.mem_toList.mp hprimary).symm hnot
    · exact hservice
  obtain ⟨label, _, hfound, _⟩ := serviceLabel_name hplain hservices hservice
  rw [hfound]
  exact ⟨_, rfl⟩

theorem kindOf_unique {other : String} (hplain : device.Plain)
    (hnames : device.names? = some names) (hkind : names.kindOf identifier = some kind)
    (hother : names.kindOf other = some kind) (hforeign : kind ≠ .device) : identifier = other := by
  have hfirst := (kindOf_called hplain hnames hkind).2
  have hsecond := (kindOf_called hplain hnames hother).2
  cases kind with
  | device => exact absurd rfl hforeign
  | primary => exact hfirst.trans hsecond.symm
  | service label => exact hfirst.trans hsecond.symm

theorem kindOf_device (hplain : device.Plain) (hnames : device.names? = some names) :
    names.kindOf identifier = some .device ↔
      identifier = names.device ∨ identifier = names.wildcard := by
  constructor
  · intro hkind
    obtain ⟨hdevice, _, _⟩ := names_fields hplain hnames
    unfold CertNames.wildcard
    rw [hdevice]
    exact (kindOf_called hplain hnames hkind).2
  · intro hown
    exact if_pos hown

end

/-! What is published for an order. -/

structure Carries (names : CertNames) (pending : List Authorization) (device : List String)
    (primary : Option String) (services : List (String × String)) : Prop where
  device : device = (pending.filter fun authz =>
    names.kindOf authz.identifier = some .device).map Authorization.value
  primary : ∀ value, primary = some value ↔
    ∃ authz ∈ pending, names.kindOf authz.identifier = some .primary ∧ authz.value = value
  services : ∀ label value, (label, value) ∈ services ↔
    ∃ authz ∈ pending, names.kindOf authz.identifier = some (.service label) ∧ authz.value = value

def Step.isPost : Step → Bool
  | .posted _ _ => true
  | _ => false

/-- An order that completes, by what is asked of the coordinator and of the CA. -/
structure Completes (names : CertNames) (pending : List Authorization) (log : List Step) :
    Prop where
  posted : ∀ req answer, .posted req answer ∈ log →
    Carries names pending req.device req.primary req.services
  once : (log.filter Step.isPost).length = if pending = [] then 0 else 1
  /-- The store may be out of budget; nothing else is held against the request. -/
  accepted : ∀ req answer, .posted req answer ∈ log →
    (∃ resp, answer = some (.ok resp)) ∨
      ∃ error, answer = some (.error error) ∧ error.status = .tooManyRequests
  told : ∀ authz published, .told authz published ∈ log → published = true
  every : ∀ req resp, .posted req (some (.ok resp)) ∈ log → ∀ authz ∈ pending,
    .told authz true ∈ log
  finalized : ∀ left, .finalized left ∈ log → left = []
  completes : (∀ req error, .posted req (some (.error error)) ∉ log) → .finalized [] ∈ log

/-- The device and what the CA asks of it. -/
structure Ordered (site : Site) (device : Identity) (names : CertNames) : Prop where
  registered : Registered site device
  plain : device.Plain
  certified : device.names? = some names
  bounded : device.labels.length ≤ MAX_WEB_SERVICES_PER_DEVICE
  nodup : (site.authorizations.map Authorization.identifier).Nodup
  ordered : ∀ authz ∈ site.authorizations, authz.identifier ∈ names.all
  status : ∀ authz ∈ site.authorizations, authz.status = .pending ∨ authz.status = .valid
  values : ∀ authz ∈ site.authorizations, validChallengeValue authz.value = true
  fresh : site.records = [] ∧ site.log = []

section

variable {site : Site} {device : Identity} {names : CertNames} {pending : List Authorization}
  {authz : Authorization} {kind : Kind}

def Collected.Carries (collected : Collected) (names : CertNames) (pending : List Authorization) :
    Prop :=
  Cert.Carries names pending collected.device collected.primary collected.services.rows

theorem carries_none : ({} : Collected).Carries names [] := by
  constructor
  · rfl
  · intro value
    simp
  · intro label value
    simp [show ((∅ : Table String String)).rows = [] from rfl]

theorem carries_add {collected : Collected} (hcarries : collected.Carries names pending)
    (hkind : names.kindOf authz.identifier = some kind)
    (hnew : kind ≠ .device → ∀ other ∈ pending, names.kindOf other.identifier ≠ some kind) :
    (collected.add authz.value kind).Carries names (pending ++ [authz]) := by
  have hlast : ∀ {wanted : Kind} {value : String},
      (∃ other ∈ pending ++ [authz], names.kindOf other.identifier = some wanted ∧
        other.value = value) ↔
      (∃ other ∈ pending, names.kindOf other.identifier = some wanted ∧ other.value = value) ∨
        kind = wanted ∧ authz.value = value := by
    intro wanted value
    simp only [List.mem_append, List.mem_singleton, or_and_right, exists_or, exists_eq_left, hkind,
      Option.some.injEq]
  constructor
  case device =>
    rw [List.filter_append, List.map_append, ← hcarries.device]
    cases kind <;> simp [Collected.add, hkind]
  case primary =>
    intro value
    rw [hlast, ← hcarries.primary]
    cases kind with
    | device => simp [Collected.add]
    | service label => simp [Collected.add]
    | primary =>
        have hnone : collected.primary = none := by
          refine Option.eq_none_iff_forall_ne_some.mpr fun held hheld => ?_
          obtain ⟨other, hother, hsame, _⟩ := (hcarries.primary held).mp hheld
          exact hnew (by simp) other hother hsame
        simp [Collected.add, hnone]
  case services =>
    intro label value
    rw [hlast, ← hcarries.services]
    cases kind with
    | device => simp [Collected.add]
    | primary => simp [Collected.add]
    | service other =>
        unfold Collected.add
        dsimp only
        rw [Table.mem_rows, Table.get?_insert, Table.mem_rows]
        split
        · rename_i hsame
          subst hsame
          have hnone : collected.services.get? label = none := by
            refine Option.eq_none_iff_forall_ne_some.mpr fun held hheld => ?_
            obtain ⟨other, hother, hsame, _⟩ :=
              (hcarries.services label held).mp (Table.mem_rows.mpr hheld)
            exact hnew (by simp) other hother hsame
          simp [hnone]
        · rename_i hother
          simp [Ne.symm hother]

theorem collect_carries (hplain : device.Plain) (hnames : device.names? = some names)
    (rest done : List Authorization) (collected : Collected)
    (hcarries : collected.Carries names done)
    (hnodup : ((done ++ rest).map Authorization.identifier).Nodup)
    (hordered : ∀ authz ∈ rest, authz.identifier ∈ names.all)
    (hstatus : ∀ authz ∈ rest, authz.status = .pending ∨ authz.status = .valid) :
    ∃ last, rest.foldlM (collectOne names) collected = .ok last ∧
      last.Carries names (done ++ rest.filter fun authz => authz.status = .pending) := by
  induction rest generalizing done collected with
  | nil => exact ⟨collected, rfl, by simpa using hcarries⟩
  | cons authz rest ih =>
      have hrest := fun other hother => hordered other (List.mem_cons_of_mem _ hother)
      have hrests := fun other hother => hstatus other (List.mem_cons_of_mem _ hother)
      rw [List.foldlM_cons]
      rcases hstatus authz List.mem_cons_self with hpending | hvalid
      · obtain ⟨kind, hkind⟩ := kindOf_name hplain hnames (hordered authz List.mem_cons_self)
        have hone : collectOne names collected authz = .ok (collected.add authz.value kind) := by
          unfold collectOne
          rw [hpending, hkind]
        have hnew : kind ≠ .device →
            ∀ other ∈ done, names.kindOf other.identifier ≠ some kind := by
          intro hforeign other hother hsame
          have hsame := kindOf_unique hplain hnames hsame hkind hforeign
          rw [List.map_append, List.nodup_append] at hnodup
          exact hnodup.2.2 _ (List.mem_map_of_mem hother) _
            (List.mem_map_of_mem List.mem_cons_self) hsame
        rw [hone]
        obtain ⟨last, hlast, hcarried⟩ := ih (done ++ [authz]) _ (carries_add hcarries hkind hnew)
          (by simpa using hnodup) hrest hrests
        refine ⟨last, hlast, ?_⟩
        rw [List.filter_cons_of_pos (by simpa using hpending)]
        simpa using hcarried
      · have hone : collectOne names collected authz = .ok collected := by
          unfold collectOne
          rw [hvalid]
        rw [hone]
        have hfewer : ((done ++ rest).map Authorization.identifier).Nodup := by
          refine hnodup.sublist ((List.Sublist.append_left ?_ done).map _)
          exact List.sublist_cons_self authz rest
        obtain ⟨last, hlast, hcarried⟩ := ih done collected hcarries hfewer hrest hrests
        refine ⟨last, hlast, ?_⟩
        rw [List.filter_cons_of_neg (by simp [hvalid])]
        exact hcarried

theorem Ordered.collected (hordered : Ordered site device names) :
    ∃ collected, collect names site.authorizations = .ok collected ∧
      collected.Carries names site.pending :=
  collect_carries hordered.plain hordered.certified site.authorizations [] {} carries_none
    hordered.nodup hordered.ordered hordered.status

/-! What the coordinator makes of the request. -/

theorem Ordered.pending_nodup (hordered : Ordered site device names) :
    (site.pending.map Authorization.identifier).Nodup :=
  hordered.nodup.sublist (List.filter_sublist.map _)

theorem carries_sorted (site : Site) {collected : Collected}
    (hcarries : collected.Carries names pending) :
    Cert.Carries names pending (site.request collected).device (site.request collected).primary
      (site.request collected).services := by
  refine ⟨hcarries.device, hcarries.primary, fun label value => ?_⟩
  unfold Site.request
  rw [List.mem_insertionSort]
  exact hcarries.services label value

theorem Ordered.device_le (hordered : Ordered site device names) {collected : Collected}
    (hcarries : collected.Carries names site.pending) :
    collected.device.length ≤ MAX_DEVICE_CHALLENGES := by
  rw [hcarries.device, List.length_map]
  have hnodup : ((site.pending.filter fun authz =>
      names.kindOf authz.identifier = some .device).map Authorization.identifier).Nodup :=
    hordered.pending_nodup.sublist (List.filter_sublist.map _)
  have hsubset : ((site.pending.filter fun authz =>
      names.kindOf authz.identifier = some .device).map Authorization.identifier) ⊆
        [names.device, names.wildcard] := by
    intro identifier hin
    obtain ⟨authz, hauthz, rfl⟩ := List.mem_map.mp hin
    have hkind := of_decide_eq_true (List.mem_filter.mp hauthz).2
    simpa using (kindOf_device hordered.plain hordered.certified).mp hkind
  simpa [MAX_DEVICE_CHALLENGES] using (hnodup.subperm hsubset).length_le

theorem Ordered.services_le (hordered : Ordered site device names) {collected : Collected}
    (hcarries : collected.Carries names site.pending) :
    collected.services.rows.length ≤ MAX_WEB_SERVICES_PER_DEVICE := by
  refine le_trans ?_ hordered.bounded
  rw [← List.length_map (f := Prod.fst)]
  refine (collected.services.keysNodup.subperm ?_).length_le
  intro label hin
  obtain ⟨⟨label, value⟩, hrow, rfl⟩ := List.mem_map.mp hin
  obtain ⟨authz, _, hkind, _⟩ := (hcarries.services label value).mp hrow
  exact (kindOf_called hordered.plain hordered.certified hkind).1

theorem value_mem {collected : Collected} (hcarries : collected.Carries names pending)
    {value : String}
    (hvalue : value ∈ collected.device ++ collected.primary.toList ++
      collected.services.rows.map Prod.snd) : ∃ authz ∈ pending, authz.value = value := by
  rcases List.mem_append.mp hvalue with hvalue | hservice
  · rcases List.mem_append.mp hvalue with hdevice | hprimary
    · rw [hcarries.device] at hdevice
      obtain ⟨authz, hauthz, rfl⟩ := List.mem_map.mp hdevice
      exact ⟨authz, List.mem_of_mem_filter hauthz, rfl⟩
    · obtain ⟨authz, hauthz, _, hsame⟩ :=
        (hcarries.primary value).mp (Option.mem_toList.mp hprimary)
      exact ⟨authz, hauthz, hsame⟩
  · obtain ⟨⟨label, _⟩, hrow, rfl⟩ := List.mem_map.mp hservice
    obtain ⟨authz, hauthz, _, hsame⟩ := (hcarries.services label _).mp hrow
    exact ⟨authz, hauthz, hsame⟩

theorem Ordered.orderError (hordered : Ordered site device names) {collected : Collected}
    (hcarries : collected.Carries names site.pending) :
    orderError (site.request collected) =
      if collected.device.isEmpty then
        some "a certificate order raises one or two challenges for a device's own name"
      else none := by
  have hdevice := hordered.device_le hcarries
  have hservices := hordered.services_le hcarries
  have hvalues : ((site.request collected).device ++ (site.request collected).primary.toList ++
      (site.request collected).services.map Prod.snd).all validChallengeValue = true := by
    refine List.all_eq_true.mpr fun value hvalue => ?_
    have hvalue : value ∈ collected.device ++ collected.primary.toList ++
        collected.services.rows.map Prod.snd := by
      simpa [Site.request] using hvalue
    obtain ⟨authz, hauthz, rfl⟩ := value_mem hcarries hvalue
    exact hordered.values authz (List.mem_of_mem_filter hauthz)
  unfold Coordinator.orderError
  rw [hvalues]
  cases hempty : collected.device.isEmpty with
  | true => simp [Site.request, hempty]
  | false =>
      have hfew : ¬ MAX_DEVICE_CHALLENGES < collected.device.length := by omega
      have hheld : ¬ MAX_WEB_SERVICES_PER_DEVICE < collected.services.rows.length := by omega
      simp [Site.request, hempty, hfew, hheld]

theorem Ordered.published (hordered : Ordered site device names) {collected : Collected}
    (hcarries : collected.Carries names site.pending) (hpending : authz ∈ site.pending) :
    (lookupName authz.identifier, authz.value) ∈
      device.records site.db (site.request collected) := by
  obtain ⟨kind, hkind⟩ := kindOf_name hordered.plain hordered.certified
    (hordered.ordered authz (List.mem_of_mem_filter hpending))
  obtain ⟨hhas, hcalled⟩ := kindOf_called hordered.plain hordered.certified hkind
  rw [lookupName_called hordered.plain hhas hcalled]
  have hcarried := carries_sorted site hcarries
  unfold Identity.records
  rw [List.mem_append, List.mem_append]
  cases kind with
  | device =>
      refine .inl (.inl (List.mem_map.mpr ⟨authz.value, ?_, rfl⟩))
      rw [hcarried.device]
      exact List.mem_map_of_mem (List.mem_filter.mpr ⟨hpending, decide_eq_true hkind⟩)
  | primary =>
      right
      rw [if_pos (hordered.registered.primary hhas)]
      refine List.mem_map.mpr ⟨authz.value, Option.mem_toList.mpr ?_, rfl⟩
      exact (hcarried.primary authz.value).mpr ⟨authz, hpending, hkind, rfl⟩
  | service label =>
      refine .inl (.inr (List.mem_map.mpr ⟨(label, authz.value), List.mem_filter.mpr ⟨?_, ?_⟩, rfl⟩))
      · exact (hcarried.services label authz.value).mpr ⟨authz, hpending, hkind, rfl⟩
      · exact List.contains_iff_mem.mpr (hordered.registered.services label hhas)

/-! What the CA is told. -/

def Site.settled (site : Site) (authz : Authorization) : Authorization :=
  if authz.status = .pending then site.validated authz.identifier authz else authz

theorem validated_other {identifier : String} (hother : authz.identifier ≠ identifier) :
    site.validated identifier authz = authz :=
  if_neg hother

theorem answers_setReady {before rest : List Authorization}
    (hrest : site.authorizations = before ++ authz :: rest)
    (hnodup : ((before ++ authz :: rest).map Authorization.identifier).Nodup) :
    (Site.answers (.setReady authz.identifier) site).2 = { site with
      authorizations := before ++ site.validated authz.identifier authz :: rest
      log := site.log ++ [site.toldStep authz] } := by
  rw [List.map_append, List.map_cons, List.nodup_append, List.nodup_cons] at hnodup
  obtain ⟨_, ⟨hafter, _⟩, hdisjoint⟩ := hnodup
  have hbefores : ∀ other ∈ before, other.identifier ≠ authz.identifier := fun other hother =>
    hdisjoint _ (List.mem_map_of_mem hother) _ List.mem_cons_self
  have hafters : ∀ other ∈ rest, other.identifier ≠ authz.identifier := by
    intro other hother hsame
    exact hafter (hsame ▸ List.mem_map_of_mem hother)
  have hkept : ∀ others : List Authorization,
      (∀ other ∈ others, other.identifier ≠ authz.identifier) →
        others.map (site.validated authz.identifier) = others := by
    intro others hothers
    refine (List.map_congr_left fun other hother => ?_).trans (List.map_id others)
    exact validated_other (hothers other hother)
  have hnone : ∀ others : List Authorization,
      (∀ other ∈ others, other.identifier ≠ authz.identifier) →
        (others.filter fun other => other.identifier = authz.identifier) = [] := by
    intro others hothers
    rw [List.filter_eq_nil_iff]
    intro other hother
    simpa using hothers other hother
  unfold Site.answers
  dsimp only
  rw [hrest, List.map_append, List.map_cons, hkept before hbefores, hkept rest hafters,
    List.filter_append, List.filter_cons_of_pos (by simp), hnone before hbefores,
    hnone rest hafters]
  rfl

theorem run_tell (rest before : List Authorization) (site : Site)
    (hrest : site.authorizations = before ++ rest)
    (hnodup : ((before ++ rest).map Authorization.identifier).Nodup) :
    (tell rest).run (S := AcmeSig) Site.answers site = (.ok (),
      { site with
        authorizations := before ++ rest.map site.settled
        log := site.log ++ (rest.filter fun authz => authz.status = .pending).map site.toldStep
          }) := by
  induction rest generalizing before site with
  | nil =>
      obtain ⟨conf, db, now, token, store, authorizations, records, log⟩ := site
      obtain rfl : authorizations = before ++ [] := hrest
      simp [tell]
  | cons authz rest ih =>
      unfold tell
      by_cases hpending : authz.status = .pending
      · rw [if_pos hpending]
        change (tell rest).run (S := AcmeSig) Site.answers
          (Site.answers (.setReady authz.identifier) site).2 = _
        rw [answers_setReady hrest hnodup, ih (before ++ [site.validated authz.identifier authz]) _
          (by simp) ?_, List.filter_cons_of_pos (by simpa using hpending)]
        · have hsettled : site.settled authz = site.validated authz.identifier authz :=
            if_pos hpending
          simp only [List.map_cons, hsettled, List.append_assoc, List.cons_append, List.nil_append]
          rfl
        · have hsame : (site.validated authz.identifier authz).identifier = authz.identifier := by
            unfold Site.validated
            split <;> rfl
          simpa [hsame] using hnodup
      · rw [if_neg hpending]
        change (tell rest).run (S := AcmeSig) Site.answers site = _
        rw [ih (before ++ [authz]) site (by simpa using hrest) (by simpa using hnodup),
          List.filter_cons_of_neg (by simpa using hpending)]
        simp [Site.settled, hpending]

/-! Runs of an order, by what there is to publish for the device itself. -/

section

variable {collected : Collected}

theorem run_unpublished (hcollect : collect names site.authorizations = .ok collected)
    (hdevice : collected.device = []) (hservices : collected.services.rows = []) :
    (site.run names).2.log = site.log ++ [.finalized site.pending] := by
  unfold Site.run order
  change (Prog.run (S := AcmeSig) Site.answers (match collect names site.authorizations with
    | .error error => throw error
    | .ok collected => _) site).2.log = _
  rw [hcollect]
  dsimp only
  rw [hdevice, hservices, if_pos (by simp)]
  rfl

def posted (collected : Collected) : Prog AcmeSig String Unit :=
  (performOr (S := AcmeSig) (.postChallenge collected) id).mapError (fun error =>
    "asking the coordinator to publish the challenge: " ++ error) >>= fun _ => do
      tell (← acme .authorizations)
      if ← acme .pollReady then acme .finalize
      else throw "the CA left the order Invalid rather than ready"

theorem run_published (hcollect : collect names site.authorizations = .ok collected)
    (hsome : ¬ (collected.device = [] ∧ collected.services.rows = []))
    (hfew : collected.device.length ≤ MAX_DEVICE_CHALLENGES) :
    site.run names = (posted collected).run (S := AcmeSig) Site.answers site := by
  unfold Site.run order
  change Prog.run (S := AcmeSig) Site.answers (match collect names site.authorizations with
    | .error error => throw error
    | .ok collected => _) site = _
  rw [hcollect]
  dsimp only
  rw [if_neg (by simpa [List.isEmpty_iff] using hsome), if_neg (by omega)]
  rfl

theorem run_posted_error {error : ApiError} {store : ChallengeStore} {records : ChallengeRecords}
    (hhandled : site.handled (site.request collected) = some (.error error, (store, records))) :
    ((posted collected).run (S := AcmeSig) Site.answers site).2.log =
      site.log ++ [.posted (site.request collected) (some (.error error))] := by
  have hpost : site.post collected = (.error error.message, { site with
      store := store
      records := records
      log := site.log ++ [.posted (site.request collected) (some (.error error))] }) := by
    unfold Site.post
    dsimp only
    rw [hhandled]
  unfold posted
  rw [run_bind]
  simp only [performOr, mapError, Prog.run, Site.answers, hpost, id]

theorem run_posted_ok {resp : AcmeChallengeResp} {store : ChallengeStore}
    {records : ChallengeRecords}
    (hhandled : site.handled (site.request collected) = some (.ok resp, (store, records)))
    (hnodup : (site.authorizations.map Authorization.identifier).Nodup)
    (hstatus : ∀ authz ∈ site.authorizations, authz.status = .pending ∨ authz.status = .valid)
    (hpublished : ∀ authz ∈ site.pending, (lookupName authz.identifier, authz.value) ∈ records) :
    ((posted collected).run (S := AcmeSig) Site.answers site).2.log =
      site.log ++ [.posted (site.request collected) (some (.ok resp))] ++
        site.pending.map (fun authz => .told authz true) ++ [.finalized []] := by
  let answered : Site := { site with
    store := store
    records := records
    log := site.log ++ [.posted (site.request collected) (some (.ok resp))] }
  have hpost : site.post collected = (.ok (), answered) := by
    unfold Site.post
    dsimp only
    rw [hhandled]
  have hvalid : ∀ authz ∈ site.authorizations, (answered.settled authz).status = .valid := by
    intro authz hauthz
    unfold Site.settled
    split
    · rename_i hpending
      unfold Site.validated
      have hfound := hpublished authz (List.mem_filter.mpr ⟨hauthz, decide_eq_true hpending⟩)
      rw [if_pos rfl]
      exact if_pos (List.contains_iff_mem.mpr hfound)
    · rename_i hother
      exact (hstatus authz hauthz).resolve_left hother
  have htell := run_tell site.authorizations [] answered rfl hnodup
  have hready : (site.authorizations.map answered.settled).all
    (fun authz => authz.status = .valid) =
      true := by
    rw [List.all_map, List.all_eq_true]
    exact fun authz hauthz => decide_eq_true (hvalid authz hauthz)
  have hnone : (site.authorizations.map answered.settled).filter (fun authz =>
      authz.status = .pending) = [] := by
    rw [List.filter_eq_nil_iff]
    rintro _ hsettled
    obtain ⟨authz, hauthz, rfl⟩ := List.mem_map.mp hsettled
    simp [hvalid authz hauthz]
  have htold : (site.authorizations.filter fun authz => authz.status = .pending).map
      answered.toldStep = site.pending.map fun authz => .told authz true := by
    refine List.map_congr_left fun authz hauthz => ?_
    unfold Site.toldStep
    rw [List.contains_iff_mem.mpr (hpublished authz hauthz)]
  unfold posted
  rw [run_bind]
  simp only [performOr, mapError, Prog.run, Site.answers, hpost, id]
  change (Prog.run (S := AcmeSig) Site.answers (tell site.authorizations >>= fun _ =>
    acme .pollReady >>= fun ready => if ready then acme .finalize
      else throw "the CA left the order Invalid rather than ready") answered).2.log = _
  rw [run_bind, htell]
  dsimp only
  change (Prog.run (S := AcmeSig) Site.answers (if (([] : List Authorization) ++
    site.authorizations.map answered.settled).all (fun authz => authz.status = .valid) then
      acme .finalize else _) _).2.log = _
  rw [List.nil_append, hready, if_pos rfl]
  change answered.log ++
    (site.authorizations.filter fun authz => authz.status = .pending).map answered.toldStep ++
      [Step.finalized ((site.authorizations.map answered.settled).filter fun authz =>
        authz.status = .pending)] = _
  rw [hnone, htold]

end

/-! Which orders complete. -/

theorem completes_unpublished :
    Completes names pending [.finalized pending] ↔ pending = [] := by
  constructor
  · intro hcompletes
    exact hcompletes.finalized pending (List.mem_singleton_self _)
  · rintro rfl
    constructor <;> simp [Step.isPost]

theorem completes_published {req : AcmeChallengeReq} {resp : AcmeChallengeResp}
    (hcarries : Carries names pending req.device req.primary req.services)
    (hpending : pending ≠ []) :
    Completes names pending (.posted req (some (.ok resp)) ::
      pending.map (fun authz => .told authz true) ++ [.finalized []]) := by
  constructor
  case posted =>
    intro other answer hposted
    obtain ⟨rfl, rfl⟩ : other = req ∧ answer = some (.ok resp) := by simpa using hposted
    exact hcarries
  case once =>
    rw [if_neg hpending, List.filter_append, List.filter_cons_of_pos rfl, List.filter_map]
    simp [Step.isPost, Function.comp_def]
  case accepted =>
    intro other answer hposted
    obtain ⟨rfl, rfl⟩ : other = req ∧ answer = some (.ok resp) := by simpa using hposted
    exact .inl ⟨resp, rfl⟩
  case told =>
    intro authz published htold
    have hboth : authz ∈ pending ∧ true = published := by simpa using htold
    exact hboth.2.symm
  case every =>
    intro _ _ _ authz hauthz
    simp [hauthz]
  case finalized =>
    intro left hleft
    simpa using hleft
  case completes => simp

theorem completes_refused {req : AcmeChallengeReq} {error : ApiError}
    (hcarries : Carries names pending req.device req.primary req.services)
    (hpending : pending ≠ []) :
    Completes names pending [.posted req (some (.error error))] ↔
      error.status = .tooManyRequests := by
  constructor
  · intro hcompletes
    rcases hcompletes.accepted req _ (List.mem_singleton_self _) with ⟨resp, hresp⟩ |
      ⟨_, hsame, hstatus⟩
    · simp at hresp
    · simp only [Option.some.injEq, Except.error.injEq] at hsame
      exact hsame ▸ hstatus
  · intro hstatus
    constructor
    case posted =>
      intro other answer hposted
      obtain ⟨rfl, rfl⟩ : other = req ∧ answer = some (.error error) := by simpa using hposted
      exact hcarries
    case once =>
      rw [if_neg hpending]
      rfl
    case accepted =>
      intro other answer hposted
      obtain ⟨rfl, rfl⟩ : other = req ∧ answer = some (.error error) := by simpa using hposted
      exact .inr ⟨error, rfl, hstatus⟩
    case told => simp
    case every => simp
    case finalized => simp
    case completes =>
      intro hnone
      exact absurd (List.mem_singleton_self _) (hnone req error)

theorem Ordered.device_pending (hordered : Ordered site device names) {collected : Collected}
    (hcarries : collected.Carries names site.pending) :
    collected.device ≠ [] ↔ ∃ authz ∈ site.pending,
      authz.identifier = names.device ∨ authz.identifier = names.wildcard := by
  rw [hcarries.device, Ne, List.map_eq_nil_iff, List.filter_eq_nil_iff]
  simp [kindOf_device hordered.plain hordered.certified, or_iff_not_imp_left]

theorem carries_nothing {collected : Collected} (hcarries : collected.Carries names []) :
    collected.device = [] ∧ collected.services.rows = [] := by
  refine ⟨hcarries.device, List.eq_nil_iff_forall_not_mem.mpr ?_⟩
  rintro ⟨label, value⟩ hrow
  obtain ⟨authz, hnone, _⟩ := (hcarries.services label value).mp hrow
  exact List.not_mem_nil hnone

theorem Ordered.completes (hordered : Ordered site device names)
    (hready : site.pending = [] ∨ ∃ authz ∈ site.pending,
      authz.identifier = names.device ∨ authz.identifier = names.wildcard) :
    Completes names site.pending (site.run names).2.log := by
  obtain ⟨collected, hcollect, hcarries⟩ := hordered.collected
  rcases hready with hempty | hown
  · obtain ⟨hdevice, hservices⟩ := carries_nothing (hempty ▸ hcarries)
    rw [run_unpublished hcollect hdevice hservices, hordered.fresh.2]
    exact completes_unpublished.mpr hempty
  · have hpending : site.pending ≠ [] := by
      obtain ⟨authz, hauthz, _⟩ := hown
      exact List.ne_nil_of_mem hauthz
    have hsome := (hordered.device_pending hcarries).mpr hown
    have hhandled := handled_eq hordered.registered (site.request collected) rfl
    unfold Site.published at hhandled
    rw [hordered.orderError hcarries, if_neg (by simpa [List.isEmpty_iff] using hsome)] at hhandled
    rw [run_published hcollect (fun hnone => hsome hnone.1) (hordered.device_le hcarries)]
    dsimp only at hhandled
    split at hhandled
    · rw [run_posted_ok hhandled hordered.nodup hordered.status
        fun authz hauthz => hordered.published hcarries hauthz, hordered.fresh.2]
      exact completes_published (carries_sorted site hcarries) hpending
    · rw [run_posted_error hhandled, hordered.fresh.2]
      exact (completes_refused (carries_sorted site hcarries) hpending).mpr rfl

theorem Ordered.incomplete (hordered : Ordered site device names) (hpending : site.pending ≠ [])
    (hnone : ¬ ∃ authz ∈ site.pending,
      authz.identifier = names.device ∨ authz.identifier = names.wildcard) :
    ¬ Completes names site.pending (site.run names).2.log := by
  obtain ⟨collected, hcollect, hcarries⟩ := hordered.collected
  have hdevice : collected.device = [] := by
    by_contra hsome
    exact hnone ((hordered.device_pending hcarries).mp hsome)
  by_cases hservices : collected.services.rows = []
  · rw [run_unpublished hcollect hdevice hservices, hordered.fresh.2]
    exact fun hcompletes => hpending (completes_unpublished.mp hcompletes)
  · have hhandled := handled_eq hordered.registered (site.request collected) rfl
    unfold Site.published at hhandled
    rw [hordered.orderError hcarries, if_pos (by simp [hdevice])] at hhandled
    rw [run_published hcollect (fun hboth => hservices hboth.2) (hordered.device_le hcarries),
      run_posted_error hhandled, hordered.fresh.2]
    intro hcompletes
    exact absurd ((completes_refused (carries_sorted site hcarries) hpending).mp hcompletes) nofun

/-- An order completes exactly when nothing of it is pending, or the device's own name or its
wildcard is. -/
theorem order_completes_iff (site : Site) (device : Identity) (names : CertNames)
    (hordered : Ordered site device names) :
    Completes names site.pending (site.run names).2.log ↔
      site.pending = [] ∨ ∃ authz ∈ site.pending,
        authz.identifier = names.device ∨ authz.identifier = names.wildcard := by
  constructor
  · intro hcompletes
    by_contra hnot
    obtain ⟨hpending, hnone⟩ := not_or.mp hnot
    exact hordered.incomplete hpending hnone hcompletes
  · exact hordered.completes

/-- A device that certifies a service. -/
def laptop : Identity where
  user := 2
  pubkey := 7
  username := "alice"
  deviceName := "laptop"
  domain := "mesh.example.com"
  primary := false
  labels := ["wiki"]

def laptopNames : CertNames where
  device := "laptop.alice.mesh.example.com"
  services := ["wiki.alice.mesh.example.com"]

def laptopDb : Database where
  devices := ((∅ : UniqueTable PubKey DeviceRow (·.idx)).insertNew 7
    ⟨0, 2, "laptop", some "secret", none, false⟩).getD ∅
  userLabels := ((∅ : UniqueTable UserId String id).insertNew 2 "alice").getD ∅
  deviceServices := Table.insert ∅ (2, "wiki") 7

def laptopConf : Conf where
  wgNet := ⟨0, 0⟩
  maxParked := 1
  enrollPublic := 0
  dnsDomain := some "mesh.example.com"
  sip := fun _ => 0
  scopeHash := fun _ => 0
  seedHash := fun _ => 0
  relayCredential := fun _ _ => ""

/-- Of the three names the CA has validated as many as it says. -/
def laptopSite (own service : AuthorizationStatus) : Site where
  conf := laptopConf
  db := laptopDb
  now := 0
  token := "secret"
  store := .new 5
  authorizations :=
    [⟨"laptop.alice.mesh.example.com", own, "a"⟩, ⟨"*.laptop.alice.mesh.example.com", own, "b"⟩,
      ⟨"wiki.alice.mesh.example.com", service, "c"⟩]

theorem laptop_plain : laptop.Plain := by
  constructor
  case deviceName => decide
  case username => decide
  case labels =>
    intro label hlabel
    obtain rfl := List.mem_singleton.mp hlabel
    decide

theorem laptop_names : laptop.names? = some laptopNames := by
  rw [names?_eq laptop_plain]
  have hhost : laptop.host = "laptop.alice.mesh.example.com" := by
    apply String.toList_inj.mp
    unfold Identity.host
    rw [toList_under]
    decide
  have hservice : laptop.service "wiki" = "wiki.alice.mesh.example.com" := by
    apply String.toList_inj.mp
    unfold Identity.service
    rw [toList_under]
    decide
  rw [hhost, show laptop.labels.map laptop.service = [laptop.service "wiki"] from rfl, hservice]
  rfl

theorem laptop_registered {own service : AuthorizationStatus} :
    Registered (laptopSite own service) laptop where
  domain := by rfl
  row := by
    have hrow : laptopDb.devices.get? 7 = some ⟨0, 2, "laptop", some "secret", none, false⟩ := by
      decide
    exact ⟨_, hrow, rfl⟩
  token := by
    have hfound : (laptopDb.devices.table.rows.find? fun row => row.2.token == some "secret").map
        (fun row => (row.2.userId, row.1)) = some (2, 7) := by
      decide
    exact congrArg (fun who => Except.ok (who, laptopDb)) hfound
  label := by
    have hlabel : laptopDb.userLabels.get? 2 = some "alice" := by decide
    exact hlabel
  primary := nofun
  services := by
    intro label hlabel
    obtain rfl := List.mem_singleton.mp hlabel
    have hheld : "wiki" ∈ servicesOf laptopDb 7 := by decide
    exact hheld

theorem laptop_ordered (own service : AuthorizationStatus)
    (hown : own = .pending ∨ own = .valid) (hservice : service = .pending ∨ service = .valid) :
    Ordered (laptopSite own service) laptop laptopNames := by
  have hwildcard : "*.laptop.alice.mesh.example.com" ∈ laptopNames.all := by decide
  have hall : ∀ authz ∈ (laptopSite own service).authorizations,
      authz.identifier ∈ laptopNames.all ∧ (authz.status = .pending ∨ authz.status = .valid) ∧
        validChallengeValue authz.value = true := by
    intro authz hauthz
    simp only [laptopSite, List.mem_cons, List.not_mem_nil, or_false] at hauthz
    rcases hauthz with rfl | rfl | rfl
    · have hvalue : validChallengeValue "a" = true := by decide
      exact ⟨.head _, hown, hvalue⟩
    · have hvalue : validChallengeValue "b" = true := by decide
      exact ⟨hwildcard, hown, hvalue⟩
    · have hvalue : validChallengeValue "c" = true := by decide
      exact ⟨.tail _ (.tail _ (.head _)), hservice, hvalue⟩
  constructor
  case registered => exact laptop_registered
  case plain => exact laptop_plain
  case certified => exact laptop_names
  case bounded => decide
  case nodup =>
    change ["laptop.alice.mesh.example.com", "*.laptop.alice.mesh.example.com",
      "wiki.alice.mesh.example.com"].Nodup
    decide
  case ordered => exact fun authz hauthz => (hall authz hauthz).1
  case status => exact fun authz hauthz => (hall authz hauthz).2.1
  case values => exact fun authz hauthz => (hall authz hauthz).2.2
  case fresh => exact ⟨rfl, rfl⟩

theorem order_completes_iff_laptop :
    Completes laptopNames (laptopSite .pending .valid).pending
        ((laptopSite .pending .valid).run laptopNames).2.log ↔
      (laptopSite .pending .valid).pending = [] ∨
        ∃ authz ∈ (laptopSite .pending .valid).pending,
          authz.identifier = laptopNames.device ∨ authz.identifier = laptopNames.wildcard :=
  order_completes_iff _ laptop _ (laptop_ordered .pending .valid (.inl rfl) (.inr rfl))

/-- The CA asks for the service alone. -/
theorem service_alone_incomplete :
    Ordered (laptopSite .valid .pending) laptop laptopNames ∧
      ¬ Completes laptopNames (laptopSite .valid .pending).pending
        ((laptopSite .valid .pending).run laptopNames).2.log := by
  have hordered := laptop_ordered .valid .pending (.inr rfl) (.inl rfl)
  have hpending : (laptopSite .valid .pending).pending =
      [⟨"wiki.alice.mesh.example.com", .pending, "c"⟩] := rfl
  refine ⟨hordered, hordered.incomplete ?_ ?_⟩
  · rw [hpending]
    exact List.cons_ne_nil _ _
  · rw [hpending]
    decide

end

end UnityLan.Engine.Cert
