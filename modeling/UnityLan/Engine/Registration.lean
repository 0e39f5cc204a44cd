import UnityLan.Coordinator.Services
import UnityLan.Engine.Fw.Exposure
import UnityLan.Engine.Order
import UnityLan.Engine.Pacing
import UnityLan.Foundation.Eval

namespace UnityLan.Engine.Cert

open UnityLan.Foundation Prog Coordinator

/-! The web services of a device, from its exposures to the labels that the coordinator
holds for it and the names of its certificate. -/

structure Serving where
  stateDir : String
  cfg : CertConfig
  hostname : String
  primaryAlias : Option String
  dnsDomain : Option String
  certsEnabled : Bool
  /-- What the firewall lists; `none` without one. -/
  exposed : Option (List Fw.Exposed)

def webServiceLabels (exposed : List Fw.Exposed) : List String :=
  let named := (exposed.filter fun e => e.kind = .web).filterMap Fw.Exposed.name
  (named.insertionSort fun first second => first ≤ second).dedup.take MAX_WEB_SERVICES_PER_DEVICE

/-- `spawn_cert_reconcile`, up to the task it starts; none starts while another one runs. -/
def Serving.request (serving : Serving) : Option Request :=
  if serving.dnsDomain.isNone && !serving.certsEnabled then none
  else some {
    stateDir := serving.stateDir
    cfg := serving.cfg
    hostname := serving.hostname
    primaryAlias := serving.primaryAlias
    dnsDomain := serving.dnsDomain
    enabled := serving.certsEnabled
    exposed := serving.exposed.any fun exposed => !exposed.isEmpty
    web := (serving.exposed.map webServiceLabels).getD [] }

/-! A reconcile with the coordinator and the CA around it. -/

structure Owner where
  db : Database
  certs : Certs
  token : Option String
  /-- How the registration call of the reconcile ended. -/
  registration : Option (Except String (List String)) := none
  /-- The names that the reconcile ordered certificates for. -/
  orders : List (List String) := []

structure Turn where
  disk : CertChoice := {}
  /-- The call does not come back, and whether the coordinator has served it. -/
  lost : Option (String × Bool) := none

def rowsExec : (o : (sig.sum zoneSig).Op) → Unit → Database →
    Option ((sig.sum zoneSig).Res o × Database)
  | .inl (.store q), _, db =>
      match db.run q with
      | .ok (answer, db') => some (.ok answer, db')
      | .error error => some (.error error, db)
  | _, _, _ => none

def serve (conf : Conf) (db : Database) (token : String) (web : List String) :
    Except String (List String) × Database :=
  match (registerServices conf ⟨token, web⟩).play rowsExec [(), ()] db with
  | some (.ok resp, db') => (.ok resp.registered, db')
  | some (.error error, db') => (.error error.message, db')
  | none => (.error "sending /services", db)

namespace Owner

variable (conf : Conf)

def exec : (o : CertOp) → Turn → Owner → Option (o.Answer × Owner)
  | .token, _, s => some (s.token, s)
  | .register token web, turn, s =>
      let (answer, db) := serve conf s.db token web
      match turn.lost with
      | none => some (answer, { s with db := db, registration := some answer })
      | some (why, served) =>
          some (.error why, { s with
            db := if served then db else s.db
            registration := some (.error why) })
  | .setStatus _, _, s => some ((), s)
  | .newOrder names, turn, s =>
      (s.certs.exec turn.disk (.newOrder names)).map fun done =>
        (done.1, { s with certs := done.2, orders := s.orders ++ [names] })
  | o, turn, s =>
      (s.certs.exec turn.disk o).map fun done => (done.1, { s with certs := done.2 })

end Owner

/-! What the coordinator does with the call. -/

section

variable {conf : Conf} {db db' : Database} {token : String} {web labels : List String}
  {user : UserId} {pubkey : PubKey}

theorem rows_ask {α : Type} {q : Query} {answer : q.Res} (hanswer : db.run q = .ok (answer, db'))
    (f : q.Res → ZoneHandler α) (choices : List Unit) :
    (Coordinator.ask q >>= f).play rowsExec (() :: choices) db =
      (f answer).play rowsExec choices db' := by
  simp only [Coordinator.ask, sql, performOr, mapError, left, op_bind, play, rowsExec, hanswer]
  rfl

theorem registerServices_plays (conf : Conf) (web : List String)
    (howner : db.run (.deviceByToken token) = .ok (some (user, pubkey), db)) :
    (∃ error, (registerServices conf ⟨token, web⟩).play rowsExec [(), ()] db =
      some (.error error, db)) ∨
    ∃ sorted replaced, db.ServicesReplaced user pubkey web sorted replaced ∧
      (registerServices conf ⟨token, web⟩).play rowsExec [(), ()] db =
        some (.ok ⟨sorted.1, sorted.2⟩, replaced) := by
  obtain ⟨sorted, replaced, hrun, hreplaced⟩ :=
    Database.services_replaced db user pubkey web
  unfold registerServices
  split
  · exact .inl ⟨_, rfl⟩
  · split
    · exact .inl ⟨_, rfl⟩
    · refine .inr ⟨sorted, replaced, hreplaced, ?_⟩
      rw [rows_ask howner]
      dsimp only
      rw [rows_ask hrun]
      rfl

theorem serve_ok (howner : db.run (.deviceByToken token) = .ok (some (user, pubkey), db))
    (hserve : serve conf db token web = (.ok labels, db')) :
    ∃ sorted, db.ServicesReplaced user pubkey web sorted db' ∧ labels = sorted.1 := by
  unfold serve at hserve
  rcases registerServices_plays conf web howner with
    ⟨error, hplay⟩ | ⟨sorted, replaced, hreplaced, hplay⟩
  · rw [hplay] at hserve
    cases hserve
  · rw [hplay] at hserve
    cases hserve
    exact ⟨sorted, hreplaced, rfl⟩

end

/-! What the rest of the reconcile orders. -/

/-- An operation of a reconcile; a certificate is ordered for the wanted names. -/
def ReconcileOp (r : Reconcile) : CertOp → Prop
  | .token | .register _ _ | .setStatus _ => False
  | .newOrder ordered => ∃ names, r.wanted = some names ∧ ordered = names.all
  | _ => True

section

variable {conf : Conf} {r : Reconcile} {s s' : Owner} {names : CertNames} {ε α : Type}

theorem uses_must {inside : CertOp → Prop} {o : CertOp} {read : o.Answer → Except String α}
    (ho : inside o) : (must o read).Uses inside := by
  refine ⟨ho, fun answer => ?_⟩
  dsimp only
  cases read answer <;> trivial

theorem uses_ask_bind {inside : CertOp → Prop} {o : CertOp} {next : o.Answer → CertM ε α}
    (ho : inside o) (hnext : ∀ answer, (next answer).Uses inside) :
    (ask o >>= next).Uses inside := ⟨ho, hnext⟩

theorem uses_context {inside : CertOp → Prop} {context : String} {program : CertM String α}
    (hprogram : program.Uses inside) : (withContext context program).Uses inside :=
  hprogram.mapError _

theorem account_uses (cfg : CertConfig) : (account cfg).Uses (ReconcileOp r) := by
  unfold account
  refine ⟨trivial, fun saved => ?_⟩
  match saved with
  | some none => trivial
  | some (some credentials) => exact uses_context (uses_must trivial)
  | none =>
      refine (uses_context (uses_must trivial)).bind fun credentials => ?_
      exact uses_context (uses_must trivial)

theorem finalize_uses : finalize.Uses (ReconcileOp r) := by
  unfold finalize
  refine (uses_context (uses_must trivial)).bind fun leaf => ?_
  split
  · trivial
  · refine (uses_context (uses_must trivial)).bind fun _ => ?_
    exact (uses_context (uses_must trivial)).bind fun _ => trivial

theorem fulfil_uses (token : String) : (fulfil token).Uses (ReconcileOp r) := by
  unfold fulfil
  refine Uses.bind (uses_must trivial) fun pending => ?_
  cases pending with
  | false => exact finalize_uses
  | true =>
      refine (uses_context (uses_must trivial)).bind fun _ => ?_
      exact (uses_must trivial).bind fun _ => finalize_uses

theorem issue_uses (cfg : CertConfig) (token : String) (hwanted : r.wanted = some names) :
    (issue cfg token names).Uses (ReconcileOp r) := by
  unfold issue
  refine (account_uses cfg).bind fun _ => ?_
  refine (uses_context (uses_must ⟨names, hwanted, rfl⟩)).bind fun _ => ?_
  refine (fulfil_uses token).attempt.bind fun done => ?_
  cases done <;> exact ⟨trivial, fun _ => trivial⟩

theorem attempting_uses {state : IssuedState} {status : CertStatus}
    (hwanted : r.wanted = some names) :
    (attempting r state status names).Uses (ReconcileOp r) := by
  unfold attempting
  refine (issue_uses r.cfg r.token hwanted).attempt.bind fun done => ?_
  cases done with
  | ok expiresAt => exact ⟨trivial, fun _ => trivial⟩
  | error error => exact ⟨trivial, fun now => ⟨trivial, fun _ => trivial⟩⟩

theorem deciding_uses {state : IssuedState} {status : CertStatus} :
    (deciding r state status).Uses (ReconcileOp r) := by
  unfold deciding
  refine uses_ask_bind trivial fun now => ?_
  cases hdecide : decide r state now with
  | idle why => trivial
  | issue names => exact attempting_uses (decide_issue hdecide).1

theorem judging_uses {state : IssuedState} {status : CertStatus} :
    (judging r state status).Uses (ReconcileOp r) := by
  unfold judging
  refine uses_ask_bind trivial fun now => ?_
  generalize notePending r state now = noted
  obtain ⟨moved, state'⟩ := noted
  cases moved with
  | false => exact deciding_uses
  | true => exact ⟨trivial, fun _ => deciding_uses⟩

theorem reconcile_uses : (reconcile r).Uses (ReconcileOp r) := by
  rw [reconcile_eq]
  refine uses_ask_bind trivial fun state => ?_
  cases state.names with
  | none => exact judging_uses
  | some names => exact ⟨trivial, fun now => judging_uses⟩

structure Reconciled (r : Reconcile) (s s' : Owner) : Prop where
  db : s'.db = s.db
  registration : s'.registration = s.registration
  orders : ∀ ordered ∈ s'.orders, ordered ∈ s.orders ∨
    ∃ names, r.wanted = some names ∧ ordered = names.all

theorem Reconciled.trans {s'' : Owner} (hfirst : Reconciled r s s')
    (hsecond : Reconciled r s' s'') : Reconciled r s s'' := by
  refine ⟨hsecond.db.trans hfirst.db, hsecond.registration.trans hfirst.registration, ?_⟩
  intro ordered hordered
  rcases hsecond.orders ordered hordered with hbefore | hwanted
  · exact hfirst.orders ordered hbefore
  · exact .inr hwanted

theorem exec_reconciled {o : CertOp} {turn : Turn} {answer : o.Answer} (ho : ReconcileOp r o)
    (hexec : Owner.exec conf o turn s = some (answer, s')) : Reconciled r s s' := by
  cases o with
  | token => exact ho.elim
  | register token web => exact ho.elim
  | setStatus status => exact ho.elim
  | newOrder ordered =>
      simp only [Owner.exec, Option.map_eq_some_iff] at hexec
      obtain ⟨done, -, hdone⟩ := hexec
      cases hdone
      refine ⟨rfl, rfl, fun names hnames => ?_⟩
      rcases List.mem_append.mp hnames with hbefore | hnew
      · exact .inl hbefore
      · rw [List.mem_singleton] at hnew
        exact .inr (hnew ▸ ho)
  | _ =>
      simp only [Owner.exec, Option.map_eq_some_iff] at hexec
      obtain ⟨done, -, hdone⟩ := hexec
      cases hdone
      exact ⟨rfl, rfl, fun names hnames => .inl hnames⟩

theorem reconcile_reconciled {result : Except Empty CertStatus}
    (heval : Eval (Owner.exec conf) (reconcile r) s result s') : Reconciled r s s' :=
  reconcile_uses.eval (Reconciled r) (fun _ => ⟨rfl, rfl, fun _ h => .inl h⟩)
    (fun _ _ _ => Reconciled.trans) (fun _ _ _ _ _ => exec_reconciled) heval

end

/-! The pass. -/

def Request.reconcile (request : Request) (token : String) (services : List String) :
    Reconcile where
  stateDir := request.stateDir
  token := token
  cfg := request.cfg
  hostname := request.hostname
  primaryAlias := request.primaryAlias
  dnsDomain := request.dnsDomain
  enabled := request.enabled
  exposed := request.exposed
  services := services

section

variable {conf : Conf} {request : Request} {s s' : Owner} {token : String}
  {result : Except Empty Unit}

def finish (request : Request) (token : String) (services : List String) : CertM Empty Unit := do
  let report ← Cert.reconcile (request.reconcile token services)
  ask (.setStatus report)

theorem finish_reconciled {services : List String}
    (heval : Eval (Owner.exec conf) (finish request token services) s result s') :
    Reconciled (request.reconcile token services) s s' := by
  rcases eval_bind heval with ⟨report, t, hreconcile, hstatus⟩ | ⟨error, hreconcile, -⟩
  · have hdone := reconcile_reconciled hreconcile
    cases hstatus with
    | op hexec hrest =>
        cases hexec
        cases hrest
        exact hdone
  · exact reconcile_reconciled hreconcile

def confirmed : Except String (List String) → List String
  | .ok registered => registered
  | .error _ => []

theorem spawned_serving (hweb : request.web ≠ []) :
    spawned request = (do
      match ← ask .token with
      | none => return ()
      | some token => do
          let answer ← ask (.register token request.web)
          finish request token (confirmed answer)) := by
  have hserves : request.web.isEmpty = false := by simpa using hweb
  unfold spawned
  refine congrArg (Prog.op (S := CertSig) CertOp.token) (funext fun token => ?_)
  cases token with
  | none => rfl
  | some token =>
      rw [hserves]
      refine congrArg (Prog.op (S := CertSig) (.register token request.web))
        (funext fun answer => ?_)
      cases answer <;> rfl

theorem spawned_registers (htoken : s.token = some token) (hweb : request.web ≠ [])
    (heval : Eval (Owner.exec conf) (spawned request) s result s') :
    ∃ turn answer t, Owner.exec conf (.register token request.web) turn s = some (answer, t) ∧
      Eval (Owner.exec conf) (finish request token (confirmed answer)) t result s' := by
  rw [spawned_serving hweb] at heval
  cases heval with
  | op hexec hrest =>
      cases hexec
      rw [htoken] at hrest
      cases hrest with
      | op hregister hfinish => exact ⟨_, _, _, hregister, hfinish⟩

end

/-- What the coordinator holds for a device is what it serves, as far as it may be held; the
other devices keep what they had. -/
structure LabelsFollow (db db' : Database) (user : UserId) (pubkey : PubKey)
    (web labels : List String) : Prop where
  usable : ∀ label, label ∈ labels ↔ label ∈ web ∧ db.Usable user pubkey label
  held : ∀ label, label ∈ db'.servedBy user pubkey ↔ label ∈ labels
  siblings : ∀ owner label device, owner ≠ user ∨ device ≠ pubkey →
    (db'.deviceServices.get? (owner, label) = some device ↔
      db.deviceServices.get? (owner, label) = some device)

section

variable {conf : Conf} {serving : Serving} {request : Request} {exposed : List Fw.Exposed}
  {s s' : Owner} {token : String} {user : UserId} {pubkey : PubKey} {result : Except Empty Unit}

theorem request_web (hrequest : serving.request = some request)
    (hexposed : serving.exposed = some exposed) : request.web = webServiceLabels exposed := by
  unfold Serving.request at hrequest
  split at hrequest
  · cases hrequest
  · cases hrequest
    rw [hexposed]
    rfl

theorem replaced_follow {db db' : Database} {web : List String}
    {sorted : List String × List RefusedService}
    (hreplaced : db.ServicesReplaced user pubkey web sorted db')
    (hroom : web.length ≤ MAX_WEB_SERVICES_PER_DEVICE) :
    LabelsFollow db db' user pubkey web sorted.1 := by
  refine ⟨fun label => ?_, hreplaced.serves, hreplaced.others⟩
  rw [hreplaced.sorts.registered,
    List.take_of_length_le ((List.length_filter_le ..).trans hroom), List.mem_filter,
    decide_eq_true_iff]

/-- After a reconcile of a device that serves something, the coordinator holds for it the web
services that it may have and its certificates are for these; a registration that fails leaves
its services out of the certificates of that round. -/
theorem labels_follow_services (hrequest : serving.request = some request)
    (hexposed : serving.exposed = some exposed) (hweb : webServiceLabels exposed ≠ [])
    (htoken : s.token = some token)
    (howner : s.db.run (.deviceByToken token) = .ok (some (user, pubkey), s.db))
    (horders : s.orders = [])
    (heval : Eval (Owner.exec conf) (spawned request) s result s') :
    (∃ labels, s'.registration = some (.ok labels) ∧
      LabelsFollow s.db s'.db user pubkey (webServiceLabels exposed) labels ∧
      ∀ ordered ∈ s'.orders, ∃ names,
        (request.reconcile token labels).wanted = some names ∧ ordered = names.all) ∨
    ∃ why, s'.registration = some (.error why) ∧
      ∀ ordered ∈ s'.orders, ∃ names,
        (request.reconcile token []).wanted = some names ∧ ordered = names.all := by
  have hlabels := request_web hrequest hexposed
  obtain ⟨turn, answer, t, hregister, hfinish⟩ :=
    spawned_registers htoken (by rw [hlabels]; exact hweb) heval
  have hdone := finish_reconciled hfinish
  have hasked : t.orders = [] → ∀ ordered ∈ s'.orders, ∃ names,
      (request.reconcile token (confirmed answer)).wanted = some names ∧
        ordered = names.all := by
    intro hnone ordered hordered
    rcases hdone.orders ordered hordered with hbefore | hwanted
    · rw [hnone] at hbefore
      cases hbefore
    · exact hwanted
  simp only [Owner.exec] at hregister
  split at hregister
  · cases hregister
    cases hanswer : (serve conf s.db token request.web).1 with
    | ok labels =>
        obtain ⟨sorted, hreplaced, rfl⟩ := serve_ok howner (Prod.ext hanswer rfl)
        refine .inl ⟨sorted.1, ?_, ?_, ?_⟩
        · rw [hdone.registration, hanswer]
        · rw [hdone.db, ← hlabels]
          refine replaced_follow hreplaced ?_
          rw [hlabels]
          exact List.length_take_le ..
        · rw [hanswer] at hasked
          exact hasked horders
    | error why =>
        refine .inr ⟨why, ?_, ?_⟩
        · rw [hdone.registration, hanswer]
        · rw [hanswer] at hasked
          exact hasked horders
  · rename_i why served _
    cases hregister
    exact .inr ⟨why, hdone.registration, hasked horders⟩

end

/-- A deployment that issues certificates. -/
def issuingConf : Conf :=
  { Conf.small with dnsDomain := some "mesh.example.com" }

/-- The only device of an owner serves a wiki, as far as the coordinator knows. -/
def wikiHeld : Owner where
  db :=
    { devices := ((∅ : UniqueTable PubKey DeviceRow DeviceRow.idx).insertNew 1
        ⟨0, 1, "pc", some "token", none, false⟩).getD ∅
      deviceServices := (∅ : Table _ _).insert (1, "wiki") 1 }
  certs := fresh .absent .absent
  token := some "token"

def serving (exposed : List Fw.Exposed) : Serving where
  stateDir := "/var/lib/unitylan"
  cfg := {}
  hostname := "pc.ann.unity.internal"
  primaryAlias := none
  dnsDomain := some "mesh.example.com"
  certsEnabled := true
  exposed := some exposed

def web (name : String) : Fw.Exposed where
  proto := .tcp
  port := 8080
  scope := .allPeers
  name := some name
  kind := .web

/-- A device is refused its own name as a label. -/
theorem own_name_unregistered :
    ¬ ∀ (conf : Conf) (serving : Serving) (request : Request) (exposed : List Fw.Exposed)
        (s s' : Owner) (token : String) (user : UserId) (pubkey : PubKey)
        (result : Except Empty Unit),
      serving.request = some request → serving.exposed = some exposed →
      serving.certsEnabled = true → s.token = some token →
      s.db.run (.deviceByToken token) = .ok (some (user, pubkey), s.db) →
      Eval (Owner.exec conf) (spawned request) s result s' →
      ∀ label, label ∈ s'.db.servedBy user pubkey ↔ label ∈ webServiceLabels exposed ∧
        ∀ device, s.db.deviceServices.get? (user, label) = some device → device = pubkey := by
  intro hclaim
  obtain ⟨request, hrequest⟩ : ∃ request, (serving [web "pc"]).request = some request :=
    ⟨_, rfl⟩
  have hplay : ((spawned request).play (Owner.exec issuingConf) (List.replicate 30 {})
      wikiHeld).any (fun last => !(last.2.db.servedBy 1 1).contains "pc") = true := by
    cases hrequest
    decide +kernel
  obtain ⟨⟨result, s'⟩, hlast, hrefused⟩ := (Option.any_eq_true _ _).mp hplay
  have hfollows := hclaim issuingConf (serving [web "pc"]) request [web "pc"] wikiHeld s' "token"
    1 1 result hrequest rfl rfl rfl rfl (eval_of_play hlast) "pc"
  have hheld : "pc" ∈ s'.db.servedBy 1 1 :=
    hfollows.mpr ⟨by decide, fun device hdevice =>
      (Option.some_ne_none device (hdevice.symm.trans rfl)).elim⟩
  have hnot : "pc" ∉ s'.db.servedBy 1 1 := by simpa using hrefused
  exact hnot hheld

/-- A device that turned its wiki into a blog. -/
theorem labels_follow_services_blog :
    ∃ request s' result, (serving [web "blog"]).request = some request ∧
      Eval (Owner.exec issuingConf) (spawned request) wikiHeld result s' ∧
      s'.db.servedBy 1 1 = ["blog"] ∧
      ((∃ labels, s'.registration = some (.ok labels) ∧
        LabelsFollow wikiHeld.db s'.db 1 1 (webServiceLabels [web "blog"]) labels ∧
        ∀ ordered ∈ s'.orders, ∃ names,
          (request.reconcile "token" labels).wanted = some names ∧ ordered = names.all) ∨
      ∃ why, s'.registration = some (.error why) ∧
        ∀ ordered ∈ s'.orders, ∃ names,
          (request.reconcile "token" []).wanted = some names ∧ ordered = names.all) := by
  obtain ⟨request, hrequest⟩ : ∃ request, (serving [web "blog"]).request = some request :=
    ⟨_, rfl⟩
  have hplay : ((spawned request).play (Owner.exec issuingConf) (List.replicate 30 {})
      wikiHeld).any (fun last => last.2.db.servedBy 1 1 == ["blog"]) = true := by
    cases hrequest
    decide +kernel
  obtain ⟨⟨result, s'⟩, hlast, hheld⟩ := (Option.any_eq_true _ _).mp hplay
  have heval := eval_of_play hlast
  exact ⟨request, s', result, hrequest, heval, beq_iff_eq.mp hheld,
    labels_follow_services hrequest rfl (by decide) rfl rfl rfl heval⟩

end UnityLan.Engine.Cert
