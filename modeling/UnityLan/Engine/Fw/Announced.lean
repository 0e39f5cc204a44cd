import UnityLan.Engine.Fw.Firewall

namespace UnityLan.Engine.Fw

open UnityLan.Foundation

/-! The services that a device announces to a peer, and what the peer takes of them. -/

structure MeshService where
  name : String
  proto : Proto
  port : Port
  kind : ServiceKind
  deriving DecidableEq

def Exposed.serviceFor (peers : PeerSets) (peer : Ipv4Addr) (e : Exposed) : Option MeshService :=
  e.name.bind fun name =>
    if peers.admits e.scope peer then some ⟨name, e.proto, e.port, e.kind⟩ else none

def pushService (out : List MeshService) (service : MeshService) : List MeshService :=
  if out.contains service then out else out ++ [service]

namespace Firewall

def admitted (fw : Firewall) (peer : Ipv4Addr) : List MeshService :=
  fw.exposed.filterMap (Exposed.serviceFor fw.peers peer)

/-- What is announced to a peer; `none` where the lock is poisoned. -/
def servicesFor (fw : Firewall) (peer : Ipv4Addr) : Option (List MeshService) :=
  if fw.poisoned then none
  else some (((fw.admitted peer).foldl pushService []).take MAX_SERVICES_PER_DEVICE)

end Firewall

/-! The exchange with a peer over the tunnel. -/

inductive PeerAddr
  | v4 (ip : Ipv4Addr)
  | v6
  deriving DecidableEq

/-- A handle to the firewall, once there is one. -/
abbrev OwnServices := Option Firewall

def OwnServices.visibleTo (services : OwnServices) (peer : PeerAddr) : Option (List MeshService) :=
  match peer with
  | .v6 => some []
  | .v4 ip =>
      match services with
      | none => some []
      | some fw => fw.servicesFor ip

inductive ReqBody
  | getAttestations
  | getServices
  | unknown

structure P2pRequest where
  proto : Nat
  body : ReqBody

inductive RespBody
  | attestations (attestations : List GuildAttestation)
  | services (services : List MeshService)
  | unsupported
  | unknown

/-- What is answered to a request; `none` where nothing is sent. -/
def answerPeer (own : List GuildAttestation) (services : OwnServices) (sender : PeerAddr)
    (req : P2pRequest) : Option RespBody :=
  if req.proto ≠ 0 ∧ ¬ (MIN_PROTOCOL_VERSION ≤ req.proto ∧ req.proto ≤ PROTOCOL_VERSION) then
    some .unsupported
  else
    match req.body with
    | .getAttestations => some (.attestations own)
    | .getServices => (services.visibleTo sender).map .services
    | .unknown => some .unsupported

/-- What a peer takes of an answer; `none` where the pull fails. -/
def pullServices (resp : Option RespBody) : Option (List MeshService) :=
  match resp with
  | some (.services services) =>
      some ((services.filter fun service => validLabel service.name).take MAX_SERVICES_PER_DEVICE)
  | some .unsupported => some []
  | _ => none

/-- The services of a device that the peer with an address learns of. -/
def obtained (own : List GuildAttestation) (fw : Firewall) (peer : Ipv4Addr) : List MeshService :=
  (pullServices
    (answerPeer own (some fw) (.v4 peer) ⟨PROTOCOL_VERSION, .getServices⟩)).getD []

/-- Some exposure carries the service, and its scope admits the peer. -/
def Firewall.Serves (fw : Firewall) (peer : Ipv4Addr) (service : MeshService) : Prop :=
  ∃ e ∈ fw.exposed, e.name = some service.name ∧ e.proto = service.proto ∧
    e.port = service.port ∧ e.kind = service.kind ∧ fw.peers.admits e.scope peer = true

theorem Firewall.mem_admitted {fw : Firewall} {peer : Ipv4Addr} {service : MeshService} :
    service ∈ fw.admitted peer ↔ fw.Serves peer service := by
  unfold admitted Serves
  rw [List.mem_filterMap]
  apply exists_congr
  intro e
  apply and_congr_right
  intro _
  unfold Exposed.serviceFor
  rw [Option.bind_eq_some_iff]
  constructor
  · rintro ⟨name, hname, hservice⟩
    split at hservice
    · rename_i hadmits
      cases hservice
      exact ⟨hname, rfl, rfl, rfl, hadmits⟩
    · cases hservice
  · rintro ⟨hname, hproto, hport, hkind, hadmits⟩
    refine ⟨service.name, hname, ?_⟩
    rw [if_pos hadmits, hproto, hport, hkind]

section

variable {services out : List MeshService}

theorem mem_pushServices {service : MeshService} :
    service ∈ services.foldl pushService out ↔ service ∈ out ∨ service ∈ services := by
  induction services generalizing out with
  | nil => simp
  | cons head rest ih =>
      rw [List.foldl_cons, ih]
      unfold pushService
      split
      · rename_i hheld
        rw [List.contains_iff_mem] at hheld
        rw [List.mem_cons]
        constructor
        · rintro (hout | hrest)
          · exact .inl hout
          · exact .inr (.inr hrest)
        · rintro (hout | rfl | hrest)
          · exact .inl hout
          · exact .inl hheld
          · exact .inr hrest
      · simp only [List.mem_append, List.mem_cons, List.not_mem_nil, or_false, or_assoc]

theorem nodup_pushServices (hout : out.Nodup) : (services.foldl pushService out).Nodup := by
  induction services generalizing out with
  | nil => exact hout
  | cons head rest ih =>
      apply ih
      unfold pushService
      split
      · exact hout
      · rename_i hnew
        rw [List.contains_iff_mem] at hnew
        rw [List.nodup_append]
        refine ⟨hout, List.nodup_singleton head, fun a ha b hb => ?_⟩
        rw [List.mem_singleton.mp hb]
        rintro rfl
        exact hnew ha

theorem length_pushServices :
    (services.foldl pushService []).length = services.dedup.length := by
  apply List.Perm.length_eq
  rw [List.perm_ext_iff_of_nodup (nodup_pushServices List.nodup_nil) services.nodup_dedup]
  intro service
  rw [mem_pushServices, List.mem_dedup]
  simp

end

/-! Every exposure has a name that a peer takes. -/

def Named (exposed : List Exposed) : Prop :=
  ∀ e ∈ exposed, ∃ name, e.name = some name ∧ validLabel name = true

section

variable {exposed : List Exposed} {name : String} {new : Exposed}

theorem Named.filter (hnamed : Named exposed) (keeps : Exposed → Bool) :
    Named (exposed.filter keeps) :=
  fun e he => hnamed e (List.mem_of_mem_filter he)

theorem Named.put (hnamed : Named exposed) (hnew : new.name = some name)
    (hvalid : validLabel name = true) : Named (put new exposed) := by
  induction exposed with
  | nil =>
      intro e he
      rw [List.mem_singleton.mp he]
      exact ⟨name, hnew, hvalid⟩
  | cons head rest ih =>
      have hrest : Named rest := fun e he => hnamed e (List.mem_cons_of_mem _ he)
      unfold Fw.put
      split
      · intro e he
        rcases List.mem_cons.mp he with rfl | he
        · rw [hnew]
          exact ⟨name, rfl, hvalid⟩
        · exact hrest e he
      · intro e he
        rcases List.mem_cons.mp he with rfl | he
        · exact hnamed e (List.mem_cons_self ..)
        · exact ih hrest e he

theorem Named.widen (hnamed : Named exposed) (scope : ExposeScope) :
    Named (widen name scope exposed).2 := by
  unfold Fw.widen
  suffices h : ∀ (targets : List Exposed) (widened : Nat × List Exposed),
      (∀ e ∈ targets, validLabel name = true) → Named widened.2 →
      Named (targets.foldl (widenOne name scope) widened).2 from by
    apply h _ (0, exposed) _ hnamed
    intro e he
    obtain ⟨hmem, hname⟩ := List.mem_filter.mp he
    obtain ⟨held, hheld, hvalid⟩ := hnamed e hmem
    rw [beq_iff_eq, hheld, Option.some.injEq] at hname
    exact hname ▸ hvalid
  intro targets
  induction targets with
  | nil => exact fun _ _ hkept => hkept
  | cons target targets ih =>
      intro widened hvalid hkept
      apply ih _ fun e he => hvalid e (List.mem_cons_of_mem _ he)
      unfold widenOne
      split
      · exact hkept
      · intro e he
        rcases List.mem_append.mp he with he | he
        · exact hkept e he
        · rw [List.mem_singleton.mp he]
          exact ⟨name, rfl, hvalid target (List.mem_cons_self ..)⟩

end

def PutsNamed : FirewallOp → Prop
  | .put new => ∃ name, new.name = some name ∧ validLabel name = true
  | _ => True

section

variable {o : FirewallOp} {faults : Faults} {fw fw' : Firewall} {answer : Except Stop o.Answer}

theorem Named.exec (hnamed : Named fw.exposed) (hputs : PutsNamed o)
    (hexec : fw.exec faults o = (answer, fw')) : Named fw'.exposed := by
  cases o with
  | put new =>
      obtain ⟨name, hnew, hvalid⟩ := hputs
      rcases Firewall.underLock_cases hexec with ⟨_, rfl⟩ | ⟨_, _, rfl⟩
      · exact hnamed
      · exact hnamed.put hnew hvalid
  | close proto port scope =>
      rcases Firewall.underLock_cases hexec with ⟨_, rfl⟩ | ⟨_, _, rfl⟩
      · exact hnamed
      · exact hnamed.filter _
  | widen name scope =>
      rcases Firewall.underLock_cases hexec with ⟨_, rfl⟩ | ⟨_, _, rfl⟩
      · exact hnamed
      · exact hnamed.widen scope
  | closeNamed name =>
      rcases Firewall.underLock_cases hexec with ⟨_, rfl⟩ | ⟨_, _, rfl⟩
      · exact hnamed
      · exact hnamed.filter _
  | read input =>
      cases input with
      | exposures => exact underLock_quiet hexec ▸ hnamed
      | peers =>
          cases hexec
          exact hnamed
      | mesh =>
          cases hexec
          exact hnamed
  | write exposed =>
      cases hexec
      exact hnamed
  | apply ruleset =>
      obtain ⟨write, apply⟩ := faults
      cases apply <;> cases hexec <;> exact hnamed
  | distinct name => exact underLock_quiet hexec ▸ hnamed
  | count => exact underLock_quiet hexec ▸ hnamed
  | list => exact underLock_quiet hexec ▸ hnamed
  | removed before =>
      by_cases hgrown : before < fw.exposed.length
      · cases (if_pos hgrown).symm.trans hexec
        exact hnamed
      · exact underLock_quiet ((if_neg hgrown).symm.trans hexec) ▸ hnamed
  | samePeers peers =>
      cases hexec
      exact hnamed
  | putPeers peers =>
      cases hexec
      exact hnamed
  | replaceMesh addr =>
      cases hexec
      exact hnamed

theorem uses_program (call : FirewallCall) : call.program.Uses PutsNamed := by
  refine call.asks_program.mono fun o hasks => ?_
  cases o with
  | put new =>
      obtain ⟨proto, port, scope, name, kind, _, rfl, hvalid⟩ := hasks
      exact ⟨_, rfl, hvalid⟩
  | _ => trivial

end

/-! The announcement and the scopes agree. -/

/-- Nothing is recorded of a run. -/
def unobserved : firewall.Observer Unit where
  see := fun _ _ _ _ => ()

def naming : Machine.Discipline firewall unobserved Machine.free Unit where
  mon :=
    { allows := fun _ => PutsNamed
      expects := fun _ _ _ => True
      next := fun _ _ _ => () }
  opening := fun _ _ _ => ()
  post := fun _ _ _ => True
  inv := fun _ fw _ => Named fw.exposed
  conforms := fun _ _ call => (uses_program call).allowed fun _ _ hputs => hputs
  called := fun hnamed _ _ => hnamed
  did := by
    intro _ fw views task call μ o faults answer fw' hnamed _ hputs hexec _
    exact ⟨trivial, hnamed.exec hputs (Option.some.inj hexec)⟩
  ended := fun hnamed _ _ _ => hnamed
  dropped := fun hnamed _ _ => hnamed
  moved := fun {_ _ _ world} => world.elim

theorem named_of_reach {c : firewall.Config}
    (hreach : Machine.Reach unobserved Machine.free (Machine.idle firewall {}) () c ()) :
    Named c.shared.exposed := by
  obtain ⟨views, _, hnamed⟩ := Machine.Discipline.run naming
    (fun _ he => absurd he List.not_mem_nil) hreach
  exact hnamed

/-- There is room in an announcement for all that a peer may reach. -/
def Firewall.Announceable (fw : Firewall) (peer : Ipv4Addr) : Prop :=
  if fw.poisoned then fw.admitted peer = []
  else (fw.admitted peer).dedup.length ≤ MAX_SERVICES_PER_DEVICE

section

variable {own : List GuildAttestation} {fw : Firewall} {peer : Ipv4Addr}

theorem obtained_poisoned (hpoisoned : fw.poisoned = true) : obtained own fw peer = [] := by
  have hnone : fw.servicesFor peer = none := by
    unfold Firewall.servicesFor
    rw [if_pos hpoisoned]
  unfold obtained answerPeer OwnServices.visibleTo
  rw [if_neg (by decide)]
  dsimp only
  rw [hnone]
  rfl

theorem obtained_sound (hnamed : Named fw.exposed) (hsound : fw.poisoned = false) :
    obtained own fw peer =
      ((fw.admitted peer).foldl pushService []).take MAX_SERVICES_PER_DEVICE := by
  have hsome : fw.servicesFor peer =
      some (((fw.admitted peer).foldl pushService []).take MAX_SERVICES_PER_DEVICE) := by
    unfold Firewall.servicesFor
    rw [if_neg (by simp [hsound])]
  have hvalid : ∀ service ∈ ((fw.admitted peer).foldl pushService []).take
      MAX_SERVICES_PER_DEVICE, validLabel service.name = true := by
    intro service hservice
    have hadmitted := mem_pushServices.mp (List.mem_of_mem_take hservice)
    obtain ⟨e, he, hname, _⟩ :=
      Firewall.mem_admitted.mp (hadmitted.resolve_left List.not_mem_nil)
    obtain ⟨name, hheld, hvalid⟩ := hnamed e he
    rw [hname, Option.some.injEq] at hheld
    exact hheld ▸ hvalid
  unfold obtained answerPeer OwnServices.visibleTo
  rw [if_neg (by decide)]
  dsimp only
  rw [hsome]
  unfold pullServices
  dsimp only [Option.map_some]
  rw [List.filter_eq_self.mpr hvalid, List.take_take, Nat.min_self]
  rfl

theorem obtained_serves (hnamed : Named fw.exposed) {service : MeshService}
    (hobtained : service ∈ obtained own fw peer) : fw.Serves peer service := by
  cases hpoisoned : fw.poisoned with
  | true =>
      rw [obtained_poisoned hpoisoned] at hobtained
      cases hobtained
  | false =>
      rw [obtained_sound hnamed hpoisoned] at hobtained
      have hadmitted := mem_pushServices.mp (List.mem_of_mem_take hobtained)
      exact Firewall.mem_admitted.mp (hadmitted.resolve_left List.not_mem_nil)

theorem serves_obtained_iff (hnamed : Named fw.exposed) :
    (∀ service, fw.Serves peer service → service ∈ obtained own fw peer) ↔
      fw.Announceable peer := by
  unfold Firewall.Announceable
  cases hpoisoned : fw.poisoned with
  | true =>
      rw [if_pos rfl, obtained_poisoned hpoisoned, List.eq_nil_iff_forall_not_mem]
      apply forall_congr'
      intro service
      rw [← Firewall.mem_admitted]
      exact imp_congr_right fun _ => by simp
  | false =>
      rw [if_neg Bool.false_ne_true, obtained_sound hnamed hpoisoned, ← length_pushServices]
      constructor
      · intro hall
        -- What is cut off would be admitted and not among what is left.
        have hsubset : ∀ service ∈ (fw.admitted peer).foldl pushService [],
            service ∈ ((fw.admitted peer).foldl pushService []).take
              MAX_SERVICES_PER_DEVICE := by
          intro service hservice
          apply hall
          have hadmitted := mem_pushServices.mp hservice
          exact Firewall.mem_admitted.mp (hadmitted.resolve_left List.not_mem_nil)
        have hlength :=
          ((nodup_pushServices List.nodup_nil).subperm hsubset).length_le
        exact Nat.le_trans hlength (List.length_take_le ..)
      · intro hfew service hserves
        rw [List.take_of_length_le hfew]
        exact mem_pushServices.mpr (.inr (Firewall.mem_admitted.mpr hserves))

end

def gamePorts (count : Nat) : List firewall.Label :=
  (List.range count).flatMap fun number =>
    .call (.expose .udp (BitVec.ofNat 16 (27000 + number)) .allPeers (some "game") .port) ::
      List.replicate 10 (.step number {})

def outgrows (c : firewall.Config) (_ : Unit) : Bool :=
  !c.shared.poisoned && decide (MAX_SERVICES_PER_DEVICE < (c.shared.admitted 9).dedup.length)

end UnityLan.Engine.Fw
