import UnityLan.Engine.Beacon

namespace UnityLan.Engine.Beacon

open UnityLan.Foundation Prog

/-! A device on its segment, with the members that are there and with anyone else who is. -/

inductive Author
  | engine
  /-- The holder of a key, to the engine. -/
  | holder (pk : PubKey)
  | anyone
  deriving DecidableEq

structure Sent where
  author : Author
  source : SocketAddr
  bytes : List Byte
  time : Nat

def Sent.carries (d : Sent) (kind : Byte) (nonce : Nonce) : Bool :=
  (decode d.bytes).any fun msg => msg.kinded.any fun k => k.kind == kind && k.nonce == nonce

def Sent.answers (d : Sent) (pk : PubKey) (nonce : Nonce) (port : BitVec 16) : Bool :=
  d.author == .holder pk && d.carries KIND_ACK nonce &&
    (decode d.bytes).any fun msg => msg.port == port

structure Segment where
  clock : Nat := 0
  /-- What was ever sent. -/
  network : List Sent := []
  /-- The nonces that the engine drew. -/
  drawn : List Nonce := []
  candidates : Table PubKey Candidate := ∅
  members : List PubKey := []
  acks : Table PubKey (SocketAddr × Nat) := ∅
  pending : Table PubKey (Nonce × SocketAddr × Nat) := ∅
  probes : List (PubKey × SocketAddr) := []
  probeBackoff : Table PubKey Nat := ∅
  states : Table PubKey LanState := ∅

structure Peer (X : Crypto) extends Identity X where
  source : SocketAddr

structure Setup where
  X : Crypto
  me : Identity X
  home : SocketAddr
  beaconPort : BitVec 16 := DEFAULT_PORT

def Setup.verifies (S : Setup) (msg : Msg) (k : Kinded) : Bool :=
  if k.kind = KIND_PROBE then S.X.verifyBeaconProbe S.me.key msg.pk k.nonce k.mac
  else S.X.verifyBeaconAck S.me.key msg.pk k.nonce k.mac

inductive Call
  | receive
  | probe
  | announce
  | select (now : Nat) (reachable : Table PubKey Bool)

structure Choice where
  index : Nat := 0
  nonce : Nonce := 0

inductive Move (X : Crypto)
  | passed (later : Nat)
  /-- Anyone sends anything, from any address. -/
  | sent (source : SocketAddr) (bytes : List Byte)
  /-- A member probes the engine. -/
  | probed (peer : Peer X) (nonce : Nonce)
  /-- A member takes in a datagram, and answers it. -/
  | answered (peer : Peer X) (index : Nat)

namespace Segment

variable (S : Setup) (s : Segment)

def send (author : Author) (source : SocketAddr) (bytes : List Byte) : Segment :=
  { s with network := s.network ++ [⟨author, source, bytes, s.clock⟩] }

def spoken (nonce : Nonce) : Bool :=
  s.network.any fun d => d.carries KIND_PROBE nonce || d.carries KIND_ACK nonce

def exec (choice : Choice) : (o : BeaconOp) → Option (o.Answer × Segment)
  -- What is longer than the buffer is cut off.
  | .recvFrom => (s.network[choice.index]?).map fun d => ((d.source, d.bytes.take 512), s)
  | .isMember pk => some (s.members.contains pk, s)
  | .instant => some (s.clock, s)
  | .place r => some ((), { s with candidates := s.candidates.insert r.msg.pk ⟨r.addr, r.now⟩ })
  | .matching r k =>
      let ok := (s.pending.get? r.msg.pk).any fun (nonce, _, sent) =>
        nonce == k.nonce && r.now - sent < PROBE_ACK_TTL
      some (ok, s)
  | .record r => some ((), { s with acks := s.acks.insert r.msg.pk (r.addr, r.now) })
  | .sendTo payload _ => some ((), s.send .engine S.home payload)
  | .nextProbe =>
      match s.probes with
      | [] => none
      | target :: rest => some (target, { s with probes := rest })
  -- 128 random bits are new.
  | .genBeaconNonce =>
      if s.drawn.contains choice.nonce || s.spoken choice.nonce then none
      else some (choice.nonce, { s with drawn := choice.nonce :: s.drawn })
  | .await pk nonce addr =>
      some ((), { s with pending := s.pending.insert pk (nonce, addr, s.clock) })
  | .publish members => some ((), { s with members := members })
  | .live now =>
      let live := s.candidates.retain fun _ cand => now - cand.seen < CAND_TTL
      some (live, { s with candidates := live })
  | .retainAcks now =>
      some ((), { s with acks := s.acks.retain fun _ ack => now - ack.2 < PROBE_ACK_TTL })
  | .retainPending now members =>
      some ((), { s with
        pending := s.pending.retain fun pk probe =>
          members.contains pk && now - probe.2.2 < CAND_TTL })
  | .retainStates members =>
      some ((), { s with
        states := s.states.retain fun pk _ => members.contains pk
        probeBackoff := s.probeBackoff.retain fun pk _ => members.contains pk })
  | .ackFresh pk addr now =>
      let fresh := (s.acks.get? pk).any fun ack => ack.1 == addr && now - ack.2 < PROBE_ACK_TTL
      some (fresh, s)
  | .sendProbe pk addr =>
      if s.probes.length < PROBE_QUEUE then some ((), { s with probes := s.probes ++ [(pk, addr)] })
      else some ((), s)
  | .state pk => some (s.states.get? pk, s)
  | .setState pk next =>
      match next with
      | some next => some ((), { s with states := s.states.insert pk next })
      | none => some ((), { s with states := s.states.erase pk })
  | .backoff pk => some (s.probeBackoff.get? pk, s)
  | .setBackoff pk time => some ((), { s with probeBackoff := s.probeBackoff.insert pk time })

def unforged (bytes : List Byte) : Bool :=
  (decode bytes).all fun msg => msg.kinded.all fun k =>
    !S.verifies msg k || s.network.any fun d =>
      (d.author == .engine || d.author == .holder msg.pk) && d.carries k.kind k.nonce

def move : Move S.X → Option Segment
  | .passed later => if s.clock ≤ later then some { s with clock := later } else none
  | .sent source bytes => if s.unforged S bytes then some (s.send .anyone source bytes) else none
  | .probed peer nonce =>
      (S.X.beaconProbeMac peer.key S.me.pubkey nonce).map fun mac =>
        s.send (.holder peer.pubkey) peer.source
          (encodeKinded peer.pubkey peer.port KIND_PROBE nonce mac)
  | .answered peer index => do
      let d ← s.network[index]?
      let msg ← decode d.bytes
      let k ← msg.kinded
      if msg.pk = S.me.pubkey && k.kind == KIND_PROBE then
        (Beacon.answer peer.toIdentity msg k).map fun reply =>
          s.send (.holder peer.pubkey) peer.source reply
      else none

end Segment

abbrev lan (S : Setup) : Machine BeaconSig where
  State := Segment
  Call := Call
  Err := Empty
  Reply := Table PubKey SocketAddr
  Choice := Choice
  World := Move S.X
  start
    | .receive => do
        receive S.me
        return ∅
    | .probe => do
        probe S.me S.beaconPort
        return ∅
    | .announce => do
        announce S.me S.beaconPort
        return ∅
    | .select now reachable => select now reachable
  exec := fun _ o choice s => s.exec S choice o
  -- The tasks are aborted where the handle is dropped.
  suspends
    | .recvFrom | .sendTo _ _ | .nextProbe => true
    | _ => false
  release := fun _ s => s
  move := fun world s => s.move S world

/-! What happened. -/

structure Issue where
  pk : PubKey
  nonce : Nonce
  addr : SocketAddr

/-- A pass moved a peer to an endpoint. -/
structure Adoption where
  pk : PubKey
  addr : SocketAddr
  time : Nat
  deriving DecidableEq

structure History where
  issued : List Issue := []
  adopted : List Adoption := []

variable {S : Setup}

def history (S : Setup) : (lan S).Observer History where
  see := fun h _ event _ =>
    match event with
    | .did _ (.await pk nonce addr) _ => { h with issued := h.issued ++ [⟨pk, nonce, addr⟩] }
    | .did _ (.setState pk (some (.trying addr since))) _ =>
        { h with adopted := h.adopted ++ [⟨pk, addr, since⟩] }
    | _ => h

namespace History

variable (h : History) (s : Segment)

/-- The holder of a key answered a nonce with which the engine probed the address, with its port, at
such a time. -/
def Answered (pk : PubKey) (addr : SocketAddr) (timely : Nat → Bool) : Prop :=
  ∃ issue ∈ h.issued, issue.pk = pk ∧ issue.addr.ip = addr.ip ∧
    ∃ d ∈ s.network, d.answers pk issue.nonce addr.port = true ∧ timely d.time = true

instance (pk : PubKey) (addr : SocketAddr) (timely : Nat → Bool) :
    Decidable (h.Answered s pk addr timely) := by
  unfold Answered
  infer_instance

/-- The holder of the key answered within the lifetime of an ack. -/
def Proven (a : Adoption) : Prop :=
  h.Answered s a.pk a.addr fun time => a.time - time < PROBE_ACK_TTL

end History

/-- Nothing that proves something to the engine is turned back, diverted, altered or held back. -/
def undisturbed (S : Setup) (h : History) (s : Segment) : (lan S).Event → Bool
  -- A probe of the engine itself does not come back to it.
  | .did _ (.place r) _ =>
      r.msg.kinded.all fun k =>
        !(k.kind == KIND_PROBE && S.X.verifyBeaconProbe S.me.key r.msg.pk k.nonce k.mac &&
          s.drawn.contains k.nonce)
  -- An answer comes from the address that was probed, with a port that the holder put in one.
  | .did _ (.matching r k) true =>
      !S.X.verifyBeaconAck S.me.key r.msg.pk k.nonce k.mac ||
        (s.pending.get? r.msg.pk).all fun (_, addr, _) =>
          r.source.ip == addr.ip &&
            ((s.network.all fun d =>
                !(d.author == .holder r.msg.pk && d.carries KIND_ACK k.nonce)) ||
              s.network.any fun d => d.answers r.msg.pk k.nonce r.msg.port)
  -- An answer is not acted on when it is old.
  | .did _ (.ackFresh pk addr now) true =>
      !decide (h.Answered s pk addr fun _ => true) ||
        decide (h.Answered s pk addr fun time => now - time < PROBE_ACK_TTL)
  | _ => true

/-! What a task knows. -/

structure Known where
  got : Option (SocketAddr × List Byte) := none
  placed : Option Received := none
  matched : Option (Received × Kinded) := none
  drew : Option Nonce := none
  held : Option (PubKey × LanState) := none
  fresh : Option Adoption := none
  routed : List (PubKey × SocketAddr) := []

namespace Known

variable (μ : Known)

def learn : (o : BeaconOp) → o.Answer → Known
  | .recvFrom, d => { μ with got := some d }
  | .place r, _ => { μ with placed := some r }
  | .matching r k, true => { μ with matched := some (r, k) }
  | .genBeaconNonce, nonce => { μ with drew := some nonce }
  | .state pk, some next => { μ with held := some (pk, next) }
  | .ackFresh pk addr now, true => { μ with fresh := some ⟨pk, addr, now⟩ }
  | .setState pk (some next), _ =>
      { μ with routed := next.routes.toList.map (fun addr => (pk, addr)) ++ μ.routed }
  | _, _ => μ

def Read (r : Received) : Prop :=
  ∃ buf, μ.got = some (r.source, buf) ∧ decode buf = some r.msg

def MayAnswer (S : Setup) (nonce : Nonce) : Prop :=
  ∃ r k, μ.placed = some r ∧ r.msg.kinded = some k ∧ k.kind = KIND_PROBE ∧
    S.X.verifyBeaconProbe S.me.key r.msg.pk k.nonce k.mac = true ∧ k.nonce = nonce

def permits (pk : PubKey) : Option LanState → Prop
  | some (.trying addr since) =>
      μ.held = some (pk, .trying addr since) ∨ μ.fresh = some ⟨pk, addr, since⟩
  | some (.active addr _) =>
      ∃ time, μ.held = some (pk, .trying addr time) ∨ μ.held = some (pk, .active addr time)
  | _ => True

def allows (S : Setup) : BeaconOp → Prop
  | .place r => μ.Read r
  | .matching r k => μ.Read r ∧ r.msg.kinded = some k ∧ k.kind = KIND_ACK
  | .record r =>
      ∃ k, μ.matched = some (r, k) ∧ S.X.verifyBeaconAck S.me.key r.msg.pk k.nonce k.mac = true
  | .sendTo payload _ =>
      ∀ msg k, decode payload = some msg → msg.kinded = some k → k.kind = KIND_ACK →
        μ.MayAnswer S k.nonce
  | .await _ nonce _ => μ.drew = some nonce
  | .setState pk next => μ.permits pk next
  | _ => True

end Known

def monitor (S : Setup) : Monitor BeaconSig Known where
  allows := fun μ => μ.allows S
  expects := fun _ _ _ => True
  next := Known.learn

def Routes (μ : Known) (out : Table PubKey SocketAddr) : Prop :=
  ∀ pk addr, out.get? pk = some addr → (pk, addr) ∈ μ.routed

theorem routes_empty {μ : Known} : Routes μ ∅ := by
  intro pk addr hsome
  cases hsome

theorem probe_ne_ack : KIND_PROBE ≠ KIND_ACK := by
  decide

theorem conforms_ask {α : Type} {μ : Known} {o : BeaconOp} {next : o.Answer → BeaconM α}
    {post : Known → Except Empty α → Prop} (hallows : μ.allows S o)
    (hnext : ∀ answer, (next answer).Conforms (monitor S) post (μ.learn o answer)) :
    (ask o >>= next).Conforms (monitor S) post μ :=
  ⟨hallows, fun answer _ => hnext answer⟩

theorem conforms_receive {μ : Known} :
    (receive S.me).Conforms (monitor S) (returns fun _ _ => True) μ := by
  unfold receive
  refine conforms_ask trivial fun got => ?_
  obtain ⟨source, buf⟩ := got
  dsimp only
  split
  · trivial
  · rename_i msg hdecode
    split
    · trivial
    · refine conforms_ask trivial fun member => ?_
      split
      · trivial
      · refine conforms_ask trivial fun now => ?_
        have hread : ∀ μ' : Known, μ'.got = some (source, buf) → μ'.Read ⟨source, msg, now⟩ :=
          fun μ' hgot => ⟨buf, hgot, hdecode⟩
        refine conforms_ask (hread _ rfl) fun _ => ?_
        split
        · trivial
        · rename_i k hkinded
          split
          · rename_i hprobe
            split
            · trivial
            · rename_i reply hreply
              refine ⟨fun msg' k' hdecode' hkinded' hack => ?_, fun _ _ => trivial⟩
              unfold answer at hreply
              split at hreply
              · rename_i hverify
                obtain ⟨mac, -, rfl⟩ := Option.map_eq_some_iff.mp hreply
                rw [decode_encodeKinded (.inr rfl), Option.some.injEq] at hdecode'
                subst hdecode'
                cases hkinded'
                exact ⟨⟨source, msg, now⟩, k, rfl, hkinded, hprobe, hverify, rfl⟩
              · cases hreply
          · split
            · rename_i hack
              refine conforms_ask ⟨hread _ rfl, hkinded, hack⟩ fun ok => ?_
              split
              · rename_i hboth
                obtain ⟨rfl, hverify⟩ := Bool.and_eq_true_iff.mp hboth
                exact ⟨⟨k, rfl, hverify⟩, fun _ _ => trivial⟩
              · trivial
            · trivial

theorem conforms_probe {μ : Known} :
    (probe S.me S.beaconPort).Conforms (monitor S) (returns fun _ _ => True) μ := by
  unfold probe
  refine conforms_ask trivial fun target => ?_
  obtain ⟨pk, addr⟩ := target
  refine conforms_ask trivial fun nonce => ?_
  split
  · trivial
  · rename_i mac hmac
    refine conforms_ask rfl fun _ => ⟨fun msg k hdecode hkinded hack => ?_, fun _ _ => trivial⟩
    rw [decode_encodeKinded (.inl rfl), Option.some.injEq] at hdecode
    subst hdecode
    cases hkinded
    exact absurd hack probe_ne_ack

theorem conforms_announce {μ : Known} :
    (announce S.me S.beaconPort).Conforms (monitor S) (returns fun _ _ => True) μ := by
  refine ⟨fun msg k hdecode hkinded _ => ?_, fun _ _ => trivial⟩
  rw [decode_encode, Option.some.injEq] at hdecode
  subst hdecode
  cases hkinded

section

variable {pk : PubKey} {cand : Candidate} {now : Nat} {μ : Known}

def Ready (pk : PubKey) (routed : List (PubKey × SocketAddr)) (μ : Known) (next : Option LanState) :
    Prop :=
  μ.permits pk next ∧ μ.routed = routed

theorem conforms_begin :
    (begin pk cand now).Conforms (monitor S) (returns (Ready pk μ.routed)) μ := by
  unfold begin
  refine conforms_ask trivial fun fresh => ?_
  cases fresh with
  | true => exact ⟨.inr rfl, rfl⟩
  | false =>
      rw [if_neg Bool.false_ne_true]
      refine conforms_ask trivial fun backoff => ?_
      split
      · exact ⟨trivial, rfl⟩
      · exact conforms_ask trivial fun _ => ⟨trivial, rfl⟩

theorem conforms_step {ok : Bool} :
    (step pk cand now ok).Conforms (monitor S) (returns (Ready pk μ.routed)) μ := by
  unfold step
  refine conforms_ask trivial fun state => ?_
  match state with
  | none => exact conforms_begin
  | some (.probing addr since) =>
      refine conforms_ask trivial fun fresh => ?_
      cases fresh with
      | true => exact ⟨.inr rfl, rfl⟩
      | false =>
          rw [if_neg Bool.false_ne_true]
          split
          · exact conforms_ask trivial fun _ => ⟨trivial, rfl⟩
          · exact conforms_ask trivial fun _ => ⟨trivial, rfl⟩
  | some (.trying addr since) =>
      dsimp only
      split
      · exact ⟨.inl rfl, rfl⟩
      · split
        · exact ⟨⟨since, .inl rfl⟩, rfl⟩
        · split
          · exact ⟨trivial, rfl⟩
          · exact ⟨.inl rfl, rfl⟩
  | some (.active addr lastOk) =>
      dsimp only
      split
      · exact ⟨⟨lastOk, .inr rfl⟩, rfl⟩
      · split
        · exact ⟨trivial, rfl⟩
        · exact ⟨⟨lastOk, .inr rfl⟩, rfl⟩
  | some (.failed addr heldUntil) =>
      dsimp only
      split
      · exact ⟨trivial, rfl⟩
      · exact conforms_begin

theorem conforms_selectPeer {live : Table PubKey Candidate} {out : Table PubKey SocketAddr}
    {peer : PubKey × Bool} (hroutes : Routes μ out) :
    (selectPeer now live out peer).Conforms (monitor S) (returns Routes) μ := by
  unfold selectPeer
  split
  · exact conforms_ask trivial fun _ => hroutes
  · refine conforms_step.andThen fun μ' next hready => conforms_ask hready.1 fun _ => ?_
    have hkept : ∀ entry ∈ μ.routed, entry ∈ (μ'.learn (.setState peer.1 next) ()).routed := by
      intro entry hentry
      rw [← hready.2] at hentry
      cases next with
      | none => exact hentry
      | some next => exact List.mem_append_right _ hentry
    split
    · rename_i addr hroute
      intro pk addr' hsome
      rw [Table.get?_insert] at hsome
      split at hsome
      · rename_i hsame
        cases hsome
        obtain ⟨next', rfl, hnext⟩ := Option.bind_eq_some_iff.mp hroute
        refine List.mem_append_left _ (List.mem_map.mpr ⟨addr, ?_, by rw [hsame]⟩)
        rw [hnext]
        exact List.mem_singleton_self _
      · exact hkept _ (hroutes pk addr' hsome)
    · exact fun pk addr hsome => hkept _ (hroutes pk addr hsome)

theorem conforms_select {reachable : Table PubKey Bool} :
    (select now reachable).Conforms (monitor S) (returns Routes) μ := by
  unfold select
  refine conforms_ask trivial fun _ => conforms_ask trivial fun live => ?_
  refine conforms_ask trivial fun _ => conforms_ask trivial fun _ => conforms_ask trivial
    fun _ => ?_
  exact Conforms.foldlM _ _ Routes (fun _ _ _ _ => conforms_selectPeer) routes_empty

end

theorem conforms_start (call : Call) {μ : Known} :
    ((lan S).start call).Conforms (monitor S) (returns Routes) μ := by
  cases call with
  | receive => exact conforms_receive.andThen fun _ _ _ => routes_empty
  | probe => exact conforms_probe.andThen fun _ _ _ => routes_empty
  | announce => exact conforms_announce.andThen fun _ _ _ => routes_empty
  | select now reachable => exact conforms_select

theorem carries_iff {d : Sent} {kind : Byte} {nonce : Nonce} :
    d.carries kind nonce = true ↔
      ∃ msg k, decode d.bytes = some msg ∧ msg.kinded = some k ∧ k.kind = kind ∧ k.nonce =
        nonce := by
  unfold Sent.carries
  rw [Option.any_eq_true]
  refine exists_congr fun msg => ?_
  rw [Option.any_eq_true]
  constructor
  · rintro ⟨hdecode, k, hkinded, hboth⟩
    obtain ⟨hkind, hnonce⟩ := Bool.and_eq_true_iff.mp hboth
    exact ⟨k, hdecode, hkinded, eq_of_beq hkind, eq_of_beq hnonce⟩
  · rintro ⟨k, hdecode, hkinded, rfl, rfl⟩
    exact ⟨hdecode, k, hkinded, by rw [beq_self_eq_true, beq_self_eq_true, Bool.and_self]⟩

/-! What holds of the history, the state and the tasks. -/

structure Later (h : History) (s : Segment) (h' : History) (s' : Segment) : Prop where
  issued : h.issued ⊆ h'.issued
  adopted : h.adopted ⊆ h'.adopted
  network : s.network ⊆ s'.network
  drawn : s.drawn ⊆ s'.drawn
  fresh : ∀ nonce ∈ s'.drawn, nonce ∈ s.drawn ∨ s.spoken nonce = false

def History.Holds (h : History) (pk : PubKey) : LanState → Prop
  | .trying addr since => ⟨pk, addr, since⟩ ∈ h.adopted
  | .active addr _ => ∃ since, ⟨pk, addr, since⟩ ∈ h.adopted
  | _ => True

structure Known.Fits (S : Setup) (h : History) (s : Segment) (μ : Known) : Prop where
  got : ∀ source buf, μ.got = some (source, buf) → ∃ d ∈ s.network, buf = d.bytes.take 512
  placed : ∀ nonce, μ.MayAnswer S nonce → nonce ∉ s.drawn ∧ s.spoken nonce = true
  matched : ∀ r k, μ.matched = some (r, k) →
    S.X.verifyBeaconAck S.me.key r.msg.pk k.nonce k.mac = true →
      h.Answered s r.msg.pk r.addr fun _ => true
  drew : ∀ nonce, μ.drew = some nonce → nonce ∈ s.drawn
  held : ∀ pk next, μ.held = some (pk, next) → h.Holds pk next
  fresh : ∀ a, μ.fresh = some a → h.Proven s a
  routed : ∀ pk addr, (pk, addr) ∈ μ.routed → ∃ since, ⟨pk, addr, since⟩ ∈ h.adopted

structure Sound (S : Setup) (h : History) (s : Segment) : Prop where
  /-- The engine answers no nonce of its own. -/
  own : ∀ d ∈ s.network, d.author = .engine → ∀ nonce, d.carries KIND_ACK nonce = true →
    nonce ∉ s.drawn
  made : ∀ d ∈ s.network, ∀ msg k, decode d.bytes = some msg → msg.kinded = some k →
    k.kind = KIND_ACK → S.X.verifyBeaconAck S.me.key msg.pk k.nonce k.mac = true →
      ∃ e ∈ s.network, (e.author = .engine ∨ e.author = .holder msg.pk) ∧
        e.carries KIND_ACK k.nonce = true
  pending : ∀ pk nonce addr sent, s.pending.get? pk = some (nonce, addr, sent) →
    ⟨pk, nonce, addr⟩ ∈ h.issued
  drawn : ∀ issue ∈ h.issued, issue.nonce ∈ s.drawn
  acks : ∀ pk addr time, s.acks.get? pk = some (addr, time) → h.Answered s pk addr fun _ => true
  states : ∀ pk next, s.states.get? pk = some next → h.Holds pk next
  adopted : ∀ a ∈ h.adopted, h.Proven s a

section

variable {h h' : History} {s s' : Segment} {μ : Known}

theorem Later.refl : Later h s h s :=
  ⟨List.Subset.refl _, List.Subset.refl _, List.Subset.refl _, List.Subset.refl _, fun _ => .inl⟩

theorem Later.answered (hlater : Later h s h' s') {pk : PubKey} {addr : SocketAddr}
    {timely : Nat → Bool} (hanswered : h.Answered s pk addr timely) :
    h'.Answered s' pk addr timely := by
  obtain ⟨issue, hissue, hpk, hip, d, hd, hrest⟩ := hanswered
  exact ⟨issue, hlater.issued hissue, hpk, hip, d, hlater.network hd, hrest⟩

theorem Later.holds (hlater : Later h s h' s') {pk : PubKey} {next : LanState}
    (hholds : h.Holds pk next) : h'.Holds pk next := by
  cases next with
  | trying addr since => exact hlater.adopted hholds
  | active addr lastOk =>
      obtain ⟨since, hadopted⟩ := hholds
      exact ⟨since, hlater.adopted hadopted⟩
  | probing | failed => trivial

theorem Later.spoken (hlater : Later h s h' s') {nonce : Nonce} (hspoken : s.spoken nonce = true) :
    s'.spoken nonce = true := by
  obtain ⟨d, hd, hcarries⟩ := List.any_eq_true.mp hspoken
  exact List.any_eq_true.mpr ⟨d, hlater.network hd, hcarries⟩

theorem Later.undrawn (hlater : Later h s h' s') {nonce : Nonce} (hspoken : s.spoken nonce = true)
    (hundrawn : nonce ∉ s.drawn) : nonce ∉ s'.drawn := by
  intro hdrawn
  rcases hlater.fresh nonce hdrawn with hbefore | hsilent
  · exact hundrawn hbefore
  · rw [hspoken] at hsilent
    cases hsilent

theorem Later.fits (hlater : Later h s h' s') (hfits : μ.Fits S h s) : μ.Fits S h' s' where
  got := by
    intro source buf hgot
    obtain ⟨d, hd, hbuf⟩ := hfits.got source buf hgot
    exact ⟨d, hlater.network hd, hbuf⟩
  placed := by
    intro nonce hmay
    obtain ⟨hundrawn, hspoken⟩ := hfits.placed nonce hmay
    exact ⟨hlater.undrawn hspoken hundrawn, hlater.spoken hspoken⟩
  matched := fun r k hmatched hverify => hlater.answered (hfits.matched r k hmatched hverify)
  drew := fun nonce hdrew => hlater.drawn (hfits.drew nonce hdrew)
  held := fun pk next hheld => hlater.holds (hfits.held pk next hheld)
  fresh := fun a hfresh => hlater.answered (hfits.fresh a hfresh)
  routed := by
    intro pk addr hrouted
    obtain ⟨since, hadopted⟩ := hfits.routed pk addr hrouted
    exact ⟨since, hlater.adopted hadopted⟩

theorem spoken_of_carries {d : Sent} (hd : d ∈ s.network) {nonce : Nonce}
    (hcarries : d.carries KIND_ACK nonce = true) : s.spoken nonce = true :=
  List.any_eq_true.mpr ⟨d, hd, by rw [hcarries, Bool.or_true]⟩

theorem Sound.later (hsound : Sound S h s) (hlater : Later h s h' s')
    (hnetwork : s'.network = s.network)
    (hpending : ∀ pk nonce addr sent, s'.pending.get? pk = some (nonce, addr, sent) →
      s.pending.get? pk = some (nonce, addr, sent) ∨ ⟨pk, nonce, addr⟩ ∈ h'.issued)
    (hissued : ∀ issue ∈ h'.issued, issue ∈ h.issued ∨ issue.nonce ∈ s'.drawn)
    (hacks : ∀ pk addr time, s'.acks.get? pk = some (addr, time) →
      s.acks.get? pk = some (addr, time) ∨ h'.Answered s' pk addr fun _ => true)
    (hstates : ∀ pk next, s'.states.get? pk = some next →
      s.states.get? pk = some next ∨ h'.Holds pk next)
    (hadopted : ∀ a ∈ h'.adopted, a ∈ h.adopted ∨ h'.Proven s' a) : Sound S h' s' where
  own := by
    rw [hnetwork]
    intro d hd hengine nonce hcarries
    exact hlater.undrawn (spoken_of_carries hd hcarries) (hsound.own d hd hengine nonce hcarries)
  made := by
    rw [hnetwork]
    exact hsound.made
  pending := fun pk nonce addr sent hget =>
    (hpending pk nonce addr sent hget).elim
      (fun hbefore => hlater.issued (hsound.pending pk nonce addr sent hbefore)) id
  drawn := fun issue hissue =>
    (hissued issue hissue).elim (fun hbefore => hlater.drawn (hsound.drawn issue hbefore)) id
  acks := fun pk addr time hget =>
    (hacks pk addr time hget).elim
      (fun hbefore => hlater.answered (hsound.acks pk addr time hbefore)) id
  states := fun pk next hget =>
    (hstates pk next hget).elim (fun hbefore => hlater.holds (hsound.states pk next hbefore)) id
  adopted := fun a ha =>
    (hadopted a ha).elim (fun hbefore => hlater.answered (hsound.adopted a hbefore)) id

theorem Sound.aside (hsound : Sound S h s) (hnetwork : s'.network = s.network)
    (hdrawn : s'.drawn = s.drawn) (hpending : s'.pending = s.pending) (hacks : s'.acks = s.acks)
    (hstates : s'.states = s.states) : Later h s h s' ∧ Sound S h s' := by
  have hlater : Later h s h s' := by
    refine ⟨List.Subset.refl _, List.Subset.refl _, ?_, ?_, ?_⟩
    · rw [hnetwork]
      exact List.Subset.refl _
    · rw [hdrawn]
      exact List.Subset.refl _
    · rw [hdrawn]
      exact fun _ => .inl
  refine ⟨hlater, hsound.later hlater hnetwork ?_ (fun _ => .inl) ?_ ?_ (fun _ => .inl)⟩
  · rw [hpending]
    exact fun _ _ _ _ => .inl
  · rw [hacks]
    exact fun _ _ _ => .inl
  · rw [hstates]
    exact fun _ _ => .inl

theorem Sound.send (hsound : Sound S h s) {author : Author} {source : SocketAddr}
    {bytes : List Byte}
    (hown : author = .engine → ∀ msg k, decode bytes = some msg → msg.kinded = some k →
      k.kind = KIND_ACK → k.nonce ∉ s.drawn)
    (hmade : ∀ msg k, decode bytes = some msg → msg.kinded = some k → k.kind = KIND_ACK →
      S.X.verifyBeaconAck S.me.key msg.pk k.nonce k.mac = true →
        (author = .engine ∨ author = .holder msg.pk) ∨
          ∃ e ∈ s.network, (e.author = .engine ∨ e.author = .holder msg.pk) ∧
            e.carries KIND_ACK k.nonce = true) :
    Later h s h (s.send author source bytes) ∧ Sound S h (s.send author source bytes) := by
  have hgrows : s.network ⊆ (s.send author source bytes).network := List.subset_append_left ..
  have hlater : Later h s h (s.send author source bytes) :=
    ⟨List.Subset.refl _, List.Subset.refl _, hgrows, List.Subset.refl _, fun _ => .inl⟩
  refine ⟨hlater, ⟨fun d hd => ?_, fun d hd msg k hdecode hkinded hack hverify => ?_,
    hsound.pending, hsound.drawn, ?_, hsound.states, ?_⟩⟩
  · rcases List.mem_append.mp hd with hbefore | hnew
    · exact hsound.own d hbefore
    · rw [List.mem_singleton.mp hnew]
      intro hengine nonce hcarries
      obtain ⟨msg, k, hdecode, hkinded, hack, rfl⟩ := carries_iff.mp hcarries
      exact hown hengine msg k hdecode hkinded hack
  · rcases List.mem_append.mp hd with hbefore | hnew
    · obtain ⟨e, he, hrest⟩ := hsound.made d hbefore msg k hdecode hkinded hack hverify
      exact ⟨e, hgrows he, hrest⟩
    · rw [List.mem_singleton.mp hnew] at hdecode
      rcases hmade msg k hdecode hkinded hack hverify with hauthor | ⟨e, he, hrest⟩
      · exact ⟨_, List.mem_append_right _ (List.mem_singleton_self _), hauthor,
          carries_iff.mpr ⟨msg, k, hdecode, hkinded, hack, rfl⟩⟩
      · exact ⟨e, hgrows he, hrest⟩
  · exact fun pk addr time hget => hlater.answered (hsound.acks pk addr time hget)
  · exact fun a ha => hlater.answered (hsound.adopted a ha)

theorem Sound.moved (hsound : Sound S h s) {world : Move S.X} (hmove : s.move S world = some s') :
    Later h s h s' ∧ Sound S h s' := by
  cases world with
  | passed later =>
      unfold Segment.move at hmove
      dsimp only at hmove
      split at hmove
      · cases hmove
        exact hsound.aside rfl rfl rfl rfl rfl
      · cases hmove
  | sent source bytes =>
      unfold Segment.move at hmove
      dsimp only at hmove
      split at hmove
      · rename_i hunforged
        cases hmove
        refine hsound.send nofun fun msg k hdecode hkinded hack hverify => .inr ?_
        unfold Segment.unforged at hunforged
        rw [hdecode, Option.all_some, hkinded, Option.all_some] at hunforged
        have hverifies : S.verifies msg k = true := by
          unfold Setup.verifies
          rw [if_neg (hack ▸ probe_ne_ack.symm)]
          exact hverify
        rw [hverifies, Bool.not_true, Bool.false_or, hack] at hunforged
        obtain ⟨e, he, hboth⟩ := List.any_eq_true.mp hunforged
        obtain ⟨hauthor, hcarries⟩ := Bool.and_eq_true_iff.mp hboth
        refine ⟨e, he, ?_, hcarries⟩
        rw [Bool.or_eq_true_iff, beq_iff_eq, beq_iff_eq] at hauthor
        exact hauthor
      · cases hmove
  | probed peer nonce =>
      obtain ⟨mac, -, rfl⟩ := Option.map_eq_some_iff.mp hmove
      refine hsound.send nofun fun msg k hdecode hkinded hack _ => ?_
      rw [decode_encodeKinded (.inl rfl), Option.some.injEq] at hdecode
      subst hdecode
      cases hkinded
      exact absurd hack probe_ne_ack
  | answered peer index =>
      obtain ⟨d, -, hmove⟩ := Option.bind_eq_some_iff.mp hmove
      obtain ⟨msg, -, hmove⟩ := Option.bind_eq_some_iff.mp hmove
      obtain ⟨k, -, hmove⟩ := Option.bind_eq_some_iff.mp hmove
      split at hmove
      · obtain ⟨reply, hreply, rfl⟩ := Option.map_eq_some_iff.mp hmove
        unfold Beacon.answer at hreply
        split at hreply
        · obtain ⟨mac, -, rfl⟩ := Option.map_eq_some_iff.mp hreply
          refine hsound.send nofun fun msg' k' hdecode _ _ _ => .inl (.inr ?_)
          rw [decode_encodeKinded (.inr rfl), Option.some.injEq] at hdecode
          rw [← hdecode]
        · cases hreply
      · cases hmove

def Takes (S : Setup) (h : History) (s : Segment) (h' : History) (s' : Segment) (μ : Known) :
    Prop :=
  Later h s h' s' ∧ Sound S h' s' ∧ μ.Fits S h' s'

theorem Sound.takes_aside (hsound : Sound S h s) (hfits : μ.Fits S h s)
    (hnetwork : s'.network = s.network) (hdrawn : s'.drawn = s.drawn)
    (hpending : s'.pending = s.pending) (hacks : s'.acks = s.acks)
      (hstates : s'.states = s.states) :
    Takes S h s h s' μ := by
  obtain ⟨hlater, hsound'⟩ := hsound.aside hnetwork hdrawn hpending hacks hstates
  exact ⟨hlater, hsound', hlater.fits hfits⟩

theorem Sound.takes_place (hsound : Sound S h s) (hfits : μ.Fits S h s) {r : Received} {task : Nat}
    (hread : μ.Read r) (hguard : undisturbed S h s (.did task (.place r) ()) = true) :
    Takes S h s h
      { s with candidates := s.candidates.insert r.msg.pk ⟨r.addr, r.now⟩ }
      (μ.learn (.place r) ()) := by
  have haside : Takes S h s h { s with candidates := s.candidates.insert r.msg.pk ⟨r.addr, r.now⟩ }
      μ := hsound.takes_aside hfits rfl rfl rfl rfl rfl
  obtain ⟨hlater, hsound', hfits'⟩ := haside
  refine ⟨hlater, hsound', { hfits' with placed := ?_ }⟩
  rintro nonce ⟨r', k, hplaced, hkinded, hprobe, hverify, rfl⟩
  obtain rfl : r = r' := Option.some.inj hplaced
  obtain ⟨buf, hgot, hdecode⟩ := hread
  obtain ⟨d, hd, rfl⟩ := hfits.got _ _ hgot
  have hnot : s.drawn.contains k.nonce = false := by
    unfold undisturbed at hguard
    dsimp only at hguard
    rw [hkinded, Option.all_some, hprobe, hverify] at hguard
    simpa using hguard
  refine ⟨fun hdrawn => ?_, List.any_eq_true.mpr ⟨d, hd, ?_⟩⟩
  · rw [List.contains_iff_mem.mpr hdrawn] at hnot
    cases hnot
  · have hcarries : d.carries KIND_PROBE k.nonce = true :=
      carries_iff.mpr ⟨r.msg, k, decode_take hdecode, hkinded, hprobe, rfl⟩
    rw [hcarries, Bool.true_or]

theorem Sound.takes_matching (hsound : Sound S h s) (hfits : μ.Fits S h s) {r : Received}
    {k : Kinded} {task : Nat} {ok : Bool} (hread : μ.Read r) (hkinded : r.msg.kinded = some k)
    (hack : k.kind = KIND_ACK)
    (hok : ok = (s.pending.get? r.msg.pk).any fun (nonce, _, sent) =>
      nonce == k.nonce && r.now - sent < PROBE_ACK_TTL)
    (hguard : undisturbed S h s (.did task (.matching r k) ok) = true) :
    Takes S h s h s (μ.learn (.matching r k) ok) := by
  refine ⟨.refl, hsound, ?_⟩
  cases ok with
  | false => exact hfits
  | true =>
      refine { hfits with matched := ?_ }
      intro r' k' hmatched hverify
      cases hmatched
      obtain ⟨⟨nonce, addr, sent⟩, hpending, hmatches⟩ := (Option.any_eq_true _ _).mp hok.symm
      obtain ⟨hnonce, -⟩ := Bool.and_eq_true_iff.mp hmatches
      obtain rfl : nonce = k.nonce := eq_of_beq hnonce
      have hissued := hsound.pending _ _ _ _ hpending
      have hdrawn : k.nonce ∈ s.drawn := hsound.drawn _ hissued
      obtain ⟨buf, hgot, hdecode⟩ := hread
      obtain ⟨d, hd, rfl⟩ := hfits.got _ _ hgot
      obtain ⟨e, he, hauthor, hcarries⟩ :=
        hsound.made d hd r.msg k (decode_take hdecode) hkinded hack hverify
      have hholder : e.author = .holder r.msg.pk :=
        hauthor.resolve_left fun hengine => hsound.own e he hengine _ hcarries hdrawn
      unfold undisturbed at hguard
      dsimp only at hguard
      rw [hverify, Bool.not_true, Bool.false_or, hpending, Option.all_some] at hguard
      obtain ⟨hip, hanswers⟩ := Bool.and_eq_true_iff.mp hguard
      rcases Bool.or_eq_true_iff.mp hanswers with hnone | hsome
      · have hnot := List.all_eq_true.mp hnone e he
        rw [hholder, hcarries, beq_self_eq_true, Bool.and_self] at hnot
        cases hnot
      · obtain ⟨e', he', hanswers'⟩ := List.any_eq_true.mp hsome
        exact ⟨_, hissued, rfl, (eq_of_beq hip).symm, e', he', hanswers', rfl⟩

theorem Sound.takes_record (hsound : Sound S h s) (hfits : μ.Fits S h s) {r : Received}
    (hallows : μ.allows S (.record r)) :
    Takes S h s h { s with acks := s.acks.insert r.msg.pk (r.addr, r.now) } μ := by
  obtain ⟨k, hmatched, hverify⟩ := hallows
  have hlater : Later h s h { s with acks := s.acks.insert r.msg.pk (r.addr, r.now) } :=
    ⟨List.Subset.refl _, List.Subset.refl _, List.Subset.refl _, List.Subset.refl _, fun _ => .inl⟩
  refine ⟨hlater, hsound.later hlater rfl (fun _ _ _ _ => .inl) (fun _ => .inl) ?_
    (fun _ _ => .inl) (fun _ => .inl), hlater.fits hfits⟩
  intro pk addr time hget
  rw [Table.get?_insert] at hget
  split at hget
  · rename_i hsame
    cases hget
    exact .inr (hsame ▸ hfits.matched r k hmatched hverify)
  · exact .inl hget

theorem Sound.takes_send (hsound : Sound S h s) (hfits : μ.Fits S h s) {payload : List Byte}
    {dst : SocketAddr} (hallows : μ.allows S (.sendTo payload dst)) :
    Takes S h s h (s.send .engine S.home payload) μ := by
  have hsent : Later h s h (s.send .engine S.home payload) ∧
      Sound S h (s.send .engine S.home payload) :=
    hsound.send
      (fun _ msg k hdecode hkinded hack =>
        (hfits.placed _ (hallows msg k hdecode hkinded hack)).1)
      (fun _ _ _ _ _ _ => .inl (.inl rfl))
  obtain ⟨hlater, hsound'⟩ := hsent
  exact ⟨hlater, hsound', hlater.fits hfits⟩

theorem Sound.takes_draw (hsound : Sound S h s) (hfits : μ.Fits S h s) {nonce : Nonce}
    (hspoken : s.spoken nonce = false) :
    Takes S h s h { s with drawn := nonce :: s.drawn } (μ.learn .genBeaconNonce nonce) := by
  have hlater : Later h s h { s with drawn := nonce :: s.drawn } := by
    refine ⟨List.Subset.refl _, List.Subset.refl _, List.Subset.refl _, List.subset_cons_self ..,
      fun other hother => ?_⟩
    rcases List.mem_cons.mp hother with rfl | hbefore
    · exact .inr hspoken
    · exact .inl hbefore
  refine ⟨hlater, hsound.later hlater rfl (fun _ _ _ _ => .inl) (fun _ => .inl) (fun _ _ _ => .inl)
    (fun _ _ => .inl) (fun _ => .inl), { hlater.fits hfits with drew := ?_ }⟩
  rintro other ⟨⟩
  exact List.mem_cons_self

theorem Sound.takes_await (hsound : Sound S h s) (hfits : μ.Fits S h s) {pk : PubKey}
    {nonce : Nonce} {addr : SocketAddr} (hdrew : μ.drew = some nonce) :
    Takes S h s { h with issued := h.issued ++ [⟨pk, nonce, addr⟩] }
      { s with pending := s.pending.insert pk (nonce, addr, s.clock) } μ := by
  have hlater : Later h s { h with issued := h.issued ++ [⟨pk, nonce, addr⟩] }
      { s with pending := s.pending.insert pk (nonce, addr, s.clock) } :=
    ⟨List.subset_append_left .., List.Subset.refl _, List.Subset.refl _, List.Subset.refl _,
      fun _ => .inl⟩
  refine ⟨hlater, hsound.later hlater rfl ?_ ?_ (fun _ _ _ => .inl) (fun _ _ => .inl)
    (fun _ => .inl), hlater.fits hfits⟩
  · intro pk' nonce' addr' sent hget
    rw [Table.get?_insert] at hget
    split at hget
    · rename_i hsame
      cases hget
      exact .inr (hsame ▸ List.mem_append_right _ (List.mem_singleton_self _))
    · exact .inl hget
  · intro issue hissue
    rcases List.mem_append.mp hissue with hbefore | hnew
    · exact .inl hbefore
    · rw [List.mem_singleton.mp hnew]
      exact .inr (hfits.drew nonce hdrew)

theorem Sound.takes_retain (hsound : Sound S h s) (hfits : μ.Fits S h s)
    (hnetwork : s'.network = s.network) (hdrawn : s'.drawn = s.drawn)
    (hpending : ∀ pk value, s'.pending.get? pk = some value → s.pending.get? pk = some value)
    (hacks : ∀ pk value, s'.acks.get? pk = some value → s.acks.get? pk = some value)
    (hstates : ∀ pk value, s'.states.get? pk = some value → s.states.get? pk = some value) :
    Takes S h s h s' μ := by
  have hlater : Later h s h s' := by
    refine ⟨List.Subset.refl _, List.Subset.refl _, ?_, ?_, ?_⟩
    · rw [hnetwork]
      exact List.Subset.refl _
    · rw [hdrawn]
      exact List.Subset.refl _
    · rw [hdrawn]
      exact fun _ => .inl
  exact ⟨hlater, hsound.later hlater hnetwork (fun pk _ _ _ hget => .inl (hpending pk _ hget))
    (fun _ => .inl) (fun pk _ _ hget => .inl (hacks pk _ hget))
    (fun pk _ hget => .inl (hstates pk _ hget)) (fun _ => .inl), hlater.fits hfits⟩

theorem Sound.takes_ackFresh (hsound : Sound S h s) (hfits : μ.Fits S h s) {pk : PubKey}
    {addr : SocketAddr} {now task : Nat} {fresh : Bool}
    (hfresh : fresh = (s.acks.get? pk).any fun ack => ack.1 == addr && now - ack.2 < PROBE_ACK_TTL)
    (hguard : undisturbed S h s (.did task (.ackFresh pk addr now) fresh) = true) :
    Takes S h s h s (μ.learn (.ackFresh pk addr now) fresh) := by
  refine ⟨.refl, hsound, ?_⟩
  cases fresh with
  | false => exact hfits
  | true =>
      refine { hfits with fresh := ?_ }
      rintro a ⟨⟩
      obtain ⟨⟨addr', time⟩, hget, hboth⟩ := (Option.any_eq_true _ _).mp hfresh.symm
      obtain rfl : addr' = addr := eq_of_beq (Bool.and_eq_true_iff.mp hboth).1
      have hanswered := hsound.acks pk addr' time hget
      unfold undisturbed at hguard
      dsimp only at hguard
      rw [decide_eq_true hanswered, Bool.not_true, Bool.false_or] at hguard
      have htimely : h.Answered s pk addr' fun time => now - time < PROBE_ACK_TTL :=
        of_decide_eq_true hguard
      exact htimely

theorem Sound.takes_state (hsound : Sound S h s) (hfits : μ.Fits S h s) {pk : PubKey} :
    Takes S h s h s (μ.learn (.state pk) (s.states.get? pk)) := by
  refine ⟨.refl, hsound, ?_⟩
  cases hget : s.states.get? pk with
  | none => exact hfits
  | some next =>
      refine { hfits with held := ?_ }
      rintro pk' next' ⟨⟩
      exact hsound.states pk next hget

theorem Sound.takes_trying (hsound : Sound S h s) (hfits : μ.Fits S h s) {pk : PubKey}
    {addr : SocketAddr} {since : Nat} (hpermits : μ.permits pk (some (.trying addr since))) :
    Takes S h s { h with adopted := h.adopted ++ [⟨pk, addr, since⟩] }
      { s with states := s.states.insert pk (.trying addr since) }
      (μ.learn (.setState pk (some (.trying addr since))) ()) := by
  have hproven : h.Proven s ⟨pk, addr, since⟩ := by
    rcases hpermits with hheld | hfresh
    · exact hsound.adopted _ (hfits.held pk _ hheld)
    · exact hfits.fresh _ hfresh
  have hlater : Later h s { h with adopted := h.adopted ++ [⟨pk, addr, since⟩] }
      { s with states := s.states.insert pk (.trying addr since) } :=
    ⟨List.Subset.refl _, List.subset_append_left .., List.Subset.refl _, List.Subset.refl _,
      fun _ => .inl⟩
  have hnew : ⟨pk, addr, since⟩ ∈ h.adopted ++ [⟨pk, addr, since⟩] :=
    List.mem_append_right _ (List.mem_singleton_self _)
  refine ⟨hlater, hsound.later hlater rfl (fun _ _ _ _ => .inl) (fun _ => .inl) (fun _ _ _ => .inl)
    ?_ ?_, { hlater.fits hfits with routed := ?_ }⟩
  · intro pk' next hget
    rw [Table.get?_insert] at hget
    split at hget
    · rename_i hsame
      cases hget
      exact .inr (hsame ▸ hnew)
    · exact .inl hget
  · intro a ha
    rcases List.mem_append.mp ha with hbefore | hlast
    · exact .inl hbefore
    · rw [List.mem_singleton.mp hlast]
      exact .inr (hlater.answered hproven)
  · intro pk' addr' hrouted
    rcases List.mem_cons.mp hrouted with hthis | hbefore
    · cases hthis
      exact ⟨since, hnew⟩
    · exact (hlater.fits hfits).routed pk' addr' hbefore

theorem Sound.takes_staying (hsound : Sound S h s) (hfits : μ.Fits S h s) {pk : PubKey}
    {next : LanState} (hholds : h.Holds pk next)
    (hroutes : ∀ addr, next.routes = some addr → ∃ since, ⟨pk, addr, since⟩ ∈ h.adopted) :
    Takes S h s h { s with states := s.states.insert pk next }
      (μ.learn (.setState pk (some next)) ()) := by
  have hlater : Later h s h { s with states := s.states.insert pk next } :=
    ⟨List.Subset.refl _, List.Subset.refl _, List.Subset.refl _, List.Subset.refl _, fun _ => .inl⟩
  refine ⟨hlater, hsound.later hlater rfl (fun _ _ _ _ => .inl) (fun _ => .inl) (fun _ _ _ => .inl)
    ?_ (fun _ => .inl), { hlater.fits hfits with routed := ?_ }⟩
  · intro pk' next' hget
    rw [Table.get?_insert] at hget
    split at hget
    · rename_i hsame
      cases hget
      exact .inr (hsame ▸ hholds)
    · exact .inl hget
  · intro pk' addr hrouted
    rcases List.mem_append.mp hrouted with hthis | hbefore
    · obtain ⟨routed, hroute, hsame⟩ := List.mem_map.mp hthis
      cases hsame
      exact hroutes _ (Option.mem_toList.mp hroute)
    · exact hfits.routed pk' addr hbefore

theorem Sound.did (hsound : Sound S h s) (hfits : μ.Fits S h s) {task : Nat} {o : BeaconOp}
    {choice : Choice} {answer : o.Answer} (hallows : μ.allows S o)
    (hexec : s.exec S choice o = some (answer, s'))
    (hguard : undisturbed S h s (.did task o answer) = true) :
    Takes S h s ((history S).see h s (.did task o answer) s') s' (μ.learn o answer) := by
  cases o with
  | recvFrom =>
      obtain ⟨d, hd, hgot⟩ := Option.map_eq_some_iff.mp hexec
      cases hgot
      refine ⟨.refl, hsound, { hfits with got := ?_ }⟩
      rintro source buf ⟨⟩
      exact ⟨d, List.mem_of_getElem? hd, rfl⟩
  | place r =>
      cases hexec
      exact hsound.takes_place hfits hallows hguard
  | matching r k =>
      cases hexec
      obtain ⟨hread, hkinded, hack⟩ := hallows
      exact hsound.takes_matching hfits hread hkinded hack rfl hguard
  | record r =>
      cases hexec
      exact hsound.takes_record hfits hallows
  | sendTo payload dst =>
      cases hexec
      exact hsound.takes_send hfits hallows
  | genBeaconNonce =>
      unfold Segment.exec at hexec
      dsimp only at hexec
      split at hexec
      · cases hexec
      · rename_i hnew
        cases hexec
        rw [Bool.not_eq_true, Bool.or_eq_false_iff] at hnew
        exact hsound.takes_draw hfits hnew.2
  | await pk nonce addr =>
      cases hexec
      exact hsound.takes_await hfits hallows
  | ackFresh pk addr now =>
      cases hexec
      exact hsound.takes_ackFresh hfits rfl hguard
  | state pk =>
      cases hexec
      exact hsound.takes_state hfits
  | setState pk next =>
      match next with
      | none =>
          cases hexec
          exact hsound.takes_retain hfits rfl rfl (fun _ _ => id) (fun _ _ => id)
            fun _ _ => Table.get?_of_erase
      | some (.trying addr since) =>
          cases hexec
          exact hsound.takes_trying hfits hallows
      | some (.active addr lastOk) =>
          cases hexec
          have hadopted : ∃ since, ⟨pk, addr, since⟩ ∈ h.adopted := by
            obtain ⟨time, htrying | hactive⟩ := hallows
            · exact ⟨time, hfits.held pk _ htrying⟩
            · exact hfits.held pk _ hactive
          refine hsound.takes_staying hfits hadopted fun addr' hroute => ?_
          cases hroute
          exact hadopted
      | some (.probing addr since) =>
          cases hexec
          exact hsound.takes_staying hfits trivial nofun
      | some (.failed addr heldUntil) =>
          cases hexec
          exact hsound.takes_staying hfits trivial nofun
  | retainAcks now =>
      cases hexec
      exact hsound.takes_retain hfits rfl rfl (fun _ _ => id) (fun _ _ => Table.get?_of_retain)
        fun _ _ => id
  | retainPending now members =>
      cases hexec
      exact hsound.takes_retain hfits rfl rfl (fun _ _ => Table.get?_of_retain) (fun _ _ => id)
        fun _ _ => id
  | retainStates members =>
      cases hexec
      exact hsound.takes_retain hfits rfl rfl (fun _ _ => id) (fun _ _ => id)
        fun _ _ => Table.get?_of_retain
  | nextProbe =>
      unfold Segment.exec at hexec
      dsimp only at hexec
      split at hexec
      · cases hexec
      · cases hexec
        exact hsound.takes_aside hfits rfl rfl rfl rfl rfl
  | sendProbe pk addr =>
      unfold Segment.exec at hexec
      dsimp only at hexec
      split at hexec <;> cases hexec <;> exact hsound.takes_aside hfits rfl rfl rfl rfl rfl
  | isMember | instant | publish | live | backoff | setBackoff =>
      cases hexec
      exact hsound.takes_aside hfits rfl rfl rfl rfl rfl

def Stands (S : Setup) (h : History) (s : Segment) (views : Nat → Option (Call × Known)) : Prop :=
  Sound S h s ∧ ∀ task call μ, views task = some (call, μ) → μ.Fits S h s

theorem Stands.set {views : Nat → Option (Call × Known)} (hstands : Stands S h s views)
    (hlater : Later h s h' s') (hsound : Sound S h' s') {task : Nat} {call : Call}
    (hfits : μ.Fits S h' s') : Stands S h' s' (Function.update views task (some (call, μ))) := by
  refine ⟨hsound, fun other call' μ' hview => ?_⟩
  rcases Machine.update_some_cases hview with ⟨-, hthis⟩ | ⟨-, hbefore⟩
  · cases hthis
    exact hfits
  · exact hlater.fits (hstands.2 other call' μ' hbefore)

theorem Stands.unset {views : Nat → Option (Call × Known)} (hstands : Stands S h s views)
    (task : Nat) : Stands S h s (Function.update views task none) :=
  ⟨hstands.1, fun other call μ hview =>
    hstands.2 other call μ (Machine.update_none_cases hview).2⟩

theorem Known.fits_start : ({} : Known).Fits S h s where
  got := nofun
  placed := by
    rintro nonce ⟨r, k, hplaced, -⟩
    cases hplaced
  matched := nofun
  drew := nofun
  held := nofun
  fresh := nofun
  routed := nofun

theorem Sound.start : Sound S {} {} where
  own := nofun
  made := nofun
  pending := by
    intro pk nonce addr sent hget
    cases hget
  drawn := nofun
  acks := by
    intro pk addr time hget
    cases hget
  states := by
    intro pk next hget
    cases hget
  adopted := nofun

def proving (S : Setup) :
    Machine.Discipline (lan S) (history S) (Machine.passes (undisturbed S)) Known where
  mon := monitor S
  opening := fun _ _ _ => {}
  post := fun _ => returns Routes
  inv := Stands S
  conforms := fun _ _ call => conforms_start call
  called := fun hstands _ _ => hstands.set .refl hstands.1 Known.fits_start
  did := by
    intro h s views task call μ o choice answer s' hstands hview hallows hexec hguard
    obtain ⟨hlater, hsound, hfits⟩ :=
      hstands.1.did (hstands.2 task call μ hview) hallows hexec hguard
    exact ⟨trivial, hstands.set hlater hsound hfits⟩
  ended := fun hstands _ _ _ => hstands.unset _
  dropped := fun hstands _ _ => hstands.unset _
  moved := by
    intro h s views world s' hstands hmove _
    obtain ⟨hlater, hsound⟩ := hstands.1.moved hmove
    exact ⟨hsound, fun task call μ hview => hlater.fits (hstands.2 task call μ hview)⟩

/-- Where nothing is turned back, diverted, altered or held back, a pass moves a peer only to an
address that the engine probed, with the port of an answer of the holder to that probe, given within
the lifetime of an ack; and it returns only endpoints that it moved a peer to. -/
theorem endpoints_proven {c : (lan S).Config}
    (hreach : Machine.Reach (history S) (Machine.passes (undisturbed S)) ((lan S).idle {}) {} c h) :
    (∀ a ∈ h.adopted, h.Proven c.shared a) ∧
      ∀ task now reachable out c',
        Machine.Step c (.ended task (.select now reachable) (.ok out)) c' →
          ∀ pk addr, out.get? pk = some addr → ∃ since, ⟨pk, addr, since⟩ ∈ h.adopted := by
  have hstart : Stands S {} {} fun _ => none := by
    refine ⟨Sound.start, fun task call μ hview => ?_⟩
    cases hview
  obtain ⟨views, htracks, hsound, hfits⟩ := (proving S).run hstart hreach
  refine ⟨hsound.adopted, fun task now reachable out c' hstep pk addr hsome => ?_⟩
  cases hstep with
  | finish running =>
      obtain ⟨μ, hview, hends, -⟩ := htracks.running running
      have hroutes : Routes μ out := hends
      exact (hfits task _ μ hview).routed pk addr (hroutes pk addr hsome)

end

def plainCrypto : Crypto where
  wgPublicFromPrivate := id
  diffieHellman := fun first second => first + second
  hmacSha256 := fun secret bytes =>
    BitVec.ofNat 256 (2 ^ 128 * (secret.toNat + number bytes.reverse + bytes.length))
  shared := fun first second => BitVec.add_comm first second

/-- An address on the segment. -/
def lanAddr (host : Nat) (port : BitVec 16) : SocketAddr :=
  ⟨.v4 (BitVec.ofNat 32 (0xC0A80400 + host)), port⟩

def laptop : Setup where
  X := plainCrypto
  me := { key := 3, port := 51820 }
  home := lanAddr 10 DEFAULT_PORT

def desktop : Peer plainCrypto where
  key := 7
  port := 51820
  source := lanAddr 20 DEFAULT_PORT

def pass (task steps : Nat) : List (Machine.Label (lan laptop)) :=
  .call (.select 0 (Table.empty.insert 7 true)) :: List.replicate steps (.step task {})

def taken (task index steps : Nat) : List (Machine.Label (lan laptop)) :=
  .call .receive :: List.replicate steps (.step task { index := index })

def honest : List (Machine.Label (lan laptop)) :=
  pass 0 7 ++ [.move (.sent desktop.source (encode 7 51820))] ++ taken 1 0 5 ++ pass 2 11 ++
    .call .probe :: List.replicate 5 (.step 3 { nonce := 5 }) ++
      [.move (.answered desktop 1)] ++ taken 4 2 7 ++ pass 5 9

def adoptedDesktop (_ : (lan laptop).Config) (h : History) : Bool :=
  h.adopted == [⟨7, lanAddr 20 51820, 0⟩]

theorem endpoints_proven_desktop :
    ∃ c h, Machine.Reach (history laptop) (Machine.passes (undisturbed laptop))
      ((lan laptop).idle {}) {} c h ∧ h.Proven c.shared ⟨7, lanAddr 20 51820, 0⟩ := by
  have hplay : (Machine.play (history laptop) (undisturbed laptop) ((lan laptop).idle {}) {}
      honest).any (fun last => adoptedDesktop last.1 last.2) = true := by
    decide
  have hrun : ∃ c h, Machine.Reach (history laptop) (Machine.passes (undisturbed laptop))
      ((lan laptop).idle {}) {} c h ∧ adoptedDesktop c h = true :=
    Machine.reach_of_play (fun _ _ _ hallowed => hallowed) hplay
  obtain ⟨c, h, hreach, hend⟩ := hrun
  have hadopted : h.adopted = [⟨7, lanAddr 20 51820, 0⟩] := eq_of_beq hend
  exact ⟨c, h, hreach, (endpoints_proven hreach).1 _ (hadopted ▸ List.mem_singleton_self _)⟩

/-- Someone announces the peer at an address of its own, and turns the probe that it gets back to the
engine, as the probe of the peer, and then the answer of the engine, as the answer of the peer. -/
def reflected : List (Machine.Label (lan laptop)) :=
  pass 0 7 ++ [.move (.sent (lanAddr 66 DEFAULT_PORT) (encode 7 51820))] ++ taken 1 0 5 ++ pass 2
    11 ++
    .call .probe :: List.replicate 5 (.step 3 { nonce := 5 }) ++
      [.move (.sent (lanAddr 66 DEFAULT_PORT)
        (encodeKinded 7 51820 KIND_PROBE 5 ((plainCrypto.beaconProbeMac 3 7 5).getD 0)))] ++
      taken 4 2 6 ++
      [.move (.sent (lanAddr 66 DEFAULT_PORT)
        (encodeKinded 7 51820 KIND_ACK 5 ((plainCrypto.beaconAckMac 3 7 5).getD 0)))] ++
      taken 5 4 7 ++ pass 6 8

def returnsStranger (c : (lan laptop).Config) (_ : History) : Bool :=
  match c.tasks 6 with
  | some ⟨.select _ _, .ret out, _⟩ =>
      out.get? 7 == some (lanAddr 66 51820) &&
        c.shared.network.all fun d => d.author != .holder 7
  | _ => false

theorem reflected_probe_adopted :
    ∃ c h task now reachable out c', Machine.Reach (history laptop) Machine.free
      ((lan laptop).idle {}) {} c h ∧
      Machine.Step c (.ended task (.select now reachable) (.ok out)) c' ∧
        out.get? 7 = some (lanAddr 66 51820) ∧ ∀ d ∈ c.shared.network, d.author ≠ .holder 7 := by
  have hplay : (Machine.play (history laptop) (fun _ _ _ => true) ((lan laptop).idle {}) {}
      reflected).any (fun last => returnsStranger last.1 last.2) = true := by
    decide
  have hrun : ∃ c h, Machine.Reach (history laptop) Machine.free ((lan laptop).idle {}) {} c h ∧
      returnsStranger c h = true :=
    Machine.reach_of_play (fun _ _ _ _ => trivial) hplay
  obtain ⟨c, h, hreach, hend⟩ := hrun
  unfold returnsStranger at hend
  split at hend
  · rename_i now reachable out resting hrunning
    obtain ⟨hout, hsilent⟩ := Bool.and_eq_true_iff.mp hend
    refine ⟨c, h, 6, now, reachable, out, c.leave 6, hreach, .finish hrunning, eq_of_beq hout,
      fun d hd hauthor => ?_⟩
    have hnot := List.all_eq_true.mp hsilent d hd
    rw [hauthor] at hnot
    simp at hnot
  · cases hend

end UnityLan.Engine.Beacon
