import UnityLan.Engine.Sinks

namespace UnityLan.Engine

open UnityLan.Foundation Fw

/-! What a device asks its peers over the tunnel, and what arrives while it waits. -/

structure P2pResponse where
  proto : Nat
  body : RespBody

def P2P_PORT : BitVec 16 := 51830

/-- A request that waits on a socket of its own. -/
structure Ask where
  number : Nat
  pubkey : PubKey
  target : SocketAddr
  body : ReqBody
  /-- As the system chose it; it may choose it again. -/
  port : BitVec 16
  now : Nat

structure Datagram where
  sender : SocketAddr
  port : BitVec 16
  /-- What can be read of it. -/
  content : Option P2pResponse
  /-- The request that it is the answer to. -/
  answers : Option Nat := none

namespace Datagram

structure Replies (d : Datagram) (ask : Ask) : Prop where
  answers : d.answers = some ask.number
  sender : d.sender = ask.target

def body (d : Datagram) : Option RespBody :=
  d.content.map P2pResponse.body

end Datagram

structure Puller where
  asks : List Ask := []
  waiting : Option Ask := none
  /-- What was ever sent to the device. -/
  network : List Datagram := []
  /-- What `ask` returned. -/
  returned : List (Ask × RespBody) := []
  book : ServiceBook := ∅

inductive PullEvent
  /-- `pull` or `pull_services` of a seed. -/
  | asked (seed : SeedPeer) (body : ReqBody) (port : BitVec 16) (now : Nat)
  /-- The peer that was asked answers, with what it has and what the asker may reach. -/
  | answered (number : Nat) (own : List GuildAttestation) (services : OwnServices)
      (source : PeerAddr)
  /-- Anyone sends anything. -/
  | sent (sender : SocketAddr) (port : BitVec 16) (content : Option P2pResponse)
  /-- A datagram of the network, once more or for the first time. -/
  | arrived (index : Nat)
  /-- The socket fails. -/
  | failed
  | timedOut
  /-- The peers that are left in the mesh. -/
  | retained (present : List PubKey)

namespace Puller

variable (p : Puller)

def request (seed : SeedPeer) (body : ReqBody) (port : BitVec 16) (now : Nat) : Ask where
  number := p.asks.length
  pubkey := seed.pubkey
  target := ⟨.v4 seed.ip, P2P_PORT⟩
  body := body
  port := port
  now := now

def stored (ask : Ask) (body : RespBody) : ServiceBook :=
  match ask.body, pullServices (some body) with
  | .getServices, some services => p.book.insert ask.pubkey ⟨services, ask.now⟩
  | _, _ => p.book

def receive (ask : Ask) (d : Datagram) : Puller :=
  match d.body with
  | none => { p with waiting := none }
  | some body =>
      { p with
        waiting := none
        returned := p.returned ++ [(ask, body)]
        book := p.stored ask body }

def reply (ask : Ask) (own : List GuildAttestation) (services : OwnServices) (source : PeerAddr) :
    List Datagram :=
  (answerPeer own services source ⟨PROTOCOL_VERSION, ask.body⟩).toList.map fun body =>
    ⟨ask.target, ask.port, some ⟨PROTOCOL_VERSION, body⟩, some ask.number⟩

def step : PullEvent → Option Puller
  | .asked seed body port now =>
      if p.waiting.isSome then none
      else
        let ask := p.request seed body port now
        some { p with asks := p.asks ++ [ask], waiting := some ask }
  | .answered number own services source =>
      (p.asks[number]?).map fun ask =>
        { p with network := p.network ++ reply ask own services source }
  | .sent sender port content =>
      some { p with network := p.network ++ [{ sender, port, content }] }
  | .arrived index =>
      (p.network[index]?).map fun d =>
        match p.waiting with
        | some ask => if d.port = ask.port then p.receive ask d else p
        | none => p
  | .failed | .timedOut => some { p with waiting := none }
  | .retained present => some { p with book := p.book.retainPeers present }

/-- A datagram that arrives where one is waited for is the answer of the peer that was asked. -/
def Undisturbed (event : PullEvent) : Prop :=
  ∀ index ask d, event = .arrived index → p.waiting = some ask → p.network[index]? = some d →
    d.port = ask.port → d.Replies ask

/-- What a step may do with the request that waits. -/
structure Faithful (event : PullEvent) (p' : Puller) : Prop where
  ignored : ∀ index ask d, event = .arrived index → p.waiting = some ask →
    p.network[index]? = some d → ¬ d.Replies ask → p' = p
  returned : ∀ ask body, p'.returned = p.returned ++ [(ask, body)] →
    p.waiting = some ask ∧ ∃ d ∈ p.network, d.Replies ask ∧ d.body = some body

def Announced (pubkey : PubKey) (service : MeshService) : Prop :=
  ∃ ask ∈ p.asks, ask.pubkey = pubkey ∧ ∃ d ∈ p.network, d.Replies ask ∧
    ∃ services, d.body = some (.services services) ∧ service ∈ services

/-- What is claimed for the peers was announced by them. -/
def Truthful : Prop :=
  ∀ seeds, ∀ c ∈ peerClaims seeds p.book, p.Announced c.pubkey ⟨c.name, c.proto, c.port, c.kind⟩

/-! What arrives, and what is kept of it. -/

section

variable {p p' : Puller} {event : PullEvent} {ask : Ask} {d : Datagram} {index : Nat}

@[simp] theorem receive_waiting : (p.receive ask d).waiting = none := by
  unfold receive
  split <;> rfl

theorem receive_returned : (p.receive ask d).returned =
    p.returned ++ (d.body.toList.map fun body => (ask, body)) := by
  unfold receive
  split
  · rename_i hbody
    rw [hbody]
    exact (List.append_nil _).symm
  · rename_i body hbody
    rw [hbody]
    rfl

theorem step_arrived (hwaiting : p.waiting = some ask) (hsent : p.network[index]? = some d) :
    p.step (.arrived index) = some (if d.port = ask.port then p.receive ask d else p) := by
  unfold step
  dsimp only
  rw [hsent, hwaiting]
  rfl

theorem step_returned (hstep : p.step event = some p') :
    p'.returned = p.returned ∨ ∃ index ask d body, event = .arrived index ∧
      p.waiting = some ask ∧ p.network[index]? = some d ∧ d.port = ask.port ∧
        d.body = some body ∧ p'.returned = p.returned ++ [(ask, body)] := by
  cases event with
  | asked seed body port now =>
      unfold step at hstep
      dsimp only at hstep
      split at hstep
      · cases hstep
      · cases hstep
        exact .inl rfl
  | answered number own services source =>
      obtain ⟨_, _, rfl⟩ := Option.map_eq_some_iff.mp hstep
      exact .inl rfl
  | arrived index =>
      obtain ⟨d, hsent, hgot⟩ := Option.map_eq_some_iff.mp hstep
      cases hwaiting : p.waiting with
      | none =>
          rw [hwaiting] at hgot
          exact .inl (hgot ▸ rfl)
      | some ask =>
          rw [hwaiting] at hgot
          dsimp only at hgot
          split at hgot
          · rename_i hport
            cases hbody : d.body with
            | none =>
                left
                rw [← hgot, receive_returned, hbody]
                exact List.append_nil _
            | some body =>
                refine .inr ⟨index, ask, d, body, rfl, rfl, hsent, hport, hbody, ?_⟩
                rw [← hgot, receive_returned, hbody]
                rfl
          · exact .inl (hgot ▸ rfl)
  | sent | failed | timedOut | retained =>
      cases hstep
      exact .inl rfl

theorem faithful_iff (hstep : p.step event = some p') :
    p.Faithful event p' ↔ p.Undisturbed event := by
  constructor
  · rintro hfaithful index ask d rfl hwaiting hsent hport
    by_contra hother
    have hsame := hfaithful.ignored index ask d rfl hwaiting hsent hother
    rw [step_arrived hwaiting hsent, if_pos hport, hsame, Option.some.injEq] at hstep
    have hended : p.waiting = none := hstep ▸ receive_waiting
    rw [hwaiting] at hended
    cases hended
  · intro hundisturbed
    refine ⟨?_, fun ask body hreturned => ?_⟩
    · rintro index ask d rfl hwaiting hsent hother
      rw [step_arrived hwaiting hsent, if_neg, Option.some.injEq] at hstep
      · exact hstep.symm
      · exact fun hport => hother (hundisturbed index ask d rfl hwaiting hsent hport)
    · rcases step_returned hstep with hnone | ⟨index, ask', d, body', rfl, hwaiting, hsent, hport,
        hbody, hone⟩
      · rw [hnone] at hreturned
        exact absurd hreturned (by simp)
      · rw [hone, List.append_cancel_left_eq, List.singleton_inj, Prod.mk.injEq] at hreturned
        obtain ⟨rfl, rfl⟩ := hreturned
        exact ⟨hwaiting, d, List.mem_of_getElem? hsent,
          hundisturbed index _ d rfl hwaiting hsent hport, hbody⟩

structure Heard (p : Puller) : Prop where
  asked : ∀ ask, p.waiting = some ask → ask ∈ p.asks
  announced : ∀ pubkey entry, p.book.get? pubkey = some entry →
    ∀ service ∈ entry.services, p.Announced pubkey service

theorem Announced.mono {pubkey : PubKey} {service : MeshService}
    (hannounced : p.Announced pubkey service) (hasks : p.asks ⊆ p'.asks)
    (hnetwork : p.network ⊆ p'.network) : p'.Announced pubkey service := by
  obtain ⟨ask, hask, hkey, d, hd, hholds⟩ := hannounced
  exact ⟨ask, hasks hask, hkey, d, hnetwork hd, hholds⟩

theorem mem_pulled {body : RespBody} {services : List MeshService}
    (hpulled : pullServices (some body) = some services) {service : MeshService}
    (hservice : service ∈ services) :
    ∃ announced, body = .services announced ∧ service ∈ announced := by
  cases body with
  | services announced =>
      cases hpulled
      exact ⟨announced, rfl, List.mem_of_mem_filter (List.mem_of_mem_take hservice)⟩
  | unsupported =>
      cases hpulled
      cases hservice
  | attestations _ => cases hpulled
  | unknown => cases hpulled

theorem Heard.receive (hheard : p.Heard) (hwaiting : p.waiting = some ask) (hd : d ∈ p.network)
    (hreplies : d.Replies ask) : (p.receive ask d).Heard := by
  refine ⟨fun other hother => ?_, fun pubkey entry hentry service hservice => ?_⟩
  · rw [receive_waiting] at hother
    cases hother
  · have hkept : ∀ service, p.Announced pubkey service →
        (p.receive ask d).Announced pubkey service := fun service hannounced => by
      refine hannounced.mono ?_ ?_ <;> unfold Puller.receive <;> split <;> exact List.Subset.refl _
    apply hkept
    unfold Puller.receive at hentry
    split at hentry
    · exact hheard.announced pubkey entry hentry service hservice
    · rename_i body hbody
      dsimp only at hentry
      unfold stored at hentry
      split at hentry
      · rename_i services _ hpulled
        rw [Table.get?_insert] at hentry
        split at hentry
        · rename_i hkey
          cases hentry
          obtain ⟨announced, rfl, hmem⟩ := mem_pulled hpulled hservice
          exact ⟨ask, hheard.asked ask hwaiting, hkey.symm, d, hd, hreplies, announced, hbody, hmem⟩
        · exact hheard.announced pubkey entry hentry service hservice
      · exact hheard.announced pubkey entry hentry service hservice

theorem Heard.step (hheard : p.Heard) (hundisturbed : p.Undisturbed event)
    (hstep : p.step event = some p') : p'.Heard := by
  cases event with
  | asked seed body port now =>
      unfold Puller.step at hstep
      dsimp only at hstep
      split at hstep
      · cases hstep
      · cases hstep
        refine ⟨?_, fun pubkey entry hentry service hservice => ?_⟩
        · rintro ask ⟨⟩
          exact List.mem_append_right _ List.mem_cons_self
        · exact (hheard.announced pubkey entry hentry service hservice).mono
            (List.subset_append_left ..) (List.Subset.refl _)
  | answered number own services source =>
      obtain ⟨ask, _, rfl⟩ := Option.map_eq_some_iff.mp hstep
      refine ⟨hheard.asked, fun pubkey entry hentry service hservice => ?_⟩
      exact (hheard.announced pubkey entry hentry service hservice).mono
        (List.Subset.refl _) (List.subset_append_left ..)
  | sent sender port content =>
      cases hstep
      refine ⟨hheard.asked, fun pubkey entry hentry service hservice => ?_⟩
      exact (hheard.announced pubkey entry hentry service hservice).mono
        (List.Subset.refl _) (List.subset_append_left ..)
  | arrived index =>
      obtain ⟨d, hsent, hgot⟩ := Option.map_eq_some_iff.mp hstep
      cases hwaiting : p.waiting with
      | none =>
          rw [hwaiting] at hgot
          exact hgot ▸ hheard
      | some ask =>
          rw [hwaiting] at hgot
          dsimp only at hgot
          split at hgot
          · rename_i hport
            exact hgot ▸ hheard.receive hwaiting (List.mem_of_getElem? hsent)
              (hundisturbed index ask d rfl hwaiting hsent hport)
          · exact hgot ▸ hheard
  | failed =>
      cases hstep
      exact ⟨fun _ hnone => (by cases hnone), hheard.announced⟩
  | timedOut =>
      cases hstep
      exact ⟨fun _ hnone => (by cases hnone), hheard.announced⟩
  | retained present =>
      cases hstep
      refine ⟨hheard.asked, fun pubkey entry hentry service hservice => ?_⟩
      exact hheard.announced pubkey entry (Table.get?_of_retain hentry) service hservice

theorem Heard.truthful (hheard : p.Heard) : p.Truthful := by
  intro seeds c hc
  obtain ⟨seed, _, hclaim⟩ := List.mem_flatMap.mp hc
  obtain ⟨service, hservice, rfl⟩ := List.mem_map.mp hclaim
  cases hentry : p.book.get? seed.pubkey with
  | none =>
      rw [hentry] at hservice
      cases hservice
  | some entry =>
      rw [hentry] at hservice
      exact hheard.announced seed.pubkey entry hentry service hservice

theorem heard_empty : Heard {} where
  asked := fun _ hnone => by cases hnone
  announced := fun _ _ hnone => by cases hnone

end

end Puller

/-- In a run, each request is settled by the answer of the peer that was asked, and what is claimed
for the peers was announced by them, exactly where no other datagram arrives while one waits. -/
theorem answers_faithful_iff (events : List PullEvent) :
    (AtEach Puller.step {} events Puller.Faithful ∧
      Throughout Puller.step {} events Puller.Truthful) ↔
      AtEach Puller.step {} events fun p event _ => p.Undisturbed event := by
  constructor
  · rintro ⟨hfaithful, _⟩ before event p p' hinit hrun hstep
    exact (Puller.faithful_iff hstep).mp (hfaithful before event p p' hinit hrun hstep)
  · intro hundisturbed
    constructor
    · intro before event p p' hinit hrun hstep
      exact (Puller.faithful_iff hstep).mpr (hundisturbed before event p p' hinit hrun hstep)
    · exact Throughout.of_atEach Puller.Heard hundisturbed Puller.heard_empty
        (fun _ _ _ hheard hundisturbed hstep => hheard.step hundisturbed hstep)
        fun _ hheard => hheard.truthful

/-- A stranger is faster than the peer that is asked. -/
def intrusion : List PullEvent :=
  [.asked (gamer 9 5 "acme") .getServices 40000 0,
    .sent ⟨.v4 66, 7⟩ 40000 (some ⟨1, .services [⟨"wiki", .tcp, 80, .web⟩]⟩),
    .arrived 0]

/-- Its services are those of the peer. -/
theorem stranger_announces :
    ¬ (AtEach Puller.step {} intrusion Puller.Faithful ∧
      Throughout Puller.step {} intrusion Puller.Truthful) := by
  rintro ⟨_, htruthful⟩
  have hplay : (runs Puller.step {} intrusion).any (fun p =>
      (peerClaims [gamer 9 5 "acme"] p.book).length = 1 ∧ p.network.all fun d =>
        d.answers = none) = true := by
    decide
  obtain ⟨p, hrun, hend⟩ := (Option.any_eq_true _ _).mp hplay
  obtain ⟨hone, hnone⟩ := of_decide_eq_true hend
  obtain ⟨c, hc⟩ := List.exists_mem_of_length_pos (Nat.lt_of_lt_of_eq Nat.one_pos hone.symm)
  obtain ⟨ask, _, _, d, hd, hreplies, _⟩ :=
    htruthful intrusion p (List.prefix_refl intrusion) hrun _ c hc
  have hanswers := List.all_eq_true.mp hnone d hd
  rw [hreplies.answers] at hanswers
  cases hanswers

end UnityLan.Engine
