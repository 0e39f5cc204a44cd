import UnityLan.Coordinator.LongPoll

namespace UnityLan.Coordinator

open UnityLan.Foundation Prog

/-! Whether what a device set with its last request that was handled stands while an
older request of it is still in flight. -/

/-- What the requests of a device set: where it is present and as whom, its relay, and
what it reported about pairs.  A reflexive address is not kept by who reported it. -/
structure DeviceState where
  networks : List ((GuildId × RoleId × PubKey) × MemberPresence)
  own : List ((UserId × PubKey) × MemberPresence)
  relay : Option RelayReg
  reflexive : List (PubKey × SocketAddr)
  allocs : List ((PubKey × PubKey) × SocketAddr)
  ice : List ((PubKey × PubKey) × IceParams)
  deriving DecidableEq

def AppState.deviceState (st : AppState) (device : PubKey) : DeviceState where
  networks := (st.presence.map.rows.filter (·.1.2.2 == device)).map fun row => (row.1, row.2.p)
  own := (st.presence.selfMap.rows.filter (·.1.2 == device)).map fun row => (row.1, row.2.p)
  relay := st.nat.relays.get? device
  reflexive := st.nat.reflexive.rows
  allocs := st.nat.relayAllocs.rows.filter (·.1.1 == device)
  ice := st.nat.ice.rows.filter (·.1.1 == device)

/-- A request in flight. -/
structure Ran where
  /-- Its place in the order in which requests were issued. -/
  order : Nat
  device : PubKey
  parked : Bool := false
  /-- A newer request of its device has been handled. -/
  outdated : Bool := false
  deriving DecidableEq

namespace Ran

def behind (older newer : Ran) : Bool :=
  older.device == newer.device && older.order < newer.order

def passedBy (newer older : Ran) : Ran :=
  if older.behind newer then { older with outdated := true } else older

end Ran

structure Requests where
  issued : Nat := 0
  running : Table Nat Ran := ∅
  /-- The tasks of outdated requests that changed the state of their device. -/
  overwrites : List Nat := []

namespace Requests

def enter (r : Requests) (task : Nat) (device : PubKey) : Requests :=
  { r with
    issued := r.issued + 1
    running := r.running.insert task { order := r.issued, device := device } }

def leave (r : Requests) (task : Nat) : Requests :=
  { r with running := r.running.erase task }

def park (r : Requests) (task : Nat) (parked : Bool) : Requests :=
  { r with running := r.running.modify task fun ran => { ran with parked := parked } }

def handled (r : Requests) (task : Nat) : Requests :=
  match r.running.get? task with
  | some newer => { r with running := r.running.mapValues fun _ => newer.passedBy }
  | none => r

def outdated (r : Requests) (task : Nat) : Bool :=
  (r.running.get? task).any (·.outdated)

def note (r : Requests) (task : Nat) (st st' : AppState) : Requests :=
  match r.running.get? task with
  | some ran =>
      if ran.outdated = true ∧ st'.deviceState ran.device ≠ st.deviceState ran.device then
        { r with overwrites := task :: r.overwrites }
      else r
  | none => r

def did (r : Requests) (task : Nat) : (o : Op) → o.Res → Requests
  | .tryAcquire _, acquired => (r.handled task).park task acquired
  | .select .., arm => if arm = .scopes then r else r.park task false
  | .sleep, _ => r.park task false
  | _, _ => r

def restBehind (r : Requests) (task : Nat) : Bool :=
  match r.running.get? task with
  | some newer => r.running.rows.all fun row => !row.2.behind newer || row.2.parked
  | none => true

end Requests

variable (conf : Conf)

def requests : Machine.Observer (machine conf) Requests where
  see := fun r st event st' =>
    match event with
    | .called task (.register req _) => r.enter task req.wgPubkey
    | .called task _ => r.leave task
    | .did task o answer => (r.note task st st').did task o answer
    | .ended task (.register ..) (.ok _) => (r.handled task).leave task
    | .ended task _ _ => r.leave task
    | .dropped task _ => r.leave task
    | .moved _ => r

/-- When a request is handled, the older ones of its device are parked, and from then on
none of them wakes. -/
def olderRest (r : Requests) (_ : AppState) : (machine conf).Event → Bool
  | .did task (.tryAcquire _) _ => r.restBehind task
  | .ended task (.register ..) (.ok _) => r.restBehind task
  | .did task (.select ..) arm => arm == .scopes || !r.outdated task
  | .did task .sleep _ => !r.outdated task
  | _ => true

/-! The monitor: a parked request only waits. -/

inductive RequestStage
  | building
  | parked
  deriving DecidableEq

namespace RequestStage

def allows : RequestStage → Op → Prop
  | .building, _ => True
  | .parked, o => ParkOp o ∨ o = .sleep

def next (stage : RequestStage) : (o : Op) → o.Res → RequestStage
  | .tryAcquire _, acquired => if acquired then .parked else .building
  | .select .., arm => if arm = .scopes then stage else .building
  | .sleep, _ => .building
  | _, _ => stage

def mon : Monitor sig RequestStage where
  allows := allows
  expects := fun _ _ _ => True
  next := next

end RequestStage

def BuildOp : Op → Prop
  | .tryAcquire _ => False
  | _ => True

theorem build_builds {program : Prog sig ε α} (hprogram : program.Uses BuildOp) :
    program.Conforms RequestStage.mon (fun stage _ => stage = .building) .building := by
  refine hprogram.conforms fun o ho => ⟨trivial, fun answer => ?_⟩
  cases o with
  | tryAcquire pubkey => exact ho.elim
  | select receivers deadline => exact ite_self _
  | _ => rfl

theorem returned {program : Prog sig ε α} {stage next : RequestStage}
    (hprogram : program.Conforms RequestStage.mon (fun stage _ => stage = next) stage) :
    program.Conforms RequestStage.mon (returns fun stage _ => stage = next) stage :=
  hprogram.mono fun _ result hstage => by
    cases result with
    | ok value => exact hstage
    | error error => trivial

theorem counters_wait {program : Prog sig ε α} (hprogram : program.Uses CounterOp) :
    program.Conforms RequestStage.mon (fun stage _ => stage = .parked) .parked := by
  refine hprogram.conforms fun o ho => ⟨.inl (counter_park o ho), fun answer => ?_⟩
  unfold CounterOp at ho
  split at ho
  · rfl
  · exact ho.elim

theorem subscribes_wait (scopes : List Scope) :
    (subscribeAll scopes : Prog sig ε Unit).Conforms RequestStage.mon
      (returns fun stage _ => stage = .parked) .parked := by
  induction scopes with
  | nil => rfl
  | cons scope rest ih =>
      unfold subscribeAll
      rw [conforms_act_bind]
      exact ⟨.inl trivial, fun _ _ => ih⟩

section

variable {conf} {req : RegisterReq}

theorem parkLoop_waits (scopes : List Scope) (since deadline rounds : Nat) :
    (parkLoop conf scopes since deadline rounds).Conforms RequestStage.mon
      (returns fun stage woke => woke ≠ .herd → stage = .building) .parked := by
  induction rounds with
  | zero =>
      unfold parkLoop
      rw [conforms_act_bind]
      exact ⟨.inl trivial, fun answer => Empty.elim answer⟩
  | succ rounds ih =>
      have hreceivers : (readCounters scopes : Handler _).Conforms RequestStage.mon
          (returns fun stage _ => stage = .parked) .parked :=
        returned (counters_wait (readCounters_uses scopes))
      have hversion : (aggregate conf scopes : Handler _).Conforms RequestStage.mon
          (returns fun stage _ => stage = .parked) .parked :=
        returned (counters_wait (aggregate_uses conf scopes))
      unfold parkLoop
      refine hreceivers.andThen fun stage receivers hstage => ?_
      subst hstage
      refine hversion.andThen fun stage version hstage => ?_
      subst hstage
      split
      · exact fun hherd => absurd rfl hherd
      · rw [conforms_act_bind]
        refine ⟨.inl trivial, fun arm _ => ?_⟩
        cases arm with
        | scopes => exact ih
        | personal => exact fun _ => rfl
        | preempted => exact fun _ => rfl
        | elapsed => exact fun _ => rfl

theorem waitPark_waits (scopes : List Scope) (since : Nat) :
    (waitPark conf scopes since).Conforms RequestStage.mon
      (returns fun stage woke => woke ≠ .herd → stage = .building) .parked := by
  unfold waitPark
  refine (subscribes_wait scopes).andThen fun stage _ hstage => ?_
  subst hstage
  simp only [conforms_act_bind]
  exact ⟨.inl trivial, fun _ _ => ⟨.inl trivial, fun _ _ => parkLoop_waits _ _ _ _⟩⟩

theorem buildSnapshot_uses_build (callerIp : IpAddr) :
    (buildSnapshot conf req callerIp).Uses BuildOp := by
  have hadmission : ∀ o, AdmissionOp req o → BuildOp o := by
    intro o ho
    cases o <;> trivial
  have hsettle : ∀ o, SettleOp req o → BuildOp o := by
    intro o ho
    cases o <;> trivial
  have htell : ∀ o, TellOp req o → BuildOp o := by
    intro o ho
    rcases ho with ho | ho <;> cases o <;> trivial
  unfold buildSnapshot validatePeerReports
  refine Uses.bind (by split <;> trivial) fun _ => ?_
  refine ((resolveUser_uses conf).mono hadmission).bind fun caller => ?_
  refine ((settle_uses conf _ _).mono hsettle).bind fun settled => ?_
  exact (answer_uses conf _ _ _).mono htell

theorem buildSnapshot_builds (callerIp : IpAddr) :
    (buildSnapshot conf req callerIp).Conforms RequestStage.mon
      (returns fun stage _ => stage = .building) .building :=
  returned (build_builds (buildSnapshot_uses_build callerIp))

theorem hold_waits (callerIp : IpAddr) (built : Built) :
    (hold conf req callerIp built).Conforms RequestStage.mon (returns fun _ _ => True) .building := by
  have hrebuild : (do return (← buildSnapshot conf req callerIp).resp :
      Handler RegisterResp).Conforms RequestStage.mon (returns fun _ _ => True) .building :=
    (buildSnapshot_builds callerIp).andThen fun _ _ _ => trivial
  unfold hold
  rw [conforms_act_bind]
  refine ⟨trivial, fun acquired _ => ?_⟩
  cases acquired with
  | false => trivial
  | true =>
      refine (waitPark_waits _ _).andThen fun stage woke hstage => ?_
      split
      · rw [conforms_act_bind]
        refine ⟨?_, fun _ _ => hrebuild⟩
        cases stage with
        | building => trivial
        | parked => exact .inr rfl
      · rename_i hherd
        rw [hstage hherd]
        exact hrebuild

theorem register_waits (callerIp : IpAddr) :
    (register conf req callerIp).Conforms RequestStage.mon (returns fun _ _ => True) .building := by
  unfold register negotiate
  split
  · rw [pure_eq, ret_bind, conforms_act_bind]
    refine ⟨trivial, fun woken _ => ?_⟩
    refine (buildSnapshot_builds callerIp).andThen fun stage built hstage => ?_
    have hstage : stage = .building := hstage
    subst hstage
    split
    · exact hold_waits callerIp built
    · trivial
  · trivial

theorem handle_waits (call : Call) :
    (handle conf call).Conforms RequestStage.mon (fun _ _ => True) .building := by
  have hside : ∀ o, SideOp o → BuildOp o := by
    intro o ho
    cases o <;> trivial
  have hother : ∀ call, (∀ o, CallOp call o → SideOp o) →
      (handle conf call).Conforms RequestStage.mon (fun _ _ => True) .building := by
    intro call hcall
    have huses := (handle_uses conf call).mono fun o ho => hside o (hcall o ho)
    exact (build_builds huses).mono fun _ _ _ => trivial
  cases call with
  | register req callerIp =>
      have hregister : (handle conf (.register req callerIp)).Conforms RequestStage.mon
          (returns fun _ _ => True) .building :=
        (register_waits callerIp).andThen fun _ _ _ => trivial
      exact hregister.mono fun _ _ _ => trivial
  | _ => exact hother _ fun _ ho => ho

end

/-! The invariant. -/

structure RequestsInv (r : Requests) (views : Nat → Option (Call × RequestStage)) : Prop where
  parked : ∀ task call stage ran, views task = some (call, stage) →
    r.running.get? task = some ran → ran.parked = true → stage = .parked
  outdated : ∀ task ran, r.running.get? task = some ran → ran.outdated = true → ran.parked = true
  kept : r.overwrites = []

section

variable {conf} {r : Requests} {views : Nat → Option (Call × RequestStage)} {task : Nat} {call : Call}
  {stage : RequestStage}

theorem deviceState_kept {o : Op} {choice : Choice} {answer : o.Res} {st st' : AppState}
    (ho : ParkOp o ∨ o = .sleep)
    (hexec : AppState.exec conf task o choice st = some (answer, st')) (device : PubKey) :
    st'.deviceState device = st.deviceState device := by
  have hframe := AppState.exec_frame hexec
  have hpresence : st'.presence = st.presence := by
    refine hframe.presence fun p hp => ?_
    subst hp
    rcases ho with ho | ho
    · exact ho.elim
    · cases ho
  have hnat : st'.nat = st.nat := by
    refine hframe.nat fun n hn => ?_
    subst hn
    rcases ho with ho | ho
    · exact ho.elim
    · cases ho
  unfold AppState.deviceState
  rw [hpresence, hnat]

theorem RequestsInv.waiting (hinv : RequestsInv r views) (hview : views task = some (call, stage))
    {ran : Ran} (hran : r.running.get? task = some ran) (houtdated : ran.outdated = true) :
    stage = .parked :=
  hinv.parked task call stage ran hview hran (hinv.outdated task ran hran houtdated)

theorem RequestsInv.note_eq {o : Op} {choice : Choice} {answer : o.Res} {st st' : AppState}
    (hinv : RequestsInv r views) (hview : views task = some (call, stage))
    (hallows : RequestStage.allows stage o)
    (hexec : AppState.exec conf task o choice st = some (answer, st')) :
    r.note task st st' = r := by
  unfold Requests.note
  split
  · rename_i ran hran
    split
    · rename_i hchanged
      have hstage := hinv.waiting hview hran hchanged.1
      subst hstage
      exact absurd (deviceState_kept hallows hexec ran.device) hchanged.2
    · rfl
  · rfl

theorem RequestsInv.set (hinv : RequestsInv r views) {r' : Requests}
    {view : Option (Call × RequestStage)} (hkept : r'.overwrites = r.overwrites)
    (hrest : ∀ other, other ≠ task → r'.running.get? other = r.running.get? other)
    (hself : ∀ ran, r'.running.get? task = some ran →
      (∀ call stage, view = some (call, stage) → ran.parked = true → stage = .parked) ∧
        (ran.outdated = true → ran.parked = true)) :
    RequestsInv r' (Function.update views task view) := by
  refine ⟨fun other call stage ran hview hran hparked => ?_, fun other ran hran houtdated => ?_,
    hkept.trans hinv.kept⟩
  · rcases eq_or_ne other task with rfl | hother
    · rw [Function.update_self] at hview
      exact (hself ran hran).1 call stage hview hparked
    · rw [Function.update_of_ne hother] at hview
      rw [hrest other hother] at hran
      exact hinv.parked other call stage ran hview hran hparked
  · rcases eq_or_ne other task with rfl | hother
    · exact (hself ran hran).2 houtdated
    · rw [hrest other hother] at hran
      exact hinv.outdated other ran hran houtdated

theorem passedBy_parked (newer older : Ran) : (newer.passedBy older).parked = older.parked := by
  unfold Ran.passedBy
  split <;> rfl

theorem RequestsInv.handled (hinv : RequestsInv r views) (hrest : r.restBehind task = true) :
    RequestsInv (r.handled task) views := by
  unfold Requests.handled
  unfold Requests.restBehind at hrest
  split
  · rename_i newer hnewer
    rw [hnewer] at hrest
    refine ⟨fun other call stage ran hview hran hparked => ?_, fun other ran hran houtdated => ?_,
      hinv.kept⟩
    · rw [Table.get?_mapValues] at hran
      obtain ⟨older, holder, rfl⟩ := Option.map_eq_some_iff.mp hran
      rw [passedBy_parked] at hparked
      exact hinv.parked other call stage older hview holder hparked
    · rw [Table.get?_mapValues] at hran
      obtain ⟨older, holder, rfl⟩ := Option.map_eq_some_iff.mp hran
      rw [passedBy_parked]
      by_cases hbehind : older.behind newer = true
      · have hrow := List.all_eq_true.mp hrest (other, older) (Table.mem_rows.mpr holder)
        simpa [hbehind] using hrow
      · rw [Ran.passedBy, if_neg hbehind] at houtdated
        exact hinv.outdated other older holder houtdated
  · exact hinv

theorem behind_self (ran : Ran) : ran.behind ran = false := by
  simp [Ran.behind]

theorem handled_outdated {ran : Ran} (hran : (r.handled task).running.get? task = some ran)
    (houtdated : ran.outdated = true) : ∃ before, r.running.get? task = some before ∧
      before.outdated = true := by
  unfold Requests.handled at hran
  split at hran
  · rename_i newer hnewer
    rw [Table.get?_mapValues, hnewer, Option.map_some, Option.some.injEq] at hran
    subst hran
    rw [Ran.passedBy, if_neg (by rw [behind_self]; exact Bool.false_ne_true)] at houtdated
    exact ⟨newer, hnewer, houtdated⟩
  · exact ⟨ran, hran, houtdated⟩

theorem RequestsInv.park (hinv : RequestsInv r views) {parked : Bool}
    (hstage : parked = true → stage = .parked)
    (hcurrent : ∀ ran, r.running.get? task = some ran → ran.outdated = false) :
    RequestsInv (r.park task parked) (Function.update views task (some (call, stage))) := by
  refine hinv.set rfl (fun other hother => ?_) fun ran hran => ?_
  · unfold Requests.park
    rw [Table.get?_modify, if_neg hother]
  · unfold Requests.park at hran
    rw [Table.get?_modify, if_pos rfl] at hran
    obtain ⟨before, hbefore, rfl⟩ := Option.map_eq_some_iff.mp hran
    refine ⟨fun call stage hcall hparked => ?_, fun houtdated => ?_⟩
    · cases hcall
      exact hstage hparked
    · exact absurd houtdated (by simp [hcurrent before hbefore])

theorem not_outdated (hcurrent : (!r.outdated task) = true) {ran : Ran}
    (hran : r.running.get? task = some ran) : ran.outdated = false := by
  simpa [Requests.outdated, hran] using hcurrent

theorem RequestsInv.wakes (hinv : RequestsInv r views) (hcurrent : (!r.outdated task) = true) :
    RequestsInv (r.park task false) (Function.update views task (some (call, stage))) :=
  hinv.park (fun h => absurd h Bool.false_ne_true) fun _ hran => not_outdated hcurrent hran

theorem RequestsInv.same (hinv : RequestsInv r views) (hview : views task = some (call, stage)) :
    RequestsInv r (Function.update views task (some (call, stage))) := by
  rw [← hview, Function.update_eq_self]
  exact hinv

theorem RequestsInv.did {o : Op} {choice : Choice} {answer : o.Res} {st st' : AppState}
    (hinv : RequestsInv r views) (hview : views task = some (call, stage))
    (hallows : RequestStage.allows stage o)
    (hexec : AppState.exec conf task o choice st = some (answer, st'))
    (htest : olderRest conf r st (.did task o answer) = true) :
    RequestsInv ((r.note task st st').did task o answer)
      (Function.update views task (some (call, RequestStage.next stage o answer))) := by
  rw [hinv.note_eq hview hallows hexec]
  cases o with
  | tryAcquire pubkey =>
      have hstage : stage = .building := by
        cases stage with
        | building => rfl
        | parked =>
            rcases hallows with ho | ho
            · exact ho.elim
            · cases ho
      refine (hinv.handled htest).park (fun hacquired => ?_) fun ran hran => ?_
      · exact if_pos hacquired
      · by_contra houtdated
        rw [Bool.not_eq_false] at houtdated
        obtain ⟨before, hbefore, hwas⟩ := handled_outdated hran houtdated
        have hparked := hinv.waiting hview hbefore hwas
        rw [hstage] at hparked
        cases hparked
  | select receivers deadline =>
      cases answer with
      | scopes => exact hinv.same hview
      | personal => exact hinv.wakes htest
      | preempted => exact hinv.wakes htest
      | elapsed => exact hinv.wakes htest
  | sleep =>
      exact hinv.wakes htest
  | _ => exact hinv.same hview

theorem RequestsInv.entered (hinv : RequestsInv r views) (device : PubKey) :
    RequestsInv (r.enter task device) (Function.update views task (some (call, stage))) := by
  refine hinv.set rfl (fun other hother => ?_) fun ran hran => ?_
  · unfold Requests.enter
    rw [Table.get?_insert, if_neg hother]
  · unfold Requests.enter at hran
    rw [Table.get?_insert, if_pos rfl, Option.some.injEq] at hran
    subst hran
    exact ⟨fun _ _ _ hparked => absurd hparked Bool.false_ne_true,
      fun houtdated => absurd houtdated Bool.false_ne_true⟩

theorem RequestsInv.left (hinv : RequestsInv r views) (view : Option (Call × RequestStage)) :
    RequestsInv (r.leave task) (Function.update views task view) := by
  refine hinv.set rfl (fun other hother => ?_) fun ran hran => ?_
  · unfold Requests.leave
    rw [Table.get?_erase, if_neg hother]
  · unfold Requests.leave at hran
    rw [Table.get?_erase, if_pos rfl] at hran
    cases hran

end

def requestsDiscipline :
    Machine.Discipline (machine conf) (requests conf) (Machine.passes (olderRest conf)) RequestStage where
  mon := RequestStage.mon
  opening := fun _ _ _ => .building
  post := fun _ _ _ => True
  inv := fun r _ views => RequestsInv r views
  conforms := fun _ _ call => handle_waits call
  called := by
    intro r st views task call hinv _ _
    cases call with
    | register req callerIp => exact hinv.entered req.wgPubkey
    | _ => exact hinv.left _
  did := fun hinv hview hallows hexec htest =>
    ⟨trivial, hinv.did hview hallows hexec htest⟩
  ended := by
    intro r st views task call stage result hinv hview _ htest
    cases call with
    | register req callerIp =>
        cases result with
        | ok reply => exact (hinv.handled htest).left none
        | error error => exact hinv.left none
    | _ => exact hinv.left none
  dropped := fun hinv _ _ => hinv.left none
  moved := fun hinv _ _ => hinv

/-! What a device set stands. -/

def withdrawing (pubkey : PubKey) : RegisterReq :=
  { wgPubkey := pubkey, deviceName := "pc", deviceToken := some "token", paused := true }

open Script in
def parkThenWithdraw : Script Conf.small :=
  call (.register (enrolling 1) (.v4 0)) ++ steps 0 24 (.text "token") ++ steps 0 55 (.key 99) ++
    call (.register (renewing 1 33601) (.v4 0)) ++ steps 1 62 (.rounds 2) ++
    call (.register (withdrawing 1) (.v4 0)) ++ steps 2 57 (.key 99)

open Script in
def withdrawalWakes : Script Conf.small :=
  parkThenWithdraw ++ steps 1 1 (.arm .scopes) ++ steps 1 34 .go

def presentAgain (c : (machine Conf.small).Config) (r : Requests) : Bool :=
  r.overwrites == [1] && !(c.shared.deviceState 1).networks.isEmpty

end UnityLan.Coordinator
