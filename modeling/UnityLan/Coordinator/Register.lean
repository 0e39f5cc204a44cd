import UnityLan.Coordinator.Snapshot

namespace UnityLan.Coordinator

open UnityLan.Foundation

/-! `/register` and `/refresh`: answer now, or hold the request until something
changes for its caller. -/

variable (conf : Conf)

def protoAdvice : ProtoReject → String
  | .peerTooOld => "the client is too old; update it"
  | .peerTooNew => "the coordinator is too old; update it"

def negotiate (req : RegisterReq) : Handler Nat :=
  match negotiateProto req.protoMin req.proto with
  | .ok version => return version
  | .error why =>
      -- a client that named no floor speaks exactly `proto`
      let clientMin := if req.protoMin = 0 then req.proto else req.protoMin
      throw ⟨.upgradeRequired,
        s!"wire protocol mismatch: client speaks {clientMin}..={req.proto}, coordinator speaks {MIN_PROTOCOL_VERSION}..={PROTOCOL_VERSION} — {protoAdvice why}"⟩

inductive Woke
  | herd
  | personal
  | elapsed
  | preempted
  deriving DecidableEq

def subscribeAll : List Scope → Prog sig ε Unit
  | [] => return
  | scope :: rest => do
      let _ ← act (.versions (.subscribe scope))
      subscribeAll rest

/-- The loop of a parked request.  Every receiver is marked seen before the
aggregate is read again, so a bump in between is still pending on its receiver. -/
def parkLoop (scopes : List Scope) (since deadline : Nat) : Nat → Handler Woke
  | 0 => do nomatch ← act .never
  | rounds + 1 => do
      let receivers ← readCounters scopes
      let version ← aggregate conf scopes
      if version ≠ since then return .herd
      else
        match ← act (.select receivers deadline) with
        | .scopes => parkLoop scopes since deadline rounds
        | .personal => return .personal
        | .preempted => return .preempted
        | .elapsed => return .elapsed

def waitPark (scopes : List Scope) (since : Nat) : Handler Woke := do
  subscribeAll scopes
  let started ← act .instant
  parkLoop conf scopes since (started + conf.longpollHoldSecs) (← act .rounds)

def hold (req : RegisterReq) (callerIp : IpAddr) (built : Built) : Handler RegisterResp := do
  if ← act (.tryAcquire req.wgPubkey) then
    let woke ← waitPark conf built.scopes built.resp.version
    -- jitter only a herd wake
    if woke = .herd then act .sleep
    return (← buildSnapshot conf req callerIp).resp
  else
    throw ⟨.tooManyRequests,
      "the coordinator is at its long-poll capacity; retry shortly"⟩

def register (req : RegisterReq) (callerIp : IpAddr) : Handler RegisterResp := do
  let _ ← negotiate req
  let wokenWhileAway ← act (.wakers (.subscribe req.wgPubkey))
  let built ← buildSnapshot conf req callerIp
  if !built.callerChanged && !wokenWhileAway && req.since == some built.resp.version then
    hold conf req callerIp built
  else return built.resp

end UnityLan.Coordinator
