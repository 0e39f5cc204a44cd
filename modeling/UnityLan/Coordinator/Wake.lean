import UnityLan.Common.Basic
import UnityLan.Foundation.Table

namespace UnityLan.Coordinator

open UnityLan.Foundation

/-! Targeted wakes and the parking slots of held requests.  A receiver and a
permit live in the task that asked for them, so they are filed under its number
and go when the task goes. -/

structure Waker where
  version : Nat := 0
  /-- A wake fired while no receiver was alive. -/
  pending : Bool := false
  deriving DecidableEq

structure PersonalReceiver where
  pubkey : PubKey
  seen : Nat
  deriving DecidableEq

structure Wakers where
  map : Table PubKey Waker := ∅
  receivers : Table Nat PersonalReceiver := ∅
  subs : Nat := 0

def WAKERS_GC_EVERY : Nat := 64

namespace Wakers

def receiverCount (wakers : Wakers) (pubkey : PubKey) : Nat :=
  (wakers.receivers.values.filter fun receiver => receiver.pubkey == pubkey).length

def sweep (wakers : Wakers) : Wakers :=
  if wakers.subs % WAKERS_GC_EVERY = 0 then
    { wakers with
      map := wakers.map.retain fun pubkey waker =>
        decide (wakers.receiverCount pubkey > 0) || waker.pending }
  else wakers

def waker (wakers : Wakers) (pubkey : PubKey) : Waker :=
  (wakers.map.get? pubkey).getD {}

/-- Register interest; the answer tells whether a wake landed while the device had
nothing in flight. -/
def subscribe (wakers : Wakers) (task : Nat) (pubkey : PubKey) : Bool × Wakers :=
  let swept := { wakers with subs := (wakers.subs + 1) % 2 ^ 32 }.sweep
  let waker := swept.waker pubkey
  (waker.pending,
    { swept with
      map := swept.map.insert pubkey { waker with pending := false }
      receivers := swept.receivers.insert task ⟨pubkey, waker.version⟩ })

def wake (wakers : Wakers) (pubkey : PubKey) : Wakers :=
  let waker := wakers.waker pubkey
  { wakers with
    map := wakers.map.insert pubkey
      { version := waker.version + 1
        pending := waker.pending || wakers.receiverCount pubkey == 0 } }

def retain (wakers : Wakers) (present : List PubKey) : Wakers :=
  { wakers with
    map := wakers.map.retain fun pubkey _ =>
      present.contains pubkey || decide (wakers.receiverCount pubkey > 0) }

def release (wakers : Wakers) (task : Nat) : Wakers :=
  { wakers with receivers := wakers.receivers.erase task }

def changed (wakers : Wakers) (task : Nat) : Bool :=
  match wakers.receivers.get? task with
  | some receiver => (wakers.waker receiver.pubkey).version != receiver.seen
  | none => false

def markSeen (wakers : Wakers) (task : Nat) : Wakers :=
  { wakers with
    receivers := wakers.receivers.modify task fun receiver =>
      { receiver with seen := (wakers.waker receiver.pubkey).version } }

inductive Op
  | subscribe (pubkey : PubKey)
  | wake (pubkey : PubKey)
  | retain (present : List PubKey)
  deriving DecidableEq

@[reducible] def Op.Res : Op → Type
  | .subscribe _ => Bool
  | .wake _ => Unit
  | .retain _ => Unit

def step (wakers : Wakers) (task : Nat) : (o : Op) → o.Res × Wakers
  | .subscribe pubkey => wakers.subscribe task pubkey
  | .wake pubkey => ((), wakers.wake pubkey)
  | .retain present => ((), wakers.retain present)

end Wakers

structure Permit where
  pubkey : PubKey
  seq : Nat
  preempted : Bool := false
  deriving DecidableEq

structure Slot where
  seq : Nat
  /-- The task whose permit listens for the signal. -/
  listener : Nat
  deriving DecidableEq

structure ParkSlots where
  permits : Table Nat Permit := ∅
  devices : Table PubKey Slot := ∅
  nextSeq : Nat := 0

namespace ParkSlots

def signal (permits : Table Nat Permit) (slot : Slot) : Table Nat Permit :=
  permits.modify slot.listener fun permit => { permit with preempted := true }

/-- Last writer wins: a new park displaces the incumbent of its device; only the
global ceiling refuses.  There is no await inside. -/
def tryAcquire (slots : ParkSlots) (max task : Nat) (pubkey : PubKey) : Bool × ParkSlots :=
  if slots.permits.size < max then
    let signalled :=
      match slots.devices.get? pubkey with
      | some displaced => signal slots.permits displaced
      | none => slots.permits
    (true,
      { permits := signalled.insert task ⟨pubkey, slots.nextSeq, false⟩
        devices := slots.devices.insert pubkey ⟨slots.nextSeq, task⟩
        nextSeq := (slots.nextSeq + 1) % 2 ^ 64 })
  else (false, slots)

def release (slots : ParkSlots) (task : Nat) : ParkSlots :=
  match slots.permits.get? task with
  | none => slots
  | some permit =>
      match slots.devices.get? permit.pubkey with
      | some slot =>
          if slot.seq = permit.seq then
            { slots with
              permits := (signal slots.permits slot).erase task
              devices := slots.devices.erase permit.pubkey }
          else { slots with permits := slots.permits.erase task }
      | none => { slots with permits := slots.permits.erase task }

def preempted (slots : ParkSlots) (task : Nat) : Bool :=
  match slots.permits.get? task with
  | some permit => permit.preempted
  | none => false

end ParkSlots

end UnityLan.Coordinator
