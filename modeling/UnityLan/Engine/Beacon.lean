import UnityLan.Common.Basic
import UnityLan.Foundation.Octets
import UnityLan.Foundation.Pool

namespace UnityLan.Engine.Beacon

open UnityLan.Foundation Prog

/-! The authenticators of the handshake on the local segment. -/

abbrev WgPrivateKey := BitVec 256

/-- 16 bytes, in their order. -/
abbrev Nonce := BitVec 128

abbrev Tag := BitVec 128

structure Crypto where
  wgPublicFromPrivate : WgPrivateKey → PubKey
  diffieHellman : WgPrivateKey → PubKey → BitVec 256
  hmacSha256 : BitVec 256 → List Byte → BitVec 256
  /-- Both sides derive one secret. -/
  shared : ∀ first second, diffieHellman first (wgPublicFromPrivate second) =
    diffieHellman second (wgPublicFromPrivate first)

def bytesOf (text : String) : List Byte :=
  text.toList.map fun c => BitVec.ofNat 8 c.toNat

def BEACON_PROBE_DOMAIN : List Byte := bytesOf "unitylan-beacon-probe-v1"

def BEACON_ACK_DOMAIN : List Byte := bytesOf "unitylan-beacon-ack-v1"

def bigEndian (count : Nat) {width : Nat} (word : BitVec width) : List Byte :=
  (octets count word.toNat).reverse

def ofBigEndian (width : Nat) (bytes : List Byte) : BitVec width :=
  BitVec.ofNat width (number bytes.reverse)

namespace Crypto

variable (X : Crypto)

def beaconMac (myWgPrivate : WgPrivateKey) (peerWgPubkey : PubKey) (domain : List Byte)
    (nonce : Nonce) : Option Tag :=
  let shared := X.diffieHellman myWgPrivate peerWgPubkey
  if shared = 0 then none
  else
    let full := X.hmacSha256 shared (domain ++ bigEndian 16 nonce)
    some (full.extractLsb' 128 128)

def beaconProbeMac (myWgPrivate : WgPrivateKey) (peerWgPubkey : PubKey) (nonce : Nonce) :
    Option Tag :=
  X.beaconMac myWgPrivate peerWgPubkey BEACON_PROBE_DOMAIN nonce

def beaconAckMac (myWgPrivate : WgPrivateKey) (peerWgPubkey : PubKey) (nonce : Nonce) :
    Option Tag :=
  X.beaconMac myWgPrivate peerWgPubkey BEACON_ACK_DOMAIN nonce

def verifyBeaconProbe (myWgPrivate : WgPrivateKey) (peerWgPubkey : PubKey) (nonce : Nonce)
    (mac : Tag) : Bool :=
  (X.beaconProbeMac myWgPrivate peerWgPubkey nonce).any (· == mac)

def verifyBeaconAck (myWgPrivate : WgPrivateKey) (peerWgPubkey : PubKey) (nonce : Nonce)
    (mac : Tag) : Bool :=
  (X.beaconAckMac myWgPrivate peerWgPubkey nonce).any (· == mac)

end Crypto

/-! The datagrams. -/

def MAGIC : List Byte := bytesOf "ULB1"

def VERSION : Byte := 1

def ANNOUNCE_LEN : Nat := 4 + 1 + 32 + 2

def NONCE_LEN : Nat := 16

def MAC_LEN : Nat := 16

def KINDED_LEN : Nat := ANNOUNCE_LEN + 1 + NONCE_LEN + MAC_LEN

def KIND_PROBE : Byte := 1

def KIND_ACK : Byte := 2

def encode (pubkey : PubKey) (port : BitVec 16) : List Byte :=
  MAGIC ++ [VERSION] ++ bigEndian 32 pubkey ++ octets 2 port.toNat

def encodeKinded (pubkey : PubKey) (port : BitVec 16) (kind : Byte) (nonce : Nonce) (mac : Tag) :
    List Byte :=
  encode pubkey port ++ [kind] ++ bigEndian NONCE_LEN nonce ++ bigEndian MAC_LEN mac

structure Kinded where
  kind : Byte
  nonce : Nonce
  mac : Tag
  deriving DecidableEq

structure Msg where
  pk : PubKey
  port : BitVec 16
  kinded : Option Kinded
  deriving DecidableEq

def slice (buf : List Byte) (first last : Nat) : List Byte :=
  (buf.drop first).take (last - first)

/-- The kind and the authenticator of a datagram, where it has some; `none` where its length or its
kind is not one of ours. -/
def decodeKinded (buf : List Byte) : Option (Option Kinded) :=
  if buf.length = ANNOUNCE_LEN then some none
  else
    match buf[ANNOUNCE_LEN]? with
    | none => none
    | some kind =>
        if buf.length = KINDED_LEN && (kind == KIND_PROBE || kind == KIND_ACK) then
          some (some {
            kind := kind
            nonce := ofBigEndian 128 (slice buf (ANNOUNCE_LEN + 1) (ANNOUNCE_LEN + 1 + NONCE_LEN))
            mac := ofBigEndian 128 (slice buf (ANNOUNCE_LEN + 1 + NONCE_LEN) buf.length) })
        else none

def decode (buf : List Byte) : Option Msg :=
  if buf.length < ANNOUNCE_LEN || slice buf 0 4 != MAGIC || buf[4]? != some VERSION then none
  else
    (decodeKinded buf).map fun kinded => {
      pk := ofBigEndian 256 (slice buf 5 37)
      port := BitVec.ofNat 16 (number (slice buf 37 39))
      kinded := kinded }

/-! What is written is what is read. -/

section

variable {pk : PubKey} {port : BitVec 16} {kind : Byte} {nonce : Nonce} {mac : Tag}

@[simp] theorem length_bigEndian {count width : Nat} {word : BitVec width} :
    (bigEndian count word).length = count := by
  simp [bigEndian]

theorem ofBigEndian_bigEndian {count width : Nat} (hwidth : 2 ^ width = 256 ^ count)
    (word : BitVec width) : ofBigEndian width (bigEndian count word) = word := by
  unfold ofBigEndian bigEndian
  rw [List.reverse_reverse, ofNat_number hwidth]

theorem slice_middle {before middle after : List Byte} {first last : Nat}
    (hfirst : before.length = first) (hlast : first + middle.length = last) :
    slice (before ++ (middle ++ after)) first last = middle := by
  subst hfirst
  subst hlast
  unfold slice
  rw [List.drop_left, Nat.add_sub_cancel_left, List.take_left]

@[simp] theorem length_encode : (encode pk port).length = ANNOUNCE_LEN := by
  simp [encode, ANNOUNCE_LEN, MAGIC, bytesOf]

@[simp] theorem length_encodeKinded : (encodeKinded pk port kind nonce mac).length =
  KINDED_LEN := by
  unfold encodeKinded KINDED_LEN
  simp only [List.length_append, length_encode, List.length_singleton, length_bigEndian]

theorem decode_head (rest : List Byte) :
    slice (encode pk port ++ rest) 0 4 = MAGIC ∧ (encode pk port ++ rest)[4]? = some VERSION ∧
      ofBigEndian 256 (slice (encode pk port ++ rest) 5 37) = pk ∧
        BitVec.ofNat 16 (number (slice (encode pk port ++ rest) 37 39)) = port := by
  have hmagic : MAGIC.length = 4 := rfl
  have hlist : encode pk port ++ rest =
      MAGIC ++ (VERSION :: (bigEndian 32 pk ++ (octets 2 port.toNat ++ rest))) := by
    simp [encode]
  refine ⟨?_, ?_, ?_, ?_⟩
  · rw [hlist]
    exact @slice_middle [] MAGIC _ 0 4 rfl hmagic
  · rw [hlist, List.getElem?_append_right (Nat.le_of_eq hmagic), hmagic]
    rfl
  · have hkey : slice (encode pk port ++ rest) 5 37 = bigEndian 32 pk := by
      rw [hlist, ← List.singleton_append, ← List.append_assoc]
      exact slice_middle rfl (by simp)
    rw [hkey]
    exact ofBigEndian_bigEndian (by decide) pk
  · have hport : slice (encode pk port ++ rest) 37 39 = octets 2 port.toNat := by
      rw [hlist, ← List.singleton_append, ← List.append_assoc, ← List.append_assoc]
      exact slice_middle (by simp [hmagic]) (by simp)
    rw [hport]
    exact ofNat_number (by decide) port

theorem decode_encode : decode (encode pk port) = some ⟨pk, port, none⟩ := by
  obtain ⟨hmagic, hversion, hpk, hport⟩ := @decode_head pk port []
  rw [List.append_nil] at hmagic hversion hpk hport
  unfold decode decodeKinded
  rw [hmagic, hversion, hpk, hport, length_encode]
  rfl

theorem decode_encodeKinded (hkind : kind = KIND_PROBE ∨ kind = KIND_ACK) :
    decode (encodeKinded pk port kind nonce mac) = some ⟨pk, port, some ⟨kind, nonce, mac⟩⟩ := by
  have hlist : encodeKinded pk port kind nonce mac =
      encode pk port ++ (kind :: (bigEndian NONCE_LEN nonce ++ bigEndian MAC_LEN mac)) := by
    simp [encodeKinded]
  obtain ⟨hmagic, hversion, hpk, hport⟩ := @decode_head pk port
    (kind :: (bigEndian NONCE_LEN nonce ++ bigEndian MAC_LEN mac))
  rw [← hlist] at hmagic hversion hpk hport
  have hbyte : (encodeKinded pk port kind nonce mac)[ANNOUNCE_LEN]? = some kind := by
    rw [hlist, List.getElem?_append_right (Nat.le_of_eq length_encode), length_encode, Nat.sub_self]
    rfl
  have hnonce : slice (encodeKinded pk port kind nonce mac) (ANNOUNCE_LEN + 1)
      (ANNOUNCE_LEN + 1 + NONCE_LEN) = bigEndian NONCE_LEN nonce := by
    rw [hlist, ← List.singleton_append, ← List.append_assoc]
    exact slice_middle (by simp) (by simp)
  have hmac : slice (encodeKinded pk port kind nonce mac) (ANNOUNCE_LEN + 1 + NONCE_LEN)
    KINDED_LEN =
      bigEndian MAC_LEN mac := by
    rw [hlist, ← List.singleton_append, ← List.append_assoc, ← List.append_assoc,
      ← List.append_nil (bigEndian MAC_LEN mac)]
    exact slice_middle (by simp [Nat.add_assoc, Nat.add_comm 1]) (by simp [KINDED_LEN])
  have hreadNonce := @ofBigEndian_bigEndian NONCE_LEN _ (by decide) nonce
  have hreadMac := @ofBigEndian_bigEndian MAC_LEN _ (by decide) mac
  unfold decode decodeKinded
  rw [length_encodeKinded, hmagic, hversion, hpk, hport, hbyte, hnonce, hmac, hreadNonce, hreadMac]
  rcases hkind with rfl | rfl <;> rfl

end

/-! What is read is short. -/

theorem decode_length {buf : List Byte} {msg : Msg} (hdecode : decode buf = some msg) :
    buf.length ≤ KINDED_LEN := by
  refine Nat.le_of_not_lt fun hlong => ?_
  have hnot : buf.length ≠ ANNOUNCE_LEN ∧ buf.length ≠ KINDED_LEN := by
    unfold KINDED_LEN at hlong ⊢
    omega
  unfold decode at hdecode
  split at hdecode
  · cases hdecode
  · obtain ⟨kinded, hkinded, -⟩ := Option.map_eq_some_iff.mp hdecode
    unfold decodeKinded at hkinded
    rw [if_neg hnot.1, decide_eq_false hnot.2] at hkinded
    split at hkinded <;> cases hkinded

theorem decode_take {buf : List Byte} {msg : Msg} (hdecode : decode (buf.take 512) = some msg) :
    decode buf = some msg := by
  have hshort := decode_length hdecode
  rw [List.length_take] at hshort
  have hwhole : buf.length ≤ 512 := by
    unfold KINDED_LEN ANNOUNCE_LEN NONCE_LEN MAC_LEN at hshort
    omega
  rw [List.take_of_length_le hwhole] at hdecode
  exact hdecode

structure Identity (X : Crypto) where
  key : WgPrivateKey
  port : BitVec 16
  pubkey : PubKey := X.wgPublicFromPrivate key
  own : pubkey = X.wgPublicFromPrivate key := by rfl

def answer {X : Crypto} (me : Identity X) (msg : Msg) (k : Kinded) : Option (List Byte) :=
  if X.verifyBeaconProbe me.key msg.pk k.nonce k.mac then
    (X.beaconAckMac me.key msg.pk k.nonce).map fun mac =>
      encodeKinded me.pubkey me.port KIND_ACK k.nonce mac
  else none

/-! Times are in nanoseconds. -/

def SECOND : Nat := 1000000000

def DEFAULT_PORT : BitVec 16 := 51821

def CAND_TTL : Nat := 90 * SECOND

def PROBE_GRACE : Nat := 6 * SECOND

def PROBE_ACK_TTL : Nat := 10 * SECOND

def PROBE_BACKOFF : Nat := 60 * SECOND

def SETTLE : Nat := 3 * SECOND

def VERIFY_GRACE : Nat := 8 * SECOND

def STALE_GRACE : Nat := 60 * SECOND

def RETRY_COOLDOWN : Nat := 30 * SECOND

def PROBE_QUEUE : Nat := 64

structure Candidate where
  addr : SocketAddr
  seen : Nat

inductive LanState
  | probing (addr : SocketAddr) (since : Nat)
  | trying (addr : SocketAddr) (since : Nat)
  | active (addr : SocketAddr) (lastOk : Nat)
  | failed (addr : SocketAddr) (heldUntil : Nat)
  deriving DecidableEq

structure Received where
  source : SocketAddr
  msg : Msg
  now : Nat
  deriving DecidableEq

def Received.addr (r : Received) : SocketAddr :=
  ⟨r.source.ip, r.msg.port⟩

/-! The tasks, by their steps on what they share. -/

inductive BeaconOp
  | recvFrom
  | isMember (pk : PubKey)
  /-- The time it is. -/
  | instant
  | place (r : Received)
  /-- Whether a fresh probe waits for an answer like this one. -/
  | matching (r : Received) (k : Kinded)
  | record (r : Received)
  | sendTo (payload : List Byte) (dst : SocketAddr)
  | nextProbe
  | genBeaconNonce
  | await (pk : PubKey) (nonce : Nonce) (addr : SocketAddr)
  | publish (members : List PubKey)
  /-- The candidates that have not expired; the others go. -/
  | live (now : Nat)
  | retainAcks (now : Nat)
  | retainPending (now : Nat) (members : List PubKey)
  | retainStates (members : List PubKey)
  | ackFresh (pk : PubKey) (addr : SocketAddr) (now : Nat)
  | sendProbe (pk : PubKey) (addr : SocketAddr)
  | state (pk : PubKey)
  | setState (pk : PubKey) (next : Option LanState)
  | backoff (pk : PubKey)
  | setBackoff (pk : PubKey) (time : Nat)

abbrev BeaconOp.Answer : BeaconOp → Type
  | .recvFrom => SocketAddr × List Byte
  | .isMember _ => Bool
  | .instant => Nat
  | .matching _ _ => Bool
  | .nextProbe => PubKey × SocketAddr
  | .genBeaconNonce => Nonce
  | .live _ => Table PubKey Candidate
  | .ackFresh _ _ _ => Bool
  | .state _ => Option LanState
  | .backoff _ => Option Nat
  | _ => Unit

abbrev BeaconSig : Sig where
  Op := BeaconOp
  Res := BeaconOp.Answer

abbrev BeaconM (α : Type) := Prog BeaconSig Empty α

def ask (o : BeaconOp) : BeaconM o.Answer :=
  perform (S := BeaconSig) o

section

variable {X : Crypto} (me : Identity X)

def receive : BeaconM Unit := do
  let (source, buf) ← ask .recvFrom
  match decode buf with
  | none => return ()
  | some msg =>
      -- our own broadcast, looped back
      if msg.pk = me.pubkey then return ()
      else if !(← ask (.isMember msg.pk)) then return ()
      else
        let now ← ask .instant
        let r : Received := ⟨source, msg, now⟩
        ask (.place r)
        match msg.kinded with
        | none => return ()
        | some k =>
            if k.kind = KIND_PROBE then
              match answer me msg k with
              | none => return ()
              | some reply => ask (.sendTo reply source)
            else if k.kind = KIND_ACK then
              let ok ← ask (.matching r k)
              if ok && X.verifyBeaconAck me.key msg.pk k.nonce k.mac then ask (.record r)
              else return ()
            else return ()

def probe (beaconPort : BitVec 16) : BeaconM Unit := do
  let (pk, addr) ← ask .nextProbe
  let nonce ← ask .genBeaconNonce
  match X.beaconProbeMac me.key pk nonce with
  | none => return ()
  | some mac =>
      ask (.await pk nonce addr)
      let payload := encodeKinded me.pubkey me.port KIND_PROBE nonce mac
      ask (.sendTo payload ⟨addr.ip, beaconPort⟩)

def announce (beaconPort : BitVec 16) : BeaconM Unit :=
  ask (.sendTo (encode me.pubkey me.port) ⟨.v4 (BitVec.allOnes 32), beaconPort⟩)

end

section

variable (pk : PubKey) (cand : Candidate) (now : Nat)

def begin : BeaconM (Option LanState) := do
  if ← ask (.ackFresh pk cand.addr now) then return some (.trying cand.addr now)
  else if (← ask (.backoff pk)).any (now < ·) then return none
  else
    ask (.sendProbe pk cand.addr)
    return some (.probing cand.addr now)

def step (ok : Bool) : BeaconM (Option LanState) := do
  match ← ask (.state pk) with
  | none => begin pk cand now
  | some (.probing addr since) =>
      if ← ask (.ackFresh pk addr now) then return some (.trying addr now)
      else if PROBE_GRACE ≤ now - since then
        ask (.setBackoff pk (now + PROBE_BACKOFF))
        return none
      else
        ask (.sendProbe pk addr)
        return some (.probing addr since)
  | some (.trying addr since) =>
      let waited := now - since
      if waited < SETTLE then return some (.trying addr since)
      else if ok then return some (.active addr now)
      else if VERIFY_GRACE ≤ waited then return some (.failed addr (now + RETRY_COOLDOWN))
      else return some (.trying addr since)
  | some (.active addr lastOk) =>
      if ok then return some (.active addr now)
      else if STALE_GRACE ≤ now - lastOk then return some (.failed addr (now + RETRY_COOLDOWN))
      else return some (.active addr lastOk)
  | some (.failed addr heldUntil) =>
      if now < heldUntil then return some (.failed addr heldUntil)
      else begin pk cand now

end

def LanState.routes : LanState → Option SocketAddr
  | .trying addr _ | .active addr _ => some addr
  | .probing _ _ | .failed _ _ => none

def selectPeer (now : Nat) (live : Table PubKey Candidate) (out : Table PubKey SocketAddr)
    (peer : PubKey × Bool) : BeaconM (Table PubKey SocketAddr) := do
  match live.get? peer.1 with
  | none =>
      ask (.setState peer.1 none)
      return out
  | some cand =>
      let next ← step peer.1 cand now peer.2
      ask (.setState peer.1 next)
      match next.bind LanState.routes with
      | some addr => return out.insert peer.1 addr
      | none => return out

def select (now : Nat) (reachable : Table PubKey Bool) : BeaconM (Table PubKey SocketAddr) := do
  ask (.publish reachable.keys)
  let live ← ask (.live now)
  ask (.retainAcks now)
  ask (.retainPending now reachable.keys)
  ask (.retainStates reachable.keys)
  reachable.rows.foldlM (selectPeer now live) ∅

end UnityLan.Engine.Beacon
