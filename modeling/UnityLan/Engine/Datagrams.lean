import UnityLan.Engine.P2p
import UnityLan.Foundation.Json

namespace UnityLan.Engine

open UnityLan.Foundation Fw

/-! The bytes that a peer-direct pull of attestations sends and receives. -/

abbrev Octets := List UInt8

def P2P_MAX_DATAGRAM : Nat := 16 * 1024

def UDP_MAX_PAYLOAD : Nat := 65507

/-! How messages are written. -/

def Fw.ReqBody.toJson : ReqBody → Json
  | .getAttestations => .object [("type", .string "GetAttestations")]
  | .getServices => .object [("type", .string "GetServices")]
  | .unknown => .object [("type", .string "Unknown")]

def Fw.P2pRequest.toJson (req : P2pRequest) : Json :=
  .object [("proto", .nat req.proto), ("body", req.body.toJson)]

def Fw.MeshService.toJson (service : MeshService) : Json :=
  .object
    [("name", .string service.name),
      ("proto", .string (match service.proto with | .tcp => "Tcp" | .udp => "Udp")),
      ("port", .nat service.port.toNat),
      ("kind", .string (match service.kind with | .port => "Port" | .web => "Web"))]

section

variable (base64 : AttestationBlob → String)

def attestationJson (att : GuildAttestation) : Json :=
  .object
    [("attestation", .string (base64 att.attestation)),
      ("community_name", .string att.communityName), ("att_schema", .nat att.attSchema)]

def bodyJson : RespBody → Json
  | .attestations attestations =>
      .object
        [("type", .string "Attestations"),
          ("attestations", .array (attestations.map (attestationJson base64)))]
  | .services services =>
      .object [("type", .string "Services"), ("services", .array (services.map MeshService.toJson))]
  | .unsupported => .object [("type", .string "Unsupported")]
  | .unknown => .object [("type", .string "Unknown")]

def responseJson (resp : P2pResponse) : Json :=
  .object [("proto", .nat resp.proto), ("body", bodyJson base64 resp.body)]

/-- The reply to a pull. -/
def reply (own : List GuildAttestation) : Octets :=
  (responseJson base64 ⟨PROTOCOL_VERSION, .attestations own⟩).encode

end

def pullRequest (proto : Nat) : Octets :=
  (P2pRequest.toJson ⟨proto, .getAttestations⟩).encode

/-- How a signed attestation is written, and what is read of the bytes that arrive. -/
structure Wire where
  base64 : AttestationBlob → String
  readRequest : Octets → Option P2pRequest
  readResponse : Octets → Option P2pResponse

namespace Wire

variable (wire : Wire)

def receive (datagram : Octets) : Octets :=
  datagram.take P2P_MAX_DATAGRAM

def send (bytes : Octets) : Option Octets :=
  if bytes.length ≤ UDP_MAX_PAYLOAD then some bytes else none

def serve (own : List GuildAttestation) (services : OwnServices) (sender : PeerAddr)
    (datagram : Octets) : Option Octets :=
  (wire.readRequest (receive datagram)).bind fun req =>
    (answerPeer own services sender req).bind fun body =>
      send (responseJson wire.base64 ⟨PROTOCOL_VERSION, body⟩).encode

def ask (proto : Nat) (body : ReqBody) (peer : Octets → Option Octets) :
    Except String RespBody :=
  match (send (P2pRequest.toJson ⟨proto, body⟩).encode).bind peer with
  | none => .error "p2p pull timed out"
  | some reply =>
      match wire.readResponse (receive reply) with
      | none => .error "decoding p2p response"
      | some resp => .ok resp.body

def unexpected (body : RespBody) (what : String) : String :=
  match body with
  | .unsupported => s!"peer does not support {what}"
  | _ => "peer replied with an unrecognized p2p response type"

def pull (proto : Nat) (peer : Octets → Option Octets) : Except String (List GuildAttestation) :=
  match wire.ask proto .getAttestations peer with
  | .ok (.attestations attestations) => .ok attestations
  | .ok other => .error (unexpected other "attestation pull")
  | .error error => .error error

/-- Messages are read as they were written, and one that is cut off is not read at all. -/
structure Reads (proto : Nat) (own : List GuildAttestation) : Prop where
  requested : wire.readRequest (pullRequest proto) = some ⟨proto, .getAttestations⟩
  replied : wire.readResponse (reply wire.base64 own) = some ⟨PROTOCOL_VERSION, .attestations own⟩
  complete : ∀ length < (reply wire.base64 own).length,
    wire.readResponse ((reply wire.base64 own).take length) = none

/-- A version that the peer answers. -/
def Supported (proto : Nat) : Prop :=
  proto = 0 ∨ MIN_PROTOCOL_VERSION ≤ proto ∧ proto ≤ PROTOCOL_VERSION

variable {wire} {proto : Nat} {own : List GuildAttestation} {services : OwnServices}
  {sender : PeerAddr}

theorem length_request (hsupported : Supported proto) :
    (pullRequest proto).length ≤ P2P_MAX_DATAGRAM := by
  have hproto : proto = 0 ∨ proto = 4 ∨ proto = 5 := by
    unfold Supported MIN_PROTOCOL_VERSION PROTOCOL_VERSION at hsupported
    omega
  rcases hproto with rfl | rfl | rfl <;> decide

theorem answerPeer_attestations (hsupported : Supported proto) :
    answerPeer own services sender ⟨proto, .getAttestations⟩ = some (.attestations own) := by
  unfold answerPeer
  rw [if_neg]
  rintro ⟨hproto, hrange⟩
  exact hsupported.elim hproto hrange

theorem send_fits {bytes : Octets} (hfits : bytes.length ≤ P2P_MAX_DATAGRAM) :
    send bytes = some bytes := by
  have hpayload : P2P_MAX_DATAGRAM ≤ UDP_MAX_PAYLOAD := by
    decide
  exact if_pos (hfits.trans hpayload)

theorem serve_eq {datagram : Octets} {req : P2pRequest} {body : RespBody}
    (hread : wire.readRequest (receive datagram) = some req)
    (hanswer : answerPeer own services sender req = some body) :
    wire.serve own services sender datagram =
      send (responseJson wire.base64 ⟨PROTOCOL_VERSION, body⟩).encode := by
  unfold serve
  rw [hread, Option.bind_some, hanswer, Option.bind_some]

theorem asked (hsupported : Supported proto) (hreads : wire.Reads proto own) :
    (send (pullRequest proto)).bind (wire.serve own services sender) =
      send (reply wire.base64 own) := by
  have hlength := length_request hsupported
  have hreceived : receive (pullRequest proto) = pullRequest proto :=
    List.take_of_length_le hlength
  rw [send_fits hlength, Option.bind_some]
  apply serve_eq
  · rw [hreceived]
    exact hreads.requested
  · exact answerPeer_attestations hsupported

theorem pull_eq (hsupported : Supported proto) (hreads : wire.Reads proto own) :
    wire.pull proto (wire.serve own services sender) =
      match send (reply wire.base64 own) with
      | none => .error "p2p pull timed out"
      | some sent =>
          match wire.readResponse (receive sent) with
          | none => .error "decoding p2p response"
          | some ⟨_, .attestations attestations⟩ => .ok attestations
          | some ⟨_, other⟩ => .error (unexpected other "attestation pull") := by
  unfold pull ask
  rw [show (P2pRequest.toJson ⟨proto, .getAttestations⟩).encode = pullRequest proto from rfl,
    asked hsupported hreads]
  cases send (reply wire.base64 own) with
  | none => rfl
  | some sent =>
      dsimp only
      cases wire.readResponse (receive sent) with
      | none => rfl
      | some resp => cases resp with | mk proto body => cases body <;> rfl

theorem pull_of_fits (hsupported : Supported proto) (hreads : wire.Reads proto own)
    (hfits : (reply wire.base64 own).length ≤ P2P_MAX_DATAGRAM) :
    wire.pull proto (wire.serve own services sender) = .ok own := by
  have hreceived : receive (reply wire.base64 own) = reply wire.base64 own :=
    List.take_of_length_le hfits
  rw [pull_eq hsupported hreads, send_fits hfits]
  dsimp only
  rw [hreceived, hreads.replied]

theorem pull_of_exceeds (hsupported : Supported proto) (hreads : wire.Reads proto own)
    (hexceeds : P2P_MAX_DATAGRAM < (reply wire.base64 own).length) :
    ∃ error, wire.pull proto (wire.serve own services sender) = .error error := by
  rw [pull_eq hsupported hreads, send]
  by_cases hsent : (reply wire.base64 own).length ≤ UDP_MAX_PAYLOAD
  · refine ⟨"decoding p2p response", ?_⟩
    rw [if_pos hsent]
    dsimp only
    rw [receive, hreads.complete P2P_MAX_DATAGRAM hexceeds]
  · exact ⟨"p2p pull timed out", by rw [if_neg hsent]⟩

def armored (_ : AttestationBlob) : String :=
  String.ofList (List.replicate 256 'A')

/-- What is read of the messages of one pull. -/
def plain (own : List GuildAttestation) : Wire where
  base64 := armored
  readRequest := fun bytes =>
    if bytes = pullRequest PROTOCOL_VERSION then some ⟨PROTOCOL_VERSION, .getAttestations⟩
    else none
  readResponse := fun bytes =>
    if bytes = reply armored own then some ⟨PROTOCOL_VERSION, .attestations own⟩ else none

theorem plain_reads (own : List GuildAttestation) : (plain own).Reads PROTOCOL_VERSION own where
  requested := by
    dsimp only [plain]
    exact if_pos rfl
  replied := by
    dsimp only [plain]
    exact if_pos rfl
  complete := by
    intro length hlength
    apply if_neg
    intro hwhole
    have hsame := congrArg List.length hwhole
    rw [List.length_take] at hsame
    change length < (reply armored own).length at hlength
    change min length (reply armored own).length = _ at hsame
    omega

theorem length_armored (blob : AttestationBlob) : (armored blob).length = 256 := by
  unfold armored
  rw [String.length_ofList, List.length_replicate]

theorem length_attestationJson (att : GuildAttestation) :
    256 ≤ (attestationJson armored att).render.length := by
  have hmember : ("attestation", Json.string (armored att.attestation)) ∈
      [("attestation", Json.string (armored att.attestation)),
        ("community_name", .string att.communityName), ("att_schema", .nat att.attSchema)] :=
    .head _
  have hquoted := Json.length_quoted (armored att.attestation)
  rw [length_armored] at hquoted
  exact hquoted.trans (Json.length_object hmember)

theorem length_reply (own : List GuildAttestation) :
    own.length * 256 ≤ (reply armored own).length := by
  have hitems := @Json.length_array (own.map (attestationJson armored)) 256 (by
    intro item hitem
    obtain ⟨att, _, rfl⟩ := List.mem_map.mp hitem
    exact length_attestationJson att)
  rw [List.length_map] at hitems
  have hbody := Json.length_object (List.Mem.tail ("type", Json.string "Attestations")
    (List.mem_singleton_self ("attestations", Json.array (own.map (attestationJson armored)))))
  have hresponse := Json.length_object (List.Mem.tail ("proto", Json.nat PROTOCOL_VERSION)
    (List.mem_singleton_self ("body", bodyJson armored (.attestations own))))
  exact hitems.trans (hbody.trans (hresponse.trans (Json.length_encode _)))

def laptopAttestation (guildId : GuildId) : GuildAttestation where
  attestation :=
    { signer := 1
      payload :=
        { layout := 0
          attestation :=
            { guildId := guildId, userId := 7, username := "alice", deviceName := "laptop"
              isPrimary := true, wgIp := 0x64400001#32, wgNet := ⟨0x64400000#32, 10⟩
              wgPubkey := 5, issuedAt := 1000, expiresAt := 4600 } } }
  communityName := "guild"
  attSchema := 0

def manyGuilds : List GuildAttestation :=
  (List.range 65).map laptopAttestation

end Wire

end UnityLan.Engine
