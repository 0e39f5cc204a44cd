import UnityLan.Engine.Fw.Exposure
import UnityLan.Foundation.Json

namespace UnityLan.Engine.Fw

open UnityLan.Foundation

/-! The scope of an exposure on the wire of the control protocol. -/

inductive ScopeTagged
  | ownDevices
  | net (guildId : GuildId) (roleId : RoleId)
  | netNamed (guild name : String)

namespace ScopeTagged

def kinds : List String :=
  ["own_devices", "net", "net_named"]

def serialize : ScopeTagged → Json
  | .ownDevices => .object [("kind", .string "own_devices")]
  | .net guildId roleId =>
      .object [("kind", .string "net"), ("guild_id", .nat guildId), ("role_id", .nat roleId)]
  | .netNamed guild name =>
      .object [("kind", .string "net_named"), ("guild", .string guild), ("name", .string name)]

def deserializeNet (content : Json) : Option ScopeTagged :=
  match content.fields ["guild_id", "role_id"] with
  | some [guildId, roleId] => do return .net (← guildId.readUnsigned 64) (← roleId.readUnsigned 64)
  | _ => none

def deserializeNetNamed (content : Json) : Option ScopeTagged :=
  match content.fields ["guild", "name"] with
  | some [guild, name] => do return .netNamed (← guild.readString) (← name.readString)
  | _ => none

def deserialize (json : Json) : Option ScopeTagged :=
  (json.tagged "kind").bind fun (kind, content) =>
    match kind.variant kinds with
    | some 0 => if content.isUnit then some .ownDevices else none
    | some 1 => deserializeNet content
    | some 2 => deserializeNetNamed content
    | _ => none

end ScopeTagged

namespace ExposeScope

def serialize : ExposeScope → Json
  | .allPeers => .null
  | .unresolved none name => .string name
  | .ownDevices => ScopeTagged.ownDevices.serialize
  | .net guildId roleId => (ScopeTagged.net guildId roleId).serialize
  | .unresolved (some guild) name => (ScopeTagged.netNamed guild name).serialize

inductive Any
  | legacy (net : Option String)
  | tagged (scope : ScopeTagged)

def Any.deserialize (json : Json) : Except String Any :=
  match json.readOption Json.readString with
  | some named => .ok (.legacy named)
  | none =>
      match ScopeTagged.deserialize json with
      | some scope => .ok (.tagged scope)
      | none => .error "data did not match any variant of untagged enum Any"

def ofAny : Any → ExposeScope
  | .legacy none => .allPeers
  | .legacy (some name) => .unresolved none name
  | .tagged .ownDevices => .ownDevices
  | .tagged (.net guildId roleId) => .net guildId roleId
  | .tagged (.netNamed guild name) => .unresolved (some guild) name

def deserialize (json : Json) : Except String ExposeScope :=
  (Any.deserialize json).map ofAny

/-- What an engine that knows no scopes makes of the field. -/
def legacy (json : Json) : Option (Option String) :=
  json.readOption Json.readString

/-- What such an engine takes it for: a network by its name alone, or everyone. -/
def ofLegacy : Option String → ExposeScope
  | none => .allPeers
  | some name => .unresolved none name

/-- The ids are of 64 bits. -/
def InRange : ExposeScope → Prop
  | .net guildId roleId => guildId < 2 ^ 64 ∧ roleId < 2 ^ 64
  | _ => True

variable {scope : ExposeScope} {json : Json}

theorem deserialize_legacy {net : Option String} (hlegacy : legacy json = some net) :
    deserialize json = .ok (ofLegacy net) := by
  unfold legacy at hlegacy
  unfold deserialize Any.deserialize
  rw [hlegacy]
  cases net <;> rfl

theorem deserialize_tagged {tagged : ScopeTagged} (hlegacy : legacy json = none)
    (htagged : ScopeTagged.deserialize json = some tagged) :
    deserialize json = .ok (ofAny (.tagged tagged)) := by
  unfold legacy at hlegacy
  unfold deserialize Any.deserialize
  rw [hlegacy, htagged]
  rfl

theorem tagged_serialize (tagged : ScopeTagged) : legacy tagged.serialize = none := by
  cases tagged <;> rfl

theorem deserialize_net {guildId : GuildId} {roleId : RoleId} (hguild : guildId < 2 ^ 64)
    (hrole : roleId < 2 ^ 64) :
    ScopeTagged.deserialize (ScopeTagged.net guildId roleId).serialize =
      some (.net guildId roleId) := by
  change ScopeTagged.deserializeNet (.object [("guild_id", .nat guildId),
    ("role_id", .nat roleId)]) = _
  change ((Json.nat guildId).readUnsigned 64).bind _ = _
  rw [Json.readUnsigned_nat hguild]
  change ((Json.nat roleId).readUnsigned 64).bind _ = _
  rw [Json.readUnsigned_nat hrole]
  rfl

theorem deserialize_serialize (hrange : scope.InRange) :
    deserialize scope.serialize = .ok scope := by
  cases scope with
  | allPeers =>
      have hlegacy : legacy (serialize .allPeers) = some none := rfl
      exact deserialize_legacy hlegacy
  | ownDevices =>
      have htagged : ScopeTagged.deserialize (serialize .ownDevices) = some .ownDevices := rfl
      exact deserialize_tagged (tagged_serialize .ownDevices) htagged
  | net guildId roleId =>
      exact deserialize_tagged (tagged_serialize _) (deserialize_net hrange.1 hrange.2)
  | unresolved guild name =>
      cases guild with
      | none =>
          have hlegacy : legacy (serialize (.unresolved none name)) = some (some name) := rfl
          exact deserialize_legacy hlegacy
      | some guild => exact deserialize_tagged (tagged_serialize (.netNamed guild name)) rfl

theorem ofLegacy_serialize {net : Option String} (hlegacy : legacy scope.serialize = some net) :
    ofLegacy net = scope := by
  cases scope with
  | allPeers =>
      cases hlegacy
      rfl
  | ownDevices => cases (tagged_serialize .ownDevices).symm.trans hlegacy
  | net guildId roleId => cases (tagged_serialize (.net guildId roleId)).symm.trans hlegacy
  | unresolved guild name =>
      cases guild with
      | none =>
          cases hlegacy
          rfl
      | some guild => cases (tagged_serialize (.netNamed guild name)).symm.trans hlegacy

theorem null_of_allPeers (hread : deserialize json = .ok .allPeers) : json = .null := by
  unfold deserialize Any.deserialize at hread
  split at hread
  · rename_i net hlegacy
    cases net with
    | none => exact Json.readOption_none.mp hlegacy
    | some name => cases hread
  · split at hread
    · rename_i tagged _
      cases tagged <;> cases hread
    · cases hread

/-- Scopes survive the wire, to an engine of either age, and only `null` is everyone. -/
theorem scopes_survive (scope : ExposeScope) (hrange : scope.InRange) (json : Json) :
    deserialize scope.serialize = .ok scope ∧
      (∀ net, legacy scope.serialize = some net → ofLegacy net = scope) ∧
      (deserialize json = .ok .allPeers → json = .null) :=
  ⟨deserialize_serialize hrange, fun _ => ofLegacy_serialize, null_of_allPeers⟩

theorem scopes_survive_net :
    deserialize (net 900100 7001).serialize = .ok (.net 900100 7001) :=
  (scopes_survive (.net 900100 7001) ⟨by decide, by decide⟩ .null).1

end ExposeScope

end UnityLan.Engine.Fw
