import Mathlib.Data.Fintype.EquivFin
import UnityLan.Engine.Fw.Nftables
import UnityLan.Engine.Fw.Windows

namespace UnityLan.Engine.Fw

open UnityLan.Foundation

/-! When the backends open exactly what the exposures say. -/

def OpenToAll (exposed : List Exposed) (e : Exposed) : Prop :=
  e.proto = .udp ∧ e.port = P2P_PORT ∨
    ∃ other ∈ exposed, other.scope = .allPeers ∧ other.proto = e.proto ∧ other.port = e.port

/-- The set of an exposure is that of its own scope, where it makes a difference. -/
def SetsApart (exposed : List Exposed) : Prop :=
  ∀ e ∈ exposed, e.scope ≠ .allPeers → OpenToAll exposed e ∨ Nft.Shares exposed e e.scope

namespace Nft

/-- The script lets in what the exposures permit, of what is new on the mesh interface. -/
def Exact (iface : String) (meshAddr : Option Ipv4Addr) (exposed : List Exposed)
    (peers : PeerSets) : Prop :=
  ∀ (loaded : Loaded) (packet : Packet), packet.iifname = iface → packet.established = false →
    ∃ loaded', load (ruleset iface meshAddr exposed peers) loaded = some loaded' ∧
      (loaded'.verdict packet = .accept ↔ Permits exposed peers packet.saddr packet.payload)

section

variable {iface : String} {meshAddr : Option Ipv4Addr} {exposed : List Exposed} {peers : PeerSets}

theorem exact_iff : Exact iface meshAddr exposed peers ↔
    ∀ packet : Packet, packet.iifname = iface → packet.established = false →
      (LetIn exposed peers packet ↔ Permits exposed peers packet.saddr packet.payload) := by
  constructor
  · intro hexact packet harrives hnew
    obtain ⟨loaded', hload, hverdict⟩ := hexact {} packet harrives hnew
    exact (script_lets_in harrives hnew hload).symm.trans hverdict
  · intro hlets loaded packet harrives hnew
    obtain ⟨sets, _, hload⟩ := load_ruleset iface meshAddr exposed peers loaded
    exact ⟨_, hload, (script_lets_in harrives hnew hload).trans (hlets packet harrives hnew)⟩

theorem exact_of_apart (hapart : SetsApart exposed) : Exact iface meshAddr exposed peers := by
  apply exact_iff.mpr
  intro packet _ _
  apply or_congr_right
  constructor
  · rintro (hpull | ⟨e, he, hpayload, hscope | ⟨hscope, scope, hshares, hadmits⟩⟩)
    · exact .inl hpull
    · refine .inr ⟨e, he, hpayload, ?_⟩
      rw [hscope]
      rfl
    · rcases hapart e he hscope with (⟨hproto, hport⟩ | ⟨other, hother, hall, hproto, hport⟩) | hown
      · rw [hproto, hport] at hpayload
        exact .inl hpayload
      · refine .inr ⟨other, hother, ?_, ?_⟩
        · rw [hproto, hport]
          exact hpayload
        · rw [hall]
          rfl
      · cases Option.some.inj (hshares.symm.trans hown)
        exact .inr ⟨e, he, hpayload, hadmits⟩
  · rintro (hpull | ⟨e, he, hpayload, hadmits⟩)
    · exact .inl hpull
    · by_cases hscope : e.scope = .allPeers
      · exact .inr ⟨e, he, hpayload, .inl hscope⟩
      · rcases hapart e he hscope with
          (⟨hproto, hport⟩ | ⟨other, hother, hall, hproto, hport⟩) | hown
        · rw [hproto, hport] at hpayload
          exact .inl hpayload
        · refine .inr ⟨other, hother, ?_, .inl hall⟩
          rw [hproto, hport]
          exact hpayload
        · exact .inr ⟨e, he, hpayload, .inr ⟨hscope, e.scope, hown, hadmits⟩⟩

end

/-! Peers that one scope alone admits. -/

def Unused (fresh : String) (id : GuildId) : ExposeScope → Prop
  | .net guildId _ => guildId < id
  | .unresolved guild name => guild ≠ some fresh ∧ name ≠ fresh
  | _ => True

def named : ExposeScope → List String
  | .unresolved guild name => name :: guild.toList
  | _ => []

def pastGuild : ExposeScope → GuildId
  | .net guildId _ => guildId + 1
  | _ => 0

theorem exists_unused (scopes : List ExposeScope) :
    ∃ fresh id, ∀ scope ∈ scopes, Unused fresh id scope := by
  have hids : ∃ id, ∀ guildId roleId, .net guildId roleId ∈ scopes → guildId < id := by
    induction scopes with
    | nil => exact ⟨0, by simp⟩
    | cons scope scopes ih =>
        obtain ⟨id, hid⟩ := ih
        refine ⟨max id (pastGuild scope), ?_⟩
        intro guildId roleId hmem
        rcases List.mem_cons.mp hmem with rfl | hmem
        · exact Nat.lt_of_lt_of_le (Nat.lt_succ_self _) (Nat.le_max_right ..)
        · exact Nat.lt_of_lt_of_le (hid guildId roleId hmem) (Nat.le_max_left ..)
  obtain ⟨id, hid⟩ := hids
  obtain ⟨fresh, hfresh⟩ := Infinite.exists_notMem_finset (scopes.flatMap named).toFinset
  rw [List.mem_toFinset, List.mem_flatMap] at hfresh
  refine ⟨fresh, id, fun scope hscope => ?_⟩
  cases scope with
  | net guildId roleId => exact hid guildId roleId hscope
  | unresolved guild name =>
      constructor
      · rintro rfl
        exact hfresh ⟨_, hscope, by simp [named]⟩
      · rintro rfl
        exact hfresh ⟨_, hscope, by simp [named]⟩
  | allPeers => trivial
  | ownDevices => trivial

def admitting (fresh : String) (id : GuildId) (source : Ipv4Addr) : ExposeScope → PeerSets
  | .allPeers => {}
  | .ownDevices => { ownDevices := [source] }
  | .net guildId roleId => { nets := [⟨guildId, roleId, "", fresh, [source]⟩] }
  | .unresolved none name => { nets := [⟨id, 0, fresh, name, [source]⟩] }
  | .unresolved (some guild) name =>
      { nets := [⟨id, 0, guild, name, [source]⟩, ⟨id + 1, 0, fresh, name, []⟩] }

theorem admitting_admits {fresh : String} {id : GuildId} {source : Ipv4Addr}
    {scope other : ExposeScope} (hscope : scope ≠ .allPeers) (hother : other ≠ .allPeers)
    (hunused : Unused fresh id scope) (hunused' : Unused fresh id other) :
    (admitting fresh id source scope).admits other source = true ↔ other = scope := by
  cases scope with
  | allPeers => exact absurd rfl hscope
  | ownDevices =>
      cases other <;> simp_all [admitting, PeerSets.admits, PeerSets.sources, PeerSets.findNet,
        PeerSets.matching]
  | net guildId roleId =>
      cases other with
      | allPeers => exact absurd rfl hother
      | ownDevices => simp [admitting, PeerSets.admits, PeerSets.sources]
      | net guildId' roleId' =>
          by_cases hsame : guildId = guildId' ∧ roleId = roleId'
          · obtain ⟨rfl, rfl⟩ := hsame
            simp [admitting, PeerSets.admits, PeerSets.sources, PeerSets.findNet]
          · have hmiss : (guildId == guildId' && roleId == roleId') = false := by
              simpa using hsame
            refine iff_of_false ?_ ?_
            · simp [admitting, PeerSets.admits, PeerSets.sources, PeerSets.findNet, hmiss]
            · intro heq
              cases heq
              exact hsame ⟨rfl, rfl⟩
      | unresolved guild name =>
          have hname : (fresh == name) = false := by
            simpa using Ne.symm hunused'.2
          simp [admitting, PeerSets.admits, PeerSets.sources, PeerSets.matching, hname]
  | unresolved guild name =>
      cases other with
      | allPeers => exact absurd rfl hother
      | ownDevices => cases guild <;> simp [admitting, PeerSets.admits, PeerSets.sources]
      | net guildId roleId =>
          have hfirst : (id == guildId) = false := by
            simpa using (Nat.ne_of_lt hunused').symm
          have hsecond : (id + 1 == guildId) = false := by
            simpa using (Nat.ne_of_lt (Nat.lt_succ_of_lt hunused')).symm
          cases guild <;>
            simp [admitting, PeerSets.admits, PeerSets.sources, PeerSets.findNet, hfirst, hsecond]
      | unresolved guild' name' =>
          by_cases hsame : name = name'
          · subst hsame
            cases guild with
            | none =>
                cases guild' with
                | none => simp [admitting, PeerSets.admits, PeerSets.sources, PeerSets.matching]
                | some guild' =>
                    have hguild : (fresh == guild') = false := by
                      simpa using fun heq => hunused'.1 (congrArg some heq.symm)
                    simp [admitting, PeerSets.admits, PeerSets.sources, PeerSets.matching, hguild]
            | some guild =>
                cases guild' with
                | none => simp [admitting, PeerSets.admits, PeerSets.sources, PeerSets.matching]
                | some guild' =>
                    have hguild : (fresh == guild') = false := by
                      simpa using fun heq => hunused'.1 (congrArg some heq.symm)
                    by_cases heq : guild = guild'
                    · subst heq
                      simp [admitting, PeerSets.admits, PeerSets.sources, PeerSets.matching,
                        hguild]
                    · simp [admitting, PeerSets.admits, PeerSets.sources, PeerSets.matching,
                        hguild, heq, Ne.symm heq]
          · have hmiss : (name == name') = false := by
              simpa using hsame
            refine iff_of_false ?_ ?_
            · cases guild <;>
                simp [admitting, PeerSets.admits, PeerSets.sources, PeerSets.matching, hmiss]
            · intro heq
              cases heq
              exact hsame rfl

section

variable {iface : String} {meshAddr : Option Ipv4Addr} {exposed : List Exposed}

/-- An exposure whose set is that of another scope is wrong of the peers its own scope alone
admits. -/
theorem apart_of_exact (hexact : ∀ peers, Exact iface meshAddr exposed peers) :
    SetsApart exposed := by
  intro e he hscope
  by_contra hnot
  rw [not_or] at hnot
  obtain ⟨hclosed, hshared⟩ := hnot
  obtain ⟨fresh, id, hunused⟩ := exists_unused (exposed.map Exposed.scope)
  have hunusedOf : ∀ other ∈ exposed, Unused fresh id other.scope := fun other hother =>
    hunused _ (List.mem_map_of_mem hother)
  let peers := admitting fresh id 1 e.scope
  let packet : Packet := ⟨iface, 1, 0, .transport e.proto e.port, false⟩
  have hpermits : Permits exposed peers packet.saddr packet.payload := by
    refine .inr (.inr ⟨e, he, rfl, ?_⟩)
    exact (admitting_admits hscope hscope (hunusedOf e he) (hunusedOf e he)).mpr rfl
  rcases (exact_iff.mp (hexact peers) packet rfl rfl).mpr hpermits with hecho | hpull | hopen
  · cases hecho
  · injection hpull with hproto hport
    exact hclosed (.inl ⟨hproto, hport⟩)
  · obtain ⟨other, hother, hpayload, hlets⟩ := hopen
    injection hpayload with hproto hport
    rcases hlets with hall | ⟨hrestricted, scope, hshares, hadmits⟩
    · exact hclosed (.inr ⟨other, hother, hall, hproto.symm, hport.symm⟩)
    · have hmem := (Table.upsert_source hshares).resolve_left (fun hnone => nomatch hnone)
      obtain ⟨held, hheld, rfl⟩ := List.mem_map.mp hmem.1
      obtain ⟨hheld, hheldScope⟩ := List.mem_filter.mp hheld
      have hsame : held.scope = e.scope :=
        (admitting_admits hscope (of_decide_eq_true hheldScope) (hunusedOf e he)
          (hunusedOf held hheld)).mp hadmits
      apply hshared
      have hown := hshares
      rw [Shares, ← hmem.2, hsame] at hown
      exact hown

theorem exact_iff_apart : (∀ peers, Exact iface meshAddr exposed peers) ↔ SetsApart exposed :=
  ⟨apart_of_exact, fun hapart _ => exact_of_apart hapart⟩

end

end Nft

def gameNights : List Exposed :=
  [⟨.tcp, 25565, .unresolved none "game-night", some "mc", .port⟩,
    ⟨.tcp, 22, .unresolved none "game_night", some "ssh", .port⟩]

def gameNightPeers : PeerSets where
  nets := [⟨5, 7, "acme", "game-night", [1]⟩, ⟨6, 8, "playhouse", "game_night", [2]⟩]

end UnityLan.Engine.Fw
