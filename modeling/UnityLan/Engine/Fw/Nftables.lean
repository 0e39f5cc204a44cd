import Mathlib.Data.List.Sort
import UnityLan.Engine.Fw.Exposure
import UnityLan.Foundation.Table

namespace UnityLan.Engine.Fw

open UnityLan.Foundation

/-! The nftables backend: the script it loads, and what the table then does to a packet. -/

def san (s : String) : String :=
  String.ofList (s.toList.map fun c => if c.isAlphanum then c else '_')

def setName : ExposeScope → String
  | .ownDevices => "own_devices"
  | .net guildId roleId => s!"net_{guildId}_{roleId}"
  | .unresolved guild name => "named_" ++ san (guild.getD "") ++ "_" ++ san name
  | .allPeers => ""

namespace Nft

inductive Match
  | ipDaddr (addr : Ipv4Addr)
  | iifnameNot (iface : String)
  | iifnameNotIn (ifaces : List String)
  | ctEstablished
  | icmpEchoRequest
  | dport (proto : Proto) (port : Port)
  | dportIn (proto : Proto) (ports : List Port)
  | ipSaddr (set : String)

inductive Verdict
  | accept
  | drop
  deriving DecidableEq

structure Rule where
  conditions : List Match
  verdict : Verdict

inductive Command
  | addTable
  | deleteTable
  | addSet (name : String)
  | addElement (name : String) (elems : List Ipv4Addr)
  /-- The chain at the input hook; what no rule decides is accepted. -/
  | addChain
  | addRule (rule : Rule)

/-! The text of a script. -/

def TABLE : String := "inet unitylan"

def renderPorts (ports : List Port) : String :=
  ", ".intercalate (ports.map fun port => toString port.toNat)

def Match.render : Match → String
  | .ipDaddr addr => "ip daddr " ++ renderIp addr
  | .iifnameNot iface => "iifname != " ++ iface.quote
  | .iifnameNotIn ifaces =>
      "iifname != \x7b " ++ ", ".intercalate (ifaces.map String.quote) ++ " \x7d"
  | .ctEstablished => "ct state established,related"
  | .icmpEchoRequest => "icmp type echo-request"
  | .dport proto port => proto.asStr ++ " dport " ++ toString port.toNat
  | .dportIn proto ports => proto.asStr ++ " dport \x7b " ++ renderPorts ports ++ " \x7d"
  | .ipSaddr set => "ip saddr @" ++ set

def Verdict.render : Verdict → String
  | .accept => "accept"
  | .drop => "drop"

def Command.render : Command → String
  | .addTable => "add table " ++ TABLE
  | .deleteTable => "delete table " ++ TABLE
  | .addSet name => "add set " ++ TABLE ++ " " ++ name ++ " \x7b type ipv4_addr ; \x7d"
  | .addElement name elems =>
      "add element " ++ TABLE ++ " " ++ name ++ " \x7b " ++
        ", ".intercalate (elems.map renderIp) ++ " \x7d"
  | .addChain =>
      "add chain " ++ TABLE ++
        " input \x7b type filter hook input priority 0 ; policy accept ; \x7d"
  | .addRule rule =>
      "add rule " ++ TABLE ++ " input " ++
        " ".intercalate (rule.conditions.map Match.render ++ [rule.verdict.render])

/-! The script. -/

def scopedSets (exposed : List Exposed) : Table String ExposeScope :=
  (∅ : Table String ExposeScope).upsert setName
    ((exposed.filter fun e => e.scope ≠ .allPeers).map Exposed.scope)

def scopedRows (exposed : List Exposed) : List (String × ExposeScope) :=
  (scopedSets exposed).rows.insertionSort fun first second => first.1 ≤ second.1

def setCommands (peers : PeerSets) (row : String × ExposeScope) : List Command :=
  let ips := (peers.sources row.2).getD []
  .addSet row.1 :: if ips.isEmpty then [] else [.addElement row.1 ips]

def unscopedPorts (exposed : List Exposed) (proto : Proto) : List Port :=
  (exposed.filter fun e => e.scope = .allPeers && e.proto == proto).map Exposed.port

def unscopedRule (exposed : List Exposed) (proto : Proto) : List Rule :=
  let ports := unscopedPorts exposed proto
  if ports.isEmpty then [] else [⟨[.dportIn proto ports], .accept⟩]

def guardRules (iface : String) (meshAddr : Option Ipv4Addr) : List Rule :=
  (meshAddr.toList.map fun addr => Rule.mk [.ipDaddr addr, .iifnameNotIn [iface, "lo"]] .drop) ++
    [⟨[.iifnameNot iface], .accept⟩, ⟨[.ctEstablished], .accept⟩]

def openingRules (exposed : List Exposed) : List Rule :=
  [⟨[.icmpEchoRequest], .accept⟩, ⟨[.dport .udp P2P_PORT], .accept⟩] ++
    unscopedRule exposed .tcp ++ unscopedRule exposed .udp ++
    (exposed.filter fun e => e.scope ≠ .allPeers).map fun e =>
      Rule.mk [.ipSaddr (setName e.scope), .dport e.proto e.port] .accept

def ruleset (iface : String) (meshAddr : Option Ipv4Addr) (exposed : List Exposed)
    (peers : PeerSets) : List Command :=
  [.addTable, .deleteTable, .addTable] ++ (scopedRows exposed).flatMap (setCommands peers) ++
    [.addChain] ++
    (guardRules iface meshAddr ++ openingRules exposed ++ [Rule.mk [] .drop]).map .addRule

def script (iface : String) (meshAddr : Option Ipv4Addr) (exposed : List Exposed)
    (peers : PeerSets) : String :=
  String.join ((ruleset iface meshAddr exposed peers).map fun command => command.render ++ "\n")

/-! The table that a script leaves. -/

structure Loaded where
  sets : Table String (List Ipv4Addr) := ∅
  rules : List Rule := []

def Match.known (sets : Table String (List Ipv4Addr)) : Match → Bool
  | .ipSaddr set => sets.contains set
  | _ => true

/-- One command; `none` where nft refuses it. -/
def Loaded.run (loaded : Loaded) : Command → Option Loaded
  | .addTable => some loaded
  | .deleteTable => some {}
  | .addSet name =>
      some
        (if loaded.sets.contains name then loaded
        else { loaded with sets := loaded.sets.insert name [] })
  | .addElement name elems =>
      if loaded.sets.contains name then
        some { loaded with sets := loaded.sets.modify name fun held => held ++ elems }
      else none
  | .addChain => some loaded
  | .addRule rule =>
      if rule.conditions.all (Match.known loaded.sets) then
        some { loaded with rules := loaded.rules ++ [rule] }
      else none

def load (commands : List Command) (loaded : Loaded) : Option Loaded :=
  commands.foldlM Loaded.run loaded

structure Packet where
  iifname : String
  saddr : Ipv4Addr
  daddr : Ipv4Addr
  payload : Payload
  /-- It belongs to a connection that is there, or to one related to such. -/
  established : Bool

def Match.holds (sets : Table String (List Ipv4Addr)) (packet : Packet) : Match → Bool
  | .ipDaddr addr => packet.daddr == addr
  | .iifnameNot iface => packet.iifname != iface
  | .iifnameNotIn ifaces => !ifaces.contains packet.iifname
  | .ctEstablished => packet.established
  | .icmpEchoRequest => packet.payload == .icmp ICMP_ECHO_REQUEST
  | .dport proto port => packet.payload == .transport proto port
  | .dportIn proto ports => ports.any fun port => packet.payload == .transport proto port
  | .ipSaddr set => ((sets.get? set).getD []).contains packet.saddr

def Rule.holds (sets : Table String (List Ipv4Addr)) (packet : Packet) (rule : Rule) : Bool :=
  rule.conditions.all (Match.holds sets packet)

def verdictOf (sets : Table String (List Ipv4Addr)) (packet : Packet) (rules : List Rule) :
    Verdict :=
  ((rules.find? fun rule => rule.holds sets packet).map Rule.verdict).getD .accept

def Loaded.verdict (loaded : Loaded) (packet : Packet) : Verdict :=
  verdictOf loaded.sets packet loaded.rules

/-! How the rules of a script decide. -/

section

variable {sets : Table String (List Ipv4Addr)} {packet : Packet} {rules rest : List Rule}

theorem verdictOf_unmatched (hnone : ∀ rule ∈ rules, rule.holds sets packet = false) :
    verdictOf sets packet (rules ++ rest) = verdictOf sets packet rest := by
  unfold verdictOf
  have hfind : (rules.find? fun rule => rule.holds sets packet) = none := by
    apply List.find?_eq_none.mpr
    intro rule hrule
    simp [hnone rule hrule]
  rw [List.find?_append, hfind, Option.none_or]

theorem verdictOf_accepts (haccepts : ∀ rule ∈ rules, rule.verdict = .accept) :
    verdictOf sets packet (rules ++ [⟨[], .drop⟩]) = .accept ↔
      ∃ rule ∈ rules, rule.holds sets packet = true := by
  induction rules with
  | nil => simp [verdictOf, Rule.holds]
  | cons rule rules ih =>
      have hrest := ih fun other hother => haccepts other (List.mem_cons_of_mem _ hother)
      by_cases hholds : rule.holds sets packet = true
      · have hverdict : verdictOf sets packet (rule :: rules ++ [⟨[], .drop⟩]) = rule.verdict := by
          simp [verdictOf, hholds]
        rw [hverdict]
        exact iff_of_true (haccepts rule (List.mem_cons_self ..))
          ⟨rule, List.mem_cons_self .., hholds⟩
      · have hverdict : verdictOf sets packet (rule :: rules ++ [⟨[], .drop⟩]) =
            verdictOf sets packet (rules ++ [⟨[], .drop⟩]) := by
          simp [verdictOf, hholds]
        rw [hverdict, hrest]
        simp [hholds]

end

/-! What the sets hold. -/

section

variable {peers : PeerSets} {loaded : Loaded} {row : String × ExposeScope}
  {rows : List (String × ExposeScope)} {exposed : List Exposed}

theorem load_append (first second : List Command) (loaded : Loaded) :
    load (first ++ second) loaded = (load first loaded).bind (load second) := by
  unfold load
  rw [List.foldlM_append]
  rfl

variable (peers) in
theorem load_set (hfresh : loaded.sets.get? row.1 = none) :
    ∃ loaded', load (setCommands peers row) loaded = some loaded' ∧
      loaded'.rules = loaded.rules ∧ ∀ name, loaded'.sets.get? name =
        if name = row.1 then some ((peers.sources row.2).getD []) else loaded.sets.get? name := by
  have hadd : loaded.run (.addSet row.1) =
      some { loaded with sets := loaded.sets.insert row.1 [] } := by
    simp [Loaded.run, Table.contains, hfresh]
  simp only [setCommands]
  by_cases hempty : ((peers.sources row.2).getD []).isEmpty = true
  · refine ⟨{ loaded with sets := loaded.sets.insert row.1 [] }, ?_, rfl, fun name => ?_⟩
    · rw [if_pos hempty]
      simp [load, hadd]
    · rw [Table.get?_insert, List.isEmpty_iff.mp hempty]
  · refine ⟨{ loaded with
      sets := (loaded.sets.insert row.1 []).modify row.1
        fun held => held ++ (peers.sources row.2).getD [] }, ?_, rfl, fun name => ?_⟩
    · rw [if_neg hempty]
      simp [load, Loaded.run, Table.contains, hfresh]
    · rw [Table.get?_modify, Table.get?_insert]
      by_cases hname : name = row.1
      · simp [hname]
      · simp [hname]

variable (peers) in
theorem load_sets (hnodup : (rows.map Prod.fst).Nodup)
    (hfresh : ∀ row ∈ rows, loaded.sets.get? row.1 = none) :
    ∃ loaded', load (rows.flatMap (setCommands peers)) loaded = some loaded' ∧
      loaded'.rules = loaded.rules ∧
      (∀ row ∈ rows, loaded'.sets.get? row.1 = some ((peers.sources row.2).getD [])) ∧
      ∀ name, name ∉ rows.map Prod.fst → loaded'.sets.get? name = loaded.sets.get? name := by
  induction rows generalizing loaded with
  | nil => exact ⟨loaded, rfl, rfl, fun row hrow => (nomatch hrow), fun _ _ => rfl⟩
  | cons row rows ih =>
      rw [List.map_cons, List.nodup_cons] at hnodup
      obtain ⟨first, hfirst, hrules, hsets⟩ :=
        load_set peers (hfresh row (List.mem_cons_self ..))
      have hrest : ∀ other ∈ rows, first.sets.get? other.1 = none := by
        intro other hother
        have hapart : other.1 ≠ row.1 := by
          intro hsame
          exact hnodup.1 (hsame ▸ List.mem_map_of_mem hother)
        rw [hsets, if_neg hapart]
        exact hfresh other (List.mem_cons_of_mem _ hother)
      obtain ⟨last, hlast, hrules', hheld, hkept⟩ := ih hnodup.2 hrest
      refine ⟨last, ?_, hrules'.trans hrules, ?_, ?_⟩
      · rw [List.flatMap_cons, load_append, hfirst]
        exact hlast
      · intro other hother
        rcases List.mem_cons.mp hother with rfl | hother
        · rw [hkept _ hnodup.1, hsets, if_pos rfl]
        · exact hheld other hother
      · intro name hname
        rw [List.map_cons, List.mem_cons, not_or] at hname
        rw [hkept name hname.2, hsets, if_neg hname.1]

theorem scopedRows_nodup (exposed : List Exposed) : ((scopedRows exposed).map Prod.fst).Nodup := by
  have hperm : (scopedRows exposed).Perm (scopedSets exposed).rows := List.perm_insertionSort ..
  exact ((hperm.map Prod.fst).nodup_iff).mpr (scopedSets exposed).keysNodup

theorem mem_scopedRows {name : String} {scope : ExposeScope} :
    (name, scope) ∈ scopedRows exposed ↔ (scopedSets exposed).get? name = some scope := by
  have hperm : (scopedRows exposed).Perm (scopedSets exposed).rows := List.perm_insertionSort ..
  rw [hperm.mem_iff, Table.mem_rows]

end

/-! The whole script. -/

theorem load_rules {loaded : Loaded} {rules : List Rule}
    (hknown : ∀ rule ∈ rules, rule.conditions.all (Match.known loaded.sets) = true) :
    load (rules.map .addRule) loaded = some { loaded with rules := loaded.rules ++ rules } := by
  induction rules generalizing loaded with
  | nil => simp [load]
  | cons rule rules ih =>
      have hfirst : loaded.run (.addRule rule) =
          some { loaded with rules := loaded.rules ++ [rule] } := by
        simp only [Loaded.run, hknown rule (List.mem_cons_self ..), if_true]
      have hrest := @ih { loaded with rules := loaded.rules ++ [rule] } fun other hother =>
        hknown other (List.mem_cons_of_mem _ hother)
      calc load ((rule :: rules).map .addRule) loaded
          = (loaded.run (.addRule rule)).bind (load (rules.map .addRule)) := rfl
        _ = load (rules.map .addRule) { loaded with rules := loaded.rules ++ [rule] } := by
          rw [hfirst]
          rfl
        _ = _ := by
          rw [hrest]
          simp

section

variable {iface : String} {meshAddr : Option Ipv4Addr} {exposed : List Exposed} {peers : PeerSets}
  {sets : Table String (List Ipv4Addr)} {packet : Packet}

theorem openingRules_accept : ∀ rule ∈ openingRules exposed, rule.verdict = .accept := by
  intro rule hrule
  unfold openingRules unscopedRule at hrule
  simp only [List.mem_append, List.mem_map, List.mem_cons, List.not_mem_nil, or_false] at hrule
  rcases hrule with (((rfl | rfl) | htcp) | hudp) | ⟨e, _, rfl⟩
  · rfl
  · rfl
  · split at htcp
    · cases htcp
    · rw [List.mem_singleton.mp htcp]
  · split at hudp
    · cases hudp
    · rw [List.mem_singleton.mp hudp]
  · rfl

def SetsHold (exposed : List Exposed) (peers : PeerSets)
    (sets : Table String (List Ipv4Addr)) : Prop :=
  ∀ name scope, (scopedSets exposed).get? name = some scope →
    sets.get? name = some ((peers.sources scope).getD [])

theorem scopedSets_covers {e : Exposed} (he : e ∈ exposed) (hscoped : e.scope ≠ .allPeers) :
    ∃ scope, (scopedSets exposed).get? (setName e.scope) = some scope := by
  have hmem : e.scope ∈ (exposed.filter fun e => e.scope ≠ .allPeers).map Exposed.scope :=
    List.mem_map_of_mem (List.mem_filter.mpr ⟨he, decide_eq_true hscoped⟩)
  obtain ⟨found, _, hget, _⟩ := @Table.upsert_covers _ _ _ setName _ ∅ _ hmem
  exact ⟨found, hget⟩

theorem guardRules_known (sets : Table String (List Ipv4Addr)) :
    ∀ rule ∈ guardRules iface meshAddr, rule.conditions.all (Match.known sets) = true := by
  intro rule hrule
  unfold guardRules at hrule
  rcases List.mem_append.mp hrule with hhost | hrule
  · obtain ⟨addr, _, rfl⟩ := List.mem_map.mp hhost
    rfl
  · simp only [List.mem_cons, List.not_mem_nil, or_false] at hrule
    rcases hrule with rfl | rfl <;> rfl

theorem openingRules_known (hsets : SetsHold exposed peers sets) :
    ∀ rule ∈ openingRules exposed, rule.conditions.all (Match.known sets) = true := by
  intro rule hrule
  unfold openingRules unscopedRule at hrule
  simp only [List.mem_append, List.mem_map, List.mem_cons, List.not_mem_nil, or_false] at hrule
  rcases hrule with (((rfl | rfl) | htcp) | hudp) | ⟨e, he, rfl⟩
  · rfl
  · rfl
  · split at htcp
    · cases htcp
    · rw [List.mem_singleton.mp htcp]
      rfl
  · split at hudp
    · cases hudp
    · rw [List.mem_singleton.mp hudp]
      rfl
  · obtain ⟨hmem, hscoped⟩ := List.mem_filter.mp he
    obtain ⟨scope, hscope⟩ := scopedSets_covers hmem (of_decide_eq_true hscoped)
    simp [Match.known, Table.contains, hsets _ _ hscope]

variable (iface meshAddr exposed peers) in
theorem load_ruleset (loaded : Loaded) :
    ∃ sets, SetsHold exposed peers sets ∧
      load (ruleset iface meshAddr exposed peers) loaded =
        some ⟨sets, guardRules iface meshAddr ++ openingRules exposed ++ [⟨[], .drop⟩]⟩ := by
  have hfresh : ∀ row ∈ scopedRows exposed, ({} : Loaded).sets.get? row.1 = none :=
    fun _ _ => rfl
  obtain ⟨filled, hfilled, hrules, hheld, -⟩ :=
    load_sets peers (scopedRows_nodup exposed) hfresh
  have hsets : SetsHold exposed peers filled.sets := by
    intro name scope hscope
    exact hheld (name, scope) (mem_scopedRows.mpr hscope)
  have hknown : ∀ rule ∈ guardRules iface meshAddr ++ openingRules exposed ++ [⟨[], .drop⟩],
      rule.conditions.all (Match.known filled.sets) = true := by
    intro rule hrule
    rcases List.mem_append.mp hrule with hrule | hdrop
    · rcases List.mem_append.mp hrule with hguard | hopening
      · exact guardRules_known filled.sets rule hguard
      · exact openingRules_known hsets rule hopening
    · rw [List.mem_singleton.mp hdrop]
      rfl
  refine ⟨filled.sets, hsets, ?_⟩
  have hruns := load_rules hknown
  rw [hrules, List.nil_append] at hruns
  unfold ruleset
  rw [load_append, load_append, load_append]
  calc (((load [.addTable, .deleteTable, .addTable] loaded).bind
          (load ((scopedRows exposed).flatMap (setCommands peers)))).bind (load [.addChain])).bind _
      = ((load ((scopedRows exposed).flatMap (setCommands peers)) {}).bind
          (load [.addChain])).bind _ := rfl
    _ = (load [.addChain] filled).bind _ := by rw [hfilled, Option.bind_some]
    _ = load _ filled := rfl
    _ = _ := hruns

/-- Nothing is decided early of a packet that arrives on the mesh interface and starts something
new. -/
theorem guardRules_unmatched (harrives : packet.iifname = iface)
    (hnew : packet.established = false) :
    ∀ rule ∈ guardRules iface meshAddr, rule.holds sets packet = false := by
  intro rule hrule
  unfold guardRules at hrule
  rcases List.mem_append.mp hrule with hhost | hrule
  · obtain ⟨addr, _, rfl⟩ := List.mem_map.mp hhost
    simp [Rule.holds, Match.holds, harrives]
  · simp only [List.mem_cons, List.not_mem_nil, or_false] at hrule
    rcases hrule with rfl | rfl
    · simp [Rule.holds, Match.holds, harrives]
    · simp [Rule.holds, Match.holds, hnew]

theorem unscopedRule_holds (proto : Proto) :
    (∃ rule ∈ unscopedRule exposed proto, rule.holds sets packet = true) ↔
      ∃ e ∈ exposed, e.scope = .allPeers ∧ e.proto = proto ∧
        packet.payload = .transport e.proto e.port := by
  have hports : (∃ rule ∈ unscopedRule exposed proto, rule.holds sets packet = true) ↔
      ∃ port ∈ unscopedPorts exposed proto, packet.payload = .transport proto port := by
    simp only [unscopedRule]
    by_cases hempty : (unscopedPorts exposed proto).isEmpty = true
    · rw [if_pos hempty, List.isEmpty_iff.mp hempty]
      simp
    · rw [if_neg hempty]
      simp [Rule.holds, Match.holds]
  rw [hports]
  simp only [unscopedPorts, List.mem_map, List.mem_filter, Bool.and_eq_true, decide_eq_true_eq,
    beq_iff_eq]
  constructor
  · rintro ⟨_, ⟨e, ⟨he, hscope, rfl⟩, rfl⟩, hpayload⟩
    exact ⟨e, he, hscope, rfl, hpayload⟩
  · rintro ⟨e, he, hscope, rfl, hpayload⟩
    exact ⟨e.port, ⟨e, ⟨he, hscope, rfl⟩, rfl⟩, hpayload⟩

def Shares (exposed : List Exposed) (e : Exposed) (scope : ExposeScope) : Prop :=
  (scopedSets exposed).get? (setName e.scope) = some scope

theorem Shares.restricted {e : Exposed} {scope : ExposeScope} (hshares : Shares exposed e scope) :
    scope ≠ .allPeers := by
  rcases Table.upsert_source hshares with hbefore | ⟨hmem, _⟩
  · cases hbefore
  · obtain ⟨other, hother, rfl⟩ := List.mem_map.mp hmem
    exact of_decide_eq_true (List.mem_filter.mp hother).2

theorem scopedRule_holds (hsets : SetsHold exposed peers sets) {e : Exposed} (he : e ∈ exposed)
    (hscoped : e.scope ≠ .allPeers) :
    Rule.holds sets packet ⟨[.ipSaddr (setName e.scope), .dport e.proto e.port], .accept⟩ = true ↔
      packet.payload = .transport e.proto e.port ∧
        ∃ scope, Shares exposed e scope ∧ peers.admits scope packet.saddr = true := by
  obtain ⟨scope, hscope⟩ := scopedSets_covers he hscoped
  obtain ⟨ips, hips⟩ := peers.sources_restricted (Shares.restricted hscope)
  have hset : sets.get? (setName e.scope) = some ips := by
    rw [hsets _ _ hscope, hips]
    rfl
  have hshared : (∃ found, Shares exposed e found ∧ peers.admits found packet.saddr = true) ↔
      packet.saddr ∈ ips := by
    constructor
    · rintro ⟨found, hfound, hadmits⟩
      cases Option.some.inj (hfound.symm.trans hscope)
      exact (PeerSets.admits_of_sources hips _).mp hadmits
    · intro hmem
      exact ⟨scope, hscope, (PeerSets.admits_of_sources hips _).mpr hmem⟩
  rw [hshared]
  simp [Rule.holds, Match.holds, hset, and_comm]

def LetIn (exposed : List Exposed) (peers : PeerSets) (packet : Packet) : Prop :=
  packet.payload = .icmp ICMP_ECHO_REQUEST ∨ packet.payload = .transport .udp P2P_PORT ∨
    ∃ e ∈ exposed, packet.payload = .transport e.proto e.port ∧
      (e.scope = .allPeers ∨ e.scope ≠ .allPeers ∧
        ∃ scope, Shares exposed e scope ∧ peers.admits scope packet.saddr = true)

theorem openingRules_hold (hsets : SetsHold exposed peers sets) :
    (∃ rule ∈ openingRules exposed, rule.holds sets packet = true) ↔
      LetIn exposed peers packet := by
  have hscoped : (∃ rule ∈ (exposed.filter fun e => e.scope ≠ .allPeers).map fun e =>
      Rule.mk [.ipSaddr (setName e.scope), .dport e.proto e.port] .accept,
        rule.holds sets packet = true) ↔
      ∃ e ∈ exposed, e.scope ≠ .allPeers ∧ packet.payload = .transport e.proto e.port ∧
        ∃ scope, Shares exposed e scope ∧ peers.admits scope packet.saddr = true := by
    constructor
    · rintro ⟨rule, hrule, hholds⟩
      obtain ⟨e, he, rfl⟩ := List.mem_map.mp hrule
      obtain ⟨hmem, hscope⟩ := List.mem_filter.mp he
      have hscope := of_decide_eq_true hscope
      exact ⟨e, hmem, hscope, (scopedRule_holds hsets hmem hscope).mp hholds⟩
    · rintro ⟨e, he, hscope, hholds⟩
      exact ⟨_, List.mem_map_of_mem (List.mem_filter.mpr ⟨he, decide_eq_true hscope⟩),
        (scopedRule_holds hsets he hscope).mpr hholds⟩
  unfold openingRules
  simp only [List.mem_append, or_and_right, exists_or, unscopedRule_holds, hscoped]
  unfold LetIn
  simp only [List.mem_cons, List.not_mem_nil, or_false, exists_eq_or_imp, exists_eq_left,
    Rule.holds, Match.holds, List.all_cons, List.all_nil, Bool.and_true, beq_iff_eq]
  constructor
  · rintro ((((hecho | hpull) | ⟨e, he, hscope, -, hpayload⟩) | ⟨e, he, hscope, -, hpayload⟩) |
      ⟨e, he, hscope, hpayload, hshared⟩)
    · exact .inl hecho
    · exact .inr (.inl hpull)
    · exact .inr (.inr ⟨e, he, hpayload, .inl hscope⟩)
    · exact .inr (.inr ⟨e, he, hpayload, .inl hscope⟩)
    · exact .inr (.inr ⟨e, he, hpayload, .inr ⟨hscope, hshared⟩⟩)
  · rintro (hecho | hpull | ⟨e, he, hpayload, hscope | ⟨hscope, hshared⟩⟩)
    · exact .inl (.inl (.inl (.inl hecho)))
    · exact .inl (.inl (.inl (.inr hpull)))
    · cases hproto : e.proto with
      | tcp => exact .inl (.inl (.inr ⟨e, he, hscope, hproto, hpayload⟩))
      | udp => exact .inl (.inr ⟨e, he, hscope, hproto, hpayload⟩)
    · exact .inr ⟨e, he, hscope, hpayload, hshared⟩

theorem script_lets_in {loaded loaded' : Loaded} (harrives : packet.iifname = iface)
    (hnew : packet.established = false)
    (hload : load (ruleset iface meshAddr exposed peers) loaded = some loaded') :
    loaded'.verdict packet = .accept ↔ LetIn exposed peers packet := by
  obtain ⟨sets, hsets, hruns⟩ :=
    load_ruleset iface meshAddr exposed peers loaded
  cases Option.some.inj (hload.symm.trans hruns)
  unfold Loaded.verdict
  dsimp only
  rw [List.append_assoc, verdictOf_unmatched (guardRules_unmatched harrives hnew),
    verdictOf_accepts openingRules_accept, openingRules_hold hsets]

end

end Nft

end UnityLan.Engine.Fw
