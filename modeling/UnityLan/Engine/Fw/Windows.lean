import Mathlib.Data.List.Basic
import UnityLan.Common.NetId
import UnityLan.Engine.Fw.Exposure

namespace UnityLan.Engine.Fw.Win

/-! The Windows backend: the PowerShell script it runs, and what its rules let in. -/

def quoteChar : Char := Char.ofNat 0x27

def psQuote (s : String) : String :=
  String.ofList
    (quoteChar :: (s.toList.flatMap fun c => if c = quoteChar then [c, c] else [c]) ++ [quoteChar])

def quoted (s : String) : String :=
  String.ofList (quoteChar :: s.toList ++ [quoteChar])

inductive Protocol
  | icmpv4Echo
  | tcp
  | udp
  deriving DecidableEq

def psProto : Proto → Protocol
  | .tcp => .tcp
  | .udp => .udp

/-- One `New-NetFirewallRule` that lets something in, with its quoted arguments as they are
written. -/
structure NewRule where
  displayName : String
  protocol : Protocol
  localPort : Option Port := none
  interfaceAlias : Option String := none
  remoteAddress : Option (List Ipv4Addr) := none

def displayName (peers : PeerSets) (e : Exposed) : String :=
  match peers.sources e.scope with
  | none => s!"UnityLAN {e.proto.asStr}/{e.port.toNat}"
  | some _ => s!"UnityLAN {e.proto.asStr}/{e.port.toNat} scope:{peers.label e.scope}"

/-- The rule of an exposure; one that admits nobody has none, as the cmdlet cannot say so. -/
def exposureRule (iface : String) (peers : PeerSets) (e : Exposed) : Option NewRule :=
  if peers.sources e.scope = some [] then none
  else
    some
      { displayName := psQuote (displayName peers e)
        protocol := psProto e.proto
        localPort := some e.port
        interfaceAlias := some (psQuote iface)
        remoteAddress := peers.sources e.scope }

def script (iface : String) (listenPort : Port) (beaconPort : Option Port)
    (exposed : List Exposed) (peers : PeerSets) : List NewRule :=
  [{ displayName := quoted "UnityLAN ICMPv4 echo"
     protocol := .icmpv4Echo
     interfaceAlias := some (psQuote iface) },
   { displayName := quoted s!"UnityLAN p2p {P2P_PORT.toNat}/udp"
     protocol := .udp
     localPort := some P2P_PORT
     interfaceAlias := some (psQuote iface) },
   { displayName := quoted s!"UnityLAN WireGuard {listenPort.toNat}/udp"
     protocol := .udp
     localPort := some listenPort }] ++
    (beaconPort.toList.map fun port =>
      { displayName := quoted s!"UnityLAN beacon {port.toNat}/udp"
        protocol := .udp
        localPort := some port }) ++
    exposed.filterMap (exposureRule iface peers)

def Protocol.render : Protocol → String
  | .icmpv4Echo => "ICMPv4 -IcmpType 8"
  | .tcp => "TCP"
  | .udp => "UDP"

def GROUP : String := quoted "UnityLAN"

def removeGroup : String :=
  "Remove-NetFirewallRule -Group " ++ GROUP ++ " -ErrorAction SilentlyContinue"

def NewRule.render (rule : NewRule) : String :=
  "New-NetFirewallRule -DisplayName " ++ rule.displayName ++ " -Group " ++ GROUP ++
    " -Direction Inbound -Action Allow -Protocol " ++ rule.protocol.render ++
    rule.localPort.elim "" (fun port => s!" -LocalPort {port.toNat}") ++
    rule.interfaceAlias.elim "" (fun iface => " -InterfaceAlias " ++ iface) ++
    rule.remoteAddress.elim ""
      (fun ips => " -RemoteAddress " ++ ",".intercalate (ips.map renderIp)) ++
    " -ErrorAction SilentlyContinue | Out-Null\n"

def scriptText (iface : String) (listenPort : Port) (beaconPort : Option Port)
    (exposed : List Exposed) (peers : PeerSets) : String :=
  removeGroup ++ "\n" ++
    String.join ((script iface listenPort beaconPort exposed peers).map NewRule.render)

/-! How PowerShell reads the script. -/

def isSingleQuote (c : Char) : Bool :=
  c == quoteChar || c == Char.ofNat 0x2018 || c == Char.ofNat 0x2019 || c == Char.ofNat 0x201a ||
    c == Char.ofNat 0x201b

/-- The rest of a verbatim string, and what stands after it; two quotes together are one
character of it. -/
def readQuoted : List Char → Option (List Char × List Char)
  | [] => none
  | [c] => if isSingleQuote c then some ([], []) else none
  | c :: d :: rest =>
      if isSingleQuote c then
        if isSingleQuote d then (readQuoted rest).map fun read => (c :: read.1, read.2)
        else some ([], d :: rest)
      else (readQuoted (d :: rest)).map fun read => (c :: read.1, read.2)

def literal (text : String) : Option String :=
  match text.toList with
  | [] => none
  | c :: rest =>
      if isSingleQuote c then
        match readQuoted rest with
        | some (content, []) => some (String.ofList content)
        | _ => none
      else none

structure Rule where
  protocol : Protocol
  localPort : Option Port
  interfaceAlias : Option String
  remoteAddress : Option (List Ipv4Addr)

def NewRule.read (rule : NewRule) : Option Rule :=
  match literal rule.displayName with
  | none => none
  | some _ =>
      match rule.interfaceAlias with
      | none => some ⟨rule.protocol, rule.localPort, none, rule.remoteAddress⟩
      | some text =>
          (literal text).map fun iface =>
            ⟨rule.protocol, rule.localPort, some iface, rule.remoteAddress⟩

/-- A script is parsed whole before any of it runs: if one of its strings ends elsewhere than
meant, what comes after is not what was meant either. -/
def readScript (script : List NewRule) : Option (List Rule) :=
  if script.all fun rule => rule.read.isSome then some (script.filterMap NewRule.read) else none

def Rule.matchesPayload (rule : Rule) : Payload → Bool
  | .icmp type => rule.protocol == .icmpv4Echo && type == ICMP_ECHO_REQUEST
  | .transport proto port => rule.protocol == psProto proto && rule.localPort.all (· == port)
  | .other _ => false

/-- New traffic that arrives on an interface; what no rule allows is blocked. -/
def Rule.allows (iface : String) (source : Ipv4Addr) (payload : Payload) (rule : Rule) : Bool :=
  rule.matchesPayload payload && rule.interfaceAlias.all (· == iface) &&
    rule.remoteAddress.all fun ips => ips.contains source

/-! What reads back as it was quoted. -/

theorem readQuoted_cons {c : Char} (hplain : isSingleQuote c = false) (rest : List Char) :
    readQuoted (c :: rest) = (readQuoted rest).map fun read => (c :: read.1, read.2) := by
  cases rest with
  | nil => simp [readQuoted, hplain]
  | cons d rest => simp [readQuoted, hplain]

theorem readQuoted_append {s rest : List Char}
    (hplain : ∀ c ∈ s, isSingleQuote c = true → c = quoteChar)
    (hrest : ∀ c ∈ rest.head?, isSingleQuote c = false) :
    readQuoted ((s.flatMap fun c => if c = quoteChar then [c, c] else [c]) ++ quoteChar :: rest) =
      some (s, rest) := by
  have hquote : isSingleQuote quoteChar = true := by
    decide
  induction s with
  | nil =>
      cases rest with
      | nil => simp [readQuoted, hquote]
      | cons d rest =>
          have hd : isSingleQuote d = false := hrest d rfl
          simp [readQuoted, hquote, hd]
  | cons c s ih =>
      have hbody := ih fun d hd => hplain d (List.mem_cons_of_mem _ hd)
      rw [List.flatMap_cons, List.append_assoc]
      by_cases hc : c = quoteChar
      · subst hc
        rw [if_pos rfl]
        simp [readQuoted, hquote, hbody]
      · have hother : isSingleQuote c = false := by
          rw [Bool.eq_false_iff]
          exact fun hsingle => hc (hplain c (List.mem_cons_self ..) hsingle)
        rw [if_neg hc, List.singleton_append, readQuoted_cons hother, hbody]
        rfl

theorem literal_psQuote {s : String}
    (hplain : ∀ c ∈ s.toList, isSingleQuote c = true → c = quoteChar) :
    literal (psQuote s) = some s := by
  have hquote : isSingleQuote quoteChar = true := by
    decide
  unfold literal psQuote
  rw [String.toList_ofList]
  have hread : readQuoted ((s.toList.flatMap fun c => if c = quoteChar then [c, c] else [c]) ++
      [quoteChar]) = some (s.toList, []) :=
    readQuoted_append hplain fun c hnone => nomatch hnone
  simp only [List.cons_append, hquote, if_true, hread, String.ofList_toList]

theorem quoted_eq {s : String} (hplain : ∀ c ∈ s.toList, c ≠ quoteChar) :
    quoted s = psQuote s := by
  have hsingle : ∀ c ∈ s.toList, (if c = quoteChar then [c, c] else [c]) = [c] := fun c hc =>
    if_neg (hplain c hc)
  unfold quoted psQuote
  rw [List.flatMap_congr hsingle, List.flatMap_singleton']

theorem literal_quoted {s : String} (hplain : s.toList.all (fun c => !isSingleQuote c) = true) :
    literal (quoted s) = some s := by
  have hnone : ∀ c ∈ s.toList, isSingleQuote c = false := by
    simpa using hplain
  rw [quoted_eq, literal_psQuote]
  · intro c hc hsingle
    rw [hnone c hc] at hsingle
    cases hsingle
  · rintro c hc rfl
    have hquote := hnone _ hc
    revert hquote
    decide

/-! What the rules of a script let in. -/

/-- Every name is one string of the script, and that of the interface the one meant. -/
structure Readable (iface : String) (exposed : List Exposed) (peers : PeerSets) : Prop where
  iface : literal (psQuote iface) = some iface
  names : ∀ e ∈ exposed, peers.sources e.scope ≠ some [] →
    (literal (psQuote (displayName peers e))).isSome = true

def NewRule.meant (iface : String) (rule : NewRule) : Rule :=
  ⟨rule.protocol, rule.localPort, rule.interfaceAlias.map fun _ => iface, rule.remoteAddress⟩

section

variable {iface : String} {listenPort : Port} {beaconPort : Option Port} {exposed : List Exposed}
  {peers : PeerSets} {source : Ipv4Addr} {payload : Payload}

theorem plain_number {first last : String} (n : Nat)
    (hfirst : first.toList.all (fun c => !isSingleQuote c) = true)
    (hlast : last.toList.all (fun c => !isSingleQuote c) = true) :
    (first ++ toString n ++ last).toList.all (fun c => !isSingleQuote c) = true := by
  have hnumber : (toString n).toList.all (fun c => !isSingleQuote c) = true := by
    apply List.all_eq_true.mpr
    intro c hc
    have hlabel := List.all_eq_true.mp (isPlainLabel_toString n) c hc
    rw [Bool.not_eq_true', Bool.eq_false_iff]
    intro hsingle
    simp only [isSingleQuote, Bool.or_eq_true, beq_iff_eq] at hsingle
    rcases hsingle with (((rfl | rfl) | rfl) | rfl) | rfl
    all_goals
      revert hlabel
      decide
  rw [String.toList_append, String.toList_append, List.all_append, List.all_append, hfirst,
    hnumber, hlast]
  rfl

variable (listenPort beaconPort) in
theorem read_meant (hreadable : Readable iface exposed peers) :
    ∀ rule ∈ script iface listenPort beaconPort exposed peers,
      rule.read = some (rule.meant iface) := by
  have hread : ∀ rule : NewRule, (literal rule.displayName).isSome = true →
      (∀ text, rule.interfaceAlias = some text → text = psQuote iface) →
        rule.read = some (rule.meant iface) := by
    intro rule hname halias
    obtain ⟨name, hname⟩ := Option.isSome_iff_exists.mp hname
    unfold NewRule.read NewRule.meant
    rw [hname]
    cases hface : rule.interfaceAlias with
    | none => rfl
    | some text =>
        rw [halias text hface]
        dsimp only
        rw [hreadable.iface]
        rfl
  have hport : ∀ (first : String) (n : Nat),
      first.toList.all (fun c => !isSingleQuote c) = true →
        (literal (quoted (first ++ toString n ++ "/udp"))).isSome = true := by
    intro first n hfirst
    rw [literal_quoted (plain_number n hfirst (by decide))]
    rfl
  intro rule hrule
  unfold script at hrule
  rcases List.mem_append.mp hrule with hrule | hexposed
  · rcases List.mem_append.mp hrule with hfixed | hbeacon
    · simp only [List.mem_cons, List.not_mem_nil, or_false] at hfixed
      rcases hfixed with rfl | rfl | rfl
      · apply hread
        · rw [literal_quoted (by decide)]
          rfl
        · intro text htext
          exact (Option.some.inj htext).symm
      · apply hread
        · exact hport "UnityLAN p2p " _ (by decide)
        · intro text htext
          exact (Option.some.inj htext).symm
      · apply hread
        · exact hport "UnityLAN WireGuard " _ (by decide)
        · intro text htext
          cases htext
    · obtain ⟨port, _, rfl⟩ := List.mem_map.mp hbeacon
      apply hread
      · exact hport "UnityLAN beacon " _ (by decide)
      · intro text htext
        cases htext
  · obtain ⟨e, he, hrule⟩ := List.mem_filterMap.mp hexposed
    unfold exposureRule at hrule
    split at hrule
    · cases hrule
    · rename_i hsome
      cases hrule
      apply hread
      · exact hreadable.names e he hsome
      · intro text htext
        exact (Option.some.inj htext).symm

theorem readScript_meant (hreadable : Readable iface exposed peers) :
    readScript (script iface listenPort beaconPort exposed peers) =
      some ((script iface listenPort beaconPort exposed peers).map (NewRule.meant iface)) := by
  have hmeant := read_meant listenPort beaconPort hreadable
  unfold readScript
  rw [if_pos, List.filterMap_congr hmeant, List.filterMap_eq_map']
  apply List.all_eq_true.mpr
  intro rule hrule
  rw [hmeant rule hrule]
  rfl

def HostPort (listenPort : Port) (beaconPort : Option Port) (payload : Payload) : Prop :=
  payload = .transport .udp listenPort ∨ ∃ port, beaconPort = some port ∧
    payload = .transport .udp port

theorem exposureRule_allows (e : Exposed) :
    (∃ rule, exposureRule iface peers e = some rule ∧
      (rule.meant iface).allows iface source payload = true) ↔
      payload = .transport e.proto e.port ∧ peers.admits e.scope source = true := by
  unfold exposureRule
  split
  · rename_i hnone
    refine iff_of_false ?_ ?_
    · rintro ⟨rule, hrule, _⟩
      cases hrule
    · rintro ⟨_, hadmits⟩
      simp [PeerSets.admits, hnone] at hadmits
  · rw [PeerSets.admits]
    cases payload with
    | icmp type => cases e.proto <;> simp [Rule.allows, Rule.matchesPayload, NewRule.meant, psProto]
    | transport proto port =>
        by_cases hport : port = e.port
        · subst hport
          cases hproto : e.proto <;> cases proto <;>
            simp [Rule.allows, Rule.matchesPayload, NewRule.meant, psProto]
        · simp [Rule.allows, Rule.matchesPayload, NewRule.meant, hport, Ne.symm hport]
    | other protocol => simp [Rule.allows, Rule.matchesPayload]

theorem script_allows :
    ((script iface listenPort beaconPort exposed peers).map (NewRule.meant iface)).any
        (Rule.allows iface source payload) = true ↔
      Permits exposed peers source payload ∨ HostPort listenPort beaconPort payload := by
  have hecho : ∀ name : String, (NewRule.meant iface
      { displayName := name, protocol := .icmpv4Echo,
        interfaceAlias := some (psQuote iface) }).allows iface source payload = true ↔
      payload = .icmp ICMP_ECHO_REQUEST := by
    intro name
    cases payload with
    | icmp type => simp [Rule.allows, Rule.matchesPayload, NewRule.meant]
    | transport proto dport =>
        cases proto <;> simp [Rule.allows, Rule.matchesPayload, NewRule.meant, psProto]
    | other protocol => simp [Rule.allows, Rule.matchesPayload]
  have hport : ∀ (name : String) (text : Option String) (port : Port), (NewRule.meant iface
      { displayName := name, protocol := .udp, localPort := some port,
        interfaceAlias := text }).allows iface source payload = true ↔
      payload = .transport .udp port := by
    intro name text port
    cases payload with
    | icmp type => simp [Rule.allows, Rule.matchesPayload, NewRule.meant]
    | transport proto dport =>
        by_cases hsame : dport = port
        · subst hsame
          cases proto <;> cases text <;>
            simp [Rule.allows, Rule.matchesPayload, NewRule.meant, psProto]
        · simp [Rule.allows, Rule.matchesPayload, NewRule.meant, hsame, Ne.symm hsame]
    | other protocol => simp [Rule.allows, Rule.matchesPayload]
  have hexposed : (∃ rule ∈ exposed.filterMap (exposureRule iface peers),
      (rule.meant iface).allows iface source payload = true) ↔
      ∃ e ∈ exposed, payload = .transport e.proto e.port ∧ peers.admits e.scope source = true := by
    constructor
    · rintro ⟨rule, hrule, hallows⟩
      obtain ⟨e, he, hrule⟩ := List.mem_filterMap.mp hrule
      exact ⟨e, he, (exposureRule_allows e).mp ⟨rule, hrule, hallows⟩⟩
    · rintro ⟨e, he, hadmits⟩
      obtain ⟨rule, hrule, hallows⟩ := (exposureRule_allows e).mpr hadmits
      exact ⟨rule, List.mem_filterMap.mpr ⟨e, he, hrule⟩, hallows⟩
  simp only [List.any_map, List.any_eq_true, Function.comp_apply, script, List.mem_append,
    or_and_right, exists_or, hexposed, List.mem_map, Option.mem_toList]
  constructor
  · rintro ((⟨rule, hrule, hallows⟩ | ⟨rule, ⟨port, hbeacon, rfl⟩, hallows⟩) | hadmitted)
    · simp only [List.mem_cons, List.not_mem_nil, or_false] at hrule
      rcases hrule with rfl | rfl | rfl
      · exact .inl (.inl ((hecho _).mp hallows))
      · exact .inl (.inr (.inl ((hport _ (some _) _).mp hallows)))
      · exact .inr (.inl ((hport _ none _).mp hallows))
    · exact .inr (.inr ⟨port, hbeacon, (hport _ none _).mp hallows⟩)
    · exact .inl (.inr (.inr hadmitted))
  · rintro ((hping | hpull | hadmitted) | (hlisten | ⟨port, hbeacon, hpayload⟩))
    · exact .inl (.inl ⟨_, .head _, (hecho _).mpr hping⟩)
    · exact .inl (.inl ⟨_, .tail _ (.head _), (hport _ (some _) _).mpr hpull⟩)
    · exact .inr hadmitted
    · exact .inl (.inl ⟨_, .tail _ (.tail _ (.head _)), (hport _ none _).mpr hlisten⟩)
    · exact .inl (.inr ⟨_, ⟨port, hbeacon, rfl⟩, (hport _ none _).mpr hpayload⟩)

/-- The script reads as rules, and apart from the ports of the host these let in what the exposures
permit. -/
def Exact (iface : String) (listenPort : Port) (beaconPort : Option Port)
    (exposed : List Exposed) (peers : PeerSets) : Prop :=
  ∃ rules, readScript (script iface listenPort beaconPort exposed peers) = some rules ∧
    ∀ source payload, ¬ HostPort listenPort beaconPort payload →
      (rules.any (Rule.allows iface source payload) = true ↔ Permits exposed peers source payload)

theorem NewRule.read_protocol {written : NewRule} {rule : Rule}
    (hread : written.read = some rule) : rule.protocol = written.protocol := by
  unfold read at hread
  split at hread
  · cases hread
  · split at hread
    · cases hread
      rfl
    · obtain ⟨_, _, rfl⟩ := Option.map_eq_some_iff.mp hread
      rfl

theorem script_echo {rule : NewRule}
    (hrule : rule ∈ script iface listenPort beaconPort exposed peers)
    (hecho : rule.protocol = .icmpv4Echo) :
    rule = ⟨quoted "UnityLAN ICMPv4 echo", .icmpv4Echo, none, some (psQuote iface), none⟩ := by
  unfold script at hrule
  rcases List.mem_append.mp hrule with hrule | hexposed
  · rcases List.mem_append.mp hrule with hfixed | hbeacon
    · simp only [List.mem_cons, List.not_mem_nil, or_false] at hfixed
      rcases hfixed with rfl | rfl | rfl
      · rfl
      · cases hecho
      · cases hecho
    · obtain ⟨port, _, rfl⟩ := List.mem_map.mp hbeacon
      cases hecho
  · obtain ⟨e, _, hrule⟩ := List.mem_filterMap.mp hexposed
    unfold exposureRule at hrule
    split at hrule
    · cases hrule
    · cases hrule
      cases hproto : e.proto <;> simp [hproto, psProto] at hecho

theorem readable_of_exact (hexact : Exact iface listenPort beaconPort exposed peers) :
    Readable iface exposed peers := by
  obtain ⟨rules, hread, hallows⟩ := hexact
  unfold readScript at hread
  split at hread
  · rename_i hall
    cases hread
    rw [List.all_eq_true] at hall
    constructor
    · have hping : Permits exposed peers 0 (.icmp ICMP_ECHO_REQUEST) := .inl rfl
      have hhost : ¬ HostPort listenPort beaconPort (.icmp ICMP_ECHO_REQUEST) := by
        rintro (heq | ⟨port, _, heq⟩) <;> cases heq
      obtain ⟨rule, hrule, hallow⟩ := List.any_eq_true.mp ((hallows 0 _ hhost).mpr hping)
      obtain ⟨written, hwritten, hread⟩ := List.mem_filterMap.mp hrule
      simp only [Rule.allows, Rule.matchesPayload, Bool.and_eq_true, beq_iff_eq] at hallow
      have hecho : written.protocol = .icmpv4Echo :=
        (NewRule.read_protocol hread).symm.trans hallow.1.1.1
      rw [script_echo hwritten hecho] at hread
      simp only [NewRule.read, literal_quoted (s := "UnityLAN ICMPv4 echo") (by decide)] at hread
      obtain ⟨found, hfound, rfl⟩ := Option.map_eq_some_iff.mp hread
      have hsame : found = iface := by
        simpa using hallow.1.2
      rw [hfound, hsame]
    · intro e he hsome
      have hmem : (NewRule.mk (psQuote (displayName peers e)) (psProto e.proto) (some e.port)
          (some (psQuote iface)) (peers.sources e.scope)) ∈
            script iface listenPort beaconPort exposed peers := by
        apply List.mem_append_right
        exact List.mem_filterMap.mpr ⟨e, he, if_neg hsome⟩
      have hread := hall _ hmem
      unfold NewRule.read at hread
      split at hread
      · cases hread
      · rename_i hname
        rw [hname]
        rfl
  · cases hread

theorem exact_iff_readable :
    Exact iface listenPort beaconPort exposed peers ↔ Readable iface exposed peers := by
  constructor
  · exact readable_of_exact
  · intro hreadable
    refine ⟨_, readScript_meant hreadable, fun source payload hhost => ?_⟩
    rw [script_allows]
    exact or_iff_left hhost

end

end UnityLan.Engine.Fw.Win
