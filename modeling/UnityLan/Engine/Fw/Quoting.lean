import UnityLan.Engine.Fw.Tokens

namespace UnityLan.Engine.Fw.Win

open Token

/-! What the script is meant to say. -/

structure Command where
  displayName : String
  protocol : Protocol
  localPort : Option Port := none
  interfaceAlias : Option String := none
  remoteAddress : Option (List Ipv4Addr) := none

namespace Command

def quote (command : Command) : NewRule where
  displayName := psQuote command.displayName
  protocol := command.protocol
  localPort := command.localPort
  interfaceAlias := command.interfaceAlias.map psQuote
  remoteAddress := command.remoteAddress

def tokens (command : Command) : List Token :=
  code "New-NetFirewallRule -DisplayName " ++ .text command.displayName ::
    (code " -Group " ++ .text "UnityLAN" ::
      (code (" -Direction Inbound -Action Allow -Protocol " ++ command.protocol.render ++
          command.localPort.elim "" fun port => s!" -LocalPort {port.toNat}") ++
        (command.interfaceAlias.elim [] fun iface =>
          code " -InterfaceAlias " ++ [.text iface]) ++
        code (command.remoteAddress.elim ""
            (fun ips => " -RemoteAddress " ++ ",".intercalate (ips.map renderIp)) ++
          " -ErrorAction SilentlyContinue | Out-Null\n")))

end Command

section

variable (label : ExposeScope → String) (iface : String) (listenPort : Port)
  (beaconPort : Option Port) (exposed : List Exposed) (peers : PeerSets)

def exposureCommand (e : Exposed) : Option Command :=
  let command (name : String) (ips : Option (List Ipv4Addr)) : Command :=
    { displayName := name
      protocol := psProto e.proto
      localPort := some e.port
      interfaceAlias := some iface
      remoteAddress := ips }
  match peers.sources e.scope with
  | none => some (command s!"UnityLAN {e.proto.asStr}/{e.port.toNat}" none)
  | some [] => none
  | some ips =>
      some (command s!"UnityLAN {e.proto.asStr}/{e.port.toNat} scope:{label e.scope}" (some ips))

def commands : List Command :=
  [{ displayName := "UnityLAN ICMPv4 echo"
     protocol := .icmpv4Echo
     interfaceAlias := some iface },
   { displayName := s!"UnityLAN p2p {P2P_PORT.toNat}/udp"
     protocol := .udp
     localPort := some P2P_PORT
     interfaceAlias := some iface },
   { displayName := s!"UnityLAN WireGuard {listenPort.toNat}/udp"
     protocol := .udp
     localPort := some listenPort }] ++
    (beaconPort.toList.map fun port =>
      { displayName := s!"UnityLAN beacon {port.toNat}/udp"
        protocol := .udp
        localPort := some port }) ++
    exposed.filterMap (exposureCommand label iface peers)

end

def commandsText (commands : List Command) : String :=
  removeGroup ++ "\n" ++ String.join (commands.map fun command => command.quote.render)

def commandsTokens (commands : List Command) : List Token :=
  code "Remove-NetFirewallRule -Group " ++ .text "UnityLAN" ::
    (code " -ErrorAction SilentlyContinue\n" ++ commands.flatMap Command.tokens)

abbrev hideNames : List Char → List Token → List Token :=
  hideValues "-DisplayName "

/-- Whatever the scopes are called, the script says what it is meant to, and the same but for the
names of its rules as one that calls each of them by a harmless name. -/
structure ReadsAsMeant (iface : String) (listenPort : Port) (beaconPort : Option Port)
    (exposed : List Exposed) (peers : PeerSets) : Prop where
  meant : readText (scriptText iface listenPort beaconPort exposed peers) =
    some (commandsTokens (commands peers.label iface listenPort beaconPort exposed peers))
  named : ∀ constant : String, (Token.text constant).Plain →
    (readText (scriptText iface listenPort beaconPort exposed peers)).map (hideNames []) =
      (readText (commandsText
        (commands (fun _ => constant) iface listenPort beaconPort exposed peers))).map
          (hideNames [])

theorem group_written : (psQuote "UnityLAN").toList = GROUP.toList := by
  decide

theorem tokens_written (command : Command) :
    command.tokens.flatMap written = command.quote.render.toList := by
  unfold Command.tokens NewRule.render Command.quote
  cases command.interfaceAlias <;>
    simp [code_written, group_written, List.flatMap_append, written]

theorem commandsTokens_written (commands : List Command) :
    (commandsTokens commands).flatMap written = (commandsText commands).toList := by
  have hjoin : (commands.flatMap Command.tokens).flatMap written =
      (String.join (commands.map fun command => command.quote.render)).toList := by
    induction commands with
    | nil => rfl
    | cons command rest ih =>
        rw [List.flatMap_cons, List.flatMap_append, ih, tokens_written, List.map_cons,
          String.join_cons, String.toList_append]
  unfold commandsTokens commandsText removeGroup
  simp [code_written, group_written, List.flatMap_append, hjoin, written]

theorem noQuote_render (protocol : Protocol) : NoQuote protocol.render := by
  cases protocol <;> exact noQuote_of (by decide)

theorem noQuote_port (localPort : Option Port) :
    NoQuote (localPort.elim "" fun port => s!" -LocalPort {port.toNat}") := by
  cases localPort with
  | none => exact noQuote_of (by decide)
  | some port => exact (noQuote_of (s := " -LocalPort ") (by decide)).append (noQuote_nat _)

theorem noQuote_addresses (remoteAddress : Option (List Ipv4Addr)) :
    NoQuote (remoteAddress.elim ""
      fun ips => " -RemoteAddress " ++ ",".intercalate (ips.map renderIp)) := by
  cases remoteAddress with
  | none => exact noQuote_of (by decide)
  | some ips =>
      apply (noQuote_of (s := " -RemoteAddress ") (by decide)).append
      apply noQuote_intercalate (noQuote_of (by decide))
      intro part hpart
      obtain ⟨ip, -, rfl⟩ := List.mem_map.mp hpart
      exact noQuote_renderIp ip

structure Command.Plain (command : Command) : Prop where
  displayName : (Token.text command.displayName).Plain
  interfaceAlias : ∀ iface, command.interfaceAlias = some iface → (Token.text iface).Plain

theorem tokens_plain {command : Command} (hplain : command.Plain) :
    ∀ token ∈ command.tokens, token.Plain := by
  intro token htoken
  unfold Command.tokens at htoken
  simp only [List.mem_append, List.mem_cons] at htoken
  rcases htoken with hcode | rfl | hcode | rfl | (hcode | hiface) | hcode
  · exact (noQuote_of (by decide)).code token hcode
  · exact hplain.displayName
  · exact (noQuote_of (by decide)).code token hcode
  · exact (noQuote_of (by decide)).text
  · refine NoQuote.code ?_ token hcode
    exact ((noQuote_of (by decide)).append (noQuote_render _)).append (noQuote_port _)
  · cases halias : command.interfaceAlias with
    | none =>
        rw [halias] at hiface
        cases hiface
    | some iface =>
        rw [halias] at hiface
        rcases List.mem_append.mp hiface with hcode | hiface
        · exact (noQuote_of (by decide)).code token hcode
        · rw [List.mem_singleton.mp hiface]
          exact hplain.interfaceAlias iface halias
  · exact ((noQuote_addresses _).append (noQuote_of (by decide))).code token hcode

theorem commandsTokens_plain {commands : List Command}
    (hplain : ∀ command ∈ commands, command.Plain) :
    ∀ token ∈ commandsTokens commands, token.Plain := by
  intro token htoken
  unfold commandsTokens at htoken
  simp only [List.mem_append, List.mem_cons, List.mem_flatMap] at htoken
  rcases htoken with hcode | rfl | hcode | ⟨command, hcommand, htoken⟩
  · exact (noQuote_of (by decide)).code token hcode
  · exact (noQuote_of (by decide)).text
  · exact (noQuote_of (by decide)).code token hcode
  · exact tokens_plain (hplain command hcommand) token htoken

theorem tokens_spaced (command : Command) (rest : List Token) :
    Spaced (command.tokens ++ rest) ↔ Spaced rest := by
  unfold Command.tokens
  cases command.interfaceAlias with
  | none =>
      simp only [Option.elim_none, List.append_nil, List.append_assoc, List.cons_append,
        spaced_code]
      rw [spaced_text _ (by decide), spaced_text _ (by simp), spaced_code]
  | some iface =>
      simp only [Option.elim_some, List.append_assoc, List.cons_append, spaced_code,
        List.nil_append]
      rw [spaced_text _ (by decide), spaced_text _ (by simp), spaced_code, spaced_text _ (by simp)]

theorem commandsTokens_spaced (commands : List Command) : Spaced (commandsTokens commands) := by
  unfold commandsTokens
  rw [spaced_code, spaced_text _ (by decide)]
  induction commands with
  | nil => exact spaced_nil
  | cons command rest ih =>
      rw [List.flatMap_cons, tokens_spaced]
      exact ih

/-! The script is that of its commands. -/

theorem noQuote_named {first last : String} (n : Nat) (hfirst : NoQuote first)
    (hlast : NoQuote last) : NoQuote (first ++ toString n ++ last) :=
  (hfirst.append (noQuote_nat n)).append hlast

section

variable {label : ExposeScope → String} {iface : String} {listenPort : Port}
  {beaconPort : Option Port} {exposed : List Exposed} {peers : PeerSets}

theorem exposureRule_eq (e : Exposed) : exposureRule iface peers e =
    (exposureCommand peers.label iface peers e).map Command.quote := by
  unfold exposureRule exposureCommand displayName
  cases hsources : peers.sources e.scope with
  | none => rfl
  | some ips => cases ips <;> rfl

theorem script_eq : script iface listenPort beaconPort exposed peers =
    (commands peers.label iface listenPort beaconPort exposed peers).map Command.quote := by
  have hudp : NoQuote "/udp" := noQuote_of (by decide)
  have hecho : quoted "UnityLAN ICMPv4 echo" = psQuote "UnityLAN ICMPv4 echo" :=
    quoted_noQuote (noQuote_of (by decide))
  have hp2p : quoted s!"UnityLAN p2p {P2P_PORT.toNat}/udp" =
      psQuote s!"UnityLAN p2p {P2P_PORT.toNat}/udp" :=
    quoted_noQuote (noQuote_named _ (noQuote_of (s := "UnityLAN p2p ") (by decide)) hudp)
  have hlisten : quoted s!"UnityLAN WireGuard {listenPort.toNat}/udp" =
      psQuote s!"UnityLAN WireGuard {listenPort.toNat}/udp" :=
    quoted_noQuote (noQuote_named _ (noQuote_of (s := "UnityLAN WireGuard ") (by decide)) hudp)
  have hbeacon : ∀ port : Port, quoted s!"UnityLAN beacon {port.toNat}/udp" =
      psQuote s!"UnityLAN beacon {port.toNat}/udp" := fun port =>
    quoted_noQuote (noQuote_named _ (noQuote_of (s := "UnityLAN beacon ") (by decide)) hudp)
  have hexposed : exposed.filterMap (exposureRule iface peers) =
      (exposed.filterMap (exposureCommand peers.label iface peers)).map Command.quote := by
    rw [List.map_filterMap]
    exact List.filterMap_congr fun e _ => exposureRule_eq e
  unfold script commands
  simp only [List.map_append, List.map_cons, List.map_nil, List.map_map, Function.comp_def,
    Command.quote, Option.map_some, Option.map_none, hecho, hp2p, hlisten, hbeacon, hexposed]

theorem scriptText_eq : scriptText iface listenPort beaconPort exposed peers =
    commandsText (commands peers.label iface listenPort beaconPort exposed peers) := by
  unfold scriptText commandsText
  rw [script_eq, List.map_map]
  rfl

theorem plain_append {s : String} (hs : NoQuote s) (t : String) :
    (Token.text (s ++ t)).Plain ↔ (Token.text t).Plain := by
  unfold Token.Plain
  simp only [String.toList_append, List.mem_append]
  constructor
  · exact fun hplain c hc => hplain c (.inr hc)
  · rintro hplain c (hc | hc) hsingle
    · rw [hs c hc] at hsingle
      cases hsingle
    · exact hplain c hc hsingle

theorem noQuote_exposure (e : Exposed) :
    NoQuote ("UnityLAN " ++ e.proto.asStr ++ "/" ++ toString e.port.toNat) := by
  have hproto : NoQuote e.proto.asStr := by
    cases e.proto <;> exact noQuote_of (by decide)
  exact (((noQuote_of (by decide)).append hproto).append (noQuote_of (by decide))).append
    (noQuote_nat _)

theorem commands_plain (hiface : (Token.text iface).Plain)
    (hlabel : ∀ e ∈ exposed, ∀ ips, peers.sources e.scope = some ips → ips ≠ [] →
      (Token.text (label e.scope)).Plain) :
    ∀ command ∈ commands label iface listenPort beaconPort exposed peers, command.Plain := by
  have hudp : NoQuote "/udp" := noQuote_of (by decide)
  have hfixed : ∀ command : Command, NoQuote command.displayName →
      (∀ text, command.interfaceAlias = some text → text = iface) → command.Plain :=
    fun command hname halias => ⟨hname.text, fun text htext => halias text htext ▸ hiface⟩
  intro command hcommand
  unfold commands at hcommand
  rcases List.mem_append.mp hcommand with hcommand | hexposed
  · rcases List.mem_append.mp hcommand with hopen | hbeacon
    · simp only [List.mem_cons, List.not_mem_nil, or_false] at hopen
      rcases hopen with rfl | rfl | rfl
      · apply hfixed
        · exact noQuote_of (s := "UnityLAN ICMPv4 echo") (by decide)
        · exact fun text htext => (Option.some.inj htext).symm
      · apply hfixed
        · exact noQuote_named _ (noQuote_of (s := "UnityLAN p2p ") (by decide)) hudp
        · exact fun text htext => (Option.some.inj htext).symm
      · apply hfixed
        · exact noQuote_named _ (noQuote_of (s := "UnityLAN WireGuard ") (by decide)) hudp
        · exact fun text htext => nomatch htext
    · obtain ⟨port, _, rfl⟩ := List.mem_map.mp hbeacon
      apply hfixed
      · exact noQuote_named _ (noQuote_of (s := "UnityLAN beacon ") (by decide)) hudp
      · exact fun text htext => nomatch htext
  · obtain ⟨e, he, hcommand⟩ := List.mem_filterMap.mp hexposed
    unfold exposureCommand at hcommand
    split at hcommand
    · cases hcommand
      exact ⟨(noQuote_exposure e).text, fun text htext => Option.some.inj htext ▸ hiface⟩
    · cases hcommand
    · rename_i ips hsome hsources
      cases hcommand
      refine ⟨?_, fun text htext => Option.some.inj htext ▸ hiface⟩
      have hscope := (noQuote_exposure e).append (noQuote_of (s := " scope:") (by decide))
      exact (plain_append hscope _).mpr (hlabel e he ips hsources fun hnil => hsome (hnil ▸ rfl))

theorem commands_read (hplain :
    ∀ command ∈ commands label iface listenPort beaconPort exposed peers, command.Plain) :
    readText (commandsText (commands label iface listenPort beaconPort exposed peers)) =
      some (commandsTokens (commands label iface listenPort beaconPort exposed peers)) := by
  unfold readText
  rw [← commandsTokens_written]
  exact readTokens_written (commandsTokens_plain hplain) (commandsTokens_spaced _)

end

/-! What the names are, the rest does not depend on. -/

theorem hideNames_tokens {first second : Command} {rest rest' : List Token}
    (hsame : { first with displayName := "" } = { second with displayName := "" })
    (hrest : ∀ seen, hideNames seen rest = hideNames seen rest') (seen : List Char) :
    hideNames seen (first.tokens ++ rest) = hideNames seen (second.tokens ++ rest') := by
  have hnamed : "-DisplayName ".toList.reverse.isPrefixOf
      ("New-NetFirewallRule -DisplayName ".toList.reverse ++ seen) = true := by
    have hbegins : "-DisplayName ".toList.reverse <+:
        "New-NetFirewallRule -DisplayName ".toList.reverse := by
      decide
    exact List.isPrefixOf_iff_prefix.mpr (hbegins.trans (List.prefix_append _ _))
  obtain ⟨name, protocol, localPort, interfaceAlias, remoteAddress⟩ := first
  obtain ⟨name', protocol', localPort', interfaceAlias', remoteAddress'⟩ := second
  cases hsame
  unfold Command.tokens
  cases interfaceAlias <;>
    simp only [List.append_assoc, List.cons_append, hideValues_code, hideValues, hnamed, if_true,
      Option.elim_none, Option.elim_some, List.nil_append, hrest]

theorem hideNames_commands {first second : List Command}
    (hsame : first.map (fun command => { command with displayName := "" }) =
      second.map fun command => { command with displayName := "" }) :
    hideNames [] (commandsTokens first) = hideNames [] (commandsTokens second) := by
  have htokens : ∀ seen, hideNames seen (first.flatMap Command.tokens) =
      hideNames seen (second.flatMap Command.tokens) := by
    induction first generalizing second with
    | nil =>
        rw [List.map_nil] at hsame
        rw [List.map_eq_nil_iff.mp hsame.symm]
        exact fun _ => rfl
    | cons command rest ih =>
        cases second with
        | nil => cases hsame
        | cons other rest' =>
            rw [List.map_cons, List.map_cons, List.cons.injEq] at hsame
            rw [List.flatMap_cons, List.flatMap_cons]
            exact hideNames_tokens hsame.1 (ih hsame.2)
  unfold commandsTokens
  simp only [hideValues_code, hideValues, htokens]

theorem commands_nameless (label label' : ExposeScope → String) (iface : String)
    (listenPort : Port) (beaconPort : Option Port) (exposed : List Exposed) (peers : PeerSets) :
    (commands label iface listenPort beaconPort exposed peers).map
        (fun command => { command with displayName := "" }) =
      (commands label' iface listenPort beaconPort exposed peers).map
        fun command => { command with displayName := "" } := by
  unfold commands
  simp only [List.map_append, List.map_filterMap]
  congr 1
  refine List.filterMap_congr fun e _ => ?_
  unfold exposureCommand
  cases peers.sources e.scope with
  | none => rfl
  | some ips => cases ips <;> rfl

theorem plain_of_meant {iface : String} {listenPort : Port} {beaconPort : Option Port}
    {exposed : List Exposed} {peers : PeerSets}
    (hreads : ReadsAsMeant iface listenPort beaconPort exposed peers) :
    (Token.text iface).Plain ∧
      ∀ e ∈ exposed, ∀ ips, peers.sources e.scope = some ips → ips ≠ [] →
        (Token.text (peers.label e.scope)).Plain := by
  have hmeant := hreads.meant
  rw [scriptText_eq, readText, ← commandsTokens_written] at hmeant
  have hplain := plain_of_read hmeant
  have htoken : ∀ command ∈ commands peers.label iface listenPort beaconPort exposed peers,
      ∀ token ∈ command.tokens,
        token ∈ commandsTokens (commands peers.label iface listenPort beaconPort exposed peers) :=
    fun command hcommand token htoken => List.mem_append_right _ (List.mem_cons_of_mem _
      (List.mem_append_right _ (List.mem_flatMap.mpr ⟨command, hcommand, htoken⟩)))
  constructor
  · refine hplain iface (htoken _ (.head _) _ ?_)
    simp [Command.tokens]
  · intro e he ips hsources hsome
    obtain ⟨ip, ips, rfl⟩ := List.exists_cons_of_ne_nil hsome
    have hname := hplain (s!"UnityLAN {e.proto.asStr}/{e.port.toNat} scope:{peers.label e.scope}")
      (htoken
        { displayName := s!"UnityLAN {e.proto.asStr}/{e.port.toNat} scope:{peers.label e.scope}"
          protocol := psProto e.proto
          localPort := some e.port
          interfaceAlias := some iface
          remoteAddress := some (ip :: ips) }
        (List.mem_append_right _ (List.mem_filterMap.mpr
          ⟨e, he, by simp only [exposureCommand, hsources]⟩)) _ (by simp [Command.tokens]))
    have hscope := (noQuote_exposure e).append (noQuote_of (s := " scope:") (by decide))
    exact (plain_append hscope _).mp hname

/-- The script says what it is meant to, whatever the scopes are called, if neither the interface
nor a scope that has members has a typographic quote in its name. -/
theorem script_reads (iface : String) (listenPort : Port) (beaconPort : Option Port)
    (exposed : List Exposed) (peers : PeerSets) :
    ReadsAsMeant iface listenPort beaconPort exposed peers ↔
      (Token.text iface).Plain ∧
        ∀ e ∈ exposed, ∀ ips, peers.sources e.scope = some ips → ips ≠ [] →
          (Token.text (peers.label e.scope)).Plain := by
  constructor
  · exact plain_of_meant
  · rintro ⟨hiface, hlabels⟩
    have hread : readText (scriptText iface listenPort beaconPort exposed peers) =
        some (commandsTokens (commands peers.label iface listenPort beaconPort exposed peers)) := by
      rw [scriptText_eq]
      exact commands_read (commands_plain hiface hlabels)
    refine ⟨hread, fun constant hconstant => ?_⟩
    rw [hread, commands_read (commands_plain hiface fun _ _ _ _ _ => hconstant), Option.map_some,
      Option.map_some, hideNames_commands (commands_nameless ..)]

def injectingNet : NetInfo where
  guildId := 1
  roleId := 2
  guild := ""
  name := String.singleton (Char.ofNat 0x2019) ++ "; calc; " ++ String.singleton (Char.ofNat 0x2018)
  ips := [0x64400001#32]

/-- The name of a network changes what the script says. -/
theorem label_injects :
    ¬ ∀ (iface : String) (listenPort : Port) (beaconPort : Option Port) (exposed : List Exposed)
      (peers : PeerSets), ReadsAsMeant iface listenPort beaconPort exposed peers := by
  intro hclaim
  obtain ⟨-, hlabels⟩ := plain_of_meant (hclaim "unity0" 51820 none
    [⟨.tcp, 80, .net 1 2, none, .port⟩] { nets := [injectingNet] })
  have hplain : (Token.text injectingNet.name).Plain :=
    hlabels _ (.head _) [0x64400001#32] rfl (List.cons_ne_nil _ _)
  have hmember : Char.ofNat 0x2019 ∈ injectingNet.name.toList := by
    unfold injectingNet
    simp only [String.toList_append, String.toList_singleton]
    exact .head _
  have hquote := hplain _ hmember (by decide)
  revert hquote
  decide

end UnityLan.Engine.Fw.Win
