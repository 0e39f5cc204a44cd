import UnityLan.Engine.Address
import UnityLan.Engine.Fw.Tokens

namespace UnityLan.Engine

open UnityLan.Foundation Cert Fw Fw.Win Token

/-! What the two backends of the resolver hook tell the system to route. -/

/-- `resolvectl domain` replaces the whole list of the link, so both domains go in one call. -/
def domainArgs (iface : String) (certDomain : Option String) : List String :=
  ["domain", iface, "~" ++ DNS_SUFFIX] ++ (certDomain.map fun domain => "~" ++ domain).toList

def COMMENT : String := quoted "UnityLAN"

def removeScript : String :=
  "Get-DnsClientNrptRule | Where-Object \x7b $_.Comment -eq " ++ COMMENT ++
    " \x7d | Remove-DnsClientNrptRule -Force -ErrorAction SilentlyContinue"

def addRule (domain : String) (server : Ipv4Addr) : String :=
  "Add-DnsClientNrptRule -Namespace " ++ quoted ("." ++ domain) ++ " -NameServers " ++
    quoted (renderIp server) ++ " -Comment " ++ COMMENT ++ " | Out-Null"

def installScript (server : Ipv4Addr) (certDomain : Option String) : String :=
  removeScript ++ "\n" ++ addRule DNS_SUFFIX server ++
    (certDomain.bind routableDomain).elim "" fun domain => "\n" ++ addRule domain server

/-! What is meant to be routed. -/

def dnsLabels (domain : String) : List (List Char) :=
  domain.toList.splitOn '.'

/-- Two labels at least, none of them empty, of letters, digits and dashes. -/
def plainName (domain : String) : Bool :=
  decide (domain.utf8ByteSize ≤ 253) && decide (2 ≤ (dnsLabels domain).length) &&
    (dnsLabels domain).all fun label =>
      !label.isEmpty && label.all fun c => c.isAlphanum || c == '-'

def routedDomains (certDomain : Option String) : List String :=
  DNS_SUFFIX :: (certDomain.filter plainName).toList

def Inside (domain name : String) : Prop :=
  ("." ++ asciiLower domain).toList <:+ ("." ++ ZoneData.norm name).toList

def ruleTokens (server : Ipv4Addr) (domain : String) : List Token :=
  code "\nAdd-DnsClientNrptRule -Namespace " ++ .text ("." ++ domain) ::
    (code " -NameServers " ++ .text (renderIp server) ::
      (code " -Comment " ++ .text "UnityLAN" :: code " | Out-Null"))

def installTokens (server : Ipv4Addr) (domains : List String) : List Token :=
  code "Get-DnsClientNrptRule | Where-Object \x7b $_.Comment -eq " ++ .text "UnityLAN" ::
    (code " \x7d | Remove-DnsClientNrptRule -Force -ErrorAction SilentlyContinue" ++
      domains.flatMap (ruleTokens server))

/-- A certificate domain takes nothing but itself, and only where it is a name of its own. -/
structure Contained (certDomain : Option String) : Prop where
  linux : ∀ iface, domainArgs iface certDomain =
    "domain" :: iface :: (routedDomains certDomain).map fun domain => "~" ++ domain
  windows : ∀ server, readText (installScript server certDomain) =
    some (installTokens server (routedDomains certDomain))
  /-- But for the namespace the script is the one of any other domain. -/
  script : ∀ server other, plainName other = true →
    (readText (installScript server certDomain)).map (hideValues "-Namespace " []) =
      (readText (installScript server (certDomain.map fun _ => other))).map
        (hideValues "-Namespace " [])
  answered : ∀ (me : SelfDevice) (seeds : List SeedPeer) (services : List (String × Ipv4Addr)) req,
    me.dnsDomain = certDomain →
      ∀ record ∈ ((ZoneData.rebuilt me seeds services).answer req).answers,
        ∃ domain ∈ routedDomains certDomain, Inside domain record.name

theorem domainArgs_eq (iface : String) (certDomain : Option String) :
    domainArgs iface certDomain = "domain" :: iface ::
      (Platform.linux.namespaces certDomain).map fun domain => "~" ++ domain := by
  unfold domainArgs Platform.namespaces
  cases certDomain <;> rfl

/-! The characters of a plain name. -/

theorem plainName_chars {domain : String} (hplain : plainName domain = true) :
    ∀ c ∈ domain.toList, (c.isAlphanum || c == '-' || c == '.') = true := by
  unfold plainName at hplain
  rw [Bool.and_eq_true, List.all_eq_true] at hplain
  intro c hc
  have hjoined : ['.'].intercalate (dnsLabels domain) = domain.toList :=
    List.intercalate_splitOn '.'
  rw [← hjoined] at hc
  rcases mem_intercalate hc with hdot | ⟨label, hlabel, hc⟩
  · rw [List.mem_singleton.mp hdot]
    decide
  · have hchars := hplain.2 label hlabel
    rw [Bool.and_eq_true, List.all_eq_true] at hchars
    rw [hchars.2 c hc, Bool.true_or]

theorem plainName_dot {domain : String} (hplain : plainName domain = true) :
    '.' ∈ domain.toList := by
  unfold plainName at hplain
  rw [Bool.and_eq_true, Bool.and_eq_true, decide_eq_true_iff, decide_eq_true_iff] at hplain
  have hlength := hplain.1.2
  have hjoined : ['.'].intercalate (dnsLabels domain) = domain.toList :=
    List.intercalate_splitOn '.'
  rw [← hjoined]
  match hsplit : dnsLabels domain with
  | [] => simp [hsplit] at hlength
  | [label] => simp [hsplit] at hlength
  | first :: second :: rest =>
      rw [List.intercalate_cons_cons]
      simp

theorem routableDomain_plain {domain : String} (hplain : plainName domain = true) :
    routableDomain domain = some domain := by
  have hdot := plainName_dot hplain
  have hlength : domain.utf8ByteSize ≤ 253 := by
    unfold plainName at hplain
    rw [Bool.and_eq_true, Bool.and_eq_true, decide_eq_true_iff] at hplain
    exact hplain.1.1
  have hempty : domain.isEmpty = false := by
    rw [Bool.eq_false_iff]
    intro hempty
    rw [String.isEmpty_iff.mp hempty] at hdot
    cases hdot
  have hcontains : domain.contains '.' = true := by
    rw [String.contains_char_eq]
    exact decide_eq_true hdot
  unfold routableDomain
  rw [if_pos]
  rw [hempty, hcontains, List.all_eq_true.mpr (plainName_chars hplain), decide_eq_true hlength]
  rfl

theorem noQuote_plain {domain : String} (hplain : plainName domain = true) : NoQuote domain := by
  intro c hc
  have hchar := plainName_chars hplain c hc
  rw [Bool.eq_false_iff]
  intro hsingle
  simp only [isSingleQuote, Bool.or_eq_true, beq_iff_eq] at hsingle
  rcases hsingle with (((rfl | rfl) | rfl) | rfl) | rfl
  all_goals
    revert hchar
    decide

/-! What the Windows script says. -/

def routingScript (server : Ipv4Addr) (domains : List String) : String :=
  removeScript ++ String.join (domains.map fun domain => "\n" ++ addRule domain server)

theorem installScript_eq (server : Ipv4Addr) (certDomain : Option String) :
    installScript server certDomain =
      routingScript server (Platform.windows.namespaces certDomain) := by
  unfold installScript routingScript Platform.namespaces
  cases certDomain.bind routableDomain with
  | none => simp [String.append_assoc]
  | some domain => simp [String.append_assoc]

theorem comment_written : COMMENT.toList = written (.text "UnityLAN") := by
  decide

theorem ruleTokens_written (server : Ipv4Addr) {domain : String} (hdomain : NoQuote domain) :
    (ruleTokens server domain).flatMap written = ("\n" ++ addRule domain server).toList := by
  have hdot : NoQuote "." := noQuote_of (by decide)
  unfold addRule
  rw [quoted_noQuote (hdot.append hdomain), quoted_noQuote (noQuote_renderIp server)]
  simp [ruleTokens, code_written, comment_written, List.flatMap_append, written]

theorem installTokens_written (server : Ipv4Addr) {domains : List String}
    (hdomains : ∀ domain ∈ domains, NoQuote domain) :
    (installTokens server domains).flatMap written = (routingScript server domains).toList := by
  have hrules : (domains.flatMap (ruleTokens server)).flatMap written =
      (String.join (domains.map fun domain => "\n" ++ addRule domain server)).toList := by
    induction domains with
    | nil => rfl
    | cons domain rest ih =>
        rw [List.flatMap_cons, List.flatMap_append,
          ih fun other hother => hdomains other (List.mem_cons_of_mem _ hother),
          ruleTokens_written server (hdomains domain (List.mem_cons_self ..)), List.map_cons,
          String.join_cons]
        exact String.toList_append.symm
  unfold installTokens routingScript removeScript
  simp [code_written, comment_written, List.flatMap_append, hrules]

theorem ruleTokens_spaced (server : Ipv4Addr) (domain : String) (rest : List Token) :
    Spaced (ruleTokens server domain ++ rest) ↔ Spaced rest := by
  unfold ruleTokens
  simp only [List.append_assoc, List.cons_append, spaced_code]
  rw [spaced_text _ (by decide), spaced_text _ (by decide), spaced_text _ (by decide)]

theorem installTokens_spaced (server : Ipv4Addr) (domains : List String) :
    Spaced (installTokens server domains) := by
  unfold installTokens
  rw [spaced_code, spaced_text _ (by decide)]
  induction domains with
  | nil => exact spaced_nil
  | cons domain rest ih =>
      rw [List.flatMap_cons, ruleTokens_spaced]
      exact ih

theorem installTokens_plain (server : Ipv4Addr) {domains : List String}
    (hdomains : ∀ domain ∈ domains, NoQuote domain) :
    ∀ token ∈ installTokens server domains, token.Plain := by
  intro token htoken
  unfold installTokens ruleTokens at htoken
  simp only [List.mem_append, List.mem_cons, List.mem_flatMap] at htoken
  rcases htoken with hcode | rfl | hcode | ⟨domain, hdomain, hcode | rfl | hcode | rfl | hcode |
    rfl | hcode⟩
  · exact (noQuote_of (by decide)).code token hcode
  · exact (noQuote_of (by decide)).text
  · exact (noQuote_of (by decide)).code token hcode
  · exact (noQuote_of (by decide)).code token hcode
  · exact ((noQuote_of (by decide)).append (hdomains domain hdomain)).text
  · exact (noQuote_of (by decide)).code token hcode
  · exact (noQuote_renderIp server).text
  · exact (noQuote_of (by decide)).code token hcode
  · exact (noQuote_of (by decide)).text
  · exact (noQuote_of (by decide)).code token hcode

theorem routingScript_read (server : Ipv4Addr) {domains : List String}
    (hdomains : ∀ domain ∈ domains, NoQuote domain) :
    readText (routingScript server domains) = some (installTokens server domains) := by
  unfold readText
  rw [← installTokens_written server hdomains]
  exact readTokens_written (installTokens_plain server hdomains) (installTokens_spaced server _)

theorem hideValues_install (server : Ipv4Addr) {domains domains' : List String}
    (hlength : domains.length = domains'.length) :
    hideValues "-Namespace " [] (installTokens server domains) =
      hideValues "-Namespace " [] (installTokens server domains') := by
  have hrules : ∀ seen, hideValues "-Namespace " seen (domains.flatMap (ruleTokens server)) =
      hideValues "-Namespace " seen (domains'.flatMap (ruleTokens server)) := by
    induction domains generalizing domains' with
    | nil =>
        rw [List.length_nil] at hlength
        rw [List.length_eq_zero_iff.mp hlength.symm]
        exact fun _ => rfl
    | cons domain rest ih =>
        cases domains' with
        | nil => cases hlength
        | cons domain' rest' =>
            intro seen
            have hnamed : "-Namespace ".toList.reverse.isPrefixOf
                ("\nAdd-DnsClientNrptRule -Namespace ".toList.reverse ++ seen) = true := by
              have hbegins : "-Namespace ".toList.reverse <+:
                  "\nAdd-DnsClientNrptRule -Namespace ".toList.reverse := by
                decide
              exact List.isPrefixOf_iff_prefix.mpr (hbegins.trans (List.prefix_append _ _))
            have hlater := ih (Nat.succ.inj hlength)
            rw [List.flatMap_cons, List.flatMap_cons]
            unfold ruleTokens at hlater ⊢
            simp only [List.append_assoc, List.cons_append, hideValues_code, hideValues, hnamed,
              if_true, hlater]
  unfold installTokens
  simp only [hideValues_code, hideValues, hrules]

/-! What the zone answers. -/

theorem inside_of_endsUnder {domain name : String}
    (hunder : endsUnder domain (ZoneData.norm name) = true) : Inside domain name := by
  obtain ⟨front, hname⟩ := List.isSuffixOf_iff_suffix.mp hunder
  have hlower := congrArg String.toList (ZoneData.asciiLower_norm name)
  rw [toList_asciiLower] at hlower
  have hdomain : asciiLower domain = domain := by
    rw [← hname, String.toList_append, List.map_append, List.map_append] at hlower
    obtain ⟨-, hlower⟩ := List.append_inj hlower (by simp)
    obtain ⟨-, hlower⟩ := List.append_inj hlower (by simp)
    rw [← String.toList_inj, toList_asciiLower, hlower]
  have hdotted : ("." ++ ZoneData.norm name).toList =
      ".".toList ++ (ZoneData.norm name).toList := String.toList_append
  unfold Inside
  rw [hdomain, hdotted, ← hname]
  exact ⟨".".toList ++ front, List.append_assoc ..⟩

/-- A certificate domain takes nothing but itself if it is a plain name. -/
theorem domain_contained (certDomain : Option String) :
    Contained certDomain ↔ ∀ domain ∈ certDomain, plainName domain = true := by
  constructor
  · intro hcontained domain hdomain
    have hargs := hcontained.linux "unity0"
    rw [Option.mem_def] at hdomain
    subst hdomain
    by_contra hplain
    simp [domainArgs, routedDomains, Option.filter, hplain] at hargs
  · intro hplain
    have hsuffix : NoQuote DNS_SUFFIX := noQuote_of (by decide)
    have hfilter : certDomain.filter plainName = certDomain := by
      cases certDomain with
      | none => rfl
      | some domain => rw [Option.filter_some, if_pos (hplain domain rfl)]
    have hroutable : ∀ {certDomain : Option String},
        (∀ domain ∈ certDomain, plainName domain = true) →
          certDomain.bind routableDomain = certDomain := by
      intro certDomain hplain
      cases certDomain with
      | none => rfl
      | some domain => exact routableDomain_plain (hplain domain rfl)
    have hread : ∀ {certDomain : Option String} (server : Ipv4Addr),
        (∀ domain ∈ certDomain, plainName domain = true) →
          readText (installScript server certDomain) =
            some (installTokens server (DNS_SUFFIX :: certDomain.toList)) := by
      intro certDomain server hplain
      rw [installScript_eq, Platform.namespaces, hroutable hplain]
      apply routingScript_read
      intro domain hdomain
      rcases List.mem_cons.mp hdomain with rfl | hcert
      · exact hsuffix
      · exact noQuote_plain (hplain domain (Option.mem_toList.mp hcert))
    constructor
    · intro iface
      unfold routedDomains
      rw [domainArgs_eq, Platform.namespaces, hfilter]
    · intro server
      unfold routedDomains
      rw [hfilter]
      exact hread server hplain
    · intro server other hother
      have hother : ∀ domain ∈ certDomain.map fun _ => other, plainName domain = true := by
        intro domain hdomain
        obtain ⟨_, _, rfl⟩ := Option.map_eq_some_iff.mp hdomain
        exact hother
      have hlength : (DNS_SUFFIX :: certDomain.toList).length =
          (DNS_SUFFIX :: (certDomain.map fun _ => other).toList).length := by
        cases certDomain <;> rfl
      rw [hread server hplain, hread server hother, Option.map_some, Option.map_some,
        hideValues_install server hlength]
    · intro me seeds services req hme record hrecord
      rw [(ZoneData.answer_eq req).1] at hrecord
      obtain ⟨q, _, hrecord⟩ := List.mem_filterMap.mp hrecord
      unfold ZoneData.recordFor at hrecord
      split at hrecord
      · rename_i hasked
        obtain ⟨ip, _, rfl⟩ := Option.map_eq_some_iff.mp hrecord
        rw [Bool.and_eq_true, ZoneData.ours, ZoneData.rebuilt_certDomain, hme, Bool.or_eq_true]
          at hasked
        unfold routedDomains
        rw [hfilter]
        rcases hasked.2 with hmesh | hcert
        · exact ⟨DNS_SUFFIX, List.mem_cons_self .., inside_of_endsUnder hmesh⟩
        · obtain ⟨domain, hdomain, hunder⟩ := (Option.any_eq_true _ _).mp hcert
          exact ⟨domain, List.mem_cons_of_mem _ (Option.mem_toList.mpr hdomain),
            inside_of_endsUnder hunder⟩
      · cases hrecord

/-- A lone dot has every lookup of the machine routed. -/
theorem domain_captures : ¬ ∀ certDomain : Option String, Contained certDomain := by
  intro hclaim
  have hargs := (hclaim (some ".")).linux "unity0"
  revert hargs
  decide

end UnityLan.Engine
