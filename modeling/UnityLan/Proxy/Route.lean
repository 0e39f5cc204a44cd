import Mathlib.Data.List.DropRight
import Mathlib.Data.List.Find
import UnityLan.Engine.Fw.Announced
import UnityLan.Engine.Fw.Presence

namespace UnityLan.Proxy

open UnityLan.Engine.Fw

/-! Which service a request is for, and whether the caller may have it. -/

inductive Decision
  | forward (port : Port)
  | forbidden
  | unknown
  deriving DecidableEq

def trim (text : List Char) : List Char :=
  (text.dropWhile isWhitespace).rdropWhile isWhitespace

def cutPort (host : List Char) : List Char :=
  if ':' ∈ host ∧ ']' ∉ host.rtakeWhile (· != ':') then
    (host.rdropWhile (· != ':')).dropLast
  else host

def normalizeHost (host : String) : String :=
  String.ofList (((cutPort (trim host.toList)).rdropWhile (· == '.')).map Char.toLower)

def resolve (routes : List ProxyRoute) (host : String) (peer : Ipv4Addr) : Decision :=
  match routes.find? fun route => route.hostnames.contains (normalizeHost host) with
  | none => .unknown
  | some route =>
      match route.allow with
      | none => .forward route.port
      | some allow => if allow.contains peer then .forward route.port else .forbidden

def webs (fw : Firewall) : List Exposed :=
  fw.exposed.filter fun e => e.kind == .web && e.name.isSome

def routesOf (fw : Firewall) (user : String) (certDomain : Option String) : List ProxyRoute :=
  webRoutes user certDomain fw.meshAddr fw.served

/-- The proxy and the packet filter give each service to those that its scope admits. -/
structure Grants (fw : Firewall) (user : String) (certDomain : Option String) : Prop where
  sound : ∀ host peer port, resolve (routesOf fw user certDomain) host peer = .forward port →
    fw.meshAddr = some peer ∨ ∃ e ∈ webs fw, e.port = port ∧
      normalizeHost host ∈ e.hostnames user certDomain ∧ fw.peers.admits e.scope peer = true
  complete : ∀ e ∈ webs fw, ∀ peer, fw.peers.admits e.scope peer = true →
    Permits (effectiveExposed fw.exposed) fw.peers peer (.transport .tcp HTTPS_PORT) ∧
      ∀ host ∈ e.hostnames user certDomain,
        resolve (routesOf fw user certDomain) host peer = .forward e.port

/-- A web service that admits anyone is on the port of the first of its names, and its names stay
its own when they are normalized. -/
def OnePort (fw : Firewall) (user : String) (certDomain : Option String) : Prop :=
  ∀ e ∈ webs fw, fw.peers.sources e.scope ≠ some [] →
    (∃ first, (webs fw).find? (fun other =>
        other.hostnames user certDomain == e.hostnames user certDomain) = some first ∧
      first.port = e.port) ∧
    ∀ host ∈ e.hostnames user certDomain, normalizeHost host ∈ e.hostnames user certDomain

/-! The routes, as the services they are made of. -/

section

variable {routes : List ProxyRoute} {new : ProxyRoute} {user : String}
  {certDomain : Option String} {own : Option Ipv4Addr} {served : List Served}

def head (route : ProxyRoute) : List String × Port :=
  (route.hostnames, route.port)

theorem find?_addRoute (answers : List String → Bool) :
    ((addRoute new routes).find? fun route => answers route.hostnames).map head =
      ((routes.find? fun route => answers route.hostnames).map head <|>
        if answers new.hostnames then some (head new) else none) := by
  induction routes with
  | nil =>
      unfold addRoute
      rw [List.find?_cons]
      split
      · rename_i hanswers
        simp [hanswers]
      · rename_i hanswers
        simp [hanswers]
  | cons route rest ih =>
      unfold addRoute
      split
      · rename_i hsame
        rw [List.find?_cons, List.find?_cons]
        dsimp only
        cases hanswers : answers route.hostnames with
        | true => rfl
        | false => simp [← hsame, hanswers]
      · rw [List.find?_cons, List.find?_cons]
        cases hanswers : answers route.hostnames with
        | true => rfl
        | false => exact ih

theorem find?_webRoutes (answers : List String → Bool) :
    ((webRoutes user certDomain own served).find? fun route => answers route.hostnames).map head =
      (served.find? fun item => answers (item.1.hostnames user certDomain)).map fun item =>
        (item.1.hostnames user certDomain, item.1.port) := by
  suffices h : ∀ routes : List ProxyRoute,
      ((served.foldl (fun routes item =>
          addRoute ⟨item.1.hostnames user certDomain, item.1.port, withOwn own item.2⟩ routes)
            routes).find? fun route => answers route.hostnames).map head =
        ((routes.find? fun route => answers route.hostnames).map head <|>
          (served.find? fun item => answers (item.1.hostnames user certDomain)).map fun item =>
            (item.1.hostnames user certDomain, item.1.port)) by
    exact h []
  induction served with
  | nil =>
      intro routes
      simp
  | cons item rest ih =>
      intro routes
      rw [List.foldl_cons, ih, find?_addRoute, List.find?_cons]
      cases hanswers : answers (item.1.hostnames user certDomain) with
      | true =>
          cases (routes.find? fun route => answers route.hostnames).map head <;> simp [head]
      | false =>
          cases (routes.find? fun route => answers route.hostnames).map head <;> simp

theorem addRoute_hostnames : (addRoute new routes).map ProxyRoute.hostnames =
    if new.hostnames ∈ routes.map ProxyRoute.hostnames then routes.map ProxyRoute.hostnames
    else routes.map ProxyRoute.hostnames ++ [new.hostnames] := by
  induction routes with
  | nil => rfl
  | cons route rest ih =>
      unfold addRoute
      by_cases hsame : route.hostnames = new.hostnames
      · simp [hsame]
      · rw [if_neg hsame, List.map_cons, ih, List.map_cons]
        simp only [List.mem_cons, Ne.symm hsame, false_or]
        split <;> rfl

theorem webRoutes_nodup :
    ((webRoutes user certDomain own served).map ProxyRoute.hostnames).Nodup := by
  suffices h : ∀ routes : List ProxyRoute, (routes.map ProxyRoute.hostnames).Nodup →
      ((served.foldl (fun routes item =>
        addRoute ⟨item.1.hostnames user certDomain, item.1.port, withOwn own item.2⟩ routes)
          routes).map ProxyRoute.hostnames).Nodup by
    exact h [] List.nodup_nil
  induction served with
  | nil => exact fun _ hnodup => hnodup
  | cons item rest ih =>
      intro routes hnodup
      apply ih
      rw [addRoute_hostnames]
      split
      · exact hnodup
      · rename_i hnew
        refine List.nodup_append.mpr ⟨hnodup, List.nodup_singleton _, ?_⟩
        rintro held hheld _ hlast rfl
        exact hnew (List.mem_singleton.mp hlast ▸ hheld)

theorem route_unique {first second : ProxyRoute}
    (hfirst : first ∈ webRoutes user certDomain own served)
    (hsecond : second ∈ webRoutes user certDomain own served)
    (hsame : first.hostnames = second.hostnames) : first = second :=
  List.inj_on_of_nodup_map webRoutes_nodup hfirst hsecond hsame

theorem resolve_forward {host : String} {peer : Ipv4Addr} {port : Port} :
    resolve routes host peer = .forward port ↔
      ∃ route, routes.find? (fun route => route.hostnames.contains (normalizeHost host)) =
        some route ∧ route.port = port ∧ allows route.allow peer := by
  unfold resolve
  cases hfind : routes.find? fun route => route.hostnames.contains (normalizeHost host) with
  | none => simp
  | some route =>
      cases hallow : route.allow with
      | none => simp [allows, hallow]
      | some allow =>
          by_cases hpeer : peer ∈ allow
          · simp [allows, hallow, hpeer]
          · simp [allows, hallow, hpeer]

end

section

variable {fw : Firewall} {user : String} {certDomain : Option String} {host : String}
  {peer : Ipv4Addr} {port : Port}

theorem admits_iff (scope : ExposeScope) :
    fw.peers.admits scope peer = true ↔ allows (fw.peers.sources scope) peer := by
  unfold PeerSets.admits allows
  cases fw.peers.sources scope <;> simp

theorem find?_served (answers : List String → Bool) :
    (fw.served.find? fun item => answers (item.1.hostnames user certDomain)).map (fun item =>
        (item.1.hostnames user certDomain, item.1.port)) =
      ((webs fw).find? fun e => answers (e.hostnames user certDomain)).map fun e =>
        (e.hostnames user certDomain, e.port) := by
  unfold Firewall.served webs
  rw [List.find?_map, Option.map_map]
  rfl

theorem mem_served {item : Served} :
    item ∈ fw.served ↔ item.1 ∈ webs fw ∧ item.2 = fw.peers.sources item.1.scope := by
  unfold Firewall.served webs
  rw [List.mem_map]
  constructor
  · rintro ⟨e, he, rfl⟩
    exact ⟨he, rfl⟩
  · rintro ⟨he, hsources⟩
    exact ⟨item.1, he, by rw [← hsources]⟩

theorem find?_routesOf (answers : List String → Bool) :
    ((routesOf fw user certDomain).find? fun route => answers route.hostnames).map head =
      ((webs fw).find? fun e => answers (e.hostnames user certDomain)).map fun e =>
        (e.hostnames user certDomain, e.port) :=
  (find?_webRoutes answers).trans (find?_served answers)

theorem resolve_iff :
    resolve (routesOf fw user certDomain) host peer = .forward port ↔
      ∃ first, (webs fw).find? (fun e =>
          (e.hostnames user certDomain).contains (normalizeHost host)) = some first ∧
        first.port = port ∧
        ∃ e ∈ webs fw, e.hostnames user certDomain = first.hostnames user certDomain ∧
          (fw.meshAddr = some peer ∨ fw.peers.admits e.scope peer = true) := by
  have hheads : ((routesOf fw user certDomain).find? fun route =>
        route.hostnames.contains (normalizeHost host)).map head =
      ((webs fw).find? fun e =>
        (e.hostnames user certDomain).contains (normalizeHost host)).map fun e =>
          (e.hostnames user certDomain, e.port) :=
    find?_routesOf fun names => names.contains (normalizeHost host)
  rw [resolve_forward]
  constructor
  · rintro ⟨route, hroute, hport, hallows⟩
    rw [hroute] at hheads
    obtain ⟨first, hfirst, hhead⟩ := Option.map_eq_some_iff.mp hheads.symm
    obtain ⟨hnames, hports⟩ := Prod.mk.inj hhead
    obtain ⟨item, hitem, hsame, hpeer⟩ :=
      webRoutes_allow.mp ⟨route, List.mem_of_find?_eq_some hroute, rfl, hallows⟩
    obtain ⟨hweb, hsources⟩ := mem_served.mp hitem
    refine ⟨first, hfirst, hports.trans hport, item.1, hweb, hsame.trans hnames.symm, ?_⟩
    rw [admits_iff, ← hsources]
    exact hpeer
  · rintro ⟨first, hfirst, hport, e, hweb, hsame, hpeer⟩
    rw [hfirst] at hheads
    obtain ⟨route, hroute, hhead⟩ := Option.map_eq_some_iff.mp hheads
    obtain ⟨hnames, hports⟩ := Prod.mk.inj hhead
    refine ⟨route, hroute, hports.trans hport, ?_⟩
    rw [admits_iff] at hpeer
    obtain ⟨other, hother, hnamed, hallows⟩ := webRoutes_allow.mpr
      ⟨(e, fw.peers.sources e.scope), mem_served.mpr ⟨hweb, rfl⟩, hsame.trans hnames.symm, hpeer⟩
    rw [route_unique (List.mem_of_find?_eq_some hroute) hother hnamed.symm]
    exact hallows

end

/-! A host that begins with a label keeps it when it is normalized. -/

def LabelChar (c : Char) : Prop :=
  (c.isLower || c.isDigit || c == '-') = true

theorem LabelChar.range {c : Char} (hlabel : LabelChar c) :
    (97 ≤ c.toNat ∧ c.toNat ≤ 122) ∨ (48 ≤ c.toNat ∧ c.toNat ≤ 57) ∨ c.toNat = 45 := by
  have hlabel : ((c.val ≥ 'a'.val && c.val ≤ 'z'.val) || (c.val ≥ '0'.val && c.val ≤ '9'.val) ||
      c == '-') = true := hlabel
  simp only [Bool.or_eq_true, Bool.and_eq_true, decide_eq_true_eq, beq_iff_eq, ge_iff_le,
    UInt32.le_iff_toNat_le] at hlabel
  rcases hlabel with (hlower | hdigit) | rfl
  · exact .inl hlower
  · exact .inr (.inl hdigit)
  · exact .inr (.inr rfl)

theorem LabelChar.solid {c : Char} (hlabel : LabelChar c) : isWhitespace c = false := by
  have hrange := hlabel.range
  unfold isWhitespace
  simp only [Bool.or_eq_false_iff, Bool.and_eq_false_iff, decide_eq_false_iff_not,
    beq_eq_false_iff_ne]
  omega

theorem LabelChar.toLower {c : Char} (hlabel : LabelChar c) : c.toLower = c := by
  have hrange := hlabel.range
  unfold Char.toLower
  refine dif_neg ?_
  rintro ⟨hleast, hmost⟩
  have hleast : 65 ≤ c.toNat := UInt32.le_iff_toNat_le.mp hleast
  have hmost : c.toNat ≤ 90 := UInt32.le_iff_toNat_le.mp hmost
  omega

theorem LabelChar.ne {c : Char} (hlabel : LabelChar c) : c ≠ '.' ∧ c ≠ ':' := by
  constructor
  · rintro rfl
    exact absurd hlabel (by unfold LabelChar; decide)
  · rintro rfl
    exact absurd hlabel (by unfold LabelChar; decide)

def Begins (label host : List Char) : Prop :=
  ∃ rest, host = label ++ rest ∧ (rest = [] ∨ rest.head? = some '.')

theorem Begins.takeWhile {label host : List Char} (hlabel : ∀ c ∈ label, LabelChar c)
    (hbegins : Begins label host) : host.takeWhile (· != '.') = label := by
  obtain ⟨rest, rfl, hrest⟩ := hbegins
  have hkept : ∀ c ∈ label, (c != '.') = true := fun c hc => by simpa using (hlabel c hc).ne.1
  rw [List.takeWhile_append_of_pos hkept]
  cases rest with
  | nil => simp
  | cons c rest =>
      obtain rfl : c = '.' := by simpa using hrest
      simp

theorem Begins.cut {label rest kept : List Char} (hkept : kept <+: rest)
    (hrest : rest = [] ∨ rest.head? = some '.') : Begins label (label ++ kept) := by
  refine ⟨kept, rfl, ?_⟩
  obtain ⟨gone, rfl⟩ := hkept
  cases kept with
  | nil => exact .inl rfl
  | cons c kept => exact .inr (by simpa using hrest)

theorem rdropWhile_append {p : Char → Bool} {label : List Char} (rest : List Char)
    (hlabel : label.rdropWhile p = label ∨ rest.rdropWhile p ≠ []) :
    (label ++ rest).rdropWhile p = label ++ rest.rdropWhile p := by
  induction rest using List.reverseRecOn with
  | nil =>
      rcases hlabel with hlabel | hlabel
      · simpa using hlabel
      · simp at hlabel
  | append_singleton rest c ih =>
      rw [← List.append_assoc, List.rdropWhile_concat, List.rdropWhile_concat]
      rw [List.rdropWhile_concat] at hlabel
      split
      · rename_i hdrops
        rw [if_pos hdrops] at hlabel
        exact ih hlabel
      · exact List.append_assoc ..

theorem rdropWhile_label {p : Char → Bool} {label : List Char}
    (hlabel : ∀ c ∈ label, p c = false) : label.rdropWhile p = label := by
  rw [List.rdropWhile_eq_self_iff]
  intro hne
  simp [hlabel _ (List.getLast_mem hne)]

section

variable {label host : List Char}

theorem Begins.trimmed (hlabel : ∀ c ∈ label, LabelChar c) (hne : label ≠ [])
    (hbegins : Begins label host) : Begins label (trim host) := by
  obtain ⟨rest, rfl, hrest⟩ := hbegins
  have hfront : (label ++ rest).dropWhile isWhitespace = label ++ rest := by
    cases label with
    | nil => exact absurd rfl hne
    | cons c label =>
        rw [List.cons_append, List.dropWhile_cons_of_neg]
        simp [(hlabel c List.mem_cons_self).solid]
  unfold trim
  rw [hfront, rdropWhile_append rest (.inl (rdropWhile_label fun c hc => (hlabel c hc).solid))]
  exact Begins.cut (List.rdropWhile_prefix _ _) hrest

theorem Begins.cutPort (hlabel : ∀ c ∈ label, LabelChar c) (hbegins : Begins label host) :
    Begins label (cutPort host) := by
  unfold Proxy.cutPort
  split
  · rename_i hport
    obtain ⟨rest, rfl, hrest⟩ := hbegins
    have hcolon : ':' ∈ rest := by
      rcases List.mem_append.mp hport.1 with hin | hin
      · exact absurd rfl (hlabel _ hin).ne.2
      · exact hin
    have hkept : rest.rdropWhile (· != ':') ≠ [] := by
      rw [Ne, List.rdropWhile_eq_nil_iff]
      intro hall
      simpa using hall ':' hcolon
    rw [rdropWhile_append rest (.inr hkept), List.dropLast_append_of_ne_nil hkept]
    exact Begins.cut ((List.dropLast_prefix _).trans (List.rdropWhile_prefix _ _)) hrest
  · exact hbegins

theorem Begins.dropped (hlabel : ∀ c ∈ label, LabelChar c) (hbegins : Begins label host) :
    Begins label (host.rdropWhile (· == '.')) := by
  obtain ⟨rest, rfl, hrest⟩ := hbegins
  rw [rdropWhile_append rest (.inl (rdropWhile_label fun c hc => by simpa using (hlabel c hc).ne.1))]
  exact Begins.cut (List.rdropWhile_prefix _ _) hrest

theorem Begins.lowered (hlabel : ∀ c ∈ label, LabelChar c) (hbegins : Begins label host) :
    Begins label (host.map Char.toLower) := by
  obtain ⟨rest, rfl, hrest⟩ := hbegins
  refine ⟨rest.map Char.toLower, ?_, ?_⟩
  · rw [List.map_append]
    congr 1
    calc
      label.map Char.toLower = label.map id :=
        List.map_congr_left fun c hc => (hlabel c hc).toLower
      _ = label := List.map_id label
  · cases rest with
    | nil => exact .inl rfl
    | cons c rest =>
        obtain rfl : c = '.' := by simpa using hrest
        exact .inr rfl

theorem Begins.normalized {host : String} (hlabel : ∀ c ∈ label, LabelChar c) (hne : label ≠ [])
    (hbegins : Begins label host.toList) : Begins label (normalizeHost host).toList := by
  unfold normalizeHost
  rw [String.toList_ofList]
  exact (((hbegins.trimmed hlabel hne).cutPort hlabel).dropped hlabel).lowered hlabel

end

/-! Every name of a service begins with its label. -/

section

variable {fw : Firewall} {user : String} {certDomain : Option String} {host : String}
  {e other : Exposed}

theorem label_chars {name : String} (hvalid : validLabel name = true) :
    name.toList ≠ [] ∧ ∀ c ∈ name.toList, LabelChar c := by
  unfold validLabel at hvalid
  simp only [Bool.and_eq_true] at hvalid
  obtain ⟨⟨⟨⟨⟨hne, _⟩, hchars⟩, _⟩, _⟩, _⟩ := hvalid
  refine ⟨by simpa using hne, fun c hc => ?_⟩
  exact List.all_eq_true.mp hchars c hc

theorem begins_hostname {name : String} (hchars : ∀ c ∈ name.toList, LabelChar c)
    (domain : String) :
    Begins name.toList (s!"{name}.{user}.{domain}").toLower.toList := by
  have hfull : (s!"{name}.{user}.{domain}").toList =
      name.toList ++ '.' :: (user ++ "." ++ domain).toList := by
    change (name ++ "." ++ user ++ "." ++ domain).toList = _
    simp
  unfold String.toLower
  rw [String.toList_map, hfull]
  exact Begins.lowered hchars ⟨_, rfl, .inr rfl⟩

theorem begins_hostnames {name : String} (hname : e.name = some name)
    (hchars : ∀ c ∈ name.toList, LabelChar c) (hhost : host ∈ e.hostnames user certDomain) :
    Begins name.toList host.toList := by
  unfold Exposed.hostnames at hhost
  rw [hname] at hhost
  obtain ⟨full, hfull, rfl⟩ := List.mem_map.mp hhost
  rcases List.mem_cons.mp hfull with rfl | hdomain
  · exact begins_hostname hchars DNS_SUFFIX
  · obtain ⟨domain, _, rfl⟩ := Option.map_eq_some_iff.mp (Option.mem_toList.mp hdomain)
    exact begins_hostname hchars domain

theorem hostnames_eq {name label : String} (hname : e.name = some name)
    (hother : other.name = some label) (hvalid : validLabel name = true)
    (hlabel : validLabel label = true) {first second : String}
    (hfirst : first ∈ e.hostnames user certDomain)
    (hsecond : second ∈ other.hostnames user certDomain)
    (hsame : second = first ∨ second = normalizeHost first) :
    other.hostnames user certDomain = e.hostnames user certDomain := by
  obtain ⟨hne, hchars⟩ := label_chars hvalid
  obtain ⟨_, hothers⟩ := label_chars hlabel
  have hbegins : Begins name.toList second.toList := by
    rcases hsame with rfl | rfl
    · exact begins_hostnames hname hchars hfirst
    · exact (begins_hostnames hname hchars hfirst).normalized hchars hne
  have hlist : name.toList = label.toList :=
    (hbegins.takeWhile hchars).symm.trans
      ((begins_hostnames hother hothers hsecond).takeWhile hothers)
  unfold Exposed.hostnames
  rw [hname, hother, String.toList_inj.mp hlist]

theorem mem_webs : e ∈ webs fw ↔ e ∈ fw.exposed ∧ e.kind = .web ∧ e.name.isSome = true := by
  unfold webs
  rw [List.mem_filter, Bool.and_eq_true, beq_iff_eq]

theorem find?_names (hnamed : Named fw.exposed) (hweb : e ∈ webs fw) {name : String}
    (hname : name ∈ e.hostnames user certDomain) :
    (webs fw).find? (fun other => (other.hostnames user certDomain).contains name) =
      (webs fw).find? fun other =>
        other.hostnames user certDomain == e.hostnames user certDomain := by
  obtain ⟨label, hlabel, hvalid⟩ := hnamed e (mem_webs.mp hweb).1
  refine List.find?_congr fun other hother => ?_
  obtain ⟨otherLabel, hotherLabel, hotherValid⟩ := hnamed other (mem_webs.mp hother).1
  rw [Bool.eq_iff_iff, List.contains_iff_mem, beq_iff_eq]
  constructor
  · intro hin
    exact hostnames_eq hlabel hotherLabel hvalid hotherValid hname hin (.inl rfl)
  · intro hsame
    rw [hsame]
    exact hname

theorem admitted_sources {scope : ExposeScope} :
    (∃ peer, fw.peers.admits scope peer = true) ↔ fw.peers.sources scope ≠ some [] := by
  unfold PeerSets.admits
  cases fw.peers.sources scope with
  | none => simp
  | some ips =>
      cases ips with
      | nil => simp
      | cons ip rest => exact iff_of_true ⟨ip, by simp⟩ (by simp)

theorem mem_webScopes (found : List Exposed) (scopes : List ExposeScope)
    (hin : e ∈ found ∨ e.scope ∈ scopes) : e.scope ∈ found.foldl (fun scopes e =>
      if scopes.contains e.scope then scopes else scopes ++ [e.scope]) scopes := by
  induction found generalizing scopes with
  | nil => exact hin.resolve_left List.not_mem_nil
  | cons other rest ih =>
      apply ih
      rcases hin with hin | hheld
      · rcases List.mem_cons.mp hin with rfl | hrest
        · right
          dsimp only
          split
          · rename_i hheld
            exact List.contains_iff_mem.mp hheld
          · exact List.mem_append_right _ (List.mem_singleton_self _)
        · exact .inl hrest
      · right
        dsimp only
        split
        · exact hheld
        · exact List.mem_append_left _ hheld

theorem https_open (hweb : e ∈ webs fw) {peer : Ipv4Addr}
    (hadmits : fw.peers.admits e.scope peer = true) :
    Permits (effectiveExposed fw.exposed) fw.peers peer (.transport .tcp HTTPS_PORT) := by
  refine .inr (.inr ⟨⟨.tcp, HTTPS_PORT, e.scope, none, .port⟩, ?_, rfl, hadmits⟩)
  unfold effectiveExposed
  refine List.mem_append_right _ (List.mem_map.mpr ⟨e.scope, ?_, rfl⟩)
  exact mem_webScopes _ [] (.inl hweb)

/-- One name on two ports, of which the first is for this owner's devices and the second for a
network. -/
def twoPorts : Firewall where
  exposed :=
    [⟨.tcp, 8096, .ownDevices, some "media", .web⟩, ⟨.tcp, 8097, .net 5 1, some "media", .web⟩]
  peers := { nets := [⟨5, 1, "acme", "games", [9]⟩], ownDevices := [7] }

theorem twoPorts_named : Named twoPorts.exposed := by
  intro e he
  simp only [twoPorts, List.mem_cons, List.not_mem_nil, or_false] at he
  rcases he with rfl | rfl
  · exact ⟨"media", rfl, by decide⟩
  · exact ⟨"media", rfl, by decide⟩

theorem normalizeHost_media :
    normalizeHost "media.alice.unity.internal" = "media.alice.unity.internal" := by
  apply String.toList_inj.mp
  unfold normalizeHost
  rw [String.toList_ofList]
  decide

theorem hostnames_media (hname : e.name = some "media") :
    e.hostnames "alice" none = ["media.alice.unity.internal"] := by
  unfold Exposed.hostnames
  rw [hname]
  apply congrArg fun name => [name]
  apply String.toList_inj.mp
  unfold String.toLower
  rw [String.toList_map]
  decide

end

end UnityLan.Proxy
