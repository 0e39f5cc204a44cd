import UnityLan.Engine.Dns
import UnityLan.Engine.Order
import UnityLan.Foundation.Places

namespace UnityLan.Engine

open UnityLan.Foundation Cert

/-! What the zone answers once it is updated. -/

def sameEntries (entries others : List (String × Ipv4Addr)) : Bool :=
  (entries ++ others).all fun entry => entries.lookup entry.1 == others.lookup entry.1

namespace ZoneData

def same (zone other : ZoneData) : Bool :=
  sameEntries zone.names other.names && sameEntries zone.wildcard other.wildcard &&
    zone.certDomain == other.certDomain

def update (zone : ZoneData) (me : SelfDevice) (seeds : List SeedPeer)
    (services : List (String × Ipv4Addr)) : ZoneData × Bool :=
  let next := rebuilt me seeds services
  if zone.same next then (zone, false) else (next, true)

end ZoneData

/-! What is to be answered. -/

structure ZoneDevice where
  hostname : String
  primaryAlias : Option String
  ip : Ipv4Addr

namespace ZoneDevice

def names (certDomain : Option String) (host : ZoneDevice) : List String :=
  ZoneData.hostNames certDomain host.hostname host.primaryAlias

end ZoneDevice

def hosts (me : SelfDevice) (seeds : List SeedPeer) : List ZoneDevice :=
  ⟨me.hostname, me.primaryAlias, me.wgIp⟩ ::
    seeds.map fun seed => ⟨seed.hostname, seed.primaryAlias, seed.ip⟩

def namedHost (certDomain : Option String) (hosts : List ZoneDevice) (name : String) :
    Option Ipv4Addr :=
  lastOf (fun host => decide (name ∈ host.names certDomain)) ZoneDevice.ip hosts

def namedService (certDomain : Option String) (services : List (String × Ipv4Addr))
    (name : String) : Option Ipv4Addr :=
  lastOf (fun service => decide (name ∈ ZoneData.keys certDomain service.1)) Prod.snd services

def hostAbove (certDomain : Option String) (hosts : List ZoneDevice) (name : String) :
    Option Ipv4Addr :=
  (splitOnceDot name).bind fun split =>
    lastOf (fun host => decide (split.2 ∈ ZoneData.keys certDomain host.hostname)) ZoneDevice.ip
      hosts

def spokenFor (certDomain : Option String) (name : String) : Bool :=
  endsUnder DNS_SUFFIX name || certDomain.any fun domain => endsUnder domain name

def resolved (certDomain : Option String) (hosts : List ZoneDevice)
    (services : List (String × Ipv4Addr)) (name : String) : Option Ipv4Addr :=
  if spokenFor certDomain name then
    (namedHost certDomain hosts name).or
      ((namedService certDomain services name).or (hostAbove certDomain hosts name))
  else none

/-- A domain as the coordinator writes it, lower-case and without a dot at its end, that shares no
name with the mesh. -/
structure OwnDomain (domain : String) : Prop where
  normal : ZoneData.norm domain = domain
  nonempty : domain ≠ ""
  notAbove : ¬ ("." ++ domain).toList <:+ ("." ++ DNS_SUFFIX).toList
  notBelow : ¬ ("." ++ DNS_SUFFIX).toList <:+ ("." ++ domain).toList

def MeshNames (hosts : List ZoneDevice) (services : List (String × Ipv4Addr)) : Prop :=
  (∀ host ∈ hosts, ∀ name ∈ host.hostname :: host.primaryAlias.toList,
      endsUnder DNS_SUFFIX (ZoneData.norm name) = true) ∧
    ∀ service ∈ services, endsUnder DNS_SUFFIX (ZoneData.norm service.1) = true

def Agree (certDomain : Option String) (seeds : List SeedPeer)
    (services : List (String × Ipv4Addr)) : Prop :=
  (∀ first ∈ seeds, ∀ second ∈ seeds, ∀ name,
      name ∈ ZoneData.hostNames certDomain first.hostname first.primaryAlias →
        name ∈ ZoneData.hostNames certDomain second.hostname second.primaryAlias →
          first.ip = second.ip) ∧
    ∀ first ∈ services, ∀ second ∈ services, ∀ name, name ∈ ZoneData.keys certDomain first.1 →
      name ∈ ZoneData.keys certDomain second.1 → first.2 = second.2

structure ZoneAnswers (me : SelfDevice) (seeds : List SeedPeer)
    (services : List (String × Ipv4Addr)) (zone : ZoneData) : Prop where
  answers : ∀ req, (zone.answer req).answers = req.queries.filterMap fun q =>
    if q.isA then
      (resolved me.dnsDomain (hosts me seeds) services (ZoneData.norm q.name)).map fun ip =>
        { name := q.name, ip := ip }
    else none
  nxDomain : ∀ req, (zone.answer req).nxDomain = true ↔
    (zone.answer req).answers = [] ∧ ∃ q ∈ req.queries, q.isA = true ∧
      endsUnder DNS_SUFFIX (ZoneData.norm q.name) = true ∧
        resolved me.dnsDomain (hosts me seeds) services (ZoneData.norm q.name) = none
  /-- A name of a device is never answered with the address of a service. -/
  devices : ∀ name, spokenFor me.dnsDomain name = true →
    (∃ host ∈ hosts me seeds, name ∈ host.names me.dnsDomain) →
      ∃ host ∈ hosts me seeds, name ∈ host.names me.dnsDomain ∧
        resolved me.dnsDomain (hosts me seeds) services name = some host.ip
  outside : ∀ req, ∀ record ∈ (zone.answer req).answers,
    spokenFor me.dnsDomain (ZoneData.norm record.name) = true
  /-- A name under the certificate domain is that of the mesh. -/
  mirrored : ∀ domain, me.dnsDomain = some domain → OwnDomain domain →
    MeshNames (hosts me seeds) services → ∀ stem : String,
      resolved me.dnsDomain (hosts me seeds) services (ZoneData.norm (stem ++ "." ++ domain)) =
        resolved me.dnsDomain (hosts me seeds) services
          (ZoneData.norm (stem ++ "." ++ DNS_SUFFIX))
  ordered : Agree me.dnsDomain seeds services → ∀ seeds' services', seeds.Perm seeds' →
    services.Perm services' → ∀ other : ZoneData, ∀ req,
      zone.answer req = (other.update me seeds' services').1.answer req

namespace ZoneData

theorem lookup_sameEntries {entries others : List (String × Ipv4Addr)}
    (hsame : sameEntries entries others = true) (key : String) :
    entries.lookup key = others.lookup key := by
  unfold sameEntries at hsame
  by_cases hkey : ∃ entry ∈ entries ++ others, entry.1 = key
  · obtain ⟨entry, hentry, rfl⟩ := hkey
    exact beq_iff_eq.mp (List.all_eq_true.mp hsame entry hentry)
  · have hmissing : ∀ {part : List (String × Ipv4Addr)}, part ⊆ entries ++ others →
        part.lookup key = none := by
      intro part hpart
      rw [List.lookup_eq_none_iff]
      intro entry hentry
      rw [bne_iff_ne]
      exact fun hsame => hkey ⟨entry, hpart hentry, hsame.symm⟩
    rw [hmissing (List.subset_append_left ..), hmissing (List.subset_append_right ..)]

variable {zone other : ZoneData}

theorem lookup_same (hsame : zone.same other = true) (name : String) :
    zone.lookup name = other.lookup name := by
  unfold same at hsame
  rw [Bool.and_eq_true, Bool.and_eq_true] at hsame
  unfold lookup
  simp only [lookup_sameEntries hsame.1.1, lookup_sameEntries hsame.1.2]

theorem answer_congr (hrecord : ∀ q, zone.recordFor q = other.recordFor q)
    (hdenies : ∀ q, zone.denies q = other.denies q) (req : Message) :
    zone.answer req = other.answer req := by
  have hquestion : zone.answerQuestion = other.answerQuestion := by
    funext done q
    rw [answerQuestion_eq, answerQuestion_eq, hrecord, hdenies]
  unfold answer
  rw [hquestion]

theorem update_cases (zone : ZoneData) (me : SelfDevice) (seeds : List SeedPeer)
    (services : List (String × Ipv4Addr)) :
    zone.same (rebuilt me seeds services) = true ∧ (zone.update me seeds services).1 = zone ∨
      (zone.update me seeds services).1 = rebuilt me seeds services := by
  cases hsame : zone.same (rebuilt me seeds services) with
  | true => exact .inl ⟨rfl, by simp [update, hsame]⟩
  | false => exact .inr (by simp [update, hsame])

theorem answer_update (zone : ZoneData) (me : SelfDevice) (seeds : List SeedPeer)
    (services : List (String × Ipv4Addr)) (req : Message) :
    (zone.update me seeds services).1.answer req = (rebuilt me seeds services).answer req := by
  rcases zone.update_cases me seeds services with ⟨hsame, hkept⟩ | hbuilt
  · rw [hkept]
    have hdomain := hsame
    unfold same at hdomain
    rw [Bool.and_eq_true, beq_iff_eq] at hdomain
    apply answer_congr
    · intro q
      unfold recordFor ours
      rw [hdomain.2, lookup_same hsame]
    · intro q
      unfold denies
      rw [lookup_same hsame]
  · rw [hbuilt]

variable {key hostname : String} {primaryAlias : Option String} {ip : Ipv4Addr}

theorem wildcard_addHost :
    (zone.addHost hostname primaryAlias ip).wildcard.lookup key =
      if key ∈ keys zone.certDomain hostname then some ip else zone.wildcard.lookup key := by
  have hadd : (zone.add hostname ip true).wildcard =
      (keys zone.certDomain hostname).map (fun key => (key, ip)) ++ zone.wildcard := rfl
  have haddHost : (zone.addHost hostname primaryAlias ip).wildcard =
      (zone.add hostname ip true).wildcard := by
    cases primaryAlias <;> rfl
  rw [haddHost, hadd, lookup_keys]

def withHost (zone : ZoneData) (host : ZoneDevice) : ZoneData :=
  zone.addHost host.hostname host.primaryAlias host.ip

def withService (zone : ZoneData) (service : String × Ipv4Addr) : ZoneData :=
  zone.add service.1 service.2 false

theorem rebuilt_eq (me : SelfDevice) (seeds : List SeedPeer)
    (services : List (String × Ipv4Addr)) :
    rebuilt me seeds services =
      (hosts me seeds).foldl withHost
        (services.foldl withService { certDomain := me.dnsDomain }) := by
  unfold rebuilt hosts
  rw [List.foldl_cons, List.foldl_map]
  rfl

variable {certDomain : Option String} {name : String}

theorem names_services (services : List (String × Ipv4Addr))
    (hdomain : zone.certDomain = certDomain) :
    (services.foldl withService zone).names.lookup name =
      (namedService certDomain services name).or (zone.names.lookup name) := by
  refine foldl_lastOf withService (fun zone => zone.names.lookup name)
    (fun zone => zone.certDomain = certDomain) (fun _ _ hkept => hkept) ?_ hdomain
  intro zone service hkept
  rw [withService, lookup_add, hkept]
  simp

theorem wildcard_services (services : List (String × Ipv4Addr)) :
    (services.foldl withService zone).wildcard = zone.wildcard := by
  induction services generalizing zone with
  | nil => rfl
  | cons service rest ih => exact ih

theorem names_hosts (hosts : List ZoneDevice) (hdomain : zone.certDomain = certDomain) :
    (hosts.foldl withHost zone).names.lookup name =
      (namedHost certDomain hosts name).or (zone.names.lookup name) := by
  refine foldl_lastOf withHost (fun zone => zone.names.lookup name)
    (fun zone => zone.certDomain = certDomain) (fun _ _ => addHost_certDomain.trans) ?_ hdomain
  intro zone host hkept
  rw [withHost, lookup_addHost, hkept]
  simp only [decide_eq_true_eq]
  rfl

theorem wildcard_hosts (hosts : List ZoneDevice) (hdomain : zone.certDomain = certDomain) :
    (hosts.foldl withHost zone).wildcard.lookup name =
      (lastOf (fun host => decide (name ∈ keys certDomain host.hostname)) ZoneDevice.ip hosts).or
        (zone.wildcard.lookup name) := by
  refine foldl_lastOf withHost (fun zone => zone.wildcard.lookup name)
    (fun zone => zone.certDomain = certDomain) (fun _ _ => addHost_certDomain.trans) ?_ hdomain
  intro zone host hkept
  rw [withHost, wildcard_addHost, hkept]
  simp

theorem lookup_resolved (me : SelfDevice) (seeds : List SeedPeer)
    (services : List (String × Ipv4Addr)) :
    (if (rebuilt me seeds services).ours name then (rebuilt me seeds services).lookup name
      else none) = resolved me.dnsDomain (hosts me seeds) services name := by
  have hdomain : (services.foldl withService { certDomain := me.dnsDomain }).certDomain =
      me.dnsDomain :=
    addServices_certDomain services { certDomain := me.dnsDomain }
  have hnames : (rebuilt me seeds services).names.lookup name =
      (namedHost me.dnsDomain (hosts me seeds) name).or
        (namedService me.dnsDomain services name) := by
    rw [rebuilt_eq, names_hosts _ hdomain, names_services _ rfl, List.lookup_nil, Option.or_none]
  have habove : ((splitOnceDot name).bind fun split =>
      (rebuilt me seeds services).wildcard.lookup split.2) =
        hostAbove me.dnsDomain (hosts me seeds) name := by
    unfold hostAbove
    congr 1
    funext split
    rw [rebuilt_eq, wildcard_hosts _ hdomain, wildcard_services, List.lookup_nil, Option.or_none]
  have hlookup : (rebuilt me seeds services).lookup name =
      ((rebuilt me seeds services).names.lookup name).or
        ((splitOnceDot name).bind fun split =>
          (rebuilt me seeds services).wildcard.lookup split.2) := by
    unfold lookup
    cases (rebuilt me seeds services).names.lookup name <;> rfl
  unfold resolved
  rw [hlookup, hnames, habove, Option.or_assoc, ours, rebuilt_certDomain]
  rfl

end ZoneData

section

variable {certDomain : Option String} {name : String} {seeds seeds' : List SeedPeer}
  {services services' : List (String × Ipv4Addr)}

theorem resolved_named {hosts : List ZoneDevice} (hspoken : spokenFor certDomain name = true)
    (hnamed : ∃ host ∈ hosts, name ∈ host.names certDomain) :
    ∃ host ∈ hosts, name ∈ host.names certDomain ∧
      resolved certDomain hosts services name = some host.ip := by
  cases hfound : namedHost certDomain hosts name with
  | none =>
      obtain ⟨host, hhost, hname⟩ := hnamed
      have hother := lastOf_eq_none.mp hfound host hhost
      rw [decide_eq_false_iff_not] at hother
      exact absurd hname hother
  | some ip =>
      obtain ⟨host, hhost, hname, rfl⟩ := lastOf_mem hfound
      refine ⟨host, hhost, of_decide_eq_true hname, ?_⟩
      unfold resolved
      rw [if_pos hspoken, hfound, Option.some_or]

theorem resolved_spoken {hosts : List ZoneDevice} {ip : Ipv4Addr}
    (hresolved : resolved certDomain hosts services name = some ip) :
    spokenFor certDomain name = true := by
  unfold resolved at hresolved
  split at hresolved
  · assumption
  · cases hresolved

theorem lastOf_hosts (me : SelfDevice) (hseeds : seeds.Perm seeds') {hit : ZoneDevice → Bool}
    (hagree : ∀ first ∈ seeds, ∀ second ∈ seeds,
      hit ⟨first.hostname, first.primaryAlias, first.ip⟩ = true →
        hit ⟨second.hostname, second.primaryAlias, second.ip⟩ = true → first.ip = second.ip) :
    lastOf hit ZoneDevice.ip (hosts me seeds) = lastOf hit ZoneDevice.ip (hosts me seeds') := by
  unfold hosts
  rw [lastOf, lastOf, lastOf_perm (hseeds.map _)]
  intro first hfirst second hsecond hname hname'
  obtain ⟨seed, hseed, rfl⟩ := List.mem_map.mp hfirst
  obtain ⟨seed', hseed', rfl⟩ := List.mem_map.mp hsecond
  exact hagree seed hseed seed' hseed' hname hname'

theorem resolved_perm (me : SelfDevice) (hagree : Agree certDomain seeds services)
    (hseeds : seeds.Perm seeds') (hservices : services.Perm services') :
    resolved certDomain (hosts me seeds) services name =
      resolved certDomain (hosts me seeds') services' name := by
  obtain ⟨hhosts, hserved⟩ := hagree
  have hnamed : namedHost certDomain (hosts me seeds) name =
      namedHost certDomain (hosts me seeds') name := by
    apply lastOf_hosts me hseeds
    intro first hfirst second hsecond hname hname'
    exact hhosts first hfirst second hsecond name (of_decide_eq_true hname)
      (of_decide_eq_true hname')
  have hservice : namedService certDomain services name =
      namedService certDomain services' name := by
    apply lastOf_perm hservices
    intro first hfirst second hsecond hname hname'
    exact hserved first hfirst second hsecond name (of_decide_eq_true hname)
      (of_decide_eq_true hname')
  have habove : hostAbove certDomain (hosts me seeds) name =
      hostAbove certDomain (hosts me seeds') name := by
    unfold hostAbove
    congr 1
    funext split
    apply lastOf_hosts me hseeds
    intro first hfirst second hsecond hname hname'
    apply hhosts first hfirst second hsecond split.2
    · exact List.mem_append_left _ (of_decide_eq_true hname)
    · exact List.mem_append_left _ (of_decide_eq_true hname')
  unfold resolved
  rw [hnamed, hservice, habove]

end

/-! Under the certificate domain. -/

section

variable {domain stem : String}

theorem toList_dotted (name : String) : ("." ++ name).toList = '.' :: name.toList := by
  rw [String.toList_append]
  rfl

theorem head_of_normal (hnormal : ZoneData.norm domain = domain) :
    domain.toList.reverse.head? ≠ some '.' := by
  intro hdot
  have hlength := congrArg (fun name : String => name.toList.length) hnormal
  unfold ZoneData.norm trimEndDots at hlength
  simp only [toList_asciiLower, List.length_map, String.toList_ofList, List.length_reverse]
    at hlength
  cases hlist : domain.toList.reverse with
  | nil =>
      rw [hlist] at hdot
      cases hdot
  | cons c rest =>
      rw [hlist, List.head?_cons, Option.some.injEq] at hdot
      have hshort := (List.dropWhile_suffix (l := rest) (· == '.')).length_le
      have htotal := congrArg List.length hlist
      rw [List.length_reverse, List.length_cons] at htotal
      rw [hlist, List.dropWhile_cons_of_pos (by simp [hdot])] at hlength
      omega

theorem norm_under (hnormal : ZoneData.norm domain = domain) (hnonempty : domain ≠ "") :
    ZoneData.norm (stem ++ "." ++ domain) = under stem domain := by
  have hhead := head_of_normal hnormal
  have htrim : trimEndDots (stem ++ "." ++ domain) = stem ++ "." ++ domain := by
    cases hlist : domain.toList.reverse with
    | nil =>
        rw [List.reverse_eq_nil_iff] at hlist
        exact absurd (String.toList_eq_nil_iff.mp hlist) hnonempty
    | cons c rest =>
        rw [hlist, List.head?_cons, ne_eq, Option.some.injEq] at hhead
        have hreversed : (stem ++ "." ++ domain).toList.reverse =
            c :: (rest ++ (stem ++ ".").toList.reverse) := by
          rw [String.toList_append, List.reverse_append, hlist, List.cons_append]
        exact trimEndDots_eq hreversed hhead
  unfold ZoneData.norm under
  rw [htrim]

theorem under_inj {other : String} :
    under stem domain = under other domain ↔ asciiLower stem = asciiLower other := by
  rw [← String.toList_inj, ← String.toList_inj, toList_under, toList_under, toList_asciiLower,
    toList_asciiLower]
  exact List.append_left_inj _

theorem suffix_under (stem : String) (hlower : asciiLower domain = domain) :
    ("." ++ domain).toList <:+ (under stem domain).toList := by
  rw [toList_under, toList_dotted, ← toList_asciiLower domain, hlower]
  exact List.suffix_append ..

theorem lower_suffix : asciiLower DNS_SUFFIX = DNS_SUFFIX := by
  decide +kernel

theorem OwnDomain.lower (hown : OwnDomain domain) : asciiLower domain = domain := by
  rw [← hown.normal]
  exact ZoneData.asciiLower_norm domain

theorem OwnDomain.apart (hown : OwnDomain domain) (stem other : String) :
    under stem domain ≠ under other DNS_SUFFIX := by
  intro hsame
  have hdomain := suffix_under stem hown.lower
  have hmesh := suffix_under other lower_suffix
  rw [hsame] at hdomain
  rcases List.suffix_or_suffix_of_suffix hdomain hmesh with hbelow | hbelow
  · exact hown.notAbove hbelow
  · exact hown.notBelow hbelow

theorem keys_mesh (domain : String) {name : String}
    (hmesh : endsUnder DNS_SUFFIX (ZoneData.norm name) = true) :
    ∃ stem, ZoneData.keys (some domain) name = [under stem DNS_SUFFIX, under stem domain] := by
  obtain ⟨front, hfront⟩ := List.isSuffixOf_iff_suffix.mp hmesh
  have hname : ZoneData.norm name = String.ofList front ++ "." ++ DNS_SUFFIX := by
    rw [← String.toList_inj, ← hfront]
    simp
  refine ⟨String.ofList front, ?_⟩
  have hself : under (String.ofList front) DNS_SUFFIX = ZoneData.norm name := by
    unfold under
    rw [← hname, ZoneData.asciiLower_norm]
  unfold ZoneData.keys
  rw [hself, Option.bind_some, hname, certificateAlias_eq]
  rfl

theorem OwnDomain.mem_keys (hown : OwnDomain domain) {name : String} (stem : String)
    (hmesh : endsUnder DNS_SUFFIX (ZoneData.norm name) = true) :
    under stem domain ∈ ZoneData.keys (some domain) name ↔
      under stem DNS_SUFFIX ∈ ZoneData.keys (some domain) name := by
  obtain ⟨other, hkeys⟩ := keys_mesh domain hmesh
  rw [hkeys, List.mem_pair, List.mem_pair, under_inj, under_inj]
  constructor
  · rintro (habsurd | hsame)
    · exact absurd habsurd (hown.apart stem other)
    · exact .inl hsame
  · rintro (hsame | habsurd)
    · exact .inr hsame
    · exact absurd habsurd.symm (hown.apart other stem)

theorem OwnDomain.not_mem_keys (hown : OwnDomain domain) {name : String}
    (hmesh : endsUnder DNS_SUFFIX (ZoneData.norm name) = true) :
    domain ∉ ZoneData.keys (some domain) name ∧ DNS_SUFFIX ∉ ZoneData.keys (some domain) name := by
  obtain ⟨stem, hkeys⟩ := keys_mesh domain hmesh
  have hdotted : ∀ name : String, name.toList <:+ ("." ++ name).toList := by
    intro name
    rw [toList_dotted]
    exact List.suffix_cons ..
  have hlonger : ∀ {name : String}, asciiLower name = name → name ≠ under stem name := by
    intro name hlower hsame
    have hlength := (suffix_under stem hlower).length_le
    rw [← hsame, toList_dotted, List.length_cons] at hlength
    omega
  rw [hkeys]
  constructor
  · intro hkey
    rcases List.mem_pair.mp hkey with hsame | hsame
    · have hsuffix := suffix_under stem lower_suffix
      rw [← hsame] at hsuffix
      exact hown.notBelow (hsuffix.trans (hdotted domain))
    · exact hlonger hown.lower hsame
  · intro hkey
    rcases List.mem_pair.mp hkey with hsame | hsame
    · exact hlonger lower_suffix hsame
    · have hsuffix := suffix_under stem hown.lower
      rw [← hsame] at hsuffix
      exact hown.notAbove (hsuffix.trans (hdotted DNS_SUFFIX))

theorem splitOnceDot_cases (stem : String) :
    (∀ domain, ∃ label, splitOnceDot (under stem domain) = some (label, asciiLower domain)) ∨
      ∃ rest, ∀ domain, ∃ label,
        splitOnceDot (under stem domain) = some (label, under rest domain) := by
  have hlowered : ∀ {label : List Char}, '.' ∉ label → '.' ∉ label.map Char.toLower := by
    intro label hlabel hdot
    obtain ⟨c, hc, hlower⟩ := List.mem_map.mp hdot
    refine toLower_ne (by decide) ?_ hlower
    rintro rfl
    exact hlabel hc
  by_cases hdot : '.' ∈ stem.toList
  · obtain ⟨label, rest, hstem, hlabel⟩ := List.eq_append_cons_of_mem hdot
    refine .inr ⟨String.ofList rest, fun domain => ⟨String.ofList (label.map Char.toLower), ?_⟩⟩
    have hlist : under stem domain = String.ofList
        (label.map Char.toLower ++ '.' :: (under (String.ofList rest) domain).toList) := by
      apply String.toList_inj.mp
      rw [String.toList_ofList, toList_under, toList_under, hstem, String.toList_ofList]
      simp
    rw [hlist, splitOnceDot_eq (hlowered hlabel), String.ofList_toList]
  · refine .inl fun domain => ⟨asciiLower stem, ?_⟩
    have hlist : under stem domain = String.ofList
        (stem.toList.map Char.toLower ++ '.' :: (asciiLower domain).toList) := by
      apply String.toList_inj.mp
      rw [String.toList_ofList, toList_under, toList_asciiLower]
    rw [hlist, splitOnceDot_eq (hlowered hdot), String.ofList_toList]
    rfl

theorem OwnDomain.mirrored (hown : OwnDomain domain) {hosts : List ZoneDevice}
    {services : List (String × Ipv4Addr)} (hmesh : MeshNames hosts services) (stem : String) :
    resolved (some domain) hosts services (ZoneData.norm (stem ++ "." ++ domain)) =
      resolved (some domain) hosts services (ZoneData.norm (stem ++ "." ++ DNS_SUFFIX)) := by
  obtain ⟨hhosts, hserved⟩ := hmesh
  rw [norm_under hown.normal hown.nonempty, norm_under (by decide +kernel) (by decide)]
  have hspoken : spokenFor (some domain) (under stem domain) =
      spokenFor (some domain) (under stem DNS_SUFFIX) := by
    have hcert : endsUnder domain (under stem domain) = true :=
      List.isSuffixOf_iff_suffix.mpr (suffix_under stem hown.lower)
    have hsuffix : endsUnder DNS_SUFFIX (under stem DNS_SUFFIX) = true :=
      List.isSuffixOf_iff_suffix.mpr (suffix_under stem lower_suffix)
    unfold spokenFor
    simp [hcert, hsuffix]
  have hnamed : namedHost (some domain) hosts (under stem domain) =
      namedHost (some domain) hosts (under stem DNS_SUFFIX) := by
    apply lastOf_congr
    intro host hhost
    apply decide_eq_decide.mpr
    unfold ZoneDevice.names ZoneData.hostNames
    rw [List.mem_flatMap, List.mem_flatMap]
    exact exists_congr fun name => and_congr_right fun hname =>
      hown.mem_keys stem (hhosts host hhost name hname)
  have hservice : namedService (some domain) services (under stem domain) =
      namedService (some domain) services (under stem DNS_SUFFIX) := by
    apply lastOf_congr
    intro service hservice
    exact decide_eq_decide.mpr (hown.mem_keys stem (hserved service hservice))
  have habove : hostAbove (some domain) hosts (under stem domain) =
      hostAbove (some domain) hosts (under stem DNS_SUFFIX) := by
    unfold hostAbove
    rcases splitOnceDot_cases stem with hwhole | ⟨rest, hsplit⟩
    · obtain ⟨label, hcert⟩ := hwhole domain
      obtain ⟨label', hsuffix⟩ := hwhole DNS_SUFFIX
      rw [hcert, hsuffix, hown.lower, lower_suffix, Option.bind_some, Option.bind_some]
      apply lastOf_congr
      intro host hhost
      obtain ⟨hdomain, hroot⟩ := hown.not_mem_keys (hhosts host hhost _ List.mem_cons_self)
      rw [decide_eq_false hdomain, decide_eq_false hroot]
    · obtain ⟨label, hcert⟩ := hsplit domain
      obtain ⟨label', hsuffix⟩ := hsplit DNS_SUFFIX
      rw [hcert, hsuffix, Option.bind_some, Option.bind_some]
      apply lastOf_congr
      intro host hhost
      exact decide_eq_decide.mpr (hown.mem_keys rest (hhosts host hhost _ List.mem_cons_self))
  unfold resolved
  rw [hspoken, hnamed, hservice, habove]

end

/-! The questions of a query. -/

section

variable (me : SelfDevice) (seeds : List SeedPeer) (services : List (String × Ipv4Addr))

theorem recordFor_rebuilt (q : Question) :
    (ZoneData.rebuilt me seeds services).recordFor q =
      if q.isA then
        (resolved me.dnsDomain (hosts me seeds) services (ZoneData.norm q.name)).map fun ip =>
          { name := q.name, ip := ip }
      else none := by
  rw [← ZoneData.lookup_resolved]
  unfold ZoneData.recordFor
  cases q.isA <;> cases (ZoneData.rebuilt me seeds services).ours (ZoneData.norm q.name) <;> rfl

theorem denies_rebuilt (q : Question) :
    (ZoneData.rebuilt me seeds services).denies q =
      (q.isA && endsUnder DNS_SUFFIX (ZoneData.norm q.name) &&
        (resolved me.dnsDomain (hosts me seeds) services (ZoneData.norm q.name)).isNone) := by
  rw [← ZoneData.lookup_resolved]
  unfold ZoneData.denies
  cases hunder : endsUnder DNS_SUFFIX (ZoneData.norm q.name) with
  | true => rw [if_pos (ZoneData.ours_of_mesh hunder)]
  | false => simp

theorem nxDomain_rebuilt (req : Message) :
    ((ZoneData.rebuilt me seeds services).answer req).nxDomain = true ↔
      ((ZoneData.rebuilt me seeds services).answer req).answers = [] ∧
        ∃ q ∈ req.queries, q.isA = true ∧
          endsUnder DNS_SUFFIX (ZoneData.norm q.name) = true ∧
            resolved me.dnsDomain (hosts me seeds) services (ZoneData.norm q.name) = none := by
  have hanswer := @ZoneData.answer_eq (ZoneData.rebuilt me seeds services) req
  rw [hanswer.1, hanswer.2, Bool.and_eq_true, Bool.not_eq_true', List.any_eq_false,
    List.any_eq_true, List.filterMap_eq_nil_iff]
  simp only [denies_rebuilt, Bool.and_eq_true, Option.isNone_iff_eq_none, and_assoc,
    Option.not_isSome_iff_eq_none]

end

/-- After an update the names of devices come before those of services and both before what stands
below a device, in both domains. -/
theorem zone_resolves (zone : ZoneData) (me : SelfDevice) (seeds : List SeedPeer)
    (services : List (String × Ipv4Addr)) :
    ZoneAnswers me seeds services (zone.update me seeds services).1 := by
  have hanswers : ∀ req, ((zone.update me seeds services).1.answer req).answers =
      req.queries.filterMap fun q =>
        if q.isA then
          (resolved me.dnsDomain (hosts me seeds) services (ZoneData.norm q.name)).map fun ip =>
            { name := q.name, ip := ip }
        else none := by
    intro req
    rw [ZoneData.answer_update, (ZoneData.answer_eq req).1,
      funext (recordFor_rebuilt me seeds services)]
  constructor
  · exact hanswers
  · intro req
    rw [ZoneData.answer_update]
    exact nxDomain_rebuilt me seeds services req
  · exact fun name => resolved_named
  · intro req record hrecord
    rw [hanswers] at hrecord
    obtain ⟨q, -, hrecord⟩ := List.mem_filterMap.mp hrecord
    split at hrecord
    · obtain ⟨ip, hresolved, rfl⟩ := Option.map_eq_some_iff.mp hrecord
      exact resolved_spoken hresolved
    · cases hrecord
  · intro domain hdomain hown hmesh stem
    rw [hdomain]
    exact hown.mirrored hmesh stem
  · intro hagree seeds' services' hseeds hservices other req
    rw [ZoneData.answer_update, ZoneData.answer_update]
    apply ZoneData.answer_congr
    · intro q
      rw [recordFor_rebuilt, recordFor_rebuilt, resolved_perm me hagree hseeds hservices]
    · intro q
      rw [denies_rebuilt, denies_rebuilt, resolved_perm me hagree hseeds hservices]

def gordon : SelfDevice where
  communityName := "lan"
  userId := 1
  username := "gordon"
  networks := []
  wgIp := 0x64493d04
  wgNet := ⟨0x64400000, 10⟩
  hostname := "laptop.gordon.unity.internal"
  isPrimary := false
  grantExpiresAt := 900
  primaryAlias := none
  networksStatus := []
  dnsDomain := none

def primaryOf (hostname : String) (ip : Ipv4Addr) : SeedPeer where
  pubkey := ip.toNat
  userId := 2
  username := "alice"
  ip := ip
  endpoint := none
  punch := none
  hostname := hostname
  primaryAlias := some "alice.unity.internal"
  networks := []
  relay := none
  ice := none
  rev := 0
  expiresAt := 900

/-- Two devices with names of their own and one alias: the alias follows the order. -/
theorem alias_follows_order :
    ¬ ∀ (zone : ZoneData) (me : SelfDevice) (seeds seeds' : List SeedPeer)
      (services : List (String × Ipv4Addr)) (req : Message),
        (me.hostname :: seeds.map SeedPeer.hostname).Nodup → seeds.Perm seeds' →
          (zone.update me seeds services).1.answer req =
            (zone.update me seeds' services).1.answer req := by
  intro hclaim
  have hsame := hclaim {} gordon
    [primaryOf "server.alice.unity.internal" 0x64493d09,
      primaryOf "laptop.alice.unity.internal" 0x64493d0a]
    [primaryOf "laptop.alice.unity.internal" 0x64493d0a,
      primaryOf "server.alice.unity.internal" 0x64493d09]
    [] ⟨7, true, [{ name := "alice.unity.internal." }]⟩ (by decide) (.swap ..)
  revert hsame
  decide +kernel

end UnityLan.Engine
