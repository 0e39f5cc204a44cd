import UnityLan.Engine.Cert
import UnityLan.Engine.Seeds

namespace UnityLan.Engine

open Cert

/-! The names a device answers for: its own, those of its peers, and the services that won one. -/

structure ZoneData where
  names : List (String × Ipv4Addr) := []
  wildcard : List (String × Ipv4Addr) := []
  certDomain : Option String := none
  deriving DecidableEq

namespace ZoneData

def norm (name : String) : String :=
  asciiLower (trimEndDots name)

theorem asciiLower_norm (name : String) : asciiLower (norm name) = norm name := by
  unfold norm
  rw [← String.toList_inj, toList_asciiLower, toList_asciiLower, List.map_map]
  exact List.map_congr_left fun c _ => toLower_idem c

/-- A name, and its alias under the certificate domain; `sub` where all names below it too. -/
def add (zone : ZoneData) (name : String) (ip : Ipv4Addr) (sub : Bool) : ZoneData :=
  let name := norm name
  let added := (zone.certDomain.bind (certificateAlias name)).toList.map fun other => (other, ip)
  { zone with
    names := (name, ip) :: added ++ zone.names
    wildcard := if sub then (name, ip) :: added ++ zone.wildcard else zone.wildcard }

def addHost (zone : ZoneData) (hostname : String) (primaryAlias : Option String)
    (ip : Ipv4Addr) : ZoneData :=
  primaryAlias.elim (zone.add hostname ip true) fun name =>
    (zone.add hostname ip true).add name ip false

def rebuilt (me : SelfDevice) (seeds : List SeedPeer) (services : List (String × Ipv4Addr)) :
    ZoneData :=
  let empty : ZoneData := { certDomain := me.dnsDomain }
  let named := services.foldl (fun zone service => zone.add service.1 service.2 false) empty
  seeds.foldl (fun zone seed => zone.addHost seed.hostname seed.primaryAlias seed.ip)
    (named.addHost me.hostname me.primaryAlias me.wgIp)

def keys (certDomain : Option String) (name : String) : List String :=
  norm name :: (certDomain.bind (certificateAlias (norm name))).toList

def hostNames (certDomain : Option String) (hostname : String) (primaryAlias : Option String) :
    List String :=
  (hostname :: primaryAlias.toList).flatMap (keys certDomain)

section

variable {zone : ZoneData} {name key hostname : String} {primaryAlias : Option String}
  {ip : Ipv4Addr} {sub : Bool}

@[simp] theorem add_certDomain : (zone.add name ip sub).certDomain = zone.certDomain := rfl

@[simp] theorem addHost_certDomain :
    (zone.addHost hostname primaryAlias ip).certDomain = zone.certDomain := by
  cases primaryAlias <;> rfl

theorem add_names :
    (zone.add name ip sub).names =
      (keys zone.certDomain name).map (fun key => (key, ip)) ++ zone.names := rfl

theorem lookup_keys (names : List (String × Ipv4Addr)) (added : List String) :
    (added.map (fun key => (key, ip)) ++ names).lookup key =
      if key ∈ added then some ip else names.lookup key := by
  induction added with
  | nil => rfl
  | cons first rest ih =>
      rw [List.map_cons, List.cons_append, List.lookup_cons, ih]
      by_cases hfirst : key = first
      · simp [hfirst]
      · rw [beq_false_of_ne hfirst]
        simp [hfirst]

theorem lookup_add :
    (zone.add name ip sub).names.lookup key =
      if key ∈ keys zone.certDomain name then some ip else zone.names.lookup key := by
  rw [add_names, lookup_keys]

theorem lookup_addHost :
    (zone.addHost hostname primaryAlias ip).names.lookup key =
      if key ∈ hostNames zone.certDomain hostname primaryAlias then some ip
      else zone.names.lookup key := by
  cases primaryAlias with
  | none =>
      show (zone.add hostname ip true).names.lookup key = _
      rw [lookup_add]
      simp [hostNames]
  | some name =>
      show ((zone.add hostname ip true).add name ip false).names.lookup key = _
      rw [lookup_add, add_certDomain, lookup_add, ← ite_or]
      simp [hostNames, or_comm]

theorem addSeeds_certDomain (seeds : List SeedPeer) (zone : ZoneData) :
    (seeds.foldl (fun zone seed => zone.addHost seed.hostname seed.primaryAlias seed.ip)
      zone).certDomain = zone.certDomain := by
  induction seeds generalizing zone with
  | nil => rfl
  | cons seed rest ih => exact (ih _).trans addHost_certDomain

theorem addServices_certDomain (services : List (String × Ipv4Addr)) (zone : ZoneData) :
    (services.foldl (fun zone service => zone.add service.1 service.2 false)
      zone).certDomain = zone.certDomain := by
  induction services generalizing zone with
  | nil => rfl
  | cons service rest ih => exact ih _

@[simp] theorem rebuilt_certDomain (me : SelfDevice) (seeds : List SeedPeer)
    (services : List (String × Ipv4Addr)) :
    (rebuilt me seeds services).certDomain = me.dnsDomain := by
  unfold rebuilt
  rw [addSeeds_certDomain, addHost_certDomain, addServices_certDomain]

theorem lookup_addSeeds {seeds : List SeedPeer}
    (hothers : ∀ seed ∈ seeds,
      key ∉ hostNames zone.certDomain seed.hostname seed.primaryAlias) :
    (seeds.foldl (fun zone seed => zone.addHost seed.hostname seed.primaryAlias seed.ip)
      zone).names.lookup key = zone.names.lookup key := by
  induction seeds generalizing zone with
  | nil => rfl
  | cons seed rest ih =>
      rw [List.foldl_cons, ih, lookup_addHost, if_neg (hothers seed List.mem_cons_self)]
      intro other hother
      rw [addHost_certDomain]
      exact hothers other (List.mem_cons_of_mem _ hother)

theorem lookup_rebuilt {me : SelfDevice} {seeds : List SeedPeer}
    {services : List (String × Ipv4Addr)}
    (hown : key ∈ hostNames me.dnsDomain me.hostname me.primaryAlias)
    (hothers : ∀ seed ∈ seeds, key ∉ hostNames me.dnsDomain seed.hostname seed.primaryAlias) :
    (rebuilt me seeds services).names.lookup key = some me.wgIp := by
  unfold rebuilt
  rw [lookup_addSeeds, lookup_addHost, addServices_certDomain, if_pos hown]
  intro seed hseed
  rw [addHost_certDomain, addServices_certDomain]
  exact hothers seed hseed

end

end ZoneData

/-! What a query is answered. -/

/-- One question of a query; only those for addresses are answered. -/
structure Question where
  name : String
  isA : Bool := true
  deriving DecidableEq

structure Record where
  name : String
  ttl : Nat := 30
  ip : Ipv4Addr
  deriving DecidableEq

structure Message where
  id : Nat
  recursionDesired : Bool
  queries : List Question

structure DnsReply where
  id : Nat
  recursionDesired : Bool
  authoritative : Bool := true
  queries : List Question
  answers : List Record
  /-- The response code is NXDOMAIN. -/
  nxDomain : Bool
  deriving DecidableEq

structure Answering where
  answers : List Record := []
  answered : Bool := false
  oursButMissing : Bool := false

def endsUnder (suffix name : String) : Bool :=
  ("." ++ suffix).toList.isSuffixOf name.toList

namespace ZoneData

variable (zone : ZoneData)

def lookup (name : String) : Option Ipv4Addr :=
  match zone.names.lookup name with
  | some ip => some ip
  | none => (splitOnceDot name).bind fun split => zone.wildcard.lookup split.2

def ours (name : String) : Bool :=
  endsUnder DNS_SUFFIX name || zone.certDomain.any fun domain => endsUnder domain name

def answerQuestion (done : Answering) (q : Question) : Answering :=
  if !q.isA then done
  else
    let name := norm q.name
    if !zone.ours name then done
    else
      match zone.lookup name with
      | some ip =>
          { done with answers := done.answers ++ [{ name := q.name, ip := ip }], answered := true }
      | none => if endsUnder DNS_SUFFIX name then { done with oursButMissing := true } else done

def answer (req : Message) : DnsReply :=
  let done := req.queries.foldl zone.answerQuestion {}
  { id := req.id
    recursionDesired := req.recursionDesired
    queries := req.queries
    answers := done.answers
    nxDomain := !done.answered && done.oursButMissing }

def recordFor (q : Question) : Option Record :=
  if q.isA && zone.ours (norm q.name) then
    (zone.lookup (norm q.name)).map fun ip => { name := q.name, ip := ip }
  else none

def denies (q : Question) : Bool :=
  q.isA && endsUnder DNS_SUFFIX (norm q.name) && (zone.lookup (norm q.name)).isNone

variable {zone}

theorem ours_of_mesh {name : String} (hunder : endsUnder DNS_SUFFIX name = true) :
    zone.ours name = true := by
  unfold ours
  rw [hunder, Bool.true_or]

theorem answerQuestion_eq (done : Answering) (q : Question) :
    zone.answerQuestion done q =
      ⟨done.answers ++ (zone.recordFor q).toList, done.answered || (zone.recordFor q).isSome,
        done.oursButMissing || zone.denies q⟩ := by
  unfold answerQuestion recordFor denies
  by_cases hA : q.isA = true
  · by_cases hours : zone.ours (norm q.name) = true
    · cases hfound : zone.lookup (norm q.name) with
      | some ip => simp [hA, hours, hfound]
      | none =>
          by_cases hmesh : endsUnder DNS_SUFFIX (norm q.name) = true <;>
            simp [hA, hours, hfound, hmesh]
    · have hmesh : endsUnder DNS_SUFFIX (norm q.name) = false := by
        rw [Bool.eq_false_iff]
        exact fun hunder => hours (ours_of_mesh hunder)
      simp [hA, hours, hmesh]
  · simp [hA]

/-- The questions are answered each for itself; the reply denies where none is answered and one is
of a missing name. -/
theorem answer_eq (req : Message) :
    (zone.answer req).answers = req.queries.filterMap zone.recordFor ∧
      (zone.answer req).nxDomain =
        (!(req.queries.any fun q => (zone.recordFor q).isSome) && req.queries.any zone.denies) := by
  have hfold : ∀ (queries : List Question) (done : Answering),
      queries.foldl zone.answerQuestion done =
        ⟨done.answers ++ queries.filterMap zone.recordFor,
          done.answered || (queries.any fun q => (zone.recordFor q).isSome),
          done.oursButMissing || queries.any zone.denies⟩ := by
    intro queries
    induction queries with
    | nil => intro done; simp
    | cons q rest ih =>
        intro done
        rw [List.foldl_cons, ih, answerQuestion_eq]
        cases hrecord : zone.recordFor q <;> simp [hrecord, Bool.or_assoc]
  unfold answer
  rw [hfold]
  exact ⟨by simp, by simp⟩

end ZoneData

end UnityLan.Engine
