import UnityLan.Coordinator.Changes
import UnityLan.Coordinator.Database
import UnityLan.Coordinator.Suffixes
import UnityLan.Foundation.Exposition

namespace UnityLan.Coordinator

open UnityLan.Foundation UnityLan.Foundation.Exposition

/-! The metrics of the coordinator, and how they are exposed. -/

structure NetStat where
  roleId : RoleId
  online : Nat

structure GuildStat where
  id : GuildId
  networks : List NetStat

structure AdminStats where
  guilds : List GuildStat
  totalNetworks : Nat
  onlineDevices : Nat
  onlineUsers : Nat
  offNetworkDevices : Nat
  enrolledDevices : Nat
  longpollWaiters : Nat
  version : Nat
  clientVersions : Table String Nat

def gatherStats (guildIds : List GuildId) (networks : List Network)
    (enrolledDevices longpollWaiters version : Nat) (pres : PresenceStats) : AdminStats :=
  let ids := (guildIds ++ networks.map Network.guildId ++
    pres.onlinePerNetwork.keys.map Prod.fst).dedup.mergeSort fun a b => decide (a ≤ b)
  { guilds := ids.map fun id =>
      { id
        networks := ((networks.filter fun n => n.guildId == id).mergeSort
            fun a b => decide (a.name ≤ b.name)).map fun n =>
          { roleId := n.roleId
            online := (pres.onlinePerNetwork.get? (id, n.roleId)).getD 0 } }
    totalNetworks := networks.length
    onlineDevices := pres.onlineDevices
    onlineUsers := pres.onlineUsers
    offNetworkDevices := pres.offNetworkDevices
    enrolledDevices
    longpollWaiters
    version
    clientVersions := pres.clientVersions }

structure Gauge where
  name : String
  help : String
  val : Nat

def gauge (g : Gauge) : List (List Char) :=
  ["# HELP ".toList ++ g.name.toList ++ ' ' :: g.help.toList,
    "# TYPE ".toList ++ g.name.toList ++ " gauge".toList,
    g.name.toList ++ ' ' :: digits g.val]

namespace AdminStats

variable (s : AdminStats)

def gauges : List Gauge :=
  [⟨"unitylan_guilds", "Guilds this coordinator has contacted.", s.guilds.length⟩,
    ⟨"unitylan_networks", "Registered networks (roles) across all guilds.", s.totalNetworks⟩,
    ⟨"unitylan_devices_enrolled", "Enrolled devices (persistent registrations).",
      s.enrolledDevices⟩,
    ⟨"unitylan_devices_online", "Distinct devices currently online.", s.onlineDevices⟩,
    ⟨"unitylan_users_online", "Distinct users currently online.", s.onlineUsers⟩,
    ⟨"unitylan_devices_off_network",
      "Online devices reachable only as own-devices (on no network). Subset of devices_online.",
      s.offNetworkDevices⟩,
    ⟨"unitylan_longpoll_waiters", "Parked long-poll requests.", s.longpollWaiters⟩,
    ⟨"unitylan_membership_version", "Monotonic membership version.", s.version⟩]

def networks : List (GuildId × NetStat) :=
  s.guilds.flatMap fun g => g.networks.map fun n => (g.id, n)

def versions : List (String × Nat) :=
  s.clientVersions.rows.mergeSort fun a b => decide (a.1 ≤ b.1)

end AdminStats

def peersOnline (guild : GuildId) (n : NetStat) : List Char :=
  "unitylan_peers_online".toList ++ '\x7b' :: ("guild_id".toList ++ '=' :: '"' ::
    (digits guild ++ '"' :: ',' :: ("role_id".toList ++ '=' :: '"' ::
      (digits n.roleId ++ '"' :: '\x7d' :: ' ' :: digits n.online))))

def onlineByVersion (version : String) (n : Nat) : List Char :=
  "unitylan_devices_online_by_version".toList ++ '\x7b' :: ("version".toList ++ '=' :: '"' ::
    (version.toList ++ '"' :: '\x7d' :: ' ' :: digits n))

def AdminStats.render (s : AdminStats) : List Char :=
  writeLines (s.gauges.flatMap gauge)
    (writeLines
      ("# HELP unitylan_peers_online Devices online per network.".toList ::
        "# TYPE unitylan_peers_online gauge".toList ::
        s.networks.map fun row => peersOnline row.1 row.2)
      (writeLines
        ("# HELP unitylan_devices_online_by_version Online devices per reported client version.".toList
          :: "# TYPE unitylan_devices_online_by_version gauge".toList ::
          s.versions.map fun row => onlineByVersion row.1 row.2)
        []))

/-! What the samples are. -/

def Gauge.sample (g : Gauge) : Sample where
  name := g.name.toList
  value := digits g.val

def peersOnlineSample (row : GuildId × NetStat) : Sample where
  name := "unitylan_peers_online".toList
  labels := [("guild_id".toList, digits row.1), ("role_id".toList, digits row.2.roleId)]
  value := digits row.2.online

def versionSample (row : String × Nat) : Sample where
  name := "unitylan_devices_online_by_version".toList
  labels := [("version".toList, row.1.toList)]
  value := digits row.2

def AdminStats.samples (s : AdminStats) : List Sample :=
  s.gauges.map Gauge.sample ++ s.networks.map peersOnlineSample ++ s.versions.map versionSample

def firstReports : List (PubKey × String) → List (PubKey × String)
  | [] => []
  | report :: later => report :: (firstReports later).filter fun other => other.1 != report.1

/-- The version that each device reported. -/
def reportedVersions (mapRows : List MapRow) (selfRows : List SelfRow) : List String :=
  (firstReports (mapRows.map (fun row => (row.pubkey, row.2.clientVersion)) ++
    selfRows.map fun row => (row.pubkey, row.2.clientVersion))).map Prod.snd

/-- The text reads as the samples, and the versions are those that were reported, each with
the number of devices that reported it. -/
structure AdminStats.Exposes (s : AdminStats) (reported : List String) : Prop where
  reads : read s.render = some s.samples
  counted : ∀ version ∈ reported,
    (Tallies.versionLabel version, reported.count version) ∈ s.versions
  only : ∀ row ∈ s.versions, ∃ version ∈ reported,
    row = (Tallies.versionLabel version, reported.count version)

/-! Numbers. -/

theorem digits_digit {n : Nat} {c : Char} (hc : c ∈ digits n) : c.isDigit = true := by
  rw [digits_eq] at hc
  exact Nat.isDigit_of_mem_toDigits (by decide) (by decide) hc

theorem digits_verbatim (n : Nat) : Verbatim (digits n) := by
  intro c hc
  have hdigit := digits_digit hc
  refine ⟨?_, ?_, ?_⟩ <;>
  · rintro rfl
    exact absurd hdigit (by decide)

theorem digits_not_blank {n : Nat} {c : Char} (hc : c ∈ digits n) : isBlank c = false := by
  apply not_blank_of_name
  have hdigit := digits_digit hc
  simp [isNameChar, Char.isAlphanum, hdigit]

theorem readSampleValue_digits (name : List Char) (labels : List (List Char × List Char)) (n : Nat) :
    readSampleValue name labels (' ' :: digits n) = some ⟨name, labels, digits n⟩ := by
  have hall : ∀ c ∈ digits n, (!isBlank c) = true := fun c hc => by rw [digits_not_blank hc]; rfl
  have hkept : (digits n).takeWhile (fun c => !isBlank c) = digits n :=
    List.takeWhile_eq_self_iff.mpr hall
  have hrest : (digits n).dropWhile (fun c => !isBlank c) = [] :=
    List.dropWhile_eq_nil_iff.mpr hall
  have hstart : (' ' :: digits n).dropWhile isBlank = digits n := by
    rw [List.dropWhile_cons_of_pos (by decide)]
    exact List.dropWhile_eq_self_iff.mpr fun hpos => by
      rw [digits_not_blank (List.getElem_mem hpos)]
      decide
  unfold readSampleValue
  dsimp only
  rw [hstart, hkept, hrest, if_neg (digits_ne_nil n)]
  rfl

/-! What each line reads as. -/

theorem read_value {name : List Char} (hname : IsName name) (n : Nat) :
    read (name ++ ' ' :: digits n) = some [⟨name, [], digits n⟩] := by
  have hline : '\n' ∉ name ++ ' ' :: digits n := by
    rw [List.mem_append, List.mem_cons, not_or, not_or]
    exact ⟨hname.no_newline, by decide, (digits_verbatim n).no_newline⟩
  have hfirst : ∃ c rest, digits n = c :: rest ∧ isBlank c = false ∧ c ≠ '\x7b' := by
    cases hdigits : digits n with
    | nil => exact absurd hdigits (digits_ne_nil n)
    | cons c rest =>
        have hc : c ∈ digits n := hdigits ▸ List.mem_cons_self
        refine ⟨c, rest, rfl, digits_not_blank hc, ?_⟩
        rintro rfl
        exact absurd (digits_digit hc) (by decide)
  obtain ⟨c, rest, hdigits, hblank, hbrace⟩ := hfirst
  have hstart : (' ' :: digits n).dropWhile isBlank = digits n := by
    rw [hdigits, List.dropWhile_cons_of_pos (by decide),
      List.dropWhile_cons_of_neg (by simp [hblank])]
  have hnumber : readSampleValue name [] (digits n) = some ⟨name, [], digits n⟩ := by
    have hspaced := readSampleValue_digits name [] n
    unfold readSampleValue at hspaced ⊢
    rw [hstart] at hspaced
    rw [hdigits, List.dropWhile_cons_of_neg (by simp [hblank]), ← hdigits]
    exact hspaced
  rw [read_single hline, readLine_named hname]
  unfold readSample
  rw [hname.takeWhile (by decide), hname.dropWhile (by decide), if_neg hname.1, hstart]
  split
  · rename_i hopen
    rw [hdigits] at hopen
    cases hopen
    exact absurd rfl hbrace
  · rw [hnumber]
    rfl

theorem digits_line (n : Nat) : '\n' ∉ ' ' :: digits n := by
  rw [List.mem_cons, not_or]
  exact ⟨by decide, (digits_verbatim n).no_newline⟩

theorem read_peersOnline (row : GuildId × NetStat) :
    read (peersOnline row.1 row.2) = some [peersOnlineSample row] :=
  read_two (by decide) (by decide) (digits_verbatim row.1) (by decide)
    (digits_verbatim row.2.roleId) (digits_line _) (readSampleValue_digits _ _ row.2.online)

theorem version_name : IsName "unitylan_devices_online_by_version".toList := by
  decide

theorem version_key : IsName "version".toList := by
  decide

theorem read_onlineByVersion {version : String} (hverbatim : Verbatim version.toList) (n : Nat) :
    read (onlineByVersion version n) = some [versionSample (version, n)] :=
  read_one version_name version_key hverbatim (digits_line n) (readSampleValue_digits _ _ n)

theorem verbatim_of_version {version : String} {n : Nat} {more : List Sample}
    (hread : read (onlineByVersion version n) = some (versionSample (version, n) :: more)) :
    Verbatim version.toList := by
  obtain ⟨sample, later, value, rest, hsamples, hlabel, hvalue⟩ :=
    read_labelled version_name version_key hread
  cases hsamples
  cases hlabel
  exact verbatim_of_label hvalue

theorem read_versions (rows : List (String × Nat)) :
    read (writeLines (rows.map fun row => onlineByVersion row.1 row.2) []) =
        some (rows.map versionSample) ↔
      ∀ row ∈ rows, Verbatim row.1.toList := by
  induction rows with
  | nil => exact ⟨fun _ => nofun, fun _ => rfl⟩
  | cons row rows ih =>
      rw [List.forall_mem_cons, ← ih]
      change read (onlineByVersion row.1 row.2 ++ '\n' ::
        writeLines (rows.map fun row => onlineByVersion row.1 row.2) []) = _ ↔ _
      rw [read_append, List.map_cons]
      constructor
      · intro hread
        obtain ⟨samples, hsamples, hmore⟩ := Option.bind_eq_some_iff.mp hread
        obtain ⟨more, hrest, hsame⟩ := Option.map_eq_some_iff.mp hmore
        have hfirst : ∃ later, samples = versionSample row :: later := by
          obtain ⟨sample, later, -, -, rfl, -, -⟩ :=
            read_labelled version_name version_key hsamples
          rw [List.cons_append, List.cons.injEq] at hsame
          exact ⟨later, by rw [hsame.1]⟩
        obtain ⟨later, rfl⟩ := hfirst
        have hverbatim := verbatim_of_version hsamples
        rw [read_onlineByVersion hverbatim row.2] at hsamples
        cases hsamples
        rw [List.singleton_append, List.cons.injEq] at hsame
        exact ⟨hverbatim, by rw [hrest, hsame.2]⟩
      · rintro ⟨hverbatim, hrest⟩
        rw [read_onlineByVersion hverbatim, hrest]
        rfl

/-! The text as a whole. -/

def Readable (g : String × String) : Prop :=
  IsName g.1.toList ∧ '\n' ∉ g.2.toList

instance (g : String × String) : Decidable (Readable g) :=
  inferInstanceAs (Decidable (_ ∧ _))

theorem read_gauge {g : Gauge} (hreadable : Readable (g.name, g.help)) (rest : List Char) :
    read (writeLines (gauge g) rest) = (read rest).map fun more => g.sample :: more := by
  obtain ⟨hname, hhelp⟩ := hreadable
  have hhelpRead : read ("# HELP ".toList ++ g.name.toList ++ ' ' :: g.help.toList) = some [] := by
    apply read_comment
    · simp only [List.mem_append, List.mem_cons, not_or]
      exact ⟨⟨by decide, hname.no_newline⟩, by decide, hhelp⟩
    · rw [List.append_assoc, List.head?_append]
      rfl
  have htypeRead : read ("# TYPE ".toList ++ g.name.toList ++ " gauge".toList) = some [] := by
    apply read_comment
    · simp only [List.mem_append, not_or]
      exact ⟨⟨by decide, hname.no_newline⟩, by decide⟩
    · rw [List.append_assoc, List.head?_append]
      rfl
  unfold gauge writeLines
  simp only [List.foldr_cons, List.foldr_nil]
  rw [read_append, hhelpRead, read_append, htypeRead, read_append, read_value hname]
  cases read rest <;> rfl

theorem writeLines_append (front back : List (List Char)) (rest : List Char) :
    writeLines (front ++ back) rest = writeLines front (writeLines back rest) :=
  List.foldr_append ..

theorem read_gauges {gauges : List Gauge} (hall : ∀ g ∈ gauges, Readable (g.name, g.help))
    (rest : List Char) :
    read (writeLines (gauges.flatMap gauge) rest) =
      (read rest).map fun more => gauges.map Gauge.sample ++ more := by
  induction gauges with
  | nil => cases hrest : read rest <;> simp [writeLines, hrest]
  | cons g gauges ih =>
      rw [List.flatMap_cons, writeLines_append, read_gauge (hall g List.mem_cons_self),
        ih fun other hother => hall other (List.mem_cons_of_mem _ hother), Option.map_map]
      rfl

theorem gauges_readable (s : AdminStats) : ∀ g ∈ s.gauges, Readable (g.name, g.help) := by
  have hall : ∀ row ∈ (AdminStats.gauges ⟨[], 0, 0, 0, 0, 0, 0, 0, ∅⟩).map
      (fun g => (g.name, g.help)), Readable row := by
    decide +kernel
  have hsame : (AdminStats.gauges ⟨[], 0, 0, 0, 0, 0, 0, 0, ∅⟩).map (fun g => (g.name, g.help)) =
      s.gauges.map fun g => (g.name, g.help) := rfl
  intro g hg
  have hmem : (g.name, g.help) ∈ s.gauges.map fun g => (g.name, g.help) := List.mem_map_of_mem hg
  rw [← hsame] at hmem
  exact hall _ hmem

theorem read_headed {help type : List Char} {lines : List (List Char)} (rest : List Char)
    (hhelp : read help = some []) (htype : read type = some []) :
    read (writeLines (help :: type :: lines) rest) = read (writeLines lines rest) := by
  have hboth : writeLines (help :: type :: lines) rest =
      help ++ '\n' :: (type ++ '\n' :: writeLines lines rest) := rfl
  rw [hboth, read_append, hhelp, read_append, htype]
  cases read (writeLines lines rest) <;> rfl

theorem render_reads (s : AdminStats) :
    read s.render = some s.samples ↔ ∀ row ∈ s.versions, Verbatim row.1.toList := by
  have hnetworks : ∀ row ∈ s.networks,
      read (peersOnline row.1 row.2) = some [peersOnlineSample row] :=
    fun row _ => read_peersOnline row
  unfold AdminStats.render AdminStats.samples
  rw [read_gauges (gauges_readable s),
    read_headed _ (read_comment (by decide) (by decide)) (read_comment (by decide) (by decide)),
    read_writeLines hnetworks,
    read_headed _ (read_comment (by decide) (by decide)) (read_comment (by decide) (by decide)),
    ← read_versions, Option.map_map, Option.map_eq_some_iff]
  constructor
  · rintro ⟨versions, hversions, hsame⟩
    rw [hversions]
    have hleft : List.map Gauge.sample s.gauges ++
        (s.networks.flatMap (fun row => [peersOnlineSample row]) ++ versions) =
          s.gauges.map Gauge.sample ++ s.networks.map peersOnlineSample ++
            s.versions.map versionSample := hsame
    rw [List.append_assoc, List.append_right_inj, ← List.map_eq_flatMap,
      List.append_right_inj] at hleft
    rw [hleft]
  · intro hversions
    refine ⟨_, hversions, ?_⟩
    rw [List.append_assoc, List.map_eq_flatMap (f := peersOnlineSample)]
    rfl

/-! The versions that are counted. -/

section

variable {reported : List String} {version : String}

theorem versionLabel_some (hsome : version ≠ "") : Tallies.versionLabel version = version :=
  if_neg (by simpa using hsome)

theorem count_unknown (reported : List String) :
    (reported.map Tallies.versionLabel).count "unknown" =
      reported.count "" + reported.count "unknown" := by
  induction reported with
  | nil => rfl
  | cons version rest ih =>
      rw [List.map_cons, List.count_cons, List.count_cons, List.count_cons, ih]
      by_cases hnone : version = ""
      · subst hnone
        have hlabel : Tallies.versionLabel "" = "unknown" := rfl
        rw [hlabel, if_pos (by decide), if_pos (by decide), if_neg (by decide)]
        omega
      · have hother : (version == "") = false := beq_false_of_ne hnone
        rw [versionLabel_some hnone, hother, if_neg Bool.false_ne_true, Nat.add_zero,
          Nat.add_assoc]

theorem count_known (hsome : version ≠ "") (hknown : version ≠ "unknown")
    (reported : List String) :
    (reported.map Tallies.versionLabel).count version = reported.count version := by
  induction reported with
  | nil => rfl
  | cons other rest ih =>
      rw [List.map_cons, List.count_cons, List.count_cons, ih]
      by_cases hnone : other = ""
      · subst hnone
        have hlabel : Tallies.versionLabel "" = "unknown" := rfl
        rw [hlabel, if_neg (by simpa using Ne.symm hknown), if_neg (by simpa using Ne.symm hsome)]
      · rw [versionLabel_some hnone]

theorem count_label (happart : ¬("" ∈ reported ∧ "unknown" ∈ reported))
    (hmem : version ∈ reported) :
    (reported.map Tallies.versionLabel).count (Tallies.versionLabel version) =
      reported.count version := by
  by_cases hnone : version = ""
  · subst hnone
    have hother : reported.count "unknown" = 0 :=
      List.count_eq_zero.mpr fun hunknown => happart ⟨hmem, hunknown⟩
    have hlabel : Tallies.versionLabel "" = "unknown" := rfl
    rw [hlabel, count_unknown, hother, Nat.add_zero]
  · rw [versionLabel_some hnone]
    by_cases hunknown : version = "unknown"
    · subst hunknown
      have hother : reported.count "" = 0 :=
        List.count_eq_zero.mpr fun hempty => happart ⟨hempty, hmem⟩
      rw [count_unknown, hother, Nat.zero_add]
    · exact count_known hnone hunknown reported

variable {s : AdminStats}

theorem mem_versions {row : String × Nat} :
    row ∈ s.versions ↔ s.clientVersions.get? row.1 = some row.2 := by
  unfold AdminStats.versions
  rw [List.mem_mergeSort]
  exact Table.mem_rows

theorem exposes_iff (hcounts : s.clientVersions.Counts (reported.map Tallies.versionLabel)) :
    s.Exposes reported ↔
      (∀ version ∈ reported, Verbatim version.toList) ∧
        ¬("" ∈ reported ∧ "unknown" ∈ reported) := by
  constructor
  · rintro ⟨hreads, hcounted, -⟩
    refine ⟨fun version hmem => ?_, fun ⟨hempty, hunknown⟩ => ?_⟩
    · by_cases hnone : version = ""
      · subst hnone
        exact fun c hc => absurd hc List.not_mem_nil
      · have hverbatim := (render_reads s).mp hreads _ (hcounted version hmem)
        rwa [versionLabel_some hnone] at hverbatim
    · have hrow := hcounts.of_get? (mem_versions.mp (hcounted "" hempty))
      have hlabel : Tallies.versionLabel "" = "unknown" := rfl
      dsimp only at hrow
      rw [hlabel, count_unknown] at hrow
      have hsome := List.count_pos_iff.mpr hunknown
      omega
  · rintro ⟨hverbatim, happart⟩
    have hcounted : ∀ version ∈ reported,
        (Tallies.versionLabel version, reported.count version) ∈ s.versions := by
      intro version hmem
      have hsome : reported.count version ≠ 0 :=
        Nat.ne_of_gt (List.count_pos_iff.mpr hmem)
      rw [mem_versions]
      dsimp only
      rw [hcounts, count_label happart hmem, if_neg hsome]
    have honly : ∀ row ∈ s.versions, ∃ version ∈ reported,
        row = (Tallies.versionLabel version, reported.count version) := by
      rintro ⟨label, n⟩ hrow
      have hget := mem_versions.mp hrow
      have hkey : label ∈ reported.map Tallies.versionLabel := by
        rw [← List.mem_dedup, ← hcounts.keys.mem_iff, Table.mem_keys]
        exact ⟨n, hget⟩
      obtain ⟨version, hmem, rfl⟩ := List.mem_map.mp hkey
      have hcount := hcounts.of_get? hget
      rw [count_label happart hmem] at hcount
      exact ⟨version, hmem, by rw [hcount]⟩
    refine ⟨(render_reads s).mpr fun row hrow => ?_, hcounted, honly⟩
    obtain ⟨version, hmem, rfl⟩ := honly row hrow
    by_cases hnone : version = ""
    · subst hnone
      have hunknown : Verbatim "unknown".toList := by decide
      exact hunknown
    · rw [versionLabel_some hnone]
      exact hverbatim version hmem

end

def hear (table : Table PubKey String) (report : PubKey × String) : Table PubKey String :=
  if table.contains report.1 then table else table.insert report.1 report.2

theorem heard_rows (reports : List (PubKey × String)) (table : Table PubKey String) :
    (reports.foldl hear table).rows =
      table.rows ++ (firstReports reports).filter fun report => !table.contains report.1 := by
  induction reports generalizing table with
  | nil => simp [firstReports]
  | cons report later ih =>
      rw [List.foldl_cons, ih, firstReports]
      unfold hear
      by_cases hheld : table.contains report.1 = true
      · rw [if_pos hheld, List.filter_cons_of_neg (by simp [hheld]), List.filter_filter]
        congr 1
        apply List.filter_congr
        intro other _
        by_cases hsame : other.1 = report.1
        · simp [hsame, hheld]
        · simp [hsame]
      · rw [Bool.not_eq_true] at hheld
        have hfresh : table.get? report.1 = none := by
          unfold Table.contains at hheld
          simpa using hheld
        rw [if_neg (by simp [hheld]), Table.rows_insert hfresh,
          List.filter_cons_of_pos (by simp [hheld]), List.filter_filter, List.append_assoc,
          List.singleton_append]
        congr 2
        apply List.filter_congr
        intro other _
        unfold Table.contains
        rw [Table.get?_insert]
        by_cases hsame : other.1 = report.1
        · simp [hsame]
        · simp [hsame]

theorem tallied_versions (mapRows : List MapRow) (selfRows : List SelfRow) :
    (selfRows.foldl Tallies.owned (mapRows.foldl Tallies.networked {})).deviceVersion.values =
      reportedVersions mapRows selfRows := by
  have hnetworked : ∀ (rows : List MapRow) (t : Tallies),
      (rows.foldl Tallies.networked t).deviceVersion =
        (rows.map fun row => (row.pubkey, row.2.clientVersion)).foldl hear t.deviceVersion := by
    intro rows
    induction rows with
    | nil => exact fun _ => rfl
    | cons row rest ih => exact fun t => ih (t.networked row)
  have howned : ∀ (rows : List SelfRow) (t : Tallies),
      (rows.foldl Tallies.owned t).deviceVersion =
        (rows.map fun row => (row.pubkey, row.2.clientVersion)).foldl hear t.deviceVersion := by
    intro rows
    induction rows with
    | nil => exact fun _ => rfl
    | cons row rest ih => exact fun t => ih (t.owned row)
  rw [howned, hnetworked, ← List.foldl_append, Table.values, heard_rows]
  change ((∅ : Table PubKey String).rows ++ _).map Prod.snd = _
  have hall : ∀ reports : List (PubKey × String),
      (reports.filter fun report => !(∅ : Table PubKey String).contains report.1) = reports :=
    fun reports => List.filter_eq_self.mpr fun _ _ => rfl
  rw [Table.rows_empty, List.nil_append]
  exact congrArg (List.map Prod.snd) (hall _)

theorem gathered_counts (guildIds : List GuildId) (networks : List Network)
    (enrolledDevices longpollWaiters version : Nat) (mapRows : List MapRow)
    (selfRows : List SelfRow) :
    (gatherStats guildIds networks enrolledDevices longpollWaiters version
      (statsOf mapRows selfRows)).clientVersions.Counts
        ((reportedVersions mapRows selfRows).map Tallies.versionLabel) := by
  rw [← tallied_versions]
  exact Table.Counts.empty.foldl _

/-- The metrics read as their samples exactly where each version stands for itself and no
two share a label. -/
theorem metrics_exposed_iff (guildIds : List GuildId) (networks : List Network)
    (enrolledDevices longpollWaiters version : Nat) (mapRows : List MapRow)
    (selfRows : List SelfRow) :
    (gatherStats guildIds networks enrolledDevices longpollWaiters version
        (statsOf mapRows selfRows)).Exposes (reportedVersions mapRows selfRows) ↔
      (∀ version ∈ reportedVersions mapRows selfRows, Verbatim version.toList) ∧
        ¬("" ∈ reportedVersions mapRows selfRows ∧
          "unknown" ∈ reportedVersions mapRows selfRows) :=
  exposes_iff (gathered_counts guildIds networks enrolledDevices longpollWaiters version mapRows
    selfRows)

/-- A device that reports a version with a quote. -/
def quotedRow : SelfRow :=
  ((1, ⟨1⟩), ⟨⟨⟨1⟩, ⟨1⟩, 1, "user", "pc", true, none⟩, 0, "1\"2"⟩)

theorem quoted_version_breaks_metrics :
    ¬(gatherStats [] [] 1 0 0 (statsOf [] [quotedRow])).Exposes
      (reportedVersions [] [quotedRow]) := by
  intro hexposes
  have hplain := ((exposes_iff (gathered_counts [] [] 1 0 0 [] [quotedRow])).mp hexposes).1
  have hreported : "1\"2" ∈ reportedVersions [] [quotedRow] := by decide
  exact (hplain _ hreported '"' (by decide)).2.1 rfl

end UnityLan.Coordinator
