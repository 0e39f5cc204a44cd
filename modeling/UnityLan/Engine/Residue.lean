import UnityLan.Engine.Enrollments

namespace UnityLan.Engine

open UnityLan.Foundation Prog Cert Fw

/-! What is left of an enrollment once its logout completed. -/

structure Certs.Since (era : Nat) (certs : Certs) : Prop where
  cert : Engine.Since era certs.cert
  key : Engine.Since era certs.key
  account : Engine.Since era certs.account
  issued : Engine.Since era certs.issued

structure Status.Since (era : Nat) (status : Status) : Prop where
  shown : Engine.Since era status.shown
  routes : Engine.Since era status.routes
  services : ∀ row ∈ status.services, ∀ heard ∈ row.2, era ≤ heard.since
  cert : Engine.Since era status.cert

/-- Nothing but the zone tells of an enrollment that ended, and one order is in flight at most. -/
structure Host.Clean (host : Host) : Prop where
  key : Since host.era host.key
  certs : host.certs.Since host.era
  status : host.status.Since host.era
  peers : Since host.era host.peers
  book : ∀ entry ∈ host.book, host.era ≤ entry.2.since
  orders : (host.tasks.filter CertTask.ordering).length ≤ 1

structure Host.Single (host : Host) : Prop where
  lone : host.tasks.length ≤ 1
  own : ∀ task ∈ host.tasks, task.enrollment = host.era
  flagged : host.tasks ≠ [] → host.running = true

structure Host.Kept (host : Host) : Prop where
  key : Since host.era host.key
  certs : host.certs.Since host.era
  status : host.status.Since host.era
  peers : Since host.era host.peers
  book : ∀ entry ∈ host.book, host.era ≤ entry.2.since
  hand : ∀ task ∈ host.tasks, host.era ≤ task.since
  torn : host.daemon.phase = .tornDown → host.peers = none
  bare : host.wiped = true → host.certs = {} ∧ host.tasks = [] ∧ host.book = []
  ended : host.wiped = true → host.daemon.phase = .tornDown ∨ host.daemon.phase = .stopped

structure Host.Zoned (host : Host) : Prop where
  named : host.looping = true → ∃ left, host.zone = some left ∧ left.since ≤ host.era
  going : host.daemon.phase = .tearingDown ∨ host.daemon.phase = .tornDown → host.looping = true

def HostEvent.wipes : HostEvent → Bool
  | .wiped => true
  | _ => false

def HostEvent.completes : HostEvent → Bool
  | .life .cleared => true
  | _ => false

def Host.quiet (host : Host) : Bool :=
  host.tasks.isEmpty && host.book.isEmpty

/-- The certificate files are removed only while the host is quiet. -/
def Host.wipesQuiet (host : Host) (events : List HostEvent) : Bool :=
  meets Host.step (fun host event => !event.wipes || host.quiet) host events

/-- The zone tells of no enrollment that ended. -/
def Host.ZoneClean (host : Host) : Prop :=
  Since host.era host.zone

section

variable {host host' : Host} {event : HostEvent} {events : List HostEvent} {era since : Nat}

/-! The steps of a reconcile. -/

theorem since_some {α : Type} {left : Left α} : Since era (some left) ↔ era ≤ left.since := by
  constructor
  · exact fun hsince => hsince left rfl
  · intro hbelow other hother
    cases hother
    exact hbelow

theorem since_none {α : Type} : Since era (none : Option (Left α)) := by
  intro left hleft
  cases hleft

theorem since_written {α : Type} {file : StateFile α} {value : α} (hfile : Since era file)
    (hsince : era ≤ since) (fault : Option WriteFault) :
    Since era (file.written since value fault) := by
  match fault with
  | none => exact since_some.mpr hsince
  | some .unopened => exact hfile
  | some .cut => exact since_some.mpr hsince

theorem since_replaced {α : Type} {file : StateFile α} {value : α} (hfile : Since era file)
    (hsince : era ≤ since) (fault : Option WriteFault) :
    Since era (file.replaced since value fault) := by
  unfold StateFile.replaced
  split
  · exact hfile
  · exact since_some.mpr hsince

theorem reading_since {α : Type} {file : StateFile α} (hfile : Since era file)
    (hsince : era ≤ since) : era ≤ file.reading since := by
  cases file with
  | none => exact hsince
  | some left => exact le_min hsince (hfile left rfl)

theorem exec_frame (host : Host) (task : CertTask) (outcome : Outcome) (o : CertOp) :
    ∃ certs cert, (host.exec task outcome o).2.1 =
      { host with certs := certs, status := { host.status with cert := cert } } := by
  cases o <;> exact ⟨_, _, rfl⟩

theorem exec_enrollment (host : Host) (task : CertTask) (outcome : Outcome) (o : CertOp) :
    (host.exec task outcome o).2.2.enrollment = task.enrollment := by
  cases o <;> rfl

theorem exec_since {task : CertTask} (hcerts : host.certs.Since era)
    (hcert : Since era host.status.cert) (htask : era ≤ task.since) (outcome : Outcome)
    (o : CertOp) :
    (host.exec task outcome o).2.1.certs.Since era ∧
      Since era (host.exec task outcome o).2.1.status.cert ∧
      era ≤ (host.exec task outcome o).2.2.since := by
  cases o with
  | loadState => exact ⟨hcerts, hcert, reading_since hcerts.issued htask⟩
  | loadAccount => exact ⟨hcerts, hcert, reading_since hcerts.account htask⟩
  | saveState state =>
      exact ⟨{ hcerts with issued := since_written hcerts.issued htask _ }, hcert, htask⟩
  | saveAccount credentials =>
      exact ⟨{ hcerts with account := since_replaced hcerts.account htask _ }, hcert, htask⟩
  | writeCert chain =>
      exact ⟨{ hcerts with cert := since_written hcerts.cert htask _ }, hcert, htask⟩
  | writeKey key =>
      exact ⟨{ hcerts with key := since_replaced hcerts.key htask _ }, hcert, htask⟩
  | setStatus status => exact ⟨hcerts, since_some.mpr htask, htask⟩
  | token => exact ⟨hcerts, hcert, htask⟩
  | register token web => exact ⟨hcerts, hcert, htask⟩
  | now => exact ⟨hcerts, hcert, htask⟩
  | restoreAccount credentials => exact ⟨hcerts, hcert, htask⟩
  | createAccount directory => exact ⟨hcerts, hcert, htask⟩
  | newOrder names => exact ⟨hcerts, hcert, htask⟩
  | authorizations => exact ⟨hcerts, hcert, htask⟩
  | publishChallenges token => exact ⟨hcerts, hcert, htask⟩
  | awaitReady => exact ⟨hcerts, hcert, htask⟩
  | finalize => exact ⟨hcerts, hcert, htask⟩
  | dropOrder => exact ⟨hcerts, hcert, htask⟩

structure Did (host : Host) (index : Nat) (task : CertTask) (host' : Host) : Prop where
  frame : ∃ certs cert next, next.enrollment = task.enrollment ∧
    host' = { host with
      certs := certs
      status := { host.status with cert := cert }
      tasks := host.tasks.set index next } ∧
    ∀ era, host.certs.Since era → Since era host.status.cert → era ≤ task.since →
      certs.Since era ∧ Since era cert ∧ era ≤ next.since

theorem did_some {index : Nat} {task : CertTask} {outcome : Outcome}
    (hdid : host.did index task outcome = some host') : Did host index task host' := by
  unfold Host.did at hdid
  split at hdid
  case h_2 => cases hdid
  case h_1 o next hrest =>
    obtain ⟨certs, cert, hframe⟩ := exec_frame host task outcome o
    rw [Option.some.injEq] at hdid
    refine ⟨certs, cert, { (host.exec task outcome o).2.2 with
      rest := next (host.exec task outcome o).1 }, exec_enrollment host task outcome o, ?_, ?_⟩
    · rw [← hdid, hframe]
    · intro era hcerts hcert htask
      have hsince := exec_since hcerts hcert htask outcome o
      rw [hframe] at hsince
      exact hsince

theorem finished_some {index : Nat} {task : CertTask}
    (hfinished : host.finished index task = some host') :
    host' = { host with
      running := host.running && task.enrollment != host.era
      tasks := host.tasks.eraseIdx index } := by
  unfold Host.finished at hfinished
  split at hfinished
  · cases hfinished
    rfl
  · cases hfinished

/-! What one step keeps of the single flight. -/

theorem Host.Single.of_tasks (hsingle : host.Single) (htasks : host'.tasks = host.tasks)
    (hera : host'.era = host.era) (hrunning : host'.running = host.running) : host'.Single := by
  constructor
  · rw [htasks]
    exact hsingle.lone
  · rw [htasks, hera]
    exact hsingle.own
  · rw [htasks, hrunning]
    exact hsingle.flagged

theorem Host.Single.of_none (htasks : host.tasks = []) : host.Single := by
  constructor
  · simp [htasks]
  · simp [htasks]
  · exact fun hsome => absurd htasks hsome

theorem Host.Single.spawning (hsingle : host.Single) (snapshot : Snapshot) :
    (host.spawning snapshot).Single := by
  unfold Host.spawning
  split
  · exact hsingle
  split
  · exact hsingle
  · rename_i hfree
    have hnone : host.tasks = [] := by
      by_contra hsome
      exact hfree (hsingle.flagged hsome)
    constructor
    · simp [hnone]
    · simp [hnone]
    · exact fun _ => rfl

theorem Host.Single.did {index : Nat} {task : CertTask} (hsingle : host.Single)
    (htask : host.tasks[index]? = some task) (hdid : Did host index task host') :
    host'.Single := by
  obtain ⟨certs, cert, next, hsame, rfl, _⟩ := hdid
  constructor
  · simpa using hsingle.lone
  · intro other hother
    rcases List.mem_or_eq_of_mem_set hother with hold | rfl
    · exact hsingle.own other hold
    · exact hsame.trans (hsingle.own task (List.mem_of_getElem? htask))
  · intro _
    apply hsingle.flagged
    intro hnone
    rw [hnone] at htask
    cases htask

theorem Host.Single.erase {index : Nat} {task : CertTask} (hsingle : host.Single)
    (htask : host.tasks[index]? = some task) : host.tasks.eraseIdx index = [] := by
  obtain ⟨hindex, _⟩ := List.getElem?_eq_some_iff.mp htask
  apply List.eq_nil_of_length_eq_zero
  rw [List.length_eraseIdx_of_lt hindex]
  exact Nat.sub_eq_zero_of_le hsingle.lone

theorem Host.Single.orders (hsingle : host.Single) :
    (host.tasks.filter CertTask.ordering).length ≤ 1 :=
  (List.length_filter_le _ _).trans hsingle.lone

structure Lived (host : Host) (daemon : Daemon) (event : Event) (host' : Host) : Prop where
  frame : ∃ key peers tasks, host' = { host with
      daemon := daemon
      key := key
      peers := peers
      tasks := tasks } ∧
    (key = host.key ∨ key = some ⟨host.era, daemon.pubkey⟩) ∧
    (peers = none ∨ peers = host.peers ∧ event ≠ .unenrolled) ∧
    (tasks = [] ∨ tasks = host.tasks)
  looped : event = .loggedOut → host.looping = true

theorem onLife_some {daemon : Daemon} {event : Event}
    (hlife : host.onLife daemon event = some host') (hgoes : event ≠ .cleared) :
    Lived host daemon event host' := by
  have hplain : host' = { host with daemon := daemon } → event ≠ .unenrolled →
      event ≠ .loggedOut → Lived host daemon event host' := by
    rintro rfl hother hstays
    exact ⟨⟨_, _, _, rfl, .inl rfl, .inr ⟨rfl, hother⟩, .inr rfl⟩, fun h => absurd h hstays⟩
  cases event with
  | cleared => exact absurd rfl hgoes
  | keyed fresh =>
      cases hlife
      refine ⟨⟨_, _, _, rfl, ?_, .inr ⟨rfl, nofun⟩, .inr rfl⟩, nofun⟩
      cases host.key with
      | none => exact .inr rfl
      | some key => exact .inl rfl
  | unenrolled =>
      cases hlife
      exact ⟨⟨_, _, _, rfl, .inl rfl, .inl rfl, .inr rfl⟩, nofun⟩
  | stopped =>
      cases hlife
      exact ⟨⟨_, _, _, rfl, .inl rfl, .inr ⟨rfl, nofun⟩, .inl rfl⟩, nofun⟩
  | loggedOut =>
      obtain ⟨hlooping, hsome⟩ := Option.ite_none_right_eq_some.mp hlife
      cases hsome
      exact ⟨⟨_, _, _, rfl, .inl rfl, .inr ⟨rfl, nofun⟩, .inr rfl⟩, fun _ => hlooping⟩
  | logout => exact hplain (Option.some.inj hlife).symm nofun nofun
  | attempted => exact hplain (Option.some.inj hlife).symm nofun nofun
  | registered deviceToken => exact hplain (Option.some.inj hlife).symm nofun nofun
  | passed => exact hplain (Option.some.inj hlife).symm nofun nofun

theorem onLife_cleared {daemon : Daemon} (hlife : host.onLife daemon .cleared = some host') :
    host.wiped = true ∧ host' = host.loggedOut daemon := by
  obtain ⟨hwiped, hsome⟩ := Option.ite_none_right_eq_some.mp hlife
  exact ⟨hwiped, (Option.some.inj hsome).symm⟩

theorem Host.Single.onLife {daemon : Daemon} {event : Event} (hsingle : host.Single)
    (hlife : host.onLife daemon event = some host')
    (hquiet : event = .cleared → host.tasks = []) : host'.Single := by
  by_cases hcleared : event = .cleared
  · subst hcleared
    rw [(onLife_cleared hlife).2]
    exact Host.Single.of_none (hquiet rfl)
  · obtain ⟨key, peers, tasks, rfl, _, _, htasks⟩ := (onLife_some hlife hcleared).frame
    rcases htasks with rfl | rfl
    · exact Host.Single.of_none rfl
    · exact hsingle.of_tasks rfl rfl rfl

theorem Host.Single.step (hsingle : host.Single) (hstep : host.step event = some host')
    (hquiet : event.completes = true → host.tasks = []) : host'.Single := by
  cases event with
  | life event =>
      obtain ⟨daemon, _, hlife⟩ := Option.bind_eq_some_iff.mp hstep
      refine hsingle.onLife hlife ?_
      rintro rfl
      exact hquiet rfl
  | applied snapshot =>
      obtain ⟨_, hsome⟩ := Option.ite_none_right_eq_some.mp hstep
      cases hsome
      refine (Host.Single.spawning ?_ snapshot).of_tasks rfl rfl rfl
      exact hsingle.of_tasks rfl rfl rfl
  | ticked snapshot =>
      obtain ⟨_, hsome⟩ := Option.ite_none_right_eq_some.mp hstep
      cases hsome
      exact hsingle.of_tasks rfl rfl rfl
  | announced pubkey services =>
      obtain ⟨_, hsome⟩ := Option.ite_none_right_eq_some.mp hstep
      cases hsome
      exact hsingle.of_tasks rfl rfl rfl
  | wiped =>
      obtain ⟨_, hsome⟩ := Option.ite_none_right_eq_some.mp hstep
      cases hsome
      exact hsingle.of_tasks rfl rfl rfl
  | did index outcome =>
      obtain ⟨task, htask, hdid⟩ := Option.bind_eq_some_iff.mp hstep
      exact hsingle.did htask (did_some hdid)
  | finished index =>
      obtain ⟨task, htask, hfinished⟩ := Option.bind_eq_some_iff.mp hstep
      rw [finished_some hfinished]
      exact Host.Single.of_none (hsingle.erase htask)

/-! What one step keeps of what is left, and of the zone. -/

theorem certs_since_none : Certs.Since era {} :=
  ⟨since_none, since_none, since_none, since_none⟩

theorem status_since_none : Status.Since era {} where
  shown := since_none
  routes := since_none
  services := by
    intro row hrow
    cases hrow
  cert := since_none

theorem heardAt_since (hbook : ∀ entry ∈ host.book, era ≤ entry.2.since) (seeds : List SeedPeer)
    (ip : Ipv4Addr) : ∀ heard ∈ host.heardAt seeds ip, era ≤ heard.since := by
  intro heard hheard
  unfold Host.heardAt at hheard
  obtain ⟨seed, _, hmem⟩ := List.mem_flatMap.mp hheard
  obtain ⟨entry, hentry, rfl⟩ := List.mem_map.mp hmem
  exact hbook entry (List.mem_filter.mp hentry).1

theorem serviceRow_since (hbook : ∀ entry ∈ host.book, era ≤ entry.2.since)
    (hservices : ∀ row ∈ host.status.services, ∀ heard ∈ row.2, era ≤ heard.since)
    (seeds : List SeedPeer) (ip : Ipv4Addr) :
    ∀ heard ∈ (host.serviceRow seeds ip).2, era ≤ heard.since := by
  intro heard hheard
  unfold Host.serviceRow at hheard
  dsimp only at hheard
  split at hheard
  · cases hfound : host.status.services.lookup ip with
    | none =>
        rw [hfound] at hheard
        cases hheard
    | some row =>
        rw [hfound] at hheard
        obtain ⟨before, after, hsplit, _⟩ := List.lookup_eq_some_iff.mp hfound
        refine hservices (ip, row) ?_ heard hheard
        rw [hsplit]
        simp
  · exact heardAt_since hbook seeds ip heard hheard

theorem heardSince_le (host : Host) : host.heardSince ≤ host.era := by
  have hfold : ∀ (book : List (PubKey × Heard)) since,
      book.foldl (fun since entry => min since entry.2.since) since ≤ since := by
    intro book
    induction book with
    | nil => exact fun since => Nat.le_refl since
    | cons entry rest ih =>
        intro since
        exact (ih _).trans (Nat.min_le_left _ _)
  exact hfold host.book host.era

theorem Host.Kept.reported (hkept : host.Kept) (snapshot : Snapshot) :
    (host.reported snapshot).status.Since host.era where
  shown := since_some.mpr (Nat.le_refl _)
  routes := since_some.mpr (Nat.le_refl _)
  services := by
    intro row hrow
    obtain ⟨seed, _, rfl⟩ := List.mem_map.mp hrow
    exact serviceRow_since hkept.book hkept.status.services _ _
  cert := by
    apply since_some.mpr
    show host.era ≤ host.status.cert.elim host.era fun left => min host.era left.since
    cases hcert : host.status.cert with
    | none => exact Nat.le_refl _
    | some left => exact le_min (Nat.le_refl _) (hkept.status.cert left hcert)

theorem spawning_frame (host : Host) (snapshot : Snapshot) :
    ∃ running tasks, host.spawning snapshot = { host with running := running, tasks := tasks } ∧
      ∀ task ∈ tasks, task ∈ host.tasks ∨ task.since = host.era := by
  unfold Host.spawning
  split
  · exact ⟨_, _, rfl, fun task htask => .inl htask⟩
  split
  · exact ⟨_, _, rfl, fun task htask => .inl htask⟩
  · refine ⟨_, _, rfl, fun task htask => ?_⟩
    rcases List.mem_append.mp htask with hold | hnew
    · exact .inl hold
    · obtain rfl := List.mem_singleton.mp hnew
      exact .inr rfl

theorem applied_frame (host : Host) (snapshot : Snapshot) :
    ∃ zone running tasks, host.applied snapshot =
      { host with
        looping := true
        zone := some zone
        peers := some ⟨host.era, snapshot.sets⟩
        book := (host.retained snapshot.seeds).book
        status := ((host.retained snapshot.seeds).reported snapshot).status
        running := running
        tasks := tasks } ∧ zone.since ≤ host.era ∧
      ∀ task ∈ tasks, task ∈ host.tasks ∨ task.since = host.era := by
  unfold Host.applied
  obtain ⟨running, tasks, hspawning, htasks⟩ :=
    spawning_frame (((host.retained snapshot.seeds).zoned snapshot).reported snapshot) snapshot
  rw [hspawning]
  exact ⟨_, running, tasks, rfl, heardSince_le (host.retained snapshot.seeds), htasks⟩

theorem Host.Kept.retained (hkept : host.Kept) (seeds : List SeedPeer) :
    (host.retained seeds).Kept :=
  { hkept with
    book := fun entry hentry => hkept.book entry (List.mem_filter.mp hentry).1
    bare := fun hwiped => by
      obtain ⟨hcerts, htasks, hbook⟩ := hkept.bare hwiped
      refine ⟨hcerts, htasks, ?_⟩
      unfold Host.retained
      rw [hbook]
      rfl }

theorem Host.Kept.applied (hkept : host.Kept) (hmeshed : host.daemon.phase = .meshed)
    (snapshot : Snapshot) : (host.applied snapshot).Kept := by
  have hretained := hkept.retained snapshot.seeds
  have hreported := hretained.reported snapshot
  obtain ⟨zone, running, tasks, happlied, _, htasks⟩ := applied_frame host snapshot
  have hunwiped : host.wiped ≠ true := by
    intro hwiped
    rcases hkept.ended hwiped with hphase | hphase
    · simp [hmeshed] at hphase
    · simp [hmeshed] at hphase
  rw [happlied]
  constructor
  · exact hkept.key
  · exact hkept.certs
  · exact hreported
  · exact since_some.mpr (Nat.le_refl _)
  · exact hretained.book
  · intro task htask
    rcases htasks task htask with hold | hnew
    · exact hkept.hand task hold
    · exact hnew.ge
  · intro htorn
    simp [hmeshed] at htorn
  · exact fun hwiped => absurd hwiped hunwiped
  · exact fun hwiped => absurd hwiped hunwiped

theorem Host.Kept.ticked (hkept : host.Kept) (snapshot : Snapshot) :
    (host.ticked snapshot).Kept :=
  { hkept with
    status := { hkept.status with
      services := by
        intro row hrow
        obtain ⟨old, _, rfl⟩ := List.mem_map.mp hrow
        exact serviceRow_since hkept.book hkept.status.services _ _ } }

theorem step_phases {d d' : Daemon} {event : Event} (hstep : d.step event = some d')
    (hgoes : event ≠ .cleared) :
    (d'.phase = .tornDown → event = .unenrolled ∨ d.phase = .tornDown) ∧
    (d'.phase = .tearingDown ∨ d'.phase = .tornDown →
      event = .loggedOut ∨ d.phase = .tearingDown ∨ d.phase = .tornDown) ∧
    (d.phase = .tornDown ∨ d.phase = .stopped → d'.phase = .tornDown ∨ d'.phase = .stopped) := by
  cases event <;> simp only [Daemon.step, Option.ite_none_left_eq_some,
    Option.ite_none_right_eq_some, Option.some.injEq, Option.map_eq_some_iff] at hstep
  case cleared => exact absurd rfl hgoes
  case loggedOut =>
    obtain ⟨hphase, logout, _, rfl⟩ := hstep
    simp [hphase]
  case logout =>
    obtain ⟨_, rfl⟩ := hstep
    simp
  case stopped =>
    obtain ⟨_, rfl⟩ := hstep
    simp
  all_goals
    obtain ⟨hphase, rfl⟩ := hstep
    simp [hphase, Daemon.keyed, Daemon.registered]

theorem Host.Kept.loggedOut {daemon : Daemon} (hkept : host.Kept) (hwiped : host.wiped = true)
    (hpeers : host.peers = none) (hphase : daemon.phase = .starting) :
    (host.loggedOut daemon).Kept := by
  obtain ⟨hcerts, htasks, hbook⟩ := hkept.bare hwiped
  constructor
  · exact since_none
  · show Certs.Since _ host.certs
    rw [hcerts]
    exact certs_since_none
  · exact status_since_none
  · show Since _ host.peers
    rw [hpeers]
    exact since_none
  · intro entry hentry
    simp [Host.loggedOut, hbook] at hentry
  · intro task htask
    simp [Host.loggedOut, htasks] at htask
  · intro htorn
    exact absurd (hphase.symm.trans htorn) nofun
  · nofun
  · nofun

theorem Host.Kept.lived {daemon : Daemon} {event : Event} (hkept : host.Kept)
    (hmoved : host.daemon.step event = some daemon) (hgoes : event ≠ .cleared)
    (hlived : Lived host daemon event host') : host'.Kept := by
  obtain ⟨htorn, _, hended⟩ := step_phases hmoved hgoes
  obtain ⟨key, peers, tasks, rfl, hkey, hpeers, htasks⟩ := hlived.frame
  constructor
  · rcases hkey with rfl | rfl
    · exact hkept.key
    · exact since_some.mpr (Nat.le_refl _)
  · exact hkept.certs
  · exact hkept.status
  · rcases hpeers with rfl | ⟨rfl, _⟩
    · exact since_none
    · exact hkept.peers
  · exact hkept.book
  · rcases htasks with rfl | rfl
    · nofun
    · exact hkept.hand
  · intro hphase
    rcases hpeers with rfl | ⟨rfl, hother⟩
    · rfl
    · rcases htorn hphase with heq | hold
      · exact absurd heq hother
      · exact hkept.torn hold
  · intro hwiped
    obtain ⟨hcerts, hnone, hbook⟩ := hkept.bare hwiped
    refine ⟨hcerts, ?_, hbook⟩
    rcases htasks with rfl | rfl
    · rfl
    · exact hnone
  · exact fun hwiped => hended (hkept.ended hwiped)

theorem step_cleared {d d' : Daemon} (hstep : d.step .cleared = some d') :
    d.phase = .tornDown ∧ d'.phase = .starting := by
  obtain ⟨hphase, hsome⟩ := Option.ite_none_right_eq_some.mp hstep
  cases hsome
  exact ⟨hphase, rfl⟩

theorem Host.Kept.did {index : Nat} {task : CertTask} (hkept : host.Kept)
    (htask : host.tasks[index]? = some task) (hdid : Did host index task host') :
    host'.Kept := by
  have hmem := List.mem_of_getElem? htask
  obtain ⟨certs, cert, next, _, rfl, hsince⟩ := hdid
  obtain ⟨hcerts, hcert, hnext⟩ := hsince host.era hkept.certs hkept.status.cert (hkept.hand _ hmem)
  have hbusy : host.wiped ≠ true := by
    intro hwiped
    rw [(hkept.bare hwiped).2.1] at hmem
    cases hmem
  constructor
  · exact hkept.key
  · exact hcerts
  · exact { hkept.status with cert := hcert }
  · exact hkept.peers
  · exact hkept.book
  · intro other hother
    rcases List.mem_or_eq_of_mem_set hother with hold | rfl
    · exact hkept.hand other hold
    · exact hnext
  · exact hkept.torn
  · exact fun hwiped => absurd hwiped hbusy
  · exact fun hwiped => absurd hwiped hbusy

theorem Host.Kept.step (hkept : host.Kept) (hstep : host.step event = some host')
    (hquiet : event.wipes = true → host.quiet = true) : host'.Kept := by
  cases event with
  | life event =>
      obtain ⟨daemon, hmoved, hlife⟩ := Option.bind_eq_some_iff.mp hstep
      by_cases hcleared : event = .cleared
      · subst hcleared
        obtain ⟨hwiped, rfl⟩ := onLife_cleared hlife
        obtain ⟨htorn, hphase⟩ := step_cleared hmoved
        exact hkept.loggedOut hwiped (hkept.torn htorn) hphase
      · exact hkept.lived hmoved hcleared (onLife_some hlife hcleared)
  | applied snapshot =>
      obtain ⟨hmeshed, hsome⟩ := Option.ite_none_right_eq_some.mp hstep
      cases hsome
      exact hkept.applied hmeshed snapshot
  | ticked snapshot =>
      obtain ⟨_, hsome⟩ := Option.ite_none_right_eq_some.mp hstep
      cases hsome
      exact hkept.ticked snapshot
  | announced pubkey services =>
      obtain ⟨⟨hmeshed, _⟩, hsome⟩ := Option.ite_none_right_eq_some.mp hstep
      cases hsome
      refine { hkept with book := ?_, bare := ?_ }
      · intro entry hentry
        rcases List.mem_cons.mp hentry with rfl | hold
        · exact Nat.le_refl _
        · exact hkept.book entry (List.mem_filter.mp hold).1
      · intro hwiped
        rcases hkept.ended hwiped with hphase | hphase
        · simp [hmeshed] at hphase
        · simp [hmeshed] at hphase
  | wiped =>
      obtain ⟨hphase, hsome⟩ := Option.ite_none_right_eq_some.mp hstep
      cases hsome
      have hquiet := hquiet rfl
      rw [Host.quiet, Bool.and_eq_true, List.isEmpty_iff, List.isEmpty_iff] at hquiet
      exact { hkept with
        certs := certs_since_none
        bare := fun _ => ⟨rfl, hquiet⟩
        ended := fun _ => .inl hphase }
  | did index outcome =>
      obtain ⟨task, htask, hdid⟩ := Option.bind_eq_some_iff.mp hstep
      exact hkept.did htask (did_some hdid)
  | finished index =>
      obtain ⟨task, htask, hfinished⟩ := Option.bind_eq_some_iff.mp hstep
      rw [finished_some hfinished]
      refine { hkept with hand := ?_, bare := ?_ }
      · exact fun other hother => hkept.hand other (List.mem_of_mem_eraseIdx hother)
      · intro hwiped
        obtain ⟨hcerts, hnone, hbook⟩ := hkept.bare hwiped
        refine ⟨hcerts, ?_, hbook⟩
        show host.tasks.eraseIdx index = []
        rw [hnone]
        rfl

theorem Host.Zoned.step (hzoned : host.Zoned) (hstep : host.step event = some host') :
    host'.Zoned := by
  cases event with
  | life event =>
      obtain ⟨daemon, hmoved, hlife⟩ := Option.bind_eq_some_iff.mp hstep
      by_cases hcleared : event = .cleared
      · subst hcleared
        obtain ⟨_, rfl⟩ := onLife_cleared hlife
        obtain ⟨_, hphase⟩ := step_cleared hmoved
        refine ⟨nofun, fun hgoing => ?_⟩
        have hstarting : (host.loggedOut daemon).daemon.phase = .starting := hphase
        simp [hstarting] at hgoing
      · obtain ⟨hframe, hlooped⟩ := onLife_some hlife hcleared
        obtain ⟨key, peers, tasks, rfl, _⟩ := hframe
        refine ⟨hzoned.named, fun hgoing => ?_⟩
        rcases (step_phases hmoved hcleared).2.1 hgoing with hended | hold
        · exact hlooped hended
        · exact hzoned.going hold
  | applied snapshot =>
      obtain ⟨_, hsome⟩ := Option.ite_none_right_eq_some.mp hstep
      cases hsome
      obtain ⟨zone, running, tasks, happlied, hzone, _⟩ := applied_frame host snapshot
      rw [happlied]
      exact ⟨fun _ => ⟨zone, rfl, hzone⟩, fun _ => rfl⟩
  | ticked snapshot =>
      obtain ⟨⟨_, hlooping⟩, hsome⟩ := Option.ite_none_right_eq_some.mp hstep
      cases hsome
      exact ⟨fun _ => ⟨_, rfl, heardSince_le host⟩, fun _ => hlooping⟩
  | announced pubkey services =>
      obtain ⟨_, hsome⟩ := Option.ite_none_right_eq_some.mp hstep
      cases hsome
      exact ⟨hzoned.named, hzoned.going⟩
  | wiped =>
      obtain ⟨_, hsome⟩ := Option.ite_none_right_eq_some.mp hstep
      cases hsome
      exact ⟨hzoned.named, hzoned.going⟩
  | did index outcome =>
      obtain ⟨task, _, hdid⟩ := Option.bind_eq_some_iff.mp hstep
      obtain ⟨certs, cert, next, _, rfl, _⟩ := did_some hdid
      exact ⟨hzoned.named, hzoned.going⟩
  | finished index =>
      obtain ⟨task, _, hfinished⟩ := Option.bind_eq_some_iff.mp hstep
      rw [finished_some hfinished]
      exact ⟨hzoned.named, hzoned.going⟩

theorem step_era (hstep : host.step event = some host') (hgoes : event.completes = false) :
    host'.era = host.era := by
  cases event with
  | life event =>
      obtain ⟨daemon, _, hlife⟩ := Option.bind_eq_some_iff.mp hstep
      obtain ⟨key, peers, tasks, rfl, _⟩ := (onLife_some hlife (by rintro rfl; cases hgoes)).frame
      rfl
  | applied snapshot =>
      obtain ⟨_, hsome⟩ := Option.ite_none_right_eq_some.mp hstep
      cases hsome
      obtain ⟨zone, running, tasks, happlied, _⟩ := applied_frame host snapshot
      rw [happlied]
  | ticked snapshot =>
      obtain ⟨_, hsome⟩ := Option.ite_none_right_eq_some.mp hstep
      cases hsome
      rfl
  | announced pubkey services =>
      obtain ⟨_, hsome⟩ := Option.ite_none_right_eq_some.mp hstep
      cases hsome
      rfl
  | wiped =>
      obtain ⟨_, hsome⟩ := Option.ite_none_right_eq_some.mp hstep
      cases hsome
      rfl
  | did index outcome =>
      obtain ⟨task, _, hdid⟩ := Option.bind_eq_some_iff.mp hstep
      obtain ⟨certs, cert, next, _, rfl, _⟩ := did_some hdid
      rfl
  | finished index =>
      obtain ⟨task, _, hfinished⟩ := Option.bind_eq_some_iff.mp hstep
      rw [finished_some hfinished]

/-! What a whole run keeps. -/

theorem completes_eq (hcompletes : event.completes = true) : event = .life .cleared := by
  unfold HostEvent.completes at hcompletes
  split at hcompletes
  · rfl
  · cases hcompletes

theorem start_kept (wgKey : Option PubKey) (tokenFile : Option String) (certs : Certs) :
    (Host.start wgKey tokenFile certs).Kept where
  key := fun _ _ => Nat.zero_le _
  certs := ⟨fun _ _ => Nat.zero_le _, fun _ _ => Nat.zero_le _, fun _ _ => Nat.zero_le _,
    fun _ _ => Nat.zero_le _⟩
  status := status_since_none
  peers := since_none
  book := nofun
  hand := nofun
  torn := fun _ => rfl
  bare := nofun
  ended := nofun

theorem start_zoned (wgKey : Option PubKey) (tokenFile : Option String) (certs : Certs) :
    (Host.start wgKey tokenFile certs).Zoned where
  named := nofun
  going := by
    rintro (hphase | hphase)
    · cases hphase
    · cases hphase

theorem clean_first (hsingle : host.Single) (hera : host.era = 0) :
    host.Clean ∧ host.ZoneClean := by
  have hsince : ∀ {α : Type} (kept : Option (Left α)), Since host.era kept := by
    intro α kept left _
    rw [hera]
    exact Nat.zero_le _
  have hbelow : ∀ since, host.era ≤ since := by
    intro since
    rw [hera]
    exact Nat.zero_le _
  refine ⟨?_, hsince _⟩
  constructor
  · exact hsince _
  · exact ⟨hsince _, hsince _, hsince _, hsince _⟩
  · exact ⟨hsince _, hsince _, fun _ _ heard _ => hbelow heard.since, hsince _⟩
  · exact hsince _
  · exact fun entry _ => hbelow entry.2.since
  · exact hsingle.orders

theorem Host.Kept.clean (hkept : host.Kept) (hsingle : host.Single) : host.Clean where
  key := hkept.key
  certs := hkept.certs
  status := hkept.status
  peers := hkept.peers
  book := hkept.book
  orders := hsingle.orders

theorem zone_left (hzoned : host.Zoned) {daemon : Daemon}
    (hmoved : host.daemon.step .cleared = some daemon) :
    ¬ (host.loggedOut daemon).ZoneClean := by
  intro hclean
  obtain ⟨left, hzone, hold⟩ := hzoned.named (hzoned.going (.inr (step_cleared hmoved).1))
  have hnew : host.era + 1 ≤ left.since := hclean left hzone
  omega

def certified (hostname : String) (wgIp : Ipv4Addr) : Snapshot where
  device :=
    { communityName := "lan"
      userId := 1
      username := "alice"
      networks := []
      wgIp := wgIp
      wgNet := ⟨0x64400000, 10⟩
      hostname := hostname
      isPrimary := false
      grantExpiresAt := 900
      primaryAlias := none
      networksStatus := []
      dnsDomain := some "mesh.example.com" }
  seeds := []
  exposed := true

def ordering (index : Nat) : List HostEvent :=
  [.did index {}, .did index {}, .did index {}, .did index {}, .did index {},
    .did index { credentials := "account" }, .did index {}, .did index {}]

def fulfilling (index : Nat) (key chain : String) : List HostEvent :=
  [.did index { pending := false }, .did index { leaf := ⟨key, chain, some 900⟩ },
    .did index {}, .did index {}]

def relogged : List HostEvent :=
  [.life .logout, .life .loggedOut, .life .unenrolled, .wiped, .life .cleared,
    .life (.keyed 8), .life (.registered (some "u"))]

/-- A first enrollment orders a certificate and is logged out of; the second orders its own. -/
def overtaken : List HostEvent :=
  [.life (.keyed 7), .life (.registered (some "t")),
    .applied (certified "laptop.alice.unity.internal" 0x64400001)] ++ ordering 0 ++ relogged ++
  [.applied (certified "tower.bob.unity.internal" 0x64400002)] ++ ordering 1 ++
  fulfilling 0 "the key of the laptop" "the certificate of the laptop"

end

end UnityLan.Engine
