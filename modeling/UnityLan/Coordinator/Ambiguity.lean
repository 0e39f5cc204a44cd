import UnityLan.Coordinator.Usernames

namespace UnityLan.Coordinator

open UnityLan.Foundation Prog

/-! Whether a response names every device unambiguously: what it says of two devices
comes from rows and builds of different moments. -/

def Conflicts (first second : Said) : Prop :=
  first.pubkey ≠ second.pubkey ∧
    (first.username = second.username ∧ first.deviceName = second.deviceName ∨
      first.userId = second.userId ∧ first.isPrimary = true ∧ second.isPrimary = true)

instance (first second : Said) : Decidable (Conflicts first second) :=
  inferInstanceAs (Decidable (_ ∧ _))

/-- No two devices of a response have one hostname, and no two of one user are primary. -/
def Unambiguous (resp : RegisterResp) : Prop :=
  ∀ first ∈ allAttested resp, ∀ second ∈ allAttested resp, first.wgPubkey ≠ second.wgPubkey →
    ¬ (first.username = second.username ∧ first.deviceName = second.deviceName) ∧
    ¬ (first.userId = second.userId ∧ first.isPrimary = true ∧ second.isPrimary = true)

instance (resp : RegisterResp) : Decidable (Unambiguous resp) :=
  inferInstanceAs (Decidable (∀ first ∈ allAttested resp, ∀ second ∈ allAttested resp, _ → _))

/-- What the builds under way have read, and what was answered. -/
structure Copies where
  telling : Table Nat Telling := ∅
  answered : List RegisterResp := []

namespace Copies

def follow (g : Copies) (task : Nat) (o : Op) (answer : o.Res) : Copies :=
  { g with telling := g.telling.modify task (·.next o answer) }

def gone (g : Copies) (task : Nat) : Copies :=
  { g with telling := g.telling.erase task }

def begin (g : Copies) (task : Nat) : Call → Copies
  | .register req _ => { g with telling := g.telling.insert task { pubkey := req.wgPubkey } }
  | _ => g

def answer (g : Copies) : Call → Except ApiError Reply → Copies
  | .register .., .ok (.registered resp) => { g with answered := resp :: g.answered }
  | _, _ => g

def all (g : Copies) (st : AppState) : List Said :=
  st.presence.map.values.map (fun entry => .ofRow entry.p) ++
    st.presence.selfMap.values.map (fun entry => .ofRow entry.p) ++
    g.telling.values.flatMap fun t => t.own.toList ++ t.seen

end Copies

variable (conf : Conf)

def copies : Machine.Observer (machine conf) Copies where
  see := fun g _ event _ =>
    match event with
    | .called task call => g.begin task call
    | .did task o answer => g.follow task o answer
    | .ended task call result => (g.answer call result).gone task
    | .dropped task _ => g.gone task
    | .moved _ => g

/-- When a build settles what it says of its device, nothing said of another device is in
its way. -/
def settlesClear (g : Copies) (st : AppState) (task : Nat) (o : Op) (answer : o.Res) : Bool :=
  match g.telling.get? task with
  | none => true
  | some t =>
      match t.own, (t.next o answer).own with
      | none, some said => (g.all st).all fun other => !decide (Conflicts said other)
      | _, _ => true

def hitsUser (st : AppState) : Op → Bool
  | .signing (.fresh guild id now attSchema) =>
      (st.signing.fresh (signCacheReuseSecs conf.attestationTtl) guild id now attSchema).all
        fun blob => (attested blob).userId == id.userId
  | _ => true

def settlesNames (g : Copies) (st : AppState) : (machine conf).Event → Bool
  | .did task o answer => settlesClear g st task o answer && hitsUser conf st o
  | _ => true

inductive Copy (g : Copies) (st : AppState) (said : Said) : Prop
  | row {place : Place} {pubkey : PubKey} {p : MemberPresence}
      (found : st.presence.rowAt place pubkey = some p) (same : Said.ofRow p = said)
  | own {task : Nat} {t : Telling} (found : g.telling.get? task = some t)
      (own : t.own = some said)
  | seen {task : Nat} {t : Telling} (found : g.telling.get? task = some t)
      (seen : said ∈ t.seen)

structure CopiesInv (g : Copies) (st : AppState)
    (views : Nat → Option (Call × Option Telling)) : Prop where
  faithful : CacheFaithful st.signing
  mirrors : Machine.Mirrors g.telling views
  clear : ∀ first second, Copy g st first → Copy g st second → ¬ Conflicts first second
  answered : ∀ resp ∈ g.answered, Unambiguous resp

section

variable {conf} {g g' : Copies} {st st' : AppState} {task : Nat} {call : Call} {choice : Choice}
  {views : Nat → Option (Call × Option Telling)} {m : Option Telling} {o : Op} {answer : o.Res}
  {said first second : Said}

theorem answer_telling (result : Except ApiError Reply) :
    (g.answer call result).telling = g.telling := by
  unfold Copies.answer
  split <;> rfl

theorem not_conflicts_self : ¬ Conflicts said said :=
  fun hconflicts => hconflicts.1 rfl

theorem Conflicts.symm (hconflicts : Conflicts first second) : Conflicts second first :=
  ⟨hconflicts.1.symm, hconflicts.2.imp (fun hname => ⟨hname.1.symm, hname.2.symm⟩)
    fun hprimary => ⟨hprimary.1.symm, hprimary.2.2, hprimary.2.1⟩⟩

theorem Copy.mem_all (hcopy : Copy g st said) : said ∈ g.all st := by
  unfold Copies.all
  cases hcopy with
  | @row place pubkey p hfound hsame =>
      subst hsame
      cases place with
      | network guild role =>
          obtain ⟨entry, hentry, rfl⟩ := Option.map_eq_some_iff.mp hfound
          refine List.mem_append_left _ (List.mem_append_left _ ?_)
          exact List.mem_map.mpr ⟨entry, Table.mem_values.mpr ⟨_, hentry⟩, rfl⟩
      | own user =>
          obtain ⟨entry, hentry, rfl⟩ := Option.map_eq_some_iff.mp hfound
          refine List.mem_append_left _ (List.mem_append_right _ ?_)
          exact List.mem_map.mpr ⟨entry, Table.mem_values.mpr ⟨_, hentry⟩, rfl⟩
  | own hfound hown =>
      refine List.mem_append_right _ (List.mem_flatMap.mpr
        ⟨_, Table.mem_values.mpr ⟨_, hfound⟩, ?_⟩)
      simp [hown]
  | seen hfound hseen =>
      refine List.mem_append_right _ (List.mem_flatMap.mpr
        ⟨_, Table.mem_values.mpr ⟨_, hfound⟩, ?_⟩)
      exact List.mem_append_right _ hseen

theorem own_next {t : Telling} (hown : (t.next o answer).own = some said) :
    t.own = some said ∨ t.own = none := by
  cases hbefore : t.own with
  | none => exact .inr rfl
  | some before =>
      left
      by_cases ho : Telling.Resets o
      · unfold Telling.Resets at ho
        split at ho
        · cases hown
        · cases hown
        · exact ho.elim
      · exact ((Telling.next_grows ho answer).own before hbefore).symm.trans hown

def rowsRead : (o : Op) → o.Res → List MemberPresence
  | .presence (.othersIn ..), rows => rows
  | .presence (.othersOfUser ..), rows => rows
  | _, _ => []

theorem ran_seen {t : Telling} (q : Query) (result : q.Res) : (t.ran q result).seen = t.seen := by
  unfold Telling.ran
  split
  · split <;> rfl
  · split <;> rfl
  · split <;> rfl
  all_goals rfl

theorem seen_next {t : Telling} (hseen : said ∈ (t.next o answer).seen) :
    said ∈ t.seen ∨ ∃ p ∈ rowsRead o answer, Said.ofRow p = said := by
  unfold Telling.next at hseen
  split at hseen
  · cases hseen
  · cases hseen
  · rw [ran_seen] at hseen
    exact .inl hseen
  · exact .inl hseen
  · exact .inl hseen
  · exact (List.mem_append.mp hseen).imp_right List.mem_map.mp
  · exact (List.mem_append.mp hseen).imp_right List.mem_map.mp
  · exact .inl hseen

theorem rowsRead_found {p : MemberPresence}
    (hexec : AppState.exec conf task o choice st = some (answer, st'))
    (hmem : p ∈ rowsRead o answer) : ∃ place pubkey, st.presence.rowAt place pubkey = some p := by
  unfold rowsRead at hmem
  split at hmem
  · rename_i guild role exclude rows
    have hrows : rows = st.presence.othersAt (.network guild role) exclude :=
      (congrArg Prod.fst (AppState.exec_presence hexec)).symm
    rw [hrows] at hmem
    obtain ⟨pubkey, _, hrow⟩ := Presence.mem_othersAt.mp hmem
    exact ⟨_, pubkey, hrow⟩
  · rename_i user exclude rows
    have hrows : rows = st.presence.othersAt (.own user) exclude :=
      (congrArg Prod.fst (AppState.exec_presence hexec)).symm
    rw [hrows] at hmem
    obtain ⟨pubkey, _, hrow⟩ := Presence.mem_othersAt.mp hmem
    exact ⟨_, pubkey, hrow⟩
  · cases hmem

theorem written_own {p : Presence.Op} {row : MemberPresence}
    (hallows : tellings.allows m (.presence p)) (hwritten : p.written = some row) :
    ∃ t, m = some t ∧ t.own = some (.ofRow row) := by
  unfold Presence.Op.written at hwritten
  split at hwritten
  · cases hwritten
    cases m with
    | none => exact hallows.elim
    | some t => exact ⟨t, rfl, hallows.1⟩
  · cases hwritten
    cases m with
    | none => exact hallows.elim
    | some t => exact ⟨t, rfl, hallows.1⟩
  · cases hwritten

theorem Copy.source (hmirrors : Machine.Mirrors g.telling views)
    (hview : views task = some (call, m)) (hallows : tellings.allows m o)
    (hexec : AppState.exec conf task o choice st = some (answer, st'))
    (htelling : g'.telling = g.telling.modify task (·.next o answer)) (hcopy : Copy g' st' said) :
    Copy g st said ∨
      ∃ t, g.telling.get? task = some t ∧ t.own = none ∧ (t.next o answer).own = some said := by
  have htold : ∀ {other t'}, g'.telling.get? other = some t' →
      g.telling.get? other = some t' ∨
        ∃ t, other = task ∧ g.telling.get? task = some t ∧ t' = t.next o answer := by
    intro other t' hother
    rw [htelling, Table.get?_modify] at hother
    split at hother
    · rename_i hsame
      obtain ⟨t, ht, rfl⟩ := Option.map_eq_some_iff.mp hother
      exact .inr ⟨t, hsame, ht, rfl⟩
    · exact .inl hother
  cases hcopy with
  | @row place pubkey p hfound hsame =>
      left
      by_cases hpresence : ∃ p, o = .presence p
      · obtain ⟨p, rfl⟩ := hpresence
        have hafter : st'.presence = (st.presence.step p).2 :=
          (congrArg Prod.snd (AppState.exec_presence hexec)).symm
        rw [hafter] at hfound
        rcases Presence.rowAt_source hfound with hbefore | hwritten
        · exact .row hbefore hsame
        · obtain ⟨t, rfl, hown⟩ := written_own hallows hwritten
          exact .own (hmirrors.followed hview) (hsame ▸ hown)
      · rw [(AppState.exec_frame hexec).presence fun p hp => hpresence ⟨p, hp⟩] at hfound
        exact .row hfound hsame
  | @own other t' hfound hown =>
      rcases htold hfound with hbefore | ⟨t, rfl, ht, rfl⟩
      · exact .inl (.own hbefore hown)
      · rcases own_next hown with hsettled | hopen
        · exact .inl (.own ht hsettled)
        · exact .inr ⟨t, ht, hopen, hown⟩
  | @seen other t' hfound hseen =>
      left
      rcases htold hfound with hbefore | ⟨t, rfl, ht, rfl⟩
      · exact .seen hbefore hseen
      · rcases seen_next hseen with hseen | ⟨p, hp, hsame⟩
        · exact .seen ht hseen
        · obtain ⟨place, pubkey, hrow⟩ := rowsRead_found hexec hp
          exact .row hrow hsame

theorem CopiesInv.clear_of_old (hinv : CopiesInv g st views)
    (hold : ∀ said, Copy g' st' said → Copy g st said) :
    ∀ first second, Copy g' st' first → Copy g' st' second → ¬ Conflicts first second :=
  fun first second hfirst hsecond =>
    hinv.clear first second (hold first hfirst) (hold second hsecond)

theorem CopiesInv.did (hinv : CopiesInv g st views) (hview : views task = some (call, m))
    (hallows : tellings.allows m o)
    (hexec : AppState.exec conf task o choice st = some (answer, st'))
    (hallowed : settlesNames conf g st (.did task o answer) = true) :
    CopiesInv ((copies conf).see g st (.did task o answer) st') st'
      (Function.update views task (some (call, tellings.next m o answer))) := by
  obtain ⟨hclear, _⟩ := (Bool.and_eq_true _ _).mp hallowed
  have hsource : ∀ said, Copy ((copies conf).see g st (.did task o answer) st') st' said → _ :=
    fun said hcopy => hcopy.source hinv.mirrors hview hallows hexec rfl
  -- what has just been settled is in nobody's way
  have hsettled : ∀ t said other, g.telling.get? task = some t → t.own = none →
      (t.next o answer).own = some said → Copy g st other → ¬ Conflicts said other := by
    intro t said other ht hopen hown hother
    simp only [settlesClear, ht, hopen, hown] at hclear
    simpa using List.all_eq_true.mp hclear other hother.mem_all
  refine ⟨hinv.faithful.step hallows hexec, hinv.mirrors.follow hview _, ?_, hinv.answered⟩
  intro first second hfirst hsecond
  rcases hsource first hfirst with hfirst | ⟨t, ht, hopen, hown⟩
  · rcases hsource second hsecond with hsecond | ⟨t, ht, hopen, hown⟩
    · exact hinv.clear first second hfirst hsecond
    · exact fun hconflicts => hsettled t second first ht hopen hown hfirst hconflicts.symm
  · rcases hsource second hsecond with hsecond | ⟨t', ht', hopen', hown'⟩
    · exact hsettled t first second ht hopen hown hsecond
    · rw [ht, Option.some.injEq] at ht'
      subst ht'
      rw [hown, Option.some.injEq] at hown'
      rw [← hown']
      exact not_conflicts_self

theorem CopiesInv.expects (hinv : CopiesInv g st views)
    (hexec : AppState.exec conf task o choice st = some (answer, st'))
    (hallowed : settlesNames conf g st (.did task o answer) = true) :
    tellings.expects m o answer := by
  have huser : hitsUser conf st o = true := ((Bool.and_eq_true _ _).mp hallowed).2
  cases m with
  | none => trivial
  | some t =>
      show Telling.expects t o answer
      unfold Telling.expects
      split
      · rename_i guild id now attSchema blob
        have hhit : st.signing.fresh (signCacheReuseSecs conf.attestationTtl) guild id now
            attSchema = some blob := congrArg Prod.fst (AppState.exec_signing hexec)
        simp only [hitsUser, hhit, Option.all_some, beq_iff_eq] at huser
        exact hinv.faithful.hit hhit huser
      · trivial

theorem Copy.of_subset (hpresence : st'.presence = st.presence)
    (htelling : ∀ task t, g'.telling.get? task = some t →
      g.telling.get? task = some t ∨ t.own = none ∧ t.seen = [])
    (hcopy : Copy g' st' said) : Copy g st said := by
  cases hcopy with
  | row hfound hsame => exact .row (hpresence ▸ hfound) hsame
  | own hfound hown =>
      rcases htelling _ _ hfound with hbefore | ⟨hnone, _⟩
      · exact .own hbefore hown
      · rw [hnone] at hown
        cases hown
  | seen hfound hseen =>
      rcases htelling _ _ hfound with hbefore | ⟨_, hempty⟩
      · exact .seen hbefore hseen
      · rw [hempty] at hseen
        cases hseen

theorem CopiesInv.called (hinv : CopiesInv g st views) (hfree : views task = none) :
    CopiesInv ((copies conf).see g st (.called task call) st) st
      (Function.update views task (some (call, tellingOf call))) := by
  have hside : tellingOf call = none → CopiesInv g st
      (Function.update views task (some (call, tellingOf call))) := by
    intro hnone
    refine ⟨hinv.faithful, ?_, hinv.clear, hinv.answered⟩
    rw [hnone]
    exact hinv.mirrors.ignore hfree
  cases call with
  | register req callerIp =>
      refine ⟨hinv.faithful, hinv.mirrors.begin _, ?_, hinv.answered⟩
      apply hinv.clear_of_old
      intro said hcopy
      refine hcopy.of_subset rfl fun other t hother => ?_
      simp only [copies, Copies.begin, Table.get?_insert] at hother
      split at hother
      · cases hother
        exact .inr ⟨rfl, rfl⟩
      · exact .inl hother
  | _ => exact hside rfl

theorem CopiesInv.gone (hinv : CopiesInv g st views)
    (htelling : g'.telling = g.telling.erase task)
    (hanswered : ∀ resp ∈ g'.answered, Unambiguous resp) :
    CopiesInv g' (AppState.release task st) (Function.update views task none) := by
  have hpresence : (AppState.release task st).presence = st.presence := rfl
  refine ⟨hinv.faithful, htelling ▸ hinv.mirrors.forget, ?_, hanswered⟩
  apply hinv.clear_of_old
  intro said hcopy
  refine hcopy.of_subset hpresence fun other t hother => ?_
  rw [htelling, Table.get?_erase] at hother
  split at hother
  · cases hother
  · exact .inl hother

theorem CopiesInv.unambiguous {t : Telling} {resp : RegisterResp} (hinv : CopiesInv g st views)
    (hview : views task = some (call, some t))
    (hvouched : ∀ att ∈ allAttested resp, t.Vouches att) : Unambiguous resp := by
  have htelling := hinv.mirrors.followed hview
  have hcopy : ∀ att ∈ allAttested resp, Copy g st (.ofAttestation att) := by
    intro att hatt
    rcases (hvouched att hatt).2 with hown | hseen
    · exact .own htelling hown
    · exact .seen htelling hseen
  intro first hfirst second hsecond hother
  have hclear := hinv.clear _ _ (hcopy first hfirst) (hcopy second hsecond)
  exact ⟨fun hname => hclear ⟨hother, .inl hname⟩, fun hprimary => hclear ⟨hother, .inr hprimary⟩⟩

theorem CopiesInv.ended {result : Except ApiError Reply} (hinv : CopiesInv g st views)
    (hview : views task = some (call, m)) (hpost : toldPost call m result) :
    CopiesInv ((copies conf).see g st (.ended task call result) (AppState.release task st))
      (AppState.release task st) (Function.update views task none) := by
  apply hinv.gone
  · show (Copies.answer _ call result).telling.erase task = _
    rw [answer_telling]
  · show ∀ resp ∈ (Copies.answer _ call result).answered, Unambiguous resp
    unfold Copies.answer
    split
    · rename_i resp
      obtain ⟨t, rfl, hvouched⟩ := hpost
      intro other hother
      rcases List.mem_cons.mp hother with rfl | hother
      · exact hinv.unambiguous hview hvouched
      · exact hinv.answered other hother
    · exact hinv.answered

theorem CopiesInv.moved {world : World} (hinv : CopiesInv g st views)
    (hmove : AppState.move world st = some st') : CopiesInv g st' views := by
  have hfaithful : CacheFaithful st'.signing :=
    (AppState.move_untouched hmove).signing ▸ hinv.faithful
  refine ⟨hfaithful, hinv.mirrors, ?_, hinv.answered⟩
  apply hinv.clear_of_old
  intro said hcopy
  exact hcopy.of_subset (AppState.move_untouched hmove).presence fun _ _ h => .inl h

end

def copiesDiscipline :
    Machine.Discipline (machine conf) (copies conf) (Machine.passes (settlesNames conf))
      (Option Telling) where
  mon := tellings
  opening := fun _ _ call => tellingOf call
  post := fun call m result => toldPost call m result
  inv := fun g st views => CopiesInv g st views
  conforms := fun _ _ call => handle_tells conf call
  called := fun hinv hfree _ => hinv.called hfree
  did := fun hinv hview hallows hexec hallowed =>
    ⟨hinv.expects hexec hallowed, hinv.did hview hallows hexec hallowed⟩
  ended := fun hinv hview hpost _ => hinv.ended hview hpost
  dropped := fun hinv _ _ => hinv.gone rfl hinv.answered
  moved := fun hinv hmove _ => hinv.moved hmove

/-- User 1 has logged in two devices. -/
def twoDevices : AppState where
  db :=
    { oauthAuthorized := ((∅ : Table _ _).insert 1 ⟨1, 0⟩).insert 2 ⟨1, 0⟩
      userHandles := (∅ : Table _ _).insert 1 "ann" }

open Script in
def firstRegisters : Script Conf.small :=
  call (.register (personalDevice 1 "pc") (.v4 0)) ++ steps 0 28 (.text "token") ++
    steps 0 23 (.key 99)

open Script in
def bothRegister : Script Conf.small :=
  firstRegisters ++ call (.register (personalDevice 2 "pc") (.v4 0)) ++ steps 1 51 (.text "other")

open Script in
def nameHandedOn : Script Conf.small :=
  firstRegisters ++ call (.manage ⟨"token", .rename "laptop"⟩) ++ steps 1 6 .go ++
    call (.register (personalDevice 2 "pc") (.v4 0)) ++ steps 2 51 (.text "other")

end UnityLan.Coordinator
