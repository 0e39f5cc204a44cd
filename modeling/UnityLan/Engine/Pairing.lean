import UnityLan.Engine.Issuing

namespace UnityLan.Engine.Cert

open UnityLan.Foundation Prog

/-! Whether the certificate on disk is the one that the record names, with its key. -/

/-- What the CA issued, and what the reconcile under way has done. -/
structure Deeds where
  busy : Bool := false
  /-- It looked at the time for the first time, and the record was live then. -/
  looked : Bool := false
  live : Bool := false
  ordered : List String := []
  issued : List (Leaf × List String) := []
  /-- It changed the certificate or the key, and has not recorded that. -/
  touched : Bool := false
  /-- It could not write one of them. -/
  gaveUp : Bool := false

def IssuedState.liveAt (state : IssuedState) (now : Nat) : Bool :=
  state.names.isSome && now < state.expiresAt

namespace Deeds

variable (g : Deeds)

def did (s s' : Certs) : (o : CertOp) → o.Answer → Deeds
  | .now, _ =>
      if g.looked then g else { g with looked := true, live := (s.record.readOr {}).liveAt s.clock }
  | .newOrder ordered, _ => { g with ordered := ordered }
  | .finalize, .ok leaf => { g with issued := (leaf, g.ordered) :: g.issued }
  | .writeCert _, answer =>
      { g with touched := g.touched || s'.cert != s.cert, gaveUp := g.gaveUp || !answer.isOk }
  | .writeKey _, answer =>
      { g with touched := g.touched || s'.key != s.key, gaveUp := g.gaveUp || !answer.isOk }
  -- a failure is recorded with the number of failures
  | .saveState state, answer => { g with touched :=
    g.touched && !(answer.isOk && state.failures == 0) }
  | _, _ => g

end Deeds

def deeds : issuing.Observer Deeds where
  see g s event s' :=
    match event with
    | .called _ _ => { ordered := g.ordered, issued := g.issued, busy := true }
    | .did _ o answer => g.did s s' o answer
    | .ended _ _ _ | .dropped _ _ => { g with busy := false }
    | .moved _ => g

/-- One reconcile at a time. -/
def singly (g : Deeds) (_ : Certs) : issuing.Event → Bool
  | .called _ _ => !g.busy
  | _ => true

/-- No reconcile ends, or is killed, over a live record when it has changed the certificate or the key
and has not recorded that; nor where the record was live when it looked, and it has given up since. -/
def paired (g : Deeds) (s : Certs) (event : issuing.Event) : Bool :=
  singly g s event &&
    match event with
    | .dropped _ _ => !(g.touched && (s.record.readOr {}).liveAt s.clock)
    | .ended _ _ _ =>
        !(g.touched && ((s.record.readOr {}).liveAt s.clock || g.live && g.gaveUp))
    | _ => true

def Matches (g : Deeds) (s : Certs) (names : List String) (expiresAt : Nat) : Prop :=
  ∃ leaf, (leaf, names) ∈ g.issued ∧ s.cert = .holding leaf.chain ∧ s.key = .holding leaf.key ∧
    leaf.notAfter = some expiresAt

/-- Of what a record names, while it is alive. -/
def Stands (g : Deeds) (s : Certs) (state : IssuedState) : Prop :=
  ∀ names, state.names = some names → s.clock < state.expiresAt →
    Matches g s names.all state.expiresAt

/-- What is published can be loaded. -/
def Publishes (g : Deeds) (s : Certs) (stateDir : String) (status : CertStatus) : Prop :=
  status.certPath.isSome = true →
    status.certPath = some (certPath stateDir) ∧ status.keyPath = some (keyPath stateDir) ∧
      Matches g s status.names status.expiresAt

/-! What holds in each phase of a reconcile. -/

structure Kept (g : Deeds) (s : Certs) (state : IssuedState) (live : Bool) : Prop where
  record : g.touched = false → Stands g s (s.record.readOr {})
  believed : g.touched = false → Stands g s state
  shown : g.touched = false → live = true → ∀ names, state.names = some names →
    Matches g s names.all state.expiresAt
  live : live = true → g.looked = true ∧ g.live = true

structure Clean (g : Deeds) (s : Certs) (state : IssuedState) (live : Bool) : Prop where
  kept : Kept g s state live
  untouched : g.touched = false
  wrote : g.gaveUp = false

def Deeds.Fits (g : Deeds) (s : Certs) : Phase → Prop
  | .starting =>
      Stands g s (s.record.readOr {}) ∧ g.looked = false ∧ g.touched = false ∧ g.gaveUp = false
  | .read state =>
      s.record.readOr {} = state ∧ state.names.isSome = true ∧ Stands g s state ∧
        g.looked = false ∧ g.touched = false ∧ g.gaveUp = false
  | .shown state live | .stamped state live | .ready state live | .ordering state live _ =>
      Clean g s state live
  | .ordered state live names => Clean g s state live ∧ g.ordered = names.all
  | .obtained state live names leaf notAfter =>
      Clean g s state live ∧ (leaf, names.all) ∈ g.issued ∧ leaf.notAfter = some notAfter
  | .placed state live names leaf notAfter =>
      Kept g s state live ∧ g.gaveUp = false ∧ (leaf, names.all) ∈ g.issued ∧
        leaf.notAfter = some notAfter ∧ s.cert = .holding leaf.chain
  | .paired names _ notAfter =>
      (g.touched = false → Stands g s (s.record.readOr {})) ∧ g.gaveUp = false ∧
        Matches g s names.all notAfter
  | .failed state live => Kept g s state live ∧ (g.touched = true → g.gaveUp = true)
  | .failing state live =>
      Kept g s state live ∧ (g.touched = true → g.gaveUp = true) ∧ state.failures ≠ 0
  | .finished shown =>
      (g.touched = false → Stands g s (s.record.readOr {})) ∧
        ∀ names expiresAt, shown = some (names, expiresAt) →
          (g.touched && (g.live && g.gaveUp)) = false → Matches g s names.all expiresAt

section

variable {g g' : Deeds} {s s' : Certs} {state state' : IssuedState} {r : Reconcile} {live : Bool}
  {choice : CertChoice} {o : CertOp} {answer : o.Answer} {phase : Phase} {names : CertNames}

theorem Matches.congr {covered : List String} {expiresAt : Nat}
    (hmatches : Matches g s covered expiresAt) (hissued : g.issued ⊆ g'.issued)
    (hcert : s'.cert = s.cert) (hkey : s'.key = s.key) : Matches g' s' covered expiresAt := by
  obtain ⟨leaf, hmem, hchain, hprivate, hexpires⟩ := hmatches
  exact ⟨leaf, hissued hmem, hcert.trans hchain, hkey.trans hprivate, hexpires⟩

theorem Stands.congr (hstands : Stands g s state) (hissued : g.issued ⊆ g'.issued)
    (hcert : s'.cert = s.cert) (hkey : s'.key = s.key) (hclock : s.clock ≤ s'.clock)
    (hnames : state'.names = state.names) (hexpires : state'.expiresAt = state.expiresAt) :
    Stands g' s' state' := by
  intro names hsome hlive
  rw [hexpires] at hlive ⊢
  exact (hstands names (hnames ▸ hsome) (by omega)).congr hissued hcert hkey

theorem stands_default : Stands g s {} := by
  intro names hsome
  cases hsome

theorem Kept.congr (hkept : Kept g s state live) (hissued : g.issued ⊆ g'.issued)
    (htouched : g'.touched = g.touched)
    (hlive : live = true → g.looked = true ∧ g.live = true → g'.looked = true ∧ g'.live = true)
    (hrecord : s'.record = s.record) (hcert : s'.cert = s.cert) (hkey : s'.key = s.key)
    (hclock : s.clock ≤ s'.clock) (hnames : state'.names = state.names)
    (hexpires : state'.expiresAt = state.expiresAt) : Kept g' s' state' live where
  record := by
    rw [htouched, hrecord]
    exact fun huntouched => (hkept.record huntouched).congr hissued hcert hkey hclock rfl rfl
  believed := by
    rw [htouched]
    exact fun huntouched => (hkept.believed huntouched).congr hissued hcert hkey hclock hnames
      hexpires
  shown := by
    rw [htouched, hnames, hexpires]
    exact fun huntouched hshown names hsome =>
      (hkept.shown huntouched hshown names hsome).congr hissued hcert hkey
  live := fun hshown => hlive hshown (hkept.live hshown)

theorem Kept.saved (hkept : Kept g s state live) (hissued : g.issued ⊆ g'.issued)
    (htouched : g'.touched = g.touched)
    (hlooked : g'.looked = g.looked) (hlive : g'.live = g.live) (fault : Option Fault) :
    Kept g' { s with record := (s.record.write fault state).2 } state live where
  record := by
    rw [htouched]
    intro huntouched
    cases fault with
    | none => exact (hkept.believed huntouched).congr hissued rfl rfl (Nat.le_refl _) rfl rfl
    | some fault =>
        cases fault with
        | refused => exact (hkept.record huntouched).congr hissued rfl rfl (Nat.le_refl _) rfl rfl
        | torn => exact stands_default
  believed := by
    rw [htouched]
    exact fun huntouched =>
      (hkept.believed huntouched).congr hissued rfl rfl (Nat.le_refl _) rfl rfl
  shown := by
    rw [htouched]
    exact fun huntouched hshown names hsome =>
      (hkept.shown huntouched hshown names hsome).congr hissued rfl rfl
  live := by
    rw [hlooked, hlive]
    exact hkept.live

theorem Kept.shows (hkept : Kept g s state live) (huntouched : g.touched = false)
    {expiresAt : Nat} (hshows : Phase.shows state live = some (names, expiresAt)) :
    Matches g s names.all expiresAt := by
  unfold Phase.shows at hshows
  split at hshows
  · rename_i hlive
    obtain ⟨held, hheld, heq⟩ := Option.map_eq_some_iff.mp hshows
    obtain ⟨rfl, rfl⟩ := Prod.mk.inj heq
    exact hkept.shown huntouched hlive held hheld
  · cases hshows

theorem Clean.looked (hstands : Stands g s (s.record.readOr {})) (huntouched : g.touched = false)
    (hwrote : g.gaveUp = false) (hsame : s.record.readOr {} = state)
    (hshown : live = true → ∀ names, state.names = some names → s.clock < state.expiresAt)
    (hissued : g.issued ⊆ g'.issued) (htouched : g'.touched = g.touched)
    (hgave : g'.gaveUp = g.gaveUp) (hlive : live = true → g'.looked = true ∧ g'.live = true) :
    Clean g' s state live := by
  have hsame' : Stands g' s (s.record.readOr {}) :=
    hstands.congr hissued rfl rfl (Nat.le_refl _) rfl rfl
  refine ⟨⟨fun _ => hsame', fun _ => hsame ▸ hsame', fun _ hlit names hsome => ?_, hlive⟩,
    htouched.trans huntouched, hgave.trans hwrote⟩
  exact (hsame ▸ hsame' : Stands g' s state) names hsome (hshown hlit names hsome)

theorem Clean.congr (hclean : Clean g s state live) (hissued : g.issued ⊆ g'.issued)
    (htouched : g'.touched = g.touched) (hgave : g'.gaveUp = g.gaveUp)
    (hlive : live = true → g.looked = true ∧ g.live = true → g'.looked = true ∧ g'.live = true)
    (hrecord : s'.record = s.record) (hcert : s'.cert = s.cert) (hkey : s'.key = s.key)
    (hclock : s.clock ≤ s'.clock) (hnames : state'.names = state.names)
    (hexpires : state'.expiresAt = state.expiresAt) : Clean g' s' state' live :=
  ⟨hclean.kept.congr hissued htouched hlive hrecord hcert hkey hclock hnames hexpires,
    htouched.trans hclean.untouched, hgave.trans hclean.wrote⟩

theorem Deeds.did_now : (g.did s s .now s.clock).issued = g.issued ∧
    (g.did s s .now s.clock).touched = g.touched ∧
      (g.did s s .now s.clock).gaveUp = g.gaveUp ∧
        (g.looked = true ∧ g.live = true → (g.did s s .now s.clock).looked = true ∧
          (g.did s s .now s.clock).live = true) := by
  unfold Deeds.did
  dsimp only
  split
  · exact ⟨rfl, rfl, rfl, id⟩
  · rename_i hnot
    exact ⟨rfl, rfl, rfl, fun hlooked => absurd hlooked.1 hnot⟩

theorem Kept.now (hkept : Kept g s state live) (hnames : state'.names = state.names)
    (hexpires : state'.expiresAt = state.expiresAt) :
    Kept (g.did s s .now s.clock) s state' live :=
  hkept.congr (Deeds.did_now.1 ▸ fun _ => id) Deeds.did_now.2.1 (fun _ => Deeds.did_now.2.2.2) rfl
    rfl
    rfl (Nat.le_refl _) hnames hexpires

theorem Clean.now (hclean : Clean g s state live) (hnames : state'.names = state.names)
    (hexpires : state'.expiresAt = state.expiresAt) :
    Clean (g.did s s .now s.clock) s state' live :=
  ⟨hclean.kept.now hnames hexpires, Deeds.did_now.2.1.trans hclean.untouched,
    Deeds.did_now.2.2.1.trans hclean.wrote⟩

theorem exec_quiet (names : CertNames) (hquiet : o.prepares names ∨ o.fulfils)
    (hexec : s.exec choice o = some (answer, s')) :
    s'.record = s.record ∧ s'.cert = s.cert ∧ s'.key = s.key ∧ s'.clock = s.clock := by
  cases o with
  | loadAccount =>
      unfold Certs.exec at hexec
      dsimp only at hexec
      split at hexec <;> cases hexec <;> exact ⟨rfl, rfl, rfl, rfl⟩
  | restoreAccount | createAccount | saveAccount | newOrder | authorizations | publishChallenges
  | awaitReady | finalize =>
      cases hexec
      exact ⟨rfl, rfl, rfl, rfl⟩
  | _ => exact hquiet.elim False.elim False.elim

theorem Clean.failed (hclean : Clean g s state live) : g.Fits s (.failed state live) :=
  ⟨hclean.kept, fun htouched => by rw [hclean.untouched] at htouched; cases htouched⟩

theorem Fits.orders (hfits : g.Fits s (.ordering state live names)) (hprepares : o.prepares names)
    (hexec : s.exec choice o = some (answer, s')) :
    (g.did s s' o answer).Fits s' ((Phase.ordering state live names).next r o answer) := by
  obtain ⟨hrecord, hcert, hkey, hclock⟩ := exec_quiet names (.inl hprepares) hexec
  have hclean : ∀ g' : Deeds, g.issued ⊆ g'.issued → g'.touched = g.touched →
      g'.gaveUp = g.gaveUp → g'.looked = g.looked → g'.live = g.live → Clean g' s' state live :=
    fun g' hissued htouched hgave hlooked hlive =>
      Clean.congr hfits hissued htouched hgave
        (fun _ hlit => ⟨hlooked.trans hlit.1, hlive.trans hlit.2⟩)
        hrecord hcert hkey (Nat.le_of_eq hclock.symm) rfl rfl
  unfold Phase.next
  by_cases hfails : o.fails answer = true
  · rw [if_pos hfails]
    cases o with
    | loadAccount | restoreAccount | createAccount | saveAccount =>
        exact (hclean g (fun _ => id) rfl rfl rfl rfl).failed
    | newOrder ordered =>
        exact (hclean { g with ordered := ordered } (fun _ => id) rfl rfl rfl rfl).failed
    | _ => exact hprepares.elim
  · rw [if_neg hfails]
    cases o with
    | loadAccount | restoreAccount | createAccount | saveAccount =>
        exact hclean g (fun _ => id) rfl rfl rfl rfl
    | newOrder ordered => exact ⟨hclean _ (fun _ => id) rfl rfl rfl rfl, hprepares⟩
    | _ => exact hprepares.elim

theorem Fits.fulfils (hfits : g.Fits s (.ordered state live names)) (hfulfils : o.fulfils)
    (hexec : s.exec choice o = some (answer, s')) :
    (g.did s s' o answer).Fits s' ((Phase.ordered state live names).next r o answer) := by
  obtain ⟨hbefore, hordered⟩ := hfits
  obtain ⟨hrecord, hcert, hkey, hclock⟩ := exec_quiet names (.inr hfulfils) hexec
  have hclean : ∀ g' : Deeds, g.issued ⊆ g'.issued → g'.touched = g.touched →
      g'.gaveUp = g.gaveUp → g'.looked = g.looked → g'.live = g.live → Clean g' s' state live :=
    fun g' hissued htouched hgave hlooked hlive =>
      hbefore.congr hissued htouched hgave
        (fun _ hlit => ⟨hlooked.trans hlit.1, hlive.trans hlit.2⟩)
        hrecord hcert hkey (Nat.le_of_eq hclock.symm) rfl rfl
  unfold Phase.next
  by_cases hfails : o.fails answer = true
  · rw [if_pos hfails]
    cases o with
    | finalize =>
        cases answer with
        | error error => exact (hclean g (fun _ => id) rfl rfl rfl rfl).failed
        | ok leaf =>
            exact (hclean { g with issued := (leaf, g.ordered) :: g.issued }
              (List.subset_cons_self ..) rfl rfl rfl rfl).failed
    | authorizations | publishChallenges | awaitReady =>
        exact (hclean g (fun _ => id) rfl rfl rfl rfl).failed
    | _ => exact hfulfils.elim
  · rw [if_neg hfails]
    cases o with
    | finalize =>
        cases answer with
        | error error => exact absurd rfl hfails
        | ok leaf =>
            refine ⟨hclean _ (List.subset_cons_self ..) rfl rfl rfl rfl, ?_, ?_⟩
            · rw [← hordered]
              exact List.mem_cons_self
            · have hsome : leaf.notAfter.isSome = true := by
                simpa [CertOp.fails, Option.isSome_iff_ne_none] using hfails
              exact (Option.some_get hsome).symm.trans (by rw [Option.get_eq_getD])
    | authorizations | publishChallenges | awaitReady =>
        exact ⟨hclean g (fun _ => id) rfl rfl rfl rfl, hordered⟩
    | _ => exact hfulfils.elim

/-- A file of the pair is written; where it is still the same, so is all else. -/
theorem Kept.written (hkept : Kept g s state live) (hissued : g'.issued = g.issued)
    (hlooked : g'.looked = g.looked) (hlive : g'.live = g.live)
    (hsame : g'.touched = false → g.touched = false ∧ s'.cert = s.cert ∧ s'.key = s.key)
    (hrecord : s'.record = s.record) (hclock : s'.clock = s.clock) : Kept g' s' state live where
  record := by
    intro huntouched
    obtain ⟨hbefore, hcert, hkey⟩ := hsame huntouched
    rw [hrecord]
    exact (hkept.record hbefore).congr (hissued ▸ fun _ => id) hcert hkey
      (Nat.le_of_eq hclock.symm) rfl rfl
  believed := by
    intro huntouched
    obtain ⟨hbefore, hcert, hkey⟩ := hsame huntouched
    exact (hkept.believed hbefore).congr (hissued ▸ fun _ => id) hcert hkey
      (Nat.le_of_eq hclock.symm) rfl rfl
  shown := by
    intro huntouched hshown names hsome
    obtain ⟨hbefore, hcert, hkey⟩ := hsame huntouched
    exact (hkept.shown hbefore hshown names hsome).congr (hissued ▸ fun _ => id) hcert hkey
  live := by
    rw [hlooked, hlive]
    exact hkept.live

theorem Fits.places {leaf : Leaf} {notAfter : Nat} {answer : Except String Unit}
    (hfits : g.Fits s (.obtained state live names leaf notAfter))
    (hexec : s.exec choice (.writeCert leaf.chain) = some (answer, s')) :
    (g.did s s' (.writeCert leaf.chain) answer).Fits s'
      ((Phase.obtained state live names leaf notAfter).next r (.writeCert leaf.chain) answer) := by
  obtain ⟨hclean, hissued, hexpires⟩ := hfits
  have hdone : (s.cert.write choice.fault leaf.chain).1 = answer ∧
      { s with cert := (s.cert.write choice.fault leaf.chain).2 } = s' :=
    Prod.mk.inj (Option.some.inj hexec)
  obtain ⟨rfl, rfl⟩ := hdone
  have hkept : Kept (g.did s { s with cert := (s.cert.write choice.fault leaf.chain).2 }
      (.writeCert leaf.chain) (s.cert.write choice.fault leaf.chain).1)
      { s with cert := (s.cert.write choice.fault leaf.chain).2 } state live := by
    refine hclean.kept.written rfl rfl rfl (fun huntouched => ?_) rfl rfl
    obtain ⟨hbefore, hsame⟩ := Bool.or_eq_false_iff.mp huntouched
    exact ⟨hbefore, by simpa using hsame, rfl⟩
  unfold Phase.next
  by_cases hfails : (CertOp.writeCert leaf.chain).fails (s.cert.write choice.fault leaf.chain).1 =
    true
  · rw [if_pos hfails]
    refine ⟨hkept, fun _ => ?_⟩
    change (g.gaveUp || !_) = true
    rw [show (!(s.cert.write choice.fault leaf.chain).1.isOk) = true from hfails, Bool.or_true]
  · rw [if_neg hfails]
    have hok : (s.cert.write choice.fault leaf.chain).1.isOk = true := by
      simpa [CertOp.fails] using hfails
    refine ⟨hkept, ?_, hissued, hexpires, Stored.write_isOk hok⟩
    change (g.gaveUp || !_) = false
    rw [hok, hclean.wrote]
    rfl

theorem Fits.pairs {leaf : Leaf} {notAfter : Nat} {answer : Except String Unit}
    (hfits : g.Fits s (.placed state live names leaf notAfter))
    (hexec : s.exec choice (.writeKey leaf.key) = some (answer, s')) :
    (g.did s s' (.writeKey leaf.key) answer).Fits s'
      ((Phase.placed state live names leaf notAfter).next r (.writeKey leaf.key) answer) := by
  obtain ⟨hbefore, hwrote, hissued, hexpires, hcert⟩ := hfits
  have hdone : (s.key.write choice.fault leaf.key).1 = answer ∧
      { s with key := (s.key.write choice.fault leaf.key).2 } = s' :=
    Prod.mk.inj (Option.some.inj hexec)
  obtain ⟨rfl, rfl⟩ := hdone
  have hkept : Kept (g.did s { s with key := (s.key.write choice.fault leaf.key).2 }
      (.writeKey leaf.key) (s.key.write choice.fault leaf.key).1)
      { s with key := (s.key.write choice.fault leaf.key).2 } state live := by
    refine hbefore.written rfl rfl rfl (fun huntouched => ?_) rfl rfl
    obtain ⟨hbefore, hsame⟩ := Bool.or_eq_false_iff.mp huntouched
    exact ⟨hbefore, rfl, by simpa using hsame⟩
  unfold Phase.next
  by_cases hfails : (CertOp.writeKey leaf.key).fails (s.key.write choice.fault leaf.key).1 = true
  · rw [if_pos hfails]
    refine ⟨hkept, fun _ => ?_⟩
    change (g.gaveUp || !_) = true
    rw [show (!(s.key.write choice.fault leaf.key).1.isOk) = true from hfails, Bool.or_true]
  · rw [if_neg hfails]
    have hok : (s.key.write choice.fault leaf.key).1.isOk = true := by
      simpa [CertOp.fails] using hfails
    refine ⟨hkept.record, ?_, leaf, hissued, hcert, Stored.write_isOk hok, hexpires⟩
    change (g.gaveUp || !_) = false
    rw [hok, hwrote]
    rfl

theorem Fits.records {leaf : Leaf} {notAfter : Nat} {answer : Except String Unit}
    (hfits : g.Fits s (.paired names leaf notAfter))
    (hexec : s.exec choice (.saveState { names := some names, expiresAt := notAfter }) =
      some (answer, s')) :
    (g.did s s' (.saveState { names := some names, expiresAt := notAfter }) answer).Fits s'
      (.finished (some (names, notAfter))) := by
  obtain ⟨hstands, hwrote, hmatches⟩ := hfits
  cases hexec
  constructor
  · intro huntouched
    generalize choice.fault = fault at huntouched ⊢
    cases fault with
    | none =>
        intro names' hsome _
        obtain rfl := Option.some.inj hsome
        exact hmatches.congr (fun _ => id) rfl rfl
    | some fault =>
        cases fault with
        | refused =>
            have hbefore : g.touched = false := by
              have hsame : (g.touched && true) = false := huntouched
              simpa using hsame
            exact (hstands hbefore).congr (fun _ => id) rfl rfl (Nat.le_refl _) rfl rfl
        | torn => exact stands_default
  · intro names' expiresAt hshown _
    obtain ⟨rfl, rfl⟩ := Prod.mk.inj (Option.some.inj hshown)
    exact hmatches.congr (fun _ => id) rfl rfl

theorem Fits.fails {answer : Except String Unit} (hfits : g.Fits s (.failing state live))
    (hexec : s.exec choice (.saveState state) = some (answer, s')) :
    (g.did s s' (.saveState state) answer).Fits s' (.finished (Phase.shows state live)) := by
  obtain ⟨hkept, hgave, hcounted⟩ := hfits
  have hdone : (s.record.write choice.fault state).1 = answer ∧
      { s with record := (s.record.write choice.fault state).2 } = s' :=
    Prod.mk.inj (Option.some.inj hexec)
  obtain ⟨rfl, rfl⟩ := hdone
  have htouched : (g.touched && !((s.record.write choice.fault state).1.isOk && state.failures ==
    0)) =
      g.touched := by
    rw [beq_eq_false_iff_ne.mpr hcounted, Bool.and_false, Bool.not_false, Bool.and_true]
  have hsaved : Kept (g.did s { s with record := (s.record.write choice.fault state).2 }
      (.saveState state) (s.record.write choice.fault state).1)
      { s with record := (s.record.write choice.fault state).2 } state live := by
    apply hkept.saved
    · exact fun _ => id
    · exact htouched
    · rfl
    · rfl
  refine ⟨hsaved.record, fun names expiresAt hshows hspared => hsaved.shows ?_ hshows⟩
  -- what is shown was live when it was looked at
  have hlive : live = true := by
    by_contra hdark
    rw [Bool.eq_false_iff.mpr hdark] at hshows
    cases hshows
  refine Bool.eq_false_iff.mpr fun hnow => ?_
  have hbefore : g.touched = true := htouched ▸ hnow
  have hspared : ((g.touched && _) && (g.live && g.gaveUp)) = false := hspared
  rw [htouched, hbefore, (hkept.live hlive).2, hgave hbefore] at hspared
  cases hspared

theorem Deeds.Fits.did (hfits : g.Fits s phase) (hallows : phase.Allows o)
    (hexec : s.exec choice o = some (answer, s')) :
    (g.did s s' o answer).Fits s' (phase.next r o answer) := by
  cases phase with
  | starting =>
      cases o with
      | loadState =>
          obtain ⟨hstands, hlooked, huntouched, hwrote⟩ := hfits
          cases hexec
          have hnext : Phase.starting.next r .loadState (s.record.readOr {}) =
              if (s.record.readOr {}).names.isSome then .read (s.record.readOr {})
              else .shown (s.record.readOr {}) false := rfl
          rw [hnext]
          split
          · rename_i hsome
            exact ⟨rfl, hsome, hstands, hlooked, huntouched, hwrote⟩
          · exact Clean.looked hstands huntouched hwrote rfl (fun hlive => by cases hlive)
              (fun _ => id) rfl rfl fun hlive => by cases hlive
      | _ => exact hallows.elim
  | read state =>
      cases o with
      | now =>
          obtain ⟨hrecord, hsome, hstands, hlooked, huntouched, hwrote⟩ := hfits
          cases hexec
          have hdid : g.did s s .now s.clock =
              { g with looked := true, live := state.liveAt s.clock } := by
            unfold Deeds.did
            dsimp only
            rw [hlooked, if_neg Bool.false_ne_true, hrecord]
          rw [hdid]
          refine Clean.looked (hrecord.symm ▸ hstands) huntouched hwrote hrecord ?_ (fun _ => id)
            rfl
            rfl fun hlive => ⟨rfl, ?_⟩
          · exact fun hlive _ _ => of_decide_eq_true hlive
          · exact Bool.and_eq_true_iff.mpr ⟨hsome, hlive⟩
      | _ => exact hallows.elim
  | shown state live =>
      cases o with
      | now =>
          cases hexec
          have hnext : (Phase.shown state live).next r .now s.clock =
              if (notePending r state s.clock).1 then .stamped (notePending r state s.clock).2 live
              else .ready (notePending r state s.clock).2 live := rfl
          rw [hnext]
          split <;> exact Clean.now hfits rfl rfl
      | _ => exact hallows.elim
  | stamped state live =>
      cases o with
      | saveState saved =>
          obtain rfl : saved = state := hallows
          have hdone : (s.record.write choice.fault saved).1 = answer ∧
              { s with record := (s.record.write choice.fault saved).2 } = s' :=
            Prod.mk.inj (Option.some.inj hexec)
          obtain ⟨rfl, rfl⟩ := hdone
          have huntouched : (g.touched && !((s.record.write choice.fault saved).1.isOk &&
              saved.failures == 0)) = g.touched := by
            rw [hfits.untouched]
            rfl
          refine ⟨?_, huntouched.trans hfits.untouched, hfits.wrote⟩
          apply hfits.kept.saved
          · exact fun _ => id
          · exact huntouched
          · rfl
          · rfl
      | _ => exact hallows.elim
  | ready state live =>
      cases o with
      | now =>
          cases hexec
          have hclean : Clean (g.did s s .now s.clock) s state live := Clean.now hfits rfl rfl
          cases hdecide : decide r state s.clock with
          | idle why =>
              rw [Phase.ready_idle hdecide]
              exact ⟨hclean.kept.record, fun names expiresAt hshows _ =>
                hclean.kept.shows hclean.untouched hshows⟩
          | issue names =>
              rw [Phase.ready_issue hdecide]
              exact hclean
      | _ => exact hallows.elim
  | ordering state live names => exact Fits.orders hfits hallows hexec
  | ordered state live names => exact Fits.fulfils hfits hallows hexec
  | obtained state live names leaf notAfter =>
      cases o with
      | writeCert chain =>
          obtain rfl : chain = leaf.chain := hallows
          exact Fits.places hfits hexec
      | _ => exact hallows.elim
  | placed state live names leaf notAfter =>
      cases o with
      | writeKey key =>
          obtain rfl : key = leaf.key := hallows
          exact Fits.pairs hfits hexec
      | _ => exact hallows.elim
  | paired names leaf notAfter =>
      cases o with
      | saveState saved =>
          obtain rfl : saved = { names := some names, expiresAt := notAfter } := hallows
          exact Fits.records hfits hexec
      | dropOrder =>
          cases hexec
          exact hfits
      | _ => exact hallows.elim
  | failed state live =>
      cases o with
      | dropOrder =>
          cases hexec
          exact hfits
      | now =>
          cases hexec
          obtain ⟨hkept, hgave⟩ := hfits
          refine ⟨hkept.now rfl rfl, ?_, ?_⟩
          · rw [Deeds.did_now.2.1, Deeds.did_now.2.2.1]
            exact hgave
          · dsimp only
            unfold U32_MAX
            omega
      | _ => exact hallows.elim
  | failing state live =>
      cases o with
      | saveState saved =>
          obtain rfl : saved = state := hallows
          exact Fits.fails hfits hexec
      | _ => exact hallows.elim
  | finished shown => cases o <;> exact hallows.elim

theorem Stands.later {later : Nat} (hstands : Stands g s state) (hlater : s.clock ≤ later) :
    Stands g { s with clock := later } state :=
  hstands.congr (fun _ => id) rfl rfl hlater rfl rfl

theorem Deeds.Fits.later {later : Nat} (hfits : g.Fits s phase) (hlater : s.clock ≤ later) :
    g.Fits { s with clock := later } phase := by
  have hkept : ∀ {state live}, Kept g s state live → Kept g { s with clock := later } state live :=
    fun hbefore => hbefore.congr (fun _ => id) rfl (fun _ => id) rfl rfl rfl hlater rfl rfl
  have hclean : ∀ {state live}, Clean g s state live →
    Clean g { s with clock := later } state live :=
    fun hbefore => ⟨hkept hbefore.kept, hbefore.untouched, hbefore.wrote⟩
  cases phase with
  | starting => exact ⟨hfits.1.later hlater, hfits.2⟩
  | read state => exact ⟨hfits.1, hfits.2.1, hfits.2.2.1.later hlater, hfits.2.2.2⟩
  | shown | stamped | ready | ordering => exact hclean hfits
  | ordered | obtained => exact ⟨hclean hfits.1, hfits.2⟩
  | placed => exact ⟨hkept hfits.1, hfits.2⟩
  | paired => exact ⟨fun huntouched => (hfits.1 huntouched).later hlater, hfits.2⟩
  | failed | failing => exact ⟨hkept hfits.1, hfits.2⟩
  | finished => exact ⟨fun huntouched => (hfits.1 huntouched).later hlater, hfits.2⟩

theorem Deeds.Fits.record (hfits : g.Fits s phase) (huntouched : g.touched = false) :
    Stands g s (s.record.readOr {}) := by
  cases phase with
  | starting => exact hfits.1
  | read state => exact hfits.1.symm ▸ hfits.2.2.1
  | shown | stamped | ready | ordering => exact hfits.kept.record huntouched
  | ordered | obtained => exact hfits.1.kept.record huntouched
  | placed | failed | failing => exact hfits.1.record huntouched
  | paired | finished => exact hfits.1 huntouched

theorem stands_dead (hdead : state.liveAt s.clock = false) : Stands g s state := by
  intro names hsome hlive
  unfold IssuedState.liveAt at hdead
  rw [hsome, decide_eq_true hlive] at hdead
  cases hdead

theorem Deeds.Fits.rests (hfits : g.Fits s phase)
    (hspared : (g.touched && (s.record.readOr {}).liveAt s.clock) = false) :
    Stands { g with busy := false } s (s.record.readOr {}) := by
  have hstands : Stands g s (s.record.readOr {}) := by
    rcases Bool.and_eq_false_iff.mp hspared with huntouched | hdead
    · exact hfits.record huntouched
    · exact stands_dead hdead
  exact hstands.congr (fun _ => id) rfl rfl (Nat.le_refl _) rfl rfl

theorem spared_both {touched recorded shown : Bool}
    (hspared : (!(touched && (recorded || shown))) = true) :
    (touched && recorded) = false ∧ (touched && shown) = false := by
  cases touched <;> cases recorded <;> cases shown <;> first | exact ⟨rfl, rfl⟩ | cases hspared

theorem Deeds.did_busy : (g.did s s' o answer).busy = g.busy := by
  cases o with
  | now =>
      unfold Deeds.did
      dsimp only
      split <;> rfl
  | finalize => cases answer <;> rfl
  | _ => rfl

theorem Deeds.Fits.publishes {stateDir : String} {status : CertStatus}
    {shown : Option (CertNames × Nat)} (hfits : g.Fits s (.finished shown))
    (hshows : status.Shows stateDir shown)
    (hspared : (g.touched && (g.live && g.gaveUp)) = false) : Publishes g s stateDir status := by
  intro hsome
  cases shown with
  | none =>
      rw [hshows.2.1] at hsome
      cases hsome
  | some shown =>
      obtain ⟨hnames, hcert, hkey, hexpires⟩ := hshows
      rw [hnames, hexpires]
      exact ⟨hcert, hkey, hfits.2 shown.1 shown.2 rfl hspared⟩

end

def pairing : Machine.Solo issuing deeds (Machine.passes paired) Pass where
  mon := passing
  opening := fun _ _ r => { r := r }
  post := fun _ μ result => μ.Ends result
  rest := fun g s => g.busy = false ∧ Stands g s (s.record.readOr {})
  fits := fun g s r μ => g.busy = true ∧ μ.r = r ∧ g.Fits s μ.phase
  conforms := fun _ _ r => conforms_reconcile r
  alone := by
    rintro g s r μ task r' ⟨hbusy, -⟩ hguard
    have hidle : (!g.busy) = true := (Bool.and_eq_true_iff.mp hguard).1
    rw [hbusy] at hidle
    cases hidle
  called := by
    rintro g s task r ⟨-, hstands⟩ -
    exact ⟨rfl, rfl, hstands.congr (fun _ => id) rfl rfl (Nat.le_refl _) rfl rfl, rfl, rfl, rfl⟩
  did := by
    rintro g s task r ⟨r', phase⟩ o choice answer s' ⟨hbusy, hsame, hfits⟩ hallows hexec -
    exact ⟨trivial, Deeds.did_busy.trans hbusy, hsame, hfits.did hallows hexec⟩
  ended := by
    rintro g s task r μ result ⟨-, -, hfits⟩ - hguard
    exact ⟨rfl, hfits.rests (spared_both (Bool.and_eq_true_iff.mp hguard).2).1⟩
  dropped := by
    rintro g s task r μ ⟨-, -, hfits⟩ hguard
    have hspared : (!(g.touched && (s.record.readOr {}).liveAt s.clock)) = true :=
      (Bool.and_eq_true_iff.mp hguard).2
    exact ⟨rfl, hfits.rests (Bool.not_eq_true' _ ▸ hspared)⟩
  movedRest := by
    rintro g s later s' ⟨hbusy, hstands⟩ hmove -
    obtain ⟨hlater, -, rfl⟩ := move_cases hmove
    exact ⟨hbusy, hstands.later hlater⟩
  movedFits := by
    rintro g s r μ later s' ⟨hbusy, hsame, hfits⟩ hmove -
    obtain ⟨hlater, -, rfl⟩ := move_cases hmove
    exact ⟨hbusy, hsame, hfits.later hlater⟩

theorem fresh_pairs (cert key : Stored String) :
    ({} : Deeds).busy = false ∧ Stands {} (fresh cert key) ((fresh cert key).record.readOr {}) :=
  ⟨rfl, stands_default⟩

/-- The pair on disk is the one of a live record between reconciles, and whatever a reconcile
publishes can be loaded. -/
theorem pair_recorded (cert key : Stored String) {c : issuing.Config} {g : Deeds}
    (hreach : Machine.Reach deeds (Machine.passes paired) (issuing.idle (fresh cert key)) {} c g) :
    ((∀ task, c.tasks task = none) → Stands g c.shared (c.shared.record.readOr {})) ∧
      ∀ task r status c', Machine.Step c (.ended task r (.ok status)) c' →
        paired g c.shared (.ended task r (.ok status)) = true →
          Publishes g c.shared r.stateDir status := by
  constructor
  · exact fun hidle => (pairing.rest_reached (fresh_pairs cert key) hreach hidle).2
  · intro task r status c' hstep hspared
    cases hstep with
    | finish running =>
        obtain ⟨μ, ⟨-, hsame, hfits⟩, hends⟩ :=
          pairing.fits_reached (fresh_pairs cert key) hreach running
        obtain ⟨shown, hover, hshows⟩ : μ.Ends (.ok status) := hends
        rw [hover] at hfits
        rw [hsame] at hshows
        exact hfits.publishes hshows (spared_both (Bool.and_eq_true_iff.mp hspared).2).2

def obtaining (task : Nat) (leaf : Leaf) : List issuing.Label :=
  .call laptopReconcile :: List.replicate 14 (.step task { leaf := leaf })

def firstLeaf : Leaf where
  key := "key 1"
  chain := "chain 1"
  notAfter := some 7776000

def recordedPair (c : issuing.Config) (_ : Deeds) : Bool :=
  c.next == 1 && (c.tasks 0).isNone && (c.shared.record.readOr {}).liveAt c.shared.clock

theorem pair_recorded_first :
    ∃ c g, Machine.Reach deeds (Machine.passes paired) (issuing.idle (fresh .absent .absent)) {} c
      g ∧
      (c.shared.record.readOr {}).liveAt c.shared.clock = true ∧
        Stands g c.shared (c.shared.record.readOr {}) := by
  have hplay : (Machine.play deeds paired (issuing.idle (fresh .absent .absent)) {}
      (obtaining 0 firstLeaf)).any (fun last => recordedPair last.1 last.2) = true := by
    decide
  have hrun : ∃ c g, Machine.Reach deeds (Machine.passes paired)
      (issuing.idle (fresh .absent .absent)) {} c g ∧ recordedPair c g = true :=
    Machine.reach_of_play (fun _ _ _ hpaired => hpaired) hplay
  obtain ⟨c, g, hreach, hend⟩ := hrun
  obtain ⟨hgone, hlive⟩ := Bool.and_eq_true_iff.mp hend
  obtain ⟨hnext, hfirst⟩ := Bool.and_eq_true_iff.mp hgone
  refine ⟨c, g, hreach, hlive, (pair_recorded .absent .absent hreach).1 fun task => ?_⟩
  cases task with
  | zero => exact Option.isNone_iff_eq_none.mp hfirst
  | succ task => exact hreach.numbered (task + 1) (by rw [eq_of_beq hnext]; omega)

def secondLeaf : Leaf where
  key := "key 2"
  chain := "chain 2"
  notAfter := some 15552000

/-- The certificate is renewed a day before it expires, and the process is killed where the new one is
written and its key is not. -/
def cutShort : List issuing.Label :=
  obtaining 0 firstLeaf ++ [.move 7689600, .call laptopReconcile] ++
    List.replicate 10 (.step 1 { leaf := secondLeaf }) ++ [.drop 1]

def mismatched (c : issuing.Config) (g : Deeds) : Bool :=
  (c.tasks 0).isNone && (c.tasks 1).isNone && c.next == 2 &&
    (c.shared.record.readOr {}).liveAt c.shared.clock &&
      g.issued.all fun entry =>
        c.shared.cert != .holding entry.1.chain || c.shared.key != .holding entry.1.key

theorem cut_renewal_mismatches :
    ∃ c g, Machine.Reach deeds (Machine.passes singly) (issuing.idle (fresh .absent .absent)) {} c
      g ∧
      (∀ task, c.tasks task = none) ∧ ¬Stands g c.shared (c.shared.record.readOr {}) := by
  have hplay : (Machine.play deeds singly (issuing.idle (fresh .absent .absent)) {} cutShort).any
      (fun last => mismatched last.1 last.2) = true := by
    decide
  have hrun : ∃ c g, Machine.Reach deeds (Machine.passes singly)
      (issuing.idle (fresh .absent .absent)) {} c g ∧ mismatched c g = true :=
    Machine.reach_of_play (fun _ _ _ hsingly => hsingly) hplay
  obtain ⟨c, g, hreach, hend⟩ := hrun
  obtain ⟨hend, hissued⟩ := Bool.and_eq_true_iff.mp hend
  obtain ⟨hend, hlive⟩ := Bool.and_eq_true_iff.mp hend
  obtain ⟨hgone, hnext⟩ := Bool.and_eq_true_iff.mp hend
  obtain ⟨hfirst, hsecond⟩ := Bool.and_eq_true_iff.mp hgone
  refine ⟨c, g, hreach, fun task => ?_, fun hstands => ?_⟩
  · match task with
    | 0 => exact Option.isNone_iff_eq_none.mp hfirst
    | 1 => exact Option.isNone_iff_eq_none.mp hsecond
    | task + 2 => exact hreach.numbered (task + 2) (by rw [eq_of_beq hnext]; omega)
  · obtain ⟨hsome, hnow⟩ := Bool.and_eq_true_iff.mp hlive
    obtain ⟨names, hnames⟩ := Option.isSome_iff_exists.mp hsome
    obtain ⟨leaf, hmem, hcert, hkey, -⟩ := hstands names hnames (of_decide_eq_true hnow)
    have hnot := List.all_eq_true.mp hissued _ hmem
    rw [hcert, hkey] at hnot
    simp at hnot

end UnityLan.Engine.Cert
