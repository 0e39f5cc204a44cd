import UnityLan.Common.Api

namespace UnityLan.Engine

/-! The lifecycle of the daemon: it registers, keeps the mesh until a logout, tears the
enrollment down and starts again with a fresh key. -/

/-- One stored permit.  A waiter that was woken and then dropped gives its permit back, so
that a wake-up is a permit which the waiter takes when it is polled next. -/
structure Notify where
  permit : Bool := false
  deriving DecidableEq

namespace Notify

def notifyOne (_ : Notify) : Notify :=
  ⟨true⟩

/-- What a poll of `notified` leaves, if it is ready. -/
def notified (notify : Notify) : Option Notify :=
  if notify.permit then some ⟨false⟩ else none

end Notify

structure Config where
  deviceName : Option String := none
  hostname : Option String := none
  computername : Option String := none

def Config.device_name (cfg : Config) : String :=
  ((cfg.deviceName.or (cfg.hostname.filter fun host => !host.isEmpty)).or
    (cfg.computername.filter fun host => !host.isEmpty)).getD "device"

inductive Phase
  /-- The top of the lifecycle loop. -/
  | starting
  /-- Registering, and waiting for a login; nothing waits for a logout here. -/
  | registering
  /-- From the register that enrolled to the end of the mesh loop. -/
  | meshed
  | tearingDown
  | tornDown
  | stopped
  deriving DecidableEq

/-- The public half stands for the key pair of `wg.key`. -/
structure Daemon where
  phase : Phase := .starting
  logout : Notify := {}
  wgKey : Option PubKey := none
  tokenFile : Option String := none
  pubkey : PubKey := 0
  token : Option String := none
  deriving DecidableEq

inductive Event
  /-- A `Logout` control request. -/
  | logout
  /-- A key is loaded; `fresh` is what is generated where there is none. -/
  | keyed (fresh : PubKey)
  /-- A register that did not enroll. -/
  | attempted
  | registered (deviceToken : Option String)
  /-- An arm of the mesh loop that goes round again. -/
  | passed
  /-- The logout arm of the mesh loop. -/
  | loggedOut
  | unenrolled
  | cleared
  /-- A shutdown, a restart or an error. -/
  | stopped
  deriving DecidableEq

def Event.registers : Event → Bool
  | .registered _ => true
  | _ => false

namespace Daemon

def start (wgKey : Option PubKey) (tokenFile : Option String) : Daemon where
  wgKey := wgKey
  tokenFile := tokenFile
  token := tokenFile

def keyed (d : Daemon) (fresh : PubKey) : Daemon :=
  { d with
    phase := .registering
    wgKey := some (d.wgKey.getD fresh)
    pubkey := d.wgKey.getD fresh }

def registered (d : Daemon) (deviceToken : Option String) : Daemon :=
  { d with
    phase := .meshed
    tokenFile := deviceToken.or d.tokenFile
    token := deviceToken.or d.token }

/-- The un-enroll request of the teardown, where there is a token to send it with. -/
def removal (cfg : Config) (d : Daemon) : Option ManageReq :=
  d.token.map fun token => ⟨token, .remove cfg.device_name⟩

def cleared (d : Daemon) : Daemon :=
  { d with
    phase := .starting
    wgKey := none
    tokenFile := none
    token := none }

/-- One step of the daemon, or of a control client; `none` where it cannot happen. -/
def step (d : Daemon) : Event → Option Daemon
  | .logout => if d.phase = .stopped then none else some { d with logout := d.logout.notifyOne }
  | .keyed fresh => if d.phase = .starting then some (d.keyed fresh) else none
  | .attempted => if d.phase = .registering then some d else none
  | .registered deviceToken =>
      if d.phase = .registering then some (d.registered deviceToken) else none
  | .passed => if d.phase = .meshed then some d else none
  | .loggedOut =>
      if d.phase = .meshed then
        d.logout.notified.map fun logout => { d with phase := .tearingDown, logout := logout }
      else none
  | .unenrolled => if d.phase = .tearingDown then some { d with phase := .tornDown } else none
  | .cleared => if d.phase = .tornDown then some d.cleared else none
  | .stopped => if d.phase = .stopped then none else some { d with phase := .stopped }

def run (d : Daemon) (events : List Event) : Option Daemon :=
  events.foldlM step d

end Daemon

def track : Option Bool → Event → Option Bool
  | _, .registered _ => some false
  | some _, .logout => some true
  | tracked, _ => tracked

def Asked (events : List Event) : Prop :=
  events.foldl track none = some true

instance (events : List Event) : Decidable (Asked events) :=
  inferInstanceAs (Decidable (_ = _))

/-- Every register completes while no permit is stored. -/
def permitsSpent : Daemon → List Event → Bool
  | _, [] => true
  | d, event :: rest =>
      (!event.registers || !d.logout.permit) &&
        match d.step event with
        | some d' => permitsSpent d' rest
        | none => true

def Event.endsEnrollment : Event → Bool
  | .loggedOut => true
  | .unenrolled => true
  | _ => false

/-- Every step that ends an enrollment was asked for since that enrollment's register. -/
def LogoutsAsked (events : List Event) : Prop :=
  ∀ before event after, events = before ++ event :: after → event.endsEnrollment = true →
    Asked before

structure Owed (d : Daemon) (tracked : Option Bool) : Prop where
  meshed : d.phase = .meshed →
    ∃ asked, tracked = some asked ∧ (d.logout.permit = true → asked = true)
  tearingDown : d.phase = .tearingDown → tracked = some true

section

variable {d d' : Daemon} {tracked : Option Bool} {event : Event} {events : List Event}

theorem owed_idle (hmeshed : d.phase ≠ .meshed) (htearing : d.phase ≠ .tearingDown) :
    Owed d tracked := by
  constructor
  · exact fun hphase => absurd hphase hmeshed
  · exact fun hphase => absurd hphase htearing

theorem Owed.logout (howed : Owed d tracked) :
    Owed { d with logout := d.logout.notifyOne } (track tracked .logout) := by
  constructor
  · intro hphase
    obtain ⟨asked, rfl, _⟩ := howed.meshed hphase
    exact ⟨true, rfl, fun _ => rfl⟩
  · intro hphase
    rw [howed.tearingDown hphase]
    rfl

theorem owed_registered (deviceToken : Option String) (hspent : d.logout.permit = false) :
    Owed (d.registered deviceToken) (track tracked (.registered deviceToken)) := by
  constructor
  · intro _
    refine ⟨false, rfl, fun hpermit => ?_⟩
    exact absurd hpermit (by simp [Daemon.registered, hspent])
  · intro hphase
    cases hphase

theorem Owed.taken {logout : Notify} (howed : Owed d tracked) (hphase : d.phase = .meshed)
    (hnotified : d.logout.notified = some logout) : tracked = some true := by
  obtain ⟨asked, rfl, hasked⟩ := howed.meshed hphase
  unfold Notify.notified at hnotified
  split at hnotified
  · rename_i hpermit
    rw [hasked hpermit]
  · cases hnotified

theorem Owed.step (howed : Owed d tracked) (hstep : d.step event = some d')
    (hspent : event.registers = true → d.logout.permit = false) :
    Owed d' (track tracked event) := by
  cases event <;> simp only [Daemon.step, Option.ite_none_left_eq_some,
    Option.ite_none_right_eq_some, Option.some.injEq, Option.map_eq_some_iff] at hstep
  case logout =>
    obtain ⟨_, rfl⟩ := hstep
    exact howed.logout
  case registered deviceToken =>
    obtain ⟨_, rfl⟩ := hstep
    exact owed_registered deviceToken (hspent rfl)
  case passed =>
    obtain ⟨hphase, rfl⟩ := hstep
    obtain ⟨asked, rfl, hasked⟩ := howed.meshed hphase
    exact ⟨fun _ => ⟨asked, rfl, hasked⟩, fun htearing => by simp [hphase] at htearing⟩
  case loggedOut =>
    obtain ⟨hphase, logout, hnotified, rfl⟩ := hstep
    constructor
    · intro hmeshed
      cases hmeshed
    · intro _
      rw [howed.taken hphase hnotified]
      rfl
  case attempted =>
    obtain ⟨hphase, rfl⟩ := hstep
    exact owed_idle (by simp [hphase]) (by simp [hphase])
  case keyed fresh =>
    obtain ⟨_, rfl⟩ := hstep
    exact owed_idle (by simp [Daemon.keyed]) (by simp [Daemon.keyed])
  case cleared =>
    obtain ⟨_, rfl⟩ := hstep
    exact owed_idle (by simp [Daemon.cleared]) (by simp [Daemon.cleared])
  all_goals
    obtain ⟨_, rfl⟩ := hstep
    exact owed_idle (by simp) (by simp)

theorem Owed.ends (howed : Owed d tracked) (hstep : d.step event = some d')
    (hends : event.endsEnrollment = true) : tracked = some true := by
  cases event <;> simp only [Daemon.step, Option.ite_none_right_eq_some,
    Option.map_eq_some_iff] at hstep
  case loggedOut =>
    obtain ⟨hphase, logout, hnotified, _⟩ := hstep
    exact howed.taken hphase hnotified
  case unenrolled => exact howed.tearingDown hstep.1
  all_goals cases hends

theorem Owed.run (howed : Owed d tracked) (hrun : d.run events = some d')
    (hspent : permitsSpent d events = true) :
    ∀ before event after, events = before ++ event :: after → event.endsEnrollment = true →
      before.foldl track tracked = some true := by
  induction events generalizing d tracked with
  | nil =>
      intro before event after hsplit
      simp at hsplit
  | cons first rest ih =>
      simp only [Daemon.run, List.foldlM_cons, Option.bind_eq_bind,
        Option.bind_eq_some_iff] at hrun
      obtain ⟨next, hstep, hrest⟩ := hrun
      simp only [permitsSpent, hstep, Bool.and_eq_true, Bool.or_eq_true, Bool.not_eq_true']
        at hspent
      intro before event after hsplit hends
      cases before with
      | nil =>
          cases hsplit
          exact howed.ends hstep hends
      | cons head before =>
          cases hsplit
          refine ih (howed.step hstep fun hregisters => ?_) hrest hspent.2 before event after rfl
            hends
          rcases hspent.1 with hother | hpermit
          · rw [hregisters] at hother
            cases hother
          · exact hpermit

/-- A daemon whose registers complete with no permit stored ends only the enrollments it
was asked to end. -/
theorem logouts_asked (wgKey : Option PubKey) (tokenFile : Option String)
    (hrun : (Daemon.start wgKey tokenFile).run events = some d)
    (hspent : permitsSpent (Daemon.start wgKey tokenFile) events = true) :
    LogoutsAsked events := by
  apply Owed.run _ hrun hspent
  apply owed_idle
  · intro hphase
    cases hphase
  · intro hphase
    cases hphase

/-- A logout clicked twice while the mesh is up. -/
def askedTwice : List Event :=
  [.keyed 7, .registered (some "t"), .logout, .passed, .logout, .loggedOut, .unenrolled, .cleared]

theorem logouts_asked_twice :
    permitsSpent (Daemon.start none none) askedTwice = true ∧ LogoutsAsked askedTwice :=
  ⟨by decide,
    logouts_asked (d := { Daemon.start none none with pubkey := 7 }) none none (by decide)
      (by decide)⟩

/-- A logout that arrives while the daemon waits for a login ends the enrollment of that
login. -/
theorem logout_not_asked :
    ∃ events d, (Daemon.start none none).run events = some d ∧ ¬ LogoutsAsked events := by
  refine ⟨[.keyed 7, .attempted, .logout, .registered (some "t"), .loggedOut],
    { Daemon.start none none with
      phase := .tearingDown
      wgKey := some 7
      tokenFile := some "t"
      pubkey := 7
      token := some "t" }, by decide, ?_⟩
  intro hasked
  have hlast : Asked [.keyed 7, .attempted, .logout, .registered (some "t")] :=
    hasked _ .loggedOut [] rfl rfl
  revert hlast
  decide

end

end UnityLan.Engine
