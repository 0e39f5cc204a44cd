import Mathlib.Data.List.Infix
import UnityLan.Coordinator.Auth
import UnityLan.Foundation.Runs

namespace UnityLan.Engine

open UnityLan.Foundation UnityLan.Coordinator

/-! Waiting for an enrollment: what the register loop sends, what it makes of the answers, and
what the mesh loop makes of its own. -/

inductive Reply
  /-- It is answered, with a grant or without. -/
  | served (networked : Bool)
  | refused (error : ApiError)
  /-- An answer that does not decode, pin or verify. -/
  | unusable (text : String)
  /-- No answer. -/
  | silent (text : String)
  deriving DecidableEq

def Reply.answered : Reply → Bool
  | .silent _ => false
  | _ => true

inductive CoordError
  | upgradeRequired (body : String)
  | other (text : String)
  deriving DecidableEq

def statusText : StatusCode → String
  | .badRequest => "400 Bad Request"
  | .unauthorized => "401 Unauthorized"
  | .notFound => "404 Not Found"
  | .conflict => "409 Conflict"
  | .upgradeRequired => "426 Upgrade Required"
  | .tooManyRequests => "429 Too Many Requests"
  | .internalServerError => "500 Internal Server Error"
  | .notImplemented => "501 Not Implemented"
  | .serviceUnavailable => "503 Service Unavailable"

def rejected (what : String) (error : ApiError) : String :=
  "coordinator rejected " ++ what ++ ": " ++ statusText error.status ++ ": " ++ error.message

/-- `post`, as the loops see it. -/
def Reply.outcome (what : String) : Reply → Except CoordError Bool
  | .served networked => .ok networked
  | .refused error =>
      if error.status = .upgradeRequired then .error (.upgradeRequired error.message)
      else .error (.other (rejected what error))
  | .unusable text => .error (.other text)
  | .silent text => .error (.other text)

def mentions (text word : String) : Bool :=
  decide (word.toList <:+: text.toList)

def asksLogin (text : String) : Bool :=
  mentions text "not enrolled" || mentions text "log in"

/-! The refusals for lack of an enrollment. -/

def notEnrolled : ApiError :=
  ⟨.unauthorized, "device not enrolled; log in (oauth) or provide an enrollment_key"⟩

def overKey (error : ApiError) : Bool :=
  error == ⟨.unauthorized, "unknown enrollment key"⟩ ||
    error == ⟨.unauthorized, "enrollment key already used"⟩ ||
    error == ⟨.unauthorized, "enrollment key expired"⟩

def lacksEnrollment (error : ApiError) : Bool :=
  error == notEnrolled || overKey error

inductive WaitPhase
  | starting
  | registering
  | meshed
  deriving DecidableEq

structure Waiter where
  phase : WaitPhase := .starting
  /-- The public half of the key pair of this enrollment. -/
  pubkey : PubKey := 0
  possessionProof : Option EnrollProof := none
  supersede : Option String := none
  needsLogin : Bool := false
  protoMismatch : Option String := none
  coordinatorOnline : Bool := false
  /-- The last answer of the coordinator refused for lack of an enrollment. -/
  refused : Bool := false
  deriving DecidableEq

inductive WaitEvent
  /-- A key pair is loaded and the register loop entered; `published` is the enrollment key that
  the coordinator answers then, if it does. -/
  | entered (pubkey : PubKey) (published : Option Key) (token : Option String)
  /-- A register with the local settings of `base`; `published` is the enrollment key that the
  coordinator publishes at the time. -/
  | attempted (base : RegisterReq) (published : Option Key) (reply : Reply)
  | refreshed (reply : Reply)
  /-- Any other pass of the mesh loop. -/
  | passed
  | loggedOut

namespace Waiter

variable (w : Waiter)

/-- `register_until_ready`, ahead of its loop. -/
def entered (pubkey : PubKey) (published : Option Key) (token : Option String) : Waiter :=
  { w with
    phase := .registering
    pubkey := pubkey
    supersede := token
    possessionProof := published.map fun key => ⟨pubkey, key⟩ }

def request (base : RegisterReq) : RegisterReq :=
  { base with
    wgPubkey := w.pubkey
    deviceToken := w.supersede
    possessionProof := w.possessionProof
    supersede := w.supersede
    since := none
    observed := []
    ice := []
    held := [] }

def onRegister : Except CoordError Bool → Waiter
  | .ok networked =>
      { w with
        phase := if networked then .meshed else .registering
        needsLogin := false
        protoMismatch := none }
  | .error (.upgradeRequired why) => { w with protoMismatch := some why }
  | .error (.other text) => { w with protoMismatch := none, needsLogin := asksLogin text }

def onRefresh : Except CoordError Bool → Waiter
  | .ok _ => { w with protoMismatch := none, coordinatorOnline := true, needsLogin := false }
  | .error (.upgradeRequired why) =>
      { w with protoMismatch := some why, coordinatorOnline := false }
  | .error (.other _) => { w with coordinatorOnline := false }

/-- `set_logged_out`. -/
def loggedOut : Waiter :=
  { w with
    phase := .starting
    needsLogin := true
    protoMismatch := none
    coordinatorOnline := false }

def heard (reply : Reply) : Waiter :=
  { w with
    refused :=
      match reply with
      | .served _ => false
      | .refused error => lacksEnrollment error
      | .unusable _ => false
      | .silent _ => w.refused }

def step : WaitEvent → Option Waiter
  | .entered pubkey published token =>
      if w.phase = .starting then some (w.entered pubkey published token) else none
  | .attempted _ _ reply =>
      if w.phase = .registering then
        some ((w.onRegister (reply.outcome "register")).heard reply)
      else none
  | .refreshed reply =>
      if w.phase = .meshed then some ((w.onRefresh (reply.outcome "refresh")).heard reply)
      else none
  | .passed =>
      if w.phase = .meshed then some { w with needsLogin := false } else none
  | .loggedOut => if w.phase = .meshed then some w.loggedOut else none

def Proves (base : RegisterReq) (published : Option Key) (reply : Reply) : Prop :=
  ∀ conf : Conf, published = some conf.enrollPublic → reply.answered = true →
    possession conf (w.request base) = .proven

/-- The registers prove possession, and the flag tells of the last answer. -/
def Converges (w : Waiter) : WaitEvent → Waiter → Prop
  | .attempted base published reply, w' =>
      w.Proves base published reply ∧ w'.needsLogin = w'.refused
  | .refreshed _, w' => w'.needsLogin = w'.refused
  | _, _ => True

def fetched (published : Option Key) : Bool :=
  published.all fun key => w.possessionProof.any fun proof => proof.deployment == key

def fitsAttempt (published : Option Key) (reply : Reply) : Bool :=
  (!reply.answered || w.fetched published) &&
    match reply with
    | .served _ => true
    | .refused error =>
        if error.status = .upgradeRequired then !w.needsLogin
        else !overKey error && (error == notEnrolled || !asksLogin (rejected "register" error))
    | .unusable text => !asksLogin text
    | .silent text => asksLogin text == w.refused

def fits : WaitEvent → Bool
  | .attempted _ published reply => w.fitsAttempt published reply
  | .refreshed (.refused error) => !lacksEnrollment error
  | .refreshed (.silent _) => !w.refused
  | _ => true

structure Sound : Prop where
  quiet : w.phase = .meshed → w.needsLogin = false
  own : ∀ proof ∈ w.possessionProof, proof.device = w.pubkey

end Waiter

section

variable {w w' : Waiter} {event : WaitEvent} {published : Option Key} {reply : Reply}

theorem asksLogin_notEnrolled : asksLogin (rejected "register" notEnrolled) = true := by
  decide +kernel

theorem asksLogin_overKey {error : ApiError} (hover : overKey error = true) :
    asksLogin (rejected "register" error) = false := by
  simp only [overKey, Bool.or_eq_true, beq_iff_eq] at hover
  rcases hover with (rfl | rfl) | rfl
  · decide +kernel
  · decide +kernel
  · decide +kernel

theorem lacksEnrollment_status {error : ApiError} (hlacks : lacksEnrollment error = true) :
    error.status = .unauthorized := by
  simp only [lacksEnrollment, overKey, notEnrolled, Bool.or_eq_true, beq_iff_eq] at hlacks
  rcases hlacks with rfl | (rfl | rfl) | rfl
  · rfl
  · rfl
  · rfl
  · rfl

theorem asksLogin_iff (error : ApiError) :
    asksLogin (rejected "register" error) = lacksEnrollment error ↔
      (!overKey error && (error == notEnrolled || !asksLogin (rejected "register" error))) =
        true := by
  unfold lacksEnrollment
  by_cases hnone : error = notEnrolled
  · subst hnone
    rw [asksLogin_notEnrolled]
    decide
  · cases hover : overKey error with
    | true => simp [asksLogin_overKey hover]
    | false =>
        rw [beq_false_of_ne hnone]
        simp

theorem possession_proven {conf : Conf} {req : RegisterReq} :
    possession conf req = .proven ↔
      req.possessionProof.map (verifyEnrollProof conf req) = some true := by
  unfold possession
  generalize req.possessionProof.map (verifyEnrollProof conf req) = valid
  match valid with
  | some true => simp [decidePossession]
  | some false => simp [decidePossession]
  | none => cases conf.requireEnrollProof <;> simp [decidePossession]

def publishing (key : Key) : Conf where
  wgNet := ⟨0, 0⟩
  maxParked := 0
  enrollPublic := key
  sip := fun _ => 0
  scopeHash := fun _ => 0
  seedHash := fun _ => 0
  relayCredential := fun _ _ => ""

theorem possession_request (hsound : w.Sound) (base : RegisterReq) (conf : Conf) :
    possession conf (w.request base) = .proven ↔
      (w.possessionProof.any fun proof => proof.deployment == conf.enrollPublic) = true := by
  rw [possession_proven]
  show w.possessionProof.map (verifyEnrollProof conf (w.request base)) = some true ↔ _
  cases hproof : w.possessionProof with
  | none => simp
  | some proof =>
      have hown : proof.device = (w.request base).wgPubkey := hsound.own proof hproof
      simp [verifyEnrollProof, hown]

theorem proves_iff (hsound : w.Sound) (base : RegisterReq) :
    w.Proves base published reply ↔ (!reply.answered || w.fetched published) = true := by
  unfold Waiter.Proves Waiter.fetched
  cases published with
  | none => simp
  | some key =>
      cases hanswered : reply.answered with
      | false => simp
      | true =>
          constructor
          · intro hproves
            exact (possession_request hsound base (publishing key)).mp (hproves _ rfl rfl)
          · rintro hfetched conf ⟨rfl⟩ _
            exact (possession_request hsound base conf).mpr hfetched

theorem Waiter.Sound.step (hsound : w.Sound) (hstep : w.step event = some w') : w'.Sound := by
  cases event with
  | entered pubkey published token =>
      obtain ⟨_, hsome⟩ := Option.ite_none_right_eq_some.mp hstep
      cases hsome
      refine ⟨nofun, fun proof hproof => ?_⟩
      obtain ⟨key, _, rfl⟩ := Option.map_eq_some_iff.mp hproof
      rfl
  | attempted base published reply =>
      obtain ⟨hphase, hsome⟩ := Option.ite_none_right_eq_some.mp hstep
      cases hsome
      generalize reply.outcome "register" = outcome
      match outcome with
      | .ok networked => exact ⟨fun _ => rfl, hsound.own⟩
      | .error (.upgradeRequired why) => exact ⟨hsound.quiet, hsound.own⟩
      | .error (.other text) =>
          refine ⟨fun hmeshed => ?_, hsound.own⟩
          cases hphase.symm.trans hmeshed
  | refreshed reply =>
      obtain ⟨_, hsome⟩ := Option.ite_none_right_eq_some.mp hstep
      cases hsome
      generalize reply.outcome "refresh" = outcome
      match outcome with
      | .ok networked => exact ⟨fun _ => rfl, hsound.own⟩
      | .error (.upgradeRequired why) => exact ⟨hsound.quiet, hsound.own⟩
      | .error (.other text) => exact ⟨hsound.quiet, hsound.own⟩
  | passed =>
      obtain ⟨_, hsome⟩ := Option.ite_none_right_eq_some.mp hstep
      cases hsome
      exact ⟨fun _ => rfl, hsound.own⟩
  | loggedOut =>
      obtain ⟨_, hsome⟩ := Option.ite_none_right_eq_some.mp hstep
      cases hsome
      exact ⟨nofun, hsound.own⟩

theorem attempt_flag (reply : Reply) :
    ((w.onRegister (reply.outcome "register")).heard reply).needsLogin =
        ((w.onRegister (reply.outcome "register")).heard reply).refused ↔
      (match reply with
        | .served _ => true
        | .refused error =>
            if error.status = .upgradeRequired then !w.needsLogin
            else !overKey error && (error == notEnrolled || !asksLogin (rejected "register" error))
        | .unusable text => !asksLogin text
        | .silent text => asksLogin text == w.refused) = true := by
  cases reply with
  | served networked => simp [Reply.outcome, Waiter.onRegister, Waiter.heard]
  | unusable text => simp [Reply.outcome, Waiter.onRegister, Waiter.heard]
  | silent text => simp [Reply.outcome, Waiter.onRegister, Waiter.heard]
  | refused error =>
      dsimp only
      by_cases hupgrade : error.status = .upgradeRequired
      · have hlacks : lacksEnrollment error = false := by
          by_contra hlacks
          have hstatus := lacksEnrollment_status (by simpa using hlacks)
          cases hupgrade.symm.trans hstatus
        simp [Reply.outcome, Waiter.onRegister, Waiter.heard, hupgrade, hlacks]
      · rw [if_neg hupgrade, ← asksLogin_iff]
        simp [Reply.outcome, Waiter.onRegister, Waiter.heard, hupgrade]

theorem refresh_flag (hsound : w.Sound) (hmeshed : w.phase = .meshed) (reply : Reply) :
    ((w.onRefresh (reply.outcome "refresh")).heard reply).needsLogin = false := by
  have hquiet := hsound.quiet hmeshed
  generalize reply.outcome "refresh" = outcome
  match outcome with
  | .ok networked => rfl
  | .error (.upgradeRequired why) => exact hquiet
  | .error (.other text) => exact hquiet

theorem converges_iff (hsound : w.Sound) (hstep : w.step event = some w') :
    w.Converges event w' ↔ w.fits event = true := by
  cases event with
  | attempted base published reply =>
      obtain ⟨_, hsome⟩ := Option.ite_none_right_eq_some.mp hstep
      cases hsome
      show _ ∧ _ ↔ (_ && _) = true
      rw [Bool.and_eq_true, proves_iff hsound, attempt_flag]
  | refreshed reply =>
      obtain ⟨hmeshed, hsome⟩ := Option.ite_none_right_eq_some.mp hstep
      cases hsome
      show _ = _ ↔ _
      rw [refresh_flag hsound hmeshed]
      cases reply with
      | served networked => simp [Waiter.heard, Waiter.fits]
      | unusable text => simp [Waiter.heard, Waiter.fits]
      | refused error =>
          show false = lacksEnrollment error ↔ (!lacksEnrollment error) = true
          cases lacksEnrollment error <;> simp
      | silent text =>
          show false = w.refused ↔ (!w.refused) = true
          cases w.refused <;> simp
  | entered pubkey published token => simp [Waiter.Converges, Waiter.fits]
  | passed => simp [Waiter.Converges, Waiter.fits]
  | loggedOut => simp [Waiter.Converges, Waiter.fits]

/-- In every run, the registers prove possession and the flag tells of the last answer exactly
when every attempt is made with the key that was fetched as the loop was entered, no refusal is
over the enrollment key or meets the mesh loop, and no attempt that is not answered in these
words follows a refusal. -/
theorem waiting_converges_iff (events : List WaitEvent) :
    AtEach Waiter.step {} events Waiter.Converges ↔
      meets Waiter.step Waiter.fits {} events = true := by
  have hstart : ({} : Waiter).Sound := ⟨nofun, nofun⟩
  rw [meets_iff]
  refine AtEach.congr Waiter.Sound hstart (fun _ _ _ hsound hstep => hsound.step hstep) ?_
  intro w event w' hsound hstep
  exact converges_iff hsound hstep

/-- The coordinator is down when the loop is entered; once it is up, no register proves anything
to it, and it refuses them all. -/
theorem waiting_unproven :
    ¬ AtEach Waiter.step {}
      [.entered 7 none none,
        .attempted {wgPubkey := 7} (some 9)
          (.refused ⟨.unauthorized, "enrollment requires a possession proof; update the client"⟩)]
      Waiter.Converges := by
  intro hall
  have hproves := (hall [.entered 7 none none] _ _ _ (List.prefix_refl _) rfl rfl).1
  cases hproves (publishing 9) rfl rfl

end

end UnityLan.Engine
