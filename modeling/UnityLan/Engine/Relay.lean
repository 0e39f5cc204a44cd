import Mathlib.Data.List.Nodup
import Mathlib.Data.List.Perm.Subperm
import UnityLan.Common.Basic
import UnityLan.Foundation.Runs

namespace UnityLan.Engine

open UnityLan.Foundation

/-! The TURN server that a device runs for others, and the cap on its allocations. -/

abbrev AuthKey := List (BitVec 8)

/-- How a password, and from it a key, is derived. -/
structure Derivation where
  relayCredential : String → String → String
  generateAuthKey : String → String → String → AuthKey

inductive TurnError
  | malformed
  | expired
  | capReached
  deriving DecidableEq

def TurnError.text : TurnError → String
  | .malformed => "malformed relay username"
  | .expired => "expired relay credential"
  | .capReached => "relay allocation cap reached"

def RELAY_REALM : String := "unitylan"

def parseU64 (text : String) : Option Nat :=
  let digits := match text.toList with
    | '+' :: rest => rest
    | all => all
  if digits.isEmpty || !digits.all Char.isDigit then none
  else
    let value := digits.foldl (fun value digit => 10 * value + (digit.toNat - 48)) 0
    if value < 2 ^ 64 then some value else none

structure CappedAuth where
  secret : String
  maxAllocations : Nat
  /-- The clients that are counted. -/
  active : List SocketAddr := []
  activeNodup : active.Nodup := by exact List.nodup_nil

namespace CappedAuth

variable (auth : CappedAuth) (derive : Derivation)

def count (src : SocketAddr) : CappedAuth where
  secret := auth.secret
  maxAllocations := auth.maxAllocations
  active := auth.active.insert src
  activeNodup := List.Nodup.insert auth.activeNodup

def release (src : SocketAddr) : CappedAuth where
  secret := auth.secret
  maxAllocations := auth.maxAllocations
  active := auth.active.erase src
  activeNodup := auth.activeNodup.erase src

def full (src : SocketAddr) : Bool :=
  !auth.active.contains src && decide (auth.maxAllocations ≤ auth.active.length)

def countsAnew (username : String) (src : SocketAddr) (now : Nat) : Bool :=
  (parseU64 username).any (fun expiry => decide (now ≤ expiry)) &&
    !auth.active.contains src && !auth.full src

def key (username realm : String) : AuthKey :=
  derive.generateAuthKey username realm (derive.relayCredential auth.secret username)

/-- `auth_handle`. -/
def authHandle (username realm : String) (src : SocketAddr) (now : Nat) :
    Except TurnError AuthKey × CappedAuth :=
  match parseU64 username with
  | none => (.error .malformed, auth)
  | some expiry =>
      if expiry < now then (.error .expired, auth)
      else if auth.full src then (.error .capReached, auth)
      else (.ok (auth.key derive username realm), auth.count src)

end CappedAuth

/-- The server, by what its library makes of it. -/
structure TurnServer where
  auth : CappedAuth
  allocations : List SocketAddr := []
  /-- The clients whose requests have passed and are under way. -/
  passed : List SocketAddr := []
  /-- The closes that were notified and not seen to. -/
  notices : List SocketAddr := []

inductive TurnEvent
  /-- A request, and which keys its integrity is right for. -/
  | requested (username : String) (src : SocketAddr) (now : Nat) (verifies : AuthKey → Bool)
  /-- A request under way becomes an allocation. -/
  | created (src : SocketAddr)
  /-- A request under way does not: its creation failed, or it was not for one. -/
  | finished (src : SocketAddr)
  | closed (src : SocketAddr)
  /-- The oldest notice is seen to. -/
  | noticed

namespace TurnServer

variable (derive : Derivation) (t : TurnServer)

def step (t : TurnServer) : TurnEvent → Option TurnServer
  | .requested username src now verifies =>
      match t.auth.authHandle derive username RELAY_REALM src now with
      | (.error _, auth) => some { t with auth := auth }
      | (.ok key, auth) =>
          some { t with auth := auth, passed := if verifies key then src :: t.passed else t.passed }
  | .created src =>
      if src ∈ t.passed ∧ src ∉ t.allocations then
        some { t with passed := t.passed.erase src, allocations := src :: t.allocations }
      else none
  | .finished src =>
      if src ∈ t.passed then some { t with passed := t.passed.erase src } else none
  | .closed src =>
      if src ∈ t.allocations then
        some { t with allocations := t.allocations.erase src, notices := t.notices ++ [src] }
      else none
  | .noticed =>
      match t.notices with
      | [] => none
      | src :: rest => some { t with auth := t.auth.release src, notices := rest }

/-- A request has the right integrity where a client is counted for it, none ends without an allocation that
a client was counted for, and the set is found full when nothing is under way. -/
def fits : TurnEvent → Bool
  | .requested username src now verifies =>
      (!t.auth.countsAnew username src now ||
          verifies (t.auth.key derive username RELAY_REALM)) &&
        (!t.auth.full src || t.passed.isEmpty && t.notices.isEmpty)
  | .finished src =>
      !t.auth.active.contains src || (t.allocations ++ t.notices).contains src
  | _ => true

/-- A client that has a credential is refused for the cap only where so many allocations are live,
and with the last of them nothing is counted. -/
structure CountsLive (event : TurnEvent) (t' : TurnServer) : Prop where
  refused : ∀ username src now verifies, event = .requested username src now verifies →
    verifies (t.auth.key derive username RELAY_REALM) = true →
    (t.auth.authHandle derive username RELAY_REALM src now).1 = .error .capReached →
      t.auth.maxAllocations ≤ t.allocations.length
  emptied : t'.allocations = [] → t'.passed = [] → t'.notices = [] → t'.auth.active = []

def Accounted : Prop :=
  ∀ src ∈ t.auth.active, src ∈ t.allocations ∨ src ∈ t.notices ∨ src ∈ t.passed

/-! What a request leaves of the count. -/

section

variable {derive : Derivation} {t t' : TurnServer} {event : TurnEvent} {src : SocketAddr}

theorem authHandle_cases (derive : Derivation) (auth : CappedAuth) (username realm : String)
    (src : SocketAddr) (now : Nat) :
    (∃ e, auth.authHandle derive username realm src now = (.error e, auth) ∧
        (e = .capReached → auth.full src = true)) ∨
      auth.authHandle derive username realm src now =
          (.ok (auth.key derive username realm), auth.count src) ∧
        (src ∈ auth.active ∨ auth.countsAnew username src now = true) := by
  unfold CappedAuth.authHandle
  cases hexpiry : parseU64 username with
  | none => exact .inl ⟨_, rfl, fun h => by cases h⟩
  | some expiry =>
      dsimp only
      split
      · exact .inl ⟨_, rfl, fun h => by cases h⟩
      · rename_i hlive
        split
        · rename_i hfull
          exact .inl ⟨_, rfl, fun _ => hfull⟩
        · rename_i hroom
          refine .inr ⟨rfl, ?_⟩
          by_cases hactive : src ∈ auth.active
          · exact .inl hactive
          · right
            unfold CappedAuth.countsAnew
            rw [hexpiry]
            simp [hactive, hroom, Nat.not_lt.mp hlive]

theorem Accounted.step (haccounted : t.Accounted) (hfits : t.fits derive event = true)
    (hstep : t.step derive event = some t') : t'.Accounted := by
  cases event with
  | requested username src now verifies =>
      unfold TurnServer.step at hstep
      dsimp only at hstep
      rcases authHandle_cases derive t.auth username RELAY_REALM src now with
        ⟨e, herror, _⟩ | ⟨hok, hcounted⟩
      · rw [herror] at hstep
        cases hstep
        exact haccounted
      · rw [hok] at hstep
        cases hstep
        have hright : src ∈ t.auth.active ∨
            verifies (t.auth.key derive username RELAY_REALM) = true := by
          refine hcounted.imp_right fun hanew => ?_
          unfold TurnServer.fits at hfits
          dsimp only at hfits
          rw [hanew] at hfits
          simpa using (Bool.and_eq_true_iff.mp hfits).1
        intro other hother
        have hbefore : other ∈ t.auth.active → other ∈ t.allocations ∨ other ∈ t.notices ∨
            other ∈ (if verifies (t.auth.key derive username RELAY_REALM) then
              src :: t.passed else t.passed) := by
          intro hactive
          refine (haccounted other hactive).imp_right (Or.imp_right fun hpassed => ?_)
          split
          · exact List.mem_cons_of_mem _ hpassed
          · exact hpassed
        rcases List.mem_insert_iff.mp hother with rfl | hactive
        · rcases hright with hactive | hverifies
          · exact hbefore hactive
          · refine .inr (.inr ?_)
            dsimp only
            rw [if_pos hverifies]
            exact List.mem_cons_self
        · exact hbefore hactive
  | created src =>
      obtain ⟨_, ⟨⟩⟩ := Option.ite_none_right_eq_some.mp hstep
      intro other hactive
      by_cases hsame : other = src
      · exact .inl (hsame ▸ List.mem_cons_self)
      · rcases haccounted other hactive with hlive | hnoticed | hpassed
        · exact .inl (List.mem_cons_of_mem _ hlive)
        · exact .inr (.inl hnoticed)
        · exact .inr (.inr ((List.mem_erase_of_ne hsame).mpr hpassed))
  | finished src =>
      obtain ⟨_, ⟨⟩⟩ := Option.ite_none_right_eq_some.mp hstep
      intro other hactive
      by_cases hsame : other = src
      · subst hsame
        unfold TurnServer.fits at hfits
        dsimp only at hfits
        rw [List.contains_iff_mem.mpr hactive] at hfits
        rcases List.mem_append.mp (List.contains_iff_mem.mp hfits) with hlive | hnoticed
        · exact .inl hlive
        · exact .inr (.inl hnoticed)
      · refine (haccounted other hactive).imp_right (Or.imp_right fun hpassed => ?_)
        exact (List.mem_erase_of_ne hsame).mpr hpassed
  | closed src =>
      obtain ⟨_, ⟨⟩⟩ := Option.ite_none_right_eq_some.mp hstep
      intro other hactive
      by_cases hsame : other = src
      · exact .inr (.inl (List.mem_append_right _ (List.mem_singleton.mpr hsame)))
      · rcases haccounted other hactive with hlive | hnoticed | hpassed
        · exact .inl ((List.mem_erase_of_ne hsame).mpr hlive)
        · exact .inr (.inl (List.mem_append_left _ hnoticed))
        · exact .inr (.inr hpassed)
  | noticed =>
      unfold TurnServer.step at hstep
      dsimp only at hstep
      split at hstep
      · cases hstep
      · rename_i src rest hnotices
        cases hstep
        intro other hother
        obtain ⟨hsame, hactive⟩ := t.auth.activeNodup.mem_erase_iff.mp hother
        rcases haccounted other hactive with hlive | hnoticed | hpassed
        · exact .inl hlive
        · rw [hnotices] at hnoticed
          exact .inr (.inl ((List.mem_cons.mp hnoticed).resolve_left hsame))
        · exact .inr (.inr hpassed)

theorem Accounted.live (haccounted : t.Accounted) (hpassed : t.passed = [])
    (hnotices : t.notices = []) : t.auth.active.length ≤ t.allocations.length := by
  refine (t.auth.activeNodup.subperm fun src hactive => ?_).length_le
  rcases haccounted src hactive with hlive | hnoticed | hpass
  · exact hlive
  · rw [hnotices] at hnoticed
    cases hnoticed
  · rw [hpassed] at hpass
    cases hpass

theorem Accounted.countsLive (haccounted : t.Accounted) (hfits : t.fits derive event = true)
    (hstep : t.step derive event = some t') : t.CountsLive derive event t' := by
  constructor
  · rintro username src now verifies rfl _ hrefused
    unfold TurnServer.fits at hfits
    dsimp only at hfits
    have hfull : t.auth.full src = true := by
      rcases authHandle_cases derive t.auth username RELAY_REALM src now with
        ⟨e, herror, hcap⟩ | ⟨hok, _⟩
      · rw [herror] at hrefused
        cases hrefused
        exact hcap rfl
      · rw [hok] at hrefused
        cases hrefused
    have hidle := (Bool.and_eq_true_iff.mp hfits).2
    rw [hfull] at hidle
    simp only [Bool.not_true, Bool.false_or, Bool.and_eq_true, List.isEmpty_iff] at hidle
    unfold CappedAuth.full at hfull
    have hmany := of_decide_eq_true (Bool.and_eq_true_iff.mp hfull).2
    exact Nat.le_trans hmany (haccounted.live hidle.1 hidle.2)
  · intro hgone hpassed hnotices
    have hfew := (haccounted.step hfits hstep).live hpassed hnotices
    rw [hgone, List.length_nil, Nat.le_zero] at hfew
    exact List.eq_nil_of_length_eq_zero hfew

end

/-- A server that nobody has asked yet. -/
def fresh (secret : String) (maxAllocations : Nat) : TurnServer where
  auth := { secret, maxAllocations }

end TurnServer

/-- In a run in which each request that a client is counted for becomes an allocation, the count is
of live allocations. -/
theorem cap_counts_live (derive : Derivation) (secret : String) (maxAllocations : Nat)
    (events : List TurnEvent)
    (hfits : meets (TurnServer.step derive) (TurnServer.fits derive)
      (.fresh secret maxAllocations) events = true) :
    AtEach (TurnServer.step derive) (.fresh secret maxAllocations) events
      (TurnServer.CountsLive derive) := by
  refine AtEach.of_meets TurnServer.Accounted hfits (fun _ hnone => by cases hnone) ?_ ?_
  · exact fun _ _ _ haccounted hfits hstep => haccounted.step hfits hstep
  · exact fun _ _ _ haccounted hfits hstep => haccounted.countsLive hfits hstep

/-- A derivation for runs, in which the credential is the key. -/
def plainKeys : Derivation where
  relayCredential := fun secret username => secret ++ username
  generateAuthKey := fun _ _ password => password.toList.map fun digit => BitVec.ofNat 8 digit.toNat

def client (port : BitVec 16) (password : String) : TurnEvent :=
  .requested "9000" ⟨.v4 7, port⟩ 5000
    fun key => key == password.toList.map fun digit => BitVec.ofNat 8 digit.toNat

theorem cap_counts_live_one :
    AtEach (TurnServer.step plainKeys) (.fresh "s" 1)
      [client 1 "s9000", .created ⟨.v4 7, 1⟩, client 2 "s9000", .closed ⟨.v4 7, 1⟩, .noticed]
      (TurnServer.CountsLive plainKeys) :=
  cap_counts_live plainKeys "s" 1 _ (by decide)

/-- A stranger that has no credential takes the place of a client that has one. -/
theorem stranger_counted :
    ¬ AtEach (TurnServer.step plainKeys) (.fresh "s" 1) [client 1 "guess", client 2 "s9000"]
      (TurnServer.CountsLive plainKeys) := by
  intro hall
  have hplay : (runs (TurnServer.step plainKeys) (.fresh "s" 1) [client 1 "guess"]).any (fun t =>
      t.allocations = [] ∧ t.auth.maxAllocations = 1 ∧ t.auth.secret = "s" ∧
        (TurnServer.step plainKeys t (client 2 "s9000")).isSome ∧
          (t.auth.authHandle plainKeys "9000" RELAY_REALM ⟨.v4 7, 2⟩ 5000).1 =
            .error .capReached) = true := by
    decide
  obtain ⟨t, hrun, hend⟩ := (Option.any_eq_true _ _).mp hplay
  obtain ⟨hnone, hmax, hsecret, hstep, hrefused⟩ := of_decide_eq_true hend
  obtain ⟨t', hstep⟩ := Option.isSome_iff_exists.mp hstep
  have hcounts := hall [client 1 "guess"] _ t t' (List.prefix_refl _) hrun hstep
  have hfew := hcounts.refused "9000" _ 5000 _ rfl
    (by unfold CappedAuth.key; rw [hsecret]; decide) hrefused
  rw [hnone, hmax] at hfew
  exact absurd hfew (by decide)

end UnityLan.Engine
