import Mathlib.Data.List.Infix
import UnityLan.Common.Basic
import UnityLan.Foundation.Runs

namespace UnityLan.Engine.Oauth

open UnityLan.Foundation

/-! An interactive login: the loopback listener that waits for the redirect, and the lifecycle loop
that may load another key meanwhile. -/

abbrev Bytes := List UInt8

/-! The request on the listener. -/

def REPLACEMENT : Char := Char.ofNat 0xFFFD

structure Started where
  lacks : Nat
  least : Nat
  most : Nat
  code : Nat

def begins (byte : Nat) : List Char × Option Started :=
  if byte < 0x80 then ([Char.ofNat byte], none)
  else if byte < 0xC2 then ([REPLACEMENT], none)
  else if byte < 0xE0 then ([], some ⟨1, 0x80, 0xBF, byte - 0xC0⟩)
  else if byte < 0xF0 then
    ([], some ⟨2, if byte = 0xE0 then 0xA0 else 0x80, if byte = 0xED then 0x9F else 0xBF,
      byte - 0xE0⟩)
  else if byte < 0xF5 then
    ([], some ⟨3, if byte = 0xF0 then 0x90 else 0x80, if byte = 0xF4 then 0x8F else 0xBF,
      byte - 0xF0⟩)
  else ([REPLACEMENT], none)

def fromUtf8Lossy : Option Started → Bytes → List Char
  | none, [] => []
  | some _, [] => [REPLACEMENT]
  | none, byte :: rest => (begins byte.toNat).1 ++ fromUtf8Lossy (begins byte.toNat).2 rest
  | some started, byte :: rest =>
      if started.least ≤ byte.toNat ∧ byte.toNat ≤ started.most then
        let code := started.code * 64 + (byte.toNat - 0x80)
        if started.lacks = 1 then Char.ofNat code :: fromUtf8Lossy none rest
        else fromUtf8Lossy (some ⟨started.lacks - 1, 0x80, 0xBF, code⟩) rest
      else
        REPLACEMENT :: (begins byte.toNat).1 ++ fromUtf8Lossy (begins byte.toNat).2 rest

def splitWhitespace (text : List Char) : List (List Char) :=
  (text.splitOnP isWhitespace).filter fun word => !word.isEmpty

def splitOnce (mark : Char) (text : List Char) : Option (List Char × List Char) :=
  match text.span (· != mark) with
  | (_, []) => none
  | (front, _ :: back) => some (front, back)

/-- The parameters of the target, or `none` where there is no target. -/
def redirectQuery (buf : Bytes) : Option (List (String × String)) :=
  (splitWhitespace (fromUtf8Lossy none buf))[1]?.map fun target =>
    let query := ((splitOnce '?' target).map Prod.snd).getD []
    ((query.splitOn '&').filterMap (splitOnce '=')).map fun pair =>
      (String.ofList pair.1, String.ofList pair.2)

def lastValue (key : String) (pairs : List (String × String)) : Option String :=
  (pairs.filter fun pair => pair.1 == key).getLast?.map Prod.snd

inductive LoginError
  | malformed
  | discord (error : String)
  | mismatch
  | incomplete
  deriving DecidableEq

def LoginError.text : LoginError → String
  | .malformed => "malformed redirect request"
  | .discord error => "Discord returned error: " ++ error
  | .mismatch => "OAuth state mismatch (possible CSRF); login aborted"
  | .incomplete => "redirect missing code/state"

def redirected (own : String) (buf : Bytes) : Except LoginError String :=
  match redirectQuery buf with
  | none => .error .malformed
  | some pairs =>
      match lastValue "code" pairs, lastValue "state" pairs, lastValue "error" pairs with
      | some code, some state, error =>
          if state = own then .ok code
          else .error (error.elim .mismatch .discord)
      | none, some _, none => .error .mismatch
      | _, _, some error => .error (.discord error)
      | _, none, none => .error .incomplete

def loginPage (result : Except LoginError String) : Option String :=
  match result with
  | .ok _ => some "<h1>Logged in \u2713</h1><p>You can close this tab and return to UnityLAN.</p>"
  | .error .malformed => none
  | .error _ => some "<h1>Login failed</h1><p>You can close this tab.</p>"

def HEADER_END : Bytes := [13, 10, 13, 10]

def readEnough (buf : Bytes) : Bool :=
  decide (HEADER_END <:+: buf) || 8192 < buf.length

def carries (own : String) (buf : Bytes) : Bool :=
  ((redirectQuery buf).bind (lastValue "state")) == some own

def genuine (own : String) (buf : Bytes) : Bool :=
  readEnough buf && (redirected own buf).isOk

/-! The attempts. -/

/-- An attempt holds the listener for as long as it is not at its end. -/
structure Attempt where
  own : String
  pubkey : PubKey
  /-- The connections in the order they came, with what each sent so far; the first is the one
  that is accepted. -/
  streams : List (Nat × Bytes) := []
  code : Option String := none
  deriving DecidableEq

/-- What a `Login` request is answered. -/
inductive LoginReply
  /-- The URL to open, with the state of the attempt. -/
  | authorize (own : String)
  | error (text : String)
  deriving DecidableEq

structure Logins where
  /-- The key that the lifecycle loop registers with. -/
  wgPub : PubKey := 0
  /-- The key that a login binds. -/
  pubkey : PubKey := 0
  /-- The keys of the login requests that have no listener yet. -/
  asked : List PubKey := []
  attempt : Option Attempt := none
  reply : Option LoginReply := none
  /-- The keys bound by logins since the last register. -/
  bound : List PubKey := []
  deriving DecidableEq

inductive LoginEvent
  /-- The top of the lifecycle loop: a key is loaded. -/
  | keyed (key : PubKey)
  | published
  | registered
  /-- A `Login` request reads the key. -/
  | asked
  /-- The configuration is not to be had. -/
  | unreached (index : Nat) (text : String)
  /-- The listener is bound, and the attempt given its state. -/
  | begun (index : Nat) (own : String)
  | connected (connection : Nat)
  | sent (connection : Nat) (bytes : Bytes)
  | shut (connection : Nat)
  | broke (connection : Nat)
  /-- The exchange of the code or the binding failed. -/
  | failed
  /-- The coordinator bound the device. -/
  | completed
  | timedOut
  deriving DecidableEq

namespace Attempt

variable (attempt : Attempt)

def accepted (connection : Nat) : Bool :=
  attempt.streams.head?.any fun stream => stream.1 == connection

def stream (connection : Nat) : Bytes :=
  (attempt.streams.lookup connection).getD []

def hear (connection : Nat) (bytes : Bytes) : Attempt :=
  { attempt with
    streams := attempt.streams.map fun stream =>
      if stream.1 = connection then (stream.1, stream.2 ++ bytes) else stream }

def conclude (connection : Nat) : Option Attempt :=
  match redirected attempt.own (attempt.stream connection) with
  | .ok code => some { attempt with code := some code }
  | .error _ => none

def reading (connection : Nat) : Bool :=
  attempt.code.isNone && attempt.accepted connection

def onSent (connection : Nat) (bytes : Bytes) : Option Attempt :=
  let heard := attempt.hear connection bytes
  if attempt.reading connection && readEnough (heard.stream connection) then
    heard.conclude connection
  else some heard

def onShut (connection : Nat) : Option Attempt :=
  if attempt.reading connection then attempt.conclude connection else some attempt

def onBroke (connection : Nat) : Option Attempt :=
  if attempt.reading connection then none else some attempt

end Attempt

def LoginEvent.connection : LoginEvent → Option Nat
  | .connected connection => some connection
  | .sent connection _ => some connection
  | .shut connection => some connection
  | .broke connection => some connection
  | _ => none

def inUse : String :=
  "binding OAuth loopback listener: Address already in use"

namespace Logins

variable (l : Logins)

def begun (own : String) (pubkey : PubKey) : Logins :=
  match l.attempt with
  | none =>
      { l with attempt := some { own := own, pubkey := pubkey }, reply := some (.authorize own) }
  | some _ => { l with reply := some (.error inUse) }

def step : LoginEvent → Option Logins
  | .keyed key => some { l with wgPub := key }
  | .published => some { l with pubkey := l.wgPub }
  | .registered => some { l with bound := [] }
  | .asked => some { l with asked := l.asked ++ [l.pubkey] }
  | .unreached index text =>
      if index < l.asked.length then
        some { l with asked := l.asked.eraseIdx index, reply := some (.error text) }
      else none
  | .begun index own =>
      l.asked[index]?.map fun pubkey =>
        { l.begun own pubkey with asked := l.asked.eraseIdx index }
  | .connected connection =>
      l.attempt.bind fun attempt =>
        if attempt.streams.any fun stream => stream.1 == connection then none
        else some { l with attempt := some { attempt with
          streams := attempt.streams ++ [(connection, [])] } }
  | .sent connection bytes =>
      l.attempt.bind fun attempt =>
        if attempt.streams.any fun stream => stream.1 == connection then
          some { l with attempt := attempt.onSent connection bytes }
        else none
  | .shut connection =>
      l.attempt.map fun attempt => { l with attempt := attempt.onShut connection }
  | .broke connection =>
      l.attempt.map fun attempt => { l with attempt := attempt.onBroke connection }
  | .failed =>
      l.attempt.bind fun attempt =>
        if attempt.code.isSome then some { l with attempt := none } else none
  | .completed =>
      l.attempt.bind fun attempt =>
        if attempt.code.isSome then
          some { l with attempt := none, bound := attempt.pubkey :: l.bound }
        else none
  | .timedOut => l.attempt.map fun _ => { l with attempt := none }

/-! What a login is to be. -/

def OwnCode (event : LoginEvent) (l' : Logins) : Prop :=
  ∀ attempt', l'.attempt = some attempt' → attempt'.code.isSome = true →
    (∃ attempt, l.attempt = some attempt ∧ attempt.code = attempt'.code) ∨
      ∃ connection, event.connection = some connection ∧
        carries attempt'.own (attempt'.stream connection) = true

def hearing (attempt : Attempt) : LoginEvent → Attempt
  | .sent connection bytes => attempt.hear connection bytes
  | _ => attempt

def Unending (event : LoginEvent) (l' : Logins) : Prop :=
  ∀ attempt connection, l.attempt = some attempt → attempt.code = none →
    event.connection = some connection → l'.attempt = none →
    carries attempt.own ((hearing attempt event).stream connection) = true

def Honoured (event : LoginEvent) (l' : Logins) : Prop :=
  ∀ attempt connection bytes, l.attempt = some attempt → attempt.code = none →
    event = .sent connection bytes →
    genuine attempt.own ((attempt.hear connection bytes).stream connection) = true →
    ∃ attempt', l'.attempt = some attempt' ∧ attempt'.code.isSome = true

def Unrefused (event : LoginEvent) (l' : Logins) : Prop :=
  ∀ index own, event = .begun index own → l'.reply = some (.authorize own)

structure Honours (l : Logins) (event : LoginEvent) (l' : Logins) : Prop where
  code : l.OwnCode event l'
  unending : l.Unending event l'
  honoured : l.Honoured event l'
  unrefused : Unrefused event l'

/-- The keys bound since the last register are the one that registers. -/
def Binds (l : Logins) (event : LoginEvent) (_ : Logins) : Prop :=
  event = .registered → ∀ key ∈ l.bound, key = l.wgPub

/-- No login is asked for while an attempt holds the listener, and the first connection that the
attempt gets is the redirect. -/
def first : LoginEvent → Bool
  | .begun _ _ => l.attempt.isNone
  | .sent connection bytes =>
      l.attempt.all fun attempt =>
        let buf := (attempt.hear connection bytes).stream connection
        attempt.code.isSome ||
          if attempt.accepted connection then !readEnough buf || carries attempt.own buf
          else !genuine attempt.own buf
  | .shut connection =>
      l.attempt.all fun attempt =>
        !attempt.reading connection || carries attempt.own (attempt.stream connection)
  | .broke connection =>
      l.attempt.all fun attempt =>
        !attempt.reading connection || carries attempt.own (attempt.stream connection)
  | _ => true

/-- No other key is loaded while a login is under way or waits for its register, and none is
asked for before the key is published. -/
def steady : LoginEvent → Bool
  | .keyed key => key == l.wgPub || (l.asked.isEmpty && l.attempt.isNone && l.bound.isEmpty)
  | .asked => l.pubkey == l.wgPub
  | _ => true

structure OneKey : Prop where
  asked : ∀ key ∈ l.asked, key = l.wgPub
  attempt : ∀ attempt ∈ l.attempt, attempt.pubkey = l.wgPub
  bound : ∀ key ∈ l.bound, key = l.wgPub

end Logins

section

variable {l l' : Logins} {event : LoginEvent} {attempt : Attempt} {own code : String} {buf : Bytes}
  {connection : Nat}

theorem redirected_carries (hcode : redirected own buf = .ok code) : carries own buf = true := by
  unfold redirected at hcode
  unfold carries
  cases hquery : redirectQuery buf with
  | none =>
      rw [hquery] at hcode
      cases hcode
  | some pairs =>
      rw [hquery] at hcode
      dsimp only at hcode
      split at hcode
      · rename_i state _ _ hstate
        split at hcode
        · rename_i hown
          simp [hstate, hown]
        · cases hcode
      all_goals cases hcode

@[simp] theorem hear_own (connection : Nat) (bytes : Bytes) :
    (attempt.hear connection bytes).own = attempt.own := rfl

@[simp] theorem hear_code (connection : Nat) (bytes : Bytes) :
    (attempt.hear connection bytes).code = attempt.code := rfl

theorem conclude_cases (attempt : Attempt) (connection : Nat) :
    (∃ code, redirected attempt.own (attempt.stream connection) = .ok code ∧
        attempt.conclude connection = some { attempt with code := some code }) ∨
      (redirected attempt.own (attempt.stream connection)).isOk = false ∧
        attempt.conclude connection = none := by
  unfold Attempt.conclude
  cases redirected attempt.own (attempt.stream connection) with
  | ok code => exact .inl ⟨code, rfl, rfl⟩
  | error error => exact .inr ⟨rfl, rfl⟩

/-! One step. -/

theorem honours_quiet (hsame : l'.attempt = l.attempt ∨ l'.attempt = none)
    (hconnection : event.connection = none) (hbegun : ∀ index own, event ≠ .begun index own) :
    l.Honours event l' := by
  constructor
  · intro attempt' hattempt _
    rcases hsame with hsame | hnone
    · exact .inl ⟨attempt', hsame.symm.trans hattempt, rfl⟩
    · cases hnone.symm.trans hattempt
  · intro attempt connection _ _ hsome
    cases hconnection.symm.trans hsome
  · rintro attempt connection bytes _ _ rfl
    cases hconnection
  · intro index own hbegins
    exact absurd hbegins (hbegun index own)

theorem honours_begun {index : Nat} {pubkey : PubKey} {asked : List PubKey} :
    l.Honours (.begun index own) { l.begun own pubkey with asked := asked } ↔
      l.attempt.isNone = true := by
  unfold Logins.begun
  cases hattempt : l.attempt with
  | none =>
      refine ⟨fun _ => rfl, fun _ => ⟨?_, nofun, nofun, ?_⟩⟩
      · rintro attempt' ⟨⟩ hcode
        cases hcode
      · rintro index own ⟨⟩
        rfl
  | some attempt =>
      refine ⟨fun hhonours => ?_, nofun⟩
      have hreply := hhonours.unrefused index own rfl
      cases hreply

theorem honours_connected (hconnected : l.step (.connected connection) = some l') :
    l.Honours (.connected connection) l' := by
  obtain ⟨attempt, hattempt, hnew⟩ := Option.bind_eq_some_iff.mp hconnected
  split at hnew
  · cases hnew
  cases hnew
  refine ⟨?_, nofun, nofun, nofun⟩
  rintro attempt' ⟨⟩ _
  exact .inl ⟨attempt, hattempt, rfl⟩

theorem honours_over (hattempt : l.attempt = some attempt)
    (hevent : event = .shut connection ∨ event = .broke connection)
    (hover : l' = { l with attempt := none } ∨ ∃ code,
      redirected attempt.own (attempt.stream connection) = .ok code ∧
        l' = { l with attempt := some { attempt with code := some code } })
    (hwaits : attempt.code = none) :
    l.Honours event l' ↔ carries attempt.own (attempt.stream connection) = true := by
  have hconnection : event.connection = some connection := by
    rcases hevent with rfl | rfl
    · rfl
    · rfl
  have hhearing : Logins.hearing attempt event = attempt := by
    rcases hevent with rfl | rfl
    · rfl
    · rfl
  constructor
  · intro hhonours
    rcases hover with rfl | ⟨code, hcode, rfl⟩
    · have hcarries := hhonours.unending attempt connection hattempt hwaits hconnection rfl
      rwa [hhearing] at hcarries
    · exact redirected_carries hcode
  · intro hcarries
    constructor
    · intro attempt' hattempt' _
      rcases hover with rfl | ⟨code, hcode, rfl⟩
      · cases hattempt'
      · cases hattempt'
        exact .inr ⟨connection, hconnection, redirected_carries hcode⟩
    · intro other another hother _ hsame _
      cases hattempt.symm.trans hother
      cases hconnection.symm.trans hsame
      rwa [hhearing]
    · rintro other another bytes _ _ rfl
      rcases hevent with hevent | hevent
      · cases hevent
      · cases hevent
    · rintro index own rfl
      rcases hevent with hevent | hevent
      · cases hevent
      · cases hevent

theorem honours_kept (hattempt : l.attempt = some attempt)
    (hevent : event = .shut connection ∨ event = .broke connection) :
    l.Honours event l := by
  constructor
  · intro attempt' hattempt' _
    exact .inl ⟨attempt', hattempt', rfl⟩
  · intro other another _ _ _ hnone
    cases hnone.symm.trans hattempt
  · rintro other another bytes _ _ rfl
    rcases hevent with hevent | hevent
    · cases hevent
    · cases hevent
  · rintro index own rfl
    rcases hevent with hevent | hevent
    · cases hevent
    · cases hevent

theorem honours_shut (hshut : l.step (.shut connection) = some l') :
    l.Honours (.shut connection) l' ↔ l.first (.shut connection) = true := by
  obtain ⟨attempt, hattempt, rfl⟩ := Option.map_eq_some_iff.mp hshut
  have hfirst : l.first (.shut connection) =
      (!attempt.reading connection || carries attempt.own (attempt.stream connection)) := by
    simp only [Logins.first, hattempt, Option.all_some]
  rw [hfirst]
  unfold Attempt.onShut
  cases hreading : attempt.reading connection with
  | false =>
      have hsame : { l with attempt := some attempt } = l := by rw [← hattempt]
      simp only [Bool.false_eq_true, if_false, Bool.not_false, Bool.true_or, iff_true]
      rw [hsame]
      exact honours_kept hattempt (.inl rfl)
  | true =>
      rw [Bool.not_true, Bool.false_or]
      refine honours_over hattempt (.inl rfl) ?_ ?_
      · rcases conclude_cases attempt connection with ⟨code, hcode, hsome⟩ | ⟨_, hnone⟩
        · exact .inr ⟨code, hcode, by simp [hsome]⟩
        · exact .inl (by simp [hnone])
      · simpa using (Bool.and_eq_true_iff.mp hreading).1

theorem honours_broke (hbroke : l.step (.broke connection) = some l') :
    l.Honours (.broke connection) l' ↔ l.first (.broke connection) = true := by
  obtain ⟨attempt, hattempt, rfl⟩ := Option.map_eq_some_iff.mp hbroke
  have hfirst : l.first (.broke connection) =
      (!attempt.reading connection || carries attempt.own (attempt.stream connection)) := by
    simp only [Logins.first, hattempt, Option.all_some]
  rw [hfirst]
  unfold Attempt.onBroke
  cases hreading : attempt.reading connection with
  | false =>
      have hsame : { l with attempt := some attempt } = l := by rw [← hattempt]
      simp only [Bool.false_eq_true, if_false, Bool.not_false, Bool.true_or, iff_true]
      rw [hsame]
      exact honours_kept hattempt (.inr rfl)
  | true =>
      rw [Bool.not_true, Bool.false_or]
      refine honours_over hattempt (.inr rfl) (.inl rfl) ?_
      simpa using (Bool.and_eq_true_iff.mp hreading).1

theorem honours_sent {bytes : Bytes} (hsent : l.step (.sent connection bytes) = some l') :
    l.Honours (.sent connection bytes) l' ↔ l.first (.sent connection bytes) = true := by
  obtain ⟨attempt, hattempt, hheard⟩ := Option.bind_eq_some_iff.mp hsent
  split at hheard
  case isFalse => cases hheard
  cases hheard
  have hfirst : l.first (.sent connection bytes) =
      (attempt.code.isSome ||
        if attempt.accepted connection then
          !readEnough ((attempt.hear connection bytes).stream connection) ||
            carries attempt.own ((attempt.hear connection bytes).stream connection)
        else !genuine attempt.own ((attempt.hear connection bytes).stream connection)) := by
    simp only [Logins.first, hattempt, Option.all_some]
  rw [hfirst]
  generalize hbuf : (attempt.hear connection bytes).stream connection = buf
  have hunread : ∀ after : Attempt, after.code = attempt.code →
      (attempt.code = none → genuine attempt.own buf = false) →
      l.Honours (.sent connection bytes) { l with attempt := some after } := by
    intro after hcode hstray
    refine ⟨fun attempt' hattempt' _ => ?_, nofun, ?_, nofun⟩
    · cases hattempt'
      exact .inl ⟨attempt, hattempt, hcode.symm⟩
    · rintro other another chunk hother hwaits ⟨⟩ hgenuine
      cases hattempt.symm.trans hother
      rw [hbuf, hstray hwaits] at hgenuine
      cases hgenuine
  have hunsent : ∀ taken, (attempt.reading connection && readEnough buf) = taken →
      attempt.onSent connection bytes =
        if taken then (attempt.hear connection bytes).conclude connection
        else some (attempt.hear connection bytes) := by
    rintro _ rfl
    rw [← hbuf]
    rfl
  cases hcode : attempt.code with
  | some code =>
      rw [hunsent false (by simp [Attempt.reading, hcode])]
      simp only [Option.isSome_some, Bool.true_or, iff_true]
      exact hunread _ rfl fun hwaits => by simp [hcode] at hwaits
  | none =>
      cases haccepted : attempt.accepted connection with
      | false =>
          rw [hunsent false (by simp [Attempt.reading, haccepted])]
          simp only [Option.isSome_none, Bool.false_or, Bool.false_eq_true, if_false,
            Bool.not_eq_true']
          refine ⟨fun hhonours => ?_, fun hstray => hunread _ rfl fun _ => hstray⟩
          cases hgenuine : genuine attempt.own buf with
          | false => rfl
          | true =>
              rw [← hbuf] at hgenuine
              obtain ⟨attempt', hattempt', htaken⟩ :=
                hhonours.honoured attempt connection bytes hattempt hcode rfl hgenuine
              cases hattempt'
              simp [hcode] at htaken
      | true =>
          cases hread : readEnough buf with
          | false =>
              rw [hunsent false (by simp [hread])]
              simp only [Bool.not_false, Bool.true_or, if_true, Bool.or_true, iff_true]
              exact hunread _ rfl fun _ => by simp [genuine, hread]
          | true =>
              rw [hunsent true (by simp [Attempt.reading, hcode, haccepted, hread])]
              simp only [Option.isSome_none, Bool.false_or, if_true, Bool.not_true]
              have hconclude := conclude_cases (attempt.hear connection bytes) connection
              rw [hbuf, hear_own] at hconclude
              rcases hconclude with ⟨code, hredirected, hsome⟩ | ⟨hfails, hnone⟩
              · rw [hsome]
                have hcarries := redirected_carries hredirected
                refine ⟨fun _ => hcarries, fun _ => ⟨?_, nofun, ?_, nofun⟩⟩
                · rintro attempt' ⟨⟩ _
                  exact .inr ⟨connection, rfl, by
                    show carries attempt.own ((attempt.hear connection bytes).stream connection) = _
                    rw [hbuf, hcarries]⟩
                · exact fun _ _ _ _ _ _ _ => ⟨_, rfl, rfl⟩
              · rw [hnone]
                constructor
                · intro hhonours
                  have hcarries := hhonours.unending attempt connection hattempt hcode rfl rfl
                  rw [← hbuf]
                  exact hcarries
                · intro hcarries
                  refine ⟨nofun, ?_, ?_, nofun⟩
                  · rintro other another hother _ ⟨⟩ _
                    cases hattempt.symm.trans hother
                    show carries attempt.own ((attempt.hear connection bytes).stream connection) = _
                    rw [hbuf, hcarries]
                  · rintro other another chunk hother _ ⟨⟩ hgenuine
                    cases hattempt.symm.trans hother
                    rw [hbuf, genuine, hfails, Bool.and_false] at hgenuine
                    cases hgenuine

/-- At one step a login is honoured exactly when the listener is free for it and its redirect the
first to come. -/
theorem honours_iff (hstep : l.step event = some l') :
    l.Honours event l' ↔ l.first event = true := by
  have hquiet : l.first event = true → l.Honours event l' →
      (l.Honours event l' ↔ l.first event = true) :=
    fun hfirst hhonours => ⟨fun _ => hfirst, fun _ => hhonours⟩
  cases event with
  | begun index own =>
      obtain ⟨pubkey, _, rfl⟩ := Option.map_eq_some_iff.mp hstep
      exact honours_begun
  | sent connection bytes => exact honours_sent hstep
  | shut connection => exact honours_shut hstep
  | broke connection => exact honours_broke hstep
  | connected connection => exact hquiet rfl (honours_connected hstep)
  | keyed key =>
      cases hstep
      exact hquiet rfl (honours_quiet (.inl rfl) rfl nofun)
  | published =>
      cases hstep
      exact hquiet rfl (honours_quiet (.inl rfl) rfl nofun)
  | registered =>
      cases hstep
      exact hquiet rfl (honours_quiet (.inl rfl) rfl nofun)
  | asked =>
      cases hstep
      exact hquiet rfl (honours_quiet (.inl rfl) rfl nofun)
  | unreached index text =>
      obtain ⟨_, hsome⟩ := Option.ite_none_right_eq_some.mp hstep
      cases hsome
      exact hquiet rfl (honours_quiet (.inl rfl) rfl nofun)
  | failed =>
      obtain ⟨attempt, _, hsome⟩ := Option.bind_eq_some_iff.mp hstep
      obtain ⟨_, hsome⟩ := Option.ite_none_right_eq_some.mp hsome
      cases hsome
      exact hquiet rfl (honours_quiet (.inr rfl) rfl nofun)
  | completed =>
      obtain ⟨attempt, _, hsome⟩ := Option.bind_eq_some_iff.mp hstep
      obtain ⟨_, hsome⟩ := Option.ite_none_right_eq_some.mp hsome
      cases hsome
      exact hquiet rfl (honours_quiet (.inr rfl) rfl nofun)
  | timedOut =>
      obtain ⟨attempt, _, rfl⟩ := Option.map_eq_some_iff.mp hstep
      exact hquiet rfl (honours_quiet (.inr rfl) rfl nofun)

theorem Logins.OneKey.of_same (hone : l.OneKey) (hkey : l'.wgPub = l.wgPub)
    (hasked : ∀ key ∈ l'.asked, key ∈ l.asked)
    (hattempt : ∀ attempt ∈ l'.attempt, ∃ held ∈ l.attempt, attempt.pubkey = held.pubkey)
    (hbound : ∀ key ∈ l'.bound, key ∈ l.bound) : l'.OneKey := by
  constructor
  · intro key hmem
    rw [hkey]
    exact hone.asked key (hasked key hmem)
  · intro attempt hmem
    obtain ⟨held, hheld, hsame⟩ := hattempt attempt hmem
    rw [hkey, hsame]
    exact hone.attempt held hheld
  · intro key hmem
    rw [hkey]
    exact hone.bound key (hbound key hmem)

theorem conclude_pubkey {attempt' : Attempt}
    (hconclude : attempt.conclude connection = some attempt') :
    attempt'.pubkey = attempt.pubkey := by
  rcases conclude_cases attempt connection with ⟨code, _, hsome⟩ | ⟨_, hnone⟩
  · cases hsome.symm.trans hconclude
    rfl
  · cases hnone.symm.trans hconclude

theorem onConnection_pubkey {attempt' : Attempt} (bytes : Bytes)
    (hafter : attempt.onSent connection bytes = some attempt' ∨
      attempt.onShut connection = some attempt' ∨ attempt.onBroke connection = some attempt') :
    attempt'.pubkey = attempt.pubkey := by
  rcases hafter with hsent | hshut | hbroke
  · unfold Attempt.onSent at hsent
    dsimp only at hsent
    split at hsent
    · exact (conclude_pubkey hsent).trans rfl
    · cases hsent
      rfl
  · unfold Attempt.onShut at hshut
    split at hshut
    · exact conclude_pubkey hshut
    · cases hshut
      rfl
  · unfold Attempt.onBroke at hbroke
    split at hbroke
    · cases hbroke
    · cases hbroke
      rfl

theorem steady_keyed {key : PubKey} (hsteady : l.steady (.keyed key) = true) :
    key = l.wgPub ∨ l.asked = [] ∧ l.attempt = none ∧ l.bound = [] := by
  rcases Bool.or_eq_true_iff.mp hsteady with hsame | hidle
  · exact .inl (beq_iff_eq.mp hsame)
  · obtain ⟨hidle, hbound⟩ := Bool.and_eq_true_iff.mp hidle
    obtain ⟨hasked, hattempt⟩ := Bool.and_eq_true_iff.mp hidle
    exact .inr ⟨List.isEmpty_iff.mp hasked, Option.isNone_iff_eq_none.mp hattempt,
      List.isEmpty_iff.mp hbound⟩

theorem begun_cases (l : Logins) (own : String) (pubkey : PubKey) :
    l.begun own pubkey =
        { l with
          attempt := some { own := own, pubkey := pubkey }
          reply := some (.authorize own) } ∨
      l.begun own pubkey = { l with reply := some (.error inUse) } := by
  unfold Logins.begun
  cases l.attempt with
  | none => exact .inl rfl
  | some attempt => exact .inr rfl

theorem Logins.OneKey.step (hone : l.OneKey) (hsteady : l.steady event = true)
    (hstep : l.step event = some l') : l'.OneKey := by
  cases event with
  | keyed key =>
      cases hstep
      rcases steady_keyed hsteady with hsame | ⟨hasked, hattempt, hbound⟩
      · rw [hsame]
        exact ⟨hone.asked, hone.attempt, hone.bound⟩
      · refine ⟨fun _ hkey => ?_, fun _ hheld => ?_, fun _ hkey => ?_⟩
        · rw [show _ = [] from hasked] at hkey
          cases hkey
        · cases hattempt.symm.trans hheld
        · rw [show _ = [] from hbound] at hkey
          cases hkey
  | published =>
      cases hstep
      exact ⟨hone.asked, hone.attempt, hone.bound⟩
  | registered =>
      cases hstep
      exact ⟨hone.asked, hone.attempt, nofun⟩
  | asked =>
      cases hstep
      refine ⟨fun key hkey => ?_, hone.attempt, hone.bound⟩
      rcases List.mem_append.mp hkey with hold | hnew
      · exact hone.asked key hold
      · obtain rfl := List.mem_singleton.mp hnew
        exact beq_iff_eq.mp hsteady
  | unreached index text =>
      obtain ⟨_, hsome⟩ := Option.ite_none_right_eq_some.mp hstep
      cases hsome
      exact ⟨fun key hkey => hone.asked key (List.mem_of_mem_eraseIdx hkey), hone.attempt,
        hone.bound⟩
  | begun index own =>
      obtain ⟨pubkey, hpubkey, rfl⟩ := Option.map_eq_some_iff.mp hstep
      have hlater : ∀ key ∈ l.asked.eraseIdx index, key = l.wgPub :=
        fun key hkey => hone.asked key (List.mem_of_mem_eraseIdx hkey)
      rcases begun_cases l own pubkey with hbegun | hbegun
      · rw [hbegun]
        refine ⟨hlater, ?_, hone.bound⟩
        rintro attempt ⟨⟩
        exact hone.asked pubkey (List.mem_of_getElem? hpubkey)
      · rw [hbegun]
        exact ⟨hlater, hone.attempt, hone.bound⟩
  | connected connection =>
      obtain ⟨attempt, hattempt, hnew⟩ := Option.bind_eq_some_iff.mp hstep
      split at hnew
      · cases hnew
      cases hnew
      refine hone.of_same rfl (fun _ h => h) ?_ fun _ h => h
      rintro attempt' ⟨⟩
      exact ⟨attempt, hattempt, rfl⟩
  | sent connection bytes =>
      obtain ⟨attempt, hattempt, hheard⟩ := Option.bind_eq_some_iff.mp hstep
      split at hheard
      case isFalse => cases hheard
      cases hheard
      exact hone.of_same rfl (fun _ h => h)
        (fun attempt' hafter => ⟨attempt, hattempt,
          onConnection_pubkey bytes (.inl hafter)⟩) fun _ h => h
  | shut connection =>
      obtain ⟨attempt, hattempt, rfl⟩ := Option.map_eq_some_iff.mp hstep
      exact hone.of_same rfl (fun _ h => h)
        (fun attempt' hafter => ⟨attempt, hattempt,
          onConnection_pubkey [] (.inr (.inl hafter))⟩) fun _ h => h
  | broke connection =>
      obtain ⟨attempt, hattempt, rfl⟩ := Option.map_eq_some_iff.mp hstep
      exact hone.of_same rfl (fun _ h => h)
        (fun attempt' hafter => ⟨attempt, hattempt,
          onConnection_pubkey [] (.inr (.inr hafter))⟩) fun _ h => h
  | failed =>
      obtain ⟨attempt, _, hsome⟩ := Option.bind_eq_some_iff.mp hstep
      obtain ⟨_, hsome⟩ := Option.ite_none_right_eq_some.mp hsome
      cases hsome
      exact ⟨hone.asked, nofun, hone.bound⟩
  | completed =>
      obtain ⟨attempt, hattempt, hsome⟩ := Option.bind_eq_some_iff.mp hstep
      obtain ⟨_, hsome⟩ := Option.ite_none_right_eq_some.mp hsome
      cases hsome
      refine ⟨hone.asked, nofun, fun key hkey => ?_⟩
      rcases List.mem_cons.mp hkey with rfl | hold
      · exact hone.attempt attempt hattempt
      · exact hone.bound key hold
  | timedOut =>
      obtain ⟨attempt, _, rfl⟩ := Option.map_eq_some_iff.mp hstep
      exact ⟨hone.asked, nofun, hone.bound⟩

/-- In every run, logins are honoured exactly when the listener is free for each of them and its
redirect the first to come; and where no other key is loaded while a login is under way, they
bind the key that registers next. -/
theorem login_lands_iff (events : List LoginEvent) :
    (AtEach Logins.step {} events Logins.Honours ↔
      meets Logins.step Logins.first {} events = true) ∧
    (meets Logins.step Logins.steady {} events = true →
      AtEach Logins.step {} events Logins.Binds) := by
  constructor
  · rw [meets_iff]
    exact AtEach.congr (fun _ => True) trivial (fun _ _ _ _ _ => trivial)
      fun _ _ _ _ hstep => honours_iff hstep
  · intro hsteady
    have hstart : ({} : Logins).OneKey := ⟨nofun, nofun, nofun⟩
    have hone : Throughout Logins.step {} events Logins.OneKey :=
      Throughout.of_step Logins.OneKey hsteady hstart
        (fun _ _ _ hone htest hstep => hone.step htest hstep)
        fun _ hone => hone
    rintro before event l l' hinit hrun _ rfl
    exact (hone before l ((List.prefix_append before _).trans hinit) hrun).bound

/-- A browser opens a connection ahead of the redirect and sends nothing on it: the attempt is at
its end before the redirect comes. -/
def preconnected : List LoginEvent :=
  [.keyed 7, .published, .asked, .begun 0 "s", .connected 1, .shut 1]

def ascii (text : String) : Bytes :=
  text.toList.map fun c => UInt8.ofNat c.toNat

/-- A logout replaces the key while the login is in the browser. -/
def rekeyed : List LoginEvent :=
  [.keyed 7, .published, .asked, .begun 0 "s", .connected 1,
    .sent 1 (ascii "GET /callback?code=c&state=s HTTP/1.1\r\n\r\n"),
    .keyed 8, .published, .completed]

theorem login_lost :
    ¬ AtEach Logins.step {} preconnected Logins.Honours ∧
    ¬ AtEach Logins.step {} (rekeyed ++ [.registered]) Logins.Binds := by
  constructor
  · intro hhonours
    have hshut := hhonours [.keyed 7, .published, .asked, .begun 0 "s", .connected 1] (.shut 1) _ _
      (List.prefix_refl _) rfl rfl
    have hcarries := hshut.unending _ 1 rfl rfl rfl rfl
    revert hcarries
    decide +kernel
  · intro hbinds
    have hplay : (runs Logins.step {} rekeyed).any (fun l => l.bound = [7] ∧ l.wgPub = 8) =
        true := by
      decide +kernel
    obtain ⟨l, hrun, hend⟩ := (Option.any_eq_true _ _).mp hplay
    obtain ⟨hbound, hkey⟩ := of_decide_eq_true hend
    have hsame := hbinds rekeyed .registered l _ (List.prefix_refl _) hrun rfl rfl 7
      (by rw [hbound]; exact List.mem_singleton_self 7)
    rw [hkey] at hsame
    exact absurd hsame (by decide)

end

end UnityLan.Engine.Oauth
