import UnityLan.Engine.Keys

namespace UnityLan.Engine

open UnityLan.Foundation

/-! The engine's side of a register: what it does with the coordinator's answer. -/

/-- An answer, the clock when it came, and what the disk did meanwhile: while each of
its anchors was pinned, and while each pin was read back. -/
structure Received where
  resp : RegisterResp
  now : Nat := 0
  disk : Nat → Disk := fun _ => {}
  loads : Nat → Disk := fun _ => {}

/-- An anchor to pin, and the disk it is pinned on. -/
abbrev Attempt := GuildAnchor × Disk

def Received.attempts (received : Received) : List Attempt :=
  received.resp.anchors.mapIdx fun index anchor => (anchor, received.disk index)

structure SelfDevice where
  communityName : String
  userId : UserId
  username : String
  networks : List String
  wgIp : Ipv4Addr
  wgNet : Ipv4Net
  hostname : String
  isPrimary : Bool
  grantExpiresAt : Nat
  primaryAlias : Option String
  networksStatus : List NetworkStatus
  dnsDomain : Option String

inductive PostError
  | pin (error : PinError)
  | grant
  deriving DecidableEq

def PostError.text : PostError → String
  | .pin error => error.text
  | .grant => "verifying grant: no grant attestation verified against a pinned guild anchor"

variable (decodes : Anchor → Bool)

def pinAnchors : List Attempt → Pins → Pins × Except PinError Unit
  | [], pins => (pins, .ok ())
  | (anchor, disk) :: rest, pins =>
      match pinAnchor decodes disk pins anchor.guildId anchor.pubkey anchor.rotationChain with
      | .error error => (pins, .error error)
      | .ok pins => pinAnchors rest pins

def pinnedAnchors (received : Received) (pins : Pins) : List (GuildId × Anchor) :=
  (received.resp.anchors.mapIdx fun index anchor =>
    match loadAnchor (received.loads index) pins anchor.guildId with
    | .ok bytes => some (anchor.guildId, bytes)
    | .error _ => none).reduceOption

def verifyAgainstPinned (signed : AttestationBlob) (pinned : List (GuildId × Anchor)) (now : Nat)
    (schema : Nat) : Option Attestation :=
  pinned.findSome? fun pin =>
    match anchorFromBytes decodes pin.2 with
    | none => none
    | some anchor => (verifyAttestation signed anchor now pin.1 schema).toOption

def firstVerified (blobs : List GuildAttestation) (pinned : List (GuildId × Anchor)) (now : Nat)
    (accept : Attestation → Bool) : Option (GuildAttestation × Attestation) :=
  blobs.findSome? fun blob =>
    match verifyAgainstPinned decodes blob.attestation pinned now blob.attSchema with
    | none => none
    | some att => if accept att then some (blob, att) else none

def verifyGrant (grant : Grant) (pinned : List (GuildId × Anchor)) (now : Nat) :
    Option (Attestation × String) :=
  (firstVerified decodes grant.attestations pinned now fun _ => true).map fun found =>
    (found.2, found.1.communityName)

def selfDevice (resp : RegisterResp) (networks : List String) (att : Attestation)
    (community : String) : SelfDevice where
  communityName := community
  userId := att.userId
  username := att.username
  networks := networks
  wgIp := att.wgIp
  wgNet := att.wgNet
  hostname := att.hostname
  isPrimary := att.isPrimary
  grantExpiresAt := att.expiresAt
  primaryAlias := att.primaryAlias
  networksStatus := resp.networks
  dnsDomain := resp.dnsDomain

def post (received : Received) (pins : Pins) :
    Pins × Except PostError (RegisterResp × Option SelfDevice) :=
  match pinAnchors decodes received.attempts pins with
  | (pins, .error error) => (pins, .error (.pin error))
  | (pins, .ok ()) =>
      match received.resp.grant with
      | none => (pins, .ok (received.resp, none))
      | some grant =>
          match verifyGrant decodes grant (pinnedAnchors received pins) received.now with
          | none => (pins, .error .grant)
          | some (att, community) =>
              (pins, .ok (received.resp,
                some (selfDevice received.resp grant.networks att community)))

theorem post_pins (received : Received) (pins : Pins) :
    (post decodes received pins).1 = (pinAnchors decodes received.attempts pins).1 := by
  unfold post
  split
  · rename_i pins' error hpinned
    rw [hpinned]
  · rename_i pins' hpinned
    rw [hpinned]
    split
    · rfl
    · split <;> rfl

theorem post_refused {received : Received} {pins pins' : Pins} {error : PinError}
    (hrefused : post decodes received pins = (pins', .error (.pin error))) :
    pinAnchors decodes received.attempts pins = (pins', .error error) := by
  unfold post at hrefused
  split at hrefused
  · rename_i pins'' error' hpinned
    cases hrefused
    exact hpinned
  · split at hrefused
    · cases hrefused
    · split at hrefused <;> cases hrefused

theorem attempts_anchors (received : Received) :
    received.attempts.map Prod.fst = received.resp.anchors := by
  unfold Received.attempts
  apply List.ext_getElem
  · simp
  · intro index hleft hright
    simp

/-! A refused answer. -/

/-- The guild's pin once these anchors are pinned: the last of them that is its own. -/
def pinnedBy (anchors : List GuildAnchor) (pins : Pins) (guild : GuildId) : Option PinFile :=
  anchors.foldl
    (fun pin anchor => if anchor.guildId = guild then some (.anchor anchor.pubkey) else pin)
    (pins.get? guild)

variable {decodes}

theorem pinnedBy_cons {anchor : GuildAnchor} {anchors : List GuildAnchor} {pins pins' : Pins}
    (hpinned : pins'.get? anchor.guildId = some (.anchor anchor.pubkey))
    (hothers : ∀ other, other ≠ anchor.guildId → pins'.get? other = pins.get? other)
    (guild : GuildId) :
    pinnedBy (anchor :: anchors) pins guild = pinnedBy anchors pins' guild := by
  unfold pinnedBy
  rw [List.foldl_cons]
  by_cases hguild : anchor.guildId = guild
  · rw [if_pos hguild, ← hguild, hpinned]
  · rw [if_neg hguild, hothers guild (Ne.symm hguild)]

theorem pinnedBy_held {anchors : List GuildAnchor} {pins : Pins}
    (hheld : ∀ anchor ∈ anchors, pins.get? anchor.guildId = some (.anchor anchor.pubkey))
    (guild : GuildId) : pinnedBy anchors pins guild = pins.get? guild := by
  induction anchors with
  | nil => rfl
  | cons anchor rest ih =>
      have hfirst := hheld anchor (List.mem_cons_self ..)
      rw [pinnedBy_cons hfirst fun _ _ => rfl]
      exact ih fun other hother => hheld other (List.mem_cons_of_mem _ hother)

theorem pinAnchors_error {attempts : List Attempt} {pins pins' : Pins} {error : PinError}
    (hrefused : pinAnchors decodes attempts pins = (pins', .error error)) :
    ∃ before refused after, attempts = before ++ refused :: after ∧
      pinAnchor decodes refused.2 pins' refused.1.guildId refused.1.pubkey
        refused.1.rotationChain = .error error ∧
      ∀ guild, pins'.get? guild = pinnedBy (before.map Prod.fst) pins guild := by
  induction attempts generalizing pins with
  | nil => cases hrefused
  | cons attempt rest ih =>
      unfold pinAnchors at hrefused
      cases hpin : pinAnchor decodes attempt.2 pins attempt.1.guildId attempt.1.pubkey
          attempt.1.rotationChain with
      | error error' =>
          rw [hpin] at hrefused
          cases hrefused
          exact ⟨[], attempt, rest, rfl, hpin, fun guild => rfl⟩
      | ok pinned =>
          rw [hpin] at hrefused
          obtain ⟨before, refused, after, hsplit, herror, hpins⟩ := ih hrefused
          obtain ⟨hfirst, hothers, -⟩ := pinAnchor_ok hpin
          refine ⟨attempt :: before, refused, after, by rw [hsplit]; rfl, herror, ?_⟩
          intro guild
          rw [List.map_cons, pinnedBy_cons hfirst hothers]
          exact hpins guild

variable (decodes)

/-- An answer refused for an anchor has pinned the anchors before it, each for its
guild, and changed no other pin; a store that held those anchors is as it was. -/
theorem refused_answer_pins {received : Received} {pins pins' : Pins} {guild : GuildId}
    (hrefused : post decodes received pins = (pins', .error (.pin (.noRotationPath guild)))) :
    ∃ before refused after, received.resp.anchors = before ++ refused :: after ∧
      refused.guildId = guild ∧
      (∀ other, pins'.get? other = pinnedBy before pins other) ∧
      ((∀ anchor ∈ before, pins.get? anchor.guildId = some (.anchor anchor.pubkey)) →
        ∀ other, pins'.get? other = pins.get? other) := by
  have hpinning : pinAnchors decodes received.attempts pins =
      (pins', .error (.noRotationPath guild)) := post_refused decodes hrefused
  obtain ⟨before, refused, after, hsplit, herror, hpins⟩ := pinAnchors_error hpinning
  refine ⟨before.map Prod.fst, refused.1, after.map Prod.fst, ?_, ?_, hpins, ?_⟩
  · rw [← attempts_anchors, hsplit, List.map_append, List.map_cons]
  · exact pinAnchor_refused herror
  · intro hheld other
    rw [hpins other, pinnedBy_held hheld]

/-- The answer's second anchor is not the pinned one; its first is for a new guild. -/
def halfForged : Received where
  resp := { anchors := [⟨5, 1, []⟩, ⟨6, 2, []⟩] }

/-- A refused answer has pinned a guild for the first time. -/
theorem refused_answer_pins_guild :
    ¬ ∀ received pins pins' guild,
      post (fun _ => true) received pins = (pins', .error (.pin (.noRotationPath guild))) →
        ∀ other, pins'.get? other = pins.get? other := by
  intro hclaim
  let pins : Pins := (∅ : Pins).insert 6 (.anchor 3)
  have hunchanged := hclaim halfForged pins (pins.insert 5 (.anchor 1)) 6 rfl 5
  have hpinned : ((pins.insert 5 (.anchor 1)).get? 5) = some (.anchor 1) := by decide
  have hunpinned : pins.get? 5 = none := by decide
  rw [hpinned, hunpinned] at hunchanged
  cases hunchanged

theorem refused_answer_pins_forged :
    let pins : Pins := (∅ : Pins).insert 6 (.anchor 3)
    ∃ before refused after, halfForged.resp.anchors = before ++ refused :: after ∧
      refused.guildId = 6 ∧
      (∀ other, (pins.insert 5 (.anchor 1)).get? other = pinnedBy before pins other) ∧
      ((∀ anchor ∈ before, pins.get? anchor.guildId = some (.anchor anchor.pubkey)) →
        ∀ other, (pins.insert 5 (.anchor 1)).get? other = pins.get? other) :=
  refused_answer_pins (fun _ => true) rfl

/-! A run of answers. -/

def receiveAll (answers : List Received) (pins : Pins) : Pins :=
  answers.foldl (fun pins received => (post decodes received pins).1) pins

def tried : List Attempt → Pins → List (Pins × Attempt)
  | [], _ => []
  | (anchor, disk) :: rest, pins =>
      (pins, anchor, disk) ::
        match pinAnchor decodes disk pins anchor.guildId anchor.pubkey anchor.rotationChain with
        | .error _ => []
        | .ok pins => tried rest pins

def triedIn : List Received → Pins → List (Pins × Attempt)
  | [], _ => []
  | received :: rest, pins =>
      tried decodes received.attempts pins ++ triedIn rest (post decodes received pins).1

/-- A pin file that is there is read. -/
def ReadsPin (attempt : Pins × Attempt) : Prop :=
  attempt.1.contains attempt.2.1.guildId → attempt.2.2.read = none

/-- The rotation certificates that answers have carried for a guild. -/
def presented (answers : List Received) (guild : GuildId) : List (Signed RotationCert) :=
  answers.flatMap fun received =>
    (received.resp.anchors.filter fun anchor => anchor.guildId = guild).flatMap
      GuildAnchor.rotationChain

/-- The guild's pin is reached from the earlier one along these certificates. -/
def Follows (chain : List (Signed RotationCert)) (guild : GuildId) (pins pins' : Pins) : Prop :=
  ∀ pinned, pins.get? guild = some (.anchor pinned) →
    ∃ current, pins'.get? guild = some (.anchor current) ∧
      Rotation.Path decodes chain pinned current

variable {decodes}

theorem Follows.rfl {chain : List (Signed RotationCert)} {guild : GuildId} {pins : Pins} :
    Follows decodes chain guild pins pins :=
  fun pinned hpinned => ⟨pinned, hpinned, .refl⟩

theorem Follows.trans {chain : List (Signed RotationCert)} {guild : GuildId}
    {pins pins' pins'' : Pins} (hfirst : Follows decodes chain guild pins pins')
    (hsecond : Follows decodes chain guild pins' pins'') :
    Follows decodes chain guild pins pins'' := by
  intro pinned hpinned
  obtain ⟨middle, hmiddle, hpath⟩ := hfirst pinned hpinned
  obtain ⟨current, hcurrent, hpath'⟩ := hsecond middle hmiddle
  exact ⟨current, hcurrent, Relation.ReflTransGen.trans hpath hpath'⟩

theorem pinAnchor_follows {anchor : GuildAnchor} {disk : Disk} {pins pins' : Pins}
    (hreads : ReadsPin (pins, anchor, disk))
    (hpin : pinAnchor decodes disk pins anchor.guildId anchor.pubkey anchor.rotationChain =
      .ok pins')
    {guild : GuildId} {chain : List (Signed RotationCert)}
    (hchain : anchor.guildId = guild → anchor.rotationChain ⊆ chain) :
    Follows decodes chain guild pins pins' := by
  intro pinned hpinned
  obtain ⟨hwritten, hothers, hgrounds⟩ := pinAnchor_ok hpin
  by_cases hguild : anchor.guildId = guild
  · subst hguild
    refine ⟨anchor.pubkey, hwritten, ?_⟩
    have hthere : pins.contains anchor.guildId = true := by
      unfold Table.contains
      rw [hpinned]
      rfl
    cases hgrounds with
    | firstUse error hunread =>
        have hread : readPin disk pins anchor.guildId = .ok (.anchor pinned) :=
          readPin_ok.mpr ⟨hreads hthere, hpinned⟩
        rw [hread] at hunread
        cases hunread
    | rotated old hread hpath =>
        have hold : pinned = old :=
          PinFile.anchor.inj (Option.some.inj (hpinned.symm.trans hread))
        rw [hold]
        exact hpath.mono (hchain (Eq.refl _))
  · refine ⟨pinned, ?_, .refl⟩
    rw [hothers guild (Ne.symm hguild)]
    exact hpinned

theorem pinAnchors_follows {attempts : List Attempt} {pins : Pins} {guild : GuildId}
    {chain : List (Signed RotationCert)}
    (hreads : ∀ attempt ∈ tried decodes attempts pins, ReadsPin attempt)
    (hchain : ∀ attempt ∈ attempts, attempt.1.guildId = guild →
      attempt.1.rotationChain ⊆ chain) :
    Follows decodes chain guild pins (pinAnchors decodes attempts pins).1 := by
  induction attempts generalizing pins with
  | nil => exact .rfl
  | cons attempt rest ih =>
      unfold pinAnchors
      unfold tried at hreads
      cases hpin : pinAnchor decodes attempt.2 pins attempt.1.guildId attempt.1.pubkey
          attempt.1.rotationChain with
      | error error => exact .rfl
      | ok pins' =>
          rw [hpin] at hreads
          have hstep : Follows decodes chain guild pins pins' :=
            pinAnchor_follows (hreads _ (List.mem_cons_self ..)) hpin
              (hchain attempt (List.mem_cons_self ..))
          refine hstep.trans (ih ?_ ?_)
          · exact fun later hlater => hreads later (List.mem_cons_of_mem _ hlater)
          · exact fun later hlater => hchain later (List.mem_cons_of_mem _ hlater)

theorem presented_cons {received : Received} {answers : List Received} {guild : GuildId}
    {attempt : Attempt} (hattempt : attempt ∈ received.attempts)
    (hguild : attempt.1.guildId = guild) :
    attempt.1.rotationChain ⊆ presented (received :: answers) guild := by
  intro signed hsigned
  have hanchor : attempt.1 ∈ received.resp.anchors := by
    rw [← attempts_anchors]
    exact List.mem_map_of_mem hattempt
  refine List.mem_flatMap.mpr ⟨received, List.mem_cons_self .., ?_⟩
  refine List.mem_flatMap.mpr ⟨attempt.1, ?_, hsigned⟩
  exact List.mem_filter.mpr ⟨hanchor, by simpa using hguild⟩

variable (decodes)

/-- A pinned guild's pin only ever moves along rotation certificates, each signed by
the anchor before, while no read of a pin file that is there fails. -/
theorem pins_follow_rotations {answers : List Received} {pins : Pins}
    (hreads : ∀ attempt ∈ triedIn decodes answers pins, ReadsPin attempt) (guild : GuildId) :
    Follows decodes (presented answers guild) guild pins (receiveAll decodes answers pins) := by
  induction answers generalizing pins with
  | nil => exact .rfl
  | cons received rest ih =>
      have hfirst : Follows decodes (presented (received :: rest) guild) guild pins
          (post decodes received pins).1 := by
        rw [post_pins]
        refine pinAnchors_follows ?_ fun attempt hattempt hguild =>
          presented_cons hattempt hguild
        exact fun attempt hattempt => hreads attempt (List.mem_append_left _ hattempt)
      have hrest := ih fun attempt hattempt => hreads attempt (List.mem_append_right _ hattempt)
      have hwider : presented rest guild ⊆ presented (received :: rest) guild :=
        List.subset_append_right ..
      refine hfirst.trans fun pinned hpinned => ?_
      obtain ⟨current, hcurrent, hpath⟩ := hrest pinned hpinned
      exact ⟨current, hcurrent, hpath.mono hwider⟩

/-- The answer of a coordinator that has never signed a rotation, read on a disk that
does not open the pin. -/
def unreadPin : Received where
  resp := { anchors := [⟨5, 2, []⟩] }
  disk := fun _ => { read := some (.other "Input/output error") }

/-- A failed read pins a guild anew. -/
theorem pin_replaced_unread :
    ¬ ∀ answers pins guild, Follows (fun _ => true) (presented answers guild) guild pins
      (receiveAll (fun _ => true) answers pins) := by
  intro hclaim
  have hpinned : ((∅ : Pins).insert 5 (.anchor 1)).get? 5 = some (.anchor 1) := by decide
  obtain ⟨current, hcurrent, hpath⟩ := hclaim [unreadPin] _ 5 1 hpinned
  have hreplaced : (receiveAll (fun _ => true) [unreadPin] ((∅ : Pins).insert 5 (.anchor 1))).get?
    5 =
      some (.anchor 2) := by decide
  have hother : current = 2 := by
    rw [hreplaced] at hcurrent
    exact (PinFile.anchor.inj (Option.some.inj hcurrent)).symm
  rw [hother] at hpath
  rcases hpath.cases_head with hsame | ⟨next, ⟨signed, hsigned, -⟩, -⟩
  · exact absurd hsame (by decide)
  · cases hsigned

/-- An answer whose one anchor is the successor of the pinned one. -/
def rotatedPin : Received where
  resp := { anchors := [⟨5, 2, [.sign 1 ⟨1, 2, 0⟩]⟩] }

theorem pins_follow_rotations_signed :
    Follows (fun _ => true) (presented [rotatedPin] 5) 5 ((∅ : Pins).insert 5 (.anchor 1))
      (receiveAll (fun _ => true) [rotatedPin] ((∅ : Pins).insert 5 (.anchor 1))) := by
  have hreads : ((triedIn (fun _ => true) [rotatedPin]
      ((∅ : Pins).insert 5 (.anchor 1))).all fun attempt => attempt.2.2.read.isNone) = true := by
    decide
  refine pins_follow_rotations (fun _ => true) (fun attempt hattempt _ => ?_) 5
  exact Option.isNone_iff_eq_none.mp (List.all_eq_true.mp hreads attempt hattempt)

end UnityLan.Engine
