import UnityLan.Common.Basic
import UnityLan.Foundation.Counts
import UnityLan.Foundation.Window

namespace UnityLan.Coordinator

open UnityLan.Foundation

/-! How many requests a source may make, and all of them together, in a window of time. -/

structure Caps where
  window : Nat
  maxPerIp : Nat
  maxTotal : Nat
  maxTrackedIps : Nat

def RL_CAPS : Caps := ⟨1000, 30, 500, 65536⟩

/-- Of the STUN responder. -/
def STUN_CAPS : Caps := ⟨1000, 20, 2000, 4096⟩

structure WindowCounter where
  caps : Caps
  windowStart : Nat
  total : Nat := 0
  perIp : Table IpAddr Nat := ∅

namespace WindowCounter

def new (caps : Caps) (now : Nat) : WindowCounter where
  caps := caps
  windowStart := now

variable (c : WindowCounter)

def renewed (now : Nat) : WindowCounter :=
  if c.caps.window ≤ now - c.windowStart then
    { c with windowStart := now, total := 0, perIp := ∅ }
  else c

def count (ip : IpAddr) (count : Nat) : WindowCounter :=
  { c with total := c.total + 1, perIp := c.perIp.insert ip count }

def allow (ip : IpAddr) (now : Nat) : Bool × WindowCounter :=
  let c := c.renewed now
  if c.caps.maxTotal ≤ c.total then (false, c)
  else
    match c.perIp.get? ip with
    | some count => if c.caps.maxPerIp ≤ count then (false, c) else (true, c.count ip (count + 1))
    | none => if c.caps.maxTrackedIps ≤ c.perIp.size then (false, c) else (true, c.count ip 1)

/-- Requests one after the other: those that are admitted, and the counter behind them. -/
def allowEach : WindowCounter → List (IpAddr × Nat) → List (IpAddr × Nat) × WindowCounter
  | c, [] => ([], c)
  | c, (ip, now) :: rest =>
      let allowed := c.allow ip now
      let later := allowEach allowed.2 rest
      (if allowed.1 then (ip, now) :: later.1 else later.1, later.2)

end WindowCounter

/-- What was admitted from `first` to `last`. -/
def between (first last : Nat) (admitted : List (IpAddr × Nat)) : List (IpAddr × Nat) :=
  admitted.filter fun request => first ≤ request.2 && request.2 ≤ last

structure Limited (caps : Caps) (admitted : List (IpAddr × Nat)) (c : WindowCounter) : Prop where
  total : c.total = c.perIp.values.sum
  capped : c.total ≤ caps.maxTotal
  perIp : ∀ ip count, c.perIp.get? ip = some count → count ≤ caps.maxPerIp
  tracked : c.perIp.size ≤ caps.maxTrackedIps
  /-- An interval that is shorter than the window. -/
  interval : ∀ first last, last < first + caps.window →
    (between first last admitted).length ≤ 2 * caps.maxTotal
  intervalIp : ∀ ip first last, last < first + caps.window →
    ((between first last admitted).filter (·.1 == ip)).length ≤ 2 * caps.maxPerIp
  refused : ∀ ip now, (c.allow ip now).1 = false →
    (c.allow ip now).2.total = c.total ∧
      ∀ other, (c.allow ip now).2.perIp.get? other = c.perIp.get? other

/-! What the counts are of. -/

def ofIp (ip : IpAddr) (requests : List (IpAddr × Nat)) : List (IpAddr × Nat) :=
  requests.filter (·.1 == ip)

structure Stands (c : WindowCounter) (before current : List (IpAddr × Nat)) : Prop where
  total : c.total = current.length
  held : c.perIp.Counts (current.map Prod.fst)
  capped : current.length ≤ c.caps.maxTotal
  perIp : ∀ ip, (ofIp ip current).length ≤ c.caps.maxPerIp
  tracked : c.perIp.size ≤ c.caps.maxTrackedIps
  all : 0 < c.caps.window → Window.Counted c.caps.window c.caps.maxTotal c.windowStart
    (before.map Prod.snd) (current.map Prod.snd)
  each : 0 < c.caps.window → ∀ ip, Window.Counted c.caps.window c.caps.maxPerIp c.windowStart
    ((ofIp ip before).map Prod.snd) ((ofIp ip current).map Prod.snd)

section

variable {c : WindowCounter} {before current : List (IpAddr × Nat)} {ip other : IpAddr} {now : Nat}
  {caps : Caps}

theorem ofIp_append (first second : List (IpAddr × Nat)) :
    ofIp ip (first ++ second) = ofIp ip first ++ ofIp ip second :=
  List.filter_append ..

theorem ofIp_one : ofIp other [(ip, now)] = if ip = other then [(ip, now)] else [] := by
  unfold ofIp
  by_cases hsame : ip = other <;> simp [hsame]

theorem ofIp_length (requests : List (IpAddr × Nat)) :
    (ofIp ip requests).length = (requests.map Prod.fst).count ip := by
  rw [List.count_eq_length_filter, List.filter_map, List.length_map]
  rfl

theorem Stands.new (caps : Caps) (now : Nat) : Stands (.new caps now) [] [] where
  total := rfl
  held := .empty
  capped := Nat.zero_le _
  perIp := fun _ => Nat.zero_le _
  tracked := Nat.zero_le _
  all := fun _ => .started
  each := fun _ _ => .started

theorem Stands.renewed (hstands : Stands c before current) (now : Nat) :
    ∃ before' current', before' ++ current' = before ++ current ∧
      Stands (c.renewed now) before' current' ∧
      (0 < c.caps.window → now < (c.renewed now).windowStart + c.caps.window) := by
  unfold WindowCounter.renewed
  split
  · rename_i hover
    refine ⟨before ++ current, [], List.append_nil _, ?_, ?_⟩
    · refine ⟨rfl, .empty, Nat.zero_le _, fun _ => Nat.zero_le _, Nat.zero_le _, ?_, ?_⟩
      · intro hwindow
        rw [List.map_append]
        refine (hstands.all hwindow).renew hwindow ?_
        dsimp only at hwindow hover ⊢
        omega
      · intro hwindow ip
        rw [ofIp_append, List.map_append]
        refine (hstands.each hwindow ip).renew hwindow ?_
        dsimp only at hwindow hover ⊢
        omega
    · intro hwindow
      dsimp only
      omega
  · rename_i hopen
    refine ⟨before, current, rfl, hstands, fun hwindow => ?_⟩
    omega

theorem Stands.count (hstands : Stands c before current)
    (hopen : 0 < c.caps.window → c.windowStart ≤ now ∧ now < c.windowStart + c.caps.window)
    (htotal : c.total < c.caps.maxTotal) (hperIp : (ofIp ip current).length < c.caps.maxPerIp)
    (htracked : (c.perIp.insert ip ((ofIp ip current).length + 1)).size ≤ c.caps.maxTrackedIps) :
    Stands (c.count ip ((ofIp ip current).length + 1)) before (current ++ [(ip, now)]) where
  total := by
    rw [List.length_append, ← hstands.total]
    rfl
  held := by
    rw [List.map_append, ofIp_length]
    exact hstands.held.insert ip
  capped := by
    rw [List.length_append, ← hstands.total]
    exact htotal
  perIp := by
    intro other
    rw [ofIp_append, ofIp_one]
    by_cases hsame : ip = other
    · subst hsame
      rw [if_pos rfl, List.length_append]
      exact hperIp
    · rw [if_neg hsame, List.append_nil]
      exact hstands.perIp other
  tracked := htracked
  all := by
    intro hwindow
    rw [List.map_append]
    refine (hstands.all hwindow).append ?_ (hopen hwindow)
    rw [List.length_map, ← hstands.total]
    exact htotal
  each := by
    intro hwindow other
    rw [ofIp_append, ofIp_one]
    by_cases hsame : ip = other
    · subst hsame
      rw [if_pos rfl, List.map_append]
      refine (hstands.each hwindow ip).append ?_ (hopen hwindow)
      rw [List.length_map]
      exact hperIp
    · rw [if_neg hsame, List.append_nil]
      exact hstands.each hwindow other

theorem renewed_caps : (c.renewed now).caps = c.caps := by
  unfold WindowCounter.renewed
  split <;> rfl

theorem renewed_start (hstart : c.windowStart ≤ now) : (c.renewed now).windowStart ≤ now := by
  unfold WindowCounter.renewed
  split
  · exact Nat.le_refl now
  · exact hstart

theorem allow_cases (c : WindowCounter) (ip : IpAddr) (now : Nat) :
    (c.allow ip now = (false, c.renewed now) ∧
      (c.caps.maxTotal ≤ (c.renewed now).total ∨
        (∃ count, (c.renewed now).perIp.get? ip = some count ∧ c.caps.maxPerIp ≤ count) ∨
        c.caps.maxTrackedIps ≤ (c.renewed now).perIp.size)) ∨
    ∃ count, c.allow ip now = (true, (c.renewed now).count ip (count + 1)) ∧
      (c.renewed now).total < c.caps.maxTotal ∧
      ((c.renewed now).perIp.get? ip = some count ∧ count < c.caps.maxPerIp ∨
        (c.renewed now).perIp.get? ip = none ∧ count = 0 ∧
          (c.renewed now).perIp.size < c.caps.maxTrackedIps) := by
  have hcaps : (c.renewed now).caps = c.caps := renewed_caps
  rw [← hcaps]
  unfold WindowCounter.allow
  generalize c.renewed now = c₁
  dsimp only
  split
  · rename_i hfull
    exact .inl ⟨rfl, .inl hfull⟩
  · rename_i hroom
    split
    · rename_i count hget
      split
      · rename_i hfull
        exact .inl ⟨rfl, .inr (.inl ⟨count, hget, hfull⟩)⟩
      · rename_i hbelow
        exact .inr ⟨count, rfl, Nat.lt_of_not_le hroom, .inl ⟨hget, Nat.lt_of_not_le hbelow⟩⟩
    · rename_i hget
      split
      · rename_i hfull
        exact .inl ⟨rfl, .inr (.inr hfull)⟩
      · rename_i hbelow
        exact .inr ⟨0, rfl, Nat.lt_of_not_le hroom, .inr ⟨hget, rfl, Nat.lt_of_not_le hbelow⟩⟩

theorem size_insert_held {table : Table IpAddr Nat} {held : Nat} (value : Nat)
    (hget : table.get? ip = some held) : (table.insert ip value).size = table.size := by
  have hmodify := table.size_modify ip fun _ => value
  unfold Table.modify at hmodify
  rwa [hget] at hmodify

theorem Stands.allow (hstands : Stands c before current) (hcap : 0 < c.caps.maxPerIp)
    (hstart : c.windowStart ≤ now) (ip : IpAddr) :
    ∃ before' current',
      before' ++ current' = before ++ current ++ (if (c.allow ip now).1 then [(ip, now)] else []) ∧
      Stands (c.allow ip now).2 before' current' ∧ (c.allow ip now).2.caps = c.caps ∧
      (c.allow ip now).2.windowStart ≤ now := by
  obtain ⟨before', current', hsame, hrenewed, hopen⟩ := hstands.renewed now
  have hcaps : (c.renewed now).caps = c.caps := renewed_caps
  have hlate : (c.renewed now).windowStart ≤ now := renewed_start hstart
  rcases allow_cases c ip now with ⟨hrefused, -⟩ | ⟨count, hadmitted, htotal, hcount⟩
  · rw [hrefused]
    exact ⟨before', current', by simp [hsame], hrenewed, hcaps, hlate⟩
  · rw [hadmitted]
    refine ⟨before', current' ++ [(ip, now)], by rw [← hsame]; simp, ?_, hcaps, hlate⟩
    have hlength : (ofIp ip current').length = count := by
      rw [ofIp_length, ← hrenewed.held.getD]
      rcases hcount with ⟨hget, -⟩ | ⟨hget, rfl, -⟩ <;> rw [hget] <;> rfl
    rw [← hlength]
    refine hrenewed.count (fun hwindow => ⟨hlate, ?_⟩) (hcaps ▸ htotal) ?_ ?_
    · rw [hcaps] at hwindow ⊢
      exact hopen hwindow
    · rw [hcaps, hlength]
      rcases hcount with ⟨-, hbelow⟩ | ⟨-, rfl, -⟩
      · exact hbelow
      · exact hcap
    · rw [hcaps]
      rcases hcount with ⟨hget, -⟩ | ⟨hget, -, hfree⟩
      · rw [size_insert_held _ hget, ← hcaps]
        exact hrenewed.tracked
      · rw [Table.size_insert hget]
        exact hfree

theorem Stands.allowEach {requests : List (IpAddr × Nat)} (hstands : Stands c before current)
    (hcap : 0 < c.caps.maxPerIp)
    (hordered : (c.windowStart :: requests.map Prod.snd).Pairwise (· ≤ ·)) :
    ∃ before' current', before' ++ current' = before ++ current ++ (c.allowEach requests).1 ∧
      Stands (c.allowEach requests).2 before' current' ∧
        (c.allowEach requests).2.caps = c.caps := by
  induction requests generalizing c before current with
  | nil => exact ⟨before, current, (List.append_nil _).symm, hstands, rfl⟩
  | cons request rest ih =>
      obtain ⟨ip, now⟩ := request
      obtain ⟨hstart, hrest⟩ := List.pairwise_cons.mp hordered
      obtain ⟨hlater, hordered⟩ := List.pairwise_cons.mp hrest
      obtain ⟨before', current', hsame, hafter, hcaps, hlate⟩ :=
        hstands.allow hcap (hstart now List.mem_cons_self) ip
      have hnext : ((c.allow ip now).2.windowStart :: rest.map Prod.snd).Pairwise (· ≤ ·) :=
        List.pairwise_cons.mpr ⟨fun time htime => hlate.trans (hlater time htime), hordered⟩
      obtain ⟨before'', current'', hall, hend, hendcaps⟩ := ih hafter (hcaps ▸ hcap) hnext
      refine ⟨before'', current'', ?_, hend, hendcaps.trans hcaps⟩
      rw [hall, hsame]
      change _ = before ++ current ++ (if (c.allow ip now).1 then
        (ip, now) :: ((c.allow ip now).2.allowEach rest).1
          else ((c.allow ip now).2.allowEach rest).1)
      split <;> simp

theorem Stands.sum (hstands : Stands c before current) : c.total = c.perIp.values.sum := by
  rw [hstands.held.sum, List.length_map]
  exact hstands.total

theorem Stands.none_of_full (hstands : Stands c before current)
    (hfull : c.caps.maxTotal = 0 ∨ c.caps.maxTrackedIps = 0) :
    c.total = 0 ∧ ∀ ip, c.perIp.get? ip = none := by
  have hempty : current = [] := by
    rcases hfull with hnone | hnone
    · have hcapped := hstands.capped
      rw [hnone] at hcapped
      exact List.eq_nil_of_length_eq_zero (Nat.le_zero.mp hcapped)
    · have htracked := hstands.tracked
      rw [hnone] at htracked
      have hrows : c.perIp.values = [] := by
        unfold Table.values
        rw [List.eq_nil_of_length_eq_zero (Nat.le_zero.mp htracked)]
        rfl
      have htotal := hstands.sum
      rw [hrows, hstands.total] at htotal
      exact List.eq_nil_of_length_eq_zero htotal
  refine ⟨by rw [hstands.total, hempty]; rfl, fun ip => ?_⟩
  rw [hstands.held ip, hempty]
  exact if_pos rfl

theorem Stands.refused (hstands : Stands c before current)
    (hrefused : (c.allow ip now).1 = false) :
    (c.allow ip now).2.total = c.total ∧
      ∀ other, (c.allow ip now).2.perIp.get? other = c.perIp.get? other := by
  rcases allow_cases c ip now with ⟨hsame, hwhy⟩ | ⟨_, hadmitted, -⟩
  · rw [hsame]
    unfold WindowCounter.renewed at hwhy ⊢
    split
    · rename_i hover
      rw [if_pos hover] at hwhy
      -- right after a reset, only a counter without any room refuses
      have hfull : c.caps.maxTotal = 0 ∨ c.caps.maxTrackedIps = 0 := by
        rcases hwhy with hfull | ⟨_, hget, -⟩ | hfull
        · exact .inl (Nat.le_zero.mp hfull)
        · cases hget
        · exact .inr (Nat.le_zero.mp hfull)
      obtain ⟨htotal, hnone⟩ := hstands.none_of_full hfull
      exact ⟨htotal.symm, fun other => (hnone other).symm⟩
    · exact ⟨rfl, fun _ => rfl⟩
  · rw [hadmitted] at hrefused
    cases hrefused

theorem between_le {admitted : List (IpAddr × Nat)} {first last window bound : Nat}
    (hshort : last < first + window)
    (hpaced : 0 < window → Window.Paced window bound (admitted.map Prod.snd)) :
    (between first last admitted).length ≤ bound := by
  rcases Nat.eq_zero_or_pos window with rfl | hwindow
  · have hnone : between first last admitted = [] := by
      apply List.filter_eq_nil_iff.mpr
      intro request _
      simp only [Bool.and_eq_true, decide_eq_true_eq]
      omega
    rw [hnone]
    exact Nat.zero_le bound
  · refine Nat.le_trans ?_ (hpaced hwindow first)
    unfold between Window.opened
    rw [List.filter_map, List.length_map]
    apply (List.monotone_filter_right admitted ?_).length_le
    intro request hrequest
    simp only [Function.comp_apply, Bool.and_eq_true, decide_eq_true_eq] at hrequest ⊢
    omega

/-- The counter keeps to its limits over every run of requests. -/
theorem window_counter (caps : Caps) (created : Nat) (requests : List (IpAddr × Nat))
    (hcap : 0 < caps.maxPerIp)
    (hordered : (created :: requests.map Prod.snd).Pairwise (· ≤ ·)) :
    Limited caps ((WindowCounter.new caps created).allowEach requests).1
      ((WindowCounter.new caps created).allowEach requests).2 := by
  obtain ⟨before, current, hadmitted, hstands, hcaps⟩ :=
    (Stands.new caps created).allowEach hcap hordered
  rw [List.nil_append, List.nil_append] at hadmitted
  change _ = caps at hcaps
  rw [← hadmitted]
  generalize ((WindowCounter.new caps created).allowEach requests).2 = c at hstands hcaps
  subst hcaps
  constructor
  · exact hstands.sum
  · rw [hstands.total]
    exact hstands.capped
  · intro ip count hget
    rw [← hstands.held.of_get? hget, ← ofIp_length]
    exact hstands.perIp ip
  · exact hstands.tracked
  · intro first last hshort
    refine between_le hshort fun hwindow => ?_
    rw [List.map_append]
    exact (hstands.all hwindow).all_paced
  · intro ip first last hshort
    have hcomm : (between first last (before ++ current)).filter (·.1 == ip) =
        between first last (ofIp ip (before ++ current)) := by
      unfold between ofIp
      rw [List.filter_filter, List.filter_filter]
      exact List.filter_congr fun _ _ => Bool.and_comm ..
    rw [hcomm]
    refine between_le hshort fun hwindow => ?_
    rw [ofIp_append, List.map_append]
    exact (hstands.each hwindow ip).all_paced
  · exact fun ip now => hstands.refused

/-- The responder's counter, with two sources over a second. -/
theorem window_counter_stun :
    Limited STUN_CAPS
      ((WindowCounter.new STUN_CAPS 5).allowEach
        [(.v4 1#32, 5), (.v4 2#32, 700), (.v4 1#32, 1006)]).1
      ((WindowCounter.new STUN_CAPS 5).allowEach
        [(.v4 1#32, 5), (.v4 2#32, 700), (.v4 1#32, 1006)]).2 :=
  window_counter STUN_CAPS 5 _ (by decide) (by decide)

end

end UnityLan.Coordinator
