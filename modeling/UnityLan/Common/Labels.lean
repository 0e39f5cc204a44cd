import UnityLan.Common.NetId

namespace UnityLan

/-! What `sanitizeLabel` makes of a text. -/

def LABEL_CAP : Nat := 63

/-- A label as the DNS has it: one to 63 of `[a-z0-9-]`, and no dash at either end. -/
structure IsDnsLabel (label : String) : Prop where
  plain : isPlainLabel label = true
  nonempty : label ≠ ""
  capped : label.length ≤ LABEL_CAP
  starts : label.toList.head? ≠ some '-'
  ends : label.toList.getLast? ≠ some '-'

/-- The runs of letters and digits of a text, in lower case. -/
def labelWords (s : String) : List (List Char) :=
  ((s.toList.map toAsciiLowercase).splitOnP fun c => !isLabelChar c).filter (· ≠ [])

def dashed (words : List (List Char)) : List Char :=
  words.flatMap fun word => '-' :: word

def joined : List (List Char) → List Char
  | [] => []
  | word :: rest => word ++ dashed rest

@[simp] theorem dashed_nil : dashed [] = [] := rfl

@[simp] theorem dashed_cons (word : List Char) (rest : List (List Char)) :
    dashed (word :: rest) = '-' :: word ++ dashed rest := by
  simp [dashed]

theorem dashed_eq_joined {words : List (List Char)} (hwords : words ≠ []) :
    dashed words = '-' :: joined words := by
  cases words with
  | nil => exact (hwords rfl).elim
  | cons word rest => simp [joined]

/-- Some of the words, though not all of them, make up a label that the cap ends with a dash. -/
def CutAtDash (words : List (List Char)) : Prop :=
  ∃ front back, words = front ++ back ∧ back ≠ [] ∧ (joined front).length + 1 = LABEL_CAP

/-! The loop, word by word. -/

section

variable {chars out : List Char} {prevDash : Bool}

theorem not_isLabelChar_dash : isLabelChar '-' = false := by
  decide

def trimmed (out : List Char) : List Char :=
  (out.dropWhile (· == '-')).reverse

theorem trimmed_label {c : Char} {rest : List Char} (hc : isLabelChar c = true) :
    trimmed (c :: rest) = rest.reverse ++ [c] := by
  have hdash : (c == '-') = false := by
    rw [beq_eq_false_iff_ne]
    rintro rfl
    exact Bool.false_ne_true (not_isLabelChar_dash.symm.trans hc)
  unfold trimmed
  rw [List.dropWhile_cons, hdash]
  simp

def labelRuns (chars : List Char) : List (List Char) :=
  (chars.map toAsciiLowercase).splitOnP fun c => !isLabelChar c

theorem labelRuns_nil : labelRuns [] = [[]] := rfl

theorem labelRuns_label {c : Char} (hc : isLabelChar (toAsciiLowercase c) = true) :
    labelRuns (c :: chars) = (labelRuns chars).modifyHead (toAsciiLowercase c :: ·) := by
  unfold labelRuns
  rw [List.map_cons, List.splitOnP_cons_eq_if_modifyHead, hc]
  rfl

theorem labelRuns_other {c : Char} (hc : isLabelChar (toAsciiLowercase c) = false) :
    labelRuns (c :: chars) = [] :: labelRuns chars := by
  unfold labelRuns
  rw [List.map_cons, List.splitOnP_cons_eq_if_modifyHead, hc]
  rfl

theorem labelRuns_split (chars : List Char) : ∃ run later, labelRuns chars = run :: later := by
  cases hruns : labelRuns chars with
  | nil => exact (List.splitOnP_ne_nil _ _ hruns).elim
  | cons run later => exact ⟨run, later, rfl⟩

/-- The words of a text after what the loop has pushed: it has pushed nothing, it is in a word, or
it has just ended one with a dash. -/
theorem sanitizeChars_words (chars : List Char) :
    trimmed (sanitizeChars chars [] false) = joined ((labelRuns chars).filter (· ≠ [])) ∧
    (∀ c rest, isLabelChar c = true → ∀ run later, labelRuns chars = run :: later →
      trimmed (sanitizeChars chars (c :: rest) false) =
        rest.reverse ++ c :: run ++ dashed (later.filter (· ≠ []))) ∧
    (∀ c rest, isLabelChar c = true →
      trimmed (sanitizeChars chars ('-' :: c :: rest) true) =
        rest.reverse ++ [c] ++ dashed ((labelRuns chars).filter (· ≠ []))) := by
  induction chars with
  | nil =>
      refine ⟨rfl, fun c rest hc run later hruns => ?_, fun c rest hc => ?_⟩
      · rw [labelRuns_nil, List.cons.injEq] at hruns
        rw [← hruns.1, ← hruns.2, sanitizeChars, trimmed_label hc]
        simp
      · have htrimmed : trimmed ('-' :: c :: rest) = trimmed (c :: rest) := rfl
        rw [sanitizeChars, htrimmed, trimmed_label hc]
        simp [labelRuns_nil]
  | cons next chars ih =>
      obtain ⟨hempty, hword, hdash⟩ := ih
      obtain ⟨run, later, hruns⟩ := labelRuns_split chars
      by_cases hnext : isLabelChar (toAsciiLowercase next) = true
      · rw [labelRuns_label hnext, hruns, List.modifyHead_cons]
        refine ⟨?_, fun c rest hc run' later' hruns' => ?_, fun c rest hc => ?_⟩
        · rw [sanitizeChars, if_pos hnext, hword _ _ hnext run later hruns]
          simp [joined]
        · rw [List.cons.injEq] at hruns'
          rw [sanitizeChars, if_pos hnext, hword _ _ hnext run later hruns, ← hruns'.1, ← hruns'.2]
          simp
        · rw [sanitizeChars, if_pos hnext, hword _ _ hnext run later hruns]
          simp
      · rw [Bool.not_eq_true] at hnext
        rw [labelRuns_other hnext]
        refine ⟨?_, fun c rest hc run' later' hruns' => ?_, fun c rest hc => ?_⟩
        · rw [sanitizeChars, hnext]
          simpa using hempty
        · rw [List.cons.injEq] at hruns'
          rw [sanitizeChars, hnext, ← hruns'.1, ← hruns'.2]
          simpa using hdash c rest hc
        · rw [sanitizeChars, hnext]
          simpa using hdash c rest hc

end

/-! Words, and the labels they make up. -/

def Wordy (words : List (List Char)) : Prop :=
  ∀ word ∈ words, word ≠ [] ∧ ∀ c ∈ word, isLabelChar c = true

section

variable {words rest : List (List Char)} {word : List Char}

theorem Wordy.tail (hwords : Wordy (word :: rest)) : Wordy rest :=
  fun other hother => hwords other (List.mem_cons_of_mem _ hother)

theorem joined_ne_nil (hwords : Wordy words) (hsome : words ≠ []) : joined words ≠ [] := by
  cases words with
  | nil => exact (hsome rfl).elim
  | cons word rest =>
      intro hnil
      exact (hwords word (List.mem_cons_self ..)).1 (List.append_eq_nil_iff.mp hnil).1

theorem joined_cons (hsome : rest ≠ []) : joined (word :: rest) = word ++ '-' :: joined rest := by
  rw [joined, dashed_eq_joined hsome]

theorem labelRuns_wordy (chars : List Char) :
    ∀ run ∈ labelRuns chars, ∀ c ∈ run, isLabelChar c = true := by
  induction chars with
  | nil => simp [labelRuns_nil]
  | cons next chars ih =>
      obtain ⟨run, later, hruns⟩ := labelRuns_split chars
      by_cases hnext : isLabelChar (toAsciiLowercase next) = true
      · rw [labelRuns_label hnext, hruns, List.modifyHead_cons]
        rw [hruns] at ih
        intro other hother c hc
        rcases List.mem_cons.mp hother with rfl | hlater
        · rcases List.mem_cons.mp hc with rfl | hrun
          · exact hnext
          · exact ih run (List.mem_cons_self ..) c hrun
        · exact ih other (List.mem_cons_of_mem _ hlater) c hc
      · rw [Bool.not_eq_true] at hnext
        rw [labelRuns_other hnext]
        intro other hother c hc
        rcases List.mem_cons.mp hother with rfl | hlater
        · cases hc
        · exact ih other hlater c hc

theorem labelWords_wordy (s : String) : Wordy (labelWords s) := by
  intro word hword
  obtain ⟨hrun, hne⟩ := List.mem_filter.mp hword
  exact ⟨by simpa using hne, labelRuns_wordy s.toList word hrun⟩

theorem toAsciiLowercase_label {c : Char} (hc : isLabelChar c = true) : toAsciiLowercase c = c := by
  unfold toAsciiLowercase
  rw [if_neg]
  rintro ⟨hlow, hhigh⟩
  simp only [isLabelChar, Bool.or_eq_true, Bool.and_eq_true, decide_eq_true_eq] at hc
  rw [Char.le_def, UInt32.le_iff_toNat_le] at hlow hhigh
  rcases hc with ⟨hfrom, -⟩ | ⟨-, hto⟩
  · rw [Char.le_def, UInt32.le_iff_toNat_le] at hfrom
    exact absurd (Nat.le_trans hfrom hhigh) (by decide)
  · rw [Char.le_def, UInt32.le_iff_toNat_le] at hto
    exact absurd (Nat.le_trans hlow hto) (by decide)

theorem labelRuns_append (chars : List Char) (hword : ∀ c ∈ word, isLabelChar c = true) :
    labelRuns (word ++ chars) = (labelRuns chars).modifyHead (word ++ ·) := by
  induction word with
  | nil =>
      obtain ⟨run, later, hruns⟩ := labelRuns_split chars
      rw [List.nil_append, hruns]
      rfl
  | cons c word ih =>
      obtain ⟨run, later, hruns⟩ := labelRuns_split chars
      have hc := hword c (List.mem_cons_self ..)
      have hlower := toAsciiLowercase_label hc
      rw [List.cons_append, labelRuns_label (hlower.symm ▸ hc), hlower,
        ih fun c hc => hword c (List.mem_cons_of_mem _ hc), hruns]
      rfl

theorem labelRuns_dashed (hwords : Wordy words) : labelRuns (dashed words) = [] :: words := by
  induction words with
  | nil => rfl
  | cons word rest ih =>
      rw [dashed_cons, List.cons_append, labelRuns_other (by decide),
        labelRuns_append _ (hwords word (List.mem_cons_self ..)).2, ih hwords.tail]
      simp

theorem labelWords_joined (hwords : Wordy words) :
    labelWords (String.ofList (joined words)) = words := by
  have hkept : words.filter (· ≠ []) = words :=
    List.filter_eq_self.mpr fun word hword => by simpa using (hwords word hword).1
  unfold labelWords
  rw [String.toList_ofList]
  change (labelRuns (joined words)).filter (· ≠ []) = words
  cases words with
  | nil => rfl
  | cons word rest =>
      rw [joined, labelRuns_append _ (hwords word (List.mem_cons_self ..)).2,
        labelRuns_dashed hwords.tail]
      simpa using hkept

/-- The first characters of words with dashes between them are words with dashes between them,
unless the last of the characters is a dash. -/
theorem take_joined (hwords : Wordy words) (hsome : words ≠ []) {count : Nat} (hcount : 0 < count) :
    (∃ front back, words = front ++ back ∧ front ≠ [] ∧ back ≠ [] ∧
      (joined front).length + 1 = count) ∨
    ∃ kept, Wordy kept ∧ kept ≠ [] ∧ (joined words).take count = joined kept := by
  induction words generalizing count with
  | nil => exact (hsome rfl).elim
  | cons word rest ih =>
      obtain ⟨hne, hlabel⟩ := hwords word (List.mem_cons_self ..)
      by_cases hshort : count ≤ word.length
      · right
        refine ⟨[word.take count], ?_, List.cons_ne_nil _ _, ?_⟩
        · intro other hother
          rw [List.mem_singleton.mp hother]
          refine ⟨?_, fun c hc => hlabel c (List.mem_of_mem_take hc)⟩
          intro hnil
          rcases List.take_eq_nil_iff.mp hnil with hzero | hnil
          · omega
          · exact hne hnil
        · rw [joined, List.take_append_of_le_length hshort]
          simp [joined]
      by_cases hlast : rest = []
      · right
        refine ⟨[word], fun other hother => ?_, List.cons_ne_nil _ _, ?_⟩
        · rw [List.mem_singleton.mp hother]
          exact ⟨hne, hlabel⟩
        · rw [hlast]
          apply List.take_of_length_le
          simp only [joined, dashed_nil, List.append_nil]
          omega
      obtain ⟨more, hmore⟩ : ∃ more, count = word.length + (more + 1) :=
        ⟨count - (word.length + 1), by omega⟩
      have htake : (joined (word :: rest)).take count = word ++ '-' :: (joined rest).take more := by
        rw [joined_cons hlast, hmore, List.take_length_add_append, List.take_succ_cons]
      rw [htake]
      rcases Nat.eq_zero_or_pos more with hnone | hsomeMore
      · left
        refine ⟨[word], rest, rfl, List.cons_ne_nil _ _, hlast, ?_⟩
        simp [joined, hmore, hnone]
      rcases ih hwords.tail hlast hsomeMore with
        ⟨front, back, hsplit, hfront, hback, hlength⟩ | ⟨kept, hkept, hkeptSome, htaken⟩
      · left
        refine ⟨word :: front, back, ?_, List.cons_ne_nil _ _, hback, ?_⟩
        · rw [hsplit, List.cons_append]
        · rw [joined_cons hfront, hmore, ← hlength, List.length_append, List.length_cons]
          omega
      · right
        refine ⟨word :: kept, ?_, List.cons_ne_nil _ _, ?_⟩
        · intro other hother
          rcases List.mem_cons.mp hother with rfl | hother
          · exact ⟨hne, hlabel⟩
          · exact hkept other hother
        · rw [htaken, joined_cons hkeptSome]

theorem joined_append {front back : List (List Char)} (hfront : front ≠ []) :
    joined (front ++ back) = joined front ++ dashed back := by
  cases front with
  | nil => exact (hfront rfl).elim
  | cons word rest => simp [joined, dashed]

theorem mem_joined (hwords : Wordy words) :
    ∀ c ∈ joined words, isLabelChar c = true ∨ c = '-' := by
  have hdashed : ∀ {words : List (List Char)}, Wordy words →
      ∀ c ∈ dashed words, isLabelChar c = true ∨ c = '-' := by
    intro words hwords c hc
    obtain ⟨word, hword, hmem⟩ := List.mem_flatMap.mp hc
    rcases List.mem_cons.mp hmem with hdash | hmem
    · exact .inr hdash
    · exact .inl ((hwords word hword).2 c hmem)
  cases words with
  | nil => simp [joined]
  | cons word rest =>
      intro c hc
      rcases List.mem_append.mp hc with hword | hrest
      · exact .inl ((hwords word (List.mem_cons_self ..)).2 c hword)
      · exact hdashed hwords.tail c hrest

theorem joined_head (hwords : Wordy words) : (joined words).head? ≠ some '-' := by
  cases words with
  | nil => simp [joined]
  | cons word rest =>
      obtain ⟨hne, hlabel⟩ := hwords word (List.mem_cons_self ..)
      obtain ⟨c, chars, rfl⟩ := List.exists_cons_of_ne_nil hne
      intro hhead
      have hdash : c = '-' := by simpa [joined] using hhead
      have hc := hlabel c (List.mem_cons_self ..)
      rw [hdash, not_isLabelChar_dash] at hc
      cases hc

theorem joined_last (hwords : Wordy words) : (joined words).getLast? ≠ some '-' := by
  induction words with
  | nil => simp [joined]
  | cons word rest ih =>
      obtain ⟨hne, hlabel⟩ := hwords word (List.mem_cons_self ..)
      by_cases hlast : rest = []
      · rw [hlast, joined, dashed_nil, List.append_nil]
        intro hdash
        have hc := hlabel '-' (List.mem_of_getLast? hdash)
        rw [not_isLabelChar_dash] at hc
        cases hc
      · have hrest := joined_ne_nil hwords.tail hlast
        rw [joined_cons hlast, List.getLast?_append, List.getLast?_cons_of_ne_nil hrest,
          Option.or_of_isSome (List.getLast?_isSome.mpr hrest)]
        exact ih hwords.tail

theorem joined_isDnsLabel (hwords : Wordy words) (hsome : words ≠ [])
    (hcapped : (joined words).length ≤ LABEL_CAP) : IsDnsLabel (String.ofList (joined words)) where
  plain := by
    unfold isPlainLabel
    rw [String.toList_ofList]
    apply List.all_eq_true.mpr
    intro c hc
    rcases mem_joined hwords c hc with hlabel | hdash
    · simp [hlabel]
    · simp [hdash]
  nonempty := by
    intro hempty
    apply joined_ne_nil hwords hsome
    have hlist := congrArg String.toList hempty
    rwa [String.toList_ofList] at hlist
  capped := by rwa [String.length_ofList]
  starts := by
    rw [String.toList_ofList]
    exact joined_head hwords
  ends := by
    rw [String.toList_ofList]
    exact joined_last hwords

end

/-! The labels that `sanitizeLabel` makes. -/

def labelSource (s : String) : List (List Char) :=
  if labelWords s = [] then ["device".toList] else labelWords s

theorem labelSource_wordy (s : String) : Wordy (labelSource s) ∧ labelSource s ≠ [] := by
  unfold labelSource
  split
  · refine ⟨fun word hword => ?_, List.cons_ne_nil _ _⟩
    rw [List.mem_singleton.mp hword]
    have hletters : "device".toList.all isLabelChar = true := by rfl
    exact ⟨by decide, List.all_eq_true.mp hletters⟩
  · rename_i hsome
    exact ⟨labelWords_wordy s, hsome⟩

theorem sanitizeLabel_eq (s : String) :
    sanitizeLabel s = String.ofList ((joined (labelSource s)).take LABEL_CAP) := by
  have htrimmed : ((sanitizeChars s.toList [] false).dropWhile (· == '-')).reverse =
      joined (labelWords s) := (sanitizeChars_words s.toList).1
  unfold sanitizeLabel labelSource
  rw [htrimmed]
  by_cases hnone : labelWords s = []
  · rw [hnone]
    rfl
  · have hjoined := joined_ne_nil (labelWords_wordy s) hnone
    dsimp only
    rw [if_neg hnone, List.isEmpty_eq_false_iff.mpr hjoined]
    rfl

theorem sanitizeLabel_joined {words : List (List Char)} (hwords : Wordy words)
    (hsome : words ≠ []) (hcapped : (joined words).length ≤ LABEL_CAP) :
    sanitizeLabel (String.ofList (joined words)) = String.ofList (joined words) := by
  rw [sanitizeLabel_eq, labelSource, labelWords_joined hwords, if_neg hsome,
    List.take_of_length_le hcapped]

theorem sanitizeLabel_kept {s : String} (huncut : ¬ CutAtDash (labelWords s)) :
    ∃ words, Wordy words ∧ words ≠ [] ∧ (joined words).length ≤ LABEL_CAP ∧
      sanitizeLabel s = String.ofList (joined words) := by
  obtain ⟨hwordy, hsome⟩ := labelSource_wordy s
  rcases take_joined hwordy hsome (by decide : 0 < LABEL_CAP) with
    ⟨front, back, hsplit, hfront, hback, hlength⟩ | ⟨kept, hkept, hkeptSome, htake⟩
  · unfold labelSource at hsplit
    split at hsplit
    · obtain ⟨first, more, rfl⟩ := List.exists_cons_of_ne_nil hfront
      rw [List.cons_append, List.cons.injEq] at hsplit
      exact (hback (List.append_eq_nil_iff.mp hsplit.2.symm).2).elim
    · exact (huncut ⟨front, back, hsplit, hback, hlength⟩).elim
  · refine ⟨kept, hkept, hkeptSome, ?_, ?_⟩
    · rw [← htake]
      exact List.length_take_le _ _
    · rw [sanitizeLabel_eq, htake]

theorem sanitizeLabel_cut {s : String} (hcut : CutAtDash (labelWords s)) :
    (sanitizeLabel s).toList.getLast? = some '-' := by
  obtain ⟨front, back, hsplit, hback, hlength⟩ := hcut
  have hfront : front ≠ [] := by
    rintro rfl
    exact absurd hlength (by decide)
  have hsome : labelWords s ≠ [] := by
    rw [hsplit]
    simp [hfront]
  rw [sanitizeLabel_eq, labelSource, if_neg hsome, hsplit, joined_append hfront,
    dashed_eq_joined hback, ← hlength, List.take_length_add_append, String.toList_ofList]
  simp

/-- A text gets a label of the DNS that is its own label, unless the cap leaves a dash of it. -/
theorem sanitizeLabel_sound_iff (s : String) :
    (IsDnsLabel (sanitizeLabel s) ∧ sanitizeLabel (sanitizeLabel s) = sanitizeLabel s) ↔
      ¬ CutAtDash (labelWords s) := by
  constructor
  · rintro ⟨hlabel, -⟩ hcut
    exact hlabel.ends (sanitizeLabel_cut hcut)
  · intro huncut
    obtain ⟨words, hwords, hsome, hcapped, hlabel⟩ := sanitizeLabel_kept huncut
    rw [hlabel]
    exact ⟨joined_isDnsLabel hwords hsome hcapped, sanitizeLabel_joined hwords hsome hcapped⟩

/-- A name of 62 letters, and one word more. -/
theorem sanitizeLabel_leaves_dash :
    ¬ ∀ s, IsDnsLabel (sanitizeLabel s) ∧ sanitizeLabel (sanitizeLabel s) = sanitizeLabel s := by
  intro hclaim
  have hdash : (sanitizeLabel (String.ofList (List.replicate 62 'a' ++ ['-', 'b']))).toList.getLast?
      = some '-' := by
    decide
  exact (hclaim _).1.ends hdash

end UnityLan
