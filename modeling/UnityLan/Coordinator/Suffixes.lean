import Mathlib.Data.List.Perm.Subperm
import UnityLan.Common.Labels
import UnityLan.Coordinator.Store

namespace UnityLan.Coordinator

open UnityLan.Foundation

/-! Names that `sanitizeLabel` leaves as they are, and names with a number after them. -/

def MadeOfWords (label : String) : Prop :=
  ∃ words, Wordy words ∧ words ≠ [] ∧ (joined words).length ≤ LABEL_CAP ∧
    label = String.ofList (joined words)

theorem MadeOfWords.isDnsLabel {label : String} (hwords : MadeOfWords label) :
    IsDnsLabel label := by
  obtain ⟨words, hwordy, hsome, hcapped, rfl⟩ := hwords
  exact joined_isDnsLabel hwordy hsome hcapped

theorem MadeOfWords.own {label : String} (hwords : MadeOfWords label) :
    sanitizeLabel label = label := by
  obtain ⟨words, hwordy, hsome, hcapped, rfl⟩ := hwords
  exact sanitizeLabel_joined hwordy hsome hcapped

theorem labelWords_trailing {words : List (List Char)} (hwords : Wordy words) :
    labelWords (String.ofList (joined words ++ ['-'])) = words := by
  have hruns : ∀ {words}, Wordy words →
      labelRuns (dashed words ++ ['-']) = [] :: words ++ [[]] := by
    intro words hwords
    induction words with
    | nil => rfl
    | cons word rest ih =>
        rw [dashed_cons, List.cons_append, List.cons_append, List.append_assoc,
          labelRuns_other (by decide), labelRuns_append _ (hwords word (List.mem_cons_self ..)).2,
          ih hwords.tail]
        simp
  have hkept : words.filter (· ≠ []) = words :=
    List.filter_eq_self.mpr fun word hword => by simpa using (hwords word hword).1
  unfold labelWords
  rw [String.toList_ofList]
  change (labelRuns (joined words ++ ['-'])).filter (· ≠ []) = words
  cases words with
  | nil => rfl
  | cons word rest =>
      rw [joined, List.append_assoc, labelRuns_append _ (hwords word (List.mem_cons_self ..)).2,
        hruns hwords.tail, List.cons_append, List.modifyHead_cons, List.append_nil,
        ← List.cons_append, List.filter_append, hkept]
      simp

theorem madeOfWords_of_own {label : String} (hown : sanitizeLabel label = label) :
    MadeOfWords label := by
  by_cases hcut : CutAtDash (labelWords label)
  · obtain ⟨front, back, hsplit, hback, hlength⟩ := hcut
    have hfront : front ≠ [] := by
      rintro rfl
      exact absurd hlength (by decide)
    have hwordy : Wordy front := fun word hword =>
      labelWords_wordy label word (hsplit ▸ List.mem_append_left _ hword)
    have hlabel : label = String.ofList (joined front ++ ['-']) := by
      have hsome : labelWords label ≠ [] := by
        rw [hsplit]
        simp [hfront]
      rw [sanitizeLabel_eq, labelSource, if_neg hsome, hsplit, joined_append hfront,
        dashed_eq_joined hback, ← hlength, List.take_length_add_append] at hown
      exact hown.symm
    have hwords := labelWords_trailing hwordy
    rw [← hlabel, hsplit] at hwords
    exact (hback (List.append_right_eq_self.mp hwords)).elim
  · obtain ⟨words, hwordy, hsome, hcapped, hlabel⟩ := sanitizeLabel_kept hcut
    exact ⟨words, hwordy, hsome, hcapped, hown.symm.trans hlabel⟩

/-! The number. -/

def digits (n : Nat) : List Char :=
  (toString n).toList

theorem digits_eq (n : Nat) : digits n = Nat.toDigits 10 n := by
  rw [digits, Nat.toString_eq_repr, Nat.toList_repr]

theorem digits_label (n : Nat) : ∀ c ∈ digits n, isLabelChar c = true := by
  intro c hc
  rw [digits_eq] at hc
  have hdigit : c.isDigit = true := Nat.isDigit_of_mem_toDigits (by decide) (by decide) hc
  simp only [Char.isDigit, Bool.and_eq_true, decide_eq_true_eq] at hdigit
  simp only [isLabelChar, Bool.or_eq_true, Bool.and_eq_true, decide_eq_true_eq]
  exact .inr hdigit

theorem digits_ne_nil (n : Nat) : digits n ≠ [] := by
  rw [digits_eq]
  exact Nat.toDigits_ne_nil

theorem dash_not_mem_digits (n : Nat) : '-' ∉ digits n := by
  intro hdash
  have hlabel := digits_label n '-' hdash
  rw [not_isLabelChar_dash] at hlabel
  cases hlabel

theorem digits_injective {n m : Nat} (hsame : digits n = digits m) : n = m := by
  rw [digits_eq, digits_eq] at hsame
  have hvalue := congrArg (Nat.ofDigitChars 10 · 0) hsame
  simpa only [Nat.ofDigitChars_ten_toDigits] using hvalue

theorem digits_length {n k : Nat} (hsome : 0 < k) (hbelow : n < 10 ^ k) :
    (digits n).length ≤ k := by
  rw [digits_eq]
  exact (Nat.length_toDigits_le_iff (by decide) hsome).mpr hbelow

theorem utf8ByteSize_ofList_ascii {chars : List Char} (hascii : ∀ c ∈ chars, c.utf8Size = 1) :
    (String.ofList chars).utf8ByteSize = chars.length := by
  induction chars with
  | nil => rfl
  | cons c rest ih =>
      rw [String.ofList_cons, String.utf8ByteSize_append, String.utf8ByteSize_singleton,
        hascii c (List.mem_cons_self ..), ih fun d hd => hascii d (List.mem_cons_of_mem _ hd),
        List.length_cons, Nat.add_comm]

theorem utf8Size_label {c : Char} (hc : isLabelChar c = true) : c.utf8Size = 1 := by
  have hascii : c.val ≤ 127 := by
    simp only [isLabelChar, Bool.or_eq_true, Bool.and_eq_true, decide_eq_true_eq] at hc
    rcases hc with ⟨-, hto⟩ | ⟨-, hto⟩
    · exact UInt32.le_trans hto (by decide)
    · exact UInt32.le_trans hto (by decide)
  simp [Char.utf8Size, hascii]

/-! The name before it. -/

def stem (desired : String) (n : Nat) : List Char :=
  desired.toList.take (MAX_LABEL_LEN - ((digits n).length + 1))

theorem suffixedLabel_eq (desired : String) (n : Nat) :
    suffixedLabel desired n = String.ofList (stem desired n ++ '-' :: digits n) := by
  have hsuffix : s!"-{n}" = String.ofList ('-' :: digits n) := by
    rw [← String.toList_inj, String.toList_ofList, String.toList_append]
    rfl
  have hsize : (s!"-{n}").utf8ByteSize = (digits n).length + 1 := by
    rw [hsuffix, utf8ByteSize_ofList_ascii, List.length_cons]
    intro c hc
    rcases List.mem_cons.mp hc with rfl | hc
    · rfl
    · exact utf8Size_label (digits_label n c hc)
  unfold suffixedLabel stem
  dsimp only
  rw [hsize, hsuffix, String.ofList_append]

theorem suffixedLabel_injective {desired : String} {n m : Nat}
    (hsame : suffixedLabel desired n = suffixedLabel desired m) : n = m := by
  have htail : ∀ k, ((stem desired k ++ '-' :: digits k).reverse.takeWhile (· ≠ '-')) =
      (digits k).reverse := by
    intro k
    rw [List.reverse_append, List.reverse_cons, List.append_assoc, List.takeWhile_append_of_pos]
    · simp
    · intro c hc
      have hmem := List.mem_reverse.mp hc
      simpa using fun hdash : c = '-' => dash_not_mem_digits k (hdash ▸ hmem)
  rw [suffixedLabel_eq, suffixedLabel_eq, String.ofList_inj] at hsame
  have hdigits := htail n
  rw [hsame, htail m] at hdigits
  exact digits_injective (List.reverse_inj.mp hdigits).symm

section

variable {desired : String} {n : Nat}

theorem stem_length (hfits : (digits n).length < MAX_LABEL_LEN) :
    (stem desired n ++ '-' :: digits n).length ≤ MAX_LABEL_LEN := by
  have hstem : (stem desired n).length ≤ MAX_LABEL_LEN - ((digits n).length + 1) :=
    List.length_take_le _ _
  rw [List.length_append, List.length_cons]
  omega

theorem suffixedLabel_isDnsLabel (hplain : isPlainLabel desired = true)
    (hstarts : desired.toList.head? ≠ some '-') (hfits : (digits n).length + 1 < MAX_LABEL_LEN)
    (hsome : desired ≠ "") : IsDnsLabel (suffixedLabel desired n) where
  plain := suffixedLabel_plain hplain n
  nonempty := by
    rw [suffixedLabel_eq]
    intro hempty
    have hlist := congrArg String.toList hempty
    rw [String.toList_ofList] at hlist
    simp at hlist
  capped := by
    rw [suffixedLabel_eq, String.length_ofList]
    exact stem_length (by omega)
  starts := by
    rw [suffixedLabel_eq, String.toList_ofList]
    cases hchars : desired.toList with
    | nil => exact absurd (String.toList_eq_nil_iff.mp hchars) hsome
    | cons c rest =>
        obtain ⟨room, hroom⟩ : ∃ room, MAX_LABEL_LEN - ((digits n).length + 1) = room + 1 :=
          ⟨MAX_LABEL_LEN - ((digits n).length + 1) - 1, by omega⟩
        rw [stem, hroom, hchars]
        rw [hchars] at hstarts
        simpa using hstarts
  ends := by
    rw [suffixedLabel_eq, String.toList_ofList, List.getLast?_append,
      List.getLast?_cons_of_ne_nil (digits_ne_nil n),
      Option.or_of_isSome (List.getLast?_isSome.mpr (digits_ne_nil n))]
    exact fun hdash => dash_not_mem_digits n (List.mem_of_getLast? hdash)

theorem MadeOfWords.suffixed (hwords : MadeOfWords desired)
    (hfits : (digits n).length + 1 < MAX_LABEL_LEN)
    (hwhole : (stem desired n).getLast? ≠ some '-') :
    MadeOfWords (suffixedLabel desired n) := by
  obtain ⟨words, hwordy, hsome, hcapped, rfl⟩ := hwords
  have hroom : 0 < MAX_LABEL_LEN - ((digits n).length + 1) := by omega
  have hstem : stem (String.ofList (joined words)) n =
      (joined words).take (MAX_LABEL_LEN - ((digits n).length + 1)) := by
    rw [stem, String.toList_ofList]
  rcases take_joined hwordy hsome hroom with
    ⟨front, back, hsplit, hfront, hback, hlength⟩ | ⟨kept, hkept, hkeptSome, htake⟩
  · refine (hwhole ?_).elim
    rw [hstem, hsplit, joined_append hfront, dashed_eq_joined hback, ← hlength,
      List.take_length_add_append]
    simp
  · have hjoined : joined (kept ++ [digits n]) = stem (String.ofList (joined words)) n ++
        '-' :: digits n := by
      rw [joined_append hkeptSome, dashed_cons, dashed_nil, List.append_nil, hstem, htake]
    refine ⟨kept ++ [digits n], ?_, List.append_ne_nil_of_left_ne_nil hkeptSome _, ?_, ?_⟩
    · intro word hword
      rcases List.mem_append.mp hword with hold | hnew
      · exact hkept word hold
      · rw [List.mem_singleton.mp hnew]
        exact ⟨digits_ne_nil n, digits_label n⟩
    · rw [hjoined]
      exact stem_length (by omega)
    · rw [suffixedLabel_eq, hjoined]

end

end UnityLan.Coordinator
