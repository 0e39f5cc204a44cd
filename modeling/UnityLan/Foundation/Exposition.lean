import Mathlib.Data.List.TakeDrop
import Mathlib.Data.List.TakeWhile

namespace UnityLan.Foundation.Exposition

/-! The line-oriented text format that metrics are exposed in. -/

structure Sample where
  name : List Char
  labels : List (List Char × List Char) := []
  value : List Char
  deriving DecidableEq

def isBlank (c : Char) : Bool :=
  c == ' ' || c == '\t'

def isNameChar (c : Char) : Bool :=
  c.isAlphanum || c == '_' || c == ':'

def readValue : List Char → Option (List Char × List Char)
  | '"' :: rest => some ([], rest)
  | '\\' :: '\\' :: rest => (readValue rest).map fun read => ('\\' :: read.1, read.2)
  | '\\' :: '"' :: rest => (readValue rest).map fun read => ('"' :: read.1, read.2)
  | '\\' :: 'n' :: rest => (readValue rest).map fun read => ('\n' :: read.1, read.2)
  | '\\' :: _ => none
  | '\n' :: _ => none
  | c :: rest => (readValue rest).map fun read => (c :: read.1, read.2)
  | [] => none

def readLabels : Nat → List Char → Option (List (List Char × List Char) × List Char)
  | 0, _ => none
  | fuel + 1, text =>
      match text.dropWhile isBlank with
      | '}' :: rest => some ([], rest)
      | text =>
          match (text.dropWhile isNameChar).dropWhile isBlank with
          | '=' :: rest =>
              match rest.dropWhile isBlank with
              | '"' :: rest =>
                  (readValue rest).bind fun value =>
                    match value.2.dropWhile isBlank with
                    | ',' :: rest =>
                        (readLabels fuel rest).map fun more =>
                          ((text.takeWhile isNameChar, value.1) :: more.1, more.2)
                    | '}' :: rest => some ([(text.takeWhile isNameChar, value.1)], rest)
                    | _ => none
              | _ => none
          | _ => none

def readSampleValue (name : List Char) (labels : List (List Char × List Char)) (text : List Char) :
    Option Sample :=
  let text := text.dropWhile isBlank
  let value := text.takeWhile fun c => !isBlank c
  if value = [] then none
  else if ((text.dropWhile fun c => !isBlank c).dropWhile isBlank).all Char.isDigit then
    some ⟨name, labels, value⟩
  else none

def readSample (line : List Char) : Option Sample :=
  let name := line.takeWhile isNameChar
  if name = [] then none
  else
    match (line.dropWhile isNameChar).dropWhile isBlank with
    | '{' :: rest =>
        (readLabels (rest.length + 1) rest).bind fun labels => readSampleValue name labels.1 labels.2
    | rest => readSampleValue name [] rest

def readLine (line : List Char) : Option (List Sample) :=
  match line.dropWhile isBlank with
  | [] => some []
  | '#' :: _ => some []
  | line => (readSample line).map fun sample => [sample]

def lines : List Char → List (List Char)
  | [] => [[]]
  | c :: rest =>
      if c = '\n' then [] :: lines rest
      else
        match lines rest with
        | [] => [[c]]
        | line :: later => (c :: line) :: later

def readAll : List (List Char) → Option (List Sample)
  | [] => some []
  | line :: later =>
      (readLine line).bind fun samples => (readAll later).map fun more => samples ++ more

def read (text : List Char) : Option (List Sample) :=
  readAll (lines text)

/-! Lines. -/

theorem lines_ne_nil (text : List Char) : lines text ≠ [] := by
  cases text with
  | nil => nofun
  | cons c rest =>
      unfold lines
      split
      · nofun
      · split <;> nofun

theorem lines_head (text : List Char) :
    ∃ later, lines text = text.takeWhile (fun c => c != '\n') :: later := by
  induction text with
  | nil => exact ⟨[], rfl⟩
  | cons c rest ih =>
      obtain ⟨later, hlater⟩ := ih
      rw [lines]
      split
      · rename_i hc
        exact ⟨lines rest, by simp [hc]⟩
      · rename_i hc
        rw [hlater]
        exact ⟨later, by simp [hc]⟩

/-! Label values. -/

/-- A value that stands for itself. -/
def Verbatim (value : List Char) : Prop :=
  ∀ c ∈ value, c ≠ '\\' ∧ c ≠ '"' ∧ c ≠ '\n'

instance (value : List Char) : Decidable (Verbatim value) :=
  decidable_of_iff (value.all (fun c => c != '\\' && (c != '"' && c != '\n')) = true)
    (by simp [Verbatim])

theorem Verbatim.no_newline {value : List Char} (hverbatim : Verbatim value) : '\n' ∉ value :=
  fun hline => (hverbatim _ hline).2.2 rfl

theorem readValue_cons {c : Char} {rest : List Char} (hslash : c ≠ '\\') (hquote : c ≠ '"')
    (hline : c ≠ '\n') :
    readValue (c :: rest) = (readValue rest).map fun read => (c :: read.1, read.2) := by
  rw [readValue]
  all_goals
    intros
    simp_all

theorem readValue_verbatim {value : List Char} (rest : List Char) (hverbatim : Verbatim value) :
    readValue (value ++ '"' :: rest) = some (value, rest) := by
  induction value with
  | nil => simp [readValue]
  | cons c value ih =>
      obtain ⟨hslash, hquote, hline⟩ := hverbatim c List.mem_cons_self
      rw [List.cons_append, readValue_cons hslash hquote hline,
        ih fun other hother => hverbatim other (List.mem_cons_of_mem _ hother)]
      rfl

theorem readValue_length {text value rest : List Char}
    (hread : readValue text = some (value, rest)) : value.length < text.length := by
  fun_induction readValue text generalizing value with
  | case1 => simp_all
  | case2 rest' ih =>
      obtain ⟨⟨read, left⟩, hinner, heq⟩ := Option.map_eq_some_iff.mp hread
      cases heq
      have hshort := ih hinner
      simp only [List.length_cons]
      omega
  | case3 rest' ih =>
      obtain ⟨⟨read, left⟩, hinner, heq⟩ := Option.map_eq_some_iff.mp hread
      cases heq
      have hshort := ih hinner
      simp only [List.length_cons]
      omega
  | case4 rest' ih =>
      obtain ⟨⟨read, left⟩, hinner, heq⟩ := Option.map_eq_some_iff.mp hread
      cases heq
      have hshort := ih hinner
      simp only [List.length_cons]
      omega
  | case5 => cases hread
  | case6 => cases hread
  | case7 c rest' _ _ _ _ _ _ ih =>
      obtain ⟨⟨read, left⟩, hinner, heq⟩ := Option.map_eq_some_iff.mp hread
      cases heq
      have hshort := ih hinner
      simp only [List.length_cons]
      omega
  | case8 => cases hread

theorem readValue_slash {text value rest : List Char}
    (hread : readValue text = some ('\\' :: value, rest)) :
    ∃ later, text = '\\' :: '\\' :: later ∧ readValue later = some (value, rest) := by
  unfold readValue at hread
  split at hread
  · cases hread
  · obtain ⟨⟨read, left⟩, hinner, heq⟩ := Option.map_eq_some_iff.mp hread
    cases heq
    exact ⟨_, rfl, hinner⟩
  · obtain ⟨⟨read, left⟩, hinner, heq⟩ := Option.map_eq_some_iff.mp hread
    cases heq
  · obtain ⟨⟨read, left⟩, hinner, heq⟩ := Option.map_eq_some_iff.mp hread
    cases heq
  · cases hread
  · cases hread
  · rename_i c later _ _ _ _ hnot _
    obtain ⟨⟨read, left⟩, hinner, heq⟩ := Option.map_eq_some_iff.mp hread
    cases heq
    exact absurd rfl hnot
  · cases hread

theorem readValue_slashes {value rest left : List Char} {count : Nat} :
    readValue (value ++ '"' :: rest) ≠ some (List.replicate (count + 1) '\\' ++ value, left) := by
  induction hlength : value.length using Nat.strong_induction_on generalizing value count with
  | _ length ih =>
      intro hread
      rw [List.replicate_succ, List.cons_append] at hread
      obtain ⟨later, htext, hlater⟩ := readValue_slash hread
      match value, htext with
      | [], htext => cases htext
      | [c], htext => cases htext
      | first :: second :: value, htext =>
          simp only [List.cons_append, List.cons.injEq] at htext
          obtain ⟨rfl, rfl, rfl⟩ := htext
          have hsame : List.replicate count '\\' ++ '\\' :: '\\' :: value =
              List.replicate (count + 1 + 1) '\\' ++ value := by
            rw [List.replicate_succ', List.replicate_succ']
            simp
          rw [hsame] at hlater
          have hshorter : value.length < length := by
            rw [← hlength, List.length_cons, List.length_cons]
            omega
          exact ih value.length hshorter rfl hlater

theorem verbatim_of_read {value rest left : List Char}
    (hread : readValue (value ++ '"' :: rest) = some (value, left)) (hline : '\n' ∉ value) :
    Verbatim value := by
  induction value with
  | nil => exact fun _ hc => by cases hc
  | cons c value ih =>
      rw [List.mem_cons, not_or] at hline
      have hslash : c ≠ '\\' := by
        rintro rfl
        obtain ⟨later, htext, hlater⟩ := readValue_slash hread
        match value, htext with
        | [], htext => cases htext
        | second :: value, htext =>
            simp only [List.cons_append, List.cons.injEq, true_and] at htext
            obtain ⟨rfl, rfl⟩ := htext
            exact @readValue_slashes value rest left 0 hlater
      have hquote : c ≠ '"' := by
        rintro rfl
        simp [readValue] at hread
      rw [List.cons_append, readValue_cons hslash hquote (Ne.symm hline.1)] at hread
      obtain ⟨⟨read, later⟩, hinner, heq⟩ := Option.map_eq_some_iff.mp hread
      cases heq
      intro other hother
      rcases List.mem_cons.mp hother with rfl | hother
      · exact ⟨hslash, hquote, Ne.symm hline.1⟩
      · exact ih hinner hline.2 other hother

/-! Whole texts. -/

theorem lines_append (text rest : List Char) :
    lines (text ++ '\n' :: rest) = lines text ++ lines rest := by
  induction text with
  | nil => rfl
  | cons c text ih =>
      rw [List.cons_append, lines, lines, ih]
      by_cases hc : c = '\n'
      · rw [if_pos hc, if_pos hc, List.cons_append]
      · rw [if_neg hc, if_neg hc]
        cases hlines : lines text with
        | nil => exact absurd hlines (lines_ne_nil text)
        | cons line later => rfl

theorem readAll_append (front back : List (List Char)) :
    readAll (front ++ back) =
      (readAll front).bind fun samples => (readAll back).map fun more => samples ++ more := by
  induction front with
  | nil =>
      rw [List.nil_append, readAll, Option.bind_some]
      cases readAll back <;> rfl
  | cons line front ih =>
      rw [List.cons_append, readAll, readAll, ih]
      cases readLine line with
      | none => rfl
      | some samples =>
          cases readAll front with
          | none => rfl
          | some more =>
              cases readAll back with
              | none => rfl
              | some last => simp

theorem read_append (text rest : List Char) :
    read (text ++ '\n' :: rest) =
      (read text).bind fun samples => (read rest).map fun more => samples ++ more := by
  unfold read
  rw [lines_append, readAll_append]

theorem lines_single {line : List Char} (hline : '\n' ∉ line) : lines line = [line] := by
  induction line with
  | nil => rfl
  | cons c line ih =>
      rw [List.mem_cons, not_or] at hline
      rw [lines, if_neg (Ne.symm hline.1), ih hline.2]

theorem read_single {line : List Char} (hline : '\n' ∉ line) : read line = readLine line := by
  unfold read
  rw [lines_single hline, readAll, readAll]
  cases readLine line <;> simp

theorem read_comment {line : List Char} (hline : '\n' ∉ line) (hmark : line.head? = some '#') :
    read line = some [] := by
  obtain ⟨rest, rfl⟩ := List.head?_eq_some_iff.mp hmark
  rw [read_single hline]
  simp [readLine, isBlank]

/-! Samples. -/

def IsName (name : List Char) : Prop :=
  name ≠ [] ∧ ∀ c ∈ name, isNameChar c = true

instance (name : List Char) : Decidable (IsName name) :=
  decidable_of_iff (name ≠ [] ∧ name.all isNameChar = true) (by rw [List.all_eq_true]; rfl)

theorem not_blank_of_name {c : Char} (hname : isNameChar c = true) : isBlank c = false := by
  rw [Bool.eq_false_iff]
  intro hblank
  simp only [isBlank, Bool.or_eq_true, beq_iff_eq] at hblank
  obtain rfl | rfl := hblank
  · exact absurd hname (by decide)
  · exact absurd hname (by decide)

theorem IsName.no_newline {name : List Char} (hname : IsName name) : '\n' ∉ name :=
  fun hline => absurd (hname.2 _ hline) (by decide)

section

variable {name : List Char} (hname : IsName name)

include hname

theorem IsName.takeWhile {c : Char} (hc : isNameChar c = false) (rest : List Char) :
    (name ++ c :: rest).takeWhile isNameChar = name := by
  rw [List.takeWhile_append_of_pos hname.2, List.takeWhile_cons_of_neg (by simp [hc]),
    List.append_nil]

theorem IsName.dropWhile {c : Char} (hc : isNameChar c = false) (rest : List Char) :
    (name ++ c :: rest).dropWhile isNameChar = c :: rest := by
  rw [List.dropWhile_append_of_pos hname.2, List.dropWhile_cons_of_neg (by simp [hc])]

theorem IsName.dropBlank (rest : List Char) :
    (name ++ rest).dropWhile isBlank = name ++ rest := by
  obtain ⟨hsome, hall⟩ := hname
  cases name with
  | nil => exact absurd rfl hsome
  | cons first name =>
      rw [List.cons_append, List.dropWhile_cons_of_neg]
      simp [not_blank_of_name (hall first List.mem_cons_self)]

theorem IsName.head {first : Char} {name' rest : List Char} (hsame : name ++ rest = first :: name') :
    isNameChar first = true := by
  obtain ⟨hsome, hall⟩ := hname
  cases name with
  | nil => exact absurd rfl hsome
  | cons c name =>
      rw [List.cons_append, List.cons.injEq] at hsame
      exact hsame.1 ▸ hall c List.mem_cons_self

theorem readLine_named (rest : List Char) :
    readLine (name ++ rest) = (readSample (name ++ rest)).map fun sample => [sample] := by
  unfold readLine
  rw [hname.dropBlank]
  split
  · rename_i hnone
    exact absurd (List.append_eq_nil_iff.mp hnone).1 hname.1
  · rename_i hmark
    exact absurd (hname.head hmark) (by decide)
  · rfl

theorem readSample_labelled (rest : List Char) :
    readSample (name ++ '\x7b' :: rest) =
      (readLabels (rest.length + 1) rest).bind fun labels => readSampleValue name labels.1 labels.2 := by
  unfold readSample
  rw [hname.takeWhile (by decide), hname.dropWhile (by decide), if_neg hname.1,
    List.dropWhile_cons_of_neg (by decide)]
  rfl

theorem readLabels_named (fuel : Nat) (text : List Char) :
    readLabels (fuel + 1) (name ++ '=' :: '"' :: text) =
      (readValue text).bind fun value =>
        match value.2.dropWhile isBlank with
        | ',' :: rest =>
            (readLabels fuel rest).map fun more => ((name, value.1) :: more.1, more.2)
        | '\x7d' :: rest => some ([(name, value.1)], rest)
        | _ => none := by
  rw [readLabels, hname.dropBlank]
  split
  · rename_i hclose
    exact absurd (hname.head hclose) (by decide)
  · rw [hname.takeWhile (by decide), hname.dropWhile (by decide),
      List.dropWhile_cons_of_neg (by decide)]
    have hopen : ('"' :: text).dropWhile isBlank = '"' :: text :=
      List.dropWhile_cons_of_neg (by decide)
    simp only [hopen]

theorem readLabels_last {value : List Char} (hverbatim : Verbatim value) (fuel : Nat)
    (rest : List Char) :
    readLabels (fuel + 1) (name ++ '=' :: '"' :: (value ++ '"' :: '\x7d' :: rest)) =
      some ([(name, value)], rest) := by
  rw [readLabels_named hname, readValue_verbatim _ hverbatim, Option.bind_some,
    List.dropWhile_cons_of_neg (by decide)]
  rfl

theorem readLabels_more {value : List Char} (hverbatim : Verbatim value) (fuel : Nat)
    (rest : List Char) :
    readLabels (fuel + 1) (name ++ '=' :: '"' :: (value ++ '"' :: ',' :: rest)) =
      (readLabels fuel rest).map fun more => ((name, value) :: more.1, more.2) := by
  rw [readLabels_named hname, readValue_verbatim _ hverbatim, Option.bind_some,
    List.dropWhile_cons_of_neg (by decide)]
  rfl

theorem readSample_one {key value : List Char} (hkey : IsName key) (hverbatim : Verbatim value)
    (rest : List Char) :
    readSample (name ++ '\x7b' :: (key ++ '=' :: '"' :: (value ++ '"' :: '\x7d' :: rest))) =
      readSampleValue name [(key, value)] rest := by
  rw [readSample_labelled hname, readLabels_last hkey hverbatim, Option.bind_some]

theorem readSample_two {key value key' value' : List Char} (hkey : IsName key)
    (hverbatim : Verbatim value) (hkey' : IsName key') (hverbatim' : Verbatim value')
    (rest : List Char) :
    readSample (name ++ '\x7b' :: (key ++ '=' :: '"' :: (value ++ '"' :: ',' ::
        (key' ++ '=' :: '"' :: (value' ++ '"' :: '\x7d' :: rest))))) =
      readSampleValue name [(key, value), (key', value')] rest := by
  rw [readSample_labelled hname, readLabels_more hkey hverbatim, List.length_append,
    List.length_cons, ← Nat.add_assoc, readLabels_last hkey' hverbatim', Option.map_some,
    Option.bind_some]

theorem read_one {key value rest : List Char} {sample : Sample} (hkey : IsName key)
    (hverbatim : Verbatim value) (hrest : '\n' ∉ rest)
    (hnumber : readSampleValue name [(key, value)] rest = some sample) :
    read (name ++ '\x7b' :: (key ++ '=' :: '"' :: (value ++ '"' :: '\x7d' :: rest))) =
      some [sample] := by
  rw [read_single, readLine_named hname, readSample_one hname hkey hverbatim, hnumber,
    Option.map_some]
  simp only [List.mem_append, List.mem_cons, not_or]
  exact ⟨hname.no_newline, by decide, hkey.no_newline, by decide, by decide,
    hverbatim.no_newline, by decide, by decide, hrest⟩

theorem read_two {key value key' value' rest : List Char} {sample : Sample} (hkey : IsName key)
    (hverbatim : Verbatim value) (hkey' : IsName key') (hverbatim' : Verbatim value')
    (hrest : '\n' ∉ rest)
    (hnumber : readSampleValue name [(key, value), (key', value')] rest = some sample) :
    read (name ++ '\x7b' :: (key ++ '=' :: '"' :: (value ++ '"' :: ',' ::
        (key' ++ '=' :: '"' :: (value' ++ '"' :: '\x7d' :: rest))))) =
      some [sample] := by
  rw [read_single, readLine_named hname,
    readSample_two hname hkey hverbatim hkey' hverbatim', hnumber, Option.map_some]
  simp only [List.mem_append, List.mem_cons, not_or]
  exact ⟨hname.no_newline, by decide, hkey.no_newline, by decide, by decide,
    hverbatim.no_newline, by decide, by decide, hkey'.no_newline, by decide, by decide,
    hverbatim'.no_newline, by decide, by decide, hrest⟩

theorem readLabels_first {fuel : Nat} {text left : List Char}
    {labels : List (List Char × List Char)}
    (hread : readLabels fuel (name ++ '=' :: '"' :: text) = some (labels, left)) :
    ∃ value rest, readValue text = some (value, rest) ∧ labels.head? = some (name, value) := by
  cases fuel with
  | zero => cases hread
  | succ fuel =>
      rw [readLabels_named hname] at hread
      obtain ⟨value, hvalue, hread⟩ := Option.bind_eq_some_iff.mp hread
      refine ⟨value.1, value.2, hvalue, ?_⟩
      split at hread
      · obtain ⟨more, -, heq⟩ := Option.map_eq_some_iff.mp hread
        cases heq
        rfl
      · cases hread
        rfl
      · cases hread

end

theorem readSampleValue_labels {name text : List Char} {labels : List (List Char × List Char)}
    {sample : Sample} (hread : readSampleValue name labels text = some sample) :
    sample.labels = labels := by
  unfold readSampleValue at hread
  dsimp only at hread
  split at hread
  · cases hread
  · split at hread
    · cases hread
      rfl
    · cases hread

theorem read_labelled {name key text : List Char} (hname : IsName name) (hkey : IsName key)
    {samples : List Sample}
    (hread : read (name ++ '\x7b' :: (key ++ '=' :: '"' :: text)) = some samples) :
    ∃ sample more value rest, samples = sample :: more ∧
      sample.labels.head? = some (key, value) ∧
      readValue (text.takeWhile fun c => c != '\n') = some (value, rest) := by
  obtain ⟨later, hlines⟩ := lines_head (name ++ '\x7b' :: (key ++ '=' :: '"' :: text))
  have hplain : ∀ {name : List Char}, IsName name → ∀ c ∈ name, (c != '\n') = true := by
    intro name hname c hc
    rw [bne_iff_ne]
    rintro rfl
    exact hname.no_newline hc
  rw [List.takeWhile_append_of_pos (hplain hname), List.takeWhile_cons_of_pos (by decide),
    List.takeWhile_append_of_pos (hplain hkey), List.takeWhile_cons_of_pos (by decide),
    List.takeWhile_cons_of_pos (by decide)] at hlines
  unfold read at hread
  rw [hlines, readAll, readLine_named hname, readSample_labelled hname] at hread
  obtain ⟨first, hfirst, hread⟩ := Option.bind_eq_some_iff.mp hread
  obtain ⟨more, -, rfl⟩ := Option.map_eq_some_iff.mp hread
  obtain ⟨sample, hsample, rfl⟩ := Option.map_eq_some_iff.mp hfirst
  obtain ⟨⟨labels, left⟩, hlabels, hnumber⟩ := Option.bind_eq_some_iff.mp hsample
  obtain ⟨value, rest, hvalue, hhead⟩ := readLabels_first hkey hlabels
  exact ⟨sample, more, value, rest, rfl, by rw [readSampleValue_labels hnumber, hhead], hvalue⟩

theorem line_length (front rest : List Char) :
    ((front ++ '\n' :: rest).takeWhile fun c => c != '\n').length ≤ front.length := by
  induction front with
  | nil => simp
  | cons c front ih =>
      rw [List.cons_append, List.takeWhile_cons]
      split
      · exact Nat.succ_le_succ ih
      · exact Nat.zero_le _

theorem verbatim_of_label {value rest left : List Char}
    (hread : readValue ((value ++ '"' :: rest).takeWhile fun c => c != '\n') =
      some (value, left)) : Verbatim value := by
  by_cases hline : '\n' ∈ value
  · obtain ⟨front, back, rfl⟩ := List.append_of_mem hline
    have hcut := line_length front (back ++ '"' :: rest)
    rw [List.append_assoc, List.cons_append] at hread
    have hshort := readValue_length hread
    rw [List.length_append, List.length_cons] at hshort
    omega
  · rw [List.takeWhile_append_of_pos, List.takeWhile_cons_of_pos (by decide)] at hread
    · exact verbatim_of_read hread hline
    · intro c hc
      rw [bne_iff_ne]
      rintro rfl
      exact hline hc

def writeLines (lines : List (List Char)) (rest : List Char) : List Char :=
  lines.foldr (fun line rest => line ++ '\n' :: rest) rest

theorem read_writeLines {ι : Type} {items : List ι} {line : ι → List Char}
    {samples : ι → List Sample} (hread : ∀ item ∈ items, read (line item) = some (samples item))
    (rest : List Char) :
    read (writeLines (items.map line) rest) =
      (read rest).map fun more => items.flatMap samples ++ more := by
  induction items with
  | nil => cases hrest : read rest <;> simp [writeLines, hrest]
  | cons item items ih =>
      change read (line item ++ '\n' :: writeLines (items.map line) rest) = _
      rw [read_append, hread item List.mem_cons_self, Option.bind_some,
        ih fun other hother => hread other (List.mem_cons_of_mem _ hother), Option.map_map]
      congr 1
      funext more
      simp

end UnityLan.Foundation.Exposition
