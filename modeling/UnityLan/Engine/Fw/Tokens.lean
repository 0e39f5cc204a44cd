import UnityLan.Engine.Fw.Windows

namespace UnityLan.Engine.Fw.Win

/-! A script as PowerShell reads it: the characters of its commands, and the strings between. -/

inductive Token
  | code (c : Char)
  | text (s : String)
  deriving DecidableEq

def code (s : String) : List Token :=
  s.toList.map .code

theorem readQuoted_length {cs content rest : List Char}
    (hread : readQuoted cs = some (content, rest)) :
    cs.length = 1 + content.length + content.countP isSingleQuote + rest.length := by
  induction cs using readQuoted.induct generalizing content with
  | case1 => cases hread
  | case2 c hquote =>
      simp only [readQuoted, hquote, if_true] at hread
      cases hread
      rfl
  | case3 c hplain =>
      simp [readQuoted, hplain] at hread
  | case4 c d later hquote hdouble ih =>
      simp only [readQuoted, hquote, hdouble, if_true, Option.map_eq_some_iff] at hread
      obtain ⟨read, hread, hsame⟩ := hread
      cases hsame
      rw [List.length_cons, List.length_cons, ih hread, List.length_cons,
        List.countP_cons_of_pos hquote]
      omega
  | case5 c d later hquote hsingle =>
      simp only [readQuoted, hquote, hsingle, if_true] at hread
      cases hread
      simp
      omega
  | case6 c d later hplain ih =>
      rw [readQuoted_cons (Bool.eq_false_iff.mpr hplain), Option.map_eq_some_iff] at hread
      obtain ⟨read, hread, hsame⟩ := hread
      cases hsame
      rw [List.length_cons, ih hread, List.length_cons, List.countP_cons_of_neg hplain]
      omega

def readTokens : List Char → Option (List Token)
  | [] => some []
  | c :: rest =>
      if isSingleQuote c then
        match _hread : readQuoted rest with
        | none => none
        | some (content, later) =>
            (readTokens later).map fun tokens => .text (String.ofList content) :: tokens
      else (readTokens rest).map fun tokens => .code c :: tokens
  termination_by cs => cs.length
  decreasing_by
    · have hlength := readQuoted_length _hread
      rw [List.length_cons]
      omega
    · simp

def readText (text : String) : Option (List Token) :=
  readTokens text.toList

theorem readTokens_nil : readTokens [] = some [] := by
  rw [readTokens]

theorem readTokens_code {c : Char} (hplain : isSingleQuote c = false) (rest : List Char) :
    readTokens (c :: rest) = (readTokens rest).map fun tokens => .code c :: tokens := by
  rw [readTokens]
  simp [hplain]

theorem readTokens_text {c : Char} {rest content later : List Char}
    (hquote : isSingleQuote c = true) (hread : readQuoted rest = some (content, later)) :
    readTokens (c :: rest) =
      (readTokens later).map fun tokens => .text (String.ofList content) :: tokens := by
  rw [readTokens, if_pos hquote]
  split
  · rename_i hnone
    rw [hread] at hnone
    cases hnone
  · rename_i hsome
    rw [hread] at hsome
    cases hsome
    rfl

/-! What tokens are written as, and what that is read as. -/

namespace Token

def written : Token → List Char
  | code c => [c]
  | text s => (psQuote s).toList

def width : Token → Nat
  | code _ => 1
  | text s => 2 + s.length + s.toList.countP isSingleQuote

/-- No quote stands outside of a string, nor a typographic one in it. -/
def Plain : Token → Prop
  | code c => isSingleQuote c = false
  | text s => ∀ c ∈ s.toList, isSingleQuote c = true → c = quoteChar

end Token

open Token

def Spaced : List Token → Prop
  | .text _ :: .text _ :: _ => False
  | _ :: rest => Spaced rest
  | [] => True

theorem toList_psQuote (s : String) : (psQuote s).toList =
    quoteChar :: ((s.toList.flatMap fun c => if c = quoteChar then [c, c] else [c]) ++
      [quoteChar]) := by
  simp [psQuote]

theorem head_written {tokens : List Token} (hplain : ∀ token ∈ tokens, token.Plain)
    (hfirst : ∀ s, tokens.head? ≠ some (.text s)) :
    ∀ c ∈ (tokens.flatMap written).head?, isSingleQuote c = false := by
  cases tokens with
  | nil => exact fun _ hnone => nomatch hnone
  | cons token rest =>
      cases token with
      | code c =>
          intro d hd
          cases hd
          exact hplain _ (List.mem_cons_self ..)
      | text s => exact (hfirst s rfl).elim

theorem readTokens_written {tokens : List Token} (hplain : ∀ token ∈ tokens, token.Plain)
    (hspaced : Spaced tokens) : readTokens (tokens.flatMap written) = some tokens := by
  have hquote : isSingleQuote quoteChar = true := by
    decide
  induction tokens with
  | nil => exact readTokens_nil
  | cons token rest ih =>
      have hlater := fun other hother => hplain other (List.mem_cons_of_mem token hother)
      cases token with
      | code c =>
          have hread := ih hlater hspaced
          have hc : isSingleQuote c = false := hplain _ (List.mem_cons_self ..)
          rw [List.flatMap_cons]
          change readTokens (c :: rest.flatMap written) = _
          rw [readTokens_code hc, hread]
          rfl
      | text s =>
          have hfirst : ∀ t, rest.head? ≠ some (.text t) := by
            intro t hhead
            cases rest with
            | nil => cases hhead
            | cons other rest =>
                cases hhead
                exact hspaced
          have hrest : Spaced rest := by
            cases rest with
            | nil => exact trivial
            | cons other rest =>
                cases other with
                | code c => exact hspaced
                | text t => exact (hfirst t rfl).elim
          have hbody : readQuoted
              ((s.toList.flatMap fun c => if c = quoteChar then [c, c] else [c]) ++
                quoteChar :: rest.flatMap written) = some (s.toList, rest.flatMap written) :=
            readQuoted_append (hplain _ (List.mem_cons_self ..)) (head_written hlater hfirst)
          rw [List.flatMap_cons, written, toList_psQuote, List.cons_append, List.append_assoc,
            List.singleton_append, readTokens_text hquote hbody, ih hlater hrest,
            String.ofList_toList]
          rfl

theorem readTokens_length {cs : List Char} {tokens : List Token}
    (hread : readTokens cs = some tokens) : cs.length = (tokens.map width).sum := by
  induction cs using readTokens.induct generalizing tokens with
  | case1 =>
      rw [readTokens_nil] at hread
      cases hread
      rfl
  | case2 c rest hquote hnone =>
      rw [readTokens, if_pos hquote] at hread
      split at hread
      · cases hread
      · rename_i hsome
        rw [hnone] at hsome
        cases hsome
  | case3 c rest hquote content later hsome ih =>
      rw [readTokens_text hquote hsome, Option.map_eq_some_iff] at hread
      obtain ⟨found, hread, rfl⟩ := hread
      have hlength := readQuoted_length hsome
      rw [List.map_cons, List.sum_cons, ← ih hread, List.length_cons, width, String.toList_ofList,
        String.length_ofList]
      omega
  | case4 c rest hplain ih =>
      rw [readTokens_code (Bool.eq_false_iff.mpr hplain), Option.map_eq_some_iff] at hread
      obtain ⟨found, hread, rfl⟩ := hread
      rw [List.map_cons, List.sum_cons, ← ih hread, List.length_cons, width]
      omega

theorem length_doubled (s : List Char) :
    (s.flatMap fun c => if c = quoteChar then [c, c] else [c]).length =
      s.length + s.count quoteChar := by
  induction s with
  | nil => rfl
  | cons c s ih =>
      rw [List.flatMap_cons, List.length_append, ih, List.length_cons]
      by_cases hc : c = quoteChar
      · subst hc
        rw [if_pos rfl, List.count_cons_self, List.length_cons, List.length_singleton]
        omega
      · rw [if_neg hc, List.count_cons_of_ne hc, List.length_singleton]
        omega

theorem length_written (s : String) :
    (written (.text s)).length = 2 + s.length + s.toList.count quoteChar := by
  rw [written, toList_psQuote, List.length_cons, List.length_append, length_doubled,
    List.length_singleton, String.length_toList]
  omega

theorem count_quoteChar_le (s : List Char) : s.count quoteChar ≤ s.countP isSingleQuote := by
  refine List.countP_mono_left fun c _ hc => ?_
  rw [beq_iff_eq.mp hc]
  decide

theorem plain_of_count {s : List Char} (hcount : s.countP isSingleQuote ≤ s.count quoteChar) :
    ∀ c ∈ s, isSingleQuote c = true → c = quoteChar := by
  induction s with
  | nil => exact fun _ hnone => nomatch hnone
  | cons c s ih =>
      have hrest := count_quoteChar_le s
      by_cases hc : c = quoteChar
      · have hquote : isSingleQuote c = true := by
          rw [hc]
          decide
        rw [List.countP_cons_of_pos hquote, hc, List.count_cons_self] at hcount
        intro d hd hsingle
        rcases List.mem_cons.mp hd with rfl | hlater
        · exact hc
        · exact ih (by omega) d hlater hsingle
      · rw [List.count_cons_of_ne hc] at hcount
        by_cases hquote : isSingleQuote c = true
        · rw [List.countP_cons_of_pos hquote] at hcount
          omega
        · rw [List.countP_cons_of_neg hquote] at hcount
          intro d hd hsingle
          rcases List.mem_cons.mp hd with rfl | hlater
          · exact (hquote hsingle).elim
          · exact ih hcount d hlater hsingle

theorem length_written_le (token : Token) : token.written.length ≤ token.width := by
  cases token with
  | code c => exact Nat.le_refl 1
  | text s =>
      rw [length_written, width]
      have hcount := count_quoteChar_le s.toList
      omega

theorem length_flatMap_written_le (tokens : List Token) :
    (tokens.flatMap written).length ≤ (tokens.map width).sum := by
  induction tokens with
  | nil => exact Nat.le_refl 0
  | cons token rest ih =>
      rw [List.flatMap_cons, List.length_append, List.map_cons, List.sum_cons]
      exact Nat.add_le_add (length_written_le token) ih

/-- Only plain strings are read as they were written: a typographic quote is written once, and it
takes two to read one. -/
theorem plain_of_read {tokens : List Token}
    (hread : readTokens (tokens.flatMap written) = some tokens) :
    ∀ s, .text s ∈ tokens → (Token.text s).Plain := by
  have hlength := Nat.le_of_eq (readTokens_length hread).symm
  clear hread
  induction tokens with
  | nil => exact fun _ hnone => nomatch hnone
  | cons token rest ih =>
      rw [List.flatMap_cons, List.length_append, List.map_cons, List.sum_cons] at hlength
      have htoken := length_written_le token
      have hrest := length_flatMap_written_le rest
      intro s hs
      rcases List.mem_cons.mp hs with rfl | hlater
      · rw [length_written, width] at hlength htoken
        exact plain_of_count (by omega)
      · exact ih (by omega) s hlater

theorem code_written (s : String) : (code s).flatMap written = s.toList := by
  unfold code
  rw [List.flatMap_map]
  exact List.flatMap_singleton' _

theorem spaced_nil : Spaced [] :=
  trivial

theorem spaced_code (s : String) (rest : List Token) : Spaced (code s ++ rest) ↔ Spaced rest := by
  unfold code
  induction s.toList with
  | nil => exact Iff.rfl
  | cons c s ih => exact ih

theorem spaced_text (t : String) {s : String} (hs : s ≠ "") (rest : List Token) :
    Spaced (.text t :: (code s ++ rest)) ↔ Spaced rest := by
  rw [← spaced_code s rest]
  unfold code
  cases hlist : s.toList with
  | nil => exact (hs (String.toList_eq_nil_iff.mp hlist)).elim
  | cons c s => exact Iff.rfl

-- Its value on a whole script is never to be computed, only to be rewritten.
attribute [irreducible] Spaced

/-! Where a script has no quotes but those of its strings. -/

def NoQuote (s : String) : Prop :=
  ∀ c ∈ s.toList, isSingleQuote c = false

theorem noQuote_of {s : String} (hall : s.toList.all (fun c => !isSingleQuote c) = true) :
    NoQuote s := by
  simpa [NoQuote] using hall

theorem NoQuote.append {s t : String} (hs : NoQuote s) (ht : NoQuote t) : NoQuote (s ++ t) := by
  intro c hc
  rw [String.toList_append, List.mem_append] at hc
  rcases hc with hc | hc
  · exact hs c hc
  · exact ht c hc

theorem noQuote_nat (n : Nat) : NoQuote (toString n) := by
  have hnumber := noQuote_of (@plain_number "" "" n (by decide) (by decide))
  simpa using hnumber

theorem mem_intercalate {α : Type} {sep : List α} {parts : List (List α)} {x : α}
    (hmem : x ∈ sep.intercalate parts) : x ∈ sep ∨ ∃ part ∈ parts, x ∈ part := by
  induction parts with
  | nil => cases hmem
  | cons part rest ih =>
      cases rest with
      | nil =>
          rw [List.intercalate_singleton] at hmem
          exact .inr ⟨part, List.mem_cons_self .., hmem⟩
      | cons next rest =>
          rw [List.intercalate_cons_cons, List.mem_append, List.mem_append] at hmem
          rcases hmem with (hpart | hsep) | hlater
          · exact .inr ⟨part, List.mem_cons_self .., hpart⟩
          · exact .inl hsep
          · rcases ih hlater with hsep | ⟨other, hother, hx⟩
            · exact .inl hsep
            · exact .inr ⟨other, List.mem_cons_of_mem _ hother, hx⟩

theorem noQuote_intercalate {sep : String} {parts : List String} (hsep : NoQuote sep)
    (hparts : ∀ part ∈ parts, NoQuote part) : NoQuote (sep.intercalate parts) := by
  intro c hc
  rw [String.toList_intercalate] at hc
  rcases mem_intercalate hc with hc | ⟨_, hmem, hc⟩
  · exact hsep c hc
  · obtain ⟨part, hpart, rfl⟩ := List.mem_map.mp hmem
    exact hparts part hpart c hc

theorem NoQuote.code {s : String} (hs : NoQuote s) : ∀ token ∈ code s, token.Plain := by
  intro token htoken
  obtain ⟨c, hc, rfl⟩ := List.mem_map.mp htoken
  exact hs c hc

theorem NoQuote.text {s : String} (hs : NoQuote s) : (Token.text s).Plain := by
  intro c hc hsingle
  rw [hs c hc] at hsingle
  cases hsingle

theorem quoted_noQuote {s : String} (hs : NoQuote s) : quoted s = psQuote s := by
  refine quoted_eq fun c hc hquote => ?_
  have hplain := hs c hc
  rw [hquote] at hplain
  revert hplain
  decide

theorem noQuote_renderIp (ip : Ipv4Addr) : NoQuote (renderIp ip) := by
  have hdot : NoQuote "." := noQuote_of (by decide)
  unfold renderIp
  exact (((((((noQuote_nat _).append hdot).append (noQuote_nat _)).append hdot).append
    (noQuote_nat _)).append hdot).append (noQuote_nat _))

/-! The tokens of two scripts that differ in the values of a parameter only. -/

/-- The tokens, but for the values of a parameter; `seen` has what was written since the last
string, from its end. -/
def hideValues (parameter : String) : List Char → List Token → List Token
  | _, [] => []
  | seen, .code c :: rest => .code c :: hideValues parameter (c :: seen) rest
  | seen, .text s :: rest =>
      .text (if parameter.toList.reverse.isPrefixOf seen then "" else s) ::
        hideValues parameter [] rest

theorem hideValues_code (parameter s : String) (seen : List Char) (rest : List Token) :
    hideValues parameter seen (code s ++ rest) =
      code s ++ hideValues parameter (s.toList.reverse ++ seen) rest := by
  unfold code
  induction s.toList generalizing seen with
  | nil => rfl
  | cons c s ih =>
      rw [List.map_cons, List.cons_append, hideValues, ih, List.reverse_cons, List.append_assoc]
      rfl

end UnityLan.Engine.Fw.Win
