import Mathlib.Data.List.Basic
import UnityLan.Common.IpText
import UnityLan.Foundation.Octets

namespace UnityLan.Coordinator

open UnityLan.Foundation

/-! The address that a request is rate-limited under. -/

/-- The header lines of a request, in order; names are in lower case, and a name may have several
lines. -/
abbrev HeaderMap := List (String × List Byte)

def HeaderMap.first (headers : HeaderMap) (name : String) : Option (List Byte) :=
  (headers.find? fun line => line.1 == name).map Prod.snd

def HeaderMap.all (headers : HeaderMap) (name : String) : List (List Byte) :=
  (headers.filter fun line => line.1 == name).map Prod.snd

def asciiChar (byte : Byte) : Char :=
  Char.ofNat byte.toNat

def isVisibleAscii (byte : Byte) : Bool :=
  (32 ≤ byte.toNat && byte.toNat < 127) || byte == 9

def toStr (value : List Byte) : Option (List Char) :=
  if value.all isVisibleAscii then some (value.map asciiChar) else none

def trim (text : List Char) : List Char :=
  ((text.dropWhile isWhitespace).reverse.dropWhile isWhitespace).reverse

def isTrusted (trusted : List IpNet) (ip : IpAddr) : Bool :=
  trusted.any fun net => net.contains ip

def clientIp (peer : IpAddr) (headers : HeaderMap) (trusted : List IpNet) : IpAddr :=
  if !isTrusted trusted peer then peer
  else
    (((headers.first "x-forwarded-for").bind toStr).bind fun text =>
      (((text.splitOn ',').reverse.filterMap fun entry => IpAddr.parse (trim entry)).find?
        fun ip => !isTrusted trusted ip)).getD peer

/-! What the header lines say, all of them taken together. -/

def entries (lines : List (List Byte)) : List (List Byte) :=
  lines.flatMap fun line => line.splitOn ','.toNat

def entryIp (entry : List Byte) : Option IpAddr :=
  (toStr entry).bind fun text => IpAddr.parse (trim text)

def named (trusted : List IpNet) (items : List (List Byte)) : List IpAddr :=
  (items.filterMap entryIp).filter fun ip => !isTrusted trusted ip

def forwarded (headers : HeaderMap) : List (List Byte) :=
  headers.all "x-forwarded-for"

/-- The right-most address that is no trusted proxy, where a trusted proxy asks. -/
def rightmost (peer : IpAddr) (headers : HeaderMap) (trusted : List IpNet) : IpAddr :=
  if isTrusted trusted peer then ((named trusted (entries (forwarded headers))).getLast?).getD peer
  else peer

/-- Behind a trusted proxy, the last address that the header lines name, if any, is also the last
that the first of them names, and that line is visible ASCII. -/
def FirstLineDecides (peer : IpAddr) (headers : HeaderMap) (trusted : List IpNet) : Prop :=
  isTrusted trusted peer = true → ∀ ip,
    (named trusted (entries (forwarded headers))).getLast? = some ip →
      ∃ line, headers.first "x-forwarded-for" = some line ∧ line.all isVisibleAscii = true ∧
        (named trusted (entries [line])).getLast? = some ip

/-- Two requests agree on what trusted proxies appended: on the last entries of their header lines,
from one on that names whom the first of these proxies was talking to. -/
def SameAppended (trusted : List IpNet) (headers other : HeaderMap) : Prop :=
  ∃ front front' appended, entries (forwarded headers) = front ++ appended ∧
    entries (forwarded other) = front' ++ appended ∧ named trusted appended ≠ []

section

variable {trusted : List IpNet} {peer : IpAddr} {headers other : HeaderMap}

theorem asciiChar_comma (byte : Byte) : (asciiChar byte == ',') = (byte == 44) := by
  revert byte
  decide

theorem splitOn_asciiChar (line : List Byte) :
    (line.map asciiChar).splitOn ',' = (line.splitOn 44).map (List.map asciiChar) := by
  induction line with
  | nil => rfl
  | cons byte rest ih =>
      obtain ⟨entry, later, hsplit⟩ :=
        List.exists_cons_of_ne_nil (List.splitOnP_ne_nil (· == 44) rest)
      rw [List.splitOn_eq_splitOnP] at ih ⊢
      rw [List.splitOn_eq_splitOnP] at ih ⊢
      rw [List.map_cons, List.splitOnP_cons_eq_if_modifyHead, List.splitOnP_cons_eq_if_modifyHead,
        asciiChar_comma, ih, hsplit]
      split
      · simp
      · simp

theorem mem_splitOn (line : List Byte) : ∀ entry ∈ line.splitOn 44, entry ⊆ line := by
  induction line with
  | nil => simp
  | cons byte rest ih =>
      obtain ⟨entry, later, hsplit⟩ :=
        List.exists_cons_of_ne_nil (List.splitOnP_ne_nil (· == 44) rest)
      rw [List.splitOn_eq_splitOnP] at ih ⊢
      rw [List.splitOnP_cons_eq_if_modifyHead, hsplit]
      rw [hsplit] at ih
      split
      · intro other hother
        rcases List.mem_cons.mp hother with rfl | hlater
        · exact List.nil_subset _
        · exact List.subset_cons_of_subset _ (ih other hlater)
      · intro other hother
        rcases List.mem_cons.mp hother with rfl | hlater
        · exact List.cons_subset_cons _ (ih entry (List.mem_cons_self ..))
        · exact List.subset_cons_of_subset _ (ih other (List.mem_cons_of_mem _ hlater))

theorem named_append (first second : List (List Byte)) :
    named trusted (first ++ second) = named trusted first ++ named trusted second := by
  simp [named]

theorem forwarded_first (headers : HeaderMap) :
    headers.first "x-forwarded-for" = (forwarded headers).head? := by
  unfold HeaderMap.first forwarded HeaderMap.all
  rw [List.head?_map, List.head?_filter]

theorem find?_line {line : List Byte} (htext : line.all isVisibleAscii = true) :
    (((line.map asciiChar).splitOn ',').reverse.filterMap fun entry =>
      IpAddr.parse (trim entry)).find?
        (fun ip => !isTrusted trusted ip) = (named trusted (entries [line])).getLast? := by
  have hentries : ((line.map asciiChar).splitOn ',').filterMap
      (fun entry => IpAddr.parse (trim entry)) = (line.splitOn 44).filterMap entryIp := by
    rw [splitOn_asciiChar, List.filterMap_map]
    apply List.filterMap_congr
    intro entry hentry
    have hvisible : entry.all isVisibleAscii = true :=
      List.all_eq_true.mpr fun byte hbyte =>
        List.all_eq_true.mp htext byte (mem_splitOn line entry hentry hbyte)
    simp [entryIp, toStr, hvisible]
  have hline : entries [line] = line.splitOn 44 := by
    simp [entries]
  rw [List.filterMap_reverse, hentries, hline, named, List.getLast?_filter]

theorem clientIp_eq (htrusted : isTrusted trusted peer = true) : clientIp peer headers trusted =
    (((headers.first "x-forwarded-for").filter fun line => line.all isVisibleAscii).bind fun line =>
      (named trusted (entries [line])).getLast?).getD peer := by
  unfold clientIp
  rw [htrusted, Bool.not_true, if_neg Bool.false_ne_true]
  cases headers.first "x-forwarded-for" with
  | none => rfl
  | some line =>
      by_cases htext : line.all isVisibleAscii = true
      · rw [Option.bind_some, toStr, if_pos htext, Option.bind_some, find?_line htext,
          Option.filter_some, if_pos htext, Option.bind_some]
      · rw [Option.bind_some, toStr, if_neg htext, Option.filter_some, if_neg htext]
        rfl

theorem named_untrusted {items : List (List Byte)} {ip : IpAddr} (hip : ip ∈ named trusted items) :
    isTrusted trusted ip = false := by
  simpa using (List.mem_filter.mp hip).2

theorem named_first {line : List Byte} (hfirst : headers.first "x-forwarded-for" = some line)
    {ip : IpAddr} (hip : ip ∈ named trusted (entries [line])) :
    ip ∈ named trusted (entries (forwarded headers)) := by
  rw [forwarded_first] at hfirst
  obtain ⟨rest, hlines⟩ := List.head?_eq_some_iff.mp hfirst
  have hsplit : entries (forwarded headers) = entries [line] ++ entries rest := by
    simp [entries, hlines]
  rw [hsplit, named_append]
  exact List.mem_append_left _ hip

theorem clientIp_eq_rightmost_iff :
    clientIp peer headers trusted = rightmost peer headers trusted ↔
      FirstLineDecides peer headers trusted := by
  unfold rightmost FirstLineDecides
  rcases Bool.eq_false_or_eq_true (isTrusted trusted peer) with htrusted | huntrusted
  · rw [clientIp_eq htrusted, if_pos htrusted]
    constructor
    · intro hsame _ ip hlast
      rw [hlast, Option.getD_some] at hsame
      have hother : peer ≠ ip := by
        rintro rfl
        have huntrusted := named_untrusted (List.mem_of_getLast? hlast)
        exact Bool.false_ne_true (huntrusted.symm.trans htrusted)
      -- the peer is trusted and the address is not, so it was found in the first line
      cases hfound : ((headers.first "x-forwarded-for").filter
          fun line => line.all isVisibleAscii).bind fun line =>
            (named trusted (entries [line])).getLast? with
      | none =>
          rw [hfound] at hsame
          exact (hother hsame).elim
      | some found =>
          rw [hfound, Option.getD_some] at hsame
          obtain ⟨line, hline, hnamed⟩ := Option.bind_eq_some_iff.mp hfound
          obtain ⟨hfirst, htext⟩ := Option.filter_eq_some_iff.mp hline
          exact ⟨line, hfirst, htext, hsame ▸ hnamed⟩
    · intro hdecides
      cases hlast : (named trusted (entries (forwarded headers))).getLast? with
      | some ip =>
          obtain ⟨line, hfirst, htext, hnamed⟩ := hdecides htrusted ip hlast
          rw [hfirst, Option.filter_some, if_pos htext, Option.bind_some, hnamed]
      | none =>
          have hnobody := List.getLast?_eq_none_iff.mp hlast
          cases hfirst : headers.first "x-forwarded-for" with
          | none => rfl
          | some line =>
              have hnone : named trusted (entries [line]) = [] := by
                apply List.eq_nil_iff_forall_not_mem.mpr
                intro ip hip
                have hnamed := named_first hfirst hip
                rw [hnobody] at hnamed
                cases hnamed
              rw [Option.filter_some]
              split
              · rw [Option.bind_some, hnone]
                rfl
              · rfl
  · simp [clientIp, huntrusted]

end

/-- The address that is found is the right-most one that is no trusted proxy exactly where the first
header line decides it, and nothing that the client put before what the proxies appended matters
there. -/
theorem client_not_spoofable (peer : IpAddr) (trusted : List IpNet) :
    (∀ headers, clientIp peer headers trusted = rightmost peer headers trusted ↔
      FirstLineDecides peer headers trusted) ∧
    ∀ headers other, FirstLineDecides peer headers trusted → FirstLineDecides peer other trusted →
      SameAppended trusted headers other →
        clientIp peer headers trusted = clientIp peer other trusted := by
  refine ⟨fun headers => clientIp_eq_rightmost_iff, fun headers other hdecides hdecides' hsame =>
    ?_⟩
  obtain ⟨front, front', appended, hentries, hentries', hnamed⟩ := hsame
  have hlast : ∀ front, (named trusted (front ++ appended)).getLast? =
      (named trusted appended).getLast? := by
    intro front
    rw [named_append, List.getLast?_append, Option.or_of_isSome (List.getLast?_isSome.mpr hnamed)]
  rw [clientIp_eq_rightmost_iff.mpr hdecides, clientIp_eq_rightmost_iff.mpr hdecides', rightmost,
    rightmost, hentries, hentries', hlast, hlast]

def loopback : List IpNet :=
  [.v4 ⟨0x7F000001#32, 32⟩]

def twoLines (client : String) : HeaderMap :=
  [("x-forwarded-for", client.toList.map fun c => BitVec.ofNat 8 c.toNat),
    ("x-forwarded-for", "203.0.113.5".toList.map fun c => BitVec.ofNat 8 c.toNat)]

/-- Behind a proxy that adds a line of its own, the client is who it says it is. -/
theorem client_forges_line :
    ¬ ∀ peer trusted headers, clientIp peer headers trusted = rightmost peer headers trusted := by
  intro hclaim
  have hsame := hclaim (.v4 0x7F000001#32) loopback (twoLines "1.2.3.4")
  have hforged : clientIp (.v4 0x7F000001#32) (twoLines "1.2.3.4") loopback = .v4 0x01020304#32 := by
    decide
  have hmeant : rightmost (.v4 0x7F000001#32) (twoLines "1.2.3.4") loopback = .v4 0xCB007105#32 := by
    decide
  rw [hforged, hmeant] at hsame
  exact absurd hsame (by decide)

end UnityLan.Coordinator
