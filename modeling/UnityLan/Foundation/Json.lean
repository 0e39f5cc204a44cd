import Mathlib.Algebra.GroupWithZero.Nat
import Mathlib.Data.List.Basic

namespace UnityLan.Foundation

/-! JSON values, and how derived readers take options, structures and tagged values from them. -/

inductive Json
  | null
  | bool (value : Bool)
  /-- An integer from 0 on. -/
  | nat (value : Nat)
  /-- Any other number, as it is written. -/
  | number (text : String)
  | string (text : String)
  | array (items : List Json)
  /-- The members as they are written, so that a name may stand more than once. -/
  | object (members : List (String × Json))

namespace Json

variable {α : Type} {json : Json}

def readString : Json → Option String
  | .string text => some text
  | _ => none

def readUnsigned (width : Nat) : Json → Option Nat
  | .nat value => if value < 2 ^ width then some value else none
  | _ => none

/-- Where `null` stands for no value. -/
def readOption (read : Json → Option α) : Json → Option (Option α)
  | .null => some none
  | json => (read json).map some

def member (members : List (String × Json)) (name : String) : Option Json :=
  match members.filter fun entry => entry.1 == name with
  | [entry] => some entry.2
  | _ => none

def fields (names : List String) : Json → Option (List Json)
  | .object members => names.mapM (member members)
  | .array items => if items.length = names.length then some items else none
  | _ => none

def isUnit : Json → Bool
  | .object _ => true
  | .array items => items.isEmpty
  | _ => false

def tagged (tag : String) : Json → Option (Json × Json)
  | .object members =>
      (member members tag).map fun value =>
        (value, .object (members.filter fun entry => entry.1 != tag))
  | .array (value :: rest) => some (value, .array rest)
  | _ => none

def variant (names : List String) : Json → Option Nat
  | .string name => names.idxOf? name
  | .nat place => if place < names.length then some place else none
  | _ => none

theorem readOption_none {read : Json → Option α} :
    readOption read json = some none ↔ json = .null := by
  cases json <;> simp [readOption]

@[simp] theorem readUnsigned_nat {width value : Nat} (hvalue : value < 2 ^ width) :
    (Json.nat value).readUnsigned width = some value :=
  if_pos hvalue

/-! How a value is written. -/

def hexDigit (value : Nat) : Char :=
  Char.ofNat (if value < 10 then 48 + value else 87 + value)

def escape (c : Char) : List Char :=
  match c.toNat with
  | 0x22 => ['\\', c]
  | 0x5c => ['\\', c]
  | 0x08 => ['\\', 'b']
  | 0x09 => ['\\', 't']
  | 0x0a => ['\\', 'n']
  | 0x0c => ['\\', 'f']
  | 0x0d => ['\\', 'r']
  | code =>
      if code < 0x20 then ['\\', 'u', '0', '0', hexDigit (code / 16), hexDigit (code % 16)]
      else [c]

def quoted (text : String) : List Char :=
  '"' :: (text.toList.flatMap escape ++ ['"'])

mutual

def render : Json → List Char
  | .null => "null".toList
  | .bool value => (toString value).toList
  | .nat value => (toString value).toList
  | .number text => text.toList
  | .string text => quoted text
  | .array items => '[' :: (renderItems items ++ [']'])
  | .object members => Char.ofNat 0x7b :: (renderMembers members ++ [Char.ofNat 0x7d])

def renderItems : List Json → List Char
  | [] => []
  | json :: rest => render json ++ renderMoreItems rest

def renderMoreItems : List Json → List Char
  | [] => []
  | json :: rest => ',' :: (render json ++ renderMoreItems rest)

def renderMembers : List (String × Json) → List Char
  | [] => []
  | (name, json) :: rest => quoted name ++ ':' :: (render json ++ renderMoreMembers rest)

def renderMoreMembers : List (String × Json) → List Char
  | [] => []
  | (name, json) :: rest => ',' :: (quoted name ++ ':' :: (render json ++ renderMoreMembers rest))

end

def encode (json : Json) : List UInt8 :=
  json.render.flatMap String.utf8EncodeChar

/-! How long it is. -/

theorem length_encode (json : Json) : json.render.length ≤ json.encode.length := by
  unfold encode
  induction json.render with
  | nil => exact Nat.le_refl 0
  | cons c rest ih =>
      have hchar := c.utf8Size_pos
      rw [List.flatMap_cons, List.length_append, List.length_cons, String.length_utf8EncodeChar]
      omega

theorem length_escape (c : Char) : 1 ≤ (escape c).length := by
  unfold escape
  split <;> try exact Nat.le_add_left ..
  split <;> exact Nat.le_add_left ..

theorem length_quoted (text : String) : text.length ≤ (quoted text).length := by
  have hescaped : text.toList.length ≤ (text.toList.flatMap escape).length := by
    induction text.toList with
    | nil => exact Nat.le_refl 0
    | cons c rest ih =>
        have hchar := length_escape c
        rw [List.flatMap_cons, List.length_append, List.length_cons]
        omega
  rw [String.length_toList] at hescaped
  unfold quoted
  rw [List.length_cons, List.length_append]
  omega

theorem length_renderMoreItems {items : List Json} {least : Nat}
    (hleast : ∀ item ∈ items, least ≤ item.render.length) :
    items.length * least ≤ (renderMoreItems items).length := by
  induction items with
  | nil => simp
  | cons item rest ih =>
      have hitem := hleast item (List.mem_cons_self ..)
      have hrest := ih fun other hother => hleast other (List.mem_cons_of_mem _ hother)
      rw [renderMoreItems, List.length_cons, List.length_cons, List.length_append, Nat.succ_mul]
      omega

theorem length_array {items : List Json} {least : Nat}
    (hleast : ∀ item ∈ items, least ≤ item.render.length) :
    items.length * least ≤ (render (.array items)).length := by
  rw [render, List.length_cons, List.length_append]
  cases items with
  | nil => simp
  | cons item rest =>
      have hitem := hleast item (List.mem_cons_self ..)
      have hrest := length_renderMoreItems fun other hother =>
        hleast other (List.mem_cons_of_mem item hother)
      rw [renderItems, List.length_cons, List.length_append, Nat.succ_mul]
      omega

theorem length_member_le {name : String} {json : Json} {members : List (String × Json)}
    (hmember : (name, json) ∈ members) :
    json.render.length ≤ (renderMoreMembers members).length := by
  induction members with
  | nil => cases hmember
  | cons entry rest ih =>
      obtain ⟨first, value⟩ := entry
      rw [renderMoreMembers]
      simp only [List.length_cons, List.length_append]
      rcases List.mem_cons.mp hmember with hfirst | hlater
      · cases hfirst
        omega
      · have hrest := ih hlater
        omega

theorem length_object {name : String} {json : Json} {members : List (String × Json)}
    (hmember : (name, json) ∈ members) :
    json.render.length ≤ (render (.object members)).length := by
  rw [render, List.length_cons, List.length_append]
  cases members with
  | nil => cases hmember
  | cons entry rest =>
      obtain ⟨first, value⟩ := entry
      rw [renderMembers]
      simp only [List.length_cons, List.length_append]
      rcases List.mem_cons.mp hmember with hfirst | hlater
      · cases hfirst
        omega
      · have hrest := length_member_le hlater
        omega

end Json

end UnityLan.Foundation
