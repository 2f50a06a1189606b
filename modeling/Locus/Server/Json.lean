import Mathlib.Algebra.GroupWithZero.Nat
import Mathlib.Algebra.Order.BigOperators.Group.List
import Mathlib.Data.List.DropRight
import Mathlib.Data.String.Basic

/-!
# Request values

The values an Express handler finds in `req.body`, and the JavaScript operations the handlers apply to
them: truthiness, `String(v)`, `trim()`, `length`. A JSON number is kept as JavaScript prints it, so no
floating point arithmetic is needed to carry it from the request to the database.
-/

namespace Locus.Server

/-- A parsed JSON value; the keys of an object are distinct. -/
inductive Json : Type
  | null
  | bool (b : Bool)
  | num (text : String)
  | str (s : String)
  | arr (items : List Json)
  | obj (fields : List (String × Json))

namespace Json

/-- A field of `const { field } = req.body || {}`: `none` is `undefined`. -/
def field? (key : String) : Json → Option Json
  | obj fields => fields.lookup key
  | _ => none

/-- JavaScript's truthiness; the number zero prints as `0`. -/
def truthy : Json → Bool
  | null => false
  | bool b => b
  | num text => text ≠ "0"
  | str s => s ≠ ""
  | arr _ => true
  | obj _ => true

/-- `String(v)`. -/
def toJsString : Json → String
  | null => "null"
  | bool b => if b then "true" else "false"
  | num text => text
  | str s => s
  | arr items => String.intercalate "," (elements items)
  | obj _ => "[object Object]"
where
  /-- An array prints its elements, `null` as the empty string. -/
  elements : List Json → List String
    | [] => []
    | null :: rest => "" :: elements rest
    | v :: rest => v.toJsString :: elements rest

/-- `String(v)` of a value of a body; `none` where it throws, as it does for an object whose `toString` is no
function. An object that multer makes has no prototype. -/
def jsString (multipart : Bool) : Json → Option String
  | obj fields => if multipart || fields.any (·.1 = "toString") then none else some "[object Object]"
  | arr items => (elements items).map (String.intercalate ",")
  | v => some v.toJsString
where
  elements : List Json → Option (List String)
    | [] => some []
    | null :: rest => (elements rest).map ("" :: ·)
    | v :: rest => do return (← v.jsString multipart) :: (← elements rest)

def escape (c : Char) : String :=
  if c = '"' then "\\\"" else if c = '\\' then "\\\\"
  else if c = '\x08' then "\\b" else if c = '\x0c' then "\\f" else if c = '\n' then "\\n"
  else if c = '\r' then "\\r" else if c = '\t' then "\\t"
  else if c < ' ' then String.ofList ['\\', 'u', '0', '0', (c.toNat / 16).digitChar, (c.toNat % 16).digitChar]
  else c.toString

def quote (s : String) : String := "\"" ++ String.join (s.toList.map escape) ++ "\""

def text (comma colon : String) : Json → String
  | null => "null"
  | bool b => if b then "true" else "false"
  | num text => text
  | str s => quote s
  | arr items => "[" ++ String.intercalate comma (itemTexts items) ++ "]"
  | obj fields => "\x7b" ++ String.intercalate comma (fieldTexts fields) ++ "\x7d"
where
  itemTexts : List Json → List String
    | [] => []
    | v :: rest => v.text comma colon :: itemTexts rest
  fieldTexts : List (String × Json) → List String
    | [] => []
    | (key, v) :: rest => (quote key ++ colon ++ v.text comma colon) :: fieldTexts rest

/-- `JSON.stringify(v)`. -/
def stringify : Json → String := text "," ":"

/-- The text PostgreSQL prints for a `jsonb` value. -/
def jsonbText : Json → String := text ", " ": "

/-- `v->>'key'`: the text of a member of an object, NULL when there is none or it is JSON null. -/
def textAt (key : String) (v : Json) : Option String :=
  match v.field? key with
  | none => none
  | some null => none
  | some (str s) => some s
  | some w => some w.jsonbText

/-- `jsonb` cannot hold the character U+0000. -/
def storable : Json → Bool
  | str s => !s.toList.contains '\x00'
  | arr items => allStorable items
  | obj fields => fieldsStorable fields
  | _ => true
where
  allStorable : List Json → Bool
    | [] => true
    | v :: rest => v.storable && allStorable rest
  fieldsStorable : List (String × Json) → Bool
    | [] => true
    | (key, v) :: rest => !key.toList.contains '\x00' && v.storable && fieldsStorable rest

end Json

/-- The white space that `trim()` removes. -/
def jsSpace (c : Char) : Bool :=
  c ∈ ['\t', '\n', '\x0b', '\x0c', '\r', ' ', '\u00a0', '\u1680', '\u2028', '\u2029', '\u202f',
    '\u205f', '\u3000', '\ufeff'] || ('\u2000' ≤ c && c ≤ '\u200a')

/-- `s.trim()`. -/
def jsTrim (s : String) : String :=
  String.ofList (((s.toList.dropWhile jsSpace).reverse.dropWhile jsSpace).reverse)

/-- `s.length`, in UTF-16 code units. -/
def jsLength (s : String) : ℕ :=
  s.toList.foldl (fun n c => if c.toNat < 0x10000 then n + 1 else n + 2) 0

/-! ### Trimmed texts -/

theorem jsTrim_toList (s : String) :
    (jsTrim s).toList = (s.toList.dropWhile jsSpace).rdropWhile jsSpace := by
  rw [jsTrim, String.toList_ofList, List.rdropWhile]

theorem jsTrim_head (s : String) : ∀ c ∈ (jsTrim s).toList.head?, jsSpace c = false := by
  intro c hc
  rw [jsTrim_toList] at hc
  obtain ⟨rest, hrest⟩ := List.rdropWhile_prefix (p := jsSpace) (s.toList.dropWhile jsSpace)
  have hhead : (s.toList.dropWhile jsSpace).head? = some c := by
    rw [← hrest, List.head?_append, Option.mem_def.mp hc, Option.some_or]
  have hnot := List.head?_dropWhile_not jsSpace s.toList
  rw [hhead] at hnot
  simpa using hnot

theorem jsTrim_getLast (s : String) : ∀ c ∈ (jsTrim s).toList.getLast?, jsSpace c = false := by
  intro c hc
  rw [jsTrim_toList] at hc
  have hne : (s.toList.dropWhile jsSpace).rdropWhile jsSpace ≠ [] := by
    intro hnil
    rw [hnil] at hc
    cases hc
  have hlast := List.rdropWhile_last_not jsSpace _ hne
  rw [List.getLast?_eq_some_getLast hne] at hc
  rw [← Option.some.inj hc]
  simpa using hlast

theorem jsTrim_eq_self {s : String} (hhead : ∀ c ∈ s.toList.head?, jsSpace c = false)
    (hlast : ∀ c ∈ s.toList.getLast?, jsSpace c = false) : jsTrim s = s := by
  have hdrop : s.toList.dropWhile jsSpace = s.toList := by
    refine List.dropWhile_eq_self_iff.mpr fun hpos => ?_
    rw [hhead _ (by rw [List.head?_eq_getElem?, List.getElem?_eq_getElem hpos]; rfl)]
    exact Bool.false_ne_true
  have hrdrop : s.toList.rdropWhile jsSpace = s.toList := by
    refine List.rdropWhile_eq_self_iff.mpr fun hne => ?_
    rw [hlast _ (List.getLast?_eq_some_getLast hne)]
    exact Bool.false_ne_true
  refine String.toList_inj.mp ?_
  rw [jsTrim_toList, hdrop, hrdrop]

def utf16Units (c : Char) : ℕ := if c.toNat < 0x10000 then 1 else 2

theorem jsLength_eq_sum (s : String) : jsLength s = (s.toList.map utf16Units).sum := by
  have hfold : ∀ (l : List Char) (n : ℕ),
      l.foldl (fun n c => if c.toNat < 0x10000 then n + 1 else n + 2) n = n + (l.map utf16Units).sum := by
    intro l
    induction l with
    | nil => intro n; rfl
    | cons c l ih =>
      intro n
      rw [List.foldl_cons, ih, List.map_cons, List.sum_cons, utf16Units]
      split <;> omega
  rw [jsLength, hfold, Nat.zero_add]

/-- `s.length`, counting what is no white space only. -/
def nonBlank (s : String) : ℕ := jsLength (String.ofList (s.toList.filter fun c => !jsSpace c))

/-- A text with a trimmed length of at least 2 has as much that is no white space: its ends. -/
theorem two_le_nonBlank {s : String} (h : 2 ≤ jsLength (jsTrim s)) : 2 ≤ nonBlank s := by
  have hunits : ∀ c, 1 ≤ utf16Units c := by
    intro c
    unfold utf16Units
    split <;> omega
  have hsub : ((jsTrim s).toList.filter fun c => !jsSpace c).Sublist (s.toList.filter fun c => !jsSpace c) := by
    refine List.Sublist.filter _ ?_
    rw [jsTrim_toList]
    exact (List.rdropWhile_prefix (p := jsSpace) _).sublist.trans (List.dropWhile_sublist _)
  have hsum : ((((jsTrim s).toList.filter fun c => !jsSpace c).map utf16Units).sum) ≤ nonBlank s := by
    rw [nonBlank, jsLength_eq_sum, String.toList_ofList]
    exact List.Sublist.sum_le_sum (hsub.map utf16Units) (fun _ _ => Nat.zero_le _)
  refine le_trans ?_ hsum
  have hhead := jsTrim_head s
  have hlast := jsTrim_getLast s
  rw [jsLength_eq_sum] at h
  generalize (jsTrim s).toList = l at h hhead hlast
  cases l with
  | nil => exact absurd h (by decide)
  | cons c rest =>
    have hc : jsSpace c = false := hhead c rfl
    rcases List.eq_nil_or_concat rest with rfl | ⟨mid, d, rfl⟩
    · simpa [hc] using h
    · have hd : jsSpace d = false := by
        refine hlast d ?_
        rw [List.concat_eq_append, ← List.cons_append]
        exact List.getLast?_concat
      have hcd := Nat.add_le_add (hunits c) (hunits d)
      simp [hc, hd]
      omega

/-! ### Query parameters -/

/-- What node-postgres sends for a query parameter: an array as an array literal, an object as JSON. -/
def Json.toParam : Json → String
  | .str s => s
  | .num text => text
  | .arr items => "\x7b" ++ String.intercalate "," (elements items) ++ "\x7d"
  | v => v.stringify
where
  elements : List Json → List String
    | [] => []
    | .null :: rest => "NULL" :: elements rest
    | .arr items :: rest => (Json.arr items).toParam :: elements rest
    | v :: rest => escapeElement v.toParam :: elements rest
  escapeElement (s : String) : String :=
    "\"" ++ String.join (s.toList.map fun c =>
      if c = '"' then "\\\"" else if c = '\\' then "\\\\" else c.toString) ++ "\""

end Locus.Server
