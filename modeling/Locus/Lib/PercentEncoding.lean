import Mathlib.Data.List.TakeWhile
import Mathlib.Data.Nat.Notation

/-!
# Percent-encoding

A component of a URL is written as its UTF-8 bytes, `%XX` each, but for the characters that are plain. The query of
a URL is read back as a form: parameters between `&`, a name and a value around the first `=`, a `+` for a blank. What
is written so is read back (`parse_query`), as long as no character with a meaning of its own is plain (`Separates`).
-/

namespace Locus.Lib.Percent

/-! ### Bytes -/

def hexDigit (n : ℕ) : Char := if n < 10 then Char.ofNat (48 + n) else Char.ofNat (55 + n)

def hexValue (c : Char) : Option ℕ :=
  if '0' ≤ c ∧ c ≤ '9' then some (c.toNat - 48)
  else if 'A' ≤ c ∧ c ≤ 'F' then some (c.toNat - 55)
  else if 'a' ≤ c ∧ c ≤ 'f' then some (c.toNat - 87)
  else none

theorem hexValue_hexDigit : ∀ n < 16, hexValue (hexDigit n) = some n := by decide

/-- `%XX` -/
def escape (b : UInt8) : List Char := ['%', hexDigit (b.toNat / 16), hexDigit (b.toNat % 16)]

/-- The byte that `%ab` stands for. -/
def unescape (a b : Char) : Option UInt8 := do
  let high ← hexValue a
  let low ← hexValue b
  return UInt8.ofNat (16 * high + low)

theorem unescape_hexDigit (b : UInt8) : unescape (hexDigit (b.toNat / 16)) (hexDigit (b.toNat % 16)) = some b := by
  have hb : b.toNat < 256 := b.toNat_lt
  have hhigh : b.toNat / 16 < 16 := by omega
  have hlow : b.toNat % 16 < 16 := by omega
  have hsplit : 16 * (b.toNat / 16) + b.toNat % 16 = b.toNat := by omega
  rw [unescape, hexValue_hexDigit _ hhigh, hexValue_hexDigit _ hlow]
  show some (UInt8.ofNat (16 * (b.toNat / 16) + b.toNat % 16)) = some b
  rw [hsplit, UInt8.ofNat_toNat]

/-- A character that is no escape. -/
def literal (c : Char) : List UInt8 := String.utf8EncodeChar (if c = '+' then ' ' else c)

/-- The bytes of an encoded text; a `%` that no two digits follow stands for itself. -/
def bytes : List Char → List UInt8
  | [] => []
  | [c] => literal c
  | [c, d] => literal c ++ literal d
  | c :: a :: b :: rest =>
    match if c = '%' then unescape a b else none with
    | some byte => byte :: bytes rest
    | none => literal c ++ bytes (a :: b :: rest)

theorem bytes_literal {c : Char} (h : c ≠ '%') (rest : List Char) : bytes (c :: rest) = literal c ++ bytes rest := by
  match rest with
  | [] => simp [bytes]
  | [d] => simp [bytes]
  | a :: b :: rest => rw [bytes, if_neg h]

theorem bytes_escape (b : UInt8) (rest : List Char) : bytes (escape b ++ rest) = b :: bytes rest := by
  show bytes ('%' :: hexDigit (b.toNat / 16) :: hexDigit (b.toNat % 16) :: rest) = _
  rw [bytes, if_pos rfl, unescape_hexDigit]

theorem bytes_escapes (l : List UInt8) (rest : List Char) : bytes (l.flatMap escape ++ rest) = l ++ bytes rest := by
  induction l with
  | nil => rfl
  | cons b l ih => rw [List.flatMap_cons, List.append_assoc, bytes_escape, ih, List.cons_append]

/-! ### Components -/

/-- No character with a meaning of its own in a query is plain. -/
def Separates (plain : Char → Bool) : Prop := ∀ c ∈ ['%', '+', '&', '=', '#'], plain c = false

section
variable (plain : Char → Bool)

def encodeChar (c : Char) : List Char := if plain c then [c] else (String.utf8EncodeChar c).flatMap escape

def encode (s : List Char) : List Char := s.flatMap (encodeChar plain)

/-- The text of an encoded component; `none` where its bytes are no UTF-8. -/
def decode (s : List Char) : Option String :=
  (bytes s).toByteArray.utf8Decode?.map fun text => String.ofList text.toList

variable {plain}

theorem bytes_encodeChar (h : Separates plain) (c : Char) (rest : List Char) :
    bytes (encodeChar plain c ++ rest) = String.utf8EncodeChar c ++ bytes rest := by
  unfold encodeChar
  split
  · rename_i hplain
    have hpercent : c ≠ '%' := by
      rintro rfl
      exact absurd hplain (by simp [h '%' (by decide)])
    have hplus : c ≠ '+' := by
      rintro rfl
      exact absurd hplain (by simp [h '+' (by decide)])
    rw [List.singleton_append, bytes_literal hpercent, literal, if_neg hplus]
  · exact bytes_escapes _ _

theorem bytes_encode (h : Separates plain) (s : List Char) :
    bytes (encode plain s) = s.flatMap String.utf8EncodeChar := by
  induction s with
  | nil => rfl
  | cons c s ih => rw [encode, List.flatMap_cons, bytes_encodeChar h, List.flatMap_cons, ← ih, encode]

/-- **A component is read back.** -/
theorem decode_encode (h : Separates plain) (s : String) : decode (encode plain s.toList) = some s := by
  have hbytes : (bytes (encode plain s.toList)).toByteArray = s.toList.utf8Encode := by
    rw [bytes_encode h]
    rfl
  rw [decode, hbytes, List.utf8Decode?_utf8Encode]
  simp

theorem mem_encode {s : List Char} {d : Char} (hd : d ∈ encode plain s) :
    plain d = true ∨ d ∈ "%0123456789ABCDEF".toList := by
  have hdigit : ∀ n < 16, hexDigit n ∈ "%0123456789ABCDEF".toList := by decide
  obtain ⟨c, -, hc⟩ := List.mem_flatMap.mp hd
  unfold encodeChar at hc
  split at hc
  · rename_i hplain
    rw [List.mem_singleton.mp hc]
    exact .inl hplain
  · obtain ⟨b, -, hb⟩ := List.mem_flatMap.mp hc
    have hbound : b.toNat < 256 := b.toNat_lt
    simp only [escape, List.mem_cons, List.not_mem_nil, or_false] at hb
    refine .inr ?_
    rcases hb with rfl | rfl | rfl
    · decide
    · exact hdigit _ (by omega)
    · exact hdigit _ (by omega)

theorem not_mem_encode (h : Separates plain) {s : List Char} {d : Char} (hd : d ∈ ['&', '=', '#']) :
    d ∉ encode plain s := by
  have hescape : ∀ d ∈ ['&', '=', '#'], d ∉ "%0123456789ABCDEF".toList := by simp
  have hplain : plain d = false := h d (List.mem_cons_of_mem _ (List.mem_cons_of_mem _ hd))
  intro hmem
  rcases mem_encode hmem with htrue | hmem
  · rw [hplain] at htrue
    cases htrue
  · exact hescape d hd hmem

/-! ### Queries -/

end

section
variable (plain : Char → Bool)

/-- `name=value` -/
def param (p : String × String) : List Char := encode plain p.1.toList ++ '=' :: encode plain p.2.toList

/-- `name=value&name=value` and so on -/
def query (params : List (String × String)) : List Char := ['&'].intercalate (params.map (param plain))

/-- The name and the value of a parameter. -/
def parseParam (text : List Char) : Option String × Option String :=
  (decode (text.takeWhile (· ≠ '=')), decode (text.dropWhile (· ≠ '=')).tail)

def parse (text : List Char) : List (Option String × Option String) := (text.splitOn '&').map parseParam

/-- The query of a URL: what is behind the first `?` and before a `#`. -/
def queryOf (url : List Char) : List Char := ((url.takeWhile (· ≠ '#')).dropWhile (· ≠ '?')).tail

variable {plain}

theorem mem_intercalate {sep c : Char} {texts : List (List Char)} (hc : c ∈ [sep].intercalate texts) :
    c = sep ∨ ∃ text ∈ texts, c ∈ text := by
  induction texts with
  | nil => cases hc
  | cons text texts ih =>
    by_cases hnil : texts = []
    · rw [hnil, List.intercalate_singleton] at hc
      exact .inr ⟨text, List.mem_cons_self, hc⟩
    · rw [List.intercalate_cons_of_ne_nil hnil] at hc
      simp only [List.mem_append, List.mem_singleton] at hc
      rcases hc with (hc | hc) | hc
      · exact .inr ⟨text, List.mem_cons_self, hc⟩
      · exact .inl hc
      · rcases ih hc with hsep | ⟨text', htext, hmem⟩
        · exact .inl hsep
        · exact .inr ⟨text', List.mem_cons_of_mem _ htext, hmem⟩

theorem not_mem_param (h : Separates plain) {c : Char} (hc : c ∈ ['&', '#']) (p : String × String) :
    c ∉ param plain p := by
  have hreserved : ∀ c ∈ ['&', '#'], c ∈ ['&', '=', '#'] ∧ c ≠ '=' := by simp
  obtain ⟨hmem, hequals⟩ := hreserved c hc
  intro hin
  rcases List.mem_append.mp hin with hin | hin
  · exact not_mem_encode h hmem hin
  · rcases List.mem_cons.mp hin with hin | hin
    · exact hequals hin
    · exact not_mem_encode h hmem hin

theorem hash_not_mem_query (h : Separates plain) (params : List (String × String)) : '#' ∉ query plain params := by
  intro hmem
  rcases mem_intercalate hmem with hsep | ⟨text, htext, hin⟩
  · exact absurd hsep (by decide)
  · obtain ⟨p, -, rfl⟩ := List.mem_map.mp htext
    exact not_mem_param h (by decide) p hin

theorem parseParam_param (h : Separates plain) (p : String × String) :
    parseParam (param plain p) = (some p.1, some p.2) := by
  have hname : ∀ c ∈ encode plain p.1.toList, decide (c ≠ '=') = true := by
    intro c hc
    refine decide_eq_true fun heq => ?_
    exact not_mem_encode h (by decide) (heq ▸ hc)
  have htake : (param plain p).takeWhile (· ≠ '=') = encode plain p.1.toList := by
    rw [param, List.takeWhile_append_of_pos hname, List.takeWhile_cons_of_neg (by decide), List.append_nil]
  have hdrop : (param plain p).dropWhile (· ≠ '=') = '=' :: encode plain p.2.toList := by
    rw [param, List.dropWhile_append_of_pos hname, List.dropWhile_cons_of_neg (by decide)]
  rw [parseParam, htake, hdrop, List.tail_cons, decode_encode h, decode_encode h]

/-- **A query is read back.** -/
theorem parse_query (h : Separates plain) {params : List (String × String)} (hne : params ≠ []) :
    parse (query plain params) = params.map fun p => (some p.1, some p.2) := by
  have hamp : ∀ text ∈ params.map (param plain), '&' ∉ text := by
    intro text htext
    obtain ⟨p, -, rfl⟩ := List.mem_map.mp htext
    exact not_mem_param h (by decide) p
  rw [parse, query, List.splitOn_intercalate '&' hamp (by simpa using hne), List.map_map]
  exact List.map_congr_left fun p _ => parseParam_param h p

/-- Behind a path without `?` and `#`, the query is what follows the `?`. -/
theorem queryOf_append {path text : List Char} (hpath : ∀ c ∈ path, c ≠ '?' ∧ c ≠ '#') (htext : '#' ∉ text) :
    queryOf (path ++ '?' :: text) = text := by
  have hall : ∀ c ∈ path ++ '?' :: text, decide (c ≠ '#') = true := by
    intro c hc
    refine decide_eq_true ?_
    rcases List.mem_append.mp hc with hc | hc
    · exact (hpath c hc).2
    · rcases List.mem_cons.mp hc with rfl | hc
      · decide
      · exact fun heq => htext (heq ▸ hc)
  rw [queryOf, List.takeWhile_eq_self_iff.mpr hall,
    List.dropWhile_append_of_pos fun c hc => decide_eq_true (hpath c hc).1, List.dropWhile_cons_of_neg (by decide),
    List.tail_cons]

end

end Locus.Lib.Percent
