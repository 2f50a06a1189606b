import Locus.Server.Json

/-!
# Paging numbers

The JavaScript numbers that `page`, `limit` and `offset` are: IEEE doubles with an integral value, the
infinities and NaN. Integers are exact below `2 ^ 53` and rounded to the nearest double above.
-/

namespace Locus.Server

inductive JsInt
  | nan
  | inf
  | negInf
  | int (n : ℤ)
deriving DecidableEq

namespace JsInt

/-- The nearest double of a natural number, ties to even; `none` past the largest double. -/
def roundNat (n : ℕ) : Option ℕ :=
  if n < 2 ^ 53 then some n
  else
    let e := n.log2 - 52
    let q := n / 2 ^ e
    let r := n % 2 ^ e
    let half := 2 ^ (e - 1)
    let m := (if half < r ∨ (r = half ∧ q % 2 = 1) then q + 1 else q) * 2 ^ e
    if m < 2 ^ 1024 then some m else none

def ofInt (n : ℤ) : JsInt :=
  match roundNat n.natAbs with
  | some m => int (if n < 0 then -m else m)
  | none => if n < 0 then negInf else inf

/-- `parseInt(text, 10)`; `none` is `undefined`. -/
def parse (text : Option String) : JsInt :=
  match text with
  | none => nan
  | some text =>
    match text.toList.dropWhile jsSpace with
    | '-' :: rest => digits rest true
    | '+' :: rest => digits rest false
    | rest => digits rest false
where
  digits (rest : List Char) (neg : Bool) : JsInt :=
    match rest.takeWhile Char.isDigit with
    | [] => nan
    | ds =>
      let n : ℕ := ds.foldl (fun n d => 10 * n + (d.toNat - '0'.toNat)) 0
      ofInt (if neg then -(n : ℤ) else n)

/-- `v || d` -/
def orElse (v d : JsInt) : JsInt := if v = nan ∨ v = int 0 then d else v

/-- `Math.max(a, v)` of an integer and a number. -/
def max (a : ℤ) : JsInt → JsInt
  | nan => nan
  | inf => inf
  | negInf => int a
  | int n => int (if a ≤ n then n else a)

/-- `Math.min(a, v)` of an integer and a number. -/
def min (a : ℤ) : JsInt → JsInt
  | nan => nan
  | inf => int a
  | negInf => negInf
  | int n => int (if a ≤ n then a else n)

/-- `(page - 1) * limit` for a page and a limit that are at least 1. -/
def offset : JsInt → JsInt → JsInt
  | int page, int limit =>
    match ofInt (page - 1) with
    | int p => ofInt (p * limit)
    | v => v
  | int _, v => v
  | inf, _ => inf
  | v, _ => v

end JsInt

/-- The paging values of a list route. -/
structure Paging where
  page : JsInt
  limit : JsInt
  offset : JsInt

/-- `page = Math.max(1, parseInt(page, 10) || 1)`,
`limit = Math.min(most, Math.max(1, parseInt(limit, 10) || usual))`, `offset = (page - 1) * limit`. -/
def paging (most usual : ℤ) (page limit : Option String) : Paging :=
  let p := ((JsInt.parse page).orElse (.int 1)).max 1
  let l := (((JsInt.parse limit).orElse (.int usual)).max 1).min most
  { page := p, limit := l, offset := p.offset l }

theorem paging_limit {most usual : ℤ} (hmost : 1 ≤ most) (page limit : Option String) :
    ∃ n, (paging most usual page limit).limit = .int n ∧ 1 ≤ n ∧ n ≤ most := by
  have horElse : (JsInt.parse limit).orElse (.int usual) ≠ .nan := by
    unfold JsInt.orElse
    split
    · simp
    · rename_i h
      exact fun hnan => h (.inl hnan)
  unfold paging
  dsimp only
  generalize (JsInt.parse limit).orElse (.int usual) = v at horElse
  cases v with
  | nan => exact absurd rfl horElse
  | inf => exact ⟨most, rfl, hmost, le_refl most⟩
  | negInf =>
    refine ⟨1, ?_, le_refl 1, hmost⟩
    simp only [JsInt.max, JsInt.min]
    split
    · have : most = 1 := by omega
      rw [this]
    · rfl
  | int n =>
    simp only [JsInt.max, JsInt.min]
    refine ⟨_, rfl, ?_, ?_⟩ <;> split_ifs <;> omega

end Locus.Server
