import Locus.Server.Pages

/-!
# The page arguments of the lists

`GET /communities`, `GET /properties` and `GET /notifications` read `page` and `limit` with `parseInt`, as doubles, and
hand `limit` and `offset = (page - 1) * limit` to PostgreSQL as the texts that JavaScript prints. The limit is clamped
from both sides (`limit_eq`), the page only from below (`page_eq`). So what PostgreSQL gets is safe exactly for the
pages with an exact offset (`PagedRoute.pagingSafe_iff`), which takes in all offsets below `2 ^ 53`
(`PagedRoute.exact_of_lt`). Beyond, the offset is rounded, or printed with other digits, and then it leaves the range
of `bigint`, is printed with an exponent, and is `Infinity`: the query fails, and the answer is 500.
-/

namespace Locus.Server

open Lib (Prog)
open Lib.ShortestDecimal (shortest)

/-! ### What a query string asks for -/

namespace JsInt

/-- The integer at the head of a text that `parseInt(text, 10)` rounds to a double. -/
def written (text : Option String) : Option ℤ :=
  text.bind fun text =>
    let rest := text.toList.dropWhile jsSpace
    if rest.head? = some '-' then digits rest.tail true
    else if rest.head? = some '+' then digits rest.tail false
    else digits rest false
where
  digits (rest : List Char) (neg : Bool) : Option ℤ :=
    match rest.takeWhile Char.isDigit with
    | [] => none
    | ds =>
      let n := Nat.ofDigitChars 10 ds 0
      some (if neg then -(n : ℤ) else n)

theorem parse_digits (rest : List Char) (neg : Bool) :
    parse.digits rest neg = (written.digits rest neg).elim nan ofInt := by
  unfold parse.digits written.digits
  cases rest.takeWhile Char.isDigit with
  | nil => rfl
  | cons d ds => rfl

theorem parse_eq (text : Option String) : parse text = (written text).elim nan ofInt := by
  cases text with
  | none => rfl
  | some text =>
    unfold parse written
    dsimp only
    rw [Option.bind_some]
    generalize text.toList.dropWhile jsSpace = rest
    split
    · exact parse_digits _ true
    · exact parse_digits _ false
    · rename_i hminus hplus
      have hhead : ∀ c, (∀ rest', rest = c :: rest' → False) → rest.head? ≠ some c := by
        intro c hc h
        obtain ⟨rest', hrest⟩ := List.head?_eq_some_iff.mp h
        exact hc rest' hrest
      rw [if_neg (hhead _ hminus), if_neg (hhead _ hplus)]
      exact parse_digits _ false

end JsInt

/-- The page or the limit that is asked for, before it is rounded: `usual` if none or zero is written, and at least
1. -/
def asked (usual : ℕ) (text : Option String) : ℕ :=
  match JsInt.written text with
  | none => usual
  | some n => if n = 0 then usual else (Max.max 1 n).toNat

theorem asked_pos {usual : ℕ} (husual : 1 ≤ usual) (text : Option String) : 1 ≤ asked usual text := by
  unfold asked
  split
  · exact husual
  · split_ifs <;> omega

theorem max_parse {usual : ℕ} (husual : 1 ≤ usual) (husual' : usual < 2 ^ 53) (text : Option String) :
    ((JsInt.parse text).orElse (.int usual)).max 1 = JsInt.ofInt (asked usual text) := by
  have hdefault : (JsInt.int usual).max 1 = JsInt.ofInt usual := by
    rw [JsInt.ofInt_of_lt husual', JsInt.max, if_pos (by omega)]
  rw [JsInt.parse_eq, asked]
  cases JsInt.written text with
  | none => exact hdefault
  | some n =>
    dsimp only
    rw [Option.elim_some]
    rcases lt_trichotomy n 0 with hneg | rfl | hpos
    · rw [if_neg (by omega), max_eq_left (by omega)]
      obtain hinf | ⟨m, hm, hround⟩ := JsInt.ofInt_neg hneg
      · rw [hinf]
        rfl
      · rw [hround, JsInt.orElse, if_neg (by simp; omega), JsInt.max, if_neg (by omega)]
        rfl
    · exact hdefault
    · obtain ⟨m, rfl⟩ : ∃ m : ℕ, n = m := ⟨n.toNat, by omega⟩
      rw [if_neg (by omega), max_eq_right (by omega), Int.toNat_natCast, JsInt.ofInt_natCast]
      cases hround : JsInt.roundNat m with
      | none => rfl
      | some k =>
        have hk := JsInt.roundNat_pos (show 1 ≤ m by omega) hround
        rw [Option.elim_some, JsInt.orElse, if_neg (by simp; omega), JsInt.max, if_pos (by omega)]

theorem page_eq (most usual : ℤ) (page limit : Option String) :
    (paging most usual page limit).page = JsInt.ofInt (asked 1 page) := @max_parse 1 (by omega) (by omega) page

theorem limit_eq {most usual : ℕ} (hmost : most < 2 ^ 53) (husual : 1 ≤ usual) (husual' : usual < 2 ^ 53)
    (page limit : Option String) : (paging most usual page limit).limit = .int (min most (asked usual limit) : ℕ) := by
  have hlimit : (paging most usual page limit).limit = (JsInt.ofInt (asked usual limit)).min most :=
    congrArg (JsInt.min most) (max_parse husual husual' limit)
  rw [hlimit]
  rcases Nat.lt_or_ge (asked usual limit) (2 ^ 53) with hlt | hge
  · rw [JsInt.ofInt_of_lt hlt, JsInt.min, JsInt.int.injEq]
    omega
  · obtain hinf | ⟨m, hm, hlarge⟩ := JsInt.ofInt_of_ge hge
    · rw [hinf, JsInt.min, JsInt.int.injEq]
      omega
    · rw [hm, JsInt.min, JsInt.int.injEq]
      omega

/-! ### What PostgreSQL reads -/

namespace JsInt

theorem offset_isDouble (page limit : ℤ) : ((int page).offset (int limit)).IsDouble := by
  unfold offset
  have hpage := ofInt_isDouble (page - 1)
  dsimp only
  cases ofInt (page - 1) with
  | int p => exact ofInt_isDouble _
  | nan => trivial
  | inf => trivial
  | negInf => trivial

end JsInt

/-- `bigint` of a text without a sign: digits, in range. -/
def bigint (text : String) : Option ℕ :=
  let n := Nat.ofDigitChars 10 text.toList 0
  if text ≠ "" ∧ text.toList.all Char.isDigit = true ∧ n < 2 ^ 63 then some n else none

theorem bigint_toString (n : ℕ) : bigint (toString n) = if n < 2 ^ 63 then some n else none := by
  have hne : toString n ≠ "" := by
    intro h
    have hdigits := toList_toString n
    rw [h] at hdigits
    exact Nat.toDigits_ne_nil hdigits.symm
  have hall : (Nat.toDigits 10 n).all Char.isDigit = true := List.all_eq_true.mpr (isDigit_toDigits n)
  unfold bigint
  dsimp only
  rw [toList_toString, Nat.ofDigitChars_ten_toDigits]
  exact if_congr ((and_iff_right hne).trans (and_iff_right hall)) rfl rfl

theorem bigint_of_mem {text : String} {c : Char} (hc : c ∈ text.toList) (hdigit : c.isDigit = false) :
    bigint text = none := by
  refine if_neg fun h => ?_
  rw [List.all_eq_true.mp h.2.1 c hc] at hdigit
  cases hdigit

theorem bigint_decimal (m : ℕ) : bigint (JsInt.decimal m) = if m < 2 ^ 63 then some m else none := by
  rcases Nat.lt_or_ge m (10 ^ 21) with hplain | hexponent
  · rw [JsInt.decimal_of_lt hplain, bigint_toString]
  · rw [bigint_of_mem (JsInt.plus_mem_decimal hexponent) (by decide), if_neg (by omega)]

theorem readBigint_iff_of_none {v : JsInt} (hread : readBigint v = .error .invalidBigint)
    (hnone : bigint v.text = none) : (∃ n, readBigint v = .ok n) ↔ ∃ n, bigint v.text = some n := by
  rw [hread, hnone]
  constructor
  · rintro ⟨n, hn⟩
    cases hn
  · rintro ⟨n, hn⟩
    cases hn

/-- **A query fails exactly on the arguments whose text is no `bigint`.** -/
theorem readBigint_iff {v : JsInt} (hv : v.IsDouble) :
    (∃ n, readBigint v = .ok n) ↔ ∃ n, bigint v.text = some n := by
  cases v with
  | nan => exact readBigint_iff_of_none rfl (@bigint_of_mem "NaN" 'N' (by decide) (by decide))
  | inf => exact readBigint_iff_of_none rfl (@bigint_of_mem "Infinity" 'I' (by decide) (by decide))
  | negInf => exact readBigint_iff_of_none rfl (@bigint_of_mem "-Infinity" '-' (by decide) (by decide))
  | int n =>
    rcases lt_or_ge n 0 with hneg | hpos
    · have hsign : '-' ∈ (JsInt.text (.int n)).toList := by
        rw [JsInt.text, if_pos hneg]
        simp
      refine readBigint_iff_of_none ?_ (bigint_of_mem hsign (by decide))
      rw [readBigint, if_neg (by omega)]
    · obtain ⟨k, rfl⟩ : ∃ k : ℕ, n = k := ⟨n.toNat, by omega⟩
      have hk : JsInt.roundNat k = some k := hv
      have hrange := JsInt.shortest_lt_iff hk
      have hbigint : bigint (JsInt.text (.int k)) = if k < 2 ^ 63 then some (shortest JsInt.roundNat k) else none := by
        rw [JsInt.text_natCast, bigint_decimal]
        exact if_congr hrange rfl rfl
      by_cases hlt : k < 2 ^ 63
      · rw [hbigint, if_pos hlt, readBigint, if_pos ⟨by omega, by omega⟩]
        exact iff_of_true ⟨_, rfl⟩ ⟨_, rfl⟩
      · refine readBigint_iff_of_none ?_ (hbigint.trans (if_neg hlt))
        rw [readBigint, if_neg (by omega)]

/-! ### Lists with other arguments -/

section
variable {α : Type} {limit offset : JsInt}

theorem exists_page (hlimit : ∃ n, readBigint limit = .ok n) (hoffset : ∃ n, readBigint offset = .ok n) (db : Db)
    (rows : List α) : ∃ r, (pageOf limit offset rows).map (·, db) = .ok r := by
  obtain ⟨n, hn⟩ := hlimit
  obtain ⟨m, hm⟩ := hoffset
  have hpage : pageOf limit offset rows = .ok ((rows.drop m).take n) :=
    bind_eq_ok.mpr ⟨n, hn, bind_eq_ok.mpr ⟨m, hm, rfl⟩⟩
  exact ⟨_, congrArg (Except.map (·, db)) hpage⟩

theorem exists_page_of {db : Db} {rows : Except PgError (List α)} {order : List α → List α} {limit' offset' : JsInt}
    (hlimit : ∃ n, readBigint limit = .ok n) (hoffset : ∃ n, readBigint offset = .ok n)
    (h : ∃ r, (rows >>= fun rows => pageOf limit' offset' (order rows)).map (·, db) = .ok r) :
    ∃ r, (rows >>= fun rows => pageOf limit offset (order rows)).map (·, db) = .ok r := by
  cases rows with
  | error e =>
    obtain ⟨r, hr⟩ := h
    cases hr
  | ok rows => exact exists_page hlimit hoffset db (order rows)

end

theorem catch500_list_ne_500 {svc : Services} {q₁ q₂ q₂' : Stmt} {f : Answer q₁ → Answer q₂ → HandlerM Response}
    {f' : Answer q₁ → Answer q₂' → HandlerM Response} {x : ℕ → Tick} {db : Db} {cache cache' : Cache}
    (hrows : ∀ tick db, (∃ r, execOk svc tick db q₂' = .ok r) → ∃ r, execOk svc tick db q₂ = .ok r)
    (hf : ∀ total rows x db, ((catch500 (f total rows)).run (exec svc) x db cache).1.status ≠ 500)
    (h : ((catch500 (query q₁ >>= fun total => query q₂' >>= fun rows => f' total rows)).run (exec svc) x db
      cache').1.status ≠ 500) :
    ((catch500 (query q₁ >>= fun total => query q₂ >>= fun rows => f total rows)).run (exec svc) x db
      cache).1.status ≠ 500 := by
  obtain ⟨hfault, total, db', htotal, h'⟩ := catch500_ne_500.mp h
  obtain ⟨hfault', rows', db'', hrows', -⟩ := catch500_ne_500.mp h'
  obtain ⟨⟨rows, _⟩, hok⟩ := hrows _ _ ⟨_, hrows'⟩
  exact catch500_ne_500.mpr ⟨hfault, total, db', htotal,
    catch500_ne_500.mpr ⟨hfault', rows, _, hok, hf total rows _ _⟩⟩

/-! ### The three lists -/

inductive PagedRoute
  | communities
  | properties
  | notifications

/-- The limit and the offset that a statement hands to PostgreSQL. -/
def Stmt.pageArgs : Stmt → Option (JsInt × JsInt)
  | .selectCommunities limit offset | .selectCommunitiesNearby _ _ _ limit offset
  | .selectProperties limit offset | .selectPropertiesNearby _ _ _ limit offset
  | .selectNotifications _ limit offset => some (limit, offset)
  | _ => none

namespace PagedRoute

def most : PagedRoute → ℕ
  | notifications => 100
  | _ => 50

def usual : PagedRoute → ℕ
  | communities => 10
  | properties => 15
  | notifications => 20

def request (route : PagedRoute) (authorization : Option String) (q : ListQuery) : ApiRequest :=
  match route with
  | communities => .getCommunities q
  | properties => .getProperties q
  | notifications => .getNotifications authorization q.page q.limit

/-- The numbers that the route makes of `page` and `limit`. -/
def paging (route : PagedRoute) (page limit : Option String) : Paging :=
  Server.paging route.most route.usual page limit

/-- The values that PostgreSQL gets are in range and exact, and their texts are the plain decimals. -/
def SafeArgs (route : PagedRoute) (page limit offset : JsInt) : Prop :=
  ∃ p n m : ℤ, page = .int p ∧ limit = .int n ∧ offset = .int m ∧ 1 ≤ n ∧ n ≤ route.most ∧
    m = (p - 1) * n ∧ 0 ≤ m ∧ m < 2 ^ 63 ∧ limit.text = toString n ∧ offset.text = toString m

/-- Under these strings every statement of the route has safe arguments, and they are not why it answers 500:
without them, and without the cache, it would as well. -/
structure PagingSafe (route : PagedRoute) (page limit : Option String) : Prop where
  arguments : ∀ svc env authorization (q : ListQuery), q.page = page → q.limit = limit →
    ((route.request authorization q).handler svc env).Sends fun stmt => ∀ l o, stmt.pageArgs = some (l, o) →
      route.SafeArgs (route.paging page limit).page l o
  answered : ∀ svc env authorization (q : ListQuery) x (s : ServerState), q.page = page → q.limit = limit →
    (serve svc { s with cache := [] } (route.request authorization { q with page := none, limit := none })
      env x).1.status ≠ 500 →
    (serve svc s (route.request authorization q) env x).1.status ≠ 500

/-- The page asked for is in the range of doubles, the offset of its double is a double, and no decimal with more
final zeros is read as that offset. -/
def Exact (route : PagedRoute) (page limit : Option String) : Prop :=
  ∃ p, JsInt.roundNat (asked 1 page) = some p ∧
    let offset := (p - 1) * min route.most (asked route.usual limit)
    JsInt.roundNat offset = some offset ∧ ∀ j s, JsInt.roundNat (s * 10 ^ j) = some offset → 10 ^ j ∣ offset

theorem limit_eq (route : PagedRoute) (page limit : Option String) :
    (route.paging page limit).limit = .int (min route.most (asked route.usual limit) : ℕ) := by
  cases route <;> exact Server.limit_eq (by decide) (by decide) (by decide) page limit

theorem limit_bounds (route : PagedRoute) (limit : Option String) :
    1 ≤ min route.most (asked route.usual limit) ∧ min route.most (asked route.usual limit) ≤ 100 := by
  have hmost : 1 ≤ route.most ∧ route.most ≤ 100 := by cases route <;> decide
  have hasked : 1 ≤ asked route.usual limit := asked_pos (by cases route <;> decide) limit
  omega

theorem offset_eq (route : PagedRoute) {p : ℕ} {page : Option String}
    (hp : JsInt.roundNat (asked 1 page) = some p) (limit : Option String) :
    (route.paging page limit).offset =
      (JsInt.int p).offset (.int (min route.most (asked route.usual limit) : ℕ)) := by
  have hpage : (route.paging page limit).page = .int p := (page_eq _ _ page limit).trans (JsInt.ofInt_eq_int.mpr hp)
  rw [← hpage, ← limit_eq route page limit]
  rfl

theorem page_le {p l n : ℕ} (hp : JsInt.roundNat n = some p) (hl : 1 ≤ l)
    (hoffset : JsInt.roundNat ((p - 1) * l) = some ((p - 1) * l)) : p ≤ 2 ^ 53 := by
  by_contra hlarge
  have heven := JsInt.roundNat_even hp (by omega)
  exact JsInt.roundNat_mul_ne (by omega) (by omega) hl hoffset

section
variable {route : PagedRoute} {page limit : Option String}

theorem offset_of_double {p l : ℕ} (hp : JsInt.roundNat (asked 1 page) = some p)
    (hl : min route.most (asked route.usual limit) = l) (hoffset : JsInt.roundNat ((p - 1) * l) = some ((p - 1) * l)) :
    (route.paging page limit).offset = .int ((p - 1) * l : ℕ) := by
  have hlimit : 1 ≤ l := hl ▸ (route.limit_bounds limit).1
  have hpos := JsInt.roundNat_pos (asked_pos le_rfl page) hp
  have hle := page_le hp hlimit hoffset
  have hbefore : (p : ℤ) - 1 = (p - 1 : ℕ) := by omega
  rw [route.offset_eq hp, hl, JsInt.offset, hbefore, JsInt.ofInt_of_lt (by omega)]
  dsimp only
  rw [← Nat.cast_mul]
  exact JsInt.ofInt_eq_int.mpr hoffset

theorem safeArgs_of_exact (h : route.Exact page limit) : route.SafeArgs (route.paging page limit).page
    (route.paging page limit).limit (route.paging page limit).offset := by
  obtain ⟨p, hp, hoffset, hzeros⟩ := h
  obtain ⟨hlimit, hlimit'⟩ := route.limit_bounds limit
  have hpage : (route.paging page limit).page = .int p := (page_eq _ _ page limit).trans (JsInt.ofInt_eq_int.mpr hp)
  have hmost : min route.most (asked route.usual limit) ≤ route.most := min_le_left _ _
  have hlimit_eq := route.limit_eq page limit
  generalize hl : min route.most (asked route.usual limit) = l at *
  have hpos := JsInt.roundNat_pos (asked_pos le_rfl page) hp
  have hle := page_le hp hlimit hoffset
  have hsmall : (p - 1) * l < 2 ^ 63 := by
    calc (p - 1) * l ≤ 2 ^ 53 * 100 := Nat.mul_le_mul (by omega) hlimit'
      _ < 2 ^ 63 := by omega
  have hargs := offset_of_double hp hl hoffset
  refine ⟨p, l, ((p - 1) * l : ℕ), hpage, hlimit_eq, hargs, by omega, by omega, ?_, by omega, by omega, ?_, ?_⟩
  · rw [Nat.cast_mul, Nat.cast_sub hpos, Nat.cast_one]
  · rw [hlimit_eq]
    exact JsInt.text_of_lt (by omega)
  · rw [hargs]
    exact (JsInt.text_toString_iff hoffset).mpr ⟨hzeros, by omega⟩

theorem exact_of_safeArgs (h : route.SafeArgs (route.paging page limit).page (route.paging page limit).limit
    (route.paging page limit).offset) : route.Exact page limit := by
  obtain ⟨p, n, m, hp, hn, hm, -, -, hmul, -, -, -, htext⟩ := h
  rw [show (route.paging page limit).page = _ from page_eq _ _ page limit, JsInt.ofInt_natCast] at hp
  cases hround : JsInt.roundNat (asked 1 page) with
  | none =>
    rw [hround] at hp
    cases hp
  | some k =>
    -- the page is a natural number, and the limit the clamped one
    rw [hround, Option.elim_some] at hp
    obtain rfl := JsInt.int.inj hp
    rw [route.limit_eq] at hn
    obtain rfl := JsInt.int.inj hn
    have hk := JsInt.roundNat_pos (asked_pos le_rfl page) hround
    have hoffset : m = ((k - 1) * min route.most (asked route.usual limit) : ℕ) := by
      rw [hmul, Nat.cast_mul, Nat.cast_sub hk, Nat.cast_one]
    subst hoffset
    have hdouble : ((route.paging page limit).offset).IsDouble := by
      rw [route.offset_eq hround]
      exact JsInt.offset_isDouble _ _
    rw [hm] at hdouble htext
    have hself : JsInt.roundNat ((k - 1) * min route.most (asked route.usual limit)) =
        some ((k - 1) * min route.most (asked route.usual limit)) := hdouble
    exact ⟨k, hround, hself, ((JsInt.text_toString_iff hself).mp htext).1⟩

/-- **The arguments are safe exactly for the pages with an exact offset.** -/
theorem safeArgs_iff : route.SafeArgs (route.paging page limit).page (route.paging page limit).limit
    (route.paging page limit).offset ↔ route.Exact page limit := ⟨exact_of_safeArgs, safeArgs_of_exact⟩

end

theorem exact_of_lt {route : PagedRoute} {page limit : Option String}
    (h : (asked 1 page - 1) * min route.most (asked route.usual limit) < 2 ^ 53) : route.Exact page limit := by
  obtain ⟨hlimit, -⟩ := route.limit_bounds limit
  have hpage : asked 1 page - 1 < 2 ^ 53 := (Nat.le_mul_of_pos_right _ hlimit).trans_lt h
  have hself : JsInt.roundNat (asked 1 page) = some (asked 1 page) := by
    rcases Nat.lt_or_ge (asked 1 page) (2 ^ 53) with hlt | hge
    · exact JsInt.roundNat_of_lt hlt
    · rw [show asked 1 page = 2 ^ 53 by omega]
      exact JsInt.roundNat_two_pow (by omega)
  have hoffset := JsInt.roundNat_of_lt h
  exact ⟨asked 1 page, hself, hoffset, ((JsInt.text_toString_iff hoffset).mp (JsInt.text_of_lt h)).1⟩

/-- The statements of the route are counts, and one for the rows with the limit and the offset. -/
theorem handler_sends (route : PagedRoute) {svc : Services} {env : NodeEnv} {authorization : Option String}
    {q : ListQuery} {P : JsInt → JsInt → Prop}
    (h : P (route.paging q.page q.limit).limit (route.paging q.page q.limit).offset) :
    ((route.request authorization q).handler svc env).Sends fun stmt =>
      ∀ l o, stmt.pageArgs = some (l, o) → P l o := by
  have hcount : ∀ stmt : Stmt, stmt.pageArgs = none → ∀ l o, stmt.pageArgs = some (l, o) → P l o := by
    intro stmt hnone l o hsome
    rw [hnone] at hsome
    cases hsome
  have hrows : ∀ l o, some ((route.paging q.page q.limit).limit, (route.paging q.page q.limit).offset) =
      some (l, o) → P l o := by
    intro l o hargs
    cases hargs
    exact h
  cases route with
  | communities =>
    refine getCached_sends fun cached => ?_
    cases cached with
    | some page => trivial
    | none =>
      dsimp only
      split
      · exact catch500_sends (hcount _ rfl) fun _ => catch500_sends hrows fun _ => setCache_sends _
      · exact catch500_sends (hcount _ rfl) fun _ => catch500_sends hrows fun _ => setCache_sends _
  | properties =>
    show (getProperties svc q).Sends _
    rw [getProperties]
    dsimp only
    split
    · exact catch500_sends (hcount _ rfl) fun _ => catch500_sends hrows fun _ => trivial
    · exact catch500_sends (hcount _ rfl) fun _ => catch500_sends hrows fun _ => trivial
  | notifications =>
    exact authMiddleware_sends svc env fun user _ => catch500_sends (hcount _ rfl) fun _ =>
      catch500_sends hrows fun _ => trivial

theorem of_handler_sends {route : PagedRoute} {page limit : Option String} {P : JsInt → JsInt → Prop}
    (h : ∀ svc env authorization (q : ListQuery), q.page = page → q.limit = limit →
      ((route.request authorization q).handler svc env).Sends fun stmt =>
        ∀ l o, stmt.pageArgs = some (l, o) → P l o) :
    P (route.paging page limit).limit (route.paging page limit).offset := by
  have hhandler := h plainServices ⟨0, "", 0⟩ (some "Bearer 0.0.ann") ⟨none, none, none, page, limit⟩ rfl rfl
  -- no point is asked for
  have hnan : ¬ (plainServices.parseFloat none ≠ "NaN" ∧ plainServices.parseFloat none ≠ "NaN") :=
    fun hpoint => hpoint.1 rfl
  cases route with
  | communities =>
    rw [request, ApiRequest.handler, getCommunities] at hhandler
    have hlist := sends_of_getCached hhandler
    dsimp only at hlist
    rw [if_neg hnan] at hlist
    exact (sends_of_catch500 ((sends_of_catch500 hlist).2 0)).1 _ _ rfl
  | properties =>
    rw [request, ApiRequest.handler, getProperties] at hhandler
    dsimp only at hhandler
    rw [if_neg hnan] at hhandler
    exact (sends_of_catch500 ((sends_of_catch500 hhandler).2 0)).1 _ _ rfl
  | notifications =>
    have huser : authenticate plainServices ⟨0, "", 0⟩ (some "Bearer 0.0.ann") = some ⟨0, "ann"⟩ := by decide +kernel
    rw [request, ApiRequest.handler, getNotifications, authMiddleware_some _ _ _ huser] at hhandler
    exact (sends_of_catch500 ((sends_of_catch500 hhandler).2 0)).1 _ _ rfl

/-- With an offset that can be read, `page` and `limit` are no reason for a 500. -/
theorem ne_500_of_offset (route : PagedRoute) {svc : Services} {env : NodeEnv} {authorization : Option String}
    {q : ListQuery} {x : ℕ → Tick} {s : ServerState}
    (hoffset : ∃ n, readBigint (route.paging q.page q.limit).offset = .ok n)
    (h : (serve svc { s with cache := [] } (route.request authorization { q with page := none, limit := none })
      env x).1.status ≠ 500) : (serve svc s (route.request authorization q) env x).1.status ≠ 500 := by
  have hlimit : ∃ n, readBigint (route.paging q.page q.limit).limit = .ok n := by
    have hbounds := route.limit_bounds q.limit
    rw [route.limit_eq, readBigint, if_pos ⟨by omega, by omega⟩]
    exact ⟨_, rfl⟩
  have hok : (200 : ℕ) ≠ 500 := by decide
  unfold serve at h ⊢
  dsimp only at h ⊢
  cases route with
  | communities =>
    rw [request, ApiRequest.handler, getCommunities] at h ⊢
    dsimp only at h ⊢
    rw [getCached_run] at h ⊢
    split
    · exact hok
    · split_ifs at h ⊢ with hpoint
      · refine catch500_list_ne_500 (fun tick db hread => ?_) (fun _ _ _ _ => hok) h
        exact exists_page_of hlimit hoffset hread
      · refine catch500_list_ne_500 (fun tick db _ => ?_) (fun _ _ _ _ => hok) h
        exact exists_page hlimit hoffset db _
  | properties =>
    rw [request, ApiRequest.handler, getProperties] at h ⊢
    dsimp only at h ⊢
    split_ifs at h ⊢ with hpoint
    · refine catch500_list_ne_500 (fun tick db hread => ?_) (fun _ _ _ _ => hok) h
      exact exists_page_of hlimit hoffset hread
    · refine catch500_list_ne_500 (fun tick db _ => ?_) (fun _ _ _ _ => hok) h
      exact exists_page hlimit hoffset db _
  | notifications =>
    rw [request, ApiRequest.handler, getNotifications] at h ⊢
    cases huser : authenticate svc env authorization with
    | none =>
      obtain ⟨text, hrefused⟩ := authMiddleware_none svc env _ huser
      rw [hrefused]
      show (401 : ℕ) ≠ 500
      decide
    | some user =>
      rw [authMiddleware_some svc env _ huser] at h ⊢
      refine catch500_list_ne_500 (fun tick db _ => ?_) (fun _ _ _ _ => hok) h
      exact exists_page hlimit hoffset db _

/-- **Paging is safe exactly for the pages with an exact offset.** -/
theorem pagingSafe_iff (route : PagedRoute) (page limit : Option String) :
    route.PagingSafe page limit ↔ route.Exact page limit := by
  constructor
  · intro h
    exact safeArgs_iff.mp (of_handler_sends h.arguments)
  · intro h
    have hargs := safeArgs_iff.mpr h
    have hoffset : ∃ n, readBigint (route.paging page limit).offset = .ok n := by
      obtain ⟨-, -, m, -, -, hm, -, -, -, hpos, hrange, -, -⟩ := hargs
      rw [hm, readBigint, if_pos ⟨hpos, hrange⟩]
      exact ⟨_, rfl⟩
    constructor
    · rintro svc env authorization q rfl rfl
      exact route.handler_sends hargs
    · rintro svc env authorization q x s rfl rfl
      exact route.ne_500_of_offset hoffset

/-- The offset of page `10 ^ 21` is printed as `1e+22`, and the list answers 500. -/
theorem page_too_large : ¬ ∀ (route : PagedRoute) (page limit : Option String), route.PagingSafe page limit := by
  intro h
  have hanswered := (h communities (some "1000000000000000000000") none).answered plainServices ⟨0, "", 0⟩ none
    ⟨none, none, none, some "1000000000000000000000", none⟩ (fun _ => {}) {} rfl rfl
  have hfirst : (serve plainServices {} (.getCommunities {}) ⟨0, "", 0⟩ fun _ => {}).1.status ≠ 500 := by
    decide +kernel
  exact hanswered hfirst (by decide +kernel)

end PagedRoute

end Locus.Server
