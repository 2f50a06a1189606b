import Locus.Lib.Paging
import Locus.Server.Api
import Locus.Server.JsPrinting

/-!
# The pages of the lists

The lists of `server.js` are read with `ORDER BY created_at DESC LIMIT $m OFFSET $n`. What PostgreSQL may put
first is any order of the rows by time (`newestFirst_ordered`), and each such order is the answer under some choice
for the ties (`exists_tieBreak`). The offset `(page - 1) * limit` is a double: below `2 ^ 53` it is exact, and from
there on it stays at least `2 ^ 53` (`offset_cases`), so that no table sees the difference (`offset_sub`).
-/

namespace Locus.Server

open Lib.Paging (Ordered page)

/-! ### Orders by time -/

section
variable {α : Type} {id : α → Uuid} {createdAt : α → Time} {rows : List α}

theorem newestFirst_ordered (tick : Tick) (id : α → Uuid) (createdAt : α → Time) (rows : List α) :
    Ordered createdAt rows (newestFirst tick id createdAt rows) := by
  refine ⟨newestFirst_perm tick id createdAt rows, (newestFirst_pairwise tick id createdAt rows).imp fun h => ?_⟩
  rcases h with h | ⟨h, -⟩
  · exact h.le
  · exact h.ge

theorem exists_tieBreak (hids : (rows.map id).Nodup) {l : List α} (hl : Ordered createdAt rows l) :
    ∃ tieBreak : Uuid → ℕ, ∀ tick : Tick, tick.tieBreak = tieBreak → newestFirst tick id createdAt rows = l := by
  have hnodup : (l.map id).Nodup := (hl.1.map id).nodup_iff.mpr hids
  refine ⟨fun u => (l.map id).idxOf u, fun tick htick => ?_⟩
  have hplace : ∀ i (hi : i < l.length), tick.tieBreak (id l[i]) = i := by
    intro i hi
    rw [htick]
    have := hnodup.idxOf_getElem i (by simpa using hi)
    simpa using this
  -- the order of `l` is that of its times and its places
  have hsorted : l.Pairwise fun a b => createdAt b < createdAt a ∨
      (createdAt a = createdAt b ∧ tick.tieBreak (id a) ≤ tick.tieBreak (id b)) := by
    rw [List.pairwise_iff_getElem]
    intro i j hi hj hij
    have htime := List.pairwise_iff_getElem.mp hl.2 i j hi hj hij
    rw [hplace i hi, hplace j hj]
    simp only [Time] at htime ⊢
    omega
  refine List.Perm.eq_of_pairwise (fun a b ha hb hab hba => ?_) (newestFirst_pairwise tick id createdAt rows) hsorted
    ((newestFirst_perm tick id createdAt rows).trans hl.1.symm)
  simp only [Time] at hab hba
  have hmem : ∀ {c}, c ∈ newestFirst tick id createdAt rows → c ∈ rows :=
    fun hc => (newestFirst_perm tick id createdAt rows).mem_iff.mp hc
  have ha' : a ∈ rows := hmem ha
  have hb' : b ∈ rows := hl.1.mem_iff.mp hb
  have hplaces : (l.map id).idxOf (id a) = (l.map id).idxOf (id b) := by
    rw [htick] at hab hba
    dsimp only at hab hba
    omega
  have hida : id a ∈ l.map id := List.mem_map_of_mem (hl.1.mem_iff.mpr ha')
  exact List.inj_on_of_nodup_map hids ha' hb' ((List.idxOf_inj hida).mp hplaces)

end

/-! ### Page numbers -/

namespace JsInt

/-- `(page - 1) * limit` is exact, or at least `2 ^ 53` as well. -/
theorem offset_cases {page limit : ℕ} (hpage : 1 ≤ page) (hlimit : 1 ≤ limit) :
    ((page - 1) * limit < 2 ^ 53 ∧ offset (int page) (int limit) = int ((page - 1) * limit : ℕ)) ∨
    (2 ^ 53 ≤ (page - 1) * limit ∧ (offset (int page) (int limit) = inf ∨
      ∃ m : ℕ, offset (int page) (int limit) = int m ∧ 2 ^ 53 ≤ m)) := by
  have hcast : (page : ℤ) - 1 = (page - 1 : ℕ) := by omega
  unfold offset
  dsimp only
  rw [hcast]
  by_cases hexact : page - 1 < 2 ^ 53
  · rw [ofInt_of_lt hexact]
    dsimp only
    rw [← Nat.cast_mul]
    by_cases hproduct : (page - 1) * limit < 2 ^ 53
    · exact .inl ⟨hproduct, ofInt_of_lt hproduct⟩
    · exact .inr ⟨by omega, ofInt_of_ge (by omega)⟩
  · have hproduct : ∀ m : ℕ, 2 ^ 53 ≤ m → 2 ^ 53 ≤ m * limit := fun m hm => hm.trans (Nat.le_mul_of_pos_right m hlimit)
    refine .inr ⟨hproduct _ (by omega), ?_⟩
    obtain hinf | ⟨m, hm, hlarge⟩ := ofInt_of_ge (n := page - 1) (by omega)
    · rw [hinf]
      exact .inl rfl
    · rw [hm]
      dsimp only
      rw [← Nat.cast_mul]
      exact ofInt_of_ge (hproduct m hlarge)

theorem jsSpace_digit {c : Char} (hc : c.isDigit = true) : jsSpace c = false := by
  by_contra hspace
  rw [Bool.not_eq_false, jsSpace, Bool.or_eq_true] at hspace
  rcases hspace with hlisted | hwide
  · have hnone : (['\t', '\n', '\x0b', '\x0c', '\r', ' ', '\u00a0', '\u1680', '\u2028', '\u2029', '\u202f',
        '\u205f', '\u3000', '\ufeff'].all fun d => !d.isDigit) = true := by decide
    have hdigit := List.all_eq_true.mp hnone c (of_decide_eq_true hlisted)
    rw [hc] at hdigit
    cases hdigit
  · have hlow : '\u2000' ≤ c := of_decide_eq_true (Bool.and_eq_true_iff.mp hwide).1
    have hhigh : c ≤ '9' := of_decide_eq_true (Bool.and_eq_true_iff.mp hc).2
    exact absurd (hlow.trans hhigh) (by decide)

theorem parse_toString {n : ℕ} (hn : n < 2 ^ 53) : parse (some (toString n)) = int n := by
  have hdigits := isDigit_toDigits n
  have hall : (Nat.toDigits 10 n).takeWhile Char.isDigit = Nat.toDigits 10 n :=
    List.takeWhile_eq_self_iff.mpr hdigits
  have hvalue : (Nat.toDigits 10 n).foldl (fun n d => 10 * n + (d.toNat - '0'.toNat)) 0 = n :=
    Nat.ofDigitChars_ten_toDigits
  have hread : parse.digits (Nat.toDigits 10 n) false = int n := by
    unfold parse.digits
    rw [hall]
    cases hlist : Nat.toDigits 10 n with
    | nil => exact absurd hlist Nat.toDigits_ne_nil
    | cons d ds =>
      dsimp only
      rw [← hlist, hvalue, if_neg (by simp)]
      exact ofInt_of_lt hn
  unfold parse
  dsimp only
  rw [toList_toString]
  cases hlist : Nat.toDigits 10 n with
  | nil => exact absurd hlist Nat.toDigits_ne_nil
  | cons d ds =>
    have hd : d.isDigit = true := hdigits d (hlist ▸ List.mem_cons_self)
    rw [List.dropWhile_cons_of_neg (by simp [jsSpace_digit hd])]
    rw [hlist] at hread
    -- a digit is no sign
    split
    · rename_i hcons
      rw [(List.cons.inj hcons).1] at hd
      exact absurd hd (by decide)
    · rename_i hcons
      rw [(List.cons.inj hcons).1] at hd
      exact absurd hd (by decide)
    · exact hread

end JsInt

/-- As far as a table of at most `2 ^ 53` rows goes, the offset is `(page - 1) * limit`. -/
theorem offset_sub {page limit n : ℕ} (hpage : 1 ≤ page) (hlimit : 1 ≤ limit)
    (hn : readBigint ((JsInt.int page).offset (.int limit)) = .ok n) {N : ℕ} (hN : N ≤ 2 ^ 53) :
    N - n = N - (page - 1) * limit := by
  obtain ⟨-, hoffset⟩ | ⟨hlarge, hinf | ⟨m, hm, hlarge'⟩⟩ := JsInt.offset_cases hpage hlimit
  · rw [hoffset, readBigint] at hn
    split at hn
    · obtain rfl := Except.ok.inj hn
      rw [Int.toNat_natCast]
    · cases hn
  · rw [hinf] at hn
    cases hn
  · rw [hm, readBigint] at hn
    split at hn
    · obtain rfl := Except.ok.inj hn
      omega
    · cases hn

theorem paging_page (most usual : ℤ) (page limit : Option String) :
    (paging most usual page limit).page = .inf ∨
      ∃ p : ℕ, (paging most usual page limit).page = .int p ∧ 1 ≤ p := by
  have horElse : (JsInt.parse page).orElse (.int 1) ≠ .nan := by
    unfold JsInt.orElse
    split
    · simp
    · rename_i h
      exact fun hnan => h (.inl hnan)
  unfold paging
  dsimp only
  generalize (JsInt.parse page).orElse (.int 1) = v at horElse
  cases v with
  | nan => exact absurd rfl horElse
  | inf => exact .inl rfl
  | negInf => exact .inr ⟨1, rfl, le_rfl⟩
  | int n =>
    refine .inr ⟨(if 1 ≤ n then n else 1).toNat, ?_, ?_⟩
    · simp only [JsInt.max, JsInt.int.injEq]
      split <;> omega
    · split <;> omega

theorem paging_toString {most usual : ℤ} {p limit : ℕ} (hp : 1 ≤ p) (hp' : p < 2 ^ 53) (hlimit : 1 ≤ limit)
    (hmost : limit ≤ most) (hmost' : most < 2 ^ 53) :
    (paging most usual (some (toString p)) (some (toString limit))).page = .int p ∧
      (paging most usual (some (toString p)) (some (toString limit))).limit = .int limit := by
  unfold paging
  dsimp only
  rw [JsInt.parse_toString hp', JsInt.parse_toString (show limit < 2 ^ 53 by omega)]
  simp only [JsInt.orElse, reduceCtorEq, JsInt.int.injEq, false_or]
  rw [if_neg (by omega), if_neg (by omega)]
  simp only [JsInt.max, JsInt.min, JsInt.int.injEq]
  omega

theorem limit_lt {most usual : ℤ} (hmost : 1 ≤ most) (hmost' : most < 2 ^ 53) {page limit : Option String} {l : ℕ}
    (hl : (paging most usual page limit).limit = .int l) : l < 2 ^ 63 := by
  obtain ⟨n, hn, -, hn'⟩ := @paging_limit most usual hmost page limit
  rw [hn, JsInt.int.injEq] at hl
  omega

theorem pageOf_eq {α : Type} {limit : ℕ} (hlimit : limit < 2 ^ 63) (offset : JsInt) (rows : List α) :
    pageOf (.int limit) offset rows = (readBigint offset).map fun n => page n limit rows := by
  unfold pageOf
  rw [readBigint, if_pos ⟨by omega, by omega⟩, Int.toNat_natCast]
  cases readBigint offset with
  | error e => rfl
  | ok n => rfl

/-- The rows of page `p`; none when the offset is no `bigint` and the query fails. -/
def shown {α : Type} (p : JsInt) (limit : ℕ) (l : List α) : List α :=
  match readBigint (p.offset (.int limit)) with
  | .ok n => page n limit l
  | .error _ => []

theorem shown_eq {α : Type} {limit : ℕ} (hlimit : limit < 2 ^ 63) (p : JsInt) (l : List α) :
    shown p limit l = ((pageOf (.int limit) (p.offset (.int limit)) l).toOption.map fun rows => rows).getD [] := by
  rw [pageOf_eq hlimit, shown]
  cases readBigint (p.offset (.int limit)) with
  | error e => rfl
  | ok n => rfl

theorem shown_page {α : Type} {i limit : ℕ} (hlimit : 1 ≤ limit) (hi : i * limit < 2 ^ 53) (l : List α) :
    shown (.int (i + 1 : ℕ)) limit l = page (i * limit) limit l := by
  unfold shown
  obtain ⟨-, hoffset⟩ | ⟨hlarge, -⟩ := @JsInt.offset_cases (i + 1) limit (by omega) hlimit
  · rw [Nat.add_sub_cancel] at hoffset
    rw [hoffset, readBigint, if_pos ⟨by omega, by omega⟩, Int.toNat_natCast]
  · rw [Nat.add_sub_cancel] at hlarge
    omega

theorem shown_later {α : Type} {p limit : ℕ} (hp : 1 ≤ p) (hlimit : 1 ≤ limit) {l : List α}
    (hl : l.length ≤ 2 ^ 53) (hlater : l.length ≤ (p - 1) * limit) : shown (.int p) limit l = [] := by
  unfold shown
  cases hn : readBigint ((JsInt.int p).offset (.int limit)) with
  | error e => rfl
  | ok n =>
    have hsub := offset_sub hp hlimit hn hl
    exact Lib.Paging.page_eq_nil (by omega) limit

/-- What a `try` shows that reads rows: what `g` makes of them, and nothing when they cannot be read. -/
theorem catch500_row {svc : Services} (q : Stmt) {f : Answer q → HandlerM Response} {x : ℕ → Tick} {db : Db}
    {cache : Cache} {rows : Except PgError (Answer q)} {β : Type} (data : Body → β) (g : Answer q → β) {nothing : β}
    (hx : (x 0).fault = none) (hrows : execOk svc (x 0) db q = rows.map (·, db))
    (hfailure : ∀ text, data (.failure text) = nothing)
    (hdata : ∀ a x, data ((catch500 (f a)).run (exec svc) x db cache).1.body = g a) :
    data ((catch500 (query q >>= f)).run (exec svc) x db cache).1.body = (rows.toOption.map g).getD nothing := by
  cases rows with
  | ok a =>
    rw [catch500_run_ok _ _ hx hrows]
    exact hdata a _
  | error e =>
    rw [catch500_run_error _ _ hx hrows]
    exact hfailure e.message

theorem catch500_rows {svc : Services} (q₁ q₂ : Stmt) {f : Answer q₁ → Answer q₂ → HandlerM Response}
    {x : ℕ → Tick} {db : Db} {cache : Cache} {total : Answer q₁} {rows : Except PgError (Answer q₂)} {β : Type}
    (data : Body → β) (g : Answer q₂ → β) {nothing : β} (hx : ∀ n, (x n).fault = none)
    (htotal : execOk svc (x 0) db q₁ = .ok (total, db)) (hrows : execOk svc (x 1) db q₂ = rows.map (·, db))
    (hfailure : ∀ text, data (.failure text) = nothing)
    (hdata : ∀ a x, data ((catch500 (f total a)).run (exec svc) x db cache).1.body = g a) :
    data ((catch500 (query q₁ >>= fun a => query q₂ >>= fun b => f a b)).run (exec svc) x db cache).1.body =
      (rows.toOption.map g).getD nothing := by
  rw [catch500_run_ok _ _ (hx 0) htotal]
  exact catch500_row (x := fun n => x (n + 1)) q₂ data g (hx 1) hrows hfailure hdata

end Locus.Server
