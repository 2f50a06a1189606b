import Locus.Lib.Binary64
import Locus.Lib.System
import Mathlib.Tactic.Linarith

/-!
# The summary of the Savings screen

`SavingsScreen` fetches the transactions when it is mounted and on every pull to refresh. A fetch that succeeds
replaces the list and both sums. One that fails empties the list and leaves the sums, so an old balance stands over
an empty ledger (`balance_of_nothing`); and the earnings of the month add the credits of that month in every year
(`january_a_year_ago`). The summary matches the ledger after every fetch exactly when neither happens
(`savings_match_iff`).

The amounts are doubles, which `reduce` adds in the order of the list. The result is about ledgers that add up
without rounding.
-/

namespace Locus.App

open Lib
open Lib.Binary64 (Double)

/-! ### Transactions and dates -/

inductive TransactionType
  | credit
  | debit
  | equity
  | rent
deriving DecidableEq

/-- What `fetchData` reads of a transaction. -/
structure Transaction where
  type : TransactionType
  amount : Double
  created_at : String
deriving DecidableEq

/-- What `Date` takes from its surroundings: the time value that it reads from a text, in milliseconds, and the
offset of the local time. -/
structure Dates where
  parse : String → Option ℤ
  offset : ℤ → ℤ

namespace Dates

/-- Year and month of a day, counted from the first of 1970; January is 0. -/
def civil (day : ℤ) : ℤ × ℤ :=
  -- cycles of 400 years that start on the first of March
  let era := (day + 719468) / 146097
  let dayOfEra := (day + 719468) % 146097
  let yearOfEra := (dayOfEra - dayOfEra / 1460 + dayOfEra / 36524 - dayOfEra / 146096) / 365
  let dayOfYear := dayOfEra - (365 * yearOfEra + yearOfEra / 4 - yearOfEra / 100)
  let month := (5 * dayOfYear + 2) / 153
  if month < 10 then (400 * era + yearOfEra, month + 2) else (400 * era + yearOfEra + 1, month - 10)

example : [civil (-1), civil 0, civil 19782, civil 19783] = [(1969, 11), (1970, 0), (2024, 1), (2024, 2)] := by decide

variable (dates : Dates)

def yearMonth (t : ℤ) : ℤ × ℤ := civil ((t + dates.offset t) / 86400000)

/-- `new Date(text)`, as far as its year and month go; `none` is an invalid date, whose month is NaN. -/
def read (text : String) : Option (ℤ × ℤ) := (dates.parse text).map dates.yearMonth

end Dates

/-! ### The screen -/

/-- `res.data`, as far as it can hold transactions. -/
inductive TransactionsBody
  /-- null or undefined -/
  | nullish
  | array (list : List Transaction)
  /-- An object with this under `data`. -/
  | object (data : TransactionsBody)
  | other

/-- `a ?? b` -/
def TransactionsBody.orElse : TransactionsBody → TransactionsBody → TransactionsBody
  | nullish, b => b
  | a, _ => a

/-- `Array.isArray(data) ? data : []` of `data = res.data?.data ?? res.data ?? []` -/
def TransactionsBody.list (res : TransactionsBody) : List Transaction :=
  let data := match res with
    | object data => data
    | _ => nullish
  match (data.orElse res).orElse (array []) with
  | array list => list
  | _ => []

/-- `list.reduce((sum, t) => t.type === 'credit' ? sum + t.amount : sum - t.amount, 0)` -/
def ledgerTotal (list : List Transaction) : Double :=
  list.foldl (fun sum t => if t.type = .credit then sum.add t.amount else sum.sub t.amount) (.fin 0)

section
variable (dates : Dates) (now : ℤ)

/-- `new Date(t.created_at).getMonth() === thisMonth && t.type === 'credit'` -/
def ofThisMonth (t : Transaction) : Bool :=
  (dates.read t.created_at).map Prod.snd = some (dates.yearMonth now).2 && t.type = .credit

/-- `list.filter(...).reduce((sum, t) => sum + t.amount, 0)` -/
def ledgerMonthly (list : List Transaction) : Double :=
  (list.filter (ofThisMonth dates now)).foldl (fun sum t => sum.add t.amount) (.fin 0)

end

/-- The states of `SavingsScreen`, and its fetches. -/
structure SavingsScreen where
  transactions : List Transaction := []
  loading : Bool := true
  refreshing : Bool := false
  totalSavings : Double := .fin 0
  monthlyEarnings : Double := .fin 0
  /-- The calls of `fetchData` that await their response; the first is the one of the mount. -/
  fetches : ℕ := 1
  /-- When the last of them ended. -/
  endedAt : ℤ := 0

namespace SavingsScreen

/-- The `try` of `fetchData`, behind its `await`. -/
def succeed (dates : Dates) (s : SavingsScreen) (now : ℤ) (res : TransactionsBody) : SavingsScreen :=
  { s with
    transactions := res.list
    totalSavings := Double.max (.fin 0) (ledgerTotal res.list)
    monthlyEarnings := ledgerMonthly dates now res.list }

/-- Its `catch`. -/
def fail (s : SavingsScreen) : SavingsScreen := { s with transactions := [] }

/-- Its `finally`. -/
def settle (s : SavingsScreen) (now : ℤ) : SavingsScreen :=
  { s with loading := false, refreshing := false, fetches := s.fetches - 1, endedAt := now }

end SavingsScreen

inductive SavingsEvent
  /-- `onRefresh` -/
  | refresh
  /-- A response arrives. -/
  | respond (now : ℤ) (res : TransactionsBody)
  /-- A request fails. -/
  | reject (now : ℤ)

def savingsScreen (dates : Dates) : System SavingsScreen SavingsEvent where
  Init s := s = {}
  step s
    | .refresh => some { s with refreshing := true, fetches := s.fetches + 1 }
    | .respond now res => if 0 < s.fetches then some ((s.succeed dates now res).settle now) else none
    | .reject now => if 0 < s.fetches then some (s.fail.settle now) else none

/-! ### The summary and the ledger -/

def amountOf (list : List Transaction) : ℚ := (list.map fun t => t.amount.value).sum

section
variable (dates : Dates) (now : ℤ)

/-- A credit of the calendar month of `now`. -/
def EarnedThisMonth (t : Transaction) : Prop :=
  t.type = .credit ∧ dates.read t.created_at = some (dates.yearMonth now)

def EarnedOtherYear (t : Transaction) : Prop :=
  t.type = .credit ∧ ∃ date ∈ dates.read t.created_at, date.2 = (dates.yearMonth now).2 ∧
    date.1 ≠ (dates.yearMonth now).1

instance : DecidablePred (EarnedThisMonth dates now) := fun _ => inferInstanceAs (Decidable (_ ∧ _))

instance : DecidablePred (EarnedOtherYear dates now) := fun _ => inferInstanceAs (Decidable (_ ∧ _))

end

/-- The summary is that of the transactions displayed. -/
structure SummaryMatches (dates : Dates) (s : SavingsScreen) : Prop where
  totalSavings : s.totalSavings = .fin (max 0
    (amountOf (s.transactions.filter (·.type = .credit)) - amountOf (s.transactions.filter (·.type ≠ .credit))))
  monthlyEarnings : s.monthlyEarnings =
    .fin (amountOf (s.transactions.filter (EarnedThisMonth dates s.endedAt)))

/-- The sums of a ledger that arrives are exact in doubles. -/
def AddsExactly (dates : Dates) : SavingsScreen → SavingsEvent → Prop
  | _, .respond now res =>
    Double.AddsUp 0 (res.list.map fun t => if t.type = .credit then t.amount else t.amount.neg) ∧
      Double.AddsUp 0 ((res.list.filter (ofThisMonth dates now)).map (·.amount))
  | _, _ => True

/-- The credits of the month in other years cancel, and nothing is left of an old summary when a fetch fails. -/
def KeepsSummary (dates : Dates) (s : SavingsScreen) : SavingsEvent → Prop
  | .respond now res => amountOf (res.list.filter (EarnedOtherYear dates now)) = 0
  | .reject _ => s.totalSavings = .fin 0 ∧ s.monthlyEarnings = .fin 0
  | .refresh => True

/-! ### Sums of a ledger -/

theorem amountOf_signed (list : List Transaction) :
    (list.map fun t => (if t.type = .credit then t.amount else t.amount.neg).value).sum =
      amountOf (list.filter (·.type = .credit)) - amountOf (list.filter (·.type ≠ .credit)) := by
  unfold amountOf
  induction list with
  | nil => simp
  | cons t list ih =>
    by_cases ht : t.type = .credit
    · simp [ht] at ih ⊢
      linarith
    · simp [ht, Double.value_neg] at ih ⊢
      linarith

theorem ledgerTotal_eq {list : List Transaction}
    (h : Double.AddsUp 0 (list.map fun t => if t.type = .credit then t.amount else t.amount.neg)) :
    ledgerTotal list = .fin
      (amountOf (list.filter (·.type = .credit)) - amountOf (list.filter (·.type ≠ .credit))) := by
  have hstep : (fun (sum : Double) (t : Transaction) =>
      if t.type = .credit then sum.add t.amount else sum.sub t.amount) =
      fun sum t => sum.add (if t.type = .credit then t.amount else t.amount.neg) := by
    funext sum t
    split <;> rfl
  have hfold := Double.foldl_add h
  rw [List.foldl_map] at hfold
  rw [ledgerTotal, hstep, hfold, zero_add, List.map_map, ← amountOf_signed]
  rfl

section
variable {dates : Dates} {now : ℤ}

theorem ledgerMonthly_eq {list : List Transaction}
    (h : Double.AddsUp 0 ((list.filter (ofThisMonth dates now)).map (·.amount))) :
    ledgerMonthly dates now list = .fin (amountOf (list.filter (ofThisMonth dates now))) := by
  have hfold := Double.foldl_add h
  rw [List.foldl_map] at hfold
  rw [ledgerMonthly, hfold, zero_add, List.map_map]
  rfl

theorem ofThisMonth_iff (t : Transaction) :
    ofThisMonth dates now t = true ↔ EarnedThisMonth dates now t ∨ EarnedOtherYear dates now t := by
  unfold ofThisMonth EarnedThisMonth EarnedOtherYear
  cases hread : dates.read t.created_at with
  | none => simp
  | some date =>
    obtain ⟨year, month⟩ := date
    by_cases hyear : year = (dates.yearMonth now).1
    · simp [hyear, Prod.ext_iff, and_comm]
    · simp [hyear, Prod.ext_iff, and_comm]

theorem not_earnedOtherYear {t : Transaction} (h : EarnedThisMonth dates now t) : ¬ EarnedOtherYear dates now t := by
  rintro ⟨-, date, hdate, -, hyear⟩
  rw [h.2] at hdate
  obtain rfl := Option.some.inj hdate
  exact hyear rfl

theorem amountOf_ofThisMonth (list : List Transaction) :
    amountOf (list.filter (ofThisMonth dates now)) =
      amountOf (list.filter (EarnedThisMonth dates now)) + amountOf (list.filter (EarnedOtherYear dates now)) := by
  unfold amountOf
  induction list with
  | nil => simp
  | cons t list ih =>
    have hiff := @ofThisMonth_iff dates now t
    by_cases hthis : EarnedThisMonth dates now t
    · have hother := not_earnedOtherYear hthis
      simp only [List.filter_cons, hiff, hthis, hother, true_or, decide_true, decide_false, if_true, if_false,
        Bool.false_eq_true, List.map_cons, List.sum_cons, ih]
      ring
    · by_cases hother : EarnedOtherYear dates now t
      · simp only [List.filter_cons, hiff, hthis, hother, or_true, decide_true, decide_false, if_true, if_false,
          Bool.false_eq_true, List.map_cons, List.sum_cons, ih]
        ring
      · simp only [List.filter_cons, hiff, hthis, hother, or_false, decide_false, if_false, Bool.false_eq_true, ih]

theorem summaryMatches_respond {s : SavingsScreen} {res : TransactionsBody}
    (h : AddsExactly dates s (.respond now res)) :
    SummaryMatches dates ((s.succeed dates now res).settle now) ↔ KeepsSummary dates s (.respond now res) := by
  obtain ⟨htotal, hmonthly⟩ := h
  have hmonth : ((s.succeed dates now res).settle now).monthlyEarnings =
      .fin (amountOf (res.list.filter (EarnedThisMonth dates now)) +
        amountOf (res.list.filter (EarnedOtherYear dates now))) := by
    rw [← amountOf_ofThisMonth, ← ledgerMonthly_eq hmonthly]
    rfl
  constructor
  · intro hmatch
    have heq := hmonth.symm.trans hmatch.monthlyEarnings
    have hsum := Double.fin.inj heq
    exact add_eq_left.mp hsum
  · intro hother
    refine ⟨?_, ?_⟩
    · show Double.max (.fin 0) (ledgerTotal res.list) = _
      rw [ledgerTotal_eq htotal]
      rfl
    · rw [hmonth, show amountOf _ = 0 from hother, add_zero]
      rfl

theorem summaryMatches_step {s s' : SavingsScreen} {e : SavingsEvent} (hs : SummaryMatches dates s)
    (he : AddsExactly dates s e) (hstep : (savingsScreen dates).step s e = some s') :
    SummaryMatches dates s' ↔ KeepsSummary dates s e := by
  cases e with
  | refresh =>
    obtain rfl := Option.some.inj hstep
    exact ⟨fun _ => trivial, fun _ => ⟨hs.totalSavings, hs.monthlyEarnings⟩⟩
  | respond now res =>
    simp only [savingsScreen] at hstep
    split at hstep
    · obtain rfl := Option.some.inj hstep
      exact summaryMatches_respond he
    · cases hstep
  | reject now =>
    simp only [savingsScreen] at hstep
    split at hstep
    · obtain rfl := Option.some.inj hstep
      -- nothing is displayed, so both sums have to be zero
      constructor
      · intro hmatch
        exact ⟨by simpa [amountOf, SavingsScreen.fail, SavingsScreen.settle] using hmatch.totalSavings,
          by simpa [amountOf, SavingsScreen.fail, SavingsScreen.settle] using hmatch.monthlyEarnings⟩
      · rintro ⟨htotal, hmonthly⟩
        exact ⟨by simpa [amountOf, SavingsScreen.fail, SavingsScreen.settle] using htotal,
          by simpa [amountOf, SavingsScreen.fail, SavingsScreen.settle] using hmonthly⟩
    · cases hstep

end

/-- **The summary matches the ledger** in every state of a run whose ledgers add up without rounding if and only if
the credits of the month in other years cancel in every ledger that arrives, and a fetch only fails while both sums
are zero. -/
theorem savings_match_iff (dates : Dates) {s₀ s : SavingsScreen} {tr : List SavingsEvent}
    (h₀ : (savingsScreen dates).Init s₀) (h : (savingsScreen dates).Run (AddsExactly dates) s₀ tr s) :
    (savingsScreen dates).Throughout (SummaryMatches dates) s₀ tr ↔
      (savingsScreen dates).Run (KeepsSummary dates) s₀ tr s := by
  obtain rfl : s₀ = {} := h₀
  have hinit : SummaryMatches dates {} := ⟨by simp [amountOf], by simp [amountOf]⟩
  exact h.throughout_iff (fun _ => True) (SummaryMatches dates) trivial hinit (fun _ _ _ _ _ => trivial)
    fun _ _ _ _ hs he hstep => summaryMatches_step hs he hstep

/-! ### Two Januaries -/

def utcDates : Dates where
  parse text := [("2025-01-15T10:00:00.000Z", 1736935200000), ("2026-01-15T10:00:00.000Z", 1768471200000)].lookup text
  offset _ := 0

def january : ℤ := 1768910400000

def credit (amount : ℚ) (created_at : String) : Transaction := ⟨.credit, .fin amount, created_at⟩

/-- `{ success: true, data: [...] }` -/
def savingsResponse (list : List Transaction) : SavingsEvent := .respond january (.object (.array list))

/-- The screen once the first response is there. -/
def showing (list : List Transaction) : SavingsScreen :=
  (SavingsScreen.succeed utcDates {} january (.object (.array list))).settle january

theorem showing_run {C : SavingsScreen → SavingsEvent → Prop} {list : List Transaction}
    (h : C {} (savingsResponse list)) : (savingsScreen utcDates).Run C {} [savingsResponse list] (showing list) :=
  .single h rfl

theorem addsExactly_single {c : ℤ} (hc : |c| < 2 ^ 53) (created_at : String) (s : SavingsScreen) :
    AddsExactly utcDates s (savingsResponse [credit c created_at]) := by
  have hsum : Double.AddsUp 0 [.fin (c : ℚ)] := by
    refine ⟨?_, trivial⟩
    rw [zero_add]
    exact Double.ofRat_intCast hc
  refine ⟨hsum, ?_⟩
  show Double.AddsUp 0 (([credit c created_at].filter _).map _)
  rw [List.filter_cons]
  split
  · exact hsum
  · trivial

/-- A credit of this month arrives. -/
theorem savings_match_iff_credit :
    (savingsScreen utcDates).Throughout (SummaryMatches utcDates) {}
      [savingsResponse [credit (100 : ℤ) "2026-01-15T10:00:00.000Z"]] := by
  have hexact := addsExactly_single (c := 100) (by norm_num) "2026-01-15T10:00:00.000Z" {}
  have hother : ¬ EarnedOtherYear utcDates january (credit (100 : ℤ) "2026-01-15T10:00:00.000Z") :=
    not_earnedOtherYear ⟨rfl, by decide⟩
  have hkeeps : KeepsSummary utcDates {} (savingsResponse [credit (100 : ℤ) "2026-01-15T10:00:00.000Z"]) := by
    show amountOf (List.filter _ [_]) = 0
    rw [List.filter_cons_of_neg (by simpa using hother)]
    rfl
  exact (savings_match_iff utcDates rfl (showing_run hexact)).mpr (showing_run hkeeps)

/-- **The balance of nothing**: a refresh fails, the list is empty, and the balance is still 100. -/
theorem balance_of_nothing :
    ¬ ∀ tr s, (savingsScreen utcDates).Run (AddsExactly utcDates) {} tr s → SummaryMatches utcDates s := by
  intro hclaim
  have hfirst := showing_run (addsExactly_single (c := 100) (by norm_num) "2026-01-15T10:00:00.000Z" {})
  have hrun := (hfirst.snoc (e := SavingsEvent.refresh) trivial rfl).snoc (e := SavingsEvent.reject january) trivial rfl
  -- the balance of the ledger is left where it was
  have hbefore := (hclaim _ _ hfirst).totalSavings
  have hafter := (hclaim _ _ hrun).totalSavings
  have hsame := hbefore.symm.trans hafter
  norm_num [amountOf, showing, SavingsScreen.succeed, SavingsScreen.settle, SavingsScreen.fail, credit,
    TransactionsBody.list, TransactionsBody.orElse, Double.value] at hsame

/-- **A January a year ago** counts as earned this month. -/
theorem january_a_year_ago :
    ¬ ∀ tr s, (savingsScreen utcDates).Run (AddsExactly utcDates) {} tr s → SummaryMatches utcDates s := by
  intro hclaim
  have hexact := addsExactly_single (c := 100) (by norm_num) "2025-01-15T10:00:00.000Z" {}
  have hother : amountOf (List.filter _ [_]) = 0 :=
    (summaryMatches_respond hexact).mp (hclaim _ _ (showing_run hexact))
  rw [List.filter_cons_of_pos (by decide)] at hother
  norm_num [amountOf, credit, Double.value] at hother

/-- **A dollar is lost** to rounding in a ledger that does not add up. -/
theorem dollar_lost :
    ¬ ∀ tr s, (savingsScreen utcDates).Run (KeepsSummary utcDates) {} tr s → SummaryMatches utcDates s := by
  intro hclaim
  have hkeeps : KeepsSummary utcDates {} (savingsResponse [credit (2 ^ 53 - 1 : ℤ) "", credit (2 : ℤ) ""]) := by
    show amountOf (List.filter _ [_, _]) = 0
    rw [List.filter_cons_of_neg (by decide), List.filter_cons_of_neg (by decide)]
    rfl
  have hexact := (hclaim _ _ (showing_run hkeeps)).totalSavings
  have hfirst : Double.add (.fin 0) (.fin ((2 ^ 53 - 1 : ℤ) : ℚ)) = .fin ((2 ^ 53 - 1 : ℤ) : ℚ) := by
    show Double.ofRat (0 + _) = _
    rw [zero_add]
    exact Double.ofRat_intCast (by norm_num)
  have hsecond : Double.add (.fin ((2 ^ 53 - 1 : ℤ) : ℚ)) (.fin ((2 : ℤ) : ℚ)) = .fin (2 ^ 53) := by
    rw [← Double.ofRat_tie]
    show Double.ofRat _ = _
    norm_num
  have hrounded : (showing [credit (2 ^ 53 - 1 : ℤ) "", credit (2 : ℤ) ""]).totalSavings = .fin (max 0 (2 ^ 53)) := by
    have htotal : ledgerTotal [credit (2 ^ 53 - 1 : ℤ) "", credit (2 : ℤ) ""] = .fin (2 ^ 53) := by
      rw [← hsecond, ← hfirst]
      rfl
    show Double.max (.fin 0) (ledgerTotal [_, _]) = _
    rw [htotal]
    rfl
  have hsame := hrounded.symm.trans hexact
  norm_num [amountOf, showing, SavingsScreen.succeed, SavingsScreen.settle, credit, TransactionsBody.list,
    TransactionsBody.orElse, Double.value] at hsame

end Locus.App
