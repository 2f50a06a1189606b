import Locus.Lib.Binary64
import Locus.Server.ListCache

/-!
# The rent on the Home screen and on the map

A price is a DECIMAL(10,2) in dollars, which node-postgres delivers as a text. `GET /properties/map` turns it into
cents, `GET /properties` sends the text. The Home screen's `PropertyCard` multiplies numbers by 100 on the way to
`formatCents`, but hands a text on as it is, whose dollars are then read as cents; the map's `PropertyPin` hands the
cents on. So both show the same rent exactly for the prices null and `0.00` (`same_rent_iff`).

In doubles the map's amount is the price in cents, without an error (`rentCents_cents`), and the card's amount is the
double nearest to the dollars.
-/

namespace Locus.App

open Lib Server
open Lib.Binary64 (Double nearest)

/-! ### Prices -/

/-- What a DECIMAL(10,2) holds: NULL, `NaN`, or cents of at most ten digits. -/
inductive Decimal
  | null
  | nan
  | cents (c : ℤ) (hc : |c| < 10 ^ 10)

def centsText (c : ℤ) : String :=
  (if c < 0 then "-" else "") ++ (c.natAbs / 100).repr ++ "." ++
    String.ofList [Nat.digitChar (c.natAbs / 10 % 10), Nat.digitChar (c.natAbs % 10)]

/-- What node-postgres delivers for the column: a text, or null. -/
def Decimal.text : Decimal → Option String
  | null => none
  | nan => some "NaN"
  | cents c _ => some (centsText c)

example : [centsText 120000, centsText (-5), centsText 0] = ["1200.00", "-0.05", "0.00"] := by decide

/-- `Number(text)` of a decimal; anything else is no number. -/
def toNumber (text : String) : Double :=
  match readDecimal text with
  | some x => Double.ofRat x
  | none => .nan

/-- `Math.round(v)` -/
def mathRound : Double → JsInt
  | .nan => .nan
  | .inf negative => if negative then .negInf else .inf
  | .fin x => .int ⌊x + 1 / 2⌋

/-- `Math.round(Number(row.price || 0) * 100)` -/
def rentCents (price : Option String) : JsInt :=
  mathRound ((match price.filter (· ≠ "") with
    | some text => toNumber text
    | none => .fin 0).mul (.fin 100))

/-- The services, with the arithmetic of the map route. -/
def withRent (svc : Services) : Services := { svc with cents := fun price => printInt (rentCents price) }

/-! ### The two screens -/

/-- A value of a row as the app reads it: numerics arrive as texts, integers and floats as numbers. -/
inductive Scalar
  | number (x : Double)
  | text (s : String)

/-- The number that `formatCents` divides by 100. -/
def Scalar.cents : Scalar → Double
  | number x => x
  | text s => toNumber s

/-- What `PropertyCard` reads of a property; `none` is null or undefined. -/
structure Property where
  price : Option Scalar
  estimatedValueCents : Option Scalar

/-- A row of `GET /properties` as the app reads it: it has no `estimated_value_cents`. -/
def readProperty (row : PropertyRow) : Property := ⟨row.price.map .text, none⟩

/-- What `PropertyCard` passes to `formatCents`: `typeof price === 'number' ? price * 100 : price ?? 0` of
`price = property.price ?? property.estimated_value_cents`. -/
def propertyCard (property : Property) : Scalar :=
  match property.price.orElse fun _ => property.estimatedValueCents with
  | some (.number x) => .number (x.mul (.fin 100))
  | some (.text s) => .text s
  | none => .number (.fin 0)

/-- A number of a response as the app reads it: JSON has null for what is not finite. -/
def readJsonNumber (text : String) : Option Double :=
  if text = "NaN" ∨ text = "Infinity" ∨ text = "-Infinity" then none else some (toNumber text)

/-- What `PropertyPin` passes to `formatCents`: `pin.rent_cents_per_month ?? 0`. -/
def propertyPin (pin : Pin) : Double := (readJsonNumber pin.rentCentsPerMonth).getD (.fin 0)

/-! ### Texts of numbers -/

theorem readDigits_eq {digits : List Char} (h : ∀ c ∈ digits, c.isDigit = true) (n : ℕ) :
    readDigits n digits = some (Nat.ofDigitChars 10 digits n) := by
  induction digits generalizing n with
  | nil => rfl
  | cons c digits ih =>
    unfold readDigits at ih ⊢
    rw [List.foldl_cons, Option.bind_some, if_pos (h c List.mem_cons_self),
      ih (fun d hd => h d (List.mem_cons_of_mem _ hd)), Nat.ofDigitChars_cons]
    rfl

theorem readDecimal_digits {text : String} {negative : Bool} {whole fraction rest : List Char}
    (htext : text.toList = (if negative then ['-'] else []) ++ (whole ++ rest))
    (hrest : (rest = [] ∧ fraction = []) ∨ rest = '.' :: fraction)
    (hwhole : ∀ c ∈ whole, c.isDigit = true) (hne : whole ≠ []) (hfraction : ∀ c ∈ fraction, c.isDigit = true) :
    readDecimal text = some ((((if negative then -1 else 1) *
      (Nat.ofDigitChars 10 fraction (Nat.ofDigitChars 10 whole 0) : ℤ) : ℤ) : ℚ) / (10 ^ fraction.length : ℕ)) := by
  have hpoint : ∀ c ∈ whole, decide (c ≠ '.') = true := by
    intro c hc
    refine decide_eq_true ?_
    rintro rfl
    exact absurd (hwhole _ hc) (by decide)
  have htake : (whole ++ rest).takeWhile (· ≠ '.') = whole := by
    rw [List.takeWhile_append_of_pos hpoint]
    rcases hrest with ⟨rfl, -⟩ | rfl <;> simp
  have hdrop : ((whole ++ rest).dropWhile (· ≠ '.')).tail = fraction := by
    rw [List.dropWhile_append_of_pos hpoint]
    rcases hrest with ⟨rfl, rfl⟩ | rfl <;> simp
  unfold readDecimal
  split
  rename_i sign digits hsplit
  obtain ⟨rfl, rfl⟩ : (if negative then -1 else 1 : ℤ) = sign ∧ whole ++ rest = digits := by
    rw [htext] at hsplit
    cases negative with
    | true => exact Prod.mk.inj hsplit
    | false =>
      cases whole with
      | nil => exact absurd rfl hne
      | cons d whole =>
        split at hsplit
        · rename_i hcons
          have hd : d = '-' := (List.cons.inj hcons).1
          exact absurd (hwhole d List.mem_cons_self) (hd ▸ by decide)
        · exact Prod.mk.inj hsplit
  dsimp only
  rw [htake, hdrop, if_neg hne, readDigits_eq hwhole, Option.bind_eq_bind, Option.bind_some, readDigits_eq hfraction]
  rfl

theorem repr_ne_nil (n : ℕ) : n.repr.toList ≠ [] := by
  rw [Nat.toList_repr]
  exact Nat.toDigits_ne_nil

theorem ofDigitChars_repr (n : ℕ) : Nat.ofDigitChars 10 n.repr.toList 0 = n := by
  rw [Nat.toList_repr, Nat.ofDigitChars_ten_toDigits]

theorem readDecimal_repr (n : ℤ) : readDecimal n.repr = some (n : ℚ) := by
  have hread : ∀ (negative : Bool) (m : ℕ), n.repr.toList = (if negative then ['-'] else []) ++ m.repr.toList →
      readDecimal n.repr = some (((if negative then -1 else 1) * (m : ℤ) : ℤ) : ℚ) := by
    intro negative m htext
    have htext' : n.repr.toList = (if negative then ['-'] else []) ++ (m.repr.toList ++ []) := by
      rw [htext, List.append_nil]
    rw [readDecimal_digits htext' (.inl ⟨rfl, rfl⟩) (repr_digits m) (repr_ne_nil m) (fun c hc => (nomatch hc)),
      ofDigitChars_repr]
    simp
  obtain ⟨hn, htext⟩ | ⟨hn, htext⟩ := repr_int_cases n
  · have hnat : ((n.toNat : ℕ) : ℤ) = n := by omega
    rw [hread false _ htext, if_neg Bool.false_ne_true, one_mul, hnat]
  · have hnat : (-1 : ℤ) * ((-n).toNat : ℕ) = n := by omega
    rw [hread true _ htext, if_pos rfl, hnat]

theorem readDecimal_centsText (c : ℤ) : readDecimal (centsText c) = some (c / 100 : ℚ) := by
  have hdigit : ∀ n < 10, (Nat.digitChar n).isDigit = true := by decide
  have htext : (centsText c).toList = (if decide (c < 0) then ['-'] else []) ++ ((c.natAbs / 100).repr.toList ++
      '.' :: [Nat.digitChar (c.natAbs / 10 % 10), Nat.digitChar (c.natAbs % 10)]) := by
    have hminus : (if c < 0 then "-" else "").toList = if decide (c < 0) then ['-'] else [] := by
      by_cases hc : c < 0 <;> simp [hc]
    have hpoint : ".".toList = ['.'] := rfl
    unfold centsText
    simp only [String.toList_append, hminus, hpoint, String.toList_ofList, List.append_assoc, List.cons_append,
      List.nil_append]
  rw [readDecimal_digits htext (.inr rfl) (repr_digits _) (repr_ne_nil _) ?_, ofDigitChars_repr,
    Nat.ofDigitChars_cons_digitChar_of_lt_ten (by omega), Nat.ofDigitChars_cons_digitChar_of_lt_ten (by omega),
    Nat.ofDigitChars_nil]
  · have hcents : ((if decide (c < 0) = true then -1 else 1) *
        ((10 * (10 * (c.natAbs / 100) + c.natAbs / 10 % 10) + c.natAbs % 10 : ℕ) : ℤ) : ℤ) = c := by
      have hnat : 10 * (10 * (c.natAbs / 100) + c.natAbs / 10 % 10) + c.natAbs % 10 = c.natAbs := by omega
      rw [hnat]
      simp only [decide_eq_true_eq]
      split <;> omega
    rw [hcents]
    norm_num
  · intro d hd
    simp only [List.mem_cons, List.not_mem_nil, or_false] at hd
    rcases hd with rfl | rfl <;> exact hdigit _ (by omega)

/-! ### The two amounts -/

theorem toNumber_repr {n : ℤ} (hn : |n| < 10 ^ 10) : toNumber n.repr = .fin n := by
  have hnormal : Binary64.Normal (n : ℚ) := by
    simpa using Binary64.normal_intCast_div (c := n) (n := 1) (by norm_num) (by norm_num)
  have hcast : |(n : ℚ)| < 10 ^ 10 := by exact_mod_cast hn
  unfold toNumber
  rw [readDecimal_repr]
  dsimp only
  rw [Double.ofRat_eq hnormal (by linarith), Binary64.nearest_intCast (by omega)]

theorem toNumber_centsText {c : ℤ} (hc : |c| < 10 ^ 10) : toNumber (centsText c) = .fin (nearest (c / 100)) := by
  have hnormal : Binary64.Normal (c / 100 : ℚ) := by
    simpa using Binary64.normal_intCast_div (c := c) (n := 100) (by norm_num) (by norm_num)
  have hcast : |(c : ℚ)| < 10 ^ 10 := by exact_mod_cast hc
  have hsmall : |(c / 100 : ℚ)| ≤ 2 ^ 100 := by
    rw [abs_div, abs_of_pos (by norm_num : (0 : ℚ) < 100)]
    linarith [abs_nonneg (c : ℚ)]
  unfold toNumber
  rw [readDecimal_centsText]
  dsimp only
  rw [Double.ofRat_eq hnormal hsmall]

/-- **The map route computes the cents of a price without an error.** -/
theorem rentCents_cents {c : ℤ} (hc : |c| < 10 ^ 10) : rentCents (some (centsText c)) = .int c := by
  have hsmall : |c| ≤ 2 ^ 50 := by omega
  have hnonempty : centsText c ≠ "" := by
    intro hempty
    have hread := readDecimal_centsText c
    rw [hempty] at hread
    cases hread
  obtain ⟨hnormal, hbound⟩ := Binary64.scaled_bounds (n := 100) (by norm_num) (by norm_num) hsmall
  have hscaled := Binary64.nearest_scaled (n := 100) (by norm_num) (by norm_num) hsmall
  rw [Nat.cast_ofNat] at hnormal hbound hscaled
  unfold rentCents
  rw [Option.filter_some, if_pos (by simpa using hnonempty)]
  dsimp only
  rw [toNumber_centsText hc]
  show mathRound (Double.ofRat (nearest (c / 100) * 100)) = .int c
  rw [Double.ofRat_eq hnormal (by linarith), mathRound, hscaled]

theorem readJsonNumber_repr {n : ℤ} (hn : |n| < 10 ^ 10) : readJsonNumber n.repr = some (.fin n) := by
  have hword : ∀ word, readDecimal word = none → n.repr ≠ word := by
    rintro word hword rfl
    rw [readDecimal_repr] at hword
    cases hword
  unfold readJsonNumber
  rw [if_neg, toNumber_repr hn]
  simp [hword "NaN" (by decide +kernel), hword "Infinity" (by decide +kernel), hword "-Infinity" (by decide +kernel)]

/-- The map shows the cents of a price, and 0 for none. -/
def Decimal.mapAmount : Decimal → Double
  | cents c _ => .fin c
  | _ => .fin 0

/-- The card shows the dollars of a price, and 0 for null. -/
def Decimal.cardAmount : Decimal → Double
  | null => .fin 0
  | nan => .nan
  | cents c _ => .fin (nearest (c / 100))

theorem propertyPin_eq {svc : Services} {row : PropertyRow} {price : Decimal} (h : row.price = price.text) :
    propertyPin (pinOf (withRent svc) row) = price.mapAmount := by
  show (readJsonNumber (printInt (rentCents row.price))).getD (.fin 0) = _
  rw [h]
  cases price with
  | null => decide +kernel
  | nan => decide +kernel
  | cents c hc =>
    show (readJsonNumber (printInt (rentCents (some (centsText c))))).getD (.fin 0) = _
    rw [rentCents_cents hc]
    show (readJsonNumber c.repr).getD (.fin 0) = _
    rw [readJsonNumber_repr hc]
    rfl

theorem propertyCard_eq {row : PropertyRow} {price : Decimal} (h : row.price = price.text) :
    (propertyCard (readProperty row)).cents = price.cardAmount := by
  unfold readProperty
  rw [h]
  cases price with
  | null => rfl
  | nan => decide +kernel
  | cents c hc => exact toNumber_centsText hc

theorem centsText_eq_zero_iff {c : ℤ} : centsText c = "0.00" ↔ c = 0 := by
  constructor
  · intro htext
    have hread := readDecimal_centsText c
    have hzero : readDecimal "0.00" = some 0 := by decide +kernel
    rw [htext, hzero] at hread
    have hquotient : (c : ℚ) / 100 = 0 := (Option.some.inj hread).symm
    exact_mod_cast (div_eq_zero_iff.mp hquotient).resolve_right (by norm_num)
  · rintro rfl
    decide

theorem nearest_eq_cents_iff {c : ℤ} : nearest (c / 100) = c ↔ c = 0 := by
  constructor
  · intro heq
    have herror := Binary64.scaled_error (c := c) (n := 100) (by norm_num) (by norm_num)
    rw [Nat.cast_ofNat, heq] at herror
    have hdiff : (c : ℚ) * 100 - c = 99 * c := by ring
    rw [hdiff, abs_mul, abs_of_pos (by norm_num : (0 : ℚ) < 99)] at herror
    have hzero : |(c : ℚ)| = 0 := le_antisymm (by linarith [abs_nonneg (c : ℚ)]) (abs_nonneg _)
    exact_mod_cast abs_eq_zero.mp hzero
  · rintro rfl
    rw [Int.cast_zero, zero_div, Binary64.nearest_zero]

/-- **The two amounts are equal for null and for zero only.** -/
theorem cardAmount_eq_mapAmount_iff (price : Decimal) :
    price.cardAmount = price.mapAmount ↔ price.text = none ∨ price.text = some "0.00" := by
  cases price with
  | null => simp [Decimal.cardAmount, Decimal.mapAmount, Decimal.text]
  | nan => simp [Decimal.cardAmount, Decimal.mapAmount, Decimal.text]
  | cents c hc =>
    simp only [Decimal.cardAmount, Decimal.mapAmount, Decimal.text, Double.fin.injEq, reduceCtorEq, Option.some.injEq,
      false_or]
    rw [nearest_eq_cents_iff, centsText_eq_zero_iff]

/-! ### The two responses -/

/-- The properties of a response of `GET /properties`. -/
def homeProperties : Body → List PropertyRow
  | .propertyPage page => page.data
  | _ => []

/-- The pins of a response of `GET /properties/map`. -/
def mapPins : Body → List Pin
  | .pins pins => pins
  | _ => []

section
variable {svc : Services} {s : ServerState} {q q' : ListQuery} {env env' : NodeEnv} {x x' : ℕ → Tick}

theorem mem_homeProperties {row : PropertyRow}
    (h : row ∈ homeProperties (serve svc s (.getProperties q) env x).1.body) : row ∈ s.db.properties := by
  let OfTable : Response × Db × Cache → Prop := fun out => ∀ row ∈ homeProperties out.1.body, row ∈ s.db.properties
  suffices hall : OfTable (((ApiRequest.getProperties q).handler svc env).run (exec svc) x s.db s.cache) from hall row h
  dsimp only [ApiRequest.handler, getProperties]
  split
  · refine catch500_list (P := OfTable) rfl rfl (fun total rows _ hrows row hrow => ?_) fun _ _ hrow => nomatch hrow
    obtain ⟨near, hnear, hpage⟩ := bind_eq_ok.mp (ok_of_map hrows)
    exact (selectNearby_sublist hnear).mem (mem_pageOf hpage row hrow)
  · refine catch500_list (P := OfTable) rfl rfl (fun total rows _ hrows row hrow => ?_) fun _ _ hrow => nomatch hrow
    exact mem_pageOf (ok_of_map hrows) row hrow

theorem mem_mapPins {pin : Pin} (h : pin ∈ mapPins (serve svc s (.getPropertiesMap q) env x).1.body) :
    ∃ row ∈ s.db.properties, pin = pinOf svc row := by
  let OfTable : Response × Db × Cache → List (Prog.Call Stmt Answer Thrown) → Prop :=
    fun out _ => ∀ pin ∈ mapPins out.1.body, ∃ row ∈ s.db.properties, pin = pinOf svc row
  suffices hall : OfTable (((ApiRequest.getPropertiesMap q).handler svc env).run (exec svc) x s.db s.cache) [] from
    hall pin h
  dsimp only [ApiRequest.handler, getPropertiesMap]
  split
  · exact fun pin hpin => nomatch hpin
  · refine catch500_run (P := OfTable) (fun rows db hrows pin hpin => ?_) fun e _ pin hpin => nomatch hpin
    obtain ⟨near, hnear, hpage⟩ := bind_eq_ok.mp (ok_of_map hrows)
    obtain ⟨row, hrow, rfl⟩ := List.mem_map.mp hpin
    exact ⟨row, (selectNearby_sublist hnear).mem (mem_pageOf hpage row hrow), rfl⟩

/-- **The Home screen and the map show one rent exactly for the prices null and `0.00`.** -/
theorem same_rent_iff (hids : (s.db.properties.map (·.id)).Nodup) {row : PropertyRow} {pin : Pin}
    (hrow : row ∈ homeProperties (serve (withRent svc) s (.getProperties q) env x).1.body)
    (hpin : pin ∈ mapPins (serve (withRent svc) s (.getPropertiesMap q') env' x').1.body) (hid : pin.id = row.id)
    {price : Decimal} (hprice : row.price = price.text) :
    (propertyCard (readProperty row)).cents = propertyPin pin ↔ row.price = none ∨ row.price = some "0.00" := by
  obtain ⟨row', hrow', rfl⟩ := mem_mapPins hpin
  obtain rfl : row' = row := List.inj_on_of_nodup_map hids hrow' (mem_homeProperties hrow) hid
  rw [propertyCard_eq hprice, propertyPin_eq hprice, cardAmount_eq_mapAmount_iff, hprice]

end

/-! ### A loft -/

def loftAt (price : Decimal) : ServerState where
  db := { properties := [{ id := 1, ownerId := 1, title := "Loft", type := none, address := none, price := price.text,
                           description := none, location := some (.obj [("lat", .num "1"), ("lng", .num "2")]),
                           photos := .arr [], status := "active", createdAt := 0 }] }

def aroundLoft : ListQuery := { lat := some "1", lng := some "2", radius := some "5" }

def loftOnHome (price : Decimal) : List PropertyRow :=
  let out := serve (withRent plainServices) (loftAt price) (.getProperties aroundLoft) ⟨0, "", 0⟩ fun _ => {}
  homeProperties out.1.body

def loftOnMap (price : Decimal) : List Pin :=
  let out := serve (withRent plainServices) (loftAt price) (.getPropertiesMap aroundLoft) ⟨0, "", 0⟩ fun _ => {}
  mapPins out.1.body

theorem loft_shown {price : Decimal} (hhome : (loftOnHome price).map (·.id) = [1])
    (hmap : (loftOnMap price).map (·.id) = [1]) :
    ∃ row ∈ loftOnHome price, ∃ pin ∈ loftOnMap price, pin.id = row.id ∧ row.price = price.text := by
  obtain ⟨row, hrow, hid⟩ := List.mem_map.mp (hhome ▸ List.mem_singleton.mpr rfl)
  obtain ⟨pin, hpin, hid'⟩ := List.mem_map.mp (hmap ▸ List.mem_singleton.mpr rfl)
  have htable : row ∈ (loftAt price).db.properties := mem_homeProperties hrow
  refine ⟨row, hrow, pin, hpin, hid'.trans hid.symm, ?_⟩
  rw [List.mem_singleton.mp htable]

def free : Decimal := .cents 0 (by decide)

def twelveHundred : Decimal := .cents 120000 (by decide)

/-- A free loft is free on both screens. -/
theorem same_rent_iff_free : ∃ row ∈ loftOnHome free, ∃ pin ∈ loftOnMap free,
    (propertyCard (readProperty row)).cents = propertyPin pin := by
  have hhome : (loftOnHome free).map (·.id) = [1] := by decide +kernel
  have hmap : (loftOnMap free).map (·.id) = [1] := by decide +kernel
  have hids : ((loftAt free).db.properties.map (·.id)).Nodup := List.nodup_singleton 1
  obtain ⟨row, hrow, pin, hpin, hid, hprice⟩ := loft_shown hhome hmap
  refine ⟨row, hrow, pin, hpin, (same_rent_iff hids hrow hpin hid hprice).mpr (.inr ?_)⟩
  rw [hprice]
  decide

/-- **A loft for 1200 dollars is shown for 12 dollars on the Home screen.** -/
theorem twelve_dollars : ¬ ∀ row ∈ loftOnHome twelveHundred, ∀ pin ∈ loftOnMap twelveHundred, pin.id = row.id →
    (propertyCard (readProperty row)).cents = propertyPin pin := by
  intro hclaim
  have hhome : (loftOnHome twelveHundred).map (·.id) = [1] := by decide +kernel
  have hmap : (loftOnMap twelveHundred).map (·.id) = [1] := by decide +kernel
  obtain ⟨row, hrow, pin, hpin, hid, hprice⟩ := loft_shown hhome hmap
  have hsame := hclaim row hrow pin hpin hid
  obtain ⟨row', hrow', rfl⟩ := mem_mapPins hpin
  have htable : row ∈ (loftAt twelveHundred).db.properties := mem_homeProperties hrow
  obtain rfl : row' = row := (List.mem_singleton.mp hrow').trans (List.mem_singleton.mp htable).symm
  rw [propertyCard_eq hprice, propertyPin_eq hprice, cardAmount_eq_mapAmount_iff] at hsame
  revert hsame
  decide

end Locus.App
