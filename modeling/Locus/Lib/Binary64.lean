import Mathlib.Algebra.Order.Field.Power
import Mathlib.Data.Int.Log
import Mathlib.Data.Rat.Floor
import Mathlib.Tactic.FieldSimp
import Mathlib.Tactic.Linarith
import Mathlib.Tactic.NormNum
import Mathlib.Tactic.Positivity
import Mathlib.Tactic.Ring

/-!
# Binary64 numbers by their values

A double is a rational number, an infinity or NaN; the two zeros are one. A rational number is rounded to the nearest
multiple of its `ulp`, ties to even (`nearest`), with a relative error of at most `2 ^ (-53)` from the least normal
number on (`nearest_error`). Small integers are exact (`nearest_intCast`), and an integer that is divided by `n`,
rounded, multiplied by `n` and rounded again is still the nearest integer (`nearest_scaled`). A sum whose partial sums
are doubles is exact (`Double.foldl_add`).
-/

namespace Locus.Lib.Binary64

/-! ### Rounding -/

/-- The nearest integer, ties to even; `round` takes the greater one. -/
def roundEven (x : ℚ) : ℤ := if Int.fract x = 1 / 2 ∧ round x % 2 = 1 then round x - 1 else round x

/-- The distance of the doubles around `x`. -/
def ulp (x : ℚ) : ℚ := 2 ^ max (Int.log 2 |x| - 52) (-1074)

/-- The nearest double, its range aside. -/
def nearest (x : ℚ) : ℚ := roundEven (x / ulp x) * ulp x

/-- Zero, or at least the least normal double. -/
def Normal (x : ℚ) : Prop := x = 0 ∨ (2 : ℚ) ^ (-1022 : ℤ) ≤ |x|

theorem roundEven_error (x : ℚ) : |(roundEven x : ℚ) - x| ≤ 1 / 2 := by
  unfold roundEven
  split
  · rename_i htie
    have hround : (round x : ℚ) = x + 1 / 2 := by
      have hx : x + 1 / 2 = (⌊x⌋ + 1 : ℤ) := by
        push_cast
        linarith [Int.floor_add_fract x, htie.1]
      rw [round_eq, hx, Int.floor_intCast]
    have hbelow : x + 1 / 2 - 1 - x = -(1 / 2) := by ring
    push_cast
    rw [hround, hbelow, abs_neg]
    norm_num
  · rw [abs_sub_comm]
    exact abs_sub_round x

theorem roundEven_intCast (n : ℤ) : roundEven n = n := by
  unfold roundEven
  rw [round_intCast, if_neg]
  rintro ⟨htie, -⟩
  rw [Int.fract_intCast] at htie
  norm_num at htie

theorem ulp_pos (x : ℚ) : 0 < ulp x := zpow_pos (by norm_num) _

theorem nearest_zero : nearest 0 = 0 := by
  have h : roundEven 0 = 0 := roundEven_intCast 0
  unfold nearest
  rw [zero_div, h, Int.cast_zero, zero_mul]

theorem nearest_error_ulp (x : ℚ) : |nearest x - x| ≤ ulp x / 2 := by
  have hulp := ulp_pos x
  calc |nearest x - x| = |(roundEven (x / ulp x) : ℚ) - x / ulp x| * ulp x := by
        rw [← abs_of_pos hulp, ← abs_mul, abs_of_pos hulp, sub_mul, div_mul_cancel₀ x hulp.ne']
        rfl
    _ ≤ 1 / 2 * ulp x := mul_le_mul_of_nonneg_right (roundEven_error _) hulp.le
    _ = ulp x / 2 := by ring

theorem ulp_le {x : ℚ} (hx : (2 : ℚ) ^ (-1022 : ℤ) ≤ |x|) : ulp x ≤ |x| / 2 ^ 52 := by
  have hpos : 0 < |x| := lt_of_lt_of_le (zpow_pos (by norm_num) _) hx
  have hlog : (2 : ℚ) ^ Int.log 2 |x| ≤ |x| := by exact_mod_cast Int.zpow_log_le_self (b := 2) (by norm_num) hpos
  have hexponent : (-1022 : ℤ) ≤ Int.log 2 |x| :=
    (Int.zpow_le_iff_le_log (b := 2) (by norm_num) hpos).mp (by exact_mod_cast hx)
  unfold ulp
  rw [max_eq_left (by omega), zpow_sub₀ (by norm_num)]
  exact div_le_div_of_nonneg_right hlog (by positivity)

/-- **The relative error of rounding is at most `2 ^ (-53)`.** -/
theorem nearest_error {x : ℚ} (hx : Normal x) : |nearest x - x| ≤ |x| / 2 ^ 53 := by
  rcases hx with rfl | hx
  · rw [nearest_zero]
    norm_num
  · have herror := nearest_error_ulp x
    have hulp := ulp_le hx
    calc |nearest x - x| ≤ ulp x / 2 := herror
      _ ≤ |x| / 2 ^ 52 / 2 := by linarith
      _ = |x| / 2 ^ 53 := by ring

theorem nearest_intCast {n : ℤ} (hn : |n| < 2 ^ 53) : nearest n = n := by
  by_cases hzero : n = 0
  · rw [hzero]
    exact_mod_cast nearest_zero
  have hpos : 0 < |(n : ℚ)| := abs_pos.mpr (by exact_mod_cast hzero)
  have hlog : Int.log 2 |(n : ℚ)| < 53 := by
    refine (Int.lt_zpow_iff_log_lt (b := 2) (by norm_num) hpos).mp ?_
    exact_mod_cast hn
  -- the integer is a multiple of its `ulp`
  obtain ⟨k, hk⟩ : ∃ k : ℕ, max (Int.log 2 |(n : ℚ)| - 52) (-1074) = -k :=
    ⟨(-max (Int.log 2 |(n : ℚ)| - 52) (-1074)).toNat, by omega⟩
  have hulp : ulp n = ((2 : ℚ) ^ k)⁻¹ := by
    unfold ulp
    rw [hk, zpow_neg, zpow_natCast]
  have hquotient : (n : ℚ) / ulp n = ((n * 2 ^ k : ℤ) : ℚ) := by
    rw [hulp, div_inv_eq_mul]
    push_cast
    rfl
  unfold nearest
  rw [hquotient, roundEven_intCast, ← hquotient, div_mul_cancel₀ _ (ulp_pos _).ne']

theorem nearest_abs_le {x : ℚ} (hx : Normal x) : |nearest x| ≤ 2 * |x| := by
  have herror := nearest_error hx
  have hpos := abs_nonneg x
  calc |nearest x| = |nearest x - x + x| := by rw [sub_add_cancel]
    _ ≤ |nearest x - x| + |x| := abs_add_le _ _
    _ ≤ |x| / 2 ^ 53 + |x| := by linarith
    _ ≤ 2 * |x| := by linarith [div_le_self hpos (show (1 : ℚ) ≤ 2 ^ 53 by norm_num)]

/-! ### Scaling by an integer -/

section
variable {c : ℤ} {n : ℕ}

theorem normal_intCast_div (hn : 1 ≤ n) (hn' : n ≤ 2 ^ 52) : Normal (c / n : ℚ) := by
  have hpos : (0 : ℚ) < n := by exact_mod_cast hn
  have hle : (n : ℚ) ≤ 2 ^ 52 := by exact_mod_cast hn'
  by_cases hzero : c = 0
  · rw [hzero, Int.cast_zero, zero_div]
    exact .inl rfl
  · have hone : 1 ≤ |(c : ℚ)| := by exact_mod_cast Int.one_le_abs hzero
    refine .inr ?_
    calc (2 : ℚ) ^ (-1022 : ℤ) ≤ 2 ^ (-52 : ℤ) := zpow_le_zpow_right₀ (by norm_num) (by norm_num)
      _ = 1 / 2 ^ 52 := by norm_num
      _ ≤ 1 / n := one_div_le_one_div_of_le hpos hle
      _ ≤ |(c : ℚ)| / n := div_le_div_of_nonneg_right hone hpos.le
      _ = |(c / n : ℚ)| := by rw [abs_div, abs_of_pos hpos]

theorem scaled_error (hn : 1 ≤ n) (hn' : n ≤ 2 ^ 52) : |nearest (c / n : ℚ) * n - c| ≤ |(c : ℚ)| / 2 ^ 53 := by
  have hpos : (0 : ℚ) < n := by exact_mod_cast hn
  have herror := nearest_error (normal_intCast_div (c := c) hn hn')
  rw [abs_div, abs_of_pos hpos] at herror
  calc |nearest (c / n : ℚ) * n - c| = |nearest (c / n : ℚ) - c / n| * n := by
        rw [← abs_of_pos hpos, ← abs_mul, abs_of_pos hpos, sub_mul, div_mul_cancel₀ _ hpos.ne']
    _ ≤ |(c : ℚ)| / n / 2 ^ 53 * n := mul_le_mul_of_nonneg_right herror hpos.le
    _ = |(c : ℚ)| / 2 ^ 53 := by field_simp

theorem scaled_bounds (hn : 1 ≤ n) (hn' : n ≤ 2 ^ 52) (hc : |c| ≤ 2 ^ 50) :
    Normal (nearest (c / n : ℚ) * n) ∧ |nearest (c / n : ℚ) * n| ≤ 2 ^ 51 := by
  have hsmall : |(c : ℚ)| ≤ 2 ^ 50 := by exact_mod_cast hc
  have herror := scaled_error (c := c) hn hn'
  have hup := abs_add_le (nearest (c / n : ℚ) * n - c) c
  have hdown := abs_sub_abs_le_abs_sub (c : ℚ) (nearest (c / n : ℚ) * n)
  rw [sub_add_cancel] at hup
  rw [abs_sub_comm] at hdown
  refine ⟨?_, by linarith⟩
  by_cases hzero : c = 0
  · rw [hzero, Int.cast_zero, zero_div, nearest_zero, zero_mul]
    exact .inl rfl
  · have hone : 1 ≤ |(c : ℚ)| := by exact_mod_cast Int.one_le_abs hzero
    refine .inr ?_
    calc (2 : ℚ) ^ (-1022 : ℤ) ≤ 2 ^ (-1 : ℤ) := zpow_le_zpow_right₀ (by norm_num) (by norm_num)
      _ = 1 / 2 := by norm_num
      _ ≤ |nearest (c / n : ℚ) * n| := by linarith

/-- **Scaling back recovers the integer.** -/
theorem nearest_scaled (hn : 1 ≤ n) (hn' : n ≤ 2 ^ 52) (hc : |c| ≤ 2 ^ 50) :
    ⌊nearest (nearest (c / n : ℚ) * n) + 1 / 2⌋ = c := by
  have hsmall : |(c : ℚ)| ≤ 2 ^ 50 := by exact_mod_cast hc
  obtain ⟨hnormal, hbound⟩ := scaled_bounds hn hn' hc
  have hfirst := scaled_error (c := c) hn hn'
  have hsecond := nearest_error hnormal
  have hclose : |nearest (nearest (c / n : ℚ) * n) - c| < 1 / 2 := by
    have htriangle := abs_sub_le (nearest (nearest (c / n : ℚ) * n)) (nearest (c / n : ℚ) * n) c
    linarith
  obtain ⟨hlow, hhigh⟩ := abs_lt.mp hclose
  rw [Int.floor_eq_iff]
  constructor <;> linarith

end

/-! ### Numbers -/

/-- A double; `-0` is `0`. -/
inductive Double
  | nan
  | inf (negative : Bool)
  | fin (x : ℚ)
deriving DecidableEq

namespace Double

/-- The double of a rational number. -/
def ofRat (x : ℚ) : Double := if |nearest x| < 2 ^ 1024 then fin (nearest x) else inf (decide (x < 0))

def mul : Double → Double → Double
  | nan, _ | _, nan => nan
  | fin x, fin y => ofRat (x * y)
  | inf negative, fin y | fin y, inf negative => if y = 0 then nan else inf (negative != decide (y < 0))
  | inf negative, inf negative' => inf (negative != negative')

def add : Double → Double → Double
  | nan, _ | _, nan => nan
  | fin x, fin y => ofRat (x + y)
  | inf negative, fin _ | fin _, inf negative => inf negative
  | inf negative, inf negative' => if negative = negative' then inf negative else nan

def neg : Double → Double
  | nan => nan
  | inf negative => inf !negative
  | fin x => fin (-x)

def sub (x y : Double) : Double := x.add y.neg

/-- The greater one; NaN if one of them is. -/
def max : Double → Double → Double
  | nan, _ | _, nan => nan
  | fin x, fin y => fin (Max.max x y)
  | inf false, _ | _, inf false => inf false
  | inf true, y => y
  | x, inf true => x

/-- The value of a finite double. -/
def value : Double → ℚ
  | fin x => x
  | _ => 0

/-- Added to `a` in turn, the doubles are finite and each sum is a double: nothing is rounded. -/
def AddsUp : ℚ → List Double → Prop
  | _, [] => True
  | a, fin x :: xs => ofRat (a + x) = fin (a + x) ∧ AddsUp (a + x) xs
  | _, _ :: _ => False

theorem value_neg (x : Double) : x.neg.value = -x.value := by
  cases x <;> simp [neg, value]

/-- **Doubles that add up have an exact sum.** -/
theorem foldl_add {a : ℚ} {xs : List Double} (h : AddsUp a xs) :
    xs.foldl add (fin a) = fin (a + (xs.map value).sum) := by
  induction xs generalizing a with
  | nil => simp
  | cons y xs ih =>
    cases y with
    | fin x =>
      obtain ⟨hstep, hrest⟩ := h
      have hadd : (fin a).add (fin x) = fin (a + x) := hstep
      rw [List.foldl_cons, hadd, ih hrest, List.map_cons, List.sum_cons, value, add_assoc]
    | nan => exact h.elim
    | inf negative => exact h.elim

theorem ofRat_eq {x : ℚ} (hx : Normal x) (hsmall : |x| ≤ 2 ^ 100) : ofRat x = fin (nearest x) := by
  refine if_pos ?_
  calc |nearest x| ≤ 2 * |x| := nearest_abs_le hx
    _ ≤ 2 * 2 ^ 100 := by linarith
    _ = (2 : ℚ) ^ 101 := by norm_num
    _ < 2 ^ 1024 := pow_lt_pow_right₀ (by norm_num) (by norm_num)

theorem ofRat_intCast {n : ℤ} (hn : |n| < 2 ^ 53) : ofRat n = fin n := by
  unfold ofRat
  rw [nearest_intCast hn]
  refine if_pos ?_
  calc |(n : ℚ)| < 2 ^ 53 := by exact_mod_cast hn
    _ < 2 ^ 1024 := pow_lt_pow_right₀ (by norm_num) (by norm_num)

theorem ofRat_tie : ofRat (2 ^ 53 + 1) = fin (2 ^ 53) := by
  have hlog : Int.log 2 |(2 ^ 53 + 1 : ℚ)| = 53 := by
    have hnat : Nat.log 2 (2 ^ 53 + 1) = 53 := Nat.log_eq_of_pow_le_of_lt_pow (by norm_num) (by norm_num)
    rw [show |(2 ^ 53 + 1 : ℚ)| = ((2 ^ 53 + 1 : ℕ) : ℚ) by norm_num, Int.log_natCast]
    exact_mod_cast hnat
  have hulp : ulp (2 ^ 53 + 1) = 2 := by
    unfold ulp
    rw [hlog]
    norm_num
  -- half an `ulp` above `2 ^ 53`, the tie goes to the even neighbour
  have hhalf : (2 ^ 53 + 1 : ℚ) / 2 = (2 ^ 52 : ℤ) + 1 / 2 := by norm_num
  have hround : round ((2 ^ 53 + 1 : ℚ) / 2) = 2 ^ 52 + 1 := by
    rw [hhalf, round_eq, add_assoc, Int.floor_intCast_add]
    norm_num
  have hnearest : nearest (2 ^ 53 + 1) = 2 ^ 53 := by
    unfold nearest roundEven
    rw [hulp, hround, hhalf, Int.fract_intCast_add]
    norm_num
  unfold ofRat
  rw [hnearest, if_pos]
  rw [abs_of_pos (by norm_num)]
  exact pow_lt_pow_right₀ (by norm_num) (by norm_num)

end Double

end Locus.Lib.Binary64
