import Locus.Server.JsRounding

/-!
# How JavaScript prints a number

`String(v)` of an integral double: the shortest decimal that is read back as it, in plain digits below `10 ^ 21` and
with an exponent from there on. So a number is printed as itself exactly if it is below `10 ^ 21` and none of its
decimals has more final zeros (`text_toString_iff`); all numbers below `2 ^ 53` are (`text_of_lt`).
-/

namespace Locus.Server

open Lib.ShortestDecimal (shortest reads_shortest shortest_eq_iff)

/-! ### Digits -/

theorem isDigit_toDigits (n : ℕ) : ∀ c ∈ Nat.toDigits 10 n, c.isDigit = true :=
  fun _ hc => Nat.isDigit_of_mem_toDigits (by omega) (by omega) hc

theorem toList_toString (n : ℕ) : (toString n).toList = Nat.toDigits 10 n := Nat.toList_repr

theorem repr_digits (n : ℕ) : ∀ c ∈ n.repr.toList, c.isDigit = true := by
  rw [Nat.toList_repr]
  exact isDigit_toDigits n

theorem repr_nat_injective : Function.Injective Nat.repr := by
  intro n m h
  have hdigits := congrArg (fun text => Nat.ofDigitChars 10 text.toList 0) h
  simpa only [Nat.toList_repr, Nat.ofDigitChars_ten_toDigits] using hdigits

namespace JsInt

/-! ### Printing -/

/-- What is printed for a shortest decimal: plain digits below `10 ^ 21`, and `d.dde+n` from there on. -/
def decimal (m : ℕ) : String :=
  if m < 10 ^ 21 then toString m
  else
    let digits := Nat.toDigits 10 m
    let mantissa := match digits.rdropWhile (· = '0') with
      | d :: e :: rest => d :: '.' :: e :: rest
      | short => short
    String.ofList mantissa ++ "e+" ++ toString (digits.length - 1)

/-- `String(v)` -/
def text : JsInt → String
  | nan => "NaN"
  | inf => "Infinity"
  | negInf => "-Infinity"
  | int n => (if n < 0 then "-" else "") ++ decimal (shortest roundNat n.natAbs)

theorem decimal_of_lt {m : ℕ} (hm : m < 10 ^ 21) : decimal m = toString m := if_pos hm

theorem plus_mem_decimal {m : ℕ} (hm : 10 ^ 21 ≤ m) : '+' ∈ (decimal m).toList := by
  unfold decimal
  rw [if_neg (by omega)]
  simp

theorem decimal_eq_toString {m n : ℕ} : decimal m = toString n ↔ m = n ∧ m < 10 ^ 21 := by
  rcases Nat.lt_or_ge m (10 ^ 21) with hm | hm
  · rw [decimal_of_lt hm, and_iff_left hm]
    exact repr_nat_injective.eq_iff
  · refine iff_of_false (fun h => ?_) fun h => by omega
    have hplus := plus_mem_decimal hm
    rw [h] at hplus
    exact absurd (repr_digits n _ hplus) (by decide)

theorem text_natCast (n : ℕ) : text (int n) = decimal (shortest roundNat n) := by
  have hsign : ¬ (n : ℤ) < 0 := by omega
  rw [text, Int.natAbs_natCast, if_neg hsign, String.empty_append]

/-- **A double is printed in full if and only if none of its decimals has more final zeros**, below `10 ^ 21`. -/
theorem text_toString_iff {n : ℕ} (hn : roundNat n = some n) :
    text (int n) = toString n ↔ (∀ j s, roundNat (s * 10 ^ j) = some n → 10 ^ j ∣ n) ∧ n < 10 ^ 21 := by
  rw [text_natCast, decimal_eq_toString, ← shortest_eq_iff roundNat_rounding hn]
  exact and_congr_right fun h => by rw [h]

example : text (int (2 ^ 56)) = "72057594037927940" := by decide +kernel
example : text (int (10 ^ 22)) = "1e+22" := by decide +kernel

/-- Printing does not leave the range of `bigint`, and does not enter it. -/
theorem shortest_lt_iff {n : ℕ} (hn : roundNat n = some n) : shortest roundNat n < 2 ^ 63 ↔ n < 2 ^ 63 := by
  have hback := reads_shortest hn
  have hedge : roundNat (2 ^ 63) = some (2 ^ 63) := roundNat_two_pow (by omega)
  constructor
  · intro hsmall
    obtain ⟨x, hx, hxn⟩ := roundNat_mono hsmall.le hedge
    obtain rfl := Option.some.inj (hback.symm.trans hx)
    refine lt_of_le_of_ne hxn ?_
    -- the first number out of range is not printed as one in range
    rintro rfl
    have hprinted : shortest roundNat (2 ^ 63) = 9223372036854776000 := by decide +kernel
    omega
  · intro hlt
    by_contra hlarge
    obtain ⟨x, hx, hxn⟩ := roundNat_mono (Nat.not_lt.mp hlarge) hback
    obtain rfl := Option.some.inj (hedge.symm.trans hx)
    omega

theorem text_of_lt {n : ℕ} (hn : n < 2 ^ 53) : text (int n) = toString n := by
  refine (text_toString_iff (roundNat_of_lt hn)).mpr ⟨fun j s hs => ?_, by omega⟩
  rcases Nat.lt_or_ge (s * 10 ^ j) (2 ^ 53) with hlt | hge
  · rw [roundNat_of_lt hlt] at hs
    obtain rfl := Option.some.inj hs
    exact Nat.dvd_mul_left _ _
  · have := roundNat_ge hge hs
    omega

end JsInt

end Locus.Server
