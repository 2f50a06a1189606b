import Locus.Lib.ShortestDecimal
import Locus.Server.JsNumber
import Mathlib.Algebra.Order.Ring.Nat
import Mathlib.Data.Nat.Prime.Basic

/-!
# Rounding to doubles

What `roundNat` makes of a natural number, and `ofInt` of an integer. From `2 ^ 53` on it is the nearest multiple of a
power of two: an integer is a double if the bits beyond its leading 53 are zeros (`roundNat_self_iff`). Rounding is
monotone and fixes what it gives (`roundNat_mono`, `roundNat_roundNat`), so that the general facts on decimals apply
(`roundNat_rounding`).
-/

namespace Locus.Server.JsInt

open Lib.ShortestDecimal (Rounding)

/-! ### Natural numbers -/

/-- The multiple of `2 ^ e` nearest to `n`, ties to even. -/
def nearestMultiple (e n : ℕ) : ℕ :=
  (if 2 ^ (e - 1) < n % 2 ^ e ∨ (n % 2 ^ e = 2 ^ (e - 1) ∧ n / 2 ^ e % 2 = 1) then n / 2 ^ e + 1
    else n / 2 ^ e) * 2 ^ e

theorem roundNat_of_ge {n : ℕ} (hn : 2 ^ 53 ≤ n) :
    roundNat n = if nearestMultiple (n.log2 - 52) n < 2 ^ 1024 then some (nearestMultiple (n.log2 - 52) n)
      else none := by
  rw [roundNat, if_neg (by omega)]
  rfl

theorem nearestMultiple_bounds (e n : ℕ) :
    n / 2 ^ e * 2 ^ e ≤ nearestMultiple e n ∧ nearestMultiple e n ≤ (n / 2 ^ e + 1) * 2 ^ e := by
  unfold nearestMultiple
  constructor
  · refine Nat.mul_le_mul_right _ ?_
    split_ifs <;> omega
  · refine Nat.mul_le_mul_right _ ?_
    split_ifs <;> omega

theorem nearestMultiple_mono (e : ℕ) {m n : ℕ} (h : m ≤ n) : nearestMultiple e m ≤ nearestMultiple e n := by
  rcases Nat.lt_or_eq_of_le (Nat.div_le_div_right (c := 2 ^ e) h) with hlt | heq
  · calc nearestMultiple e m ≤ (m / 2 ^ e + 1) * 2 ^ e := (nearestMultiple_bounds e m).2
      _ ≤ n / 2 ^ e * 2 ^ e := Nat.mul_le_mul_right _ hlt
      _ ≤ nearestMultiple e n := (nearestMultiple_bounds e n).1
  · -- the remainders are ordered as the numbers
    have hmod : m % 2 ^ e ≤ n % 2 ^ e := by
      have hm := Nat.div_add_mod m (2 ^ e)
      have hn := Nat.div_add_mod n (2 ^ e)
      rw [heq] at hm
      omega
    unfold nearestMultiple
    rw [heq]
    refine Nat.mul_le_mul_right _ ?_
    split_ifs <;> omega

theorem nearestMultiple_self {e n : ℕ} (h : 2 ^ e ∣ n) : nearestMultiple e n = n := by
  have hhalf : 0 < 2 ^ (e - 1) := Nat.two_pow_pos _
  unfold nearestMultiple
  rw [Nat.mod_eq_zero_of_dvd h, if_neg (by omega), Nat.div_mul_cancel h]

/-- Rounding stays between the powers of two around the number. -/
theorem nearestMultiple_log2 {n : ℕ} (hn : 2 ^ 53 ≤ n) :
    2 ^ n.log2 ≤ nearestMultiple (n.log2 - 52) n ∧ nearestMultiple (n.log2 - 52) n ≤ 2 ^ (n.log2 + 1) := by
  have hlog : 53 ≤ n.log2 := (Nat.le_log2 (by omega)).mpr hn
  obtain ⟨e, he⟩ : ∃ e, n.log2 = 52 + e := ⟨n.log2 - 52, by omega⟩
  have hlow : 2 ^ n.log2 ≤ n := Nat.log2_self_le (by omega)
  have hhigh : n < 2 ^ (n.log2 + 1) := Nat.lt_log2_self
  obtain ⟨hbelow, habove⟩ := nearestMultiple_bounds e n
  rw [he, Nat.add_sub_cancel_left]
  rw [he] at hlow hhigh
  have hquotient : 2 ^ 52 ≤ n / 2 ^ e := (Nat.le_div_iff_mul_le (Nat.two_pow_pos _)).mpr (by rwa [← pow_add])
  have hquotient' : n / 2 ^ e < 2 ^ 53 := by
    rw [Nat.div_lt_iff_lt_mul (Nat.two_pow_pos _), ← pow_add]
    rwa [show 53 + e = 52 + e + 1 by omega]
  constructor
  · calc 2 ^ (52 + e) = 2 ^ 52 * 2 ^ e := pow_add _ _ _
      _ ≤ n / 2 ^ e * 2 ^ e := Nat.mul_le_mul_right _ hquotient
      _ ≤ nearestMultiple e n := hbelow
  · calc nearestMultiple e n ≤ (n / 2 ^ e + 1) * 2 ^ e := habove
      _ ≤ 2 ^ 53 * 2 ^ e := Nat.mul_le_mul_right _ hquotient'
      _ = 2 ^ (52 + e + 1) := by rw [← pow_add, show 53 + e = 52 + e + 1 by omega]

theorem roundNat_eq_some_of_ge {n x : ℕ} (hn : 2 ^ 53 ≤ n) :
    roundNat n = some x ↔ nearestMultiple (n.log2 - 52) n = x ∧ x < 2 ^ 1024 := by
  rw [roundNat_of_ge hn]
  generalize (2 : ℕ) ^ 1024 = largest
  split_ifs with h
  · refine ⟨fun hx => ?_, fun hx => congrArg some hx.1⟩
    obtain rfl := Option.some.inj hx
    exact ⟨rfl, h⟩
  · refine ⟨fun hx => (nomatch hx), fun hx => ?_⟩
    rw [hx.1] at h
    exact absurd hx.2 h

theorem roundNat_of_lt {n : ℕ} (hn : n < 2 ^ 53) : roundNat n = some n := if_pos hn

theorem roundNat_ge {n m : ℕ} (hn : 2 ^ 53 ≤ n) (hround : roundNat n = some m) : 2 ^ 53 ≤ m := by
  have hlog : 53 ≤ n.log2 := (Nat.le_log2 (by omega)).mpr hn
  obtain ⟨rfl, -⟩ := (roundNat_eq_some_of_ge hn).mp hround
  exact (Nat.pow_le_pow_right (by omega) hlog).trans (nearestMultiple_log2 hn).1

theorem roundNat_mono {m n y : ℕ} (h : m ≤ n) (hy : roundNat n = some y) : ∃ x, roundNat m = some x ∧ x ≤ y := by
  rcases Nat.lt_or_ge m (2 ^ 53) with hm | hm
  · refine ⟨m, roundNat_of_lt hm, ?_⟩
    rcases Nat.lt_or_ge n (2 ^ 53) with hn | hn
    · rw [roundNat_of_lt hn] at hy
      exact h.trans_eq (Option.some.inj hy)
    · exact hm.le.trans (roundNat_ge hn hy)
  have hn := hm.trans h
  obtain ⟨rfl, hlargest⟩ := (roundNat_eq_some_of_ge hn).mp hy
  have hle : nearestMultiple (m.log2 - 52) m ≤ nearestMultiple (n.log2 - 52) n := by
    have hlog : m.log2 ≤ n.log2 := (Nat.le_log2 (by omega)).mpr ((Nat.log2_self_le (by omega)).trans h)
    rcases Nat.lt_or_eq_of_le hlog with hlt | heq
    · calc nearestMultiple (m.log2 - 52) m ≤ 2 ^ (m.log2 + 1) := (nearestMultiple_log2 hm).2
        _ ≤ 2 ^ n.log2 := Nat.pow_le_pow_right (by omega) hlt
        _ ≤ nearestMultiple (n.log2 - 52) n := (nearestMultiple_log2 hn).1
    · rw [heq]
      exact nearestMultiple_mono _ h
  exact ⟨_, (roundNat_eq_some_of_ge hm).mpr ⟨rfl, hle.trans_lt hlargest⟩, hle⟩

theorem roundNat_pos {n m : ℕ} (hn : 1 ≤ n) (hm : roundNat n = some m) : 1 ≤ m := by
  obtain ⟨x, hx, hxm⟩ := roundNat_mono hn hm
  rw [roundNat_of_lt (by omega)] at hx
  exact (Option.some.inj hx).trans_le hxm

/-- Doubles are read from decimals by a rounding. -/
theorem roundNat_rounding : Rounding roundNat where
  zero := rfl
  mono := roundNat_mono
  le {n x} hx := by
    rcases Nat.lt_or_ge n (2 ^ 53) with hn | hn
    · rw [roundNat_of_lt hn] at hx
      obtain rfl := Option.some.inj hx
      omega
    · obtain ⟨rfl, -⟩ := (roundNat_eq_some_of_ge hn).mp hx
      have hlow := (nearestMultiple_log2 hn).1
      have hhigh : n < 2 ^ (n.log2 + 1) := Nat.lt_log2_self
      rw [pow_succ] at hhigh
      omega

/-- **An integer is a double if all bits beyond its leading 53 are zeros**, up to the largest double. -/
theorem roundNat_self_iff {n : ℕ} : roundNat n = some n ↔ n < 2 ^ 53 ∨ (2 ^ (n.log2 - 52) ∣ n ∧ n < 2 ^ 1024) := by
  rcases Nat.lt_or_ge n (2 ^ 53) with hn | hn
  · exact iff_of_true (roundNat_of_lt hn) (.inl hn)
  · rw [roundNat_eq_some_of_ge hn, or_iff_right (by omega)]
    refine and_congr_left' ⟨fun h => ?_, nearestMultiple_self⟩
    have hdvd : 2 ^ (n.log2 - 52) ∣ nearestMultiple (n.log2 - 52) n := Nat.dvd_mul_left _ _
    rwa [h] at hdvd

theorem roundNat_two_pow {k : ℕ} (hk : k < 1024) : roundNat (2 ^ k) = some (2 ^ k) := by
  refine roundNat_self_iff.mpr (.inr ⟨?_, pow_lt_pow_right₀ Nat.one_lt_two hk⟩)
  rw [Nat.log2_two_pow]
  exact Nat.pow_dvd_pow 2 (Nat.sub_le _ _)

theorem roundNat_roundNat {n x : ℕ} (hx : roundNat n = some x) : roundNat x = some x := by
  rcases Nat.lt_or_ge n (2 ^ 53) with hn | hn
  · rw [roundNat_of_lt hn] at hx
    obtain rfl := Option.some.inj hx
    exact roundNat_of_lt hn
  obtain ⟨hx, hlargest⟩ := (roundNat_eq_some_of_ge hn).mp hx
  have hdvd : 2 ^ (n.log2 - 52) ∣ x := hx ▸ Nat.dvd_mul_left _ _
  obtain ⟨hlow, hhigh⟩ := nearestMultiple_log2 hn
  rw [hx] at hlow hhigh
  refine roundNat_self_iff.mpr (.inr ⟨?_, hlargest⟩)
  rcases Nat.lt_or_eq_of_le hhigh with hlt | rfl
  · rwa [(Nat.log2_eq_iff (by have := Nat.two_pow_pos n.log2; omega)).mpr ⟨hlow, hlt⟩]
  · -- rounded up to the next power of two
    rw [Nat.log2_two_pow]
    exact Nat.pow_dvd_pow 2 (Nat.sub_le _ _)

theorem roundNat_even {n x : ℕ} (hx : roundNat n = some x) (hlarge : 2 ^ 53 ≤ x) : 2 ∣ x := by
  obtain hlt | ⟨hdvd, -⟩ := roundNat_self_iff.mp (roundNat_roundNat hx)
  · omega
  · have hlog : 53 ≤ x.log2 := (Nat.le_log2 (by omega)).mpr hlarge
    exact Nat.dvd_trans (dvd_pow_self 2 (by omega)) hdvd

/-- An odd number beyond `2 ^ 53` has no double among its multiples by less than a power of two. -/
theorem roundNat_mul_ne {a l : ℕ} (ha : 2 ^ 53 ≤ a) (hodd : a % 2 = 1) (hl : 1 ≤ l) :
    roundNat (a * l) ≠ some (a * l) := by
  intro hself
  have hlarge : 2 ^ 53 ≤ a * l := ha.trans (Nat.le_mul_of_pos_right a hl)
  obtain hlt | ⟨hdvd, -⟩ := roundNat_self_iff.mp hself
  · omega
  have hlog : 53 ≤ (a * l).log2 := (Nat.le_log2 (by omega)).mpr hlarge
  -- the zeros at the end are those of `l`
  have hcoprime : Nat.Coprime (2 ^ ((a * l).log2 - 52)) a :=
    Nat.Coprime.pow_left _ (Nat.coprime_two_left.mpr (Nat.odd_iff.mpr hodd))
  have hzeros : 2 ^ ((a * l).log2 - 52) ≤ l := Nat.le_of_dvd hl (hcoprime.dvd_of_dvd_mul_left hdvd)
  have hhigh : a * l < 2 ^ ((a * l).log2 + 1) := Nat.lt_log2_self
  refine absurd hhigh (Nat.not_lt.mpr ?_)
  calc 2 ^ ((a * l).log2 + 1) = 2 ^ 53 * 2 ^ ((a * l).log2 - 52) := by
        rw [← pow_add]
        congr 1
        omega
    _ ≤ a * l := Nat.mul_le_mul ha hzeros

/-! ### Integers -/

theorem ofInt_natCast (n : ℕ) : ofInt n = (roundNat n).elim inf fun m => int m := by
  have hneg : ¬ (n : ℤ) < 0 := by omega
  unfold ofInt
  rw [Int.natAbs_natCast]
  cases roundNat n with
  | none => rw [if_neg hneg, Option.elim_none]
  | some m => exact congrArg int (if_neg hneg)

theorem ofInt_of_lt {n : ℕ} (hn : n < 2 ^ 53) : ofInt n = int n := by
  rw [ofInt_natCast, roundNat_of_lt hn, Option.elim_some]

theorem ofInt_of_ge {n : ℕ} (hn : 2 ^ 53 ≤ n) : ofInt n = inf ∨ ∃ m : ℕ, ofInt n = int m ∧ 2 ^ 53 ≤ m := by
  rw [ofInt_natCast]
  cases hround : roundNat n with
  | none => exact .inl rfl
  | some m => exact .inr ⟨m, rfl, roundNat_ge hn hround⟩

theorem ofInt_eq_int {n m : ℕ} : ofInt n = int m ↔ roundNat n = some m := by
  rw [ofInt_natCast]
  cases roundNat n with
  | none => simp
  | some k =>
    rw [Option.elim_some, int.injEq, Option.some.injEq]
    exact Int.natCast_inj

theorem ofInt_neg {n : ℤ} (hn : n < 0) : ofInt n = negInf ∨ ∃ m : ℤ, m < 0 ∧ ofInt n = int m := by
  unfold ofInt
  cases hround : roundNat n.natAbs with
  | none => exact .inl (if_pos hn)
  | some m =>
    have hm := roundNat_pos (show 1 ≤ n.natAbs by omega) hround
    exact .inr ⟨-m, by omega, congrArg int (if_pos hn)⟩

def IsDouble : JsInt → Prop
  | int n => roundNat n.natAbs = some n.natAbs
  | _ => True

theorem ofInt_isDouble (n : ℤ) : (ofInt n).IsDouble := by
  unfold ofInt
  cases hround : roundNat n.natAbs with
  | none =>
    dsimp only
    split_ifs <;> trivial
  | some m =>
    have hm : (if n < 0 then -(m : ℤ) else m).natAbs = m := by
      split_ifs <;> omega
    show roundNat (if n < 0 then -(m : ℤ) else m).natAbs = some (if n < 0 then -(m : ℤ) else m).natAbs
    rw [hm]
    exact roundNat_roundNat hround

end Locus.Server.JsInt
