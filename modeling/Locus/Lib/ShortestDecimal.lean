import Mathlib.Algebra.Group.Nat.Defs
import Mathlib.Data.Nat.Log
import Mathlib.Tactic.SplitIfs

/-!
# Shortest decimals

A number format reads a decimal by rounding it (`reads`), and prints a number as the shortest decimal that is read back
as it: of the decimals with the most final zeros, the closest. `shortest` finds it by a scan over the number of zeros.
Rounding is monotone, so that only the two multiples next to the number have to be tried: what is printed is read back
(`reads_shortest`), and no decimal with more final zeros is read as the number (`pow_dvd_shortest`). So a number is
printed in full if and only if every decimal that is read as it has no more zeros than itself (`shortest_eq_iff`).
-/

namespace Locus.Lib.ShortestDecimal

structure Rounding (reads : ℕ → Option ℕ) : Prop where
  zero : reads 0 = some 0
  mono : ∀ {m n y}, m ≤ n → reads n = some y → ∃ x, reads m = some x ∧ x ≤ y
  le : ∀ {n x}, reads n = some x → n ≤ 10 * x

/-- The multiple of `10 ^ j` next to `x` that is read as `x`; of two the closer one, the even one of a tie. -/
def nextTo (reads : ℕ → Option ℕ) (x j : ℕ) : Option ℕ :=
  let q := x / 10 ^ j
  let below := q * 10 ^ j
  let above := (q + 1) * 10 ^ j
  if reads below = some x then
    if reads above = some x ∧ (above - x < x - below ∨ (above - x = x - below ∧ q % 2 = 1)) then some above
    else some below
  else if reads above = some x then some above
  else none

/-- The first of these multiples from `j` zeros down. -/
def scan (reads : ℕ → Option ℕ) (x : ℕ) : ℕ → ℕ
  | 0 => x
  | j + 1 => (nextTo reads x (j + 1)).getD (scan reads x j)

/-- The number that the shortest decimal of `x` stands for. -/
def shortest (reads : ℕ → Option ℕ) (x : ℕ) : ℕ := scan reads x (Nat.log 10 x + 1)

section
variable {reads : ℕ → Option ℕ} {x : ℕ}

theorem Rounding.between (h : Rounding reads) {a b n : ℕ} (ha : reads a = some x) (hb : reads b = some x)
    (han : a ≤ n) (hnb : n ≤ b) : reads n = some x := by
  obtain ⟨y, hy, hyx⟩ := h.mono hnb hb
  obtain ⟨x', hx', hxy⟩ := h.mono han hy
  obtain rfl := Option.some.inj (ha.symm.trans hx')
  rw [hy, le_antisymm hyx hxy]

theorem nextTo_spec {j m : ℕ} (h : nextTo reads x j = some m) : reads m = some x ∧ 10 ^ j ∣ m := by
  unfold nextTo at h
  dsimp only at h
  split_ifs at h with hbelow habove habove
  · obtain rfl := Option.some.inj h
    exact ⟨habove.1, Nat.dvd_mul_left _ _⟩
  · obtain rfl := Option.some.inj h
    exact ⟨hbelow, Nat.dvd_mul_left _ _⟩
  · obtain rfl := Option.some.inj h
    exact ⟨habove, Nat.dvd_mul_left _ _⟩

theorem exists_nextTo (h : Rounding reads) (hx : reads x = some x) {s j : ℕ} (hs : reads (s * 10 ^ j) = some x) :
    ∃ m, nextTo reads x j = some m := by
  have hpos : 0 < 10 ^ j := Nat.pow_pos (by omega)
  have hnext : reads (x / 10 ^ j * 10 ^ j) = some x ∨ reads ((x / 10 ^ j + 1) * 10 ^ j) = some x := by
    rcases Nat.lt_or_ge (x / 10 ^ j) s with hlt | hge
    · refine .inr (h.between hx hs ?_ (Nat.mul_le_mul_right _ hlt))
      exact (Nat.lt_mul_of_div_lt (Nat.lt_succ_self _) hpos).le
    · exact .inl (h.between hs hx (Nat.mul_le_mul_right _ hge) (Nat.div_mul_le_self x _))
  unfold nextTo
  dsimp only
  split_ifs with hbelow habove habove
  · exact ⟨_, rfl⟩
  · exact ⟨_, rfl⟩
  · exact ⟨_, rfl⟩
  · exact absurd hnext (not_or.mpr ⟨hbelow, habove⟩)

theorem nextTo_self (hx : reads x = some x) {j : ℕ} (hj : 10 ^ j ∣ x) : nextTo reads x j = some x := by
  have hself : x / 10 ^ j * 10 ^ j = x := Nat.div_mul_cancel hj
  have hpos : 0 < 10 ^ j := Nat.pow_pos (by omega)
  unfold nextTo
  dsimp only
  rw [Nat.add_mul, hself, Nat.one_mul, if_pos hx, if_neg]
  omega

theorem reads_scan (hx : reads x = some x) (j : ℕ) : reads (scan reads x j) = some x := by
  induction j with
  | zero => exact hx
  | succ j ih =>
    rw [scan]
    cases hnext : nextTo reads x (j + 1) with
    | none => exact ih
    | some m => exact (nextTo_spec hnext).1

theorem pow_dvd_scan {i m : ℕ} (hi : nextTo reads x i = some m) {j : ℕ} (hij : i ≤ j) (hpos : 1 ≤ i) :
    10 ^ i ∣ scan reads x j := by
  induction j with
  | zero => omega
  | succ j ih =>
    rw [scan]
    cases hnext : nextTo reads x (j + 1) with
    | none =>
      have hne : i ≠ j + 1 := by
        rintro rfl
        rw [hi] at hnext
        cases hnext
      exact ih (by omega)
    | some m' => exact Nat.dvd_trans (Nat.pow_dvd_pow 10 hij) (nextTo_spec hnext).2

/-- **What is printed is read back.** -/
theorem reads_shortest (hx : reads x = some x) : reads (shortest reads x) = some x := reads_scan hx _

/-- **No decimal of `x` has more final zeros than the printed one.** -/
theorem pow_dvd_shortest (h : Rounding reads) (hx : reads x = some x) {s j : ℕ}
    (hs : reads (s * 10 ^ j) = some x) : 10 ^ j ∣ shortest reads x := by
  rcases Nat.eq_zero_or_pos s with rfl | hpos
  · rw [Nat.zero_mul, h.zero] at hs
    obtain rfl := Option.some.inj hs
    -- only zero is read as zero
    have hle := h.le (reads_shortest hx)
    rw [Nat.le_zero.mp hle]
    exact Nat.dvd_zero _
  rcases Nat.eq_zero_or_pos j with rfl | hj
  · exact Nat.one_dvd _
  obtain ⟨m, hm⟩ := exists_nextTo h hx hs
  -- more zeros than `x` has digits are too many
  have hbound : 10 ^ j ≤ 10 * x := (Nat.le_mul_of_pos_left _ hpos).trans (h.le hs)
  have hpow : 10 ^ (j - 1) ≤ x := by
    obtain ⟨i, rfl⟩ : ∃ i, j = i + 1 := ⟨j - 1, by omega⟩
    rw [Nat.pow_succ] at hbound
    rw [Nat.add_sub_cancel]
    omega
  have hlog : j - 1 ≤ Nat.log 10 x := Nat.le_log_of_pow_le (by omega) hpow
  exact pow_dvd_scan hm (by omega) hj

/-- **A number is printed in full if and only if none of its decimals has more zeros than itself.** -/
theorem shortest_eq_iff (h : Rounding reads) (hx : reads x = some x) :
    shortest reads x = x ↔ ∀ j s, reads (s * 10 ^ j) = some x → 10 ^ j ∣ x := by
  constructor
  · intro hself j s hs
    have hdvd := pow_dvd_shortest h hx hs
    rwa [hself] at hdvd
  · intro hall
    have hscan : ∀ j, scan reads x j = x := by
      intro j
      induction j with
      | zero => rfl
      | succ j ih =>
        rw [scan]
        cases hnext : nextTo reads x (j + 1) with
        | none => exact ih
        | some m =>
          obtain ⟨hm, s, rfl⟩ := nextTo_spec hnext
          rw [Nat.mul_comm] at hm
          rw [nextTo_self hx (hall _ _ hm)] at hnext
          exact (Option.some.inj hnext).symm
    exact hscan _

end

end Locus.Lib.ShortestDecimal
