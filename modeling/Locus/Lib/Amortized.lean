import Locus.Lib.System
import Mathlib.Algebra.GroupWithZero.Nat
import Mathlib.Algebra.BigOperators.Group.List.Basic
import Mathlib.Algebra.Order.BigOperators.Group.List

/-!
# Potentials

The potential of a state bounds what the system can still spend. If no step raises it by more than the credit of its
event, a run raises it by no more than the credits of its events together (`System.Run.amortized`).
-/

namespace Locus.Lib

namespace System

variable {σ ε : Type*} {M : System σ ε} {C : σ → ε → Prop}

/-- **Potential rule**: `potential` is paid for by the events. -/
theorem Run.amortized (potential : σ → ℕ) (credit : ε → ℕ) {s₀ s : σ} {tr : List ε} (h : M.Run C s₀ tr s)
    (hstep : ∀ s e s', M.step s e = some s' → potential s' ≤ potential s + credit e) :
    potential s ≤ potential s₀ + (tr.map credit).sum := by
  induction h with
  | nil => simp
  | @snoc tr s s' e _ _ hs ih =>
    have hone := hstep s e s' hs
    rw [List.map_append, List.sum_append, List.map_singleton, List.sum_singleton]
    omega

end System

/-! ### Potentials of lists -/

variable {α : Type*} (weight : α → ℕ) {f : α → α} {bound : ℕ}

theorem sum_modify_le (hf : ∀ a, weight (f a) ≤ weight a + bound) (l : List α) (i : ℕ) :
    ((l.modify i f).map weight).sum ≤ (l.map weight).sum + bound := by
  induction l generalizing i with
  | nil => simp
  | cons a l ih =>
    cases i with
    | zero =>
      have ha := hf a
      simp only [List.modify_zero_cons, List.map_cons, List.sum_cons]
      omega
    | succ i =>
      have hl := ih i
      simp only [List.modify_succ_cons, List.map_cons, List.sum_cons]
      omega

theorem sum_modify_of_getElem {l : List α} {i : ℕ} {a : α} (ha : l[i]? = some a) {given : ℕ}
    (hf : weight (f a) + given ≤ weight a) : ((l.modify i f).map weight).sum + given ≤ (l.map weight).sum := by
  induction l generalizing i with
  | nil => cases ha
  | cons b l ih =>
    cases i with
    | zero =>
      obtain rfl := Option.some.inj ha
      simp only [List.modify_zero_cons, List.map_cons, List.sum_cons]
      omega
    | succ i =>
      have hl := ih ha
      simp only [List.modify_succ_cons, List.map_cons, List.sum_cons]
      omega

end Locus.Lib
