import Mathlib.Order.Lattice
import Mathlib.Data.Nat.Basic

/-!
# Asynchronous computations by the time they take

An `Async` is what awaiting a promise amounts to: it never settles, or it settles after some time with a value
or an error. `bind`, `tryCatch` and `race` are `await`, `try { } catch { }` and `Promise.race`. A computation
settles `Within` a time that is the sum of those of its parts, and a race against a timer within the timer's,
whatever the other side does.
-/

namespace Locus.Lib

inductive Async (E α : Type) : Type
  | never
  | settles (t : ℕ) (r : Except E α)

namespace Async

variable {E α β : Type}

/-- The computation, started `s` later. -/
def after (s : ℕ) : Async E α → Async E α
  | never => never
  | settles t r => settles (s + t) r

def bind : Async E α → (α → Async E β) → Async E β
  | never, _ => never
  | settles t (.ok a), f => (f a).after t
  | settles t (.error e), _ => settles t (.error e)

instance : Monad (Async E) where
  pure a := settles 0 (.ok a)
  bind := bind

def reject (e : E) : Async E α := settles 0 (.error e)

/-- `try { p } catch (e) { handler(e) }` -/
def tryCatch : Async E α → (E → Async E α) → Async E α
  | never, _ => never
  | settles t (.ok a), _ => settles t (.ok a)
  | settles t (.error e), handler => (handler e).after t

/-- `Promise.race([p, q])`; `p` is first where both settle at one time. -/
def race : Async E α → Async E α → Async E α
  | never, q => q
  | p, never => p
  | settles s r, settles t r' => if s ≤ t then settles s r else settles t r'

/-- `new Promise((_, reject) => setTimeout(() => reject(e), ms))` -/
def timer (ms : ℕ) (e : E) : Async E α := settles ms (.error e)

/-- It settles, and after at most `n`. -/
def Within (p : Async E α) (n : ℕ) : Prop := ∃ t r, p = settles t r ∧ t ≤ n

@[simp] theorem pure_eq (a : α) : (pure a : Async E α) = settles 0 (.ok a) := rfl
@[simp] theorem bind_never (f : α → Async E β) : (never >>= f) = never := rfl
@[simp] theorem bind_ok (t : ℕ) (a : α) (f : α → Async E β) : (settles t (.ok a) >>= f) = (f a).after t := rfl
@[simp] theorem bind_error (t : ℕ) (e : E) (f : α → Async E β) :
    (settles t (.error e) >>= f) = settles t (.error e) := rfl
@[simp] theorem tryCatch_never (handler : E → Async E α) : never.tryCatch handler = never := rfl
@[simp] theorem tryCatch_ok (t : ℕ) (a : α) (handler : E → Async E α) :
    (settles t (.ok a)).tryCatch handler = settles t (.ok a) := rfl
@[simp] theorem tryCatch_error (t : ℕ) (e : E) (handler : E → Async E α) :
    (settles t (.error e)).tryCatch handler = (handler e).after t := rfl
@[simp] theorem after_never (s : ℕ) : (never : Async E α).after s = never := rfl
@[simp] theorem after_settles (s t : ℕ) (r : Except E α) : (settles t r).after s = settles (s + t) r := rfl

@[simp] theorem not_within_never (n : ℕ) : ¬(never : Async E α).Within n := by
  rintro ⟨t, r, h, -⟩
  cases h

@[simp] theorem within_settles {t n : ℕ} {r : Except E α} : (settles t r).Within n ↔ t ≤ n := by
  constructor
  · rintro ⟨t', r', h, hn⟩
    cases h
    exact hn
  · intro hn
    exact ⟨t, r, rfl, hn⟩

theorem within_pure (a : α) (n : ℕ) : (pure a : Async E α).Within n := within_settles.mpr (Nat.zero_le n)

theorem Within.mono {p : Async E α} {m n : ℕ} (h : p.Within m) (hmn : m ≤ n) : p.Within n := by
  obtain ⟨t, r, rfl, ht⟩ := h
  exact within_settles.mpr (ht.trans hmn)

theorem within_after {p : Async E α} {s n : ℕ} : (p.after s).Within n ↔ ∃ m, p.Within m ∧ s + m ≤ n := by
  cases p with
  | never => simp
  | settles t r =>
    rw [after_settles, within_settles]
    constructor
    · intro h
      exact ⟨t, within_settles.mpr (le_refl t), h⟩
    · rintro ⟨m, hm, hn⟩
      have ht := within_settles.mp hm
      omega

theorem Within.bind {p : Async E α} {f : α → Async E β} {m n : ℕ} (hp : p.Within m) (hf : ∀ a, (f a).Within n) :
    (p >>= f).Within (m + n) := by
  obtain ⟨t, r, rfl, ht⟩ := hp
  cases r with
  | error e =>
    rw [bind_error, within_settles]
    omega
  | ok a =>
    rw [bind_ok, within_after]
    exact ⟨n, hf a, by omega⟩

theorem Within.tryCatch {p : Async E α} {handler : E → Async E α} {m n : ℕ} (hp : p.Within m)
    (hhandler : ∀ e, (handler e).Within n) : (p.tryCatch handler).Within (m + n) := by
  obtain ⟨t, r, rfl, ht⟩ := hp
  cases r with
  | error e =>
    rw [tryCatch_error, within_after]
    exact ⟨n, hhandler e, by omega⟩
  | ok a =>
    rw [tryCatch_ok, within_settles]
    omega

/-- **A race against a timer is over when the timer is.** -/
theorem race_timer_within (p : Async E α) (ms : ℕ) (e : E) : (p.race (timer ms e)).Within ms := by
  cases p with
  | never => exact within_settles.mpr (le_refl ms)
  | settles t r =>
    unfold race timer
    dsimp only
    split
    · rename_i h
      exact within_settles.mpr h
    · exact within_settles.mpr (le_refl ms)

/-- A promise that settles in time wins the race. -/
theorem race_timer_of_le {t ms : ℕ} (h : t ≤ ms) (r : Except E α) (e : E) :
    (settles t r).race (timer ms e) = settles t r := if_pos h

/-- One that does not loses it. -/
theorem race_timer_of_not {p : Async E α} {ms : ℕ} (h : ¬p.Within ms) (e : E) :
    p.race (timer ms e) = settles ms (.error e) := by
  cases p with
  | never => rfl
  | settles t r => exact if_neg fun hle => h (within_settles.mpr hle)

end Async

end Locus.Lib
