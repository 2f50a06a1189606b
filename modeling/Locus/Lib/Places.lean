import Mathlib.Logic.Basic

/-!
# Things at places

`held` says which thing each place holds, if any. `Sole held`: no thing is at two places. A step keeps that if whatever
is at a place behind it was at a place from which it could go to this one only (`Sole.move`), or is new (`Sole.put`).
-/

namespace Locus.Lib

variable {π τ : Type*} {held held' : π → Option τ}

/-- No thing is at two places. -/
def Sole (held : π → Option τ) : Prop := ∀ p q t, held p = some t → held q = some t → p = q

theorem Sole.empty (h : ∀ p, held p = none) : Sole held := by
  intro p q t hp
  rw [h p] at hp
  cases hp

/-- What is at a place behind the step was there, or has gone there: `go` is where what is at a place goes. -/
theorem Sole.move (h : Sole held) (go : π → π) (hfrom : ∀ p t, held' p = some t → ∃ q, held q = some t ∧ go q = p) :
    Sole held' := by
  intro p q t hp hq
  obtain ⟨p₀, hp₀, rfl⟩ := hfrom p t hp
  obtain ⟨q₀, hq₀, rfl⟩ := hfrom q t hq
  rw [h p₀ q₀ t hp₀ hq₀]

theorem Sole.put (h : Sole held) (dst : π) {new : τ} (hnew : ∀ p, held p ≠ some new)
    (hfrom : ∀ p t, held' p = some t → held p = some t ∨ (p = dst ∧ t = new)) : Sole held' := by
  intro p q t hp hq
  rcases hfrom p t hp with hp | ⟨hp, rfl⟩
  · rcases hfrom q t hq with hq | ⟨-, rfl⟩
    · exact h p q t hp hq
    · exact absurd hp (hnew p)
  · rcases hfrom q t hq with hq | ⟨hq, -⟩
    · exact absurd hq (hnew q)
    · rw [hp, hq]

theorem Sole.mono (h : Sole held) (hfrom : ∀ p t, held' p = some t → held p = some t) : Sole held' :=
  fun p q t hp hq => h p q t (hfrom p t hp) (hfrom q t hq)

end Locus.Lib
