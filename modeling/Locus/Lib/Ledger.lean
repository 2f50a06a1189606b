import Mathlib.Data.Set.Insert
import Mathlib.Logic.Function.Basic

/-!
# Ledgers of single-use tokens

Agents `ι` take live tokens out of a ledger and may each issue one fresh token of their own. The ledger
remembers who took what. While fresh tokens are distinct and new, a token is taken at most once over any
sequence of takes and issues (`Linear.step`).
-/

namespace Locus.Lib

structure Ledger (ι τ : Type*) where
  live : Set τ
  taken : ι → Set τ
  issued : Set ι

namespace Ledger

variable {ι τ : Type*} [DecidableEq ι]

/-- Agent `i` takes `t`. -/
def take (L : Ledger ι τ) (i : ι) (t : τ) : Ledger ι τ where
  live := L.live \ {t}
  taken := Function.update L.taken i (insert t (L.taken i))
  issued := L.issued

/-- Agent `i` issues `t`. -/
def issue (L : Ledger ι τ) (i : ι) (t : τ) : Ledger ι τ where
  live := insert t L.live
  taken := L.taken
  issued := insert i L.issued

/-- The steps of a ledger whose agents may issue the tokens `fresh`: nothing, a take of a live token, or
the issue of an agent's own token. -/
inductive Step (fresh : ι → Option τ) (L : Ledger ι τ) : Ledger ι τ → Prop
  | stay : Step fresh L L
  | take (i : ι) (t : τ) : t ∈ L.live → Step fresh L (L.take i t)
  | issue (i : ι) (t : τ) : fresh i = some t → i ∉ L.issued → Step fresh L (L.issue i t)

/-- A taken token is gone and was taken by one agent; a token not yet issued is nowhere. -/
structure Linear (fresh : ι → Option τ) (L : Ledger ι τ) : Prop where
  taken_gone : ∀ i t, t ∈ L.taken i → t ∉ L.live
  taken_once : ∀ i j t, t ∈ L.taken i → t ∈ L.taken j → i = j
  unissued : ∀ j t, fresh j = some t → j ∉ L.issued → t ∉ L.live ∧ ∀ i, t ∉ L.taken i

variable {fresh : ι → Option τ} {L L' : Ledger ι τ}

theorem mem_take_taken {i j : ι} {t u : τ} :
    u ∈ (L.take i t).taken j ↔ (j = i ∧ u = t) ∨ u ∈ L.taken j := by
  by_cases hji : j = i
  · subst hji
    simp [take]
  · simp [take, hji]

theorem Linear.take (hL : L.Linear fresh) {i : ι} {t : τ} (ht : t ∈ L.live) :
    (L.take i t).Linear fresh where
  taken_gone := by
    intro j u hu
    rcases mem_take_taken.mp hu with ⟨-, rfl⟩ | hu
    · exact fun h => h.2 rfl
    · exact fun h => hL.taken_gone j u hu h.1
  taken_once := by
    have hnew : ∀ k, t ∉ L.taken k := fun k hk => hL.taken_gone k t hk ht
    intro j k u hj hk
    rcases mem_take_taken.mp hj with ⟨hji, hu⟩ | hj'
    · rcases mem_take_taken.mp hk with ⟨hki, -⟩ | hk'
      · exact hji.trans hki.symm
      · exact absurd (hu ▸ hk') (hnew k)
    · rcases mem_take_taken.mp hk with ⟨-, hu⟩ | hk'
      · exact absurd (hu ▸ hj') (hnew j)
      · exact hL.taken_once j k u hj' hk'
  unissued := by
    intro j u hfresh hj
    obtain ⟨hlive, htaken⟩ := hL.unissued j u hfresh hj
    refine ⟨fun h => hlive h.1, fun k hk => ?_⟩
    rcases mem_take_taken.mp hk with ⟨-, rfl⟩ | hk
    · exact hlive ht
    · exact htaken k hk

omit [DecidableEq ι] in
theorem Linear.issue (hL : L.Linear fresh)
    (hinj : ∀ i j t, fresh i = some t → fresh j = some t → i = j) {i : ι} {t : τ}
    (hfresh : fresh i = some t) (hi : i ∉ L.issued) : (L.issue i t).Linear fresh where
  taken_gone := by
    intro j u hu hlive
    rcases hlive with rfl | hlive
    · exact (hL.unissued i u hfresh hi).2 j hu
    · exact hL.taken_gone j u hu hlive
  taken_once := hL.taken_once
  unissued := by
    intro j u hj hnot
    have hnot' : j ∉ L.issued := fun h => hnot (.inr h)
    obtain ⟨hlive, htaken⟩ := hL.unissued j u hj hnot'
    refine ⟨?_, htaken⟩
    rintro (rfl | h)
    · exact hnot (.inl (hinj _ _ _ hj hfresh))
    · exact hlive h

/-- **Every step keeps the ledger linear.** -/
theorem Linear.step (hL : L.Linear fresh)
    (hinj : ∀ i j t, fresh i = some t → fresh j = some t → i = j) (h : L.Step fresh L') :
    L'.Linear fresh := by
  cases h with
  | stay => exact hL
  | take i t ht => exact hL.take ht
  | issue i t hfresh hi => exact hL.issue hinj hfresh hi

end Ledger

end Locus.Lib
