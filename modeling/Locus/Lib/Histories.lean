import Locus.Lib.Prog

/-!
# The history of a pool

What a program of a pool knows of the outside is its log, and each entry of the log is from one moment of the past. In
a run whose steps are those of a pool, with others in between that change the outside alone, that moment is a state of
the run, and the entry was made by the event behind it, which answered the query of the entry there (`logged`). The
entries of one log come in the order of their moments, as each moment has the entries before it in its log.
-/

namespace Locus.Lib

open Prog Pool

variable {ι DB X Q ε : Type} {A : Q → Type} {E M R : Type} [DecidableEq ι]

/-- The steps are those of a pool, its events told by `ofPool`, and others that change the outside alone. -/
def Interleaves (T : System (Pool ι DB Q A E M R) ε) (prog : ι → Prog Q A E M R) (out : Outside X DB Q A E)
    (ofPool : PoolEvent ι X → ε) : Prop :=
  ∀ s e s', T.step s e = some s' →
    (∃ e', e = ofPool e' ∧ Pool.step prog out s e' = some s') ∨ ∃ d, s' = { s with db := d }

variable {T : System (Pool ι DB Q A E M R) ε} {C : Pool ι DB Q A E M R → ε → Prop} {prog : ι → Prog Q A E M R}
  {out : Outside X DB Q A E} {ofPool : PoolEvent ι X → ε} {s s' : Pool ι DB Q A E M R} {e : ε} {i : ι}

theorem Interleaves.done_stays (hT : Interleaves T prog out ofPool) (hstep : T.step s e = some s') {r : R}
    {log : List (Call Q A E)} (hi : s.thread i = .live (.done r) log) : s'.thread i = .live (.done r) log := by
  obtain ⟨e', -, h⟩ | ⟨d, rfl⟩ := hT s e s' hstep
  · obtain ⟨j, -, hj, rfl⟩ | ⟨j, x, q, k, log', -, hj, rfl⟩ := step_cases h
    · rw [goto_other, hi]
      rintro rfl
      rw [hi] at hj
      cases hj
    · rw [goto_other, hi]
      rintro rfl
      rw [hi] at hj
      cases hj
  · exact hi

omit [DecidableEq ι] in
theorem log_snoc {log log₁ log₂ : List (Call Q A E)} {c d : Call Q A E} (h : log ++ [d] = log₁ ++ c :: log₂) :
    (log = log₁ ∧ d = c) ∨ ∃ log₃, log = log₁ ++ c :: log₃ := by
  rcases List.eq_nil_or_concat log₂ with rfl | ⟨log₃, c', rfl⟩
  · obtain ⟨hlog, hd⟩ := List.append_inj' h rfl
    exact .inl ⟨hlog, List.head_eq_of_cons_eq hd⟩
  · rw [List.concat_eq_append, ← List.cons_append, ← List.append_assoc] at h
    exact .inr ⟨log₃, (List.append_inj' h rfl).1⟩

/-- **Every entry of a log has its event**: in the state `t` that the run has reached then, the thread awaits the query
of the entry with the entries before it in its log, and is answered with its answer. -/
theorem logged (hT : Interleaves T prog out ofPool) {s₀ : Pool ι DB Q A E M R} (hidle : s₀.thread i = .idle)
    {tr : List ε} (h : T.Run C s₀ tr s) {log₁ log₂ : List (Call Q A E)} {c : Call Q A E}
    (hlog : (s.thread i).log = log₁ ++ c :: log₂) :
    ∃ before x after t, tr = before ++ ofPool (.answer i x) :: after ∧ T.Run C s₀ before t ∧
      (t.thread i).pending = some c.query ∧ (t.thread i).log = log₁ ∧ (out x t.db c.query).1 = c.answer := by
  induction h generalizing log₂ with
  | nil =>
    rw [hidle] at hlog
    simp at hlog
  | @snoc tr s s' e hrun _ hstep ih =>
    have hearlier : ∀ log₂, (s.thread i).log = log₁ ++ c :: log₂ →
        ∃ before x after t, tr ++ [e] = before ++ ofPool (.answer i x) :: after ∧ T.Run C s₀ before t ∧
          (t.thread i).pending = some c.query ∧ (t.thread i).log = log₁ ∧ (out x t.db c.query).1 = c.answer := by
      intro log₂ hlog'
      obtain ⟨before, x, after, t, rfl, ht⟩ := ih hlog'
      exact ⟨before, x, after ++ [e], t, by simp, ht⟩
    obtain ⟨e', rfl, h⟩ | ⟨d, rfl⟩ := hT s e s' hstep
    · obtain ⟨j, -, -, rfl⟩ | ⟨j, x, q, k, log, rfl, hj, rfl⟩ := step_cases h
      · rw [goto_log] at hlog
        split at hlog
        · simp at hlog
        · exact hearlier _ hlog
      · rw [goto_log] at hlog
        split at hlog
        · rename_i hij
          subst hij
          obtain ⟨rfl, rfl⟩ | ⟨log₃, hlog₃⟩ := log_snoc hlog
          · exact ⟨tr, x, [], s, rfl, hrun, by rw [hj]; rfl, by rw [hj]; rfl, rfl⟩
          · exact hearlier log₃ (by rw [hj]; exact hlog₃)
        · exact hearlier _ hlog
    · exact hearlier _ hlog

end Locus.Lib
