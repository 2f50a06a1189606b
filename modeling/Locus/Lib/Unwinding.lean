import Locus.Lib.Prog

/-!
# Noninterference of programs in one pool

The programs of a pool are split in two: those of `ι` and those of `κ`, of which the first are not to notice
the second. Suppose that the outside can be seen as another one by a relation `S`, so that what the first ask is
answered alike on both sides, and what the second ask does not show on the other (`Unwinding`). Then each run of
the pool is, for the first, a run without the second (`project`), and two runs in which the first take the
same steps look the same to them (`noninterference`), whatever the second do in either.
-/

namespace Locus.Lib

namespace Prog

variable {Q : Type} {A : Q → Type} {E M R X DB : Type}

/-- The program sends queries that meet `P` only, and leaves the memory alone. -/
def OnlySends (P : Q → Prop) : Prog Q A E M R → Prop
  | done _ => True
  | query q k => P q ∧ ∀ a, (k a).OnlySends P
  | read _ => False
  | write _ _ => False

theorem OnlySends.settle {P : Q → Prop} {p : Prog Q A E M R} (h : p.OnlySends P) (m : M) :
    p.settle m = (m, p) := by
  cases p with
  | done r => rfl
  | query q k => rfl
  | read k => exact h.elim
  | write m' k => exact h.elim

theorem OnlySends.sends {P : Q → Prop} {p : Prog Q A E M R} (h : p.OnlySends P) : p.Sends P := by
  induction p with
  | done r => trivial
  | query q k ih => exact ⟨h.1, fun a => ih a (h.2 a)⟩
  | read k => exact h.elim
  | write m' k => exact h.elim

theorem tryCatch_onlySends {P : Q → Prop} {q : Q} {f : A q → ExceptT E (Prog Q A E M) R}
    {handler : E → Prog Q A E M R} (hq : P q) (hok : ∀ a, (tryCatch (f a) handler).OnlySends P)
    (herr : ∀ err, (handler err).OnlySends P) : (tryCatch (await q >>= f) handler).OnlySends P := by
  obtain ⟨k, hk, hkok, hkerr⟩ := tryCatch_query q f handler
  rw [hk]
  refine ⟨hq, fun a => ?_⟩
  cases a with
  | ok a =>
    rw [hkok]
    exact hok a
  | error err =>
    rw [hkerr]
    exact herr err

theorem Always.settle {P : (q : Q) → (Except E (A q) → Prog Q A E M R) → Prop} {p : Prog Q A E M R}
    (h : p.Always P) (m : M) : (p.settle m).2.Always P := ((Path.here p).settle m).always h

end Prog

open Prog

namespace Pool

variable {ι κ κ' X X' DB DB' Q : Type} {A : Q → Type} {E M R : Type}

/-- The steps of `ι`, with what `view` shows of their inputs. -/
def lowEvent (view : X → X') : PoolEvent (ι ⊕ κ) X → Option (PoolEvent ι X')
  | .start (.inl i) => some (.start i)
  | .answer (.inl i) x => some (.answer i (view x))
  | _ => none

/-- Queries that meet `L` are answered alike on related outsides, under inputs that are `Good`, and keep them
related; queries that meet `H` do not show on the second outside. -/
structure Unwinding (out : Outside X DB Q A E) (out' : Outside X' DB' Q A E) (view : X → X') (Good : X → Prop)
    (L H : Q → Prop) (S : DB → DB' → Prop) : Prop where
  low : ∀ x d d' q, Good x → L q → S d d' →
    (out x d q).1 = (out' (view x) d' q).1 ∧ S (out x d q).2 (out' (view x) d' q).2
  high : ∀ x d d' q, H q → S d d' → S (out x d q).2 d'

/-- The second pool has the threads of `ι`, each where it is in the first, on a related outside. -/
structure Projects (L H : Q → Prop) (S : DB → DB' → Prop) (s : Pool (ι ⊕ κ) DB Q A E M R)
    (t : Pool ι DB' Q A E M R) : Prop where
  db : S s.db t.db
  thread : ∀ i, s.thread (.inl i) = t.thread i
  low : ∀ i p log, s.thread (.inl i) = .live p log → p.OnlySends L
  high : ∀ j p log, s.thread (.inr j) = .live p log → p.Sends H

theorem Projects.of_idle {L H : Q → Prop} {S : DB → DB' → Prop} {s : Pool (ι ⊕ κ) DB Q A E M R}
    {t : Pool ι DB' Q A E M R} (hd : S s.db t.db) (hs : ∀ i, s.thread i = .idle) (ht : ∀ i, t.thread i = .idle) :
    Projects L H S s t := by
  refine ⟨hd, fun i => (hs _).trans (ht i).symm, fun i p log hi => ?_, fun j p log hj => ?_⟩
  · rw [hs] at hi
    cases hi
  · rw [hs] at hj
    cases hj

variable [DecidableEq ι] [DecidableEq κ] [DecidableEq κ'] {L H : Q → Prop} {S : DB → DB' → Prop}

theorem Projects.goto_low {s : Pool (ι ⊕ κ) DB Q A E M R} {t : Pool ι DB' Q A E M R} (h : Projects L H S s t)
    (i : ι) {d : DB} {d' : DB'} (hd : S d d') {p : Prog Q A E M R} (hp : p.OnlySends L) (log : List (Call Q A E)) :
    Projects L H S (s.goto (.inl i) d p log) (t.goto i d' p log) := by
  refine ⟨hd, fun j => ?_, fun j p' log' hj => ?_, fun j p' log' hj => ?_⟩
  · by_cases hji : j = i
    · subst hji
      rw [goto_self, goto_self, hp.settle, hp.settle]
    · rw [goto_other _ (by simpa using hji), goto_other _ hji]
      exact h.thread j
  · by_cases hji : j = i
    · subst hji
      rw [goto_self, hp.settle] at hj
      cases hj
      exact hp
    · rw [goto_other _ (by simpa using hji)] at hj
      exact h.low j p' log' hj
  · rw [goto_other _ (by simp)] at hj
    exact h.high j p' log' hj

theorem Projects.goto_high {s : Pool (ι ⊕ κ) DB Q A E M R} {t : Pool ι DB' Q A E M R} (h : Projects L H S s t)
    (j : κ) {d : DB} (hd : S d t.db) {p : Prog Q A E M R} (hp : p.Sends H) (log : List (Call Q A E)) :
    Projects L H S (s.goto (.inr j) d p log) t := by
  refine ⟨hd, fun i => ?_, fun i p' log' hi => ?_, fun k p' log' hk => ?_⟩
  · rw [goto_other _ (by simp)]
    exact h.thread i
  · rw [goto_other _ (by simp)] at hi
    exact h.low i p' log' hi
  · by_cases hkj : k = j
    · subst hkj
      rw [goto_self] at hk
      cases hk
      exact Always.settle hp _
    · rw [goto_other _ (by simpa using hkj)] at hk
      exact h.high k p' log' hk

variable {out : Outside X DB Q A E} {out' : Outside X' DB' Q A E} {view : X → X'} {Good : X → Prop}
  {lowProg : ι → Prog Q A E M R} {highProg : κ → Prog Q A E M R}

/-- The inputs of the steps of `ι` are good. -/
def GoodLow (Good : X → Prop) : PoolEvent (ι ⊕ κ) X → Prop
  | .answer (.inl _) x => Good x
  | _ => True

/-- **A run is, for `ι`, a run without `κ`.** -/
theorem project (hU : Unwinding out out' view Good L H S) (hlow : ∀ i, (lowProg i).OnlySends L)
    (hhigh : ∀ j, (highProg j).Sends H) {Init : DB → M → Prop} {Init' : DB' → M → Prop}
    {s₀ s : Pool (ι ⊕ κ) DB Q A E M R} {t₀ : Pool ι DB' Q A E M R} {tr : List (PoolEvent (ι ⊕ κ) X)}
    (h : (system (Sum.elim lowProg highProg) out Init).Run (fun _ e => GoodLow Good e) s₀ tr s)
    (h₀ : Projects L H S s₀ t₀) :
    ∃ t, (system lowProg out' Init').Run System.Any t₀ (tr.filterMap (lowEvent view)) t ∧ Projects L H S s t := by
  refine h.project (lowEvent view) (Projects L H S) h₀ ?_ ?_
  · intro s e s' t hR _ hstep hnone
    obtain ⟨i, rfl, -, rfl⟩ | ⟨i, x, q, k, log, rfl, hi, rfl⟩ := step_cases hstep
    · cases i with
      | inl i => cases hnone
      | inr j => exact hR.goto_high j hR.db (hhigh j) []
    · cases i with
      | inl i => cases hnone
      | inr j =>
        obtain ⟨hq, hk⟩ := hR.high j _ log hi
        exact hR.goto_high j (hU.high x s.db t.db q hq hR.db) (hk _) _
  · intro s e s' t d hR hgood hstep hsome
    obtain ⟨i, rfl, hi, rfl⟩ | ⟨i, x, q, k, log, rfl, hi, rfl⟩ := step_cases hstep
    · cases i with
      | inr j => cases hsome
      | inl i =>
        cases hsome
        have hidle : t.thread i = .idle := (hR.thread i).symm.trans hi
        refine ⟨trivial, t.goto i t.db (lowProg i) [], ?_, hR.goto_low i hR.db (hlow i) []⟩
        simp only [system, step, hidle]
    · cases i with
      | inr j => cases hsome
      | inl i =>
        cases hsome
        have hlive : t.thread i = .live (.query q k) log := (hR.thread i).symm.trans hi
        obtain ⟨hq, hk⟩ := hR.low i _ log hi
        obtain ⟨hanswer, hdb⟩ := hU.low x s.db t.db q hgood hq hR.db
        refine ⟨trivial, t.goto i (out' (view x) t.db q).2 (k (out' (view x) t.db q).1)
          (log ++ [⟨q, (out' (view x) t.db q).1⟩]), ?_, ?_⟩
        · simp only [system, step, hlive]
        · rw [hanswer]
          exact hR.goto_low i hdb (hk _) _

/-- **Noninterference**: in two runs in which `ι` takes the same steps, its threads go the same way, and both
outsides end related to one. -/
theorem noninterference {highProg' : κ' → Prog Q A E M R} (hU : Unwinding out out' view Good L H S)
    (hlow : ∀ i, (lowProg i).OnlySends L) (hhigh : ∀ j, (highProg j).Sends H)
    (hhigh' : ∀ j, (highProg' j).Sends H) {Init Init' : DB → M → Prop} {s₀ s : Pool (ι ⊕ κ) DB Q A E M R}
    {s₀' s' : Pool (ι ⊕ κ') DB Q A E M R} {t₀ : Pool ι DB' Q A E M R} {tr : List (PoolEvent (ι ⊕ κ) X)}
    {tr' : List (PoolEvent (ι ⊕ κ') X)}
    (h : (system (Sum.elim lowProg highProg) out Init).Run (fun _ e => GoodLow Good e) s₀ tr s)
    (h' : (system (Sum.elim lowProg highProg') out Init').Run (fun _ e => GoodLow Good e) s₀' tr' s')
    (h₀ : Projects L H S s₀ t₀) (h₀' : Projects L H S s₀' t₀)
    (hsame : tr.filterMap (lowEvent view) = tr'.filterMap (lowEvent view)) :
    (∀ i, s.thread (.inl i) = s'.thread (.inl i)) ∧ ∃ d, S s.db d ∧ S s'.db d := by
  let anyInit : DB' → M → Prop := fun _ _ => True
  obtain ⟨t, ht, hR⟩ : ∃ t, (system lowProg out' anyInit).Run System.Any t₀ (tr.filterMap (lowEvent view)) t ∧
    Projects L H S s t := project hU hlow hhigh h h₀
  obtain ⟨t', ht', hR'⟩ : ∃ t', (system lowProg out' anyInit).Run System.Any t₀ (tr'.filterMap (lowEvent view)) t' ∧
    Projects L H S s' t' := project hU hlow hhigh' h' h₀'
  rw [← hsame] at ht'
  obtain rfl := ht.unique ht'
  exact ⟨fun i => (hR.thread i).trans (hR'.thread i).symm, t.db, hR.db, hR'.db⟩

end Pool

end Locus.Lib
