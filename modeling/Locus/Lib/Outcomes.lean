import Locus.Lib.Guarantee

/-!
# What a result tells of the queries before it

A program that gives a failed query a result of one kind (`Failed`), and results of another (`Refused`) only as long as
no query had an effect, tells by its result what it did (`Prog.Tells`): behind a result that is not `Failed` every query
succeeded, and behind one that is `Refused` none had an effect (`Tells.log`). In a pool the answers on the path to a
result are those of the steps that the program took, whatever the others did in between (`Pool.result_path`).
-/

namespace Locus.Lib

namespace Prog

variable {Q : Type} {A : Q → Type} {E M R S : Type} {effect : (q : Q) → A q → Prop} {Failed Refused : R → Prop}

/-- No result is an `F`. -/
def Never (F : R → Prop) : Prog Q A E M R → Prop
  | done r => ¬ F r
  | query _ k => ∀ a, (k a).Never F
  | read k => ∀ m, (k m).Never F
  | write _ k => k.Never F

/-- A query that fails ends the program with a `Failed` result, and behind an effect no result is `Refused`. -/
def Tells (effect : (q : Q) → A q → Prop) (Failed Refused : R → Prop) : Prog Q A E M R → Prop
  | done _ => True
  | query q k => (∀ err, ∃ r, k (.error err) = done r ∧ Failed r) ∧
      ∀ a, (k (.ok a)).Tells effect Failed Refused ∧ (effect q a → (k (.ok a)).Never Refused)
  | read k => ∀ m, (k m).Tells effect Failed Refused
  | write _ k => k.Tells effect Failed Refused

theorem Never.result {F : R → Prop} {p : Prog Q A E M R} (h : p.Never F) {log : List (Call Q A E)} {r : R}
    (hpath : p.Path log (done r)) : ¬ F r := by
  generalize hq : done r = q at hpath
  induction hpath with
  | here p =>
    subst hq
    exact h
  | read m _ ih => exact ih (h m) hq
  | write _ ih => exact ih h hq
  | query a _ ih => exact ih (h a) hq

/-- **What a result tells.** -/
theorem Tells.log {p : Prog Q A E M R} (h : p.Tells effect Failed Refused) {log : List (Call Q A E)} {r : R}
    (hpath : p.Path log (done r)) (hr : ¬ Failed r) :
    ∀ call ∈ log, ∃ q a, call = ⟨q, .ok a⟩ ∧ (Refused r → ¬ effect q a) := by
  generalize hq : done r = p' at hpath
  induction hpath with
  | here p => exact fun call hcall => absurd hcall List.not_mem_nil
  | read m _ ih => exact ih (h m) hq
  | write _ ih => exact ih h hq
  | @query q k log p' a hrest ih =>
    subst hq
    cases a with
    | error err =>
      obtain ⟨r', hdone, hfailed⟩ := h.1 err
      rw [hdone] at hrest
      cases (path_done.mp hrest).2
      exact absurd hfailed hr
    | ok a =>
      intro call hcall
      rcases List.mem_cons.mp hcall with rfl | hcall
      · exact ⟨q, a, rfl, fun hrefused heffect => ((h.2 a).2 heffect).result hrest hrefused⟩
      · exact ih (h.2 a).1 rfl call hcall

theorem tryCatch_tells {q : Q} {f : A q → ExceptT E (Prog Q A E M) R} {handler : E → Prog Q A E M R}
    (hfailed : ∀ err, ∃ r, handler err = done r ∧ Failed r)
    (hok : ∀ a, (tryCatch (f a) handler).Tells effect Failed Refused ∧
      (effect q a → (tryCatch (f a) handler).Never Refused)) :
    (tryCatch (await q >>= f) handler).Tells effect Failed Refused := by
  obtain ⟨k, hk, hkok, hkerr⟩ := tryCatch_query q f handler
  rw [hk]
  refine ⟨fun err => by rw [hkerr]; exact hfailed err, fun a => ?_⟩
  rw [hkok]
  exact hok a

theorem tryCatch_never {F : R → Prop} {q : Q} {f : A q → ExceptT E (Prog Q A E M) R} {handler : E → Prog Q A E M R}
    (herr : ∀ err, (handler err).Never F) (hok : ∀ a, (tryCatch (f a) handler).Never F) :
    (tryCatch (await q >>= f) handler).Never F := by
  obtain ⟨k, hk, hkok, hkerr⟩ := tryCatch_query q f handler
  rw [hk]
  intro a
  cases a with
  | ok a =>
    rw [hkok]
    exact hok a
  | error err =>
    rw [hkerr]
    exact herr err

end Prog

namespace Pool

open Prog

variable {ι DB X Q : Type} {A : Q → Type} {E M R : Type} [DecidableEq ι]
  {prog : ι → Prog Q A E M R} {out : Outside X DB Q A E} {s s' : Pool ι DB Q A E M R}

theorem result_path {C : Pool ι DB Q A E M R → PoolEvent ι X → Prop} {Init : DB → M → Prop} {i : ι} {r : R}
    (h : (system prog out Init).Reachable C s) {x : X} (hstep : (system prog out Init).step s (.answer i x) = some s')
    {tr : List (PoolEvent ι X)} {t : Pool ι DB Q A E M R} (hrun : (system prog out Init).Run C s' tr t)
    (hresult : (t.thread i).result = some r) :
    ∃ q log, (s.thread i).pending = some q ∧ s'.db = (out x s.db q).2 ∧ (prog i).Path log (done r) ∧
      ⟨q, (out x s.db q).1⟩ ∈ log := by
  replace hstep : step prog out s (.answer i x) = some s' := hstep
  have hs' : OnPath prog s' := onPath_step (path h) hstep
  obtain ⟨q, k, log, hi, rfl⟩ := answer_cases hstep
  have hmem : ⟨q, (out x s.db q).1⟩ ∈ (t.thread i).log := by
    refine (log_grows hrun i).subset ?_
    rw [goto_log, if_pos rfl]
    exact List.mem_append_right _ (List.mem_singleton_self _)
  have ht : OnPath prog t := hrun.invariant (OnPath prog) hs' fun _ _ _ hu _ hnext => onPath_step hu hnext
  obtain ⟨log', hthread⟩ := Thread.result_eq_some.mp hresult
  rw [hthread] at hmem
  exact ⟨q, log', by rw [hi]; rfl, rfl, (ht i _ _ hthread).1, hmem⟩

end Pool

end Locus.Lib
