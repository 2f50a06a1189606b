import Locus.Lib.System
import Mathlib.Data.Fintype.BigOperators
import Mathlib.Algebra.BigOperators.Group.Finset.Basic

/-!
# Asynchronous programs and pools of them

A `Prog` is the body of an asynchronous function of a single-threaded host: it awaits queries to the
outside (`query`), and between two awaits it reads and writes the memory that all functions share
(`read`, `write`) without being interrupted. A query may fail, so a program continues from an
`Except`.

Two semantics are given to the same program. `Prog.run` executes it alone, each query answered by an
input that the environment chooses (its clock, its faults). A `Pool` runs any number of programs on one
outside and one memory: a step starts a program or answers the query that one of them awaits, and
then runs that program up to its next await. `Prog.Path` are the answers under which a program gets
from its start to a later point; a pool keeps every thread on a path of its program (`Pool.path`), so
that a proof about all interleavings reads the possible points of a thread off its program.
-/

namespace Locus.Lib

/-- An asynchronous program: queries `q : Q` answered in `A q` or failing with an `E`, a shared memory
`M`, and a result in `R`. -/
inductive Prog (Q : Type) (A : Q → Type) (E M R : Type) : Type
  | done (r : R)
  | query (q : Q) (k : Except E (A q) → Prog Q A E M R)
  | read (k : M → Prog Q A E M R)
  | write (m : M) (k : Prog Q A E M R)

namespace Prog

variable {Q : Type} {A : Q → Type} {E M R S X DB : Type}

def bind : Prog Q A E M R → (R → Prog Q A E M S) → Prog Q A E M S
  | done r, f => f r
  | query q k, f => query q fun a => (k a).bind f
  | read k, f => read fun m => (k m).bind f
  | write m k, f => write m (k.bind f)

instance : Monad (Prog Q A E M) where
  pure := done
  bind := bind

def await (q : Q) : ExceptT E (Prog Q A E M) (A q) := ExceptT.mk (query q done)

def getMem : Prog Q A E M M := read done

def setMem (m : M) : Prog Q A E M Unit := write m (done ())

/-- `try { body } catch (err) { handler }`. -/
def tryCatch (body : ExceptT E (Prog Q A E M) R) (handler : E → Prog Q A E M R) : Prog Q A E M R :=
  body.run.bind fun
    | .ok r => done r
    | .error err => handler err

/-- Run to the next await: the memory operations before it are done at once. -/
def settle : Prog Q A E M R → M → M × Prog Q A E M R
  | done r, m => (m, done r)
  | query q k, m => (m, query q k)
  | read k, m => (k m).settle m
  | write m' k, _ => k.settle m'

/-- What the outside does with a query: its answer, and the outside afterwards. The input `x : X` is
what the environment chooses for this query. -/
abbrev Outside (X DB Q : Type) (A : Q → Type) (E : Type) := X → DB → (q : Q) → Except E (A q) × DB

/-- The program alone: its queries are answered in turn, the `n`-th under the input `x n`. -/
def run (out : Outside X DB Q A E) : Prog Q A E M R → (ℕ → X) → DB → M → R × DB × M
  | done r, _, d, m => (r, d, m)
  | query q k, x, d, m => (k (out (x 0) d q).1).run out (fun n => x (n + 1)) (out (x 0) d q).2 m
  | read k, x, d, m => (k m).run out x d m
  | write m' k, x, d, _ => k.run out x d m'

/-- A query with the answer it got. -/
structure Call (Q : Type) (A : Q → Type) (E : Type) where
  query : Q
  answer : Except E (A query)

/-- The queries of `Prog.run` with their answers. -/
def trace (out : Outside X DB Q A E) : Prog Q A E M R → (ℕ → X) → DB → M → List (Call Q A E)
  | done _, _, _, _ => []
  | query q k, x, d, m =>
    ⟨q, (out (x 0) d q).1⟩ :: (k (out (x 0) d q).1).trace out (fun n => x (n + 1)) (out (x 0) d q).2 m
  | read k, x, d, m => (k m).trace out x d m
  | write m' k, x, d, _ => k.trace out x d m'

/-- The program with a fixed answer to every query: its result and the memory behind it. -/
def eval (ans : (q : Q) → Except E (A q)) : Prog Q A E M R → M → R × M
  | done r, m => (r, m)
  | query q k, m => (k (ans q)).eval ans m
  | read k, m => (k m).eval ans m
  | write m' k, _ => k.eval ans m'

theorem run_eq_eval {ans : (q : Q) → Except E (A q)} {out : Outside X DB Q A E} {p : Prog Q A E M R}
    {x : ℕ → X} {d : DB} {m : M} (h : ∀ call ∈ p.trace out x d m, call.answer = ans call.query) :
    ((p.run out x d m).1, (p.run out x d m).2.2) = p.eval ans m := by
  induction p generalizing x d m with
  | done r => rfl
  | query q k ih =>
    have hanswer : (out (x 0) d q).1 = ans q := h ⟨q, (out (x 0) d q).1⟩ List.mem_cons_self
    rw [run, eval, ← hanswer]
    exact ih _ fun call hcall => h call (List.mem_cons_of_mem _ hcall)
  | read k ih => exact ih m h
  | write m' k ih => exact ih h

/-- `p₀.Path log p`: under the answers `log`, and some contents of the memory, `p₀` gets to `p`. -/
inductive Path : Prog Q A E M R → List (Call Q A E) → Prog Q A E M R → Prop
  | here (p) : Path p [] p
  | read {k : M → Prog Q A E M R} {log p} (m : M) : Path (k m) log p → Path (.read k) log p
  | write {m : M} {k : Prog Q A E M R} {log p} : Path k log p → Path (.write m k) log p
  | query {q : Q} {k : Except E (A q) → Prog Q A E M R} {log p} (a : Except E (A q)) :
      Path (k a) log p → Path (.query q k) (⟨q, a⟩ :: log) p

theorem Path.settle {p₀ p : Prog Q A E M R} {log : List (Call Q A E)} (h : p₀.Path log p) (m : M) :
    p₀.Path log (p.settle m).2 := by
  induction h with
  | here p =>
    induction p generalizing m with
    | done r => exact .here _
    | query q k => exact .here _
    | read k ih => exact .read m (ih m m)
    | write m' k ih => exact .write (ih m')
  | read m' _ ih => exact .read m' ih
  | write _ ih => exact .write ih
  | query a _ ih => exact .query a ih

theorem Path.answer {p₀ : Prog Q A E M R} {log : List (Call Q A E)} {q : Q}
    {k : Except E (A q) → Prog Q A E M R} (h : p₀.Path log (.query q k)) (a : Except E (A q)) :
    p₀.Path (log ++ [⟨q, a⟩]) (k a) := by
  generalize hp : Prog.query q k = p at h
  induction h with
  | here p => subst hp; exact .query a (.here _)
  | read m _ ih => exact .read m (ih hp)
  | write _ ih => exact .write (ih hp)
  | query a' _ ih => exact .query a' (ih hp)

@[simp] theorem path_done {r : R} {log : List (Call Q A E)} {p : Prog Q A E M R} :
    (done r).Path log p ↔ log = [] ∧ p = done r := by
  constructor
  · intro h
    cases h with
    | here => exact ⟨rfl, rfl⟩
  · rintro ⟨rfl, rfl⟩
    exact .here _

theorem path_query {q : Q} {k : Except E (A q) → Prog Q A E M R} {log : List (Call Q A E)}
    {p : Prog Q A E M R} :
    (query q k).Path log p ↔
      (log = [] ∧ p = query q k) ∨ ∃ a log', log = ⟨q, a⟩ :: log' ∧ (k a).Path log' p := by
  constructor
  · intro h
    cases h with
    | here => exact .inl ⟨rfl, rfl⟩
    | query a h => exact .inr ⟨a, _, rfl, h⟩
  · rintro (⟨rfl, rfl⟩ | ⟨a, log', rfl, h⟩)
    · exact .here _
    · exact .query a h

/-- The program waits for the answer to `q`. -/
def Awaits (p : Prog Q A E M R) (q : Q) : Prop := ∃ k, p = query q k

/-- Every query that the program can come to meets `P` with its continuation. -/
def Always (P : (q : Q) → (Except E (A q) → Prog Q A E M R) → Prop) : Prog Q A E M R → Prop
  | done _ => True
  | query q k => P q k ∧ ∀ a, (k a).Always P
  | read k => ∀ m, (k m).Always P
  | write _ k => k.Always P

theorem Path.always {P : (q : Q) → (Except E (A q) → Prog Q A E M R) → Prop} {p₀ p : Prog Q A E M R}
    {log : List (Call Q A E)} (h : p₀.Path log p) (h₀ : p₀.Always P) : p.Always P := by
  induction h with
  | here p => exact h₀
  | read m _ ih => exact ih (h₀ m)
  | write _ ih => exact ih h₀
  | query a _ ih => exact ih (h₀.2 a)

theorem tryCatch_query (q : Q) (f : A q → ExceptT E (Prog Q A E M) R) (handler : E → Prog Q A E M R) :
    ∃ k, tryCatch (await q >>= f) handler = query q k ∧ (∀ a, k (.ok a) = tryCatch (f a) handler) ∧
      ∀ err, k (.error err) = handler err :=
  ⟨_, rfl, fun _ => rfl, fun _ => rfl⟩

theorem tryCatch_await_eval (ans : (q : Q) → Except E (A q)) (q : Q) (f : A q → ExceptT E (Prog Q A E M) R)
    (handler : E → Prog Q A E M R) (m : M) :
    (tryCatch (await q >>= f) handler).eval ans m =
      match ans q with
      | .ok a => (tryCatch (f a) handler).eval ans m
      | .error err => (handler err).eval ans m := by
  obtain ⟨k, hk, hok, herr⟩ := tryCatch_query q f handler
  rw [hk, eval]
  cases ans q with
  | ok a => rw [hok]
  | error err => rw [herr]

/-- Every query that the program can send meets `P`. -/
abbrev Sends (P : Q → Prop) (p : Prog Q A E M R) : Prop := p.Always fun q _ => P q

/-- An invariant of the outside that every sent query keeps is kept by the run. -/
theorem Sends.run {P : Q → Prop} {out : Outside X DB Q A E} {I : DB → Prop} {p : Prog Q A E M R}
    (h : p.Sends P) (hI : ∀ x d q, P q → I d → I (out x d q).2) {x : ℕ → X} {d : DB} {m : M}
    (h₀ : I d) : I (p.run out x d m).2.1 := by
  induction p generalizing x d m with
  | done r => exact h₀
  | query q k ih => exact ih _ (h.2 _) (hI _ _ _ h.1 h₀)
  | read k ih => exact ih _ (h _) h₀
  | write m' k ih => exact ih h h₀

/-- **Two-run rule**: two outsides related by `R`, which every sent query answers alike and keeps related, are
not told apart by the program. -/
theorem Sends.run_two {P : Q → Prop} {out : Outside X DB Q A E} (R : DB → DB → Prop) {p : Prog Q A E M S}
    (h : p.Sends P) (hR : ∀ x d d' q, P q → R d d' →
      (out x d q).1 = (out x d' q).1 ∧ R (out x d q).2 (out x d' q).2)
    {x : ℕ → X} {d d' : DB} {m : M} (h₀ : R d d') :
    (p.run out x d m).1 = (p.run out x d' m).1 ∧ R (p.run out x d m).2.1 (p.run out x d' m).2.1 ∧
      (p.run out x d m).2.2 = (p.run out x d' m).2.2 := by
  induction p generalizing x d d' m with
  | done r => exact ⟨rfl, h₀, rfl⟩
  | query q k ih =>
    obtain ⟨hanswer, hrel⟩ := hR (x 0) d d' q h.1 h₀
    simp only [Prog.run, hanswer]
    exact ih _ (h.2 _) hrel
  | read k ih => exact ih _ (h _) h₀
  | write m' k ih => exact ih h h₀

/-- If the outside answers every sent query by `ans` and stays as it is, all calls are answered by `ans`. -/
theorem Sends.trace_eq {P : Q → Prop} {out : Outside X DB Q A E} {ans : (q : Q) → Except E (A q)}
    {p : Prog Q A E M R} {x : ℕ → X} {d : DB} {m : M} (h : p.Sends P)
    (hout : ∀ n q, P q → out (x n) d q = (ans q, d)) :
    ∀ call ∈ p.trace out x d m, call.answer = ans call.query := by
  induction p generalizing x m with
  | done r => exact fun call hcall => absurd hcall List.not_mem_nil
  | query q k ih =>
    intro call hcall
    have hanswer := hout 0 q h.1
    rw [trace, hanswer] at hcall
    rcases List.mem_cons.mp hcall with rfl | hcall
    · rfl
    · exact ih _ (h.2 _) (fun n => hout (n + 1)) call hcall
  | read k ih => exact ih m (h m) hout
  | write m' k ih => exact ih h hout

/-- Between programs that keep `J` of the outside and `I` of the memory, the program keeps them too, and its
result meets `F`. -/
def Safe (out : Outside X DB Q A E) (J : DB → Prop) (I : M → Prop) (F : R → Prop) : Prog Q A E M R → Prop
  | done r => F r
  | query q k => ∀ x d, J d → J (out x d q).2 ∧ (k (out x d q).1).Safe out J I F
  | read k => ∀ m, I m → (k m).Safe out J I F
  | write m k => I m ∧ k.Safe out J I F

section
variable {out : Outside X DB Q A E} {J : DB → Prop} {I : M → Prop} {F : R → Prop}

theorem Safe.settle {p : Prog Q A E M R} (h : p.Safe out J I F) {m : M} (hm : I m) :
    I (p.settle m).1 ∧ (p.settle m).2.Safe out J I F := by
  induction p generalizing m with
  | done r => exact ⟨hm, h⟩
  | query q k => exact ⟨hm, h⟩
  | read k ih => exact ih m (h m hm) hm
  | write m' k ih => exact ih h.2 h.1

theorem tryCatch_safe {q : Q} {f : A q → ExceptT E (Prog Q A E M) R} {handler : E → Prog Q A E M R}
    (hJ : ∀ x d, J d → J (out x d q).2)
    (hok : ∀ x d a, J d → (out x d q).1 = .ok a → (tryCatch (f a) handler).Safe out J I F)
    (herr : ∀ err, (handler err).Safe out J I F) : (tryCatch (await q >>= f) handler).Safe out J I F := by
  obtain ⟨k, hk, hkok, hkerr⟩ := tryCatch_query q f handler
  rw [hk]
  intro x d hd
  refine ⟨hJ x d hd, ?_⟩
  cases ha : (out x d q).1 with
  | ok a =>
    rw [hkok]
    exact hok x d a hd ha
  | error err =>
    rw [hkerr]
    exact herr err

end

/-- Every point behind an answer meets `S`. -/
abbrev Points (S : Prog Q A E M R → Prop) (p : Prog Q A E M R) : Prop := p.Always fun _ k => ∀ a, S (k a)

theorem tryCatch_points {S : Prog Q A E M R → Prop} {q : Q} {f : A q → ExceptT E (Prog Q A E M) R}
    {handler : E → Prog Q A E M R}
    (hok : ∀ a, S (tryCatch (f a) handler) ∧ (tryCatch (f a) handler).Points S)
    (herr : ∀ err, S (handler err) ∧ (handler err).Points S) : (tryCatch (await q >>= f) handler).Points S := by
  obtain ⟨k, hk, hkok, hkerr⟩ := tryCatch_query q f handler
  rw [hk]
  have hpoint : ∀ a, S (k a) ∧ (k a).Points S := by
    intro a
    cases a with
    | ok a => exact hkok a ▸ hok a
    | error err => exact hkerr err ▸ herr err
  exact ⟨fun a => (hpoint a).1, fun a => (hpoint a).2⟩

theorem tryCatch_sends {P : Q → Prop} {q : Q} {f : A q → ExceptT E (Prog Q A E M) R}
    {handler : E → Prog Q A E M R} (hq : P q) (hok : ∀ a, (tryCatch (f a) handler).Sends P)
    (herr : ∀ err, (handler err).Sends P) : (tryCatch (await q >>= f) handler).Sends P := by
  obtain ⟨k, hk, hkok, hkerr⟩ := tryCatch_query q f handler
  rw [hk]
  refine ⟨hq, fun a => ?_⟩
  cases a with
  | ok a =>
    rw [hkok]
    exact hok a
  | error err =>
    rw [hkerr]
    exact herr err

theorem sends_of_tryCatch {P : Q → Prop} {q : Q} {f : A q → ExceptT E (Prog Q A E M) R}
    {handler : E → Prog Q A E M R} (h : (tryCatch (await q >>= f) handler).Sends P) :
    P q ∧ ∀ a, (tryCatch (f a) handler).Sends P := by
  obtain ⟨k, hk, hkok, -⟩ := tryCatch_query q f handler
  rw [hk] at h
  exact ⟨h.1, fun a => hkok a ▸ h.2 (.ok a)⟩

theorem await_bind_assoc {S T : Type} (q : Q) (f : A q → ExceptT E (Prog Q A E M) S)
    (g : S → ExceptT E (Prog Q A E M) T) :
    (await q >>= f) >>= g = await q >>= fun a => f a >>= g := by
  refine congrArg (Prog.query q) (funext fun a => ?_)
  cases a <;> rfl

/-- A `try` that starts with a query, run alone: the rest of it after an answer, the handler after an
error. -/
theorem tryCatch_run {out : Outside X DB Q A E} {q : Q} (f : A q → ExceptT E (Prog Q A E M) R)
    (handler : E → Prog Q A E M R) {x : ℕ → X} {d d' : DB} (m : M) :
    (∀ a, out (x 0) d q = (.ok a, d') →
      (tryCatch (await q >>= f) handler).run out x d m =
        (tryCatch (f a) handler).run out (fun n => x (n + 1)) d' m ∧
      (tryCatch (await q >>= f) handler).trace out x d m =
        ⟨q, .ok a⟩ :: (tryCatch (f a) handler).trace out (fun n => x (n + 1)) d' m) ∧
    (∀ err, out (x 0) d q = (.error err, d') →
      (tryCatch (await q >>= f) handler).run out x d m =
        (handler err).run out (fun n => x (n + 1)) d' m ∧
      (tryCatch (await q >>= f) handler).trace out x d m =
        ⟨q, .error err⟩ :: (handler err).trace out (fun n => x (n + 1)) d' m) := by
  obtain ⟨k, hk, hok, herr⟩ := tryCatch_query q f handler
  refine ⟨fun a ha => ?_, fun err herr' => ?_⟩
  · rw [hk, run, trace, ha, hok]
    exact ⟨rfl, rfl⟩
  · rw [hk, run, trace, herr', herr]
    exact ⟨rfl, rfl⟩

/-- Where a `try` can be that starts with a query: at the query, behind its answer, or in the handler of
its error. -/
theorem tryCatch_path {q : Q} {f : A q → ExceptT E (Prog Q A E M) R} {handler : E → Prog Q A E M R}
    {log : List (Call Q A E)} {p : Prog Q A E M R}
    (h : (tryCatch (await q >>= f) handler).Path log p) :
    (log = [] ∧ p.Awaits q) ∨
    (∃ a log', log = ⟨q, .ok a⟩ :: log' ∧ (tryCatch (f a) handler).Path log' p) ∨
    (∃ err log', log = ⟨q, .error err⟩ :: log' ∧ (handler err).Path log' p) := by
  obtain ⟨k, hk, hok, herr⟩ := tryCatch_query q f handler
  rw [hk, path_query] at h
  obtain ⟨rfl, rfl⟩ | ⟨a, log', rfl, h'⟩ := h
  · exact .inl ⟨rfl, k, rfl⟩
  · cases a with
    | ok a =>
      rw [hok] at h'
      exact .inr (.inl ⟨a, log', rfl, h'⟩)
    | error err =>
      rw [herr] at h'
      exact .inr (.inr ⟨err, log', rfl, h'⟩)

theorem tryCatch_pure_path {r : R} {handler : E → Prog Q A E M R} {log : List (Call Q A E)}
    {p : Prog Q A E M R} (h : (tryCatch (pure r) handler).Path log p) : log = [] ∧ p = done r :=
  path_done.mp h

/-- The program awaits a query or is done. -/
def Settled : Prog Q A E M R → Prop
  | done _ => True
  | query _ _ => True
  | _ => False

theorem settle_settled (p : Prog Q A E M R) (m : M) : (p.settle m).2.Settled := by
  induction p generalizing m with
  | done r => trivial
  | query q k => trivial
  | read k ih => exact ih m m
  | write m' k ih => exact ih m'

end Prog

/-! ### Pools -/

open Prog

/-- Where one program of a pool stands: not started, or at `p` after the answers `log`. -/
inductive Thread (Q : Type) (A : Q → Type) (E M R : Type) : Type
  | idle
  | live (p : Prog Q A E M R) (log : List (Call Q A E))

namespace Thread

variable {Q : Type} {A : Q → Type} {E M R : Type}

def log : Thread Q A E M R → List (Call Q A E)
  | idle => []
  | live _ log => log

/-- The query the thread awaits. -/
def pending : Thread Q A E M R → Option Q
  | live (.query q _) _ => some q
  | _ => none

def result : Thread Q A E M R → Option R
  | live (.done r) _ => some r
  | _ => none

@[simp] theorem pending_idle : (idle : Thread Q A E M R).pending = none := rfl
@[simp] theorem pending_done (r : R) (l : List (Call Q A E)) :
    (live (.done r) l : Thread Q A E M R).pending = none := rfl
@[simp] theorem pending_query (q : Q) (k : Except E (A q) → Prog Q A E M R) (l : List (Call Q A E)) :
    (live (.query q k) l).pending = some q := rfl

@[simp] theorem log_idle : (idle : Thread Q A E M R).log = [] := rfl
@[simp] theorem log_live (p : Prog Q A E M R) (l : List (Call Q A E)) : (live p l).log = l := rfl

theorem result_eq_some {t : Thread Q A E M R} {r : R} :
    t.result = some r ↔ ∃ log, t = live (.done r) log := by
  constructor
  · intro h
    match t, h with
    | live (.done r') log, h =>
      cases h
      exact ⟨log, rfl⟩
  · rintro ⟨log, rfl⟩
    rfl

end Thread

/-- The outside, the shared memory, and the threads. -/
structure Pool (ι DB Q : Type) (A : Q → Type) (E M R : Type) where
  db : DB
  mem : M
  thread : ι → Thread Q A E M R

/-- A step of a pool: a program starts, or the query it awaits is answered. -/
inductive PoolEvent (ι X : Type)
  | start (i : ι)
  | answer (i : ι) (x : X)

namespace Pool

variable {ι DB X Q : Type} {A : Q → Type} {E M R : Type} [DecidableEq ι]

/-- Put thread `i` at `p`, run up to its next await. -/
def goto (s : Pool ι DB Q A E M R) (i : ι) (d : DB) (p : Prog Q A E M R) (log : List (Call Q A E)) :
    Pool ι DB Q A E M R where
  db := d
  mem := (p.settle s.mem).1
  thread := Function.update s.thread i (.live (p.settle s.mem).2 log)

@[simp] theorem goto_db (s : Pool ι DB Q A E M R) (i : ι) (d : DB) (p : Prog Q A E M R)
    (log : List (Call Q A E)) : (s.goto i d p log).db = d := rfl

theorem goto_self (s : Pool ι DB Q A E M R) (i : ι) (d : DB) (p : Prog Q A E M R)
    (log : List (Call Q A E)) :
    (s.goto i d p log).thread i = .live (p.settle s.mem).2 log := Function.update_self ..

theorem goto_other (s : Pool ι DB Q A E M R) {i j : ι} (h : j ≠ i) (d : DB) (p : Prog Q A E M R)
    (log : List (Call Q A E)) : (s.goto i d p log).thread j = s.thread j :=
  Function.update_of_ne h ..

theorem goto_log (s : Pool ι DB Q A E M R) (i j : ι) (d : DB) (p : Prog Q A E M R)
    (log : List (Call Q A E)) :
    ((s.goto i d p log).thread j).log = if j = i then log else (s.thread j).log := by
  by_cases h : j = i
  · subst h
    rw [goto_self, if_pos rfl, Thread.log_live]
  · rw [goto_other _ h, if_neg h]

/-- What thread `i` awaits when it goes on to a query, or to its end. -/
theorem goto_pending_of_awaits (s : Pool ι DB Q A E M R) (i : ι) (d : DB) {p : Prog Q A E M R} {q : Q}
    (log : List (Call Q A E)) (h : p.Awaits q) : ((s.goto i d p log).thread i).pending = some q := by
  obtain ⟨k, rfl⟩ := h
  rw [goto_self]
  rfl

theorem goto_pending_of_done (s : Pool ι DB Q A E M R) (i : ι) (d : DB) {p : Prog Q A E M R}
    (log : List (Call Q A E)) (h : ∃ r, p = done r) : ((s.goto i d p log).thread i).pending = none := by
  obtain ⟨r, rfl⟩ := h
  rw [goto_self]
  rfl

def step (prog : ι → Prog Q A E M R) (out : Outside X DB Q A E) (s : Pool ι DB Q A E M R) :
    PoolEvent ι X → Option (Pool ι DB Q A E M R)
  | .start i =>
    match s.thread i with
    | .idle => some (s.goto i s.db (prog i) [])
    | .live _ _ => none
  | .answer i x =>
    match s.thread i with
    | .live (.query q k) log =>
      some (s.goto i (out x s.db q).2 (k (out x s.db q).1) (log ++ [⟨q, (out x s.db q).1⟩]))
    | _ => none

/-- The pool of the programs `prog`, none of them started, on an outside and a memory that meet
`Init`. -/
def system (prog : ι → Prog Q A E M R) (out : Outside X DB Q A E) (Init : DB → M → Prop) :
    System (Pool ι DB Q A E M R) (PoolEvent ι X) where
  Init s := Init s.db s.mem ∧ ∀ i, s.thread i = .idle
  step := step prog out

variable {prog : ι → Prog Q A E M R} {out : Outside X DB Q A E}

theorem step_cases {s s' : Pool ι DB Q A E M R} {e : PoolEvent ι X}
    (h : step prog out s e = some s') :
    (∃ i, e = .start i ∧ s.thread i = .idle ∧ s' = s.goto i s.db (prog i) []) ∨
    (∃ i x q k log, e = .answer i x ∧ s.thread i = .live (.query q k) log ∧
      s' = s.goto i (out x s.db q).2 (k (out x s.db q).1) (log ++ [⟨q, (out x s.db q).1⟩])) := by
  cases e with
  | start i =>
    simp only [step] at h
    split at h
    · rename_i hi
      exact .inl ⟨i, rfl, hi, by simpa using h.symm⟩
    · cases h
  | answer i x =>
    simp only [step] at h
    split at h
    · rename_i q k log hi
      exact .inr ⟨i, x, q, k, log, rfl, hi, by simpa using h.symm⟩
    · cases h

theorem answer_cases {s s' : Pool ι DB Q A E M R} {i : ι} {x : X}
    (h : step prog out s (.answer i x) = some s') : ∃ q k log, s.thread i = .live (.query q k) log ∧
      s' = s.goto i (out x s.db q).2 (k (out x s.db q).1) (log ++ [⟨q, (out x s.db q).1⟩]) := by
  obtain ⟨j, hj, -⟩ | ⟨j, x', q, k, log, hj, hi, hs'⟩ := step_cases h
  · cases hj
  · cases hj
    exact ⟨q, k, log, hi, hs'⟩

/-- Every thread of the pool stands at a settled point on a path of its program. -/
def OnPath (prog : ι → Prog Q A E M R) (s : Pool ι DB Q A E M R) : Prop :=
  ∀ i p log, s.thread i = .live p log → (prog i).Path log p ∧ p.Settled

theorem onPath_step {s s' : Pool ι DB Q A E M R} {e : PoolEvent ι X} (hs : OnPath prog s)
    (h : step prog out s e = some s') : OnPath prog s' := by
  intro j p' log' hj
  obtain ⟨i, rfl, hi, rfl⟩ | ⟨i, x, q, k, log, rfl, hi, rfl⟩ := step_cases h
  · by_cases hji : j = i
    · subst hji
      rw [goto_self] at hj
      cases hj
      exact ⟨Path.settle (.here _) _, settle_settled _ _⟩
    · rw [goto_other _ hji] at hj
      exact hs j _ _ hj
  · by_cases hji : j = i
    · subst hji
      rw [goto_self] at hj
      cases hj
      exact ⟨((hs j _ _ hi).1.answer _).settle _, settle_settled _ _⟩
    · rw [goto_other _ hji] at hj
      exact hs j _ _ hj

omit [DecidableEq ι] in
theorem onPath_of_idle {s : Pool ι DB Q A E M R} (h : ∀ i, s.thread i = .idle) : OnPath prog s := by
  intro i p log hi
  rw [h i] at hi
  cases hi

/-- **Threads stay on their programs**, whatever the interleaving. -/
theorem path {C : Pool ι DB Q A E M R → PoolEvent ι X → Prop} {Init : DB → M → Prop}
    {s : Pool ι DB Q A E M R} (h : (system prog out Init).Reachable C s) : OnPath prog s :=
  h.invariant (OnPath prog) (fun _ h₀ => onPath_of_idle h₀.2) fun _ _ _ hs _ hstep =>
    onPath_step hs hstep

/-- Every thread is safe, and the outside and the memory are as they should be. -/
structure SafePool (out : Outside X DB Q A E) (J : DB → Prop) (I : M → Prop) (F : ι → R → Prop)
    (s : Pool ι DB Q A E M R) : Prop where
  db : J s.db
  mem : I s.mem
  thread : ∀ i p log, s.thread i = .live p log → p.Safe out J I (F i)

theorem SafePool.goto {J : DB → Prop} {I : M → Prop} {F : ι → R → Prop} {s : Pool ι DB Q A E M R}
    (h : SafePool out J I F s) (i : ι) {d : DB} (hd : J d) {p : Prog Q A E M R} (hp : p.Safe out J I (F i))
    (log : List (Call Q A E)) : SafePool out J I F (s.goto i d p log) := by
  obtain ⟨hmem, hsettled⟩ := hp.settle h.mem
  refine ⟨hd, hmem, fun j p' log' hj => ?_⟩
  by_cases hji : j = i
  · subst hji
    rw [goto_self] at hj
    cases hj
    exact hsettled
  · rw [goto_other _ hji] at hj
    exact h.thread j p' log' hj

/-- **Rely-guarantee rule**: if every program keeps `J` and `I` while the others do, they hold in every state
reached, and every result meets its `F`. -/
theorem safe {C : Pool ι DB Q A E M R → PoolEvent ι X → Prop} {Init : DB → M → Prop} {J : DB → Prop}
    {I : M → Prop} {F : ι → R → Prop} (hprog : ∀ i, (prog i).Safe out J I (F i))
    (hinit : ∀ d m, Init d m → J d ∧ I m) {s : Pool ι DB Q A E M R}
    (h : (system prog out Init).Reachable C s) : SafePool out J I F s := by
  refine h.invariant (SafePool out J I F) ?_ ?_
  · rintro s ⟨hs, hidle⟩
    refine ⟨(hinit _ _ hs).1, (hinit _ _ hs).2, fun i p log hi => ?_⟩
    rw [hidle i] at hi
    cases hi
  · intro s e s' hs _ hstep
    obtain ⟨i, -, -, rfl⟩ | ⟨i, x, q, k, log, -, hi, rfl⟩ := step_cases hstep
    · exact hs.goto i hs.db (hprog i) []
    · obtain ⟨hd, hk⟩ := hs.thread i _ _ hi x s.db hs.db
      exact hs.goto i hd hk _

omit [DecidableEq ι] in
theorem SafePool.result {J : DB → Prop} {I : M → Prop} {F : ι → R → Prop} {s : Pool ι DB Q A E M R}
    (h : SafePool out J I F s) {i : ι} {r : R} (hr : (s.thread i).result = some r) : F i r := by
  obtain ⟨log, hlog⟩ := Thread.result_eq_some.mp hr
  exact h.thread i _ _ hlog

theorem goto_pendings (s : Pool ι DB Q A E M R) (i : ι) (d : DB) (p : Prog Q A E M R)
    (log : List (Call Q A E)) :
    (fun j => ((s.goto i d p log).thread j).pending) =
      Function.update (fun j => (s.thread j).pending) i ((s.goto i d p log).thread i).pending := by
  funext j
  by_cases hj : j = i
  · subst hj
    rw [Function.update_self]
  · rw [Function.update_of_ne hj, goto_other _ hj]

end Pool

theorem sum_update {ι α : Type} [DecidableEq ι] [Fintype ι] (f : α → ℕ) (g : ι → α) (i : ι) (a : α) :
    (∑ j, f (Function.update g i a j)) + f (g i) = (∑ j, f (g j)) + f a := by
  have h₁ := Finset.add_sum_erase Finset.univ (fun j => f (Function.update g i a j))
    (Finset.mem_univ i)
  have h₂ := Finset.add_sum_erase Finset.univ (fun j => f (g j)) (Finset.mem_univ i)
  have h₃ : ∑ j ∈ Finset.univ.erase i, f (Function.update g i a j) =
      ∑ j ∈ Finset.univ.erase i, f (g j) :=
    Finset.sum_congr rfl fun j hj => by
      rw [Function.update_of_ne (Finset.ne_of_mem_erase hj)]
  simp only [Function.update_self] at h₁
  omega

end Locus.Lib
