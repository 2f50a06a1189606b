import Locus.Lib.Prog

/-!
# What the programs of a pool do to the outside

Programs that send only queries of a kind do to the outside only what such queries do: an invariant that these
keep holds, and a preorder that they follow relates every state to the later ones (`Pool.guarantee`). A step of a
pool is a start, which leaves the outside as it is, or the answer to a query of that kind (`Pool.db_cases`). Where an
invariant needs what a program was answered before, facts about answers that stay true go with it
(`Pool.answered`), and facts about the answers of all programs go back to these (`Pool.provenance`). Keys that are given
only while they are unused are given once (`Pool.fresh_answers`). From a state on, only the programs without a result
matter (`Pool.unfinished_run`).
-/

namespace Locus.Lib

open Prog

namespace Prog

variable {Q : Type} {A : Q → Type} {E M R S X DB : Type}

/-- The program with its result changed. -/
def map (g : R → S) (p : Prog Q A E M R) : Prog Q A E M S := p.bind fun r => done (g r)

theorem map_sends {P : Q → Prop} {g : R → S} {p : Prog Q A E M R} (h : p.Sends P) : (p.map g).Sends P := by
  induction p with
  | done r => trivial
  | query q k ih => exact ⟨h.1, fun a => ih a (h.2 a)⟩
  | read k ih => exact fun m => ih m (h m)
  | write m k ih => exact ih h

theorem map_path {g : R → S} {p : Prog Q A E M R} {log : List (Call Q A E)} {p' : Prog Q A E M S}
    (h : (p.map g).Path log p') : ∃ q, p.Path log q ∧ p' = q.map g := by
  induction p generalizing log with
  | done r =>
    obtain ⟨rfl, rfl⟩ := path_done.mp h
    exact ⟨done r, .here _, rfl⟩
  | query q k ih =>
    obtain ⟨rfl, rfl⟩ | ⟨a, log', rfl, hrest⟩ := path_query.mp h
    · exact ⟨_, .here _, rfl⟩
    · obtain ⟨q', hq', rfl⟩ := ih a hrest
      exact ⟨q', .query a hq', rfl⟩
  | read k ih =>
    cases h with
    | here => exact ⟨_, .here _, rfl⟩
    | read m h =>
      obtain ⟨q', hq', rfl⟩ := ih m h
      exact ⟨q', .read m hq', rfl⟩
  | write m k ih =>
    cases h with
    | here => exact ⟨_, .here _, rfl⟩
    | write h =>
      obtain ⟨q', hq', rfl⟩ := ih h
      exact ⟨q', .write hq', rfl⟩

theorem map_eq_done {g : R → S} {p : Prog Q A E M R} {s : S} (h : p.map g = done s) :
    ∃ r, p = done r ∧ g r = s := by
  cases p with
  | done r =>
    cases h
    exact ⟨r, rfl, rfl⟩
  | query q k => cases h
  | read k => cases h
  | write m k => cases h

theorem map_awaits {g : R → S} {p : Prog Q A E M R} {q : Q} (h : (p.map g).Awaits q) : p.Awaits q := by
  obtain ⟨k, hk⟩ := h
  cases p with
  | query q' k' =>
    cases hk
    exact ⟨k', rfl⟩
  | done r => cases hk
  | read k => cases hk
  | write m k => cases hk

theorem map_run {out : Outside X DB Q A E} (g : R → S) (p : Prog Q A E M R) (x : ℕ → X) (d : DB) (m : M) :
    (p.map g).run out x d m = (g (p.run out x d m).1, (p.run out x d m).2) := by
  induction p generalizing x d m with
  | done r => rfl
  | query q k ih => exact ih _ _ _ _
  | read k ih => exact ih _ _ _ _
  | write m' k ih => exact ih _ _ _

/-- Behind the answers `log` the program comes to the query `q`. -/
def Comes (p : Prog Q A E M R) (log : List (Call Q A E)) (q : Q) : Prop := ∃ k, p.Path log (query q k)

@[simp] theorem comes_done {r : R} {log : List (Call Q A E)} {q : Q} : ¬ (done r : Prog Q A E M R).Comes log q := by
  rintro ⟨k, h⟩
  cases (path_done.mp h).2

theorem comes_query {q q' : Q} {k : Except E (A q) → Prog Q A E M R} {log : List (Call Q A E)} :
    (query q k).Comes log q' ↔ (log = [] ∧ q' = q) ∨ ∃ a log', log = ⟨q, a⟩ :: log' ∧ (k a).Comes log' q' := by
  constructor
  · rintro ⟨k', h⟩
    obtain ⟨rfl, heq⟩ | ⟨a, log', rfl, hrest⟩ := path_query.mp h
    · cases heq
      exact .inl ⟨rfl, rfl⟩
    · exact .inr ⟨a, log', rfl, k', hrest⟩
  · rintro (⟨rfl, rfl⟩ | ⟨a, log', rfl, k', hrest⟩)
    · exact ⟨k, .here _⟩
    · exact ⟨k', .query a hrest⟩

theorem comes_map {g : R → S} {p : Prog Q A E M R} {log : List (Call Q A E)} {q : Q}
    (h : (p.map g).Comes log q) : p.Comes log q := by
  obtain ⟨k, hpath⟩ := h
  obtain ⟨p', hp', heq⟩ := map_path hpath
  obtain ⟨k', rfl⟩ := map_awaits ⟨k, heq.symm⟩
  exact ⟨k', hp'⟩

theorem Sends.mono {P P' : Q → Prop} {p : Prog Q A E M R} (h : p.Sends P) (hP : ∀ q, P q → P' q) : p.Sends P' := by
  induction p with
  | done r => trivial
  | query q k ih => exact ⟨hP q h.1, fun a => ih a (h.2 a)⟩
  | read k ih => exact fun m => ih m (h m)
  | write m k ih => exact ih h

theorem Sends.and {P P' : Q → Prop} {p : Prog Q A E M R} (h : p.Sends P) (h' : p.Sends P') :
    p.Sends fun q => P q ∧ P' q := by
  induction p with
  | done r => trivial
  | query q k ih => exact ⟨⟨h.1, h'.1⟩, fun a => ih a (h.2 a) (h'.2 a)⟩
  | read k ih => exact fun m => ih m (h m) (h' m)
  | write m k ih => exact ih h h'

theorem Sends.log {P : Q → Prop} {p p' : Prog Q A E M R} {log : List (Call Q A E)} (h : p.Sends P)
    (hpath : p.Path log p') : ∀ call ∈ log, P call.query := by
  induction hpath with
  | here p => exact fun call hcall => absurd hcall List.not_mem_nil
  | read m _ ih => exact ih (h m)
  | write _ ih => exact ih h
  | query a _ ih =>
    intro call hcall
    rcases List.mem_cons.mp hcall with rfl | hcall
    · exact h.1
    · exact ih (h.2 a) call hcall

end Prog

namespace Pool

variable {ι DB X Q : Type} {A : Q → Type} {E M R : Type} [DecidableEq ι]
  {prog : ι → Prog Q A E M R} {out : Outside X DB Q A E} {P : ι → Q → Prop} {s s' : Pool ι DB Q A E M R}
  {e : PoolEvent ι X}

theorem db_cases (hprog : ∀ i, (prog i).Sends (P i)) (hs : OnPath prog s) (h : step prog out s e = some s') :
    (∃ i, e = .start i ∧ s'.db = s.db) ∨
      ∃ i x q, e = .answer i x ∧ (s.thread i).pending = some q ∧ P i q ∧ s'.db = (out x s.db q).2 := by
  obtain ⟨i, rfl, -, rfl⟩ | ⟨i, x, q, k, log, rfl, hi, rfl⟩ := step_cases h
  · exact .inl ⟨i, rfl, rfl⟩
  · refine .inr ⟨i, x, q, rfl, by rw [hi]; rfl, ?_, rfl⟩
    exact ((hs i _ _ hi).1.always (hprog i)).1

/-- **Guarantee rule**: an invariant that the sent queries keep holds, and a preorder that they follow relates the
outside to what it is later. A run under a condition has the queries it lets through. -/
theorem guarantee {C : Pool ι DB Q A E M R → PoolEvent ι X → Prop} {Init : DB → M → Prop} {J : DB → Prop}
    {B : DB → DB → Prop} (hprog : ∀ i, (prog i).Sends (P i)) (hrefl : ∀ d, B d d)
    (htrans : ∀ {d d' d''}, B d d' → B d' d'' → B d d'')
    (hout : ∀ t i x q, C t (.answer i x) → P i q → J t.db → J (out x t.db q).2 ∧ B t.db (out x t.db q).2)
    {tr : List (PoolEvent ι X)}
    (hs : OnPath prog s) (hJ : J s.db) (h : (system prog out Init).Run C s tr s') : J s'.db ∧ B s.db s'.db := by
  have hinv : OnPath prog s' ∧ J s'.db ∧ B s.db s'.db := by
    refine h.invariant (fun t => OnPath prog t ∧ J t.db ∧ B s.db t.db) ⟨hs, hJ, hrefl _⟩ ?_
    rintro t e t' ⟨ht, hJt, hB⟩ hC hstep
    refine ⟨onPath_step ht hstep, ?_⟩
    obtain ⟨i, -, hdb⟩ | ⟨i, x, q, rfl, -, hq, hdb⟩ := db_cases hprog ht hstep
    · rw [hdb]
      exact ⟨hJt, hB⟩
    · rw [hdb]
      obtain ⟨hJ', hB'⟩ := hout t i x q hC hq hJt
      exact ⟨hJ', htrans hB hB'⟩
  exact hinv.2

/-- **Answers rule**: facts about the answers of the programs `K` hold of all that these were answered, if they hold of
each answer when it is given and no query that a program comes to makes them false. With them the queries keep the
invariant. -/
theorem answered_along_run {C : Pool ι DB Q A E M R → PoolEvent ι X → Prop} {Init : DB → M → Prop} {J : DB → Prop}
    {T : DB → Call Q A E → Prop} (K : ι → Prop) (hgiven : ∀ x d q, J d → T (out x d q).2 ⟨q, (out x d q).1⟩)
    (hkeep : ∀ i x d q k log, (prog i).Path log (.query q k) → (K i → ∀ call ∈ log, T d call) → J d →
      J (out x d q).2 ∧ ∀ call, T d call → T (out x d q).2 call)
    (hs : OnPath prog s) (hJ : J s.db) (hT : ∀ i, K i → ∀ call ∈ (s.thread i).log, T s.db call)
    {tr : List (PoolEvent ι X)} (h : (system prog out Init).Run C s tr s') :
    OnPath prog s' ∧ J s'.db ∧ ∀ i, K i → ∀ call ∈ (s'.thread i).log, T s'.db call := by
  refine h.invariant (fun t => OnPath prog t ∧ J t.db ∧ ∀ i, K i → ∀ call ∈ (t.thread i).log, T t.db call)
    ⟨hs, hJ, hT⟩ ?_
  rintro t e t' ⟨ht, hJ, hT⟩ - hstep
  refine ⟨onPath_step ht hstep, ?_⟩
  obtain ⟨i, rfl, hi, rfl⟩ | ⟨i, x, q, k, log, rfl, hi, rfl⟩ := step_cases hstep
  · refine ⟨hJ, fun j hj call hcall => ?_⟩
    rw [goto_log] at hcall
    split at hcall
    · cases hcall
    · exact hT j hj call hcall
  have hlog : K i → ∀ call ∈ log, T t.db call := by
    intro hKi call hcall
    refine hT i hKi call ?_
    rw [hi]
    exact hcall
  obtain ⟨hJ', hmono⟩ := hkeep i x t.db q k log (ht i _ _ hi).1 hlog hJ
  refine ⟨hJ', fun j hj call hcall => ?_⟩
  rw [goto_log] at hcall
  split at hcall
  · rename_i hji
    rcases List.mem_append.mp hcall with hcall | hcall
    · exact hmono call (hlog (hji ▸ hj) call hcall)
    · rw [List.mem_singleton.mp hcall]
      exact hgiven x t.db q hJ
  · exact hmono call (hT j hj call hcall)

theorem answered_along {C : Pool ι DB Q A E M R → PoolEvent ι X → Prop} {Init : DB → M → Prop} {J : DB → Prop}
    {T : DB → Call Q A E → Prop} (hinit : ∀ d m, Init d m → J d)
    (hgiven : ∀ x d q, J d → T (out x d q).2 ⟨q, (out x d q).1⟩)
    (hkeep : ∀ i x d q k log, (prog i).Path log (.query q k) → (∀ call ∈ log, T d call) → J d →
      J (out x d q).2 ∧ ∀ call, T d call → T (out x d q).2 call)
    (h : (system prog out Init).Reachable C s) : J s.db ∧ ∀ i, ∀ call ∈ (s.thread i).log, T s.db call := by
  obtain ⟨s₀, tr, h₀, hrun⟩ := h
  have hT₀ : ∀ i, True → ∀ call ∈ (s₀.thread i).log, T s₀.db call := by
    intro i _ call hcall
    rw [h₀.2 i] at hcall
    cases hcall
  obtain ⟨-, hJ, hT⟩ := answered_along_run (fun _ => True) hgiven
    (fun i x d q k log hpath hlog hd => hkeep i x d q k log hpath (hlog trivial) hd) (onPath_of_idle h₀.2)
    (hinit _ _ h₀.1) hT₀ hrun
  exact ⟨hJ, fun i => hT i trivial⟩

theorem answered_run {C : Pool ι DB Q A E M R → PoolEvent ι X → Prop} {Init : DB → M → Prop} {J : DB → Prop}
    {T : DB → Call Q A E → Prop} (K : ι → Prop)
    (hmono : ∀ x d q call, J d → T d call → T (out x d q).2 call)
    (hgiven : ∀ x d q, J d → T (out x d q).2 ⟨q, (out x d q).1⟩)
    (hkeep : ∀ i x d q k log, (prog i).Path log (.query q k) → (K i → ∀ call ∈ log, T d call) → J d →
      J (out x d q).2)
    (hs : OnPath prog s) (hJ : J s.db) (hT : ∀ i, K i → ∀ call ∈ (s.thread i).log, T s.db call)
    {tr : List (PoolEvent ι X)} (h : (system prog out Init).Run C s tr s') :
    OnPath prog s' ∧ J s'.db ∧ ∀ i, K i → ∀ call ∈ (s'.thread i).log, T s'.db call :=
  answered_along_run K hgiven
    (fun i x d q k log hpath hlog hd => ⟨hkeep i x d q k log hpath hlog hd, fun call => hmono x d q call hd⟩) hs hJ hT h

theorem answered {C : Pool ι DB Q A E M R → PoolEvent ι X → Prop} {Init : DB → M → Prop} {J : DB → Prop}
    {T : DB → Call Q A E → Prop} (hinit : ∀ d m, Init d m → J d)
    (hmono : ∀ x d q call, J d → T d call → T (out x d q).2 call)
    (hgiven : ∀ x d q, J d → T (out x d q).2 ⟨q, (out x d q).1⟩)
    (hkeep : ∀ i x d q k log, (prog i).Path log (.query q k) → (∀ call ∈ log, T d call) → J d → J (out x d q).2)
    (h : (system prog out Init).Reachable C s) : J s.db ∧ ∀ i, ∀ call ∈ (s.thread i).log, T s.db call :=
  answered_along hinit hgiven
    (fun i x d q k log hpath hlog hd => ⟨hkeep i x d q k log hpath hlog hd, fun call => hmono x d q call hd⟩) h

/-- **First answer rule**: what only the program `i` can make false still holds when it is answered for the first
time. -/
theorem first_answer {C : Pool ι DB Q A E M R → PoolEvent ι X → Prop} {Init : DB → M → Prop} {J F : DB → Prop}
    {T : Call Q A E → Prop} (i : ι)
    (hfirst : ∀ t x q, C t (.answer i x) → J t.db → F t.db → T ⟨q, (out x t.db q).1⟩)
    (hkeep : ∀ j x d q k log, (prog j).Path log (.query q k) → J d →
      J (out x d q).2 ∧ (j ≠ i → F d → F (out x d q).2))
    (hs : OnPath prog s) (hJ : J s.db) (hF : F s.db) (hidle : s.thread i = .idle) {tr : List (PoolEvent ι X)}
    (h : (system prog out Init).Run C s tr s') : ∀ call, (s'.thread i).log.head? = some call → T call := by
  have hinv : OnPath prog s' ∧ J s'.db ∧ ((s'.thread i).log = [] → F s'.db) ∧
      ∀ call, (s'.thread i).log.head? = some call → T call := by
    refine h.invariant (fun t => OnPath prog t ∧ J t.db ∧ ((t.thread i).log = [] → F t.db) ∧
      ∀ call, (t.thread i).log.head? = some call → T call) ⟨hs, hJ, fun _ => hF, fun call hcall => ?_⟩ ?_
    · rw [hidle] at hcall
      cases hcall
    rintro t e t' ⟨ht, hJ, hF, hT⟩ hC hstep
    refine ⟨onPath_step ht hstep, ?_⟩
    obtain ⟨j, rfl, hj, rfl⟩ | ⟨j, x, q, k, log, rfl, hj, rfl⟩ := step_cases hstep
    · refine ⟨hJ, ?_⟩
      rw [goto_log]
      split
      · rename_i hij
        rw [hij, hj] at hF
        exact ⟨fun _ => hF rfl, fun call hcall => by cases hcall⟩
      · exact ⟨hF, hT⟩
    obtain ⟨hJ', hkeepF⟩ := hkeep j x t.db q k log (ht j _ _ hj).1 hJ
    refine ⟨hJ', ?_⟩
    rw [goto_log]
    split
    · rename_i hij
      refine ⟨fun hnil => by simp at hnil, fun call hcall => ?_⟩
      rw [hij, hj] at hF hT
      cases log with
      | nil =>
        obtain rfl := Option.some.inj hcall
        exact hfirst t x q (hij ▸ hC) hJ (hF rfl)
      | cons first rest => exact hT call hcall
    · rename_i hij
      exact ⟨fun hnil => hkeepF (fun hji => hij hji.symm) (hF hnil), hT⟩
  exact hinv.2.2.2

def logs (s : Pool ι DB Q A E M R) (i : ι) : List (Call Q A E) := (s.thread i).log

theorem log_grows {C : Pool ι DB Q A E M R → PoolEvent ι X → Prop} {Init : DB → M → Prop} {tr : List (PoolEvent ι X)}
    (h : (system prog out Init).Run C s tr s') (i : ι) : (s.thread i).log <+: (s'.thread i).log := by
  refine h.invariant (fun t => (s.thread i).log <+: (t.thread i).log) (List.prefix_refl _) ?_
  intro t e t' ht _ hstep
  refine ht.trans ?_
  obtain ⟨j, -, hj, rfl⟩ | ⟨j, x, q, k, log, -, hj, rfl⟩ := step_cases hstep
  · rw [goto_log]
    split
    · rename_i hij
      rw [hij, hj, Thread.log_idle]
    · exact List.prefix_refl _
  · rw [goto_log]
    split
    · rename_i hij
      rw [hij, hj, Thread.log_live]
      exact List.prefix_append _ _
    · exact List.prefix_refl _

/-- **Provenance rule**: where facts speak of what all programs were answered, and stay true as more answers come, they
hold of every answer and of the outside, if they hold of each answer when it is given and a query keeps the invariant
behind what its own program was answered. -/
theorem provenance {C : Pool ι DB Q A E M R → PoolEvent ι X → Prop} {Init : DB → M → Prop}
    {J : (ι → List (Call Q A E)) → DB → Prop} {T : (ι → List (Call Q A E)) → Call Q A E → Prop}
    (hinit : ∀ d m, Init d m → J (fun _ => []) d)
    (hgrowJ : ∀ {logs logs' : ι → List (Call Q A E)} {d}, (∀ i, logs i <+: logs' i) → J logs d → J logs' d)
    (hgrowT : ∀ {logs logs' : ι → List (Call Q A E)} {call}, (∀ i, logs i <+: logs' i) → T logs call → T logs' call)
    (hgiven : ∀ logs x d q, J logs d → T logs ⟨q, (out x d q).1⟩)
    (hkeep : ∀ (logs logs' : ι → List (Call Q A E)) i x d q k, (prog i).Path (logs i) (.query q k) →
      (∀ call ∈ logs i, T logs call) → J logs d → (∀ j, logs j <+: logs' j) → ⟨q, (out x d q).1⟩ ∈ logs' i →
      J logs' (out x d q).2)
    (h : (system prog out Init).Reachable C s) : J s.logs s.db ∧ ∀ i, ∀ call ∈ s.logs i, T s.logs call := by
  have hinv : OnPath prog s ∧ J s.logs s.db ∧ ∀ i, ∀ call ∈ s.logs i, T s.logs call := by
    refine h.invariant (fun s => OnPath prog s ∧ J s.logs s.db ∧ ∀ i, ∀ call ∈ s.logs i, T s.logs call)
      (fun s₀ h₀ => ?_) fun t e t' ⟨ht, hJ, hT⟩ _ hstep => ⟨onPath_step ht hstep, ?_⟩
    · have hempty : s₀.logs = fun _ => [] := funext fun i => by rw [logs, h₀.2 i, Thread.log_idle]
      refine ⟨onPath_of_idle h₀.2, ?_, fun i call hcall => ?_⟩
      · rw [hempty]
        exact hinit _ _ h₀.1
      · rw [hempty] at hcall
        cases hcall
    have hrun : (system prog out Init).Run System.Any t [e] t' := System.Run.single trivial hstep
    have hlogs : ∀ i, t.logs i <+: t'.logs i := log_grows hrun
    obtain ⟨i, rfl, hi, rfl⟩ | ⟨i, x, q, k, log, rfl, hi, rfl⟩ := step_cases hstep
    · refine ⟨hgrowJ hlogs hJ, fun j call hcall => hgrowT hlogs (hT j call ?_)⟩
      rw [logs, goto_log] at hcall
      split at hcall
      · cases hcall
      · exact hcall
    · have hlog : t.logs i = log := by rw [logs, hi, Thread.log_live]
      have hpath : (prog i).Path (t.logs i) (.query q k) := hlog ▸ (ht i _ _ hi).1
      refine ⟨hkeep t.logs _ i x t.db q k hpath (hT i) hJ hlogs ?_, fun j call hcall => ?_⟩
      · rw [logs, goto_log, if_pos rfl]
        exact List.mem_append_right _ (List.mem_singleton_self _)
      rw [logs, goto_log] at hcall
      split at hcall
      · rename_i hji
        rcases List.mem_append.mp hcall with hcall | hcall
        · exact hgrowT hlogs (hT i call (hlog.symm ▸ hcall))
        · rw [List.mem_singleton.mp hcall]
          exact hgrowT hlogs (hgiven t.logs x t.db q hJ)
      · exact hgrowT hlogs (hT j call hcall)
  exact hinv.2

/-- **Fresh answers rule**: where an answer gives a key only while that is unused, and keys stay used, no two answers
give the same key. -/
theorem fresh_answers {C : Pool ι DB Q A E M R → PoolEvent ι X → Prop} {Init : DB → M → Prop} {κ : Type*}
    (gives : Call Q A E → Option κ) (used : DB → κ → Prop)
    (hfresh : ∀ x d q k, gives ⟨q, (out x d q).1⟩ = some k → ¬ used d k ∧ used (out x d q).2 k)
    (hkept : ∀ x d q k, used d k → used (out x d q).2 k) (h : (system prog out Init).Reachable C s) {i j : ι}
    {call call' : Call Q A E} {k : κ} (hi : call ∈ s.logs i) (hj : call' ∈ s.logs j) (hk : gives call = some k)
    (hk' : gives call' = some k) : i = j ∧ call = call' := by
  have hinv : (∀ i, ∀ call ∈ s.logs i, ∀ k, gives call = some k → used s.db k) ∧
      ∀ i j, ∀ call ∈ s.logs i, ∀ call' ∈ s.logs j, ∀ k, gives call = some k → gives call' = some k →
        i = j ∧ call = call' := by
    refine h.invariant (fun s => (∀ i, ∀ call ∈ s.logs i, ∀ k, gives call = some k → used s.db k) ∧
      ∀ i j, ∀ call ∈ s.logs i, ∀ call' ∈ s.logs j, ∀ k, gives call = some k → gives call' = some k →
        i = j ∧ call = call') (fun s₀ h₀ => ?_) fun t e t' ⟨hused, hone⟩ _ hstep => ?_
    · have hempty : ∀ i, s₀.logs i = [] := fun i => by rw [logs, h₀.2 i, Thread.log_idle]
      refine ⟨fun i call hcall => ?_, fun i j call hcall => ?_⟩ <;>
        exact absurd (hempty i ▸ hcall) List.not_mem_nil
    obtain ⟨i, -, hi, rfl⟩ | ⟨i, x, q, k, log, -, hi, rfl⟩ := step_cases hstep
    · have hless : ∀ j, ∀ call ∈ (t.goto i t.db (prog i) []).logs j, call ∈ t.logs j := by
        intro j call hcall
        rw [logs, goto_log] at hcall
        split at hcall
        · cases hcall
        · exact hcall
      exact ⟨fun j call hcall => hused j call (hless j call hcall),
        fun j j' call hcall call' hcall' => hone j j' call (hless j call hcall) call' (hless j' call' hcall')⟩
    · -- a call behind the step was there before, or it is the one that was answered
      have hcases : ∀ j,
          ∀ call ∈ (t.goto i (out x t.db q).2 (k (out x t.db q).1) (log ++ [⟨q, (out x t.db q).1⟩])).logs j,
          call ∈ t.logs j ∨ j = i ∧ call = ⟨q, (out x t.db q).1⟩ := by
        intro j call hcall
        rw [logs, goto_log] at hcall
        split at hcall
        · rename_i hji
          rcases List.mem_append.mp hcall with hcall | hcall
          · refine .inl ?_
            rw [logs, hji, hi, Thread.log_live]
            exact hcall
          · exact .inr ⟨hji, List.mem_singleton.mp hcall⟩
        · exact .inl hcall
      refine ⟨fun j call hcall key hkey => ?_, fun j j' call hcall call' hcall' key hkey hkey' => ?_⟩
      · rcases hcases j call hcall with hold | ⟨-, rfl⟩
        · exact hkept x t.db q key (hused j call hold key hkey)
        · exact (hfresh x t.db q key hkey).2
      · rcases hcases j call hcall with hold | ⟨rfl, rfl⟩ <;> rcases hcases j' call' hcall' with hold' | ⟨rfl, rfl⟩
        · exact hone j j' call hold call' hold' key hkey hkey'
        · exact absurd (hused j call hold key hkey) (hfresh x t.db q key hkey').1
        · exact absurd (hused j' call' hold' key hkey') (hfresh x t.db q key hkey).1
        · exact ⟨rfl, rfl⟩
  exact hinv.2 i j call hi call' hj k hk hk'

/-- **Unfinished programs rule**: an invariant stays that no query breaks behind answers that satisfy `T`, where it makes
every answer do so, if the programs without a result were answered so before. -/
theorem unfinished_run {C : Pool ι DB Q A E M R → PoolEvent ι X → Prop} {Init : DB → M → Prop} {J : DB → Prop}
    {T : Call Q A E → Prop} (hgiven : ∀ x d q, J d → T ⟨q, (out x d q).1⟩)
    (hkeep : ∀ i x d q k log, (prog i).Path log (.query q k) → (∀ call ∈ log, T call) → J d → J (out x d q).2)
    (hs : OnPath prog s) (hJ : J s.db) (hT : ∀ i, (s.thread i).result = none → ∀ call ∈ s.logs i, T call)
    {tr : List (PoolEvent ι X)} (h : (system prog out Init).Run C s tr s') :
    OnPath prog s' ∧ J s'.db ∧ ∀ i, (s.thread i).result = none → ∀ call ∈ s'.logs i, T call := by
  have hinv : (OnPath prog s' ∧ J s'.db ∧ ∀ i, (s.thread i).result = none → ∀ call ∈ s'.logs i, T call) ∧
      ∀ i, (s.thread i).result ≠ none → s'.thread i = s.thread i := by
    refine h.invariant (fun t =>
      (OnPath prog t ∧ J t.db ∧ ∀ i, (s.thread i).result = none → ∀ call ∈ t.logs i, T call) ∧
      ∀ i, (s.thread i).result ≠ none → t.thread i = s.thread i) ⟨⟨hs, hJ, hT⟩, fun _ _ => rfl⟩ ?_
    rintro t e t' ⟨⟨ht, hJ, hT⟩, hdone⟩ - hstep
    -- a program that takes a step had no result
    have hfree : ∀ i, (t.thread i).result = none → (s.thread i).result = none := by
      intro i hnone
      by_contra hsome
      rw [hdone i hsome] at hnone
      exact hsome hnone
    have hnext := onPath_step ht hstep
    obtain ⟨i, -, hi, rfl⟩ | ⟨i, x, q, k, log, -, hi, rfl⟩ := step_cases hstep
    · have hilog := hfree i (by rw [hi]; rfl)
      refine ⟨⟨hnext, hJ, fun j hj call hcall => ?_⟩, fun j hj => ?_⟩
      · rw [logs, goto_log] at hcall
        split at hcall
        · cases hcall
        · exact hT j hj call hcall
      · rw [goto_other _ (by rintro rfl; exact hj hilog)]
        exact hdone j hj
    · have hilog := hfree i (by rw [hi]; rfl)
      have hlog : ∀ call ∈ log, T call := fun call hcall => hT i hilog call (by rw [logs, hi]; exact hcall)
      refine ⟨⟨hnext, hkeep i x t.db q k log (ht i _ _ hi).1 hlog hJ, fun j hj call hcall => ?_⟩, fun j hj => ?_⟩
      · rw [logs, goto_log] at hcall
        split at hcall
        · rcases List.mem_append.mp hcall with hcall | hcall
          · exact hlog call hcall
          · rw [List.mem_singleton.mp hcall]
            exact hgiven x t.db q hJ
        · exact hT j hj call hcall
      · rw [goto_other _ (by rintro rfl; exact hj hilog)]
        exact hdone j hj
  exact hinv.1
end Pool

end Locus.Lib
