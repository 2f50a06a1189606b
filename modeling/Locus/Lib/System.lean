import Mathlib.Data.List.Basic

/-!
# Labelled transition systems

A system is a set of initial states and a computed step: `step s e` is the state after the event `e`,
or nothing when `e` cannot happen in `s`. A run is a list of events, and `Run C` are the runs in which
every event meets the condition `C` in the state it is taken in. Properties of all runs are proved once,
by the rules of this module: what holds at the start and is kept by every step holds in every state
reached (`Run.invariant`), what holds of a run and of each of its extensions by one step holds of every run
(`Run.history`), what every step keeps or ends is kept or ended by a run (`Run.until`), a relation that
every step keeps or another system matches is kept over a run (`Run.simulate`, and `Run.project` where the
events tell which), a value is what a run has written to it last (`Run.last_write`), and what a step keeps exactly when it meets `C` holds throughout exactly the runs that meet
`C` (`Run.throughout_iff`; `Run.certain_iff` for what stays true whatever is pending).
-/

namespace Locus.Lib

/-- A transition system over states `σ` and events `ε`. -/
structure System (σ ε : Type*) where
  Init : σ → Prop
  step : σ → ε → Option σ

namespace System

variable {σ ε : Type*} {M : System σ ε} {C D : σ → ε → Prop}

/-- `M.Run C s₀ tr s`: the events `tr` lead from `s₀` to `s`, each taken in a state where it meets `C`. -/
inductive Run (M : System σ ε) (C : σ → ε → Prop) (s₀ : σ) : List ε → σ → Prop
  | nil : Run M C s₀ [] s₀
  | snoc {tr : List ε} {s s' : σ} {e : ε} :
      Run M C s₀ tr s → C s e → M.step s e = some s' → Run M C s₀ (tr ++ [e]) s'

/-- No condition on the steps. -/
abbrev Any : σ → ε → Prop := fun _ _ => True

/-- The states that runs meeting `C` reach from an initial state. -/
def Reachable (M : System σ ε) (C : σ → ε → Prop) (s : σ) : Prop :=
  ∃ s₀ tr, M.Init s₀ ∧ M.Run C s₀ tr s

theorem Run.mono (hCD : ∀ s e, C s e → D s e) {s₀ s : σ} {tr : List ε} (h : M.Run C s₀ tr s) :
    M.Run D s₀ tr s := by
  induction h with
  | nil => exact .nil
  | snoc _ hC hstep ih => exact .snoc ih (hCD _ _ hC) hstep

theorem Run.of_forall {s₀ s : σ} {tr : List ε} (h : M.Run C s₀ tr s) (hD : ∀ s, ∀ e ∈ tr, D s e) :
    M.Run D s₀ tr s := by
  induction h with
  | nil => exact .nil
  | snoc _ _ hstep ih =>
    refine .snoc (ih fun s e he => hD s e (List.mem_append_left _ he)) (hD _ _ ?_) hstep
    exact List.mem_append_right _ List.mem_cons_self

theorem Run.trans {s₀ s₁ s₂ : σ} {tr tr' : List ε} (h : M.Run C s₀ tr s₁) (h' : M.Run C s₁ tr' s₂) :
    M.Run C s₀ (tr ++ tr') s₂ := by
  induction h' with
  | nil => simpa using h
  | snoc _ hC hstep ih =>
    rw [← List.append_assoc]
    exact .snoc ih hC hstep

theorem Run.single {s s' : σ} {e : ε} (hC : C s e) (hstep : M.step s e = some s') :
    M.Run C s [e] s' := .snoc (.nil) hC hstep

theorem Run.cons {s s' s'' : σ} {e : ε} {tr : List ε} (hC : C s e) (hstep : M.step s e = some s')
    (h : M.Run C s' tr s'') : M.Run C s (e :: tr) s'' := (Run.single hC hstep).trans h

theorem Run.nil_inv {s s' : σ} (h : M.Run C s [] s') : s' = s := by
  generalize htr : ([] : List ε) = tr at h
  cases h with
  | nil => rfl
  | snoc => simp at htr

theorem Run.cons_inv {s s'' : σ} {e : ε} {tr : List ε} (h : M.Run C s (e :: tr) s'') :
    ∃ s', C s e ∧ M.step s e = some s' ∧ M.Run C s' tr s'' := by
  generalize htr : e :: tr = full at h
  induction h generalizing tr with
  | nil => cases htr
  | @snoc tr₀ s₁ s₂ e₁ hrun hC hstep ih =>
    cases tr₀ with
    | nil =>
      obtain rfl := hrun.nil_inv
      simp only [List.nil_append, List.cons.injEq] at htr
      obtain ⟨rfl, rfl⟩ := htr
      exact ⟨s₂, hC, hstep, .nil⟩
    | cons e₀ rest =>
      simp only [List.cons_append, List.cons.injEq] at htr
      obtain ⟨rfl, rfl⟩ := htr
      obtain ⟨s', hC', hstep', hrest⟩ := ih rfl
      exact ⟨s', hC', hstep', .snoc hrest hC hstep⟩

theorem Run.append_inv {s s' : σ} {tr tr' : List ε} (h : M.Run C s (tr ++ tr') s') :
    ∃ s₁, M.Run C s tr s₁ ∧ M.Run C s₁ tr' s' := by
  induction tr generalizing s with
  | nil => exact ⟨s, .nil, h⟩
  | cons e tr ih =>
    obtain ⟨s₁, hC, hstep, hrest⟩ := h.cons_inv
    obtain ⟨s₂, hleft, hright⟩ := ih hrest
    exact ⟨s₂, .cons hC hstep hleft, hright⟩

/-- **Invariant rule**: what holds at the start and is kept by every step holds at the end. -/
theorem Run.invariant (I : σ → Prop) {s₀ s : σ} {tr : List ε} (h : M.Run C s₀ tr s) (h₀ : I s₀)
    (hstep : ∀ s e s', I s → C s e → M.step s e = some s' → I s') : I s := by
  induction h with
  | nil => exact h₀
  | snoc _ hC hs ih => exact hstep _ _ _ ih hC hs

/-- **History rule**: an invariant of the state together with the events so far. -/
theorem Run.history (I : List ε → σ → Prop) {s₀ s : σ} {tr : List ε} (h : M.Run C s₀ tr s)
    (h₀ : I [] s₀)
    (hstep : ∀ tr s e s', I tr s → C s e → M.step s e = some s' → I (tr ++ [e]) s') : I tr s := by
  induction h with
  | nil => exact h₀
  | snoc _ hC hs ih => exact hstep _ _ _ _ ih hC hs

/-- **Until rule**: what every step keeps or ends with `Q` holds throughout the run, or up to a step that
ends it. -/
theorem Run.until (P : σ → Prop) (Q : σ → ε → σ → Prop) {s₀ s : σ} {tr : List ε}
    (h : M.Run C s₀ tr s) (h₀ : P s₀)
    (hstep : ∀ s e s', P s → C s e → M.step s e = some s' → P s' ∨ Q s e s') :
    P s ∨ ∃ tr₁ e tr₂ s₁ s₂, tr = tr₁ ++ e :: tr₂ ∧ M.Run C s₀ tr₁ s₁ ∧ P s₁ ∧
      M.step s₁ e = some s₂ ∧ Q s₁ e s₂ ∧ M.Run C s₂ tr₂ s := by
  induction h with
  | nil => exact .inl h₀
  | @snoc tr s s' e hrun hC hs ih =>
    rcases ih with hP | ⟨tr₁, e₁, tr₂, s₁, s₂, htr, h₁, hP, hs₁, hQ, h₂⟩
    · rcases hstep s e s' hP hC hs with hP' | hQ
      · exact .inl hP'
      · exact .inr ⟨tr, e, [], s, s', rfl, hrun, hP, hs, hQ, .nil⟩
    · exact .inr ⟨tr₁, e₁, tr₂ ++ [e], s₁, s₂, by simp [htr], h₁, hP, hs₁, hQ, .snoc h₂ hC hs⟩

theorem Reachable.invariant (I : σ → Prop) {s : σ} (h : M.Reachable C s) (h₀ : ∀ s, M.Init s → I s)
    (hstep : ∀ s e s', I s → C s e → M.step s e = some s' → I s') : I s := by
  obtain ⟨s₀, tr, hinit, hrun⟩ := h
  exact hrun.invariant I (h₀ s₀ hinit) hstep

theorem Reachable.mono (hCD : ∀ s e, C s e → D s e) {s : σ} (h : M.Reachable C s) :
    M.Reachable D s := by
  obtain ⟨s₀, tr, hinit, hrun⟩ := h
  exact ⟨s₀, tr, hinit, hrun.mono hCD⟩

theorem Reachable.trans {s s' : σ} {tr : List ε} (h : M.Reachable C s) (h' : M.Run C s tr s') :
    M.Reachable C s' := by
  obtain ⟨s₀, tr₀, hinit, hrun⟩ := h
  exact ⟨s₀, tr₀ ++ tr, hinit, hrun.trans h'⟩

/-- **Simulation rule**: if a relation holds at the start, and each step keeps it or is matched by a step of
`N` that restores it, then it holds at the end with a run of `N`. The relation may look at the events of that
run so far. -/
theorem Run.simulate {τ δ : Type*} {N : System τ δ} {B : τ → δ → Prop} (R : List δ → σ → τ → Prop) {s₀ s : σ}
    {t₀ : τ} {tr : List ε} (h : M.Run C s₀ tr s) (h₀ : R [] s₀ t₀)
    (hstep : ∀ ds s e s' t, R ds s t → N.Run B t₀ ds t → C s e → M.step s e = some s' →
      R ds s' t ∨ ∃ d t', B t d ∧ N.step t d = some t' ∧ R (ds ++ [d]) s' t') :
    ∃ ds t, N.Run B t₀ ds t ∧ R ds s t := by
  induction h with
  | nil => exact ⟨[], t₀, .nil, h₀⟩
  | snoc _ hC hs ih =>
    obtain ⟨ds, t, hrun, hR⟩ := ih
    rcases hstep ds _ _ _ t hR hrun hC hs with hR' | ⟨d, t', hB, ht, hR'⟩
    · exact ⟨ds, t, hrun, hR'⟩
    · exact ⟨ds ++ [d], t', .snoc hrun hB ht, hR'⟩

/-- **Projection rule**: `f` tells which events another system takes too. If a relation holds at the start, is
kept by the steps that it does not take and restored by the others, then the run is one of the other system. -/
theorem Run.project {τ δ : Type*} {N : System τ δ} {B : τ → δ → Prop} (f : ε → Option δ) (R : σ → τ → Prop)
    {s₀ s : σ} {t₀ : τ} {tr : List ε} (h : M.Run C s₀ tr s) (h₀ : R s₀ t₀)
    (hskip : ∀ s e s' t, R s t → C s e → M.step s e = some s' → f e = none → R s' t)
    (hstep : ∀ s e s' t d, R s t → C s e → M.step s e = some s' → f e = some d →
      B t d ∧ ∃ t', N.step t d = some t' ∧ R s' t') :
    ∃ t, N.Run B t₀ (tr.filterMap f) t ∧ R s t := by
  induction h with
  | nil => exact ⟨t₀, .nil, h₀⟩
  | @snoc tr s s' e _ hC hs ih =>
    obtain ⟨t, hrun, hR⟩ := ih
    cases hf : f e with
    | none =>
      refine ⟨t, ?_, hskip s e s' t hR hC hs hf⟩
      rw [List.filterMap_append, List.filterMap_cons_none hf]
      simpa using hrun
    | some d =>
      obtain ⟨hB, t', ht', hR'⟩ := hstep s e s' t d hR hC hs hf
      refine ⟨t', ?_, hR'⟩
      rw [List.filterMap_append, List.filterMap_cons_some hf]
      exact .snoc hrun hB ht'

theorem Run.unique {s₀ s s' : σ} {tr : List ε} (h : M.Run C s₀ tr s) (h' : M.Run D s₀ tr s') : s = s' := by
  induction tr generalizing s₀ with
  | nil => rw [h.nil_inv, h'.nil_inv]
  | cons e tr ih =>
    obtain ⟨s₁, -, hs₁, hrest⟩ := h.cons_inv
    obtain ⟨s₂, -, hs₂, hrest'⟩ := h'.cons_inv
    obtain rfl := Option.some.inj (hs₁.symm.trans hs₂)
    exact ih hrest hrest'

theorem Run.and {s₀ s : σ} {tr : List ε} (h : M.Run C s₀ tr s) (h' : M.Run D s₀ tr s) :
    M.Run (fun s e => C s e ∧ D s e) s₀ tr s := by
  induction h with
  | nil => exact .nil
  | snoc hrun hC hstep ih =>
    obtain ⟨s₁, hrun', hlast⟩ := h'.append_inv
    obtain rfl := hrun.unique hrun'
    obtain ⟨-, hD, -⟩ := hlast.cons_inv
    exact .snoc (ih hrun') ⟨hC, hD⟩ hstep

/-! ### What holds throughout a run -/

/-- Every state that the events pass, the first and the last included, meets `Q`. -/
def Throughout (M : System σ ε) (Q : σ → Prop) (s₀ : σ) (tr : List ε) : Prop :=
  ∀ tr₁ tr₂ s, tr = tr₁ ++ tr₂ → M.Run Any s₀ tr₁ s → Q s

theorem Throughout.prefix {Q : σ → Prop} {s₀ : σ} {tr tr' : List ε} (h : M.Throughout Q s₀ (tr ++ tr')) :
    M.Throughout Q s₀ tr := by
  intro tr₁ tr₂ s htr hrun
  refine h tr₁ (tr₂ ++ tr') s ?_ hrun
  rw [htr, List.append_assoc]

theorem Throughout.last {Q : σ → Prop} {s₀ s : σ} {tr : List ε} (h : M.Throughout Q s₀ tr)
    (hrun : M.Run Any s₀ tr s) : Q s := h tr [] s (List.append_nil tr).symm hrun

/-- **Exactness rule**: if a step from a state with `Q` leads to one with `Q` exactly when it meets `C`, then a
run has `Q` throughout exactly when all its steps meet `C`. An invariant `I` of all runs may be used, and a
condition `D` that the steps of the run are known to meet. -/
theorem Run.throughout_iff (I Q : σ → Prop) {s₀ s : σ} {tr : List ε} (h : M.Run D s₀ tr s) (hI₀ : I s₀)
    (hQ₀ : Q s₀) (hI : ∀ s e s', I s → M.step s e = some s' → I s')
    (hQ : ∀ s e s', I s → Q s → D s e → M.step s e = some s' → (Q s' ↔ C s e)) :
    M.Throughout Q s₀ tr ↔ M.Run C s₀ tr s := by
  have hinv : ∀ {tr : List ε} {s : σ}, M.Run D s₀ tr s → I s := fun hrun =>
    hrun.invariant I hI₀ fun s e s' hs _ hstep => hI s e s' hs hstep
  have hkeeps : ∀ {tr : List ε} {s : σ}, M.Run C s₀ tr s → M.Run D s₀ tr s → Q s := by
    intro tr s hC hD
    refine ((hC.and hD).invariant (fun s => I s ∧ Q s) ⟨hI₀, hQ₀⟩ ?_).2
    rintro s e s' ⟨hI', hQ'⟩ ⟨hC', hD'⟩ hstep
    exact ⟨hI s e s' hI' hstep, (hQ s e s' hI' hQ' hD' hstep).mpr hC'⟩
  constructor
  · intro hthrough
    induction h with
    | nil => exact .nil
    | @snoc tr s s' e hrun hD hstep ih =>
      have hbefore : M.Run C s₀ tr s := ih hthrough.prefix
      have hlast : Q s' := hthrough.last (.snoc (hrun.mono fun _ _ _ => trivial) trivial hstep)
      exact .snoc hbefore ((hQ s e s' (hinv hrun) (hkeeps hbefore hrun) hD hstep).mp hlast) hstep
  · rintro hrun tr₁ tr₂ s₁ rfl hrun₁
    obtain ⟨s₂, hC, -⟩ := hrun.append_inv
    obtain ⟨s₃, hD, -⟩ := h.append_inv
    obtain rfl := hrun₁.unique hC
    obtain rfl := hrun₁.unique hD
    exact hkeeps hC hD

/-- `Q` holds now and after any further steps that meet `E`: the events that nobody can prevent any more. -/
def Certain (M : System σ ε) (E : σ → ε → Prop) (Q : σ → Prop) (s : σ) : Prop :=
  ∀ tr s', M.Run E s tr s' → Q s'

theorem Certain.now {E : σ → ε → Prop} {Q : σ → Prop} {s : σ} (h : M.Certain E Q s) : Q s := h [] s .nil

theorem Certain.step {E : σ → ε → Prop} {Q : σ → Prop} {s s' : σ} {e : ε} (h : M.Certain E Q s) (he : E s e)
    (hstep : M.step s e = some s') : M.Certain E Q s' := fun tr s'' hrun => h (e :: tr) s'' (.cons he hstep hrun)

/-- **Exactness rule for what is certain**: `J` says in one state that `Q` is certain. If a step from a state with
`J` leads to one with `J` exactly when it meets `C`, then `Q` is certain throughout a run exactly when all its steps
meet `C`. -/
theorem Run.certain_iff {E : σ → ε → Prop} (I J Q : σ → Prop) {s₀ s : σ} {tr : List ε} (h : M.Run D s₀ tr s)
    (hI₀ : I s₀) (hJ₀ : J s₀) (hI : ∀ s e s', I s → M.step s e = some s' → I s') (hJQ : ∀ s, J s → Q s)
    (hkeep : ∀ s e s', I s → J s → E s e → M.step s e = some s' → J s')
    (hforce : ∀ s, I s → M.Certain E Q s → J s)
    (hstep : ∀ s e s', I s → J s → D s e → M.step s e = some s' → (J s' ↔ C s e)) :
    M.Throughout (M.Certain E Q) s₀ tr ↔ M.Run C s₀ tr s := by
  have hiff : ∀ s, I s → (M.Certain E Q s ↔ J s) := by
    intro s hs
    refine ⟨hforce s hs, fun hJ tr s' hrun => hJQ s' ?_⟩
    refine (hrun.invariant (fun s => I s ∧ J s) ⟨hs, hJ⟩ ?_).2
    rintro s e s' ⟨hs, hJ⟩ he hstep
    exact ⟨hI s e s' hs hstep, hkeep s e s' hs hJ he hstep⟩
  refine h.throughout_iff I (M.Certain E Q) hI₀ ((hiff s₀ hI₀).mpr hJ₀) hI fun s e s' hs hQ he hs' => ?_
  rw [hiff s' (hI s e s' hs hs')]
  exact hstep s e s' hs ((hiff s hs).mp hQ) he hs'

/-! ### What a run shows -/

/-- What the events of a run show, in order: `f s e` of the event `e` taken in the state `s`. -/
def observe {α : Type*} (M : System σ ε) (f : σ → ε → Option α) (s : σ) : List ε → List α
  | [] => []
  | e :: tr => (f s e).toList ++ ((M.step s e).map fun s' => M.observe f s' tr).getD []

theorem Run.observe_append {α : Type*} (f : σ → ε → Option α) {s₀ s : σ} {tr : List ε}
    (h : M.Run C s₀ tr s) (tr' : List ε) :
    M.observe f s₀ (tr ++ tr') = M.observe f s₀ tr ++ M.observe f s tr' := by
  induction tr generalizing s₀ with
  | nil =>
    obtain rfl := h.nil_inv
    rfl
  | cons e tr ih =>
    obtain ⟨s₁, -, hstep, hrest⟩ := h.cons_inv
    simp only [List.cons_append, observe, hstep, Option.map_some, Option.getD_some, ih hrest,
      List.append_assoc]

theorem Run.observe_snoc {α : Type*} (f : σ → ε → Option α) {s₀ s : σ} {tr : List ε} {e : ε}
    (h : M.Run C s₀ tr s) : M.observe f s₀ (tr ++ [e]) = M.observe f s₀ tr ++ (f s e).toList := by
  rw [h.observe_append f]
  congr 1
  cases hstep : M.step s e <;> simp [observe, hstep]

/-- **Last-write rule**: a value that every step leaves, or sets to what `f` shows of it, is what `f` shows
last. -/
theorem Run.last_write {α : Type*} (f : σ → ε → Option α) (v : σ → α) {s₀ s : σ} {tr : List ε}
    (h : M.Run C s₀ tr s)
    (hstep : ∀ s e s', C s e → M.step s e = some s' → v s' = (f s e).getD (v s)) :
    v s = (M.observe f s₀ tr).getLast?.getD (v s₀) := by
  induction h with
  | nil => rfl
  | @snoc tr s s' e hrun hC hs ih =>
    rw [hrun.observe_snoc, hstep s e s' hC hs]
    cases hf : f s e with
    | none => simp [ih]
    | some a => simp

theorem Run.observe_forall {α : Type*} (f : σ → ε → Option α) (I : σ → Prop) (Q : α → Prop) {s₀ s : σ}
    {tr : List ε} (h : M.Run C s₀ tr s) (h₀ : I s₀)
    (hstep : ∀ s e s', I s → C s e → M.step s e = some s' → I s')
    (hshow : ∀ s e s' a, I s → C s e → M.step s e = some s' → f s e = some a → Q a) :
    ∀ a ∈ M.observe f s₀ tr, Q a := by
  induction h with
  | nil => exact fun a ha => by cases ha
  | @snoc tr s s' e hrun hC hs ih =>
    intro a ha
    rw [hrun.observe_snoc, List.mem_append, Option.mem_toList] at ha
    rcases ha with ha | ha
    · exact ih a ha
    · exact hshow s e s' a (hrun.invariant I h₀ hstep) hC hs ha

/-! ### Computing a run -/

/-- The state after a list of events, if each of them can happen and meets the test `c` in the state it
is taken in. -/
def exec (M : System σ ε) (c : σ → ε → Bool) (s : σ) : List ε → Option σ
  | [] => some s
  | e :: tr => if c s e then (M.step s e).bind fun s' => M.exec c s' tr else none

theorem Run.of_exec {c : σ → ε → Bool} {s s' : σ} {tr : List ε} (h : M.exec c s tr = some s') :
    M.Run (fun s e => c s e) s tr s' := by
  induction tr generalizing s with
  | nil =>
    simp only [exec, Option.some.injEq] at h
    exact h ▸ .nil
  | cons e tr ih =>
    rw [exec] at h
    split at h
    · rename_i hc
      obtain ⟨s₁, hstep, hrest⟩ := Option.bind_eq_some_iff.mp h
      exact .cons hc hstep (ih hrest)
    · cases h

theorem reachable_of_exec (M : System σ ε) (c : σ → ε → Bool) {α : Type*} (f : σ → α) {s : σ}
    (tr : List ε) {a : α} (hinit : M.Init s) (h : (M.exec c s tr).map f = some a) :
    ∃ s', M.Reachable (fun s e => c s e) s' ∧ f s' = a := by
  obtain ⟨s', hs', hf⟩ := Option.map_eq_some_iff.mp h
  exact ⟨s', ⟨s, tr, hinit, .of_exec hs'⟩, hf⟩

end System

end Locus.Lib
