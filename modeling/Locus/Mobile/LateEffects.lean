import Locus.Mobile.Keychain

/-!
# Keychain operations that outlive their time-out

`withTimeout` gives up waiting for a Keychain operation after 2 s and does not cancel it: its effect can
land at any later moment, or never. Here the effect of an operation and its answer are events of their own
(`lateCell`), so that every placement of late effects is a run.

`clearTokens` swallows every failure. A reset that is rejected leaves the pair in the Keychain, and the
write of an earlier `saveTokens` that timed out can land behind it: tokens come back after the clear
(`tokens_come_back`). What is left of it is `clear_is_final`: if the store holds nothing when
`clearTokens` resolves, and no `saveTokens` of before writes or falls back to memory afterwards, every
`getTokens` that starts then returns null.

Proof. `Gone` says that the store holds nothing to read; every step keeps it but a write that lands and a
save that falls back (`gone_land`, `gone_resume`). A read that starts while the store is `Gone` finds
nothing in the Keychain and nothing in memory (`Cleared`, kept by `cleared_step`).
-/

namespace Locus.Mobile

open Lib

/-! ### Operations and their effects -/

/-- How the promise of a Keychain operation ends: it resolves once the effect is there, it rejects without
an effect, or `withTimeout` rejects and leaves the operation to itself. -/
inductive Ending
  | ok
  | rejected
  | timedOut
deriving DecidableEq

/-- A call with the operation it has sent last: `out` while its effect can still come, `found` is what a
read has found. -/
structure LateCall where
  stage : CellCall := .idle
  out : Option KeyCall := none
  found : Option Tokens := none
deriving DecidableEq

/-- The effect of an operation on the store, and what it finds. -/
def KeyCall.land (store : KeyStore) : KeyCall → KeyStore × Option Tokens
  | .get => (store, store.item)
  | .getReset => ({ store with item := none }, none)
  | .save t => ({ store with item := some t }, none)
  | .clear => ({ store with item := none }, none)

/-- The function runs on behind its `await`, which resolved or, with `ok` false, threw. -/
def KeyCall.resume (store : KeyStore) (found : Option Tokens) (ok : Bool) : KeyCall → KeyStore × KeyResult
  | .get =>
    if ok then
      match found with
      | none => (store, .returns store.fallbackTokens)
      | some t => if t.valid then (store, .returns (some t)) else (store, .awaits .getReset)
    else (store, .awaits .getReset)
  | .getReset => (store, .returns store.fallbackTokens)
  | .save t => ({ store with fallbackTokens := if ok then none else some t }, .returns none)
  | .clear => (store, .returns none)

/-- Only the reset behind a failed read is awaited without a time-out. -/
def LateCall.canEnd (c : LateCall) (k : KeyCall) : Ending → Bool
  | .ok => c.out.isNone
  | .rejected => c.out.isSome
  | .timedOut => k ≠ .getReset

/-- The call behind the answer; an operation that was rejected has no effect any more. -/
def LateCall.next (c : LateCall) (e : Ending) : KeyResult → LateCall
  | .awaits k => { c with stage := .awaiting k, out := some k }
  | .returns t => { c with stage := .returned t, out := if e = .rejected then none else c.out }

structure LateState (ι : Type) where
  store : KeyStore
  call : ι → LateCall

inductive LateEvent (ι : Type)
  | getTokens (i : ι)
  | saveTokens (i : ι) (accessToken refreshToken : String)
  | clearTokens (i : ι)
  | land (i : ι)
  | answer (i : ι) (e : Ending)

section
variable {ι : Type} [DecidableEq ι]

def LateState.set (s : LateState ι) (store : KeyStore) (i : ι) (c : LateCall) : LateState ι :=
  ⟨store, Function.update s.call i c⟩

theorem set_call (s : LateState ι) (store : KeyStore) (i j : ι) (c : LateCall) :
    (s.set store i c).call j = if j = i then c else s.call j := Function.update_apply ..

/-- The answer of call `i`'s operation arrives. -/
def LateState.answer (s : LateState ι) (i : ι) (k : KeyCall) (e : Ending) : LateState ι :=
  let out := k.resume s.store (s.call i).found (e = .ok)
  s.set out.1 i ((s.call i).next e out.2)

/-- Any number of calls of `getTokens`, `saveTokens` and `clearTokens`, in any order and overlapping, on any
content of the Keychain. -/
def lateCell (ι : Type) [DecidableEq ι] : System (LateState ι) (LateEvent ι) where
  Init s := s.store.fallbackTokens = none ∧ ∀ i, s.call i = {}
  step s
    | .getTokens i => match (s.call i).stage with
      | .idle => some (s.set s.store i { stage := .awaiting .get, out := some .get })
      | _ => none
    | .saveTokens i a r => match (s.call i).stage with
      | .idle =>
        if (Tokens.mk a r).valid then
          some (s.set s.store i { stage := .awaiting (.save ⟨a, r⟩), out := some (.save ⟨a, r⟩) })
        else some (s.set s.store i { stage := .returned none })
      | _ => none
    | .clearTokens i => match (s.call i).stage with
      | .idle => some (s.set s.store.beginClear i { stage := .awaiting .clear, out := some .clear })
      | _ => none
    | .land i => (s.call i).out.map fun k =>
      let out := k.land s.store
      s.set out.1 i { s.call i with out := none, found := out.2 }
    | .answer i e => match (s.call i).stage with
      | .awaiting k => if (s.call i).canEnd k e then some (s.answer i k e) else none
      | _ => none

/-- No `saveTokens` is called. -/
def noSaveCall : LateEvent ι → Bool
  | .saveTokens .. => false
  | _ => true

/-- No write lands, and no `saveTokens` falls back to memory. -/
def nothingLate (s : LateState ι) : LateEvent ι → Bool
  | .land i => match (s.call i).out with
    | some (.save _) => false
    | _ => true
  | .answer i e => match (s.call i).stage with
    | .awaiting (.save _) => e = .ok
    | _ => true
  | _ => true

/-! ### A store with nothing to read -/

/-- The Keychain holds no valid pair, and there is no fallback. -/
structure KeyStore.Gone (s : KeyStore) : Prop where
  item : ∀ t, s.item = some t → t.valid = false
  fallback : s.fallbackTokens = none

theorem gone_reset {s : KeyStore} (h : s.fallbackTokens = none) : (KeyCall.clear.land s).1.Gone :=
  ⟨fun t ht => (by cases ht), h⟩

theorem gone_land {s : KeyStore} (h : s.Gone) {k : KeyCall} (hk : ∀ t, k ≠ .save t) : (k.land s).1.Gone := by
  cases k with
  | get => exact h
  | save t => exact absurd rfl (hk t)
  | getReset => exact ⟨fun t ht => (by cases ht), h.fallback⟩
  | clear => exact gone_reset h.fallback

theorem gone_resume {s : KeyStore} (h : s.Gone) {k : KeyCall} {found : Option Tokens} {ok : Bool}
    (hk : ∀ t, k = .save t → ok = true) : (k.resume s found ok).1.Gone := by
  cases k with
  | get =>
    have hsame : (KeyCall.get.resume s found ok).1 = s := by
      simp only [KeyCall.resume]
      split_ifs
      · cases found with
        | none => rfl
        | some t => dsimp only; split_ifs <;> rfl
      · rfl
    rw [hsame]
    exact h
  | save t =>
    obtain rfl := hk t rfl
    exact ⟨h.item, rfl⟩
  | getReset => exact h
  | clear => exact h

/-- The call returns nothing, and if it reads, it finds nothing. -/
structure LateCall.ReadsNothing (c : LateCall) : Prop where
  returned : ∀ t, c.stage = .returned t → t = none
  reading : c.stage = .awaiting .get → c.out = some .get ∨
    (c.out = none ∧ ∀ t, c.found = some t → t.valid = false)

/-- The store is empty, and what has been called since then reads nothing. -/
structure Cleared (later : ι → Prop) (s : LateState ι) : Prop where
  gone : s.store.Gone
  reads : ∀ j, later j → (s.call j).ReadsNothing

theorem Cleared.set {later : ι → Prop} {s : LateState ι} (h : Cleared later s) {store : KeyStore} {i : ι}
    {c : LateCall} (hstore : store.Gone) (hc : later i → c.ReadsNothing) :
    Cleared later (s.set store i c) := by
  refine ⟨hstore, fun j hj => ?_⟩
  rw [set_call]
  by_cases hji : j = i
  · rw [if_pos hji]
    exact hc (hji ▸ hj)
  · rw [if_neg hji]
    exact h.reads j hj

theorem readsNothing_next {s : KeyStore} (h : s.Gone) {c : LateCall} {k : KeyCall} {e : Ending}
    (hc : c.ReadsNothing) (hk : c.stage = .awaiting k) (he : c.canEnd k e = true) :
    (c.next e (k.resume s c.found (e = .ok)).2).ReadsNothing := by
  have hreturns : ∀ t, t = none → (c.next e (.returns t)).ReadsNothing := by
    rintro _ rfl
    exact ⟨fun t ht => (by cases ht; rfl), fun hget => (by cases hget)⟩
  have hawaits : (c.next e (.awaits .getReset)).ReadsNothing :=
    ⟨fun t ht => (by cases ht), fun hget => (by cases hget)⟩
  cases k with
  | get =>
    by_cases hok : e = .ok
    · subst hok
      obtain hout | ⟨-, hfound⟩ := hc.reading hk
      · simp [LateCall.canEnd, hout] at he
      · cases hread : c.found with
        | none => exact hreturns _ h.fallback
        | some t =>
          have hresume : KeyCall.get.resume s (some t) true = (s, .awaits .getReset) := by
            simp [KeyCall.resume, hfound t hread]
          rw [decide_eq_true rfl, hresume]
          exact hawaits
    · rw [decide_eq_false hok]
      exact hawaits
  | getReset => exact hreturns _ h.fallback
  | save t => exact hreturns none rfl
  | clear => exact hreturns none rfl

theorem cleared_step {later : ι → Prop} {s s' : LateState ι} {e : LateEvent ι} (hs : Cleared later s)
    (hsave : noSaveCall e) (hlate : nothingLate s e) (h : (lateCell ι).step s e = some s') :
    Cleared later s' := by
  cases e with
  | getTokens i =>
    simp only [lateCell] at h
    split at h <;> cases h
    exact hs.set hs.gone fun _ => ⟨fun t ht => (by cases ht), fun _ => .inl rfl⟩
  | saveTokens i a r => cases hsave
  | clearTokens i =>
    simp only [lateCell] at h
    split at h <;> cases h
    exact hs.set ⟨hs.gone.item, rfl⟩ fun _ => ⟨fun t ht => (by cases ht), fun hget => (by cases hget)⟩
  | land i =>
    obtain ⟨k, hk, rfl⟩ := Option.map_eq_some_iff.mp h
    have hnoSave : ∀ t, k ≠ .save t := by
      rintro t rfl
      simp [nothingLate, hk] at hlate
    refine hs.set (gone_land hs.gone hnoSave) fun hi => ?_
    obtain ⟨hreturned, hreading⟩ := hs.reads i hi
    refine ⟨hreturned, fun hget => .inr ⟨rfl, fun t ht => ?_⟩⟩
    -- the effect is that of its read
    obtain hout | ⟨hout, -⟩ := hreading hget
    · rw [hk, Option.some.injEq] at hout
      subst hout
      exact hs.gone.item t ht
    · rw [hk] at hout
      cases hout
  | answer i e =>
    simp only [lateCell] at h
    split at h
    · rename_i k hk
      split_ifs at h with he
      cases h
      have hok : ∀ t, k = .save t → decide (e = .ok) = true := by
        rintro t rfl
        simpa [nothingLate, hk] using hlate
      exact hs.set (gone_resume hs.gone hok) fun hi => readsNothing_next hs.gone (hs.reads i hi) hk he
    · cases h

/-- **Clearing is final**, if the store holds nothing to read when `clearTokens` resolves and nothing of an
earlier `saveTokens` comes late: every `getTokens` that starts then and returns before the next `saveTokens`
returns null. -/
theorem clear_is_final {s₁ s₂ s₃ : LateState ι} {tr : List (LateEvent ι)} {c j : ι} {e : Ending}
    {t : Option Tokens} (hc : (s₁.call c).stage = .awaiting .clear)
    (hresolve : (lateCell ι).step s₁ (.answer c e) = some s₂) (hgone : s₁.store.Gone)
    (hrun : (lateCell ι).Run (fun s e => noSaveCall e && nothingLate s e) s₂ tr s₃)
    (hj : (s₂.call j).stage = .idle) (hret : (s₃.call j).stage = .returned t) : t = none := by
  have hstore : s₂.store = s₁.store := by
    simp only [lateCell, hc] at hresolve
    split_ifs at hresolve
    cases hresolve
    rfl
  have hstart : Cleared (fun j => (s₂.call j).stage = .idle) s₂ := by
    refine ⟨hstore ▸ hgone, fun j hj => ⟨fun t ht => ?_, fun hget => ?_⟩⟩
    · rw [hj] at ht
      cases ht
    · rw [hj] at hget
      cases hget
  have hend := hrun.invariant (Cleared fun j => (s₂.call j).stage = .idle) hstart
    fun s e s' hs hC hstep => by
      rw [Bool.and_eq_true] at hC
      exact cleared_step hs hC.1 hC.2 hstep
  exact (hend.reads j hj).returned t hret

theorem fallback_is_read {s : LateState ι} {j : ι} {p : Tokens} (hp : s.store.fallbackTokens = some p)
    (hj : (s.call j).stage = .awaiting .getReset) (hout : (s.call j).out = some .getReset) :
    ∃ s', (lateCell ι).Run (fun s e => noSaveCall e && nothingLate s e) s [.land j, .answer j .ok] s' ∧
      (s'.call j).stage = .returned (some p) := by
  let s₁ := s.set { s.store with item := none } j { s.call j with out := none, found := none }
  have hcall : s₁.call j = { s.call j with out := none, found := none } := by simp [s₁, set_call]
  have hland : (lateCell ι).step s (.land j) = some s₁ := by simp [lateCell, hout, KeyCall.land, s₁]
  have hanswer : (lateCell ι).step s₁ (.answer j .ok) = some (s₁.answer j .getReset .ok) := by
    simp [lateCell, hcall, hj, LateCall.canEnd]
  refine ⟨s₁.answer j .getReset .ok, .cons ?_ hland (.single ?_ hanswer), ?_⟩
  · simp [noSaveCall, nothingLate, hout]
  · simp [noSaveCall, nothingLate, hcall, hj]
  · simp [LateState.answer, KeyCall.resume, LateCall.next, s₁, LateState.set, hp]

theorem left_is_read {s : LateState ι} (h : ¬ s.store.Gone) {j : ι} (hj : (s.call j).stage = .idle) :
    ∃ tr s' p, (lateCell ι).Run (fun s e => noSaveCall e && nothingLate s e) s tr s' ∧
      (s'.call j).stage = .returned (some p) := by
  let c₂ : LateCall := { stage := .awaiting .get, out := none, found := s.store.item }
  let s₁ := s.set s.store j { stage := .awaiting .get, out := some .get }
  let s₂ := s₁.set s.store j c₂
  have hcall : s₂.call j = c₂ := by simp [s₂, set_call]
  have hread : (lateCell ι).Run (fun s e => noSaveCall e && nothingLate s e) s [.getTokens j, .land j] s₂ := by
    have hget : (lateCell ι).step s (.getTokens j) = some s₁ := by simp [lateCell, hj, s₁]
    refine .cons rfl hget (.single ?_ ?_)
    · simp [noSaveCall, nothingLate, s₁, set_call]
    · simp [lateCell, s₁, s₂, c₂, KeyCall.land, LateState.set]
  have hok : (noSaveCall (.answer j .ok) && nothingLate s₂ (.answer j .ok)) = true := by
    simp [noSaveCall, nothingLate, hcall, c₂]
  have hanswer : (lateCell ι).step s₂ (.answer j .ok) = some (s₂.answer j .get .ok) := by
    simp [lateCell, hcall, c₂, LateCall.canEnd]
  have hend := hread.trans (.single hok hanswer)
  have hfallback : (∀ t, s.store.item = some t → t.valid = false) → ∃ p, s.store.fallbackTokens = some p :=
    fun hitem => Option.ne_none_iff_exists'.mp fun hnone => h ⟨hitem, hnone⟩
  cases hitem : s.store.item with
  | none =>
    obtain ⟨p, hp⟩ := hfallback (by simp [hitem])
    refine ⟨_, _, p, hend, ?_⟩
    simp [LateState.answer, c₂, hitem, KeyCall.resume, LateCall.next, s₂, LateState.set, hp]
  | some t =>
    by_cases ht : t.valid = true
    · refine ⟨_, _, t, hend, ?_⟩
      simp [LateState.answer, hcall, c₂, hitem, KeyCall.resume, set_call, LateCall.next, ht]
    · -- the pair in the Keychain cannot be used, and the read goes on to reset it
      obtain ⟨p, hp⟩ := hfallback (by simpa [hitem] using ht)
      have hnext : (s₂.answer j .get .ok).store.fallbackTokens = some p ∧
          ((s₂.answer j .get .ok).call j).stage = .awaiting .getReset ∧
          ((s₂.answer j .get .ok).call j).out = some .getReset := by
        simp [LateState.answer, c₂, hitem, KeyCall.resume, LateCall.next, s₂, LateState.set, ht, hp]
      obtain ⟨s', hrun, hret⟩ := fallback_is_read hnext.1 hnext.2.1 hnext.2.2
      exact ⟨_, s', p, hend.trans hrun, hret⟩

end

/-! ### Tokens that come back -/

def quietCell : LateState ℕ := ⟨{}, fun _ => {}⟩

theorem clear_run (c : LateState ℕ → LateEvent ℕ → Bool) (before after : List (LateEvent ℕ)) (e : Ending)
    (store : KeyStore) {t : Option Tokens}
    (h : ((lateCell ℕ).exec (fun _ _ => true) quietCell before).map (fun s₁ =>
      ((lateCell ℕ).step s₁ (.answer 1 e)).map fun s₂ => ((lateCell ℕ).exec c s₂ after).map fun s₃ =>
        (s₁.store, (s₁.call 1).stage, (s₂.call 2).stage, (s₃.call 2).stage)) =
      some (some (some (store, .awaiting .clear, .idle, .returned t)))) :
    ∃ s₁ s₂ s₃, (lateCell ℕ).Reachable (fun _ _ => true) s₁ ∧ s₁.store = store ∧
      (s₁.call 1).stage = .awaiting .clear ∧ (lateCell ℕ).step s₁ (.answer 1 e) = some s₂ ∧
      (lateCell ℕ).Run (fun s e => c s e) s₂ after s₃ ∧
      (s₂.call 2).stage = .idle ∧ (s₃.call 2).stage = .returned t := by
  obtain ⟨s₁, h₁, h₂⟩ := System.reachable_of_exec (lateCell ℕ) (fun _ _ => true) _ _ ⟨rfl, fun _ => rfl⟩ h
  obtain ⟨s₂, hstep, h₃⟩ := Option.map_eq_some_iff.mp h₂
  obtain ⟨s₃, hexec, h₄⟩ := Option.map_eq_some_iff.mp h₃
  obtain ⟨h₅, h₆, h₇, h₈⟩ : _ ∧ _ ∧ _ ∧ _ := by simpa only [Prod.mk.injEq] using h₄
  exact ⟨s₁, s₂, s₃, by simpa using h₁, h₅, h₆, hstep, .of_exec hexec, h₇, h₈⟩

/-- A pair is saved and cleared, and a later read returns null. -/
theorem clear_is_final_run : ∃ (s₁ s₂ s₃ : LateState ℕ) (tr : List (LateEvent ℕ)) (t : Option Tokens),
    (lateCell ℕ).step s₁ (.answer 1 .ok) = some s₂ ∧ (lateCell ℕ).Run System.Any s₂ tr s₃ ∧
    (s₃.call 2).stage = .returned t ∧ t = none := by
  obtain ⟨s₁, s₂, s₃, -, hstore, hc, hresolve, hrun, hj, hret⟩ := clear_run
    (fun s e => noSaveCall e && nothingLate s e)
    [.saveTokens 0 "a1" "r1", .land 0, .answer 0 .ok, .clearTokens 1, .land 1]
    [.getTokens 2, .land 2, .answer 2 .ok] .ok {} (t := none) (by decide +kernel)
  have hgone : s₁.store.Gone := hstore ▸ ⟨fun t ht => (by cases ht), rfl⟩
  exact ⟨s₁, s₂, s₃, _, none, hresolve, hrun.mono fun _ _ _ => trivial, hret,
    clear_is_final hc hresolve hgone hrun hj hret⟩

/-- **Tokens come back after a clear**: by a reset that is rejected, and by the write of an earlier save that
timed out and lands behind the reset. -/
theorem tokens_come_back :
    (∃ (s₁ s₂ s₃ : LateState ℕ) (tr : List (LateEvent ℕ)), (lateCell ℕ).Reachable (fun _ _ => true) s₁ ∧
      (s₁.call 1).stage = .awaiting .clear ∧ (lateCell ℕ).step s₁ (.answer 1 .rejected) = some s₂ ∧
      (lateCell ℕ).Run (fun _ e => noSaveCall e) s₂ tr s₃ ∧ (s₂.call 2).stage = .idle ∧
      (s₃.call 2).stage = .returned (some (pair "1"))) ∧
    ∃ (s₁ s₂ s₃ : LateState ℕ) (tr : List (LateEvent ℕ)), (lateCell ℕ).Reachable (fun _ _ => true) s₁ ∧
      (s₁.call 1).stage = .awaiting .clear ∧ (lateCell ℕ).step s₁ (.answer 1 .ok) = some s₂ ∧
      (lateCell ℕ).Run (fun _ e => noSaveCall e) s₂ tr s₃ ∧ (s₂.call 2).stage = .idle ∧
      (s₃.call 2).stage = .returned (some (pair "1")) := by
  constructor
  · obtain ⟨s₁, s₂, s₃, h₁, -, hc, hresolve, hrun, hj, hret⟩ := clear_run (fun _ e => noSaveCall e)
      [.saveTokens 0 "a1" "r1", .land 0, .answer 0 .ok, .clearTokens 1]
      [.getTokens 2, .land 2, .answer 2 .ok] .rejected ⟨some (pair "1"), none⟩ (t := some (pair "1"))
      (by decide +kernel)
    exact ⟨s₁, s₂, s₃, _, h₁, hc, hresolve, hrun, hj, hret⟩
  · obtain ⟨s₁, s₂, s₃, h₁, -, hc, hresolve, hrun, hj, hret⟩ := clear_run (fun _ e => noSaveCall e)
      [.saveTokens 0 "a1" "r1", .answer 0 .timedOut, .clearTokens 1, .land 1]
      [.land 0, .getTokens 2, .land 2, .answer 2 .ok] .ok {} (t := some (pair "1")) (by decide +kernel)
    exact ⟨s₁, s₂, s₃, _, h₁, hc, hresolve, hrun, hj, hret⟩

end Locus.Mobile
