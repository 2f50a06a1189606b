import Locus.Lib.System
import Mathlib.Logic.Function.Basic

/-!
# The token store of the app

`utils/keychain.ts` keeps the token pair in one Keychain item, and in memory when the Keychain fails.
`getTokens`, `saveTokens` and `clearTokens` are the points at which they await the Keychain
(`KeyCall`), and what they do when it answers (`KeyCall.answer`).

A save that falls back to memory leaves an older pair in the Keychain, and a read prefers the Keychain:
the older pair comes back (`older_pair_returns`). A save that succeeds drops the fallback, and a read
that fails resets the Keychain: the pair is lost. `saved_pair_is_read` is what remains.
-/

namespace Locus.Mobile

open Lib

structure Tokens where
  accessToken : String
  refreshToken : String
deriving DecidableEq

/-- `isNonEmptyString` of both. -/
def Tokens.valid (t : Tokens) : Bool := t.accessToken ≠ "" && t.refreshToken ≠ ""

/-- The Keychain item of the service `locus_auth`, and `fallbackTokens`. -/
structure KeyStore where
  item : Option Tokens := none
  fallbackTokens : Option Tokens := none
deriving DecidableEq

/-- How a Keychain call ends: it succeeds, it fails or is timed out without effect, or it has its effect
and is reported as failed or timed out all the same. -/
inductive Outcome
  | ok
  | failed
  | lost
deriving DecidableEq

def Outcome.lands : Outcome → Bool
  | failed => false
  | _ => true

/-- `Keychain.resetGenericPassword` -/
def KeyStore.reset (s : KeyStore) (o : Outcome) : KeyStore :=
  if o.lands then { s with item := none } else s

/-- What a function of the module awaits: the read of `getTokens`, the reset behind a read that failed,
the write of `saveTokens`, the reset of `clearTokens`. -/
inductive KeyCall
  | get
  | getReset
  | save (t : Tokens)
  | clear
deriving DecidableEq

/-- The function goes on to await another call, or returns; `saveTokens` and `clearTokens` return
nothing. -/
inductive KeyResult
  | awaits (c : KeyCall)
  | returns (t : Option Tokens)

/-- `clearTokens` before its `await`. -/
def KeyStore.beginClear (s : KeyStore) : KeyStore := { s with fallbackTokens := none }

/-- The Keychain answers the awaited call, and the function runs on. -/
def KeyCall.answer (s : KeyStore) : KeyCall → Outcome → KeyStore × KeyResult
  | .get, .ok =>
    match s.item with
    | none => (s, .returns s.fallbackTokens)
    | some t => if t.valid then (s, .returns (some t)) else (s, .awaits .getReset)
  | .get, _ => (s, .awaits .getReset)
  | .getReset, o => (s.reset o, .returns s.fallbackTokens)
  | .save t, .ok => ({ item := some t, fallbackTokens := none }, .returns none)
  | .save t, .failed => ({ s with fallbackTokens := some t }, .returns none)
  | .save t, .lost => ({ item := some t, fallbackTokens := some t }, .returns none)
  | .clear, o => (s.reset o, .returns none)

theorem answer_awaits {keys keys' : KeyStore} {c c' : KeyCall} {o : Outcome}
    (h : c.answer keys o = (keys', .awaits c')) : c' = .getReset := by
  unfold KeyCall.answer at h
  grind

/-! ### Overlapping calls -/

/-- A call of `getTokens` or `saveTokens`: not made, awaiting, or returned. -/
inductive CellCall
  | idle
  | awaiting (c : KeyCall)
  | returned (t : Option Tokens)
deriving DecidableEq

structure CellState (ι : Type) where
  store : KeyStore
  call : ι → CellCall

inductive CellEvent (ι : Type)
  | getTokens (i : ι)
  | saveTokens (i : ι) (accessToken refreshToken : String)
  | answer (i : ι) (o : Outcome)

section
variable {ι : Type} [DecidableEq ι]

def CellState.setCall (s : CellState ι) (i : ι) (c : CellCall) : CellState ι :=
  { s with call := Function.update s.call i c }

/-- Call `i` runs on with the answer of the Keychain. -/
def CellState.answer (s : CellState ι) (i : ι) (c : KeyCall) (o : Outcome) : CellState ι :=
  match c.answer s.store o with
  | (store, .awaits c') => { s with store }.setCall i (.awaiting c')
  | (store, .returns t) => { s with store }.setCall i (.returned t)

/-- Any number of calls of `getTokens` and `saveTokens`, in any order and overlapping, on any content of
the Keychain. -/
def tokenCell (ι : Type) [DecidableEq ι] : System (CellState ι) (CellEvent ι) where
  Init s := s.store.fallbackTokens = none ∧ ∀ i, s.call i = .idle
  step s
    | .getTokens i => match s.call i with
      | .idle => some (s.setCall i (.awaiting .get))
      | _ => none
    | .saveTokens i a r => match s.call i with
      | .idle =>
        if (Tokens.mk a r).valid then some (s.setCall i (.awaiting (.save ⟨a, r⟩)))
        else some (s.setCall i (.returned none))
      | _ => none
    | .answer i o => match s.call i with
      | .awaiting c => some (s.answer i c o)
      | _ => none

/-- The step belongs to no `saveTokens`. -/
def noSave (s : CellState ι) : CellEvent ι → Bool
  | .getTokens _ => true
  | .saveTokens .. => false
  | .answer i _ => match s.call i with
    | .awaiting (.save _) => false
    | _ => true

/-- Without a fallback the step's read succeeds and its reset has no effect; with one, a read that
succeeds finds no other pair than `p` in the Keychain. -/
def readsPair (p : Tokens) (s : CellState ι) : CellEvent ι → Bool
  | .answer i o => match s.call i, s.store.fallbackTokens with
    | .awaiting .get, none => o = .ok
    | .awaiting .getReset, none => !o.lands
    | .awaiting .get, some _ => match o, s.store.item with
      | .ok, some q => !q.valid || q = p
      | _, _ => true
    | _, _ => true
  | _ => true

/-- What keeps `p` readable: it is in the Keychain with no fallback, or it is the fallback. A call made
since then awaits its read, or the reset that ends in the fallback, or has returned `p`. -/
structure Holds (p : Tokens) (later : ι → Prop) (s : CellState ι) : Prop where
  stored : (s.store.item = some p ∧ s.store.fallbackTokens = none) ∨ s.store.fallbackTokens = some p
  reads : ∀ j, later j → s.call j = .idle ∨ s.call j = .awaiting .get ∨
    (s.call j = .awaiting .getReset ∧ s.store.fallbackTokens = some p) ∨ s.call j = .returned (some p)
  noClear : ∀ j, s.call j ≠ .awaiting .clear

theorem setCall_store (s : CellState ι) (i : ι) (c : CellCall) : (s.setCall i c).store = s.store := rfl

theorem setCall_call (s : CellState ι) (i j : ι) (c : CellCall) :
    (s.setCall i c).call j = if j = i then c else s.call j := Function.update_apply ..

theorem Holds.setCall {s : CellState ι} {p : Tokens} {later : ι → Prop} (h : Holds p later s) {i : ι}
    {c : CellCall} (hc : c ≠ .awaiting .clear) (hi : later i → c = .awaiting .get ∨
      (c = .awaiting .getReset ∧ s.store.fallbackTokens = some p) ∨ c = .returned (some p)) :
    Holds p later (s.setCall i c) := by
  refine ⟨h.stored, fun j hj => ?_, fun j => ?_⟩
  · rw [setCall_call, setCall_store]
    split
    · rename_i hji
      exact .inr (hi (hji ▸ hj))
    · exact h.reads j hj
  · rw [setCall_call]
    split
    · exact hc
    · exact h.noClear j

omit [DecidableEq ι] in
theorem Holds.withStore {s : CellState ι} {p : Tokens} {later : ι → Prop} (h : Holds p later s)
    (store : KeyStore) (hfallback : store.fallbackTokens = s.store.fallbackTokens)
    (hitem : s.store.fallbackTokens = none → store.item = s.store.item) :
    Holds p later { s with store } := by
  refine ⟨?_, fun j hj => ?_, h.noClear⟩
  · rcases h.stored with ⟨hp, hnone⟩ | hp
    · exact .inl ⟨(hitem hnone).trans hp, hfallback.trans hnone⟩
    · exact .inr (hfallback.trans hp)
  · rw [show ({ s with store } : CellState ι).store.fallbackTokens = s.store.fallbackTokens from hfallback]
    exact h.reads j hj

theorem holds_step {s s' : CellState ι} {e : CellEvent ι} {p : Tokens} {later : ι → Prop}
    (hp : p.valid) (hs : Holds p later s) (hsave : noSave s e) (hread : readsPair p s e)
    (h : (tokenCell ι).step s e = some s') : Holds p later s' := by
  cases e with
  | getTokens i =>
    simp only [tokenCell] at h
    split at h
    · cases h
      exact hs.setCall (by simp) fun _ => .inl rfl
    · cases h
  | saveTokens i a r => cases hsave
  | answer i o =>
    simp only [tokenCell] at h
    split at h
    swap
    · cases h
    rename_i c hi
    obtain rfl := Option.some.inj h
    simp only [noSave, readsPair, hi] at hsave hread
    cases c with
    | save t => cases hsave
    | clear => exact absurd hi (hs.noClear i)
    | getReset =>
      -- the reset has no effect, or the fallback is `p`
      refine (hs.withStore (s.store.reset o) ?_ ?_).setCall (by simp) ?_
      · unfold KeyStore.reset
        split <;> rfl
      · intro hnone
        rw [hnone] at hread
        unfold KeyStore.reset
        rw [if_neg (by simpa using hread)]
      · intro hlater
        rcases hs.reads i hlater with hi' | hi' | ⟨-, hf⟩ | hi'
        · rw [hi] at hi'
          cases hi'
        · rw [hi] at hi'
          cases hi'
        · exact .inr (.inr (congrArg _ hf))
        · rw [hi] at hi'
          cases hi'
    | get =>
      rcases hs.stored with ⟨hitem, hnone⟩ | hfallback
      · -- the Keychain holds `p`, and the read succeeds
        rw [hnone] at hread
        obtain rfl : o = .ok := of_decide_eq_true hread
        have hanswer : s.answer i .get .ok = s.setCall i (.returned (some p)) := by
          simp [CellState.answer, KeyCall.answer, hitem, hp]
        rw [hanswer]
        exact hs.setCall (by simp) fun _ => .inr (.inr rfl)
      · -- the fallback is `p`, and the Keychain holds nothing else
        have hanswer : s.answer i .get o = s.setCall i (.returned (some p)) ∨
            s.answer i .get o = s.setCall i (.awaiting .getReset) := by
          rw [hfallback] at hread
          cases o with
          | ok =>
            cases hitem : s.store.item with
            | none => exact .inl (by simp [CellState.answer, KeyCall.answer, hitem, hfallback])
            | some q =>
              simp only [hitem, Bool.or_eq_true, decide_eq_true_eq] at hread
              by_cases hq : q.valid = true
              · rcases hread with hread | rfl
                · simp [hq] at hread
                · exact .inl (by simp [CellState.answer, KeyCall.answer, hitem, hq])
              · exact .inr (by simp [CellState.answer, KeyCall.answer, hitem, hq])
          | failed => exact .inr rfl
          | lost => exact .inr rfl
        rcases hanswer with hanswer | hanswer <;> rw [hanswer]
        · exact hs.setCall (by simp) fun _ => .inr (.inr rfl)
        · exact hs.setCall (by simp) fun _ => .inr (.inl ⟨rfl, hfallback⟩)

theorem noClear_step {s s' : CellState ι} {e : CellEvent ι} (hs : ∀ j, s.call j ≠ .awaiting .clear)
    (h : (tokenCell ι).step s e = some s') : ∀ j, s'.call j ≠ .awaiting .clear := by
  have hset : ∀ (s : CellState ι) (i : ι) (c : CellCall), (∀ j, s.call j ≠ .awaiting .clear) →
      c ≠ .awaiting .clear → ∀ j, (s.setCall i c).call j ≠ .awaiting .clear := by
    intro s i c hs hc j
    rw [setCall_call]
    split
    · exact hc
    · exact hs j
  cases e with
  | getTokens i =>
    simp only [tokenCell] at h
    split at h <;> cases h
    exact hset s i _ hs (by simp)
  | saveTokens i a r =>
    simp only [tokenCell] at h
    split at h
    · split at h <;> cases h
      · exact hset s i _ hs (by simp)
      · exact hset s i _ hs (by simp)
    · cases h
  | answer i o =>
    simp only [tokenCell] at h
    split at h <;> cases h
    rename_i c hi
    unfold CellState.answer
    split
    · rename_i store c' hc
      refine hset _ i _ hs ?_
      rintro ⟨⟩
      unfold KeyCall.answer at hc
      split at hc <;> try cases hc
      split at hc <;> try cases hc
      split at hc <;> cases hc
    · exact hset _ i _ hs (by simp)

/-- **A saved pair is read**: once `saveTokens` has resolved, and until the next one, every later
`getTokens` that returns returns the pair, if reads go as `readsPair` says. -/
theorem saved_pair_is_read {C : CellState ι → CellEvent ι → Prop} {s₁ s₂ s₃ : CellState ι}
    {tr : List (CellEvent ι)} {i j : ι} {p : Tokens} {o : Outcome} {t : Option Tokens}
    (h₁ : (tokenCell ι).Reachable C s₁) (hp : p.valid) (hi : s₁.call i = .awaiting (.save p))
    (hsave : (tokenCell ι).step s₁ (.answer i o) = some s₂)
    (h₂ : (tokenCell ι).Run (fun s e => noSave s e && readsPair p s e) s₂ tr s₃)
    (hj : s₂.call j = .idle) (hret : s₃.call j = .returned t) : t = some p := by
  have hs₂ : s₂ = s₁.answer i (.save p) o := by
    simp only [tokenCell, hi, Option.some.injEq] at hsave
    exact hsave.symm
  have hholds : Holds p (fun j => s₂.call j = .idle) s₂ := by
    refine ⟨?_, fun j hj => .inl hj, noClear_step ?_ hsave⟩
    · rw [hs₂]
      cases o with
      | ok => exact .inl ⟨rfl, rfl⟩
      | failed => exact .inr rfl
      | lost => exact .inr rfl
    · exact h₁.invariant (fun s => ∀ j, s.call j ≠ .awaiting .clear)
        (fun s h₀ j => by simp [h₀.2 j]) fun _ _ _ hs _ hstep => noClear_step hs hstep
  have hend := h₂.invariant (Holds p fun j => s₂.call j = .idle) hholds fun s e s' hs hC hstep => by
    rw [Bool.and_eq_true] at hC
    exact holds_step hp hs hC.1 hC.2 hstep
  rcases hend.reads j hj with hj' | hj' | ⟨hj', -⟩ | hj' <;> rw [hret] at hj'
  · cases hj'
  · cases hj'
  · cases hj'
  · cases hj'
    rfl

end

/-! ### An older pair -/

def noneLost {ι : Type} (_ : CellState ι) : CellEvent ι → Bool
  | .answer _ .lost => false
  | _ => true

def pair (n : String) : Tokens := ⟨"a" ++ n, "r" ++ n⟩

/-- Nothing is called, and the Keychain holds nothing. -/
def emptyCell : CellState ℕ := ⟨{}, fun _ => .idle⟩

theorem saveTwice_run (c : CellState ℕ → CellEvent ℕ → Bool) (tr : List (CellEvent ℕ)) {t : Option Tokens}
    (h : ((tokenCell ℕ).exec noneLost emptyCell
      [.saveTokens 0 "a1" "r1", .answer 0 .ok, .saveTokens 2 "a2" "r2"]).map (fun s₁ =>
        ((tokenCell ℕ).step s₁ (.answer 2 .failed)).map fun s₂ =>
          ((tokenCell ℕ).exec c s₂ tr).map fun s₃ => (s₁.call 2, s₂.call 1, s₃.call 1)) =
      some (some (some (.awaiting (.save (pair "2")), .idle, .returned t)))) :
    ∃ s₁ s₂ s₃, (tokenCell ℕ).Reachable (fun s e => noneLost s e) s₁ ∧
      s₁.call 2 = .awaiting (.save (pair "2")) ∧
      (tokenCell ℕ).step s₁ (.answer 2 .failed) = some s₂ ∧ (tokenCell ℕ).Run (fun s e => c s e) s₂ tr s₃ ∧
      s₂.call 1 = .idle ∧ s₃.call 1 = .returned t := by
  obtain ⟨s₁, h₁, h₂⟩ := System.reachable_of_exec (tokenCell ℕ) noneLost _ _ ⟨rfl, fun _ => rfl⟩ h
  obtain ⟨s₂, hstep, h₃⟩ := Option.map_eq_some_iff.mp h₂
  obtain ⟨s₃, hexec, h₄⟩ := Option.map_eq_some_iff.mp h₃
  obtain ⟨h₅, h₆, h₇⟩ : _ ∧ _ ∧ _ := by simpa only [Prod.mk.injEq] using h₄
  exact ⟨s₁, s₂, s₃, h₁, h₅, hstep, .of_exec hexec, h₆, h₇⟩

/-- The read fails, and the pair in memory is returned. -/
theorem saved_pair_is_read_fallback :
    ∃ (s₁ s₂ s₃ : CellState ℕ) (tr : List (CellEvent ℕ)) (t : Option Tokens),
      (tokenCell ℕ).step s₁ (.answer 2 .failed) = some s₂ ∧ (tokenCell ℕ).Run System.Any s₂ tr s₃ ∧
      s₃.call 1 = .returned t ∧ t = some (pair "2") := by
  obtain ⟨s₁, s₂, s₃, h₁, hi, hsave, hrun, hj, hret⟩ := saveTwice_run
    (fun s e => noSave s e && readsPair (pair "2") s e)
    [.getTokens 1, .answer 1 .failed, .answer 1 .ok] (t := some (pair "2")) (by decide +kernel)
  exact ⟨s₁, s₂, s₃, _, _, hsave, hrun.mono fun _ _ _ => trivial, hret,
    saved_pair_is_read h₁ (by decide +kernel) hi hsave hrun hj hret⟩

/-- **The older pair comes back**: a first save reaches the Keychain, a second one fails and falls back to
memory, and the read that follows it finds the first pair. -/
theorem older_pair_returns :
    ¬ ∀ (ι : Type) [DecidableEq ι] (s₁ s₂ s₃ : CellState ι) (tr : List (CellEvent ι)) (i j : ι)
        (p : Tokens) (o : Outcome) (t : Option Tokens),
        (tokenCell ι).Reachable (fun s e => noneLost s e) s₁ → p.valid →
        s₁.call i = .awaiting (.save p) → o ≠ .lost → (tokenCell ι).step s₁ (.answer i o) = some s₂ →
        (tokenCell ι).Run (fun s e => noSave s e && noneLost s e) s₂ tr s₃ →
        s₂.call j = .idle → s₃.call j = .returned t → t = some p := by
  intro hclaim
  obtain ⟨s₁, s₂, s₃, h₁, hi, hsave, hrun, hj, hret⟩ := saveTwice_run
    (fun s e => noSave s e && noneLost s e) [.getTokens 1, .answer 1 .ok] (t := some (pair "1"))
    (by decide +kernel)
  have hold := hclaim ℕ s₁ s₂ s₃ _ 2 1 (pair "2") .failed _ h₁ (by decide +kernel) hi (by decide) hsave
    hrun hj hret
  exact absurd hold (by decide +kernel)

end Locus.Mobile
