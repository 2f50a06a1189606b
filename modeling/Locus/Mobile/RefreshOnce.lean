import Locus.Mobile.StaleLogout

/-!
# A refresh token is presented once

The tokens that the app presents in `POST /auth/refresh` and the tokens that the server has issued to it,
over a whole run on a Keychain that works. A presented token stays in the Keychain while its refresh is on,
and until the answer is saved over it or `clearTokens` is back no other task may refresh (`Presented.spent`).
Behind that the token is gone: it has been written by one task, once. So it is not read again, and no two
refreshes present the same token (`presented_once`), as long as the server issues each token once and answers
a refresh with a pair that can be saved.
-/

namespace Locus.Mobile

open Lib

/-! ### What is presented, what is issued -/

/-- `POST /auth/refresh` is sent and not over: its answer is out, or to be saved, or to be cleared away. -/
def Pc.presenting : Pc → Bool
  | .refreshSent _ | .refreshSave .. | .refreshClear _ => true
  | _ => false

/-- The token that a task presents when it goes on to `POST /auth/refresh`. -/
def Pc.sends : Pc → Option String
  | .refreshSent presented => some presented
  | _ => none

namespace Device

/-- The refresh token that the step presents to `POST /auth/refresh`. -/
def presents (s : Device) (e : DeviceEvent) : Option String :=
  e.task.bind fun i => (s.task i).bind fun t => (s.turn t e).bind (·.task.pc.sends)

/-- The refresh token that the server issues by the answer: in a pair for `login`, `register` or a refresh. -/
def receives (s : Device) : DeviceEvent → Option String
  | .respond i (.answer status data) => (s.task i).bind fun t =>
    if 200 ≤ status ∧ status < 300 then
      match t.pc, t.flow with
      | .sent, .login .. | .sent, .register .. | .refreshSent _, _ =>
        ((data.bind (·.tokens)).filter (·.valid)).map (·.refreshToken)
      | _, _ => none
    else none
  | _ => none

/-- A `POST /auth/refresh` that succeeds carries a pair of non-empty tokens. -/
def refreshesFully (s : Device) : DeviceEvent → Bool
  | .respond i (.answer status data) => (s.task i).all fun t =>
    match t.pc with
    | .refreshSent _ => ¬ (200 ≤ status ∧ status < 300) || (data.bind (·.tokens)).any (·.valid)
    | _ => true
  | _ => true

/-! ### A move of one task -/

/-- What a move does to the pairs: it writes no pair but its task's own, which it has from this answer; it
presents what it has just read; and a refresh ends with its pair saved, or with none stored. -/
structure Moves (s : Device) (t : Task) (e : DeviceEvent) (m : Move) : Prop where
  keys : s.keys.From t.pc.pending m.keys
  fallback : m.keys.fallbackTokens = none
  pending : ∀ p, m.task.pc.pending = some p → s.receives e = some p.refreshToken
  sends : ∀ presented, m.task.pc.sends = some presented →
    t.pc.role = .leading ∧ t.pc.presenting = false ∧ m.keys = s.keys ∧
      ∃ q, s.keys.item = some q ∧ q.refreshToken = presented
  ends : t.pc.presenting → m.task.pc.presenting ∨ m.keys.item = t.pc.pending

section
variable {s : Device} {t : Task} {m : Move}

/-- A move of a task that takes no part in a refresh, and has nothing to write behind it. -/
theorem Moves.free {e : DeviceEvent} (hwrites : Writes s.keys t.pc.pending m)
    (hfallback : m.keys.fallbackTokens = none) (hsends : m.task.pc.sends = none)
    (hends : t.pc.presenting → m.task.pc.presenting ∨ m.keys.item = t.pc.pending) : Moves s t e m := by
  refine ⟨hwrites.keys, hfallback, fun p hp => ?_, fun p hp => ?_, hends⟩
  · rw [hwrites.pending] at hp
    cases hp
  · rw [hsends] at hp
    cases hp

theorem reject_fallback (h : s.keys.fallbackTokens = none) (error : ApiError) :
    (s.reject t error).keys.fallbackTokens = none := by
  rcases reject_keys s t error with hkeys | hkeys <;> rw [hkeys]
  · exact h
  · rfl

theorem reject_sends (error : ApiError) : (s.reject t error).task.pc.sends = none := by
  cases hflow : t.flow <;> simp [reject, caught, move, Pc.sends, hflow]

theorem answer_ok_some {keys keys' : KeyStore} {c : KeyCall} {q : Tokens} (h : keys.fallbackTokens = none)
    (hanswer : c.answer keys .ok = (keys', .returns (some q))) : keys' = keys ∧ keys.item = some q := by
  cases c with
  | get =>
    simp only [KeyCall.answer] at hanswer
    split at hanswer
    · simp [h] at hanswer
    · rename_i q' hitem
      split at hanswer
      · obtain ⟨rfl, hq⟩ : keys = keys' ∧ q' = q := by simpa using hanswer
        exact ⟨rfl, hq ▸ hitem⟩
      · simp at hanswer
  | getReset => simp [KeyCall.answer, h] at hanswer
  | save p | clear => simp [KeyCall.answer] at hanswer

theorem answer_ok_fallback {keys : KeyStore} (c : KeyCall) (h : keys.fallbackTokens = none) :
    (c.answer keys .ok).1.fallbackTokens = none := by
  cases c with
  | get =>
    simp only [KeyCall.answer]
    split
    · exact h
    · split <;> exact h
  | getReset | clear => simpa [KeyCall.answer, KeyStore.reset, Outcome.lands] using h
  | save p => rfl

theorem moves_readBack {e : DeviceEvent} {c : KeyCall} {wait : KeyCall → Task}
    {k : Device → Option Tokens → Move} (h : s.keys.fallbackTokens = none)
    (hwrites : Writes s.keys t.pc.pending (s.readBack c .ok wait k)) (hpc : t.pc.presenting = false)
    (hwait : (wait .getReset).pc.sends = none)
    (hk : ∀ s' tokens, (k s' tokens).task.pc.sends = none ∧
      (s'.keys.fallbackTokens = none → (k s' tokens).keys.fallbackTokens = none)) :
    Moves s t e (s.readBack c .ok wait k) := by
  have hfallback := answer_ok_fallback c h
  have hends : t.pc.presenting → (s.readBack c .ok wait k).task.pc.presenting ∨
      (s.readBack c .ok wait k).keys.item = t.pc.pending := fun hp => by simp [hpc] at hp
  rcases readBack_cases s c .ok wait k with ⟨keys, hanswer, hm⟩ | ⟨keys, tokens, hanswer, hm⟩ <;>
    rw [hanswer] at hfallback <;> rw [hm] at hwrites hends ⊢
  · exact .free hwrites hfallback hwait hends
  · exact .free hwrites ((hk _ _).2 hfallback) (hk _ _).1 hends

theorem moves_refreshRead {e : DeviceEvent} {c : KeyCall} (h : s.keys.fallbackTokens = none)
    (hpc : t.pc = .refreshRead c) (hm : s.keychain t .ok = some m) : Moves s t e m := by
  have hwrites := writes_keychain hm
  have hfallback := answer_ok_fallback c h
  have hends : t.pc.presenting → m.task.pc.presenting ∨ m.keys.item = t.pc.pending := fun hp => by
    simp [hpc, Pc.presenting] at hp
  simp only [keychain, hpc, Option.some.injEq] at hm
  rcases readBack_cases s c .ok (fun c => { t with pc := .refreshRead c }) (fun s => s.refreshReadDone t) with
    ⟨keys, hanswer, hread⟩ | ⟨keys, tokens, hanswer, hread⟩ <;> rw [hanswer] at hfallback <;> rw [hread] at hm
  · subst hm
    exact .free hwrites hfallback rfl hends
  · unfold refreshReadDone at hm
    split at hm
    · rename_i q
      obtain ⟨rfl, hitem⟩ := answer_ok_some h hanswer
      split at hm
      · subst hm
        refine ⟨hwrites.keys, h, fun p hp => (by cases hp), fun presented hp => ?_, hends⟩
        obtain rfl := Option.some.inj hp
        exact ⟨by rw [hpc]; rfl, by rw [hpc]; rfl, rfl, q, hitem, rfl⟩
      · subst hm
        exact .free hwrites rfl rfl hends
    · subst hm
      exact .free hwrites rfl rfl hends

theorem moves_keychain {e : DeviceEvent} (h : s.keys.fallbackTokens = none)
    (hm : s.keychain t .ok = some m) : Moves s t e m := by
  have hwrites := writes_keychain hm
  have hm' := hm
  cases keychain_cases hm with
  | boot c hpc =>
    refine moves_readBack h hwrites (by rw [hpc]; rfl) rfl fun s' tokens => ?_
    unfold bootRead
    split <;> exact ⟨rfl, id⟩
  | attach c hpc =>
    refine moves_readBack h hwrites (by rw [hpc]; rfl) rfl fun s' tokens => ?_
    unfold attachRead
    split
    · split <;> exact ⟨rfl, id⟩
    · exact ⟨rfl, id⟩
  | refreshRead c hpc => exact moves_refreshRead h hpc hm'
  | verifying c expected user hpc =>
    refine moves_readBack h hwrites (by rw [hpc]; rfl) rfl fun s' tokens => ?_
    unfold verified
    split
    · exact ⟨rfl, id⟩
    · exact ⟨rfl, fun _ => rfl⟩
  | refreshSave presented tokens hpc =>
    -- the pair of the answer is saved
    exact .free hwrites rfl rfl fun _ => .inr (by rw [hpc]; rfl)
  | saving tokens user hpc =>
    refine .free hwrites ?_ ?_ (fun hp => by simp [hpc, Pc.presenting] at hp)
    · unfold saved
      split <;> rfl
    · unfold saved
      split <;> rfl
  | refreshClear error hpc =>
    -- no pair is stored any more
    refine .free hwrites ?_ (reject_sends (s := { s with keys := s.keys.reset .ok }) error)
      fun _ => .inr ?_
    · exact reject_fallback (s := { s with keys := s.keys.reset .ok }) h error
    · rw [hpc]
      rcases reject_keys { s with keys := s.keys.reset .ok } t error with hkeys | hkeys
      · exact congrArg KeyStore.item hkeys
      · exact congrArg KeyStore.item hkeys
  | verifyClear hpc => exact .free hwrites h rfl fun hp => by simp [hpc, Pc.presenting] at hp
  | clearing error hpc => exact .free hwrites h rfl fun hp => by simp [hpc, Pc.presenting] at hp

/-- The answer to a request: a pair of a `login` or `register` is to be saved. -/
theorem moves_resolve {i status : ℕ} {data : Option Payload} (h : s.keys.fallbackTokens = none)
    (ht : s.task i = some t) (hpc : t.pc = .sent) (h2xx : 200 ≤ status ∧ status < 300) :
    Moves s t (.respond i (.answer status data)) (s.resolve t data) := by
  have hfree : ∀ {m}, Writes s.keys none m → m.keys.fallbackTokens = none → m.task.pc.sends = none →
      Moves s t (.respond i (.answer status data)) m := by
    intro m hwrites hfallback hsends
    refine .free (by rw [hpc]; exact hwrites) hfallback hsends fun hp => ?_
    simp [hpc, Pc.presenting] at hp
  have hsaved : ∀ tokens user, Moves s t (.respond i (.answer status data)) (s.saved t tokens user) := by
    intro tokens user
    refine hfree (writes_saved .refl _ _) ?_ ?_
    · unfold saved
      split <;> exact h
    · unfold saved
      split <;> rfl
  unfold resolve
  cases hflow : t.flow with
  | login email password | register email password =>
    cases data with
    | none => exact hfree (writes_reject .refl _) (reject_fallback h _) (reject_sends _)
    | some data =>
      dsimp only
      cases htokens : data.tokens with
      | none => exact hsaved _ _
      | some tokens =>
        dsimp only
        split
        · rename_i hvalid
          refine ⟨.refl, h, fun p hp => ?_, fun presented hp => (by cases hp), fun hp => ?_⟩
          · obtain rfl := Option.some.inj hp
            simp [receives, ht, h2xx, hpc, hflow, htokens, hvalid]
          · simp [hpc, Pc.presenting] at hp
        · exact hsaved _ _
  | logout => exact hfree ⟨KeyStore.From.refl.beginClear, rfl⟩ rfl rfl
  | loadUser | other id => exact hfree ⟨.refl, rfl⟩ h rfl

theorem moves_respond {i : ℕ} {reply : Reply} (h : s.keys.fallbackTokens = none) (ht : s.task i = some t)
    (hC : s.refreshesFully (.respond i reply)) (hm : s.respond t reply = some m) :
    Moves s t (.respond i reply) m := by
  have hfree : ∀ {m}, Writes s.keys none m → t.pc = .sent → m.keys.fallbackTokens = none →
      m.task.pc.sends = none → Moves s t (.respond i reply) m := by
    intro m hwrites hpc hfallback hsends
    refine .free (by rw [hpc]; exact hwrites) hfallback hsends fun hp => ?_
    simp [hpc, Pc.presenting] at hp
  have hfail : ∀ {presented error}, t.pc = .refreshSent presented →
      Moves s t (.respond i reply) (s.refreshFail t error) := fun hpc =>
    .free (by rw [hpc]; exact writes_refreshFail .refl _) rfl rfl fun _ => .inl rfl
  cases respond_cases hm with
  | lost hpc => exact hfree (writes_reject .refl _) hpc (reject_fallback h _) (reject_sends _)
  | resolved status data hpc h2xx => exact moves_resolve h ht hpc h2xx
  | rejected status data hpc h2xx hstatus =>
    exact hfree (writes_reject .refl _) hpc (reject_fallback h _) (reject_sends _)
  | queued data hpc hretry hflag => exact hfree ⟨.refl, rfl⟩ hpc h rfl
  | leads data hpc hretry hflag => exact hfree ⟨.refl, rfl⟩ hpc h rfl
  | refreshLost presented hpc => exact hfail hpc
  | refreshRejected presented status data hpc h2xx => exact hfail hpc
  | refreshEmpty presented status hpc h2xx => exact hfail hpc
  | refreshed presented status data tokens hpc h2xx htokens hvalid =>
    -- the pair of the answer is to be saved
    refine ⟨.refl, h, fun p hp => ?_, fun presented hp => (by cases hp), fun _ => .inl rfl⟩
    obtain rfl := Option.some.inj hp
    simp [receives, ht, h2xx, hpc, htokens, hvalid]
  | unsaved presented status data hpc h2xx hinvalid =>
    simp [refreshesFully, ht, hpc, h2xx, hinvalid] at hC

end

end Device

/-! ### The presented tokens of a run -/

/-- The tokens `presented` so far against the tokens `issued` so far. -/
structure Presented (issued presented : List String) (s : Device) : Prop where
  sound : s.Sound
  fallback : s.keys.fallbackTokens = none
  stored : ∀ q, s.keys.item = some q → q.refreshToken ∈ issued
  /-- A pair that is to be written is not presented, and not stored yet. -/
  pending : ∀ i t p, s.task i = some t → t.pc.pending = some p → p.refreshToken ∈ issued ∧
    p.refreshToken ∉ presented ∧ ∀ q, s.keys.item = some q → q.refreshToken ≠ p.refreshToken
  once : ∀ i j t u p q, s.task i = some t → s.task j = some u → t.pc.pending = some p →
    u.pc.pending = some q → p.refreshToken = q.refreshToken → i = j
  known : ∀ x ∈ presented, x ∈ issued
  nodup : presented.Nodup
  /-- A presented token is stored only while a refresh is on. -/
  spent : ∀ q, s.keys.item = some q → q.refreshToken ∈ presented →
    ∃ i t, s.task i = some t ∧ t.pc.presenting

theorem entry_quiet (flow : Flow) :
    (Device.entry flow).pending = none ∧ (Device.entry flow).presenting = false := by
  cases flow <;> exact ⟨rfl, rfl⟩

theorem Presented.start {issued presented : List String} {s : Device} (h : Presented issued presented s)
    (flow : Flow) : Presented issued presented (s.start flow) := by
  have hold : ∀ {i t p}, (s.start flow).task i = some t → t.pc.pending = some p → s.task i = some t := by
    intro i t p ht hp
    rcases Device.start_task_cases ht with ht | ⟨-, rfl⟩
    · exact ht
    · rw [(entry_quiet flow).1] at hp
      cases hp
  refine ⟨h.sound.step (e := .start flow) rfl, h.fallback, h.stored,
    fun i t p ht hp => h.pending i t p (hold ht hp) hp, fun i j t u p q ht hu hp hq =>
      h.once i j t u p q (hold ht hp) (hold hu hq) hp hq, h.known, h.nodup, fun q hq hspent => ?_⟩
  obtain ⟨i, t, ht, hpc⟩ := h.spent q hq hspent
  exact ⟨i, t, (Device.start_task_of_ne s (h.sound.lt_next ht).ne flow).trans ht, hpc⟩

theorem role_of_presenting {pc : Pc} (h : pc.presenting) : pc.role.flies := by
  cases pc <;> first | rfl | cases h

theorem Presented.sends_fresh {issued presented : List String} {s : Device}
    (h : Presented issued presented s) {i : ℕ} {t : Task} {e : DeviceEvent} {m : Move}
    (ht : s.task i = some t) (hm : s.Moves t e m) {x : String} (hx : m.task.pc.sends = some x) :
    x ∈ issued ∧ x ∉ presented := by
  obtain ⟨hrole, hpc, -, q, hitem, rfl⟩ := hm.sends x hx
  refine ⟨h.stored q hitem, fun hspent => ?_⟩
  -- the refresh that presented it would be on beside this one
  obtain ⟨j, u, hu, hpresenting⟩ := h.spent q hitem hspent
  have hflies : (s.role j).flies := by
    rw [Device.role_of_task hu]
    exact role_of_presenting hpresenting
  have hji : j = i := h.sound.flight.one j i hflies (by
    show (s.role i).flies = true
    rw [Device.role_of_task ht, hrole]
    rfl)
  subst hji
  obtain rfl := Option.some.inj (hu.symm.trans ht)
  simp [hpc] at hpresenting

section
variable {issued presented : List String} {s : Device} {i j : ℕ} {t u : Task} {e : DeviceEvent} {m : Move}

theorem Presented.sends_stored (h : Presented issued presented s) (ht : s.task i = some t) (hm : s.Moves t e m)
    {x : String} (hx : x ∈ m.task.pc.sends.toList) :
    x ∈ issued ∧ x ∉ presented ∧ ∃ q, s.keys.item = some q ∧ q.refreshToken = x := by
  have hx' : m.task.pc.sends = some x := by simpa using hx
  obtain ⟨hin, hout⟩ := h.sends_fresh ht hm hx'
  obtain ⟨-, -, -, q, hq, hqx⟩ := hm.sends x hx'
  exact ⟨hin, hout, q, hq, hqx⟩

theorem item_cases (hm : s.Moves t e m) {q : Tokens} (hq : (s.apply i m).keys.item = some q) :
    s.keys.item = some q ∨ t.pc.pending = some q := by
  rw [Device.apply_keys] at hq
  exact hm.keys.item q hq

theorem Presented.stored_apply (h : Presented issued presented s) (ht : s.task i = some t) (hm : s.Moves t e m)
    {q : Tokens} (hq : (s.apply i m).keys.item = some q) : q.refreshToken ∈ issued := by
  rcases item_cases hm hq with hq | hq
  · exact h.stored q hq
  · exact (h.pending i t q ht hq).1

theorem Presented.pending_cases (h : Presented issued presented s) (ht : s.task i = some t) (hm : s.Moves t e m)
    (hnodup : (issued ++ (s.receives e).toList).Nodup) {p : Tokens} (hu : (s.apply i m).task j = some u)
    (hp : u.pc.pending = some p) : (s.task j = some u ∧ j ≠ i) ∨
      (j = i ∧ p.refreshToken ∉ issued ∧ p.refreshToken ∈ s.receives e) := by
  rcases Device.apply_task_cases h.sound ht hu with ⟨rfl, rfl⟩ | ⟨v, hv, hji, rfl⟩ | ⟨-, -, rfl⟩
  · have hreceives := hm.pending p hp
    refine .inr ⟨rfl, fun hmem => ?_, hreceives⟩
    exact (List.nodup_append.mp hnodup).2.2 _ hmem _ (by simp [hreceives]) rfl
  · split at hp
    · rename_i hqueued
      rw [settle_pending _ (h.sound.pc_of_mem hv hqueued)] at hp
      cases hp
    · rename_i hqueued
      rw [if_neg hqueued]
      exact .inl ⟨hv, hji⟩
  · cases hp

/-- A pair that is to be written behind the step is not presented, and not stored yet. -/
theorem Presented.pending_apply (h : Presented issued presented s) (ht : s.task i = some t) (hm : s.Moves t e m)
    (hnodup : (issued ++ (s.receives e).toList).Nodup) {p : Tokens} (hu : (s.apply i m).task j = some u)
    (hp : u.pc.pending = some p) : p.refreshToken ∈ issued ++ (s.receives e).toList ∧
      p.refreshToken ∉ presented ++ m.task.pc.sends.toList ∧
      ∀ q, (s.apply i m).keys.item = some q → q.refreshToken ≠ p.refreshToken := by
  rcases h.pending_cases ht hm hnodup hu hp with ⟨hu, hji⟩ | ⟨-, hnew, hreceives⟩
  · obtain ⟨hin, hout, hne⟩ := h.pending j u p hu hp
    refine ⟨List.mem_append_left _ hin, fun hmem => ?_, fun q hq heq => ?_⟩
    · rcases List.mem_append.mp hmem with hmem | hmem
      · exact hout hmem
      · obtain ⟨-, -, q, hq, hqp⟩ := h.sends_stored ht hm hmem
        exact hne q hq hqp
    · rcases item_cases hm hq with hq | hq
      · exact hne q hq heq
      · exact hji (h.once j i u t p q hu ht hp hq heq.symm)
  · refine ⟨List.mem_append_right _ (by simpa using hreceives), fun hmem => ?_, fun q hq heq => ?_⟩
    · rcases List.mem_append.mp hmem with hmem | hmem
      · exact hnew (h.known _ hmem)
      · exact hnew (h.sends_stored ht hm hmem).1
    · exact hnew (heq ▸ h.stored_apply ht hm hq)

theorem Presented.spent_apply (h : Presented issued presented s) (ht : s.task i = some t) (hm : s.Moves t e m)
    {q : Tokens} (hq : (s.apply i m).keys.item = some q)
    (hspent : q.refreshToken ∈ presented ++ m.task.pc.sends.toList) :
    ∃ j u, (s.apply i m).task j = some u ∧ u.pc.presenting := by
  rcases List.mem_append.mp hspent with hspent | hspent
  · rcases item_cases hm hq with hold | hwritten
    · obtain ⟨j, u, hu, hpc⟩ := h.spent q hold hspent
      by_cases hji : j = i
      · subst hji
        obtain rfl := Option.some.inj (hu.symm.trans ht)
        refine ⟨j, _, Device.apply_task_self h.sound ht m, ?_⟩
        rcases hm.ends hpc with hon | hover
        · exact hon
        · rw [Device.apply_keys, hover] at hq
          exact absurd hspent (h.pending j u q hu hq).2.1
      · have hqueued : j ∉ s.failedQueue := fun hmem => by
          rw [h.sound.pc_of_mem hu hmem] at hpc
          cases hpc
        have htask := Device.apply_task_of_ne h.sound hu hji m
        rw [if_neg hqueued] at htask
        exact ⟨j, u, htask, hpc⟩
    · exact absurd hspent (h.pending i t q ht hwritten).2.1
  · have hx : m.task.pc.sends = some q.refreshToken := by simpa using hspent
    refine ⟨i, _, Device.apply_task_self h.sound ht m, ?_⟩
    cases hpc : m.task.pc <;> simp_all [Pc.sends, Pc.presenting]

theorem Presented.apply (h : Presented issued presented s) (ht : s.task i = some t) (hm : s.Moves t e m)
    (hsound : (s.apply i m).Sound) (hnodup : (issued ++ (s.receives e).toList).Nodup) :
    Presented (issued ++ (s.receives e).toList) (presented ++ m.task.pc.sends.toList) (s.apply i m) := by
  have hissued : ∀ x ∈ issued, x ∈ issued ++ (s.receives e).toList := fun x => List.mem_append_left _
  refine ⟨hsound, (Device.apply_keys s i m) ▸ hm.fallback, fun q hq => hissued _ (h.stored_apply ht hm hq),
    fun j u p hu hp => h.pending_apply ht hm hnodup hu hp, fun j k u v p q hu hv hp hq hpq => ?_,
    fun x hx => ?_, ?_, fun q hq hspent => h.spent_apply ht hm hq hspent⟩
  · rcases h.pending_cases ht hm hnodup hu hp with ⟨hold, -⟩ | ⟨hj, hnew, -⟩ <;>
      rcases h.pending_cases ht hm hnodup hv hq with ⟨hold', -⟩ | ⟨hk, hnew', -⟩
    · exact h.once j k u v p q hold hold' hp hq hpq
    · exact absurd (hpq ▸ (h.pending j u p hold hp).1) hnew'
    · exact absurd (hpq ▸ (h.pending k v q hold' hq).1) hnew
    · exact hj.trans hk.symm
  · rcases List.mem_append.mp hx with hx | hx
    · exact hissued _ (h.known x hx)
    · exact hissued _ (h.sends_stored ht hm hx).1
  · refine List.nodup_append.mpr ⟨h.nodup, by cases m.task.pc.sends <;> simp, fun x hx y hy => ?_⟩
    rintro rfl
    exact (h.sends_stored ht hm hy).2.1 hx

end

theorem Presented.step {issued presented : List String} {s s' : Device} {e : DeviceEvent}
    (h : Presented issued presented s) (hworks : e.keychainWorks) (hC : s.refreshesFully e)
    (hnodup : (issued ++ (s.receives e).toList).Nodup) (hstep : device.step s e = some s') :
    Presented (issued ++ (s.receives e).toList) (presented ++ (s.presents e).toList) s' := by
  have hsound := h.sound.step hstep
  obtain ⟨flow, rfl, rfl⟩ | ⟨i, t, m, he, ht, hm, rfl⟩ := Device.step_cases hstep
  · simpa [Device.receives, Device.presents, DeviceEvent.task] using h.start flow
  · have hmoves : s.Moves t e m := by
      cases e with
      | start flow => cases he
      | keychain j o =>
        obtain rfl : o = .ok := of_decide_eq_true hworks
        exact Device.moves_keychain h.fallback hm
      | respond j reply =>
        obtain rfl := Option.some.inj he
        exact Device.moves_respond h.fallback ht hC hm
    have hpresents : s.presents e = m.task.pc.sends := by simp [Device.presents, he, ht, hm]
    rw [hpresents]
    exact h.apply ht hmoves hsound hnodup

def issuedTokens (s₀ : Device) (tr : List DeviceEvent) : List String :=
  (s₀.keys.item.map (·.refreshToken)).toList ++ device.observe Device.receives s₀ tr

/-- **A refresh token is presented once**: on a Keychain that works, when the server issues no token twice
and answers a refresh with a pair or not at all, at most one `POST /auth/refresh` is in flight, and no two
of a run carry the same token. -/
theorem presented_once {s₀ s : Device} {tr : List DeviceEvent} (h₀ : device.Init s₀)
    (hrun : device.Run (fun s e => e.keychainWorks && s.refreshesFully e) s₀ tr s)
    (hissued : (issuedTokens s₀ tr).Nodup) :
    (∀ i j t u p q, s.task i = some t → s.task j = some u → t.pc = .refreshSent p →
      u.pc = .refreshSent q → i = j) ∧ (device.observe Device.presents s₀ tr).Nodup := by
  have hpresented : Presented (issuedTokens s₀ tr) (device.observe Device.presents s₀ tr) s := by
    induction hrun with
    | nil =>
      have hsound := Device.Sound.init h₀
      obtain ⟨item, rfl⟩ := h₀
      refine ⟨hsound, rfl, fun q hq => ?_, fun i t p ht => (by cases ht),
        fun i j t u p q ht => (by cases ht), fun x hx => (by cases hx), List.nodup_nil,
        fun q hq hspent => (by cases hspent)⟩
      simp [issuedTokens, show item = some q from hq]
    | @snoc tr s s' e hrun hC hstep ih =>
      rw [Bool.and_eq_true] at hC
      have hsnoc : issuedTokens s₀ (tr ++ [e]) = issuedTokens s₀ tr ++ (s.receives e).toList := by
        rw [issuedTokens, issuedTokens, hrun.observe_snoc, List.append_assoc]
      rw [hsnoc] at hissued ⊢
      rw [hrun.observe_snoc]
      exact (ih (List.nodup_append.mp hissued).1).step hC.1 hC.2 hissued hstep
  refine ⟨fun i j t u p q ht hu hp hq => ?_, hpresented.nodup⟩
  refine hpresented.sound.flight.one i j ?_ ?_
  · show (s.role i).flies = true
    rw [Device.role_of_task ht, hp]
    rfl
  · show (s.role j).flies = true
    rw [Device.role_of_task hu, hq]
    rfl

def refreshesTwice : List DeviceEvent :=
  [.start (.other 0), .keychain 0 .ok, .respond 0 (.answer 401 none), .keychain 0 .ok,
    .respond 0 (.answer 200 (some { tokens := some (pair "2") })), .keychain 0 .ok, .keychain 0 .ok,
    .respond 0 (.answer 200 none), .start (.other 1), .keychain 1 .ok, .respond 1 (.answer 401 none),
    .keychain 1 .ok, .respond 1 .lost, .keychain 1 .ok]

/-- A request refreshes with the token 1, and another one, later, with the token 2 that the first one got. -/
theorem presented_once_twice :
    ∃ s tr, device.Run System.Any { keys := { item := some (pair "1") } } tr s ∧
      device.observe Device.presents { keys := { item := some (pair "1") } } tr = ["r1", "r2"] ∧
        (device.observe Device.presents { keys := { item := some (pair "1") } } tr).Nodup := by
  have hexec : (device.exec (fun s e => e.keychainWorks && s.refreshesFully e)
      { keys := { item := some (pair "1") } } refreshesTwice).isSome := by decide +kernel
  obtain ⟨s, hs⟩ := Option.isSome_iff_exists.mp hexec
  have hrun := System.Run.of_exec hs
  exact ⟨s, refreshesTwice, hrun.mono fun _ _ _ => trivial, by decide +kernel,
    (presented_once ⟨_, rfl⟩ hrun (by decide +kernel)).2⟩

end Locus.Mobile
