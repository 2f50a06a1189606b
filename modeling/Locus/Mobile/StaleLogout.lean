import Locus.Mobile.Sessions

/-!
# A logout that is overtaken by a login

`logout` awaits `POST /auth/logout` before it clears the tokens and the store, and it clears whatever is
there by then. A login that resolves in between is undone, unless the Keychain does not do what
`clearTokens` asks, which `clearTokens` does not report: the login stands when everything is over exactly if
nothing is written to the Keychain behind it, and its user is the last one that is signed in
(`login_stands_iff`). Where the calls of the Keychain have their effect it never does (`stale_logout_wins`).

Proof. The pair of a login is issued once and written once, by the login, so what is written to the Keychain
later is another pair (`Spent.step`), and the pair in memory goes with the `clearTokens` of the logout
(`leaves_step`). What the Keychain and the store say in the end is what was written last.
-/

namespace Locus.Mobile

open Lib

/-! ### Where a pair comes from -/

def KeyCall.saves : KeyCall → Option Tokens
  | .save p => some p
  | _ => none

/-- The pair that the task is about to write. -/
def Pc.pending : Pc → Option Tokens
  | .boot c | .attach c | .refreshRead c | .verifying c _ _ => c.saves
  | .refreshSave _ p | .saving p _ => some p
  | _ => none

/-- What is stored behind a step was stored before it, or is the pair `q`. -/
structure KeyStore.From (keys : KeyStore) (q : Option Tokens) (keys' : KeyStore) : Prop where
  item : ∀ p, keys'.item = some p → keys.item = some p ∨ q = some p
  fallback : ∀ p, keys'.fallbackTokens = some p → keys.fallbackTokens = some p ∨ q = some p

namespace KeyStore

theorem From.refl {keys : KeyStore} {q : Option Tokens} : keys.From q keys :=
  ⟨fun _ => .inl, fun _ => .inl⟩

theorem From.beginClear {keys keys' : KeyStore} {q : Option Tokens} (h : keys.From q keys') :
    keys.From q keys'.beginClear := ⟨h.item, fun p hp => (by cases hp)⟩

theorem From.reset {keys keys' : KeyStore} {q : Option Tokens} (h : keys.From q keys') (o : Outcome) :
    keys.From q (keys'.reset o) := by
  unfold KeyStore.reset
  split
  · exact ⟨fun p hp => (by cases hp), h.fallback⟩
  · exact h

theorem From.answer (keys : KeyStore) (c : KeyCall) (o : Outcome) :
    keys.From c.saves (c.answer keys o).1 := by
  unfold KeyCall.answer
  split
  · split
    · exact .refl
    · split <;> exact .refl
  · exact .refl
  · exact From.refl.reset _
  · exact ⟨fun p => .inr, fun p hp => (by cases hp)⟩
  · exact ⟨fun p => .inl, fun p => .inr⟩
  · exact ⟨fun p => .inr, fun p => .inr⟩
  · exact From.refl.reset _

end KeyStore

/-! ### What is written last -/

/-- The call writes to the Keychain. -/
def KeyCall.writes : KeyCall → Bool
  | .get => false
  | .getReset | .save _ | .clear => true

/-- What is back is a write to the Keychain: of a pair, or of nothing. -/
def Pc.writes : Pc → Bool
  | .boot c | .attach c | .refreshRead c | .verifying c .. => c.writes
  | .refreshSave .. | .saving .. | .refreshClear _ | .verifyClear | .clearing _ => true
  | _ => false

/-- What an answer of the Keychain sets `isAuthenticated` and `user` of the store to, if it sets them. -/
def Task.keychainSets (t : Task) (keys : KeyStore) (o : Outcome) : Option (Bool × Option UserId) :=
  match t.pc with
  | .boot c =>
    match (c.answer keys o).2 with
    | .returns tokens =>
      if tokens.any fun tokens => Server.jsTrim tokens.accessToken ≠ "" then none else some (false, none)
    | .awaits _ => none
  | .saving _ user =>
    match t.flow with
    | .register .. => none
    | _ => some (true, user)
  | .verifying c expected user =>
    match (c.answer keys o).2 with
    | .returns tokens => if tokens = expected then some (true, user) else none
    | .awaits _ => none
  | .clearing _ => some (false, none)
  | _ => none

/-- What an answer of the server sets them to: `loadUser`, and a `login` without a pair that can be saved. -/
def Task.respondSets (t : Task) : Reply → Option (Bool × Option UserId)
  | .lost => none
  | .answer status data =>
    if t.pc = .sent ∧ 200 ≤ status ∧ status < 300 then
      match t.flow, data with
      | .loadUser, _ => some (true, data.bind (·.user))
      | .login .., some data => if data.tokens.any (·.valid) then none else some (true, data.user)
      | _, _ => none
    else none

namespace Device

/-- What the event writes to the Keychain, if it has its effect. -/
def writesItem (s : Device) : DeviceEvent → Option (Option Tokens)
  | .keychain i o => ((s.task i).filter fun t => t.pc.writes && o.lands).map (·.pc.pending)
  | _ => none

/-- What the event sets `isAuthenticated` and `user` of the store to, if it sets them. -/
def setsStore (s : Device) : DeviceEvent → Option (Bool × Option UserId)
  | .start _ => none
  | .keychain i o => (s.task i).bind (·.keychainSets s.keys o)
  | .respond i reply => (s.task i).bind (·.respondSets reply)

section
variable {s : Device} {t : Task} {m : Move}

theorem answer_item (keys : KeyStore) (c : KeyCall) (o : Outcome) :
    (c.answer keys o).1.item = if c.writes && o.lands then c.saves else keys.item := by
  cases c <;> cases o <;> simp [KeyCall.answer, KeyCall.writes, KeyCall.saves, KeyStore.reset, Outcome.lands]
  -- a read that succeeds
  split
  · rfl
  · split <;> rfl

theorem item_readBack {c : KeyCall} {o : Outcome} {wait : KeyCall → Task} {k : Device → Option Tokens → Move}
    (hk : ∀ s' tokens, (k s' tokens).keys.item = s'.keys.item) :
    (s.readBack c o wait k).keys.item = if c.writes && o.lands then c.saves else s.keys.item := by
  rw [← answer_item]
  rcases readBack_cases s c o wait k with ⟨keys, hanswer, hm⟩ | ⟨keys, tokens, hanswer, hm⟩ <;> rw [hm, hanswer]
  · rfl
  · exact hk _ _

theorem item_reject (error : ApiError) : (s.reject t error).keys.item = s.keys.item := by
  cases hflow : t.flow <;> simp [reject, move, KeyStore.beginClear, hflow]

theorem item_saved (tokens : Option Tokens) (user : Option UserId) :
    (s.saved t tokens user).keys.item = s.keys.item := by
  unfold saved
  split <;> rfl

theorem item_resolve (data : Option Payload) : (s.resolve t data).keys.item = s.keys.item := by
  generalize hm : s.resolve t data = m
  cases resolve_cases hm with
  | noData hflow hdata => exact item_reject _
  | unsaved payload hflow hdata hinvalid => exact item_saved _ _
  | saves | logout | loadUser | other => rfl

theorem item_respond {reply : Reply} (h : s.respond t reply = some m) : m.keys.item = s.keys.item := by
  cases respond_cases h with
  | lost | rejected => exact item_reject _
  | resolved status data hpc h2xx => exact item_resolve _
  | queued | leads | refreshLost | refreshRejected | refreshEmpty | refreshed | unsaved => rfl

theorem item_keychain {o : Outcome} (h : s.keychain t o = some m) :
    m.keys.item = if t.pc.writes && o.lands then t.pc.pending else s.keys.item := by
  have hreset : (s.keys.reset o).item = if o.lands then none else s.keys.item := by
    unfold KeyStore.reset
    split <;> rfl
  cases keychain_cases h with
  | boot c hpc =>
    rw [hpc]
    refine item_readBack fun s' tokens => ?_
    unfold bootRead
    split <;> rfl
  | attach c hpc =>
    rw [hpc]
    refine item_readBack fun s' tokens => ?_
    unfold attachRead
    split
    · split <;> rfl
    · rfl
  | refreshRead c hpc =>
    rw [hpc]
    refine item_readBack fun s' tokens => ?_
    unfold refreshReadDone
    split
    · split <;> rfl
    · rfl
  | verifying c expected user hpc =>
    rw [hpc]
    refine item_readBack fun s' tokens => ?_
    unfold verified
    split <;> rfl
  | refreshSave presented tokens hpc =>
    rw [hpc]
    exact answer_item s.keys (.save tokens) o
  | saving tokens user hpc =>
    rw [hpc]
    exact (item_saved _ _).trans (answer_item s.keys (.save tokens) o)
  | refreshClear error hpc =>
    rw [hpc]
    exact (item_reject (s := { s with keys := s.keys.reset o }) error).trans hreset
  | verifyClear hpc | clearing error hpc =>
    rw [hpc]
    exact hreset

end

end Device

/-- `isAuthenticated` and `user` -/
def AuthState.session (auth : AuthState) : Bool × Option UserId := (auth.isAuthenticated, auth.user)

namespace Device

section
variable {s : Device} {t : Task} {m : Move}

theorem session_saved (tokens : Option Tokens) (user : Option UserId) :
    (s.saved t tokens user).auth.session =
      (match t.flow with
        | .register .. => none
        | _ => some (true, user)).getD s.auth.session := by
  unfold saved
  split <;> simp_all [signIn, move, AuthState.session]

theorem session_readBack {c : KeyCall} {o : Outcome} {wait : KeyCall → Task}
    {k : Device → Option Tokens → Move} {f : Option Tokens → Option (Bool × Option UserId)}
    (hk : ∀ s' tokens, s'.auth = s.auth → (k s' tokens).auth.session = (f tokens).getD s.auth.session) :
    (s.readBack c o wait k).auth.session = (match (c.answer s.keys o).2 with
      | .returns tokens => f tokens
      | .awaits _ => none).getD s.auth.session := by
  rcases readBack_cases s c o wait k with ⟨keys, hanswer, hm⟩ | ⟨keys, tokens, hanswer, hm⟩ <;> rw [hm, hanswer]
  · rfl
  · exact hk _ _ rfl

theorem session_readBack_keeps {c : KeyCall} {o : Outcome} {wait : KeyCall → Task}
    {k : Device → Option Tokens → Move} (hk : ∀ s' tokens, s'.auth = s.auth → (k s' tokens).auth = s.auth) :
    (s.readBack c o wait k).auth.session = s.auth.session := by
  rcases readBack_cases s c o wait k with ⟨keys, -, hm⟩ | ⟨keys, tokens, -, hm⟩ <;> rw [hm]
  · rfl
  · exact congrArg AuthState.session (hk _ _ rfl)

theorem session_keychain {o : Outcome} (h : s.keychain t o = some m) :
    m.auth.session = (t.keychainSets s.keys o).getD s.auth.session := by
  unfold Task.keychainSets
  cases keychain_cases h with
  | boot c hpc =>
    rw [hpc]
    refine session_readBack fun s' tokens hauth => ?_
    unfold bootRead
    split <;> simp_all [move, AuthState.session]
  | attach c hpc =>
    rw [hpc]
    refine session_readBack_keeps fun s' tokens hauth => ?_
    unfold attachRead
    split
    · split <;> exact hauth
    · exact hauth
  | refreshRead c hpc =>
    rw [hpc]
    refine session_readBack_keeps fun s' tokens hauth => ?_
    unfold refreshReadDone
    split
    · split <;> exact hauth
    · exact hauth
  | verifying c expected user hpc =>
    rw [hpc]
    refine session_readBack fun s' tokens hauth => ?_
    unfold verified
    split <;> simp_all [signIn, move, AuthState.session]
  | refreshSave presented tokens hpc =>
    rw [hpc]
    rfl
  | saving tokens user hpc =>
    rw [hpc]
    exact session_saved _ _
  | refreshClear error hpc | verifyClear hpc =>
    rw [hpc]
    rfl
  | clearing error hpc =>
    rw [hpc]
    cases hflow : t.flow <;> simp [cleared, move, AuthState.session, hflow]

theorem session_respond {reply : Reply} (h : s.respond t reply = some m) :
    m.auth.session = (t.respondSets reply).getD s.auth.session := by
  cases respond_cases h with
  | resolved status data hpc h2xx =>
    simp only [Task.respondSets, hpc, h2xx.1, h2xx.2, and_self, if_true]
    generalize hm : s.resolve t data = m
    cases resolve_cases hm with
    | noData hflow hdata => cases hf : t.flow <;> simp_all [stopsLoading] <;> rfl
    | saves payload tokens hflow hdata htokens hvalid =>
      cases hf : t.flow <;> simp_all [stopsLoading] <;> rfl
    | unsaved payload hflow hdata hinvalid =>
      rw [session_saved]
      cases hf : t.flow <;> simp_all [stopsLoading]
    | logout hflow | other id hflow =>
      rw [hflow]
      rfl
    | loadUser hflow =>
      rw [hflow]
      rfl
  | rejected status data hpc h2xx hstatus =>
    simp only [Task.respondSets, h2xx, and_false, if_false]
    rfl
  | queued | leads =>
    simp only [Task.respondSets, Nat.reduceLT, and_false, if_false]
    rfl
  | lost => rfl
  | refreshLost => rfl
  | refreshRejected presented status data hpc | refreshEmpty presented status hpc
  | refreshed presented status data tokens hpc | unsaved presented status data hpc =>
    simp only [Task.respondSets, hpc, reduceCtorEq, false_and, if_false]
    rfl

end

/-- A move writes no other pair than `q`, and leaves its task with nothing to write. -/
structure Writes (keys : KeyStore) (q : Option Tokens) (m : Move) : Prop where
  keys : keys.From q m.keys
  pending : m.task.pc.pending = none

section
variable {keys : KeyStore} {q : Option Tokens} {s : Device} {t : Task} {m : Move}

theorem writes_reject (h : keys.From q s.keys) (error : ApiError) : Writes keys q (s.reject t error) := by
  cases hflow : t.flow
  case logout | loadUser =>
    refine ⟨?_, by simp [reject, caught, move, Pc.pending, hflow]⟩
    simpa [reject, move, hflow] using h.beginClear
  all_goals exact ⟨by simpa [reject, move, hflow] using h, by simp [reject, caught, move, Pc.pending, hflow]⟩

theorem writes_refreshFail (h : keys.From q s.keys) (error : ApiError) :
    Writes keys q (s.refreshFail t error) := ⟨h.beginClear, rfl⟩

theorem writes_saved (h : keys.From q s.keys) (tokens : Option Tokens) (user : Option UserId) :
    Writes keys q (s.saved t tokens user) := by
  unfold saved
  split <;> exact ⟨h, rfl⟩

theorem writes_readBack {c : KeyCall} {o : Outcome} {wait : KeyCall → Task}
    {k : Device → Option Tokens → Move} (hwait : (wait .getReset).pc.pending = none)
    (hk : ∀ s' : Device, s.keys.From c.saves s'.keys → ∀ tokens, Writes s.keys c.saves (k s' tokens)) :
    Writes s.keys c.saves (s.readBack c o wait k) := by
  have hkeys := KeyStore.From.answer s.keys c o
  rcases readBack_cases s c o wait k with ⟨keys, hanswer, hm⟩ | ⟨keys, tokens, hanswer, hm⟩ <;>
    rw [hanswer] at hkeys <;> rw [hm]
  · exact ⟨hkeys, hwait⟩
  · exact hk _ hkeys tokens

theorem writes_keychain {o : Outcome} (h : s.keychain t o = some m) : Writes s.keys t.pc.pending m := by
  cases keychain_cases h with
  | boot c hpc =>
    rw [hpc]
    refine writes_readBack rfl fun s' hs' tokens => ?_
    unfold bootRead
    split <;> exact ⟨hs', rfl⟩
  | attach c hpc =>
    rw [hpc]
    refine writes_readBack rfl fun s' hs' tokens => ?_
    unfold attachRead
    split
    · split <;> exact ⟨hs', rfl⟩
    · exact ⟨hs', rfl⟩
  | refreshRead c hpc =>
    rw [hpc]
    refine writes_readBack rfl fun s' hs' tokens => ?_
    unfold refreshReadDone
    split
    · split
      · exact ⟨hs', rfl⟩
      · exact writes_refreshFail hs' _
    · exact writes_refreshFail hs' _
  | verifying c expected user hpc =>
    rw [hpc]
    refine writes_readBack rfl fun s' hs' tokens => ?_
    unfold verified
    split
    · exact ⟨hs', rfl⟩
    · exact ⟨hs'.beginClear, rfl⟩
  | refreshSave presented tokens hpc =>
    rw [hpc]
    exact ⟨.answer s.keys (.save tokens) o, rfl⟩
  | saving tokens user hpc =>
    rw [hpc]
    exact writes_saved (.answer s.keys (.save tokens) o) _ _
  | refreshClear error hpc =>
    have hreject := writes_reject (t := t) (s := { s with keys := s.keys.reset o })
      (KeyStore.From.refl (q := t.pc.pending) |>.reset o) error
    exact ⟨hreject.keys, hreject.pending⟩
  | verifyClear hpc => exact ⟨KeyStore.From.refl.reset o, rfl⟩
  | clearing error hpc => exact ⟨KeyStore.From.refl.reset o, rfl⟩

/-- The task has no pair to write, or one that is issued by this answer. -/
def Receives (r r' : Issued) (m : Move) : Prop :=
  m.task.pc.pending = none ∨
    ∃ p u, m.task.pc.pending = some p ∧ r.Admits p ∧ r'.pairs = (p, u) :: r.pairs

theorem resolve_receives {r r' : Issued} {status : ℕ} {data : Option Payload} (hpc : t.pc = .sent)
    (h2xx : 200 ≤ status ∧ status < 300) (hr : r.answered t (.answer status data) = some r') :
    s.keys.From q (s.resolve t data).keys ∧ Receives r r' (s.resolve t data) := by
  simp only [Issued.answered, if_pos h2xx, hpc] at hr
  unfold resolve
  cases hflow : t.flow with
  | login email password | register email password =>
    simp only [hflow] at hr
    split at hr
    · rename_i user tokens
      obtain ⟨hadmits, hpairs⟩ := Issued.mem_issue? hr
      have husable := hadmits.1
      rw [Tokens.usable, Bool.and_eq_true] at husable
      simp only [husable.1, if_true]
      exact ⟨.refl, .inr ⟨tokens, user, rfl, hadmits, hpairs⟩⟩
    · cases hr
  | logout => exact ⟨KeyStore.From.refl.beginClear, .inl rfl⟩
  | loadUser | other id => exact ⟨.refl, .inl rfl⟩

theorem respond_receives {r r' : Issued} {reply : Reply} (hr : r.answered t reply = some r')
    (hm : s.respond t reply = some m) : s.keys.From q m.keys ∧ Receives r r' m := by
  have hwrites : ∀ {m}, Writes s.keys q m → s.keys.From q m.keys ∧ Receives r r' m :=
    fun h => ⟨h.keys, .inl h.pending⟩
  cases respond_cases hm with
  | lost hpc => exact hwrites (writes_reject .refl _)
  | resolved status data hpc h2xx => exact resolve_receives hpc h2xx hr
  | rejected status data hpc h2xx hstatus => exact hwrites (writes_reject .refl _)
  | queued data hpc hretry hflag => exact ⟨.refl, .inl rfl⟩
  | leads data hpc hretry hflag => exact ⟨.refl, .inl rfl⟩
  | refreshLost presented hpc => exact hwrites (writes_refreshFail .refl _)
  | refreshRejected presented status data hpc h2xx => exact hwrites (writes_refreshFail .refl _)
  | refreshEmpty presented status hpc h2xx => exact hwrites (writes_refreshFail .refl _)
  | refreshed presented status data tokens hpc h2xx htokens hvalid =>
    obtain ⟨payload, tokens', user, ⟨⟩, htokens', -, -, hissued⟩ := Issued.answered_refresh hpc h2xx hr
    obtain rfl := Option.some.inj (htokens.symm.trans htokens')
    obtain ⟨hadmits, hpairs⟩ := Issued.mem_issue? hissued
    exact ⟨.refl, .inr ⟨tokens, user, rfl, hadmits, hpairs⟩⟩
  | unsaved presented status data hpc h2xx hinvalid => exact ⟨.refl, .inl rfl⟩

end

end Device

/-! ### A pair is written by one task -/

/-- The pairs that the tasks are about to write are issued, each to one task, and the pair in the Keychain is
issued and nobody's to write. -/
structure Pending (w : World) : Prop where
  sound : w.device.Sound
  issued : ∀ i t p, w.device.task i = some t → t.pc.pending = some p → ∃ u, (p, u) ∈ w.issued.pairs
  once : ∀ i j t u p, w.device.task i = some t → w.device.task j = some u → t.pc.pending = some p →
    u.pc.pending = some p → i = j
  stored : ∀ p, w.device.keys.item = some p → ∃ u, (p, u) ∈ w.issued.pairs
  apart : ∀ i t p, w.device.keys.item = some p → w.device.task i = some t → t.pc.pending ≠ some p

theorem entry_pending (flow : Flow) : (Device.entry flow).pending = none := by
  cases flow <;> rfl

theorem settle_pending (op : QueueOp) {t : Task} (hpc : t.pc = .queued) :
    (Device.settle op t).pc.pending = none := by
  cases op with
  | keep | push => simp [Device.settle, Pc.pending, hpc]
  | resolve token => rfl
  | reject error => cases hflow : t.flow <;> simp [Device.settle, Device.caught, Pc.pending, hflow]

/-- Where the pair of a task comes from: it had it before the step, or the step is its answer. -/
theorem pending_step {w w' : World} {e : DeviceEvent} (h : w.device.Sound)
    (hstep : world.step w e = some w') {j : ℕ} {u : Task} {p : Tokens} (hu : w'.device.task j = some u)
    (hp : u.pc.pending = some p) : w.device.task j = some u ∨
      (w.issued.Admits p ∧ e.task = some j ∧ ∃ v, w'.issued.pairs = (p, v) :: w.issued.pairs) := by
  obtain ⟨flow, rfl, rfl⟩ | ⟨i, t, m, r, ht, rfl, hmove⟩ := World.step_cases hstep
  · rcases Device.start_task_cases hu with hu | ⟨-, rfl⟩
    · exact .inl hu
    · rw [entry_pending] at hp
      cases hp
  · rcases Device.apply_task_cases h ht hu with ⟨rfl, rfl⟩ | ⟨v, hv, -, rfl⟩ | ⟨-, -, rfl⟩
    · rcases hmove with ⟨o, rfl, hm, -⟩ | ⟨reply, rfl, hm, hr⟩
      · rw [(Device.writes_keychain hm).pending] at hp
        cases hp
      · rcases (Device.respond_receives (q := none) hr hm).2 with hnone | ⟨q, v, hq, hadmits, hpairs⟩
        · rw [hnone] at hp
          cases hp
        · obtain rfl := Option.some.inj (hq.symm.trans hp)
          exact .inr ⟨hadmits, rfl, v, hpairs⟩
    · split at hp
      · rename_i hqueued
        rw [settle_pending _ (h.pc_of_mem hv hqueued)] at hp
        cases hp
      · rename_i hqueued
        rw [if_neg hqueued]
        exact .inl hv
    · cases hp

theorem issued_step {w w' : World} {e : DeviceEvent} (hstep : world.step w e = some w') :
    ∀ a ∈ w.issued.pairs, a ∈ w'.issued.pairs := by
  obtain ⟨flow, -, rfl⟩ | ⟨i, t, m, r, -, rfl, ⟨o, -, -, rfl⟩ | ⟨reply, -, -, hr⟩⟩ := World.step_cases hstep
  · exact fun a ha => ha
  · exact fun a ha => ha
  · exact Issued.answered_pairs hr

theorem item_step {w w' : World} {e : DeviceEvent} (hstep : world.step w e = some w') :
    w'.device.keys.item = (w.device.writesItem e).getD w.device.keys.item := by
  obtain ⟨flow, rfl, rfl⟩ | ⟨i, t, m, r, ht, rfl, ⟨o, rfl, hm, -⟩ | ⟨reply, rfl, hm, -⟩⟩ :=
    World.step_cases hstep
  · rfl
  · show (w.device.apply i m).keys.item = _
    rw [Device.apply_keys, Device.item_keychain hm]
    by_cases hwrites : (t.pc.writes && o.lands) = true <;>
      simp [Device.writesItem, ht, Option.filter_some, hwrites]
  · show (w.device.apply i m).keys.item = _
    rw [Device.apply_keys, Device.item_respond hm]
    rfl

theorem session_step {w w' : World} {e : DeviceEvent} (hstep : world.step w e = some w') :
    w'.device.auth.session = (w.device.setsStore e).getD w.device.auth.session := by
  have hsession : ∀ i m, (w.device.apply i m).auth.session = m.auth.session := fun i m =>
    Prod.ext (Device.apply_isAuthenticated ..) (Device.apply_user ..)
  obtain ⟨flow, rfl, rfl⟩ | ⟨i, t, m, r, ht, rfl, ⟨o, rfl, hm, -⟩ | ⟨reply, rfl, hm, -⟩⟩ :=
    World.step_cases hstep
  · rfl
  · simp only [Device.setsStore, ht, Option.bind_some]
    exact (hsession i m).trans (Device.session_keychain hm)
  · simp only [Device.setsStore, ht, Option.bind_some]
    exact (hsession i m).trans (Device.session_respond hm)

theorem writesItem_pending {s : Device} {e : DeviceEvent} {p : Tokens} (h : s.writesItem e = some (some p)) :
    ∃ i o t, e = .keychain i o ∧ s.task i = some t ∧ t.pc.pending = some p := by
  cases e with
  | keychain i o =>
    obtain ⟨t, ht, hp⟩ := Option.map_eq_some_iff.mp h
    exact ⟨i, o, t, rfl, (Option.filter_eq_some_iff.mp ht).1, hp⟩
  | start | respond => cases h

/-- The pairs behind a step were stored before it, or their task had them to write. -/
theorem keys_step {w w' : World} {e : DeviceEvent} (hstep : world.step w e = some w') :
    ∃ q, w.device.keys.From q w'.device.keys ∧
      ∀ p, q = some p → ∃ i t, w.device.task i = some t ∧ t.pc.pending = some p := by
  obtain ⟨flow, rfl, rfl⟩ | ⟨i, t, m, r, ht, rfl, ⟨o, -, hm, -⟩ | ⟨reply, -, hm, hr⟩⟩ :=
    World.step_cases hstep
  · exact ⟨none, .refl, fun p hp => by cases hp⟩
  · refine ⟨t.pc.pending, ?_, fun p hp => ⟨i, t, ht, hp⟩⟩
    show w.device.keys.From _ (w.device.apply i m).keys
    rw [Device.apply_keys]
    exact (Device.writes_keychain hm).keys
  · refine ⟨none, ?_, fun p hp => by cases hp⟩
    show w.device.keys.From _ (w.device.apply i m).keys
    rw [Device.apply_keys]
    exact (Device.respond_receives hr hm).1

theorem pending_written {w w' : World} {i : ℕ} {o : Outcome} (h : w.device.Sound)
    (hstep : world.step w (.keychain i o) = some w') {u : Task} (hu : w'.device.task i = some u) :
    u.pc.pending = none := by
  obtain ⟨flow, he, -⟩ | ⟨j, t, m, r, ht, rfl, ⟨o', he, hm, -⟩ | ⟨reply, he, -, -⟩⟩ := World.step_cases hstep
  · cases he
  · cases he
    obtain rfl := Option.some.inj (hu.symm.trans (Device.apply_task_self h ht m))
    exact (Device.writes_keychain hm).pending
  · cases he

theorem Pending.init {w : World} (h : world.Init w) : Pending w := by
  have hpending : ∀ i t p, w.device.task i = some t → t.pc.pending ≠ some p := by
    obtain ⟨item, hdevice, -⟩ := h
    intro i t p ht hp
    rw [hdevice] at ht
    rcases Device.start_task_cases ht with ht | ⟨-, rfl⟩
    · cases ht
    · cases hp
  refine ⟨(Tracked.init h).sound, fun i t p ht hp => absurd hp (hpending i t p ht),
    fun i j t u p ht _ hp => absurd hp (hpending i t p ht), fun p hp => ?_, fun i t p _ ht => hpending i t p ht⟩
  obtain ⟨item, hdevice, hissued⟩ := h
  rw [hdevice] at hp
  exact hissued p hp

theorem Pending.step {w w' : World} {e : DeviceEvent} (h : Pending w) (hstep : world.step w e = some w') :
    Pending w' := by
  have hissued := issued_step hstep
  -- a new pair is nobody's yet
  have hfresh : ∀ {i t p}, w.device.task i = some t → t.pc.pending = some p → ¬ w.issued.Admits p := by
    intro i t p ht hp hadmits
    obtain ⟨u, hu⟩ := h.issued i t p ht hp
    exact hadmits.2 _ hu rfl
  -- the pair in the Keychain was there, or has been written by its task
  have hitem : ∀ p, w'.device.keys.item = some p → w.device.keys.item = some p ∨
      ∃ i o t, e = .keychain i o ∧ w.device.task i = some t ∧ t.pc.pending = some p := by
    intro p hp
    rw [item_step hstep] at hp
    cases hwrites : w.device.writesItem e with
    | none => exact .inl (by simpa [hwrites] using hp)
    | some q =>
      obtain rfl : q = some p := by simpa [hwrites] using hp
      exact .inr (writesItem_pending hwrites)
  refine ⟨h.sound.step (World.step_device hstep), fun i t p ht hp => ?_, fun i j t u p ht hu hp hq => ?_,
    fun p hp => ?_, fun j u p hp hu hq => ?_⟩
  · rcases pending_step h.sound hstep ht hp with hold | ⟨-, -, v, hpairs⟩
    · obtain ⟨u, hu⟩ := h.issued i t p hold hp
      exact ⟨u, hissued _ hu⟩
    · exact ⟨v, by simp [hpairs]⟩
  · rcases pending_step h.sound hstep ht hp with ht | ⟨hadmits, hi, -⟩ <;>
      rcases pending_step h.sound hstep hu hq with hu | ⟨hadmits', hj, -⟩
    · exact h.once i j t u p ht hu hp hq
    · exact absurd hadmits' (hfresh ht hp)
    · exact absurd hadmits (hfresh hu hq)
    · exact Option.some.inj (hi.symm.trans hj)
  · obtain ⟨u, hu⟩ : ∃ u, (p, u) ∈ w.issued.pairs := by
      rcases hitem p hp with hold | ⟨i, o, t, -, ht, hpending⟩
      · exact h.stored p hold
      · exact h.issued i t p ht hpending
    exact ⟨u, hissued _ hu⟩
  · rcases hitem p hp with hold | ⟨i, o, t, rfl, ht, hpending⟩
    · rcases pending_step h.sound hstep hu hq with hv | ⟨hadmits, -, -⟩
      · exact h.apart j u p hold hv hq
      · obtain ⟨v, hv⟩ := h.stored p hold
        exact hadmits.2 _ hv rfl
    · rcases pending_step h.sound hstep hu hq with hv | ⟨hadmits, -, -⟩
      · obtain rfl := h.once i j t u p ht hv hpending hq
        rw [pending_written h.sound hstep hu] at hq
        cases hq
      · exact hfresh ht hpending hadmits

/-! ### The logout clears what is there -/

/-- The task is at its request, which may be refreshed and sent again. -/
def Pc.requests : Pc → Bool
  | .attach _ | .sent | .queued | .refreshRead _ | .refreshSent _ | .refreshSave .. | .refreshClear _ => true
  | _ => false

/-- A `logout` is on its way: at its request, or `clearTokens` has dropped the pair in memory. -/
def Leaves (t : Task) (p : Tokens) (keys : KeyStore) : Prop :=
  t.flow = .logout ∧ (t.pc.requests ∨ ((∃ error, t.pc = .clearing error) ∧ keys.fallbackTokens ≠ some p))

namespace Device

section
variable {s : Device} {t : Task} {m : Move} {p : Tokens}

theorem leaves_reject (hflow : t.flow = .logout) (error : ApiError) :
    Leaves (s.reject t error).task p (s.reject t error).keys := by
  refine ⟨hflow, .inr ⟨⟨some error, ?_⟩, ?_⟩⟩
  · simp [reject, caught, move, hflow]
  · simp [reject, move, hflow, KeyStore.beginClear]

theorem leaves_refreshFail (hflow : t.flow = .logout) (error : ApiError) :
    Leaves (s.refreshFail t error).task p (s.refreshFail t error).keys := ⟨hflow, .inl rfl⟩

theorem leaves_keychain {o : Outcome} (hflow : t.flow = .logout) (hpc : t.pc.requests)
    (h : s.keychain t o = some m) : Leaves m.task p m.keys := by
  have hread : ∀ {c : KeyCall} {wait : KeyCall → Task} {k : Device → Option Tokens → Move},
      (wait .getReset).flow = .logout ∧ (wait .getReset).pc.requests →
      (∀ s' tokens, Leaves (k s' tokens).task p (k s' tokens).keys) →
      Leaves (s.readBack c o wait k).task p (s.readBack c o wait k).keys := by
    intro c wait k hwait hk
    rcases readBack_cases s c o wait k with ⟨keys, -, hm⟩ | ⟨keys, tokens, -, hm⟩ <;> rw [hm]
    · exact ⟨hwait.1, .inl hwait.2⟩
    · exact hk _ _
  cases keychain_cases h with
  | boot c hboot => simp [hboot, Pc.requests] at hpc
  | attach c hattach =>
    refine hread ⟨hflow, rfl⟩ fun s' tokens => ?_
    unfold attachRead
    split
    · split <;> exact ⟨hflow, .inl rfl⟩
    · exact ⟨hflow, .inl rfl⟩
  | refreshRead c hrefresh =>
    refine hread ⟨hflow, rfl⟩ fun s' tokens => ?_
    unfold refreshReadDone
    split
    · split
      · exact ⟨hflow, .inl rfl⟩
      · exact leaves_refreshFail hflow _
    · exact leaves_refreshFail hflow _
  | verifying c expected user hverify => simp [hverify, Pc.requests] at hpc
  | refreshSave presented tokens hsave => exact ⟨hflow, .inl rfl⟩
  | saving tokens user hsave => simp [hsave, Pc.requests] at hpc
  | refreshClear error hclear => exact leaves_reject hflow error
  | verifyClear hverify => simp [hverify, Pc.requests] at hpc
  | clearing error hclear => simp [hclear, Pc.requests] at hpc

theorem leaves_respond {reply : Reply} (hflow : t.flow = .logout) (h : s.respond t reply = some m) :
    Leaves m.task p m.keys := by
  cases respond_cases h with
  | lost hpc => exact leaves_reject hflow _
  | resolved status data hpc h2xx =>
    have hresolve : s.resolve t data =
        { s.move { t with pc := .clearing none } with keys := s.keys.beginClear } := by
      simp [resolve, hflow]
    rw [hresolve]
    exact ⟨hflow, .inr ⟨⟨none, rfl⟩, fun hp => by cases hp⟩⟩
  | rejected status data hpc h2xx hstatus => exact leaves_reject hflow _
  | queued data hpc hretry hflag => exact ⟨hflow, .inl rfl⟩
  | leads data hpc hretry hflag => exact ⟨hflow, .inl rfl⟩
  | refreshLost presented hpc => exact leaves_refreshFail hflow _
  | refreshRejected presented status data hpc h2xx => exact leaves_refreshFail hflow _
  | refreshEmpty presented status hpc h2xx => exact leaves_refreshFail hflow _
  | refreshed presented status data tokens hpc h2xx htokens hvalid => exact ⟨hflow, .inl rfl⟩
  | unsaved presented status data hpc h2xx hinvalid => exact ⟨hflow, .inl rfl⟩

end

end Device

/-- The pair is issued, and no task has it to write. -/
structure Spent (p : Tokens) (w : World) : Prop where
  pending : Pending w
  issued : ∃ u, (p, u) ∈ w.issued.pairs
  written : ∀ i t, w.device.task i = some t → t.pc.pending ≠ some p

section
variable {p : Tokens} {w w' : World} {e : DeviceEvent} {l g : ℕ} {tl tg : Task} {o : Outcome}

theorem Spent.step (h : Spent p w) (hstep : world.step w e = some w') : Spent p w' := by
  obtain ⟨u, hu⟩ := h.issued
  refine ⟨h.pending.step hstep, ⟨u, issued_step hstep _ hu⟩, fun i t ht hp => ?_⟩
  -- the pair is not issued again
  rcases pending_step h.pending.sound hstep ht hp with hold | ⟨hadmits, -, -⟩
  · exact h.written i t hold hp
  · exact hadmits.2 _ hu rfl

theorem Spent.writes (h : Spent p w) {q : Option Tokens} (hq : w.device.writesItem e = some q) : q ≠ some p := by
  rintro rfl
  obtain ⟨i, o, t, -, ht, hp⟩ := writesItem_pending hq
  exact h.written i t ht hp

theorem Spent.fallback (h : Spent p w) (hstep : world.step w e = some w')
    (hne : w.device.keys.fallbackTokens ≠ some p) : w'.device.keys.fallbackTokens ≠ some p := by
  obtain ⟨q, hkeys, hq⟩ := keys_step hstep
  intro hp
  rcases hkeys.fallback p hp with hold | hnew
  · exact hne hold
  · obtain ⟨i, t, ht, hpending⟩ := hq p hnew
    exact h.written i t ht hpending

theorem leaves_settle {s : Device} {t : Task} {m : Move} {u : Task} (hturn : s.Turn t e m)
    (hflow : u.flow = .logout) (hpc : u.pc = .queued) : Leaves (Device.settle m.queue u) p m.keys := by
  have hkeep : Leaves u p m.keys := ⟨hflow, .inl (by rw [hpc]; rfl)⟩
  cases hturn with
  | stays _ _ _ hqueue _ | closes _ _ _ _ hqueue _ =>
    rw [hqueue]
    exact hkeep
  | joins _ _ _ _ _ _ hm | leads _ _ _ _ _ _ hm =>
    subst hm
    exact hkeep
  | lands token _ _ _ hqueue _ =>
    rw [hqueue]
    exact ⟨hflow, .inl rfl⟩
  | fails error _ _ _ hqueue _ hkeys =>
    rw [hqueue]
    refine ⟨hflow, .inr ⟨⟨some error, ?_⟩, by simp [hkeys]⟩⟩
    simp [Device.settle, Device.caught, hflow]

/-- `clearTokens` of the logout is back. -/
def Ends (l : ℕ) (w : World) (e : DeviceEvent) : Prop :=
  ∃ o t error, e = .keychain l o ∧ w.device.task l = some t ∧ t.pc = .clearing error

/-- A logout stays on its way until its `clearTokens` is back, and the pair is not in memory then. -/
theorem leaves_step (h : Spent p w) (hl : ∃ t, w.device.task l = some t ∧ Leaves t p w.device.keys)
    (hstep : world.step w e = some w') :
    (∃ t, w'.device.task l = some t ∧ Leaves t p w'.device.keys) ∨
      (Ends l w e ∧ w'.device.keys.fallbackTokens ≠ some p) := by
  have hsound := h.pending.sound
  have hfallback := h.fallback hstep
  obtain ⟨tl, hl, hflow, hstage⟩ := hl
  obtain ⟨flow, rfl, rfl⟩ | ⟨i, t, m, r, ht, rfl, hmove⟩ := World.step_cases hstep
  · exact .inl ⟨tl, (Device.start_task_of_ne w.device (hsound.lt_next hl).ne flow).trans hl, hflow, hstage⟩
  have hturn : w.device.Turn t e m := by
    rcases hmove with ⟨o, -, hm, -⟩ | ⟨reply, rfl, hm, -⟩
    · exact Device.turn_keychain hm
    · exact Device.turn_respond hm
  by_cases hli : l = i
  · subst hli
    obtain rfl := Option.some.inj (hl.symm.trans ht)
    have hself : Leaves m.task p m.keys → ∃ t, (w.device.apply l m).task l = some t ∧
        Leaves t p (w.device.apply l m).keys := fun hm =>
      ⟨_, Device.apply_task_self hsound ht m, (Device.apply_keys ..).symm ▸ hm⟩
    rcases hmove with ⟨o, rfl, hm, -⟩ | ⟨reply, rfl, hm, -⟩
    · rcases hstage with hrequests | ⟨⟨error, hpc⟩, hne⟩
      · exact .inl (hself (Device.leaves_keychain hflow hrequests hm))
      · exact .inr ⟨⟨o, tl, error, rfl, hl, hpc⟩, hfallback hne⟩
    · exact .inl (hself (Device.leaves_respond hflow hm))
  · refine .inl ⟨_, Device.apply_task_of_ne hsound hl hli m, ?_⟩
    show Leaves _ p (w.device.apply i m).keys
    split
    · rename_i hqueued
      rw [Device.apply_keys]
      exact leaves_settle hturn hflow (hsound.pc_of_mem hl hqueued)
    · exact ⟨hflow, hstage.imp id fun hclearing => ⟨hclearing.1, hfallback hclearing.2⟩⟩

/-- The store is authenticated as the user, with the pair stored. -/
def World.Stands (w : World) (u : UserId) (p : Tokens) : Prop :=
  w.device.auth.isAuthenticated = true ∧ w.device.auth.user = some u ∧
    KeyCall.answer w.device.keys .get .ok = (w.device.keys, .returns (some p))

/-- The login has resolved: its pair is nobody's any more, and is in the Keychain if the write took effect. -/
theorem spent_of_login {w₁ : World} {user : Option UserId} (h : Pending w) (hg : w.device.task g = some tg)
    (hsaving : tg.pc = .saving p user) (hstep : world.step w (.keychain g o) = some w₁) :
    Spent p w₁ ∧ (w₁.device.keys.item = some p ↔ o.lands) := by
  have hp : tg.pc.pending = some p := by rw [hsaving]; rfl
  obtain ⟨u, hu⟩ := h.issued g tg p hg hp
  refine ⟨⟨h.step hstep, ⟨u, issued_step hstep _ hu⟩, fun j v hv hq => ?_⟩, ?_⟩
  · rcases pending_step h.sound hstep hv hq with hold | ⟨hadmits, -, -⟩
    · -- it was the login's, which has written it
      obtain rfl := h.once j g v tg p hold hg hq hp
      rw [pending_written h.sound hstep hv] at hq
      cases hq
    · exact hadmits.2 _ hu rfl
  · have hitem := item_step hstep
    simp only [Device.writesItem, hg, hsaving, Option.filter_some, Pc.writes, Bool.true_and] at hitem
    rw [hitem]
    by_cases hlands : o.lands = true
    · simp [hlands, Pc.pending, hsaving]
    · simpa [hlands] using fun hold => h.apart g tg p hold hg hp

/-- A logout at its request stays there when the login resolves. -/
theorem leaves_of_login {w₁ : World} {user : Option UserId} (h : Pending w)
    (hl : w.device.task l = some tl) (hlogout : tl.flow = .logout) (hrequests : tl.pc.requests)
    (hg : w.device.task g = some tg) (hsaving : tg.pc = .saving p user)
    (hstep : world.step w (.keychain g o) = some w₁) :
    ∃ t, w₁.device.task l = some t ∧ Leaves t p w₁.device.keys := by
  have hne : l ≠ g := by
    rintro rfl
    obtain rfl := Option.some.inj (hl.symm.trans hg)
    simp [hsaving, Pc.requests] at hrequests
  obtain ⟨flow, he, -⟩ | ⟨i, t, m, r, ht, rfl, ⟨o', he, hm, rfl⟩ | ⟨reply, he, -, -⟩⟩ :=
    World.step_cases hstep
  · cases he
  · cases he
    refine ⟨_, Device.apply_task_of_ne h.sound hl hne m, ?_⟩
    show Leaves _ p (w.device.apply g m).keys
    split
    · rename_i hqueued
      have hturn : w.device.Turn t (.keychain g o) m := Device.turn_keychain hm
      rw [Device.apply_keys]
      exact leaves_settle hturn hlogout (h.sound.pc_of_mem hl hqueued)
    · exact ⟨hlogout, .inl hrequests⟩
  · cases he

theorem login_resolves {w₁ : World} {email password : String} {u : UserId} (hg : w.device.task g = some tg)
    (hlogin : tg.flow = .login email password) (hsaving : tg.pc = .saving p (some u))
    (hstep : world.step w (.keychain g o) = some w₁) : w₁.device.auth.session = (true, some u) := by
  rw [session_step hstep]
  simp [Device.setsStore, hg, Task.keychainSets, hsaving, hlogin]

theorem not_leaves_of_idle (hsound : w.device.Sound) (hidle : w.device.idle) {t : Task}
    (ht : w.device.task l = some t) (hleaves : Leaves t p w.device.keys) : False := by
  obtain ⟨hflow, hstage⟩ := hleaves
  have hover := done_of_idle hsound hidle ht
  have hnot : t.pc ≠ .done := by
    rintro hdone
    rcases hstage with hrequests | ⟨⟨error, hclearing⟩, -⟩
    · simp [hdone, Pc.requests] at hrequests
    · simp [hdone] at hclearing
  unfold Task.operates at hover
  split at hover <;> simp_all

theorem get_returns_iff {keys : KeyStore} (hp : p.valid = true) (hfallback : keys.fallbackTokens ≠ some p) :
    KeyCall.answer keys .get .ok = (keys, .returns (some p)) ↔ keys.item = some p := by
  simp only [KeyCall.answer]
  cases hitem : keys.item with
  | none => simpa using hfallback
  | some q =>
    by_cases hq : q.valid = true
    · simp [hq]
    · simp only [hq]
      constructor
      · intro h
        simp at h
      · rintro ⟨⟩
        exact absurd hp hq

end

section
variable {p : Tokens} {w₁ w₂ : World} {tr : List DeviceEvent} {l : ℕ}

/-- A logout that is on its way is over when everything is: its `clearTokens` is a step of the run, behind which
the pair is not in memory. -/
theorem logout_ends (hspent : Spent p w₁) (hl : ∃ t, w₁.device.task l = some t ∧ Leaves t p w₁.device.keys)
    (hrun : world.Run System.Any w₁ tr w₂) (hidle : w₂.device.idle) :
    (∃ tr₁ e tr₂ b, tr = tr₁ ++ e :: tr₂ ∧ world.Run System.Any w₁ tr₁ b ∧ Ends l b e) ∧
      w₂.device.keys.fallbackTokens ≠ some p := by
  rcases hrun.until (fun w => Spent p w ∧ ∃ t, w.device.task l = some t ∧ Leaves t p w.device.keys)
      (fun w e w' => Ends l w e ∧ Spent p w' ∧ w'.device.keys.fallbackTokens ≠ some p) ⟨hspent, hl⟩
      (fun w e w' ⟨hw, hl⟩ _ hs => (leaves_step hw hl hs).imp (fun hl' => ⟨hw.step hs, hl'⟩)
        fun ⟨hends, hne⟩ => ⟨hends, hw.step hs, hne⟩) with
    ⟨hend, t, ht, hleaves⟩ | ⟨tr₁, e, tr₂, b, b', htr, hrun₁, -, -, ⟨hends, hafter⟩, hrun₂⟩
  · exact (not_leaves_of_idle hend.pending.sound hidle ht hleaves).elim
  · have hrest := hrun₂.invariant (fun w => Spent p w ∧ w.device.keys.fallbackTokens ≠ some p) hafter
      fun w e w' ⟨hw, hne⟩ _ hs => ⟨hw.step hs, hw.fallback hs hne⟩
    exact ⟨⟨tr₁, e, tr₂, b, htr, hrun₁, hends⟩, hrest.2⟩

theorem observe_ends {α : Type*} {f : World → DeviceEvent → Option α} {a : α} {tr₁ tr₂ : List DeviceEvent}
    {e : DeviceEvent} {b : World} (hrun : world.Run System.Any w₁ tr₁ b) (hf : f b e = some a) :
    a ∈ world.observe f w₁ (tr₁ ++ e :: tr₂) := by
  rw [hrun.observe_append f]
  simp [System.observe, hf]

/-- A spent pair is in the Keychain exactly while nothing is written there. -/
theorem item_iff (hspent : Spent p w₁) (hrun : world.Run System.Any w₁ tr w₂) :
    w₂.device.keys.item = some p ↔ w₁.device.keys.item = some p ∧
      world.observe (fun w e => w.device.writesItem e) w₁ tr = [] := by
  have hlast := hrun.last_write (fun w e => w.device.writesItem e) (fun w => w.device.keys.item)
    fun w e w' _ hs => item_step hs
  have hother := hrun.observe_forall (fun w e => w.device.writesItem e) (Spent p) (fun q => q ≠ some p) hspent
    (fun _ _ _ hw _ hs => hw.step hs) fun _ _ _ _ hw _ _ hq => hw.writes hq
  cases hwrites : (world.observe (fun w e => w.device.writesItem e) w₁ tr).getLast? with
  | none =>
    rw [hlast, hwrites, List.getLast?_eq_none_iff.mp hwrites]
    simp
  | some q =>
    have hmem := List.mem_of_getLast? hwrites
    rw [hlast, hwrites]
    simp only [Option.getD_some, hother q hmem, false_iff, not_and]
    intro _ hnil
    rw [hnil] at hmem
    cases hmem

end

section
variable {w w₁ w₂ : World} {tr : List DeviceEvent} {l g : ℕ} {tl tg : Task} {email password : String} {p : Tokens}
  {u : UserId} {o : Outcome}

/-- A login resolves while a logout is on its way: the pair is in the Keychain if its write took effect, the logout
ends within the run, and the pair is not in memory then. -/
theorem overtaken (h : world.Reachable System.Any w) (hl : w.device.task l = some tl) (hlogout : tl.flow = .logout)
    (hrequests : tl.pc.requests) (hg : w.device.task g = some tg) (hsaving : tg.pc = .saving p (some u))
    (hresolves : world.step w (.keychain g o) = some w₁) (hrun : world.Run System.Any w₁ tr w₂)
    (hidle : w₂.device.idle) :
    Spent p w₁ ∧ (w₁.device.keys.item = some p ↔ o.lands) ∧ w₂.device.keys.fallbackTokens ≠ some p ∧
      ∃ tr₁ e tr₂ b, tr = tr₁ ++ e :: tr₂ ∧ world.Run System.Any w₁ tr₁ b ∧ Ends l b e := by
  have hpending : Pending w := h.invariant Pending (fun _ => .init) fun _ _ _ hw _ hs => hw.step hs
  obtain ⟨hspent, hlanded⟩ := spent_of_login hpending hg hsaving hresolves
  have hleaves := leaves_of_login hpending hl hlogout hrequests hg hsaving hresolves
  obtain ⟨hends, hfallback⟩ := logout_ends hspent hleaves hrun hidle
  exact ⟨hspent, hlanded, hfallback, hends⟩

/-- **A login behind a stale logout**: a login resolves while a logout awaits `POST /auth/logout`, on its first
exchange or behind a refresh. When everything is over the login stands exactly if its pair was written to the
Keychain and nothing is written there afterwards, by the `clearTokens` of the logout least of all, and the last
step that sets the store signs its user in. -/
theorem login_stands_iff (h : world.Reachable System.Any w)
    (hl : w.device.task l = some tl) (hlogout : tl.flow = .logout) (hrequests : tl.pc.requests)
    (hg : w.device.task g = some tg) (hlogin : tg.flow = .login email password)
    (hsaving : tg.pc = .saving p (some u)) (hresolves : world.step w (.keychain g o) = some w₁)
    (hrun : world.Run System.Any w₁ tr w₂) (hidle : w₂.device.idle) :
    w₁.device.auth.session = (true, some u) ∧
      (w₂.Stands u p ↔ o.lands ∧ world.observe (fun w e => w.device.writesItem e) w₁ tr = [] ∧
        (world.observe (fun w e => w.device.setsStore e) w₁ tr).getLast? = some (true, some u)) := by
  obtain ⟨hspent, hlanded, hfallback, tr₁, e, tr₂, b, htr, hrun₁, o', t, error, he, ht, hpc⟩ :=
    overtaken h hl hlogout hrequests hg hsaving hresolves hrun hidle
  refine ⟨login_resolves hg hlogin hsaving hresolves, ?_⟩
  have hsession := hrun.last_write (fun w e => w.device.setsStore e) (fun w => w.device.auth.session)
    fun w e w' _ hs => session_step hs
  -- the end of the logout sets the store
  obtain ⟨session, hlast⟩ : ∃ session,
      (world.observe (fun w e => w.device.setsStore e) w₁ tr).getLast? = some session := by
    have hcleared : (false, none) ∈ world.observe (fun w e => w.device.setsStore e) w₁ tr := by
      rw [htr]
      exact observe_ends hrun₁ (by simp [he, Device.setsStore, ht, Task.keychainSets, hpc])
    exact ⟨_, List.getLast?_eq_some_getLast (List.ne_nil_of_mem hcleared)⟩
  have hvalid : p.valid = true := by
    obtain ⟨v, hv⟩ := hspent.issued
    have husable := w₁.issued.usable _ hv
    rw [Tokens.usable, Bool.and_eq_true] at husable
    exact husable.1
  rw [hlast, Option.getD_some] at hsession
  have hstore : w₂.device.auth.isAuthenticated = true ∧ w₂.device.auth.user = some u ↔
      session = (true, some u) := by
    rw [← hsession, AuthState.session, Prod.mk.injEq]
  rw [World.Stands, get_returns_iff hvalid hfallback, item_iff hspent hrun, hlanded, hlast, Option.some.injEq,
    ← hstore]
  tauto

/-- **A stale logout wins**: such a login does not stand where the calls of the Keychain have their effect. -/
theorem stale_logout_wins (h : world.Reachable System.Any w)
    (hl : w.device.task l = some tl) (hlogout : tl.flow = .logout) (hrequests : tl.pc.requests)
    (hg : w.device.task g = some tg) (hsaving : tg.pc = .saving p (some u))
    (hresolves : world.step w (.keychain g o) = some w₁) (hrun : world.Run System.Any w₁ tr w₂)
    (hidle : w₂.device.idle) (hlands : ∀ i o, .keychain i o ∈ tr → o.lands) : ¬ w₂.Stands u p := by
  rintro ⟨-, -, hread⟩
  obtain ⟨hspent, -, hfallback, tr₁, e, tr₂, b, rfl, hrun₁, o', t, error, rfl, ht, hpc⟩ :=
    overtaken h hl hlogout hrequests hg hsaving hresolves hrun hidle
  -- the `clearTokens` of the logout writes to the Keychain
  have hcleared : none ∈ world.observe (fun w e => w.device.writesItem e) w₁ (tr₁ ++ .keychain l o' :: tr₂) :=
    observe_ends hrun₁ (by
      simp [Device.writesItem, ht, hpc, Pc.writes, Pc.pending, hlands l o' (by simp)])
  have hitem : w₂.device.keys.item ≠ some p := fun hitem =>
    List.ne_nil_of_mem hcleared ((item_iff hspent hrun).mp hitem).2
  simp only [KeyCall.answer] at hread
  grind

end

/-! ### One such run -/

def World.worksWithoutLogout (w : World) (e : DeviceEvent) : Bool :=
  e.keychainWorks && match e with
    | .start flow => flow ≠ .logout
    | .keychain i _ => (w.device.task i).all fun t => t.pc.role ≠ .closing
    | .respond .. => true

/-- User 2 logs in while the logout of user 1 awaits its answer, under steps that meet `c`, and `tr₂` follows. -/
theorem overtaken_run {β : Type} (c : World → DeviceEvent → Bool) (tr₂ : List DeviceEvent)
    (f : World → World → β) {t u : Option Task} {b : β}
    (h : ((world.exec (fun _ e => e.keychainWorks) startedWorld
        (boots ++ [.start .logout, .keychain 1 .ok])).bind fun w₀ =>
      (world.step w₀ (.start (.login "e" "p"))).bind fun w₁ =>
        (world.exec c w₁ [.keychain 2 .ok,
          .respond 2 (.answer 200 (some { user := some 2, tokens := some (pair "2") }))]).bind fun w₂ =>
            (world.step w₂ (.keychain 2 .ok)).bind fun w₃ =>
              (world.exec c w₃ tr₂).map fun w₄ =>
                (w₀.device.next, w₂.device.task 1, w₂.device.task 2, f w₃ w₄)) = some (2, t, u, b)) :
    ∃ w₀ w₁ w₂ w₃ w₄ tr₁, world.Reachable (fun _ e => e.keychainWorks) w₀ ∧ w₀.device.next = 2 ∧
      world.step w₀ (.start (.login "e" "p")) = some w₁ ∧ world.Run (fun w e => c w e) w₁ tr₁ w₂ ∧
      w₂.device.task 1 = t ∧ w₂.device.task 2 = u ∧ world.step w₂ (.keychain 2 .ok) = some w₃ ∧
      world.Run (fun w e => c w e) w₃ tr₂ w₄ ∧ f w₃ w₄ = b := by
  obtain ⟨w₀, h₀, h⟩ := Option.bind_eq_some_iff.mp h
  obtain ⟨w₁, h₁, h⟩ := Option.bind_eq_some_iff.mp h
  obtain ⟨w₂, h₂, h⟩ := Option.bind_eq_some_iff.mp h
  obtain ⟨w₃, h₃, h⟩ := Option.bind_eq_some_iff.mp h
  obtain ⟨w₄, h₄, h⟩ := Option.map_eq_some_iff.mp h
  obtain ⟨hnext, ht, hu, hb⟩ : _ ∧ _ ∧ _ ∧ _ := by simpa only [Prod.mk.injEq] using h
  exact ⟨w₀, w₁, w₂, w₃, w₄, _, ⟨_, _, startedWorld_init, .of_exec h₀⟩, hnext, h₁, .of_exec h₂, ht,
    hu, h₃, .of_exec h₄, hb⟩

/-- The `clearTokens` of the logout has no effect on the Keychain, and `loadUser` finds the session of user 2. -/
def clearFails : List DeviceEvent :=
  [.respond 1 (.answer 200 none), .keychain 1 .failed, .start .loadUser, .keychain 3 .ok, .keychain 3 .ok,
    .respond 3 (.answer 200 (some { user := some 2 }))]

theorem login_stands_run :
    ∃ w₁ w₂, world.Run System.Any w₁ clearFails w₂ ∧ w₁.device.auth.session = (true, some 2) ∧
      w₂.device.idle ∧ w₂.Stands 2 (pair "2") := by
  obtain ⟨w₀, w₁, w₂, w₃, w₄, tr₁, h₀, -, h₁, h₂, hl, hg, h₃, h₄, hend⟩ := overtaken_run
    (fun _ _ => true) clearFails
    (fun w₃ w₄ => w₄.device.idle && world.observe (fun w e => w.device.writesItem e) w₃ clearFails = [] &&
      (world.observe (fun w e => w.device.setsStore e) w₃ clearFails).getLast? = some (true, some 2))
    (t := some { flow := .logout, header := some "a1", pc := .sent })
    (u := some { flow := .login "e" "p", header := some "a1", pc := .saving (pair "2") (some 2) })
    (b := true) (by decide +kernel)
  simp only [Bool.and_eq_true, decide_eq_true_eq] at hend
  obtain ⟨⟨hidle, hwrites⟩, hsets⟩ := hend
  have hreach : world.Reachable System.Any w₂ := by
    have hw₁ : world.Reachable System.Any w₁ :=
      (h₀.mono fun _ _ _ => trivial).trans (.single trivial h₁)
    exact hw₁.trans (h₂.mono fun _ _ _ => trivial)
  have hrun : world.Run System.Any w₃ clearFails w₄ := h₄.mono fun _ _ _ => trivial
  obtain ⟨hin, hstands⟩ := login_stands_iff hreach hl rfl rfl hg rfl rfl h₃ hrun hidle
  exact ⟨w₃, w₄, hrun, hin, hidle, hstands.mpr ⟨rfl, hwrites, hsets⟩⟩

/-- **A login is undone**: user 2 has logged in, and is signed out by the logout of user 1. -/
theorem login_undone :
    ¬ ∀ (w₀ w₁ w₂ w₃ w₄ : World) (tr₁ tr₂ : List DeviceEvent) (l : ℕ) (tl tg : Task)
        (email password : String) (p : Tokens) (u : UserId),
        world.Reachable (fun _ e => e.keychainWorks) w₀ → l < w₀.device.next →
        world.step w₀ (.start (.login email password)) = some w₁ →
        world.Run (fun w e => w.worksWithoutLogout e) w₁ tr₁ w₂ →
        w₂.device.task l = some tl → tl.flow = .logout → tl.pc = .sent →
        w₂.device.task w₀.device.next = some tg → tg.pc = .saving p (some u) →
        world.step w₂ (.keychain w₀.device.next .ok) = some w₃ →
        world.Run (fun w e => w.worksWithoutLogout e) w₃ tr₂ w₄ → w₄.device.idle → w₄.Stands u p := by
  intro hclaim
  obtain ⟨w₀, w₁, w₂, w₃, w₄, tr₁, h₀, hnext, h₁, h₂, hl, hg, h₃, h₄, hend⟩ := overtaken_run
    World.worksWithoutLogout [.respond 1 (.answer 200 none), .keychain 1 .ok]
    (fun _ w₄ => (w₄.device.idle, w₄.device.auth)) (t := some { flow := .logout, header := some "a1", pc := .sent })
    (u := some { flow := .login "e" "p", header := some "a1", pc := .saving (pair "2") (some 2) })
    (b := (true, { isInitialized := true })) (by decide +kernel)
  obtain ⟨hidle, hauth⟩ : _ ∧ _ := by simpa only [Prod.mk.injEq] using hend
  have hstands := hclaim w₀ w₁ w₂ w₃ w₄ tr₁ _ 1 _ _ "e" "p" (pair "2") 2 h₀ (by omega) h₁ h₂ hl rfl rfl
    (by rw [hnext]; exact hg) rfl (by rw [hnext]; exact h₃) h₄ hidle
  have hfalse := hstands.1
  rw [hauth] at hfalse
  exact absurd hfalse (by decide)

end Locus.Mobile
