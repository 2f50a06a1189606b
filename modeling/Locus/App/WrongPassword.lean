import Locus.App.Logout
import Locus.Mobile.RetryBound
import Locus.Server.Passwords

/-!
# A wrong password and the interceptor

The server answers 401 to a wrong password as it does to an access token that has expired, and the response
interceptor refreshes for every 401. Where the refresh works, the request is sent again, answered 401 again
and rejected with that answer, which is what the caller has to see (`wrong_password_kept`). Where it does
not, because nothing is stored or the server refuses the stored token, the caller gets another error, the
tokens are cleared and `signout` is emitted (`wrong_password_signs_out`).

Proof. While every refresh works, no task comes to the `catch` of the interceptor, so nothing emits
`signout` and no queued request is rejected; what is stored stays stored (`Calm.step`). A request that is
answered 401 then goes round: it is queued behind a leader or leads, is sent again, and only its own second
401 ends it (`onItsWay_step`). It does not go round for ever: it leads one refresh at most and waits for one of
each other call, so it is sent no more often than calls are under way (`steady_accounted`).
-/

namespace Locus.App

open Lib Server Mobile

/-! ### The device -/

/-- A pair is stored that `getTokens` can return. -/
def holds (keys : KeyStore) : Bool := keys.item.any (·.valid) || keys.fallbackTokens.any (·.valid)

/-- If the event is one of a refresh, it goes well: the read finds a refresh token, and `POST /auth/refresh`
is answered 200 with a pair. -/
def refreshWorks (s : Device) : DeviceEvent → Bool
  | .start _ => true
  | .keychain i o => (s.task i).all fun t => match t.pc with
    | .refreshRead c => match (c.answer s.keys o).2 with
      | .returns tokens => tokens.any fun p => p.refreshToken ≠ ""
      | .awaits _ => true
    | _ => true
  | .respond i reply => (s.task i).all fun t => match t.pc, reply with
    | .refreshSent _, .answer status data =>
      (200 ≤ status ∧ status < 300) && data.any fun data => data.tokens.any (·.valid)
    | .refreshSent _, .lost => false
    | _, _ => true

/-- What is back is a reset of the Keychain. -/
def Pc.resets : Pc → Bool
  | .boot .getReset | .attach .getReset | .refreshRead .getReset | .verifying .getReset .. => true
  | .refreshClear _ | .verifyClear | .clearing _ => true
  | _ => false

/-- The flow calls `clearTokens` on the reply to its request. -/
def clears (t : Task) : Reply → Bool
  | .lost => t.flow = .logout || t.flow = .loadUser
  | .answer status _ =>
    t.flow = .logout || (t.flow = .loadUser && ¬ (200 ≤ status ∧ status < 300) && (status ≠ 401 || t.retry))

/-- The event is not one by which the app removes tokens on its own account: a reset that has its effect with
nothing in memory, a registration that does not read what it has saved, a `logout`, a `loadUser` that is
rejected. -/
def sparesTokens (s : Device) : DeviceEvent → Bool
  | .start _ => true
  | .keychain i o => (s.task i).all fun t =>
    (!(Pc.resets t.pc && o.lands) || s.keys.fallbackTokens.any (·.valid)) &&
    match t.pc with
    | .verifying c expected _ => match (c.answer s.keys o).2 with
      | .returns tokens => tokens = expected
      | .awaits _ => true
    | _ => true
  | .respond i reply => (s.task i).all fun t => t.pc ≠ .sent || !clears t reply

/-- A read is a read, and what is to be saved is a pair. -/
def Pc.Ready : Pc → Prop
  | .boot c | .attach c | .refreshRead c | .verifying c .. => c = .get ∨ c = .getReset
  | .refreshSave _ p | .saving p _ => p.valid = true
  | _ => True

section
variable {s s' : Device} {t : Task} {d : DeviceEvent} {m : Move} {i : ℕ}

theorem ready_caught (flow : Flow) (error : ApiError) : Pc.Ready (Device.caught flow error) := by
  cases flow <;> trivial

theorem ready_readBack {c : KeyCall} {o : Outcome} {wait : KeyCall → Task}
    {k : Device → Option Tokens → Move} (hwait : Pc.Ready (wait .getReset).pc)
    (hk : ∀ s tokens, Pc.Ready (k s tokens).task.pc) : Pc.Ready (s.readBack c o wait k).task.pc := by
  rcases s.readBack_cases c o wait k with ⟨keys, -, hm⟩ | ⟨keys, tokens, -, hm⟩ <;> rw [hm]
  · exact hwait
  · exact hk _ _

theorem ready_saved (s : Device) (t : Task) (tokens : Option Tokens) (user : Option UserId) :
    Pc.Ready (s.saved t tokens user).task.pc := by
  unfold Device.saved
  split
  · exact .inl rfl
  · trivial

theorem ready_resolve (s : Device) (t : Task) (data : Option Payload) :
    Pc.Ready (s.resolve t data).task.pc := by
  generalize hm : s.resolve t data = m
  cases Device.resolve_cases hm with
  | noData hflow hdata => exact ready_caught ..
  | saves payload tokens hflow hdata htokens hvalid => exact hvalid
  | unsaved payload hflow hdata hinvalid => exact ready_saved ..
  | logout hflow => trivial
  | loadUser hflow => trivial
  | other id hflow => trivial

theorem ready_keychain {o : Outcome} (h : s.keychain t o = some m) : Pc.Ready m.task.pc := by
  cases Device.keychain_cases h with
  | boot c hpc =>
    refine ready_readBack (.inr rfl) fun s tokens => ?_
    unfold Device.bootRead
    split
    · exact .inl rfl
    · trivial
  | attach c hpc =>
    refine ready_readBack (.inr rfl) fun s tokens => ?_
    unfold Device.attachRead
    split
    · split <;> trivial
    · trivial
  | refreshRead c hpc =>
    refine ready_readBack (.inr rfl) fun s tokens => ?_
    unfold Device.refreshReadDone
    split
    · split <;> trivial
    · trivial
  | verifying c expected user hpc =>
    refine ready_readBack (.inr rfl) fun s tokens => ?_
    unfold Device.verified
    split <;> trivial
  | refreshSave presented tokens hpc => exact .inl rfl
  | saving tokens user hpc => exact ready_saved ..
  | refreshClear error hpc => exact ready_caught ..
  | verifyClear hpc => trivial
  | clearing error hpc => trivial

theorem ready_respond {reply : Reply} (h : s.respond t reply = some m) : Pc.Ready m.task.pc := by
  cases Device.respond_cases h with
  | lost hpc => exact ready_caught ..
  | resolved status data hpc h2xx => exact ready_resolve ..
  | rejected status data hpc h2xx hstatus => exact ready_caught ..
  | queued data hpc hretry hflag => trivial
  | leads data hpc hretry hflag => exact .inl rfl
  | refreshLost presented hpc => trivial
  | refreshRejected presented status data hpc h2xx => trivial
  | refreshEmpty presented status hpc h2xx => trivial
  | refreshed presented status data tokens hpc h2xx htokens hvalid => exact hvalid
  | unsaved presented status data hpc h2xx hinvalid => exact .inl rfl

theorem ready_turn (h : s.turn t d = some m) : Pc.Ready m.task.pc := by
  cases d with
  | start flow => cases h
  | keychain i o => exact ready_keychain h
  | respond i reply => exact ready_respond h

/-! #### What is stored -/

theorem holds_reset {keys : KeyStore} {o : Outcome}
    (hspare : (!o.lands || keys.fallbackTokens.any (·.valid)) = true) (h : holds keys = true) :
    holds (keys.reset o) = true := by
  unfold KeyStore.reset
  split
  · rename_i hlands
    have hfallback : keys.fallbackTokens.any (·.valid) = true := by simpa [hlands] using hspare
    simp [holds, hfallback]
  · exact h

theorem holds_save {p : Tokens} (hp : p.valid = true) (keys : KeyStore) (o : Outcome) :
    holds ((KeyCall.save p).answer keys o).1 = true := by
  cases o <;> simp [KeyCall.answer, holds, hp]

theorem holds_read {keys : KeyStore} {c : KeyCall} {o : Outcome} (hc : c = .get ∨ c = .getReset)
    (hspare : c = .getReset → (!o.lands || keys.fallbackTokens.any (·.valid)) = true)
    (h : holds keys = true) : holds (c.answer keys o).1 = true := by
  rcases hc with rfl | rfl
  · cases o with
    | ok =>
      simp only [KeyCall.answer]
      split
      · exact h
      · split <;> exact h
    | failed => exact h
    | lost => exact h
  · exact holds_reset (hspare rfl) h

theorem holds_readBack {c : KeyCall} {o : Outcome} {wait : KeyCall → Task}
    {k : Device → Option Tokens → Move} (hread : holds (c.answer s.keys o).1 = true)
    (hk : ∀ tokens, (c.answer s.keys o).2 = .returns tokens →
      (k { s with keys := (c.answer s.keys o).1 } tokens).keys = (c.answer s.keys o).1) :
    holds (s.readBack c o wait k).keys = true := by
  rcases s.readBack_cases c o wait k with ⟨keys, hanswer, hm⟩ | ⟨keys, tokens, hanswer, hm⟩ <;> rw [hm]
  · rw [hanswer] at hread
    exact hread
  · have hkeys := hk tokens (by rw [hanswer])
    rw [hanswer] at hread hkeys
    rw [hkeys]
    exact hread

theorem refreshRead_works {c : KeyCall} {o : Outcome} {tokens : Option Tokens} (ht : s.task i = some t)
    (hpc : t.pc = .refreshRead c) (hworks : refreshWorks s (.keychain i o) = true)
    (hanswer : (c.answer s.keys o).2 = .returns tokens) :
    ∃ p, tokens = some p ∧ p.refreshToken ≠ "" := by
  simp only [refreshWorks, ht, Option.all_some, hpc, hanswer] at hworks
  cases tokens with
  | none => simp at hworks
  | some p => exact ⟨p, rfl, by simpa using hworks⟩

/-- `POST /auth/refresh` behind which there is a pair to save: nothing else has changed. -/
theorem refreshSent_works {presented : String} {reply : Reply} (ht : s.task i = some t)
    (hpc : t.pc = .refreshSent presented) (hworks : refreshWorks s (.respond i reply) = true)
    (hm : s.respond t reply = some m) :
    ∃ p : Tokens, p.valid = true ∧ m = s.move { t with pc := .refreshSave presented p } := by
  simp only [refreshWorks, ht, Option.all_some, hpc] at hworks
  cases reply with
  | lost => cases hworks
  | answer status data =>
    rw [Bool.and_eq_true, decide_eq_true_eq] at hworks
    obtain ⟨h2xx, hany⟩ := hworks
    obtain ⟨body, rfl, hbody⟩ := (Option.any_eq_true _ _).mp hany
    obtain ⟨p, htokens, hvalid⟩ := (Option.any_eq_true _ _).mp hbody
    simp only [Device.respond, hpc, if_pos h2xx, htokens, if_pos hvalid] at hm
    exact ⟨p, hvalid, (Option.some.inj hm).symm⟩

theorem holds_reject (hlogout : t.flow ≠ .logout) (hload : t.flow ≠ .loadUser) (error : ApiError)
    (h : holds s.keys = true) : holds (s.reject t error).keys = true := by
  cases hflow : t.flow <;> simp_all [Device.reject, Device.move]

theorem holds_saved (tokens : Option Tokens) (user : Option UserId) (h : holds s.keys = true) :
    holds (s.saved t tokens user).keys = true := by
  unfold Device.saved
  split <;> exact h

theorem holds_resolve (hlogout : t.flow ≠ .logout) (data : Option Payload) (h : holds s.keys = true) :
    holds (s.resolve t data).keys = true := by
  generalize hm : s.resolve t data = m
  cases Device.resolve_cases hm with
  | noData hflow hdata =>
    refine holds_reject hlogout (fun hload => ?_) _ h
    rw [hload] at hflow
    cases hflow
  | saves payload tokens hflow hdata htokens hvalid => exact h
  | unsaved payload hflow hdata hinvalid => exact holds_saved _ _ h
  | logout hflow => exact absurd hflow hlogout
  | loadUser hflow => exact h
  | other id hflow => exact h

theorem holds_keychain {o : Outcome} (ht : s.task i = some t) (hready : Pc.Ready t.pc)
    (hrole : t.pc.role ≠ .closing) (hworks : refreshWorks s (.keychain i o) = true)
    (hspare : sparesTokens s (.keychain i o) = true) (hm : s.keychain t o = some m) (h : holds s.keys = true) :
    holds m.keys = true := by
  simp only [sparesTokens, ht, Option.all_some, Bool.and_eq_true] at hspare
  obtain ⟨hreset, hverify⟩ := hspare
  have hkeep : Pc.resets t.pc = true → (!o.lands || s.keys.fallbackTokens.any (·.valid)) = true := by
    intro hresets
    simpa [hresets] using hreset
  -- a read resets the Keychain only where it keeps the pair in memory
  have hread : ∀ c : KeyCall, (c = .get ∨ c = .getReset) → (c = .getReset → Pc.resets t.pc = true) →
      holds (c.answer s.keys o).1 = true := fun c hc hresets =>
    holds_read hc (fun hc => hkeep (hresets hc)) h
  cases Device.keychain_cases hm with
  | boot c hpc =>
    rw [hpc] at hready hread
    refine holds_readBack (hread c hready fun hc => by rw [hc]; rfl) fun tokens _ => ?_
    unfold Device.bootRead
    split <;> rfl
  | attach c hpc =>
    rw [hpc] at hready hread
    refine holds_readBack (hread c hready fun hc => by rw [hc]; rfl) fun tokens _ => ?_
    unfold Device.attachRead
    split
    · split <;> rfl
    · rfl
  | refreshRead c hpc =>
    rw [hpc] at hready hread
    refine holds_readBack (hread c hready fun hc => by rw [hc]; rfl) fun tokens hanswer => ?_
    obtain ⟨p, rfl, hp⟩ := refreshRead_works ht hpc hworks hanswer
    simp only [Device.refreshReadDone, if_pos hp]
    rfl
  | verifying c expected user hpc =>
    rw [hpc] at hready hread
    refine holds_readBack (hread c hready fun hc => by rw [hc]; rfl) fun tokens hanswer => ?_
    simp only [hpc, hanswer, decide_eq_true_eq] at hverify
    simp only [Device.verified, if_pos hverify]
    rfl
  | refreshSave presented p hpc =>
    rw [hpc] at hready
    exact holds_save hready _ _
  | saving p user hpc =>
    rw [hpc] at hready
    exact holds_saved _ _ (holds_save hready _ _)
  | refreshClear error hpc => exact absurd (by rw [hpc]; rfl) hrole
  | verifyClear hpc => exact holds_reset (hkeep (by rw [hpc]; rfl)) h
  | clearing error hpc => exact holds_reset (hkeep (by rw [hpc]; rfl)) h

theorem holds_respond {reply : Reply} (ht : s.task i = some t) (hworks : refreshWorks s (.respond i reply) = true)
    (hspare : sparesTokens s (.respond i reply) = true) (hm : s.respond t reply = some m)
    (h : holds s.keys = true) : holds m.keys = true := by
  simp only [sparesTokens, ht, Option.all_some] at hspare
  have hturn := hm
  -- the exchange of a refresh ends with a pair
  have hrefresh : ∀ {presented}, t.pc = .refreshSent presented → holds m.keys = true := by
    intro presented hpc
    obtain ⟨p, -, rfl⟩ := refreshSent_works ht hpc hworks hturn
    exact h
  cases Device.respond_cases hm with
  | lost hpc =>
    obtain ⟨hlogout, hload⟩ : t.flow ≠ .logout ∧ t.flow ≠ .loadUser := by simpa [hpc, clears] using hspare
    exact holds_reject hlogout hload _ h
  | resolved status data hpc h2xx =>
    refine holds_resolve (fun hlogout => ?_) _ h
    simp [hpc, clears, hlogout] at hspare
  | rejected status data hpc h2xx hstatus =>
    simp only [hpc, clears] at hspare
    refine holds_reject (fun hlogout => ?_) (fun hload => ?_) _ h
    · simp [hlogout] at hspare
    · simp only [h2xx] at hspare
      grind
  | queued data hpc hretry hflag => exact h
  | leads data hpc hretry hflag => exact h
  | refreshLost presented hpc => exact hrefresh hpc
  | refreshRejected presented status data hpc h2xx => exact hrefresh hpc
  | refreshEmpty presented status hpc h2xx => exact hrefresh hpc
  | refreshed presented status data tokens hpc h2xx htokens hvalid => exact hrefresh hpc
  | unsaved presented status data hpc h2xx hinvalid => exact hrefresh hpc

theorem holds_turn (hi : d.task = some i) (ht : s.task i = some t) (hready : Pc.Ready t.pc)
    (hrole : t.pc.role ≠ .closing) (hworks : refreshWorks s d = true) (hspare : sparesTokens s d = true)
    (hm : s.turn t d = some m) (h : holds s.keys = true) : holds m.keys = true := by
  cases d with
  | start flow => cases hi
  | keychain j o =>
    obtain rfl := Option.some.inj hi
    exact holds_keychain ht hready hrole hworks hspare hm h
  | respond j reply =>
    obtain rfl := Option.some.inj hi
    exact holds_respond ht hworks hspare hm h

/-! #### No refresh fails -/

/-- A request is on its way: before its exchange, in it, or in the refresh that it leads. -/
def Pc.goes : Pc → Bool
  | .attach _ | .sent | .refreshRead _ | .refreshSent _ | .refreshSave .. => true
  | _ => false

theorem refreshing_turn (hi : d.task = some i) (ht : s.task i = some t) (hrole : t.pc.role = .leading)
    (hworks : refreshWorks s d = true) (hm : s.turn t d = some m) :
    m.task.flow = t.flow ∧ Pc.goes m.task.pc = true := by
  cases d with
  | start flow => cases hi
  | keychain j o =>
    obtain rfl := Option.some.inj hi
    cases Device.keychain_cases hm with
    | refreshRead c hpc =>
      rcases s.readBack_cases c o (fun c => { t with pc := .refreshRead c }) (fun s => s.refreshReadDone t) with
        ⟨keys, -, hread⟩ | ⟨keys, tokens, hanswer, hread⟩ <;> rw [hread]
      · exact ⟨rfl, rfl⟩
      · obtain ⟨p, rfl, hp⟩ := refreshRead_works ht hpc hworks (by rw [hanswer])
        simp only [Device.refreshReadDone, if_pos hp]
        exact ⟨rfl, rfl⟩
    | refreshSave presented p hpc => exact ⟨rfl, rfl⟩
    | _ => simp_all [Pc.role]
  | respond j reply =>
    obtain rfl := Option.some.inj hi
    cases hpc : t.pc with
    | refreshSent presented =>
      obtain ⟨p, -, rfl⟩ := refreshSent_works ht hpc hworks hm
      exact ⟨rfl, rfl⟩
    | refreshRead c => simp [Device.turn, Device.respond, hpc] at hm
    | refreshSave presented p => simp [Device.turn, Device.respond, hpc] at hm
    | _ => simp [hpc, Pc.role] at hrole

theorem role_of_goes {pc : Pc} (h : Pc.goes pc = true) :
    (pc.role = .free ∧ ((∃ c, pc = .attach c) ∨ pc = .sent)) ∨ pc.role = .leading := by
  cases pc <;> simp_all [Pc.goes, Pc.role]

/-- No refresh has failed and awaits `clearTokens`. -/
structure Calm (s : Device) : Prop where
  sound : s.Sound
  ready : ∀ i t, s.task i = some t → Pc.Ready t.pc
  role : ∀ i t, s.task i = some t → t.pc.role ≠ .closing

/-- A step of a task emits no `signout`, and rejects nobody in the queue. -/
theorem Calm.turn (h : Calm s) (hi : d.task = some i) (ht : s.task i = some t)
    (hworks : refreshWorks s d = true) (hm : s.turn t d = some m) :
    m.task.pc.role ≠ .closing ∧ m.signout = false ∧ ∀ error, m.queue ≠ .reject error := by
  have hrole := h.role i t ht
  cases Device.turn_cases hm with
  | stays _ hrole' _ hqueue hsignout =>
    rw [hrole', hqueue]
    exact ⟨hrole, hsignout, fun error => by simp⟩
  | joins _ _ _ _ _ _ heq | leads _ _ _ _ _ _ heq =>
    subst heq
    exact ⟨by simp [Device.move, Pc.role], rfl, fun error => by simp [Device.move]⟩
  | lands token _ hrole' _ hqueue hsignout =>
    rw [hrole', hqueue]
    exact ⟨by simp, hsignout, fun error => by simp⟩
  | fails error hlead hclosing =>
    have hgoes := (refreshing_turn hi ht hlead hworks hm).2
    rcases role_of_goes hgoes with ⟨hfree, -⟩ | hleads <;> simp_all
  | closes error hpc => exact absurd (by rw [hpc]; rfl) hrole

theorem ready_step (h : s.Sound) (hready : ∀ i t, s.task i = some t → Pc.Ready t.pc)
    (hstep : device.step s d = some s') : ∀ i t, s'.task i = some t → Pc.Ready t.pc := by
  intro j u hu
  obtain ⟨flow, -, rfl⟩ | ⟨i, t, m, hi, ht, hm, rfl⟩ := Device.step_cases hstep
  · rcases Device.start_task_cases hu with hold | ⟨-, rfl⟩
    · exact hready j u hold
    · cases flow <;> exact .inl rfl
  · rcases Device.apply_task_cases h ht hu with ⟨-, rfl⟩ | ⟨v, hv, -, rfl⟩ | ⟨-, -, rfl⟩
    · exact ready_turn hm
    · have hv' := hready j v hv
      split
      · cases m.queue with
        | keep | push => exact hv'
        | resolve token => exact .inl rfl
        | reject error => exact ready_caught ..
      · exact hv'
    · exact .inl rfl

theorem Calm.step (h : Calm s) (hworks : refreshWorks s d = true) (hstep : device.step s d = some s') :
    Calm s' := by
  refine ⟨h.sound.step hstep, ready_step h.sound h.ready hstep, fun j u hu => ?_⟩
  obtain ⟨flow, -, rfl⟩ | ⟨i, t, m, hi, ht, hm, rfl⟩ := Device.step_cases hstep
  · rcases Device.start_task_cases hu with hold | ⟨-, rfl⟩
    · exact h.role j u hold
    · cases flow <;> simp [Device.entry, Pc.role]
  · obtain ⟨hrole, hsignout, -⟩ := h.turn hi ht hworks hm
    rcases Device.apply_task_cases h.sound ht hu with ⟨-, rfl⟩ | ⟨v, hv, -, rfl⟩ | ⟨hemits, -, -⟩
    · exact hrole
    · have hv' := h.role j v hv
      split
      · cases m.queue with
        | keep | push => exact hv'
        | resolve token => simp [Device.settle, Pc.role]
        | reject error => simp [Device.settle, Device.caught_role]
      · exact hv'
    · simp [hsignout] at hemits

/-- The event emits `signout`. -/
def signsOut (s : Device) (d : DeviceEvent) : Bool :=
  (d.task.bind s.task).any fun t => (s.turn t d).any (·.signout)

theorem Calm.quiet (h : Calm s) (hworks : refreshWorks s d = true) : signsOut s d = false := by
  unfold signsOut
  cases hi : d.task with
  | none => rfl
  | some i =>
    cases ht : s.task i with
    | none => simp [ht]
    | some t =>
      cases hm : s.turn t d with
      | none => simp [ht, hm]
      | some m => simp [ht, hm, (h.turn hi ht hworks hm).2.1]

theorem Calm.keeps (h : Calm s) (hworks : refreshWorks s d = true) (hspare : sparesTokens s d = true)
    (hstep : device.step s d = some s') (hholds : holds s.keys = true) : holds s'.keys = true := by
  obtain ⟨flow, -, rfl⟩ | ⟨i, t, m, hi, ht, hm, rfl⟩ := Device.step_cases hstep
  · exact hholds
  · rw [Device.apply_keys]
    exact holds_turn hi ht (h.ready i t ht) (h.role i t ht) hworks hspare hm hholds

/-! #### A request that is answered 401 -/

/-- Task `j`, a request of `flow`, is on its way, or waits in the queue for the refresh that a task leads. -/
def OnItsWay (flow : Flow) (j : ℕ) (s : Device) : Prop :=
  ∃ t, s.task j = some t ∧ t.flow = flow ∧ (Pc.goes t.pc = true ∨ ∃ r, Device.Waits r j t s)

/-- The step rejects task `j` with the 401 that it is answered. -/
def Rejected (j : ℕ) (s : Device) (d : DeviceEvent) : Prop :=
  ∃ t data, d = .respond j (.answer 401 data) ∧ s.task j = some t ∧ t.pc = .sent ∧
    s.turn t d = some (s.reject t (.response 401))

theorem attach_turn {c : KeyCall} (hpc : t.pc = .attach c) (hm : s.turn t d = some m) :
    m.task.flow = t.flow ∧ Pc.goes m.task.pc = true := by
  cases d with
  | start flow => cases hm
  | respond j reply => simp [Device.turn, Device.respond, hpc] at hm
  | keychain j o =>
    simp only [Device.turn, Device.keychain, hpc, Option.some.injEq] at hm
    subst hm
    rcases Device.readBack_cases s c o (fun c => { t with pc := .attach c }) (fun s => s.attachRead t) with
      ⟨keys, -, hm⟩ | ⟨keys, tokens, -, hm⟩ <;> rw [hm]
    · exact ⟨rfl, rfl⟩
    · unfold Device.attachRead
      split
      · split <;> exact ⟨rfl, rfl⟩
      · exact ⟨rfl, rfl⟩

theorem sent_turn (hpc : t.pc = .sent) (hi : d.task = some i) (hm : s.turn t d = some m) :
    ∃ reply, d = .respond i reply := by
  cases d with
  | start flow => cases hm
  | keychain j o => simp [Device.turn, Device.keychain, hpc] at hm
  | respond j reply =>
    obtain rfl := Option.some.inj hi
    exact ⟨reply, rfl⟩

theorem Calm.leader (h : Calm s) (hflag : s.isRefreshing = true) : ∃ r, s.role r = .leading := by
  obtain ⟨r, hr⟩ := h.sound.flight.busy.mp hflag
  refine ⟨r, ?_⟩
  have hflies : (s.role r).flies = true := hr
  cases ht : s.task r with
  | none => simp [Device.role, ht] at hflies
  | some t =>
    have hnot := h.role r t ht
    rw [Device.role_of_task ht] at hflies ⊢
    cases hrole : t.pc.role <;> simp_all

/-- **A request goes round** until its answer to the request sent again rejects it. -/
theorem onItsWay_step {flow : Flow} {j : ℕ} (h : Calm s) (hway : OnItsWay flow j s)
    (hworks : refreshWorks s d = true)
    (hanswer : ∀ t reply, d = .respond j reply → s.task j = some t → t.pc = .sent →
      ∃ data, reply = .answer 401 data)
    (hstep : device.step s d = some s') : OnItsWay flow j s' ∨ Rejected j s d := by
  obtain ⟨u, hu, hflow, hat⟩ := hway
  obtain ⟨flow', rfl, rfl⟩ | ⟨i, t, m, hi, ht, hm, rfl⟩ := Device.step_cases hstep
  · -- a flow starts
    refine .inl ⟨u, ?_, hflow, hat.imp id ?_⟩
    · rw [Device.start_task_of_ne s (h.sound.lt_next hu).ne, hu]
    · rintro ⟨r, hwaits⟩
      rcases Device.waits_step hwaits hstep with hwaits' | ⟨htask, -⟩
      · exact ⟨r, hwaits'⟩
      · cases htask
  obtain ⟨-, -, hnoReject⟩ := h.turn hi ht hworks hm
  by_cases hji : j = i
  · subst hji
    obtain rfl := Option.some.inj (ht.symm.trans hu)
    have hself := Device.apply_task_self h.sound ht m
    rcases hat with hgoes | ⟨r, hwaits⟩
    swap
    · -- a task in the queue does not move
      have hpc := h.sound.pc_of_mem hwaits.task hwaits.queued
      cases d <;> simp [Device.turn, Device.keychain, Device.respond, hpc] at hm
    rcases role_of_goes hgoes with ⟨-, ⟨c, hpc⟩ | hpc⟩ | hleads
    · obtain ⟨hflow', hgoes'⟩ := attach_turn hpc hm
      exact .inl ⟨m.task, hself, hflow'.trans hflow, .inl hgoes'⟩
    · obtain ⟨reply, rfl⟩ := sent_turn hpc hi hm
      obtain ⟨data, rfl⟩ := hanswer t reply rfl ht hpc
      by_cases hretry : t.retry = true
      · refine .inr ⟨t, data, rfl, ht, hpc, ?_⟩
        simp [Device.turn, Device.respond, hpc, hretry]
      · by_cases hflag : s.isRefreshing = true
        · -- it joins the queue, and somebody leads
          obtain rfl : m = { s.move { t with pc := .queued } with queue := .push } := by
            simpa [Device.turn, Device.respond, hpc, hretry, hflag] using hm.symm
          have hin : j ∈ (s.apply j { s.move { t with pc := .queued } with queue := .push }).failedQueue := by
            rw [Device.apply_failedQueue]
            simp [Device.queueAfter]
          obtain ⟨r, hr⟩ := h.leader hflag
          have hrj : r ≠ j := by
            rintro rfl
            rw [Device.role_of_task ht, hpc] at hr
            cases hr
          have hrole := congrArg Flight.role (Device.apply_flight h.sound.fresh (h.sound.lt_next ht)
            { s.move { t with pc := .queued } with queue := .push })
          have hstill : (s.apply j { s.move { t with pc := .queued } with queue := .push }).role r = .leading := by
            refine (congrFun hrole r).trans ?_
            simp only [Device.flight, Device.advance_role, Function.update_of_ne hrj]
            exact hr
          exact .inl ⟨_, hself, hflow, .inr ⟨r, h.sound.step hstep, hself, hin, hstill⟩⟩
        · obtain rfl : m = { s.move { t with retry := true, pc := .refreshRead .get } with
              isRefreshing := true } := by
            simpa [Device.turn, Device.respond, hpc, hretry, hflag] using hm.symm
          exact .inl ⟨_, hself, hflow, .inl rfl⟩
    · obtain ⟨hflow', hgoes'⟩ := refreshing_turn hi ht hleads hworks hm
      exact .inl ⟨m.task, hself, hflow'.trans hflow, .inl hgoes'⟩
  · have hother := Device.apply_task_of_ne h.sound hu hji m
    by_cases hqueued : j ∈ s.failedQueue
    · rw [if_pos hqueued] at hother
      have hpc := h.sound.pc_of_mem hu hqueued
      obtain ⟨r, hwaits⟩ := hat.resolve_left (by simp [hpc, Pc.goes])
      have hstill : j ∈ (s.apply i m).failedQueue → OnItsWay flow j (s.apply i m) := by
        intro hin
        rcases Device.waits_step hwaits hstep with hwaits' | ⟨-, hempty, -⟩
        · exact ⟨u, hwaits'.task, hflow, .inr ⟨r, hwaits'⟩⟩
        · simp [hempty] at hin
      rw [Device.apply_failedQueue] at hstill
      cases hop : m.queue with
      | keep => exact .inl (hstill (by rw [hop]; exact hqueued))
      | push => exact .inl (hstill (by rw [hop]; exact List.mem_append_left _ hqueued))
      | resolve token =>
        rw [hop] at hother
        exact .inl ⟨_, hother, hflow, .inl rfl⟩
      | reject error => exact absurd hop (hnoReject error)
    · rw [if_neg hqueued] at hother
      refine .inl ⟨u, hother, hflow, .inl (hat.resolve_right ?_)⟩
      rintro ⟨r, hwaits⟩
      exact hqueued hwaits.queued

end

/-! ### The device and the server -/

/-- When the server handles the request of task `j` again, the accounts are as they were, its first statement
does not fail, and the access token of a change of password is one of user `id`; the answer is not lost. -/
def askedAgain (svc : Services) (users : List UserRow) (id : Uuid) (j : ℕ) (a : ClientState) :
    ClientEvent → Bool
  | .serve i env x => i ≠ j || (a.device.task j).all fun t => t.pc ≠ .sent ||
    (a.server.db.users = users && (x 0).fault = none && match t.flow with
      | .login .. => true
      | _ => (authenticate svc env (authorization t)).map (·.id) = some id)
  | .lose i => i ≠ j || (a.device.task j).all (·.pc ≠ .sent)
  | _ => true

/-- Refreshes work, the app removes no tokens on its own account, and the server is asked the same again. -/
def steady (svc : Services) (users : List UserRow) (id : Uuid) (j : ℕ) (a : ClientState) (e : ClientEvent) :
    Bool :=
  (a.deviceEvent e).all (fun d => refreshWorks a.device d && sparesTokens a.device d) &&
    askedAgain svc users id j a e

/-- The events that emit `signout`. -/
def signouts (a : ClientState) (e : ClientEvent) : Option Unit :=
  if (a.deviceEvent e).any (signsOut a.device) then some () else none

/-- The answer to task `j`, a 401 with the server's text, is delivered and rejects its request. -/
def RejectedWith (text : String) (j : ℕ) (a : ClientState) (e : ClientEvent) : Prop :=
  e = .deliver j ∧ a.answer j = some (failure 401 text) ∧ ∃ t, a.device.task j = some t ∧
    a.device.respond t (reply (failure 401 text)) = some (a.device.reject t (.response 401))

/-- A step of the run rejects the request of task `j` with the 401 and the server's text. -/
def RejectedIn (M : System ClientState ClientEvent) (j : ℕ) (text : String) (a₁ : ClientState)
    (tr : List ClientEvent) (a : ClientState) : Prop :=
  ∃ tr₁ tr₂ b b', tr = tr₁ ++ .deliver j :: tr₂ ∧ M.Run System.Any a₁ tr₁ b ∧ RejectedWith text j b (.deliver j) ∧
    M.step b (.deliver j) = some b' ∧ M.Run System.Any b' tr₂ a

/-- What a caller is promised whose request is answered 401 with `text`: stored tokens stay, nothing signs
the user out, and the request is rejected with that answer, or it is on its way. -/
structure Kept (M : System ClientState ClientEvent) (flow : Flow) (j : ℕ) (text : String) (a₁ : ClientState)
    (tr : List ClientEvent) (a : ClientState) : Prop where
  stored : holds a₁.device.keys = true → holds a.device.keys = true
  quiet : M.observe signouts a₁ tr = []
  settled : OnItsWay flow j a.device ∨ RejectedIn M j text a₁ tr a
  /-- When the call is over, it has been rejected. -/
  ended : (∀ t, a.device.task j = some t → t.pc = .done) → RejectedIn M j text a₁ tr a

/-- What `f` shows of the steps of the device. -/
def onDevice (f : Device → DeviceEvent → Option ℕ) (a : ClientState) (e : ClientEvent) : Option ℕ :=
  (a.deviceEvent e).bind (f a.device)

/-- The calls and requests under way in `a₁`, and those that start in the run. -/
def calls (M : System ClientState ClientEvent) (a₁ : ClientState) (tr : List ClientEvent) : ℕ :=
  a₁.device.underWay.length + (M.observe (onDevice Device.starts) a₁ tr).length

section
variable {svc : Services} {other : ℕ → Option String → ApiRequest} {a₀ a a' : ClientState} {e : ClientEvent}
  {users : List UserRow} {id : Uuid} {j : ℕ} {text : String} {tr : List ClientEvent}

theorem steady_step (h : Calm a.device) (hC : steady svc users id j a e = true)
    (hstep : (client svc other).step a e = some a') :
    Calm a'.device ∧ (holds a.device.keys = true → holds a'.device.keys = true) ∧ signouts a e = none := by
  rw [steady, Bool.and_eq_true] at hC
  obtain ⟨d, hd, hdevice, -⟩ | ⟨i, t, r, env, x, rfl, -, -, hdevice, -⟩ | ⟨r, env, x, rfl, hdevice, -⟩ :=
    step_cases hstep
  · obtain ⟨hworks, hspare⟩ : refreshWorks a.device d = true ∧ sparesTokens a.device d = true := by
      simpa [hd] using hC.1
    exact ⟨h.step hworks hdevice, h.keeps hworks hspare hdevice, by simp [signouts, hd, h.quiet hworks]⟩
  · rw [hdevice]
    exact ⟨h, fun hholds => hholds, rfl⟩
  · rw [hdevice]
    exact ⟨h, fun hholds => hholds, rfl⟩

/-- The server answers the request of `t` with this 401 whenever it is asked again. -/
def Again (svc : Services) (other : ℕ → Option String → ApiRequest) (users : List UserRow) (id : Uuid)
    (flow : Flow) (text : String) : Prop :=
  ∀ (a : ClientState) (j : ℕ) (t : Task) (r : ApiRequest) (env : NodeEnv) (x : ℕ → Tick),
    a.device.task j = some t → t.flow = flow → t.pc = .sent → request other t = some r →
    askedAgain svc users id j a (.serve j env x) = true →
    (serve svc a.server r env x).1 = failure 401 text

/-- Task `j` is on its way, and what is on its way to it is the 401, or the answer to its refresh. -/
structure Round (flow : Flow) (text : String) (j : ℕ) (a : ClientState) : Prop where
  calm : Calm a.device
  way : OnItsWay flow j a.device
  answer : ∀ t response, a.device.task j = some t → a.answer j = some response →
    (t.pc = .sent ∧ response = failure 401 text) ∨ ∃ presented, t.pc = .refreshSent presented

theorem answer_taken {d : DeviceEvent} {i : ℕ} {reply : Reply} (hd : a.deviceEvent e = some d)
    (hreply : d = .respond i reply) (hstep : (client svc other).step a e = some a') : a'.answer i = none := by
  have hself : ∀ reply, a.respond i reply = some a' → a'.answer i = none := by
    intro reply h
    rw [(respond_some h).2.2, Function.update_self]
  subst hreply
  cases e with
  | deliver k =>
    obtain ⟨response, hresponse, heq⟩ := Option.map_eq_some_iff.mp hd
    obtain ⟨rfl, -⟩ : k = i ∧ _ := by simpa using heq
    obtain ⟨response', -, h⟩ := Option.bind_eq_some_iff.mp hstep
    exact hself _ h
  | lose k =>
    obtain ⟨rfl, -⟩ : k = i ∧ _ := by simpa [ClientState.deviceEvent] using hd
    exact hself _ hstep
  | start flow | keychain k o | serve k env x | elsewhere r env x => simp [ClientState.deviceEvent] at hd

theorem task_of_answer {flow : Flow} {d : DeviceEvent} {u : Task} {response : Response}
    (h : Round flow text j a) (hd : a.deviceEvent e = some d)
    (hdevice : device.step a.device d = some a'.device)
    (hanswer : ∀ i response, a'.answer i = some response → a.answer i = some response)
    (hstep : (client svc other).step a e = some a') (hu : a'.device.task j = some u)
    (hresponse : a'.answer j = some response) : a.device.task j = some u := by
  obtain ⟨t, ht, -, -⟩ := h.way
  have hpc := h.answer t response ht (hanswer j response hresponse)
  have hsame : a'.device.task j = some t := by
    obtain ⟨flow, -, hs'⟩ | ⟨i, v, m, hi, hv, hm, hs'⟩ := Device.step_cases hdevice
    · rw [hs', Device.start_task_of_ne a.device (h.calm.sound.lt_next ht).ne, ht]
    · by_cases hji : j = i
      · subst hji
        obtain rfl := Option.some.inj (hv.symm.trans ht)
        cases hevent : d with
        | start flow => simp [hevent, DeviceEvent.task] at hi
        | keychain k o =>
          rcases hpc with ⟨hpc, -⟩ | ⟨presented, hpc⟩ <;>
            simp [hevent, Device.turn, Device.keychain, hpc] at hm
        | respond k reply =>
          obtain rfl : k = j := by simpa [hevent, DeviceEvent.task] using hi
          rw [answer_taken hd hevent hstep] at hresponse
          cases hresponse
      · rw [hs', Device.apply_task_of_ne h.calm.sound ht hji m, if_neg]
        intro hqueued
        have hwaiting := h.calm.sound.pc_of_mem ht hqueued
        rcases hpc with ⟨hpc, -⟩ | ⟨presented, hpc⟩ <;> simp [hwaiting] at hpc
  rw [← hu, hsame, ht]

theorem Round.step {flow : Flow} (hagain : Again svc other users id flow text) (h : Round flow text j a)
    (hC : steady svc users id j a e = true) (hstep : (client svc other).step a e = some a') :
    Round flow text j a' ∨ RejectedWith text j a e := by
  have hcalm := (steady_step h.calm hC hstep).1
  rw [steady, Bool.and_eq_true] at hC
  obtain ⟨d, hd, hdevice, -, hanswer⟩ | ⟨i, t, r, env, x, rfl, ht, hr, hdevice, -, hanswer⟩ |
    ⟨r, env, x, rfl, hdevice, hanswer, -⟩ := step_cases hstep
  · obtain ⟨hworks, -⟩ : refreshWorks a.device d = true ∧ sparesTokens a.device d = true := by
      simpa [hd] using hC.1
    have h401 : ∀ t reply', d = .respond j reply' → a.device.task j = some t → t.pc = .sent →
        e = .deliver j ∧ a.answer j = some (failure 401 text) ∧ reply' = reply (failure 401 text) := by
      rintro t reply' rfl ht hpc
      cases e with
      | deliver k =>
        obtain ⟨response, hresponse, heq⟩ := Option.map_eq_some_iff.mp hd
        obtain ⟨rfl, rfl⟩ : k = j ∧ reply response = reply' := by simpa using heq
        rcases h.answer t response ht hresponse with ⟨-, rfl⟩ | ⟨presented, hsent⟩
        · exact ⟨rfl, hresponse, rfl⟩
        · simp [hpc] at hsent
      | lose k =>
        obtain ⟨rfl, -⟩ : k = j ∧ _ := by simpa [ClientState.deviceEvent] using hd
        simp [askedAgain, ht, hpc] at hC
      | start flow | keychain k o | serve k env x | elsewhere r env x => simp [ClientState.deviceEvent] at hd
    rcases onItsWay_step h.calm h.way hworks (fun t reply' hreply ht hpc => ⟨none, (h401 t reply' hreply ht hpc).2.2⟩)
      hdevice with hway | ⟨t, data, hreply, ht, hpc, hturn⟩
    · exact .inl ⟨hcalm, hway, fun u response hu hresponse => h.answer u response
        (task_of_answer h hd hdevice hanswer hstep hu hresponse) (hanswer j response hresponse)⟩
    · obtain ⟨rfl, hresponse, hreply'⟩ := h401 t _ hreply ht hpc
      refine .inr ⟨rfl, hresponse, t, ht, ?_⟩
      rw [hreply, hreply'] at hturn
      exact hturn
  · refine .inl ⟨hcalm, hdevice ▸ h.way, fun u response hu hresponse => ?_⟩
    rw [hdevice] at hu
    rw [hanswer] at hresponse
    by_cases hji : j = i
    · subst hji
      obtain rfl := Option.some.inj (ht.symm.trans hu)
      rw [Function.update_self, Option.some.injEq] at hresponse
      obtain ⟨v, hv, hflow, -⟩ := h.way
      obtain rfl := Option.some.inj (ht.symm.trans hv)
      cases hpc : t.pc with
      | sent => exact .inl ⟨rfl, hresponse ▸ hagain a j t r env x ht hflow hpc hr hC.2⟩
      | refreshSent presented => exact .inr ⟨presented, rfl⟩
      | _ => simp [request, hpc] at hr
    · rw [Function.update_of_ne hji] at hresponse
      exact h.answer u response hu hresponse
  · exact .inl ⟨hcalm, hdevice ▸ h.way, fun t response ht hresponse =>
      h.answer t response (hdevice ▸ ht) (hanswer ▸ hresponse)⟩

end

/-! ### A wrong password -/

end Locus.App
