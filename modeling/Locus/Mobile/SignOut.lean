import Locus.Mobile.Sessions

/-!
# What signs a user out

`loadUser` and the response interceptor clear the stored tokens in a `catch` that does not look at the
error, so a network error or a 5xx on `GET /auth/me` or on `POST /auth/refresh` ends the session as a
rejection does (`lost_answer_signs_out`). When these two requests are answered one way or the other
(`answersFirmly`), the tokens are cleared, and the store is signed out over stored tokens, only behind a
rejection by the server (`signed_out_only_if_rejected`).

Until there is a rejection, either tokens are stored and nothing is about to clear them, or none are stored
and nothing is about to store any (`Device.InSession`).
-/

namespace Locus.Mobile

open Lib

/-- `loadUser` or another request starts; `login`, `register` and a `logout` of the user do not. -/
def DeviceEvent.loads : DeviceEvent → Bool
  | .start .loadUser | .start (.other _) => true
  | .start _ => false
  | _ => true

namespace Device

/-- `POST /auth/refresh` is answered 200 with a pair, or 400 or 401, and `GET /auth/me` is answered 200 or
401. -/
def answersFirmly (s : Device) : DeviceEvent → Bool
  | .respond i reply => (s.task i).all fun t =>
    match t.pc, t.flow, reply with
    | .refreshSent _, _, .answer status data =>
      if 200 ≤ status ∧ status < 300 then data.any fun data => data.tokens.any (·.usable)
      else status = 400 || status = 401
    | .refreshSent _, _, .lost => false
    | .sent, .loadUser, .answer status _ => (200 ≤ status ∧ status < 300) || status = 401
    | .sent, .loadUser, .lost => false
    | _, _, _ => true
  | _ => true

def SignsOut (s s' : Device) : Prop :=
  s.keys.item ≠ none ∧ (s'.keys.item = none ∨
    (s.auth.isAuthenticated = true ∧ s'.auth.isAuthenticated = false))

/-- The server rejects the session: it answers 400 or 401 to `POST /auth/refresh` with the stored refresh
token, or 401 to a `GET /auth/me` that is sent again behind a refresh. -/
def Rejection (s : Device) (e : DeviceEvent) : Prop :=
  ∃ i t status data, e = .respond i (.answer status data) ∧ s.task i = some t ∧
    ((∃ p, t.pc = .refreshSent p.refreshToken ∧ s.keys.item = some p ∧ (status = 400 ∨ status = 401)) ∨
      (t.flow = .loadUser ∧ t.pc = .sent ∧ t.retry = true ∧ status = 401))

def Rejected (s₀ : Device) (tr : List DeviceEvent) : Prop :=
  ∃ tr₁ e tr₂ s, tr = tr₁ ++ e :: tr₂ ∧ device.Run System.Any s₀ tr₁ s ∧ s.Rejection e

end Device

/-! ### In session -/

/-- The flows in session; a `logout` comes from a `signout`. -/
def Task.Flows (item : Option Tokens) (t : Task) : Prop :=
  match t.flow with
  | .loadUser | .other _ => True
  | .logout => item = none
  | .login .. | .register .. => False

/-- What a task may be at while the session is not rejected: with tokens stored it clears nothing, and with
none stored it stores nothing. -/
def Task.Allowed (item : Option Tokens) (t : Task) : Prop := t.Flows item ∧
  match t.pc with
  | .boot c | .attach c | .refreshRead c => c = .get
  | .sent | .queued | .done => True
  | .refreshSent presented => ∃ p, item = some p ∧ p.refreshToken = presented
  | .refreshSave _ p => item ≠ none ∧ p.usable
  | .refreshClear _ | .clearing _ => item = none
  | _ => False

structure Device.InSession (s : Device) : Prop where
  sound : s.Sound
  plain : s.keys.Plain
  allowed : ∀ i t, s.task i = some t → t.Allowed s.keys.item

/-- A move keeps the session: it replaces the tokens as part of a refresh, or leaves them. -/
structure Keeps (s : Device) (t : Task) (m : Move) : Prop where
  plain : m.keys.Plain
  task : m.task.Allowed m.keys.item
  item : m.keys.item = s.keys.item ∨ (t.pc.role = .leading ∧ s.keys.item ≠ none ∧ m.keys.item ≠ none)
  auth : m.auth.isAuthenticated = s.auth.isAuthenticated ∨ m.auth.isAuthenticated = true ∨
    s.keys.item = none
  ends : m.signout = true ∨ (∃ error, m.queue = .reject error) → m.keys.item = none

section
variable {s : Device} {t : Task} {m : Move}

theorem Keeps.quiet (hplain : s.keys.Plain) (htask : m.task.Allowed s.keys.item) (hkeys : m.keys = s.keys)
    (hauth : m.auth.isAuthenticated = s.auth.isAuthenticated)
    (hends : m.signout = true ∨ (∃ error, m.queue = .reject error) → s.keys.item = none) :
    Keeps s t m := by
  refine ⟨by rw [hkeys]; exact hplain, by rw [hkeys]; exact htask, .inl (by rw [hkeys]), .inl hauth, ?_⟩
  rw [hkeys]
  exact hends

theorem keeps_reject (hplain : s.keys.Plain) (hflow : t.Flows s.keys.item) (error : ApiError)
    (hclears : t.flow = .loadUser → s.keys.item = none) : Keeps s t (s.reject t error) := by
  refine .quiet hplain ⟨hflow, ?_⟩ ?_ rfl (by simp [Device.reject, Device.move])
  · unfold Task.Flows at hflow
    cases hf : t.flow <;> simp_all [Device.reject, Device.caught, Device.move]
  · rcases reject_keys s t error with hkeys | hkeys
    · exact hkeys
    · exact hkeys.trans hplain.beginClear

theorem keeps_refreshFail (hplain : s.keys.Plain) (hflow : t.Flows s.keys.item) (error : ApiError)
    (hnone : s.keys.item = none) : Keeps s t (s.refreshFail t error) :=
  .quiet hplain ⟨hflow, hnone⟩ hplain.beginClear rfl fun _ => hnone

theorem keeps_bootRead (hplain : s.keys.Plain) (hflow : t.Flows s.keys.item) :
    Keeps s t (s.bootRead t s.keys.item) := by
  unfold Device.bootRead
  split
  · exact .quiet hplain ⟨hflow, rfl⟩ rfl rfl (by simp [Device.move])
  · -- a stored pair is not blank, so there is none
    rename_i hblank
    have hnone : s.keys.item = none := by
      cases hitem : s.keys.item with
      | none => rfl
      | some p =>
        have husable := hplain.usable p hitem
        rw [Tokens.usable, Bool.and_eq_true] at husable
        simp only [hitem, Option.any_some] at hblank
        exact absurd husable.2 hblank
    exact ⟨hplain, ⟨hflow, trivial⟩, .inl rfl, .inr (.inr hnone), fun _ => hnone⟩

theorem keeps_attachRead (hplain : s.keys.Plain) (hflow : t.Flows s.keys.item) (tokens : Option Tokens) :
    Keeps s t (s.attachRead t tokens) := by
  unfold Device.attachRead
  split
  · split <;> exact .quiet hplain ⟨hflow, trivial⟩ rfl rfl (by simp [Device.move])
  · exact .quiet hplain ⟨hflow, trivial⟩ rfl rfl (by simp [Device.move])

theorem keeps_refreshReadDone (hplain : s.keys.Plain) (hflow : t.Flows s.keys.item) :
    Keeps s t (s.refreshReadDone t s.keys.item) := by
  unfold Device.refreshReadDone
  split
  · rename_i p hitem
    split
    · exact .quiet hplain ⟨hflow, p, hitem, rfl⟩ rfl rfl (by simp [Device.move])
    · -- a stored pair is not empty
      rename_i hempty
      have husable := hplain.usable p hitem
      simp [Tokens.usable, Tokens.valid, not_not.mp hempty] at husable
  · rename_i hnone
    exact keeps_refreshFail hplain hflow _ hnone

theorem Task.Flows.of_some {item item' : Option Tokens} (h : t.Flows item) (hsome : item ≠ none) :
    t.Flows item' := by
  unfold Task.Flows at h ⊢
  split <;> rename_i hflow <;> simp only [hflow] at h
  · trivial
  · trivial
  · exact absurd h hsome

theorem reset_of_none {keys : KeyStore} (h : keys.item = none) (o : Outcome) : keys.reset o = keys := by
  unfold KeyStore.reset
  split
  · rw [← h]
  · rfl

theorem keeps_keychain (hplain : s.keys.Plain) (ht : t.Allowed s.keys.item)
    (hm : s.keychain t .ok = some m) : Keeps s t m := by
  obtain ⟨hflow, hat⟩ := ht
  cases Device.keychain_cases hm with
  | boot c hpc =>
    simp only [hpc] at hat
    subst hat
    rw [readBack_ok hplain]
    exact keeps_bootRead hplain hflow
  | attach c hpc =>
    simp only [hpc] at hat
    subst hat
    rw [readBack_ok hplain]
    exact keeps_attachRead hplain hflow _
  | refreshRead c hpc =>
    simp only [hpc] at hat
    subst hat
    rw [readBack_ok hplain]
    exact keeps_refreshReadDone hplain hflow
  | verifying c expected user hpc => simp [hpc] at hat
  | refreshSave presented p hpc =>
    -- the refreshed pair replaces the stored one
    simp only [hpc] at hat
    obtain ⟨hsome, husable⟩ := hat
    refine ⟨⟨rfl, fun q hq => ?_⟩, ⟨hflow.of_some hsome, rfl⟩, .inr ⟨by rw [hpc]; rfl, hsome, ?_⟩,
      .inl rfl, by simp [Device.refreshDone, Device.move]⟩
    · obtain rfl := Option.some.inj hq
      exact husable
    · simp [Device.refreshDone, Device.move, KeyCall.answer]
  | saving tokens user hpc => simp [hpc] at hat
  | refreshClear error hpc =>
    simp only [hpc] at hat
    rw [reset_of_none hat]
    have hreject := keeps_reject hplain hflow error fun _ => hat
    have hitem : (s.reject t error).keys.item = none := by
      rcases hreject.item with hsame | ⟨-, hsome, -⟩
      · exact hsame.trans hat
      · exact absurd hat hsome
    exact ⟨hreject.plain, hreject.task, hreject.item, hreject.auth, fun _ => hitem⟩
  | verifyClear hpc => simp [hpc] at hat
  | clearing error hpc =>
    simp only [hpc] at hat
    rw [reset_of_none hat]
    exact ⟨hplain, ⟨hflow, trivial⟩, .inl rfl, .inr (.inr hat), fun _ => hat⟩

theorem keeps_resolve (hplain : s.keys.Plain) (hflow : t.Flows s.keys.item) (data : Option Payload) :
    Keeps s t (s.resolve t data) := by
  have hallowed := hflow
  unfold Task.Flows at hallowed
  unfold Device.resolve
  split
  case h_1 hf | h_2 hf => simp [hf] at hallowed
  case h_3 hf =>
    -- only behind a `signout`, when nothing is stored
    simp only [hf] at hallowed
    exact .quiet hplain ⟨hflow, hallowed⟩ hplain.beginClear rfl fun _ => hallowed
  case h_4 =>
    refine ⟨hplain, ⟨hflow, trivial⟩, .inl rfl, .inr (.inl rfl), ?_⟩
    simp [Device.signIn, Device.move]
  case h_5 => exact .quiet hplain ⟨hflow, trivial⟩ rfl rfl (by simp [Device.move])

theorem keeps_respond {i : ℕ} {reply : Reply} (hplain : s.keys.Plain) (ht : s.task i = some t)
    (hallowed : t.Allowed s.keys.item) (hC : s.answersFirmly (.respond i reply))
    (hm : s.respond t reply = some m) : Keeps s t m ∨ s.Rejection (.respond i reply) := by
  obtain ⟨hflow, hat⟩ := hallowed
  simp only [Device.answersFirmly, ht, Option.all_some] at hC
  cases Device.respond_cases hm with
  | lost hpc =>
    refine .inl (keeps_reject hplain hflow _ fun hload => ?_)
    simp [hpc, hload] at hC
  | resolved status data hpc h2xx => exact .inl (keeps_resolve hplain hflow data)
  | rejected status data hpc h2xx hstatus =>
    by_cases hload : t.flow = .loadUser
    · -- `GET /auth/me` is answered 401 again
      have h401 : status = 401 := by simpa [hpc, hload, h2xx] using hC
      have hretry : t.retry = true := by simpa [h401] using hstatus
      exact .inr ⟨i, t, status, data, rfl, ht, .inr ⟨hload, hpc, hretry, h401⟩⟩
    · exact .inl (keeps_reject hplain hflow _ fun h => absurd h hload)
  | queued data hpc hretry hflag =>
    exact .inl (.quiet hplain ⟨hflow, trivial⟩ rfl rfl (by simp [Device.move]))
  | leads data hpc hretry hflag => exact .inl (.quiet hplain ⟨hflow, rfl⟩ rfl rfl (by simp [Device.move]))
  | refreshLost presented hpc => simp [hpc] at hC
  | refreshRejected presented status data hpc h2xx =>
    simp only [hpc] at hat
    obtain ⟨p, hitem, rfl⟩ := hat
    have hstatus : status = 400 ∨ status = 401 := by simpa [hpc, h2xx] using hC
    exact .inr ⟨i, t, status, data, rfl, ht, .inl ⟨p, hpc, hitem, hstatus⟩⟩
  | refreshEmpty presented status hpc h2xx => simp [hpc, h2xx] at hC
  | refreshed presented status data tokens hpc h2xx htokens hvalid =>
    simp only [hpc] at hat
    obtain ⟨p, hitem, rfl⟩ := hat
    have husable : tokens.usable = true := by simpa [hpc, h2xx, htokens] using hC
    refine .inl (.quiet hplain ⟨hflow, ?_⟩ rfl rfl (by simp [Device.move]))
    exact ⟨by simp [hitem], husable⟩
  | unsaved presented status data hpc h2xx hinvalid =>
    obtain ⟨tokens, htokens, husable⟩ : ∃ tokens, data.tokens = some tokens ∧ tokens.usable = true := by
      simpa [hpc, h2xx, Option.any_eq_true] using hC
    rw [Tokens.usable, Bool.and_eq_true] at husable
    simp [htokens, husable.1] at hinvalid

end

theorem Task.Allowed.beside {item item' : Option Tokens} {t : Task} (h : t.Allowed item)
    (hitem : item' = item ∨ (t.pc.role ≠ .leading ∧ item ≠ none)) : t.Allowed item' := by
  rcases hitem with rfl | ⟨hrole, hsome⟩
  · exact h
  · refine ⟨h.1.of_some hsome, ?_⟩
    have hat := h.2
    cases hpc : t.pc <;> simp_all [Pc.role]

theorem settle_allowed {item : Option Tokens} {t : Task} {op : QueueOp} (h : t.Allowed item)
    (hends : (∃ error, op = .reject error) → item = none) :
    (Device.settle op t).Allowed item := by
  cases op with
  | keep | push => exact h
  | resolve token => exact ⟨h.1, rfl⟩
  | reject error =>
    have hnone := hends ⟨error, rfl⟩
    have hflow := h.1
    refine ⟨h.1, ?_⟩
    cases hf : t.flow <;> simp_all [Device.settle, Device.caught]

/-- **In session**: a step keeps the session and does not sign out, or the server rejects the session. -/
theorem Device.InSession.step {s s' : Device} {e : DeviceEvent} (h : s.InSession) (hloads : e.loads)
    (hworks : e.keychainWorks) (hC : s.answersFirmly e) (hstep : device.step s e = some s') :
    (s'.InSession ∧ ¬ s.SignsOut s') ∨ s.Rejection e := by
  have hsound := h.sound.step hstep
  obtain ⟨flow, rfl, rfl⟩ | ⟨i, t, m, he, ht, hm, rfl⟩ := step_cases hstep
  · refine .inl ⟨⟨hsound, h.plain, fun j u hu => ?_⟩, ?_⟩
    · rcases start_task_cases hu with hu | ⟨-, rfl⟩
      · exact h.allowed j u hu
      · cases flow <;> first | exact ⟨trivial, rfl⟩ | cases hloads
    · rintro ⟨hsome, hnone | ⟨htrue, hfalse⟩⟩
      · exact hsome hnone
      · exact absurd (htrue.symm.trans hfalse) (by decide)
  have hkeeps : Keeps s t m ∨ s.Rejection e := by
    cases e with
    | start flow => cases he
    | keychain j o =>
      obtain rfl : o = .ok := of_decide_eq_true hworks
      exact .inl (keeps_keychain h.plain (h.allowed i t ht) hm)
    | respond j reply =>
      obtain rfl := Option.some.inj he
      exact keeps_respond h.plain ht (h.allowed j t ht) hC hm
  refine hkeeps.imp_left fun hkeeps => ?_
  have hkeys := apply_keys s i m
  -- a single task refreshes
  have hbeside : ∀ j u, j ≠ i → s.task j = some u → u.Allowed m.keys.item := by
    intro j u hji hu
    refine (h.allowed j u hu).beside ?_
    rcases hkeeps.item with hsame | ⟨hrole, hsome, -⟩
    · exact .inl hsame
    · refine .inr ⟨fun hrole' => hji ?_, hsome⟩
      exact h.sound.flight.one j i (by simp [flight, role_of_task hu, hrole'])
        (by simp [flight, role_of_task ht, hrole])
  refine ⟨⟨hsound, hkeys ▸ hkeeps.plain, fun j u hu => ?_⟩, ?_⟩
  · rw [hkeys]
    rcases apply_task_cases h.sound ht hu with ⟨-, rfl⟩ | ⟨v, hv, hji, rfl⟩ | ⟨hsignout, -, rfl⟩
    · exact hkeeps.task
    · have hallowed := hbeside j v hji hv
      split
      · exact settle_allowed hallowed fun herror => hkeeps.ends (.inr herror)
      · exact hallowed
    · exact ⟨hkeeps.ends (.inl hsignout), rfl⟩
  · rintro ⟨hsome, hnone | ⟨htrue, hfalse⟩⟩
    · rw [hkeys] at hnone
      rcases hkeeps.item with hsame | ⟨-, -, hsome'⟩
      · exact hsome (hsame.symm.trans hnone)
      · exact hsome' hnone
    · rw [apply_isAuthenticated] at hfalse
      rcases hkeeps.auth with hsame | htrue' | hnone
      · exact absurd (htrue.symm.trans (hsame.symm.trans hfalse)) (by decide)
      · exact absurd (htrue'.symm.trans hfalse) (by decide)
      · exact hsome hnone

/-! ### Every run -/

def Device.StartsWith (item : Option Tokens) (s : Device) : Prop :=
  s = { keys := { item } } ∧ ∀ p, item = some p → p.usable

theorem Device.InSession.init {item : Option Tokens} {s : Device} (h : s.StartsWith item) : s.InSession := by
  obtain ⟨rfl, hitem⟩ := h
  exact ⟨.init ⟨item, rfl⟩, ⟨rfl, hitem⟩, fun i t ht => by cases ht⟩

/-- What happens in a run in session: `loadUser` and other requests, on a Keychain that works. -/
def Device.inSessionEvent (_ : Device) (e : DeviceEvent) : Bool := e.loads && e.keychainWorks

/-- **Signed out only if rejected**: when `GET /auth/me` and `POST /auth/refresh` are answered one way or the
other, a step that clears the stored tokens, or signs out over them, has a rejection by the server behind
it. -/
theorem signed_out_only_if_rejected {item : Option Tokens} {s₀ s s' : Device} {tr : List DeviceEvent}
    {e : DeviceEvent} (h₀ : s₀.StartsWith item)
    (hrun : device.Run (fun s e => s.inSessionEvent e && s.answersFirmly e) s₀ tr s)
    (hC : s.inSessionEvent e && s.answersFirmly e) (hstep : device.step s e = some s')
    (hout : s.SignsOut s') : Device.Rejected s₀ (tr ++ [e]) := by
  have hkeeps : ∀ s e s', s.InSession → (s.inSessionEvent e && s.answersFirmly e) = true →
      device.step s e = some s' → (s'.InSession ∧ ¬ s.SignsOut s') ∨ s.Rejection e := by
    intro s e s' hs hC hstep
    simp only [Device.inSessionEvent, Bool.and_eq_true] at hC
    exact hs.step hC.1.1 hC.1.2 hC.2 hstep
  have hany : ∀ {tr s}, device.Run (fun s e => s.inSessionEvent e && s.answersFirmly e) s₀ tr s →
      device.Run System.Any s₀ tr s := fun h => h.mono fun _ _ _ => trivial
  rcases hrun.until Device.InSession (fun s e _ => s.Rejection e) (.init h₀)
      fun s e s' hs hC hstep => (hkeeps s e s' hs hC hstep).imp_left And.left with
    hs | ⟨tr₁, e₁, tr₂, s₁, s₂, rfl, h₁, -, -, hreject, -⟩
  · rcases hkeeps s e s' hs hC hstep with ⟨-, hnot⟩ | hreject
    · exact absurd hout hnot
    · exact ⟨tr, e, [], s, rfl, hany hrun, hreject⟩
  · exact ⟨tr₁, e₁, tr₂ ++ [e], s₁, by simp, hany h₁, hreject⟩

theorem signsOut_run (c : Device → DeviceEvent → Bool) (tr : List DeviceEvent) (e : DeviceEvent)
    (h : ((device.exec c { keys := { item := some (pair "1") } } tr).bind fun s =>
      if c s e ∧ s.keys.item ≠ none then (device.step s e).map fun s' => s'.keys.item else none) =
        some none) :
    ∃ s₀ s s', s₀.StartsWith (some (pair "1")) ∧ device.Run (fun s e => c s e) s₀ tr s ∧ c s e ∧
      device.step s e = some s' ∧ s.SignsOut s' := by
  obtain ⟨s, hexec, h⟩ := Option.bind_eq_some_iff.mp h
  split at h
  swap
  · cases h
  rename_i hce
  obtain ⟨s', hstep, hitem⟩ := Option.map_eq_some_iff.mp h
  refine ⟨_, s, s', ⟨rfl, ?_⟩, .of_exec hexec, hce.1, hstep, hce.2, .inl hitem⟩
  rintro p ⟨rfl⟩
  decide +kernel

/-- `GET /auth/me` is answered 401, and `POST /auth/refresh` as well. -/
theorem signed_out_only_if_rejected_refresh :
    ∃ (s₀ s s' : Device) (tr : List DeviceEvent) (e : DeviceEvent), device.Run System.Any s₀ tr s ∧
      device.step s e = some s' ∧ s.SignsOut s' ∧ Device.Rejected s₀ (tr ++ [e]) := by
  obtain ⟨s₀, s, s', h₀, hrun, hC, hstep, hout⟩ := signsOut_run
    (fun s e => s.inSessionEvent e && s.answersFirmly e)
    [.start .loadUser, .keychain 0 .ok, .keychain 0 .ok, .respond 0 (.answer 401 none), .keychain 0 .ok,
      .respond 0 (.answer 401 none)] (.keychain 0 .ok) (by decide +kernel)
  exact ⟨s₀, s, s', _, _, hrun.mono fun _ _ _ => trivial, hstep, hout,
    signed_out_only_if_rejected h₀ hrun hC hstep hout⟩

/-- **A lost answer signs the user out**: `GET /auth/me` gets no answer, and the stored tokens are cleared
without any word of the server. -/
theorem lost_answer_signs_out :
    ¬ ∀ (item : Option Tokens) (s₀ s s' : Device) (tr : List DeviceEvent) (e : DeviceEvent),
        s₀.StartsWith item → device.Run (fun s e => s.inSessionEvent e) s₀ tr s → s.inSessionEvent e →
        device.step s e = some s' → s.SignsOut s' → Device.Rejected s₀ (tr ++ [e]) := by
  intro hclaim
  obtain ⟨s₀, s, s', h₀, hrun, hC, hstep, hout⟩ := signsOut_run Device.inSessionEvent
    [.start .loadUser, .keychain 0 .ok, .keychain 0 .ok, .respond 0 .lost] (.keychain 0 .ok)
    (by decide +kernel)
  obtain ⟨tr₁, e, tr₂, s₁, htr, -, i, t, status, data, rfl, -⟩ :=
    hclaim _ s₀ s s' _ _ h₀ hrun hC hstep hout
  have hmem : DeviceEvent.respond i (.answer status data) ∈ tr₁ ++ .respond i (.answer status data) :: tr₂ :=
    List.mem_append_right _ (.head _)
  rw [← htr] at hmem
  simp at hmem

end Locus.Mobile
