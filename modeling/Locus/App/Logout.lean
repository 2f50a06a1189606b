import Locus.App.Client

/-!
# What a logout leaves on the server

`POST /auth/logout` deletes the refresh token of its body. `authStore.logout` posts no body, so the server
answers 200 and deletes nothing: behind a logout the stored refresh token has its row exactly if it had one
before (`logout_revokes_iff`), and `POST /auth/refresh` still gives out new tokens for it.

Proof. The logout is one task of the device, which reads its tokens, awaits the answer and clears the
Keychain (`LoggingOut`); the one request that it has out is handled without a statement.
-/

namespace Locus.App

open Lib Server Mobile

/-- The refresh token has no row. -/
def Revoked (db : Db) (token : String) : Prop := ∀ row ∈ db.refreshTokens, row.token ≠ token

/-- An event of task `i`, or a request from elsewhere that leaves the row of the token as it is. -/
def duringLogout (svc : Services) (i : ℕ) (token : String) (a : ClientState) : ClientEvent → Prop
  | .keychain j _ | .serve j .. | .deliver j | .lose j => j = i
  | .elsewhere r env x => ∀ row : RefreshTokenRow, row.token = token →
      (row ∈ (serve svc a.server r env x).2.db.refreshTokens ↔ row ∈ a.server.db.refreshTokens)
  | .start _ => False

/-- Where a `logout` is whose request is not answered 401. -/
def Pc.logsOut : Pc → Bool
  | .attach _ | .sent | .clearing _ | .done => true
  | _ => false

theorem logsOut_keychain {s : Device} {t : Task} {o : Outcome} {m : Move} (hflow : t.flow = .logout)
    (hpc : Pc.logsOut t.pc = true) (h : s.keychain t o = some m) :
    m.task.flow = .logout ∧ Pc.logsOut m.task.pc = true := by
  cases Device.keychain_cases h with
  | attach c hat =>
    rcases Device.readBack_cases s c o (fun c => { t with pc := .attach c }) (fun s => s.attachRead t) with
      ⟨keys, -, hm⟩ | ⟨keys, tokens, -, hm⟩ <;> rw [hm]
    · exact ⟨hflow, rfl⟩
    · unfold Device.attachRead
      split
      · split <;> exact ⟨hflow, rfl⟩
      · exact ⟨hflow, rfl⟩
  | clearing error hat => exact ⟨hflow, rfl⟩
  | _ => simp_all [Pc.logsOut]

theorem logsOut_respond {s : Device} {t : Task} {reply : Reply} {m : Move} (hflow : t.flow = .logout)
    (hpc : Pc.logsOut t.pc = true) (hreply : reply = .lost ∨ reply = .answer 200 none)
    (h : s.respond t reply = some m) : m.task.flow = .logout ∧ Pc.logsOut m.task.pc = true := by
  cases Device.respond_cases h with
  | lost hat => exact ⟨hflow, by simp [Device.reject, Device.move, Device.caught, hflow, Pc.logsOut]⟩
  | resolved status data hat h2xx =>
    exact ⟨by simp [Device.resolve, Device.move, hflow], by simp [Device.resolve, Device.move, hflow, Pc.logsOut]⟩
  | _ => simp_all [Pc.logsOut]

/-- The logout is task `i`, the answer to it is a 200, and the row of the token is as it was. -/
structure LoggingOut (i : ℕ) (token : String) (db : Db) (a : ClientState) : Prop where
  sound : a.device.Sound
  task : ∃ t, a.device.task i = some t ∧ t.flow = .logout ∧ Pc.logsOut t.pc = true
  answer : ∀ response, a.answer i = some response → response = ⟨200, .success⟩
  row : ∀ row : RefreshTokenRow, row.token = token →
    (row ∈ a.server.db.refreshTokens ↔ row ∈ db.refreshTokens)

variable {svc : Services} {other : ℕ → Option String → ApiRequest} {a a' : ClientState} {e : ClientEvent}

theorem LoggingOut.step {i : ℕ} {token : String} {db : Db} (h : LoggingOut i token db a)
    (hC : duringLogout svc i token a e) (hstep : (client svc other).step a e = some a') :
    LoggingOut i token db a' := by
  obtain ⟨t, ht, hflow, hpc⟩ := h.task
  obtain ⟨d, hd, hdevice, hserver, hanswer⟩ | ⟨j, u, r, env, x, rfl, hu, hr, hdevice, hserver, hanswer⟩ |
    ⟨r, env, x, rfl, hdevice, hanswer, hserver⟩ := step_cases hstep
  · -- a step of the task on the device
    refine ⟨h.sound.step hdevice, ?_, fun response hresponse => h.answer response (hanswer i response hresponse),
      by rw [hserver]; exact h.row⟩
    obtain ⟨flow, rfl, -⟩ | ⟨j, u, m, hj, hu, hm, hs'⟩ := Device.step_cases hdevice
    · cases e <;> simp [ClientState.deviceEvent] at hd
      exact hC.elim
    · have hturn : j = i ∧ (m.task.flow = .logout ∧ Pc.logsOut m.task.pc = true) := by
        cases e with
        | keychain k o =>
          obtain rfl := Option.some.inj hd
          obtain rfl := Option.some.inj hj
          obtain rfl : k = i := hC
          obtain rfl := Option.some.inj (hu.symm.trans ht)
          exact ⟨rfl, logsOut_keychain hflow hpc hm⟩
        | deliver k =>
          obtain ⟨response, hresponse, rfl⟩ := Option.map_eq_some_iff.mp hd
          obtain rfl := Option.some.inj hj
          obtain rfl : k = i := hC
          obtain rfl := Option.some.inj (hu.symm.trans ht)
          obtain rfl := h.answer response hresponse
          exact ⟨rfl, logsOut_respond hflow hpc (.inr rfl) hm⟩
        | lose k =>
          obtain rfl := Option.some.inj hd
          obtain rfl := Option.some.inj hj
          obtain rfl : k = i := hC
          obtain rfl := Option.some.inj (hu.symm.trans ht)
          exact ⟨rfl, logsOut_respond hflow hpc (.inl rfl) hm⟩
        | start flow => exact hC.elim
        | serve k env x => cases hd
        | elsewhere r env x => cases hd
      obtain ⟨rfl, hmflow, hmpc⟩ := hturn
      refine ⟨m.task, ?_, hmflow, hmpc⟩
      rw [hs']
      exact Device.apply_task_self h.sound hu m
  · -- the server handles the request without a statement
    obtain rfl : j = i := hC
    obtain rfl := Option.some.inj (hu.symm.trans ht)
    have hreq : r = .postAuthLogout (.obj []) := by
      unfold request at hr
      cases hat : u.pc <;> simp_all [Pc.logsOut]
    subst hreq
    refine ⟨hdevice ▸ h.sound, ⟨u, by rw [hdevice]; exact ht, hflow, hpc⟩, fun response hresponse => ?_, ?_⟩
    · rw [hanswer, Function.update_self] at hresponse
      cases hresponse
      rfl
    · rw [hserver]
      exact h.row
  · refine ⟨hdevice ▸ h.sound, ⟨t, by rw [hdevice]; exact ht, hflow, hpc⟩, by rw [hanswer]; exact h.answer,
      fun row hrow => ?_⟩
    rw [hserver]
    exact (hC row hrow).trans (h.row row hrow)

/-- **A logout revokes nothing**: whenever `logout` is called, a refresh token, the stored one as any other,
has no row while the logout runs and behind it exactly if it had none before. -/
theorem logout_revokes_iff {C : ClientState → ClientEvent → Prop} {a₀ a₁ a : ClientState}
    {tr : List ClientEvent} {token : String} (h₀ : (client svc other).Reachable C a₀)
    (hlogout : (client svc other).step a₀ (.start .logout) = some a₁)
    (hrun : (client svc other).Run (duringLogout svc a₀.device.next token) a₁ tr a) :
    Revoked a.server.db token ↔ Revoked a₀.server.db token := by
  have hsound := sound_of_reachable h₀
  have hstart : LoggingOut a₀.device.next token a₀.server.db a₁ := by
    simp only [client, Option.map_eq_some_iff] at hlogout
    obtain ⟨d, hd, rfl⟩ := hlogout
    refine ⟨hsound.step hd, ⟨{ flow := .logout, pc := .attach .get }, ?_, rfl, rfl⟩, fun response h => ?_,
      fun row _ => Iff.rfl⟩
    · obtain rfl := Option.some.inj hd
      simp [Device.start, Device.entry]
    · exact absurd (answered_lt h₀ _ response h) (lt_irrefl _)
  have hend := hrun.invariant (LoggingOut a₀.device.next token a₀.server.db) hstart
    fun a e a' ha hC hstep => ha.step hC hstep
  exact forall_congr' fun row => ⟨fun h hrow htoken => h ((hend.row row htoken).mpr hrow) htoken,
    fun h hrow htoken => h ((hend.row row htoken).mp hrow) htoken⟩

/-! ### A session that outlives its logout -/

/-- The app's other requests: `GET /auth/me`. -/
def me (_ : ℕ) (header : Option String) : ApiRequest := .getAuthMe header

def freshApp : ClientState := { device := {} }

/-- Ana registers elsewhere and logs in on the device. -/
def anaLogsIn : List ClientEvent :=
  [.elsewhere (.postAuthRegister (credentials "ana@x.org" "password")) ⟨0, "r0", 0⟩ fun n => { uuid := n + 1 },
    .start (.login "ana@x.org" "password"), .keychain 0 .ok,
    .serve 0 ⟨1, "r1", 0⟩ fun n => { now := 1, uuid := n + 10 }, .deliver 0, .keychain 0 .ok]

/-- Her logout, task 1 of the device: it reads its tokens, is answered, and clears the Keychain. -/
def anaLogsOut : List ClientEvent :=
  [.keychain 1 .ok, .serve 1 ⟨2, "r2", 0⟩ fun _ => { now := 2 }, .deliver 1, .keychain 1 .ok]

def ofTaskOne (_ : ClientState) : ClientEvent → Bool
  | .keychain j _ | .serve j .. | .deliver j => j = 1
  | _ => false

/-- The logout has resolved, the tokens `r0` and `r1` have their rows, and a refresh with `r1` is answered
200. -/
def outlived (a : ClientState) : Bool :=
  (a.device.task 1).map (·.pc) = some .done && !a.device.auth.isAuthenticated &&
    a.server.db.refreshTokens.map (·.token) = ["r0", "r1"] &&
    (serve plainServices a.server (.postAuthRefresh (refreshBody "r1")) ⟨3, "r3", 0⟩ fun n =>
      { now := 3, uuid := n + 20 }).1.status = 200

theorem logout_run : ∃ a₀ a₁ a : ClientState, (client plainServices me).Reachable (fun _ _ => true) a₀ ∧
    a₀.device.next = 1 ∧ a₀.device.keys.item = some ⟨"1.1.ana@x.org", "r1"⟩ ∧
    (client plainServices me).step a₀ (.start .logout) = some a₁ ∧
    (client plainServices me).Run (fun a e => ofTaskOne a e) a₁ anaLogsOut a ∧ outlived a = true := by
  have h : ((client plainServices me).exec (fun _ _ => true) freshApp anaLogsIn).map (fun a₀ =>
      ((client plainServices me).step a₀ (.start .logout)).map fun a₁ =>
        ((client plainServices me).exec ofTaskOne a₁ anaLogsOut).map fun a =>
          (a₀.device.next, a₀.device.keys.item, outlived a)) =
      some (some (some (1, some ⟨"1.1.ana@x.org", "r1"⟩, true))) := by
    decide +kernel
  obtain ⟨a₀, h₀, h₁⟩ := System.reachable_of_exec (client plainServices me) (fun _ _ => true) _ _
    ⟨⟨none, rfl⟩, rfl, fun _ => rfl⟩ h
  obtain ⟨a₁, hstep, h₂⟩ := Option.map_eq_some_iff.mp h₁
  obtain ⟨a, hexec, h₃⟩ := Option.map_eq_some_iff.mp h₂
  obtain ⟨hnext, hitem, hout⟩ : _ ∧ _ ∧ _ := by simpa only [Prod.mk.injEq] using h₃
  exact ⟨a₀, a₁, a, by simpa using h₀, hnext, hitem, hstep, .of_exec hexec, hout⟩

theorem duringLogout_of_task {token : String} {a : ClientState} {e : ClientEvent} (h : ofTaskOne a e = true) :
    duringLogout plainServices 1 token a e := by
  cases e <;> simp_all [ofTaskOne, duringLogout]

/-- Ana's stored token. -/
theorem logout_revokes_iff_run : ∃ a₀ a : ClientState, a₀.device.keys.item = some ⟨"1.1.ana@x.org", "r1"⟩ ∧
    (Revoked a.server.db "r1" ↔ Revoked a₀.server.db "r1") := by
  obtain ⟨a₀, a₁, a, h₀, hnext, hitem, hstep, hrun, -⟩ := logout_run
  refine ⟨a₀, a, hitem, logout_revokes_iff h₀ hstep (hrun.mono fun a e h => ?_)⟩
  rw [hnext]
  exact duringLogout_of_task h

/-- **The session outlives the logout**: the stored refresh token has its row when `logout` has resolved, and
`POST /auth/refresh` answers 200 to it. -/
theorem session_outlives_logout : ∃ (a₀ a₁ a : ClientState) (tr : List ClientEvent) (p : Tokens),
    (client plainServices me).Reachable (fun _ _ => true) a₀ ∧ a₀.device.keys.item = some p ∧
    (client plainServices me).step a₀ (.start .logout) = some a₁ ∧
    (client plainServices me).Run (fun a e => ofTaskOne a e) a₁ tr a ∧
    (a.device.task 1).map (·.pc) = some .done ∧ a.device.auth.isAuthenticated = false ∧
    ¬ Revoked a.server.db p.refreshToken ∧ ∃ env x,
      (serve plainServices a.server (.postAuthRefresh (refreshBody p.refreshToken)) env x).1.status = 200 := by
  obtain ⟨a₀, a₁, a, h₀, -, hitem, hstep, hrun, hout⟩ := logout_run
  simp only [outlived, Bool.and_eq_true, decide_eq_true_eq, Bool.not_eq_true'] at hout
  obtain ⟨⟨⟨hpc, hauth⟩, htokens⟩, hstatus⟩ := hout
  refine ⟨a₀, a₁, a, _, _, h₀, hitem, hstep, hrun, hpc, hauth, fun hrevoked => ?_, _, _, hstatus⟩
  have hmem : "r1" ∈ a.server.db.refreshTokens.map (·.token) := by simp [htokens]
  obtain ⟨row, hrow, htoken⟩ := List.mem_map.mp hmem
  exact hrevoked row hrow htoken

end Locus.App
