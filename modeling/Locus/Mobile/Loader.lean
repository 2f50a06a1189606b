import Locus.Mobile.Queue

/-!
# What the root navigator shows

`navigation/RootNavigator.tsx` shows a loader until `useAuthStore` is initialized and whenever it is loading, else the
app to who is signed in and the screens of `AuthNavigator` to who is not. `isLoading` is one flag for every call of
`login`, `register` and `loadUser`, and the calls overlap: each sets it at its start and unsets it at its own end.
So the loader may go while a call is still on, but it never stays behind the last one.
-/

namespace Locus.Mobile

open Lib

inductive Shown
  | loader
  | app
  | auth
deriving DecidableEq

/-- `RootNavigator` -/
def rootNavigator (a : AuthState) : Shown :=
  if !a.isInitialized || a.isLoading then .loader
  else if a.isAuthenticated then .app
  else .auth

/-- The flow that a call is of where it awaits the last `clearTokens()`, or `register`'s check of what is saved. -/
def Pc.Fits (flow : Flow) : Pc → Prop
  | .clearing _ => Device.stopsLoading flow = false
  | .verifying .. | .verifyClear => flow ≠ .loadUser
  | _ => True

namespace Device

/-! ### One move -/

/-- What a move of a task does to the flags of `useAuthStore` that `RootNavigator` reads. -/
structure Flags (s : Device) (t : Task) (m : Move) : Prop where
  flow : m.task.flow = t.flow
  fits : m.task.pc.Fits t.flow
  /-- Who has set `isLoading` and is done has unset it. -/
  loading : m.auth.isLoading = true → s.auth.isLoading = true ∧ (startsLoading t.flow = true → m.task.pc ≠ .done)
  initialized : s.auth.isInitialized = true → m.auth.isInitialized = true
  loaded : t.flow = .loadUser → m.task.pc = .done → m.auth.isInitialized = true
  signedIn : m.auth.isAuthenticated = true → s.auth.isAuthenticated = true ∨ m.auth.isInitialized = true

section
variable {s : Device} {t : Task}

theorem flags_of_auth {m : Move} (hflow : m.task.flow = t.flow) (hpc : m.task.pc ≠ .done)
    (hfits : m.task.pc.Fits t.flow) (hauth : m.auth = s.auth) : s.Flags t m where
  flow := hflow
  fits := hfits
  loading hloading := ⟨hauth ▸ hloading, fun _ => hpc⟩
  initialized hinit := hauth ▸ hinit
  loaded _ hdone := absurd hdone hpc
  signedIn hsigned := .inl (hauth ▸ hsigned)

theorem flags_signIn (user : Option UserId) : s.Flags t (s.signIn t user) where
  flow := rfl
  fits := trivial
  loading := nofun
  initialized _ := rfl
  loaded _ _ := rfl
  signedIn _ := .inr rfl

/-- The `catch` of a flow: `login` and `register` are done and unset `isLoading`, `loadUser` goes on to clear. -/
theorem flags_reject (error : ApiError) : s.Flags t (s.reject t error) where
  flow := rfl
  fits := by
    show (caught t.flow error).Fits t.flow
    cases t.flow <;> trivial
  loading hloading := by
    have hkeep : (s.auth.isLoading && !stopsLoading t.flow) = true := hloading
    simp only [Bool.and_eq_true, Bool.not_eq_true'] at hkeep
    refine ⟨hkeep.1, fun hstarts hdone => ?_⟩
    have hpc : caught t.flow error = .done := hdone
    cases hflow : t.flow <;> simp_all [caught, startsLoading, stopsLoading]
  initialized hinit := hinit
  loaded hflow hdone := by
    have hpc : caught t.flow error = .done := hdone
    simp [caught, hflow] at hpc
  signedIn hsigned := .inl hsigned

theorem flags_refreshFail (error : ApiError) : s.Flags t (s.refreshFail t error) :=
  flags_of_auth rfl nofun trivial rfl

theorem flags_saved (tokens : Option Tokens) (user : Option UserId) : s.Flags t (s.saved t tokens user) := by
  unfold saved
  split
  · rename_i hflow
    exact flags_of_auth rfl nofun (by rw [hflow]; exact nofun) rfl
  · exact flags_signIn user

theorem Flags.of_keys {keys : KeyStore} {m : Move} (h : { s with keys }.Flags t m) : s.Flags t m :=
  ⟨h.flow, h.fits, h.loading, h.initialized, h.loaded, h.signedIn⟩

theorem flags_readBack {c : KeyCall} {o : Outcome} {wait : KeyCall → Task} {k : Device → Option Tokens → Move}
    (hflow : (wait .getReset).flow = t.flow) (hpc : (wait .getReset).pc ≠ .done)
    (hfits : (wait .getReset).pc.Fits t.flow)
    (hk : ∀ keys tokens, { s with keys }.Flags t (k { s with keys } tokens)) :
    s.Flags t (s.readBack c o wait k) := by
  rcases readBack_cases s c o wait k with ⟨keys, -, hm⟩ | ⟨keys, tokens, -, hm⟩ <;> rw [hm]
  · exact flags_of_auth hflow hpc hfits rfl
  · exact (hk keys tokens).of_keys

theorem flags_cleared (hfits : stopsLoading t.flow = false) : s.Flags t (s.cleared t) := by
  cases hflow : t.flow <;> simp only [hflow, stopsLoading, reduceCtorEq] at hfits
  case loadUser =>
    exact ⟨rfl, trivial, fun hloading => by simp [cleared, hflow] at hloading, fun _ => by simp [cleared, hflow],
      fun _ _ => by simp [cleared, hflow], fun hsigned => by simp [cleared, hflow] at hsigned⟩
  all_goals  -- `logout`, and any other request
    exact ⟨rfl, trivial, fun hloading => ⟨by simpa [cleared, hflow] using hloading,
        fun hstarts => by simp [hflow, startsLoading] at hstarts⟩,
      fun hinit => by simpa [cleared, hflow] using hinit, fun hload => by simp [hflow] at hload,
      fun hsigned => by simp [cleared, hflow] at hsigned⟩

theorem flags_resolve (data : Option Payload) : s.Flags t (s.resolve t data) := by
  have hcases := resolve_cases (rfl : s.resolve t data = _)
  generalize s.resolve t data = m at hcases ⊢
  cases hcases with
  | noData hflow hdata => exact flags_reject _
  | saves payload tokens hflow hdata htokens hvalid => exact flags_of_auth rfl nofun trivial rfl
  | unsaved payload hflow hdata hinvalid => exact flags_saved _ _
  | logout hflow => exact flags_of_auth rfl nofun (by rw [hflow]; rfl) rfl
  | loadUser hflow => exact flags_signIn _
  | other id hflow =>
    exact ⟨rfl, trivial, fun hloading => ⟨hloading, fun hstarts => by simp [hflow, startsLoading] at hstarts⟩,
      fun hinit => hinit, fun hload => by simp [hflow] at hload, .inl⟩

theorem flags_respond {reply : Reply} {m : Move} (h : s.respond t reply = some m) : s.Flags t m := by
  cases respond_cases h with
  | lost hpc => exact flags_reject _
  | resolved status data hpc h2xx => exact flags_resolve data
  | rejected status data hpc h2xx hstatus => exact flags_reject _
  | queued data hpc hretry hflag => exact flags_of_auth rfl nofun trivial rfl
  | leads data hpc hretry hflag => exact flags_of_auth rfl nofun trivial rfl
  | refreshLost presented hpc => exact flags_refreshFail _
  | refreshRejected presented status data hpc h2xx => exact flags_refreshFail _
  | refreshEmpty presented status hpc h2xx => exact flags_refreshFail _
  | refreshed presented status data tokens hpc h2xx htokens hvalid => exact flags_of_auth rfl nofun trivial rfl
  | unsaved presented status data hpc h2xx hinvalid => exact flags_of_auth rfl nofun trivial rfl

theorem flags_keychain {o : Outcome} {m : Move} (h : s.keychain t o = some m) (hfits : t.pc.Fits t.flow) :
    s.Flags t m := by
  cases keychain_cases h with
  | boot c hpc =>
    refine flags_readBack rfl nofun trivial fun keys tokens => ?_
    unfold bootRead
    split
    · exact flags_of_auth rfl nofun trivial rfl
    · exact ⟨rfl, trivial, nofun, fun _ => rfl, fun _ _ => rfl, nofun⟩
  | attach c hpc =>
    refine flags_readBack rfl nofun trivial fun keys tokens => ?_
    unfold attachRead
    split
    · split <;> exact flags_of_auth rfl nofun trivial rfl
    · exact flags_of_auth rfl nofun trivial rfl
  | refreshRead c hpc =>
    refine flags_readBack rfl nofun trivial fun keys tokens => ?_
    unfold refreshReadDone
    split
    · split
      · exact flags_of_auth rfl nofun trivial rfl
      · exact flags_refreshFail _
    · exact flags_refreshFail _
  | verifying c expected user hpc =>
    rw [hpc] at hfits
    refine flags_readBack rfl nofun hfits fun keys tokens => ?_
    unfold verified
    split
    · exact flags_signIn user
    · exact flags_of_auth rfl nofun hfits rfl
  | refreshSave presented tokens hpc => exact flags_of_auth rfl nofun trivial rfl
  | saving tokens user hpc => exact (flags_saved (some tokens) user).of_keys
  | refreshClear error hpc =>
    have hreject := flags_reject (s := { s with keys := s.keys.reset o }) (t := t) error
    exact ⟨hreject.flow, hreject.fits, hreject.loading, hreject.initialized, hreject.loaded, hreject.signedIn⟩
  | verifyClear hpc =>
    rw [hpc] at hfits
    exact ⟨rfl, trivial, nofun, fun hinit => hinit, fun hload _ => absurd hload hfits, .inl⟩
  | clearing error hpc =>
    rw [hpc] at hfits
    exact (flags_cleared hfits).of_keys

end

theorem flags_turn {s : Device} {t : Task} {e : DeviceEvent} {m : Move} (h : s.turn t e = some m)
    (hfits : t.pc.Fits t.flow) : s.Flags t m := by
  cases e with
  | start flow => cases h
  | keychain i o => exact flags_keychain h hfits
  | respond i reply => exact flags_respond h

/-! ### All calls -/

/-- The call is one of `login`, `register` or `loadUser`, and still on. -/
def Loads (s : Device) (i : ℕ) : Prop := ∃ t, s.task i = some t ∧ startsLoading t.flow = true ∧ t.pc ≠ .done

/-- The flags of `useAuthStore` and the calls behind them. -/
structure Shows (s : Device) : Prop where
  sound : s.Sound
  fits : ∀ i t, s.task i = some t → t.pc.Fits t.flow
  loading : s.auth.isLoading = true → ∃ i, s.Loads i
  loaded : ∀ i t, s.task i = some t → t.flow = .loadUser → t.pc = .done → s.auth.isInitialized = true
  signedIn : s.auth.isAuthenticated = true → s.auth.isInitialized = true

theorem Shows.init {s : Device} (h : device.Init s) : s.Shows := by
  have hsound := Sound.init h
  obtain ⟨item, rfl⟩ := h
  exact ⟨hsound, fun i t ht => (by cases ht), nofun, fun i t ht => (by cases ht), nofun⟩

theorem entry_fits (flow : Flow) : (entry flow).Fits flow := by cases flow <;> trivial

theorem entry_ne_done (flow : Flow) : entry flow ≠ .done := by cases flow <;> exact nofun

/-- `processQueue` takes a call out of the queue: `login` and `register` are over only if the queue is rejected. -/
theorem settle_flags (op : QueueOp) {t : Task} (hpc : t.pc = .queued) :
    (settle op t).flow = t.flow ∧ (settle op t).pc.Fits t.flow ∧
      (startsLoading t.flow = true → (settle op t).pc = .done →
        stopsLoading t.flow = true ∧ ∃ error, op = .reject error) := by
  cases op with
  | keep | push => simp [settle, hpc, Pc.Fits]
  | resolve token => simp [settle, Pc.Fits]
  | reject error =>
    refine ⟨rfl, ?_, fun hstarts hdone => ⟨?_, error, rfl⟩⟩
    · show (caught t.flow error).Fits t.flow
      cases t.flow <;> trivial
    · have hcaught : caught t.flow error = .done := hdone
      cases hflow : t.flow <;> simp_all [caught, startsLoading, stopsLoading]

theorem apply_isLoading (s : Device) (i : ℕ) (m : Move) :
    (s.apply i m).auth.isLoading = (m.auth.isLoading && !s.stops m.queue) := by
  unfold apply
  split <;> simp [start, advance, startsLoading]

theorem apply_isInitialized (s : Device) (i : ℕ) (m : Move) :
    (s.apply i m).auth.isInitialized = m.auth.isInitialized := by
  unfold apply
  split <;> rfl

theorem Loads.apply {s : Device} {i j : ℕ} {t : Task} {m : Move} (h : s.Sound) (ht : s.task i = some t)
    (hflags : s.Flags t m) (hj : s.Loads j) (hloading : m.auth.isLoading = true) (hstops : s.stops m.queue = false) :
    (s.apply i m).Loads j := by
  obtain ⟨v, hv, hstarts, hon⟩ := hj
  by_cases hji : j = i
  · subst hji
    cases ht.symm.trans hv
    exact ⟨m.task, apply_task_self h ht m, hflags.flow ▸ hstarts, (hflags.loading hloading).2 hstarts⟩
  refine ⟨_, apply_task_of_ne h hv hji m, ?_, ?_⟩
  all_goals split
  · rename_i hmem
    rw [(settle_flags m.queue (h.pc_of_mem hv hmem)).1]
    exact hstarts
  · exact hstarts
  · rename_i hmem
    intro hdone
    obtain ⟨hstop, error, hop⟩ := (settle_flags m.queue (h.pc_of_mem hv hmem)).2.2 hstarts hdone
    rw [hop, stops, List.any_eq_false] at hstops
    exact hstops j hmem (by simp [hv, hstop])
  · exact hon

/-- **One step keeps the flags behind the calls**, and `isInitialized` set. -/
theorem Shows.step {s s' : Device} {e : DeviceEvent} (h : s.Shows) (hstep : device.step s e = some s') :
    s'.Shows ∧ (s.auth.isInitialized = true → s'.auth.isInitialized = true) := by
  have hsound := h.sound.step hstep
  obtain ⟨flow, rfl, rfl⟩ | ⟨i, t, m, he, ht, hm, rfl⟩ := step_cases hstep
  · refine ⟨⟨hsound, fun j u hu => ?_, fun hloading => ?_, fun j u hu hload hdone => ?_, h.signedIn⟩,
      fun hinit => hinit⟩
    · rcases start_task_cases hu with hu | ⟨-, rfl⟩
      · exact h.fits j u hu
      · exact entry_fits flow
    · by_cases hflow : startsLoading flow = true
      · exact ⟨s.next, { flow, pc := entry flow }, by simp [start], hflow, entry_ne_done flow⟩
      · obtain ⟨j, v, hv, hon⟩ := h.loading (by simpa [start, hflow] using hloading)
        exact ⟨j, v, (start_task_of_ne s (h.sound.lt_next hv).ne flow).trans hv, hon⟩
    · rcases start_task_cases hu with hu | ⟨-, rfl⟩
      · exact h.loaded j u hu hload hdone
      · exact absurd hdone (entry_ne_done flow)
  have hflags := flags_turn hm (h.fits i t ht)
  refine ⟨⟨hsound, fun j u hu => ?_, fun hloading => ?_, fun j u hu hload hdone => ?_, fun hsigned => ?_⟩,
    fun hinit => ?_⟩
  · rcases apply_task_cases h.sound ht hu with ⟨-, rfl⟩ | ⟨v, hv, -, rfl⟩ | ⟨-, -, rfl⟩
    · exact hflags.flow ▸ hflags.fits
    · split
      · rename_i hmem
        obtain ⟨hflow, hfits, -⟩ := settle_flags m.queue (h.sound.pc_of_mem hv hmem)
        exact hflow ▸ hfits
      · exact h.fits j v hv
    · trivial
  · rw [apply_isLoading, Bool.and_eq_true, Bool.not_eq_true'] at hloading
    obtain ⟨j, hj⟩ := h.loading (hflags.loading hloading.1).1
    exact ⟨j, hj.apply h.sound ht hflags hloading.1 hloading.2⟩
  · rw [apply_isInitialized]
    rcases apply_task_cases h.sound ht hu with ⟨-, rfl⟩ | ⟨v, hv, -, rfl⟩ | ⟨-, -, rfl⟩
    · exact hflags.loaded (hflags.flow ▸ hload) hdone
    · by_cases hmem : j ∈ s.failedQueue
      · rw [if_pos hmem] at hload hdone
        obtain ⟨hflow, -, hsettled⟩ := settle_flags m.queue (h.sound.pc_of_mem hv hmem)
        rw [hflow] at hload
        obtain ⟨hstop, -⟩ := hsettled (by rw [hload]; rfl) hdone
        rw [hload] at hstop
        cases hstop
      · rw [if_neg hmem] at hload hdone
        exact hflags.initialized (h.loaded j v hv hload hdone)
    · cases hload
  · rw [apply_isAuthenticated] at hsigned
    rw [apply_isInitialized]
    rcases hflags.signedIn hsigned with hbefore | hnow
    · exact hflags.initialized (h.signedIn hbefore)
    · exact hnow
  · rw [apply_isInitialized]
    exact hflags.initialized hinit

theorem shows_of_reachable {C : Device → DeviceEvent → Prop} {s : Device} (h : device.Reachable C s) : s.Shows :=
  h.invariant Shows (fun _ => .init) fun _ _ _ hs _ hstep => (hs.step hstep).1

theorem initialized_run {C : Device → DeviceEvent → Prop} {s s' : Device} {tr : List DeviceEvent}
    (h : device.Reachable C s) (hrun : device.Run C s tr s') (hinit : s.auth.isInitialized = true) :
    s'.auth.isInitialized = true :=
  (hrun.invariant (fun s => s.Shows ∧ s.auth.isInitialized = true) ⟨shows_of_reachable h, hinit⟩
    fun _ _ _ hs _ hstep => ⟨(hs.1.step hstep).1, (hs.1.step hstep).2 hs.2⟩).2

theorem loader_iff {a : AuthState} : rootNavigator a = .loader ↔ a.isInitialized = false ∨ a.isLoading = true := by
  unfold rootNavigator
  cases a.isInitialized <;> cases a.isLoading <;> cases a.isAuthenticated <;> simp

/-- **The loader ends**: once `RootNavigator` has called `loadUser`, it shows the loader only while a call of `login`,
`register` or `loadUser` is on, whatever calls overlap and however the Keychain and the backend answer them; and once
it has shown the app or the sign-in screens, that is so for good. -/
theorem loader_ends {C : Device → DeviceEvent → Prop} {s s' : Device} {tr : List DeviceEvent}
    (h : device.Reachable C s) (hrun : device.Run C s tr s')
    (hcalled : rootNavigator s.auth ≠ .loader ∨ ∃ i t, s'.task i = some t ∧ t.flow = .loadUser)
    (hshown : rootNavigator s'.auth = .loader) : ∃ i, s'.Loads i := by
  have hshows := shows_of_reachable (h.trans hrun)
  rcases loader_iff.mp hshown with hinit | hloading
  · rcases hcalled with hbefore | ⟨i, t, ht, hload⟩
    · rw [Ne, loader_iff, not_or, Bool.not_eq_false] at hbefore
      exact absurd (initialized_run h hrun hbefore.1) (by simp [hinit])
    · refine ⟨i, t, ht, by rw [hload]; rfl, fun hdone => ?_⟩
      exact absurd (hshows.loaded i t ht hload hdone) (by simp [hinit])
  · exact hshows.loading hloading

/-- The app starts without a session, and somebody logs in. -/
theorem loader_ends_login : ∃ s : Device, rootNavigator s.auth = .loader ∧ ∃ i, s.Loads i := by
  obtain ⟨s, h, hs⟩ := System.reachable_of_exec device (fun _ _ => true) (fun s => (rootNavigator s.auth,
      (device.exec (fun _ _ => true) s [.start (.login "ana@x.org" "secret")]).map (rootNavigator ·.auth)))
    [.start .loadUser, .keychain 0 .ok] (s := {}) (a := (.auth, some .loader)) ⟨none, rfl⟩ (by decide +kernel)
  obtain ⟨hauth, hexec⟩ := Prod.mk.inj hs
  obtain ⟨s', hexec, hloader⟩ := Option.map_eq_some_iff.mp hexec
  exact ⟨s', hloader, loader_ends h (.of_exec hexec) (.inl (by rw [hauth]; decide)) hloader⟩

end Device

end Locus.Mobile
