import Locus.App.WebSocket
import Locus.Lib.Amortized

/-!
# How often the app reconnects

A socket that closes brings about a reconnect, up to five times: `reconnectAttempts` counts them, and only a socket that
opens sets it back. So what the app tries is bounded by the reasons that it has for a connection and by the sockets that
have opened, whatever the network does in between and however React's updates are delayed (`attempts_bounded`). The
delays are 1, 2, 4, 8 and 16 seconds: the bound of 30 seconds in the source is never reached.

Proof. Each instance of the hook has room for five timers less those it has set, and five more for each pending update
that sets the counter back; the sockets, the token reads and the timers there are, and the room, are a potential that
only a mount, a new `communityId`, the foreground and a socket that opens raise.
-/

namespace Locus.App

open Lib

namespace WebSocketEvent

/-- The event starts a connection, if anything does: a mount, a new `communityId`, the foreground. -/
def starts : WebSocketEvent → Bool
  | .mount _ | .setCommunityId _ | .foreground => true
  | _ => false

/-- The event leaves an instance of the hook with all its reconnects before it: it mounts it, or a socket opens. -/
def renews : WebSocketEvent → Bool
  | .mount _ | .onopen _ => true
  | _ => false

def credit (e : WebSocketEvent) : ℕ := (if e.starts then 1 else 0) + if e.renews then MAX_RECONNECTS else 0

end WebSocketEvent

def HookInstance.room (h : HookInstance) : ℕ :=
  (MAX_RECONNECTS - h.reconnectAttempts) + MAX_RECONNECTS * h.updates.count .zero

namespace WebSockets

/-- The sockets so far, those that token reads and timers may lead to, and the timers that can still be set. -/
def attempts (s : WebSockets) : ℕ :=
  s.sockets.length + s.reads.length + s.timers.length + (s.hooks.map HookInstance.room).sum

variable {s : WebSockets}

theorem attempts_updateSocket (socket : ℕ) (f : Socket → Socket) : (s.updateSocket socket f).attempts = s.attempts := by
  simp [attempts, updateSocket]

theorem attempts_updateHook (s : WebSockets) (hook : ℕ) {f : HookInstance → HookInstance} {bound : ℕ}
    (hf : ∀ h, (f h).room ≤ h.room + bound) : (s.updateHook hook f).attempts ≤ s.attempts + bound := by
  have hroom := sum_modify_le HookInstance.room hf s.hooks hook
  simp only [attempts, updateHook]
  omega

theorem attempts_updateHook_same (s : WebSockets) (hook : ℕ) {f : HookInstance → HookInstance}
    (hf : ∀ h, (f h).room = h.room) : (s.updateHook hook f).attempts ≤ s.attempts := by
  have hbound : _ ≤ s.attempts + 0 := attempts_updateHook s hook fun h => (hf h).le
  exact hbound

theorem attempts_closeCurrent (hook : ℕ) : (s.closeCurrent hook).attempts = s.attempts := by
  unfold closeCurrent
  split
  · exact attempts_updateSocket _ _
  · rfl

theorem attempts_disconnect (hook : ℕ) : (s.disconnect hook).attempts ≤ s.attempts := by
  have hfilter := List.length_filter_le (fun t => decide (s.hooks[hook]?.bind (·.reconnectTimer) ≠ some t.id)) s.timers
  rw [disconnect, attempts_closeCurrent]
  simp only [attempts]
  omega

theorem attempts_connect (connect : Connect) : (s.connect connect).attempts = s.attempts + 1 := by
  simp only [attempts, WebSockets.connect, List.length_append, List.length_singleton]
  omega

theorem attempts_scheduleReconnect (connect : Connect) : (s.scheduleReconnect connect).attempts ≤ s.attempts := by
  refine attempts_updateHook_same s connect.hook fun h => ?_
  simp [HookInstance.room]

theorem attempts_resume (connect : Connect) (result : TokenRead) :
    (s.resume connect result).attempts ≤ s.attempts + 1 := by
  cases result with
  | failed => exact (attempts_scheduleReconnect connect).trans (Nat.le_succ _)
  | tokens accessToken =>
    simp only [resume]
    split
    · rename_i accessToken _
      have hhook : (s.createSocket connect accessToken).attempts ≤ _ :=
        attempts_updateHook_same _ connect.hook fun h => rfl
      simp only [attempts, List.length_append, List.length_singleton] at hhook ⊢
      omega
    · exact Nat.le_succ _

theorem attempts_runUpdate {hook : ℕ} {h : HookInstance} {update : AttemptsUpdate} {updates : List AttemptsUpdate}
    (hhook : s.hooks[hook]? = some h) (hupdates : h.updates = update :: updates) :
    (s.runUpdate hook { h with updates } update).attempts ≤ s.attempts := by
  cases update with
  | zero =>
    have hroom := sum_modify_of_getElem HookInstance.room (f := fun _ => { h with updates, reconnectAttempts := 0 }) hhook
      (by
        simp only [HookInstance.room, hupdates, List.count_cons_self, Nat.mul_succ]
        omega : _ + 0 ≤ _)
    simp only [runUpdate, updateHook, attempts]
    omega
  | schedule connect =>
    have hcount : h.updates.count .zero = updates.count .zero := by simp [hupdates]
    rw [runUpdate]
    split
    · have hroom := sum_modify_of_getElem HookInstance.room (f := fun _ => { h with updates }) hhook
        (by simp [HookInstance.room, hcount] : _ + 0 ≤ _)
      simp only [updateHook, attempts]
      omega
    · rename_i hless
      have hroom := sum_modify_of_getElem HookInstance.room (f := fun _ =>
          { h with updates, reconnectTimer := some s.nextTimer, reconnectAttempts := h.reconnectAttempts + 1 })
        hhook (by
          dsimp only at hless
          simp only [HookInstance.room, hcount]
          omega : _ + 1 ≤ _)
      simp only [updateHook, attempts, List.length_append, List.length_singleton]
      omega

end WebSockets

/-- **One step raises the attempts by the credit of its event**, and no further. -/
theorem attempts_step {s s' : WebSockets} {e : WebSocketEvent} (h : useWebSocket.step s e = some s') :
    s'.attempts ≤ s.attempts + e.credit := by
  cases e with
  | mount communityId =>
    simp only [useWebSocket] at h
    split_ifs at h
    cases h
    rw [WebSockets.attempts_connect]
    simp only [WebSockets.attempts, WebSocketEvent.credit, WebSocketEvent.starts, WebSocketEvent.renews,
      List.map_append, List.sum_append, List.map_singleton, List.sum_singleton, HookInstance.room, List.count_nil]
    simp only [if_true]
    omega
  | unmount =>
    simp only [useWebSocket] at h
    split_ifs at h
    cases h
    exact (WebSockets.attempts_disconnect s.last).trans (Nat.le_add_right _ _)
  | setCommunityId communityId =>
    obtain ⟨hook, hhook, h⟩ := Option.bind_eq_some_iff.mp h
    split_ifs at h
    cases h
    rw [WebSockets.attempts_connect]
    have hdisconnect := WebSockets.attempts_disconnect (s := s) s.last
    have hupdate := WebSockets.attempts_updateHook_same (s.disconnect s.last) s.last
      (f := fun h => { h with communityId, seenConnected := h.isConnected }) fun h => rfl
    exact Nat.succ_le_succ (hupdate.trans hdisconnect)
  | disconnect =>
    simp only [useWebSocket] at h
    split_ifs at h
    cases h
    exact (WebSockets.attempts_disconnect s.last).trans (Nat.le_add_right _ _)
  | foreground =>
    obtain rfl := Option.some.inj h
    split
    · split_ifs
      · rw [WebSockets.attempts_connect]
        exact Nat.le_refl _
      · exact Nat.le_succ _
    · exact Nat.le_succ _
  | background =>
    obtain rfl := Option.some.inj h
    split_ifs
    · exact (WebSockets.attempts_disconnect s.last).trans (Nat.le_add_right _ _)
    · exact Nat.le_add_right _ _
  | read index result =>
    obtain ⟨connect, hread, rfl⟩ := Option.map_eq_some_iff.mp h
    have hresume := WebSockets.attempts_resume (s := { s with reads := s.reads.eraseIdx index }) connect result
    have hlength := List.length_eraseIdx_add_one (List.getElem?_eq_some_iff.mp hread).1
    simp only [WebSockets.attempts] at hresume ⊢
    omega
  | onopen socket =>
    obtain ⟨k, hk, h⟩ := Option.bind_eq_some_iff.mp h
    split_ifs at h
    cases h
    have hroom : ∀ h : HookInstance, { h with isConnected := true, updates := h.updates ++ [AttemptsUpdate.zero] }.room ≤
        h.room + MAX_RECONNECTS := by
      intro h
      simp only [HookInstance.room, List.count_append, List.count_singleton_self, Nat.mul_succ]
      omega
    have hupdate := WebSockets.attempts_updateHook (s.updateSocket socket Socket.establish) k.connect.hook hroom
    rw [WebSockets.attempts_updateSocket] at hupdate
    exact hupdate
  | onclose socket =>
    obtain ⟨k, hk, h⟩ := Option.bind_eq_some_iff.mp h
    split_ifs at h
    cases h
    refine (WebSockets.attempts_scheduleReconnect k.connect).trans ?_
    have hupdate := WebSockets.attempts_updateHook_same (s.updateSocket socket Socket.finish) k.connect.hook
      (f := fun h => { h with isConnected := false }) fun h => rfl
    rw [WebSockets.attempts_updateSocket] at hupdate
    exact hupdate
  | onerror socket =>
    obtain ⟨k, hk, h⟩ := Option.bind_eq_some_iff.mp h
    split_ifs at h
    cases h
    rw [WebSockets.attempts_closeCurrent, WebSockets.attempts_updateSocket]
    exact Nat.le_add_right _ _
  | fire index =>
    obtain ⟨timer, htimer, rfl⟩ := Option.map_eq_some_iff.mp h
    rw [WebSockets.attempts_connect]
    have hlength := List.length_eraseIdx_add_one (List.getElem?_eq_some_iff.mp htimer).1
    simp only [WebSockets.attempts]
    omega
  | update hook =>
    obtain ⟨h₀, hhook, h⟩ := Option.bind_eq_some_iff.mp h
    obtain ⟨update, hupdate, h⟩ := Option.bind_eq_some_iff.mp h
    obtain rfl := Option.some.inj h
    obtain ⟨updates, hupdates⟩ := List.head?_eq_some_iff.mp hupdate
    have hrun := WebSockets.attempts_runUpdate hhook hupdates
    rw [hupdates]
    exact hrun.trans (Nat.le_add_right _ _)
  | render =>
    obtain rfl := Option.some.inj h
    exact WebSockets.attempts_updateHook_same s s.last fun h => rfl

/-! ### Delays -/

/-- The delays that `scheduleReconnect` computes. -/
def WebSockets.Delays (s : WebSockets) : Prop := ∀ timer ∈ s.timers, ∃ n < MAX_RECONNECTS, timer.delay = 1000 * 2 ^ n

theorem delays_of_subset {s s' : WebSockets} (h : s.Delays) (hsub : s'.timers ⊆ s.timers) : s'.Delays :=
  fun timer htimer => h timer (hsub htimer)

theorem timers_closeCurrent (s : WebSockets) (hook : ℕ) : (s.closeCurrent hook).timers = s.timers := by
  unfold WebSockets.closeCurrent
  split <;> rfl

theorem timers_disconnect (s : WebSockets) (hook : ℕ) : (s.disconnect hook).timers ⊆ s.timers := by
  rw [WebSockets.disconnect, timers_closeCurrent]
  exact List.filter_subset_self _

theorem delays_runUpdate {s : WebSockets} (h : s.Delays) (hook : ℕ) (hi : HookInstance)
    (update : AttemptsUpdate) : (s.runUpdate hook hi update).Delays := by
  cases update with
  | zero => exact h
  | schedule connect =>
    rw [WebSockets.runUpdate]
    split
    · exact h
    · rename_i hless
      intro timer htimer
      rcases List.mem_append.mp htimer with htimer | htimer
      · exact h timer htimer
      · obtain rfl := List.mem_singleton.mp htimer
        refine ⟨hi.reconnectAttempts, not_le.mp hless, Nat.min_eq_left ?_⟩
        have hpow : 2 ^ hi.reconnectAttempts ≤ 2 ^ 4 :=
          Nat.pow_le_pow_right (by decide) (Nat.le_of_lt_succ (not_le.mp hless))
        omega

theorem delays_step {s s' : WebSockets} {e : WebSocketEvent} (h : s.Delays)
    (hstep : useWebSocket.step s e = some s') : s'.Delays := by
  cases e with
  | mount communityId =>
    simp only [useWebSocket] at hstep
    split_ifs at hstep
    cases hstep
    exact h
  | unmount | disconnect =>
    simp only [useWebSocket] at hstep
    split_ifs at hstep
    cases hstep
    exact delays_of_subset h (timers_disconnect s s.last)
  | setCommunityId communityId =>
    obtain ⟨hook, hhook, hstep⟩ := Option.bind_eq_some_iff.mp hstep
    split_ifs at hstep
    cases hstep
    exact delays_of_subset h (timers_disconnect s s.last)
  | foreground =>
    obtain rfl := Option.some.inj hstep
    split
    · split_ifs <;> exact h
    · exact h
  | background =>
    obtain rfl := Option.some.inj hstep
    split_ifs
    · exact delays_of_subset h (timers_disconnect s s.last)
    · exact h
  | read index result =>
    obtain ⟨connect, hread, rfl⟩ := Option.map_eq_some_iff.mp hstep
    cases result with
    | failed => exact h
    | tokens accessToken =>
      simp only [WebSockets.resume]
      split <;> exact h
  | onopen socket | onclose socket =>
    obtain ⟨k, hk, hstep⟩ := Option.bind_eq_some_iff.mp hstep
    split_ifs at hstep
    cases hstep
    exact h
  | onerror socket =>
    obtain ⟨k, hk, hstep⟩ := Option.bind_eq_some_iff.mp hstep
    split_ifs at hstep
    cases hstep
    refine delays_of_subset h ?_
    rw [timers_closeCurrent]
    exact fun _ htimer => htimer
  | fire index =>
    obtain ⟨timer, htimer, rfl⟩ := Option.map_eq_some_iff.mp hstep
    exact delays_of_subset h (List.eraseIdx_subset)
  | update hook =>
    obtain ⟨h₀, hhook, hstep⟩ := Option.bind_eq_some_iff.mp hstep
    obtain ⟨update, hupdate, hstep⟩ := Option.bind_eq_some_iff.mp hstep
    obtain rfl := Option.some.inj hstep
    exact delays_runUpdate h hook _ update
  | render =>
    obtain rfl := Option.some.inj hstep
    exact h

/-! ### Runs -/

theorem sum_credit (tr : List WebSocketEvent) : (tr.map WebSocketEvent.credit).sum =
    tr.countP WebSocketEvent.starts + MAX_RECONNECTS * tr.countP WebSocketEvent.renews := by
  induction tr with
  | nil => rfl
  | cons e tr ih =>
    rw [List.map_cons, List.sum_cons, ih, List.countP_cons, List.countP_cons, WebSocketEvent.credit, Nat.mul_add]
    split_ifs <;> omega

/-- **Reconnecting is bounded**: the sockets that a run creates, with those that its token reads and timers can still
lead to, are no more than its reasons for a connection, and five for each mount and for each socket that has opened; and
each timer waits one of the five delays from one to sixteen seconds. -/
theorem attempts_bounded {C : WebSockets → WebSocketEvent → Prop} {s : WebSockets} {tr : List WebSocketEvent}
    (h : useWebSocket.Run C {} tr s) :
    s.sockets.length + s.reads.length + s.timers.length ≤
        tr.countP WebSocketEvent.starts + MAX_RECONNECTS * tr.countP WebSocketEvent.renews ∧
      s.Delays := by
  refine ⟨?_, h.invariant WebSockets.Delays (fun timer htimer => by cases htimer)
    fun s e s' hs _ hstep => delays_step hs hstep⟩
  have hattempts := h.amortized WebSockets.attempts WebSocketEvent.credit fun s e s' => attempts_step
  rw [sum_credit, show WebSockets.attempts {} = 0 from rfl, Nat.zero_add] at hattempts
  exact (Nat.le_add_right _ _).trans hattempts

/-- A screen is mounted while the network is down: it tries once, and five times more. -/
theorem attempts_bounded_offline : ∃ s : WebSockets, s.sockets.length = 6 ∧ s.timers = [] ∧
    s.sockets.length + s.reads.length + s.timers.length ≤ 1 + MAX_RECONNECTS * 1 := by
  let failing (k : ℕ) : List WebSocketEvent := [.read 0 (.tokens "a"), .onclose k, .update 0]
  let tr := WebSocketEvent.mount none :: (failing 0 ++ (List.range 5).flatMap fun k => .fire 0 :: failing (k + 1))
  obtain ⟨s, hexec, hfacts⟩ := Option.map_eq_some_iff.mp
    (by decide +kernel : (useWebSocket.exec (fun _ _ => true) {} tr).map (fun s => (s.sockets.length, s.timers)) =
      some (6, []))
  obtain ⟨hsockets, htimers⟩ := Prod.mk.inj hfacts
  exact ⟨s, hsockets, htimers, (attempts_bounded (.of_exec hexec)).1⟩

end Locus.App
