import Locus.Lib.System
import Mathlib.Algebra.Group.Nat.Defs
import Mathlib.Order.Basic

/-!
# The socket of the app

`useWebSocket` reads the tokens, opens a socket, and reconnects when it is closed: after a delay, up to five times.
Four things start a connection: the mount, a change of `communityId`, the app that comes to the foreground, and the
timer. None of them looks for a connection that another one has started (`two_sockets`), and `disconnect` stops neither
a token read that is under way nor the reconnect that its own `close` brings about (`reconnects_after_disconnect`).

There is certain to be one socket at most, and none that is opened between a `disconnect` and the next reason for one,
exactly when connections are started one at a time, none by a timer after a `disconnect`, and no `disconnect`
overtakes a token read (`one_socket_iff`).
-/

namespace Locus.App

open Lib

/-! ### Sockets -/

inductive ReadyState
  | CONNECTING
  | OPEN
  /-- Neither connecting nor open; the close event is still to come. -/
  | CLOSING
  | CLOSED
deriving DecidableEq

/-- The callback `connect` that an instance of the hook memoized for a `communityId`. -/
structure Connect where
  hook : ℕ
  communityId : Option String
deriving DecidableEq

structure Socket where
  url : String
  /-- The call that created it, whose handlers it has. -/
  connect : Connect
  readyState : ReadyState := .CONNECTING
deriving DecidableEq

namespace Socket

def live (socket : Socket) : Bool := socket.readyState = .CONNECTING ∨ socket.readyState = .OPEN

/-- `close()`; the connection fails in the same way. -/
def close (socket : Socket) : Socket :=
  match socket.readyState with
  | .CONNECTING | .OPEN => { socket with readyState := .CLOSING }
  | _ => socket

def establish (socket : Socket) : Socket :=
  match socket.readyState with
  | .CONNECTING => { socket with readyState := .OPEN }
  | _ => socket

def finish (socket : Socket) : Socket := { socket with readyState := .CLOSED }

end Socket

/-- `MAX_RECONNECTS` -/
def MAX_RECONNECTS : ℕ := 5

/-- A pending `setTimeout(connect, delay)`. -/
structure ReconnectTimer where
  id : ℕ
  connect : Connect
  delay : ℕ
deriving DecidableEq

/-- An update of `reconnectAttempts` that React has not run. -/
inductive AttemptsUpdate
  /-- `setReconnectAttempts(0)` -/
  | zero
  /-- The one of `scheduleReconnect`, which sets the timer for a `connect`. -/
  | schedule (connect : Connect)
deriving DecidableEq

/-- The refs and states of one mounted instance of the hook. -/
structure HookInstance where
  communityId : Option String
  /-- `ws.current`, by its place among all sockets. -/
  ws : Option ℕ := none
  /-- `reconnectTimer.current` -/
  reconnectTimer : Option ℕ := none
  isConnected : Bool := false
  reconnectAttempts : ℕ := 0
  updates : List AttemptsUpdate := []
  /-- `isConnected` as the listener of `AppState` captured it. -/
  seenConnected : Bool := false
deriving DecidableEq

/-- All instances of the hook so far, and what they have started. -/
structure WebSockets where
  /-- In the order of their mounts. -/
  hooks : List HookInstance := []
  /-- The last one is mounted. -/
  mounted : Bool := false
  sockets : List Socket := []
  /-- The calls of `connect` that await `getTokens`. -/
  reads : List Connect := []
  timers : List ReconnectTimer := []
  nextTimer : ℕ := 0
  /-- `disconnect` was called since the last foreground event, change of `communityId` or mount. -/
  stopped : Bool := false
  /-- A socket was created while stopped. -/
  createdStopped : Bool := false
deriving DecidableEq

/-- `WS_BASE_URL` of a build without `EXPO_PUBLIC_API_URL`. -/
def WS_BASE_URL : String := "ws://129.146.186.180"

/-- The `url` of `connect`. -/
def socketUrl (accessToken : String) (communityId : Option String) : String :=
  match communityId.filter (· ≠ "") with
  | some communityId => WS_BASE_URL ++ "/ws?token=" ++ accessToken ++ "&community=" ++ communityId
  | none => WS_BASE_URL ++ "/ws?token=" ++ accessToken

/-- How `connect` goes on behind its `await`. -/
inductive TokenRead
  /-- `tokens?.accessToken` -/
  | tokens (accessToken : Option String)
  /-- `getTokens` or the constructor of the socket throws. -/
  | failed

namespace WebSockets

def updateHook (s : WebSockets) (hook : ℕ) (f : HookInstance → HookInstance) : WebSockets :=
  { s with hooks := s.hooks.modify hook f }

def updateSocket (s : WebSockets) (socket : ℕ) (f : Socket → Socket) : WebSockets :=
  { s with sockets := s.sockets.modify socket f }

/-- `ws.current?.close()` -/
def closeCurrent (s : WebSockets) (hook : ℕ) : WebSockets :=
  match s.hooks[hook]?.bind (·.ws) with
  | some socket => s.updateSocket socket Socket.close
  | none => s

/-- `disconnect()` -/
def disconnect (s : WebSockets) (hook : ℕ) : WebSockets :=
  let timer := s.hooks[hook]?.bind (·.reconnectTimer)
  { s with timers := s.timers.filter fun t => timer ≠ some t.id }.closeCurrent hook

/-- `connect()` up to its `await`. -/
def connect (s : WebSockets) (connect : Connect) : WebSockets := { s with reads := s.reads ++ [connect] }

/-- `scheduleReconnect()` -/
def scheduleReconnect (s : WebSockets) (connect : Connect) : WebSockets :=
  s.updateHook connect.hook fun h => { h with updates := h.updates ++ [.schedule connect] }

/-- `ws.current = new WebSocket(url)` -/
def createSocket (s : WebSockets) (connect : Connect) (accessToken : String) : WebSockets :=
  let socket : Socket := { url := socketUrl accessToken connect.communityId, connect }
  { s with
    sockets := s.sockets ++ [socket]
    createdStopped := s.createdStopped || s.stopped }.updateHook connect.hook fun h => { h with ws := s.sockets.length }

/-- `connect()` behind its `await`. -/
def resume (s : WebSockets) (connect : Connect) : TokenRead → WebSockets
  | .tokens accessToken =>
    match accessToken.filter (· ≠ "") with
    | some accessToken => s.createSocket connect accessToken
    | none => s
  | .failed => s.scheduleReconnect connect

/-- React runs the first update of `reconnectAttempts`. -/
def runUpdate (s : WebSockets) (hook : ℕ) (h : HookInstance) : AttemptsUpdate → WebSockets
  | .zero => s.updateHook hook fun _ => { h with reconnectAttempts := 0 }
  | .schedule connect =>
    if MAX_RECONNECTS ≤ h.reconnectAttempts then s.updateHook hook fun _ => h
    else
      let timer : ReconnectTimer := ⟨s.nextTimer, connect, min (1000 * 2 ^ h.reconnectAttempts) 30000⟩
      { s with
        timers := s.timers ++ [timer]
        nextTimer := s.nextTimer + 1 }.updateHook hook fun _ =>
          { h with reconnectTimer := s.nextTimer, reconnectAttempts := h.reconnectAttempts + 1 }

def last (s : WebSockets) : ℕ := s.hooks.length - 1

end WebSockets

inductive WebSocketEvent
  | mount (communityId : Option String)
  | unmount
  | setCommunityId (communityId : Option String)
  /-- A call of the `disconnect` that the hook returns. -/
  | disconnect
  /-- `AppState` changes to `active`. -/
  | foreground
  | background
  /-- `getTokens` ends for one of the calls of `connect`. -/
  | read (index : ℕ) (result : TokenRead)
  | onopen (socket : ℕ)
  | onclose (socket : ℕ)
  | onerror (socket : ℕ)
  /-- A timer goes off. -/
  | fire (index : ℕ)
  /-- React runs an update of `reconnectAttempts`. -/
  | update (hook : ℕ)
  /-- React renders, and the listener of `AppState` is replaced. -/
  | render

/-- The hook on a screen that mounts and unmounts it. -/
def useWebSocket : System WebSockets WebSocketEvent where
  Init s := s = {}
  step s
    | .mount communityId =>
      if s.mounted then none
      else
        let h : HookInstance := { communityId }
        some ({ s with hooks := s.hooks ++ [h], mounted := true, stopped := false }.connect
          ⟨s.hooks.length, communityId⟩)
    | .unmount => if s.mounted then some { s.disconnect s.last with mounted := false, stopped := true } else none
    | .setCommunityId communityId => do
      let h ← s.hooks[s.last]?
      if s.mounted ∧ h.communityId ≠ communityId then
        some ({ (s.disconnect s.last).updateHook s.last fun h =>
          { h with communityId, seenConnected := h.isConnected } with stopped := false }.connect ⟨s.last, communityId⟩)
      else none
    | .disconnect => if s.hooks = [] then none else some { s.disconnect s.last with stopped := true }
    | .foreground =>
      some (match s.hooks[s.last]? with
        | some h =>
          if s.mounted ∧ h.seenConnected = false then { s with stopped := false }.connect ⟨s.last, h.communityId⟩
          else { s with stopped := false }
        | none => { s with stopped := false })
    | .background => some (if s.mounted then { s.disconnect s.last with stopped := true } else s)
    | .read index result => s.reads[index]?.map fun connect =>
        { s with reads := s.reads.eraseIdx index }.resume connect result
    | .onopen socket => do
      let k ← s.sockets[socket]?
      if k.readyState = .CONNECTING then
        some ((s.updateSocket socket Socket.establish).updateHook k.connect.hook fun h =>
          { h with isConnected := true, updates := h.updates ++ [.zero] })
      else none
    | .onclose socket => do
      let k ← s.sockets[socket]?
      if k.readyState = .CLOSED then none
      else some (((s.updateSocket socket Socket.finish).updateHook k.connect.hook fun h =>
        { h with isConnected := false }).scheduleReconnect k.connect)
    | .onerror socket => do
      let k ← s.sockets[socket]?
      if k.readyState = .CLOSED then none
      else some ((s.updateSocket socket Socket.close).closeCurrent k.connect.hook)
    | .fire index => s.timers[index]?.map fun timer =>
        { s with timers := s.timers.eraseIdx index }.connect timer.connect
    | .update hook => do
      let h ← s.hooks[hook]?
      let update ← h.updates.head?
      some (s.runUpdate hook { h with updates := h.updates.tail } update)
    | .render => some (s.updateHook s.last fun h => { h with seenConnected := h.isConnected })

/-! ### One socket -/

namespace WebSockets

/-- The sockets that are connecting or open. -/
def liveCount (s : WebSockets) : ℕ := s.sockets.countP Socket.live

def Idle (s : WebSockets) : Prop := s.reads = [] ∧ s.liveCount = 0

end WebSockets

/-- One socket at most is connecting or open, and none was created while stopped. -/
structure OneSocket (s : WebSockets) : Prop where
  one : s.liveCount ≤ 1
  stopped : s.createdStopped = false

def EndsRead : WebSockets → WebSocketEvent → Prop
  | _, .read .. => True
  | _, _ => False

/-- A connection is started alone, by a timer only while not stopped, and `disconnect` overtakes no token read. -/
def StartsAlone (s : WebSockets) : WebSocketEvent → Prop
  | .mount _ => s.Idle
  | .setCommunityId _ => (s.disconnect s.last).Idle
  | .foreground => ∀ h ∈ s.hooks[s.last]?, s.mounted = true → h.seenConnected = false → s.Idle
  | .fire _ => s.stopped = false ∧ s.Idle
  | .unmount | .disconnect => s.reads = []
  | .background => s.mounted = true → s.reads = []
  | _ => True

/-- A token read counts as the socket that it may end with. -/
structure OneConnection (s : WebSockets) : Prop where
  one : s.liveCount + s.reads.length ≤ 1
  stopped : s.stopped = true → s.reads = []
  never : s.createdStopped = false

/-! ### Counting -/

theorem countP_modify_le {α : Type} {p : α → Bool} {f : α → α} (hf : ∀ a, p (f a) = true → p a = true) (l : List α)
    (i : ℕ) : (l.modify i f).countP p ≤ l.countP p := by
  induction l generalizing i with
  | nil => simp
  | cons a l ih =>
    cases i with
    | zero =>
      rw [List.modify_zero_cons, List.countP_cons, List.countP_cons]
      by_cases hfa : p (f a) = true
      · rw [if_pos (hf a hfa)]
        split <;> omega
      · rw [if_neg hfa]
        omega
    | succ i =>
      rw [List.modify_succ_cons, List.countP_cons, List.countP_cons]
      have := ih i
      omega

namespace Socket

theorem live_of_close {socket : Socket} (h : socket.close.live = true) : socket.live = true := by
  unfold close at h
  split at h
  · simp [live] at h
  · simp [live] at h
  · exact h

theorem live_of_establish {socket : Socket} (h : socket.establish.live = true) : socket.live = true := by
  unfold establish at h
  split at h
  · rename_i hconnecting
    simp [live, hconnecting]
  · exact h

theorem live_of_finish {socket : Socket} (h : socket.finish.live = true) : socket.live = true := by
  simp [finish, live] at h

end Socket

namespace WebSockets

variable {s : WebSockets}

theorem liveCount_updateSocket {f : Socket → Socket} (hf : ∀ socket, (f socket).live = true → socket.live = true)
    (socket : ℕ) : (s.updateSocket socket f).liveCount ≤ s.liveCount := countP_modify_le hf s.sockets socket

theorem closeCurrent_effect (s : WebSockets) (hook : ℕ) :
    (s.closeCurrent hook).liveCount ≤ s.liveCount ∧ (s.closeCurrent hook).reads = s.reads ∧
      (s.closeCurrent hook).stopped = s.stopped ∧ (s.closeCurrent hook).createdStopped = s.createdStopped := by
  unfold closeCurrent
  split
  · exact ⟨liveCount_updateSocket (fun _ => Socket.live_of_close) _, rfl, rfl, rfl⟩
  · exact ⟨Nat.le_refl _, rfl, rfl, rfl⟩

theorem disconnect_effect (s : WebSockets) (hook : ℕ) :
    (s.disconnect hook).liveCount ≤ s.liveCount ∧ (s.disconnect hook).reads = s.reads ∧
      (s.disconnect hook).createdStopped = s.createdStopped := by
  let timer := s.hooks[hook]?.bind (·.reconnectTimer)
  obtain ⟨hlive, hreads, -, hcreated⟩ :=
    closeCurrent_effect { s with timers := s.timers.filter fun t => timer ≠ some t.id } hook
  exact ⟨hlive, hreads, hcreated⟩

theorem resume_cases (s : WebSockets) (connect : Connect) (result : TokenRead) :
    ((s.resume connect result).reads = s.reads ∧ (s.resume connect result).stopped = s.stopped) ∧
    (((s.resume connect result).liveCount = s.liveCount + 1 ∧
        (s.resume connect result).createdStopped = (s.createdStopped || s.stopped)) ∨
      ((s.resume connect result).liveCount = s.liveCount ∧
        (s.resume connect result).createdStopped = s.createdStopped)) := by
  cases result with
  | failed => exact ⟨⟨rfl, rfl⟩, .inr ⟨rfl, rfl⟩⟩
  | tokens accessToken =>
    simp only [resume]
    split
    · refine ⟨⟨rfl, rfl⟩, .inl ⟨?_, rfl⟩⟩
      simp only [liveCount, createSocket, updateHook, List.countP_append]
      rfl
    · exact ⟨⟨rfl, rfl⟩, .inr ⟨rfl, rfl⟩⟩

end WebSockets

section
variable {s s' : WebSockets}

theorem OneConnection.of_le (h : OneConnection s) (hlive : s'.liveCount ≤ s.liveCount) (hreads : s'.reads = s.reads)
    (hstopped : s'.stopped = true → s.stopped = true) (hcreated : s'.createdStopped = s.createdStopped) :
    OneConnection s' := by
  have hone := h.one
  refine ⟨?_, fun hs' => ?_, hcreated.trans h.never⟩
  · rw [hreads]
    omega
  · rw [hreads]
    exact h.stopped (hstopped hs')

theorem OneConnection.stop (h : OneConnection s) (hlive : s'.liveCount ≤ s.liveCount) (hreads : s'.reads = s.reads)
    (hstopped : s'.stopped = true) (hcreated : s'.createdStopped = s.createdStopped) :
    OneConnection s' ↔ s.reads = [] := by
  constructor
  · intro h'
    rw [← hreads]
    exact h'.stopped hstopped
  · intro hnone
    have hone := h.one
    refine ⟨?_, fun _ => hreads.trans hnone, hcreated.trans h.never⟩
    rw [hreads]
    omega

theorem oneConnection_connect (hnever : s.createdStopped = false) (connect : Connect) :
    OneConnection (s.connect connect) ↔ s.stopped = false ∧ s.Idle := by
  have hlength : (s.connect connect).reads.length = s.reads.length + 1 := by simp [WebSockets.connect]
  constructor
  · intro h
    have hone := h.one
    have hlive : (s.connect connect).liveCount = s.liveCount := rfl
    refine ⟨?_, List.eq_nil_of_length_eq_zero (by omega), by omega⟩
    by_contra hstopped
    have hnil := h.stopped (by simpa using hstopped : s.stopped = true)
    rw [hnil] at hlength
    simp at hlength
  · rintro ⟨hstopped, hreads, hlive⟩
    refine ⟨?_, fun hs => ?_, hnever⟩
    · rw [hlength, hreads]
      exact (Nat.add_le_add_right (Nat.le_of_eq hlive) 1)
    · rw [show (s.connect connect).stopped = s.stopped from rfl, hstopped] at hs
      cases hs

theorem oneConnection_start (hnever : s.createdStopped = false) (hrunning : s.stopped = false) (connect : Connect) :
    OneConnection (s.connect connect) ↔ s.Idle := by
  rw [oneConnection_connect hnever, and_iff_right hrunning]

theorem OneConnection.disconnect (h : OneConnection s) (mounted : Bool) :
    OneConnection { s.disconnect s.last with mounted, stopped := true } ↔ s.reads = [] := by
  obtain ⟨hlive, hreads, hcreated⟩ := s.disconnect_effect s.last
  exact h.stop hlive hreads rfl hcreated

theorem OneConnection.read (h : OneConnection s) {index : ℕ} {connect : Connect} (hread : s.reads[index]? = some connect)
    (result : TokenRead) :
    OneConnection ({ s with reads := s.reads.eraseIdx index }.resume connect result) := by
  obtain ⟨⟨hreads, hstopped⟩, hcases⟩ := { s with reads := s.reads.eraseIdx index }.resume_cases connect result
  have hone := h.one
  have hindex : index < s.reads.length := (List.getElem?_eq_some_iff.mp hread).1
  have hlength : (s.reads.eraseIdx index).length = s.reads.length - 1 := by
    rw [List.length_eraseIdx, if_pos hindex]
  -- so it is the only one, and nothing is stopped
  have hrunning : s.stopped = false := by
    by_contra hstop
    rw [h.stopped (by simpa using hstop)] at hindex
    simp at hindex
  have hlive : ({ s with reads := s.reads.eraseIdx index } : WebSockets).liveCount = s.liveCount := rfl
  refine ⟨?_, fun hs => ?_, ?_⟩
  · rw [hreads]
    rcases hcases with ⟨hcount, -⟩ | ⟨hcount, -⟩ <;> rw [hcount, hlive, hlength] <;> omega
  · rw [hstopped] at hs
    exact absurd hs (by simp [hrunning])
  · rcases hcases with ⟨-, hcreated⟩ | ⟨-, hcreated⟩
    · rw [hcreated]
      simp [h.never, hrunning]
    · rw [hcreated]
      exact h.never

theorem oneConnection_step {e : WebSocketEvent} (h : OneConnection s) (hstep : useWebSocket.step s e = some s') :
    OneConnection s' ↔ StartsAlone s e := by
  cases e with
  | mount communityId =>
    simp only [useWebSocket] at hstep
    split at hstep
    · cases hstep
    · obtain rfl := Option.some.inj hstep
      refine oneConnection_start ?_ rfl _
      exact h.never
  | unmount =>
    simp only [useWebSocket] at hstep
    split at hstep
    · obtain rfl := Option.some.inj hstep
      exact h.disconnect false
    · cases hstep
  | setCommunityId communityId =>
    obtain ⟨hook, -, hstep⟩ := Option.bind_eq_some_iff.mp hstep
    dsimp only at hstep
    split at hstep
    · obtain rfl := Option.some.inj hstep
      obtain ⟨-, -, hcreated⟩ := s.disconnect_effect s.last
      refine oneConnection_start ?_ rfl _
      exact hcreated.trans h.never
    · cases hstep
  | disconnect =>
    simp only [useWebSocket] at hstep
    split at hstep
    · cases hstep
    · obtain rfl := Option.some.inj hstep
      exact h.disconnect _
  | foreground =>
    obtain rfl := Option.some.inj hstep
    have hquiet : OneConnection { s with stopped := false } := h.of_le (Nat.le_refl _) rfl (fun hs => by cases hs) rfl
    simp only [StartsAlone]
    cases hlast : s.hooks[s.last]? with
    | none => exact ⟨fun _ hook hhook => (nomatch hhook), fun _ => hquiet⟩
    | some hook =>
      simp only [Option.mem_def, Option.some.injEq, forall_eq']
      by_cases hconnect : s.mounted = true ∧ hook.seenConnected = false
      · rw [if_pos hconnect]
        have hstart := @oneConnection_start { s with stopped := false } h.never rfl ⟨s.last, hook.communityId⟩
        exact hstart.trans ⟨fun hs _ _ => hs, fun hs => hs hconnect.1 hconnect.2⟩
      · rw [if_neg hconnect]
        exact ⟨fun _ hmounted hseen => absurd ⟨hmounted, hseen⟩ hconnect, fun _ => hquiet⟩
  | background =>
    obtain rfl := Option.some.inj hstep
    by_cases hmounted : s.mounted = true
    · rw [if_pos hmounted]
      exact (h.disconnect _).trans ⟨fun hs _ => hs, fun hs => hs hmounted⟩
    · rw [if_neg hmounted]
      exact ⟨fun _ hs => absurd hs hmounted, fun _ => h⟩
  | read index result =>
    obtain ⟨connect, hread, rfl⟩ := Option.map_eq_some_iff.mp hstep
    exact ⟨fun _ => trivial, fun _ => h.read hread result⟩
  | onopen socket =>
    obtain ⟨k, -, hstep⟩ := Option.bind_eq_some_iff.mp hstep
    split at hstep
    · obtain rfl := Option.some.inj hstep
      have hlive := WebSockets.liveCount_updateSocket (s := s) (fun _ => Socket.live_of_establish) socket
      exact ⟨fun _ => trivial, fun _ => h.of_le hlive rfl id rfl⟩
    · cases hstep
  | onclose socket =>
    obtain ⟨k, -, hstep⟩ := Option.bind_eq_some_iff.mp hstep
    split at hstep
    · cases hstep
    · obtain rfl := Option.some.inj hstep
      have hlive := WebSockets.liveCount_updateSocket (s := s) (fun _ => Socket.live_of_finish) socket
      exact ⟨fun _ => trivial, fun _ => h.of_le hlive rfl id rfl⟩
  | onerror socket =>
    obtain ⟨k, -, hstep⟩ := Option.bind_eq_some_iff.mp hstep
    split at hstep
    · cases hstep
    · obtain rfl := Option.some.inj hstep
      have hlive := WebSockets.liveCount_updateSocket (s := s) (fun _ => Socket.live_of_close) socket
      obtain ⟨hlive', hreads, hstopped, hcreated⟩ := (s.updateSocket socket Socket.close).closeCurrent_effect k.connect.hook
      refine ⟨fun _ => trivial, fun _ => h.of_le (Nat.le_trans hlive' hlive) hreads (fun hs => ?_) hcreated⟩
      rw [hstopped] at hs
      exact hs
  | fire index =>
    obtain ⟨timer, -, rfl⟩ := Option.map_eq_some_iff.mp hstep
    refine oneConnection_connect ?_ _
    exact h.never
  | update hook =>
    obtain ⟨i, -, hstep⟩ := Option.bind_eq_some_iff.mp hstep
    obtain ⟨update, -, hstep⟩ := Option.bind_eq_some_iff.mp hstep
    obtain rfl := Option.some.inj hstep
    refine ⟨fun _ => trivial, fun _ => ?_⟩
    cases update with
    | zero => exact h.of_le (Nat.le_refl _) rfl id rfl
    | schedule connect =>
      unfold WebSockets.runUpdate
      dsimp only
      split
      · exact h.of_le (Nat.le_refl _) rfl id rfl
      · exact h.of_le (Nat.le_refl _) rfl id rfl
  | render =>
    obtain rfl := Option.some.inj hstep
    exact ⟨fun _ => trivial, fun _ => h.of_le (Nat.le_refl _) rfl id rfl⟩

theorem oneConnection_of_certain (h : useWebSocket.Certain EndsRead OneSocket s) : OneConnection s := by
  generalize hn : s.reads.length = n
  -- on the reads: the socket of the first takes its place
  induction n generalizing s with
  | zero =>
    have hreads := List.eq_nil_of_length_eq_zero hn
    refine ⟨?_, fun _ => hreads, h.now.stopped⟩
    rw [hn]
    exact h.now.one
  | succ n ih =>
    obtain ⟨connect, rest, hreads⟩ := List.exists_cons_of_length_eq_add_one hn
    have hends : EndsRead s (.read 0 (.tokens (some "t"))) := trivial
    have hstep : useWebSocket.step s (.read 0 (.tokens (some "t"))) =
        some ({ s with reads := rest }.createSocket connect "t") := by
      simp only [useWebSocket, hreads, List.getElem?_cons_zero, Option.map_some, List.eraseIdx_cons_zero]
      rfl
    have hrest : rest.length = n := by
      rw [hreads] at hn
      exact Nat.succ.inj hn
    have hnext := ih (h.step hends hstep) hrest
    have hlive : ({ s with reads := rest }.createSocket connect "t").liveCount = s.liveCount + 1 := by
      simp only [WebSockets.liveCount, WebSockets.createSocket, WebSockets.updateHook, List.countP_append]
      rfl
    have hone : s.liveCount + 1 + rest.length ≤ 1 := hlive ▸ hnext.one
    have hnever : (s.createdStopped || s.stopped) = false := hnext.never
    obtain ⟨hcreated, hstopped⟩ := Bool.or_eq_false_iff.mp hnever
    refine ⟨by omega, fun hs => ?_, hcreated⟩
    rw [hstopped] at hs
    cases hs

end

/-- **One socket, and none after `disconnect`**, however the token reads under way end, in all states of a run if and
only if connections are started one at a time, none by a timer while stopped, and `disconnect` overtakes no token
read. -/
theorem one_socket_iff {s₀ s : WebSockets} {tr : List WebSocketEvent} (h₀ : useWebSocket.Init s₀)
    (h : useWebSocket.Run System.Any s₀ tr s) :
    useWebSocket.Throughout (useWebSocket.Certain EndsRead OneSocket) s₀ tr ↔
      useWebSocket.Run StartsAlone s₀ tr s := by
  obtain rfl : s₀ = {} := h₀
  have hinit : OneConnection {} := ⟨by decide, fun _ => rfl, rfl⟩
  refine h.certain_iff (fun _ => True) OneConnection OneSocket trivial hinit (fun _ _ _ _ _ => trivial)
    (fun s hs => ⟨?_, hs.never⟩) ?_ (fun _ _ hcertain => oneConnection_of_certain hcertain)
    fun _ _ _ _ hs _ hstep => oneConnection_step hs hstep
  · have hone := hs.one
    omega
  · intro s e s' _ hs he hstep
    refine (oneConnection_step hs hstep).mpr ?_
    cases e with
    | read => trivial
    | _ => exact he.elim

/-! ### Three runs -/

def readToken : WebSocketEvent := .read 0 (.tokens (some "t"))

/-- The hook is mounted, its socket opens, is lost, and the timer opens the next one. -/
theorem one_socket_iff_lost :
    useWebSocket.Throughout (useWebSocket.Certain EndsRead OneSocket) {}
      [.mount none, readToken, .onopen 0, .onclose 0, .update 0, .update 0, .fire 0, readToken] := by
  have hrun : ∃ s, useWebSocket.Run StartsAlone {}
      [.mount none, readToken, .onopen 0, .onclose 0, .update 0, .update 0, .fire 0, readToken] s :=
    ⟨_, .cons ⟨rfl, rfl⟩ rfl (.cons trivial rfl (.cons trivial rfl (.cons trivial rfl (.cons trivial rfl
      (.cons trivial rfl (.cons ⟨rfl, rfl, rfl⟩ rfl (.single trivial rfl)))))))⟩
  obtain ⟨s, hrun⟩ := hrun
  exact (one_socket_iff rfl (hrun.mono fun _ _ _ => trivial)).mpr hrun

/-- **Two sockets**: the app comes to the foreground while the connection of the mount reads its tokens. -/
theorem two_sockets :
    ¬ ∀ tr s, useWebSocket.Run System.Any {} tr s → s.liveCount ≤ 1 := by
  intro hclaim
  have hrun : ∃ s, useWebSocket.Run System.Any {} [.mount none, .foreground, readToken, readToken] s ∧
      s.liveCount = 2 :=
    ⟨_, .cons trivial rfl (.cons trivial rfl (.cons trivial rfl (.single trivial rfl))), by decide⟩
  obtain ⟨s, hrun, htwo⟩ := hrun
  have hone := hclaim _ s hrun
  omega

/-- **`disconnect` reconnects**: it closes the socket, and the close event starts the timer. -/
theorem reconnects_after_disconnect :
    ¬ ∀ tr s, useWebSocket.Run System.Any {} tr s → s.createdStopped = false := by
  intro hclaim
  have hrun : ∃ s, useWebSocket.Run System.Any {}
      [.mount none, readToken, .onopen 0, .disconnect, .onclose 0, .update 0, .update 0, .fire 0, readToken] s ∧
      s.createdStopped = true :=
    ⟨_, .cons trivial rfl (.cons trivial rfl (.cons trivial rfl (.cons trivial rfl (.cons trivial rfl
      (.cons trivial rfl (.cons trivial rfl (.cons trivial rfl (.single trivial rfl)))))))), by decide⟩
  obtain ⟨s, hrun, hcreated⟩ := hrun
  rw [hclaim _ s hrun] at hcreated
  cases hcreated

end Locus.App
