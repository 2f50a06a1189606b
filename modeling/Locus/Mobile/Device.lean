import Locus.Mobile.Keychain
import Locus.Server.Json

/-!
# The app on a device

The session code of the app as a state machine: the requests of `store/authStore.ts` (`login`,
`register`, `logout`, `loadUser`) and any other request, through the interceptors of `api/client.ts`.
`__DEV__` is false.

JavaScript runs to completion between two awaits, so a step is what happens when one awaited thing
comes back: a Keychain call or an HTTP exchange. A task is one call of the store or one request with
the point it awaits (`Pc`). A step is first computed for the task alone (`Device.keychain`,
`Device.respond`) and then applied to the device: the queue of `client.ts` is settled, and a `signout`
starts a `logout` (`Device.apply`). What a task can do is said once (`KeychainMove`, `RespondMove`), and the
proofs about steps are case analyses over it. The Keychain hands back its results in the order in which its calls
take effect, so a call takes effect when it comes back.
-/

namespace Locus.Mobile

open Lib

abbrev UserId := ℕ

/-- What the app does: a call of the store, or the app's request number `id`. -/
inductive Flow
  | login (email password : String)
  | register (email password : String)
  | logout
  | loadUser
  | other (id : ℕ)
deriving DecidableEq

/-- What a rejected request is rejected with: the answer to it, no answer, a missing refresh token, the
answer to `POST /auth/refresh` with a token, no answer to that, or a `TypeError` on an answer without
data. -/
inductive ApiError
  | response (status : ℕ)
  | noResponse
  | noRefreshToken
  | refreshResponse (presented : String) (status : ℕ)
  | refreshNoResponse
  | typeError
deriving DecidableEq

/-- The fields of `data.data` that the app reads; `none` is `undefined`. -/
structure Payload where
  user : Option UserId := none
  tokens : Option Tokens := none
deriving DecidableEq

/-- What comes back of an HTTP exchange: an answer, with `data.data` if there is one, or a network error
or time-out. -/
inductive Reply
  | answer (status : ℕ) (data : Option Payload)
  | lost
deriving DecidableEq

/-- What a task awaits. -/
inductive Pc
  /-- `loadUser`: `getTokens()` -/
  | boot (c : KeyCall)
  /-- request interceptor: `getTokens()` -/
  | attach (c : KeyCall)
  /-- the answer to the request -/
  | sent
  /-- its place in `failedQueue` -/
  | queued
  /-- response interceptor: `getTokens()` -/
  | refreshRead (c : KeyCall)
  /-- response interceptor: `POST /auth/refresh` -/
  | refreshSent (presented : String)
  /-- response interceptor: `saveTokens(newAccessToken, newRefreshToken)` -/
  | refreshSave (presented : String) (t : Tokens)
  /-- response interceptor: `clearTokens()` behind `refreshError` -/
  | refreshClear (refreshError : ApiError)
  /-- `login`, `register`: `saveTokens(access_token, refresh_token)` -/
  | saving (t : Tokens) (user : Option UserId)
  /-- `register`: `getTokens()` -/
  | verifying (c : KeyCall) (t : Option Tokens) (user : Option UserId)
  /-- `register`: `clearTokens()` -/
  | verifyClear
  /-- `logout`, `loadUser`: `clearTokens()`, behind an error if there was one -/
  | clearing (error : Option ApiError)
  | done
deriving DecidableEq

/-- A call of the store or a request; `retry` is `originalRequest._retry`, `header` the token of its
`Authorization` header. -/
structure Task where
  flow : Flow
  retry : Bool := false
  header : Option String := none
  pc : Pc
deriving DecidableEq

/-- `useAuthStore`, without `serverReachable`. -/
structure AuthState where
  user : Option UserId := none
  isAuthenticated : Bool := false
  isLoading : Bool := false
  isInitialized : Bool := false
deriving DecidableEq

structure Device where
  keys : KeyStore := {}
  isRefreshing : Bool := false
  failedQueue : List ℕ := []
  auth : AuthState := {}
  task : ℕ → Option Task := fun _ => none
  next : ℕ := 0

inductive DeviceEvent
  | start (flow : Flow)
  | keychain (i : ℕ) (o : Outcome)
  | respond (i : ℕ) (reply : Reply)

/-! ### A step of one task -/

/-- What happens to `failedQueue`: nothing, the task joins it, or `processQueue`. -/
inductive QueueOp
  | keep
  | push
  | resolve (token : String)
  | reject (error : ApiError)

/-- The task and the module and store variables behind a step, and whether it emits `signout`. -/
structure Move where
  task : Task
  keys : KeyStore
  auth : AuthState
  isRefreshing : Bool
  queue : QueueOp := .keep
  signout : Bool := false

namespace Device

def move (s : Device) (t : Task) : Move := ⟨t, s.keys, s.auth, s.isRefreshing, .keep, false⟩

/-- Where the `catch` of a flow goes. -/
def caught (flow : Flow) (error : ApiError) : Pc :=
  match flow with
  | .login .. | .register .. | .other _ => .done
  | .logout | .loadUser => .clearing (some error)

/-- `set({ isLoading: false })` in the `catch` of `login` and `register`. -/
def stopsLoading : Flow → Bool
  | .login .. | .register .. => true
  | _ => false

/-- The request is rejected: the `catch` of its flow up to the next await. -/
def reject (s : Device) (t : Task) (error : ApiError) : Move :=
  { s.move { t with pc := caught t.flow error } with
    keys := match t.flow with
      | .logout | .loadUser => s.keys.beginClear
      | _ => s.keys
    auth := { s.auth with isLoading := s.auth.isLoading && !stopsLoading t.flow } }

/-- `set({ user, isAuthenticated: true, isInitialized: true, isLoading: false })` -/
def signIn (s : Device) (t : Task) (user : Option UserId) : Move :=
  { s.move { t with pc := .done } with
    auth := { user, isAuthenticated := true, isLoading := false, isInitialized := true } }

/-- `loadUser` behind `getTokens()`. -/
def bootRead (s : Device) (t : Task) (tokens : Option Tokens) : Move :=
  if tokens.any fun tokens => Server.jsTrim tokens.accessToken ≠ "" then
    s.move { t with pc := .attach .get }
  else { s.move { t with pc := .done } with
    auth := { user := none, isAuthenticated := false, isLoading := false, isInitialized := true } }

/-- The request interceptor behind `getTokens()`: the request is sent. -/
def attachRead (s : Device) (t : Task) (tokens : Option Tokens) : Move :=
  match tokens with
  | some tokens =>
    if tokens.accessToken ≠ "" then s.move { t with header := some tokens.accessToken, pc := .sent }
    else s.move { t with pc := .sent }
  | none => s.move { t with pc := .sent }

/-- `catch (refreshError)` up to `await clearTokens()`. -/
def refreshFail (s : Device) (t : Task) (error : ApiError) : Move :=
  { s.move { t with pc := .refreshClear error } with
    keys := s.keys.beginClear, queue := .reject error }

/-- The response interceptor behind `getTokens()`. -/
def refreshReadDone (s : Device) (t : Task) (tokens : Option Tokens) : Move :=
  match tokens with
  | some tokens =>
    if tokens.refreshToken ≠ "" then s.move { t with pc := .refreshSent tokens.refreshToken }
    else s.refreshFail t .noRefreshToken
  | none => s.refreshFail t .noRefreshToken

/-- The response interceptor behind `saveTokens`: the queue is resolved and the request sent again. -/
def refreshDone (s : Device) (t : Task) (newAccessToken : String) : Move :=
  { s.move { t with header := some newAccessToken, pc := .attach .get } with
    isRefreshing := false, queue := .resolve newAccessToken }

/-- `register` behind its second `getTokens()`. -/
def verified (s : Device) (t : Task) (tokens expected : Option Tokens) (user : Option UserId) : Move :=
  if tokens = expected then s.signIn t user
  else { s.move { t with pc := .verifyClear } with keys := s.keys.beginClear }

/-- `login` and `register` behind `saveTokens`. -/
def saved (s : Device) (t : Task) (tokens : Option Tokens) (user : Option UserId) : Move :=
  match t.flow with
  | .register .. => s.move { t with pc := .verifying .get tokens user }
  | _ => s.signIn t user

/-- The request is resolved with an answer. -/
def resolve (s : Device) (t : Task) (data : Option Payload) : Move :=
  match t.flow with
  | .login .. | .register .. =>
    match data with
    | none => s.reject t .typeError
    | some data =>
      match data.tokens with
      | some tokens =>
        if tokens.valid then s.move { t with pc := .saving tokens data.user }
        else s.saved t (some tokens) data.user
      | none => s.saved t none data.user
  | .logout => { s.move { t with pc := .clearing none } with keys := s.keys.beginClear }
  | .loadUser => s.signIn t (data.bind (·.user))
  | .other _ => s.move { t with pc := .done }

/-- `clearTokens()` of `logout` or `loadUser` is back. -/
def cleared (s : Device) (t : Task) : Move :=
  { s.move { t with pc := .done } with
    auth := match t.flow with
      | .loadUser => { user := none, isAuthenticated := false, isLoading := false, isInitialized := true }
      | _ => { s.auth with user := none, isAuthenticated := false } }

/-- A read of `getTokens()` is back: it awaits its reset, or returns to `k`. -/
def readBack (s : Device) (c : KeyCall) (o : Outcome) (wait : KeyCall → Task)
    (k : Device → Option Tokens → Move) : Move :=
  match c.answer s.keys o with
  | (keys, .awaits c') => { s with keys }.move (wait c')
  | (keys, .returns tokens) => k { s with keys } tokens

/-- The Keychain answers the call that the task awaits. -/
def keychain (s : Device) (t : Task) (o : Outcome) : Option Move :=
  match t.pc with
  | .boot c => some (s.readBack c o (fun c => { t with pc := .boot c }) fun s => s.bootRead t)
  | .attach c => some (s.readBack c o (fun c => { t with pc := .attach c }) fun s => s.attachRead t)
  | .refreshRead c =>
    some (s.readBack c o (fun c => { t with pc := .refreshRead c }) fun s => s.refreshReadDone t)
  | .verifying c expected user =>
    some (s.readBack c o (fun c => { t with pc := .verifying c expected user }) fun s tokens =>
      s.verified t tokens expected user)
  | .refreshSave _ tokens =>
    some ({ s with keys := ((KeyCall.save tokens).answer s.keys o).1 }.refreshDone t tokens.accessToken)
  | .saving tokens user =>
    some ({ s with keys := ((KeyCall.save tokens).answer s.keys o).1 }.saved t (some tokens) user)
  | .refreshClear error =>
    some { { s with keys := s.keys.reset o }.reject t error with isRefreshing := false, signout := true }
  | .verifyClear =>
    some { s.move { t with pc := .done } with
      keys := s.keys.reset o, auth := { s.auth with isLoading := false } }
  | .clearing _ => some ({ s with keys := s.keys.reset o }.cleared t)
  | .sent | .queued | .refreshSent _ | .done => none

/-- The HTTP exchange that the task awaits is over. -/
def respond (s : Device) (t : Task) (reply : Reply) : Option Move :=
  match t.pc, reply with
  | .sent, .lost => some (s.reject t .noResponse)
  | .sent, .answer status data =>
    if 200 ≤ status ∧ status < 300 then some (s.resolve t data)
    else if status ≠ 401 ∨ t.retry then some (s.reject t (.response status))
    else if s.isRefreshing then some { s.move { t with pc := .queued } with queue := .push }
    else some { s.move { t with retry := true, pc := .refreshRead .get } with isRefreshing := true }
  | .refreshSent _, .lost => some (s.refreshFail t .refreshNoResponse)
  | .refreshSent presented, .answer status data =>
    if 200 ≤ status ∧ status < 300 then
      match data with
      | none => some (s.refreshFail t .typeError)
      | some data =>
        match data.tokens with
        | some tokens =>
          if tokens.valid then some (s.move { t with pc := .refreshSave presented tokens })
          else some (s.refreshDone t tokens.accessToken)
        | none => some (s.refreshDone t "undefined")
    else some (s.refreshFail t (.refreshResponse presented status))
  | _, _ => none

/-! ### The cases of a move -/

inductive KeychainMove (s : Device) (t : Task) (o : Outcome) : Move → Prop
  | boot (c : KeyCall) (hpc : t.pc = .boot c) :
      KeychainMove s t o (s.readBack c o (fun c => { t with pc := .boot c }) fun s => s.bootRead t)
  | attach (c : KeyCall) (hpc : t.pc = .attach c) :
      KeychainMove s t o (s.readBack c o (fun c => { t with pc := .attach c }) fun s => s.attachRead t)
  | refreshRead (c : KeyCall) (hpc : t.pc = .refreshRead c) :
      KeychainMove s t o
        (s.readBack c o (fun c => { t with pc := .refreshRead c }) fun s => s.refreshReadDone t)
  | verifying (c : KeyCall) (expected : Option Tokens) (user : Option UserId)
      (hpc : t.pc = .verifying c expected user) :
      KeychainMove s t o (s.readBack c o (fun c => { t with pc := .verifying c expected user })
        fun s tokens => s.verified t tokens expected user)
  | refreshSave (presented : String) (tokens : Tokens) (hpc : t.pc = .refreshSave presented tokens) :
      KeychainMove s t o
        ({ s with keys := ((KeyCall.save tokens).answer s.keys o).1 }.refreshDone t tokens.accessToken)
  | saving (tokens : Tokens) (user : Option UserId) (hpc : t.pc = .saving tokens user) :
      KeychainMove s t o ({ s with keys := ((KeyCall.save tokens).answer s.keys o).1 }.saved t (some tokens) user)
  | refreshClear (error : ApiError) (hpc : t.pc = .refreshClear error) :
      KeychainMove s t o
        { { s with keys := s.keys.reset o }.reject t error with isRefreshing := false, signout := true }
  | verifyClear (hpc : t.pc = .verifyClear) :
      KeychainMove s t o { s.move { t with pc := .done } with
        keys := s.keys.reset o, auth := { s.auth with isLoading := false } }
  | clearing (error : Option ApiError) (hpc : t.pc = .clearing error) :
      KeychainMove s t o ({ s with keys := s.keys.reset o }.cleared t)

theorem keychain_cases {s : Device} {t : Task} {o : Outcome} {m : Move} (h : s.keychain t o = some m) :
    KeychainMove s t o m := by
  unfold keychain at h
  split at h
  case h_1 c hpc => exact Option.some.inj h ▸ .boot c hpc
  case h_2 c hpc => exact Option.some.inj h ▸ .attach c hpc
  case h_3 c hpc => exact Option.some.inj h ▸ .refreshRead c hpc
  case h_4 c expected user hpc => exact Option.some.inj h ▸ .verifying c expected user hpc
  case h_5 presented tokens hpc => exact Option.some.inj h ▸ .refreshSave presented tokens hpc
  case h_6 tokens user hpc => exact Option.some.inj h ▸ .saving tokens user hpc
  case h_7 error hpc => exact Option.some.inj h ▸ .refreshClear error hpc
  case h_8 hpc => exact Option.some.inj h ▸ .verifyClear hpc
  case h_9 error hpc => exact Option.some.inj h ▸ .clearing error hpc
  all_goals cases h

inductive ResolveMove (s : Device) (t : Task) (data : Option Payload) : Move → Prop
  /-- `login` and `register`, on an answer without data. -/
  | noData (hflow : stopsLoading t.flow = true) (hdata : data = none) :
      ResolveMove s t data (s.reject t .typeError)
  | saves (payload : Payload) (tokens : Tokens) (hflow : stopsLoading t.flow = true) (hdata : data = some payload)
      (htokens : payload.tokens = some tokens) (hvalid : tokens.valid = true) :
      ResolveMove s t data (s.move { t with pc := .saving tokens payload.user })
  /-- `login` and `register`, without a pair that can be saved. -/
  | unsaved (payload : Payload) (hflow : stopsLoading t.flow = true) (hdata : data = some payload)
      (hinvalid : payload.tokens.any (·.valid) = false) :
      ResolveMove s t data (s.saved t payload.tokens payload.user)
  | logout (hflow : t.flow = .logout) :
      ResolveMove s t data { s.move { t with pc := .clearing none } with keys := s.keys.beginClear }
  | loadUser (hflow : t.flow = .loadUser) : ResolveMove s t data (s.signIn t (data.bind (·.user)))
  | other (id : ℕ) (hflow : t.flow = .other id) : ResolveMove s t data (s.move { t with pc := .done })

theorem resolve_cases {s : Device} {t : Task} {data : Option Payload} {m : Move} (h : s.resolve t data = m) :
    ResolveMove s t data m := by
  subst h
  unfold resolve
  split
  case h_3 hflow => exact .logout hflow
  case h_4 hflow => exact .loadUser hflow
  case h_5 id hflow => exact .other id hflow
  all_goals  -- `login` and `register`
    rename_i hlogin
    have hflow : stopsLoading t.flow = true := by rw [hlogin]; rfl
    split
    · exact .noData hflow rfl
    · rename_i payload
      split
      · rename_i tokens htokens
        split
        · rename_i hvalid
          exact .saves payload tokens hflow rfl htokens hvalid
        · rename_i hinvalid
          exact htokens ▸ .unsaved payload hflow rfl (by simp [htokens, hinvalid])
      · rename_i htokens
        exact htokens ▸ .unsaved payload hflow rfl (by simp [htokens])

/-- What the end of an HTTP exchange does to the task that awaits it. -/
inductive RespondMove (s : Device) (t : Task) : Reply → Move → Prop
  | lost (hpc : t.pc = .sent) : RespondMove s t .lost (s.reject t .noResponse)
  | resolved (status : ℕ) (data : Option Payload) (hpc : t.pc = .sent) (h2xx : 200 ≤ status ∧ status < 300) :
      RespondMove s t (.answer status data) (s.resolve t data)
  | rejected (status : ℕ) (data : Option Payload) (hpc : t.pc = .sent) (h2xx : ¬ (200 ≤ status ∧ status < 300))
      (hstatus : status ≠ 401 ∨ t.retry = true) :
      RespondMove s t (.answer status data) (s.reject t (.response status))
  /-- A 401 while a refresh is on. -/
  | queued (data : Option Payload) (hpc : t.pc = .sent) (hretry : t.retry = false) (hflag : s.isRefreshing = true) :
      RespondMove s t (.answer 401 data) { s.move { t with pc := .queued } with queue := .push }
  /-- A 401 that begins a refresh. -/
  | leads (data : Option Payload) (hpc : t.pc = .sent) (hretry : t.retry = false) (hflag : s.isRefreshing = false) :
      RespondMove s t (.answer 401 data)
        { s.move { t with retry := true, pc := .refreshRead .get } with isRefreshing := true }
  | refreshLost (presented : String) (hpc : t.pc = .refreshSent presented) :
      RespondMove s t .lost (s.refreshFail t .refreshNoResponse)
  | refreshRejected (presented : String) (status : ℕ) (data : Option Payload) (hpc : t.pc = .refreshSent presented)
      (h2xx : ¬ (200 ≤ status ∧ status < 300)) :
      RespondMove s t (.answer status data) (s.refreshFail t (.refreshResponse presented status))
  | refreshEmpty (presented : String) (status : ℕ) (hpc : t.pc = .refreshSent presented)
      (h2xx : 200 ≤ status ∧ status < 300) : RespondMove s t (.answer status none) (s.refreshFail t .typeError)
  | refreshed (presented : String) (status : ℕ) (data : Payload) (tokens : Tokens)
      (hpc : t.pc = .refreshSent presented) (h2xx : 200 ≤ status ∧ status < 300)
      (htokens : data.tokens = some tokens) (hvalid : tokens.valid = true) :
      RespondMove s t (.answer status (some data)) (s.move { t with pc := .refreshSave presented tokens })
  /-- An answer without a pair that can be saved: the access token is used all the same. -/
  | unsaved (presented : String) (status : ℕ) (data : Payload) (hpc : t.pc = .refreshSent presented)
      (h2xx : 200 ≤ status ∧ status < 300) (hinvalid : data.tokens.any (·.valid) = false) :
      RespondMove s t (.answer status (some data))
        (s.refreshDone t (data.tokens.elim "undefined" (·.accessToken)))

theorem respond_cases {s : Device} {t : Task} {reply : Reply} {m : Move} (h : s.respond t reply = some m) :
    RespondMove s t reply m := by
  unfold respond at h
  split at h
  case h_1 hpc => exact Option.some.inj h ▸ .lost hpc
  case h_2 status data hpc =>
    split_ifs at h with h2xx hreject hflag
    · exact Option.some.inj h ▸ .resolved status data hpc h2xx
    · exact Option.some.inj h ▸ .rejected status data hpc h2xx hreject
    · obtain ⟨rfl, hretry⟩ : status = 401 ∧ t.retry = false := by simpa using hreject
      exact Option.some.inj h ▸ .queued data hpc hretry hflag
    · obtain ⟨rfl, hretry⟩ : status = 401 ∧ t.retry = false := by simpa using hreject
      exact Option.some.inj h ▸ .leads data hpc hretry (by simpa using hflag)
  case h_3 presented hpc => exact Option.some.inj h ▸ .refreshLost presented hpc
  case h_4 presented status data hpc =>
    split_ifs at h with h2xx
    · cases data with
      | none => exact Option.some.inj h ▸ .refreshEmpty presented status hpc h2xx
      | some data =>
        dsimp only at h
        cases htokens : data.tokens with
        | none =>
          simp only [htokens] at h
          have hunsaved := RespondMove.unsaved (s := s) presented status data hpc h2xx (by simp [htokens])
          rw [htokens] at hunsaved
          exact Option.some.inj h ▸ hunsaved
        | some tokens =>
          simp only [htokens] at h
          split_ifs at h with hvalid
          · exact Option.some.inj h ▸ .refreshed presented status data tokens hpc h2xx htokens hvalid
          · have hunsaved := RespondMove.unsaved (s := s) presented status data hpc h2xx (by simp [htokens, hvalid])
            rw [htokens] at hunsaved
            exact Option.some.inj h ▸ hunsaved
    · exact Option.some.inj h ▸ .refreshRejected presented status data hpc h2xx
  case h_5 => cases h

/-! ### A step of the device -/

/-- `set({ isLoading: true })` before the first await of `login`, `register` and `loadUser`. -/
def startsLoading : Flow → Bool
  | .login .. | .register .. | .loadUser => true
  | _ => false

def entry : Flow → Pc
  | .loadUser => .boot .get
  | _ => .attach .get

/-- A call of the store or a request starts. -/
def start (s : Device) (flow : Flow) : Device :=
  { s with
    auth := { s.auth with isLoading := s.auth.isLoading || startsLoading flow }
    task := Function.update s.task s.next (some { flow, pc := entry flow })
    next := s.next + 1 }

/-- What `processQueue` does to a task of the queue: its request is sent again, or rejected. -/
def settle : QueueOp → Task → Task
  | .resolve token, t => { t with header := some token, pc := .attach .get }
  | .reject error, t => { t with pc := caught t.flow error }
  | _, t => t

/-- The queue and its tasks behind a step of task `i`. -/
def queueAfter (s : Device) (i : ℕ) : QueueOp → List ℕ
  | .keep => s.failedQueue
  | .push => s.failedQueue ++ [i]
  | .resolve _ | .reject _ => []

/-- A call of `login` or `register` in the queue is rejected by the step. -/
def stops (s : Device) : QueueOp → Bool
  | .reject _ => s.failedQueue.any fun j => (s.task j).any fun t => stopsLoading t.flow
  | _ => false

/-- The step of task `i` on the device, and `processQueue`. -/
def advance (s : Device) (i : ℕ) (m : Move) : Device where
  keys := m.keys
  isRefreshing := m.isRefreshing
  failedQueue := s.queueAfter i m.queue
  auth := { m.auth with isLoading := m.auth.isLoading && !s.stops m.queue }
  task := Function.update
    (fun j => if j ∈ s.failedQueue then (s.task j).map (settle m.queue) else s.task j) i (some m.task)
  next := s.next

/-- The step of task `i`, with the `logout` that a `signout` starts. -/
def apply (s : Device) (i : ℕ) (m : Move) : Device :=
  if m.signout then (s.advance i m).start .logout else s.advance i m

def step (s : Device) : DeviceEvent → Option Device
  | .start flow => some (s.start flow)
  | .keychain i o => (s.task i).bind fun t => (s.keychain t o).map (s.apply i)
  | .respond i reply => (s.task i).bind fun t => (s.respond t reply).map (s.apply i)

end Device

/-- The app started, with any content of the Keychain. -/
def device : System Device DeviceEvent where
  Init s := ∃ item, s = { keys := { item } }
  step := Device.step

end Locus.Mobile
