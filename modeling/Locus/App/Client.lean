import Locus.Mobile.Sessions
import Locus.Server.Accounts

/-!
# The app and its server

A device and the Node server together. A task of the device that awaits an HTTP exchange has a request out
(`request`): the server handles it at one moment (`serve`), and its answer arrives at a later one
(`deliver`), or the exchange ends in a network error or a time-out (`lose`) whether or not it was handled.
Requests from elsewhere, those that the device has given up included, come in between (`elsewhere`).

Every step is a step of the device, one of the server, or an answer on its way between the two
(`step_cases`), so what is proved of the device alone holds here (`run_device`).
-/

namespace Locus.App

open Lib Server Mobile

/-- The body of `axios.post('/auth/refresh', { refresh_token })`. -/
def refreshBody (presented : String) : Json := .obj [("refresh_token", .str presented)]

/-- The `Authorization` header of a request. -/
def authorization (t : Task) : Option String := t.header.map ("Bearer " ++ ·)

/-- The request that the task has out; `other` are the requests of the app besides those of the store. A
`logout` posts no body. -/
def request (other : ℕ → Option String → ApiRequest) (t : Task) : Option ApiRequest :=
  match t.pc with
  | .refreshSent presented => some (.postAuthRefresh (refreshBody presented))
  | .sent => some <| match t.flow with
    | .login email password => .postAuthLogin (credentials email password)
    | .register email password => .postAuthRegister (credentials email password)
    | .logout => .postAuthLogout (.obj [])
    | .loadUser => .getAuthMe (authorization t)
    | .other id => other id (authorization t)
  | _ => none

/-- What the app reads of `data.data` of a body. -/
def payload : Body → Option Payload
  | .failure _ | .legacy .. | .success => none
  | .session user accessToken refreshToken => some ⟨some user.id, some ⟨accessToken, refreshToken⟩⟩
  | .tokens accessToken refreshToken => some ⟨none, some ⟨accessToken, refreshToken⟩⟩
  | .profile user => some ⟨some user.id, none⟩
  | _ => some {}

def reply (response : Response) : Reply := .answer response.status (payload response.body)

/-- The device, the server, and the answers on their way to the device. -/
structure ClientState where
  device : Device
  server : ServerState := {}
  answer : ℕ → Option Response := fun _ => none

inductive ClientEvent
  | start (flow : Flow)
  | keychain (i : ℕ) (o : Outcome)
  | serve (i : ℕ) (env : NodeEnv) (x : ℕ → Tick)
  | deliver (i : ℕ)
  | lose (i : ℕ)
  | elsewhere (r : ApiRequest) (env : NodeEnv) (x : ℕ → Tick)

/-- The exchange of task `i` ends with `reply`. -/
def ClientState.respond (a : ClientState) (i : ℕ) (reply : Reply) : Option ClientState :=
  (Mobile.device.step a.device (.respond i reply)).map fun device =>
    { a with device, answer := Function.update a.answer i none }

/-- The app, started with any content of the Keychain, and the server, started on the empty schema. -/
def client (svc : Services) (other : ℕ → Option String → ApiRequest) : System ClientState ClientEvent where
  Init a := Mobile.device.Init a.device ∧ a.server = {} ∧ ∀ i, a.answer i = none
  step a
    | .start flow => (Mobile.device.step a.device (.start flow)).map fun device => { a with device }
    | .keychain i o => (Mobile.device.step a.device (.keychain i o)).map fun device => { a with device }
    | .serve i env x => ((a.device.task i).bind (request other)).bind fun r =>
      if (a.answer i).isNone then
        let out := Server.serve svc a.server r env x
        some { a with server := out.2, answer := Function.update a.answer i (some out.1) }
      else none
    | .deliver i => (a.answer i).bind fun response => a.respond i (reply response)
    | .lose i => a.respond i .lost
    | .elsewhere r env x => some { a with server := (Server.serve svc a.server r env x).2 }

def ClientState.deviceEvent (a : ClientState) : ClientEvent → Option DeviceEvent
  | .start flow => some (.start flow)
  | .keychain i o => some (.keychain i o)
  | .deliver i => (a.answer i).map fun response => .respond i (reply response)
  | .lose i => some (.respond i .lost)
  | _ => none

variable {svc : Services} {other : ℕ → Option String → ApiRequest} {a a' : ClientState} {e : ClientEvent}

theorem respond_some {i : ℕ} {reply : Reply} (h : a.respond i reply = some a') :
    Mobile.device.step a.device (.respond i reply) = some a'.device ∧ a'.server = a.server ∧
      a'.answer = Function.update a.answer i none := by
  obtain ⟨d, hd, rfl⟩ := Option.map_eq_some_iff.mp h
  exact ⟨hd, rfl, rfl⟩

/-- **A step of the whole** is one of the device, with the answer that it takes in, or one of the server, on
a request of the device or from elsewhere. -/
theorem step_cases (h : (client svc other).step a e = some a') :
    (∃ d, a.deviceEvent e = some d ∧ Mobile.device.step a.device d = some a'.device ∧
        a'.server = a.server ∧ ∀ i response, a'.answer i = some response → a.answer i = some response) ∨
    (∃ i t r env x, e = .serve i env x ∧ a.device.task i = some t ∧ request other t = some r ∧
        a'.device = a.device ∧ a'.server = (Server.serve svc a.server r env x).2 ∧
        a'.answer = Function.update a.answer i (some (Server.serve svc a.server r env x).1)) ∨
    ∃ r env x, e = .elsewhere r env x ∧ a'.device = a.device ∧ a'.answer = a.answer ∧
      a'.server = (Server.serve svc a.server r env x).2 := by
  have hupdate : ∀ (i j : ℕ) (response : Response),
      Function.update a.answer i none j = some response → a.answer j = some response := by
    intro i j response hj
    by_cases hji : j = i
    · subst hji
      simp at hj
    · rwa [Function.update_of_ne hji] at hj
  cases e with
  | start flow =>
    simp only [client, Option.map_eq_some_iff] at h
    obtain ⟨d, hd, rfl⟩ := h
    exact .inl ⟨_, rfl, hd, rfl, fun i response hi => hi⟩
  | keychain i o =>
    simp only [client, Option.map_eq_some_iff] at h
    obtain ⟨d, hd, rfl⟩ := h
    exact .inl ⟨_, rfl, hd, rfl, fun i response hi => hi⟩
  | serve i env x =>
    obtain ⟨r, hr, hserve⟩ := Option.bind_eq_some_iff.mp h
    obtain ⟨t, ht, hreq⟩ := Option.bind_eq_some_iff.mp hr
    split_ifs at hserve
    cases hserve
    exact .inr (.inl ⟨i, t, r, env, x, rfl, ht, hreq, rfl, rfl, rfl⟩)
  | deliver i =>
    obtain ⟨response, hresponse, hstep⟩ := Option.bind_eq_some_iff.mp h
    obtain ⟨hdevice, hserver, hanswer⟩ := respond_some hstep
    refine .inl ⟨_, by rw [ClientState.deviceEvent, hresponse]; rfl, hdevice, hserver, fun j r hj => ?_⟩
    rw [hanswer] at hj
    exact hupdate i j r hj
  | lose i =>
    obtain ⟨hdevice, hserver, hanswer⟩ := respond_some h
    refine .inl ⟨_, rfl, hdevice, hserver, fun j r hj => ?_⟩
    rw [hanswer] at hj
    exact hupdate i j r hj
  | elsewhere r env x =>
    obtain rfl := Option.some.inj h
    exact .inr (.inr ⟨r, env, x, rfl, rfl, rfl, rfl⟩)

/-- **The device within the whole** takes the steps of a device. -/
theorem run_device {C : ClientState → ClientEvent → Prop} {tr : List ClientEvent}
    (h : (client svc other).Run C a tr a') :
    ∃ tr', Mobile.device.Run System.Any a.device tr' a'.device := by
  induction h with
  | nil => exact ⟨[], .nil⟩
  | snoc _ _ hstep ih =>
    obtain ⟨tr', hrun⟩ := ih
    obtain ⟨d, -, hd, -⟩ | ⟨i, t, r, env, x, -, -, -, hd, -⟩ | ⟨r, env, x, -, hd, -⟩ := step_cases hstep
    · exact ⟨tr' ++ [d], .snoc hrun trivial hd⟩
    · exact ⟨tr', hd ▸ hrun⟩
    · exact ⟨tr', hd ▸ hrun⟩

theorem sound_of_reachable {C : ClientState → ClientEvent → Prop} (h : (client svc other).Reachable C a) :
    a.device.Sound := by
  obtain ⟨a₀, tr, hinit, hrun⟩ := h
  obtain ⟨tr', hrun'⟩ := run_device hrun
  exact Device.sound_of_reachable ⟨a₀.device, tr', hinit.1, hrun'⟩

theorem next_le {s s' : Device} {d : DeviceEvent} (h : Mobile.device.step s d = some s') :
    s.next ≤ s'.next := by
  obtain ⟨flow, -, rfl⟩ | ⟨i, t, m, -, -, -, rfl⟩ := Device.step_cases h
  · exact Nat.le_succ s.next
  · unfold Device.apply
    split
    · exact Nat.le_succ s.next
    · exact le_refl s.next

theorem answered_lt {C : ClientState → ClientEvent → Prop} (h : (client svc other).Reachable C a) :
    ∀ i response, a.answer i = some response → i < a.device.next := by
  have hinv : a.device.Sound ∧ ∀ i response, a.answer i = some response → i < a.device.next := by
    refine h.invariant (fun a : ClientState => a.device.Sound ∧
      ∀ i response, a.answer i = some response → i < a.device.next) (fun a hinit => ⟨.init hinit.1, ?_⟩) ?_
    · intro i response hi
      rw [hinit.2.2 i] at hi
      cases hi
    · rintro a e a' ⟨hsound, hlt⟩ - hstep
      obtain ⟨d, -, hd, -, hanswer⟩ | ⟨i, t, r, env, x, -, ht, -, hd, -, hanswer⟩ |
        ⟨r, env, x, -, hd, hanswer, -⟩ := step_cases hstep
      · exact ⟨hsound.step hd, fun j response hj => (hlt j response (hanswer j response hj)).trans_le (next_le hd)⟩
      · refine ⟨hd ▸ hsound, fun j response hj => ?_⟩
        rw [hanswer] at hj
        rw [hd]
        by_cases hji : j = i
        · subst hji
          exact hsound.lt_next ht
        · rw [Function.update_of_ne hji] at hj
          exact hlt j response hj
      · exact ⟨hd ▸ hsound, fun j response hj => hd ▸ hlt j response (hanswer ▸ hj)⟩
  exact hinv.2

end Locus.App
