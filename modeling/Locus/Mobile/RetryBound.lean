import Locus.Mobile.Queue
import Mathlib.Algebra.BigOperators.Group.Finset.Basic
import Mathlib.Algebra.Order.BigOperators.Group.Finset
import Mathlib.Order.Interval.Finset.Nat

/-!
# The retry loop is bounded

A request out of the queue is sent again without `_retry`, so its next 401 may queue it behind the refresh of
another request, and so on. What bounds the loop is that each request leads at most one refresh, and that a
refresh sends each request again at most once: a request has been sent once for each refresh so far, and may
be sent once more while none is on (`Bounded.budget`). A `logout` that is not answered 401 takes no part.
-/

namespace Locus.Mobile

open Lib

/-! ### What a task has still to do -/

/-- The request is still to be sent. -/
def Task.unsent (t : Task) : ℕ :=
  match t.pc with
  | .boot _ | .attach _ => 1
  | _ => 0

/-- The task may still lead a refresh. -/
def Task.unretried (t : Task) : ℕ := if t.retry then 0 else 1

/-- `POST /auth/refresh` is still to be sent. -/
def Task.unposted (t : Task) : ℕ :=
  match t.pc with
  | .refreshRead _ => 1
  | _ => 0

def Pc.isSent : Pc → Bool
  | .sent => true
  | _ => false

/-- `originalRequest._retry = true; isRefreshing = true` -/
def Pc.beginsRefresh : Pc → Bool
  | .refreshRead .get => true
  | _ => false

/-- `POST /auth/refresh` is sent. -/
def Pc.isRefreshSent : Pc → Bool
  | .refreshSent _ => true
  | _ => false

/-- Nothing is sent here, and nothing is left to send. -/
def Pc.rests : Pc → Bool
  | .boot _ | .attach _ | .sent | .refreshRead _ | .refreshSent _ => false
  | _ => true

namespace Device

/-- The task that the step takes to a point of `p`. -/
def reaches (p : Pc → Bool) (s : Device) (e : DeviceEvent) : Option ℕ :=
  e.task.filter fun i => ((s.task i).bind fun t => s.turn t e).any fun m => p m.task.pc

def starts (s : Device) : DeviceEvent → Option ℕ
  | .start _ => some s.next
  | _ => none

/-- The task whose request is sent. -/
def sends : Device → DeviceEvent → Option ℕ := reaches Pc.isSent

def refreshes : Device → DeviceEvent → Option ℕ := reaches Pc.beginsRefresh

/-- The task that sends `POST /auth/refresh`. -/
def posts : Device → DeviceEvent → Option ℕ := reaches Pc.isRefreshSent

/-- The step is not a 401 to `POST /auth/logout`. -/
def sparesLogout (s : Device) : DeviceEvent → Bool
  | .respond i (.answer 401 _) => !(s.task i).any fun t => t.flow = .logout && t.pc = .sent
  | _ => true

theorem reaches_start (p : Pc → Bool) (s : Device) (flow : Flow) : s.reaches p (.start flow) = none := rfl

theorem reaches_turn (p : Pc → Bool) {s : Device} {e : DeviceEvent} {i : ℕ} {t : Task} {m : Move}
    (he : e.task = some i) (ht : s.task i = some t) (hm : s.turn t e = some m) :
    (s.reaches p e).toList = if p m.task.pc then [i] else [] := by
  have hreaches : s.reaches p e = if p m.task.pc then some i else none := by
    simp [reaches, he, ht, hm, Option.filter_some]
  rw [hreaches]
  split <;> rfl

/-! ### What a move costs -/

/-- One more request may be sent again: `processQueue(null, newAccessToken)`. -/
def releases (m : Move) : ℕ :=
  match m.queue with
  | .resolve _ => 1
  | _ => 0

/-- A move pays for what it sends and begins with what its task has still to do. -/
structure Pays (t : Task) (m : Move) : Prop where
  flow : m.task.flow = t.flow
  sends : m.task.unsent + (if m.task.pc.isSent then 1 else 0) ≤ t.unsent + releases m
  refreshes : m.task.unretried + (if m.task.pc.beginsRefresh then 1 else 0) ≤ t.unretried
  posts : m.task.unposted + (if m.task.pc.isRefreshSent then 1 else 0) ≤
    t.unposted + if m.task.pc.beginsRefresh then 1 else 0

section
variable {s : Device} {t : Task} {m : Move}

theorem Pays.goes (hflow : m.task.flow = t.flow) (hretry : m.task.retry = t.retry)
    (hbegins : m.task.pc.beginsRefresh = false)
    (hsends : m.task.unsent + (if m.task.pc.isSent then 1 else 0) ≤ t.unsent + releases m)
    (hposts : m.task.unposted + (if m.task.pc.isRefreshSent then 1 else 0) ≤ t.unposted) : Pays t m := by
  refine ⟨hflow, hsends, ?_, ?_⟩
  · simp [hbegins, Task.unretried, hretry]
  · simpa [hbegins] using hposts

/-- A move to a point at which nothing is sent and nothing is left to send. -/
theorem Pays.rests (hflow : m.task.flow = t.flow) (hretry : m.task.retry = t.retry)
    (hpc : m.task.pc.rests) : Pays t m := by
  have hidle : m.task.unsent = 0 ∧ m.task.pc.isSent = false ∧ m.task.pc.beginsRefresh = false ∧
      m.task.unposted = 0 ∧ m.task.pc.isRefreshSent = false := by
    unfold Task.unsent Task.unposted
    cases hm : m.task.pc <;> simp_all [Pc.rests, Pc.isSent, Pc.beginsRefresh, Pc.isRefreshSent]
  obtain ⟨hsent, hsends, hbegins, hposted, hposts⟩ := hidle
  refine .goes hflow hretry hbegins ?_ ?_
  · simp [hsent, hsends]
  · simp [hposted, hposts]

theorem pays_reject (error : ApiError) : Pays t (s.reject t error) := by
  refine .rests rfl rfl ?_
  cases hflow : t.flow <;> simp [reject, move, caught, hflow, Pc.rests]

theorem pays_saved (tokens : Option Tokens) (user : Option UserId) : Pays t (s.saved t tokens user) := by
  unfold saved
  split <;> exact .rests rfl rfl rfl

theorem pays_resolve (data : Option Payload) : Pays t (s.resolve t data) := by
  generalize hm : s.resolve t data = m
  cases resolve_cases hm with
  | noData hflow hdata => exact pays_reject _
  | saves payload tokens hflow hdata htokens hvalid => exact .rests rfl rfl rfl
  | unsaved payload hflow hdata hinvalid => exact pays_saved _ _
  | logout hflow => exact .rests rfl rfl rfl
  | loadUser hflow => exact .rests rfl rfl rfl
  | other id hflow => exact .rests rfl rfl rfl

theorem pays_refreshDone (token : String) : Pays t (s.refreshDone t token) := by
  refine .goes rfl rfl rfl ?_ ?_
  · simp [refreshDone, move, releases, Task.unsent, Pc.isSent]
  · simp [refreshDone, move, Task.unposted, Pc.isRefreshSent]

theorem pays_respond {reply : Reply} (h : s.respond t reply = some m) : Pays t m := by
  cases respond_cases h with
  | lost hpc => exact pays_reject _
  | resolved status data hpc h2xx => exact pays_resolve _
  | rejected status data hpc h2xx hstatus => exact pays_reject _
  | queued data hpc hretry hflag => exact .rests rfl rfl rfl
  | leads data hpc hretry hflag =>
    -- the request is marked: what it had to spend is the refresh that it begins
    refine ⟨rfl, ?_, ?_, ?_⟩
    · simp [Task.unsent, move, Pc.isSent]
    · simp [Task.unretried, move, hretry, Pc.beginsRefresh]
    · simp [Task.unposted, move, Pc.isRefreshSent, Pc.beginsRefresh]
  | refreshLost presented hpc => exact .rests rfl rfl rfl
  | refreshRejected presented status data hpc h2xx => exact .rests rfl rfl rfl
  | refreshEmpty presented status hpc h2xx => exact .rests rfl rfl rfl
  | refreshed presented status data tokens hpc h2xx htokens hvalid => exact .rests rfl rfl rfl
  | unsaved presented status data hpc h2xx hinvalid => exact pays_refreshDone _

/-- A read waits for its reset with what it had to send, or hands on to a move that pays. -/
theorem pays_readBack {c : KeyCall} {o : Outcome} {wait : KeyCall → Task} {k : Device → Option Tokens → Move}
    (hwait : Pays t (s.move (wait .getReset))) (hk : ∀ s' tokens, Pays t (k s' tokens)) :
    Pays t (s.readBack c o wait k) := by
  rcases readBack_cases s c o wait k with ⟨keys, -, hm⟩ | ⟨keys, tokens, -, hm⟩ <;> rw [hm]
  · exact ⟨hwait.flow, hwait.sends, hwait.refreshes, hwait.posts⟩
  · exact hk _ _

theorem pays_attachRead {c : KeyCall} (hpc : t.pc = .attach c) (s : Device) (tokens : Option Tokens) :
    Pays t (s.attachRead t tokens) := by
  have hsends : ∀ header, Pays t (s.move { t with header, pc := .sent }) := by
    intro header
    refine .goes rfl rfl rfl ?_ ?_
    · simp [Task.unsent, move, hpc, Pc.isSent]
    · simp [Task.unposted, move, Pc.isRefreshSent]
  unfold attachRead
  split
  · split
    · exact hsends _
    · exact hsends _
  · exact hsends _

theorem pays_bootRead {c : KeyCall} (hpc : t.pc = .boot c) (s : Device) (tokens : Option Tokens) :
    Pays t (s.bootRead t tokens) := by
  unfold bootRead
  split
  · refine .goes rfl rfl rfl ?_ ?_
    · simp [Task.unsent, move, hpc, Pc.isSent]
    · simp [Task.unposted, move, Pc.isRefreshSent]
  · exact .rests rfl rfl rfl

theorem pays_refreshReadDone {c : KeyCall} (hpc : t.pc = .refreshRead c) (s : Device)
    (tokens : Option Tokens) : Pays t (s.refreshReadDone t tokens) := by
  unfold refreshReadDone
  split
  · split
    · refine .goes rfl rfl rfl ?_ ?_
      · simp [Task.unsent, move, Pc.isSent]
      · simp [Task.unposted, move, hpc, Pc.isRefreshSent]
    · exact .rests rfl rfl rfl
  · exact .rests rfl rfl rfl

theorem pays_keychain {o : Outcome} (h : s.keychain t o = some m) : Pays t m := by
  cases keychain_cases h with
  | boot c hpc =>
    refine pays_readBack (.goes rfl rfl rfl ?_ ?_) (pays_bootRead hpc)
    · simp [Task.unsent, move, hpc, Pc.isSent]
    · simp [Task.unposted, move, Pc.isRefreshSent]
  | attach c hpc =>
    refine pays_readBack (.goes rfl rfl rfl ?_ ?_) (pays_attachRead hpc)
    · simp [Task.unsent, move, hpc, Pc.isSent]
    · simp [Task.unposted, move, Pc.isRefreshSent]
  | refreshRead c hpc =>
    refine pays_readBack (.goes rfl rfl rfl ?_ ?_) (pays_refreshReadDone hpc)
    · simp [Task.unsent, move, Pc.isSent]
    · simp [Task.unposted, move, hpc, Pc.isRefreshSent]
  | verifying c expected user hpc =>
    refine pays_readBack (.rests rfl rfl rfl) fun s' tokens => ?_
    unfold verified
    split <;> exact .rests rfl rfl rfl
  | refreshSave presented tokens hpc => exact pays_refreshDone _
  | saving tokens user hpc => exact pays_saved _ _
  | refreshClear error hpc =>
    have hreject := pays_reject (s := { s with keys := s.keys.reset o }) (t := t) error
    exact ⟨hreject.flow, hreject.sends, hreject.refreshes, hreject.posts⟩
  | verifyClear hpc => exact .rests rfl rfl rfl
  | clearing error hpc => exact .rests rfl rfl rfl

theorem pays_turn {e : DeviceEvent} (h : s.turn t e = some m) : Pays t m := by
  cases e with
  | start flow => cases h
  | keychain i o => exact pays_keychain h
  | respond i reply => exact pays_respond h

end

/-! ### What the tasks owe -/

/-- What task `i` has still to do by `f`, and `fresh` if it has not started. -/
def owes (s : Device) (f : Task → ℕ) (fresh i : ℕ) : ℕ := (s.task i).elim fresh f

theorem owes_of_task {s : Device} {f : Task → ℕ} {fresh i : ℕ} {t : Task} (h : s.task i = some t) :
    s.owes f fresh i = f t := by simp [owes, h]

theorem start_owes {s : Device} (h : s.Sound) (f : Task → ℕ) (fresh : ℕ) (flow : Flow)
    (hfresh : f { flow, pc := entry flow } = fresh) (i : ℕ) :
    (s.start flow).owes f fresh i = s.owes f fresh i := by
  by_cases hi : i = s.next
  · subst hi
    simp [owes, start, h.fresh _ le_rfl, hfresh]
  · simp [owes, start_task_of_ne s hi]

/-- In a step of task `i` a task `j` pays for what it does, if a move of task `i` does so, from what it owes and
what `processQueue` gives it. -/
theorem apply_owes {s : Device} (h : s.Sound) {i : ℕ} {t : Task} (ht : s.task i = some t) {m : Move}
    (f : Task → ℕ) (fresh j k : ℕ) (b : Bool)
    (hmove : j = i → f m.task + (if b then 1 else 0) ≤ f t + k)
    (hsettle : j ∈ s.failedQueue → ∀ u, u.pc = .queued → f (settle m.queue u) ≤ f u + k)
    (hfresh : f { flow := .logout, pc := .attach .get } = fresh) :
    (if b ∧ j = i then 1 else 0) + (s.apply i m).owes f fresh j ≤ s.owes f fresh j + k := by
  by_cases hj : j = i
  · subst hj
    have hmove := hmove rfl
    rw [owes_of_task ht, owes_of_task (apply_task_self h ht m)]
    simp only [and_true]
    omega
  simp only [hj, and_false, if_false, Nat.zero_add]
  cases hu : (s.apply i m).task j with
  | none =>
    have hnone : s.task j = none := by
      by_contra hsome
      obtain ⟨v, hv⟩ := Option.ne_none_iff_exists'.mp hsome
      simp [apply_task_of_ne h hv hj] at hu
    simp [owes, hu, hnone]
  | some u =>
    rw [owes_of_task hu]
    rcases apply_task_cases h ht hu with ⟨rfl, -⟩ | ⟨v, hv, -, rfl⟩ | ⟨-, rfl, rfl⟩
    · exact absurd rfl hj
    · rw [owes_of_task hv]
      split
      · rename_i hqueued
        exact hsettle hqueued v (h.pc_of_mem hv hqueued)
      · omega
    · have hnone := h.fresh _ le_rfl
      simp [owes, hnone, hfresh]

theorem settle_unsent (m : Move) (u : Task) :
    (settle m.queue u).unsent ≤ u.unsent + releases m := by
  unfold settle releases
  cases m.queue with
  | keep | push => exact le_rfl
  | resolve token => simp [Task.unsent]
  | reject error => cases hflow : u.flow <;> simp [Task.unsent, caught, hflow]

theorem settle_unretried (op : QueueOp) (u : Task) : (settle op u).unretried = u.unretried := by
  cases op <;> rfl

theorem settle_unposted (op : QueueOp) {u : Task} (hpc : u.pc = .queued) :
    (settle op u).unposted = u.unposted := by
  cases op with
  | keep | push => rfl
  | resolve token => simp [settle, Task.unposted, hpc]
  | reject error => cases hflow : u.flow <;> simp [settle, Task.unposted, caught, hpc, hflow]

theorem apply_next (s : Device) (i : ℕ) (m : Move) :
    (s.apply i m).next = s.next + if m.signout then 1 else 0 := by
  unfold apply
  split <;> rfl

theorem not_done_of_turn {s : Device} {t : Task} {e : DeviceEvent} {m : Move} (h : s.turn t e = some m) :
    t.pc ≠ .done := by
  intro hdone
  cases e with
  | start flow => cases h
  | keychain i o => simp [turn, keychain, hdone] at h
  | respond i reply => simp [turn, respond, hdone] at h

/-- What a move begins or ends of the refresh pays for what it releases. -/
theorem Turn.balance {s : Device} (h : s.Sound) {i : ℕ} {t : Task} {e : DeviceEvent} {m : Move}
    (ht : s.task i = some t) (hturn : Turn s t e m) :
    (if s.isRefreshing then 0 else 1) + releases m ≤
        (if m.task.pc.beginsRefresh then 1 else 0) + (if m.isRefreshing then 0 else 1) ∧
      (if m.signout then 1 else 0) + (if m.isRefreshing then 1 else 0) ≤
        (if s.isRefreshing then 1 else 0) + if m.task.pc.beginsRefresh then 1 else 0 := by
  have hbusy : t.pc.role.flies → s.isRefreshing := by
    intro hflies
    refine h.flight.busy.mpr ⟨i, ?_⟩
    show (s.role i).flies = true
    rwa [role_of_task ht]
  cases hturn with
  | stays _ _ hflag hqueue hsignout =>
    simp only [hflag, hsignout, releases, hqueue]
    exact ⟨by omega, by simp⟩
  | joins _ _ _ _ _ hflag hm => simp [hm, move, releases, hflag]
  | leads _ _ _ _ _ hflag hm => simp [hm, move, releases, hflag, Pc.beginsRefresh]
  | lands _ hrole _ hflag hqueue hsignout =>
    simp [hbusy (by rw [hrole]; rfl), releases, hqueue, hflag, hsignout]
  | fails _ _ _ hflag hqueue hsignout _ =>
    simp only [hflag, hsignout, releases, hqueue]
    exact ⟨by omega, by simp⟩
  | closes _ hpc _ hflag hqueue hsignout =>
    simp [hbusy (by rw [hpc]; rfl), releases, hqueue, hflag, hsignout]

end Device

/-! ### The bound -/

/-- What the tasks that have `started`, that began to refresh (`led`), whose request was `sent` and that `posted`
a refresh have done, and may still do. -/
structure Accounted (started led sent posted : List ℕ) (s : Device) : Prop where
  sound : s.Sound
  /-- A request is sent once for each refresh so far, and once more while none is on. -/
  budget : ∀ i, sent.count i + s.owes Task.unsent 1 i ≤ led.length + if s.isRefreshing then 0 else 1
  once : ∀ i, led.count i + s.owes Task.unretried 1 i ≤ 1
  posts : ∀ i, posted.count i + s.owes Task.unposted 0 i ≤ led.count i
  /-- A `logout` that was not started takes no part in a refresh. -/
  quiet : ∀ i, i ∉ started → led.count i = 0 ∧ sent.count i + s.owes Task.unsent 1 i ≤ 1 ∧
    ∀ t, s.task i = some t → t.pc.role = .free ∧ (t.flow = .logout ∨ t.pc = .done)

/-- The same since the device was at rest with its tasks numbered below `first`. -/
structure Bounded (first : ℕ) (started led sent posted : List ℕ) (s : Device) : Prop
    extends Accounted started led sent posted s where
  /-- Each task was started, or is the `logout` behind a refresh that is over. -/
  next : s.next + (if s.isRefreshing then 1 else 0) ≤ first + started.length + led.length
  first_le : first ≤ s.next
  rest : ∀ i t, i < first → s.task i = some t → t.pc = .done
  range : ∀ i ∈ sent, first ≤ i ∧ i < s.next

theorem count_append_ite (l : List ℕ) (b : Bool) (i j : ℕ) :
    (l ++ if b then [i] else []).count j = l.count j + if b ∧ j = i then 1 else 0 := by
  by_cases hj : j = i
  · cases b <;> simp [hj]
  · cases b <;> simp [hj, List.count_eq_zero]

theorem length_append_ite (l : List ℕ) (b : Bool) (i : ℕ) :
    (l ++ if b then [i] else []).length = l.length + if b then 1 else 0 := by
  cases b <;> simp

namespace Accounted

variable {started led sent posted : List ℕ} {s : Device}

theorem start (h : Accounted started led sent posted s) (flow : Flow) :
    Accounted (started ++ [s.next]) led sent posted (s.start flow) := by
  have hunsent := Device.start_owes h.sound Task.unsent 1 flow (by cases flow <;> rfl)
  have hunretried := Device.start_owes h.sound Task.unretried 1 flow rfl
  have hunposted := Device.start_owes h.sound Task.unposted 0 flow (by cases flow <;> rfl)
  refine ⟨h.sound.step (e := .start flow) rfl, fun i => ?_, fun i => ?_, fun i => ?_, fun i hi => ?_⟩
  · rw [hunsent]
    exact h.budget i
  · rw [hunretried]
    exact h.once i
  · rw [hunposted]
    exact h.posts i
  · obtain ⟨hi, hne⟩ : i ∉ started ∧ i ≠ s.next := by simpa using hi
    obtain ⟨hled, hsent, hfree⟩ := h.quiet i hi
    refine ⟨hled, ?_, fun t ht => hfree t ?_⟩
    · rwa [hunsent]
    · rwa [Device.start_task_of_ne s hne] at ht

theorem stays_of_quiet (h : Accounted started led sent posted s) {i : ℕ} {t : Task} {e : DeviceEvent}
    {m : Move} (hi : i ∉ started) (he : e.task = some i) (ht : s.task i = some t) (hm : s.turn t e = some m)
    (hC : s.sparesLogout e) : m.queue = .keep ∧ m.task.pc.role = .free ∧ t.flow = .logout := by
  obtain ⟨-, -, hfree⟩ := h.quiet i hi
  obtain ⟨hrole, hflow⟩ := hfree t ht
  replace hflow := hflow.resolve_right (Device.not_done_of_turn hm)
  have hspared : ∀ k data, e = .respond k (.answer 401 data) → t.pc ≠ .sent := by
    rintro k data rfl hpc
    obtain rfl : k = i := by simpa [DeviceEvent.task] using he
    simp [Device.sparesLogout, ht, hflow, hpc] at hC
  cases Device.turn_cases hm with
  | stays _ hrole' _ hqueue _ => exact ⟨hqueue, hrole'.trans hrole, hflow⟩
  | joins k data hk hpc | leads k data hk hpc => exact absurd hpc (hspared k data hk)
  | lands _ hlead | fails _ hlead => simp [hrole] at hlead
  | closes _ hpc => simp [hpc, Pc.role] at hrole

/-- A `logout` that was not started is sent once, and leads no refresh. -/
theorem quiet_apply (h : Accounted started led sent posted s) {i : ℕ} {t : Task} {e : DeviceEvent} {m : Move}
    (he : e.task = some i) (ht : s.task i = some t) (hm : s.turn t e = some m) (hC : s.sparesLogout e) {j : ℕ}
    (hj : j ∉ started) : ¬ (m.task.pc.beginsRefresh ∧ j = i) ∧
      sent.count j + (if m.task.pc.isSent ∧ j = i then 1 else 0) + (s.apply i m).owes Task.unsent 1 j ≤ 1 ∧
      ∀ u, (s.apply i m).task j = some u → u.pc.role = .free ∧ (u.flow = .logout ∨ u.pc = .done) := by
  have hpays := Device.pays_turn hm
  obtain ⟨-, hone, hfree⟩ := h.quiet j hj
  have hkept : j = i → m.queue = .keep ∧ m.task.pc.role = .free ∧ t.flow = .logout := by
    rintro rfl
    exact h.stays_of_quiet hj he ht hm hC
  have hqueue : j ∉ s.failedQueue := by
    intro hqueued
    have hwaits : s.role j = .waiting := (h.sound.flight.waits j).mp hqueued
    cases hv : s.task j with
    | none => simp [Device.role, hv] at hwaits
    | some v => simp [Device.role_of_task hv, (hfree v hv).1] at hwaits
  refine ⟨?_, ?_, fun u hu => ?_⟩
  · rintro ⟨hbegins, hj⟩
    have hrole := (hkept hj).2.1
    cases hpc : m.task.pc <;> simp_all [Pc.role, Pc.beginsRefresh]
  · have howes := Device.apply_owes h.sound ht Task.unsent 1 j 0 m.task.pc.isSent
      (fun hj => by simpa only [Device.releases, (hkept hj).1] using hpays.sends)
      (fun hqueued => absurd hqueued hqueue) rfl
    omega
  · rcases Device.apply_task_cases h.sound ht hu with ⟨hj, rfl⟩ | ⟨v, hv, -, rfl⟩ | ⟨-, rfl, rfl⟩
    · obtain ⟨-, hrole, hflow⟩ := hkept hj
      exact ⟨hrole, .inl (hpays.flow.trans hflow)⟩
    · rw [if_neg hqueue]
      exact hfree v hv
    · exact ⟨rfl, .inl rfl⟩

theorem shows {i : ℕ} {t : Task} {e : DeviceEvent} {m : Move} (he : e.task = some i) (ht : s.task i = some t)
    (hm : s.turn t e = some m) :
    (s.refreshes e).toList = (if m.task.pc.beginsRefresh then [i] else []) ∧
      (s.sends e).toList = (if m.task.pc.isSent then [i] else []) ∧
      (s.posts e).toList = if m.task.pc.isRefreshSent then [i] else [] :=
  ⟨Device.reaches_turn _ he ht hm, Device.reaches_turn _ he ht hm, Device.reaches_turn _ he ht hm⟩

theorem apply (h : Accounted started led sent posted s) {i : ℕ} {t : Task} {e : DeviceEvent} {m : Move}
    (he : e.task = some i) (ht : s.task i = some t) (hm : s.turn t e = some m) (hC : s.sparesLogout e)
    (hsound : (s.apply i m).Sound) :
    Accounted started (led ++ (s.refreshes e).toList) (sent ++ (s.sends e).toList)
      (posted ++ (s.posts e).toList) (s.apply i m) := by
  have hpays := Device.pays_turn hm
  obtain ⟨hflag, hsignout⟩ := Device.Turn.balance h.sound ht (Device.turn_cases hm)
  obtain ⟨hled, hsent, hposted⟩ := shows he ht hm
  rw [hled, hsent, hposted]
  refine ⟨hsound, fun j => ?_, fun j => ?_, fun j => ?_, fun j hj => ?_⟩
  · have hbudget := h.budget j
    have howes := Device.apply_owes h.sound ht Task.unsent 1 j _ _ (fun _ => hpays.sends)
      (fun _ u _ => Device.settle_unsent m u) rfl
    rw [count_append_ite, length_append_ite, Device.apply_isRefreshing]
    omega
  · have honce := h.once j
    have howes := Device.apply_owes h.sound ht Task.unretried 1 j 0 _
      (fun _ => hpays.refreshes) (fun _ u _ => (Device.settle_unretried m.queue u).le) rfl
    rw [count_append_ite]
    omega
  · have hpost := h.posts j
    have howes := Device.apply_owes h.sound ht Task.unposted 0 j
      (if m.task.pc.beginsRefresh ∧ j = i then 1 else 0) m.task.pc.isRefreshSent
      (fun hj => by simpa only [hj, and_true] using hpays.posts)
      (fun _ u hpc => (Device.settle_unposted m.queue hpc).le.trans (Nat.le_add_right ..)) rfl
    rw [count_append_ite, count_append_ite]
    omega
  · have hnone := (h.quiet j hj).1
    obtain ⟨hbegins, hone, hfree⟩ := h.quiet_apply he ht hm hC hj
    rw [count_append_ite, count_append_ite, hnone, if_neg hbegins]
    exact ⟨rfl, hone, hfree⟩

theorem starts_none {i : ℕ} {e : DeviceEvent} (he : e.task = some i) : s.starts e = none := by
  cases e with
  | start flow => cases he
  | keychain | respond => rfl

theorem step (h : Accounted started led sent posted s) {s' : Device} {e : DeviceEvent}
    (hC : s.sparesLogout e) (hstep : device.step s e = some s') :
    Accounted (started ++ (s.starts e).toList) (led ++ (s.refreshes e).toList)
      (sent ++ (s.sends e).toList) (posted ++ (s.posts e).toList) s' := by
  have hsound := h.sound.step hstep
  obtain ⟨flow, rfl, rfl⟩ | ⟨i, t, m, he, ht, hm, rfl⟩ := Device.step_cases hstep
  · simp only [Device.refreshes, Device.sends, Device.posts, Device.reaches_start, Option.toList_none,
      List.append_nil]
    exact h.start flow
  · rw [starts_none he, Option.toList_none, List.append_nil]
    exact h.apply he ht hm hC hsound

/-- Each refresh is led by another of the calls and requests that have started. -/
theorem led_le (h : Accounted started led sent posted s) : led.length ≤ started.length := by
  have hnodup : led.Nodup := by
    refine List.nodup_iff_count_le_one.mpr fun i => ?_
    have honce := h.once i
    omega
  have hsub : led ⊆ started := by
    intro i hi
    by_contra hstarted
    have hnone := (h.quiet i hstarted).1
    have hpos := List.count_pos_iff.mpr hi
    omega
  exact (hnodup.subperm hsub).length_le

theorem posted_le (h : Accounted started led sent posted s) : posted.length ≤ led.length := by
  have hsub : posted.Subperm led := by
    refine List.subperm_ext_iff.mpr fun i _ => ?_
    have hposts := h.posts i
    omega
  exact hsub.length_le

theorem sent_count_le (h : Accounted started led sent posted s) (i : ℕ) :
    sent.count i ≤ started.length + 1 := by
  have hbudget := h.budget i
  have hled := h.led_le
  split at hbudget <;> omega

end Accounted

/-! ### From any state -/

namespace Device

/-- The calls and requests that are under way. -/
def underWay (s : Device) : List ℕ := (List.range s.next).filter fun i => (s.task i).any (·.pc ≠ .done)

/-- A task that refreshes has `_retry`. -/
def Marked (s : Device) : Prop := ∀ i t, s.task i = some t → t.pc.role.flies → t.retry = true

theorem Marked.step {s s' : Device} {e : DeviceEvent} (h : Marked s) (hsound : s.Sound)
    (hstep : device.step s e = some s') : Marked s' := by
  intro j u hu hflies
  obtain ⟨flow, -, rfl⟩ | ⟨i, t, m, he, ht, hm, rfl⟩ := Device.step_cases hstep
  · rcases start_task_cases hu with hold | ⟨-, rfl⟩
    · exact h j u hold hflies
    · cases flow <;> cases hflies
  rcases apply_task_cases hsound ht hu with ⟨-, rfl⟩ | ⟨v, hv, -, rfl⟩ | ⟨-, -, rfl⟩
  · -- the mark stays, and a refresh begins with it
    have hmark : t.retry = true → m.task.retry = true := by
      intro hretry
      have hpays := (pays_turn hm).refreshes
      by_contra hnot
      simp [Task.unretried, hretry, hnot] at hpays
    cases turn_cases hm with
    | stays _ hrole => exact hmark (h i t ht (hrole ▸ hflies))
    | joins _ _ _ _ _ _ hm => simp [hm, move, Pc.role] at hflies
    | leads _ _ _ _ _ _ hm => simp [hm, move]
    | lands _ _ hrole | closes _ _ hrole => simp [hrole] at hflies
    | fails _ hrole => exact hmark (h i t ht (by rw [hrole]; rfl))
  · split at hflies
    · rename_i hqueued
      have hpc := hsound.pc_of_mem hv hqueued
      have hrole : (settle m.queue v).pc.role.flies = false := by
        cases m.queue with
        | keep | push => simp [settle, hpc, Pc.role]
        | resolve token => rfl
        | reject error => simp only [settle, caught_role, flies_free]
      rw [hrole] at hflies
      cases hflies
    · rename_i hqueued
      rw [if_neg hqueued]
      exact h j v hv hflies
  · cases hflies

end Device

namespace Bounded

variable {first : ℕ} {started led sent posted : List ℕ} {s : Device}

theorem start (h : Bounded first started led sent posted s) (flow : Flow) :
    Bounded first (started ++ [s.next]) led sent posted (s.start flow) := by
  have hnext := h.next
  have hfirst := h.first_le
  refine ⟨h.toAccounted.start flow, ?_, ?_, fun i t hi ht => ?_, fun i hi => ?_⟩
  · simp only [List.length_append, List.length_singleton]
    show s.next + 1 + (if s.isRefreshing then 1 else 0) ≤ _
    omega
  · exact hfirst.trans (Nat.le_succ _)
  · rcases Device.start_task_cases ht with ht | ⟨rfl, -⟩
    · exact h.rest i t hi ht
    · omega
  · obtain ⟨hle, hlt⟩ := h.range i hi
    exact ⟨hle, hlt.trans (Nat.lt_succ_self _)⟩

theorem rest_apply (h : Bounded first started led sent posted s) {i j : ℕ} {t u : Task} {m : Move}
    (ht : s.task i = some t) (hfirst : first ≤ i) (hj : j < first) (hu : (s.apply i m).task j = some u) :
    u.pc = .done := by
  rcases Device.apply_task_cases h.sound ht hu with ⟨rfl, -⟩ | ⟨v, hv, -, rfl⟩ | ⟨-, rfl, -⟩
  · omega
  · have hdone := h.rest j v hj hv
    split
    · rename_i hqueued
      simp [h.sound.pc_of_mem hv hqueued] at hdone
    · exact hdone
  · have hle := h.first_le
    omega

theorem apply (h : Bounded first started led sent posted s) {i : ℕ} {t : Task} {e : DeviceEvent} {m : Move}
    (he : e.task = some i) (ht : s.task i = some t) (hm : s.turn t e = some m) (hC : s.sparesLogout e)
    (hsound : (s.apply i m).Sound) :
    Bounded first started (led ++ (s.refreshes e).toList) (sent ++ (s.sends e).toList)
      (posted ++ (s.posts e).toList) (s.apply i m) := by
  obtain ⟨hflag, hsignout⟩ := Device.Turn.balance h.sound ht (Device.turn_cases hm)
  obtain ⟨hled, hsent, -⟩ := Accounted.shows he ht hm
  have hfirst : first ≤ i := by
    by_contra hi
    exact Device.not_done_of_turn hm (h.rest i t (by omega) ht)
  refine ⟨h.toAccounted.apply he ht hm hC hsound, ?_, ?_, fun j u hj hu => h.rest_apply ht hfirst hj hu,
    fun j hj => ?_⟩
  · have hnext := h.next
    rw [hled, length_append_ite, Device.apply_next, Device.apply_isRefreshing]
    omega
  · have hle := h.first_le
    rw [Device.apply_next]
    omega
  · have hlt := h.sound.lt_next ht
    rw [Device.apply_next]
    rw [hsent] at hj
    rcases List.mem_append.mp hj with hj | hj
    · have hrange := h.range j hj
      omega
    · obtain rfl : j = i := by
        split at hj
        · simpa using hj
        · cases hj
      omega

theorem step (h : Bounded first started led sent posted s) {s' : Device} {e : DeviceEvent}
    (hC : s.sparesLogout e) (hstep : device.step s e = some s') :
    Bounded first (started ++ (s.starts e).toList) (led ++ (s.refreshes e).toList)
      (sent ++ (s.sends e).toList) (posted ++ (s.posts e).toList) s' := by
  have hsound := h.sound.step hstep
  obtain ⟨flow, rfl, rfl⟩ | ⟨i, t, m, he, ht, hm, rfl⟩ := Device.step_cases hstep
  · simp only [Device.refreshes, Device.sends, Device.posts, Device.reaches_start, Option.toList_none,
      List.append_nil]
    exact h.start flow
  · rw [Accounted.starts_none he, Option.toList_none, List.append_nil]
    exact h.apply he ht hm hC hsound

theorem of_rest (hsound : s.Sound) (hrest : ∀ i t, s.task i = some t → t.pc = .done) :
    Bounded s.next [] [] [] [] s := by
  have hfree : s.isRefreshing = false := by
    by_contra hbusy
    obtain ⟨i, hflies⟩ := hsound.flight.busy.mp (Bool.eq_true_of_not_eq_false hbusy)
    have hflies : (s.role i).flies = true := hflies
    cases ht : s.task i with
    | none => simp [Device.role, ht, Role.flies] at hflies
    | some t => simp [Device.role_of_task ht, hrest i t ht, Pc.role, Role.flies] at hflies
  have howes : ∀ i, s.owes Task.unsent 1 i ≤ 1 ∧ s.owes Task.unretried 1 i ≤ 1 ∧
      s.owes Task.unposted 0 i = 0 := by
    intro i
    cases ht : s.task i with
    | none => simp [Device.owes, ht]
    | some t =>
      simp only [Device.owes_of_task ht, Task.unsent, Task.unretried, Task.unposted, hrest i t ht]
      exact ⟨by omega, by split <;> omega, trivial⟩
  refine ⟨⟨hsound, fun i => ?_, fun i => ?_, fun i => ?_, fun i _ => ⟨rfl, ?_, fun t ht => ?_⟩⟩, by simp [hfree],
    le_rfl, fun i t _ ht => hrest i t ht, fun i hi => (by cases hi)⟩
  · simpa [hfree] using (howes i).1
  · simpa using (howes i).2.1
  · simp [(howes i).2.2]
  · simpa using (howes i).1
  · rw [hrest i t ht]
    exact ⟨rfl, .inr rfl⟩

/-- The requests in all: what has started is sent at most `n + 1` times, a `logout` behind a refresh once. -/
theorem sent_le (h : Bounded first started led sent posted s) :
    sent.length ≤ started.length * started.length + 2 * started.length := by
  set n := started.length
  have hcount : ∀ i, sent.count i ≤ 1 + if i ∈ started then n else 0 := by
    intro i
    split
    · have hsent := h.sent_count_le i
      omega
    · rename_i hi
      have hone := (h.quiet i hi).2.1
      omega
  have hmem : ∀ i ∈ (sent : Multiset ℕ), i ∈ Finset.Ico first s.next := fun i hi =>
    Finset.mem_Ico.mpr (h.range i hi)
  have hstarted : ((Finset.Ico first s.next).filter (· ∈ started)).card ≤ n := by
    refine le_trans (Finset.card_le_card fun i hi => ?_) (List.toFinset_card_le started)
    exact List.mem_toFinset.mpr (Finset.mem_filter.mp hi).2
  have hnext := h.next
  have hled := h.led_le
  calc sent.length
      = ∑ i ∈ Finset.Ico first s.next, (sent : Multiset ℕ).count i :=
        (Multiset.sum_count_eq_card hmem).symm
    _ ≤ ∑ i ∈ Finset.Ico first s.next, (1 + if i ∈ started then n else 0) :=
        Finset.sum_le_sum fun i _ => (Multiset.coe_count i sent).trans_le (hcount i)
    _ = (s.next - first) + ((Finset.Ico first s.next).filter (· ∈ started)).card * n := by
        rw [Finset.sum_add_distrib, ← Finset.sum_filter]
        simp
    _ ≤ 2 * n + n * n := Nat.add_le_add (by omega) (Nat.mul_le_mul_right n hstarted)
    _ = n * n + 2 * n := Nat.add_comm ..

end Bounded

/-- The HTTP exchanges that a run begins: requests, and `POST /auth/refresh`. -/
def exchanges (s₀ : Device) (tr : List DeviceEvent) : ℕ :=
  (device.observe Device.sends s₀ tr).length + (device.observe Device.posts s₀ tr).length

/-- **The retry loop is bounded**: from a state in which nothing is under way, `n` calls and requests refresh
at most `n` times, and each is sent at most `n + 1` times, however they are interleaved and answered, unless a
`logout` is answered 401. -/
theorem retry_bounded {s₀ s : Device} {tr : List DeviceEvent} (h₀ : device.Reachable System.Any s₀)
    (hrest : ∀ i t, s₀.task i = some t → t.pc = .done)
    (hrun : device.Run (fun s e => s.sparesLogout e) s₀ tr s) :
    (device.observe Device.refreshes s₀ tr).length ≤ (device.observe Device.starts s₀ tr).length ∧
      (∀ i, (device.observe Device.sends s₀ tr).count i ≤
        (device.observe Device.starts s₀ tr).length + 1) ∧
      exchanges s₀ tr ≤ (device.observe Device.starts s₀ tr).length *
        (device.observe Device.starts s₀ tr).length + 3 * (device.observe Device.starts s₀ tr).length := by
  have hbounded : Bounded s₀.next (device.observe Device.starts s₀ tr) (device.observe Device.refreshes s₀ tr)
      (device.observe Device.sends s₀ tr) (device.observe Device.posts s₀ tr) s := by
    induction hrun with
    | nil => exact .of_rest (Device.sound_of_reachable h₀) hrest
    | @snoc tr s s' e hrun hC hstep ih =>
      rw [hrun.observe_snoc, hrun.observe_snoc, hrun.observe_snoc, hrun.observe_snoc]
      exact ih.step hC hstep
  have hled := hbounded.led_le
  have hposted := hbounded.posted_le
  have hsent := hbounded.sent_le
  refine ⟨hled, hbounded.sent_count_le, ?_⟩
  unfold exchanges
  omega

/-- A 401 to each of two requests, a refresh that succeeds, and the same again. -/
def alwaysUnauthorized : List DeviceEvent :=
  [.start (.other 0), .start (.other 1), .keychain 0 .ok, .keychain 1 .ok,
    .respond 0 (.answer 401 none), .respond 1 (.answer 401 none), .keychain 0 .ok,
    .respond 0 (.answer 200 (some { tokens := some ⟨"a2", "r2"⟩ })), .keychain 0 .ok,
    .keychain 0 .ok, .keychain 1 .ok, .respond 0 (.answer 401 none), .respond 1 (.answer 401 none),
    .keychain 1 .ok, .respond 1 (.answer 200 (some { tokens := some ⟨"a3", "r3"⟩ })), .keychain 1 .ok,
    .keychain 1 .ok, .respond 1 (.answer 401 none)]

/-- Two requests that are always answered 401: the second one waits for the refresh of the first one, leads
one itself, and is sent three times. -/
theorem retry_bounded_two :
    ∃ s₀ s tr, device.Run System.Any s₀ tr s ∧ device.observe Device.starts s₀ tr = [0, 1] ∧
      device.observe Device.refreshes s₀ tr = [0, 1] ∧ device.observe Device.sends s₀ tr = [0, 1, 0, 1, 1] ∧
      exchanges s₀ tr = 7 ∧ exchanges s₀ tr ≤ 2 * 2 + 3 * 2 := by
  set s₀ : Device := { keys := { item := some ⟨"a1", "r1"⟩ } }
  have hexec : (device.exec (fun s e => s.sparesLogout e) s₀ alwaysUnauthorized).isSome := by
    decide +kernel
  obtain ⟨s, hs⟩ := Option.isSome_iff_exists.mp hexec
  have hrun := System.Run.of_exec hs
  have hstarts : device.observe Device.starts s₀ alwaysUnauthorized = [0, 1] := by decide +kernel
  have hreachable : device.Reachable System.Any s₀ := ⟨s₀, [], ⟨_, rfl⟩, .nil⟩
  obtain ⟨-, -, hexchanges⟩ := retry_bounded hreachable (fun _ _ ht => by cases ht) hrun
  rw [hstarts] at hexchanges
  exact ⟨s₀, s, alwaysUnauthorized, hrun.mono fun _ _ _ => trivial, hstarts, by decide +kernel,
    by decide +kernel, by decide +kernel, hexchanges⟩

end Locus.Mobile
