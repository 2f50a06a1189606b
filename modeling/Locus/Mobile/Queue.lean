import Locus.Lib.SingleFlight
import Locus.Mobile.Device

/-!
# The queue behind a refresh

`isRefreshing` and `failedQueue` of `api/client.ts` make the refresh a single flight
(`Device.flight_step`): the first 401 leads, those that come while it refreshes wait in the queue, and
`processQueue` releases them. A refresh that fails calls `processQueue` before it awaits `clearTokens`,
and `isRefreshing` is reset behind it, so a 401 that comes in between is pushed to a queue that nobody
releases any more (`late_request_stranded`). Without such a 401 every queued request is resolved or
rejected by the refresh it waits for (`queued_settled`).
-/

namespace Locus.Mobile

open Lib

/-! ### What one step does -/

/-- The part of a task in a refresh. -/
def Pc.role : Pc → Role
  | .queued => .waiting
  | .refreshRead _ | .refreshSent _ | .refreshSave .. => .leading
  | .refreshClear _ => .closing
  | _ => .free

def DeviceEvent.task : DeviceEvent → Option ℕ
  | .start _ => none
  | .keychain i _ | .respond i _ => some i

namespace Device

/-- What the task of an event does with it. -/
def turn (s : Device) (t : Task) : DeviceEvent → Option Move
  | .start _ => none
  | .keychain _ o => s.keychain t o
  | .respond _ reply => s.respond t reply

theorem step_cases {s s' : Device} {e : DeviceEvent} (h : device.step s e = some s') :
    (∃ flow, e = .start flow ∧ s' = s.start flow) ∨
      ∃ i t m, e.task = some i ∧ s.task i = some t ∧ s.turn t e = some m ∧ s' = s.apply i m := by
  have hmoves : ∀ i, (s.task i).bind (fun t => (s.turn t e).map (s.apply i)) = some s' →
      ∃ t m, s.task i = some t ∧ s.turn t e = some m ∧ s' = s.apply i m := by
    intro i hi
    obtain ⟨t, ht, hm⟩ := Option.bind_eq_some_iff.mp hi
    obtain ⟨m, hm, hs'⟩ := Option.map_eq_some_iff.mp hm
    exact ⟨t, m, ht, hm, hs'.symm⟩
  cases e with
  | start flow => exact .inl ⟨flow, rfl, (Option.some.inj h).symm⟩
  | keychain i o =>
    obtain ⟨t, m, hmove⟩ := hmoves i h
    exact .inr ⟨i, t, m, rfl, hmove⟩
  | respond i reply =>
    obtain ⟨t, m, hmove⟩ := hmoves i h
    exact .inr ⟨i, t, m, rfl, hmove⟩

/-- What a move of a task does to the refresh. -/
inductive Turn (s : Device) (t : Task) (e : DeviceEvent) (m : Move) : Prop
  | stays (hrole : t.pc.role = .free ∨ t.pc.role = .leading) (hrole' : m.task.pc.role = t.pc.role)
      (hflag : m.isRefreshing = s.isRefreshing) (hqueue : m.queue = .keep) (hsignout : m.signout = false)
  | joins (i : ℕ) (data : Option Payload) (he : e = .respond i (.answer 401 data)) (hpc : t.pc = .sent)
      (hretry : t.retry = false) (hflag : s.isRefreshing = true)
      (hm : m = { s.move { t with pc := .queued } with queue := .push })
  | leads (i : ℕ) (data : Option Payload) (he : e = .respond i (.answer 401 data)) (hpc : t.pc = .sent)
      (hretry : t.retry = false) (hflag : s.isRefreshing = false)
      (hm : m = { s.move { t with retry := true, pc := .refreshRead .get } with isRefreshing := true })
  | lands (token : String) (hrole : t.pc.role = .leading) (hrole' : m.task.pc.role = .free)
      (hflag : m.isRefreshing = false) (hqueue : m.queue = .resolve token) (hsignout : m.signout = false)
  | fails (error : ApiError) (hrole : t.pc.role = .leading) (hrole' : m.task.pc.role = .closing)
      (hflag : m.isRefreshing = s.isRefreshing) (hqueue : m.queue = .reject error)
      (hsignout : m.signout = false) (hkeys : m.keys.fallbackTokens = none)
  | closes (error : ApiError) (hpc : t.pc = .refreshClear error) (hrole' : m.task.pc.role = .free)
      (hflag : m.isRefreshing = false) (hqueue : m.queue = .keep) (hsignout : m.signout = true)

theorem caught_role (flow : Flow) (error : ApiError) : (caught flow error).role = .free := by
  cases flow <;> rfl

theorem readBack_cases (s : Device) (c : KeyCall) (o : Outcome) (wait : KeyCall → Task)
    (k : Device → Option Tokens → Move) :
    (∃ keys, c.answer s.keys o = (keys, .awaits .getReset) ∧
        s.readBack c o wait k = { s with keys }.move (wait .getReset)) ∨
      ∃ keys tokens, c.answer s.keys o = (keys, .returns tokens) ∧
        s.readBack c o wait k = k { s with keys } tokens := by
  unfold readBack
  split
  · rename_i keys c' hanswer
    obtain rfl := answer_awaits hanswer
    exact .inl ⟨keys, hanswer, rfl⟩
  · rename_i keys tokens hanswer
    exact .inr ⟨keys, tokens, hanswer, rfl⟩

theorem Turn.free {s : Device} {t : Task} {e : DeviceEvent} {m : Move} (hrole : t.pc.role = .free)
    (hrole' : m.task.pc.role = .free) (hflag : m.isRefreshing = s.isRefreshing) (hqueue : m.queue = .keep)
    (hsignout : m.signout = false) : Turn s t e m :=
  .stays (.inl hrole) (hrole'.trans hrole.symm) hflag hqueue hsignout

theorem turn_signIn {e : DeviceEvent} (s s₀ : Device) (t : Task) (user : Option UserId) (hrole : t.pc.role = .free)
    (hflag : s.isRefreshing = s₀.isRefreshing) : Turn s₀ t e (s.signIn t user) :=
  .free hrole rfl hflag rfl rfl

theorem turn_reject {e : DeviceEvent} (s : Device) (t : Task) (error : ApiError)
    (hrole : t.pc.role = .free) : Turn s t e (s.reject t error) := .free hrole (caught_role ..) rfl rfl rfl

theorem turn_refreshFail {e : DeviceEvent} (s s₀ : Device) (t : Task) (error : ApiError)
    (hrole : t.pc.role = .leading) (hflag : s.isRefreshing = s₀.isRefreshing) : Turn s₀ t e (s.refreshFail t error) :=
  .fails error hrole rfl hflag rfl rfl rfl

theorem turn_saved {e : DeviceEvent} (s s₀ : Device) (t : Task) (tokens : Option Tokens)
    (user : Option UserId) (hrole : t.pc.role = .free) (hflag : s.isRefreshing = s₀.isRefreshing) :
    Turn s₀ t e (s.saved t tokens user) := by
  unfold saved
  split
  · exact .free hrole rfl hflag rfl rfl
  · exact turn_signIn s s₀ t user hrole hflag

theorem turn_resolve {e : DeviceEvent} (s : Device) (t : Task) (data : Option Payload)
    (hrole : t.pc.role = .free) : Turn s t e (s.resolve t data) := by
  generalize hm : s.resolve t data = m
  cases resolve_cases hm with
  | noData hflow hdata => exact turn_reject s t _ hrole
  | saves payload tokens hflow hdata htokens hvalid => exact .free hrole rfl rfl rfl rfl
  | unsaved payload hflow hdata hinvalid => exact turn_saved s s t _ _ hrole rfl
  | logout hflow => exact .free hrole rfl rfl rfl rfl
  | loadUser hflow => exact turn_signIn s s t _ hrole rfl
  | other id hflow => exact .free hrole rfl rfl rfl rfl

theorem turn_respond {s : Device} {t : Task} {i : ℕ} {reply : Reply} {m : Move}
    (h : s.respond t reply = some m) : Turn s t (.respond i reply) m := by
  cases respond_cases h with
  | lost hpc => exact turn_reject s t _ (by rw [hpc]; rfl)
  | resolved status data hpc => exact turn_resolve s t data (by rw [hpc]; rfl)
  | rejected status data hpc => exact turn_reject s t _ (by rw [hpc]; rfl)
  | queued data hpc hretry hflag => exact .joins i data rfl hpc hretry hflag rfl
  | leads data hpc hretry hflag => exact .leads i data rfl hpc hretry hflag rfl
  | refreshLost presented hpc => exact turn_refreshFail s s t _ (by rw [hpc]; rfl) rfl
  | refreshRejected presented status data hpc => exact turn_refreshFail s s t _ (by rw [hpc]; rfl) rfl
  | refreshEmpty presented status hpc => exact turn_refreshFail s s t _ (by rw [hpc]; rfl) rfl
  | refreshed presented status data tokens hpc =>
    have hrole : t.pc.role = .leading := by rw [hpc]; rfl
    exact .stays (.inr hrole) hrole.symm rfl rfl rfl
  | unsaved presented status data hpc => exact .lands _ (by rw [hpc]; rfl) rfl rfl rfl rfl

theorem turn_keychain {s : Device} {t : Task} {e : DeviceEvent} {o : Outcome} {m : Move}
    (h : s.keychain t o = some m) : Turn s t e m := by
  cases keychain_cases h with
  | boot c hpc =>
    have hrole : t.pc.role = .free := by rw [hpc]; rfl
    rcases readBack_cases s c o _ _ with ⟨keys, -, hm⟩ | ⟨keys, tokens, -, hm⟩ <;> rw [hm]
    · exact .free hrole rfl rfl rfl rfl
    · unfold bootRead
      split <;> exact .free hrole rfl rfl rfl rfl
  | attach c hpc =>
    have hrole : t.pc.role = .free := by rw [hpc]; rfl
    rcases readBack_cases s c o _ _ with ⟨keys, -, hm⟩ | ⟨keys, tokens, -, hm⟩ <;> rw [hm]
    · exact .free hrole rfl rfl rfl rfl
    · unfold attachRead
      split
      · split <;> exact .free hrole rfl rfl rfl rfl
      · exact .free hrole rfl rfl rfl rfl
  | refreshRead c hpc =>
    have hrole : t.pc.role = .leading := by rw [hpc]; rfl
    rcases readBack_cases s c o _ _ with ⟨keys, -, hm⟩ | ⟨keys, tokens, -, hm⟩ <;> rw [hm]
    · exact .stays (.inr hrole) hrole.symm rfl rfl rfl
    · unfold refreshReadDone
      split
      · split
        · exact .stays (.inr hrole) hrole.symm rfl rfl rfl
        · exact turn_refreshFail _ s t _ hrole rfl
      · exact turn_refreshFail _ s t _ hrole rfl
  | verifying c expected user hpc =>
    have hrole : t.pc.role = .free := by rw [hpc]; rfl
    rcases readBack_cases s c o _ _ with ⟨keys, -, hm⟩ | ⟨keys, tokens, -, hm⟩ <;> rw [hm]
    · exact .free hrole rfl rfl rfl rfl
    · unfold verified
      split
      · exact turn_signIn _ s t user hrole rfl
      · exact .free hrole rfl rfl rfl rfl
  | refreshSave presented tokens hpc => exact .lands _ (by rw [hpc]; rfl) rfl rfl rfl rfl
  | saving tokens user hpc => exact turn_saved _ s t _ user (by rw [hpc]; rfl) rfl
  | refreshClear error hpc => exact .closes error hpc (caught_role ..) rfl rfl rfl
  | verifyClear hpc => exact .free (by rw [hpc]; rfl) rfl rfl rfl rfl
  | clearing error hpc => exact .free (by rw [hpc]; rfl) rfl rfl rfl rfl

theorem turn_cases {s : Device} {t : Task} {e : DeviceEvent} {m : Move} (h : s.turn t e = some m) :
    Turn s t e m := by
  cases e with
  | start flow => cases h
  | keychain i o => exact turn_keychain h
  | respond i reply => exact turn_respond h

/-! ### The refresh is a single flight -/

def role (s : Device) (i : ℕ) : Role :=
  match s.task i with
  | some t => t.pc.role
  | none => .free

def flight (s : Device) : Flight ℕ := ⟨s.role, s.isRefreshing, s.failedQueue⟩

theorem role_of_task {s : Device} {i : ℕ} {t : Task} (h : s.task i = some t) : s.role i = t.pc.role := by
  simp [role, h]

theorem start_role (s : Device) (flow : Flow) (hnext : s.task s.next = none) :
    (s.start flow).role = s.role := by
  funext j
  by_cases hj : j = s.next
  · subst hj
    cases flow <;> simp [role, start, hnext, entry, Pc.role]
  · simp [role, start, Function.update_of_ne hj]

theorem advance_role (s : Device) (i : ℕ) (m : Move) :
    (s.advance i m).role = Function.update (fun j => match m.queue with
      | .keep | .push => s.role j
      | .resolve _ | .reject _ => if j ∈ s.failedQueue then .free else s.role j) i m.task.pc.role := by
  funext j
  by_cases hji : j = i
  · subst hji
    simp [role, advance]
  · simp only [role, advance, Function.update_of_ne hji]
    cases hq : m.queue <;> cases hj : s.task j <;> by_cases hmem : j ∈ s.failedQueue <;>
      simp [hmem, settle, caught_role]
    rfl

theorem apply_flight {s : Device} (hnext : ∀ j, s.next ≤ j → s.task j = none) {i : ℕ} (hi : i < s.next)
    (m : Move) : (s.apply i m).flight = (s.advance i m).flight := by
  unfold apply
  split
  · have hrole : ((s.advance i m).start .logout).role = (s.advance i m).role := by
      refine start_role _ _ ?_
      have hne : s.next ≠ i := by omega
      simp only [advance, Function.update_of_ne hne, hnext s.next le_rfl]
      split <;> rfl
    simp only [flight, hrole]
    rfl
  · rfl

/-- The event of the single flight that a move is. -/
def Seen (i : ℕ) (m : Move) : FlightEvent ℕ → Prop
  | .lead j | .close j => j = i ∧ m.queue = .keep
  | .join j => j = i ∧ m.queue = .push
  | .land j => j = i ∧ ∃ token, m.queue = .resolve token
  | .fail j => j = i ∧ ∃ error, m.queue = .reject error

theorem advance_flight {s : Device} {i : ℕ} {t : Task} {e : DeviceEvent} {m : Move}
    (ht : s.task i = some t) (h : Turn s t e m) : (s.advance i m).flight = s.flight ∨
      ∃ a, Seen i m a ∧ (singleFlight ℕ).step s.flight a = some (s.advance i m).flight := by
  have hrole := role_of_task ht
  have hkeep : m.queue = .keep → (s.advance i m).flight =
      { s.flight with role := Function.update s.role i m.task.pc.role, busy := m.isRefreshing } := by
    intro hqueue
    simp only [flight, advance_role, hqueue]
    simp [advance, queueAfter, hqueue]
  have hrelease : ∀ (b : Bool) (r : Role), (∃ x, m.queue = .resolve x) ∨ (∃ x, m.queue = .reject x) →
      m.isRefreshing = b → m.task.pc.role = r → (s.advance i m).flight = s.flight.release i r b := by
    rintro _ _ (⟨x, hqueue⟩ | ⟨x, hqueue⟩) rfl rfl
    · simp only [flight, advance_role, hqueue]
      simp [advance, queueAfter, hqueue, Flight.release]
    · simp only [flight, advance_role, hqueue]
      simp [advance, queueAfter, hqueue, Flight.release]
  cases h with
  | stays _ hrole' hflag hqueue _ =>
    refine .inl ((hkeep hqueue).trans ?_)
    simp [flight, hrole', hflag, ← hrole]
  | joins _ _ _ hpc _ hflag hm =>
    refine .inr ⟨.join i, ⟨rfl, by rw [hm]⟩, ?_⟩
    have hfree : s.role i = .free := by rw [hrole, hpc]; rfl
    have hjoin : (s.advance i m).flight = { s.flight with
        role := Function.update s.role i .waiting, queue := s.failedQueue ++ [i] } := by
      rw [hm]
      simp only [flight, advance_role]
      simp [advance, queueAfter, move, Pc.role]
    rw [hjoin]
    simp [singleFlight, flight, hfree, hflag]
  | leads _ _ _ hpc _ hflag hm =>
    refine .inr ⟨.lead i, ⟨rfl, by rw [hm]; rfl⟩, ?_⟩
    have hfree : s.role i = .free := by rw [hrole, hpc]; rfl
    rw [hkeep (by rw [hm]; rfl)]
    simp [singleFlight, flight, hfree, hflag, hm, move, Pc.role]
  | lands token hlead hrole' hflag hqueue _ =>
    refine .inr ⟨.land i, ⟨rfl, token, hqueue⟩, ?_⟩
    rw [hrelease false .free (.inl ⟨_, hqueue⟩) hflag hrole']
    simp [singleFlight, flight, hrole, hlead]
  | fails error hlead hrole' hflag hqueue _ _ =>
    refine .inr ⟨.fail i, ⟨rfl, error, hqueue⟩, ?_⟩
    rw [hrelease s.isRefreshing .closing (.inr ⟨_, hqueue⟩) hflag hrole']
    simp [singleFlight, flight, hrole, hlead]
  | closes error hpc hrole' hflag hqueue _ =>
    refine .inr ⟨.close i, ⟨rfl, hqueue⟩, ?_⟩
    have hclose : s.role i = .closing := by rw [hrole, hpc]; rfl
    rw [hkeep hqueue]
    simp [singleFlight, flight, hclose, hrole', hflag]

/-- Tasks are numbered from zero, and the refresh is a single flight. -/
structure Sound (s : Device) : Prop where
  fresh : ∀ j, s.next ≤ j → s.task j = none
  flight : s.flight.Inv

theorem Sound.lt_next {s : Device} (h : s.Sound) {i : ℕ} {t : Task} (ht : s.task i = some t) :
    i < s.next := by
  by_contra hi
  have hnone := h.fresh i (by omega)
  simp [ht] at hnone

theorem Sound.init {s : Device} (h : device.Init s) : s.Sound := by
  obtain ⟨item, rfl⟩ := h
  exact ⟨fun _ _ => rfl, .init rfl⟩

theorem start_flight {s : Device} (h : s.Sound) (flow : Flow) : (s.start flow).flight = s.flight := by
  simp only [flight, start_role s flow (h.fresh _ le_rfl)]
  rfl

theorem start_fresh {s : Device} (h : ∀ j, s.next ≤ j → s.task j = none) (flow : Flow) :
    ∀ j, (s.start flow).next ≤ j → (s.start flow).task j = none := by
  intro j hj
  have hlt : s.next < j := hj
  simpa [start, Function.update_of_ne hlt.ne'] using h j hlt.le

theorem apply_fresh {s : Device} (h : ∀ j, s.next ≤ j → s.task j = none) {i : ℕ} (hi : i < s.next)
    (m : Move) : ∀ j, (s.apply i m).next ≤ j → (s.apply i m).task j = none := by
  have hadvance : ∀ j, (s.advance i m).next ≤ j → (s.advance i m).task j = none := by
    intro j hj
    have hle : s.next ≤ j := hj
    have hne : j ≠ i := by omega
    simp only [advance, Function.update_of_ne hne, h j hle]
    split <;> rfl
  unfold apply
  split
  · exact start_fresh hadvance .logout
  · exact hadvance

/-- **The refresh is a single flight**: a step leaves the flight as it is, or is one of its events. -/
theorem flight_step {s s' : Device} {e : DeviceEvent} (h : s.Sound) (hstep : device.step s e = some s') :
    (∃ flow, s' = s.start flow ∧ s'.flight = s.flight) ∨
      ∃ i t m, e.task = some i ∧ s.task i = some t ∧ Turn s t e m ∧ s' = s.apply i m ∧
        (s'.flight = s.flight ∨
          ∃ a, Seen i m a ∧ (singleFlight ℕ).step s.flight a = some s'.flight) := by
  obtain ⟨flow, rfl, rfl⟩ | ⟨i, t, m, he, ht, hm, rfl⟩ := step_cases hstep
  · exact .inl ⟨flow, rfl, start_flight h flow⟩
  · have hturn := turn_cases hm
    refine .inr ⟨i, t, m, he, ht, hturn, rfl, ?_⟩
    rw [apply_flight h.fresh (h.lt_next ht)]
    exact advance_flight ht hturn

theorem Sound.step {s s' : Device} {e : DeviceEvent} (h : s.Sound) (hstep : device.step s e = some s') :
    s'.Sound := by
  obtain ⟨flow, rfl, hsame⟩ | ⟨i, t, m, -, ht, -, rfl, hflight⟩ := flight_step h hstep
  · exact ⟨start_fresh h.fresh flow, hsame ▸ h.flight⟩
  · refine ⟨apply_fresh h.fresh (h.lt_next ht) m, ?_⟩
    rcases hflight with hsame | ⟨a, -, ha⟩
    · exact hsame ▸ h.flight
    · exact h.flight.step ha

theorem sound_of_reachable {C : Device → DeviceEvent → Prop} {s : Device} (h : device.Reachable C s) :
    s.Sound := h.invariant Sound (fun _ => .init) fun _ _ _ hs _ hstep => hs.step hstep

/-! ### What a queued request waits for -/

/-- A refresh that failed awaits `clearTokens`. -/
def failing (s : Device) : Bool := (List.range s.next).any fun i => s.role i = .closing

/-- The step is not a first 401 to a request while a refresh that failed awaits `clearTokens`. -/
def inTime (s : Device) : DeviceEvent → Bool
  | .respond i (.answer 401 _) =>
    !((s.task i).any fun t => t.pc = .sent && !t.retry) || !s.failing
  | _ => true

theorem failing_of_role {s : Device} (h : s.Sound) {i : ℕ} (hi : s.role i = .closing) : s.failing := by
  have hlt : i < s.next := by
    cases ht : s.task i with
    | none => simp [role, ht] at hi
    | some t => exact h.lt_next ht
  exact List.any_eq_true.mpr ⟨i, List.mem_range.mpr hlt, by simpa using hi⟩

/-- A queue has a leader as long as no 401 comes too late. -/
theorem led_step {s s' : Device} {e : DeviceEvent} (h : s.Sound) (hled : s.flight.Led)
    (hC : s.inTime e) (hstep : device.step s e = some s') : s'.flight.Led := by
  obtain ⟨flow, -, hsame⟩ | ⟨i, t, m, he, ht, hturn, -, hflight⟩ := flight_step h hstep
  · exact hsame ▸ hled
  rcases hflight with hsame | ⟨a, hseen, ha⟩
  · exact hsame ▸ hled
  refine hled.step h.flight ?_ ha
  cases a with
  | lead | land | fail | close => trivial
  | join j =>
    obtain ⟨rfl, hqueue⟩ := hseen
    cases hturn with
    | stays _ _ _ hkeep _ | lands _ _ _ _ hkeep _ | fails _ _ _ _ hkeep _ _ | closes _ _ _ _ hkeep _ =>
      simp [hkeep] at hqueue
    | leads _ _ _ _ _ _ hm => simp [hm, move] at hqueue
    | joins k data hk hpc hretry hflag hm =>
      -- somebody flies, and has not failed
      obtain rfl : k = j := by simpa [hk, DeviceEvent.task] using he
      obtain ⟨r, hr⟩ := h.flight.busy.mp hflag
      have hfailing : s.failing = false := by simpa [inTime, hk, ht, hpc, hretry] using hC
      have hnot : s.role r ≠ .closing := fun hclose => by simp [failing_of_role h hclose] at hfailing
      refine ⟨r, ?_⟩
      have hflies : (s.role r).flies := hr
      show s.role r = .leading
      cases hrole : s.role r with
      | leading => rfl
      | closing => exact absurd hrole hnot
      | free | waiting => simp [hrole] at hflies

/-- The step of task `r` by which `processQueue` resolves or rejects task `j`, and everything with it. -/
def Settles (r j : ℕ) (s : Device) (e : DeviceEvent) (s' : Device) : Prop :=
  e.task = some r ∧ s'.failedQueue = [] ∧
    ((∃ token, s'.task j = (s.task j).map (settle (.resolve token))) ∨
      ∃ error, s'.task j = (s.task j).map (settle (.reject error)))

/-- Task `j` is in the queue, and task `r` refreshes for it. -/
structure Waits (r j : ℕ) (t : Task) (s : Device) : Prop where
  sound : s.Sound
  task : s.task j = some t
  queued : j ∈ s.failedQueue
  leader : s.role r = .leading

theorem advance_task_of_ne (s : Device) {i j : ℕ} (hj : j ≠ i) (m : Move) : (s.advance i m).task j =
    if j ∈ s.failedQueue then (s.task j).map (settle m.queue) else s.task j := by
  simp [advance, Function.update_of_ne hj]

theorem start_task_of_ne (s : Device) {j : ℕ} (hj : j ≠ s.next) (flow : Flow) :
    (s.start flow).task j = s.task j := by
  simp [start, Function.update_of_ne hj]

/-- A step of another task does to a task what `processQueue` does to it. -/
theorem apply_task_of_ne {s : Device} (h : s.Sound) {i j : ℕ} {t : Task} (ht : s.task j = some t)
    (hji : j ≠ i) (m : Move) :
    (s.apply i m).task j = some (if j ∈ s.failedQueue then settle m.queue t else t) := by
  have hadvance : (s.advance i m).task j = some (if j ∈ s.failedQueue then settle m.queue t else t) := by
    rw [advance_task_of_ne s hji, ht]
    split <;> rfl
  have hne : j ≠ s.next := (h.lt_next ht).ne
  unfold apply
  split
  · exact (start_task_of_ne (s.advance i m) hne .logout).trans hadvance
  · exact hadvance

theorem apply_isRefreshing (s : Device) (i : ℕ) (m : Move) :
    (s.apply i m).isRefreshing = m.isRefreshing := by
  unfold apply
  split <;> rfl

theorem apply_failedQueue (s : Device) (i : ℕ) (m : Move) :
    (s.apply i m).failedQueue = s.queueAfter i m.queue := by
  unfold apply
  split <;> rfl

theorem apply_task_self {s : Device} (h : s.Sound) {i : ℕ} {t : Task} (ht : s.task i = some t) (m : Move) :
    (s.apply i m).task i = some m.task := by
  have hadvance : (s.advance i m).task i = some m.task := by simp [advance]
  unfold apply
  split
  · exact (start_task_of_ne (s.advance i m) (h.lt_next ht).ne .logout).trans hadvance
  · exact hadvance

/-- A task of the device behind a step of task `i`: task `i`, another one, or the `logout` of a `signout`. -/
theorem apply_task_cases {s : Device} (h : s.Sound) {i : ℕ} {t : Task} (ht : s.task i = some t) {m : Move}
    {j : ℕ} {u : Task} (hu : (s.apply i m).task j = some u) :
    (j = i ∧ u = m.task) ∨
      (∃ v, s.task j = some v ∧ j ≠ i ∧ u = if j ∈ s.failedQueue then settle m.queue v else v) ∨
      (m.signout = true ∧ j = s.next ∧ u = { flow := .logout, pc := .attach .get }) := by
  by_cases hji : j = i
  · subst hji
    exact .inl ⟨rfl, Option.some.inj (hu.symm.trans (apply_task_self h ht m))⟩
  cases hv : s.task j with
  | some v =>
    exact .inr (.inl ⟨v, rfl, hji, Option.some.inj (hu.symm.trans (apply_task_of_ne h hv hji m))⟩)
  | none =>
    have hadvance : (s.advance i m).task j = none := by
      rw [advance_task_of_ne s hji, hv]
      split <;> rfl
    unfold apply at hu
    split at hu
    · rename_i hsignout
      by_cases hj : j = s.next
      · subst hj
        refine .inr (.inr ⟨hsignout, rfl, ?_⟩)
        simpa [start, advance, entry] using hu.symm
      · have hstart := start_task_of_ne (s.advance i m) hj .logout
        rw [hstart, hadvance] at hu
        cases hu
    · rw [hadvance] at hu
      cases hu

theorem start_task_cases {s : Device} {flow : Flow} {j : ℕ} {u : Task}
    (hu : (s.start flow).task j = some u) :
    s.task j = some u ∨ (j = s.next ∧ u = { flow, pc := entry flow }) := by
  by_cases hj : j = s.next
  · subst hj
    exact .inr ⟨rfl, by simpa [start] using hu.symm⟩
  · exact .inl ((start_task_of_ne s hj flow).symm.trans hu)

theorem apply_keys (s : Device) (i : ℕ) (m : Move) : (s.apply i m).keys = m.keys := by
  unfold apply
  split <;> rfl

theorem apply_user (s : Device) (i : ℕ) (m : Move) : (s.apply i m).auth.user = m.auth.user := by
  unfold apply
  split <;> rfl

theorem apply_isAuthenticated (s : Device) (i : ℕ) (m : Move) :
    (s.apply i m).auth.isAuthenticated = m.auth.isAuthenticated := by
  unfold apply
  split <;> rfl

theorem Sound.pc_of_mem {s : Device} (h : s.Sound) {j : ℕ} {t : Task} (ht : s.task j = some t)
    (hj : j ∈ s.failedQueue) : t.pc = .queued := by
  have hrole : t.pc.role = .waiting := (role_of_task ht) ▸ (h.flight.waits j).mp hj
  cases hpc : t.pc <;> simp_all [Pc.role]

theorem waits_step {s s' : Device} {e : DeviceEvent} {r j : ℕ} {t : Task} (h : Waits r j t s)
    (hstep : device.step s e = some s') : Waits r j t s' ∨ Settles r j s e s' := by
  obtain ⟨hsound, ht, hqueued, hleader⟩ := h
  have hsound' := hsound.step hstep
  obtain ⟨flow, rfl, hsame⟩ | ⟨i, u, m, he, hu, hturn, rfl, hflight⟩ := flight_step hsound hstep
  · refine .inl ⟨hsound', ?_, hqueued, ?_⟩
    · rw [start_task_of_ne s (hsound.lt_next ht).ne, ht]
    · exact (congrFun (congrArg Flight.role hsame) r).trans hleader
  -- a task in the queue does not move
  have hji : j ≠ i := by
    rintro rfl
    have hpc : u.pc.role = .waiting := by
      rw [← role_of_task hu]
      exact (hsound.flight.waits j).mp hqueued
    cases hturn with
    | stays hrole => simp [hpc] at hrole
    | joins _ _ _ hsent | leads _ _ _ hsent => simp [hsent, Pc.role] at hpc
    | lands _ hrole | fails _ hrole => simp [hrole] at hpc
    | closes _ hclear => simp [hclear, Pc.role] at hpc
  have htask := apply_task_of_ne hsound ht hji m
  rw [if_pos hqueued] at htask
  have hqueue := apply_failedQueue s i m
  have hwaiter : (j ∈ (s.apply i m).failedQueue ∧ (s.apply i m).role r = .leading) ∨
      (i = r ∧ ((∃ token, m.queue = .resolve token) ∨ ∃ error, m.queue = .reject error)) := by
    rcases hflight with hsame | ⟨a, hseen, ha⟩
    · have hrole := congrFun (congrArg Flight.role hsame) r
      have hsameQueue : (s.apply i m).failedQueue = s.failedQueue := congrArg Flight.queue hsame
      exact .inl ⟨hsameQueue ▸ hqueued, hrole.trans hleader⟩
    · rcases Flight.waiter_step hsound.flight hqueued hleader ha with hwaits | rfl | rfl
      · exact .inl hwaits
      · exact .inr ⟨hseen.1.symm, .inl hseen.2⟩
      · exact .inr ⟨hseen.1.symm, .inr hseen.2⟩
  rcases hwaiter with ⟨hin, hlead⟩ | ⟨rfl, ⟨token, hop⟩ | ⟨error, hop⟩⟩
  · refine .inl ⟨hsound', ?_, hin, hlead⟩
    rw [htask]
    cases hop : m.queue with
    | keep | push => rfl
    | resolve token | reject error => simp [hqueue, hop, queueAfter] at hin
  · refine .inr ⟨he, by rw [hqueue, hop]; rfl, .inl ⟨token, ?_⟩⟩
    rw [htask, hop, ht]
    rfl
  · refine .inr ⟨he, by rw [hqueue, hop]; rfl, .inr ⟨error, ?_⟩⟩
    rw [htask, hop, ht]
    rfl

/-- **No request is stranded**: while no 401 comes too late, the queue is empty whenever no refresh is on,
and a queued request waits for one refresh, which resolves or rejects it and empties the queue. -/
theorem queued_settled {s : Device} (h : device.Reachable (fun s e => s.inTime e) s) :
    (s.isRefreshing = false → s.failedQueue = []) ∧ s.failedQueue.Nodup ∧
      ∀ j t, s.task j = some t → t.pc = .queued → j ∈ s.failedQueue ∧ ∃ r, s.role r = .leading ∧
        ∀ tr s', device.Run (fun s e => s.inTime e) s tr s' →
          (s'.task j = some t ∧ j ∈ s'.failedQueue ∧ s'.role r = .leading) ∨
          ∃ tr₁ e tr₂ s₁ s₂, tr = tr₁ ++ e :: tr₂ ∧ device.Run (fun s e => s.inTime e) s tr₁ s₁ ∧
            s₁.task j = some t ∧ s₁.role r = .leading ∧ device.step s₁ e = some s₂ ∧
            Settles r j s₁ e s₂ ∧ device.Run (fun s e => s.inTime e) s₂ tr₂ s' := by
  obtain ⟨hsound, hled⟩ : s.Sound ∧ s.flight.Led := by
    refine h.invariant (fun s => s.Sound ∧ s.flight.Led) (fun s hinit => ?_)
      fun s e s' hs hC hstep => ⟨hs.1.step hstep, led_step hs.1 hs.2 hC hstep⟩
    refine ⟨.init hinit, fun hqueue => ?_⟩
    obtain ⟨item, rfl⟩ := hinit
    exact absurd rfl hqueue
  refine ⟨fun hidle => ?_, hsound.flight.nodup, fun j t ht hpc => ?_⟩
  · by_contra hqueue
    obtain ⟨r, hr⟩ := hled hqueue
    have hbusy := hsound.flight.busy.mpr ⟨r, by simp [hr]⟩
    exact absurd (hidle.symm.trans hbusy) (by decide)
  · have hrole : s.flight.role j = .waiting := by
      show s.role j = .waiting
      rw [role_of_task ht, hpc]
      rfl
    have hqueued : j ∈ s.failedQueue := (hsound.flight.waits j).mpr hrole
    obtain ⟨r, hr⟩ := hled (List.ne_nil_of_mem hqueued)
    refine ⟨hqueued, r, hr, fun tr s' hrun => ?_⟩
    rcases hrun.until (Waits r j t) (Settles r j) ⟨hsound, ht, hqueued, hr⟩
        fun _ _ _ hw _ hstep => waits_step hw hstep with hw | ⟨tr₁, e, tr₂, s₁, s₂, htr, h₁, hw, hs, hQ, h₂⟩
    · exact .inl ⟨hw.task, hw.queued, hw.leader⟩
    · exact .inr ⟨tr₁, e, tr₂, s₁, s₂, htr, h₁, hw.task, hw.leader, hs, hQ, h₂⟩

/-- Two requests of the app are sent, and the first one is answered 401. -/
def firstRefreshes : List DeviceEvent :=
  [.start (.other 0), .start (.other 1), .keychain 0 .ok, .keychain 1 .ok, .respond 0 (.answer 401 none)]

/-- A request is queued, and the refresh that it waits for succeeds. -/
theorem queued_settled_refresh :
    ∃ s tr s' t, device.Run (fun s e => s.inTime e) s tr s' ∧ s.task 1 = some t ∧ t.pc = .queued ∧
      ∃ r tr₁ e tr₂ s₁ s₂, tr = tr₁ ++ e :: tr₂ ∧ device.step s₁ e = some s₂ ∧ Settles r 1 s₁ e s₂ := by
  obtain ⟨s, h, hs⟩ := System.reachable_of_exec device inTime (fun s => (s.task 1,
      (device.exec inTime s [.keychain 0 .ok, .respond 0 (.answer 200 (some { tokens := some ⟨"a2", "r2"⟩ })),
        .keychain 0 .ok]).map (·.failedQueue)))
    (firstRefreshes ++ [.respond 1 (.answer 401 none)]) (s := { keys := { item := some ⟨"a1", "r1"⟩ } })
    (a := (some { flow := .other 1, header := some "a1", pc := .queued }, some [])) ⟨_, rfl⟩
    (by decide +kernel)
  obtain ⟨ht, hexec⟩ : _ ∧ _ := by simpa only [Prod.mk.injEq] using hs
  obtain ⟨s', hexec, hempty⟩ := Option.map_eq_some_iff.mp hexec
  have hrun := System.Run.of_exec hexec
  obtain ⟨-, -, hqueued⟩ := queued_settled h
  obtain ⟨-, r, -, hwaits⟩ := hqueued 1 _ ht rfl
  rcases hwaits _ s' hrun with ⟨-, hstill, -⟩ | ⟨tr₁, e, tr₂, s₁, s₂, htr, -, -, -, hstep, hQ, -⟩
  · simp [hempty] at hstill
  · exact ⟨s, _, s', _, hrun, ht, rfl, r, tr₁, e, tr₂, s₁, s₂, htr, hstep, hQ⟩

/-- **A late 401 is stranded**: what is in the queue when a refresh that failed is over stays there, with no
refresh on. -/
theorem late_request_stranded {s s' : Device} {r j : ℕ} {o : Outcome} (hr : s.role r = .closing)
    (hj : j ∈ s.failedQueue) (hstep : device.step s (.keychain r o) = some s') :
    s'.isRefreshing = false ∧ j ∈ s'.failedQueue := by
  obtain ⟨_, he, -⟩ | ⟨i, t, m, he, ht, hm, rfl⟩ := step_cases hstep
  · cases he
  obtain rfl : r = i := by simpa [DeviceEvent.task] using he
  have hclosing : t.pc.role = .closing := (role_of_task ht) ▸ hr
  have hm' : m.isRefreshing = false ∧ m.queue = .keep := by
    have hturn := turn_cases hm
    cases hturn with
    | closes _ _ _ hflag hqueue _ => exact ⟨hflag, hqueue⟩
    | stays hrole => simp [hclosing] at hrole
    | joins _ _ _ hsent | leads _ _ _ hsent => simp [hsent, Pc.role] at hclosing
    | lands _ hrole | fails _ hrole => simp [hrole] at hclosing
  rw [apply_failedQueue, hm'.2]
  exact ⟨(apply_isRefreshing s r m).trans hm'.1, hj⟩

/-- **A request is left in the queue**: its 401 comes while the refresh that failed awaits `clearTokens`. -/
theorem request_left_in_queue :
    ¬ ∀ s, device.Reachable System.Any s → s.isRefreshing = false → s.failedQueue = [] := by
  intro hclaim
  obtain ⟨s, h, hs⟩ := System.reachable_of_exec device (fun _ _ => true)
    (fun s => (s.isRefreshing, s.failedQueue))
    (firstRefreshes ++ [.keychain 0 .ok, .respond 1 (.answer 401 none), .keychain 0 .ok]) (s := {})
    (a := (false, [1])) ⟨none, rfl⟩ (by decide +kernel)
  obtain ⟨hidle, hqueue⟩ : _ ∧ _ := by simpa only [Prod.mk.injEq] using hs
  have hempty := hclaim s (h.mono fun _ _ _ => trivial) hidle
  simp [hqueue] at hempty

end Device

end Locus.Mobile
