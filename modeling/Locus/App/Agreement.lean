import Locus.App.Logout
import Locus.Lib.Places
import Locus.Mobile.RefreshOnce
import Locus.Server.TokenTable

/-!
# The app and the server agree on the refresh token

The server exchanges a refresh token once, and the app has nothing else to stay signed in with. The tokens of the app
are at places: stored in the Keychain, about to be written by a task, in an answer on its way, or presented by a refresh
that the server has not handled yet. While a refresh is on, what is stored does not count: it is what that refresh
presents, and it is overwritten or cleared at its end.

Proof. No token is at two places (`Lib.Sole`), and the server has a row for each (`Agreed`). A step of the device moves
a token from a place to the next one (`Agreed.keychain`, `Agreed.exchange`); the server draws a new one, and takes out
only what the request presents, which is at no other place (`Agreed.serve`).
-/

namespace Locus.App

open Lib Server Mobile

/-! ### The places of the tokens -/

inductive Place
  | stored
  /-- `saveTokens` of the task is on. -/
  | pending (i : ℕ)
  /-- The answer to the task is on its way. -/
  | coming (i : ℕ)
  /-- The `POST /auth/refresh` of the task is not handled yet. -/
  | presented (i : ℕ)
deriving DecidableEq

/-- A refresh has been presented, and is not over. -/
def presenting (s : Device) : Bool := (List.range s.next).any fun i => (s.task i).any (·.pc.presenting)

def ClientState.held (a : ClientState) : Place → Option String
  | .stored => if presenting a.device then none else a.device.keys.item.map (·.refreshToken)
  | .pending i => (a.device.task i).bind fun t => t.pc.pending.map (·.refreshToken)
  | .coming i => (a.answer i).bind fun response => a.device.receives (.respond i (reply response))
  | .presented i => if (a.answer i).isNone then (a.device.task i).bind (·.pc.sends) else none

/-- The Keychain works, and requests from elsewhere present no token of the app. When the server handles a refresh of
the app, no statement fails, what is drawn is new, and the token has not expired. -/
def undisturbed (a : ClientState) : ClientEvent → Prop
  | .keychain _ o => o = .ok
  | .serve i env x => ∀ token, a.held (.presented i) = some token → Quiet a.server.db env x ∧ env.randomHex ≠ "" ∧
      ∀ row ∈ a.server.db.refreshTokens, row.token = token → (x 0).now < row.expiresAt
  | .elsewhere r _ _ => ∀ token, r.presents = some token → ∀ p, a.held p ≠ some token
  | _ => True

variable {svc : Services} {other : ℕ → Option String → ApiRequest} {a a' : ClientState} {e : ClientEvent}

theorem presenting_iff {s : Device} (h : s.Sound) :
    presenting s = true ↔ ∃ i t, s.task i = some t ∧ t.pc.presenting = true := by
  simp only [presenting, List.any_eq_true, List.mem_range, Option.any_eq_true]
  constructor
  · rintro ⟨i, -, t, ht, hpc⟩
    exact ⟨i, t, ht, hpc⟩
  · rintro ⟨i, t, ht, hpc⟩
    exact ⟨i, h.lt_next ht, t, ht, hpc⟩

theorem held_stored {q : Tokens} (hitem : a.device.keys.item = some q) (h : presenting a.device = false) :
    a.held .stored = some q.refreshToken := by
  simp [ClientState.held, h, hitem]

/-- What the app holds, and what the server has of it. -/
structure Agreed (a : ClientState) : Prop where
  sound : a.device.Sound
  fallback : a.device.keys.fallbackTokens = none
  constrained : Constrained a.server.db
  sole : Sole a.held
  known : ∀ p token, a.held p = some token → token ≠ "" ∧ a.server.db.Knows token
  /-- An answer is on its way to a task that awaits it. -/
  awaited : ∀ i response, a.answer i = some response →
    ∃ t, a.device.task i = some t ∧ (t.pc = .sent ∨ ∃ token, t.pc = .refreshSent token)
  accepted : ∀ i t token response, a.device.task i = some t → t.pc = .refreshSent token →
    a.answer i = some response → ∃ accessToken refreshToken, response = ⟨200, .tokens accessToken refreshToken⟩ ∧
      accessToken ≠ "" ∧ refreshToken ≠ ""

/-! ### A step of the device -/

section
variable {s : Device} {i j : ℕ} {t u : Task} {m : Move} {d : DeviceEvent} {token : String}

/-- The task has a token, or awaits an answer. -/
def Pc.Carries (pc : Pc) : Prop := pc.pending ≠ none ∨ pc = .sent ∨ pc.presenting = true

theorem carries_of_sends {pc : Pc} (h : pc.sends = some token) : pc = .refreshSent token := by
  cases pc <;> simp_all [Pc.sends]

theorem not_carries_settle (op : QueueOp) (hpc : t.pc = .queued) : ¬ Pc.Carries (Device.settle op t).pc := by
  cases op with
  | keep | push => simp [Device.settle, Pc.Carries, hpc, Pc.pending, Pc.presenting]
  | resolve token => simp [Device.settle, Pc.Carries, Pc.pending, Pc.presenting, KeyCall.saves]
  | reject error =>
    show ¬ Pc.Carries (Device.caught t.flow error)
    cases t.flow <;> simp [Device.caught, Pc.Carries, Pc.pending, Pc.presenting]

theorem not_carries_entry (flow : Flow) : ¬ Pc.Carries (Device.entry flow) := by
  cases flow <;> simp [Device.entry, Pc.Carries, Pc.pending, Pc.presenting, KeyCall.saves]

theorem carries_apply (h : s.Sound) (ht : s.task i = some t) (hji : j ≠ i) (hu : (s.apply i m).task j = some u)
    (hcarries : Pc.Carries u.pc) : s.task j = some u := by
  rcases Device.apply_task_cases h ht hu with ⟨hj, -⟩ | ⟨v, hv, -, rfl⟩ | ⟨-, -, rfl⟩
  · exact absurd hj hji
  · by_cases hmem : j ∈ s.failedQueue
    · rw [if_pos hmem] at hcarries
      exact absurd hcarries (not_carries_settle _ (h.pc_of_mem hv hmem))
    · rwa [if_neg hmem]
  · exact absurd hcarries (not_carries_entry .logout)

theorem carries_kept (h : s.Sound) (hji : j ≠ i) (hu : s.task j = some u) (hcarries : Pc.Carries u.pc) :
    (s.apply i m).task j = some u := by
  rw [Device.apply_task_of_ne h hu hji m, if_neg]
  intro hmem
  rw [h.pc_of_mem hu hmem] at hcarries
  simp [Pc.Carries, Pc.pending, Pc.presenting] at hcarries

/-- What is stored behind a move, with no refresh on: what was stored, with none on before and none begun, or what
the task has written. -/
theorem stored_apply (h : s.Sound) (hsound : (s.apply i m).Sound) (ht : s.task i = some t) (hm : s.Moves t d m)
    (hoff : presenting (s.apply i m) = false) {q : Tokens} (hq : (s.apply i m).keys.item = some q) :
    (s.keys.item = some q ∧ presenting s = false ∧ m.task.pc.sends = none) ∨ t.pc.pending = some q := by
  have hend : m.task.pc.presenting = false := by
    refine Bool.eq_false_iff.mpr fun hon => ?_
    exact Bool.eq_false_iff.mp hoff ((presenting_iff hsound).mpr ⟨i, _, Device.apply_task_self h ht m, hon⟩)
  rcases item_cases hm hq with hq' | hq'
  swap
  · exact .inr hq'
  by_cases hon : presenting s = true
  · obtain ⟨j, u, hu, hpc⟩ := (presenting_iff h).mp hon
    by_cases hji : j = i
    · subst hji
      cases ht.symm.trans hu
      rcases hm.ends hpc with hstill | hover
      · exact absurd hstill (by simp [hend])
      · rw [Device.apply_keys, hover] at hq
        exact .inr hq
    · refine absurd ((presenting_iff hsound).mpr ⟨j, u, carries_kept h hji hu (.inr (.inr hpc)), hpc⟩) ?_
      simp [hoff]
  · refine .inl ⟨hq', Bool.eq_false_iff.mpr hon, ?_⟩
    cases hsends : m.task.pc.sends with
    | none => rfl
    | some token => simp [carries_of_sends hsends, Pc.presenting] at hend

theorem sends_stored (h : s.Sound) (ht : s.task i = some t) (hm : s.Moves t d m)
    (hsends : m.task.pc.sends = some token) :
    presenting s = false ∧ ∃ q, s.keys.item = some q ∧ q.refreshToken = token := by
  obtain ⟨hrole, hpc, -, hstored⟩ := hm.sends token hsends
  refine ⟨Bool.eq_false_iff.mpr fun hon => ?_, hstored⟩
  obtain ⟨j, u, hu, hpresenting⟩ := (presenting_iff h).mp hon
  have hji : j = i := h.flight.one j i (by
    show (s.role j).flies = true
    rw [Device.role_of_task hu]
    exact role_of_presenting hpresenting) (by
    show (s.role i).flies = true
    rw [Device.role_of_task ht, hrole]
    rfl)
  subst hji
  cases ht.symm.trans hu
  simp [hpc] at hpresenting

theorem receives_awaits {response : Reply} (h : s.receives (.respond j response) = some token) :
    ∃ u, s.task j = some u ∧ (u.pc = .sent ∨ u.pc.presenting = true) := by
  cases response with
  | lost => cases h
  | answer status data =>
    obtain ⟨u, hu, h⟩ := Option.bind_eq_some_iff.mp h
    refine ⟨u, hu, ?_⟩
    split_ifs at h
    split at h
    · exact .inl ‹_›
    · exact .inl ‹_›
    · exact .inr (by simp [‹u.pc = _›, Pc.presenting])
    · cases h

theorem receives_congr {s' : Device} (h : s.task j = s'.task j) (response : Reply) :
    s.receives (.respond j response) = s'.receives (.respond j response) := by
  cases response with
  | lost => rfl
  | answer status data => simp only [Device.receives, h]

end

def Place.task : Place → Option ℕ
  | .stored => none
  | .pending i | .coming i | .presented i => some i

theorem held_beside {i j : ℕ} {t : Task} {m : Move} {p : Place} {token : String} (h : a.device.Sound)
    (ht : a.device.task i = some t) (hdevice : a'.device = a.device.apply i m) (hp : p.task = some j) (hji : j ≠ i)
    (hanswer : a'.answer j = a.answer j) (hheld : a'.held p = some token) : a.held p = some token := by
  cases p with
  | stored => cases hp
  | pending k =>
    obtain rfl := Option.some.inj hp
    obtain ⟨u, hu, hpending⟩ := Option.bind_eq_some_iff.mp hheld
    rw [hdevice] at hu
    have hu' := carries_apply h ht hji hu (.inl fun hnone => by simp [hnone] at hpending)
    exact Option.bind_eq_some_iff.mpr ⟨u, hu', hpending⟩
  | coming k =>
    obtain rfl := Option.some.inj hp
    obtain ⟨response, hresponse, hreceives⟩ := Option.bind_eq_some_iff.mp hheld
    obtain ⟨u, hu, hpc⟩ := receives_awaits hreceives
    have hu' := carries_apply h ht hji (hdevice ▸ hu) (.inr hpc)
    refine Option.bind_eq_some_iff.mpr ⟨response, hanswer ▸ hresponse, ?_⟩
    rw [receives_congr (hu'.trans hu.symm)]
    exact hreceives
  | presented k =>
    obtain rfl := Option.some.inj hp
    simp only [ClientState.held, hanswer] at hheld ⊢
    split_ifs at hheld ⊢
    obtain ⟨u, hu, hsends⟩ := Option.bind_eq_some_iff.mp hheld
    rw [hdevice] at hu
    have hu' := carries_apply h ht hji hu (.inr (.inr (by rw [carries_of_sends hsends]; rfl)))
    exact Option.bind_eq_some_iff.mpr ⟨u, hu', hsends⟩

theorem Agreed.of_move (h : Agreed a) (hsound : a'.device.Sound) (hfallback : a'.device.keys.fallbackTokens = none)
    (hserver : a'.server = a.server) (go : Place → Place)
    (hfrom : ∀ p token, a'.held p = some token → ∃ q, a.held q = some token ∧ go q = p)
    (hanswer : ∀ i response, a'.answer i = some response → a.answer i = some response ∧
      ∀ t, Pc.Carries t.pc → (a.device.task i = some t ↔ a'.device.task i = some t)) : Agreed a' where
  sound := hsound
  fallback := hfallback
  constrained := hserver ▸ h.constrained
  sole := h.sole.move go hfrom
  known p token hheld := by
    obtain ⟨q, hq, -⟩ := hfrom p token hheld
    exact hserver ▸ h.known q token hq
  awaited i response hi := by
    obtain ⟨hi, htask⟩ := hanswer i response hi
    obtain ⟨t, ht, hpc⟩ := h.awaited i response hi
    refine ⟨t, (htask t ?_).mp ht, hpc⟩
    rcases hpc with hpc | ⟨token, hpc⟩
    · exact .inr (.inl hpc)
    · exact .inr (.inr (by rw [hpc]; rfl))
  accepted i t token response ht hpc hi := by
    obtain ⟨hi, htask⟩ := hanswer i response hi
    exact h.accepted i t token response ((htask t (.inr (.inr (by rw [hpc]; rfl)))).mpr ht) hpc hi

theorem task_beside {i j : ℕ} {t u : Task} {m : Move} (h : a.device.Sound) (ht : a.device.task i = some t)
    (hdevice : a'.device = a.device.apply i m) (hji : j ≠ i) (hcarries : Pc.Carries u.pc) :
    a.device.task j = some u ↔ a'.device.task j = some u := by
  rw [hdevice]
  exact ⟨fun hu => carries_kept h hji hu hcarries, fun hu => carries_apply h ht hji hu hcarries⟩

/-- The Keychain answers: what a task has written is stored, and what is stored is presented. -/
theorem Agreed.keychain (h : Agreed a) {i : ℕ} {t : Task} {m : Move} (ht : a.device.task i = some t)
    (hm : a.device.keychain t .ok = some m) (hdevice : a'.device = a.device.apply i m) (hsound : a'.device.Sound)
    (hserver : a'.server = a.server) (hanswer : a'.answer = a.answer) : Agreed a' := by
  have hmoves := Device.moves_keychain (e := .keychain i .ok) h.fallback hm
  -- no answer is on its way to a task that awaits the Keychain
  have hnone : a.answer i = none := by
    cases hi : a.answer i with
    | none => rfl
    | some response =>
      obtain ⟨u, hu, hpc⟩ := h.awaited i response hi
      cases ht.symm.trans hu
      rcases hpc with hpc | ⟨token, hpc⟩ <;> simp [Device.keychain, hpc] at hm
  have hpending : m.task.pc.pending = none := by
    cases hp : m.task.pc.pending with
    | none => rfl
    | some q => cases hmoves.pending q hp
  let go : Place → Place := fun p =>
    if p = .stored then (if m.task.pc.sends = none then .stored else .presented i)
    else if p = .pending i then .stored else p
  refine h.of_move hsound (by rw [hdevice, Device.apply_keys]; exact hmoves.fallback) hserver go ?_ ?_
  · intro p token hheld
    have hbeside : ∀ j, p.task = some j → j ≠ i → ∃ q, a.held q = some token ∧ go q = p := by
      intro j hp hji
      refine ⟨p, held_beside h.sound ht hdevice hp hji (by rw [hanswer]) hheld, ?_⟩
      have hstored : p ≠ .stored := by rintro rfl; cases hp
      have hother : p ≠ .pending i := by rintro rfl; exact hji (Option.some.inj hp).symm
      simp [go, hstored, hother]
    cases p with
    | stored =>
      rw [ClientState.held] at hheld
      split at hheld
      · cases hheld
      rename_i hoff
      obtain ⟨q, hq, rfl⟩ := Option.map_eq_some_iff.mp hheld
      rw [hdevice] at hq hoff hsound
      rcases stored_apply h.sound hsound ht hmoves (Bool.eq_false_iff.mpr hoff) hq with
        ⟨hitem, hbefore, hsends⟩ | hwritten
      · exact ⟨.stored, held_stored hitem hbefore, by simp [go, hsends]⟩
      · exact ⟨.pending i, Option.bind_eq_some_iff.mpr ⟨t, ht, by rw [hwritten]; rfl⟩, by simp [go]⟩
    | pending j =>
      by_cases hji : j = i
      · subst hji
        rw [ClientState.held, hdevice, Device.apply_task_self h.sound ht m] at hheld
        simp [hpending] at hheld
      · exact hbeside j rfl hji
    | coming j =>
      by_cases hji : j = i
      · subst hji
        rw [ClientState.held, hanswer, hnone] at hheld
        cases hheld
      · exact hbeside j rfl hji
    | presented j =>
      by_cases hji : j = i
      · subst hji
        rw [ClientState.held, hanswer, hnone, hdevice, Device.apply_task_self h.sound ht m] at hheld
        have hsends : m.task.pc.sends = some token := hheld
        obtain ⟨hoff, q, hitem, rfl⟩ := sends_stored h.sound ht hmoves hsends
        exact ⟨.stored, held_stored hitem hoff, by simp [go, hsends]⟩
      · exact hbeside j rfl hji
  · intro j response hj
    rw [hanswer] at hj
    refine ⟨hj, fun u hcarries => task_beside h.sound ht hdevice ?_ hcarries⟩
    rintro rfl
    rw [hnone] at hj
    cases hj

theorem Agreed.exchange (h : Agreed a) {i : ℕ} {t : Task} {m : Move} {response : Reply}
    (ht : a.device.task i = some t) (hm : a.device.respond t response = some m)
    (hresponse : response = .lost ∨ ∃ r, a.answer i = some r ∧ response = reply r)
    (hdevice : a'.device = a.device.apply i m) (hsound : a'.device.Sound) (hserver : a'.server = a.server)
    (hanswer : a'.answer = Function.update a.answer i none) : Agreed a' := by
  have hfully : a.device.refreshesFully (.respond i response) = true := by
    rcases hresponse with rfl | ⟨r, hr, rfl⟩
    · rfl
    · simp only [reply, Device.refreshesFully, ht, Option.all_some]
      split
      · rename_i token hpc
        obtain ⟨accessToken, refreshToken, rfl, haccess, hrefresh⟩ := h.accepted i t token r ht hpc hr
        simp [payload, Tokens.valid, haccess, hrefresh]
      · rfl
  have hmoves := Device.moves_respond h.fallback ht hfully hm
  have hpc : t.pc = .sent ∨ ∃ token, t.pc = .refreshSent token := by
    unfold Device.respond at hm
    split at hm
    · exact .inl ‹_›
    · exact .inl ‹_›
    · exact .inr ⟨_, ‹_›⟩
    · exact .inr ⟨_, ‹_›⟩
    · cases hm
  have hpending : t.pc.pending = none := by
    rcases hpc with hpc | ⟨token, hpc⟩ <;> rw [hpc] <;> rfl
  have hnone : a'.answer i = none := by rw [hanswer, Function.update_self]
  let go : Place → Place := fun p => if p = .coming i then .pending i else p
  refine h.of_move hsound (by rw [hdevice, Device.apply_keys]; exact hmoves.fallback) hserver go ?_ ?_
  · intro p token hheld
    have hbeside : ∀ j, p.task = some j → j ≠ i → ∃ q, a.held q = some token ∧ go q = p := by
      intro j hp hji
      refine ⟨p, held_beside h.sound ht hdevice hp hji (by rw [hanswer, Function.update_of_ne hji]) hheld, ?_⟩
      have hother : p ≠ .coming i := by rintro rfl; exact hji (Option.some.inj hp).symm
      simp [go, hother]
    cases p with
    | stored =>
      rw [ClientState.held] at hheld
      split at hheld
      · cases hheld
      rename_i hoff
      obtain ⟨q, hq, rfl⟩ := Option.map_eq_some_iff.mp hheld
      rw [hdevice] at hq hoff hsound
      rcases stored_apply h.sound hsound ht hmoves (Bool.eq_false_iff.mpr hoff) hq with ⟨hitem, hbefore, -⟩ | hwritten
      · exact ⟨.stored, held_stored hitem hbefore, by simp [go]⟩
      · simp [hpending] at hwritten
    | pending j =>
      by_cases hji : j = i
      · subst hji
        rw [ClientState.held, hdevice, Device.apply_task_self h.sound ht m] at hheld
        obtain ⟨q, hq, rfl⟩ := Option.map_eq_some_iff.mp hheld
        have hreceives := hmoves.pending q hq
        refine ⟨.coming j, ?_, by simp [go]⟩
        rcases hresponse with rfl | ⟨r, hr, rfl⟩
        · cases hreceives
        · exact Option.bind_eq_some_iff.mpr ⟨r, hr, hreceives⟩
      · exact hbeside j rfl hji
    | coming j =>
      by_cases hji : j = i
      · subst hji
        rw [ClientState.held, hnone] at hheld
        cases hheld
      · exact hbeside j rfl hji
    | presented j =>
      by_cases hji : j = i
      · subst hji
        rw [ClientState.held, hnone, hdevice, Device.apply_task_self h.sound ht m] at hheld
        have hsends : m.task.pc.sends = some token := hheld
        obtain ⟨hrole, hquiet, -⟩ := hmoves.sends token hsends
        rcases hpc with hpc | ⟨token, hpc⟩
        · rw [hpc] at hrole
          cases hrole
        · rw [hpc] at hquiet
          cases hquiet
      · exact hbeside j rfl hji
  · intro j response hj
    by_cases hji : j = i
    · subst hji
      rw [hnone] at hj
      cases hj
    · rw [hanswer, Function.update_of_ne hji] at hj
      exact ⟨hj, fun u hcarries => task_beside h.sound ht hdevice hji hcarries⟩

theorem Agreed.respond (h : Agreed a) {i : ℕ} {response : Reply}
    (hresponse : response = .lost ∨ ∃ r, a.answer i = some r ∧ response = reply r)
    (hstep : a.respond i response = some a') : Agreed a' := by
  obtain ⟨hdevice, hserver, hanswer⟩ := respond_some hstep
  obtain ⟨flow, he, -⟩ | ⟨j, t, m, he, ht, hm, hs'⟩ := Device.step_cases hdevice
  · cases he
  · obtain rfl := Option.some.inj he
    exact h.exchange ht hm hresponse hs' (h.sound.step hdevice) hserver hanswer

theorem Agreed.start (h : Agreed a) (flow : Flow) (hdevice : a'.device = a.device.start flow)
    (hsound : a'.device.Sound) (hserver : a'.server = a.server) (hanswer : a'.answer = a.answer) : Agreed a' := by
  have htask : ∀ j u, Pc.Carries u.pc → (a.device.task j = some u ↔ a'.device.task j = some u) := by
    intro j u hcarries
    rw [hdevice]
    constructor
    · intro hu
      exact (Device.start_task_of_ne a.device (h.sound.lt_next hu).ne flow).trans hu
    · intro hu
      rcases Device.start_task_cases hu with hu | ⟨-, rfl⟩
      · exact hu
      · exact absurd hcarries (not_carries_entry flow)
  refine h.of_move hsound (by rw [hdevice]; exact h.fallback) hserver id (fun p token hheld => ⟨p, ?_, rfl⟩)
    fun j response hj => ⟨hanswer ▸ hj, htask j⟩
  cases p with
  | stored =>
    rw [ClientState.held] at hheld
    split at hheld
    · cases hheld
    rename_i hoff
    obtain ⟨q, hq, rfl⟩ := Option.map_eq_some_iff.mp hheld
    refine held_stored (by rw [hdevice] at hq; exact hq) (Bool.eq_false_iff.mpr fun hon => hoff ?_)
    obtain ⟨j, u, hu, hpc⟩ := (presenting_iff h.sound).mp hon
    exact (presenting_iff hsound).mpr ⟨j, u, (htask j u (.inr (.inr hpc))).mp hu, hpc⟩
  | pending j =>
    obtain ⟨u, hu, hpending⟩ := Option.bind_eq_some_iff.mp hheld
    exact Option.bind_eq_some_iff.mpr
      ⟨u, (htask j u (.inl fun hnone => by simp [hnone] at hpending)).mpr hu, hpending⟩
  | coming j =>
    obtain ⟨response, hresponse, hreceives⟩ := Option.bind_eq_some_iff.mp hheld
    obtain ⟨u, hu, hpc⟩ := receives_awaits hreceives
    refine Option.bind_eq_some_iff.mpr ⟨response, hanswer ▸ hresponse, ?_⟩
    rw [receives_congr (((htask j u (.inr hpc)).mpr hu).trans hu.symm)]
    exact hreceives
  | presented j =>
    simp only [ClientState.held, hanswer] at hheld ⊢
    split_ifs at hheld ⊢
    obtain ⟨u, hu, hsends⟩ := Option.bind_eq_some_iff.mp hheld
    have hcarries : Pc.Carries u.pc := .inr (.inr (by rw [carries_of_sends hsends]; rfl))
    exact Option.bind_eq_some_iff.mpr ⟨u, (htask j u hcarries).mpr hu, hsends⟩

/-! ### A step of the server -/

theorem refreshBody_token {token : String} (h : token ≠ "") :
    textOrNull ((refreshBody token).field? "refresh_token") = some token := if_pos (decide_eq_true h)

theorem request_presents (hother : ∀ id header, (other id header).presents = none) {t : Task} {r : ApiRequest}
    {token : String} (hr : request other t = some r) (hpresents : r.presents = some token) :
    t.pc = .refreshSent token := by
  unfold request at hr
  split at hr
  · rename_i presented hpc
    cases hr
    have htoken : (if (Json.str presented).truthy then some presented else none) = some token := hpresents
    split at htoken
    · cases htoken
      exact hpc
    · cases htoken
  · cases hr
    split at hpresents
    · cases hpresents
    · cases hpresents
    · cases hpresents
    · cases hpresents
    · rw [hother] at hpresents
      cases hpresents
  · cases hr

theorem refreshToken_of_payload {body : Body} {q : Tokens} (h : (payload body).bind (·.tokens) = some q) :
    body.refreshToken = some q.refreshToken := by
  cases body <;> simp_all [payload, Body.refreshToken]
  · rw [← h]
  · rw [← h]

/-- **What the server answers to a task**: a token that it hands out is new and has its row, and a refresh is
accepted. -/
theorem Agreed.served (h : Agreed a) (hsign : ∀ claims now, svc.sign claims now ≠ "") {i : ℕ} {t : Task}
    {r : ApiRequest} {env : NodeEnv} {x : ℕ → Tick} (hC : undisturbed a (.serve i env x))
    (ht : a.device.task i = some t) (hr : request other t = some r) (hnone : a.answer i = none) :
    (∀ token, a.device.receives (.respond i (reply (Server.serve svc a.server r env x).1)) = some token →
      token ≠ "" ∧ ¬ a.server.db.Knows token ∧ (Server.serve svc a.server r env x).2.db.Knows token) ∧
    ∀ presented, t.pc = .refreshSent presented →
      ∃ accessToken refreshToken, (Server.serve svc a.server r env x).1 = ⟨200, .tokens accessToken refreshToken⟩ ∧
        accessToken ≠ "" ∧ refreshToken ≠ "" := by
  have hrefresh : ∀ presented, t.pc = .refreshSent presented →
      ∃ accessToken, (Server.serve svc a.server r env x).1 = ⟨200, .tokens accessToken env.randomHex⟩ ∧
        accessToken ≠ "" ∧ env.randomHex ≠ "" ∧ ¬ a.server.db.Knows env.randomHex ∧
        (Server.serve svc a.server r env x).2.db.Knows env.randomHex := by
    intro presented hpc
    have hheld : a.held (.presented i) = some presented := by
      simp [ClientState.held, hnone, ht, hpc, Pc.sends]
    obtain ⟨hquiet, hne, hlive⟩ := hC presented hheld
    obtain ⟨hnonempty, hknown⟩ := h.known _ _ hheld
    obtain rfl : ApiRequest.postAuthRefresh (refreshBody presented) = r := by
      simpa only [request, hpc, Option.some.injEq] using hr
    obtain ⟨⟨claims, hresponse⟩, hnew⟩ := serve_refresh svc h.constrained hquiet (refreshBody_token hnonempty) hknown
      hlive
    have hunknown : ¬ a.server.db.Knows env.randomHex := by
      rintro ⟨row, hrow, htoken⟩
      exact hquiet.token row hrow htoken
    exact ⟨_, hresponse, hsign _ _, hne, hunknown, hnew⟩
  refine ⟨fun token hreceives => ?_, fun presented hpc => ?_⟩
  · have hreceived := hreceives
    simp only [reply, Device.receives, ht, Option.bind_some] at hreceives
    split_ifs at hreceives
    have hbody : ∀ q, (((payload (Server.serve svc a.server r env x).1.body).bind (·.tokens)).filter (·.valid)).map
        (·.refreshToken) = some q → (Server.serve svc a.server r env x).1.body.refreshToken = some q ∧ q ≠ "" := by
      intro q hq
      obtain ⟨p, hp, rfl⟩ := Option.map_eq_some_iff.mp hq
      obtain ⟨hp, hvalid⟩ := Option.filter_eq_some_iff.mp hp
      rw [Tokens.valid, Bool.and_eq_true, decide_eq_true_eq, decide_eq_true_eq] at hvalid
      exact ⟨refreshToken_of_payload hp, hvalid.2⟩
    split at hreceives
    · rename_i email password hpc hflow
      obtain ⟨htoken, hne⟩ := hbody token hreceives
      obtain rfl : ApiRequest.postAuthLogin (credentials email password) = r := by
        simpa only [request, hpc, hflow, Option.some.injEq] using hr
      obtain ⟨-, hnew, hknown⟩ := login_handsOut email password token htoken
      exact ⟨hne, hnew, hknown⟩
    · rename_i email password hpc hflow
      obtain ⟨htoken, hne⟩ := hbody token hreceives
      obtain rfl : ApiRequest.postAuthRegister (credentials email password) = r := by
        simpa only [request, hpc, hflow, Option.some.injEq] using hr
      obtain ⟨-, hnew, hknown⟩ := register_handsOut email password token htoken
      exact ⟨hne, hnew, hknown⟩
    · rename_i presented hpc
      obtain ⟨accessToken, hresponse, -, hne, hnew, hknown⟩ := hrefresh presented hpc
      obtain ⟨htoken, -⟩ := hbody token hreceives
      rw [hresponse] at htoken
      obtain rfl := Option.some.inj htoken
      exact ⟨hne, hnew, hknown⟩
    · cases hreceives
  · obtain ⟨accessToken, hresponse, haccess, hne, -⟩ := hrefresh presented hpc
    exact ⟨accessToken, env.randomHex, hresponse, haccess, hne⟩

theorem Agreed.serve (h : Agreed a) (hsign : ∀ claims now, svc.sign claims now ≠ "")
    (hother : ∀ id header, (other id header).presents = none) {i : ℕ} {t : Task} {r : ApiRequest} {env : NodeEnv}
    {x : ℕ → Tick} (hC : undisturbed a (.serve i env x)) (ht : a.device.task i = some t)
    (hr : request other t = some r) (hnone : a.answer i = none) (hdevice : a'.device = a.device)
    (hserver : a'.server = (Server.serve svc a.server r env x).2)
    (hanswer : a'.answer = Function.update a.answer i (some (Server.serve svc a.server r env x).1)) : Agreed a' := by
  obtain ⟨hnew, haccepted⟩ := h.served hsign hC ht hr hnone
  have hself : a'.answer i = some (Server.serve svc a.server r env x).1 := by rw [hanswer, Function.update_self]
  have hbeside : ∀ {j}, j ≠ i → a'.answer j = a.answer j := fun hji => by rw [hanswer, Function.update_of_ne hji]
  -- what is held behind the step was held and is not what the request presents, or is new
  have hfrom : ∀ p token, a'.held p = some token →
      (a.held p = some token ∧ r.presents ≠ some token) ∨ (p = .coming i ∧
        a.device.receives (.respond i (reply (Server.serve svc a.server r env x).1)) = some token) := by
    intro p token hheld
    by_cases hp : p = .coming i
    · subst hp
      rw [ClientState.held, hself, hdevice] at hheld
      exact .inr ⟨rfl, hheld⟩
    have hpresented : p ≠ .presented i := by
      rintro rfl
      rw [ClientState.held, hself] at hheld
      cases hheld
    have hold : a.held p = some token := by
      cases p with
      | stored | pending j =>
        simpa only [ClientState.held, hdevice] using hheld
      | coming j | presented j =>
        have hji : j ≠ i := by
          rintro rfl
          first | exact hp rfl | exact hpresented rfl
        simpa only [ClientState.held, hdevice, hbeside hji] using hheld
    refine .inl ⟨hold, fun hpresents => hpresented ?_⟩
    refine h.sole p (.presented i) token hold ?_
    simp [ClientState.held, hnone, ht, request_presents hother hr hpresents, Pc.sends]
  refine ⟨hdevice ▸ h.sound, hdevice ▸ h.fallback, hserver ▸ serve_constrained r h.constrained, ?_, ?_, ?_, ?_⟩
  · cases hreceived : a.device.receives (.respond i (reply (Server.serve svc a.server r env x).1)) with
    | none =>
      refine h.sole.mono fun p token hheld => ?_
      rcases hfrom p token hheld with ⟨hold, -⟩ | ⟨-, hreceives⟩
      · exact hold
      · rw [hreceived] at hreceives
        cases hreceives
    | some token =>
      refine h.sole.put (.coming i) (fun p hp => (hnew token hreceived).2.1 (h.known p token hp).2)
        fun p u hheld => ?_
      rcases hfrom p u hheld with ⟨hold, -⟩ | ⟨hp, hreceives⟩
      · exact .inl hold
      · rw [hreceived] at hreceives
        exact .inr ⟨hp, (Option.some.inj hreceives).symm⟩
  · intro p token hheld
    rw [hserver]
    rcases hfrom p token hheld with ⟨hold, hpresents⟩ | ⟨-, hreceives⟩
    · obtain ⟨hne, hknown⟩ := h.known p token hold
      exact ⟨hne, serve_knows r hknown hpresents⟩
    · obtain ⟨hne, -, hknown⟩ := hnew token hreceives
      exact ⟨hne, hknown⟩
  · intro j response hj
    rw [hdevice]
    by_cases hji : j = i
    · subst hji
      refine ⟨t, ht, ?_⟩
      unfold request at hr
      split at hr
      · exact .inr ⟨_, ‹_›⟩
      · exact .inl ‹_›
      · cases hr
    · exact h.awaited j response (hbeside hji ▸ hj)
  · intro j u token response hu hpc hj
    rw [hdevice] at hu
    by_cases hji : j = i
    · subst hji
      cases ht.symm.trans hu
      cases hself.symm.trans hj
      exact haccepted token hpc
    · exact h.accepted j u token response hu hpc (hbeside hji ▸ hj)

theorem Agreed.elsewhere (h : Agreed a) {r : ApiRequest} {env : NodeEnv} {x : ℕ → Tick}
    (hC : undisturbed a (.elsewhere r env x)) (hdevice : a'.device = a.device) (hanswer : a'.answer = a.answer)
    (hserver : a'.server = (Server.serve svc a.server r env x).2) : Agreed a' := by
  have hheld : a'.held = a.held := by
    funext p
    cases p <;> simp only [ClientState.held, hdevice, hanswer]
  refine ⟨hdevice ▸ h.sound, hdevice ▸ h.fallback, hserver ▸ serve_constrained r h.constrained, hheld ▸ h.sole, ?_,
    by rw [hdevice, hanswer]; exact h.awaited, by rw [hdevice, hanswer]; exact h.accepted⟩
  intro p token hp
  rw [hheld] at hp
  obtain ⟨hne, hknown⟩ := h.known p token hp
  exact ⟨hne, hserver ▸ serve_knows r hknown fun hpresents => hC token hpresents p hp⟩

/-! ### Runs -/

/-- **Every step keeps the app and the server agreed.** -/
theorem Agreed.step (h : Agreed a) (hsign : ∀ claims now, svc.sign claims now ≠ "")
    (hother : ∀ id header, (other id header).presents = none) (hC : undisturbed a e)
    (hstep : (client svc other).step a e = some a') : Agreed a' := by
  cases e with
  | start flow =>
    simp only [client, Option.map_eq_some_iff] at hstep
    obtain ⟨d, hd, rfl⟩ := hstep
    exact h.start flow (Option.some.inj hd).symm (h.sound.step hd) rfl rfl
  | keychain i o =>
    obtain rfl : o = .ok := hC
    simp only [client, Option.map_eq_some_iff] at hstep
    obtain ⟨d, hd, rfl⟩ := hstep
    obtain ⟨flow, he, -⟩ | ⟨j, t, m, he, ht, hm, rfl⟩ := Device.step_cases hd
    · cases he
    · obtain rfl := Option.some.inj he
      exact h.keychain ht hm rfl (h.sound.step hd) rfl rfl
  | serve i env x =>
    obtain ⟨r, hr, hserve⟩ := Option.bind_eq_some_iff.mp hstep
    obtain ⟨t, ht, hreq⟩ := Option.bind_eq_some_iff.mp hr
    split_ifs at hserve with hnone
    cases hserve
    exact h.serve hsign hother hC ht hreq (Option.isNone_iff_eq_none.mp hnone) rfl rfl rfl
  | deliver i =>
    obtain ⟨response, hresponse, hrespond⟩ := Option.bind_eq_some_iff.mp hstep
    exact h.respond (.inr ⟨response, hresponse, rfl⟩) hrespond
  | lose i => exact h.respond (.inl rfl) hstep
  | elsewhere r env x =>
    obtain rfl := Option.some.inj hstep
    exact h.elsewhere hC rfl rfl rfl

theorem Agreed.init (h : (client svc other).Init a) (hempty : a.device.keys.item = none) : Agreed a := by
  obtain ⟨hdevice, hserver, hanswer⟩ := h
  have hsound := Device.Sound.init hdevice
  obtain ⟨item, hdevice⟩ := hdevice
  obtain rfl : item = none := by rwa [hdevice] at hempty
  have hheld : ∀ p, a.held p = none := by
    intro p
    cases p <;> simp [ClientState.held, hanswer, hdevice]
  refine ⟨hsound, by rw [hdevice], by rw [hserver]; exact constrained_empty, .empty hheld, fun p token hp => ?_,
    fun i response hi => ?_, fun i t token response ht hpc hi => ?_⟩
  · rw [hheld p] at hp
    cases hp
  · rw [hanswer i] at hi
    cases hi
  · rw [hanswer i] at hi
    cases hi

/-- **The app is never told that its refresh token is invalid**: in every run of the app and its server, from an empty
Keychain, in which the Keychain works, nobody else presents a token of the app, and no refresh meets a failing statement
or an expired token, every `POST /auth/refresh` that is answered is answered with a new pair, and what is stored while
no refresh is on has its row. Answers may be lost, and calls of the store overlap as they like. -/
theorem refresh_accepted {a₀ : ClientState} {tr : List ClientEvent} (hsign : ∀ claims now, svc.sign claims now ≠ "")
    (hother : ∀ id header, (other id header).presents = none) (h₀ : (client svc other).Init a₀)
    (hempty : a₀.device.keys.item = none) (hrun : (client svc other).Run undisturbed a₀ tr a) :
    (∀ i t presented response, a.device.task i = some t → t.pc = .refreshSent presented →
      a.answer i = some response →
        ∃ accessToken refreshToken, response = ⟨200, .tokens accessToken refreshToken⟩ ∧
          a.server.db.Knows refreshToken) ∧
    ∀ q, a.device.keys.item = some q → presenting a.device = false → a.server.db.Knows q.refreshToken := by
  have hagreed := hrun.invariant Agreed (.init h₀ hempty) fun a e a' ha hC hstep => ha.step hsign hother hC hstep
  refine ⟨fun i t presented response ht hpc hi => ?_, fun q hitem hoff => ?_⟩
  · obtain ⟨accessToken, refreshToken, rfl, haccess, hrefresh⟩ := hagreed.accepted i t presented response ht hpc hi
    refine ⟨accessToken, refreshToken, rfl, (hagreed.known (.coming i) refreshToken ?_).2⟩
    simp [ClientState.held, hi, reply, payload, Device.receives, ht, hpc, Tokens.valid, haccess, hrefresh]
  · exact (hagreed.known .stored _ (held_stored hitem hoff)).2

/-! A refresh -/

/-- The services when every access token has expired. -/
def afterExpiry : Services := { plainServices with verify := fun _ _ => none }

/-- Ana registers on the device, and a request of the app is answered 401. -/
def anaExpires : List ClientEvent :=
  [.start (.register "ana@x.org" "password"), .keychain 0 .ok, .serve 0 ⟨0, "r0", 0⟩ fun n => { uuid := n + 1 },
    .deliver 0, .keychain 0 .ok, .keychain 0 .ok, .start (.other 0), .keychain 1 .ok,
    .serve 1 ⟨5, "r1", 0⟩ fun _ => { now := 5 }, .deliver 1, .keychain 1 .ok]

def noRefresh (a : ClientState) : ClientEvent → Bool
  | .keychain _ o => o = .ok
  | .serve i _ _ => (a.held (.presented i)).isNone
  | .elsewhere .. => false
  | _ => true

theorem undisturbed_of_noRefresh (h : noRefresh a e = true) : undisturbed a e := by
  cases e with
  | keychain i o =>
    show o = .ok
    exact of_decide_eq_true h
  | serve i env x =>
    intro token htoken
    rw [noRefresh, htoken] at h
    cases h
  | elsewhere r env x => cases h
  | _ => trivial

theorem afterExpiry_sign (claims : AuthUser) (now : Time) : afterExpiry.sign claims now ≠ "" := by
  intro h
  have hlength := congrArg String.length h
  simp [afterExpiry, plainServices] at hlength

/-- What the refresh meets: Ana's row, and her token. -/
def onlyAna (db : Db) : Bool :=
  db.users.all (·.id = 1) && db.refreshTokens.all fun row => row.id = 2 && row.token = "r0" && 6 < row.expiresAt

/-- The server accepts her refresh. -/
theorem refresh_accepted_ana : ∃ (a : ClientState) (accessToken refreshToken : String),
    a.answer 1 = some ⟨200, .tokens accessToken refreshToken⟩ ∧ a.server.db.Knows refreshToken := by
  have hfacts : ((client afterExpiry me).exec noRefresh freshApp anaExpires).map (fun a => (onlyAna a.server.db,
        ((client afterExpiry me).step a (.serve 1 ⟨6, "r2", 0⟩ fun n => { now := 6, uuid := n + 10 })).map fun a =>
          ((a.device.task 1).map (·.pc), (a.answer 1).isSome))) =
      some (true, some (some (.refreshSent "r0"), true)) := by
    decide +kernel
  obtain ⟨a, hexec, hfacts⟩ := Option.map_eq_some_iff.mp hfacts
  obtain ⟨hana, hstep⟩ := Prod.mk.inj hfacts
  obtain ⟨a', hstep, hend⟩ := Option.map_eq_some_iff.mp hstep
  obtain ⟨hpc, hsome⟩ := Prod.mk.inj hend
  have hquiet : undisturbed a (.serve 1 ⟨6, "r2", 0⟩ fun n => { now := 6, uuid := n + 10 }) := by
    simp only [onlyAna, Bool.and_eq_true, List.all_eq_true, decide_eq_true_eq] at hana
    obtain ⟨huser, htoken⟩ := hana
    refine fun token _ => ⟨⟨fun _ => rfl, fun n row hrow => ?_, fun n row hrow => ?_, fun row hrow => ?_⟩, by decide,
      fun row hrow _ => (htoken row hrow).2⟩
    · rw [huser row hrow]
      show (1 : ℕ) ≠ n + 10
      omega
    · rw [(htoken row hrow).1.1]
      show (2 : ℕ) ≠ n + 10
      omega
    · rw [(htoken row hrow).1.2]
      decide
  obtain ⟨t, ht, hpc⟩ := Option.map_eq_some_iff.mp hpc
  obtain ⟨response, hresponse⟩ := Option.isSome_iff_exists.mp hsome
  have hrun := (System.Run.of_exec hexec).mono fun _ _ h => undisturbed_of_noRefresh h
  obtain ⟨accessToken, refreshToken, rfl, hknows⟩ := (refresh_accepted afterExpiry_sign (fun _ _ => rfl)
    ⟨⟨none, rfl⟩, rfl, fun _ => rfl⟩ rfl (hrun.snoc hquiet hstep)).1 1 t "r0" response ht hpc hresponse
  exact ⟨a', accessToken, refreshToken, hresponse, hknows⟩

end Locus.App
