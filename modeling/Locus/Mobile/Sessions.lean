import Locus.Mobile.Queue
import Mathlib.Data.List.Nodup

/-!
# Whose session the device holds

A device together with the token pairs that the server has issued to it (`world`). The server answers as
`server.js` does as far as the identities go: a `login` or `register` that succeeds carries a new pair for
the user that it names, `POST /auth/refresh` a new pair for the owner of the refresh token that it is
given, and `GET /auth/me` the owner of the access token that it is given. Everything else, the order of the
answers included, is arbitrary.

The session is coherent when the Keychain and the store say the same (`Coherent`). `login`, `register`,
`logout` and `loadUser` write both, but the refresh of `client.ts` writes the Keychain alone, `loadUser`
writes the store from an answer that may be old, and `register` clears a Keychain that may be another
user's by now. `keepsSession` is what makes these three harmless, and then a state in which nothing is in
flight is coherent (`session_coherent`).
-/

namespace Locus.Mobile

open Lib

/-! ### The pairs that the server has issued -/

/-- A pair that the app can store and use. -/
def Tokens.usable (p : Tokens) : Bool := p.valid && Server.jsTrim p.accessToken ≠ ""

/-- No pair is in memory alone, and the one in the Keychain can be used. -/
structure KeyStore.Plain (keys : KeyStore) : Prop where
  fallback : keys.fallbackTokens = none
  usable : ∀ p, keys.item = some p → p.usable

theorem get_ok {keys : KeyStore} (h : keys.Plain) :
    KeyCall.answer keys .get .ok = (keys, .returns keys.item) := by
  cases hitem : keys.item with
  | none => simp [KeyCall.answer, hitem, h.fallback]
  | some p =>
    have husable := h.usable p hitem
    rw [Tokens.usable, Bool.and_eq_true] at husable
    simp [KeyCall.answer, hitem, husable.1]

theorem readBack_ok {s : Device} (h : s.keys.Plain) (wait : KeyCall → Task)
    (k : Device → Option Tokens → Move) : s.readBack .get .ok wait k = k s s.keys.item := by
  rw [Device.readBack, get_ok h]

theorem KeyStore.Plain.beginClear {keys : KeyStore} (h : keys.Plain) : keys.beginClear = keys := by
  rw [KeyStore.beginClear, ← h.fallback]

/-- The pairs issued so far, with the user of each. Refresh tokens are random and do not repeat. -/
structure Issued where
  pairs : List (Tokens × UserId)
  distinct : pairs.Pairwise fun a b => a.1.refreshToken ≠ b.1.refreshToken
  usable : ∀ a ∈ pairs, a.1.usable

namespace Issued

/-- The server can issue the pair now. -/
def Admits (r : Issued) (p : Tokens) : Prop :=
  p.usable ∧ ∀ a ∈ r.pairs, p.refreshToken ≠ a.1.refreshToken

instance (r : Issued) (p : Tokens) : Decidable (r.Admits p) :=
  inferInstanceAs (Decidable (_ ∧ _))

def issue (r : Issued) (p : Tokens) (u : UserId) (h : r.Admits p) : Issued where
  pairs := (p, u) :: r.pairs
  distinct := List.pairwise_cons.mpr ⟨h.2, r.distinct⟩
  usable := List.forall_mem_cons.mpr ⟨h.1, r.usable⟩

/-- The pair is issued, if the server can issue it. -/
def issue? (r : Issued) (p : Tokens) (u : UserId) : Option Issued :=
  if h : r.Admits p then some (r.issue p u h) else none

def owner (r : Issued) (refreshToken : String) : Option UserId :=
  (r.pairs.find? fun a => a.1.refreshToken = refreshToken).map (·.2)

/-- The token is the access token of a pair issued to the user. -/
def authenticates (r : Issued) (accessToken : Option String) (u : UserId) : Bool :=
  r.pairs.any fun a => accessToken = some a.1.accessToken && a.2 = u

/-- The pairs issued behind an answer to the task, if the server can give it. -/
def answered (r : Issued) (t : Task) : Reply → Option Issued
  | .lost => some r
  | .answer status data =>
    if 200 ≤ status ∧ status < 300 then
      match t.pc, t.flow with
      | .sent, .login .. | .sent, .register .. =>
        match data with
        | some ⟨some user, some tokens⟩ => r.issue? tokens user
        | _ => none
      | .sent, .loadUser =>
        match data with
        | some ⟨some user, _⟩ => if r.authenticates t.header user then some r else none
        | _ => none
      | .refreshSent presented, _ =>
        match data, r.owner presented with
        | some ⟨_, some tokens⟩, some user => r.issue? tokens user
        | _, _ => none
      | _, _ => some r
    else some r

theorem mem_issue? {r r' : Issued} {p : Tokens} {u : UserId} (h : r.issue? p u = some r') :
    r.Admits p ∧ r'.pairs = (p, u) :: r.pairs := by
  unfold issue? at h
  split at h
  · rename_i hadmits
    cases h
    exact ⟨hadmits, rfl⟩
  · cases h

theorem pair_unique {r : Issued} {p q : Tokens} {u v : UserId} (hp : (p, u) ∈ r.pairs)
    (hq : (q, v) ∈ r.pairs) (h : p.refreshToken = q.refreshToken) : p = q ∧ u = v := by
  have hinj := (List.pairwise_map.mpr r.distinct : (r.pairs.map (·.1.refreshToken)).Nodup)
  have heq : (p, u) = (q, v) := List.inj_on_of_nodup_map hinj hp hq h
  exact Prod.mk.inj heq

theorem mem_of_owner {r : Issued} {refreshToken : String} {u : UserId} (h : r.owner refreshToken = some u) :
    ∃ p, p.refreshToken = refreshToken ∧ (p, u) ∈ r.pairs := by
  obtain ⟨⟨p, v⟩, hfind, rfl⟩ := Option.map_eq_some_iff.mp h
  exact ⟨p, by simpa using List.find?_some hfind, List.mem_of_find?_eq_some hfind⟩

theorem owner_of_mem {r : Issued} {p : Tokens} {u : UserId} (h : (p, u) ∈ r.pairs) :
    r.owner p.refreshToken = some u := by
  cases howner : r.owner p.refreshToken with
  | none =>
    have hnone := List.find?_eq_none.mp (Option.map_eq_none_iff.mp howner) _ h
    simp at hnone
  | some v =>
    obtain ⟨q, hq, hqv⟩ := mem_of_owner howner
    obtain ⟨-, rfl⟩ := pair_unique hqv h hq
    rfl

theorem answered_pairs {r r' : Issued} {t : Task} {reply : Reply} (h : r.answered t reply = some r') :
    ∀ a ∈ r.pairs, a ∈ r'.pairs := by
  have hissue : ∀ {p u}, r.issue? p u = some r' → ∀ a ∈ r.pairs, a ∈ r'.pairs := by
    intro p u hissue a ha
    rw [(mem_issue? hissue).2]
    exact List.mem_cons_of_mem _ ha
  unfold answered at h
  repeat' split at h
  all_goals first
    | cases h; done
    | exact hissue h
    | cases h; exact fun a ha => ha

/-- A refresh that the server answers gets a new pair, for the user of the token that it presents. -/
theorem answered_refresh {r r' : Issued} {t : Task} {presented : String} {status : ℕ} {data : Option Payload}
    (hpc : t.pc = .refreshSent presented) (h2xx : 200 ≤ status ∧ status < 300)
    (h : r.answered t (.answer status data) = some r') : ∃ payload tokens user, data = some payload ∧
      payload.tokens = some tokens ∧ tokens.valid = true ∧ r.owner presented = some user ∧
      r.issue? tokens user = some r' := by
  simp only [answered, if_pos h2xx, hpc] at h
  split at h
  · rename_i named tokens user howner
    have husable := (mem_issue? h).1.1
    rw [Tokens.usable, Bool.and_eq_true] at husable
    exact ⟨⟨named, some tokens⟩, tokens, user, rfl, rfl, husable.1, howner, h⟩
  · cases h

end Issued

/-! ### A device and the issued pairs -/

structure World where
  device : Device
  issued : Issued

namespace World

def step (w : World) (e : DeviceEvent) : Option World :=
  (w.device.step e).bind fun d =>
    match e with
    | .respond i reply =>
      (w.device.task i).bind fun t => (w.issued.answered t reply).map fun r => ⟨d, r⟩
    | _ => some ⟨d, w.issued⟩

end World

/-- The app is started with an issued pair or none in the Keychain, and calls `loadUser`. -/
def world : System World DeviceEvent where
  Init w := ∃ item, w.device = Device.start { keys := { item } } .loadUser ∧
    ∀ p, item = some p → ∃ u, (p, u) ∈ w.issued.pairs
  step := World.step

/-- The Keychain call of the event succeeds. -/
def DeviceEvent.keychainWorks : DeviceEvent → Bool
  | .keychain _ o => o = .ok
  | _ => true

/-- The task is in a call of the store or in a refresh, and not just in another request. -/
def Task.operates (t : Task) : Bool :=
  match t.flow, t.pc with
  | _, .done | .other _, .attach _ | .other _, .sent | .other _, .queued => false
  | _, _ => true

/-- No operation is in flight. -/
def Device.idle (s : Device) : Bool := (List.range s.next).all fun i => !(s.task i).any (·.operates)

/-- `logout` and `loadUser` write the Keychain and the store. -/
def Flow.mends : Flow → Bool
  | .logout | .loadUser => true
  | _ => false

/-- However the task goes on, it leaves the session coherent: `logout` and `loadUser`, and `register` when
it has saved its pair. -/
def Task.mends (t : Task) : Bool :=
  match t.pc with
  | .done => false
  | .verifying .. | .verifyClear => true
  | _ => t.flow.mends

namespace World

/-- Some task but `i` mends the session. -/
def mendedBeside (w : World) (i : ℕ) : Bool :=
  (List.range w.device.next).any fun j => j ≠ i && (w.device.task j).any (·.mends)

/-- What makes the three steps harmless that can part the Keychain from the store, unless another task
mends it: a refreshed pair is saved while a pair of the same user is stored; `GET /auth/me`
answers a user to whom the stored pair is issued; `register` has cleared the Keychain while nobody is
signed in. -/
def keepsSession (w : World) : DeviceEvent → Bool
  | .keychain i _ => (w.device.task i).all fun t =>
    match t.pc with
    | .refreshSave presented _ => t.mends || w.mendedBeside i ||
      w.device.keys.item.any fun q => w.issued.owner q.refreshToken = w.issued.owner presented
    | .verifyClear => !w.device.auth.isAuthenticated || w.mendedBeside i
    | _ => true
  | .respond i (.answer status data) => (w.device.task i).all fun t =>
    match t.pc, t.flow with
    | .sent, .loadUser => ¬ (200 ≤ status ∧ status < 300) || w.mendedBeside i ||
      w.device.keys.item.any fun q => (data.bind (·.user)).any fun u => (q, u) ∈ w.issued.pairs
    | _, _ => true
  | _ => true

/-- A step of the world: a flow starts, or a task moves with the pairs that its answer leaves issued. -/
theorem step_cases {w w' : World} {e : DeviceEvent} (h : world.step w e = some w') :
    (∃ flow, e = .start flow ∧ w' = ⟨w.device.start flow, w.issued⟩) ∨
      ∃ i t m r, w.device.task i = some t ∧ w' = ⟨w.device.apply i m, r⟩ ∧
        ((∃ o, e = .keychain i o ∧ w.device.keychain t o = some m ∧ r = w.issued) ∨
          ∃ reply, e = .respond i reply ∧ w.device.respond t reply = some m ∧
            w.issued.answered t reply = some r) := by
  obtain ⟨d, hd, hw⟩ := Option.bind_eq_some_iff.mp h
  obtain ⟨flow, rfl, rfl⟩ | ⟨i, t, m, he, ht, hm, rfl⟩ := Device.step_cases hd
  · exact .inl ⟨flow, rfl, (Option.some.inj hw).symm⟩
  · cases e with
    | start flow => cases he
    | keychain j o =>
      obtain rfl := Option.some.inj he
      exact .inr ⟨j, t, m, _, ht, (Option.some.inj hw).symm, .inl ⟨o, rfl, hm, rfl⟩⟩
    | respond j reply =>
      obtain rfl := Option.some.inj he
      simp only [ht, Option.bind_some] at hw
      obtain ⟨r, hr, hw⟩ := Option.map_eq_some_iff.mp hw
      exact .inr ⟨j, t, m, r, ht, hw.symm, .inr ⟨reply, rfl, hm, hr⟩⟩

theorem step_device {w w' : World} {e : DeviceEvent} (h : world.step w e = some w') :
    w.device.step e = some w'.device := by
  obtain ⟨d, hd, hw⟩ := Option.bind_eq_some_iff.mp h
  cases e with
  | start flow | keychain i o =>
    obtain rfl := Option.some.inj hw
    exact hd
  | respond i reply =>
    obtain ⟨t, -, hw⟩ := Option.bind_eq_some_iff.mp hw
    obtain ⟨r, -, rfl⟩ := Option.map_eq_some_iff.mp hw
    exact hd

end World

/-! ### Coherence -/

/-- The Keychain and the store say the same: nobody is signed in and no pair is stored, or the stored pair
is issued to the user of the store. -/
def Coherent (r : Issued) (keys : KeyStore) (auth : AuthState) : Prop :=
  (auth.isAuthenticated = false → keys.item = none) ∧
    (auth.isAuthenticated = true → ∃ p u, keys.item = some p ∧ auth.user = some u ∧ (p, u) ∈ r.pairs)

/-- What a task carries: pairs issued to the user that it names, and no other reads than `getTokens`. -/
def Task.Carries (r : Issued) (t : Task) : Prop :=
  match t.pc with
  | .boot c | .attach c | .refreshRead c => c = .get
  | .saving p user => ∃ u, user = some u ∧ (p, u) ∈ r.pairs
  | .verifying c expected user => c = .get ∧ ∃ p u, expected = some p ∧ user = some u ∧ (p, u) ∈ r.pairs
  | .refreshSave presented p => ∃ q u, q.refreshToken = presented ∧ (q, u) ∈ r.pairs ∧ (p, u) ∈ r.pairs
  | .clearing _ => t.flow.mends
  | _ => True

/-- The pair in the Keychain is issued, and no pair is in memory alone. -/
structure Stored (r : Issued) (keys : KeyStore) : Prop where
  fallback : keys.fallbackTokens = none
  item : ∀ p, keys.item = some p → ∃ u, (p, u) ∈ r.pairs

/-- A move leaves the session as coherent as it is, or right, or for a task to mend: itself, the `logout`
that it starts, or one beside it. -/
structure Mends (w : World) (r : Issued) (i : ℕ) (t : Task) (m : Move) : Prop where
  carries : m.task.Carries r
  stored : Stored r m.keys
  session : ((Coherent w.issued w.device.keys w.device.auth → Coherent r m.keys m.auth) ∧
      (t.mends → m.task.mends)) ∨ Coherent r m.keys m.auth ∨ m.task.mends ∨ m.signout ∨ w.mendedBeside i

section
variable {w : World} {r : Issued} {i : ℕ} {t : Task} {m : Move}

theorem Coherent.mono {r' : Issued} (hr : ∀ a ∈ r.pairs, a ∈ r'.pairs) {keys : KeyStore} {auth : AuthState}
    (h : Coherent r keys auth) : Coherent r' keys auth := by
  refine ⟨h.1, fun hauth => ?_⟩
  obtain ⟨p, u, hp, hu, hpu⟩ := h.2 hauth
  exact ⟨p, u, hp, hu, hr _ hpu⟩

theorem Task.Carries.mono {r' : Issued} (hr : ∀ a ∈ r.pairs, a ∈ r'.pairs) (h : t.Carries r) :
    t.Carries r' := by
  unfold Task.Carries at h ⊢
  split <;> rename_i hpc <;> simp only [hpc] at h <;> grind

theorem Stored.plain {keys : KeyStore} (h : Stored r keys) : keys.Plain := by
  refine ⟨h.fallback, fun p hp => ?_⟩
  obtain ⟨u, hu⟩ := h.item p hp
  exact r.usable _ hu

theorem Mends.quiet (hr : ∀ a ∈ w.issued.pairs, a ∈ r.pairs) (hstored : Stored w.issued w.device.keys)
    (hcarries : m.task.Carries r) (hmends : t.mends → m.task.mends)
    (hkeys : m.keys = w.device.keys ∨ m.keys = w.device.keys.beginClear)
    (huser : m.auth.user = w.device.auth.user)
    (hauth : m.auth.isAuthenticated = w.device.auth.isAuthenticated) : Mends w r i t m := by
  have hkeys' : m.keys = w.device.keys := by
    rcases hkeys with hkeys | hkeys
    · exact hkeys
    · exact hkeys.trans hstored.plain.beginClear
  refine ⟨hcarries, ?_, .inl ⟨fun hcoherent => ?_, hmends⟩⟩
  · rw [hkeys']
    refine ⟨hstored.fallback, fun p hp => ?_⟩
    obtain ⟨u, hu⟩ := hstored.item p hp
    exact ⟨u, hr _ hu⟩
  · have hcoherent' := hcoherent.mono hr
    rw [Coherent, hkeys', huser, hauth]
    exact hcoherent'

theorem reject_carries (s : Device) (error : ApiError) : (s.reject t error).task.Carries r := by
  cases hflow : t.flow <;>
    simp [Device.reject, Device.caught, Device.move, Task.Carries, Flow.mends, hflow]

theorem reject_keys (s : Device) (t : Task) (error : ApiError) :
    (s.reject t error).keys = s.keys ∨ (s.reject t error).keys = s.keys.beginClear := by
  cases hflow : t.flow <;> simp [Device.reject, Device.move, hflow]

/-- The request of a task that saves nothing is rejected. -/
theorem mends_reject (hr : ∀ a ∈ w.issued.pairs, a ∈ r.pairs) (hstored : Stored w.issued w.device.keys)
    (hpc : t.pc = .sent) (error : ApiError) : Mends w r i t (w.device.reject t error) := by
  refine .quiet hr hstored (reject_carries ..) ?_ (reject_keys ..) rfl rfl
  cases hflow : t.flow <;>
    simp [Device.reject, Device.caught, Device.move, Task.mends, Flow.mends, hflow, hpc]

theorem mends_of_role (hpc : t.pc.role ≠ .free) :
    t.mends = t.flow.mends := by
  cases h : t.pc <;> simp_all [Pc.role, Task.mends]

theorem mends_refreshFail (hr : ∀ a ∈ w.issued.pairs, a ∈ r.pairs) (hstored : Stored w.issued w.device.keys)
    (hpc : t.pc.role = .leading) (error : ApiError) : Mends w r i t (w.device.refreshFail t error) := by
  refine .quiet hr hstored trivial (fun hmends => ?_) (.inr rfl) rfl rfl
  rw [mends_of_role (by simp [hpc])] at hmends
  rw [mends_of_role (by simp [Device.refreshFail, Device.move, Pc.role])]
  exact hmends

theorem Mends.signedOut (hcarries : m.task.Carries r) (hitem : m.keys.item = none)
    (hfallback : m.keys.fallbackTokens = none) (hauth : m.auth.isAuthenticated = false) :
    Mends w r i t m := by
  refine ⟨hcarries, ⟨hfallback, fun p hp => ?_⟩, .inr (.inl ⟨fun _ => hitem, fun htrue => ?_⟩)⟩
  · rw [hitem] at hp
    cases hp
  · exact absurd (hauth.symm.trans htrue) (by decide)

/-- The user is signed in with a stored pair of his. -/
theorem Mends.signedIn {p : Tokens} {u : UserId} (hcarries : m.task.Carries r)
    (hkeys : m.keys = { item := some p }) (huser : m.auth.user = some u)
    (hauth : m.auth.isAuthenticated = true) (hpu : (p, u) ∈ r.pairs) : Mends w r i t m := by
  have hitem : m.keys.item = some p := by rw [hkeys]
  refine ⟨hcarries, ⟨by rw [hkeys], fun q hq => ?_⟩, .inr (.inl ⟨fun hfalse => ?_, fun _ => ?_⟩)⟩
  · obtain rfl := Option.some.inj (hitem.symm.trans hq)
    exact ⟨u, hpu⟩
  · exact absurd (hauth.symm.trans hfalse) (by decide)
  · exact ⟨p, u, hitem, huser, hpu⟩

theorem mends_bootRead (hstored : Stored w.issued w.device.keys) (hpc : t.pc = .boot .get) :
    Mends w w.issued i t (w.device.bootRead t w.device.keys.item) := by
  unfold Device.bootRead
  split
  · refine .quiet (fun _ ha => ha) hstored rfl ?_ (.inl rfl) rfl rfl
    simp [Device.move, Task.mends, hpc]
  · -- the pair in the Keychain is not blank, so there is none
    rename_i hblank
    refine .signedOut trivial ?_ hstored.fallback rfl
    cases hitem : w.device.keys.item with
    | none => exact hitem
    | some p =>
      have husable := hstored.plain.usable p hitem
      rw [Tokens.usable, Bool.and_eq_true] at husable
      simp only [hitem, Option.any_some] at hblank
      exact absurd husable.2 hblank

theorem mends_attachRead (hstored : Stored w.issued w.device.keys) (hpc : t.pc = .attach .get)
    (tokens : Option Tokens) : Mends w w.issued i t (w.device.attachRead t tokens) := by
  have hsent : ∀ header, Mends w w.issued i t (w.device.move { t with header, pc := .sent }) := by
    intro header
    refine .quiet (fun _ ha => ha) hstored trivial ?_ (.inl rfl) rfl rfl
    simp [Device.move, Task.mends, hpc]
  unfold Device.attachRead
  split
  · split
    · exact hsent _
    · exact hsent _
  · exact hsent _

theorem mends_refreshReadDone (hstored : Stored w.issued w.device.keys) (hpc : t.pc = .refreshRead .get)
    (tokens : Option Tokens) : Mends w w.issued i t (w.device.refreshReadDone t tokens) := by
  have hrole : t.pc.role = .leading := by rw [hpc]; rfl
  unfold Device.refreshReadDone
  split
  · split
    · refine .quiet (fun _ ha => ha) hstored trivial ?_ (.inl rfl) rfl rfl
      simp [Device.move, Task.mends, hpc]
    · exact mends_refreshFail (fun _ ha => ha) hstored hrole _
  · exact mends_refreshFail (fun _ ha => ha) hstored hrole _

theorem mends_verified (hstored : Stored w.issued w.device.keys) {p : Tokens} {u : UserId}
    (hpu : (p, u) ∈ w.issued.pairs) :
    Mends w w.issued i t (w.device.verified t w.device.keys.item (some p) (some u)) := by
  unfold Device.verified
  split
  · rename_i hitem
    refine .signedIn (p := p) (u := u) trivial ?_ rfl rfl hpu
    show w.device.keys = { item := some p }
    rw [← hitem, ← hstored.fallback]
  · exact .quiet (fun _ ha => ha) hstored trivial (fun _ => rfl) (.inr rfl) rfl rfl

theorem mends_saved {s : Device} {p : Tokens} {u : UserId} (hkeys : s.keys = { item := some p })
    (hpu : (p, u) ∈ r.pairs) : Mends w r i t (s.saved t (some p) (some u)) := by
  unfold Device.saved
  split
  · refine ⟨⟨rfl, p, u, rfl, rfl, hpu⟩, ?_, .inr (.inr (.inl rfl))⟩
    show Stored r s.keys
    rw [hkeys]
    refine ⟨rfl, fun q hq => ?_⟩
    obtain rfl := Option.some.inj hq
    exact ⟨u, hpu⟩
  · exact .signedIn trivial hkeys rfl rfl hpu

/-- A refreshed pair goes to the user of the pair that it replaces. -/
theorem mends_refreshSave {presented : String} {p : Tokens} (hpc : t.pc = .refreshSave presented p)
    (hcarries : t.Carries w.issued)
    (hC : t.mends ∨ w.mendedBeside i ∨ ∃ q, w.device.keys.item = some q ∧
      w.issued.owner q.refreshToken = w.issued.owner presented) :
    Mends w w.issued i t
      (Device.refreshDone { w.device with keys := { item := some p } } t p.accessToken) := by
  obtain ⟨q, u, rfl, hqu, hpu⟩ : ∃ q u, q.refreshToken = presented ∧ (q, u) ∈ w.issued.pairs ∧
    (p, u) ∈ w.issued.pairs := by simpa [Task.Carries, hpc] using hcarries
  refine ⟨rfl, ⟨rfl, fun q' hq' => ?_⟩, ?_⟩
  · obtain rfl := Option.some.inj hq'
    exact ⟨u, hpu⟩
  have hmends : t.mends → (Device.refreshDone { w.device with keys := { item := some p } } t
      p.accessToken).task.mends := by simp [Device.refreshDone, Device.move, Task.mends, hpc]
  rcases hC with ht | hbeside | ⟨q', hitem, howner⟩
  · exact .inr (.inr (.inl (hmends ht)))
  · exact .inr (.inr (.inr (.inr hbeside)))
  · refine .inl ⟨fun hcoherent => ⟨fun hfalse => ?_, fun htrue => ?_⟩, hmends⟩
    · have hnone := hcoherent.1 hfalse
      simp [hnone] at hitem
    · obtain ⟨q'', v, hitem', hv, hqv⟩ := hcoherent.2 htrue
      obtain rfl := Option.some.inj (hitem.symm.trans hitem')
      rw [Issued.owner_of_mem hqv, Issued.owner_of_mem hqu] at howner
      obtain rfl := Option.some.inj howner
      exact ⟨p, v, rfl, hv, hpu⟩

theorem mends_keychain (hstored : Stored w.issued w.device.keys) (hcarries : t.Carries w.issued)
    (ht : w.device.task i = some t) (hC : w.keepsSession (.keychain i .ok))
    (hm : w.device.keychain t .ok = some m) : Mends w w.issued i t m := by
  simp only [World.keepsSession, ht, Option.all_some] at hC
  have hget : ∀ c, t.Carries w.issued → t.pc = .boot c ∨ t.pc = .attach c ∨ t.pc = .refreshRead c →
      c = .get := by
    rintro c hcarries (hpc | hpc | hpc)
    all_goals simpa [Task.Carries, hpc] using hcarries
  cases Device.keychain_cases hm with
  | boot c hpc =>
    obtain rfl := hget c hcarries (.inl hpc)
    rw [readBack_ok hstored.plain]
    exact mends_bootRead hstored hpc
  | attach c hpc =>
    obtain rfl := hget c hcarries (.inr (.inl hpc))
    rw [readBack_ok hstored.plain]
    exact mends_attachRead hstored hpc _
  | refreshRead c hpc =>
    obtain rfl := hget c hcarries (.inr (.inr hpc))
    rw [readBack_ok hstored.plain]
    exact mends_refreshReadDone hstored hpc _
  | verifying c expected user hpc =>
    obtain ⟨rfl, p, u, rfl, rfl, hpu⟩ : c = .get ∧ ∃ p u, expected = some p ∧ user = some u ∧
      (p, u) ∈ w.issued.pairs := by simpa [Task.Carries, hpc] using hcarries
    rw [readBack_ok hstored.plain]
    exact mends_verified hstored hpu
  | refreshSave presented tokens hpc =>
    simp only [hpc, Bool.or_eq_true, Option.any_eq_true, decide_eq_true_eq] at hC
    exact mends_refreshSave hpc hcarries (or_assoc.mp hC)
  | saving tokens user hpc =>
    obtain ⟨u, rfl, hpu⟩ : ∃ u, user = some u ∧ (tokens, u) ∈ w.issued.pairs := by
      simpa [Task.Carries, hpc] using hcarries
    exact mends_saved rfl hpu
  | refreshClear error hpc =>
    -- the `logout` behind `signout` mends
    have hkeys := reject_keys { w.device with keys := w.device.keys.reset .ok } t error
    refine ⟨reject_carries { w.device with keys := w.device.keys.reset .ok } error, ⟨?_, fun p hp => ?_⟩,
      .inr (.inr (.inr (.inl rfl)))⟩
    · rcases hkeys with hkeys | hkeys
      · exact (congrArg _ hkeys).trans hstored.fallback
      · exact congrArg _ hkeys
    · have hitem : (none : Option Tokens) = some p := by
        rcases hkeys with hkeys | hkeys
        · exact (congrArg _ hkeys).symm.trans hp
        · exact (congrArg _ hkeys).symm.trans hp
      cases hitem
  | verifyClear hpc =>
    simp only [hpc, Bool.or_eq_true, Bool.not_eq_true'] at hC
    rcases hC with hC | hC
    · exact .signedOut trivial rfl hstored.fallback hC
    · refine ⟨trivial, ⟨hstored.fallback, fun p hp => ?_⟩, .inr (.inr (.inr (.inr hC)))⟩
      cases hp
  | clearing error hpc =>
    refine .signedOut trivial rfl hstored.fallback ?_
    unfold Device.cleared
    dsimp only
    split <;> rfl

/-- The pair of an answer is issued to the user that it names. -/
theorem mends_saving (hstored : Stored w.issued w.device.keys) (hpc : t.pc = .sent) {p : Tokens}
    {u : UserId} (hflow : t.flow.mends = false) (hissue : w.issued.issue? p u = some r) :
    p.valid ∧ Mends w r i t (w.device.move { t with pc := .saving p (some u) }) := by
  obtain ⟨⟨husable, -⟩, hpairs⟩ := Issued.mem_issue? hissue
  rw [Tokens.usable, Bool.and_eq_true] at husable
  have hmono : ∀ a ∈ w.issued.pairs, a ∈ r.pairs := fun a ha => by simp [hpairs, ha]
  refine ⟨husable.1, .quiet hmono hstored ⟨u, rfl, by simp [hpairs]⟩ ?_ (.inl rfl) rfl rfl⟩
  simp [Task.mends, hpc, hflow]

theorem mends_resolve {status : ℕ} {data : Option Payload} (hstored : Stored w.issued w.device.keys)
    (ht : w.device.task i = some t) (hpc : t.pc = .sent) (h2xx : 200 ≤ status ∧ status < 300)
    (hC : w.keepsSession (.respond i (.answer status data)))
    (hr : w.issued.answered t (.answer status data) = some r) :
    Mends w r i t (w.device.resolve t data) := by
  have hpairs := Issued.answered_pairs hr
  simp only [Issued.answered, if_pos h2xx, hpc] at hr
  unfold Device.resolve
  cases hflow : t.flow with
  | login email password | register email password =>
    simp only [hflow] at hr
    split at hr
    · rename_i user tokens
      obtain ⟨hvalid, hsaving⟩ := mends_saving hstored hpc (by rw [hflow]; rfl) hr
      simpa [hvalid, hflow] using hsaving
    · cases hr
  | logout =>
    refine .quiet hpairs hstored ?_ ?_ (.inr rfl) rfl rfl
    · simp [Device.move, Task.Carries, Flow.mends]
    · simp [Device.move, Task.mends, Flow.mends, hpc, hflow]
  | loadUser =>
    simp only [World.keepsSession, ht, Option.all_some, hpc, hflow] at hC
    simp only [hflow] at hr
    split at hr
    swap
    · cases hr
    rename_i user tokens
    obtain rfl : w.issued = r := by
      split at hr <;> cases hr
      rfl
    have hkept : w.mendedBeside i ∨ ∃ q, w.device.keys.item = some q ∧ (q, user) ∈ w.issued.pairs := by
      simpa [h2xx, Option.any_eq_true] using hC
    rcases hkept with hbeside | ⟨q, hitem, hqu⟩
    · exact ⟨trivial, hstored, .inr (.inr (.inr (.inr hbeside)))⟩
    · refine .signedIn (p := q) (u := user) trivial ?_ rfl rfl hqu
      show w.device.keys = { item := some q }
      rw [← hitem, ← hstored.fallback]
  | other id =>
    refine .quiet hpairs hstored trivial ?_ (.inl rfl) rfl rfl
    simp [Task.mends, Flow.mends, hpc, hflow]

theorem mends_respond {reply : Reply} (hstored : Stored w.issued w.device.keys)
    (ht : w.device.task i = some t) (hC : w.keepsSession (.respond i reply))
    (hr : w.issued.answered t reply = some r) (hm : w.device.respond t reply = some m) :
    Mends w r i t m := by
  have hpairs := Issued.answered_pairs hr
  cases Device.respond_cases hm with
  | lost hpc => exact mends_reject hpairs hstored hpc _
  | resolved status data hpc h2xx => exact mends_resolve hstored ht hpc h2xx hC hr
  | rejected status data hpc h2xx hstatus => exact mends_reject hpairs hstored hpc _
  | queued data hpc hretry hflag =>
    refine .quiet hpairs hstored trivial ?_ (.inl rfl) rfl rfl
    simp [Device.move, Task.mends, hpc]
  | leads data hpc hretry hflag =>
    refine .quiet hpairs hstored rfl ?_ (.inl rfl) rfl rfl
    simp [Device.move, Task.mends, hpc]
  | refreshLost presented hpc => exact mends_refreshFail hpairs hstored (by rw [hpc]; rfl) _
  | refreshRejected presented status data hpc h2xx =>
    exact mends_refreshFail hpairs hstored (by rw [hpc]; rfl) _
  | refreshEmpty presented status hpc h2xx =>
    obtain ⟨payload, -, -, hdata, -⟩ := Issued.answered_refresh hpc h2xx hr
    cases hdata
  | refreshed presented status data tokens hpc h2xx htokens hvalid =>
    -- the new pair goes to the owner of the presented token
    obtain ⟨payload, tokens', user, ⟨⟩, htokens', -, howner, hissued⟩ := Issued.answered_refresh hpc h2xx hr
    obtain rfl := Option.some.inj (htokens.symm.trans htokens')
    obtain ⟨q, rfl, hq⟩ := Issued.mem_of_owner howner
    obtain ⟨-, hissue⟩ := Issued.mem_issue? hissued
    refine .quiet hpairs hstored ⟨q, user, rfl, hpairs _ hq, by simp [hissue]⟩ ?_ (.inl rfl) rfl rfl
    simp [Device.move, Task.mends, hpc]
  | unsaved presented status data hpc h2xx hinvalid =>
    obtain ⟨payload, tokens, user, ⟨⟩, htokens, hvalid, -⟩ := Issued.answered_refresh hpc h2xx hr
    simp [htokens, hvalid] at hinvalid

end

/-! ### Every reachable state -/

structure Tracked (w : World) : Prop where
  sound : w.device.Sound
  stored : Stored w.issued w.device.keys
  carries : ∀ i t, w.device.task i = some t → t.Carries w.issued
  session : Coherent w.issued w.device.keys w.device.auth ∨ ∃ i t, w.device.task i = some t ∧ t.mends

theorem Tracked.init {w : World} (h : world.Init w) : Tracked w := by
  obtain ⟨item, hdevice, hitem⟩ := h
  have hsound : w.device.Sound := by
    have hinit : Device.Sound { keys := { item } } := .init ⟨item, rfl⟩
    rw [hdevice]
    exact hinit.step (e := .start .loadUser) rfl
  have htask : ∀ i t, w.device.task i = some t → t = { flow := .loadUser, pc := .boot .get } := by
    intro i t ht
    rw [hdevice] at ht
    rcases Device.start_task_cases ht with ht | ⟨-, rfl⟩
    · cases ht
    · rfl
  refine ⟨hsound, ⟨?_, ?_⟩, fun i t ht => ?_, .inr ⟨0, { flow := .loadUser, pc := .boot .get }, ?_, rfl⟩⟩
  · rw [hdevice]
    rfl
  · rw [hdevice]
    exact hitem
  · rw [htask i t ht]
    rfl
  · rw [hdevice]
    rfl

theorem settle_carries {r : Issued} (op : QueueOp) {t : Task} (hpc : t.pc = .queued) :
    (Device.settle op t).Carries r := by
  cases op with
  | keep | push => simp [Device.settle, Task.Carries, hpc]
  | resolve token => rfl
  | reject error =>
    cases hflow : t.flow <;> simp [Device.settle, Device.caught, Task.Carries, Flow.mends, hflow]

theorem settle_mends (op : QueueOp) {t : Task} (hpc : t.pc = .queued) (h : t.mends) :
    (Device.settle op t).mends := by
  have hflow : t.flow.mends := by simpa [Task.mends, hpc] using h
  cases op with
  | keep | push => exact h
  | resolve token => exact hflow
  | reject error =>
    cases hf : t.flow <;> simp_all [Device.settle, Device.caught, Task.mends, Flow.mends]

theorem Tracked.apply {w : World} (h : Tracked w) {i : ℕ} {t : Task} (ht : w.device.task i = some t)
    {m : Move} {r : Issued} (hr : ∀ a ∈ w.issued.pairs, a ∈ r.pairs) (hm : Mends w r i t m)
    (hsound : (w.device.apply i m).Sound) : Tracked ⟨w.device.apply i m, r⟩ := by
  obtain ⟨hcarries, hstored, hsession⟩ := hm
  have hcoherent : Coherent r m.keys m.auth →
      Coherent r (w.device.apply i m).keys (w.device.apply i m).auth := by
    intro hcoherent
    rw [Coherent, Device.apply_keys, Device.apply_user, Device.apply_isAuthenticated]
    exact hcoherent
  -- a task beside `i` that mends goes on to do so
  have hbeside : ∀ j u, j ≠ i → w.device.task j = some u → u.mends →
      ∃ k v, (w.device.apply i m).task k = some v ∧ v.mends := by
    intro j u hji hu hmends
    refine ⟨j, _, Device.apply_task_of_ne h.sound hu hji m, ?_⟩
    split
    · rename_i hqueued
      exact settle_mends _ (h.sound.pc_of_mem hu hqueued) hmends
    · exact hmends
  have hself : m.task.mends → ∃ k v, (w.device.apply i m).task k = some v ∧ v.mends :=
    fun hmends => ⟨i, _, Device.apply_task_self h.sound ht m, hmends⟩
  refine ⟨hsound, (Device.apply_keys ..) ▸ hstored, fun j u hu => ?_, ?_⟩
  · rcases Device.apply_task_cases h.sound ht hu with ⟨-, rfl⟩ | ⟨v, hv, -, rfl⟩ | ⟨-, -, rfl⟩
    · exact hcarries
    · split
      · rename_i hqueued
        exact settle_carries _ (h.sound.pc_of_mem hv hqueued)
      · exact (h.carries j v hv).mono hr
    · rfl
  · rcases hsession with ⟨hkeeps, hmends⟩ | hright | hmends | hsignout | hother
    · rcases h.session with hold | ⟨j, u, hu, hj⟩
      · exact .inl (hcoherent (hkeeps hold))
      · by_cases hji : j = i
        · subst hji
          obtain rfl := Option.some.inj (hu.symm.trans ht)
          exact .inr (hself (hmends hj))
        · exact .inr (hbeside j u hji hu hj)
    · exact .inl (hcoherent hright)
    · exact .inr (hself hmends)
    · refine .inr ⟨w.device.next, { flow := .logout, pc := .attach .get }, ?_, rfl⟩
      simp [Device.apply, hsignout, Device.start, Device.advance, Device.entry]
    · obtain ⟨j, -, hj⟩ := List.any_eq_true.mp hother
      simp only [ne_eq, Bool.and_eq_true, decide_eq_true_eq, Option.any_eq_true] at hj
      obtain ⟨hji, u, hu, hmends⟩ := hj
      exact .inr (hbeside j u hji hu hmends)

theorem Tracked.step {w w' : World} {e : DeviceEvent} (h : Tracked w) (hworks : e.keychainWorks)
    (hC : w.keepsSession e) (hstep : world.step w e = some w') : Tracked w' := by
  have hsound := h.sound.step (World.step_device hstep)
  obtain ⟨flow, rfl, rfl⟩ | ⟨i, t, m, r, ht, rfl, hmove⟩ := World.step_cases hstep
  · refine ⟨hsound, h.stored, fun j u hu => ?_, ?_⟩
    · rcases Device.start_task_cases hu with hu | ⟨-, rfl⟩
      · exact h.carries j u hu
      · cases flow <;> rfl
    · rcases h.session with hcoherent | ⟨j, u, hu, hmends⟩
      · exact .inl hcoherent
      · refine .inr ⟨j, u, ?_, hmends⟩
        exact (Device.start_task_of_ne w.device (h.sound.lt_next hu).ne flow).trans hu
  · rcases hmove with ⟨o, rfl, hm, rfl⟩ | ⟨reply, rfl, hm, hr⟩
    · obtain rfl : o = .ok := of_decide_eq_true hworks
      exact h.apply ht (fun _ ha => ha) (mends_keychain h.stored (h.carries i t ht) ht hC hm) hsound
    · exact h.apply ht (Issued.answered_pairs hr) (mends_respond h.stored ht hC hr hm) hsound

theorem done_of_idle {s : Device} (hsound : s.Sound) (hidle : s.idle) {i : ℕ} {t : Task}
    (ht : s.task i = some t) : t.operates = false := by
  have hnot := List.all_eq_true.mp hidle i (List.mem_range.mpr (hsound.lt_next ht))
  simpa [ht] using hnot

theorem operates_of_mends {t : Task} (h : t.mends) : t.operates := by
  unfold Task.mends at h
  unfold Task.operates
  split at h
  · cases h
  · rename_i hpc
    cases hflow : t.flow <;> simp [hpc]
  · rename_i hpc
    cases hflow : t.flow <;> simp [hpc]
  · rename_i hdone _ _
    cases hflow : t.flow <;> simp_all [Flow.mends]

/-- **Session coherence**: in a state in which nothing is in flight, `getTokens` returns `null` if nobody is
signed in, and a pair issued to the user of the store otherwise. -/
theorem session_coherent {w : World}
    (h : world.Reachable (fun w e => e.keychainWorks && w.keepsSession e) w) (hidle : w.device.idle) :
    (w.device.auth.isAuthenticated = false →
      KeyCall.answer w.device.keys .get .ok = (w.device.keys, .returns none)) ∧
    (w.device.auth.isAuthenticated = true → ∃ p u,
      KeyCall.answer w.device.keys .get .ok = (w.device.keys, .returns (some p)) ∧
        w.device.auth.user = some u ∧ (p, u) ∈ w.issued.pairs) := by
  have htracked : Tracked w := h.invariant Tracked (fun _ => .init) fun w e w' hw hC hstep => by
    rw [Bool.and_eq_true] at hC
    exact hw.step hC.1 hC.2 hstep
  have hread := get_ok htracked.stored.plain
  have hcoherent : Coherent w.issued w.device.keys w.device.auth := by
    rcases htracked.session with hcoherent | ⟨i, t, ht, hmends⟩
    · exact hcoherent
    · -- a task that mends is in flight
      have hdone := done_of_idle htracked.sound hidle ht
      exact absurd (hdone.symm.trans (operates_of_mends hmends)) (by decide)
  refine ⟨fun hfalse => ?_, fun htrue => ?_⟩
  · rw [hread, hcoherent.1 hfalse]
  · obtain ⟨p, u, hitem, huser, hpu⟩ := hcoherent.2 htrue
    exact ⟨p, u, by rw [hread, hitem], huser, hpu⟩

/-- The app is started with the pair 1 of user 1. -/
def startedWorld : World where
  device := Device.start { keys := { item := some (pair "1") } } .loadUser
  issued := ⟨[(pair "1", 1)], by simp, by decide +kernel⟩

theorem startedWorld_init : world.Init startedWorld :=
  ⟨_, rfl, fun p hp => ⟨1, by simpa [startedWorld] using hp.symm⟩⟩

/-- `loadUser` signs user 1 in. -/
def boots : List DeviceEvent :=
  [.keychain 0 .ok, .keychain 0 .ok, .respond 0 (.answer 200 (some { user := some 1 }))]

theorem session_coherent_boot :
    ∃ w : World, w.device.idle ∧ w.device.auth.isAuthenticated = true ∧ ∃ p u,
      KeyCall.answer w.device.keys .get .ok = (w.device.keys, .returns (some p)) ∧
        w.device.auth.user = some u ∧ (p, u) ∈ w.issued.pairs := by
  obtain ⟨w, h, hw⟩ := System.reachable_of_exec world (fun w e => e.keychainWorks && w.keepsSession e)
    (fun w => (w.device.idle, w.device.auth.isAuthenticated)) boots (a := (true, true))
    startedWorld_init (by decide +kernel)
  obtain ⟨hidle, hauth⟩ : _ ∧ _ := by simpa only [Prod.mk.injEq] using hw
  exact ⟨w, hidle, hauth, (session_coherent h hidle).2 hauth⟩

/-- **A refreshed pair is saved behind a logout**: nobody is signed in, and the pair stays. -/
theorem refresh_outlives_logout :
    ¬ ∀ w : World, world.Reachable (fun _ e => e.keychainWorks) w → w.device.idle →
        (w.device.auth.isAuthenticated = false →
          KeyCall.answer w.device.keys .get .ok = (w.device.keys, .returns none)) ∧
        (w.device.auth.isAuthenticated = true → ∃ p u,
          KeyCall.answer w.device.keys .get .ok = (w.device.keys, .returns (some p)) ∧
            w.device.auth.user = some u ∧ (p, u) ∈ w.issued.pairs) := by
  intro hclaim
  -- a request refreshes, and the answer to its refresh comes behind a `logout`
  obtain ⟨w, h, hw⟩ := System.reachable_of_exec world (fun _ e => e.keychainWorks)
    (fun w => (w.device.idle, w.device.auth.isAuthenticated, w.device.keys)) (boots ++
      [.start (.other 0), .keychain 1 .ok, .respond 1 (.answer 401 none), .keychain 1 .ok,
        .start .logout, .keychain 2 .ok, .respond 2 (.answer 200 none), .keychain 2 .ok,
        .respond 1 (.answer 200 (some { tokens := some (pair "2") })), .keychain 1 .ok, .keychain 1 .ok,
        .respond 1 (.answer 200 none)])
    (a := (true, false, { item := some (pair "2") })) startedWorld_init (by decide +kernel)
  obtain ⟨hidle, hauth, hkeys⟩ : _ ∧ _ ∧ _ := by simpa only [Prod.mk.injEq] using hw
  have hnull := (hclaim w h hidle).1 hauth
  have hread : (KeyCall.answer w.device.keys .get .ok).2 = .returns (some (pair "2")) := by
    rw [hkeys]
    simp [KeyCall.answer, show (pair "2").valid = true by decide +kernel]
  rw [hnull] at hread
  cases hread

end Locus.Mobile
