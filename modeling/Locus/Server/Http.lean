import Locus.Lib.TtlCache
import Locus.Server.Statements

/-!
# Responses, the profile, the list cache

What a handler answers, the profile it shows of a user row, and the memory the handlers of one Node
process share: the cache of `GET /communities`.
-/

namespace Locus.Server

open Lib (Prog)

/-- The user as the API shows it. -/
structure Profile where
  id : Uuid
  email : String
  firstName : String
  lastName : String
  name : Option String
  phone : Option String
  bio : Option String
  avatarUrl : Option String
  role : String := "member"
  housingReason : String := "exploring"
  isActive : Bool := true
  hobbies : List String := []
  kycStatus : String := "pending"
  verificationScore : ℕ := 0
  createdAt : Time
deriving DecidableEq

/-- `text.split(/\s+/)` of a trimmed text. -/
def splitWords (text : String) : List String :=
  match text.toList.splitBy (fun a b => jsSpace a == jsSpace b) with
  | [] => [""]
  | groups => (groups.filter fun g => !g.any jsSpace).map String.ofList

def userRowToProfile (row : UserRow) : Profile :=
  let name := row.name.getD ""
  let words := splitWords (jsTrim name)
  let firstName := words.headD ""
  { id := row.id, email := row.email
    firstName := if firstName = "" then "User" else firstName
    lastName := String.intercalate " " words.tail
    name := row.name, phone := row.phone, bio := row.bio, avatarUrl := row.avatarUrl
    createdAt := row.createdAt }

/-- A marker of `GET /properties/map`; its numbers as JavaScript prints them. -/
structure Pin where
  id : Uuid
  latitude : String
  longitude : String
  rentCentsPerMonth : String
  isAvailable : Bool

/-- `{ success: true, data, total, page, limit }` -/
structure Page (α : Type) where
  data : List α
  total : ℕ
  page : JsInt
  limit : JsInt

inductive Body
  /-- `{ success: false, error }` -/
  | failure (error : String)
  /-- `{ success, message, user }` of the legacy registration. -/
  | legacy (success : Bool) (message : Option String) (user : Option UserRow)
  /-- `{ success: true }` -/
  | success
  /-- `{ success: true, data: { user, access_token, refresh_token } }` -/
  | session (user : Profile) (accessToken refreshToken : String)
  /-- `{ success: true, data: { access_token, refresh_token } }` -/
  | tokens (accessToken refreshToken : String)
  | profile (data : Profile)
  | community (data : CommunityRow)
  | communities (data : List CommunityRow)
  | communityPage (page : Page CommunityRow)
  | property (data : PropertyRow)
  | propertyPage (page : Page PropertyRow)
  | pins (data : List Pin)
  | vote (data : VoteRow)
  | votes (data : List VoteRow)
  | results (data : List ResultRow)
  | members (data : List MemberProfile)
  | userColumns (data : UserColumns)
  | properties (data : List PropertyRow)
  | notification (data : NotificationRow)
  | notificationPage (page : Page NotificationRow)
  /-- `{ success: true, data: { count } }` -/
  | count (count : ℕ)
  /-- `{ project, status, version }` of `GET /` -/
  | project
  /-- `{ status: 'healthy', environment }`, without the readings of clock and uptime. -/
  | healthy
  /-- `{ status: 'connected', time, version }` -/
  | connected (time : Time)
  /-- `{ status: 'error', message }` -/
  | dbError (message : String)

structure Response where
  status : ℕ
  body : Body

/-- `res.status(status).json({ success: false, error })` -/
def failure (status : ℕ) (error : String) : Response := ⟨status, .failure error⟩

/-- `communities:${lat}:${lng}:${radius}:${page}:${limit}`; printing a number is injective but for the
sign of zero, which no key tells apart. -/
structure CacheKey where
  lat : String
  lng : String
  radius : String
  page : JsInt
  limit : JsInt
deriving DecidableEq

structure CacheEntry where
  data : Page CommunityRow
  ts : Time

/-- `const cache = new Map()` -/
abbrev Cache := List (CacheKey × CacheEntry)

/-- A request handler: statements on the pool, the cache between them, and an answer. -/
abbrev Handler := Prog Stmt Answer Thrown Cache Response

/-- Requests in flight on one server process and its database. -/
abbrev RequestPool (ι : Type) := Lib.Pool ι Db Stmt Answer Thrown Cache Response

/-- The statement that the event answers does not fail. -/
def succeeds {ι : Type} (svc : Services) (s : RequestPool ι) : Lib.PoolEvent ι Tick → Bool
  | .start _ => true
  | .answer i x => match (s.thread i).pending with
    | some q => (exec svc x s.db q).1.isOk
    | none => true

/-- The body of a handler's `try`. -/
abbrev HandlerM := ExceptT Thrown (Prog Stmt Answer Thrown Cache)

/-- `catch (err) { res.status(500).json({ success: false, error: err.message }) }` -/
def catch500 (body : HandlerM Response) : Handler :=
  Prog.tryCatch body fun err => .done (failure 500 err.message)

/-- `await pool.query(...)` -/
def query (q : Stmt) : HandlerM (Answer q) := Prog.await q

/-- A conversion to a primitive value, which throws where there is `none`. -/
def coerced {T : Type} : Option T → HandlerM T
  | some v => pure v
  | none => throw (.js "Cannot convert object to primitive value")

/-- Where a handler can be that starts with a statement inside its `try`: at the statement, behind its
answer, or at the 500 of its error. -/
theorem catch500_path {q : Stmt} {f : Answer q → HandlerM Response}
    {log : List (Prog.Call Stmt Answer Thrown)} {p : Handler}
    (h : (catch500 (query q >>= f)).Path log p) :
    (log = [] ∧ p.Awaits q) ∨
    (∃ a log', log = ⟨q, .ok a⟩ :: log' ∧ (catch500 (f a)).Path log' p) ∨
    (∃ err, log = [⟨q, .error err⟩] ∧ p = .done (failure 500 err.message)) := by
  obtain h | h | ⟨err, log', rfl, h'⟩ := Prog.tryCatch_path h
  · exact .inl h
  · exact .inr (.inl h)
  · obtain ⟨rfl, rfl⟩ := Prog.path_done.mp h'
    exact .inr (.inr ⟨err, rfl, rfl⟩)

theorem catch500_pure_path {r : Response} {log : List (Prog.Call Stmt Answer Thrown)} {p : Handler}
    (h : (catch500 (pure r)).Path log p) : log = [] ∧ p = .done r := Prog.path_done.mp h

theorem catch500_pure_run {svc : Services} (r : Response) (x : ℕ → Tick) (db : Db) (cache : Cache) :
    (catch500 (pure r)).run (exec svc) x db cache = (r, db, cache) := rfl

/-- A conversion inside the `try` throws, and the answer is 500, or the rest goes on with its value. -/
theorem catch500_coerced {T : Type} {P : Handler → Prop} {v : Option T} {f : T → HandlerM Response}
    (hthrows : P (.done (failure 500 "Cannot convert object to primitive value")))
    (hok : ∀ a, v = some a → P (catch500 (f a))) : P (catch500 (coerced v >>= f)) := by
  cases v with
  | none => exact hthrows
  | some a => exact hok a rfl

theorem coerced_some {T : Type} (a : T) (f : T → HandlerM Response) : coerced (some a) >>= f = f a := rfl

theorem catch500_coerced_path {T : Type} {v : Option T} {f : T → HandlerM Response}
    {log : List (Prog.Call Stmt Answer Thrown)} {p : Handler} (h : (catch500 (coerced v >>= f)).Path log p) :
    (log = [] ∧ p = .done (failure 500 "Cannot convert object to primitive value")) ∨
      ∃ a, v = some a ∧ (catch500 (f a)).Path log p := by
  cases v with
  | none => exact .inl (Prog.path_done.mp h)
  | some a => exact .inr ⟨a, rfl, h⟩

theorem query_bind_assoc {q : Stmt} {S T : Type} (f : Answer q → HandlerM S) (g : S → HandlerM T) :
    (query q >>= f) >>= g = query q >>= fun a => f a >>= g := Prog.await_bind_assoc q f g

/-- A handler that starts with a statement inside its `try`, run alone: the statement succeeds and the
rest runs on the database it leaves, or it fails, and the answer is 500 and the database as it was. -/
theorem catch500_run {svc : Services} {q : Stmt} {f : Answer q → HandlerM Response} {x : ℕ → Tick}
    {db : Db} {cache : Cache} {P : Response × Db × Cache → List (Prog.Call Stmt Answer Thrown) → Prop}
    (hok : ∀ a db', execOk svc (x 0) db q = .ok (a, db') →
      P ((catch500 (f a)).run (exec svc) (fun n => x (n + 1)) db' cache)
        (⟨q, .ok a⟩ :: (catch500 (f a)).trace (exec svc) (fun n => x (n + 1)) db' cache))
    (herr : ∀ e : PgError, execOk svc (x 0) db q = .error e ∨ (x 0).fault ≠ none →
      P (failure 500 e.message, db, cache) [⟨q, .error (.pg e)⟩]) :
    P ((catch500 (query q >>= f)).run (exec svc) x db cache)
      ((catch500 (query q >>= f)).trace (exec svc) x db cache) := by
  obtain ⟨a, db', ha, hexec⟩ | ⟨e, hexec, hwhy⟩ := exec_cases svc (x 0) db q
  · obtain ⟨hrun, htrace⟩ := (Prog.tryCatch_run f
      (fun err : Thrown => Prog.done (failure 500 err.message)) cache).1 a hexec
    unfold catch500 query
    rw [hrun, htrace]
    exact hok a db' ha
  · obtain ⟨hrun, htrace⟩ := (Prog.tryCatch_run f
      (fun err : Thrown => Prog.done (failure 500 err.message)) cache).2 _ hexec
    unfold catch500 query
    rw [hrun, htrace]
    refine herr e (hwhy.imp id ?_)
    rintro ⟨message, hfault, -⟩
    simp [hfault]

theorem catch500_run_ok {svc : Services} {q : Stmt} (f : Answer q → HandlerM Response) {x : ℕ → Tick}
    {db db' : Db} (cache : Cache) {a : Answer q} (hfault : (x 0).fault = none)
    (ha : execOk svc (x 0) db q = .ok (a, db')) :
    (catch500 (query q >>= f)).run (exec svc) x db cache =
      (catch500 (f a)).run (exec svc) (fun n => x (n + 1)) db' cache := by
  refine ((Prog.tryCatch_run f (fun err : Thrown => Prog.done (failure 500 err.message)) cache).1 a
    ?_).1
  rw [exec, hfault, ha]
  rfl

theorem catch500_run_error {svc : Services} {q : Stmt} (f : Answer q → HandlerM Response)
    {x : ℕ → Tick} {db : Db} (cache : Cache) {e : PgError} (hfault : (x 0).fault = none)
    (he : execOk svc (x 0) db q = .error e) :
    (catch500 (query q >>= f)).run (exec svc) x db cache = (failure 500 e.message, db, cache) := by
  have hexec : exec svc (x 0) db q = (.error (.pg e), db) := by
    rw [exec, hfault, he]
    rfl
  exact ((Prog.tryCatch_run f (fun err : Thrown => Prog.done (failure 500 err.message)) cache).2 _
    hexec).1

theorem catch500_list {svc : Services} {q₁ q₂ : Stmt} {f : Answer q₁ → Answer q₂ → HandlerM Response} {x : ℕ → Tick}
    {db : Db} {cache : Cache} {P : Response × Db × Cache → Prop} (hread₁ : isWrite q₁ = false)
    (hread₂ : isWrite q₂ = false)
    (hok : ∀ total rows x', execOk svc (x 1) db q₂ = .ok (rows, db) →
      P ((catch500 (f total rows)).run (exec svc) x' db cache))
    (herr : ∀ text, P (failure 500 text, db, cache)) :
    P ((catch500 (query q₁ >>= fun total => query q₂ >>= fun rows => f total rows)).run (exec svc) x db cache) := by
  refine catch500_run (P := fun out _ => P out) (fun total db' hcount => ?_) fun e _ => herr e.message
  obtain rfl := execOk_read hread₁ hcount
  refine catch500_run (P := fun out _ => P out) (fun rows db' hrows => ?_) fun e _ => herr e.message
  obtain rfl := execOk_read hread₂ hrows
  exact hok total rows _ hrows

theorem catch500_sends {P : Stmt → Prop} {q : Stmt} {f : Answer q → HandlerM Response} (hq : P q)
    (hok : ∀ a, (catch500 (f a)).Sends P) : (catch500 (query q >>= f)).Sends P :=
  Prog.tryCatch_sends hq hok fun _ => trivial

theorem sends_of_catch500 {P : Stmt → Prop} {q : Stmt} {f : Answer q → HandlerM Response}
    (h : (catch500 (query q >>= f)).Sends P) : P q ∧ ∀ a, (catch500 (f a)).Sends P := Prog.sends_of_tryCatch h

/-- The answer is another than 500 if and only if the statement succeeds and what follows answers so. -/
theorem catch500_ne_500 {svc : Services} {q : Stmt} {f : Answer q → HandlerM Response} {x : ℕ → Tick} {db : Db}
    {cache : Cache} : ((catch500 (query q >>= f)).run (exec svc) x db cache).1.status ≠ 500 ↔
      (x 0).fault = none ∧ ∃ a db', execOk svc (x 0) db q = .ok (a, db') ∧
        ((catch500 (f a)).run (exec svc) (fun n => x (n + 1)) db' cache).1.status ≠ 500 := by
  cases hfault : (x 0).fault with
  | some message =>
    have hexec : exec svc (x 0) db q = (.error (.pg (.other message)), db) := by
      rw [exec, hfault]
    have hrun := ((Prog.tryCatch_run f (fun err : Thrown => Prog.done (failure 500 err.message)) cache).2 _ hexec).1
    refine iff_of_false (fun h => h ?_) fun h => (nomatch h.1)
    exact congrArg (fun out => out.1.status) hrun
  | none =>
    cases hok : execOk svc (x 0) db q with
    | ok r =>
      rw [catch500_run_ok f cache hfault hok]
      refine ⟨fun h => ⟨rfl, r.1, r.2, rfl, h⟩, ?_⟩
      rintro ⟨-, a, db', hr, h⟩
      obtain rfl := Except.ok.inj hr
      exact h
    | error e =>
      rw [catch500_run_error f cache hfault hok]
      refine iff_of_false (fun h => h rfl) ?_
      rintro ⟨-, a, db', hr, -⟩
      cases hr

/-! ### The cache -/

/-- `CACHE_TTL`, in milliseconds. -/
def cacheTtl : Time := 60 * 1000

/-- `getCached(key)` of a cache: the data it returns, and the cache afterwards. -/
def lookupCache (now : Time) (key : CacheKey) (cache : Cache) : Option (Page CommunityRow) × Cache :=
  match cache.lookup key with
  | none => (none, cache)
  | some entry =>
    if cacheTtl < now - entry.ts then (none, cache.filter fun e => e.1 ≠ key)
    else (some entry.data, cache)

theorem lookupCache_eq (now : Time) (key : CacheKey) (cache : Cache) :
    lookupCache now key cache = ((Lib.TtlCache.get CacheEntry.ts cacheTtl now key cache).1.map (·.data),
      (Lib.TtlCache.get CacheEntry.ts cacheTtl now key cache).2) := by
  unfold lookupCache Lib.TtlCache.get
  cases cache.lookup key with
  | none => rfl
  | some entry =>
    dsimp only
    split_ifs <;> rfl

theorem lookupCache_forall {P : CacheKey × CacheEntry → Prop} {cache : Cache} (h : ∀ e ∈ cache, P e)
    (now : Time) (key : CacheKey) : (∀ e ∈ (lookupCache now key cache).2, P e) ∧
      ∀ page, (lookupCache now key cache).1 = some page → ∃ ts, P (key, ⟨page, ts⟩) := by
  obtain ⟨hrest, hentry⟩ := Lib.TtlCache.get_forall CacheEntry.ts cacheTtl now key h
  rw [lookupCache_eq]
  refine ⟨hrest, fun page hpage => ?_⟩
  obtain ⟨entry, hfound, rfl⟩ := Option.map_eq_some_iff.mp hpage
  exact ⟨entry.ts, hentry entry hfound⟩

def getCached (now : Time) (key : CacheKey) : HandlerM (Option (Page CommunityRow)) := do
  let cache ← liftM (Prog.getMem : Prog Stmt Answer Thrown Cache Cache)
  liftM (Prog.setMem (lookupCache now key cache).2 : Prog Stmt Answer Thrown Cache Unit)
  return (lookupCache now key cache).1

def setCache (now : Time) (key : CacheKey) (data : Page CommunityRow) : HandlerM Unit := do
  let cache ← liftM (Prog.getMem : Prog Stmt Answer Thrown Cache Cache)
  liftM (Prog.setMem ((key, ⟨data, now⟩) :: cache.filter fun e => e.1 ≠ key) :
    Prog Stmt Answer Thrown Cache Unit)

theorem getCached_run {svc : Services} {now : Time} {key : CacheKey}
    (f : Option (Page CommunityRow) → HandlerM Response) (x : ℕ → Tick) (db : Db) (cache : Cache) :
    (catch500 (getCached now key >>= f)).run (exec svc) x db cache =
      (catch500 (f (lookupCache now key cache).1)).run (exec svc) x db (lookupCache now key cache).2 :=
  rfl

theorem getCached_path {now : Time} {key : CacheKey} {f : Option (Page CommunityRow) → HandlerM Response}
    {log : List (Prog.Call Stmt Answer Thrown)} {r : Response}
    (h : (catch500 (getCached now key >>= f)).Path log (.done r)) : ∃ cached, (catch500 (f cached)).Path log (.done r) := by
  change (Prog.read fun cache => Prog.write (lookupCache now key cache).2
    (catch500 (f (lookupCache now key cache).1))).Path log (.done r) at h
  cases h with
  | read m h =>
    cases h with
    | write h => exact ⟨_, h⟩

theorem getCached_sends {P : Stmt → Prop} {now : Time} {key : CacheKey}
    {f : Option (Page CommunityRow) → HandlerM Response} (h : ∀ r, (catch500 (f r)).Sends P) :
    (catch500 (getCached now key >>= f)).Sends P := fun _ => h _

theorem sends_of_getCached {P : Stmt → Prop} {now : Time} {key : CacheKey}
    {f : Option (Page CommunityRow) → HandlerM Response} (h : (catch500 (getCached now key >>= f)).Sends P) :
    (catch500 (f none)).Sends P := h []

theorem setCache_run {svc : Services} {now : Time} {key : CacheKey} {data : Page CommunityRow}
    (r : Response) (x : ℕ → Tick) (db : Db) (cache : Cache) :
    ((catch500 (setCache now key data >>= fun _ => pure r)).run (exec svc) x db cache).1 = r := rfl

theorem setCache_sends {P : Stmt → Prop} {now : Time} {key : CacheKey} {data : Page CommunityRow}
    (r : Response) : (catch500 (setCache now key data >>= fun _ => pure r)).Sends P := fun _ => trivial

end Locus.Server
