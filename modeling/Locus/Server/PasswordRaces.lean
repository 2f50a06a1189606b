import Locus.Server.Passwords

/-!
# Passwords under concurrency

`POST /auth/register` and `POST /auth/login` decide on one statement, the INSERT or the SELECT of the account.
`POST /auth/change-password` reads the hash, compares, and then updates the account by its id without looking
at the hash again. Two changes of one password can both verify the old one and both succeed
(`racing_changes`), which no order of the two does. While the password that a change has verified is still
the stored one at its UPDATE, the requests are serialisable (`passwords_serialised`).

Proof. A request takes effect with the statement that decides its answer: the INSERT, the SELECT that refuses
it, or the UPDATE. The requests alone, in the order of these statements, are the serial execution. The two are
related by `Serial`: the same accounts, and an answer for every request whose answer is decided; a step of the
pool keeps it, or is matched by a request of the serial execution (`Serial.stay`, `Serial.commit`).
-/

namespace Locus.Server

open Lib

/-! ### The requests -/

inductive PasswordRequest
  | register (body : Json)
  | login (body : Json)
  | changePassword (authorization : Option String) (body : Json)

namespace PasswordRequest

def request : PasswordRequest → ApiRequest
  | register body => .postAuthRegister body
  | login body => .postAuthLogin body
  | changePassword authorization body => .postAuthChangePassword authorization body

def handler (svc : Services) (env : NodeEnv) (r : PasswordRequest) : Handler := r.request.handler svc env

/-- `req.body.current_password` -/
def current : PasswordRequest → Option Json
  | changePassword _ body => body.field? "current_password"
  | _ => none

/-- The account has the password that the request takes for its current one. -/
def verifies (svc : Services) (r : PasswordRequest) : List UserRow → Bool
  | [] => false
  | row :: _ => (row.passwordHash.filter (· ≠ "")).any fun hash => match r.current with
    | some (.str current) => svc.compare current hash
    | _ => false

end PasswordRequest

/-! ### Handlers up to their random token -/

/-- The rest of a handler, as a function of the refresh token that it would draw, is at its end or issues
tokens to one of the users; its status is known. -/
inductive Issues (svc : Services) (env : NodeEnv) (users : List UserRow) (p : String → HandlerM Response)
    (status : ℕ) : Prop
  | done (r : Response) (h : ∀ token, catch500 (p token) = .done r) (hstatus : r.status = status)
  | tokens (user : UserRow) (answer : String × String → Response) (huser : user ∈ users)
      (h : ∀ token, p token = createTokens svc { env with randomHex := token } user.id user.email >>= fun t =>
        pure (answer t))
      (hstatus : ∀ t, (answer t).status = status)

/-- The statement reads and writes `users` only. -/
def Stmt.OnUsers (svc : Services) (q : Stmt) : Prop :=
  ∀ (tick : Tick) (db db' d : Db) (a : Answer q), execOk svc tick db q = .ok (a, d) → db'.users = db.users →
    ∃ d', execOk svc tick db' q = .ok (a, d') ∧ d'.users = d.users ∧ d'.refreshTokens = db'.refreshTokens

/-- What a request does: it is refused, decides on one statement, or verifies the current password. -/
inductive Form (svc : Services) (env : NodeEnv) (r : PasswordRequest) : Prop
  | refused (response : Response)
      (h : ∀ token, r.handler svc { env with randomHex := token } = .done response)
  | decides (q : Stmt) (rest : String → Answer q → HandlerM Response)
      (h : ∀ token, r.handler svc { env with randomHex := token } = catch500 (query q >>= rest token))
      (hq : q.OnUsers svc) (hnot : ∀ id token expiresAt, q ≠ .insertRefreshToken id token expiresAt)
      (hrest : ∀ tick db a d, execOk svc tick db q = .ok (a, d) →
        ∃ status, Issues svc env d.users (fun token => rest token a) status)
  | checks (id : Uuid) (current : Json) (newPassword : String) (hcurrent : r.current = some current)
      (h : ∀ token, r.handler svc { env with randomHex := token } =
        catch500 (query (.selectUser id) >>= changeRest svc env id current newPassword))

section
variable {svc : Services} {env : NodeEnv}

theorem insertUser_onUsers (email : String) (name hash : Option String) :
    (Stmt.insertUser email name hash).OnUsers svc := by
  intro tick db db' d a h husers
  simp only [execOk, insertUser, husers] at h ⊢
  split_ifs at h ⊢ <;> cases h
  · exact ⟨db', rfl, husers, rfl⟩
  · exact ⟨_, rfl, rfl, rfl⟩

theorem selectUserByEmail_onUsers (email : String) : (Stmt.selectUserByEmail email).OnUsers svc := by
  intro tick db db' d a h husers
  cases h
  exact ⟨db', by simp only [execOk, selectUserByEmail, husers], husers, rfl⟩

theorem registerRest_issues {tick : Tick} {db d : Db} {email : String} {name hash : Option String}
    {rows : List UserRow} (h : execOk svc tick db (.insertUser email name hash) = .ok (rows, d)) :
    ∃ status, Issues svc env d.users (fun token => registerRest svc { env with randomHex := token } rows)
      status := by
  obtain ⟨rfl, rfl⟩ | ⟨user, rfl, -, -, -, rfl⟩ := insertUser_ok h
  · exact ⟨_, .done _ (fun token => rfl) rfl⟩
  · exact ⟨201, .tokens user _ (by simp) (fun token => rfl) fun t => rfl⟩

theorem loginRest_issues {tick : Tick} {db d : Db} {email : String} {password : Json} {rows : List UserRow}
    (h : execOk svc tick db (.selectUserByEmail email) = .ok (rows, d)) :
    ∃ status, Issues svc env d.users
      (fun token => loginRest svc { env with randomHex := token } password rows) status := by
  obtain ⟨rfl, rfl⟩ : selectUserByEmail db email = rows ∧ db = d := by simpa [execOk] using h
  cases hrows : selectUserByEmail db email with
  | nil => exact ⟨_, .done _ (fun token => rfl) rfl⟩
  | cons user rest =>
    have huser : user ∈ db.users :=
      List.mem_of_mem_filter (hrows ▸ List.mem_cons_self : user ∈ selectUserByEmail db email)
    simp only [loginRest]
    cases user.passwordHash.filter (· ≠ "") with
    | none => exact ⟨_, .done _ (fun token => rfl) rfl⟩
    | some hash =>
      cases password with
      | str password =>
        dsimp only
        split
        · exact ⟨_, .done _ (fun token => rfl) rfl⟩
        · exact ⟨200, .tokens user _ huser (fun token => rfl) fun t => rfl⟩
      | _ => exact ⟨_, .done _ (fun token => rfl) rfl⟩

theorem register_form (body : Json) : Form svc env (.register body) := by
  have hhandler : ∀ token, (PasswordRequest.register body).handler svc { env with randomHex := token } =
      postAuthRegister svc { env with randomHex := token } body := fun token => rfl
  cases he : nonEmptyString (body.field? "email") with
  | none =>
    refine .refused (failure 400 "email required") fun token => ?_
    simp only [hhandler, postAuthRegister, he]
  | some email =>
    cases hp : nonEmptyString (body.field? "password") with
    | none =>
      refine .refused (failure 400 "password required, min 8 characters") fun token => ?_
      simp only [hhandler, postAuthRegister, he, hp]
    | some password =>
      by_cases hlength : jsLength password < 8
      · refine .refused (failure 400 "password required, min 8 characters") fun token => ?_
        simp only [hhandler, postAuthRegister, he, hp, if_pos hlength]
      · obtain ⟨hemail, hne⟩ := nonEmptyString_some he
        have hbody : ∀ token, _ = catch500 _ := fun token => (hhandler token).trans
          (postAuthRegister_body hemail (nonEmptyString_some hp).1 hne (by omega))
        cases hname : trimmedName (body.field? "name") with
        | none =>
          refine .refused (failure 500 "Cannot convert object to primitive value") fun token => ?_
          rw [hbody, hname]
          rfl
        | some name =>
          rw [hname] at hbody
          exact .decides (.insertUser (jsTrim email) (name.filter (· ≠ "")) (some (svc.hash env.salt password)))
            (fun token => registerRest svc { env with randomHex := token }) hbody (insertUser_onUsers _ _ _)
            (fun id token expiresAt => by simp) fun tick db a d h => registerRest_issues h

theorem login_form (body : Json) : Form svc env (.login body) := by
  have hhandler : ∀ token, (PasswordRequest.login body).handler svc { env with randomHex := token } =
      postAuthLogin svc { env with randomHex := token } body := fun token => rfl
  cases he : body.field? "email" with
  | none =>
    refine .refused (failure 400 "email and password required") fun token => ?_
    simp only [hhandler, postAuthLogin, he]
  | some email =>
    cases hp : body.field? "password" with
    | none =>
      refine .refused (failure 400 "email and password required") fun token => ?_
      simp only [hhandler, postAuthLogin, he, hp]
    | some password =>
      by_cases htruthy : (!email.truthy || !password.truthy) = true
      · refine .refused (failure 400 "email and password required") fun token => ?_
        simp only [hhandler, postAuthLogin, he, hp, if_pos htruthy]
      · have hboth : email.truthy = true ∧ password.truthy = true := by simpa using htruthy
        cases email with
        | str email =>
          have hne : email ≠ "" := by simpa [Json.truthy] using hboth.1
          exact .decides (.selectUserByEmail _) (fun token => loginRest svc { env with randomHex := token } password)
            (fun token => (hhandler token).trans (postAuthLogin_body he hp hne hboth.2))
            (selectUserByEmail_onUsers _)
            (fun id token expiresAt => by simp) fun tick db a d h => loginRest_issues h
        | _ =>
          refine .refused (failure 500 "email.trim is not a function") fun token => ?_
          simp only [hhandler, postAuthLogin, he, hp, if_neg htruthy]
          rfl

theorem change_form (authorization : Option String) (body : Json) :
    Form svc env (.changePassword authorization body) := by
  have hhandler : ∀ token, (PasswordRequest.changePassword authorization body).handler svc
      { env with randomHex := token } =
        postAuthChangePassword svc { env with randomHex := token } authorization body := fun token => rfl
  have hauth : ∀ token, authenticate svc { env with randomHex := token } authorization =
      authenticate svc env authorization := fun token => rfl
  cases huser : authenticate svc env authorization with
  | none =>
    cases hbearer : authMiddleware.bearer authorization with
    | none =>
      refine .refused (failure 401 "Unauthorized") fun token => ?_
      simp only [hhandler, postAuthChangePassword, authMiddleware, hbearer]
    | some t =>
      have hverify : svc.verify t env.now = none := by simpa [authenticate, hbearer] using huser
      refine .refused (failure 401 "Invalid token") fun token => ?_
      simp only [hhandler, postAuthChangePassword, authMiddleware, hbearer, hverify]
  | some user =>
    obtain ⟨text, hdone⟩ | ⟨current, newPassword, hcurrent, -, hbody⟩ := postAuthChangePassword_cases svc body
    · exact .refused _ fun token => hdone _ authorization user ((hauth token).trans huser)
    · exact .checks user.id current newPassword hcurrent fun token =>
        hbody _ authorization user ((hauth token).trans huser)

theorem updatePasswordHash_onUsers (id : Uuid) (hash : String) :
    (Stmt.updatePasswordHash id hash).OnUsers svc := by
  intro tick db db' d a h husers
  simp only [execOk, updatePasswordHash, husers] at h ⊢
  split_ifs at h ⊢
  cases h
  exact ⟨_, rfl, rfl, rfl⟩

theorem changeRest_cases (svc : Services) (env : NodeEnv) (id : Uuid) (current : Json) (newPassword : String)
    (rows : List UserRow) :
    (∃ r, catch500 (changeRest svc env id current newPassword rows) = .done r) ∨
    ∃ text, current = .str text ∧ changeRest svc env id current newPassword rows =
      query (.updatePasswordHash id (svc.hash env.salt newPassword)) >>= fun _ => pure ⟨200, .success⟩ := by
  cases rows with
  | nil => exact .inl ⟨_, rfl⟩
  | cons row rest =>
    rw [changeRest]
    cases row.passwordHash.filter (· ≠ "") with
    | none => exact .inl ⟨_, rfl⟩
    | some hash =>
      cases current with
      | str text =>
        dsimp only
        split
        · exact .inl ⟨_, rfl⟩
        · exact .inr ⟨text, rfl, rfl⟩
      | _ => exact .inl ⟨_, rfl⟩

theorem changeRest_verified {r : PasswordRequest} {id : Uuid} {text newPassword : String}
    {rows : List UserRow} (hcurrent : r.current = some (.str text)) (h : r.verifies svc rows = true) :
    changeRest svc env id (.str text) newPassword rows =
      query (.updatePasswordHash id (svc.hash env.salt newPassword)) >>= fun _ => pure ⟨200, .success⟩ := by
  cases rows with
  | nil => cases h
  | cons row rest =>
    rw [PasswordRequest.verifies, hcurrent] at h
    rw [changeRest]
    cases hhash : row.passwordHash.filter (· ≠ "") with
    | none =>
      rw [hhash] at h
      cases h
    | some hash =>
      rw [hhash] at h
      have hcompare : svc.compare text hash = true := h
      simp [hcompare]

/-- **The handlers of the three routes.** -/
theorem form (svc : Services) (env : NodeEnv) (r : PasswordRequest) : Form svc env r := by
  cases r with
  | register body => exact register_form body
  | login body => exact login_form body
  | changePassword authorization body => exact change_form authorization body

theorem Issues.run {users : List UserRow} {p : String → HandlerM Response} {status : ℕ}
    (h : Issues svc env users p status) {db : Db} {cache : Cache} {token : String} {x : ℕ → Tick}
    (husers : db.users = users) (hfault : (x 0).fault = none)
    (hid : ∀ row ∈ db.refreshTokens, row.id ≠ (x 0).uuid) (htoken : ∀ row ∈ db.refreshTokens, row.token ≠ token) :
    ((catch500 (p token)).run (exec svc) x db cache).1.status = status ∧
      ((catch500 (p token)).run (exec svc) x db cache).2.1.users = users := by
  cases h with
  | done r h hstatus =>
    rw [h token]
    exact ⟨hstatus, husers⟩
  | tokens user answer huser h hstatus =>
    have hrun : (catch500 (createTokens svc { env with randomHex := token } user.id user.email >>= fun t =>
        pure (answer t))).run (exec svc) x db cache = _ :=
      createTokens_run user.email answer cache hfault hid htoken ⟨user, husers ▸ huser, rfl⟩
    rw [h token, hrun]
    exact ⟨hstatus _, husers⟩

/-! ### What a request has decided -/

/-- The status that a handler answers if no statement fails, once it is decided. -/
def promised : Handler → Option ℕ
  | .done r => some r.status
  | .query (.insertRefreshToken ..) k => match k (.ok ()) with
    | .done r => some r.status
    | _ => none
  | _ => none

theorem promised_query {q : Stmt} (f : Answer q → HandlerM Response)
    (hnot : ∀ id token expiresAt, q ≠ .insertRefreshToken id token expiresAt) :
    promised (catch500 (query q >>= f)) = none := by
  cases q with
  | insertRefreshToken id token expiresAt => exact absurd rfl (hnot id token expiresAt)
  | _ => rfl

theorem Issues.promised {users : List UserRow} {p : String → HandlerM Response} {status : ℕ}
    (h : Issues svc env users p status) (token : String) :
    Server.promised (catch500 (p token)) = some status := by
  cases h with
  | done r h hstatus =>
    rw [h token]
    exact congrArg some hstatus
  | tokens user answer huser h hstatus =>
    rw [h token, createTokens_bind]
    exact congrArg some (hstatus _)

theorem settle_of_promised {p : Handler} {status : ℕ} (h : promised p = some status) (cache : Cache) :
    p.settle cache = (cache, p) := by
  cases p with
  | done r => rfl
  | query q k => rfl
  | read k => cases h
  | write m k => cases h

end

/-! ### The requests together, and one after the other -/

section
variable {ι : Type} [DecidableEq ι]

/-- The requests `req` in flight, their statements interleaved in any way. -/
def passwordPool (svc : Services) (env : ι → NodeEnv) (req : ι → PasswordRequest) :
    System (RequestPool ι) (PoolEvent ι Tick) :=
  Pool.system (fun i => (req i).handler svc (env i)) (exec svc) fun _ _ => True

/-- A request handled alone, with the token that it draws. -/
structure SerialEvent (ι : Type) where
  index : ι
  randomHex : String
  tick : ℕ → Tick

/-- The answer to a request handled alone, at the time and with the salt that it has among the others. -/
def alone (svc : Services) (env : ι → NodeEnv) (req : ι → PasswordRequest) (t : ServerState)
    (d : SerialEvent ι) : Response × ServerState :=
  serve svc t (req d.index).request { env d.index with randomHex := d.randomHex } d.tick

/-- The requests one after the other. -/
def serially (svc : Services) (env : ι → NodeEnv) (req : ι → PasswordRequest) :
    System ServerState (SerialEvent ι) where
  Init _ := True
  step t d := some (alone svc env req t d).2

def noFault (_ : ServerState) (d : SerialEvent ι) : Prop := ∀ n, (d.tick n).fault = none

def statuses (svc : Services) (env : ι → NodeEnv) (req : ι → PasswordRequest) (t : ServerState)
    (d : SerialEvent ι) : Option (ι × ℕ) := some (d.index, (alone svc env req t d).1.status)

/-- The emails with their passwords. -/
def Db.passwords (db : Db) : List (String × Option String) := db.users.map fun row => (row.email, row.passwordHash)

/-- What the requests answer and leave behind is what a serial execution answers and leaves behind, which has
every request that is answered, none that has not started, and none twice. -/
def Serialised (svc : Services) (env : ι → NodeEnv) (req : ι → PasswordRequest) (s₀ s : RequestPool ι) :
    Prop :=
  ∃ ds t, (serially svc env req).Run noFault ⟨s₀.db, s₀.mem⟩ ds t ∧ (ds.map (·.index)).Nodup ∧
    (∀ i ∈ ds.map (·.index), s.thread i ≠ .idle) ∧
    (∀ i r, (s.thread i).result = some r →
      (i, r.status) ∈ (serially svc env req).observe (statuses svc env req) ⟨s₀.db, s₀.mem⟩ ds) ∧
    t.db.passwords = s.db.passwords

/-- A change of password comes to its UPDATE while the account still has the password that it has verified. -/
def stillVerified (svc : Services) (req : ι → PasswordRequest) (s : RequestPool ι) : PoolEvent ι Tick → Bool
  | .start _ => true
  | .answer i _ => match (s.thread i).pending with
    | some (.updatePasswordHash id _) => (req i).verifies svc (selectUser s.db id)
    | _ => true

/-- What the request of a thread has decided. -/
def decided : Thread Stmt Answer Thrown Cache Response → Option ℕ
  | .idle => none
  | .live p _ => promised p

/-- Where a request stands: before its first statement, behind a current password that it has verified, or
decided. -/
inductive Stage (svc : Services) (env : NodeEnv) (r : PasswordRequest) :
    Thread Stmt Answer Thrown Cache Response → Prop
  | idle : Stage svc env r .idle
  | asks : Stage svc env r (.live (r.handler svc env) [])
  | checked (id : Uuid) (current newPassword : String) (log : List (Prog.Call Stmt Answer Thrown))
      (hcurrent : r.current = some (.str current))
      (h : ∀ token, r.handler svc { env with randomHex := token } =
        catch500 (query (.selectUser id) >>= changeRest svc env id (.str current) newPassword)) :
      Stage svc env r (.live (catch500 (query (.updatePasswordHash id (svc.hash env.salt newPassword)) >>=
        fun _ => pure ⟨200, .success⟩)) log)
  | decided (p : Handler) (log : List (Prog.Call Stmt Answer Thrown)) (status : ℕ)
      (h : promised p = some status) : Stage svc env r (.live p log)

/-- The serial execution `ds`, at `t`, is that of the requests that have decided in `s`. -/
structure Serial (svc : Services) (env : ι → NodeEnv) (req : ι → PasswordRequest) (t₀ : ServerState)
    (ds : List (SerialEvent ι)) (s : RequestPool ι) (t : ServerState) : Prop where
  users : t.db.users = s.db.users
  stage : ∀ i, Stage svc (env i) (req i) (s.thread i)
  once : (ds.map (·.index)).Nodup
  only : ∀ i ∈ ds.map (·.index), decided (s.thread i) ≠ none
  answers : ∀ i status, decided (s.thread i) = some status →
    (i, status) ∈ (serially svc env req).observe (statuses svc env req) t₀ ds

variable {svc : Services} {env : ι → NodeEnv} {req : ι → PasswordRequest} {t₀ t : ServerState}
  {ds : List (SerialEvent ι)} {s s' : RequestPool ι} {i : ι}

theorem goto_decided {d : Db} {p : Handler} {log : List (Prog.Call Stmt Answer Thrown)}
    (hsettle : p.settle s.mem = (s.mem, p)) : (s.goto i d p log).thread i = .live p log := by
  rw [Pool.goto_self, hsettle]

theorem Serial.stay (h : Serial svc env req t₀ ds s t) {d : Db} {p : Handler}
    {log : List (Prog.Call Stmt Answer Thrown)} (hsettle : p.settle s.mem = (s.mem, p))
    (hstage : Stage svc (env i) (req i) (.live p log)) (hsame : promised p = decided (s.thread i))
    (husers : d.users = s.db.users) : Serial svc env req t₀ ds (s.goto i d p log) t := by
  have hthread : (s.goto i d p log).thread i = .live p log := goto_decided hsettle
  have hdecided : ∀ j, decided ((s.goto i d p log).thread j) = decided (s.thread j) := by
    intro j
    by_cases hji : j = i
    · subst hji
      rw [hthread]
      exact hsame
    · rw [Pool.goto_other _ hji]
  refine ⟨h.users.trans husers.symm, fun j => ?_, h.once, fun j hj => ?_, fun j status hj => ?_⟩
  · by_cases hji : j = i
    · subst hji
      rw [hthread]
      exact hstage
    · rw [Pool.goto_other _ hji]
      exact h.stage j
  · rw [hdecided]
    exact h.only j hj
  · rw [hdecided] at hj
    exact h.answers j status hj

/-- **A request decides**: the serial execution handles it here. -/
theorem Serial.commit (h : Serial svc env req t₀ ds s t)
    (hrun : (serially svc env req).Run noFault t₀ ds t) {d : Db} {p : Handler}
    {log : List (Prog.Call Stmt Answer Thrown)} {e : SerialEvent ι} {status : ℕ} (he : e.index = i)
    (hnone : decided (s.thread i) = none) (hsome : promised p = some status)
    (hstatus : (alone svc env req t e).1.status = status)
    (husers : (alone svc env req t e).2.db.users = d.users) :
    Serial svc env req t₀ (ds ++ [e]) (s.goto i d p log) (alone svc env req t e).2 := by
  have hthread : (s.goto i d p log).thread i = .live p log :=
    goto_decided (settle_of_promised hsome s.mem)
  have hnew : i ∉ ds.map (·.index) := fun hi => h.only i hi hnone
  refine ⟨husers, fun j => ?_, ?_, fun j hj => ?_, fun j status' hj => ?_⟩
  · by_cases hji : j = i
    · subst hji
      rw [hthread]
      exact .decided p log status hsome
    · rw [Pool.goto_other _ hji]
      exact h.stage j
  · rw [List.map_append, List.nodup_append]
    refine ⟨h.once, List.nodup_singleton _, ?_⟩
    intro j hj k hk
    obtain rfl : k = i := by simpa [he] using hk
    rintro rfl
    exact hnew hj
  · by_cases hji : j = i
    · subst hji
      rw [hthread, decided, hsome]
      simp
    · rw [Pool.goto_other _ hji]
      refine h.only j ?_
      simpa [he, hji] using hj
  · rw [hrun.observe_snoc, List.mem_append]
    by_cases hji : j = i
    · subst hji
      rw [hthread, decided, hsome] at hj
      cases hj
      refine .inr ?_
      simp [statuses, he, hstatus]
    · rw [Pool.goto_other _ hji] at hj
      exact .inl (h.answers j status' hj)

theorem answered_ok {q : Stmt} {f : Answer q → HandlerM Response} {x : Tick}
    {log : List (Prog.Call Stmt Answer Thrown)} (hi : s.thread i = .live (catch500 (query q >>= f)) log)
    (hok : succeeds svc s (.answer i x) = true)
    (hstep : (passwordPool svc env req).step s (.answer i x) = some s') :
    ∃ a d, execOk svc x s.db q = .ok (a, d) ∧ x.fault = none ∧
      s' = s.goto i d (catch500 (f a)) (log ++ [⟨q, .ok a⟩]) := by
  obtain ⟨k, hk, hkok, -⟩ := Prog.tryCatch_query q f fun err : Thrown => .done (failure 500 err.message)
  have hlive : s.thread i = .live (.query q k) log := hi.trans (congrArg (Thread.live · log) hk)
  have hpool : Pool.step (fun i => (req i).handler svc (env i)) (exec svc) s (.answer i x) = some s' := hstep
  obtain ⟨q', k', log', hi', rfl⟩ := Pool.answer_cases hpool
  cases hlive.symm.trans hi'
  simp only [succeeds, hlive, Thread.pending_query] at hok
  obtain ⟨a, d, ha, hexec⟩ | ⟨e, hexec, -⟩ := exec_cases svc x s.db q
  · refine ⟨a, d, ha, ?_, ?_⟩
    · cases hfault : x.fault with
      | none => rfl
      | some message => simp [exec, hfault] at hexec
    · rw [hexec]
      exact congrArg (s.goto i d · _) (hkok a)
  · rw [hexec] at hok
    cases hok

omit [DecidableEq ι] in
theorem alone_refused {response : Response} {e : SerialEvent ι}
    (h : (req e.index).handler svc { env e.index with randomHex := e.randomHex } = .done response) :
    alone svc env req t e = (response, t) := serve_of_run (by
  rw [PasswordRequest.handler] at h
  rw [h]
  rfl)

omit [DecidableEq ι] in
theorem alone_first {q : Stmt} {rest : Answer q → HandlerM Response} {e : SerialEvent ι} {a : Answer q} {d : Db}
    (h : (req e.index).handler svc { env e.index with randomHex := e.randomHex } =
      catch500 (query q >>= rest)) (hfault : (e.tick 0).fault = none)
    (ha : execOk svc (e.tick 0) t.db q = .ok (a, d)) :
    (alone svc env req t e).1 = ((catch500 (rest a)).run (exec svc) (fun n => e.tick (n + 1)) d t.cache).1 ∧
      (alone svc env req t e).2.db =
        ((catch500 (rest a)).run (exec svc) (fun n => e.tick (n + 1)) d t.cache).2.1 := by
  have hrun : ((req e.index).request.handler svc { env e.index with randomHex := e.randomHex }).run (exec svc)
      e.tick t.db t.cache = (catch500 (rest a)).run (exec svc) (fun n => e.tick (n + 1)) d t.cache :=
    (congrArg (fun p : Handler => p.run (exec svc) e.tick t.db t.cache) h).trans
      (catch500_run_ok rest t.cache hfault ha)
  have halone : alone svc env req t e = _ := serve_of_run hrun
  rw [halone]
  exact ⟨rfl, rfl⟩

theorem serial_start (h : Serial svc env req t₀ ds s t) (hrun : (serially svc env req).Run noFault t₀ ds t)
    (hi : s.thread i = .idle) :
    Serial svc env req t₀ ds (s.goto i s.db ((req i).handler svc (env i)) []) t ∨
      ∃ e t', noFault t e ∧ (serially svc env req).step t e = some t' ∧
        Serial svc env req t₀ (ds ++ [e]) (s.goto i s.db ((req i).handler svc (env i)) []) t' := by
  have hnone : decided (s.thread i) = none := by rw [hi]; rfl
  cases form svc (env i) (req i) with
  | refused response hform =>
    have halone : alone svc env req t ⟨i, "", fun _ => {}⟩ = (response, t) := alone_refused (hform "")
    have hsome : promised ((req i).handler svc (env i)) = some response.status :=
      congrArg promised (hform (env i).randomHex)
    refine .inr ⟨⟨i, "", fun _ => {}⟩, _, fun _ => rfl, rfl, h.commit hrun rfl hnone hsome ?_ ?_⟩
    · rw [halone]
    · rw [halone]
      exact h.users
  | decides q rest hform hq hnot hrest =>
    have hhandler : (req i).handler svc (env i) = _ := hform (env i).randomHex
    refine .inl (h.stay ?_ .asks ?_ rfl)
    · rw [hhandler]
      rfl
    · rw [hhandler, hnone]
      exact promised_query _ hnot
  | checks id current newPassword hcurrent hform =>
    have hhandler : (req i).handler svc (env i) = _ := hform (env i).randomHex
    refine .inl (h.stay ?_ .asks ?_ rfl)
    · rw [hhandler]
      rfl
    · rw [hhandler, hnone]
      exact promised_query _ (by simp)

/-- The ticks of a request whose first statement is answered under `x`, and whose token gets the id `uuid`. -/
def ticks (x : Tick) (uuid : Uuid) : ℕ → Tick
  | 0 => x
  | _ + 1 => { uuid }

theorem serial_decides (h : Serial svc env req t₀ ds s t)
    (hrun : (serially svc env req).Run noFault t₀ ds t) {q : Stmt} {rest : String → Answer q → HandlerM Response}
    {x : Tick} {a : Answer q} {d : Db} {log : List (Prog.Call Stmt Answer Thrown)} {status : ℕ}
    (hnone : decided (s.thread i) = none)
    (hform : ∀ token, (req i).handler svc { env i with randomHex := token } = catch500 (query q >>= rest token))
    (hq : q.OnUsers svc) (hissues : Issues svc (env i) d.users (fun token => rest token a) status)
    (ha : execOk svc x s.db q = .ok (a, d)) (hfault : x.fault = none) :
    ∃ e t', noFault t e ∧ (serially svc env req).step t e = some t' ∧
      Serial svc env req t₀ (ds ++ [e]) (s.goto i d (catch500 (rest (env i).randomHex a)) log) t' := by
  obtain ⟨env', x', -, -, hquiet⟩ := exists_quiet t.db 0 0
  obtain ⟨d', ha', husers, htokens⟩ := hq x s.db t.db d a ha h.users
  let e : SerialEvent ι := ⟨i, env'.randomHex, ticks x (x' 0).uuid⟩
  obtain ⟨hresponse, hdb⟩ := alone_first (e := e) (hform env'.randomHex) hfault ha'
  have hrest : ((catch500 (rest env'.randomHex a)).run (exec svc) (fun n => e.tick (n + 1)) d' t.cache).1.status =
        status ∧
      ((catch500 (rest env'.randomHex a)).run (exec svc) (fun n => e.tick (n + 1)) d' t.cache).2.1.users =
        d.users := hissues.run husers rfl (htokens ▸ hquiet.tokenId 0) (htokens ▸ hquiet.token)
  refine ⟨e, _, fun n => ?_, rfl, h.commit hrun rfl hnone (hissues.promised _) ?_ ?_⟩
  · cases n with
    | zero => exact hfault
    | succ n => rfl
  · rw [hresponse]
    exact hrest.1
  · rw [hdb]
    exact hrest.2

theorem serial_checks (h : Serial svc env req t₀ ds s t)
    (hrun : (serially svc env req).Run noFault t₀ ds t) {id : Uuid} {current : Json} {newPassword : String}
    {log : List (Prog.Call Stmt Answer Thrown)} (hnone : decided (s.thread i) = none)
    (hcurrent : (req i).current = some current)
    (hform : ∀ token, (req i).handler svc { env i with randomHex := token } =
      catch500 (query (.selectUser id) >>= changeRest svc (env i) id current newPassword)) :
    Serial svc env req t₀ ds (s.goto i s.db
        (catch500 (changeRest svc (env i) id current newPassword (selectUser s.db id))) log) t ∨
      ∃ e t', noFault t e ∧ (serially svc env req).step t e = some t' ∧
        Serial svc env req t₀ (ds ++ [e]) (s.goto i s.db
          (catch500 (changeRest svc (env i) id current newPassword (selectUser s.db id))) log) t' := by
  have hread : selectUser t.db id = selectUser s.db id := by simp only [selectUser, h.users]
  obtain ⟨r, hdone⟩ | ⟨text, rfl, hupdate⟩ :=
    changeRest_cases svc (env i) id current newPassword (selectUser s.db id)
  · let e : SerialEvent ι := ⟨i, "", fun _ => {}⟩
    obtain ⟨hresponse, hdb⟩ := alone_first (e := e) (t := t) (hform "") rfl rfl
    rw [hread, hdone] at hresponse hdb
    rw [hdone]
    refine .inr ⟨e, _, fun n => rfl, rfl, h.commit hrun rfl hnone rfl ?_ ?_⟩
    · rw [hresponse]
      rfl
    · rw [hdb]
      exact h.users
  · rw [hupdate]
    exact .inl (h.stay rfl (.checked id text newPassword log hcurrent hform) hnone.symm rfl)

theorem serial_updates (h : Serial svc env req t₀ ds s t)
    (hrun : (serially svc env req).Run noFault t₀ ds t) {id : Uuid} {text newPassword : String} {x : Tick}
    {d : Db} {log : List (Prog.Call Stmt Answer Thrown)} (hnone : decided (s.thread i) = none)
    (hcurrent : (req i).current = some (.str text))
    (hform : ∀ token, (req i).handler svc { env i with randomHex := token } =
      catch500 (query (.selectUser id) >>= changeRest svc (env i) id (.str text) newPassword))
    (hverified : (req i).verifies svc (selectUser s.db id) = true)
    (ha : execOk svc x s.db (.updatePasswordHash id (svc.hash (env i).salt newPassword)) = .ok ((), d))
    (hfault : x.fault = none) :
    ∃ e t', noFault t e ∧ (serially svc env req).step t e = some t' ∧
      Serial svc env req t₀ (ds ++ [e]) (s.goto i d (catch500 (pure ⟨200, .success⟩)) log) t' := by
  have hread : selectUser t.db id = selectUser s.db id := by simp only [selectUser, h.users]
  obtain ⟨d', ha', husers, -⟩ := updatePasswordHash_onUsers id _ x s.db t.db d () ha h.users
  let e : SerialEvent ι := ⟨i, "", fun _ => x⟩
  obtain ⟨hresponse, hdb⟩ := alone_first (e := e) (t := t) (hform "") hfault rfl
  rw [hread, changeRest_verified hcurrent hverified, catch500_run_ok _ t.cache hfault ha'] at hresponse hdb
  refine ⟨e, _, fun n => hfault, rfl, h.commit hrun rfl hnone rfl ?_ ?_⟩
  · rw [hresponse]
    rfl
  · rw [hdb]
    exact husers

theorem serial_step (h : Serial svc env req t₀ ds s t) (hrun : (serially svc env req).Run noFault t₀ ds t)
    {e : PoolEvent ι Tick} (hok : succeeds svc s e = true) (hverified : stillVerified svc req s e = true)
    (hstep : (passwordPool svc env req).step s e = some s') :
    Serial svc env req t₀ ds s' t ∨ ∃ e t', noFault t e ∧ (serially svc env req).step t e = some t' ∧
      Serial svc env req t₀ (ds ++ [e]) s' t' := by
  have hpool : Pool.step (fun i => (req i).handler svc (env i)) (exec svc) s e = some s' := hstep
  obtain ⟨i, rfl, hi, rfl⟩ | ⟨i, x, q, k, log, rfl, hi, hs'⟩ := Pool.step_cases hpool
  · exact serial_start h hrun hi
  have hstage := h.stage i
  generalize hthread : s.thread i = thread at hstage
  cases hstage with
  | idle => simp [hi] at hthread
  | asks =>
    cases form svc (env i) (req i) with
    | refused response hform =>
      have hhandler : (req i).handler svc (env i) = _ := hform (env i).randomHex
      rw [hhandler, hi] at hthread
      cases hthread
    | decides q rest hform hq hnot hrest =>
      have hhandler : (req i).handler svc (env i) = _ := hform (env i).randomHex
      rw [hhandler] at hthread
      have hnone : decided (s.thread i) = none := by
        rw [hthread]
        exact promised_query _ hnot
      obtain ⟨a, d, ha, hfault, rfl⟩ := answered_ok hthread hok hstep
      obtain ⟨status, hissues⟩ := hrest x s.db a d ha
      exact .inr (serial_decides h hrun hnone hform hq hissues ha hfault)
    | checks id current newPassword hcurrent hform =>
      have hhandler : (req i).handler svc (env i) = _ := hform (env i).randomHex
      rw [hhandler] at hthread
      have hnone : decided (s.thread i) = none := by
        rw [hthread]
        rfl
      obtain ⟨a, d, ha, -, rfl⟩ := answered_ok hthread hok hstep
      cases ha
      exact serial_checks h hrun hnone hcurrent hform
  | checked id text newPassword log' hcurrent hform =>
    have hnone : decided (s.thread i) = none := by
      rw [hthread]
      rfl
    have hpending : (s.thread i).pending = some (.updatePasswordHash id (svc.hash (env i).salt newPassword)) := by
      rw [hthread]
      rfl
    obtain ⟨a, d, ha, hfault, rfl⟩ := answered_ok hthread hok hstep
    simp only [stillVerified, hpending] at hverified
    exact .inr (serial_updates h hrun hnone hcurrent hform hverified ha hfault)
  | decided p log' status hp =>
    -- it awaits the INSERT of its refresh token, which leaves the accounts alone
    cases hi.symm.trans hthread
    cases q with
    | insertRefreshToken id token expiresAt =>
      have hend : ∃ r : Response, k (.ok ()) = .done r ∧ r.status = status := by
        simp only [promised] at hp
        split at hp
        · rename_i r hk
          exact ⟨r, hk, Option.some.inj hp⟩
        · cases hp
      obtain ⟨r, hk, hstatus⟩ := hend
      have hdecided : promised (.done r) = decided (s.thread i) := by
        rw [hthread, decided, hp, promised, hstatus]
      obtain ⟨a, d, ha, hexec⟩ | ⟨e, hexec, -⟩ :=
        exec_cases svc x s.db (.insertRefreshToken id token expiresAt)
      · obtain ⟨tokens, rfl⟩ := execOk_frame ha
        rw [hexec] at hs'
        subst hs'
        refine .inl ?_
        rw [show k (Except.ok a) = .done r from hk]
        exact h.stay rfl (.decided _ _ r.status rfl) hdecided rfl
      · simp [succeeds, hthread, hexec, Except.isOk, Except.toBool] at hok
    | _ => cases hp

/-- **Password operations are serialisable** while every change of password comes to its UPDATE with the
password that it has verified: the answers and the passwords are those of a serial execution. -/
theorem passwords_serialised {s₀ : RequestPool ι} {tr : List (PoolEvent ι Tick)}
    (h₀ : (passwordPool svc env req).Init s₀)
    (hrun : (passwordPool svc env req).Run
      (fun s e => succeeds svc s e = true ∧ stillVerified svc req s e = true) s₀ tr s) :
    Serialised svc env req s₀ s := by
  have hstart : Serial svc env req ⟨s₀.db, s₀.mem⟩ [] s₀ ⟨s₀.db, s₀.mem⟩ := by
    refine ⟨rfl, fun i => ?_, List.nodup_nil, fun i hi => (by cases hi), fun i status hi => ?_⟩
    · rw [h₀.2 i]
      exact .idle
    · rw [h₀.2 i] at hi
      cases hi
  obtain ⟨ds, t, hserial, hend⟩ := hrun.simulate (Serial svc env req ⟨s₀.db, s₀.mem⟩) hstart
    fun ds s e s' t hs hrun hC hstep => serial_step hs hrun hC.1 hC.2 hstep
  refine ⟨ds, t, hserial, hend.once, fun i hi hidle => ?_, fun i r hr => hend.answers i r.status ?_, ?_⟩
  · exact hend.only i hi (by rw [hidle]; rfl)
  · obtain ⟨log, hlive⟩ := Thread.result_eq_some.mp hr
    rw [hlive]
    rfl
  · rw [Db.passwords, Db.passwords, hend.users]

end

/-- Ana has the password `password`. -/
def anaOnly : Db where
  users := [{ id := 1, email := "ana@x.org", name := none, passwordHash := some "0$password", createdAt := 0,
              updatedAt := 0 }]

def passwords (current newPassword : String) : Json :=
  .obj [("current_password", .str current), ("new_password", .str newPassword)]

def changeTo (newPassword : String) : PasswordRequest :=
  .changePassword (some "Bearer 1.0.ana@x.org") (passwords "password" newPassword)

/-- Ana changes her password, and logs in with the new one. -/
def anaMoves : Bool → PasswordRequest
  | true => changeTo "a new password"
  | false => .login (credentials "ana@x.org" "a new password")

/-- The login comes between the SELECT and the UPDATE of the change, and its own SELECT behind both. -/
theorem passwords_serialised_ana : ∃ s₀ s : RequestPool Bool, s₀.db = anaOnly ∧
    ([true, false].map fun i => (s.thread i).result.map (·.status)) = [some 200, some 200] ∧
    Serialised plainServices (fun _ => ⟨5, "r", 0⟩) anaMoves s₀ s := by
  let M := passwordPool plainServices (fun _ => ⟨5, "r", 0⟩) anaMoves
  let s₀ : RequestPool Bool := ⟨anaOnly, [], fun _ => .idle⟩
  let tr : List (PoolEvent Bool Tick) := [.start true, .answer true {}, .start false, .answer true {},
    .answer false {}, .answer false {}]
  let c : RequestPool Bool → PoolEvent Bool Tick → Bool := fun s e =>
    succeeds plainServices s e && stillVerified plainServices anaMoves s e
  obtain ⟨s, hexec, hstatus⟩ : ∃ s, M.exec c s₀ tr = some s ∧
      ([true, false].map fun i => (s.thread i).result.map (·.status)) = [some 200, some 200] :=
    Option.map_eq_some_iff.mp (by decide +kernel)
  have hrun : M.Run (fun s e => succeeds plainServices s e = true ∧
      stillVerified plainServices anaMoves s e = true) s₀ tr s :=
    (System.Run.of_exec hexec).mono fun s e h => by simpa [c] using h
  exact ⟨s₀, s, rfl, hstatus, passwords_serialised ⟨trivial, fun _ => rfl⟩ hrun⟩

/-! ### Two changes of one password -/

theorem plainServices_compare (salt : ℕ) (p q : String) :
    plainServices.compare p (plainServices.hash salt q) = true ↔ p = q := by
  have hdigits : ∀ c ∈ (toString salt).toList, c ≠ '$' := by
    intro c hc
    have hmem : c ∈ Nat.toDigits 10 salt := Nat.toList_repr ▸ hc
    have hdigit : c.isDigit = true := Nat.isDigit_of_mem_toDigits (by decide) (by decide) hmem
    rintro rfl
    cases hdigit
  have hrest : ((plainServices.hash salt q).toList.dropWhile (· ≠ '$')).tail = q.toList := by
    simp only [plainServices, String.toList_append]
    rw [List.append_assoc, List.dropWhile_append_of_pos (by simpa using hdigits)]
    rfl
  simp only [plainServices] at hrest ⊢
  rw [decide_eq_true_eq, hrest]
  exact ⟨fun h => (String.toList_inj.mp h).symm, fun h => by rw [h]⟩

def noon : NodeEnv := ⟨5, "r", 0⟩

theorem changeTo_handler {newPassword : String} (hlength : 8 ≤ jsLength newPassword) (token : String) :
    (changeTo newPassword).handler plainServices { noon with randomHex := token } =
      catch500 (query (.selectUser 1) >>=
        changeRest plainServices noon 1 (.str "password") newPassword) := by
  have hnoon : authenticate plainServices noon (some "Bearer 1.0.ana@x.org") = some ⟨1, "ana@x.org"⟩ := by
    decide +kernel
  have huser : authenticate plainServices { noon with randomHex := token } (some "Bearer 1.0.ana@x.org") =
      some ⟨1, "ana@x.org"⟩ := hnoon
  have hbody : postAuthChangePassword plainServices { noon with randomHex := token }
        (some "Bearer 1.0.ana@x.org") (passwords "password" newPassword) =
      catch500 (query (.selectUser 1) >>= changeRest plainServices { noon with randomHex := token } 1
        (.str "password") newPassword) := postAuthChangePassword_body huser rfl rfl rfl hlength
  exact hbody

def newPassword (first : Bool) : String := if first then "a new password" else "a second password"

def twoMoves (first : Bool) : PasswordRequest := changeTo (newPassword first)

theorem newPassword_fits (first : Bool) : 8 ≤ jsLength (newPassword first) ∧
    fits 255 (plainServices.hash 0 (newPassword first)) = true ∧ newPassword first ≠ "password" := by
  cases first <;> decide +kernel

theorem twoMoves_alone {t : ServerState} {e : SerialEvent Bool} {row : UserRow} {password : String}
    (husers : t.db.users = [row]) (hid : row.id = 1)
    (hhash : row.passwordHash = some (plainServices.hash 0 password)) (hfault : noFault t e) :
    (password = "password" → (alone plainServices (fun _ => noon) twoMoves t e).1.status = 200 ∧
      ∃ row' : UserRow, (alone plainServices (fun _ => noon) twoMoves t e).2.db.users = [row'] ∧ row'.id = 1 ∧
        row'.passwordHash = some (plainServices.hash 0 (newPassword e.index))) ∧
    (password ≠ "password" → (alone plainServices (fun _ => noon) twoMoves t e).1.status = 401 ∧
      (alone plainServices (fun _ => noon) twoMoves t e).2.db.users = [row]) := by
  obtain ⟨hlength, hfits, -⟩ := newPassword_fits e.index
  have hfound : row.passwordHash.filter (· ≠ "") = some (plainServices.hash 0 password) := by
    simp [hhash, plainServices]
  have hselect : execOk plainServices (e.tick 0) t.db (.selectUser 1) = .ok ([row], t.db) := by
    simp [execOk, selectUser, husers, hid]
  have halone : (alone plainServices (fun _ => noon) twoMoves t e).1 = _ ∧
      (alone plainServices (fun _ => noon) twoMoves t e).2.db = _ :=
    alone_first (changeTo_handler hlength e.randomHex) (hfault 0) hselect
  obtain ⟨hresponse, hdb⟩ := halone
  have hcompare := plainServices_compare 0 "password" password
  refine ⟨fun hold => ?_, fun hother => ?_⟩
  · have hverified : (twoMoves e.index).verifies plainServices [row] = true := by
      simp only [PasswordRequest.verifies, hfound]
      exact hcompare.mpr hold.symm
    let row' : UserRow :=
      { row with passwordHash := some (plainServices.hash 0 (newPassword e.index)), updatedAt := (e.tick 1).now }
    have hupdate : execOk plainServices (e.tick 1) t.db
        (.updatePasswordHash 1 (plainServices.hash 0 (newPassword e.index))) =
        .ok ((), { t.db with users := [row'] }) := by
      simp [execOk, updatePasswordHash, hfits, husers, hid, row']
    have hrun : (catch500 (query (.updatePasswordHash 1 (plainServices.hash 0 (newPassword e.index))) >>=
        fun _ => pure ⟨200, .success⟩)).run (exec plainServices) (fun n => e.tick (n + 1)) t.db t.cache =
        (⟨200, .success⟩, { t.db with users := [row'] }, t.cache) :=
      catch500_run_ok _ t.cache (hfault 1) hupdate
    have hrest : changeRest plainServices noon 1 (.str "password") (newPassword e.index) [row] = _ :=
      changeRest_verified rfl hverified
    rw [hrest] at hresponse hdb
    exact ⟨by rw [hresponse]; exact congrArg (·.1.status) hrun, row',
      by rw [hdb]; exact congrArg (·.2.1.users) hrun, hid, rfl⟩
  · have hrefused : catch500 (changeRest plainServices noon 1 (.str "password") (newPassword e.index) [row]) =
        .done (failure 401 "Current password is incorrect") := by
      have hwrong : plainServices.compare "password" (plainServices.hash 0 password) = false := by
        rw [Bool.eq_false_iff]
        exact fun h => hother (hcompare.mp h).symm
      simp only [changeRest, hfound, hwrong]
      rfl
    rw [hrefused] at hresponse hdb
    exact ⟨by rw [hresponse]; rfl, by rw [hdb]; exact husers⟩

/-- **One after the other, one of them succeeds.** -/
theorem twoMoves_serially {t : ServerState} {ds : List (SerialEvent Bool)}
    (h : (serially plainServices (fun _ => noon) twoMoves).Run noFault ⟨anaOnly, []⟩ ds t) :
    ∃ first, ∀ answer ∈ (serially plainServices (fun _ => noon) twoMoves).observe
      (statuses plainServices (fun _ => noon) twoMoves) ⟨anaOnly, []⟩ ds, answer.2 = 200 → answer.1 = first := by
  have hinv : ∃ (row : UserRow) (password : String), t.db.users = [row] ∧ row.id = 1 ∧
      row.passwordHash = some (plainServices.hash 0 password) ∧
      ((password = "password" ∧ (serially plainServices (fun _ => noon) twoMoves).observe
          (statuses plainServices (fun _ => noon) twoMoves) ⟨anaOnly, []⟩ ds = []) ∨
        (password ≠ "password" ∧ ∃ first, ∀ answer ∈ (serially plainServices (fun _ => noon) twoMoves).observe
          (statuses plainServices (fun _ => noon) twoMoves) ⟨anaOnly, []⟩ ds, answer.2 = 200 →
            answer.1 = first)) := by
    induction h with
    | nil => exact ⟨_, "password", rfl, rfl, by decide +kernel, .inl ⟨rfl, rfl⟩⟩
    | @snoc ds t t' e hrun hfault hstep ih =>
      obtain ⟨row, password, husers, hid, hhash, hanswers⟩ := ih
      obtain rfl := Option.some.inj hstep
      obtain ⟨hold, hother⟩ := twoMoves_alone husers hid hhash hfault
      rw [hrun.observe_snoc]
      rcases hanswers with ⟨rfl, hnone⟩ | ⟨hne, first, hfirst⟩
      · obtain ⟨hstatus, row', husers', hid', hhash'⟩ := hold rfl
        refine ⟨row', newPassword e.index, husers', hid', hhash',
          .inr ⟨(newPassword_fits e.index).2.2, e.index, fun answer hanswer _ => ?_⟩⟩
        rw [hnone] at hanswer
        obtain rfl : answer = _ := by simpa [statuses] using hanswer
        rfl
      · obtain ⟨hstatus, husers'⟩ := hother hne
        refine ⟨row, password, husers', hid, hhash, .inr ⟨hne, first, fun answer hanswer h200 => ?_⟩⟩
        rcases List.mem_append.mp hanswer with hanswer | hanswer
        · exact hfirst answer hanswer h200
        · obtain rfl : answer = _ := by simpa [statuses] using hanswer
          simp [hstatus] at h200
  obtain ⟨-, -, -, -, -, ⟨-, hnone⟩ | ⟨-, hfirst⟩⟩ := hinv
  · exact ⟨true, fun answer hanswer => by simp [hnone] at hanswer⟩
  · exact hfirst

/-- **Racing changes**: both verify the old password before either updates, and both succeed. -/
theorem racing_changes :
    ¬ ∀ (svc : Services) (ι : Type) [DecidableEq ι] (env : ι → NodeEnv) (req : ι → PasswordRequest)
        (s₀ s : RequestPool ι) (tr : List (PoolEvent ι Tick)),
        (∀ salt p q, svc.compare p (svc.hash salt q) = true ↔ p = q) → (passwordPool svc env req).Init s₀ →
        (passwordPool svc env req).Run (fun s e => succeeds svc s e = true) s₀ tr s →
        Serialised svc env req s₀ s := by
  intro hclaim
  let M := passwordPool plainServices (fun _ => noon) twoMoves
  let s₀ : RequestPool Bool := ⟨anaOnly, [], fun _ => .idle⟩
  let tr : List (PoolEvent Bool Tick) := [.start true, .start false, .answer true {}, .answer false {},
    .answer true {}, .answer false {}]
  obtain ⟨s, hexec, hstatus⟩ : ∃ s, M.exec (succeeds plainServices) s₀ tr = some s ∧
      ([true, false].map fun i => (s.thread i).result.map (·.status)) = [some 200, some 200] :=
    Option.map_eq_some_iff.mp (by decide +kernel)
  obtain ⟨ds, t, hrun, -, -, hanswers, -⟩ := hclaim plainServices Bool (fun _ => noon) twoMoves s₀ s tr
    plainServices_compare ⟨trivial, fun _ => rfl⟩ (.of_exec hexec)
  obtain ⟨htrue, hfalse⟩ : (s.thread true).result.map (·.status) = some 200 ∧
      (s.thread false).result.map (·.status) = some 200 := by simpa using hstatus
  obtain ⟨r, hr, hr200⟩ := Option.map_eq_some_iff.mp htrue
  obtain ⟨r', hr', hr'200⟩ := Option.map_eq_some_iff.mp hfalse
  obtain ⟨first, hfirst⟩ := twoMoves_serially hrun
  have hboth : true = false :=
    (hfirst _ (hanswers true r hr) hr200).trans (hfirst _ (hanswers false r' hr') hr'200).symm
  cases hboth

end Locus.Server
