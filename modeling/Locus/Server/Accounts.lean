import Locus.Server.Api
import Mathlib.Data.Fintype.EquivFin

/-!
# Accounts without a password

The routes that make accounts and log in, one request after the other. `POST /api/users/register` makes a
row without a password. No route gives it one: `POST /auth/register` refuses a known email, and
`POST /auth/change-password` refuses an account without a password. So the email is lost, although
`POST /auth/login` answers to use the registration instead (`usable_iff`).
-/

namespace Locus.Server

open Lib (Prog System)

/-! ### Requests, and what they run into -/

def credentials (email password : String) : Json :=
  .obj [("email", .str email), ("password", .str password)]

/-- The answer of `POST /auth/login` for an account without a password. -/
def useRegistration : Response :=
  failure 401 "Use registration instead. This account has no password set."

/-- `!row.password_hash` -/
def UserRow.passwordless (row : UserRow) : Bool := (row.passwordHash.filter (· ≠ "")).isNone

def Passwordless (db : Db) (email : String) : Prop :=
  ∃ row ∈ db.users, row.email = email ∧ row.passwordless

/-- Nothing fails from outside, and what is drawn at random is new. -/
structure Quiet (db : Db) (env : NodeEnv) (x : ℕ → Tick) : Prop where
  fault : ∀ n, (x n).fault = none
  userId : ∀ n, ∀ row ∈ db.users, row.id ≠ (x n).uuid
  tokenId : ∀ n, ∀ row ∈ db.refreshTokens, row.id ≠ (x n).uuid
  token : ∀ row ∈ db.refreshTokens, row.token ≠ env.randomHex

theorem exists_quiet (db : Db) (now : Time) (salt : ℕ) :
    ∃ (env : NodeEnv) (x : ℕ → Tick), env.now = now ∧ env.salt = salt ∧ Quiet db env x := by
  obtain ⟨uuid, huuid⟩ := Infinite.exists_notMem_finset
    (db.users.map (·.id) ++ db.refreshTokens.map (·.id)).toFinset
  obtain ⟨token, htoken⟩ := Infinite.exists_notMem_finset (db.refreshTokens.map (·.token)).toFinset
  simp only [List.mem_toFinset, List.mem_append, List.mem_map, not_or, not_exists, not_and] at huuid htoken
  exact ⟨⟨now, token, salt⟩, fun _ => { uuid }, rfl, rfl, fun _ => rfl, fun _ => huuid.1, fun _ => huuid.2,
    htoken⟩

theorem createTokens_run {svc : Services} {env : NodeEnv} {x : ℕ → Tick} {db : Db} {userId : Uuid}
    (email : String) (answer : String × String → Response) (cache : Cache) (hfault : (x 0).fault = none)
    (hid : ∀ row ∈ db.refreshTokens, row.id ≠ (x 0).uuid)
    (htoken : ∀ row ∈ db.refreshTokens, row.token ≠ env.randomHex)
    (huser : ∃ user ∈ db.users, user.id = userId) :
    (catch500 (createTokens svc env userId email >>= fun t => pure (answer t))).run (exec svc) x db cache =
      (answer (svc.sign ⟨userId, email⟩ env.now, env.randomHex), { db with refreshTokens := db.refreshTokens ++
        [{ id := (x 0).uuid, userId, token := env.randomHex, expiresAt := env.now + refreshTokenTtl,
           createdAt := (x 0).now }] }, cache) := by
  have hid' : db.refreshTokens.any (·.id = (x 0).uuid) = false := by simpa using hid
  have htoken' : db.refreshTokens.any (·.token = env.randomHex) = false := by simpa using htoken
  have huser' : db.users.any (·.id = userId) = true := by simpa using huser
  rw [createTokens_bind]
  refine catch500_run_ok (q := .insertRefreshToken ..) (a := ()) _ cache hfault ?_
  simp [execOk, insertRefreshToken, hid', htoken', huser']

/-! ### Login and registration -/

section
variable {svc : Services} {s : ServerState} {env : NodeEnv} {x : ℕ → Tick} {email password : String}

/-- `POST /auth/login` behind its SELECT. -/
def loginRest (svc : Services) (env : NodeEnv) (password : Json) : List UserRow → HandlerM Response
  | [] => pure (failure 401 "Invalid email or password")
  | user :: _ =>
    match user.passwordHash.filter (· ≠ "") with
    | none => pure useRegistration
    | some hash =>
      match password with
      | .str password =>
        if !svc.compare password hash then pure (failure 401 "Invalid email or password")
        else createTokens svc env user.id user.email >>= fun t =>
          pure ⟨200, .session (userRowToProfile user) t.1 t.2⟩
      | v => throw (.js ("Illegal arguments: " ++ typeOf v ++ ", string"))

theorem postAuthLogin_body {body : Json} {p : Json} (he : body.field? "email" = some (.str email))
    (hp : body.field? "password" = some p) (hemail : email ≠ "") (hpassword : p.truthy = true) :
    postAuthLogin svc env body =
      catch500 (query (.selectUserByEmail (jsTrim email)) >>= loginRest svc env p) := by
  have htruthy : (!(Json.str email).truthy || !p.truthy) = false := by
    rw [hpassword]
    simp [Json.truthy, hemail]
  simp only [postAuthLogin, he, hp, htruthy]
  refine congrArg (fun f => catch500 (query (.selectUserByEmail (jsTrim email)) >>= f)) ?_
  funext rows
  cases rows with
  | nil => rfl
  | cons user rest =>
    dsimp only [loginRest]
    generalize user.passwordHash.filter (· ≠ "") = found
    cases found with
    | none => rfl
    | some hash =>
      cases p with
      | str password => cases svc.compare password hash <;> rfl
      | _ => rfl

theorem postAuthLogin_credentials (hemail : email ≠ "") (hpassword : password ≠ "") :
    postAuthLogin svc env (credentials email password) =
      catch500 (query (.selectUserByEmail (jsTrim email)) >>= loginRest svc env (.str password)) :=
  postAuthLogin_body rfl rfl hemail (decide_eq_true hpassword)

theorem postAuthLogin_empty (h : email = "" ∨ password = "") :
    postAuthLogin svc env (credentials email password) =
      .done (failure 400 "email and password required") := by
  have htruthy : (!(Json.str email).truthy || !(Json.str password).truthy) = true := by
    rcases h with rfl | rfl <;> simp [Json.truthy]
  change (if (!(Json.str email).truthy || !(Json.str password).truthy) = true then _ else _) = _
  rw [if_pos htruthy]

/-- A login is told to use the registration only for an account without a password. -/
theorem passwordless_of_useRegistration (hemail : email ≠ "") (hpassword : password ≠ "")
    (h : (serve svc s (.postAuthLogin (credentials email password)) env x).1 = useRegistration) :
    Passwordless s.db (jsTrim email) := by
  have hstatus : ∀ r : Response, r = useRegistration → r.status = 401 := by
    rintro _ rfl
    rfl
  change ((postAuthLogin svc env (credentials email password)).run (exec svc) x s.db s.cache).1 = _ at h
  rw [postAuthLogin_credentials hemail hpassword] at h
  revert h
  refine catch500_run (P := fun out _ => out.1 = useRegistration → Passwordless s.db (jsTrim email))
    (fun rows db' hrows h => ?_) fun e _ h => absurd (hstatus _ h) (by simp [failure])
  cases hrows
  cases hfound : selectUserByEmail s.db (jsTrim email) with
  | nil =>
    rw [hfound, loginRest, catch500_pure_run] at h
    simp [useRegistration, failure] at h
  | cons user rest =>
    have huser : user ∈ s.db.users ∧ user.email = jsTrim email := by
      have hmem : user ∈ selectUserByEmail s.db (jsTrim email) := hfound ▸ List.mem_cons_self
      exact ⟨(List.mem_filter.mp hmem).1, of_decide_eq_true (List.mem_filter.mp hmem).2⟩
    rw [hfound, loginRest] at h
    cases hhash : user.passwordHash.filter (· ≠ "") with
    | none => exact ⟨user, huser.1, huser.2, by rw [UserRow.passwordless, hhash]; rfl⟩
    | some hash =>
      rw [hhash] at h
      dsimp only at h
      split at h
      · rw [catch500_pure_run] at h
        simp [useRegistration, failure] at h
      · rw [createTokens_bind] at h
        revert h
        refine catch500_run (P := fun out _ => out.1 = useRegistration → Passwordless s.db (jsTrim email))
          (fun _ _ _ h => ?_) fun e _ h => absurd (hstatus _ h) (by simp [failure])
        exact absurd (hstatus _ h) (by simp [catch500_pure_run])

theorem filter_of_nodup_map {α β : Type} [DecidableEq β] {key : α → β} {rows : List α}
    (h : (rows.map key).Nodup) {row : α} (hrow : row ∈ rows) :
    rows.filter (fun r => key r = key row) = [row] := by
  induction rows with
  | nil => cases hrow
  | cons first rest ih =>
    rw [List.map_cons, List.nodup_cons] at h
    by_cases hfirst : key first = key row
    · have hrest : rest.filter (fun r => key r = key row) = [] := by
        refine List.filter_eq_nil_iff.mpr fun r hr hkey => h.1 ?_
        rw [hfirst, ← of_decide_eq_true hkey]
        exact List.mem_map_of_mem hr
      rw [List.filter_cons_of_pos (by simpa using hfirst), hrest]
      rcases List.mem_cons.mp hrow with rfl | hmem
      · rfl
      · exact absurd (hfirst ▸ List.mem_map_of_mem hmem) h.1
    · rcases List.mem_cons.mp hrow with rfl | hmem
      · exact absurd rfl hfirst
      · rw [List.filter_cons_of_neg (by simpa using hfirst)]
        exact ih h.2 hmem

theorem login_refused (hnodup : (s.db.users.map (·.email)).Nodup) (h : Passwordless s.db (jsTrim email)) :
    (serve svc s (.postAuthLogin (credentials email password)) env x).1.status ≠ 200 := by
  change ((postAuthLogin svc env (credentials email password)).run (exec svc) x s.db s.cache).1.status ≠ 200
  by_cases hempty : email = "" ∨ password = ""
  · rw [postAuthLogin_empty hempty]
    simp [Prog.run, failure]
  rw [not_or] at hempty
  rw [postAuthLogin_credentials hempty.1 hempty.2]
  refine catch500_run (P := fun out _ => out.1.status ≠ 200) (fun rows db' hrows => ?_) fun e _ => by
    simp [failure]
  obtain ⟨row, hrow, hre, hpasswordless⟩ := h
  have hselect : selectUserByEmail s.db (jsTrim email) = [row] := hre ▸ filter_of_nodup_map hnodup hrow
  rw [execOk, hselect] at hrows
  cases hrows
  rw [loginRest, Option.isNone_iff_eq_none.mp hpasswordless, catch500_pure_run]
  simp [useRegistration, failure]

theorem execOk_selectUserByEmail {tick : Tick} {db : Db} {rows : List UserRow}
    (h : selectUserByEmail db (jsTrim email) = rows) :
    execOk svc tick db (.selectUserByEmail (jsTrim email)) = .ok (rows, db) := by
  rw [execOk, h]

/-- The login of an account without a password is told to use the registration. -/
theorem login_passwordless (hemail : email ≠ "") (hpassword : password ≠ "") (hfault : (x 0).fault = none)
    (hnodup : (s.db.users.map (·.email)).Nodup) (h : Passwordless s.db (jsTrim email)) :
    serve svc s (.postAuthLogin (credentials email password)) env x = (useRegistration, s) := by
  obtain ⟨row, hrow, hre, hpasswordless⟩ := h
  have hselect : selectUserByEmail s.db (jsTrim email) = [row] := hre ▸ filter_of_nodup_map hnodup hrow
  refine serve_of_run (r := .postAuthLogin (credentials email password)) ?_
  rw [ApiRequest.handler, postAuthLogin_credentials hemail hpassword,
    catch500_run_ok _ s.cache hfault (execOk_selectUserByEmail hselect), loginRest,
    Option.isNone_iff_eq_none.mp hpasswordless]
  rfl

theorem login_succeeds (hemail : email ≠ "") (hpassword : password ≠ "") (hquiet : Quiet s.db env x)
    {row : UserRow} {rest : List UserRow} {hash : String}
    (hselect : selectUserByEmail s.db (jsTrim email) = row :: rest)
    (hhash : row.passwordHash.filter (· ≠ "") = some hash) (hcompare : svc.compare password hash = true) :
    (serve svc s (.postAuthLogin (credentials email password)) env x).1.status = 200 := by
  have hrow : row ∈ s.db.users :=
    (List.mem_filter.mp (hselect ▸ List.mem_cons_self : row ∈ selectUserByEmail s.db (jsTrim email))).1
  change ((postAuthLogin svc env (credentials email password)).run (exec svc) x s.db s.cache).1.status = 200
  rw [postAuthLogin_credentials hemail hpassword,
    catch500_run_ok _ s.cache (hquiet.fault 0) (execOk_selectUserByEmail hselect),
    loginRest, hhash]
  dsimp only
  rw [if_neg (by simp [hcompare]), createTokens_run row.email _ s.cache (hquiet.fault 1) (hquiet.tokenId 1)
    hquiet.token ⟨row, hrow, rfl⟩]

/-! #### Registration -/

/-- `POST /auth/register` behind its INSERT. -/
def registerRest (svc : Services) (env : NodeEnv) : List UserRow → HandlerM Response
  | [] => pure (failure 400 "An account with this email already exists.")
  | user :: _ => createTokens svc env user.id user.email >>= fun t =>
    pure ⟨201, .session (userRowToProfile user) t.1 t.2⟩

theorem postAuthRegister_body {body : Json} (he : body.field? "email" = some (.str email))
    (hp : body.field? "password" = some (.str password)) (hemail : email ≠ "")
    (hpassword : 8 ≤ jsLength password) :
    postAuthRegister svc env body =
      catch500 (coerced (trimmedName (body.field? "name")) >>= fun name =>
        query (.insertUser (jsTrim email) (name.filter (· ≠ "")) (some (svc.hash env.salt password))) >>=
          registerRest svc env) := by
  have hne : password ≠ "" := by
    rintro rfl
    exact absurd hpassword (by decide)
  have hfields : nonEmptyString (body.field? "email") = some email ∧
      nonEmptyString (body.field? "password") = some password := by
    rw [he, hp]
    exact ⟨if_neg hemail, if_neg hne⟩
  rw [postAuthRegister]
  simp only [hfields.1, hfields.2]
  rw [if_neg (by omega)]
  refine congrArg (fun f => catch500 (coerced _ >>= f)) ?_
  funext name
  refine congrArg (fun f => query (.insertUser (jsTrim email) _ _) >>= f) ?_
  funext rows
  cases rows <;> rfl

theorem register_body_known {body : Json} (he : body.field? "email" = some (.str email))
    (hp : body.field? "password" = some (.str password)) (hemail : email ≠ "")
    (hpassword : 8 ≤ jsLength password) (h : ∃ row ∈ s.db.users, row.email = jsTrim email) :
    (serve svc s (.postAuthRegister body) env x).1 =
        failure 400 "An account with this email already exists." ∨
      ∃ error, (serve svc s (.postAuthRegister body) env x).1 = failure 500 error := by
  change ((postAuthRegister svc env body).run (exec svc) x s.db s.cache).1 = _ ∨
    ∃ error, ((postAuthRegister svc env body).run (exec svc) x s.db s.cache).1 = _
  rw [postAuthRegister_body he hp hemail hpassword]
  refine catch500_coerced (P := fun p => (p.run (exec svc) x s.db s.cache).1 =
      failure 400 "An account with this email already exists." ∨
    ∃ error, (p.run (exec svc) x s.db s.cache).1 = failure 500 error) (.inr ⟨_, rfl⟩) fun name _ => ?_
  refine catch500_run (P := fun out _ => out.1 = failure 400 "An account with this email already exists." ∨
    ∃ error, out.1 = failure 500 error) (fun rows db' hrows => ?_) fun e _ => .inr ⟨e.message, rfl⟩
  have hany : s.db.users.any (·.email = jsTrim email) = true := by simpa using h
  rw [execOk, insertUser, hany] at hrows
  split at hrows
  · cases hrows
  · cases hrows
    exact .inl rfl

theorem register_known (hemail : email ≠ "") (hpassword : 8 ≤ jsLength password)
    (h : ∃ row ∈ s.db.users, row.email = jsTrim email) :
    (serve svc s (.postAuthRegister (credentials email password)) env x).1.status ≠ 201 := by
  have hknown : (serve svc s (.postAuthRegister (credentials email password)) env x).1 = _ ∨ ∃ error, _ = _ :=
    register_body_known rfl rfl hemail hpassword h
  rcases hknown with hanswer | ⟨error, hanswer⟩
  · rw [hanswer]
    decide
  · rw [hanswer]
    exact (by decide : (500 : ℕ) ≠ 201)

theorem register_body_succeeds {body : Json} (he : body.field? "email" = some (.str email))
    (hp : body.field? "password" = some (.str password)) (hemail : email ≠ "")
    (hpassword : 8 ≤ jsLength password) (hfits : fits 255 (jsTrim email) = true)
    {name : Option String} (htrimmed : trimmedName (body.field? "name") = some name)
    (hname : fitsOpt 255 (name.filter (· ≠ "")) = true)
    (hhash : fits 255 (svc.hash env.salt password) = true)
    (hquiet : Quiet s.db env x) (hnew : ∀ row ∈ s.db.users, row.email ≠ jsTrim email) :
    (serve svc s (.postAuthRegister body) env x).1.status = 201 ∧
    ∃ row : UserRow, row.email = jsTrim email ∧ row.passwordHash = some (svc.hash env.salt password) ∧
      (serve svc s (.postAuthRegister body) env x).2.db.users = s.db.users ++ [row] := by
  let row : UserRow :=
    { id := (x 0).uuid, email := jsTrim email, name := name.filter (· ≠ ""),
      passwordHash := some (svc.hash env.salt password), createdAt := (x 0).now, updatedAt := (x 0).now }
  have hany : s.db.users.any (·.email = jsTrim email) = false := by simpa using hnew
  have hid : s.db.users.any (·.id = (x 0).uuid) = false := by simpa using hquiet.userId 0
  have hhash' : fitsOpt 255 (some (svc.hash env.salt password)) = true := hhash
  have hinsert : execOk svc (x 0) s.db (.insertUser (jsTrim email) (name.filter (· ≠ ""))
      (some (svc.hash env.salt password))) = .ok ([row], { s.db with users := s.db.users ++ [row] }) := by
    rw [execOk, insertUser, hfits, hname, hhash', hany, hid]
    rfl
  have huser : ∃ user ∈ s.db.users ++ [row], user.id = row.id := ⟨row, by simp, rfl⟩
  have hrun : (catch500 (createTokens svc env row.id row.email >>= fun t =>
        pure ⟨201, .session (userRowToProfile row) t.1 t.2⟩)).run (exec svc) (fun n => x (n + 1))
        { s.db with users := s.db.users ++ [row] } s.cache = _ :=
    createTokens_run row.email (fun t => ⟨201, .session (userRowToProfile row) t.1 t.2⟩) s.cache
      (hquiet.fault 1) (hquiet.tokenId 1) hquiet.token huser
  have hbody : postAuthRegister svc env body = _ := postAuthRegister_body he hp hemail hpassword
  rw [htrimmed] at hbody
  have hserve : (postAuthRegister svc env body).run (exec svc) x s.db s.cache = _ :=
    (congrArg (fun p : Handler => p.run (exec svc) x s.db s.cache) hbody).trans
      ((catch500_run_ok (registerRest svc env) s.cache (hquiet.fault 0) hinsert).trans hrun)
  rw [serve_of_run (r := .postAuthRegister body) hserve]
  exact ⟨rfl, row, rfl, rfl, rfl⟩

theorem register_succeeds (hemail : email ≠ "") (hpassword : 8 ≤ jsLength password)
    (hfits : fits 255 (jsTrim email) = true) (hhash : fits 255 (svc.hash env.salt password) = true)
    (hquiet : Quiet s.db env x) (hnew : ∀ row ∈ s.db.users, row.email ≠ jsTrim email) :
    (serve svc s (.postAuthRegister (credentials email password)) env x).1.status = 201 ∧
    ∃ row : UserRow, row.email = jsTrim email ∧ row.passwordHash = some (svc.hash env.salt password) ∧
      (serve svc s (.postAuthRegister (credentials email password)) env x).2.db.users = s.db.users ++ [row] :=
  register_body_succeeds rfl rfl hemail hpassword hfits rfl rfl hhash hquiet hnew

end

/-! ### The accounts over a run -/

/-- Emails and ids are unique, and a hash is that of a password of at least 8 characters. -/
structure AccountsKept (svc : Services) (db : Db) : Prop where
  emails : (db.users.map (·.email)).Nodup
  ids : (db.users.map (·.id)).Nodup
  hashes : ∀ row ∈ db.users, ∀ hash, row.passwordHash = some hash →
    ∃ salt password, 8 ≤ jsLength password ∧ hash = svc.hash salt password

/-- What a statement of a request does to `users`: nothing, a new account, or a new password. -/
theorem exec_users {svc : Services} {env : NodeEnv} {r : ApiRequest} {q : Stmt} (tick : Tick) (db : Db)
    (hq : q.SentBy svc env r) : (exec svc tick db q).2.users = db.users ∨
      (∃ row : UserRow, (exec svc tick db q).2.users = db.users ++ [row] ∧
        (∀ r ∈ db.users, r.email ≠ row.email) ∧ (∀ r ∈ db.users, r.id ≠ row.id) ∧
        ∀ hash, row.passwordHash = some hash →
          ∃ password, 8 ≤ jsLength password ∧ hash = svc.hash env.salt password) ∨
      ∃ id password, q = .updatePasswordHash id (svc.hash env.salt password) ∧ 8 ≤ jsLength password ∧
        (exec svc tick db q).2.users = db.users.map fun u =>
          if u.id = id then { u with passwordHash := some (svc.hash env.salt password),
                                     updatedAt := tick.now } else u := by
  obtain ⟨a, db', hok, hexec⟩ | ⟨e, hexec, -⟩ := exec_cases svc tick db q
  swap
  · rw [hexec]
    exact .inl rfl
  rw [hexec]
  have hframe := execOk_frame hok
  cases q with
  | insertUser email name hash =>
    rw [execOk, insertUser] at hok
    split_ifs at hok with _ hemail hid
    · cases hok
      exact .inl rfl
    · cases hok
      refine .inr (.inl ⟨_, rfl, by simpa using hemail, by simpa using hid, fun h hh => ?_⟩)
      obtain ⟨-, -, rfl⟩ | ⟨-, password, -, hlength, rfl⟩ := hq
      · cases hh
      · cases hh
        exact ⟨password, hlength, rfl⟩
  | updatePasswordHash id hash =>
    obtain ⟨-, -, password, -, -, hlength, rfl⟩ := hq
    rw [execOk, updatePasswordHash] at hok
    split_ifs at hok
    cases hok
    exact .inr (.inr ⟨id, password, rfl, hlength, rfl⟩)
  | insertRefreshToken | deleteRefreshToken | insertCommunity | insertMember | insertMemberOnConflict
  | incrementMemberCount | insertProperty | insertVote | upsertVoteCast | readNotification
  | readAllNotifications =>
    obtain ⟨_, rfl⟩ := hframe
    exact .inl rfl
  | updateUser => exact hq.elim
  | _ =>
    obtain rfl := hframe
    exact .inl rfl

theorem accountsKept_exec {svc : Services} {env : NodeEnv} {r : ApiRequest} {tick : Tick} {db : Db}
    {q : Stmt} (hq : q.SentBy svc env r) (h : AccountsKept svc db) :
    AccountsKept svc (exec svc tick db q).2 := by
  obtain husers | ⟨row, husers, hemail, hid, hhash⟩ | ⟨id, password, -, hlength, husers⟩ := exec_users tick db hq
  · exact ⟨husers ▸ h.emails, husers ▸ h.ids, husers ▸ h.hashes⟩
  · refine ⟨?_, ?_, ?_⟩
    · rw [husers, List.map_append, List.nodup_append]
      refine ⟨h.emails, List.nodup_singleton _, ?_⟩
      simpa using hemail
    · rw [husers, List.map_append, List.nodup_append]
      refine ⟨h.ids, List.nodup_singleton _, ?_⟩
      simpa using hid
    · rw [husers]
      intro r hr hash hh
      rcases List.mem_append.mp hr with hr | hr
      · exact h.hashes r hr hash hh
      · rw [List.mem_singleton.mp hr] at hh
        exact ⟨env.salt, hhash hash hh⟩
  · have hkeep : ∀ {β : Type} (f : UserRow → β), (∀ (u : UserRow) (p : Option String) (t : Time),
        f { u with passwordHash := p, updatedAt := t } = f u) →
        (exec svc tick db q).2.users.map f = db.users.map f := by
      intro β f hf
      rw [husers, List.map_map]
      refine List.map_congr_left fun u _ => ?_
      dsimp only [Function.comp]
      split
      · exact hf ..
      · rfl
    refine ⟨?_, ?_, ?_⟩
    · rw [hkeep (·.email) fun _ _ _ => rfl]
      exact h.emails
    · rw [hkeep (·.id) fun _ _ _ => rfl]
      exact h.ids
    · rw [husers]
      intro r hr hash hh
      obtain ⟨u, hu, rfl⟩ := List.mem_map.mp hr
      split at hh
      · cases hh
        exact ⟨env.salt, password, hlength, rfl⟩
      · exact h.hashes u hu hash hh

theorem accountsKept_serve {svc : Services} {s : ServerState} {r : ApiRequest} {env : NodeEnv}
    {x : ℕ → Tick} (h : AccountsKept svc s.db) : AccountsKept svc (serve svc s r env x).2.db :=
  Prog.Sends.run (I := AccountsKept svc) (handler_sends svc env r) (fun _ _ _ hq hdb => accountsKept_exec hq hdb) h

theorem passwordless_exec {svc : Services} {env : NodeEnv} {r : ApiRequest} {tick : Tick} {db : Db}
    {q : Stmt} {email : String} (hq : q.SentBy svc env r) (hno : ∀ id hash, q ≠ .updatePasswordHash id hash)
    (h : Passwordless db email) : Passwordless (exec svc tick db q).2 email := by
  obtain ⟨row, hrow, hp⟩ := h
  obtain husers | ⟨row', husers, -⟩ | ⟨id, password, hupdate, -⟩ := exec_users tick db hq
  · exact ⟨row, husers ▸ hrow, hp⟩
  · exact ⟨row, husers ▸ List.mem_append_left _ hrow, hp⟩
  · exact absurd hupdate (hno _ _)

/-- `POST /auth/change-password` gives no password to an account without one. -/
theorem passwordless_changePassword {svc : Services} {s : ServerState} {env : NodeEnv} {x : ℕ → Tick}
    {authorization : Option String} {body : Json} {email : String} (hids : (s.db.users.map (·.id)).Nodup)
    (h : Passwordless s.db email) :
    Passwordless ((postAuthChangePassword svc env authorization body).run (exec svc) x s.db s.cache).2.1
      email := by
  refine authMiddleware_induction
    (P := fun p => Passwordless (p.run (exec svc) x s.db s.cache).2.1 email) svc env authorization
    (fun _ => h) fun user => ?_
  split
  swap
  · exact h
  split
  · exact h
  split
  swap
  · exact h
  split
  · exact h
  refine catch500_run (P := fun out _ => Passwordless out.2.1 email) (fun rows db' hrows => ?_) fun _ _ => h
  cases hrows
  cases hfound : selectUser s.db user.id with
  | nil => exact h
  | cons row rest =>
    dsimp only
    split
    · exact h
    rename_i hash hhash
    split
    swap
    · exact h
    split
    · exact h
    refine catch500_run (P := fun out _ => Passwordless out.2.1 email) (fun _ db' hok => ?_) fun _ _ => h
    rw [execOk, updatePasswordHash] at hok
    split_ifs at hok
    cases hok
    obtain ⟨row₀, hrow₀, hemail, hp⟩ := h
    refine ⟨row₀, ?_, hemail, hp⟩
    rw [catch500_pure_run]
    refine List.mem_map.mpr ⟨row₀, hrow₀, if_neg fun hid => ?_⟩
    -- the row that the SELECT found would be this one
    have hone : selectUser s.db user.id = [row₀] := hid ▸ filter_of_nodup_map hids hrow₀
    rw [hfound] at hone
    cases hone
    rw [UserRow.passwordless, hhash] at hp
    cases hp

theorem passwordless_serve {svc : Services} {s : ServerState} {r : ApiRequest} {env : NodeEnv}
    {x : ℕ → Tick} {email : String} (hids : (s.db.users.map (·.id)).Nodup) (h : Passwordless s.db email) :
    Passwordless (serve svc s r env x).2.db email := by
  by_cases hr : ∃ authorization body, r = .postAuthChangePassword authorization body
  · obtain ⟨authorization, body, rfl⟩ := hr
    exact passwordless_changePassword hids h
  · refine Prog.Sends.run (I := fun db => Passwordless db email) (handler_sends svc env r)
      (fun tick db q hq hdb => passwordless_exec hq ?_ hdb) h
    rintro id hash rfl
    obtain ⟨authorization, body, -, hreq, -⟩ := hq
    exact hr ⟨authorization, body, hreq⟩

/-! ### Who can use an account -/

def requestsOnly (_ : ServerState) : ServerEvent → Bool
  | .request .. => true
  | .elsewhere _ => false

/-- Whoever is told by a login to use the registration can do so: if nothing fails from outside, the
registration with any password of at least 8 characters answers 201, and then the login with that password
answers 200. -/
def RegistrationHelps (svc : Services) (s : ServerState) (email : String) : Prop :=
  ∀ (tried : String) (env : NodeEnv) (x : ℕ → Tick), tried ≠ "" →
    (serve svc s (.postAuthLogin (credentials email tried)) env x).1 = useRegistration →
    ∀ (password : String) (env' : NodeEnv) (x' : ℕ → Tick), 8 ≤ jsLength password →
      Quiet (serve svc s (.postAuthLogin (credentials email tried)) env x).2.db env' x' →
      let out := serve svc (serve svc s (.postAuthLogin (credentials email tried)) env x).2
        (.postAuthRegister (credentials email password)) env' x'
      out.1.status = 201 ∧ ∀ env'' x'', Quiet out.2.db env'' x'' →
        (serve svc out.2 (.postAuthLogin (credentials email password)) env'' x'').1.status = 200

/-- Some sequence of requests leads to a login with the email, if it is one that `users` can hold. -/
def Recoverable (svc : Services) (s : ServerState) (email : String) : Prop :=
  email ≠ "" → fits 255 (jsTrim email) → ∃ tr s' password env x,
    (server svc).Run (fun s e => requestsOnly s e) s tr s' ∧
    (serve svc s' (.postAuthLogin (credentials email password)) env x).1.status = 200

/-- What is documented of bcrypt: a password matches its hash, which has 60 characters. -/
structure Bcrypt (svc : Services) : Prop where
  compare_hash : ∀ salt password, svc.compare password (svc.hash salt password) = true
  length_hash : ∀ salt password, (svc.hash salt password).length = 60

theorem Bcrypt.fits {svc : Services} (h : Bcrypt svc) (salt : ℕ) (password : String) :
    fits 255 (svc.hash salt password) = true := by
  simp [Server.fits, h.length_hash]

theorem Bcrypt.filter {svc : Services} (h : Bcrypt svc) (salt : ℕ) (password : String) :
    (some (svc.hash salt password)).filter (· ≠ "") = some (svc.hash salt password) := by
  have hne : svc.hash salt password ≠ "" := by
    intro hempty
    have hlength := h.length_hash salt password
    rw [hempty] at hlength
    cases hlength
  simp [Option.filter, hne]

theorem accountsKept {svc : Services} {s : ServerState}
    (h : (server svc).Reachable (fun s e => requestsOnly s e) s) : AccountsKept svc s.db := by
  refine h.invariant (fun s => AccountsKept svc s.db) ?_ fun s e s' hs hC hstep => ?_
  · rintro s rfl
    exact ⟨List.nodup_nil, List.nodup_nil, List.forall_mem_nil _⟩
  · cases e with
    | request r env x =>
      cases hstep
      exact accountsKept_serve hs
    | elsewhere users => cases hC

theorem recoverable {svc : Services} (hbcrypt : Bcrypt svc) {s : ServerState} (hs : AccountsKept svc s.db)
    {email : String} (h : ¬ Passwordless s.db (jsTrim email)) : Recoverable svc s email := by
  intro hemail hfits
  by_cases hrow : ∃ row ∈ s.db.users, row.email = jsTrim email
  · -- the account's password is that of its hash
    obtain ⟨row, hrow, hre⟩ := hrow
    have hselect : selectUserByEmail s.db (jsTrim email) = [row] :=
      hre ▸ filter_of_nodup_map hs.emails hrow
    cases hhash : row.passwordHash with
    | none => exact absurd ⟨row, hrow, hre, by rw [UserRow.passwordless, hhash]; rfl⟩ h
    | some hash =>
      obtain ⟨salt, password, hlength, rfl⟩ := hs.hashes row hrow hash hhash
      obtain ⟨env, x, -, -, hquiet⟩ := exists_quiet s.db 0 0
      refine ⟨[], s, password, env, x, .nil, ?_⟩
      have hfilter : row.passwordHash.filter (· ≠ "") = some (svc.hash salt password) := by
        rw [hhash, hbcrypt.filter]
      refine login_succeeds hemail ?_ hquiet hselect hfilter (hbcrypt.compare_hash ..)
      rintro rfl
      exact absurd hlength (by decide)
  · -- the email is free
    obtain ⟨env, x, -, -, hquiet⟩ := exists_quiet s.db 0 0
    have hlength : 8 ≤ jsLength "password" := by decide
    obtain ⟨-, row, hre, hhash, husers⟩ := register_succeeds hemail hlength hfits
      (hbcrypt.fits env.salt "password") hquiet fun row hrow' hre => hrow ⟨row, hrow', hre⟩
    obtain ⟨env', x', -, -, hquiet'⟩ := exists_quiet
      (serve svc s (.postAuthRegister (credentials email "password")) env x).2.db 0 0
    refine ⟨[.request (.postAuthRegister (credentials email "password")) env x], _, "password", env', x',
      .single (M := server svc) rfl rfl, ?_⟩
    have hselect : selectUserByEmail
        (serve svc s (.postAuthRegister (credentials email "password")) env x).2.db (jsTrim email) = [row] := by
      have hnone : s.db.users.filter (fun r => r.email = jsTrim email) = [] :=
        List.filter_eq_nil_iff.mpr fun r hr hre => hrow ⟨r, hr, of_decide_eq_true hre⟩
      rw [selectUserByEmail, husers, List.filter_append, hnone]
      simp [hre]
    have hfilter : row.passwordHash.filter (· ≠ "") = some (svc.hash env.salt "password") := by
      rw [hhash, hbcrypt.filter]
    exact login_succeeds hemail (by decide) hquiet' hselect hfilter (hbcrypt.compare_hash ..)

/-- **An account is usable if and only if it has a password**: in every state that requests lead to, the advice
of a login helps and some requests lead to a login, exactly for the emails without an account that lacks its
password. For the others no requests ever lead to a login. -/
theorem usable_iff {svc : Services} (hbcrypt : Bcrypt svc) {s : ServerState}
    (h : (server svc).Reachable (fun s e => requestsOnly s e) s) (email : String) :
    ((RegistrationHelps svc s email ∧ Recoverable svc s email) ↔
      email = "" ∨ ¬ Passwordless s.db (jsTrim email)) ∧
    (Passwordless s.db (jsTrim email) → ∀ tr s', (server svc).Run (fun s e => requestsOnly s e) s tr s' →
      ∀ password env x,
        (serve svc s' (.postAuthLogin (credentials email password)) env x).1.status ≠ 200) := by
  have hs := accountsKept h
  refine ⟨⟨?_, ?_⟩, ?_⟩
  · rintro ⟨hhelps, -⟩
    by_contra hnot
    rw [not_or, not_not] at hnot
    obtain ⟨hemail, hp⟩ := hnot
    obtain ⟨env, x, -, -, hquiet⟩ := exists_quiet s.db 0 0
    have hlogin : serve svc s (.postAuthLogin (credentials email "x")) env x = (useRegistration, s) :=
      login_passwordless hemail (by decide) (hquiet.fault 0) hs.emails hp
    have hregister := (hhelps "x" env x (by decide) (by rw [hlogin]) "password" env x (by decide)
      (by rw [hlogin]; exact hquiet)).1
    rw [hlogin] at hregister
    obtain ⟨row, hrow, hre, -⟩ := hp
    exact register_known hemail (by decide) ⟨row, hrow, hre⟩ hregister
  · intro hok
    have hvacuous : ∀ (tried : String) (env : NodeEnv) (x : ℕ → Tick),
        (serve svc s (.postAuthLogin (credentials email tried)) env x).1 ≠ useRegistration := by
      intro tried env x hlogin
      by_cases hempty : email = "" ∨ tried = ""
      · rw [serve_of_run (r := .postAuthLogin (credentials email tried))
          (congrArg (fun p : Handler => p.run (exec svc) x s.db s.cache) (postAuthLogin_empty hempty))] at hlogin
        simp [Prog.run, useRegistration, failure] at hlogin
      · rw [not_or] at hempty
        exact (hok.resolve_left hempty.1) (passwordless_of_useRegistration hempty.1 hempty.2 hlogin)
    refine ⟨fun tried env x _ hlogin => absurd hlogin (hvacuous tried env x), ?_⟩
    rcases hok with rfl | hp
    · exact fun hne => absurd rfl hne
    · exact recoverable hbcrypt hs hp
  · intro hp tr s' hrun password env x
    have hkept : AccountsKept svc s'.db ∧ Passwordless s'.db (jsTrim email) := by
      refine hrun.invariant (fun s => AccountsKept svc s.db ∧ Passwordless s.db (jsTrim email)) ⟨hs, hp⟩ ?_
      rintro s e s' ⟨hs, hp⟩ hC hstep
      cases e with
      | request r env x =>
        cases hstep
        exact ⟨accountsKept_serve hs, passwordless_serve hs.ids hp⟩
      | elsewhere users => cases hC
    exact login_refused hkept.1.emails hkept.2

/-- Hashes of 60 characters that keep 53 characters of the password. -/
def shortHash (password : String) : String :=
  String.ofList (List.takeD 60 ("$2a$10$".toList ++ password.toList) '.')

def bcryptServices : Services :=
  { plainServices with
    hash := fun _ password => shortHash password
    compare := fun password hash => decide (shortHash password = hash) }

theorem bcryptServices_bcrypt : Bcrypt bcryptServices := by
  refine ⟨fun salt password => ?_, fun salt password => ?_⟩
  · simp only [bcryptServices, decide_true]
  · change (shortHash password).length = 60
    rw [shortHash, String.length_ofList, List.takeD_length]

def legacyAna : ServerState :=
  (serve bcryptServices {} (.postApiUsersRegister (.obj [("email", .str "ana@x.org")])) ⟨0, "", 0⟩
    fun _ => { uuid := 1 }).2

theorem legacyAna_reachable : (server bcryptServices).Reachable (fun s e => requestsOnly s e) legacyAna :=
  ⟨{}, [.request (.postApiUsersRegister (.obj [("email", .str "ana@x.org")])) ⟨0, "", 0⟩
    fun _ => { uuid := 1 }], rfl, .single rfl rfl⟩

theorem legacyAna_passwordless : Passwordless legacyAna.db (jsTrim "ana@x.org") := by
  unfold Passwordless
  decide +kernel

theorem usable_iff_ana :
    ¬ (RegistrationHelps bcryptServices legacyAna "ana@x.org" ∧
      Recoverable bcryptServices legacyAna "ana@x.org") := by
  intro h
  obtain hempty | hp := (usable_iff bcryptServices_bcrypt legacyAna_reachable "ana@x.org").1.mp h
  · exact absurd hempty (by decide)
  · exact hp legacyAna_passwordless

/-- **Ana cannot follow the advice**: behind her legacy registration a login tells her to use the registration,
and the registration answers that the account exists. -/
theorem ana_cannot_register :
    ¬ ∀ (svc : Services) (s : ServerState) (email : String), Bcrypt svc →
      (server svc).Reachable (fun s e => requestsOnly s e) s → RegistrationHelps svc s email := by
  intro hclaim
  have hhelps := hclaim bcryptServices legacyAna "ana@x.org" bcryptServices_bcrypt legacyAna_reachable
  have hlogin : serve bcryptServices legacyAna (.postAuthLogin (credentials "ana@x.org" "guess")) ⟨0, "", 0⟩
      (fun _ => {}) = (useRegistration, legacyAna) :=
    login_passwordless (by decide) (by decide) rfl (by decide +kernel) legacyAna_passwordless
  have hregister := (hhelps "guess" ⟨0, "", 0⟩ (fun _ => {}) (by decide) (by rw [hlogin]) "password"
    ⟨0, "r", 0⟩ (fun _ => { uuid := 2 }) (by decide) (by
      rw [hlogin]
      exact ⟨fun _ => rfl, fun _ => by decide +kernel, fun _ => by decide +kernel, by decide +kernel⟩)).1
  rw [hlogin] at hregister
  exact register_known (by decide) (by decide)
    (legacyAna_passwordless.imp fun row hrow => ⟨hrow.1, hrow.2.1⟩) hregister

end Locus.Server
