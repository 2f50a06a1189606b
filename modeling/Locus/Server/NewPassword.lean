import Locus.Server.FirstLogin

/-!
# The new password decides

Once `POST /auth/change-password` has answered a user with success, a login with his e-mail that starts later is
decided by the password that he asked for: it is answered with a session for him if the password matches, and refused
if not, or it fails with a 500, whatever else is in flight, as long as no other request changes his password
(`new_password_decides`).
-/

namespace Locus.Server

open Lib

/-! ### The hash of a user -/

section
variable {svc : Services} {x : Tick} {db : Db} {u : Uuid} {email hash : String}

def There (u : Uuid) (email : String) (db : Db) : Prop := ∃ row ∈ db.users, row.id = u ∧ row.email = email

/-- And this is his hash. -/
def HasHash (u : Uuid) (email hash : String) (db : Db) : Prop :=
  ∃ row ∈ db.users, row.id = u ∧ row.email = email ∧ row.passwordHash = some hash

theorem There.exec (h : There u email db) (q : Stmt) : There u email (exec svc x db q).2 := by
  obtain ⟨row, hrow, hid, hemail⟩ := h
  obtain ⟨row', hrow', hkept⟩ := (exec_grows svc x db q).users.mem hrow
  exact ⟨row', hrow', hkept.1.trans hid, hkept.2.1.trans hemail⟩

theorem exec_updated (h : There u email db) {a : Unit}
    (hok : (exec svc x db (.updatePasswordHash u hash)).1 = .ok a) :
    HasHash u email hash (exec svc x db (.updatePasswordHash u hash)).2 := by
  obtain ⟨row, hrow, hid, hemail⟩ := h
  obtain ⟨a', db', hexecOk, hexec⟩ | ⟨e, hexec, -⟩ := exec_cases svc x db (.updatePasswordHash u hash)
  swap
  · rw [hexec] at hok
    cases hok
  rw [hexec]
  rw [execOk, updatePasswordHash] at hexecOk
  split_ifs at hexecOk
  cases hexecOk
  refine ⟨_, List.mem_map_of_mem hrow, ?_⟩
  rw [if_pos hid]
  exact ⟨hid, hemail, rfl⟩

theorem HasHash.exec (h : HasHash u email hash db) {q : Stmt}
    (hq : ∀ hash', q = .updatePasswordHash u hash' → hash' = hash) : HasHash u email hash (exec svc x db q).2 := by
  obtain ⟨row, hrow, hid, hemail, hhash⟩ := h
  by_cases hupdate : ∃ hash', q = .updatePasswordHash u hash'
  · obtain ⟨hash', rfl⟩ := hupdate
    obtain rfl := hq hash' rfl
    obtain ⟨a, db', -, hexec⟩ | ⟨e, hexec, -⟩ := exec_cases svc x db (.updatePasswordHash u hash')
    · exact exec_updated ⟨row, hrow, hid, hemail⟩ (a := a) (by rw [hexec])
    · rw [hexec]
      exact ⟨row, hrow, hid, hemail, hhash⟩
  · obtain ⟨row', hrow', hid', hemail', hhash'⟩ :=
      exec_row hrow fun hash' heq => hupdate ⟨hash', hid ▸ heq⟩
    exact ⟨row', hrow', hid'.trans hid, hemail'.trans hemail, hhash'.trans hhash⟩

/-! ### What is answered -/

/-- The UPDATE that was answered wrote the hash. -/
def Changed (u : Uuid) (email hash : String) (db : Db) (call : StmtCall) : Prop :=
  ∀ a, call = ⟨.updatePasswordHash u hash, .ok a⟩ → HasHash u email hash db

theorem exec_changed (h : There u email db) (q : Stmt) :
    Changed u email hash (exec svc x db q).2 ⟨q, (exec svc x db q).1⟩ := by
  intro a hcall
  obtain ⟨rfl, hanswer⟩ := Prog.Call.mk.inj hcall
  exact exec_updated h (eq_of_heq hanswer)

/-- A search for his e-mail finds him with this hash. -/
def FindsHash (u : Uuid) (email hash : String) (call : StmtCall) : Prop :=
  ∀ rows, call = ⟨.selectUserByEmail email, .ok rows⟩ →
    ∃ row, rows = [row] ∧ row.id = u ∧ row.email = email ∧ row.passwordHash = some hash

theorem exec_findsHash (hdb : Constrained db) (h : HasHash u email hash db) (q : Stmt) :
    FindsHash u email hash ⟨q, (exec svc x db q).1⟩ := by
  obtain ⟨row, hrow, hid, hemail, hhash⟩ := h
  intro rows hcall
  obtain ⟨rfl, hanswer⟩ := Prog.Call.mk.inj hcall
  exact ⟨row, exec_selectUserByEmail hdb hrow (hemail.symm ▸ eq_of_heq hanswer), hid, hemail, hhash⟩

/-- A search for his id finds him. -/
def FindsUser (u : Uuid) (email : String) (call : StmtCall) : Prop :=
  ∀ rows, call = ⟨.selectUser u, .ok rows⟩ → ∃ row : UserRow, rows = [row] ∧ row.id = u ∧ row.email = email

theorem exec_findsUser (hdb : Constrained db) (h : There u email db) (q : Stmt) :
    FindsUser u email ⟨q, (exec svc x db q).1⟩ := by
  obtain ⟨row, hrow, rfl, hemail⟩ := h
  intro rows hcall
  obtain ⟨rfl, hanswer⟩ := Prog.Call.mk.inj hcall
  obtain ⟨db', hok⟩ := exec_ok (eq_of_heq hanswer)
  obtain rfl : selectUser db row.id = rows := congrArg Prod.fst (Except.ok.inj hok)
  exact ⟨row, filter_of_nodup_map hdb.users_pkey hrow, rfl, hemail⟩

/-! ### What the handler answers -/

variable {env : NodeEnv} {body : Json} {log : List StmtCall} {current : Json} {password : String}

/-- The answers to a change of the password of `u`, behind the checks of its body. -/
inductive ChangeAnswer (svc : Services) (env : NodeEnv) (u : Uuid) (current : Json) (password : String)
    (log : List StmtCall) : Response → Prop
  | failed {r : Response} (h : r.status = 500) : ChangeAnswer svc env u current password log r
  | unknown (hcall : ⟨.selectUser u, .ok []⟩ ∈ log) :
    ChangeAnswer svc env u current password log (failure 401 "User not found")
  | noPassword {row : UserRow} {rest : List UserRow} (hcall : ⟨.selectUser u, .ok (row :: rest)⟩ ∈ log)
    (h : row.passwordHash.filter (· ≠ "") = none) :
    ChangeAnswer svc env u current password log (failure 400 "Account has no password set")
  | wrong {row : UserRow} {rest : List UserRow} {text hash : String}
    (hcall : ⟨.selectUser u, .ok (row :: rest)⟩ ∈ log) (hhash : row.passwordHash.filter (· ≠ "") = some hash)
    (htext : current = .str text) (h : svc.compare text hash = false) :
    ChangeAnswer svc env u current password log (failure 401 "Current password is incorrect")
  | changed {row : UserRow} {rest : List UserRow} {text hash : String}
    (hcall : ⟨.selectUser u, .ok (row :: rest)⟩ ∈ log) (hhash : row.passwordHash.filter (· ≠ "") = some hash)
    (htext : current = .str text) (h : svc.compare text hash = true)
    (hupdate : ⟨.updatePasswordHash u (svc.hash env.salt password), .ok ()⟩ ∈ log) :
    ChangeAnswer svc env u current password log ⟨200, .success⟩

theorem changeRest_answers {r : Response}
    (h : (catch500 (query (.selectUser u) >>= changeRest svc env u current password)).Path log (.done r)) :
    ChangeAnswer svc env u current password log r := by
  obtain ⟨-, hawaits⟩ | ⟨rows, log', rfl, hrest⟩ | ⟨err, -, hdone⟩ := catch500_path h
  · exact (not_awaits_done hawaits).elim
  swap
  · cases hdone
    exact .failed rfl
  cases rows with
  | nil =>
    cases (catch500_pure_path hrest).2
    exact .unknown List.mem_cons_self
  | cons row rest =>
    rw [changeRest] at hrest
    split at hrest
    · rename_i hnone
      cases (catch500_pure_path hrest).2
      exact .noPassword List.mem_cons_self hnone
    rename_i hash hhash
    split at hrest
    swap
    · cases (Prog.path_done.mp hrest).2
      exact .failed rfl
    rename_i text
    split at hrest
    · rename_i hwrong
      cases (catch500_pure_path hrest).2
      exact .wrong List.mem_cons_self hhash rfl (by simpa using hwrong)
    rename_i hmatches
    obtain ⟨-, hawaits⟩ | ⟨a, log'', rfl, hend⟩ | ⟨err, -, hdone⟩ := catch500_path hrest
    · exact (not_awaits_done hawaits).elim
    · cases (catch500_pure_path hend).2
      exact .changed List.mem_cons_self hhash rfl (by simpa using hmatches)
        (List.mem_cons_of_mem _ List.mem_cons_self)
    · cases hdone
      exact .failed rfl

/-- A change that succeeded has written the hash of the password that was asked for. -/
theorem postAuthChangePassword_success {authorization : Option String} {user : AuthUser}
    (huser : authenticate svc env authorization = some user) (hnew : body.field? "new_password" = some (.str password))
    {r : Response} (hok : r.status = 200)
    (h : (postAuthChangePassword svc env authorization body).Path log (.done r)) :
    ⟨.updatePasswordHash user.id (svc.hash env.salt password), .ok ()⟩ ∈ log := by
  obtain ⟨text, hrefused⟩ | ⟨current, password', -, hnew', hbody⟩ := postAuthChangePassword_cases svc body
  · rw [hrefused env authorization user huser] at h
    cases (Prog.path_done.mp h).2
    cases hok
  obtain rfl : password' = password := Json.str.inj (Option.some.inj (hnew'.symm.trans hnew))
  rw [hbody env authorization user huser] at h
  cases changeRest_answers h with
  | failed h500 =>
    rw [hok] at h500
    cases h500
  | unknown => cases hok
  | noPassword => cases hok
  | wrong => cases hok
  | changed _ _ _ _ hupdate => exact hupdate

end

/-! ### Runs -/

section
variable {ι : Type} [DecidableEq ι] {svc : Services} {publicBaseUrl : String} {env : ι → NodeEnv} {req : ι → Request}
  {Init : Db → Prop} {C : WholeServer ι → PoolEvent ι Tick → Prop} {s₀ s s' : WholeServer ι}
  {tr tr' : List (PoolEvent ι Tick)} {i j : ι} {authorization : Option String} {body : Json} {password : String}

theorem finds_user (hinit : ∀ db, Init db → Constrained db)
    (h : (wholeServer svc publicBaseUrl env req Init).Reachable C s₀) {row : UserRow} (hrow : row ∈ s₀.db.users)
    (hidle : s₀.thread i = .idle) {D : WholeServer ι → PoolEvent ι Tick → Prop}
    (hrun : (wholeServer svc publicBaseUrl env req Init).Run D s₀ tr s) :
    ∀ call ∈ (s.thread i).log, FindsUser row.id row.email call := by
  obtain ⟨-, -, hfinds⟩ := Pool.answered_run (J := fun db => Constrained db ∧ There row.id row.email db)
    (T := fun _ => FindsUser row.id row.email) (· = i) (fun _ _ _ _ _ hcall => hcall)
    (fun x db q hdb => exec_findsUser hdb.1 hdb.2 q)
    (fun j x db q k log hpath _ hdb =>
      ⟨exec_constrained x hdb.1 (hpath.always (wholeServer_sends j)).1.roleFits, hdb.2.exec q⟩)
    (wholeServer_path h) ⟨constraints_hold hinit h, row, hrow, rfl, rfl⟩
    (by
      rintro i rfl call hcall
      rw [hidle] at hcall
      cases hcall) hrun
  exact hfinds i rfl

/-- No request but `i` changes the password of `u`. -/
def OnlyChange (svc : Services) (env : ι → NodeEnv) (req : ι → Request) (i : ι) (u : Uuid) : Prop :=
  ∀ j authorization body, j ≠ i → req j = .api (.postAuthChangePassword authorization body) →
    (req j).user svc (env j) ≠ some u

omit [DecidableEq ι] in
theorem OnlyChange.asks {u : Uuid} (h : OnlyChange svc env req i u)
    (hchange : req i = .api (.postAuthChangePassword authorization body))
    (hnew : body.field? "new_password" = some (.str password)) {j : ι} {log : List StmtCall} {q : Stmt}
    {k : Except Thrown (Answer q) → Prog Stmt Answer Thrown Cache (Option Response)}
    (hpath : ((req j).handler svc publicBaseUrl (env j)).Path log (.query q k)) (hash : String)
    (hq : q = .updatePasswordHash u hash) : hash = svc.hash (env i).salt password := by
  subst hq
  obtain ⟨hacts, authorization', body', p', hreq, hpath', hawaits⟩ := asks_updatePasswordHash hpath
  by_cases hij : j = i
  · subst hij
    rw [hchange] at hreq
    cases hreq
    obtain ⟨-, -, password', -, -, -, -, hnew', -, rfl, -⟩ := postAuthChangePassword_asks hpath' hawaits
    obtain rfl : password' = password := Json.str.inj (Option.some.inj (hnew'.symm.trans hnew))
    rfl
  · exact (h j authorization' body' hij hreq hacts).elim

/-- Behind a change that succeeded, the user has the hash of the password that he asked for. -/
theorem changed_account (hinit : ∀ db, Init db → Constrained db)
    (h : (wholeServer svc publicBaseUrl env req Init).Reachable C s₀) {row : UserRow} (hrow : row ∈ s₀.db.users)
    (hchange : req i = .api (.postAuthChangePassword authorization body))
    (huser : (req i).user svc (env i) = some row.id) (hnew : body.field? "new_password" = some (.str password))
    (honly : OnlyChange svc env req i row.id) (hidle : s₀.thread i = .idle)
    (hrun : (wholeServer svc publicBaseUrl env req Init).Run C s₀ tr s) {response : Response}
    (hi : (s.thread i).result = some (some response)) (hok : response.status = 200) :
    Constrained s.db ∧ HasHash row.id row.email (svc.hash (env i).salt password) s.db := by
  obtain ⟨hpath, ⟨hdb, -⟩, hchanged⟩ := Pool.answered_along_run
    (J := fun db => Constrained db ∧ There row.id row.email db)
    (T := Changed row.id row.email (svc.hash (env i).salt password)) (· = i)
    (fun x db q hdb => exec_changed hdb.2 q)
    (fun j x db q k log hpath _ hdb => by
      refine ⟨⟨exec_constrained x hdb.1 (hpath.always (wholeServer_sends j)).1.roleFits, hdb.2.exec q⟩, ?_⟩
      exact fun call hcall a heq => (hcall a heq).exec (honly.asks hchange hnew hpath))
    (wholeServer_path h) ⟨constraints_hold hinit h, row, hrow, rfl, rfl⟩
    (by
      rintro i rfl call hcall
      rw [hidle] at hcall
      cases hcall) hrun
  have hend := result_path hpath hi
  rw [hchange] at hend huser
  obtain ⟨user, hauth, hid⟩ := Option.map_eq_some_iff.mp huser
  have hupdate := postAuthChangePassword_success hauth hnew hok (api_path svc (env i) hend)
  rw [hid] at hupdate
  exact ⟨hdb, hchanged i rfl _ hupdate _ rfl⟩

/-- **The new password decides**: behind a change of his password that succeeded, a login with the e-mail of the user is
answered with a session for him if its password matches the new one, and refused if not, or it fails, whatever other
requests run in between. -/
theorem new_password_decides (hbcrypt : Bcrypt svc) (hinit : ∀ db, Init db → Constrained db)
    (h : (wholeServer svc publicBaseUrl env req Init).Reachable C s₀) {row : UserRow} (hrow : row ∈ s₀.db.users)
    (hchange : req i = .api (.postAuthChangePassword authorization body))
    (huser : (req i).user svc (env i) = some row.id) (hnew : body.field? "new_password" = some (.str password))
    (honly : OnlyChange svc env req i row.id) (hidle : s₀.thread i = .idle)
    (hrun : (wholeServer svc publicBaseUrl env req Init).Run C s₀ tr s) {response : Response}
    (hi : (s.thread i).result = some (some response)) (hok : response.status = 200) {body' : Json}
    (hlogin : req j = .api (.postAuthLogin body')) {text typed : String}
    (hemail : body'.field? "email" = some (.str text)) (htext : text ≠ "") (htrim : jsTrim text = row.email)
    (hpassword : body'.field? "password" = some (.str typed)) (htyped : typed ≠ "") (hidle' : s.thread j = .idle)
    (hrun' : (wholeServer svc publicBaseUrl env req Init).Run C s tr' s') {response' : Response}
    (hj : (s'.thread j).result = some (some response')) :
    response'.status = 500 ∨ ∃ user : UserRow, user.id = row.id ∧ user.email = row.email ∧
      response' = if svc.compare typed (svc.hash (env i).salt password) then
        ⟨200, .session (userRowToProfile user) (svc.sign ⟨row.id, row.email⟩ (env j).now) (env j).randomHex⟩
      else failure 401 "Invalid email or password" := by
  obtain ⟨hdb, hhas⟩ := changed_account hinit h hrow hchange huser hnew honly hidle hrun hi hok
  obtain ⟨hpath, -, hfinds⟩ := Pool.answered_run
    (J := fun db => Constrained db ∧ HasHash row.id row.email (svc.hash (env i).salt password) db)
    (T := fun _ => FindsHash row.id row.email (svc.hash (env i).salt password)) (· = j)
    (fun _ _ _ _ _ hcall => hcall) (fun x db q hdb => exec_findsHash hdb.1 hdb.2 q)
    (fun j x db q k log hpath _ hdb => ⟨exec_constrained x hdb.1 (hpath.always (wholeServer_sends j)).1.roleFits,
      hdb.2.exec (honly.asks hchange hnew hpath)⟩)
    (wholeServer_path (h.trans hrun)) ⟨hdb, hhas⟩
    (by
      rintro j rfl call hcall
      rw [hidle'] at hcall
      cases hcall) hrun'
  have hend := result_path hpath hj
  rw [hlogin] at hend
  obtain h500 | ⟨rows, hcall, hdecides⟩ :=
    postAuthLogin_decides hemail hpassword htext htyped (api_path svc (env j) hend)
  · exact .inl h500
  rw [htrim] at hcall
  obtain ⟨user, rfl, hid, hemail, hhash⟩ := hfinds j rfl _ hcall rows rfl
  refine .inr ⟨user, hid, hemail, ?_⟩
  have hset : user.passwordHash.filter (· ≠ "") = some (svc.hash (env i).salt password) := by
    rw [hhash]
    exact hbcrypt.filter (env i).salt password
  rw [hdecides user _ rfl hset, hid, hemail]

/-- Ana changes her password and tries the old one and the new one. -/
def anaChanges : Fin 3 → Request
  | 0 => .api (.postAuthChangePassword (some "Bearer 1.0.ana@x.org")
      (.obj [("current_password", .str "first word"), ("new_password", .str "second word")]))
  | 1 => .api (.postAuthLogin (credentials "ana@x.org" "first word"))
  | 2 => .api (.postAuthLogin (credentials " ana@x.org" "second word"))

def anaFirst : UserRow :=
  { id := 1, email := "ana@x.org", name := none, passwordHash := some (shortHash "first word"), createdAt := 0,
    updatedAt := 0 }

theorem constrained_ana : Constrained { users := [anaFirst] } := by
  constructor <;> first
    | exact List.nodup_singleton _
    | exact List.nodup_nil
    | exact fun _ h => absurd h List.not_mem_nil
    | (intro u hu
       obtain rfl := List.mem_singleton.mp hu
       decide)

/-- The statuses of two results. -/
def bothStatuses (r r' : Option (Option Response)) : Option ℕ × Option ℕ :=
  (r.join.map (·.status), r'.join.map (·.status))

def changeDraws : Fin 3 → NodeEnv
  | 0 => ⟨5, "zero", 0⟩
  | 1 => ⟨5, "one", 0⟩
  | 2 => ⟨5, "two", 0⟩

theorem new_password_decides_ana : ∃ (refused accepted : Response) (user : UserRow), user.id = 1 ∧
    refused = failure 401 "Invalid email or password" ∧
    accepted = ⟨200, .session (userRowToProfile user) (bcryptServices.sign ⟨1, "ana@x.org"⟩ 5) "two"⟩ := by
  let M := wholeServer bcryptServices "" changeDraws anaChanges (· = { users := [anaFirst] })
  obtain ⟨s, hrun, hfacts⟩ := wholeServer_of_exec bcryptServices "" changeDraws anaChanges { users := [anaFirst] }
    (fun s => (((s.thread 0).result.join.map (·.status), isIdle (s.thread 1), isIdle (s.thread 2)),
      (M.exec (fun _ _ => true) s [.start 1, .start 2, .answer 2 {}, .answer 1 {}, .answer 2 { uuid := 5 }]).map
        fun s' => bothStatuses (s'.thread 1).result (s'.thread 2).result))
    [.start 0, .answer 0 {}, .answer 0 {}]
    (a := ((some 200, true, true), some (some 401, some 200))) (by decide +kernel)
  obtain ⟨hnow, hlater⟩ := Prod.mk.inj hfacts
  obtain ⟨hchanged, hidles⟩ := Prod.mk.inj hnow
  obtain ⟨hidle₁, hidle₂⟩ := Prod.mk.inj hidles
  obtain ⟨s', hexec, hstatuses⟩ := Option.map_eq_some_iff.mp hlater
  obtain ⟨h401, h200⟩ := Prod.mk.inj hstatuses
  obtain ⟨response, hresult, hok⟩ := Option.map_eq_some_iff.mp hchanged
  obtain ⟨refused, hrefused, h401⟩ := Option.map_eq_some_iff.mp h401
  obtain ⟨accepted, haccepted, h200⟩ := Option.map_eq_some_iff.mp h200
  have honly : OnlyChange bcryptServices changeDraws anaChanges 0 anaFirst.id := by
    intro j authorization body hj hreq
    match j with
    | 0 => exact absurd rfl hj
    | 1 => cases hreq
    | 2 => cases hreq
  have hinit : ∀ db, db = { users := [anaFirst] } → Constrained db := by
    rintro _ rfl
    exact constrained_ana
  have hrun' : M.Run System.Any s _ s' := (System.Run.of_exec hexec).mono fun _ _ _ => trivial
  obtain h500 | ⟨_, -, -, hwrong⟩ := new_password_decides (i := 0) (j := 1) bcryptServices_bcrypt hinit
    (wholeServer_start ..) (List.mem_singleton_self anaFirst) rfl (by decide +kernel) rfl honly rfl hrun
    (Option.join_eq_some_iff.mp hresult) hok rfl rfl (by decide) (by decide) rfl (by decide) (idle_of_isIdle hidle₁)
    hrun' (Option.join_eq_some_iff.mp hrefused)
  · rw [h401] at h500
    cases h500
  obtain h500 | ⟨user, hid, -, hright⟩ := new_password_decides (i := 0) (j := 2) bcryptServices_bcrypt hinit
    (wholeServer_start ..) (List.mem_singleton_self anaFirst) rfl (by decide +kernel) rfl honly rfl hrun
    (Option.join_eq_some_iff.mp hresult) hok rfl rfl (by decide) (by decide) rfl (by decide) (idle_of_isIdle hidle₂)
    hrun' (Option.join_eq_some_iff.mp haccepted)
  · rw [h200] at h500
    cases h500
  rw [if_neg (by decide +kernel)] at hwrong
  rw [if_pos (by decide +kernel)] at hright
  exact ⟨refused, accepted, user, hid, hwrong, hright⟩

end

end Locus.Server
