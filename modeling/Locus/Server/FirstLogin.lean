import Locus.Server.Constraints
import Locus.Server.Credentials

/-!
# Who has registered can log in

Once `POST /auth/register` has answered with a session, a login with this e-mail and password is answered with one for
the account, or fails with a 500, at any later time and whatever else is in flight, as long as no request of the user
changes the password (`registered_logs_in`). Nothing else writes his hash, and no other account has his e-mail.
-/

namespace Locus.Server

open Lib

/-! ### The account -/

section
variable {svc : Services} {x : Tick} {db : Db} {u : Uuid} {email password : String} {log : List StmtCall}

/-- The row of the account `u`, with a hash that the password matches. -/
structure Opens (svc : Services) (u : Uuid) (email password : String) (row : UserRow) : Prop where
  id : row.id = u
  email : row.email = email
  hash : ∃ hash, row.passwordHash.filter (· ≠ "") = some hash ∧ svc.compare password hash = true

def HasAccount (svc : Services) (u : Uuid) (email password : String) (db : Db) : Prop :=
  ∃ row ∈ db.users, Opens svc u email password row

theorem assign_email (values : List (ProfileColumn × Option String)) (row : UserRow) :
    (values.foldl (fun row v => v.1.set row v.2) row).email = row.email :=
  (UserRow.Kept.assign values row).2.1

/-- Where the password of a user is not changed, his row stays with its e-mail and its hash. -/
theorem exec_row {row : UserRow} {q : Stmt} (hrow : row ∈ db.users)
    (hq : ∀ hash, q ≠ .updatePasswordHash row.id hash) : ∃ row' ∈ (exec svc x db q).2.users,
      row'.id = row.id ∧ row'.email = row.email ∧ row'.passwordHash = row.passwordHash := by
  obtain ⟨a, db', hok, hexec⟩ | ⟨e, hexec, -⟩ := exec_cases svc x db q
  swap
  · rw [hexec]
    exact ⟨row, hrow, rfl, rfl, rfl⟩
  rw [hexec]
  cases q with
  | insertUser email name hash =>
    obtain ⟨-, rfl⟩ | ⟨user, -, -, -, -, rfl⟩ := insertUser_ok hok
    · exact ⟨row, hrow, rfl, rfl, rfl⟩
    · exact ⟨row, List.mem_append_left _ hrow, rfl, rfl, rfl⟩
  | updatePasswordHash id hash =>
    rw [execOk, updatePasswordHash] at hok
    split_ifs at hok
    cases hok
    have hother : row.id ≠ id := fun hid => hq hash (hid ▸ rfl)
    refine ⟨row, List.mem_map.mpr ⟨row, hrow, if_neg hother⟩, rfl, rfl, rfl⟩
  | updateUser updates params =>
    obtain ⟨userId, values, -, -, -, rfl⟩ := updateUser_ok hok
    refine ⟨_, List.mem_map_of_mem hrow, ?_⟩
    obtain ⟨hid, hhash⟩ := assign_passwordHash values row
    split
    · exact ⟨hid, assign_email values row, hhash⟩
    · exact ⟨rfl, rfl, rfl⟩
  | insertRefreshToken | deleteRefreshToken | insertCommunity | incrementMemberCount | insertMember
  | insertMemberOnConflict | insertProperty | insertVote | upsertVoteCast | readNotification
  | readAllNotifications =>
    obtain ⟨_, rfl⟩ := execOk_frame hok
    exact ⟨row, hrow, rfl, rfl, rfl⟩
  | _ => exact ⟨row, (execOk_read rfl hok).symm ▸ hrow, rfl, rfl, rfl⟩

theorem HasAccount.exec {q : Stmt} (h : HasAccount svc u email password db)
    (hq : ∀ hash, q ≠ .updatePasswordHash u hash) : HasAccount svc u email password (exec svc x db q).2 := by
  obtain ⟨row, hrow, hopens⟩ := h
  obtain ⟨row', hrow', hid, hemail, hhash⟩ := exec_row hrow (hopens.id ▸ hq)
  exact ⟨row', hrow', hid.trans hopens.id, hemail.trans hopens.email, hhash ▸ hopens.hash⟩

/-! ### What is answered -/

/-- The registration of `u` that was answered made the account. -/
def Registered (svc : Services) (u : Uuid) (db : Db) (call : StmtCall) : Prop :=
  ∀ email name salt password user rest,
    call = ⟨.insertUser email name (some (svc.hash salt password)), .ok (user :: rest)⟩ → user.id = u →
      HasAccount svc u email password db

theorem exec_registered (hbcrypt : Bcrypt svc) (q : Stmt) :
    Registered svc u (exec svc x db q).2 ⟨q, (exec svc x db q).1⟩ := by
  intro email name salt password user rest hcall hid
  obtain ⟨rfl, hanswer⟩ := Prog.Call.mk.inj hcall
  obtain ⟨a, db', hok, hexec⟩ | ⟨e, hexec, -⟩ :=
    exec_cases svc x db (.insertUser email name (some (svc.hash salt password)))
  · rw [hexec] at hanswer ⊢
    cases eq_of_heq hanswer
    obtain ⟨hnil, -⟩ | ⟨row, hrows, hemail, -, hhash, rfl⟩ := insertUser_ok hok
    · cases hnil
    · cases hrows
      refine ⟨user, List.mem_append_right _ (List.mem_singleton_self _), hid, hemail, svc.hash salt password, ?_,
        hbcrypt.compare_hash salt password⟩
      rw [hhash, hbcrypt.filter]
  · rw [hexec] at hanswer
    cases eq_of_heq hanswer

theorem exec_selectUserByEmail (hdb : Constrained db) {row : UserRow} (hrow : row ∈ db.users) {rows : List UserRow}
    (h : (exec svc x db (.selectUserByEmail row.email)).1 = .ok rows) : rows = [row] := by
  obtain ⟨db', hok⟩ := exec_ok h
  obtain rfl : selectUserByEmail db row.email = rows := congrArg Prod.fst (Except.ok.inj hok)
  exact filter_of_nodup_map hdb.users_email_key hrow

/-- A search for the e-mail finds the account, and no other. -/
def FindsAccount (svc : Services) (u : Uuid) (email password : String) (call : StmtCall) : Prop :=
  ∀ rows, call = ⟨.selectUserByEmail email, .ok rows⟩ → ∃ row, rows = [row] ∧ Opens svc u email password row

theorem exec_findsAccount (hdb : Constrained db) (h : HasAccount svc u email password db) (q : Stmt) :
    FindsAccount svc u email password ⟨q, (exec svc x db q).1⟩ := by
  obtain ⟨row, hrow, hopens⟩ := h
  intro rows hcall
  obtain ⟨rfl, hanswer⟩ := Prog.Call.mk.inj hcall
  exact ⟨row, exec_selectUserByEmail hdb hrow (hopens.email.symm ▸ eq_of_heq hanswer), hopens⟩

/-! ### What the handlers answer -/

variable {env : NodeEnv} {body : Json}

theorem postAuthRegister_session {profile : Profile} {accessToken refreshToken : String}
    (h : (postAuthRegister svc env body).Path log (.done ⟨201, .session profile accessToken refreshToken⟩)) :
    ∃ email password name user rest, body.field? "email" = some (.str email) ∧
      body.field? "password" = some (.str password) ∧ 8 ≤ jsLength password ∧ profile = userRowToProfile user ∧
      ⟨.insertUser (jsTrim email) name (some (svc.hash env.salt password)), .ok (user :: rest)⟩ ∈ log := by
  unfold postAuthRegister at h
  split at h
  · cases (Prog.path_done.mp h).2
  rename_i email hemail
  split at h
  · cases (Prog.path_done.mp h).2
  rename_i password hpassword
  split at h
  · cases (Prog.path_done.mp h).2
  rename_i hlength
  obtain ⟨-, hdone⟩ | ⟨name, -, h⟩ := catch500_coerced_path h
  · cases hdone
  obtain ⟨-, hawaits⟩ | ⟨rows, log', rfl, hrest⟩ | ⟨err, -, hdone⟩ := catch500_path h
  · exact (not_awaits_done hawaits).elim
  swap
  · cases hdone
  cases rows with
  | nil => cases (catch500_pure_path hrest).2
  | cons user rest =>
    dsimp only at hrest
    rw [createTokens_bind] at hrest
    obtain ⟨-, hawaits⟩ | ⟨_, log', -, hend⟩ | ⟨err, -, hdone⟩ := catch500_path hrest
    · exact (not_awaits_done hawaits).elim
    · cases (catch500_pure_path hend).2
      exact ⟨email, password, _, user, rest, (nonEmptyString_some hemail).1, (nonEmptyString_some hpassword).1,
        by omega, rfl, List.mem_cons_self⟩
    · cases hdone

theorem postAuthLogin_decides {text : String} {response : Response} (he : body.field? "email" = some (.str text))
    (hp : body.field? "password" = some (.str password)) (htext : text ≠ "") (hpassword : password ≠ "")
    (h : (postAuthLogin svc env body).Path log (.done response)) :
    response.status = 500 ∨ ∃ rows, ⟨.selectUserByEmail (jsTrim text), .ok rows⟩ ∈ log ∧
      ∀ row hash, rows = [row] → row.passwordHash.filter (· ≠ "") = some hash →
        response = if svc.compare password hash then
          ⟨200, .session (userRowToProfile row) (svc.sign ⟨row.id, row.email⟩ env.now) env.randomHex⟩
        else failure 401 "Invalid email or password" := by
  rw [postAuthLogin_body he hp htext (decide_eq_true hpassword)] at h
  obtain ⟨-, hawaits⟩ | ⟨rows, log', rfl, hrest⟩ | ⟨err, -, hdone⟩ := catch500_path h
  · exact (not_awaits_done hawaits).elim
  swap
  · cases hdone
    exact .inl rfl
  by_cases hfails : response.status = 500
  · exact .inl hfails
  refine .inr ⟨rows, List.mem_cons_self, ?_⟩
  rintro row hash rfl hhash
  rw [loginRest, hhash] at hrest
  dsimp only at hrest
  cases hcompare : svc.compare password hash with
  | false =>
    rw [hcompare, Bool.not_false, if_pos rfl] at hrest
    cases (catch500_pure_path hrest).2
    rfl
  | true =>
    rw [hcompare, Bool.not_true, if_neg Bool.false_ne_true, createTokens_bind] at hrest
    obtain ⟨-, hawaits⟩ | ⟨_, log'', -, hend⟩ | ⟨err, -, hdone⟩ := catch500_path hrest
    · exact (not_awaits_done hawaits).elim
    · cases (catch500_pure_path hend).2
      rfl
    · cases hdone
      exact absurd rfl hfails

theorem postAuthLogin_opens {text : String} {response : Response} (he : body.field? "email" = some (.str text))
    (hp : body.field? "password" = some (.str password)) (htext : text ≠ "") (hpassword : password ≠ "")
    (h : (postAuthLogin svc env body).Path log (.done response))
    (hfinds : ∀ call ∈ log, FindsAccount svc u (jsTrim text) password call) :
    response.status = 500 ∨ ∃ user : UserRow, user.id = u ∧ user.email = jsTrim text ∧
      response = ⟨200, .session (userRowToProfile user) (svc.sign ⟨u, jsTrim text⟩ env.now) env.randomHex⟩ := by
  obtain h500 | ⟨rows, hcall, hdecides⟩ := postAuthLogin_decides he hp htext hpassword h
  · exact .inl h500
  obtain ⟨row, rfl, hopens⟩ := hfinds _ hcall rows rfl
  obtain ⟨hash, hhash, hcompare⟩ := hopens.hash
  refine .inr ⟨row, hopens.id, hopens.email, ?_⟩
  rw [hdecides row hash rfl hhash, if_pos hcompare, hopens.id, hopens.email]

end

/-! ### Runs -/

section
variable {ι : Type} [DecidableEq ι] {svc : Services} {publicBaseUrl : String} {env : ι → NodeEnv} {req : ι → Request}
  {Init : Db → Prop} {C : WholeServer ι → PoolEvent ι Tick → Prop} {s s' : WholeServer ι}
  {tr : List (PoolEvent ι Tick)}

/-- No request changes the password of `u`. -/
def NoPasswordChange (svc : Services) (env : ι → NodeEnv) (req : ι → Request) (u : Uuid) : Prop :=
  ∀ i authorization body, req i = .api (.postAuthChangePassword authorization body) → (req i).user svc (env i) ≠ some u

omit [DecidableEq ι] in
/-- A request that is at the UPDATE of a hash changes the password of its user. -/
theorem asks_updatePasswordHash {u : Uuid} {hash : String} {i : ι} {log : List StmtCall}
    {k : Except Thrown (Answer (.updatePasswordHash u hash)) → Prog Stmt Answer Thrown Cache (Option Response)}
    (hpath : ((req i).handler svc publicBaseUrl (env i)).Path log (.query (.updatePasswordHash u hash) k)) :
    (req i).user svc (env i) = some u ∧ ∃ authorization body p,
      req i = .api (.postAuthChangePassword authorization body) ∧
        (postAuthChangePassword svc (env i) authorization body).Path log p ∧ p.Awaits (.updatePasswordHash u hash) := by
  let logs : ι → List StmtCall := fun _ => log
  have hasks : ((req i).handler svc publicBaseUrl (env i)).Path (logs i) (.query _ k) := hpath
  exact ⟨(hpath.always (wholeServer_sends i)).1.1, request_asks hasks ⟨k, rfl⟩⟩

omit [DecidableEq ι] in
theorem NoPasswordChange.asks {u : Uuid} (h : NoPasswordChange svc env req u) {i : ι} {log : List StmtCall} {q : Stmt}
    {k : Except Thrown (Answer q) → Prog Stmt Answer Thrown Cache (Option Response)}
    (hpath : ((req i).handler svc publicBaseUrl (env i)).Path log (.query q k)) (hash : String) :
    q ≠ .updatePasswordHash u hash := by
  rintro rfl
  obtain ⟨hacts, authorization, body, -, hreq, -⟩ := asks_updatePasswordHash hpath
  exact h i authorization body hreq hacts

/-- **Who has registered can log in**: a login with the e-mail and the password of a registration that was answered
with a session is answered with a session for that account, or fails, whatever other requests run in between. -/
theorem registered_logs_in (hbcrypt : Bcrypt svc) (hinit : ∀ db, Init db → Constrained db)
    (h : (wholeServer svc publicBaseUrl env req Init).Reachable C s) {i j : ι} {body : Json}
    (hregister : req i = .api (.postAuthRegister body)) {profile : Profile} {accessToken refreshToken : String}
    (hi : (s.thread i).result = some (some ⟨201, .session profile accessToken refreshToken⟩))
    (hsame : NoPasswordChange svc env req profile.id) {body' : Json} {email : String}
    (hlogin : req j = .api (.postAuthLogin body')) (hemail : body.field? "email" = some (.str email)) {text : String}
    (hemail' : body'.field? "email" = some (.str text)) (htext : text ≠ "") (htrim : jsTrim text = jsTrim email)
    (hpassword : body'.field? "password" = body.field? "password") (hidle : s.thread j = .idle)
    (hrun : (wholeServer svc publicBaseUrl env req Init).Run C s tr s') {response : Response}
    (hj : (s'.thread j).result = some (some response)) :
    response.status = 500 ∨ ∃ user : UserRow, user.id = profile.id ∧ user.email = jsTrim email ∧
      response = ⟨200, .session (userRowToProfile user) (svc.sign ⟨profile.id, jsTrim email⟩ (env j).now)
        (env j).randomHex⟩ := by
  obtain ⟨-, hmade⟩ := Pool.answered_along (J := fun _ => True) (T := Registered svc profile.id) (fun _ _ _ => trivial)
    (fun x db q _ => exec_registered hbcrypt q)
    (fun i x db q k log hpath _ _ => ⟨trivial, fun call hcall email name salt password user rest heq hid =>
      (hcall email name salt password user rest heq hid).exec (hsame.asks hpath)⟩) h
  have hpath := result_path (wholeServer_path h) hi
  rw [hregister] at hpath
  obtain ⟨email', password, name, user, rest, he, hp, hlength, rfl, hcall⟩ :=
    postAuthRegister_session (api_path svc (env i) hpath)
  obtain rfl : email' = email := Json.str.inj (Option.some.inj (he.symm.trans hemail))
  have hthere : HasAccount svc user.id (jsTrim email') password s.db := hmade i _ hcall _ _ _ _ _ _ rfl rfl
  rw [← htrim] at hthere ⊢
  -- what the login is shown
  have hnone : ∀ i, i = j → ∀ call ∈ (s.thread i).log, FindsAccount svc user.id (jsTrim text) password call := by
    rintro i rfl call hcall
    rw [hidle] at hcall
    cases hcall
  obtain ⟨hpath', -, hfinds⟩ := Pool.answered_run
    (J := fun db => Constrained db ∧ HasAccount svc user.id (jsTrim text) password db)
    (T := fun _ => FindsAccount svc user.id (jsTrim text) password) (· = j) (fun _ _ _ _ _ hcall => hcall)
    (fun x db q hdb => exec_findsAccount hdb.1 hdb.2 q)
    (fun i x db q k log hpath _ hdb => ⟨exec_constrained x hdb.1 (hpath.always (wholeServer_sends i)).1.roleFits,
      hdb.2.exec (hsame.asks hpath)⟩)
    (wholeServer_path h) ⟨constraints_hold hinit h, hthere⟩ hnone hrun
  have hend := result_path hpath' hj
  rw [hlogin] at hend
  have hne : password ≠ "" := by
    rintro rfl
    exact absurd hlength (by decide)
  exact postAuthLogin_opens hemail' (hpassword.trans hp) htext hne (api_path svc (env j) hend) (hfinds j rfl)

/-- Cy registers and logs in, with a blank behind his e-mail. -/
def cyRegisters : Bool → Request
  | false => .api (.postAuthRegister (credentials "cy@x.org" "first word"))
  | true => .api (.postAuthLogin (credentials "cy@x.org " "first word"))

def cyDrawsTwo (i : Bool) : NodeEnv := ⟨5, if i then "two" else "one", 0⟩

def sessionOf (status : ℕ) : Option (Option Response) → Option (Profile × String × String) :=
  dataOf status fun | .session user accessToken refreshToken => some (user, accessToken, refreshToken) | _ => none

theorem sessionOf_some {status : ℕ} {r : Option (Option Response)} {session : Profile × String × String}
    (h : sessionOf status r = some session) : r = some (some ⟨status, .session session.1 session.2.1 session.2.2⟩) :=
  @dataOf_some _ status _ (fun session => .session session.1 session.2.1 session.2.2) (by rintro ⟨⟩ a ⟨⟩; rfl) r session
    h

theorem registered_logs_in_cy : ∃ (profile : Profile) (user : UserRow), profile.email = "cy@x.org" ∧
    user.id = profile.id ∧ user.email = "cy@x.org" := by
  let M := wholeServer bcryptServices "" cyDrawsTwo cyRegisters (· = {})
  obtain ⟨s, hrun, hfacts⟩ := wholeServer_of_exec bcryptServices "" cyDrawsTwo cyRegisters {}
    (fun s => ((sessionOf 201 (s.thread false).result).map (·.1.email), isIdle (s.thread true),
      (M.exec (fun _ _ => true) s [.start true, .answer true {}, .answer true { uuid := 5 }]).bind fun s' =>
        (s'.thread true).result.map (·.map (·.status))))
    [.start false, .answer false { uuid := 3 }, .answer false { uuid := 4 }]
    (a := (some "cy@x.org", true, some (some 200))) (by decide +kernel)
  obtain ⟨hregistered, hrest⟩ := Prod.mk.inj hfacts
  obtain ⟨hidle, hlogin⟩ := Prod.mk.inj hrest
  obtain ⟨⟨profile, accessToken, refreshToken⟩, hsession, hemail⟩ := Option.map_eq_some_iff.mp hregistered
  obtain ⟨s', hexec, hstatus⟩ := Option.bind_eq_some_iff.mp hlogin
  obtain ⟨r, hr, hr200⟩ := Option.map_eq_some_iff.mp hstatus
  obtain ⟨response, rfl, h200⟩ := Option.map_eq_some_iff.mp hr200
  have hsame : NoPasswordChange bcryptServices cyDrawsTwo cyRegisters profile.id := by
    rintro (_ | _) authorization body hreq <;> cases hreq
  have hregisters : cyRegisters false = .api (.postAuthRegister (credentials "cy@x.org" "first word")) := rfl
  have hlogs : cyRegisters true = .api (.postAuthLogin (credentials "cy@x.org " "first word")) := rfl
  obtain h500 | ⟨user, hid, huser, -⟩ := registered_logs_in bcryptServices_bcrypt
    (by rintro _ rfl; exact constrained_empty) ((wholeServer_start ..).trans hrun) hregisters (sessionOf_some hsession)
    hsame hlogs rfl rfl (by decide) (by decide) rfl (idle_of_isIdle hidle)
    ((System.Run.of_exec hexec).mono fun _ _ _ => trivial) hr
  · rw [h200] at h500
    cases h500
  · exact ⟨profile, user, hemail, hid, huser⟩

end

end Locus.Server
