import Locus.Server.Accounts
import Locus.Server.Constraints

/-!
# The refresh tokens behind one request

A request that is handled alone, and the table `refresh_tokens`: it takes no token out but the one that it presents
(`serve_knows`); the token of a session is new, and has its row (`login_handsOut`, `register_handsOut`); and a token
that has its row and has not expired is exchanged for a new one (`serve_refresh`).
-/

namespace Locus.Server

open Lib

def Db.Knows (db : Db) (token : String) : Prop := ∃ row ∈ db.refreshTokens, row.token = token

/-- The refresh token that the request presents. -/
def ApiRequest.presents : ApiRequest → Option String
  | postAuthRefresh body | postAuthLogout body => textOrNull (body.field? "refresh_token")
  | _ => none

/-- The refresh token that the body hands out. -/
def Body.refreshToken : Body → Option String
  | .session _ _ refreshToken | .tokens _ refreshToken => some refreshToken
  | _ => none

section
variable {svc : Services} {s : ServerState} {env : NodeEnv} {x : ℕ → Tick} {token : String}

/-! ### What is kept -/

theorem exec_refreshToken_stays (tick : Tick) {db : Db} {q : Stmt} {row : RefreshTokenRow}
    (hrow : row ∈ db.refreshTokens) (hq : q ≠ .deleteRefreshToken row.token) :
    row ∈ (exec svc tick db q).2.refreshTokens := by
  obtain ⟨a, db', hok, hexec⟩ | ⟨e, hexec, -⟩ := exec_cases svc tick db q
  swap
  · rw [hexec]
    exact hrow
  rw [hexec]
  cases q with
  | insertRefreshToken userId token expiresAt =>
    rw [execOk, insertRefreshToken] at hok
    split_ifs at hok
    cases hok
    exact List.mem_append_left _ hrow
  | deleteRefreshToken token =>
    cases hok
    exact List.mem_filter.mpr ⟨hrow, decide_eq_true fun htoken => hq (by rw [htoken])⟩
  | insertUser | updatePasswordHash | updateUser | insertCommunity | incrementMemberCount | insertMember
  | insertMemberOnConflict | insertProperty | insertVote | upsertVoteCast | readNotification
  | readAllNotifications =>
    obtain ⟨_, rfl⟩ := execOk_frame hok
    exact hrow
  | _ =>
    obtain rfl := execOk_read rfl hok
    exact hrow

theorem exec_knows (tick : Tick) {db : Db} {q : Stmt} (h : db.Knows token) (hq : q ≠ .deleteRefreshToken token) :
    (exec svc tick db q).2.Knows token := by
  obtain ⟨row, hrow, rfl⟩ := h
  exact ⟨row, exec_refreshToken_stays tick hrow hq, rfl⟩

/-- **A request takes no token but the one that it presents.** -/
theorem serve_knows (r : ApiRequest) (h : s.db.Knows token) (hr : r.presents ≠ some token) :
    (serve svc s r env x).2.db.Knows token := by
  refine Prog.Sends.run (I := fun db : Db => db.Knows token) (handler_sends svc env r) (fun tick db q hq hdb => ?_) h
  refine exec_knows tick hdb ?_
  rintro rfl
  obtain ⟨body, rfl | rfl, htoken⟩ := hq
  · exact hr htoken
  · exact hr htoken

theorem serve_constrained (r : ApiRequest) (h : Constrained s.db) : Constrained (serve svc s r env x).2.db :=
  Prog.Sends.run (I := Constrained) ((handler_actsAs svc env r).and (handler_sends svc env r))
    (fun tick _ _ hq hdb => exec_constrained tick hdb (Request.Sends.roleFits (r := .api r) hq)) h

/-! ### What is handed out -/

/-- A handed out token is the one that is drawn, and has its row now and had none before. -/
def HandsOut (env : NodeEnv) (db : Db) (out : Response × Db × Cache) : Prop :=
  ∀ token, out.1.body.refreshToken = some token →
    token = env.randomHex ∧ ¬ db.Knows token ∧ out.2.1.Knows token

theorem handsOut_of_none {db : Db} {out : Response × Db × Cache} (h : out.1.body.refreshToken = none) :
    HandsOut env db out := by
  intro token htoken
  rw [h] at htoken
  cases htoken

theorem createTokens_handsOut {db db₀ : Db} {cache : Cache} {userId : Uuid} {email : String}
    {answer : String × String → Response} (hanswer : ∀ t, (answer t).body.refreshToken = some t.2)
    (hsame : db.refreshTokens = db₀.refreshTokens) :
    HandsOut env db₀ ((catch500 (createTokens svc env userId email >>= fun t => pure (answer t))).run (exec svc) x db
      cache) := by
  rw [createTokens_bind]
  refine catch500_run (P := fun out _ => HandsOut env db₀ out) (fun _ db' hok => ?_) fun e _ => handsOut_of_none rfl
  rw [execOk, insertRefreshToken] at hok
  split_ifs at hok with hid htoken huser
  cases hok
  rw [catch500_pure_run]
  intro token hbody
  obtain rfl := Option.some.inj ((hanswer _).symm.trans hbody)
  refine ⟨rfl, ?_, _, List.mem_append_right _ List.mem_cons_self, rfl⟩
  rintro ⟨row, hrow, hknown⟩
  exact htoken (List.any_eq_true.mpr ⟨row, hsame ▸ hrow, decide_eq_true hknown⟩)

theorem loginRest_handsOut {db : Db} {cache : Cache} {password : String} (rows : List UserRow) :
    HandsOut env db ((catch500 (loginRest svc env (.str password) rows)).run (exec svc) x db cache) := by
  cases rows with
  | nil => exact handsOut_of_none rfl
  | cons user rest =>
    rw [loginRest]
    split
    · exact handsOut_of_none rfl
    · dsimp only
      split
      · exact handsOut_of_none rfl
      · exact createTokens_handsOut (fun _ => rfl) rfl

theorem login_handsOut (email password : String) :
    HandsOut env s.db ((postAuthLogin svc env (credentials email password)).run (exec svc) x s.db s.cache) := by
  by_cases hempty : email = "" ∨ password = ""
  · rw [postAuthLogin_empty hempty]
    exact handsOut_of_none rfl
  rw [not_or] at hempty
  rw [postAuthLogin_credentials hempty.1 hempty.2]
  refine catch500_run (P := fun out _ => HandsOut env s.db out) (fun rows db' hok => ?_) fun e _ => handsOut_of_none rfl
  obtain rfl := execOk_read rfl hok
  exact loginRest_handsOut rows

theorem postAuthRegister_short (svc : Services) (env : NodeEnv) (email : String) {password : String}
    (h : jsLength password < 8) :
    ∃ text, postAuthRegister svc env (credentials email password) = .done (failure 400 text) := by
  have hfield : (credentials email password).field? "password" = some (.str password) := rfl
  unfold postAuthRegister
  split
  · exact ⟨_, rfl⟩
  rw [hfield, nonEmptyString]
  split_ifs
  · exact ⟨_, rfl⟩
  · dsimp only
    rw [if_pos h]
    exact ⟨_, rfl⟩

theorem register_handsOut (email password : String) :
    HandsOut env s.db ((postAuthRegister svc env (credentials email password)).run (exec svc) x s.db s.cache) := by
  by_cases hemail : email = ""
  · subst hemail
    exact handsOut_of_none rfl
  by_cases hpassword : 8 ≤ jsLength password
  · have hname : trimmedName ((credentials email password).field? "name") = some none := rfl
    rw [postAuthRegister_body rfl rfl hemail hpassword, hname, coerced_some]
    refine catch500_run (P := fun out _ => HandsOut env s.db out) (fun rows db' hok => ?_) fun e _ =>
      handsOut_of_none rfl
    obtain ⟨_, rfl⟩ := execOk_frame hok
    cases rows with
    | nil => exact handsOut_of_none rfl
    | cons user rest => exact createTokens_handsOut (fun _ => rfl) rfl
  · obtain ⟨text, hdone⟩ := postAuthRegister_short svc env email (not_le.mp hpassword)
    rw [hdone]
    exact handsOut_of_none rfl

/-! ### The exchange -/

theorem select_owner {db : Db} {tick : Tick} (hdb : Constrained db) (h : db.Knows token)
    (hlive : ∀ row ∈ db.refreshTokens, row.token = token → tick.now < row.expiresAt) :
    ∃ u us user rest, selectRefreshToken tick db token = u :: us ∧ selectUser db u = user :: rest ∧
      user ∈ db.users := by
  obtain ⟨row, hrow, rfl⟩ := h
  have hmem : row.userId ∈ selectRefreshToken tick db row.token :=
    List.mem_map_of_mem (List.mem_filter.mpr ⟨hrow, decide_eq_true ⟨rfl, hlive row hrow rfl⟩⟩)
  obtain ⟨u, us, hselect⟩ := List.exists_cons_of_ne_nil (List.ne_nil_of_mem hmem)
  have hu : u ∈ selectRefreshToken tick db row.token := by
    rw [hselect]
    exact List.mem_cons_self
  obtain ⟨found, hfound, rfl⟩ := List.mem_map.mp hu
  obtain ⟨owner, howner, hid⟩ := hdb.refresh_tokens_user_id_fkey found (List.mem_filter.mp hfound).1
  have hmem : owner ∈ selectUser db found.userId := List.mem_filter.mpr ⟨howner, decide_eq_true hid⟩
  obtain ⟨user, rest, husers⟩ := List.exists_cons_of_ne_nil (List.ne_nil_of_mem hmem)
  have huser : user ∈ selectUser db found.userId := by
    rw [husers]
    exact List.mem_cons_self
  exact ⟨_, us, user, rest, hselect, husers, (List.mem_filter.mp huser).1⟩

theorem execOk_insertRefreshToken (svc : Services) {db : Db} {tick : Tick} {user : UserRow} (expiresAt : Time)
    (huser : user ∈ db.users) (hid : ∀ row ∈ db.refreshTokens, row.id ≠ tick.uuid)
    (htoken : ∀ row ∈ db.refreshTokens, row.token ≠ token) :
    ∃ db' : Db, execOk svc tick db (.insertRefreshToken user.id token expiresAt) = .ok ((), db') ∧
      db'.Knows token := by
  have hid' : db.refreshTokens.any (·.id = tick.uuid) = false := by simpa using hid
  have htoken' : db.refreshTokens.any (·.token = token) = false := by simpa using htoken
  have huser' : db.users.any (·.id = user.id) = true := by simpa using ⟨user, huser, rfl⟩
  refine ⟨_, by rw [execOk, insertRefreshToken, hid', htoken', huser']; rfl, ?_⟩
  exact ⟨_, List.mem_append_right _ List.mem_cons_self, rfl⟩

/-- **A known token is exchanged**: if nothing fails, and what is drawn is new, the answer is a new pair, and the new
token has its row. -/
theorem serve_refresh (svc : Services) {body : Json} (hdb : Constrained s.db) (hquiet : Quiet s.db env x)
    (hbody : textOrNull (body.field? "refresh_token") = some token) (h : s.db.Knows token)
    (hlive : ∀ row ∈ s.db.refreshTokens, row.token = token → (x 0).now < row.expiresAt) :
    (∃ claims, (serve svc s (.postAuthRefresh body) env x).1 =
        ⟨200, .tokens (svc.sign claims env.now) env.randomHex⟩) ∧
      (serve svc s (.postAuthRefresh body) env x).2.db.Knows env.randomHex := by
  obtain ⟨u, us, user, rest, hselect, husers, huser⟩ := select_owner hdb h hlive
  let db : Db := (deleteRefreshToken s.db token).2
  have hkept : ∀ row ∈ db.refreshTokens, row ∈ s.db.refreshTokens := fun row hrow => (List.mem_filter.mp hrow).1
  obtain ⟨db', hinsert, hknows⟩ : ∃ db', execOk svc (x 3) db
      (.insertRefreshToken user.id env.randomHex (env.now + refreshTokenTtl)) = .ok ((), db') ∧ _ :=
    execOk_insertRefreshToken svc _ huser (fun row hrow => hquiet.tokenId 3 row (hkept row hrow))
      fun row hrow => hquiet.token row (hkept row hrow)
  have hrun : (postAuthRefresh svc env body).run (exec svc) x s.db s.cache =
      (⟨200, .tokens (svc.sign ⟨user.id, user.email⟩ env.now) env.randomHex⟩, db', s.cache) := by
    rw [postAuthRefresh, hbody]
    refine (catch500_run_ok _ s.cache (hquiet.fault 0) (a := selectRefreshToken (x 0) s.db token) rfl).trans ?_
    rw [hselect]
    refine (catch500_run_ok _ s.cache (hquiet.fault 1) (a := selectUser s.db u) rfl).trans ?_
    rw [husers]
    refine (catch500_run_ok _ s.cache (hquiet.fault 2) rfl).trans ?_
    exact catch500_run_ok _ s.cache (hquiet.fault 3) hinsert
  rw [serve_of_run (r := .postAuthRefresh body) hrun]
  exact ⟨⟨_, rfl⟩, hknows⟩

end

end Locus.Server
