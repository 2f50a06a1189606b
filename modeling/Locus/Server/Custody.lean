import Locus.Server.Accounts
import Locus.Server.History

/-!
# Where refresh tokens come from

Every refresh token goes back to credentials: whatever requests are in flight, a row of `refresh_tokens` was written
for its user behind a registration with his e-mail, behind a login with his e-mail and a password that matched the
hash of the time, or behind a refresh that presented a token so granted to him (`tokens_granted`). It ends thirty days
after the clock of the request that wrote it.
-/

namespace Locus.Server

open Lib (Prog Pool System PoolEvent)

/-! ### What an INSERT of a token stands behind -/

/-- The answers behind which a request writes a refresh token for the user `u`. -/
inductive IssuesFor (svc : Services) (env : NodeEnv) : ApiRequest → List StmtCall → Uuid → Prop
  | register {body : Json} {email password : String} (name : Option String) (user : UserRow) (rest : List UserRow) :
      body.field? "email" = some (.str email) → body.field? "password" = some (.str password) →
      IssuesFor svc env (.postAuthRegister body)
        [⟨.insertUser (jsTrim email) name (some (svc.hash env.salt password)), .ok (user :: rest)⟩] user.id
  | login {body : Json} {email password hash : String} (user : UserRow) (rest : List UserRow) :
      body.field? "email" = some (.str email) → body.field? "password" = some (.str password) →
      user.passwordHash = some hash → svc.compare password hash = true →
      IssuesFor svc env (.postAuthLogin body) [⟨.selectUserByEmail (jsTrim email), .ok (user :: rest)⟩] user.id
  | refresh {body : Json} {token : String} (u : Uuid) (us : List Uuid) (user : UserRow) (rest : List UserRow) (n : ℕ) :
      textOrNull (body.field? "refresh_token") = some token →
      IssuesFor svc env (.postAuthRefresh body) [⟨.selectRefreshToken token, .ok (u :: us)⟩,
        ⟨.selectUser u, .ok (user :: rest)⟩, ⟨.deleteRefreshToken token, .ok n⟩] user.id

section
variable {svc : Services} {env : NodeEnv} {body : Json} {log : List StmtCall} {p : Handler} {u : Uuid} {token : String}
  {expiresAt : Time}

/-- What is at an INSERT of a token has its answers behind it, and writes the token that it drew. -/
def IssuesAt (svc : Services) (env : NodeEnv) (r : ApiRequest) (log : List StmtCall) (u : Uuid) (token : String)
    (expiresAt : Time) : Prop :=
  IssuesFor svc env r log u ∧ token = env.randomHex ∧ expiresAt = env.now + refreshTokenTtl

theorem createTokens_issuesAt {user : UserRow} {answer : String × String → Response}
    (h : (catch500 (createTokens svc env user.id user.email >>= fun t => pure (answer t))).Path log p)
    (hp : p.Awaits (.insertRefreshToken u token expiresAt)) :
    log = [] ∧ u = user.id ∧ token = env.randomHex ∧ expiresAt = env.now + refreshTokenTtl := by
  rw [createTokens_bind] at h
  obtain ⟨rfl, hq⟩ | ⟨_, log', rfl, hrest⟩ | ⟨err, rfl, rfl⟩ := catch500_path h
  · cases awaits_unique hp hq
    exact ⟨rfl, rfl, rfl, rfl⟩
  · obtain ⟨rfl, rfl⟩ := catch500_pure_path hrest
    exact (not_awaits_done hp).elim
  · exact (not_awaits_done hp).elim

theorem postAuthRegister_issuesAt (h : (postAuthRegister svc env body).Path log p)
    (hp : p.Awaits (.insertRefreshToken u token expiresAt)) :
    IssuesAt svc env (.postAuthRegister body) log u token expiresAt := by
  unfold postAuthRegister at h
  split at h
  · obtain ⟨rfl, rfl⟩ := Prog.path_done.mp h
    exact (not_awaits_done hp).elim
  rename_i email hemail
  split at h
  · obtain ⟨rfl, rfl⟩ := Prog.path_done.mp h
    exact (not_awaits_done hp).elim
  rename_i password hpassword
  split at h
  · obtain ⟨rfl, rfl⟩ := Prog.path_done.mp h
    exact (not_awaits_done hp).elim
  obtain ⟨rfl, rfl⟩ | ⟨name, -, h⟩ := catch500_coerced_path h
  · exact (not_awaits_done hp).elim
  obtain ⟨rfl, hq⟩ | ⟨rows, log', rfl, hrest⟩ | ⟨err, rfl, rfl⟩ := catch500_path h
  · cases awaits_unique hp hq
  swap
  · exact (not_awaits_done hp).elim
  cases rows with
  | nil =>
    obtain ⟨rfl, rfl⟩ := catch500_pure_path hrest
    exact (not_awaits_done hp).elim
  | cons user rest =>
    obtain ⟨rfl, rfl, htoken, hexpires⟩ := createTokens_issuesAt hrest hp
    exact ⟨.register _ user rest (nonEmptyString_some hemail).1 (nonEmptyString_some hpassword).1, htoken,
      hexpires⟩

theorem loginRest_issuesAt {email : String} {password : Json} {rows : List UserRow}
    (he : body.field? "email" = some (.str email)) (hpassword : body.field? "password" = some password)
    (h : (catch500 (loginRest svc env password rows)).Path log p)
    (hp : p.Awaits (.insertRefreshToken u token expiresAt)) :
    IssuesAt svc env (.postAuthLogin body) (⟨.selectUserByEmail (jsTrim email), .ok rows⟩ :: log) u token
      expiresAt := by
  cases rows with
  | nil =>
    obtain ⟨rfl, rfl⟩ := catch500_pure_path h
    exact (not_awaits_done hp).elim
  | cons user rest =>
    rw [loginRest] at h
    split at h
    · obtain ⟨rfl, rfl⟩ := catch500_pure_path h
      exact (not_awaits_done hp).elim
    rename_i hash hhash
    split at h
    · rename_i text
      split at h
      · obtain ⟨rfl, rfl⟩ := catch500_pure_path h
        exact (not_awaits_done hp).elim
      rename_i hcompare
      obtain ⟨rfl, rfl, htoken, hexpires⟩ := createTokens_issuesAt h hp
      refine ⟨.login user rest he hpassword (Option.filter_eq_some_iff.mp hhash).1 ?_, htoken, hexpires⟩
      simpa using hcompare
    · obtain ⟨rfl, rfl⟩ := Prog.path_done.mp h
      exact (not_awaits_done hp).elim

theorem postAuthLogin_issuesAt (h : (postAuthLogin svc env body).Path log p)
    (hp : p.Awaits (.insertRefreshToken u token expiresAt)) :
    IssuesAt svc env (.postAuthLogin body) log u token expiresAt := by
  have hgiven := h
  unfold postAuthLogin at h
  split at h
  swap
  · obtain ⟨rfl, rfl⟩ := Prog.path_done.mp h
    exact (not_awaits_done hp).elim
  rename_i email password hemail hpassword
  split at h
  · obtain ⟨rfl, rfl⟩ := Prog.path_done.mp h
    exact (not_awaits_done hp).elim
  rename_i htruthy
  rw [Bool.or_eq_true, not_or, Bool.not_eq_true', Bool.not_eq_true', Bool.not_eq_false, Bool.not_eq_false] at htruthy
  split at h
  · rename_i email
    rw [postAuthLogin_body hemail hpassword (of_decide_eq_true htruthy.1) htruthy.2] at hgiven
    obtain ⟨rfl, hq⟩ | ⟨rows, log', rfl, hrest⟩ | ⟨err, rfl, rfl⟩ := catch500_path hgiven
    · cases awaits_unique hp hq
    · exact loginRest_issuesAt hemail hpassword hrest hp
    · exact (not_awaits_done hp).elim
  · obtain ⟨rfl, rfl⟩ := Prog.path_done.mp h
    exact (not_awaits_done hp).elim

theorem postAuthRefresh_issuesAt (h : (postAuthRefresh svc env body).Path log p)
    (hp : p.Awaits (.insertRefreshToken u token expiresAt)) :
    IssuesAt svc env (.postAuthRefresh body) log u token expiresAt := by
  unfold postAuthRefresh at h
  split at h
  · obtain ⟨rfl, rfl⟩ := Prog.path_done.mp h
    exact (not_awaits_done hp).elim
  rename_i presented hpresented
  obtain ⟨rfl, hq⟩ | ⟨us, log₁, rfl, h₁⟩ | ⟨err, rfl, rfl⟩ := catch500_path h
  · cases awaits_unique hp hq
  swap
  · exact (not_awaits_done hp).elim
  cases us with
  | nil =>
    obtain ⟨rfl, rfl⟩ := catch500_pure_path h₁
    exact (not_awaits_done hp).elim
  | cons u' us =>
    obtain ⟨rfl, hq⟩ | ⟨rows, log₂, rfl, h₂⟩ | ⟨err, rfl, rfl⟩ := catch500_path h₁
    · cases awaits_unique hp hq
    swap
    · exact (not_awaits_done hp).elim
    cases rows with
    | nil =>
      obtain ⟨rfl, rfl⟩ := catch500_pure_path h₂
      exact (not_awaits_done hp).elim
    | cons user rest =>
      obtain ⟨rfl, hq⟩ | ⟨n, log₃, rfl, h₃⟩ | ⟨err, rfl, rfl⟩ := catch500_path h₂
      · cases awaits_unique hp hq
      swap
      · exact (not_awaits_done hp).elim
      obtain ⟨rfl, hq⟩ | ⟨_, log₄, rfl, h₄⟩ | ⟨err, rfl, rfl⟩ := catch500_path h₃
      · cases awaits_unique hp hq
        exact ⟨.refresh u' us user rest n hpresented, rfl, rfl⟩
      · obtain ⟨rfl, rfl⟩ := catch500_pure_path h₄
        exact (not_awaits_done hp).elim
      · exact (not_awaits_done hp).elim

/-- **A token is written behind the answers that grant it.** -/
theorem handler_issues {r : ApiRequest} (h : (r.handler svc env).Path log p)
    (hp : p.Awaits (.insertRefreshToken u token expiresAt)) : IssuesAt svc env r log u token expiresAt := by
  obtain ⟨k, rfl⟩ := hp
  obtain ⟨body, rfl | rfl | rfl⟩ := (h.always (handler_sends svc env r)).1
  · exact postAuthRegister_issuesAt h ⟨k, rfl⟩
  · exact postAuthLogin_issuesAt h ⟨k, rfl⟩
  · exact postAuthRefresh_issuesAt h ⟨k, rfl⟩

end

/-! ### What is granted -/

section
variable {ι : Type} {svc : Services} {env : ι → NodeEnv} {req : ι → Request}

/-- The refresh token `token` was granted to the user `u`: at the root of each is a registration or a login with his
e-mail, and each later one was written for the token before it. -/
inductive Granted (svc : Services) (env : ι → NodeEnv) (req : ι → Request) (log : ι → List StmtCall) :
    Uuid → String → Time → Prop
  | register {i : ι} {body : Json} {email password : String} {name : Option String} {user : UserRow}
      {rest : List UserRow} : req i = .api (.postAuthRegister body) → body.field? "email" = some (.str email) →
      body.field? "password" = some (.str password) →
      ⟨.insertUser (jsTrim email) name (some (svc.hash (env i).salt password)), .ok (user :: rest)⟩ ∈ log i →
      user.email = jsTrim email →
      Granted svc env req log user.id (env i).randomHex ((env i).now + refreshTokenTtl)
  | login {i : ι} {body : Json} {email password hash : String} {user : UserRow} {rest : List UserRow} :
      req i = .api (.postAuthLogin body) → body.field? "email" = some (.str email) →
      body.field? "password" = some (.str password) →
      ⟨.selectUserByEmail (jsTrim email), .ok (user :: rest)⟩ ∈ log i → user.email = jsTrim email →
      user.passwordHash = some hash → svc.compare password hash = true →
      Granted svc env req log user.id (env i).randomHex ((env i).now + refreshTokenTtl)
  | refresh {i : ι} {body : Json} {token : String} {u : Uuid} {us : List Uuid} {expiresAt : Time} :
      req i = .api (.postAuthRefresh body) → textOrNull (body.field? "refresh_token") = some token →
      ⟨.selectRefreshToken token, .ok (u :: us)⟩ ∈ log i → Granted svc env req log u token expiresAt →
      Granted svc env req log u (env i).randomHex ((env i).now + refreshTokenTtl)

theorem Granted.mono {log log' : ι → List StmtCall} (hlog : ∀ i, log i <+: log' i) {u : Uuid} {token : String}
    {expiresAt : Time} (h : Granted svc env req log u token expiresAt) : Granted svc env req log' u token expiresAt := by
  induction h with
  | register hreq he hp hcall hemail => exact .register hreq he hp ((hlog _).subset hcall) hemail
  | login hreq he hp hcall hemail hhash hcompare =>
    exact .login hreq he hp ((hlog _).subset hcall) hemail hhash hcompare
  | refresh hreq ht hcall _ ih => exact .refresh hreq ht ((hlog _).subset hcall) ih

/-- What the answers that tokens are granted behind say. -/
structure Truthful (granted : Uuid → String → Prop) (call : StmtCall) : Prop where
  inserted : ∀ email name hash user rest, call = ⟨.insertUser email name hash, .ok (user :: rest)⟩ →
    user.email = email
  byEmail : ∀ email user rest, call = ⟨.selectUserByEmail email, .ok (user :: rest)⟩ → user.email = email
  byId : ∀ u user rest, call = ⟨.selectUser u, .ok (user :: rest)⟩ → user.id = u
  token : ∀ token u us, call = ⟨.selectRefreshToken token, .ok (u :: us)⟩ → granted u token

theorem mem_of_filter_eq_cons {α : Type} {p : α → Bool} {rows rest : List α} {row : α}
    (h : rows.filter p = row :: rest) : row ∈ rows ∧ p row :=
  List.mem_filter.mp (h ▸ List.mem_cons_self)

/-- A statement answers so, where the tokens of the table are granted. -/
theorem exec_truthful {granted : Uuid → String → Prop} {x : Tick} {db : Db} (q : Stmt)
    (hrows : ∀ row ∈ db.refreshTokens, granted row.userId row.token) :
    Truthful granted ⟨q, (exec svc x db q).1⟩ where
  inserted := by
    intro email name hash user rest hcall
    obtain ⟨rfl, hanswer⟩ := Prog.Call.mk.inj hcall
    obtain ⟨db', hok⟩ := exec_ok (eq_of_heq hanswer)
    obtain ⟨hnil, -⟩ | ⟨user', hrows', hemail, -⟩ := insertUser_ok hok
    · cases hnil
    · cases hrows'
      exact hemail
  byEmail := by
    intro email user rest hcall
    obtain ⟨rfl, hanswer⟩ := Prog.Call.mk.inj hcall
    obtain ⟨db', hok⟩ := exec_ok (eq_of_heq hanswer)
    exact of_decide_eq_true (mem_of_filter_eq_cons (congrArg Prod.fst (Except.ok.inj hok))).2
  byId := by
    intro u user rest hcall
    obtain ⟨rfl, hanswer⟩ := Prog.Call.mk.inj hcall
    obtain ⟨db', hok⟩ := exec_ok (eq_of_heq hanswer)
    exact of_decide_eq_true (mem_of_filter_eq_cons (congrArg Prod.fst (Except.ok.inj hok))).2
  token := by
    intro token u us hcall
    obtain ⟨rfl, hanswer⟩ := Prog.Call.mk.inj hcall
    obtain ⟨db', hok⟩ := exec_ok (eq_of_heq hanswer)
    have hus : selectRefreshToken x db token = u :: us := congrArg Prod.fst (Except.ok.inj hok)
    have hu : u ∈ selectRefreshToken x db token := hus ▸ List.mem_cons_self
    obtain ⟨row, hrow, rfl⟩ := List.mem_map.mp hu
    obtain ⟨hmem, hfound⟩ := List.mem_filter.mp hrow
    exact (of_decide_eq_true hfound).1 ▸ hrows row hmem

theorem exec_refreshTokens {x : Tick} {db : Db} {q : Stmt} {row : RefreshTokenRow}
    (h : row ∈ (exec svc x db q).2.refreshTokens) :
    row ∈ db.refreshTokens ∨ q = .insertRefreshToken row.userId row.token row.expiresAt := by
  obtain ⟨a, db', hok, hexec⟩ | ⟨e, hexec, -⟩ := exec_cases svc x db q
  swap
  · rw [hexec] at h
    exact .inl h
  rw [hexec] at h
  cases q with
  | insertRefreshToken userId token expiresAt =>
    rw [execOk, insertRefreshToken] at hok
    split_ifs at hok
    cases hok
    rcases List.mem_append.mp h with h | h
    · exact .inl h
    · cases List.mem_singleton.mp h
      exact .inr rfl
  | deleteRefreshToken token =>
    cases hok
    exact .inl (List.mem_filter.mp h).1
  | insertUser | updatePasswordHash | updateUser | insertCommunity | incrementMemberCount | insertMember
  | insertMemberOnConflict | insertProperty | insertVote | upsertVoteCast | readNotification
  | readAllNotifications =>
    obtain ⟨_, rfl⟩ := execOk_frame hok
    exact .inl h
  | _ => exact .inl (execOk_read rfl hok ▸ h)

theorem request_issues {publicBaseUrl : String} {env : NodeEnv} {r : Request} {log : List StmtCall}
    {p : Prog Stmt Answer Thrown Cache (Option Response)} {u : Uuid} {token : String} {expiresAt : Time}
    (h : (r.handler svc publicBaseUrl env).Path log p) (hp : p.Awaits (.insertRefreshToken u token expiresAt)) :
    ∃ r', r = .api r' ∧ IssuesAt svc env r' log u token expiresAt := by
  cases r with
  | api r =>
    obtain ⟨p', hpath, rfl⟩ := Prog.map_path h
    exact ⟨r, rfl, handler_issues hpath (Prog.map_awaits hp)⟩
  | putUsersProfile authorization form =>
    obtain ⟨k, rfl⟩ := hp
    obtain ⟨-, ⟨id, hq⟩ | ⟨updates, params, hq⟩⟩ := (h.always (request_sends svc env publicBaseUrl _)).1
    · cases hq
    · cases hq

theorem IssuesFor.granted {log : ι → List StmtCall} {i : ι} {r : ApiRequest} {u : Uuid}
    (hreq : req i = .api r)
    (htrue : ∀ call ∈ log i, Truthful (fun u token => ∃ e, Granted svc env req log u token e) call)
    (h : IssuesFor svc (env i) r (log i) u) :
    Granted svc env req log u (env i).randomHex ((env i).now + refreshTokenTtl) := by
  generalize hlog : log i = calls at h htrue
  cases h with
  | register name user rest he hp =>
    have hmem : _ ∈ log i := hlog ▸ List.mem_singleton_self _
    exact .register hreq he hp hmem ((htrue _ (List.mem_singleton_self _)).inserted _ _ _ _ _ rfl)
  | login user rest he hp hhash hcompare =>
    have hmem : _ ∈ log i := hlog ▸ List.mem_singleton_self _
    exact .login hreq he hp hmem ((htrue _ (List.mem_singleton_self _)).byEmail _ _ _ rfl) hhash hcompare
  | refresh u' us user rest n ht =>
    have hmem : _ ∈ log i := hlog ▸ List.mem_cons_self
    obtain ⟨e, hgranted⟩ := (htrue _ List.mem_cons_self).token _ _ _ rfl
    have hid := (htrue _ (List.mem_cons_of_mem _ List.mem_cons_self)).byId _ _ _ rfl
    rw [hid]
    exact .refresh hreq ht hmem hgranted

/-- Every stored token is granted. -/
def InCustody (svc : Services) (env : ι → NodeEnv) (req : ι → Request) (logs : ι → List StmtCall) (db : Db) : Prop :=
  ∀ row ∈ db.refreshTokens, Granted svc env req logs row.userId row.token row.expiresAt

theorem Truthful.mono {granted granted' : Uuid → String → Prop} (hmono : ∀ u token, granted u token → granted' u token)
    {call : StmtCall} (h : Truthful granted call) : Truthful granted' call :=
  { h with token := fun token u us hcall => hmono _ _ (h.token token u us hcall) }

theorem exec_inCustody {publicBaseUrl : String} {logs : ι → List StmtCall} {i : ι} {x : Tick} {db : Db} {q : Stmt}
    {k : Except Thrown (Answer q) → Prog Stmt Answer Thrown Cache (Option Response)}
    (hpath : ((req i).handler svc publicBaseUrl (env i)).Path (logs i) (.query q k))
    (htrue : ∀ call ∈ logs i, Truthful (fun u token => ∃ e, Granted svc env req logs u token e) call)
    (h : InCustody svc env req logs db) : InCustody svc env req logs (exec svc x db q).2 := by
  intro row hrow
  obtain hold | hq := exec_refreshTokens hrow
  · exact h row hold
  · have hawaits : (Prog.query q k).Awaits (.insertRefreshToken row.userId row.token row.expiresAt) := by
      rw [← hq]
      exact ⟨k, rfl⟩
    obtain ⟨r, hreq, hissues, htoken, hexpires⟩ := request_issues hpath hawaits
    rw [htoken, hexpires]
    exact hissues.granted hreq htrue

end

/-! ### Runs -/

section
variable {ι : Type} [DecidableEq ι] {svc : Services} {publicBaseUrl : String} {env : ι → NodeEnv} {req : ι → Request}
  {Init : Db → Prop} {C : WholeServer ι → PoolEvent ι Tick → Prop} {s s' : WholeServer ι}

/-- **Every refresh token goes back to credentials of its user**: on a table that starts empty, whatever requests run
and however they interleave, each row was written for its user behind a registration or a login with his e-mail, or
behind a refresh with a token granted to him. -/
theorem tokens_granted (hempty : ∀ db, Init db → db.refreshTokens = [])
    (h : (wholeServer svc publicBaseUrl env req Init).Reachable C s) :
    ∀ row ∈ s.db.refreshTokens, Granted svc env req s.logs row.userId row.token row.expiresAt := by
  refine (Pool.provenance (J := InCustody svc env req)
    (T := fun logs => Truthful fun u token => ∃ e, Granted svc env req logs u token e) (fun db _ h₀ row hrow => ?_)
    (fun hgrow hdb row hrow => (hdb row hrow).mono hgrow)
    (fun hgrow hcall => hcall.mono fun u token ⟨e, hgranted⟩ => ⟨e, hgranted.mono hgrow⟩)
    (fun logs x db q hdb => exec_truthful q fun row hrow => ⟨_, hdb row hrow⟩)
    (fun logs logs' i x db q k hpath htrue hdb hgrow _ row hrow => (exec_inCustody hpath htrue hdb row hrow).mono hgrow)
    h).1
  rw [hempty db h₀.1] at hrow
  cases hrow

def anaRefreshes : Bool → Request
  | false => .api (.postAuthLogin (credentials "ana@x.org" "correct horse"))
  | true => .api (.postAuthRefresh (.obj [("refresh_token", .str "first")]))

def anaDraws : Bool → NodeEnv
  | false => ⟨5, "first", 0⟩
  | true => ⟨6, "second", 0⟩

theorem tokens_granted_second : ∃ s : WholeServer Bool, s.db.refreshTokens.map (·.token) = ["second"] ∧
    ∀ row ∈ s.db.refreshTokens,
      Granted plainServices anaDraws anaRefreshes s.logs row.userId row.token row.expiresAt := by
  obtain ⟨s, hrun, htokens⟩ := wholeServer_of_exec plainServices "" anaDraws anaRefreshes loft
    (fun s => s.db.refreshTokens.map (·.token))
    [.start false, .answer false {}, .answer false { uuid := 40 }, .start true, .answer true {}, .answer true {},
      .answer true {}, .answer true { uuid := 41 }] (a := ["second"]) (by decide +kernel)
  exact ⟨s, htokens, tokens_granted (by rintro _ rfl; rfl) ((wholeServer_start ..).trans hrun)⟩

end

end Locus.Server
