import Locus.Server.Custody
import Locus.Server.Passwords

/-!
# Who logs in knows a password of the account

A password hash is written by `POST /auth/register` and by `POST /auth/change-password`, and the second only behind a
current password that matches the hash of the time. So every hash of an account goes back, over any number of changes,
to its registration (`SetFor`), and whoever a login is answered with a session has given a password that matches the
one that the last of these requests set, whatever else was in flight (`login_knows`).
-/

namespace Locus.Server

open Lib

/-! ### Where a hash comes from -/

section
variable {ι : Type} {svc : Services} {env : ι → NodeEnv} {req : ι → Request}

/-- The password hash was set for the user `u`: by the registration that made his row, or by a change of his own
behind a password that matched a hash set before. -/
inductive SetFor (svc : Services) (env : ι → NodeEnv) (req : ι → Request) (log : ι → List StmtCall) :
    Uuid → String → Prop
  | register {i : ι} {body : Json} {email password : String} {name : Option String} {user : UserRow}
      {rest : List UserRow} : req i = .api (.postAuthRegister body) → body.field? "email" = some (.str email) →
      body.field? "password" = some (.str password) → 8 ≤ jsLength password → user.email = jsTrim email →
      ⟨.insertUser (jsTrim email) name (some (svc.hash (env i).salt password)), .ok (user :: rest)⟩ ∈ log i →
      SetFor svc env req log user.id (svc.hash (env i).salt password)
  | change {i : ι} {authorization : Option String} {body : Json} {current password old : String} {u : Uuid}
      {row : UserRow} {rest : List UserRow} : req i = .api (.postAuthChangePassword authorization body) →
      (req i).user svc (env i) = some u → body.field? "current_password" = some (.str current) →
      body.field? "new_password" = some (.str password) → 8 ≤ jsLength password →
      ⟨.selectUser u, .ok (row :: rest)⟩ ∈ log i → row.passwordHash = some old → svc.compare current old = true →
      SetFor svc env req log u old → SetFor svc env req log u (svc.hash (env i).salt password)

theorem SetFor.mono {log log' : ι → List StmtCall} (hlog : ∀ i, log i <+: log' i) {u : Uuid} {hash : String}
    (h : SetFor svc env req log u hash) : SetFor svc env req log' u hash := by
  induction h with
  | register hreq he hp hlength hemail hcall => exact .register hreq he hp hlength hemail ((hlog _).subset hcall)
  | change hreq huser hc hp hlength hcall hold hcompare _ ih =>
    exact .change hreq huser hc hp hlength ((hlog _).subset hcall) hold hcompare ih

/-- The rows carry hashes that were set. -/
def HashesSet (set : Uuid → String → Prop) (rows : List UserRow) : Prop :=
  ∀ row ∈ rows, ∀ hash, row.passwordHash = some hash → set row.id hash

theorem HashesSet.mono {set set' : Uuid → String → Prop} (hmono : ∀ u hash, set u hash → set' u hash)
    {rows : List UserRow} (h : HashesSet set rows) : HashesSet set' rows :=
  fun row hrow hash hhash => hmono _ _ (h row hrow hash hhash)

structure Accountable (set : Uuid → String → Prop) (call : StmtCall) : Prop where
  byEmail : ∀ email rows, call = ⟨.selectUserByEmail email, .ok rows⟩ → HashesSet set rows ∧ ∀ row ∈ rows, row.email = email
  byId : ∀ u rows, call = ⟨.selectUser u, .ok rows⟩ → HashesSet set rows ∧ ∀ row ∈ rows, row.id = u

theorem Accountable.mono {set set' : Uuid → String → Prop} (hmono : ∀ u hash, set u hash → set' u hash)
    {call : StmtCall} (h : Accountable set call) : Accountable set' call :=
  ⟨fun email rows hcall => ⟨(h.byEmail email rows hcall).1.mono hmono, (h.byEmail email rows hcall).2⟩,
    fun u rows hcall => ⟨(h.byId u rows hcall).1.mono hmono, (h.byId u rows hcall).2⟩⟩

end

/-! ### What the statements do -/

section
variable {svc : Services} {x : Tick} {db : Db} {set : Uuid → String → Prop}

theorem exec_accountable (q : Stmt) (h : HashesSet set db.users) : Accountable set ⟨q, (exec svc x db q).1⟩ where
  byEmail := by
    intro email rows hcall
    obtain ⟨rfl, hanswer⟩ := Prog.Call.mk.inj hcall
    obtain ⟨db', hok⟩ := exec_ok (eq_of_heq hanswer)
    obtain rfl : selectUserByEmail db email = rows := congrArg Prod.fst (Except.ok.inj hok)
    exact ⟨fun row hrow => h row (List.mem_filter.mp hrow).1,
      fun row hrow => of_decide_eq_true (List.mem_filter.mp hrow).2⟩
  byId := by
    intro u rows hcall
    obtain ⟨rfl, hanswer⟩ := Prog.Call.mk.inj hcall
    obtain ⟨db', hok⟩ := exec_ok (eq_of_heq hanswer)
    obtain rfl : selectUser db u = rows := congrArg Prod.fst (Except.ok.inj hok)
    exact ⟨fun row hrow => h row (List.mem_filter.mp hrow).1,
      fun row hrow => of_decide_eq_true (List.mem_filter.mp hrow).2⟩

theorem assign_passwordHash (values : List (ProfileColumn × Option String)) (row : UserRow) :
    (values.foldl (fun row v => v.1.set row v.2) row).id = row.id ∧
      (values.foldl (fun row v => v.1.set row v.2) row).passwordHash = row.passwordHash := by
  induction values generalizing row with
  | nil => exact ⟨rfl, rfl⟩
  | cons v values ih =>
    obtain ⟨hid, hhash⟩ := ih (v.1.set row v.2)
    obtain ⟨column, value⟩ := v
    cases column <;> exact ⟨hid, hhash⟩

theorem exec_hashes {q : Stmt} {row : UserRow} {hash : String} (hrow : row ∈ (exec svc x db q).2.users)
    (hhash : row.passwordHash = some hash) :
    (∃ old ∈ db.users, old.id = row.id ∧ old.passwordHash = some hash) ∨
    (∃ name, q = .insertUser row.email name (some hash) ∧
      (⟨q, (exec svc x db q).1⟩ : StmtCall) = ⟨.insertUser row.email name (some hash), .ok [row]⟩) ∨
    q = .updatePasswordHash row.id hash := by
  obtain ⟨a, db', hok, hexec⟩ | ⟨e, hexec, -⟩ := exec_cases svc x db q
  swap
  · rw [hexec] at hrow
    exact .inl ⟨row, hrow, rfl, hhash⟩
  rw [hexec] at hrow ⊢
  cases q with
  | insertUser email name hash' =>
    obtain ⟨-, rfl⟩ | ⟨user, rfl, rfl, -, hpassword, rfl⟩ := insertUser_ok hok
    · exact .inl ⟨row, hrow, rfl, hhash⟩
    · rcases List.mem_append.mp hrow with hrow | hrow
      · exact .inl ⟨row, hrow, rfl, hhash⟩
      · obtain rfl := List.mem_singleton.mp hrow
        obtain rfl := hpassword.symm.trans hhash
        exact .inr (.inl ⟨name, rfl, rfl⟩)
  | updatePasswordHash id hash' =>
    rw [execOk, updatePasswordHash] at hok
    split_ifs at hok
    cases hok
    obtain ⟨old, hold, rfl⟩ := List.mem_map.mp hrow
    split at hhash
    · rename_i hid
      obtain rfl := Option.some.inj hhash
      rw [if_pos hid]
      exact .inr (.inr (by rw [hid]))
    · rename_i hid
      rw [if_neg hid]
      exact .inl ⟨old, hold, rfl, hhash⟩
  | updateUser updates params =>
    obtain ⟨userId, values, -, -, -, rfl⟩ := updateUser_ok hok
    obtain ⟨old, hold, rfl⟩ := List.mem_map.mp hrow
    obtain ⟨hid, hsame⟩ := assign_passwordHash values old
    split at hhash
    · rename_i hu
      rw [if_pos hu]
      exact .inl ⟨old, hold, hid.symm, hsame.symm.trans hhash⟩
    · rename_i hu
      rw [if_neg hu]
      exact .inl ⟨old, hold, rfl, hhash⟩
  | insertRefreshToken | deleteRefreshToken | insertCommunity | incrementMemberCount | insertMember
  | insertMemberOnConflict | insertProperty | insertVote | upsertVoteCast | readNotification
  | readAllNotifications =>
    obtain ⟨_, rfl⟩ := execOk_frame hok
    exact .inl ⟨row, hrow, rfl, hhash⟩
  | _ => exact .inl ⟨row, execOk_read rfl hok ▸ hrow, rfl, hhash⟩

end

/-! ### What the handlers ask for -/

section
variable {svc : Services} {env : NodeEnv} {body : Json} {log : List StmtCall} {p : Handler}

theorem postAuthRegister_asks {email hash : String} {name : Option String}
    (h : (postAuthRegister svc env body).Path log p) (hp : p.Awaits (.insertUser email name (some hash))) :
    ∃ text password, body.field? "email" = some (.str text) ∧ body.field? "password" = some (.str password) ∧
      8 ≤ jsLength password ∧ email = jsTrim text ∧ hash = svc.hash env.salt password := by
  unfold postAuthRegister at h
  split at h
  · obtain ⟨-, rfl⟩ := Prog.path_done.mp h
    exact (not_awaits_done hp).elim
  rename_i text htext
  split at h
  · obtain ⟨-, rfl⟩ := Prog.path_done.mp h
    exact (not_awaits_done hp).elim
  rename_i password hpassword
  split at h
  · obtain ⟨-, rfl⟩ := Prog.path_done.mp h
    exact (not_awaits_done hp).elim
  rename_i hlength
  obtain ⟨-, rfl⟩ | ⟨name, -, h⟩ := catch500_coerced_path h
  · exact (not_awaits_done hp).elim
  obtain ⟨-, hq⟩ | ⟨rows, log', rfl, hrest⟩ | ⟨err, -, rfl⟩ := catch500_path h
  · cases awaits_unique hp hq
    exact ⟨text, password, (nonEmptyString_some htext).1, (nonEmptyString_some hpassword).1, by omega, rfl, rfl⟩
  · cases rows with
    | nil =>
      obtain ⟨-, rfl⟩ := catch500_pure_path hrest
      exact (not_awaits_done hp).elim
    | cons user rest =>
      dsimp only at hrest
      rw [createTokens_bind] at hrest
      obtain ⟨-, hq⟩ | ⟨_, log', -, hend⟩ | ⟨err, -, rfl⟩ := catch500_path hrest
      · cases awaits_unique hp hq
      · obtain ⟨-, rfl⟩ := catch500_pure_path hend
        exact (not_awaits_done hp).elim
      · exact (not_awaits_done hp).elim
  · exact (not_awaits_done hp).elim

/-- A change of a password writes behind the hash that the current one matched. -/
theorem postAuthChangePassword_asks {authorization : Option String} {u : Uuid} {hash : String}
    (h : (postAuthChangePassword svc env authorization body).Path log p)
    (hp : p.Awaits (.updatePasswordHash u hash)) :
    (authenticate svc env authorization).map (·.id) = some u ∧
      ∃ current password row rest old, body.field? "current_password" = some (.str current) ∧
        body.field? "new_password" = some (.str password) ∧ 8 ≤ jsLength password ∧
        hash = svc.hash env.salt password ∧ log = [⟨.selectUser u, .ok (row :: rest)⟩] ∧
        row.passwordHash = some old ∧ svc.compare current old = true := by
  cases hauth : authenticate svc env authorization with
  | none =>
    obtain ⟨text, hrefused⟩ := authMiddleware_none svc env _ hauth
    rw [postAuthChangePassword, hrefused] at h
    obtain ⟨-, rfl⟩ := Prog.path_done.mp h
    exact (not_awaits_done hp).elim
  | some user =>
  rw [postAuthChangePassword, authMiddleware_some svc env _ hauth] at h
  split at h
  swap
  · obtain ⟨-, rfl⟩ := Prog.path_done.mp h
    exact (not_awaits_done hp).elim
  rename_i current password hcurrent hpassword
  split at h
  · obtain ⟨-, rfl⟩ := Prog.path_done.mp h
    exact (not_awaits_done hp).elim
  split at h
  swap
  · obtain ⟨-, rfl⟩ := Prog.path_done.mp h
    exact (not_awaits_done hp).elim
  rename_i password _
  split at h
  · obtain ⟨-, rfl⟩ := Prog.path_done.mp h
    exact (not_awaits_done hp).elim
  rename_i hlength
  obtain ⟨-, hq⟩ | ⟨rows, log', rfl, hrest⟩ | ⟨err, -, rfl⟩ := catch500_path h
  · cases awaits_unique hp hq
  swap
  · exact (not_awaits_done hp).elim
  cases rows with
  | nil =>
    obtain ⟨-, rfl⟩ := catch500_pure_path hrest
    exact (not_awaits_done hp).elim
  | cons row rest =>
    dsimp only at hrest
    split at hrest
    · obtain ⟨-, rfl⟩ := catch500_pure_path hrest
      exact (not_awaits_done hp).elim
    rename_i old hold
    split at hrest
    swap
    · obtain ⟨-, rfl⟩ := Prog.path_done.mp hrest
      exact (not_awaits_done hp).elim
    rename_i current _
    split at hrest
    · obtain ⟨-, rfl⟩ := catch500_pure_path hrest
      exact (not_awaits_done hp).elim
    rename_i hcompare
    obtain ⟨rfl, hq⟩ | ⟨_, log', -, hend⟩ | ⟨err, -, rfl⟩ := catch500_path hrest
    · cases awaits_unique hp hq
      refine ⟨rfl, current, password, row, rest, old, hcurrent, hpassword, by omega, rfl, rfl,
        (Option.filter_eq_some_iff.mp hold).1, by simpa using hcompare⟩
    · obtain ⟨-, rfl⟩ := catch500_pure_path hend
      exact (not_awaits_done hp).elim
    · exact (not_awaits_done hp).elim

/-- A login that is answered with a session was shown the account, and matched its hash. -/
theorem postAuthLogin_session {r : Response} (h : (postAuthLogin svc env body).Path log (.done r))
    (hstatus : r.status = 200) :
    ∃ email password user rest hash, body.field? "email" = some (.str email) ∧
      body.field? "password" = some (.str password) ∧
      ⟨.selectUserByEmail (jsTrim email), .ok (user :: rest)⟩ ∈ log ∧ user.passwordHash = some hash ∧
      svc.compare password hash = true ∧
      r = ⟨200, .session (userRowToProfile user) (svc.sign ⟨user.id, user.email⟩ env.now) env.randomHex⟩ := by
  unfold postAuthLogin at h
  split at h
  swap
  · cases (Prog.path_done.mp h).2
    cases hstatus
  rename_i email password hemail hpassword
  split at h
  · cases (Prog.path_done.mp h).2
    cases hstatus
  split at h
  swap
  · cases (Prog.path_done.mp h).2
    cases hstatus
  rename_i email _
  obtain ⟨-, hawaits⟩ | ⟨rows, log', rfl, hrest⟩ | ⟨err, -, hdone⟩ := catch500_path h
  · exact (not_awaits_done hawaits).elim
  swap
  · cases hdone
    cases hstatus
  cases rows with
  | nil =>
    cases (catch500_pure_path hrest).2
    cases hstatus
  | cons user rest =>
    dsimp only at hrest
    split at hrest
    · cases (catch500_pure_path hrest).2
      cases hstatus
    rename_i hash hhash
    split at hrest
    swap
    · cases (Prog.path_done.mp hrest).2
      cases hstatus
    rename_i password _
    split at hrest
    · cases (catch500_pure_path hrest).2
      cases hstatus
    rename_i hcompare
    rw [createTokens_bind] at hrest
    obtain ⟨-, hawaits⟩ | ⟨_, log', -, hend⟩ | ⟨err, -, hdone⟩ := catch500_path hrest
    · exact (not_awaits_done hawaits).elim
    · cases (catch500_pure_path hend).2
      exact ⟨email, password, user, rest, hash, hemail, hpassword, List.mem_cons_self,
        (Option.filter_eq_some_iff.mp hhash).1, by simpa using hcompare, rfl⟩
    · cases hdone
      cases hstatus

end

/-! ### Runs -/

section
variable {ι : Type} {svc : Services} {publicBaseUrl : String} {env : ι → NodeEnv} {req : ι → Request}
  {logs logs' : ι → List StmtCall} {i : ι} {x : Tick} {db : Db} {q : Stmt}
  {p : Prog Stmt Answer Thrown Cache (Option Response)}

theorem request_asks {u : Uuid} {hash : String}
    (h : ((req i).handler svc publicBaseUrl (env i)).Path (logs i) p) (hp : p.Awaits (.updatePasswordHash u hash)) :
    ∃ authorization body p', req i = .api (.postAuthChangePassword authorization body) ∧
      (postAuthChangePassword svc (env i) authorization body).Path (logs i) p' ∧
        p'.Awaits (.updatePasswordHash u hash) := by
  generalize hr : req i = r at h
  cases r with
  | api r =>
    obtain ⟨p', hpath, rfl⟩ := Prog.map_path h
    have hp' := Prog.map_awaits hp
    obtain ⟨k, rfl⟩ := hp'
    obtain ⟨authorization, body, password, rfl, -⟩ := (hpath.always (handler_sends svc (env i) r)).1
    exact ⟨authorization, body, _, rfl, hpath, k, rfl⟩
  | putUsersProfile authorization form =>
    obtain ⟨k, rfl⟩ := hp
    obtain ⟨-, ⟨id, hq⟩ | ⟨updates, params, hq⟩⟩ := (h.always (request_sends svc (env i) publicBaseUrl _)).1
    · cases hq
    · cases hq

theorem request_registers {email hash : String} {name : Option String}
    (h : ((req i).handler svc publicBaseUrl (env i)).Path (logs i) p)
    (hp : p.Awaits (.insertUser email name (some hash))) :
    ∃ body p', req i = .api (.postAuthRegister body) ∧ (postAuthRegister svc (env i) body).Path (logs i) p' ∧
      p'.Awaits (.insertUser email name (some hash)) := by
  generalize hr : req i = r at h
  cases r with
  | api r =>
    obtain ⟨p', hpath, rfl⟩ := Prog.map_path h
    have hp' := Prog.map_awaits hp
    obtain ⟨k, rfl⟩ := hp'
    obtain ⟨body, -, hnone⟩ | ⟨body, password, rfl, -⟩ := (hpath.always (handler_sends svc (env i) r)).1
    · cases hnone
    · exact ⟨body, _, rfl, hpath, k, rfl⟩
  | putUsersProfile authorization form =>
    obtain ⟨k, rfl⟩ := hp
    obtain ⟨-, ⟨id, hq⟩ | ⟨updates, params, hq⟩⟩ := (h.always (request_sends svc (env i) publicBaseUrl _)).1
    · cases hq
    · cases hq

theorem exec_hashesSet {k : Except Thrown (Answer q) → Prog Stmt Answer Thrown Cache (Option Response)}
    (hpath : ((req i).handler svc publicBaseUrl (env i)).Path (logs i) (.query q k))
    (htrue : ∀ call ∈ logs i, Accountable (SetFor svc env req logs) call)
    (h : HashesSet (SetFor svc env req logs) db.users) (hgrow : ∀ j, logs j <+: logs' j)
    (hcall : ⟨q, (exec svc x db q).1⟩ ∈ logs' i) :
    HashesSet (SetFor svc env req logs') (exec svc x db q).2.users := by
  intro row hrow hash hhash
  obtain ⟨old, hold, hid, hsame⟩ | ⟨name, rfl, hanswer⟩ | rfl := exec_hashes hrow hhash
  · rw [← hid]
    exact (h old hold hash hsame).mono hgrow
  · obtain ⟨body, p', hreq, hregister, hawaits⟩ := request_registers hpath ⟨k, rfl⟩
    obtain ⟨text, password, he, hp, hlength, hemail, rfl⟩ := postAuthRegister_asks hregister hawaits
    rw [hanswer] at hcall
    rw [hemail] at hcall
    exact .register hreq he hp hlength hemail hcall
  · obtain ⟨authorization, body, p', hreq, hchange, hawaits⟩ := request_asks hpath ⟨k, rfl⟩
    obtain ⟨huser, current, password, found, rest, old, hc, hp, hlength, rfl, hlog, hold, hcompare⟩ :=
      postAuthChangePassword_asks hchange hawaits
    have hselect : (⟨.selectUser row.id, .ok (found :: rest)⟩ : StmtCall) ∈ logs i :=
      hlog ▸ List.mem_singleton_self _
    obtain ⟨hset, hid⟩ := (htrue _ hselect).byId _ _ rfl
    refine .change hreq ?_ hc hp hlength ((hgrow i).subset hselect) hold hcompare ?_
    · rw [hreq]
      obtain ⟨token, hauth⟩ := Option.map_eq_some_iff.mp huser
      rw [Request.user, Request.authorization, ApiRequest.authorization, Option.bind_some, hauth.1, Option.map_some, hauth.2]
    · have hfound := hset found List.mem_cons_self old hold
      rw [hid found List.mem_cons_self] at hfound
      exact hfound.mono hgrow

variable [DecidableEq ι] {Init : Db → Prop} {C : WholeServer ι → PoolEvent ι Tick → Prop} {s : WholeServer ι}

/-- **Who logs in knows a password of the account**: on accounts without passwords at first, whatever requests run and
however they interleave, a login is answered with a session only for a password that matches a hash which the
registration of the account, or a change of its password behind one that was set before, had set. -/
theorem login_knows (hempty : ∀ db, Init db → ∀ row ∈ db.users, row.passwordHash = none)
    (h : (wholeServer svc publicBaseUrl env req Init).Reachable C s) {body : Json}
    (hreq : req i = .api (.postAuthLogin body)) {r : Response} (hi : (s.thread i).result = some (some r))
    (hstatus : r.status = 200) :
    ∃ email password user hash, body.field? "email" = some (.str email) ∧
      body.field? "password" = some (.str password) ∧ user.email = jsTrim email ∧
      SetFor svc env req s.logs user.id hash ∧ svc.compare password hash = true ∧
      r = ⟨200, .session (userRowToProfile user) (svc.sign ⟨user.id, user.email⟩ (env i).now) (env i).randomHex⟩ := by
  obtain ⟨-, htrue⟩ := Pool.provenance (J := fun logs db => HashesSet (SetFor svc env req logs) db.users)
    (T := fun logs => Accountable (SetFor svc env req logs))
    (fun db _ h₀ row hrow hash hhash => absurd hhash (by rw [hempty db h₀.1 row hrow]; simp))
    (fun hgrow hdb => hdb.mono fun u hash hset => hset.mono hgrow)
    (fun hgrow hcall => hcall.mono fun u hash hset => hset.mono hgrow)
    (fun logs x db q hdb => exec_accountable q hdb)
    (fun logs logs' i x db q k hpath htrue hdb hgrow hcall => exec_hashesSet hpath htrue hdb hgrow hcall) h
  have hpath := result_path (wholeServer_path h) hi
  rw [hreq] at hpath
  obtain ⟨email, password, user, rest, hash, he, hp, hselect, hhash, hcompare, hr⟩ :=
    postAuthLogin_session (api_path svc (env i) hpath) hstatus
  obtain ⟨hset, hemail⟩ := (htrue i _ hselect).byEmail _ _ rfl
  exact ⟨email, password, user, hash, he, hp, hemail user List.mem_cons_self,
    hset user List.mem_cons_self hash hhash, hcompare, hr⟩

/-- Cy registers, changes his password and logs in with the new one. -/
def cyReturns : Fin 3 → Request
  | 0 => .api (.postAuthRegister (credentials "cy@x.org" "first word"))
  | 1 => .api (.postAuthChangePassword (some "Bearer 3.0.cy@x.org")
      (.obj [("current_password", .str "first word"), ("new_password", .str "second word")]))
  | 2 => .api (.postAuthLogin (credentials "cy@x.org" "second word"))

def cyDraws (i : Fin 3) : NodeEnv := ⟨5, if i = 0 then "first" else "second", i⟩

theorem login_knows_cy : ∃ (s : WholeServer (Fin 3)) (user : UserRow) (hash : String), user.email = "cy@x.org" ∧
    SetFor plainServices cyDraws cyReturns s.logs user.id hash ∧ plainServices.compare "second word" hash = true := by
  obtain ⟨s, hrun, hstatus⟩ := wholeServer_of_exec plainServices "" cyDraws cyReturns {}
    (fun s => (s.thread 2).result.map (·.map (·.status)))
    [.start 0, .answer 0 { uuid := 3 }, .answer 0 { uuid := 4 }, .start 1, .answer 1 {}, .answer 1 {}, .start 2,
      .answer 2 {}, .answer 2 { uuid := 5 }] (a := some (some 200)) (by decide +kernel)
  obtain ⟨r, hr, hr200⟩ := Option.map_eq_some_iff.mp hstatus
  obtain ⟨response, rfl, h200⟩ := Option.map_eq_some_iff.mp hr200
  obtain ⟨email, password, user, hash, he, hp, hemail, hset, hcompare, -⟩ :=
    login_knows (by rintro _ rfl row hrow; cases hrow) ((wholeServer_start ..).trans hrun) rfl hr h200
  cases he
  cases hp
  exact ⟨s, user, hash, hemail, hset, hcompare⟩

end

end Locus.Server
