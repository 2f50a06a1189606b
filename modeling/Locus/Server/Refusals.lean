import Locus.Lib.Outcomes
import Locus.Server.Requests

/-!
# What a status tells

A handler of `server.js` turns the error of a statement into a 500, and refuses a request (400, 401, 404) before it
has changed anything. So the status of an answer tells what its request did, whatever ran in between: if it is not 500
every statement succeeded, and if it is from 400 to 499 each of them left the database as it was
(`status_tells`). `POST /auth/logout` alone answers 200 behind an error too.
-/

namespace Locus.Server

open Lib (Prog Pool System PoolEvent)

/-! ### Effects -/

/-- The statement changed something, by its answer. -/
def Effect : (q : Stmt) → Answer q → Prop
  | .insertUser .., rows => rows ≠ []
  | .insertMemberOnConflict .., ids => ids ≠ []
  | .readNotification .., rows => rows ≠ []
  | .updateUser .., rows => rows ≠ []
  | q, _ => isWrite q = true

theorem map_of_filter_nil {α : Type} {p : α → Bool} {f : α → α} {rows : List α} (h : rows.filter p = [])
    (hf : ∀ a, p a = false → f a = a) : rows.map f = rows := by
  have hnone : ∀ a ∈ rows, p a = false := fun a ha => by
    simpa using List.filter_eq_nil_iff.mp h a ha
  calc rows.map f = rows.map (fun a => a) := List.map_congr_left fun a ha => hf a (hnone a ha)
    _ = rows := List.map_id' rows

/-- Without an effect the database is as it was. -/
theorem execOk_noEffect {svc : Services} {tick : Tick} {db db' : Db} {q : Stmt} {a : Answer q}
    (h : execOk svc tick db q = .ok (a, db')) (ha : ¬ Effect q a) : db' = db := by
  cases q with
  | insertUser email name hash =>
    obtain ⟨-, rfl⟩ | ⟨user, rfl, -⟩ := insertUser_ok h
    · rfl
    · exact absurd (List.cons_ne_nil _ _) ha
  | insertMemberOnConflict id userId role =>
    obtain ⟨-, rfl⟩ | ⟨m, hids, -⟩ := insertMemberOnConflict_ok h
    · rfl
    · exact absurd (List.ne_nil_of_length_pos hids) ha
  | readNotification id userId =>
    cases id with
    | malformed text => cases h
    | uuid id =>
      cases h
      have hnone := List.map_eq_nil_iff.mp (not_not.mp ha)
      have hsame := map_of_filter_nil (f := fun n : NotificationRow =>
        if decide (n.id = id) && decide (n.userId = userId) then { n with read := true } else n) hnone
        fun n hn => by rw [hn]; rfl
      exact congrArg (fun notifications => { db with notifications }) hsame
  | updateUser updates params =>
    obtain ⟨userId, values, -, -, hrows, rfl⟩ := updateUser_ok h
    have hnone := List.map_eq_nil_iff.mp (hrows.symm.trans (not_not.mp ha))
    have hsame := map_of_filter_nil (f := fun row : UserRow => if row.id = userId then
      { values.foldl (fun row v => v.1.set row v.2) row with updatedAt := tick.now } else row) hnone
      fun row hrow => if_neg (of_decide_eq_false hrow)
    exact congrArg (fun users => { db with users }) hsame
  | updatePasswordHash | insertRefreshToken | deleteRefreshToken | insertCommunity | insertMember
  | incrementMemberCount | insertProperty | insertVote | upsertVoteCast | readAllNotifications => exact absurd rfl ha
  | _ => exact execOk_read rfl h

/-! ### Handlers -/

def Response.failed (r : Response) : Prop := r.status = 500

/-- 400, 401 and 404. -/
def Response.refused (r : Response) : Prop := 400 ≤ r.status ∧ r.status < 500

abbrev Tells (p : Handler) : Prop := p.Tells Effect Response.failed Response.refused

section
variable {q : Stmt} {f : Answer q → HandlerM Response} {r : Response}

theorem catch500_tells (hok : ∀ a, Tells (catch500 (f a)) ∧ (Effect q a → (catch500 (f a)).Never Response.refused)) :
    Tells (catch500 (query q >>= f)) :=
  Prog.tryCatch_tells (fun _ => ⟨_, rfl, rfl⟩) hok

/-- Behind a statement that only reads. -/
theorem catch500_tells_read (hq : ∀ a, ¬ Effect q a) (hok : ∀ a, Tells (catch500 (f a))) :
    Tells (catch500 (query q >>= f)) :=
  catch500_tells fun a => ⟨hok a, fun h => absurd h (hq a)⟩

theorem failure500_never (text : String) : (Prog.done (failure 500 text) : Handler).Never Response.refused :=
  fun h => absurd h.2 (Nat.lt_irrefl 500)

theorem catch500_tells_last (hr : ∀ a, ∃ r, f a = pure r ∧ ¬ r.refused) : Tells (catch500 (query q >>= f)) := by
  refine catch500_tells fun a => ?_
  obtain ⟨r, hf, hr⟩ := hr a
  rw [hf]
  exact ⟨trivial, fun _ => hr⟩

theorem catch500_never_last (hr : ∀ a, ∃ r, f a = pure r ∧ ¬ r.refused) :
    (catch500 (query q >>= f)).Never Response.refused := by
  refine Prog.tryCatch_never (fun err => failure500_never _) fun a => ?_
  obtain ⟨r, hf, hr⟩ := hr a
  rw [hf]
  exact hr

end

theorem not_refused {status : ℕ} {body : Body} (h : status < 400) : ¬ (Response.mk status body).refused :=
  fun hr => absurd hr.1 (Nat.not_le.mpr h)

section
variable (svc : Services) (env : NodeEnv)

theorem createTokens_tells (user : UserRow) (status : ℕ) (hstatus : status < 400) (profile : Profile) :
    Tells (catch500 (createTokens svc env user.id user.email >>= fun t =>
        pure ⟨status, .session profile t.1 t.2⟩)) ∧
      (catch500 (createTokens svc env user.id user.email >>= fun t =>
        pure ⟨status, .session profile t.1 t.2⟩)).Never Response.refused := by
  rw [createTokens_bind]
  exact ⟨catch500_tells_last fun _ => ⟨_, rfl, not_refused hstatus⟩,
    catch500_never_last fun _ => ⟨_, rfl, not_refused hstatus⟩⟩

theorem postApiUsersRegister_tells (body : Json) : Tells (postApiUsersRegister body) := by
  unfold postApiUsersRegister
  split
  · trivial
  cases trimmedName (body.field? "name") with
  | none => trivial
  | some name =>
    refine Prog.tryCatch_tells (fun _ => ⟨_, rfl, rfl⟩) fun rows => ?_
    cases rows with
    | nil => exact ⟨trivial, fun h => absurd rfl h⟩
    | cons user rest => exact ⟨trivial, fun _ => not_refused (by decide)⟩

theorem postAuthRegister_tells (body : Json) : Tells (postAuthRegister svc env body) := by
  unfold postAuthRegister
  split
  · trivial
  split
  · trivial
  split
  · trivial
  refine catch500_coerced trivial fun name _ => ?_
  refine catch500_tells fun rows => ?_
  cases rows with
  | nil => exact ⟨trivial, fun h => absurd rfl h⟩
  | cons user rest =>
    obtain ⟨htells, hnever⟩ := createTokens_tells svc env user 201 (by decide) (userRowToProfile user)
    exact ⟨htells, fun _ => hnever⟩

theorem postAuthLogin_tells (body : Json) : Tells (postAuthLogin svc env body) := by
  unfold postAuthLogin
  split
  swap
  · trivial
  split
  · trivial
  split
  swap
  · trivial
  refine catch500_tells_read (by simp [Effect, isWrite]) fun rows => ?_
  cases rows with
  | nil => trivial
  | cons user rest =>
    dsimp only
    split
    · trivial
    split
    swap
    · trivial
    split
    · trivial
    exact (createTokens_tells svc env user 200 (by decide) (userRowToProfile user)).1

theorem postAuthRefresh_tells (body : Json) : Tells (postAuthRefresh svc env body) := by
  unfold postAuthRefresh
  split
  · trivial
  refine catch500_tells_read (by simp [Effect, isWrite]) fun rows => ?_
  cases rows with
  | nil => trivial
  | cons userId rest =>
    refine catch500_tells_read (by simp [Effect, isWrite]) fun users => ?_
    cases users with
    | nil => trivial
    | cons user rest =>
      refine catch500_tells fun _ => ⟨catch500_tells_last fun _ => ⟨_, rfl, not_refused (by decide)⟩, fun _ => ?_⟩
      exact catch500_never_last fun _ => ⟨_, rfl, not_refused (by decide)⟩

theorem postAuthChangePassword_tells (authorization : Option String) (body : Json) :
    Tells (postAuthChangePassword svc env authorization body) := by
  refine authMiddleware_induction svc env authorization (fun _ => trivial) fun user => ?_
  split
  swap
  · trivial
  split
  · trivial
  split
  swap
  · trivial
  split
  · trivial
  refine catch500_tells_read (by simp [Effect, isWrite]) fun rows => ?_
  cases rows with
  | nil => trivial
  | cons row rest =>
    dsimp only
    split
    · trivial
    split
    swap
    · trivial
    split
    · trivial
    exact catch500_tells_last fun _ => ⟨_, rfl, not_refused (by decide)⟩

theorem getCached_tells {now : Time} {key : CacheKey} {f : Option (Page CommunityRow) → HandlerM Response}
    (h : ∀ r, Tells (catch500 (f r))) : Tells (catch500 (getCached now key >>= f)) := fun _ => h _

theorem setCache_tells {now : Time} {key : CacheKey} {data : Page CommunityRow} (r : Response) :
    Tells (catch500 (setCache now key data >>= fun _ => pure r)) := fun _ => trivial

/-- Every handler but that of `POST /auth/logout`. -/
theorem handler_tells (r : ApiRequest) (hlogout : ∀ body, r ≠ .postAuthLogout body) : Tells (r.handler svc env) := by
  cases r with
  | postApiUsersRegister body => exact postApiUsersRegister_tells body
  | postAuthRegister body => exact postAuthRegister_tells svc env body
  | postAuthLogin body => exact postAuthLogin_tells svc env body
  | postAuthRefresh body => exact postAuthRefresh_tells svc env body
  | postAuthLogout body => exact absurd rfl (hlogout body)
  | postAuthChangePassword authorization body => exact postAuthChangePassword_tells svc env authorization body
  | getAuthMe authorization =>
    refine authMiddleware_induction svc env authorization (fun _ => trivial) fun user => ?_
    refine catch500_tells_read (by simp [Effect, isWrite]) fun rows => ?_
    cases rows <;> trivial
  | getCommunities q =>
    refine getCached_tells fun cached => ?_
    cases cached with
    | some page => trivial
    | none =>
      dsimp only
      split
      · exact catch500_tells_read (by simp [Effect, isWrite]) fun _ =>
          catch500_tells_read (by simp [Effect, isWrite]) fun _ => setCache_tells _
      · exact catch500_tells_read (by simp [Effect, isWrite]) fun _ =>
          catch500_tells_read (by simp [Effect, isWrite]) fun _ => setCache_tells _
  | getCommunitiesNearby q =>
    rw [ApiRequest.handler, Server.getCommunitiesNearby]
    split
    · trivial
    · exact catch500_tells_read (by simp [Effect, isWrite]) fun _ => trivial
  | getCommunitiesId id =>
    refine catch500_tells_read (by simp [Effect, isWrite]) fun rows => ?_
    cases rows <;> trivial
  | postCommunities authorization body =>
    refine authMiddleware_induction svc env authorization (fun _ => trivial) fun user => ?_
    split
    · trivial
    exact catch500_tells fun _ => ⟨catch500_tells_last fun _ => ⟨_, rfl, not_refused (by decide)⟩,
      fun _ => catch500_never_last fun _ => ⟨_, rfl, not_refused (by decide)⟩⟩
  | postCommunitiesApply authorization id =>
    refine authMiddleware_induction svc env authorization (fun _ => trivial) fun user => ?_
    refine catch500_tells fun ids => ?_
    dsimp only
    split
    · exact ⟨catch500_tells_last fun _ => ⟨_, rfl, not_refused (by decide)⟩,
        fun _ => catch500_never_last fun _ => ⟨_, rfl, not_refused (by decide)⟩⟩
    · exact ⟨trivial, fun _ => not_refused (by decide)⟩
  | getProperties q =>
    rw [ApiRequest.handler, Server.getProperties]
    dsimp only
    split
    · exact catch500_tells_read (by simp [Effect, isWrite]) fun _ =>
        catch500_tells_read (by simp [Effect, isWrite]) fun _ => trivial
    · exact catch500_tells_read (by simp [Effect, isWrite]) fun _ =>
        catch500_tells_read (by simp [Effect, isWrite]) fun _ => trivial
  | getPropertiesMap q =>
    rw [ApiRequest.handler, Server.getPropertiesMap]
    split
    · trivial
    · exact catch500_tells_read (by simp [Effect, isWrite]) fun _ => trivial
  | postProperties authorization body =>
    refine authMiddleware_induction svc env authorization (fun _ => trivial) fun user => ?_
    split
    · trivial
    exact catch500_coerced trivial fun _ _ => catch500_tells_last fun _ => ⟨_, rfl, not_refused (by decide)⟩
  | getCommunitiesVotes id => exact catch500_tells_last fun _ => ⟨_, rfl, not_refused (by decide)⟩
  | postCommunitiesVotes authorization id body =>
    refine authMiddleware_induction svc env authorization (fun _ => trivial) fun user => ?_
    split
    · trivial
    exact catch500_tells_last fun _ => ⟨_, rfl, not_refused (by decide)⟩
  | postVotesCast authorization id voteId body =>
    refine authMiddleware_induction svc env authorization (fun _ => trivial) fun user => ?_
    exact catch500_coerced trivial fun _ _ => catch500_tells_last fun _ => ⟨_, rfl, not_refused (by decide)⟩
  | getVotesResults id voteId => exact catch500_tells_last fun _ => ⟨_, rfl, not_refused (by decide)⟩
  | getCommunitiesMembers id => exact catch500_tells_last fun _ => ⟨_, rfl, not_refused (by decide)⟩
  | getPropertiesId id =>
    refine catch500_tells_read (by simp [Effect, isWrite]) fun rows => ?_
    cases rows <;> trivial
  | getNotifications authorization page limit =>
    refine authMiddleware_induction svc env authorization (fun _ => trivial) fun user => ?_
    exact catch500_tells_read (by simp [Effect, isWrite]) fun _ =>
      catch500_tells_read (by simp [Effect, isWrite]) fun _ => trivial
  | patchNotificationsRead authorization id =>
    refine authMiddleware_induction svc env authorization (fun _ => trivial) fun user => ?_
    refine catch500_tells fun rows => ?_
    cases rows with
    | nil => exact ⟨trivial, fun h => absurd rfl h⟩
    | cons row rest => exact ⟨trivial, fun _ => not_refused (by decide)⟩
  | postNotificationsReadAll authorization =>
    refine authMiddleware_induction svc env authorization (fun _ => trivial) fun user => ?_
    exact catch500_tells_last fun _ => ⟨_, rfl, not_refused (by decide)⟩
  | getNotificationsUnreadCount authorization =>
    refine authMiddleware_induction svc env authorization (fun _ => trivial) fun user => ?_
    exact catch500_tells_last fun _ => ⟨_, rfl, not_refused (by decide)⟩
  | getUsersMe authorization =>
    refine authMiddleware_induction svc env authorization (fun _ => trivial) fun user => ?_
    refine catch500_tells_read (by simp [Effect, isWrite]) fun rows => ?_
    cases rows <;> trivial
  | getUsersRentals authorization =>
    refine authMiddleware_induction svc env authorization (fun _ => trivial) fun user => ?_
    exact catch500_tells_last fun _ => ⟨_, rfl, not_refused (by decide)⟩
  | getUsersTransactions authorization =>
    exact authMiddleware_induction svc env authorization (fun _ => trivial) fun user => trivial
  | getRoot => trivial
  | getHealth => trivial
  | getDbCheck =>
    refine Prog.tryCatch_tells (fun _ => ⟨_, rfl, rfl⟩) fun _ => ⟨trivial, fun _ => not_refused (by decide)⟩

end

/-! ### Requests -/

/-- What a finished request tells of its statements. -/
def StatusTells (r : Request) (log : List StmtCall) (res : Response) : Prop :=
  (¬ res.failed → (∀ body, r ≠ .api (.postAuthLogout body)) → ∀ call ∈ log, ∃ a, call.answer = .ok a) ∧
    (res.refused → ∀ call ∈ log, ∃ q a, call = ⟨q, .ok a⟩ ∧ ¬ Effect q a)

theorem statusTells_of_log {r : Request} {log : List StmtCall} {res : Response}
    (h : ¬ res.failed → ∀ call ∈ log, ∃ q a, call = ⟨q, .ok a⟩ ∧ (res.refused → ¬ Effect q a)) :
    StatusTells r log res := by
  refine ⟨fun hfailed _ call hcall => ?_, fun hrefused call hcall => ?_⟩
  · obtain ⟨q, a, rfl, -⟩ := h hfailed call hcall
    exact ⟨a, rfl⟩
  · have hfailed : ¬ res.failed := fun hfailed => absurd hrefused.2 (by rw [hfailed]; exact Nat.lt_irrefl 500)
    obtain ⟨q, a, rfl, heffect⟩ := h hfailed call hcall
    exact ⟨q, a, rfl, heffect hrefused⟩

theorem putUsersProfile_tells {svc : Services} {env : NodeEnv} {publicBaseUrl : String}
    {authorization : Option String} {form : ProfileForm} {log : List StmtCall} {res : Response}
    (h : ((Request.putUsersProfile authorization form).handler svc publicBaseUrl env).Path log (.done (some res))) :
    StatusTells (.putUsersProfile authorization form) log res := by
  refine statusTells_of_log fun hfailed => ?_
  obtain ⟨text, hdone⟩ | ⟨user, -, heq⟩ := putUsersProfile_handler svc env publicBaseUrl authorization form
  · rw [hdone] at h
    rw [(Prog.path_done.mp h).1]
    exact fun call hcall => absurd hcall List.not_mem_nil
  rw [heq] at h
  obtain hthrows | ⟨updates, params, f, -, ⟨hnone, hsome⟩, hbody⟩ := putUsersProfile_eq publicBaseUrl user form
  · rw [hthrows] at h
    rw [(Prog.path_done.mp h).1]
    exact fun call hcall => absurd hcall List.not_mem_nil
  rw [hbody] at h
  obtain ⟨-, hawaits⟩ | ⟨rows, log', rfl, hrest⟩ | ⟨err, log', rfl, hrest⟩ := Prog.tryCatch_path h
  · exact (not_awaits_done hawaits).elim
  · cases rows with
    | nil =>
      rw [hnone] at hrest
      obtain ⟨rfl, -⟩ := Prog.tryCatch_pure_path hrest
      intro call hcall
      rw [List.mem_singleton.mp hcall]
      exact ⟨_, _, rfl, fun _ heffect => heffect rfl⟩
    | cons row rest =>
      rw [hsome] at hrest
      obtain ⟨rfl, hdone⟩ := Prog.tryCatch_pure_path hrest
      cases hdone
      intro call hcall
      rw [List.mem_singleton.mp hcall]
      exact ⟨_, _, rfl, fun hrefused => absurd hrefused (not_refused (by decide))⟩
  · cases (Prog.path_done.mp hrest).2
    exact absurd rfl hfailed

theorem request_tells {svc : Services} {env : NodeEnv} {publicBaseUrl : String} {r : Request} {log : List StmtCall}
    {res : Response} (h : (r.handler svc publicBaseUrl env).Path log (.done (some res))) : StatusTells r log res := by
  cases r with
  | putUsersProfile authorization form => exact putUsersProfile_tells h
  | api r =>
    have hpath := api_path svc env h
    by_cases hlogout : ∃ body, r = .postAuthLogout body
    · -- a logout is answered 200
      obtain ⟨body, rfl⟩ := hlogout
      have hnever : ((ApiRequest.postAuthLogout body).handler svc env).Never Response.refused := by
        rw [ApiRequest.handler, Server.postAuthLogout]
        split
        · exact not_refused (by decide)
        · exact Prog.tryCatch_never (fun _ => not_refused (by decide)) fun _ => not_refused (by decide)
      exact ⟨fun _ hno => absurd rfl (hno body), fun hrefused => absurd hrefused (hnever.result hpath)⟩
    · rw [not_exists] at hlogout
      exact statusTells_of_log ((handler_tells svc env r hlogout).log hpath)

/-! ### Runs -/

section
variable {ι : Type} [DecidableEq ι] {svc : Services} {publicBaseUrl : String} {env : ι → NodeEnv} {req : ι → Request}
  {Init : Db → Prop} {C : WholeServer ι → PoolEvent ι Tick → Prop} {s s' t : WholeServer ι}
  {tr : List (PoolEvent ι Tick)}

theorem exec_noEffect {x : Tick} {db : Db} {q : Stmt} {a : Answer q} (h : (exec svc x db q).1 = .ok a)
    (ha : ¬ Effect q a) : (exec svc x db q).2 = db := by
  obtain ⟨a', db', hok, hexec⟩ | ⟨e, hexec, -⟩ := exec_cases svc x db q
  · rw [hexec] at h ⊢
    cases h
    exact execOk_noEffect hok ha
  · rw [hexec]

/-- **The status of an answer tells what its request did**, whatever requests ran in between: for a status other than
500 the statements of the request all succeeded, those of `POST /auth/logout` excepted, and for a status from 400 to
499 each of them left the database as it was. -/
theorem status_tells (h : (wholeServer svc publicBaseUrl env req Init).Reachable C s) {i : ι} {x : Tick}
    (hstep : (wholeServer svc publicBaseUrl env req Init).step s (.answer i x) = some s')
    (hrun : (wholeServer svc publicBaseUrl env req Init).Run C s' tr t) {r : Response}
    (hresult : (t.thread i).result = some (some r)) :
    (r.status ≠ 500 → (∀ body, req i ≠ .api (.postAuthLogout body)) →
      ∃ q a, (s.thread i).pending = some q ∧ (exec svc x s.db q).1 = .ok a) ∧
    (400 ≤ r.status ∧ r.status < 500 → s'.db = s.db) := by
  obtain ⟨q, log, hpending, hdb, hpath, hcall⟩ := Pool.result_path h hstep hrun hresult
  obtain ⟨hsucceeds, hleaves⟩ := request_tells hpath
  refine ⟨fun hstatus hlogout => ?_, fun hrefused => ?_⟩
  · obtain ⟨a, ha⟩ := hsucceeds hstatus hlogout _ hcall
    exact ⟨q, a, hpending, ha⟩
  · obtain ⟨q', a, heq, heffect⟩ := hleaves hrefused _ hcall
    obtain ⟨rfl, ha⟩ := Prog.Call.mk.inj heq
    rw [hdb, exec_noEffect (eq_of_heq ha) heffect]

/-- Bo marks a notification that is not his as read. -/
def boReadsAnothers : Unit → Request :=
  fun _ => .api (.patchNotificationsRead (some "Bearer 2.0.bo@x.org") (.uuid 30))

/-- Ana's notification. -/
def anaNotified : Db :=
  { loft with notifications := [{ id := 30, userId := 1, title := none, body := none, read := false, createdAt := 0 }] }

theorem status_tells_not_found : ∃ (s s' : WholeServer Unit) (q : Stmt) (a : Answer q),
    (s.thread ()).pending = some q ∧ (exec plainServices {} s.db q).1 = .ok a ∧ s'.db = s.db := by
  let M := wholeServer plainServices "" (fun _ => ⟨5, "", 0⟩) boReadsAnothers (· = anaNotified)
  obtain ⟨s, hrun, hnext⟩ := wholeServer_of_exec plainServices "" (fun _ => ⟨5, "", 0⟩) boReadsAnothers anaNotified
    (fun s => (M.step s (.answer () {})).map fun s' => ((s'.thread ()).result.map (·.map (·.status))))
    [.start ()] (a := some (some (some 404))) (by decide +kernel)
  obtain ⟨s', hstep, hstatus⟩ := Option.map_eq_some_iff.mp hnext
  obtain ⟨response, hresult, hstatus⟩ := Option.map_eq_some_iff.mp hstatus
  obtain ⟨r, rfl, hr⟩ := Option.map_eq_some_iff.mp hstatus
  obtain ⟨hsucceeds, hleaves⟩ := status_tells ((wholeServer_start ..).trans hrun) hstep .nil hresult
  obtain ⟨q, a, hpending, ha⟩ := hsucceeds (by rw [hr]; decide) fun body h => by cases h
  exact ⟨s, s', q, a, hpending, ha, hleaves (by rw [hr]; decide)⟩

end

end Locus.Server
