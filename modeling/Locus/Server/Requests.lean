import Locus.Lib.Guarantee
import Locus.Server.Profile

/-!
# The whole server

The routes of `server.js` at once, `PUT /users/profile` included: any number of requests in flight, their statements
interleaved in any way (`wholeServer`). What a request can write is said once (`request_sends`): the statements of
its route, and rows of users only in the name of the user that `authMiddleware` finds for it. `POST /support/issues`,
which writes a table that no route reads, and the two routes that answer a constant stay out.
-/

namespace Locus.Server

open Lib (Prog System PoolEvent)

/-! ### Requests -/

inductive Request
  | api (r : ApiRequest)
  | putUsersProfile (authorization : Option String) (form : ProfileForm)

/-- The `Authorization` header, where the route is behind `authMiddleware`. -/
def ApiRequest.authorization : ApiRequest → Option (Option String)
  | .getAuthMe authorization | .postAuthChangePassword authorization _ | .postCommunities authorization _
  | .postCommunitiesApply authorization _ | .postProperties authorization _ | .postCommunitiesVotes authorization ..
  | .postVotesCast authorization .. | .getNotifications authorization .. | .patchNotificationsRead authorization _
  | .postNotificationsReadAll authorization | .getNotificationsUnreadCount authorization | .getUsersMe authorization
  | .getUsersRentals authorization | .getUsersTransactions authorization => some authorization
  | _ => none

def Request.authorization : Request → Option (Option String)
  | .api r => r.authorization
  | .putUsersProfile authorization _ => some authorization

/-- `req.user.id` -/
def Request.user (svc : Services) (env : NodeEnv) (r : Request) : Option Uuid :=
  r.authorization.bind fun authorization => (authenticate svc env authorization).map (·.id)

/-- The handler with the middleware in front of it. Without an answer the handler of `PUT /users/profile` threw. -/
def Request.handler (svc : Services) (publicBaseUrl : String) (env : NodeEnv) :
    Request → Prog Stmt Answer Thrown Cache (Option Response)
  | .api r => (r.handler svc env).map some
  | .putUsersProfile authorization form =>
    match authMiddleware.bearer authorization with
    | none => .done (some (failure 401 "Unauthorized"))
    | some token =>
      match svc.verify token env.now with
      | some user => Server.putUsersProfile publicBaseUrl user form
      | none => .done (some (failure 401 "Invalid token"))

abbrev StmtCall := Prog.Call Stmt Answer Thrown

/-- A server process with its database and requests in flight. -/
abbrev WholeServer (ι : Type) := Lib.Pool ι Db Stmt Answer Thrown Cache (Option Response)

/-- The requests `req` on one process, which starts with an empty cache. -/
def wholeServer {ι : Type} [DecidableEq ι] (svc : Services) (publicBaseUrl : String) (env : ι → NodeEnv)
    (req : ι → Request) (Init : Db → Prop) : System (WholeServer ι) (PoolEvent ι Tick) :=
  Lib.Pool.system (fun i => (req i).handler svc publicBaseUrl (env i)) (exec svc)
    fun db cache => Init db ∧ cache = []

theorem wholeServer_start {ι : Type} [DecidableEq ι] (svc : Services) (publicBaseUrl : String) (env : ι → NodeEnv)
    (req : ι → Request) (db : Db) :
    (wholeServer svc publicBaseUrl env req (· = db)).Reachable System.Any ⟨db, [], fun _ => .idle⟩ :=
  ⟨_, [], ⟨⟨rfl, rfl⟩, fun _ => rfl⟩, .nil⟩

theorem wholeServer_of_exec {ι : Type} [DecidableEq ι] (svc : Services) (publicBaseUrl : String)
    (env : ι → NodeEnv) (req : ι → Request) (db : Db) {α : Type} (f : WholeServer ι → α)
    (tr : List (PoolEvent ι Tick)) {a : α}
    (h : ((wholeServer svc publicBaseUrl env req (· = db)).exec (fun _ _ => true)
      ⟨db, [], fun _ => .idle⟩ tr).map f = some a) :
    ∃ s, (wholeServer svc publicBaseUrl env req (· = db)).Run System.Any ⟨db, [], fun _ => .idle⟩ tr s ∧ f s = a := by
  obtain ⟨s, hs, hf⟩ := Option.map_eq_some_iff.mp h
  exact ⟨s, (System.Run.of_exec hs).mono fun _ _ _ => trivial, hf⟩

def isIdle (t : Lib.Thread Stmt Answer Thrown Cache (Option Response)) : Bool :=
  match t with
  | .idle => true
  | .live _ _ => false

theorem idle_of_isIdle {t : Lib.Thread Stmt Answer Thrown Cache (Option Response)} (h : isIdle t = true) : t = .idle := by
  cases t with
  | idle => rfl
  | live p log => cases h

/-- What a reader of bodies finds in a result with this status. -/
def dataOf {α : Type} (status : ℕ) (read : Body → Option α) (r : Option (Option Response)) : Option α :=
  r.join.bind fun response => if response.status = status then read response.body else none

theorem dataOf_some {α : Type} {status : ℕ} {read : Body → Option α} {make : α → Body}
    (hread : ∀ body a, read body = some a → body = make a) {r : Option (Option Response)} {a : α}
    (h : dataOf status read r = some a) : r = some (some ⟨status, make a⟩) := by
  obtain ⟨⟨status', body⟩, hr, hdata⟩ := Option.bind_eq_some_iff.mp h
  dsimp only at hdata
  split at hdata
  · rename_i hstatus
    obtain rfl := hstatus
    obtain rfl := hread body a hdata
    exact Option.join_eq_some_iff.mp hr
  · cases hdata

/-- Ana with a community of hers, and Bo. -/
def loft : Db where
  users := [{ id := 1, email := "ana@x.org", name := none, passwordHash := some "7$correct horse", createdAt := 0,
              updatedAt := 0 },
            { id := 2, email := "bo@x.org", name := none, passwordHash := none, createdAt := 0, updatedAt := 0 }]
  communities := [{ id := 10, name := "Loft", description := none, location := none, ownerId := 1, memberCount := 1,
                    createdAt := 0 }]
  communityMembers := [{ id := 11, communityId := 10, userId := 1, role := "owner", joinedAt := 0 }]

theorem not_awaits_done {R : Type} {r : R} {q : Stmt} (h : (Prog.done r : Prog Stmt Answer Thrown Cache R).Awaits q) :
    False := by
  obtain ⟨k, hk⟩ := h
  cases hk

theorem awaits_unique {R : Type} {p : Prog Stmt Answer Thrown Cache R} {q q' : Stmt} (h : p.Awaits q) (h' : p.Awaits q') : q = q' := by
  obtain ⟨k, rfl⟩ := h
  obtain ⟨k', hk⟩ := h'
  cases hk
  rfl

/-! ### In whose name -/

/-- Rows that belong to a user are written in the name of `user`. -/
def Stmt.ActsAs (user : Option Uuid) : Stmt → Prop
  | .updatePasswordHash id _ => user = some id
  | .insertCommunity _ _ _ ownerId => user = some ownerId
  | .insertMember _ userId _ | .insertMemberOnConflict _ userId _ => user = some userId
  | .insertProperty ownerId .. => user = some ownerId
  | .insertVote _ _ _ createdBy _ => user = some createdBy
  | .upsertVoteCast _ userId _ => user = some userId
  | .readNotification _ userId | .readAllNotifications userId => user = some userId
  | .updateUser _ params => ∃ u, params.head? = some (.id u) ∧ user = some u
  | _ => True

theorem Stmt.SentBy.actsAs {svc : Services} {env : NodeEnv} {r : ApiRequest} {user : Option Uuid}
    (hr : r.authorization = none) {q : Stmt} (h : q.SentBy svc env r) : q.ActsAs user := by
  cases q with
  | updatePasswordHash id hash =>
    obtain ⟨authorization, body, password, rfl, -⟩ := h
    cases hr
  | insertCommunity name description location ownerId =>
    obtain ⟨authorization, body, rfl, -⟩ := h
    cases hr
  | insertMember communityId userId role =>
    obtain ⟨authorization, body, rfl, -⟩ := h
    cases hr
  | insertMemberOnConflict communityId userId role =>
    obtain ⟨authorization, rfl, -⟩ := h
    cases hr
  | insertProperty ownerId title type address price description location photos =>
    obtain ⟨authorization, body, rfl, -⟩ := h
    cases hr
  | insertVote communityId title description createdBy closesAt =>
    obtain ⟨authorization, body, rfl⟩ := h
    cases hr
  | upsertVoteCast voteId userId choice =>
    obtain ⟨authorization, id, body, rfl, -⟩ := h
    cases hr
  | readNotification id userId =>
    obtain ⟨authorization, rfl, -⟩ := h
    cases hr
  | readAllNotifications userId =>
    obtain ⟨authorization, rfl, -⟩ := h
    cases hr
  | updateUser updates params => exact h.elim
  | _ => trivial

variable (svc : Services) (env : NodeEnv)

/-- **A handler acts in the name of its user.** -/
theorem handler_actsAs (r : ApiRequest) :
    (r.handler svc env).Sends (Stmt.ActsAs ((Request.api r).user svc env)) := by
  have huser : ∀ {authorization : Option String} {user : AuthUser}, authenticate svc env authorization = some user →
      r.authorization = some authorization → (Request.api r).user svc env = some user.id := by
    intro authorization user hauth hr
    rw [Request.user, Request.authorization, hr, Option.bind_some, hauth, Option.map_some]
  cases r with
  | postAuthChangePassword authorization body =>
    refine authMiddleware_sends svc env fun user hauth => ?_
    split
    swap
    · trivial
    split
    · trivial
    split
    swap
    · trivial
    split
    · trivial
    refine catch500_sends trivial fun rows => ?_
    cases rows with
    | nil => trivial
    | cons row rest =>
      dsimp only
      split
      · trivial
      split
      swap
      · trivial
      split
      · trivial
      exact catch500_sends (huser hauth rfl) fun _ => trivial
  | postCommunities authorization body =>
    refine authMiddleware_sends svc env fun user hauth => ?_
    split
    · trivial
    exact catch500_sends (huser hauth rfl) fun _ => catch500_sends (huser hauth rfl) fun _ => trivial
  | postCommunitiesApply authorization id =>
    refine authMiddleware_sends svc env fun user hauth => ?_
    refine catch500_sends (huser hauth rfl) fun ids => ?_
    dsimp only
    split
    · exact catch500_sends trivial fun _ => trivial
    · trivial
  | postProperties authorization body =>
    refine authMiddleware_sends svc env fun user hauth => ?_
    split
    · trivial
    exact catch500_coerced trivial fun _ _ => catch500_sends (huser hauth rfl) fun _ => trivial
  | postCommunitiesVotes authorization id body =>
    refine authMiddleware_sends svc env fun user hauth => ?_
    split
    · trivial
    exact catch500_sends (huser hauth rfl) fun _ => trivial
  | postVotesCast authorization id voteId body =>
    refine authMiddleware_sends svc env fun user hauth => ?_
    exact catch500_coerced trivial fun _ _ => catch500_sends (huser hauth rfl) fun _ => trivial
  | patchNotificationsRead authorization id =>
    refine authMiddleware_sends svc env fun user hauth => catch500_sends (huser hauth rfl) fun rows => ?_
    cases rows <;> trivial
  | postNotificationsReadAll authorization =>
    exact authMiddleware_sends svc env fun user hauth => catch500_sends (huser hauth rfl) fun _ => trivial
  | getAuthMe authorization =>
    refine authMiddleware_sends svc env fun user _ => catch500_sends trivial fun rows => ?_
    cases rows <;> trivial
  | getNotifications authorization page limit =>
    exact authMiddleware_sends svc env fun user _ => catch500_sends trivial fun _ =>
      catch500_sends trivial fun _ => trivial
  | getNotificationsUnreadCount authorization =>
    exact authMiddleware_sends svc env fun user _ => catch500_sends trivial fun _ => trivial
  | getUsersMe authorization =>
    refine authMiddleware_sends svc env fun user _ => catch500_sends trivial fun rows => ?_
    cases rows <;> trivial
  | getUsersRentals authorization =>
    exact authMiddleware_sends svc env fun user _ => catch500_sends trivial fun _ => trivial
  | getUsersTransactions authorization => exact authMiddleware_sends svc env fun _ _ => trivial
  | _ => exact (handler_sends svc env _).mono fun q hq => hq.actsAs rfl

/-! ### What a request sends -/

def Request.Sends (r : Request) (q : Stmt) : Prop :=
  q.ActsAs (r.user svc env) ∧ match r with
    | .api r => q.SentBy svc env r
    | .putUsersProfile .. => (∃ id, q = .selectUser id) ∨ ∃ updates params, q = .updateUser updates params

theorem putUsersProfile_handler (publicBaseUrl : String) (authorization : Option String) (form : ProfileForm) :
    (∃ text, (Request.putUsersProfile authorization form).handler svc publicBaseUrl env =
        .done (some (failure 401 text))) ∨
      ∃ user, authenticate svc env authorization = some user ∧
        (Request.putUsersProfile authorization form).handler svc publicBaseUrl env =
          putUsersProfile publicBaseUrl user form := by
  unfold Request.handler authenticate
  cases htoken : authMiddleware.bearer authorization with
  | none =>
    simp only [htoken]
    exact .inl ⟨_, rfl⟩
  | some token =>
    simp only [htoken, Option.bind_some]
    cases huser : svc.verify token env.now with
    | none => exact .inl ⟨_, rfl⟩
    | some user => exact .inr ⟨user, rfl, rfl⟩

theorem api_path {publicBaseUrl : String} {r : ApiRequest} {log : List StmtCall} {response : Response}
    (h : ((Request.api r).handler svc publicBaseUrl env).Path log (.done (some response))) :
    (r.handler svc env).Path log (.done response) := by
  obtain ⟨p, hpath, hmap⟩ := Prog.map_path h
  obtain ⟨response', rfl, hresponse⟩ := Prog.map_eq_done hmap.symm
  cases hresponse
  exact hpath

/-- What `PUT /users/profile` answers behind its `UPDATE ... RETURNING *`. -/
def answersProfile (f : List UserRow → ExceptT Thrown (Prog Stmt Answer Thrown Cache) (Option Response)) : Prop :=
  f [] = pure (some (failure 404 "User not found")) ∧
    ∀ row rest, f (row :: rest) = pure (some ⟨200, .profile (userRowToProfile row)⟩)

theorem putUsersProfile_eq (publicBaseUrl : String) (user : AuthUser) (form : ProfileForm) :
    putUsersProfile publicBaseUrl user form = .done none ∨
      ∃ updates params f, params.head? = some (ProfileParam.id user.id) ∧ answersProfile f ∧
        putUsersProfile publicBaseUrl user form = Prog.tryCatch (Prog.await (Stmt.updateUser updates params) >>= f)
          fun err => .done (some (failure 500 err.message)) := by
  unfold putUsersProfile
  cases hupdates : profileUpdates publicBaseUrl user.id form with
  | none => exact .inl rfl
  | some s =>
    have haligned := profileUpdates_spec hupdates
    have hne : s.updates ≠ [] := by
      rw [haligned.updates]
      simp [ProfileForm.values]
    have hhead : s.params.head? = some (ProfileParam.id user.id) := by
      rw [haligned.params]
      rfl
    dsimp only
    rw [if_neg hne]
    exact .inr ⟨s.updates, s.params, _, hhead, ⟨rfl, fun _ _ => rfl⟩, rfl⟩

/-- **A request sends its own statements**, in the name of its user. -/
theorem request_sends (publicBaseUrl : String) (r : Request) :
    (r.handler svc publicBaseUrl env).Sends (r.Sends svc env) := by
  cases r with
  | api r =>
    exact Prog.map_sends ((handler_actsAs svc env r).and (handler_sends svc env r))
  | putUsersProfile authorization form =>
    obtain ⟨text, h⟩ | ⟨user, hauth, h⟩ := putUsersProfile_handler svc env publicBaseUrl authorization form
    · rw [h]
      trivial
    rw [h]
    obtain h | ⟨updates, params, f, hhead, ⟨hnone, hsome⟩, h⟩ := putUsersProfile_eq publicBaseUrl user form
    · rw [h]
      trivial
    rw [h]
    refine Prog.tryCatch_sends ⟨⟨user.id, hhead, ?_⟩, .inr ⟨updates, params, rfl⟩⟩ (fun rows => ?_) fun _ => trivial
    · rw [Request.user, Request.authorization, Option.bind_some, hauth, Option.map_some]
    · cases rows with
      | nil =>
        rw [hnone]
        trivial
      | cons row rest =>
        rw [hsome]
        trivial

end Locus.Server
