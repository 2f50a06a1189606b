import Locus.Server.Handlers
import Locus.Lib.System

/-!
# The server as a state machine

One process and its database, serving requests one after the other. A route outside the model is an
event that may rewrite `users` (`PUT /users/profile`) and touches no other table of the model.
-/

namespace Locus.Server

open Lib

/-- A request of a modelled route, as far as its handler reads it. -/
inductive ApiRequest
  | postApiUsersRegister (body : Json)
  | postAuthRegister (body : Json)
  | postAuthLogin (body : Json)
  | getAuthMe (authorization : Option String)
  | postAuthRefresh (body : Json)
  | postAuthLogout (body : Json)
  | postAuthChangePassword (authorization : Option String) (body : Json)
  | getCommunities (q : ListQuery)
  | getCommunitiesNearby (q : ListQuery)
  | getCommunitiesId (id : IdParam)
  | postCommunities (authorization : Option String) (body : Json)
  | postCommunitiesApply (authorization : Option String) (id : IdParam)
  | getProperties (q : ListQuery)
  | getPropertiesMap (q : ListQuery)
  | postProperties (authorization : Option String) (body : Json)
  | getCommunitiesVotes (id : IdParam)
  | postCommunitiesVotes (authorization : Option String) (id : IdParam) (body : Json)
  | postVotesCast (authorization : Option String) (id voteId : IdParam) (body : Json)
  | getVotesResults (id voteId : IdParam)
  | getCommunitiesMembers (id : IdParam)
  | getPropertiesId (id : IdParam)
  | getNotifications (authorization page limit : Option String)
  | patchNotificationsRead (authorization : Option String) (id : IdParam)
  | postNotificationsReadAll (authorization : Option String)
  | getNotificationsUnreadCount (authorization : Option String)
  | getUsersMe (authorization : Option String)
  | getUsersRentals (authorization : Option String)
  | getUsersTransactions (authorization : Option String)
  | getRoot
  | getHealth
  | getDbCheck

def ApiRequest.handler (svc : Services) (env : NodeEnv) : ApiRequest → Handler
  | postApiUsersRegister body => Server.postApiUsersRegister body
  | postAuthRegister body => Server.postAuthRegister svc env body
  | postAuthLogin body => Server.postAuthLogin svc env body
  | getAuthMe authorization => Server.getAuthMe svc env authorization
  | postAuthRefresh body => Server.postAuthRefresh svc env body
  | postAuthLogout body => Server.postAuthLogout body
  | postAuthChangePassword authorization body =>
    Server.postAuthChangePassword svc env authorization body
  | getCommunities q => Server.getCommunities svc env q
  | getCommunitiesNearby q => Server.getCommunitiesNearby svc q
  | getCommunitiesId id => Server.getCommunitiesId id
  | postCommunities authorization body => Server.postCommunities svc env authorization body
  | postCommunitiesApply authorization id => Server.postCommunitiesApply svc env authorization id
  | getProperties q => Server.getProperties svc q
  | getPropertiesMap q => Server.getPropertiesMap svc q
  | postProperties authorization body => Server.postProperties svc env authorization body
  | getCommunitiesVotes id => Server.getCommunitiesVotes id
  | postCommunitiesVotes authorization id body =>
    Server.postCommunitiesVotes svc env authorization id body
  | postVotesCast authorization id voteId body =>
    Server.postVotesCast svc env authorization id voteId body
  | getVotesResults id voteId => Server.getVotesResults id voteId
  | getCommunitiesMembers id => Server.getCommunitiesMembers id
  | getPropertiesId id => Server.getPropertiesId id
  | getNotifications authorization page limit => Server.getNotifications svc env authorization page limit
  | patchNotificationsRead authorization id => Server.patchNotificationsRead svc env authorization id
  | postNotificationsReadAll authorization => Server.postNotificationsReadAll svc env authorization
  | getNotificationsUnreadCount authorization => Server.getNotificationsUnreadCount svc env authorization
  | getUsersMe authorization => Server.getUsersMe svc env authorization
  | getUsersRentals authorization => Server.getUsersRentals svc env authorization
  | getUsersTransactions authorization => Server.getUsersTransactions svc env authorization
  | getRoot => Server.getRoot
  | getHealth => Server.getHealth
  | getDbCheck => Server.getDbCheck

structure ServerState where
  db : Db := {}
  cache : Cache := []

inductive ServerEvent
  | request (r : ApiRequest) (env : NodeEnv) (x : ℕ → Tick)
  | elsewhere (users : List UserRow)

/-- The answer to a request, and the server afterwards. -/
def serve (svc : Services) (s : ServerState) (r : ApiRequest) (env : NodeEnv) (x : ℕ → Tick) :
    Response × ServerState :=
  let out := (r.handler svc env).run (exec svc) x s.db s.cache
  (out.1, ⟨out.2.1, out.2.2⟩)

theorem serve_of_run {svc : Services} {s : ServerState} {r : ApiRequest} {env : NodeEnv} {x : ℕ → Tick}
    {response : Response} {db : Db} {cache : Cache}
    (h : (r.handler svc env).run (exec svc) x s.db s.cache = (response, db, cache)) :
    serve svc s r env x = (response, ⟨db, cache⟩) := by
  rw [serve, h]

/-- The server, started on the empty schema. -/
def server (svc : Services) : System ServerState ServerEvent where
  Init s := s = {}
  step s
    | .request r env x => some (serve svc s r env x).2
    | .elsewhere users => some { s with db := { s.db with users } }

/-! ### What a request can write -/

/-- The write is of the route of `r`, with the values of the request; a read can be of any route. -/
def Stmt.SentBy (svc : Services) (env : NodeEnv) (r : ApiRequest) : Stmt → Prop
  | .insertUser _ _ hash => (∃ body, r = .postApiUsersRegister body ∧ hash = none) ∨
      ∃ body password, r = .postAuthRegister body ∧ 8 ≤ jsLength password ∧
        hash = some (svc.hash env.salt password)
  | .updatePasswordHash id hash => ∃ authorization body password,
      r = .postAuthChangePassword authorization body ∧
      (authenticate svc env authorization).map (·.id) = some id ∧ 8 ≤ jsLength password ∧
      hash = svc.hash env.salt password
  | .insertRefreshToken .. => ∃ body, r = .postAuthRegister body ∨ r = .postAuthLogin body ∨
      r = .postAuthRefresh body
  | .deleteRefreshToken token => ∃ body, (r = .postAuthRefresh body ∨ r = .postAuthLogout body) ∧
      textOrNull (body.field? "refresh_token") = some token
  | .insertCommunity _ _ location _ => ∃ authorization body, r = .postCommunities authorization body ∧
      location = jsonOrNull (body.field? "location")
  | .insertMember _ _ role => ∃ authorization body, r = .postCommunities authorization body ∧
      role = "owner"
  | .insertMemberOnConflict id _ role => ∃ authorization, r = .postCommunitiesApply authorization id ∧
      role = "member"
  | .incrementMemberCount id => ∃ authorization, r = .postCommunitiesApply authorization id
  | .insertProperty _ _ _ _ _ _ location _ => ∃ authorization body,
      r = .postProperties authorization body ∧ location = jsonOrNull (body.field? "location")
  | .insertVote id .. => ∃ authorization body, r = .postCommunitiesVotes authorization id body
  | .upsertVoteCast voteId userId choice => ∃ authorization id body,
      r = .postVotesCast authorization id voteId body ∧
      (authenticate svc env authorization).map (·.id) = some userId ∧ choiceOf body = some choice
  | .readNotification id userId => ∃ authorization, r = .patchNotificationsRead authorization id ∧
      (authenticate svc env authorization).map (·.id) = some userId
  | .readAllNotifications userId => ∃ authorization, r = .postNotificationsReadAll authorization ∧
      (authenticate svc env authorization).map (·.id) = some userId
  | .updateUser .. => False
  | _ => True

/-- **A handler keeps to its route**: every write it can send is its route's, with the request's values. -/
theorem handler_sends (svc : Services) (env : NodeEnv) (r : ApiRequest) :
    (r.handler svc env).Sends (Stmt.SentBy svc env r) := by
  cases r with
  | postApiUsersRegister body =>
    rw [ApiRequest.handler, Server.postApiUsersRegister]
    split
    · trivial
    · cases trimmedName (body.field? "name") with
      | none => trivial
      | some name =>
        refine Prog.tryCatch_sends (.inl ⟨body, rfl, rfl⟩) (fun rows => ?_) fun _ => trivial
        cases rows <;> trivial
  | postAuthRegister body =>
    rw [ApiRequest.handler, Server.postAuthRegister]
    split
    · trivial
    split
    · trivial
    rename_i password _
    split
    · trivial
    rename_i hlength
    refine catch500_coerced trivial fun name _ => ?_
    refine catch500_sends (.inr ⟨body, password, rfl, by omega, rfl⟩) fun rows => ?_
    cases rows with
    | nil => trivial
    | cons user rest =>
      dsimp only
      rw [createTokens_bind]
      exact catch500_sends ⟨body, .inl rfl⟩ fun _ => trivial
  | postAuthLogin body =>
    rw [ApiRequest.handler, Server.postAuthLogin]
    split
    swap
    · trivial
    split
    · trivial
    split
    swap
    · trivial
    refine catch500_sends trivial fun rows => ?_
    cases rows with
    | nil => trivial
    | cons user rest =>
      dsimp only
      split
      · trivial
      split
      swap
      · trivial
      split
      · trivial
      rw [createTokens_bind]
      exact catch500_sends ⟨body, .inr (.inl rfl)⟩ fun _ => trivial
  | getAuthMe authorization =>
    refine authMiddleware_sends svc env fun user _ => catch500_sends trivial fun rows => ?_
    cases rows <;> trivial
  | postAuthRefresh body =>
    rw [ApiRequest.handler, Server.postAuthRefresh]
    split
    · trivial
    rename_i token htoken
    refine catch500_sends trivial fun rows => ?_
    cases rows with
    | nil => trivial
    | cons userId rest =>
      refine catch500_sends trivial fun users => ?_
      cases users with
      | nil => trivial
      | cons user rest =>
        exact catch500_sends ⟨body, .inl rfl, htoken⟩ fun _ =>
          catch500_sends ⟨body, .inr (.inr rfl)⟩ fun _ => trivial
  | postAuthLogout body =>
    rw [ApiRequest.handler, Server.postAuthLogout]
    split
    · trivial
    rename_i token htoken
    exact Prog.tryCatch_sends ⟨body, .inr rfl, htoken⟩ (fun _ => trivial) fun _ => trivial
  | postAuthChangePassword authorization body =>
    refine authMiddleware_sends svc env fun user huser => ?_
    split
    swap
    · trivial
    split
    · trivial
    split
    swap
    · trivial
    rename_i newPassword _ _
    split
    · trivial
    rename_i hlength
    refine catch500_sends trivial fun rows => ?_
    cases rows with
    | nil => trivial
    | cons row rest =>
      dsimp only
      split
      · trivial
      split
      swap
      · trivial
      split
      · trivial
      exact catch500_sends ⟨authorization, body, newPassword, rfl, by rw [huser]; rfl, by omega, rfl⟩
        fun _ => trivial
  | getCommunities q =>
    refine getCached_sends fun cached => ?_
    cases cached with
    | some page => trivial
    | none =>
      dsimp only
      split
      · exact catch500_sends trivial fun _ => catch500_sends trivial fun _ => setCache_sends _
      · exact catch500_sends trivial fun _ => catch500_sends trivial fun _ => setCache_sends _
  | getCommunitiesNearby q =>
    rw [ApiRequest.handler, Server.getCommunitiesNearby]
    split
    · trivial
    · exact catch500_sends trivial fun _ => trivial
  | getCommunitiesId id =>
    refine catch500_sends trivial fun rows => ?_
    cases rows <;> trivial
  | postCommunities authorization body =>
    refine authMiddleware_sends svc env fun user _ => ?_
    split
    · trivial
    exact catch500_sends ⟨authorization, body, rfl, rfl⟩ fun _ =>
      catch500_sends ⟨authorization, body, rfl, rfl⟩ fun _ => trivial
  | postCommunitiesApply authorization id =>
    refine authMiddleware_sends svc env fun user _ => ?_
    refine catch500_sends ⟨authorization, rfl, rfl⟩ fun ids => ?_
    dsimp only
    split
    · exact catch500_sends ⟨authorization, rfl⟩ fun _ => trivial
    · trivial
  | getProperties q =>
    rw [ApiRequest.handler, Server.getProperties]
    dsimp only
    split
    · exact catch500_sends trivial fun _ => catch500_sends trivial fun _ => trivial
    · exact catch500_sends trivial fun _ => catch500_sends trivial fun _ => trivial
  | getPropertiesMap q =>
    rw [ApiRequest.handler, Server.getPropertiesMap]
    split
    · trivial
    · exact catch500_sends trivial fun _ => trivial
  | postProperties authorization body =>
    refine authMiddleware_sends svc env fun user _ => ?_
    split
    · trivial
    refine catch500_coerced trivial fun price _ => ?_
    exact catch500_sends ⟨authorization, body, rfl, rfl⟩ fun _ => trivial
  | getCommunitiesVotes id => exact catch500_sends trivial fun _ => trivial
  | postCommunitiesVotes authorization id body =>
    refine authMiddleware_sends svc env fun user _ => ?_
    split
    · trivial
    exact catch500_sends ⟨authorization, body, rfl⟩ fun _ => trivial
  | postVotesCast authorization id voteId body =>
    refine authMiddleware_sends svc env fun user huser => ?_
    refine catch500_coerced trivial fun choice hchoice => ?_
    exact catch500_sends ⟨authorization, id, body, rfl, by rw [huser]; rfl, hchoice⟩ fun _ => trivial
  | getVotesResults id voteId => exact catch500_sends trivial fun _ => trivial
  | getCommunitiesMembers id => exact catch500_sends trivial fun _ => trivial
  | getPropertiesId id =>
    refine catch500_sends trivial fun rows => ?_
    cases rows <;> trivial
  | getNotifications authorization page limit =>
    exact authMiddleware_sends svc env fun user _ => catch500_sends trivial fun _ =>
      catch500_sends trivial fun _ => trivial
  | patchNotificationsRead authorization id =>
    refine authMiddleware_sends svc env fun user huser => ?_
    refine catch500_sends ⟨authorization, rfl, by rw [huser]; rfl⟩ fun rows => ?_
    cases rows <;> trivial
  | postNotificationsReadAll authorization =>
    refine authMiddleware_sends svc env fun user huser => ?_
    exact catch500_sends ⟨authorization, rfl, by rw [huser]; rfl⟩ fun _ => trivial
  | getNotificationsUnreadCount authorization =>
    exact authMiddleware_sends svc env fun user _ => catch500_sends trivial fun _ => trivial
  | getUsersMe authorization =>
    refine authMiddleware_sends svc env fun user _ => catch500_sends trivial fun rows => ?_
    cases rows <;> trivial
  | getUsersRentals authorization =>
    exact authMiddleware_sends svc env fun user _ => catch500_sends trivial fun _ => trivial
  | getUsersTransactions authorization => exact authMiddleware_sends svc env fun _ _ => trivial
  | getRoot => trivial
  | getHealth => trivial
  | getDbCheck => exact Prog.tryCatch_sends trivial (fun _ => trivial) fun _ => trivial

/-! ### Requests in flight -/

/-- A step of the server with many requests in flight: of one of them, or of a route outside the model. -/
inductive ApiEvent (ι : Type)
  | pool (e : PoolEvent ι Tick)
  | elsewhere (users : List UserRow)

section
variable {ι : Type} [DecidableEq ι]

/-- The server with the requests `req`, their statements interleaved in any way. -/
def apiPool (svc : Services) (env : ι → NodeEnv) (req : ι → ApiRequest) (Init : Db → Prop) :
    System (RequestPool ι) (ApiEvent ι) where
  Init s := Init s.db ∧ ∀ i, s.thread i = .idle
  step s
    | .pool e => Pool.step (fun i => (req i).handler svc (env i)) (exec svc) s e
    | .elsewhere users => some { s with db := { s.db with users } }

variable {svc : Services} {env : ι → NodeEnv} {req : ι → ApiRequest} {Init : Db → Prop}

theorem apiPool_onPath_step {s s' : RequestPool ι} {e : ApiEvent ι}
    (hs : Pool.OnPath (fun i => (req i).handler svc (env i)) s)
    (h : (apiPool svc env req Init).step s e = some s') :
    Pool.OnPath (fun i => (req i).handler svc (env i)) s' := by
  cases e with
  | pool e => exact Pool.onPath_step hs h
  | elsewhere users =>
    cases h
    exact hs

/-- **Threads stay on their handlers**, whatever the interleaving. -/
theorem apiPool_onPath {C : RequestPool ι → ApiEvent ι → Prop} {s₀ s : RequestPool ι}
    {tr : List (ApiEvent ι)} (h₀ : (apiPool svc env req Init).Init s₀)
    (h : (apiPool svc env req Init).Run C s₀ tr s) :
    Pool.OnPath (fun i => (req i).handler svc (env i)) s :=
  h.invariant _ (Pool.onPath_of_idle h₀.2) fun _ _ _ hs _ hstep => apiPool_onPath_step hs hstep

end

/-! ### Locations -/

def Stmt.location : Stmt → Option Json
  | .insertCommunity _ _ location _ => location
  | .insertProperty _ _ _ _ _ _ location _ => location
  | _ => none

/-- The location a request asks to store. -/
def ApiRequest.location : ApiRequest → Option Json
  | postCommunities _ body => jsonOrNull (body.field? "location")
  | postProperties _ body => jsonOrNull (body.field? "location")
  | _ => none

/-- The locations stored in `communities` and `properties`. -/
def Db.locations (db : Db) : List Json :=
  db.communities.filterMap (·.location) ++ db.properties.filterMap (·.location)

theorem Stmt.SentBy.location {svc : Services} {env : NodeEnv} {r : ApiRequest} {q : Stmt}
    (h : q.SentBy svc env r) : q.location = none ∨ q.location = r.location := by
  cases q with
  | insertCommunity name description location ownerId =>
    obtain ⟨authorization, body, rfl, hl⟩ := h
    exact .inr hl
  | insertProperty ownerId title type address price description location photos =>
    obtain ⟨authorization, body, rfl, hl⟩ := h
    exact .inr hl
  | _ => exact .inl rfl

theorem countRow_locations (db : Db) (c : Uuid) : (countRow db c).locations = db.locations := by
  simp only [Db.locations, countRow, List.filterMap_map]
  congr 2
  funext row
  dsimp only [Function.comp]
  split <;> rfl

theorem exec_locations (svc : Services) (tick : Tick) (db : Db) (q : Stmt) {l : Json}
    (h : l ∈ (exec svc tick db q).2.locations) : l ∈ db.locations ∨ q.location = some l := by
  obtain ⟨a, db', hok, hexec⟩ | ⟨e, hexec, -⟩ := exec_cases svc tick db q
  swap
  · rw [hexec] at h
    exact .inl h
  rw [hexec] at h
  have hframe := execOk_frame hok
  cases q with
  | insertCommunity name description location ownerId =>
    obtain ⟨-, -, -, hl, -, rfl⟩ := insertCommunity_ok hok
    simp only [Db.locations, List.filterMap_append, List.mem_append] at h ⊢
    rcases h with (h | h) | h
    · exact .inl (.inl h)
    · refine .inr ?_
      simpa [hl, Stmt.location] using h
    · exact .inl (.inr h)
  | incrementMemberCount id =>
    obtain ⟨c, -, rfl⟩ := incrementMemberCount_ok hok
    exact .inl (countRow_locations db c ▸ h)
  | insertProperty ownerId title type address price description location photos =>
    obtain ⟨hl, -, rfl⟩ := insertProperty_ok hok
    simp only [Db.locations, List.filterMap_append, List.mem_append] at h ⊢
    rcases h with h | h | h
    · exact .inl (.inl h)
    · exact .inl (.inr h)
    · refine .inr ?_
      simpa [hl, Stmt.location] using h
  | insertUser | updatePasswordHash | insertRefreshToken | deleteRefreshToken | insertMember
  | insertMemberOnConflict | insertVote | upsertVoteCast | readNotification | readAllNotifications
  | updateUser =>
    obtain ⟨_, rfl⟩ := hframe
    exact .inl h
  | _ =>
    obtain rfl := hframe
    exact .inl h

theorem serve_locations (svc : Services) (s : ServerState) (r : ApiRequest) (env : NodeEnv)
    (x : ℕ → Tick) {l : Json} (h : l ∈ (serve svc s r env x).2.db.locations) :
    l ∈ s.db.locations ∨ r.location = some l := by
  have hinv : ∀ l ∈ ((r.handler svc env).run (exec svc) x s.db s.cache).2.1.locations,
      l ∈ s.db.locations ∨ r.location = some l := by
    refine Prog.Sends.run (I := fun db : Db => ∀ l ∈ db.locations, l ∈ s.db.locations ∨ r.location = some l)
      (handler_sends svc env r) (fun tick db q hq hdb l hl => ?_) fun l hl => .inl hl
    rcases exec_locations svc tick db q hl with hl | hl
    · exact hdb l hl
    · rcases hq.location with hq | hq
      · rw [hq] at hl
        cases hl
      · exact .inr (hq ▸ hl)
  exact hinv l h

end Locus.Server
