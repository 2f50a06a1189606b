import Locus.Server.Http

/-!
# The route handlers

The modelled routes of `server.js`, one definition a route, named by its method and path. `env` is
what the handler takes from Node while it runs.
-/

namespace Locus.Server

open Lib (Prog)

variable (svc : Services) (env : NodeEnv)

/-! ### Helpers -/

/-- `REFRESH_TOKEN_EXPIRES_DAYS * 24 * 60 * 60 * 1000` with the default of 30 days. -/
def refreshTokenTtl : Time := 30 * 24 * 60 * 60 * 1000

/-- `const createTokens = async (userId, email) => ...` -/
def createTokens (userId : Uuid) (email : String) : HandlerM (String × String) := do
  let accessToken := svc.sign ⟨userId, email⟩ env.now
  let refresh := env.randomHex
  query (.insertRefreshToken userId refresh (env.now + refreshTokenTtl))
  return (accessToken, refresh)

theorem createTokens_bind (userId : Uuid) (email : String) {T : Type}
    (f : String × String → HandlerM T) :
    createTokens svc env userId email >>= f =
      query (.insertRefreshToken userId env.randomHex (env.now + refreshTokenTtl)) >>= fun _ =>
        f (svc.sign ⟨userId, email⟩ env.now, env.randomHex) := query_bind_assoc _ _

/-- `!v || typeof v !== 'string'` fails: the string. -/
def nonEmptyString : Option Json → Option String
  | some (.str s) => if s = "" then none else some s
  | _ => none

theorem nonEmptyString_some {v : Option Json} {text : String} (h : nonEmptyString v = some text) :
    v = some (.str text) ∧ text ≠ "" := by
  unfold nonEmptyString at h
  split at h
  · split_ifs at h with hempty
    cases h
    exact ⟨rfl, hempty⟩
  · cases h

/-- `v != null ? String(v) : null`; `none` where `String` throws. -/
def stringOrNull : Option Json → Option (Option String)
  | none => some none
  | some .null => some none
  | some v => (v.jsString false).map some

/-- `name != null ? String(name).trim() : null` -/
def trimmedName (name : Option Json) : Option (Option String) := (stringOrNull name).map (·.map jsTrim)

theorem trimmedName_none : trimmedName none = some none := rfl

/-- `v || null` as a text parameter. -/
def textOrNull : Option Json → Option String
  | some v => if v.truthy then some v.toParam else none
  | none => none

/-- `v ? JSON.stringify(v) : null` as a `jsonb` parameter. -/
def jsonOrNull : Option Json → Option Json
  | some v => if v.truthy then some v else none
  | none => none

/-- `typeof v` -/
def typeOf : Json → String
  | .bool _ => "boolean"
  | .num _ => "number"
  | .str _ => "string"
  | _ => "object"

/-- `middleware/auth.js`: the handler behind it gets `req.user`. -/
def authMiddleware (authorization : Option String) (next : AuthUser → Handler) : Handler :=
  match bearer authorization with
  | none => .done (failure 401 "Unauthorized")
  | some token =>
    match svc.verify token env.now with
    | some user => next user
    | none => .done (failure 401 "Invalid token")
where
  bearer : Option String → Option String
    | none => none
    | some auth =>
      let token := String.ofList (auth.toList.drop 7)
      if auth.startsWith "Bearer " ∧ token ≠ "" then some token else none

/-- A route behind `authMiddleware` that has a property of every refusal, and of itself for every user,
has it as a whole. -/
theorem authMiddleware_induction {P : Handler → Prop}
    (authorization : Option String) {next : AuthUser → Handler} (hdone : ∀ r, P (.done r))
    (hnext : ∀ user, P (next user)) : P (authMiddleware svc env authorization next) := by
  unfold authMiddleware
  split
  · exact hdone _
  · split
    · exact hnext _
    · exact hdone _

/-- The user that `authMiddleware` finds. -/
def authenticate (authorization : Option String) : Option AuthUser :=
  (authMiddleware.bearer authorization).bind fun token => svc.verify token env.now

theorem authMiddleware_some {authorization : Option String} {user : AuthUser} (next : AuthUser → Handler)
    (h : authenticate svc env authorization = some user) :
    authMiddleware svc env authorization next = next user := by
  obtain ⟨token, htoken, huser⟩ := Option.bind_eq_some_iff.mp h
  simp only [authMiddleware, htoken, huser]

theorem authMiddleware_none {authorization : Option String} (next : AuthUser → Handler)
    (h : authenticate svc env authorization = none) :
    ∃ text, authMiddleware svc env authorization next = .done (failure 401 text) := by
  unfold authMiddleware
  split
  · exact ⟨_, rfl⟩
  · rename_i token htoken
    rw [authenticate, htoken, Option.bind_some] at h
    rw [h]
    exact ⟨_, rfl⟩

/-- A route behind `authMiddleware` is refused, or is the handler for the user that it finds. -/
theorem authMiddleware_cases {P : Handler → Prop} {authorization : Option String} {next : AuthUser → Handler}
    (hrefused : ∀ text, P (.done (failure 401 text)))
    (hnext : ∀ user, authenticate svc env authorization = some user → P (next user)) :
    P (authMiddleware svc env authorization next) := by
  cases huser : authenticate svc env authorization with
  | none =>
    obtain ⟨text, hdone⟩ := authMiddleware_none svc env next huser
    rw [hdone]
    exact hrefused text
  | some user =>
    rw [authMiddleware_some svc env next huser]
    exact hnext user huser

theorem authMiddleware_sends {P : Stmt → Prop} {authorization : Option String} {next : AuthUser → Handler}
    (h : ∀ user, authenticate svc env authorization = some user → (next user).Sends P) :
    (authMiddleware svc env authorization next).Sends P :=
  authMiddleware_cases svc env (fun _ => trivial) h

/-! ### Auth routes -/

/-- `POST /api/users/register`: the legacy registration without a password. -/
def postApiUsersRegister (body : Json) : Handler :=
  match nonEmptyString (body.field? "email") with
  | none => .done ⟨400, .legacy false (some "email required") none⟩
  | some email =>
    Prog.tryCatch (do
      let name ← coerced (trimmedName (body.field? "name"))
      let rows ← query (.insertUser (jsTrim email) name none)
      match rows with
      | [] => return ⟨200, .legacy true (some "email already exists") none⟩
      | user :: _ => return ⟨201, .legacy true none (some user)⟩)
    fun err => .done ⟨500, .legacy false (some err.message) none⟩

/-- `POST /auth/register` -/
def postAuthRegister (body : Json) : Handler :=
  match nonEmptyString (body.field? "email") with
  | none => .done (failure 400 "email required")
  | some email =>
    match nonEmptyString (body.field? "password") with
    | none => .done (failure 400 "password required, min 8 characters")
    | some password =>
      if jsLength password < 8 then .done (failure 400 "password required, min 8 characters")
      else catch500 do
        let passwordHash := svc.hash env.salt password
        let name ← coerced (trimmedName (body.field? "name"))
        let rows ← query (.insertUser (jsTrim email) (name.filter (· ≠ "")) (some passwordHash))
        match rows with
        | [] => return failure 400 "An account with this email already exists."
        | user :: _ =>
          let (accessToken, refreshToken) ← createTokens svc env user.id user.email
          return ⟨201, .session (userRowToProfile user) accessToken refreshToken⟩

/-- `POST /auth/login` -/
def postAuthLogin (body : Json) : Handler :=
  match body.field? "email", body.field? "password" with
  | some email, some password =>
    if !email.truthy || !password.truthy then .done (failure 400 "email and password required")
    else catch500 do
      match email with
      | .str email =>
        let rows ← query (.selectUserByEmail (jsTrim email))
        match rows with
        | [] => return failure 401 "Invalid email or password"
        | user :: _ =>
          match user.passwordHash.filter (· ≠ "") with
          | none =>
            return failure 401 "Use registration instead. This account has no password set."
          | some hash =>
            match password with
            | .str password =>
              if !svc.compare password hash then return failure 401 "Invalid email or password"
              let (accessToken, refreshToken) ← createTokens svc env user.id user.email
              return ⟨200, .session (userRowToProfile user) accessToken refreshToken⟩
            | v => throw (.js ("Illegal arguments: " ++ typeOf v ++ ", string"))
      | _ => throw (.js "email.trim is not a function")
  | _, _ => .done (failure 400 "email and password required")

/-- `GET /auth/me` -/
def getAuthMe (authorization : Option String) : Handler :=
  authMiddleware svc env authorization fun reqUser => catch500 do
    let rows ← query (.selectUser reqUser.id)
    match rows with
    | [] => return failure 401 "User not found"
    | user :: _ => return ⟨200, .profile (userRowToProfile user)⟩

/-- `POST /auth/refresh` -/
def postAuthRefresh (body : Json) : Handler :=
  match textOrNull (body.field? "refresh_token") with
  | none => .done (failure 400 "refresh_token required")
  | some token => catch500 do
    let rows ← query (.selectRefreshToken token)
    match rows with
    | [] => return failure 401 "Invalid or expired refresh token"
    | userId :: _ =>
      let userRow ← query (.selectUser userId)
      match userRow with
      | [] => return failure 401 "User not found"
      | user :: _ =>
        let accessToken := svc.sign ⟨user.id, user.email⟩ env.now
        let newRefresh := env.randomHex
        let _ ← query (.deleteRefreshToken token)
        query (.insertRefreshToken user.id newRefresh (env.now + refreshTokenTtl))
        return ⟨200, .tokens accessToken newRefresh⟩

/-- `POST /auth/logout` -/
def postAuthLogout (body : Json) : Handler :=
  match textOrNull (body.field? "refresh_token") with
  | none => .done ⟨200, .success⟩
  | some token =>
    Prog.tryCatch (do
      let _ ← query (.deleteRefreshToken token)
      return ⟨200, .success⟩)
    fun _ => .done ⟨200, .success⟩

/-- `POST /auth/change-password` -/
def postAuthChangePassword (authorization : Option String) (body : Json) : Handler :=
  authMiddleware svc env authorization fun reqUser =>
    match body.field? "current_password", body.field? "new_password" with
    | some currentPassword, some newPassword =>
      if !currentPassword.truthy || !newPassword.truthy then
        .done (failure 400 "current_password and new_password required")
      else
        match newPassword with
        | .str newPassword =>
          if jsLength newPassword < 8 then
            .done (failure 400 "new_password must be at least 8 characters")
          else catch500 do
            let rows ← query (.selectUser reqUser.id)
            match rows with
            | [] => return failure 401 "User not found"
            | row :: _ =>
              match row.passwordHash.filter (· ≠ "") with
              | none => return failure 400 "Account has no password set"
              | some hash =>
                match currentPassword with
                | .str currentPassword =>
                  if !svc.compare currentPassword hash then
                    return failure 401 "Current password is incorrect"
                  let newHash := svc.hash env.salt newPassword
                  query (.updatePasswordHash reqUser.id newHash)
                  return ⟨200, .success⟩
                | v => throw (.js ("Illegal arguments: " ++ typeOf v ++ ", string"))
        | _ => .done (failure 400 "new_password must be at least 8 characters")
    | _, _ => .done (failure 400 "current_password and new_password required")

/-! ### Communities -/

structure ListQuery where
  lat : Option String := none
  lng : Option String := none
  radius : Option String := none
  page : Option String := none
  limit : Option String := none

/-- `parseFloat(radius) || 50` -/
def radiusOf (q : ListQuery) : String :=
  let radius := svc.parseFloat q.radius
  if radius = "NaN" ∨ radius = "0" then "50" else radius

/-- `GET /communities` -/
def getCommunities (q : ListQuery) : Handler :=
  let lat := svc.parseFloat q.lat
  let lng := svc.parseFloat q.lng
  let radius := radiusOf svc q
  let ⟨page, limit, offset⟩ := paging 50 10 q.page q.limit
  let cacheKey : CacheKey := ⟨lat, lng, radius, page, limit⟩
  catch500 do
    match ← getCached env.now cacheKey with
    | some cached => return ⟨200, .communityPage cached⟩
    | none =>
      if lat ≠ "NaN" ∧ lng ≠ "NaN" then
        let total ← query (.countCommunitiesNearby lat lng radius)
        let data ← query (.selectCommunitiesNearby lat lng radius limit offset)
        let payload : Page CommunityRow := { data, total, page, limit }
        setCache env.now cacheKey payload
        return ⟨200, .communityPage payload⟩
      else
        let total ← query .countCommunities
        let data ← query (.selectCommunities limit offset)
        let payload : Page CommunityRow := { data, total, page, limit }
        setCache env.now cacheKey payload
        return ⟨200, .communityPage payload⟩

/-- `GET /communities/nearby` -/
def getCommunitiesNearby (q : ListQuery) : Handler :=
  let lat := svc.parseFloat q.lat
  let lng := svc.parseFloat q.lng
  if lat = "NaN" ∨ lng = "NaN" then .done (failure 400 "lat and lng required")
  else catch500 do
    let data ← query (.selectCommunitiesNearby lat lng (radiusOf svc q) (.int 50) (.int 0))
    return ⟨200, .communities data⟩

/-- `GET /communities/:id` -/
def getCommunitiesId (id : IdParam) : Handler := catch500 do
  let rows ← query (.selectCommunity id)
  match rows with
  | [] => return failure 404 "Community not found"
  | row :: _ => return ⟨200, .community row⟩

/-- `POST /communities` -/
def postCommunities (authorization : Option String) (body : Json) : Handler :=
  authMiddleware svc env authorization fun reqUser =>
    match nonEmptyString (body.field? "name") with
    | none => .done (failure 400 "name required")
    | some name => catch500 do
      let community ← query (.insertCommunity (jsTrim name) (textOrNull (body.field? "description"))
        (jsonOrNull (body.field? "location")) reqUser.id)
      let _ ← query (.insertMember community.id reqUser.id "owner")
      return ⟨201, .community community⟩

/-- `POST /communities/:id/apply` -/
def postCommunitiesApply (authorization : Option String) (id : IdParam) : Handler :=
  authMiddleware svc env authorization fun reqUser => catch500 do
    let inserted ← query (.insertMemberOnConflict id reqUser.id "member")
    if inserted.length > 0 then
      query (.incrementMemberCount id)
    return ⟨200, .success⟩

/-- `GET /communities/:id/members` -/
def getCommunitiesMembers (id : IdParam) : Handler := catch500 do
  let rows ← query (.selectMembers id)
  return ⟨200, .members rows⟩

/-! ### Notifications -/

/-- `GET /notifications` -/
def getNotifications (authorization page limit : Option String) : Handler :=
  authMiddleware svc env authorization fun reqUser =>
    let ⟨page, limit, offset⟩ := paging 100 20 page limit
    catch500 do
      let total ← query (.countNotifications reqUser.id)
      let data ← query (.selectNotifications reqUser.id limit offset)
      return ⟨200, .notificationPage { data, total, page, limit }⟩

/-- `PATCH /notifications/:id/read` -/
def patchNotificationsRead (authorization : Option String) (id : IdParam) : Handler :=
  authMiddleware svc env authorization fun reqUser => catch500 do
    let rows ← query (.readNotification id reqUser.id)
    match rows with
    | [] => return failure 404 "Notification not found"
    | row :: _ => return ⟨200, .notification row⟩

/-- `POST /notifications/read-all` -/
def postNotificationsReadAll (authorization : Option String) : Handler :=
  authMiddleware svc env authorization fun reqUser => catch500 do
    query (.readAllNotifications reqUser.id)
    return ⟨200, .success⟩

/-- `GET /notifications/unread-count` -/
def getNotificationsUnreadCount (authorization : Option String) : Handler :=
  authMiddleware svc env authorization fun reqUser => catch500 do
    let count ← query (.countUnread reqUser.id)
    return ⟨200, .count count⟩

/-! ### Votes -/

/-- `GET /communities/:id/votes` -/
def getCommunitiesVotes (id : IdParam) : Handler := catch500 do
  let rows ← query (.selectVotes id)
  return ⟨200, .votes rows⟩

/-- `POST /communities/:id/votes` -/
def postCommunitiesVotes (authorization : Option String) (id : IdParam) (body : Json) : Handler :=
  authMiddleware svc env authorization fun reqUser =>
    match nonEmptyString (body.field? "title") with
    | none => .done (failure 400 "title required")
    | some title => catch500 do
      let row ← query (.insertVote id (jsTrim title) (textOrNull (body.field? "description")) reqUser.id
        (textOrNull (body.field? "closes_at")))
      return ⟨201, .vote row⟩

/-- `choice != null ? String(choice) : null` -/
def choiceOf (body : Json) : Option (Option String) := stringOrNull (body.field? "choice")

/-- `POST /communities/:id/votes/:voteId/cast`; `req.params.id` is not read. -/
def postVotesCast (authorization : Option String) (_id voteId : IdParam) (body : Json) : Handler :=
  authMiddleware svc env authorization fun reqUser => catch500 do
    let choice ← coerced (choiceOf body)
    query (.upsertVoteCast voteId reqUser.id choice)
    return ⟨200, .success⟩

/-- `GET /communities/:id/votes/:voteId/results`; `req.params.id` is not read. -/
def getVotesResults (_id voteId : IdParam) : Handler := catch500 do
  let rows ← query (.selectVoteResults voteId)
  return ⟨200, .results rows⟩

/-! ### Properties -/

/-- `GET /properties` -/
def getProperties (q : ListQuery) : Handler :=
  let lat := svc.parseFloat q.lat
  let lng := svc.parseFloat q.lng
  let radius := radiusOf svc q
  let ⟨page, limit, offset⟩ := paging 50 15 q.page q.limit
  catch500 do
    if lat ≠ "NaN" ∧ lng ≠ "NaN" then
      let total ← query (.countPropertiesNearby lat lng radius)
      let data ← query (.selectPropertiesNearby lat lng radius limit offset)
      return ⟨200, .propertyPage { data, total, page, limit }⟩
    else
      let total ← query .countProperties
      let data ← query (.selectProperties limit offset)
      return ⟨200, .propertyPage { data, total, page, limit }⟩

/-- `Number.isFinite(v) ? v : 0` of `typeof loc[key] === 'number' ? loc[key] : parseFloat(loc[key])`, where the
query has read `loc[key]` as a `float8`: `parseFloat` does not throw there. -/
def coordinate (location : Json) (key : String) : String :=
  let v := match location.field? key with
    | some (.num text) => text
    | v => svc.parseFloat (v.map Json.toJsString)
  if v = "NaN" ∨ v = "Infinity" ∨ v = "-Infinity" then "0" else v

/-- A row of `GET /properties/map`. -/
def pinOf (row : PropertyRow) : Pin :=
  let location := row.location.getD (.obj [])
  { id := row.id
    latitude := coordinate svc location "lat"
    longitude := coordinate svc location "lng"
    rentCentsPerMonth := svc.cents row.price
    isAvailable := row.status = "active" }

/-- `GET /properties/map` -/
def getPropertiesMap (q : ListQuery) : Handler :=
  let lat := svc.parseFloat q.lat
  let lng := svc.parseFloat q.lng
  if lat = "NaN" ∨ lng = "NaN" then .done ⟨200, .pins []⟩
  else catch500 do
    let rows ← query (.selectPropertiesNearby lat lng (radiusOf svc q) (.int 100) (.int 0))
    return ⟨200, .pins (rows.map (pinOf svc))⟩

/-- `GET /properties/:id` -/
def getPropertiesId (id : IdParam) : Handler := catch500 do
  let rows ← query (.selectProperty id)
  match rows with
  | [] => return failure 404 "Property not found"
  | row :: _ => return ⟨200, .property row⟩

/-- `photos ? JSON.stringify(Array.isArray(photos) ? photos : []) : '[]'` -/
def photosOf : Option Json → Json
  | some (.arr items) => .arr items
  | _ => .arr []

/-- `price != null ? Number(price) : null`; `Number` throws where `String` does. -/
def priceOf : Option Json → Option (Option String)
  | none => some none
  | some .null => some none
  | some price => (price.jsString false).map fun _ => some (svc.number price)

/-- `POST /properties` -/
def postProperties (authorization : Option String) (body : Json) : Handler :=
  authMiddleware svc env authorization fun reqUser =>
    match nonEmptyString (body.field? "title") with
    | none => .done (failure 400 "title required")
    | some title => catch500 do
      let price ← coerced (priceOf svc (body.field? "price"))
      let row ← query (.insertProperty reqUser.id (jsTrim title) (textOrNull (body.field? "type"))
        (textOrNull (body.field? "address")) price (textOrNull (body.field? "description"))
        (jsonOrNull (body.field? "location")) (photosOf (body.field? "photos")))
      return ⟨201, .property row⟩

/-! ### Users and the status of the server -/

/-- `GET /users/me` -/
def getUsersMe (authorization : Option String) : Handler :=
  authMiddleware svc env authorization fun reqUser => catch500 do
    let rows ← query (.selectUserColumns reqUser.id)
    match rows with
    | [] => return failure 404 "User not found"
    | row :: _ => return ⟨200, .userColumns row⟩

/-- `GET /users/rentals` -/
def getUsersRentals (authorization : Option String) : Handler :=
  authMiddleware svc env authorization fun reqUser => catch500 do
    let rows ← query (.selectRentals reqUser.id)
    return ⟨200, .properties rows⟩

/-- `GET /users/transactions` -/
def getUsersTransactions (authorization : Option String) : Handler :=
  authMiddleware svc env authorization fun _ => .done ⟨200, .properties []⟩

/-- `GET /` -/
def getRoot : Handler := .done ⟨200, .project⟩

/-- `GET /health` -/
def getHealth : Handler := .done ⟨200, .healthy⟩

/-- `GET /db-check`; PostgreSQL's `version()` is a constant. -/
def getDbCheck : Handler :=
  Prog.tryCatch (do
    let time ← query .selectNow
    return ⟨200, .connected time⟩)
  fun err => .done ⟨500, .dbError err.message⟩

end Locus.Server
