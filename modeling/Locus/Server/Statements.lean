import Locus.Lib.Prog
import Locus.Server.JsNumber
import Locus.Server.Services
import Mathlib.Tactic.SplitIfs

/-!
# The SQL statements

Each statement the modelled routes send, as a function on the database under its SQL text, and the
type `Stmt` of all of them. A statement that raises an error leaves the database as it was. The answer
of a statement is what the handler reads of the result: the rows, or the row count.
-/

namespace Locus.Server

open Lib (Prog)

/-! ### Users and refresh tokens -/

/-- `INSERT INTO users (email, name[, password_hash]) VALUES ($1, $2[, $3]) ON CONFLICT (email) DO NOTHING
RETURNING *` -/
def insertUser (tick : Tick) (db : Db) (email : String) (name passwordHash : Option String) :
    Except PgError (List UserRow × Db) :=
  if !(fits 255 email && fitsOpt 255 name && fitsOpt 255 passwordHash) then .error (.valueTooLong 255)
  else if db.users.any (·.email = email) then .ok ([], db)
  else if db.users.any (·.id = tick.uuid) then .error (.uniqueViolation "users_pkey")
  else
    let row : UserRow :=
      { id := tick.uuid, email, name, passwordHash, createdAt := tick.now, updatedAt := tick.now }
    .ok ([row], { db with users := db.users ++ [row] })

theorem insertUser_ok {tick : Tick} {db db' : Db} {email : String} {name hash : Option String}
    {rows : List UserRow} (h : insertUser tick db email name hash = .ok (rows, db')) :
    (rows = [] ∧ db' = db) ∨
      ∃ user, rows = [user] ∧ user.email = email ∧ user.id = tick.uuid ∧ user.passwordHash = hash ∧
        db' = { db with users := db.users ++ [user] } := by
  unfold insertUser at h
  split_ifs at h
  · cases h
    exact .inl ⟨rfl, rfl⟩
  · cases h
    exact .inr ⟨_, rfl, rfl, rfl, rfl, rfl⟩

/-- `SELECT * FROM users WHERE email = $1` -/
def selectUserByEmail (db : Db) (email : String) : List UserRow :=
  db.users.filter (·.email = email)

/-- `SELECT * FROM users WHERE id = $1` -/
def selectUser (db : Db) (id : Uuid) : List UserRow :=
  db.users.filter (·.id = id)

/-- `UPDATE users SET password_hash = $2, updated_at = NOW() WHERE id = $1` -/
def updatePasswordHash (tick : Tick) (db : Db) (id : Uuid) (hash : String) :
    Except PgError (Unit × Db) :=
  if !fits 255 hash then .error (.valueTooLong 255)
  else .ok ((), { db with users := db.users.map fun u =>
    if u.id = id then { u with passwordHash := some hash, updatedAt := tick.now } else u })

/-- `INSERT INTO refresh_tokens (user_id, token, expires_at) VALUES ($1, $2, $3)` -/
def insertRefreshToken (tick : Tick) (db : Db) (userId : Uuid) (token : String) (expiresAt : Time) :
    Except PgError (Unit × Db) :=
  if db.refreshTokens.any (·.id = tick.uuid) then .error (.uniqueViolation "refresh_tokens_pkey")
  else if db.refreshTokens.any (·.token = token) then
    .error (.uniqueViolation "refresh_tokens_token_key")
  else if !db.users.any (·.id = userId) then
    .error (.foreignKeyViolation "refresh_tokens" "refresh_tokens_user_id_fkey")
  else .ok ((), { db with refreshTokens := db.refreshTokens ++
    [{ id := tick.uuid, userId, token, expiresAt, createdAt := tick.now }] })

/-- `SELECT user_id FROM refresh_tokens WHERE token = $1 AND expires_at > NOW()` -/
def selectRefreshToken (tick : Tick) (db : Db) (token : String) : List Uuid :=
  (db.refreshTokens.filter fun r => r.token = token ∧ tick.now < r.expiresAt).map (·.userId)

/-- `DELETE FROM refresh_tokens WHERE token = $1`: the row count. -/
def deleteRefreshToken (db : Db) (token : String) : ℕ × Db :=
  ((db.refreshTokens.filter (·.token = token)).length,
    { db with refreshTokens := db.refreshTokens.filter fun r => ¬ r.token = token })

/-! ### Communities -/

/-- `INSERT INTO communities (name, description, location, owner_id, member_count)
VALUES ($1, $2, $3, $4, 1) RETURNING *` -/
def insertCommunity (tick : Tick) (db : Db) (name : String) (description : Option String)
    (location : Option Json) (ownerId : Uuid) : Except PgError (CommunityRow × Db) :=
  if !fits 255 name then .error (.valueTooLong 255)
  else if !(location.all Json.storable) then .error .unsupportedUnicode
  else if db.communities.any (·.id = tick.uuid) then .error (.uniqueViolation "communities_pkey")
  else if !db.users.any (·.id = ownerId) then
    .error (.foreignKeyViolation "communities" "communities_owner_id_fkey")
  else
    let row : CommunityRow :=
      { id := tick.uuid, name, description, location, ownerId, memberCount := 1, createdAt := tick.now }
    .ok (row, { db with communities := db.communities ++ [row] })

theorem insertCommunity_ok {tick : Tick} {db db' : Db} {name : String} {description : Option String}
    {location : Option Json} {u : Uuid} {c : CommunityRow}
    (h : insertCommunity tick db name description location u = .ok (c, db')) :
    (∀ row ∈ db.communities, row.id ≠ c.id) ∧ c.ownerId = u ∧ c.memberCount = 1 ∧
      c.location = location ∧ db.users.any (·.id = u) ∧
      db' = { db with communities := db.communities ++ [c] } := by
  unfold insertCommunity at h
  split_ifs at h with _ _ hid huser
  cases h
  refine ⟨?_, rfl, rfl, rfl, by simpa using huser, rfl⟩
  simpa using hid

/-- The row is in `community_members` already: the constraint UNIQUE(community_id, user_id). -/
def isMember (db : Db) (communityId userId : Uuid) : Bool :=
  db.communityMembers.any fun m => m.communityId = communityId ∧ m.userId = userId

/-- The part of an INSERT into `community_members` after the uniqueness of the pair. -/
def addMember (tick : Tick) (db : Db) (communityId userId : Uuid) (role : String) :
    Except PgError (Uuid × Db) :=
  if db.communityMembers.any (·.id = tick.uuid) then .error (.uniqueViolation "community_members_pkey")
  else if !db.communities.any (·.id = communityId) then
    .error (.foreignKeyViolation "community_members" "community_members_community_id_fkey")
  else if !db.users.any (·.id = userId) then
    .error (.foreignKeyViolation "community_members" "community_members_user_id_fkey")
  else .ok (tick.uuid, { db with communityMembers := db.communityMembers ++
    [{ id := tick.uuid, communityId, userId, role, joinedAt := tick.now }] })

theorem addMember_ok {tick : Tick} {db db' : Db} {c u : Uuid} {role : String} {id : Uuid}
    (h : addMember tick db c u role = .ok (id, db')) :
    ∃ m : MemberRow, m.communityId = c ∧ m.userId = u ∧ m.role = role ∧
      (∃ row ∈ db.communities, row.id = c) ∧
      db' = { db with communityMembers := db.communityMembers ++ [m] } := by
  unfold addMember at h
  split_ifs at h with _ hc _
  cases h
  exact ⟨_, rfl, rfl, rfl, by simpa using hc, rfl⟩

/-- `INSERT INTO community_members (community_id, user_id, role) VALUES ($1, $2, $3)` -/
def insertMember (tick : Tick) (db : Db) (communityId userId : Uuid) (role : String) :
    Except PgError (Uuid × Db) :=
  if isMember db communityId userId then
    .error (.uniqueViolation "community_members_community_id_user_id_key")
  else addMember tick db communityId userId role

/-- `INSERT INTO community_members (community_id, user_id, role) VALUES ($1, $2, $3)
ON CONFLICT (community_id, user_id) DO NOTHING RETURNING id` -/
def insertMemberOnConflict (tick : Tick) (db : Db) (communityId : IdParam) (userId : Uuid)
    (role : String) : Except PgError (List Uuid × Db) :=
  match communityId with
  | .malformed text => .error (.invalidUuid text)
  | .uuid communityId =>
    if isMember db communityId userId then .ok ([], db)
    else (addMember tick db communityId userId role).map fun r => ([r.1], r.2)

theorem insertMemberOnConflict_ok {tick : Tick} {db db' : Db} {id : IdParam} {u : Uuid} {role : String}
    {ids : List Uuid} (h : insertMemberOnConflict tick db id u role = .ok (ids, db')) :
    (ids = [] ∧ db' = db) ∨
      ∃ m : MemberRow, ids.length > 0 ∧ id = .uuid m.communityId ∧ m.userId = u ∧ m.role = role ∧
        (∃ row ∈ db.communities, row.id = m.communityId) ∧
        db' = { db with communityMembers := db.communityMembers ++ [m] } := by
  cases id with
  | malformed text => cases h
  | uuid c =>
    rw [insertMemberOnConflict] at h
    split_ifs at h
    · cases h
      exact .inl ⟨rfl, rfl⟩
    · cases hadd : addMember tick db c u role with
      | error e =>
        rw [hadd] at h
        cases h
      | ok r =>
        rw [hadd] at h
        cases h
        obtain ⟨m, rfl, hu, hrole, hthere, hd⟩ := addMember_ok hadd
        exact .inr ⟨m, by simp, rfl, hu, hrole, hthere, hd⟩

/-- For a pair that has a row already nothing happens, another pair gets its row. -/
theorem insertMemberOnConflict_uuid {tick : Tick} {db db' : Db} {c u : Uuid} {role : String}
    {ids : List Uuid} (h : insertMemberOnConflict tick db (.uuid c) u role = .ok (ids, db')) :
    (isMember db c u = true ∧ ids = [] ∧ db' = db) ∨
      (isMember db c u = false ∧ ids.length > 0 ∧ ∃ m : MemberRow, m.communityId = c ∧ m.userId = u ∧
        m.role = role ∧ db' = { db with communityMembers := db.communityMembers ++ [m] }) := by
  by_cases hmember : isMember db c u = true
  · rw [insertMemberOnConflict, if_pos hmember] at h
    cases h
    exact .inl ⟨hmember, rfl, rfl⟩
  · rw [insertMemberOnConflict, if_neg hmember] at h
    cases hadd : addMember tick db c u role with
    | error e =>
      rw [hadd] at h
      cases h
    | ok r =>
      rw [hadd] at h
      cases h
      obtain ⟨m, hc, hu, hrole, -, hd⟩ := addMember_ok hadd
      exact .inr ⟨by simpa using hmember, by simp, m, hc, hu, hrole, hd⟩

/-- `member_count` of `c` is one more. -/
def countRow (db : Db) (c : Uuid) : Db :=
  { db with communities := db.communities.map fun row =>
      if row.id = c then { row with memberCount := row.memberCount + 1 } else row }

/-- `UPDATE communities SET member_count = member_count + 1 WHERE id = $1` -/
def incrementMemberCount (db : Db) (id : IdParam) : Except PgError (Unit × Db) :=
  match id with
  | .malformed text => .error (.invalidUuid text)
  | .uuid id =>
    if db.communities.any fun c => c.id = id ∧ 2 ^ 31 - 1 ≤ c.memberCount then .error .integerOutOfRange
    else .ok ((), countRow db id)

theorem incrementMemberCount_ok {db db' : Db} {id : IdParam} {a : Unit}
    (h : incrementMemberCount db id = .ok (a, db')) : ∃ c, id = .uuid c ∧ db' = countRow db c := by
  cases id with
  | malformed text => cases h
  | uuid c =>
    rw [incrementMemberCount] at h
    split_ifs at h
    cases h
    exact ⟨c, rfl, rfl⟩

/-- `SELECT * FROM communities WHERE id = $1` -/
def selectCommunity (db : Db) (id : IdParam) : Except PgError (List CommunityRow) :=
  match id with
  | .malformed text => .error (.invalidUuid text)
  | .uuid id => .ok (db.communities.filter (·.id = id))

theorem bind_eq_ok {ε α β : Type} {x : Except ε α} {f : α → Except ε β} {b : β} :
    x >>= f = .ok b ↔ ∃ a, x = .ok a ∧ f a = .ok b := by
  cases x with
  | error e => exact ⟨fun h => (nomatch h), fun ⟨a, h, _⟩ => (nomatch h)⟩
  | ok a => exact ⟨fun h => ⟨a, rfl, h⟩, fun ⟨_, h, h'⟩ => by cases h; exact h'⟩

/-! ### Lists by distance and by page -/

/-- `ORDER BY created_at DESC`: equal times in the order the environment picks. -/
def newestFirst {α : Type} (tick : Tick) (id : α → Uuid) (createdAt : α → Time) (rows : List α) :
    List α :=
  rows.mergeSort fun a b =>
    decide (createdAt b < createdAt a) ||
      (decide (createdAt a = createdAt b) && decide (tick.tieBreak (id a) ≤ tick.tieBreak (id b)))

theorem newestFirst_perm {α : Type} (tick : Tick) (id : α → Uuid) (createdAt : α → Time) (rows : List α) :
    (newestFirst tick id createdAt rows).Perm rows := List.mergeSort_perm ..

theorem newestFirst_pairwise {α : Type} (tick : Tick) (id : α → Uuid) (createdAt : α → Time) (rows : List α) :
    (newestFirst tick id createdAt rows).Pairwise fun a b => createdAt b < createdAt a ∨
      (createdAt a = createdAt b ∧ tick.tieBreak (id a) ≤ tick.tieBreak (id b)) := by
  have hsorted : (newestFirst tick id createdAt rows).Pairwise fun a b => (decide (createdAt b < createdAt a) ||
      (decide (createdAt a = createdAt b) && decide (tick.tieBreak (id a) ≤ tick.tieBreak (id b)))) = true := by
    refine List.pairwise_mergeSort (fun a b c hab hbc => ?_) (fun a b => ?_) rows
    · simp only [Time, Bool.or_eq_true, Bool.and_eq_true, decide_eq_true_eq] at hab hbc ⊢
      omega
    · simp only [Time, Bool.or_eq_true, Bool.and_eq_true, decide_eq_true_eq]
      omega
  refine hsorted.imp fun h => ?_
  simpa only [Bool.or_eq_true, Bool.and_eq_true, decide_eq_true_eq] using h

/-- Rows without an `ORDER BY`: in the order the environment picks. -/
def anyOrder {α : Type} (tick : Tick) (id : α → Uuid) (rows : List α) : List α :=
  rows.mergeSort fun a b => decide (tick.tieBreak (id a) ≤ tick.tieBreak (id b))

theorem anyOrder_perm {α : Type} (tick : Tick) (id : α → Uuid) (rows : List α) :
    (anyOrder tick id rows).Perm rows := List.mergeSort_perm ..

/-- A `LIMIT` or `OFFSET` argument: JavaScript prints the integers that `bigint` holds as decimals. -/
def readBigint : JsInt → Except PgError ℕ
  | .int n => if 0 ≤ n ∧ n < 2 ^ 63 then .ok n.toNat else .error .invalidBigint
  | _ => .error .invalidBigint

/-- `... LIMIT $m OFFSET $n` -/
def pageOf {α : Type} (limit offset : JsInt) (rows : List α) : Except PgError (List α) := do
  let limit ← readBigint limit
  let offset ← readBigint offset
  return (rows.drop offset).take limit

/-- `((a)::float8 - $1) * ((a)::float8 - $1) + ((b)::float8 - $2) * ((b)::float8 - $2) <= rr` with the
parameters read as `p` and `q`. -/
def withinRadius (f : Float8) (a b : String) (p q rr : f.V) : Except String Bool := do
  let x ← f.sub (← f.cast a) p
  let y ← f.sub (← f.cast b) q
  let xx ← f.mul x x
  let yy ← f.mul y y
  let d ← f.add xx yy
  return f.le d rr

/-- `location IS NOT NULL AND location->>'lat' IS NOT NULL AND location->>'lng' IS NOT NULL AND ...` -/
def nearby (f : Float8) (p q rr : f.V) (location : Option Json) : Except String Bool :=
  match location with
  | none => .ok false
  | some l =>
    match l.textAt "lat", l.textAt "lng" with
    | some a, some b => withinRadius f a b p q rr
    | _, _ => .ok false

/-- The rows whose location passes the distance filter; an error on one row fails the query. -/
def filterNearby {α : Type} (f : Float8) (location : α → Option Json) (p q rr : f.V) :
    List α → Except String (List α)
  | [] => .ok []
  | row :: rows => do
    let near ← nearby f p q rr (location row)
    let rest ← filterNearby f location p q rr rows
    return if near then row :: rest else rest

/-- The `WHERE` of the distance queries. The parameters are read, and `($3::float8) * ($3::float8)` is
computed, once for the query. -/
def selectNearby {α : Type} (f : Float8) (location : α → Option Json) (lat lng radius : String)
    (rows : List α) : Except PgError (List α) := Except.mapError .float8 do
  let p ← f.cast lat
  let q ← f.cast lng
  let r ← f.cast radius
  let rr ← f.mul r r
  filterNearby f location p q rr rows

/-- The rows that are left are those in reach, and the filter goes through on each of them. -/
theorem filterNearby_eq_ok {α : Type} {f : Float8} {location : α → Option Json} {p q rr : f.V} {rows out : List α} :
    filterNearby f location p q rr rows = .ok out ↔
      (∀ row ∈ rows, ∃ near, nearby f p q rr (location row) = .ok near) ∧
      out = rows.filter fun row => (nearby f p q rr (location row)).toOption.getD false := by
  induction rows generalizing out with
  | nil => simp [filterNearby, eq_comm]
  | cons row rows ih =>
    rw [filterNearby, List.forall_mem_cons, List.filter_cons]
    cases hrow : nearby f p q rr (location row) with
    | error e => exact ⟨fun h => (nomatch h), fun ⟨⟨⟨_, h⟩, _⟩, _⟩ => (nomatch h)⟩
    | ok near =>
      cases hrest : filterNearby f location p q rr rows with
      | error e =>
        refine ⟨fun h => (nomatch h), fun ⟨⟨_, hrows⟩, _⟩ => ?_⟩
        have hok := ih.mpr ⟨hrows, rfl⟩
        rw [hrest] at hok
        cases hok
      | ok rest =>
        obtain ⟨hrows, rfl⟩ := ih.mp hrest
        constructor
        · intro h
          obtain rfl := Except.ok.inj h
          exact ⟨⟨⟨near, rfl⟩, hrows⟩, by cases near <;> rfl⟩
        · rintro ⟨-, rfl⟩
          cases near <;> rfl

theorem selectNearby_eq_ok {α : Type} {f : Float8} {location : α → Option Json} {lat lng radius : String}
    {rows out : List α} : selectNearby f location lat lng radius rows = .ok out ↔
      ∃ p q r rr, f.cast lat = .ok p ∧ f.cast lng = .ok q ∧ f.cast radius = .ok r ∧ f.mul r r = .ok rr ∧
        filterNearby f location p q rr rows = .ok out := by
  have hmap : ∀ x : Except String (List α), x.mapError PgError.float8 = .ok out ↔ x = .ok out := by
    intro x
    cases x <;> simp [Except.mapError]
  unfold selectNearby
  rw [hmap]
  simp only [bind_eq_ok, exists_and_left]

theorem selectNearby_sublist {α : Type} {f : Float8} {location : α → Option Json} {lat lng radius : String}
    {rows out : List α} (h : selectNearby f location lat lng radius rows = .ok out) : out.Sublist rows := by
  obtain ⟨p, q, r, rr, -, -, -, -, hfilter⟩ := selectNearby_eq_ok.mp h
  rw [(filterNearby_eq_ok.mp hfilter).2]
  exact List.filter_sublist

theorem mem_pageOf {α : Type} {limit offset : JsInt} {tick : Tick} {id : α → Uuid} {createdAt : α → Time}
    {rows page : List α} (h : pageOf limit offset (newestFirst tick id createdAt rows) = .ok page) :
    ∀ row ∈ page, row ∈ rows := by
  obtain ⟨n, -, h⟩ := bind_eq_ok.mp h
  obtain ⟨m, -, h⟩ := bind_eq_ok.mp h
  obtain rfl := Except.ok.inj h
  intro row hrow
  exact (newestFirst_perm tick id createdAt rows).mem_iff.mp (List.mem_of_mem_drop (List.mem_of_mem_take hrow))

/-! ### Properties -/

/-- `INSERT INTO properties (owner_id, title, type, address, price, description, location, photos, status)
VALUES ($1, $2, $3, $4, $5, $6, $7, $8, 'active') RETURNING *` -/
def insertProperty (svc : Services) (tick : Tick) (db : Db) (ownerId : Uuid) (title : String)
    (type address price description : Option String) (location : Option Json) (photos : Json) :
    Except PgError (PropertyRow × Db) := do
  if !fits 255 title then .error (.valueTooLong 255)
  if !fitsOpt 50 type then .error (.valueTooLong 50)
  let price ← price.mapM svc.decimal
  if !(location.all Json.storable && photos.storable) then .error .unsupportedUnicode
  if db.properties.any (·.id = tick.uuid) then .error (.uniqueViolation "properties_pkey")
  if !db.users.any (·.id = ownerId) then
    .error (.foreignKeyViolation "properties" "properties_owner_id_fkey")
  let row : PropertyRow :=
    { id := tick.uuid, ownerId, title, type, address, price, description, location, photos,
      status := "active", createdAt := tick.now }
  return (row, { db with properties := db.properties ++ [row] })

theorem insertProperty_ok {svc : Services} {tick : Tick} {db db' : Db} {ownerId : Uuid} {title : String}
    {type address price description : Option String} {location : Option Json} {photos : Json}
    {row : PropertyRow} (h : insertProperty svc tick db ownerId title type address price description
      location photos = .ok (row, db')) :
    row.location = location ∧ row.ownerId = ownerId ∧
      db' = { db with properties := db.properties ++ [row] } := by
  unfold insertProperty at h
  cases hprice : price.mapM svc.decimal with
  | error e =>
    rw [hprice] at h
    split_ifs at h <;> cases h
  | ok price' =>
    rw [hprice] at h
    split_ifs at h <;> cases h
    exact ⟨rfl, rfl, rfl⟩

/-! ### Votes -/

/-- `SELECT * FROM votes WHERE community_id = $1 ORDER BY created_at DESC` -/
def selectVotes (tick : Tick) (db : Db) (communityId : IdParam) : Except PgError (List VoteRow) :=
  match communityId with
  | .malformed text => .error (.invalidUuid text)
  | .uuid c => .ok (newestFirst tick (·.id) (·.createdAt) (db.votes.filter (·.communityId = c)))

/-- `INSERT INTO votes (community_id, title, description, created_by, closes_at)
VALUES ($1, $2, $3, $4, $5) RETURNING *` -/
def insertVote (svc : Services) (tick : Tick) (db : Db) (communityId : IdParam) (title : String)
    (description : Option String) (createdBy : Uuid) (closesAt : Option String) :
    Except PgError (VoteRow × Db) :=
  match communityId, closesAt.mapM svc.timestamp with
  | .malformed text, _ => .error (.invalidUuid text)
  | .uuid _, .error e => .error e
  | .uuid communityId, .ok closesAt =>
    if !fits 255 title then .error (.valueTooLong 255)
    else if db.votes.any (·.id = tick.uuid) then .error (.uniqueViolation "votes_pkey")
    else if !db.communities.any (·.id = communityId) then
      .error (.foreignKeyViolation "votes" "votes_community_id_fkey")
    else if !db.users.any (·.id = createdBy) then
      .error (.foreignKeyViolation "votes" "votes_created_by_fkey")
    else
      let row : VoteRow :=
        { id := tick.uuid, communityId, title, description, status := "open", createdBy,
          createdAt := tick.now, closesAt }
      .ok (row, { db with votes := db.votes ++ [row] })

theorem insertVote_ok {svc : Services} {tick : Tick} {db db' : Db} {communityId : IdParam} {title : String}
    {description : Option String} {createdBy : Uuid} {closesAt : Option String} {row : VoteRow}
    (h : insertVote svc tick db communityId title description createdBy closesAt = .ok (row, db')) :
    communityId = .uuid row.communityId ∧ row.status = "open" ∧ row.createdBy = createdBy ∧
      db' = { db with votes := db.votes ++ [row] } := by
  unfold insertVote at h
  split at h
  · cases h
  · cases h
  · split_ifs at h
    cases h
    exact ⟨rfl, rfl, rfl, rfl⟩

/-- `SET choice = $3` of the row of a pair. -/
def setChoice (voteId userId : Uuid) (choice : Option String) (row : VoteCastRow) : VoteCastRow :=
  if row.voteId = voteId ∧ row.userId = userId then { row with choice } else row

/-- `INSERT INTO vote_casts (vote_id, user_id, choice) VALUES ($1, $2, $3)
ON CONFLICT (vote_id, user_id) DO UPDATE SET choice = $3` -/
def upsertVoteCast (tick : Tick) (db : Db) (voteId : IdParam) (userId : Uuid) (choice : Option String) :
    Except PgError (Unit × Db) :=
  match voteId, choice.mapM (varchar 50) with
  | .malformed text, _ => .error (.invalidUuid text)
  | .uuid _, .error e => .error e
  | .uuid voteId, .ok choice =>
    if db.voteCasts.any fun row => row.voteId = voteId ∧ row.userId = userId then
      .ok ((), { db with voteCasts := db.voteCasts.map (setChoice voteId userId choice) })
    else if db.voteCasts.any (·.id = tick.uuid) then .error (.uniqueViolation "vote_casts_pkey")
    else if !db.votes.any (·.id = voteId) then
      .error (.foreignKeyViolation "vote_casts" "vote_casts_vote_id_fkey")
    else if !db.users.any (·.id = userId) then
      .error (.foreignKeyViolation "vote_casts" "vote_casts_user_id_fkey")
    else .ok ((), { db with voteCasts := db.voteCasts ++
      [{ id := tick.uuid, voteId, userId, choice, createdAt := tick.now }] })

theorem upsertVoteCast_ok {tick : Tick} {db db' : Db} {voteId : IdParam} {u : Uuid}
    {choice : Option String} {a : Unit} (h : upsertVoteCast tick db voteId u choice = .ok (a, db')) :
    ∃ v stored rows, voteId = .uuid v ∧ choice.mapM (varchar 50) = .ok stored ∧
      db' = { db with voteCasts := rows } ∧
      (((∃ row ∈ db.voteCasts, row.voteId = v ∧ row.userId = u) ∧
          rows = db.voteCasts.map (setChoice v u stored)) ∨
        ((∀ row ∈ db.voteCasts, ¬ (row.voteId = v ∧ row.userId = u)) ∧
          (∃ vote ∈ db.votes, vote.id = v) ∧ (∃ user ∈ db.users, user.id = u) ∧
          ∃ row : VoteCastRow, row.voteId = v ∧ row.userId = u ∧ row.choice = stored ∧
            rows = db.voteCasts ++ [row])) := by
  unfold upsertVoteCast at h
  split at h
  · cases h
  · cases h
  · rename_i v stored hstored
    refine ⟨v, stored, ?_⟩
    split_ifs at h with hrow _ hvote huser
    · cases h
      exact ⟨_, rfl, hstored, rfl, .inl ⟨by simpa using hrow, rfl⟩⟩
    · cases h
      exact ⟨_, rfl, hstored, rfl, .inr ⟨by simpa using hrow, by simpa using hvote,
        by simpa using huser, _, rfl, rfl, rfl, rfl⟩⟩

/-- A row of the results of a vote: `choice, COUNT(*)::int AS count`. -/
structure ResultRow where
  choice : Option String
  count : ℕ
deriving DecidableEq

/-- `SELECT choice, COUNT(*)::int ... GROUP BY choice` of the rows in some order. -/
def groupByChoice (rows : List VoteCastRow) : List ResultRow :=
  (rows.map (·.choice)).dedup.map fun choice =>
    { choice, count := (rows.filter (·.choice = choice)).length }

/-- `SELECT choice, COUNT(*)::int AS count FROM vote_casts WHERE vote_id = $1 GROUP BY choice` -/
def selectVoteResults (tick : Tick) (db : Db) (voteId : IdParam) : Except PgError (List ResultRow) :=
  match voteId with
  | .malformed text => .error (.invalidUuid text)
  | .uuid v => .ok (groupByChoice (anyOrder tick (·.id) (db.voteCasts.filter (·.voteId = v))))

/-! ### Members and profiles -/

/-- A row of the members of a community: `cm.*, u.email, u.name`. -/
structure MemberProfile where
  member : MemberRow
  email : String
  name : Option String
deriving DecidableEq

/-- `community_members cm JOIN users u ON u.id = cm.user_id WHERE cm.community_id = $1` -/
def joinMembers (db : Db) (c : Uuid) : List MemberProfile :=
  (db.communityMembers.filter (·.communityId = c)).flatMap fun m =>
    (db.users.filter (·.id = m.userId)).map fun u => ⟨m, u.email, u.name⟩

/-- `SELECT cm.*, u.email, u.name FROM community_members cm JOIN users u ON u.id = cm.user_id
WHERE cm.community_id = $1` -/
def selectMembers (tick : Tick) (db : Db) (communityId : IdParam) : Except PgError (List MemberProfile) :=
  match communityId with
  | .malformed text => .error (.invalidUuid text)
  | .uuid c => .ok (anyOrder tick (·.member.id) (joinMembers db c))

/-- `SELECT * FROM properties WHERE id = $1` -/
def selectProperty (db : Db) (id : IdParam) : Except PgError (List PropertyRow) :=
  match id with
  | .malformed text => .error (.invalidUuid text)
  | .uuid id => .ok (db.properties.filter (·.id = id))

/-- The columns of `GET /users/me`. -/
structure UserColumns where
  id : Uuid
  email : String
  name : Option String
  phone : Option String
  bio : Option String
  avatarUrl : Option String
  createdAt : Time
deriving DecidableEq

/-- `SELECT id, email, name, phone, bio, avatar_url, created_at FROM users WHERE id = $1` -/
def selectUserColumns (db : Db) (id : Uuid) : List UserColumns :=
  (db.users.filter (·.id = id)).map fun u =>
    { id := u.id, email := u.email, name := u.name, phone := u.phone, bio := u.bio, avatarUrl := u.avatarUrl
      createdAt := u.createdAt }

/-- `SELECT p.* FROM properties p INNER JOIN community_members cm
ON cm.community_id = (SELECT id FROM communities LIMIT 1) WHERE cm.user_id = $1 LIMIT 100` -/
def selectRentals (tick : Tick) (db : Db) (userId : Uuid) : List PropertyRow :=
  match anyOrder tick (·.id) db.communities with
  | [] => []
  | c :: _ =>
    let rows := db.communityMembers.filter fun m => m.communityId = c.id ∧ m.userId = userId
    (rows.flatMap fun _ => anyOrder tick (·.id) db.properties).take 100

/-! ### Notifications -/

/-- `FROM notifications WHERE user_id = $1` -/
def notificationsOf (db : Db) (userId : Uuid) : List NotificationRow :=
  db.notifications.filter (·.userId = userId)

/-- `SELECT * FROM notifications WHERE user_id = $1 ORDER BY created_at DESC LIMIT $2 OFFSET $3` -/
def selectNotifications (tick : Tick) (db : Db) (userId : Uuid) (limit offset : JsInt) :
    Except PgError (List NotificationRow) :=
  pageOf limit offset (newestFirst tick (·.id) (·.createdAt) (notificationsOf db userId))

/-- `SET read = true` of the rows that meet `p`. -/
def markRead (p : NotificationRow → Bool) (rows : List NotificationRow) : List NotificationRow :=
  rows.map fun n => if p n then { n with read := true } else n

/-- `UPDATE notifications SET read = true WHERE id = $1 AND user_id = $2 RETURNING *` -/
def readNotification (db : Db) (id : IdParam) (userId : Uuid) :
    Except PgError (List NotificationRow × Db) :=
  match id with
  | .malformed text => .error (.invalidUuid text)
  | .uuid id =>
    let hit := fun n : NotificationRow => decide (n.id = id) && decide (n.userId = userId)
    .ok (markRead hit (db.notifications.filter hit),
      { db with notifications := markRead hit db.notifications })

/-- `UPDATE notifications SET read = true WHERE user_id = $1` -/
def readAllNotifications (db : Db) (userId : Uuid) : Db :=
  { db with notifications := markRead (fun n => n.userId = userId) db.notifications }

/-- `SELECT COUNT(*)::int AS count FROM notifications WHERE user_id = $1 AND read = false` -/
def countUnread (db : Db) (userId : Uuid) : ℕ := ((notificationsOf db userId).filter fun n => !n.read).length

/-! ### The profile -/

/-- The columns that `PUT /users/profile` sets. -/
inductive ProfileColumn
  | name
  | phone
  | bio
  | avatarUrl
deriving DecidableEq

/-- A query parameter of that statement: `req.user.id`, or a text or null. -/
inductive ProfileParam
  | id (u : Uuid)
  | text (v : Option String)

/-- What the column stores of a value: `name` is a VARCHAR(255), `phone` a VARCHAR(50). -/
def ProfileColumn.store : ProfileColumn → Option String → Except PgError (Option String)
  | name, v => v.mapM (varchar 255)
  | phone, v => v.mapM (varchar 50)
  | bio, v => .ok v
  | avatarUrl, v => .ok v

/-- `column = value` -/
def ProfileColumn.set (row : UserRow) : ProfileColumn → Option String → UserRow
  | name, v => { row with name := v }
  | phone, v => { row with phone := v }
  | bio, v => { row with bio := v }
  | avatarUrl, v => { row with avatarUrl := v }

/-- No parameter is given for the placeholder `$k`. -/
def missingParam (params : List ProfileParam) (k : ℕ) : PgError :=
  .other ("bind message supplies " ++ toString params.length ++
    " parameters, but prepared statement \"\" requires " ++ toString k)

/-- The value of the placeholder `$k` as a text. -/
def placeholder (params : List ProfileParam) (k : ℕ) : Except PgError (Option String) :=
  match params[k - 1]? with
  | some (.text v) => .ok v
  | some (.id u) => .ok (some (toString u))
  | none => .error (missingParam params k)

/-- The assignments `column = $k, ...` with their values. -/
def assignments (params : List ProfileParam) :
    List (ProfileColumn × ℕ) → Except PgError (List (ProfileColumn × Option String))
  | [] => .ok []
  | (column, k) :: rest => do
    let v ← placeholder params k
    let stored ← column.store v
    return (column, stored) :: (← assignments params rest)

/-- `UPDATE users SET ${updates.join(', ')}, updated_at = NOW() WHERE id = $1 RETURNING *` with the updates
`column = $k`. -/
def updateUser (tick : Tick) (db : Db) (updates : List (ProfileColumn × ℕ)) (params : List ProfileParam) :
    Except PgError (List UserRow × Db) :=
  match params.head? with
  | some (.id userId) => do
    let values ← assignments params updates
    let change := fun row : UserRow =>
      { values.foldl (fun row v => v.1.set row v.2) row with updatedAt := tick.now }
    return ((selectUser db userId).map change,
      { db with users := db.users.map fun row => if row.id = userId then change row else row })
  | some (.text v) => .error (.invalidUuid (v.getD ""))
  | none => .error (missingParam params 1)

theorem updateUser_ok {tick : Tick} {db db' : Db} {updates : List (ProfileColumn × ℕ)}
    {params : List ProfileParam} {rows : List UserRow}
    (h : updateUser tick db updates params = .ok (rows, db')) :
    ∃ userId values, params.head? = some (.id userId) ∧ assignments params updates = .ok values ∧
      rows = (selectUser db userId).map (fun row =>
        { values.foldl (fun row v => v.1.set row v.2) row with updatedAt := tick.now }) ∧
      db' = { db with users := db.users.map fun row => if row.id = userId then
        { values.foldl (fun row v => v.1.set row v.2) row with updatedAt := tick.now } else row } := by
  unfold updateUser at h
  split at h
  · rename_i userId hid
    obtain ⟨values, hvalues, hreturn⟩ := bind_eq_ok.mp h
    cases hreturn
    exact ⟨userId, values, hid, hvalues, rfl, rfl⟩
  · cases h
  · cases h

/-! ### All statements -/

inductive Stmt
  | insertUser (email : String) (name passwordHash : Option String)
  | selectUserByEmail (email : String)
  | selectUser (id : Uuid)
  | updatePasswordHash (id : Uuid) (hash : String)
  | insertRefreshToken (userId : Uuid) (token : String) (expiresAt : Time)
  | selectRefreshToken (token : String)
  | deleteRefreshToken (token : String)
  | insertCommunity (name : String) (description : Option String) (location : Option Json)
      (ownerId : Uuid)
  | insertMember (communityId userId : Uuid) (role : String)
  | insertMemberOnConflict (communityId : IdParam) (userId : Uuid) (role : String)
  | incrementMemberCount (id : IdParam)
  | selectCommunity (id : IdParam)
  | countCommunities
  | selectCommunities (limit offset : JsInt)
  | countCommunitiesNearby (lat lng radius : String)
  | selectCommunitiesNearby (lat lng radius : String) (limit offset : JsInt)
  | insertProperty (ownerId : Uuid) (title : String) (type address price description : Option String)
      (location : Option Json) (photos : Json)
  | countProperties
  | selectProperties (limit offset : JsInt)
  | countPropertiesNearby (lat lng radius : String)
  | selectPropertiesNearby (lat lng radius : String) (limit offset : JsInt)
  | selectVotes (communityId : IdParam)
  | insertVote (communityId : IdParam) (title : String) (description : Option String) (createdBy : Uuid)
      (closesAt : Option String)
  | upsertVoteCast (voteId : IdParam) (userId : Uuid) (choice : Option String)
  | selectVoteResults (voteId : IdParam)
  | selectMembers (communityId : IdParam)
  | selectProperty (id : IdParam)
  | selectUserColumns (id : Uuid)
  | selectRentals (userId : Uuid)
  | selectNow
  | countNotifications (userId : Uuid)
  | selectNotifications (userId : Uuid) (limit offset : JsInt)
  | readNotification (id : IdParam) (userId : Uuid)
  | readAllNotifications (userId : Uuid)
  | countUnread (userId : Uuid)
  | updateUser (updates : List (ProfileColumn × ℕ)) (params : List ProfileParam)

/-- What a handler reads of a statement's result. -/
abbrev Answer : Stmt → Type
  | .insertUser .. => List UserRow
  | .selectUserByEmail _ => List UserRow
  | .selectUser _ => List UserRow
  | .updatePasswordHash .. => Unit
  | .insertRefreshToken .. => Unit
  | .selectRefreshToken _ => List Uuid
  | .deleteRefreshToken _ => ℕ
  | .insertCommunity .. => CommunityRow
  | .insertMember .. => Uuid
  | .insertMemberOnConflict .. => List Uuid
  | .incrementMemberCount _ => Unit
  | .selectCommunity _ => List CommunityRow
  | .countCommunities => ℕ
  | .selectCommunities .. => List CommunityRow
  | .countCommunitiesNearby .. => ℕ
  | .selectCommunitiesNearby .. => List CommunityRow
  | .insertProperty .. => PropertyRow
  | .countProperties => ℕ
  | .selectProperties .. => List PropertyRow
  | .countPropertiesNearby .. => ℕ
  | .selectPropertiesNearby .. => List PropertyRow
  | .selectVotes _ => List VoteRow
  | .insertVote .. => VoteRow
  | .upsertVoteCast .. => Unit
  | .selectVoteResults _ => List ResultRow
  | .selectMembers _ => List MemberProfile
  | .selectProperty _ => List PropertyRow
  | .selectUserColumns _ => List UserColumns
  | .selectRentals _ => List PropertyRow
  | .selectNow => Time
  | .countNotifications _ => ℕ
  | .selectNotifications .. => List NotificationRow
  | .readNotification .. => List NotificationRow
  | .readAllNotifications _ => Unit
  | .countUnread _ => ℕ
  | .updateUser .. => List UserRow

/-- A statement on the database: its answer or error, and the database afterwards if it succeeds. -/
def execOk (svc : Services) (tick : Tick) (db : Db) : (q : Stmt) → Except PgError (Answer q × Db)
  | .insertUser email name passwordHash => insertUser tick db email name passwordHash
  | .selectUserByEmail email => .ok (selectUserByEmail db email, db)
  | .selectUser id => .ok (selectUser db id, db)
  | .updatePasswordHash id hash => updatePasswordHash tick db id hash
  | .insertRefreshToken userId token expiresAt => insertRefreshToken tick db userId token expiresAt
  | .selectRefreshToken token => .ok (selectRefreshToken tick db token, db)
  | .deleteRefreshToken token => .ok (deleteRefreshToken db token)
  | .insertCommunity name description location ownerId =>
    insertCommunity tick db name description location ownerId
  | .insertMember communityId userId role => insertMember tick db communityId userId role
  | .insertMemberOnConflict communityId userId role =>
    insertMemberOnConflict tick db communityId userId role
  | .incrementMemberCount id => incrementMemberCount db id
  | .selectCommunity id => (selectCommunity db id).map (·, db)
  | .countCommunities => .ok (db.communities.length, db)
  | .selectCommunities limit offset =>
    (pageOf limit offset (newestFirst tick (·.id) (·.createdAt) db.communities)).map (·, db)
  | .countCommunitiesNearby lat lng radius =>
    ((selectNearby svc.float8 (·.location) lat lng radius db.communities).map (·.length)).map (·, db)
  | .selectCommunitiesNearby lat lng radius limit offset =>
    (selectNearby svc.float8 (·.location) lat lng radius db.communities >>= fun rows =>
      pageOf limit offset (newestFirst tick (·.id) (·.createdAt) rows)).map (·, db)
  | .insertProperty ownerId title type address price description location photos =>
    insertProperty svc tick db ownerId title type address price description location photos
  | .countProperties => .ok (db.properties.length, db)
  | .selectProperties limit offset =>
    (pageOf limit offset (newestFirst tick (·.id) (·.createdAt) db.properties)).map (·, db)
  | .countPropertiesNearby lat lng radius =>
    ((selectNearby svc.float8 (·.location) lat lng radius db.properties).map (·.length)).map (·, db)
  | .selectPropertiesNearby lat lng radius limit offset =>
    (selectNearby svc.float8 (·.location) lat lng radius db.properties >>= fun rows =>
      pageOf limit offset (newestFirst tick (·.id) (·.createdAt) rows)).map (·, db)
  | .selectVotes communityId => (selectVotes tick db communityId).map (·, db)
  | .insertVote communityId title description createdBy closesAt =>
    insertVote svc tick db communityId title description createdBy closesAt
  | .upsertVoteCast voteId userId choice => upsertVoteCast tick db voteId userId choice
  | .selectVoteResults voteId => (selectVoteResults tick db voteId).map (·, db)
  | .selectMembers communityId => (selectMembers tick db communityId).map (·, db)
  | .selectProperty id => (selectProperty db id).map (·, db)
  | .selectUserColumns id => .ok (selectUserColumns db id, db)
  | .selectRentals userId => .ok (selectRentals tick db userId, db)
  | .selectNow => .ok (tick.now, db)
  | .countNotifications userId => .ok ((notificationsOf db userId).length, db)
  | .selectNotifications userId limit offset =>
    (selectNotifications tick db userId limit offset).map (·, db)
  | .readNotification id userId => readNotification db id userId
  | .readAllNotifications userId => .ok ((), readAllNotifications db userId)
  | .countUnread userId => .ok (countUnread db userId, db)
  | .updateUser updates params => updateUser tick db updates params

def isWrite : Stmt → Bool
  | .insertUser .. | .updatePasswordHash .. | .insertRefreshToken .. | .deleteRefreshToken _
  | .insertCommunity .. | .insertMember .. | .insertMemberOnConflict .. | .incrementMemberCount _
  | .insertProperty .. | .insertVote .. | .upsertVoteCast .. | .readNotification ..
  | .readAllNotifications _ | .updateUser .. => true
  | _ => false

theorem map_pair_ok {α : Type} {db db' : Db} {r : Except PgError α} {a : α}
    (h : r.map (·, db) = .ok (a, db')) : db' = db := by
  cases r with
  | error e => cases h
  | ok b =>
    cases h
    rfl

theorem ok_of_map {α : Type} {db db' : Db} {r : Except PgError α} {a : α}
    (h : r.map (·, db) = .ok (a, db')) : r = .ok a := by
  cases r with
  | error e => cases h
  | ok b =>
    cases h
    rfl

theorem map_pair_fst {α : Type} (db : Db) (r : Except PgError α) : (r.map (·, db)).map (·.1) = r := by
  cases r <;> rfl

theorem execOk_read {svc : Services} {tick : Tick} {db db' : Db} {q : Stmt} {a : Answer q}
    (hq : isWrite q = false) (h : execOk svc tick db q = .ok (a, db')) : db' = db := by
  cases q with
  | selectUserByEmail | selectUser | selectRefreshToken | countCommunities | countProperties
  | selectUserColumns | selectRentals | selectNow | countNotifications | countUnread =>
    cases h
    rfl
  | selectCommunity | selectCommunities | countCommunitiesNearby | selectCommunitiesNearby
  | selectProperties | countPropertiesNearby | selectPropertiesNearby | selectVotes
  | selectVoteResults | selectMembers | selectProperty | selectNotifications => exact map_pair_ok h
  | _ => cases hq

def Stmt.Frame (db db' : Db) : Stmt → Prop
  | .insertUser .. | .updatePasswordHash .. | .updateUser .. => ∃ users, db' = { db with users }
  | .insertRefreshToken .. | .deleteRefreshToken _ => ∃ refreshTokens, db' = { db with refreshTokens }
  | .insertCommunity .. | .incrementMemberCount _ => ∃ communities, db' = { db with communities }
  | .insertMember .. | .insertMemberOnConflict .. => ∃ communityMembers, db' = { db with communityMembers }
  | .insertProperty .. => ∃ properties, db' = { db with properties }
  | .insertVote .. => ∃ votes, db' = { db with votes }
  | .upsertVoteCast .. => ∃ voteCasts, db' = { db with voteCasts }
  | .readNotification .. | .readAllNotifications _ => ∃ notifications, db' = { db with notifications }
  | _ => db' = db

/-- **A statement changes one table.** -/
theorem execOk_frame {svc : Services} {tick : Tick} {db db' : Db} {q : Stmt} {a : Answer q}
    (h : execOk svc tick db q = .ok (a, db')) : q.Frame db db' := by
  cases q with
  | insertUser email name hash =>
    obtain ⟨-, rfl⟩ | ⟨user, -, -, -, -, rfl⟩ := insertUser_ok h <;> exact ⟨_, rfl⟩
  | updatePasswordHash id hash =>
    rw [execOk, updatePasswordHash] at h
    split_ifs at h
    cases h
    exact ⟨_, rfl⟩
  | insertRefreshToken userId token expiresAt =>
    rw [execOk, insertRefreshToken] at h
    split_ifs at h
    cases h
    exact ⟨_, rfl⟩
  | deleteRefreshToken token =>
    cases h
    exact ⟨_, rfl⟩
  | insertCommunity name description location ownerId =>
    obtain ⟨-, -, -, -, -, rfl⟩ := insertCommunity_ok h
    exact ⟨_, rfl⟩
  | insertMember communityId userId role =>
    rw [execOk, insertMember] at h
    split_ifs at h
    obtain ⟨m, -, -, -, -, rfl⟩ := addMember_ok h
    exact ⟨_, rfl⟩
  | insertMemberOnConflict id userId role =>
    obtain ⟨-, rfl⟩ | ⟨m, -, -, -, -, -, rfl⟩ := insertMemberOnConflict_ok h <;> exact ⟨_, rfl⟩
  | incrementMemberCount id =>
    obtain ⟨c, -, rfl⟩ := incrementMemberCount_ok h
    exact ⟨_, rfl⟩
  | insertProperty ownerId title type address price description location photos =>
    obtain ⟨-, -, rfl⟩ := insertProperty_ok h
    exact ⟨_, rfl⟩
  | insertVote communityId title description createdBy closesAt =>
    obtain ⟨-, -, -, rfl⟩ := insertVote_ok h
    exact ⟨_, rfl⟩
  | upsertVoteCast voteId u choice =>
    obtain ⟨v, stored, rows, -, -, rfl, -⟩ := upsertVoteCast_ok h
    exact ⟨_, rfl⟩
  | readNotification id userId =>
    cases id with
    | malformed text => cases h
    | uuid id =>
      cases h
      exact ⟨_, rfl⟩
  | readAllNotifications userId =>
    cases h
    exact ⟨_, rfl⟩
  | updateUser updates params =>
    obtain ⟨userId, values, -, -, -, rfl⟩ := updateUser_ok h
    exact ⟨_, rfl⟩
  | _ => exact execOk_read rfl h

def settleStmt {α : Type} (db : Db) : Except PgError (α × Db) → Except Thrown α × Db
  | .ok (a, db') => (.ok a, db')
  | .error e => (.error (.pg e), db)

/-- PostgreSQL: a fault of the surroundings, or the statement on the database. -/
def exec (svc : Services) : Prog.Outside Tick Db Stmt Answer Thrown := fun tick db q =>
  match tick.fault with
  | some message => (.error (.pg (.other message)), db)
  | none => settleStmt db (execOk svc tick db q)

/-- A statement either succeeds, or fails of itself or by a fault and leaves the database as it was. -/
theorem exec_cases (svc : Services) (tick : Tick) (db : Db) (q : Stmt) :
    (∃ a db', execOk svc tick db q = .ok (a, db') ∧ exec svc tick db q = (.ok a, db')) ∨
    ∃ e, exec svc tick db q = (.error (.pg e), db) ∧
      (execOk svc tick db q = .error e ∨ ∃ message, tick.fault = some message ∧ e = .other message) := by
  unfold exec
  cases tick.fault with
  | some message => exact .inr ⟨_, rfl, .inr ⟨message, rfl, rfl⟩⟩
  | none =>
    cases h : execOk svc tick db q with
    | ok r => exact .inl ⟨r.1, r.2, rfl, rfl⟩
    | error e => exact .inr ⟨e, rfl, .inl rfl⟩

/-- What is not a write leaves the database as it was, whether it fails or not. -/
theorem exec_read (svc : Services) (tick : Tick) (db : Db) {q : Stmt} (hq : isWrite q = false) :
    (exec svc tick db q).2 = db := by
  obtain ⟨a, db', hok, hexec⟩ | ⟨e, hexec, -⟩ := exec_cases svc tick db q
  · rw [hexec]
    exact execOk_read hq hok
  · rw [hexec]

theorem exec_ok {svc : Services} {tick : Tick} {db : Db} {q : Stmt} {a : Answer q}
    (h : (exec svc tick db q).1 = .ok a) : ∃ db', execOk svc tick db q = .ok (a, db') := by
  obtain ⟨a', db', hok, hexec⟩ | ⟨e, hexec, -⟩ := exec_cases svc tick db q
  · rw [hexec] at h
    cases h
    exact ⟨db', hok⟩
  · rw [hexec] at h
    cases h

end Locus.Server
