import Locus.Server.History

/-!
# The constraints of the schema

The constraints that `db/init.sql` declares on the tables of the server, as a predicate of the database
(`Constrained`): primary keys, the UNIQUE columns and pairs, the foreign keys, the lengths of VARCHAR columns and the
range of INTEGER. A statement checks those that a row of its own can break; no statement breaks another row's, so they
all hold in every state of every run (`constraints_hold`).
-/

namespace Locus.Server

open Lib (System PoolEvent Unique References)

/-- The constraints of `db/init.sql`, under the names that PostgreSQL gives them. -/
structure Constrained (db : Db) : Prop where
  users_pkey : Unique (·.id) db.users
  users_email_key : Unique (·.email) db.users
  users_varchar : ∀ u ∈ db.users, fits 255 u.email ∧ fitsOpt 255 u.name ∧ fitsOpt 50 u.phone ∧ fitsOpt 255 u.passwordHash
  refresh_tokens_pkey : Unique (·.id) db.refreshTokens
  refresh_tokens_token_key : Unique (·.token) db.refreshTokens
  refresh_tokens_user_id_fkey : References (·.userId) (·.id) db.refreshTokens db.users
  communities_pkey : Unique (·.id) db.communities
  communities_varchar : ∀ c ∈ db.communities, fits 255 c.name
  communities_integer : ∀ c ∈ db.communities, -2 ^ 31 ≤ c.memberCount ∧ c.memberCount < 2 ^ 31
  communities_owner_id_fkey : References (·.ownerId) (·.id) db.communities db.users
  community_members_pkey : Unique (·.id) db.communityMembers
  community_members_community_id_user_id_key : Unique (fun m => (m.communityId, m.userId)) db.communityMembers
  community_members_varchar : ∀ m ∈ db.communityMembers, fits 50 m.role
  community_members_community_id_fkey : References (·.communityId) (·.id) db.communityMembers db.communities
  community_members_user_id_fkey : References (·.userId) (·.id) db.communityMembers db.users
  properties_pkey : Unique (·.id) db.properties
  properties_varchar : ∀ p ∈ db.properties, fits 255 p.title ∧ fitsOpt 50 p.type ∧ fits 50 p.status
  properties_owner_id_fkey : References (·.ownerId) (·.id) db.properties db.users
  votes_pkey : Unique (·.id) db.votes
  votes_varchar : ∀ v ∈ db.votes, fits 255 v.title ∧ fits 50 v.status
  votes_community_id_fkey : References (·.communityId) (·.id) db.votes db.communities
  votes_created_by_fkey : References (·.createdBy) (·.id) db.votes db.users
  vote_casts_pkey : Unique (·.id) db.voteCasts
  vote_casts_vote_id_user_id_key : Unique (fun c => (c.voteId, c.userId)) db.voteCasts
  vote_casts_varchar : ∀ c ∈ db.voteCasts, fitsOpt 50 c.choice
  vote_casts_vote_id_fkey : References (·.voteId) (·.id) db.voteCasts db.votes
  vote_casts_user_id_fkey : References (·.userId) (·.id) db.voteCasts db.users
  notifications_pkey : Unique (·.id) db.notifications
  notifications_varchar : ∀ n ∈ db.notifications, fitsOpt 255 n.title
  notifications_user_id_fkey : References (·.userId) (·.id) db.notifications db.users

/-! ### Lengths -/

theorem varchar_fits {n : ℕ} {s stored : String} (h : varchar n s = .ok stored) : fits n stored := by
  unfold varchar at h
  split_ifs at h with hfits
  · cases h
    exact hfits
  · cases h
    rw [fits, decide_eq_true_eq, String.length_ofList, List.length_take]
    exact Nat.min_le_left _ _

theorem mapM_varchar_fits {n : ℕ} {v stored : Option String} (h : v.mapM (varchar n) = .ok stored) :
    fitsOpt n stored := by
  cases v with
  | none =>
    cases h
    rfl
  | some s =>
    rw [Option.mapM_some] at h
    obtain ⟨s', hs, h⟩ := bind_eq_ok.mp h
    cases h
    exact varchar_fits hs

def UserRow.Fits (u : UserRow) : Prop :=
  fits 255 u.email ∧ fitsOpt 255 u.name ∧ fitsOpt 50 u.phone ∧ fitsOpt 255 u.passwordHash

theorem UserRow.Fits.set {c : ProfileColumn} {v stored : Option String} {u : UserRow} (hu : u.Fits)
    (h : c.store v = .ok stored) : (c.set u stored).Fits := by
  obtain ⟨hemail, hname, hphone, hhash⟩ := hu
  cases c with
  | name => exact ⟨hemail, mapM_varchar_fits h, hphone, hhash⟩
  | phone => exact ⟨hemail, hname, mapM_varchar_fits h, hhash⟩
  | bio => exact ⟨hemail, hname, hphone, hhash⟩
  | avatarUrl => exact ⟨hemail, hname, hphone, hhash⟩

theorem UserRow.Fits.assign {params : List ProfileParam} {updates : List (ProfileColumn × ℕ)}
    {values : List (ProfileColumn × Option String)} (h : assignments params updates = .ok values) {u : UserRow}
    (hu : u.Fits) : (values.foldl (fun row v => v.1.set row v.2) u).Fits := by
  induction updates generalizing values u with
  | nil =>
    cases h
    exact hu
  | cons update updates ih =>
    obtain ⟨column, k⟩ := update
    obtain ⟨v, -, h⟩ := bind_eq_ok.mp h
    obtain ⟨stored, hstored, h⟩ := bind_eq_ok.mp h
    obtain ⟨rest, hrest, h⟩ := bind_eq_ok.mp h
    cases h
    exact ih hrest (hu.set hstored)

/-! ### Changes of a table -/

namespace Constrained

variable {db : Db}

theorem of_users {users : List UserRow} (h : Constrained db) (hgrow : Lib.Grows UserRow.Kept db.users users)
    (hid : Unique (·.id) users) (hemail : Unique (·.email) users) (hfits : ∀ u ∈ users, u.Fits) :
    Constrained { db with users } :=
  { h with
    users_pkey := hid
    users_email_key := hemail
    users_varchar := hfits
    refresh_tokens_user_id_fkey := h.refresh_tokens_user_id_fkey.grow hgrow fun hkept => hkept.1
    communities_owner_id_fkey := h.communities_owner_id_fkey.grow hgrow fun hkept => hkept.1
    community_members_user_id_fkey := h.community_members_user_id_fkey.grow hgrow fun hkept => hkept.1
    properties_owner_id_fkey := h.properties_owner_id_fkey.grow hgrow fun hkept => hkept.1
    votes_created_by_fkey := h.votes_created_by_fkey.grow hgrow fun hkept => hkept.1
    vote_casts_user_id_fkey := h.vote_casts_user_id_fkey.grow hgrow fun hkept => hkept.1
    notifications_user_id_fkey := h.notifications_user_id_fkey.grow hgrow fun hkept => hkept.1 }

/-- A change of users that leaves what tells them apart. -/
theorem of_changed {change : UserRow → UserRow} (h : Constrained db) (hkept : ∀ u : UserRow, u.Kept (change u))
    (hfits : ∀ u : UserRow, u.Fits → (change u).Fits) : Constrained { db with users := db.users.map change } := by
  refine h.of_users (.map fun u _ => hkept u) (h.users_pkey.map fun u => (hkept u).1)
    (h.users_email_key.map fun u => (hkept u).2.1) fun u' hu' => ?_
  obtain ⟨u, hu, rfl⟩ := List.mem_map.mp hu'
  exact hfits u (h.users_varchar u hu)

theorem of_communities {communities : List CommunityRow} (h : Constrained db)
    (hgrow : Lib.Grows CommunityRow.Kept db.communities communities) (hid : Unique (·.id) communities)
    (hname : ∀ c ∈ communities, fits 255 c.name)
    (hcount : ∀ c ∈ communities, -2 ^ 31 ≤ c.memberCount ∧ c.memberCount < 2 ^ 31)
    (howner : References (·.ownerId) (·.id) communities db.users) : Constrained { db with communities } :=
  { h with
    communities_pkey := hid
    communities_varchar := hname
    communities_integer := hcount
    communities_owner_id_fkey := howner
    community_members_community_id_fkey :=
      h.community_members_community_id_fkey.grow hgrow fun hkept => by rw [hkept.1]
    votes_community_id_fkey := h.votes_community_id_fkey.grow hgrow fun hkept => by rw [hkept.1] }

end Constrained

/-! ### Statements -/

theorem any_eq_false_iff {α : Type} {p : α → Prop} [DecidablePred p] {rows : List α} :
    ¬ rows.any (fun a => decide (p a)) = true ↔ ∀ a ∈ rows, ¬ p a := by
  simp

theorem exists_of_any {α : Type} {p : α → Prop} [DecidablePred p] {rows : List α}
    (h : ¬ (!rows.any fun a => decide (p a)) = true) : ∃ a ∈ rows, p a := by
  simpa using h

section
variable {svc : Services} {tick : Tick} {db db' : Db}

theorem insertUser_constrained {email : String} {name hash : Option String} {rows : List UserRow}
    (h : Constrained db) (hok : insertUser tick db email name hash = .ok (rows, db')) : Constrained db' := by
  unfold insertUser at hok
  split_ifs at hok with hfits hemail hid
  · cases hok
    exact h
  cases hok
  rw [Bool.not_eq_true, Bool.not_eq_false', Bool.and_eq_true, Bool.and_eq_true] at hfits
  refine h.of_users (.append UserRow.Kept.refl _ _) (h.users_pkey.append (any_eq_false_iff.mp hid))
    (h.users_email_key.append (any_eq_false_iff.mp hemail)) fun u hu => ?_
  rcases List.mem_append.mp hu with hu | hu
  · exact h.users_varchar u hu
  · cases List.mem_singleton.mp hu
    exact ⟨hfits.1.1, hfits.1.2, rfl, hfits.2⟩

theorem updatePasswordHash_constrained {id : Uuid} {hash : String} {a : Unit} (h : Constrained db)
    (hok : updatePasswordHash tick db id hash = .ok (a, db')) : Constrained db' := by
  unfold updatePasswordHash at hok
  split_ifs at hok with hfits
  cases hok
  rw [Bool.not_eq_true, Bool.not_eq_false'] at hfits
  refine h.of_changed (fun u => ?_) fun u hu => ?_
  · split
    · exact ⟨rfl, rfl, rfl, fun _ => rfl⟩
    · exact .refl u
  · split
    · exact ⟨hu.1, hu.2.1, hu.2.2.1, hfits⟩
    · exact hu

theorem updateUser_constrained {updates : List (ProfileColumn × ℕ)} {params : List ProfileParam} {rows : List UserRow}
    (h : Constrained db) (hok : updateUser tick db updates params = .ok (rows, db')) : Constrained db' := by
  obtain ⟨userId, values, -, hvalues, -, rfl⟩ := updateUser_ok hok
  refine h.of_changed (fun u => ?_) fun u hu => ?_
  · split
    · exact UserRow.Kept.assign values u
    · exact .refl u
  · split
    · exact UserRow.Fits.assign hvalues hu
    · exact hu

theorem insertRefreshToken_constrained {userId : Uuid} {token : String} {expiresAt : Time} {a : Unit}
    (h : Constrained db) (hok : insertRefreshToken tick db userId token expiresAt = .ok (a, db')) :
    Constrained db' := by
  unfold insertRefreshToken at hok
  split_ifs at hok with hid htoken huser
  cases hok
  exact { h with
    refresh_tokens_pkey := h.refresh_tokens_pkey.append (any_eq_false_iff.mp hid)
    refresh_tokens_token_key := h.refresh_tokens_token_key.append (any_eq_false_iff.mp htoken)
    refresh_tokens_user_id_fkey := h.refresh_tokens_user_id_fkey.append (exists_of_any huser) }

theorem insertCommunity_constrained {name : String} {description : Option String} {location : Option Json}
    {ownerId : Uuid} {c : CommunityRow} (h : Constrained db)
    (hok : insertCommunity tick db name description location ownerId = .ok (c, db')) : Constrained db' := by
  unfold insertCommunity at hok
  split_ifs at hok with hname _ hid huser
  cases hok
  rw [Bool.not_eq_true, Bool.not_eq_false'] at hname
  refine h.of_communities (.append CommunityRow.Kept.refl _ _) (h.communities_pkey.append (any_eq_false_iff.mp hid))
    (fun c hc => ?_) (fun c hc => ?_) (h.communities_owner_id_fkey.append (exists_of_any huser))
  · rcases List.mem_append.mp hc with hc | hc
    · exact h.communities_varchar c hc
    · cases List.mem_singleton.mp hc
      exact hname
  · rcases List.mem_append.mp hc with hc | hc
    · exact h.communities_integer c hc
    · cases List.mem_singleton.mp hc
      exact ⟨show -2 ^ 31 ≤ (1 : ℤ) by decide, show (1 : ℤ) < 2 ^ 31 by decide⟩

theorem incrementMemberCount_constrained {id : IdParam} {a : Unit} (h : Constrained db)
    (hok : incrementMemberCount db id = .ok (a, db')) : Constrained db' := by
  cases id with
  | malformed text => cases hok
  | uuid id =>
    rw [incrementMemberCount] at hok
    split_ifs at hok with hrange
    cases hok
    have hkept : ∀ row : CommunityRow, row.Kept (if row.id = id then { row with memberCount := row.memberCount + 1 }
        else row) := by
      intro row
      split
      · exact ⟨rfl, by simp⟩
      · exact .refl row
    refine h.of_communities (.map fun row _ => hkept row) (h.communities_pkey.map fun row => by rw [(hkept row).1])
      (fun c hc => ?_) (fun c hc => ?_) (h.communities_owner_id_fkey.map fun row => by rw [(hkept row).1])
    · obtain ⟨row, hrow, rfl⟩ := List.mem_map.mp hc
      rw [(hkept row).1]
      exact h.communities_varchar row hrow
    · obtain ⟨row, hrow, rfl⟩ := List.mem_map.mp hc
      obtain ⟨hlow, hhigh⟩ := h.communities_integer row hrow
      have hroom := any_eq_false_iff.mp hrange row hrow
      split
      · rename_i hid
        have : ¬ 2 ^ 31 - 1 ≤ row.memberCount := fun hle => hroom ⟨hid, hle⟩
        exact ⟨by dsimp only; omega, by dsimp only; omega⟩
      · exact ⟨hlow, hhigh⟩

/-- A row of the members that none of the keys refuses. -/
theorem addMember_constrained {communityId userId : Uuid} {role : String} {id : Uuid} (h : Constrained db)
    (hnew : isMember db communityId userId = false) (hrole : fits 50 role)
    (hok : addMember tick db communityId userId role = .ok (id, db')) : Constrained db' := by
  unfold addMember at hok
  split_ifs at hok with hid hcommunity huser
  cases hok
  have hpair : ∀ m ∈ db.communityMembers, (m.communityId, m.userId) ≠ (communityId, userId) := by
    intro m hm heq
    obtain ⟨hc, hu⟩ := Prod.mk.inj heq
    have hmember : isMember db communityId userId = true :=
      List.any_eq_true.mpr ⟨m, hm, decide_eq_true ⟨hc, hu⟩⟩
    rw [hnew] at hmember
    cases hmember
  exact { h with
    community_members_pkey := h.community_members_pkey.append (any_eq_false_iff.mp hid)
    community_members_community_id_user_id_key := h.community_members_community_id_user_id_key.append hpair
    community_members_varchar := by
      intro m hm
      rcases List.mem_append.mp hm with hm | hm
      · exact h.community_members_varchar m hm
      · cases List.mem_singleton.mp hm
        exact hrole
    community_members_community_id_fkey :=
      h.community_members_community_id_fkey.append (exists_of_any hcommunity)
    community_members_user_id_fkey := h.community_members_user_id_fkey.append (exists_of_any huser) }

theorem insertMember_constrained {communityId userId : Uuid} {role : String} {id : Uuid} (h : Constrained db)
    (hrole : fits 50 role) (hok : insertMember tick db communityId userId role = .ok (id, db')) : Constrained db' := by
  unfold insertMember at hok
  split_ifs at hok with hnew
  exact addMember_constrained h (Bool.eq_false_iff.mpr hnew) hrole hok

theorem insertMemberOnConflict_constrained {communityId : IdParam} {userId : Uuid} {role : String} {ids : List Uuid}
    (h : Constrained db) (hrole : fits 50 role)
    (hok : insertMemberOnConflict tick db communityId userId role = .ok (ids, db')) : Constrained db' := by
  cases communityId with
  | malformed text => cases hok
  | uuid communityId =>
    rw [insertMemberOnConflict] at hok
    split_ifs at hok with hnew
    · cases hok
      exact h
    · cases hadd : addMember tick db communityId userId role with
      | error e =>
        rw [hadd] at hok
        cases hok
      | ok r =>
        rw [hadd] at hok
        cases hok
        exact addMember_constrained h (Bool.eq_false_iff.mpr hnew) hrole hadd

theorem insertProperty_constrained {ownerId : Uuid} {title : String} {type address price description : Option String}
    {location : Option Json} {photos : Json} {row : PropertyRow} (h : Constrained db)
    (hok : insertProperty svc tick db ownerId title type address price description location photos = .ok (row, db')) :
    Constrained db' := by
  unfold insertProperty at hok
  cases hprice : price.mapM svc.decimal with
  | error e =>
    rw [hprice] at hok
    split_ifs at hok <;> cases hok
  | ok price' =>
    rw [hprice] at hok
    split_ifs at hok <;> cases hok
    rename_i huser hid _ htype htitle
    rw [Bool.not_eq_true, Bool.not_eq_false'] at htitle htype
    exact { h with
      properties_pkey := h.properties_pkey.append (any_eq_false_iff.mp hid)
      properties_varchar := by
        intro p hp
        rcases List.mem_append.mp hp with hp | hp
        · exact h.properties_varchar p hp
        · cases List.mem_singleton.mp hp
          exact ⟨htitle, htype, show fits 50 "active" by decide +kernel⟩
      properties_owner_id_fkey := h.properties_owner_id_fkey.append (exists_of_any huser) }

theorem insertVote_constrained {communityId : IdParam} {title : String} {description : Option String}
    {createdBy : Uuid} {closesAt : Option String} {row : VoteRow} (h : Constrained db)
    (hok : insertVote svc tick db communityId title description createdBy closesAt = .ok (row, db')) :
    Constrained db' := by
  unfold insertVote at hok
  split at hok
  · cases hok
  · cases hok
  · split_ifs at hok with htitle hid hcommunity huser
    cases hok
    rw [Bool.not_eq_true, Bool.not_eq_false'] at htitle
    exact { h with
      votes_pkey := h.votes_pkey.append (any_eq_false_iff.mp hid)
      votes_varchar := by
        intro v hv
        rcases List.mem_append.mp hv with hv | hv
        · exact h.votes_varchar v hv
        · cases List.mem_singleton.mp hv
          exact ⟨htitle, show fits 50 "open" by decide +kernel⟩
      votes_community_id_fkey := h.votes_community_id_fkey.append (exists_of_any hcommunity)
      votes_created_by_fkey := h.votes_created_by_fkey.append (exists_of_any huser)
      vote_casts_vote_id_fkey :=
        h.vote_casts_vote_id_fkey.grow (.append Eq.refl _ _) fun heq => by rw [heq] }

theorem upsertVoteCast_constrained {voteId : IdParam} {userId : Uuid} {choice : Option String} {a : Unit}
    (h : Constrained db) (hok : upsertVoteCast tick db voteId userId choice = .ok (a, db')) : Constrained db' := by
  unfold upsertVoteCast at hok
  split at hok
  · cases hok
  · cases hok
  · rename_i voteId stored hstored
    have hfits := mapM_varchar_fits hstored
    split_ifs at hok with hthere hid hvote huser
    · -- the row of the pair changes its choice
      cases hok
      have hset : ∀ row : VoteCastRow, (setChoice voteId userId stored row).id = row.id ∧
          (setChoice voteId userId stored row).voteId = row.voteId ∧
          (setChoice voteId userId stored row).userId = row.userId := by
        intro row
        unfold setChoice
        split <;> exact ⟨rfl, rfl, rfl⟩
      exact { h with
        vote_casts_pkey := h.vote_casts_pkey.map fun row => (hset row).1
        vote_casts_vote_id_user_id_key := h.vote_casts_vote_id_user_id_key.map fun row =>
          Prod.ext (hset row).2.1 (hset row).2.2
        vote_casts_varchar := by
          intro c hc
          obtain ⟨row, hrow, rfl⟩ := List.mem_map.mp hc
          unfold setChoice
          split
          · exact hfits
          · exact h.vote_casts_varchar row hrow
        vote_casts_vote_id_fkey := h.vote_casts_vote_id_fkey.map fun row => (hset row).2.1
        vote_casts_user_id_fkey := h.vote_casts_user_id_fkey.map fun row => (hset row).2.2 }
    · cases hok
      have hpair : ∀ row ∈ db.voteCasts, (row.voteId, row.userId) ≠ (voteId, userId) := by
        intro row hrow heq
        exact any_eq_false_iff.mp hthere row hrow (Prod.mk.inj heq)
      exact { h with
        vote_casts_pkey := h.vote_casts_pkey.append (any_eq_false_iff.mp hid)
        vote_casts_vote_id_user_id_key := h.vote_casts_vote_id_user_id_key.append hpair
        vote_casts_varchar := by
          intro c hc
          rcases List.mem_append.mp hc with hc | hc
          · exact h.vote_casts_varchar c hc
          · cases List.mem_singleton.mp hc
            exact hfits
        vote_casts_vote_id_fkey := h.vote_casts_vote_id_fkey.append (exists_of_any hvote)
        vote_casts_user_id_fkey := h.vote_casts_user_id_fkey.append (exists_of_any huser) }

theorem markRead_constrained (h : Constrained db) (p : NotificationRow → Bool) :
    Constrained { db with notifications := markRead p db.notifications } := by
  have hread : ∀ n : NotificationRow, (if p n then { n with read := true } else n).id = n.id ∧
      (if p n then { n with read := true } else n).title = n.title ∧
      (if p n then { n with read := true } else n).userId = n.userId := by
    intro n
    split <;> exact ⟨rfl, rfl, rfl⟩
  exact { h with
    notifications_pkey := h.notifications_pkey.map fun n => (hread n).1
    notifications_varchar := by
      intro n hn
      obtain ⟨row, hrow, rfl⟩ := List.mem_map.mp hn
      rw [(hread row).2.1]
      exact h.notifications_varchar row hrow
    notifications_user_id_fkey := h.notifications_user_id_fkey.map fun n => (hread n).2.2 }

/-- The role of a statement fits its column. -/
def Stmt.RoleFits : Stmt → Prop
  | .insertMember _ _ role | .insertMemberOnConflict _ _ role => fits 50 role
  | _ => True

/-- **A statement keeps the constraints.** -/
theorem execOk_constrained {q : Stmt} {a : Answer q} (h : Constrained db) (hq : q.RoleFits)
    (hok : execOk svc tick db q = .ok (a, db')) : Constrained db' := by
  cases q with
  | insertUser => exact insertUser_constrained h hok
  | updatePasswordHash => exact updatePasswordHash_constrained h hok
  | updateUser => exact updateUser_constrained h hok
  | insertRefreshToken => exact insertRefreshToken_constrained h hok
  | deleteRefreshToken token =>
    cases hok
    exact { h with
      refresh_tokens_pkey := h.refresh_tokens_pkey.filter _
      refresh_tokens_token_key := h.refresh_tokens_token_key.filter _
      refresh_tokens_user_id_fkey := h.refresh_tokens_user_id_fkey.filter _ }
  | insertCommunity => exact insertCommunity_constrained h hok
  | incrementMemberCount => exact incrementMemberCount_constrained h hok
  | insertMember => exact insertMember_constrained h hq hok
  | insertMemberOnConflict => exact insertMemberOnConflict_constrained h hq hok
  | insertProperty => exact insertProperty_constrained h hok
  | insertVote => exact insertVote_constrained h hok
  | upsertVoteCast => exact upsertVoteCast_constrained h hok
  | readNotification id userId =>
    cases id with
    | malformed text => cases hok
    | uuid id =>
      cases hok
      exact markRead_constrained h _
  | readAllNotifications userId =>
    cases hok
    exact markRead_constrained h _
  | _ => exact execOk_read rfl hok ▸ h

theorem exec_constrained (x : Tick) {q : Stmt} (h : Constrained db) (hq : q.RoleFits) :
    Constrained (exec svc x db q).2 := by
  obtain ⟨a, db', hok, hexec⟩ | ⟨e, hexec, -⟩ := exec_cases svc x db q
  · rw [hexec]
    exact execOk_constrained h hq hok
  · rw [hexec]
    exact h

end

/-! ### Runs -/

section
variable {ι : Type} [DecidableEq ι] {svc : Services} {publicBaseUrl : String} {env : ι → NodeEnv} {req : ι → Request}
  {Init : Db → Prop} {C : WholeServer ι → PoolEvent ι Tick → Prop} {s : WholeServer ι}

/-- The roles that requests write are `owner` and `member`. -/
theorem Request.Sends.roleFits {env : NodeEnv} {r : Request} {q : Stmt} (h : r.Sends svc env q) : q.RoleFits := by
  cases r with
  | api r =>
    cases q with
    | insertMember communityId userId role =>
      obtain ⟨-, authorization, body, -, rfl⟩ := h
      exact (by decide +kernel : fits 50 "owner")
    | insertMemberOnConflict communityId userId role =>
      obtain ⟨-, authorization, -, rfl⟩ := h
      exact (by decide +kernel : fits 50 "member")
    | _ => trivial
  | putUsersProfile authorization form =>
    obtain ⟨-, ⟨id, rfl⟩ | ⟨updates, params, rfl⟩⟩ := h
    · trivial
    · trivial

/-- **The constraints of the schema hold in every state of every run** that starts on a database which meets them. -/
theorem constraints_hold (hinit : ∀ db, Init db → Constrained db)
    (h : (wholeServer svc publicBaseUrl env req Init).Reachable C s) : Constrained s.db := by
  obtain ⟨s₀, tr, h₀, hrun⟩ := h
  exact (Lib.Pool.guarantee (B := fun _ _ => True) wholeServer_sends (fun _ => trivial) (fun _ _ => trivial)
    (fun _ _ x q _ hq hdb => ⟨exec_constrained x hdb hq.roleFits, trivial⟩) (Lib.Pool.onPath_of_idle h₀.2)
    (hinit _ h₀.1.1) hrun).1

theorem constrained_empty : Constrained {} := by
  constructor <;> first | exact List.nodup_nil | exact fun _ h => absurd h List.not_mem_nil

theorem constrained_loft : Constrained loft := by
  constructor <;> decide +kernel

end

end Locus.Server
