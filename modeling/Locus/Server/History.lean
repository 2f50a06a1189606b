import Locus.Lib.Growing
import Locus.Server.Requests

/-!
# What the database never forgets

No route deletes a row, the refresh tokens excepted, and what a route changes of a row that is there is little: a
user keeps id and e-mail, a community its owner and all it was created with, a cast its voter (`Db.Grows`). So
the tables of a later time hold those of an earlier one, whatever requests ran in between (`history_kept`).
-/

namespace Locus.Server

open Lib (System PoolEvent)

/-! ### What is kept of a row -/

/-- A user with a password never loses it. -/
def UserRow.Kept (a b : UserRow) : Prop :=
  b.id = a.id ∧ b.email = a.email ∧ b.createdAt = a.createdAt ∧ (a.passwordHash.isSome → b.passwordHash.isSome)

/-- `member_count` never falls. -/
def CommunityRow.Kept (a b : CommunityRow) : Prop :=
  b = { a with memberCount := b.memberCount } ∧ a.memberCount ≤ b.memberCount

def VoteCastRow.Kept (a b : VoteCastRow) : Prop := b = { a with choice := b.choice }

/-- What was read stays read. -/
def NotificationRow.Kept (a b : NotificationRow) : Prop :=
  b = { a with read := b.read } ∧ (a.read → b.read)

theorem UserRow.Kept.refl (a : UserRow) : a.Kept a := ⟨rfl, rfl, rfl, fun h => h⟩

theorem UserRow.Kept.trans {a b c : UserRow} (h : a.Kept b) (h' : b.Kept c) : a.Kept c :=
  ⟨h'.1.trans h.1, h'.2.1.trans h.2.1, h'.2.2.1.trans h.2.2.1, h'.2.2.2 ∘ h.2.2.2⟩

theorem CommunityRow.Kept.refl (a : CommunityRow) : a.Kept a := ⟨rfl, le_refl _⟩

theorem CommunityRow.Kept.trans {a b c : CommunityRow} (h : a.Kept b) (h' : b.Kept c) : a.Kept c := by
  refine ⟨?_, h.2.trans h'.2⟩
  rw [h'.1, h.1]

theorem VoteCastRow.Kept.refl (a : VoteCastRow) : a.Kept a := rfl

theorem VoteCastRow.Kept.trans {a b c : VoteCastRow} (h : a.Kept b) (h' : b.Kept c) : a.Kept c := by
  unfold VoteCastRow.Kept at *
  rw [h', h]

theorem NotificationRow.Kept.refl (a : NotificationRow) : a.Kept a := ⟨rfl, fun h => h⟩

theorem NotificationRow.Kept.trans {a b c : NotificationRow} (h : a.Kept b) (h' : b.Kept c) : a.Kept c := by
  refine ⟨?_, h'.2 ∘ h.2⟩
  rw [h'.1, h.1]

/-! ### What is kept of the database -/

/-- The later database holds the earlier one, but for the refresh tokens. -/
structure Db.Grows (db db' : Db) : Prop where
  users : Lib.Grows UserRow.Kept db.users db'.users
  communities : Lib.Grows CommunityRow.Kept db.communities db'.communities
  communityMembers : db.communityMembers <+: db'.communityMembers
  properties : db.properties <+: db'.properties
  votes : db.votes <+: db'.votes
  voteCasts : Lib.Grows VoteCastRow.Kept db.voteCasts db'.voteCasts
  notifications : Lib.Grows NotificationRow.Kept db.notifications db'.notifications
  /-- No route creates a notification. -/
  notifications_length : db'.notifications.length = db.notifications.length

namespace Db.Grows

variable {db db' db'' : Db}

theorem refl (db : Db) : db.Grows db where
  users := .refl UserRow.Kept.refl _
  communities := .refl CommunityRow.Kept.refl _
  communityMembers := List.prefix_refl _
  properties := List.prefix_refl _
  votes := List.prefix_refl _
  voteCasts := .refl VoteCastRow.Kept.refl _
  notifications := .refl NotificationRow.Kept.refl _
  notifications_length := rfl

theorem trans (h : db.Grows db') (h' : db'.Grows db'') : db.Grows db'' where
  users := h.users.trans UserRow.Kept.trans h'.users
  communities := h.communities.trans CommunityRow.Kept.trans h'.communities
  communityMembers := h.communityMembers.trans h'.communityMembers
  properties := h.properties.trans h'.properties
  votes := h.votes.trans h'.votes
  voteCasts := h.voteCasts.trans VoteCastRow.Kept.trans h'.voteCasts
  notifications := h.notifications.trans NotificationRow.Kept.trans h'.notifications
  notifications_length := h'.notifications_length.trans h.notifications_length

theorem of_users {users : List UserRow} (h : Lib.Grows UserRow.Kept db.users users) : db.Grows { db with users } :=
  { refl db with users := h }

theorem of_communities {communities : List CommunityRow}
    (h : Lib.Grows CommunityRow.Kept db.communities communities) : db.Grows { db with communities } :=
  { refl db with communities := h }

theorem of_voteCasts {voteCasts : List VoteCastRow} (h : Lib.Grows VoteCastRow.Kept db.voteCasts voteCasts) :
    db.Grows { db with voteCasts } :=
  { refl db with voteCasts := h }

theorem of_member (m : MemberRow) : db.Grows { db with communityMembers := db.communityMembers ++ [m] } :=
  { refl db with communityMembers := List.prefix_append _ _ }

theorem of_markRead (p : NotificationRow → Bool) :
    db.Grows { db with notifications := markRead p db.notifications } :=
  { refl db with
    notifications := by
      refine .map fun n _ => ?_
      split
      · exact ⟨rfl, fun _ => rfl⟩
      · exact .refl n
    notifications_length := List.length_map .. }

end Db.Grows

/-- The assignments of a profile leave the row of its user, and its password. -/
theorem UserRow.Kept.assign (values : List (ProfileColumn × Option String)) (row : UserRow) :
    row.Kept (values.foldl (fun row v => v.1.set row v.2) row) := by
  induction values generalizing row with
  | nil => exact .refl row
  | cons v values ih =>
    have hset : row.Kept (v.1.set row v.2) := by
      obtain ⟨column, value⟩ := v
      cases column <;> exact ⟨rfl, rfl, rfl, fun h => h⟩
    exact hset.trans (ih _)

/-- **A statement forgets nothing.** -/
theorem execOk_grows {svc : Services} {tick : Tick} {db db' : Db} {q : Stmt} {a : Answer q}
    (h : execOk svc tick db q = .ok (a, db')) : db.Grows db' := by
  cases q with
  | insertUser email name hash =>
    obtain ⟨-, rfl⟩ | ⟨user, -, -, -, -, rfl⟩ := insertUser_ok h
    · exact .refl _
    · exact .of_users (.append UserRow.Kept.refl _ _)
  | updatePasswordHash id hash =>
    rw [execOk, updatePasswordHash] at h
    split_ifs at h
    cases h
    refine .of_users (.map fun u _ => ?_)
    split
    · exact ⟨rfl, rfl, rfl, fun _ => rfl⟩
    · exact .refl u
  | updateUser updates params =>
    obtain ⟨userId, values, -, -, -, rfl⟩ := updateUser_ok h
    refine .of_users (.map fun u _ => ?_)
    split
    · exact UserRow.Kept.assign values u
    · exact .refl u
  | insertRefreshToken userId token expiresAt =>
    rw [execOk, insertRefreshToken] at h
    split_ifs at h
    cases h
    exact { Db.Grows.refl db with }
  | deleteRefreshToken token =>
    cases h
    exact { Db.Grows.refl db with }
  | insertCommunity name description location ownerId =>
    obtain ⟨-, -, -, -, -, rfl⟩ := insertCommunity_ok h
    exact .of_communities (.append CommunityRow.Kept.refl _ _)
  | incrementMemberCount id =>
    obtain ⟨c, -, rfl⟩ := incrementMemberCount_ok h
    refine .of_communities (.map fun row _ => ?_)
    split
    · exact ⟨rfl, by simp⟩
    · exact .refl row
  | insertMember communityId userId role =>
    rw [execOk, insertMember] at h
    split_ifs at h
    obtain ⟨m, -, -, -, -, rfl⟩ := addMember_ok h
    exact .of_member m
  | insertMemberOnConflict id userId role =>
    obtain ⟨-, rfl⟩ | ⟨m, -, -, -, -, -, rfl⟩ := insertMemberOnConflict_ok h
    · exact .refl _
    · exact .of_member m
  | insertProperty ownerId title type address price description location photos =>
    obtain ⟨-, -, rfl⟩ := insertProperty_ok h
    exact { Db.Grows.refl db with properties := List.prefix_append _ _ }
  | insertVote communityId title description createdBy closesAt =>
    obtain ⟨-, -, -, rfl⟩ := insertVote_ok h
    exact { Db.Grows.refl db with votes := List.prefix_append _ _ }
  | upsertVoteCast voteId u choice =>
    obtain ⟨v, stored, rows, -, -, rfl, ⟨-, rfl⟩ | ⟨-, -, -, row, -, -, -, rfl⟩⟩ := upsertVoteCast_ok h
    · refine .of_voteCasts (.map fun row _ => ?_)
      unfold setChoice
      split <;> rfl
    · exact .of_voteCasts (.append VoteCastRow.Kept.refl _ _)
  | readNotification id userId =>
    cases id with
    | malformed text => cases h
    | uuid id =>
      cases h
      exact .of_markRead _
  | readAllNotifications userId =>
    cases h
    exact .of_markRead _
  | _ => exact execOk_read rfl h ▸ .refl _

theorem exec_grows (svc : Services) (tick : Tick) (db : Db) (q : Stmt) : db.Grows (exec svc tick db q).2 := by
  obtain ⟨a, db', hok, hexec⟩ | ⟨e, hexec, -⟩ := exec_cases svc tick db q
  · rw [hexec]
    exact execOk_grows hok
  · rw [hexec]
    exact .refl db

/-! ### Runs -/

variable {ι : Type} [DecidableEq ι] {svc : Services} {publicBaseUrl : String} {env : ι → NodeEnv} {req : ι → Request}
  {Init : Db → Prop} {C : WholeServer ι → PoolEvent ι Tick → Prop} {s s' : WholeServer ι}
  {tr : List (PoolEvent ι Tick)}

theorem wholeServer_path (h : (wholeServer svc publicBaseUrl env req Init).Reachable C s) :
    Lib.Pool.OnPath (fun i => (req i).handler svc publicBaseUrl (env i)) s :=
  Lib.Pool.path h

omit [DecidableEq ι] in
theorem result_path (h : Lib.Pool.OnPath (fun i => (req i).handler svc publicBaseUrl (env i)) s) {i : ι}
    {r : Response} (hr : (s.thread i).result = some (some r)) :
    ((req i).handler svc publicBaseUrl (env i)).Path (s.thread i).log (.done (some r)) := by
  obtain ⟨log, hthread⟩ := Lib.Thread.result_eq_some.mp hr
  have hpath := (h i _ _ hthread).1
  rw [hthread]
  exact hpath

omit [DecidableEq ι] in
/-- What is in flight sends the statements of its request. -/
theorem wholeServer_sends (i : ι) :
    ((req i).handler svc publicBaseUrl (env i)).Sends ((req i).Sends svc (env i)) :=
  request_sends svc (env i) publicBaseUrl (req i)

/-- **The server forgets nothing**, refresh tokens excepted: whatever requests run and however their statements
interleave, every row of every table stays, with what it was created with, and no notification comes. -/
theorem history_kept (h : (wholeServer svc publicBaseUrl env req Init).Reachable C s)
    (hrun : (wholeServer svc publicBaseUrl env req Init).Run C s tr s') : s.db.Grows s'.db :=
  (Lib.Pool.guarantee (J := fun _ => True) wholeServer_sends Db.Grows.refl Db.Grows.trans
    (fun t _ x q _ _ _ => ⟨trivial, exec_grows svc x t.db q⟩) (wholeServer_path h) trivial hrun).2

def boApplies : Unit → Request :=
  fun _ => .api (.postCommunitiesApply (some "Bearer 2.0.bo@x.org") (.uuid 10))

theorem history_kept_apply : ∃ s s' : WholeServer Unit, s.db.communityMembers.length = 1 ∧
    s'.db.communityMembers.length = 2 ∧ s.db.Grows s'.db := by
  obtain ⟨s', hrun, hlength⟩ := wholeServer_of_exec plainServices "" (fun _ => ⟨5, "", 0⟩) boApplies loft
    (fun s => s.db.communityMembers.length) [.start (), .answer () { uuid := 12 }, .answer () {}] (a := 2)
    (by decide +kernel)
  exact ⟨_, s', rfl, hlength, history_kept (wholeServer_start ..) hrun⟩

end Locus.Server
