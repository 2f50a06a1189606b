import Locus.Server.History

/-!
# Only a user's own requests write for him

What a statement writes for a user it writes in the name of the user that its request is authenticated as
(`request_sends`). So whatever other requests run and however they interleave, what is there of a user is left as it
is (`others_leave`): his row, his communities but for their count, his memberships, properties, votes, casts and
notifications. His refresh tokens are not among this, `POST /auth/login` and `POST /auth/refresh` write them without an
access token.
-/

namespace Locus.Server

open Lib (System PoolEvent)

/-! ### Rows of others -/

section
variable {α : Type} {p : α → Bool}

theorem filter_append_other {rows : List α} {a : α} (h : p a = false) : (rows ++ [a]).filter p = rows.filter p := by
  rw [List.filter_append, List.filter_cons_of_neg (by rw [h]; decide), List.filter_nil, List.append_nil]

theorem map_filter_map {β : Type} {f : α → α} {g : α → β} (hp : ∀ a, p (f a) = p a) (hg : ∀ a, g (f a) = g a)
    (rows : List α) : ((rows.map f).filter p).map g = (rows.filter p).map g := by
  rw [List.filter_map, List.map_map, show p ∘ f = p from funext hp, show g ∘ f = g from funext hg]

theorem filter_map_other {f : α → α} {rows : List α} (hp : ∀ a ∈ rows, p (f a) = p a)
    (hf : ∀ a ∈ rows, p a → f a = a) : (rows.map f).filter p = rows.filter p := by
  induction rows with
  | nil => rfl
  | cons a rows ih =>
    have hrest := ih (fun b hb => hp b (List.mem_cons_of_mem _ hb)) fun b hb => hf b (List.mem_cons_of_mem _ hb)
    rw [List.map_cons, List.filter_cons, List.filter_cons, hp a List.mem_cons_self, hrest]
    split
    · rename_i ha
      rw [hf a List.mem_cons_self ha]
    · rfl

end

def CommunityRow.uncounted (c : CommunityRow) : CommunityRow := { c with memberCount := 0 }

/-- What there is of the user `v` is as it was. -/
structure Untouched (v : Uuid) (db db' : Db) : Prop where
  user : selectUser db' v = selectUser db v
  communities : (db'.communities.filter (·.ownerId = v)).map (·.uncounted) =
    (db.communities.filter (·.ownerId = v)).map (·.uncounted)
  communityMembers : db'.communityMembers.filter (·.userId = v) = db.communityMembers.filter (·.userId = v)
  properties : db'.properties.filter (·.ownerId = v) = db.properties.filter (·.ownerId = v)
  votes : db'.votes.filter (·.createdBy = v) = db.votes.filter (·.createdBy = v)
  voteCasts : db'.voteCasts.filter (·.userId = v) = db.voteCasts.filter (·.userId = v)
  notifications : notificationsOf db' v = notificationsOf db v

namespace Untouched

variable {v : Uuid} {db db' db'' : Db}

theorem refl (v : Uuid) (db : Db) : Untouched v db db := ⟨rfl, rfl, rfl, rfl, rfl, rfl, rfl⟩

theorem trans (h : Untouched v db db') (h' : Untouched v db' db'') : Untouched v db db'' where
  user := h'.user.trans h.user
  communities := h'.communities.trans h.communities
  communityMembers := h'.communityMembers.trans h.communityMembers
  properties := h'.properties.trans h.properties
  votes := h'.votes.trans h.votes
  voteCasts := h'.voteCasts.trans h.voteCasts
  notifications := h'.notifications.trans h.notifications

theorem of_users {users : List UserRow} (h : users.filter (·.id = v) = db.users.filter (·.id = v)) :
    Untouched v db { db with users } :=
  { refl v db with user := h }

theorem of_changed {u : Uuid} (hu : u ≠ v) {change : UserRow → UserRow} (hid : ∀ row, (change row).id = row.id) :
    Untouched v db { db with users := db.users.map fun row => if row.id = u then change row else row } := by
  refine of_users (filter_map_other (fun row _ => ?_) fun row _ hrow => ?_)
  · split
    · rw [hid]
    · rfl
  · rw [if_neg]
    rw [of_decide_eq_true hrow]
    exact hu.symm

theorem of_member {m : MemberRow} (hm : m.userId ≠ v) :
    Untouched v db { db with communityMembers := db.communityMembers ++ [m] } :=
  { refl v db with communityMembers := filter_append_other (decide_eq_false hm) }

theorem of_count (c : Uuid) : Untouched v db (countRow db c) := by
  refine { refl v db with communities := map_filter_map (fun row => ?_) (fun row => ?_) db.communities }
  · split <;> rfl
  · split <;> rfl

theorem of_markRead {p : NotificationRow → Bool} (hp : ∀ n, p n → n.userId ≠ v) :
    Untouched v db { db with notifications := markRead p db.notifications } := by
  refine { refl v db with notifications := filter_map_other (fun n _ => ?_) fun n _ hn => ?_ }
  · split <;> rfl
  · rw [if_neg]
    exact fun h => hp n h (of_decide_eq_true hn)

end Untouched

theorem assign_id (values : List (ProfileColumn × Option String)) (row : UserRow) :
    (values.foldl (fun row v => v.1.set row v.2) row).id = row.id :=
  (UserRow.Kept.assign values row).1

/-- **A statement leaves what is not its user's.** -/
theorem execOk_untouched {svc : Services} {tick : Tick} {db db' : Db} {q : Stmt} {a : Answer q} {user : Option Uuid}
    {v : Uuid} (hq : q.ActsAs user) (huser : user ≠ some v) (hv : ∃ row ∈ db.users, row.id = v)
    (h : execOk svc tick db q = .ok (a, db')) : Untouched v db db' := by
  have hother : ∀ {u}, user = some u → u ≠ v := fun h h' => huser (h' ▸ h)
  cases q with
  | insertUser email name hash =>
    rw [execOk, insertUser] at h
    split_ifs at h with _ _ hid
    · cases h
      exact .refl v _
    cases h
    refine .of_users (filter_append_other (decide_eq_false fun hnew => ?_))
    -- the new id is not one of a user that there is
    obtain ⟨row, hrow, rfl⟩ := hv
    exact hid (List.any_eq_true.mpr ⟨row, hrow, decide_eq_true hnew.symm⟩)
  | updatePasswordHash id hash =>
    rw [execOk, updatePasswordHash] at h
    split_ifs at h
    cases h
    exact .of_changed (hother hq) fun _ => rfl
  | updateUser updates params =>
    obtain ⟨u, hu, huser'⟩ := hq
    obtain ⟨userId, values, hhead, -, -, rfl⟩ := updateUser_ok h
    cases hhead.symm.trans hu
    exact .of_changed (hother huser') fun row => assign_id values row
  | insertRefreshToken userId token expiresAt =>
    rw [execOk, insertRefreshToken] at h
    split_ifs at h
    cases h
    exact { Untouched.refl v db with }
  | deleteRefreshToken token =>
    cases h
    exact { Untouched.refl v db with }
  | insertCommunity name description location ownerId =>
    obtain ⟨-, howner, -, -, -, rfl⟩ := insertCommunity_ok h
    exact { Untouched.refl v db with
      communities := congrArg _ (filter_append_other (decide_eq_false (howner ▸ hother hq))) }
  | incrementMemberCount id =>
    obtain ⟨c, -, rfl⟩ := incrementMemberCount_ok h
    exact .of_count c
  | insertMember communityId userId role =>
    rw [execOk, insertMember] at h
    split_ifs at h
    obtain ⟨m, -, rfl, -, -, rfl⟩ := addMember_ok h
    exact .of_member (hother hq)
  | insertMemberOnConflict id userId role =>
    obtain ⟨-, rfl⟩ | ⟨m, -, -, rfl, -, -, rfl⟩ := insertMemberOnConflict_ok h
    · exact .refl v _
    · exact .of_member (hother hq)
  | insertProperty ownerId title type address price description location photos =>
    obtain ⟨-, howner, rfl⟩ := insertProperty_ok h
    exact { Untouched.refl v db with
      properties := filter_append_other (decide_eq_false (howner ▸ hother hq)) }
  | insertVote communityId title description createdBy closesAt =>
    obtain ⟨-, -, hcreator, rfl⟩ := insertVote_ok h
    exact { Untouched.refl v db with votes := filter_append_other (decide_eq_false (hcreator ▸ hother hq)) }
  | upsertVoteCast voteId u choice =>
    have hu : u ≠ v := hother hq
    obtain ⟨vote, stored, rows, -, -, rfl, ⟨-, rfl⟩ | ⟨-, -, -, row, -, huserId, -, rfl⟩⟩ := upsertVoteCast_ok h
    · refine { Untouched.refl v db with voteCasts := filter_map_other (fun row _ => ?_) fun row _ hrow => ?_ }
      · rw [setChoice]
        split <;> rfl
      · rw [setChoice, if_neg]
        exact fun hpair => hu (hpair.2.symm.trans (of_decide_eq_true hrow))
    · exact { Untouched.refl v db with voteCasts := filter_append_other (decide_eq_false (huserId ▸ hu)) }
  | readNotification id userId =>
    cases id with
    | malformed text => cases h
    | uuid id =>
      cases h
      refine .of_markRead fun n hn => ?_
      rw [Bool.and_eq_true, decide_eq_true_eq, decide_eq_true_eq] at hn
      exact hn.2 ▸ hother hq
  | readAllNotifications userId =>
    cases h
    exact .of_markRead fun n hn => of_decide_eq_true hn ▸ hother hq
  | _ => exact execOk_read rfl h ▸ .refl v _

/-! ### Runs of others -/

variable {ι : Type} [DecidableEq ι] {svc : Services} {publicBaseUrl : String} {env : ι → NodeEnv} {req : ι → Request}
  {Init : Db → Prop} {C : WholeServer ι → PoolEvent ι Tick → Prop} {s s' : WholeServer ι}
  {tr : List (PoolEvent ι Tick)}

/-- No statement of a request of `v` is answered. -/
def OfOthers (svc : Services) (env : ι → NodeEnv) (req : ι → Request) (v : Uuid) (_ : WholeServer ι) :
    PoolEvent ι Tick → Prop
  | .start _ => True
  | .answer i _ => (req i).user svc (env i) ≠ some v

/-- **Only a user's own requests write for him**: what is there of a user stays as it is over every run in which
no statement of a request authenticated as him is executed, whatever else is in flight. -/
theorem others_leave {v : Uuid} (h : (wholeServer svc publicBaseUrl env req Init).Reachable C s)
    (hv : ∃ row ∈ s.db.users, row.id = v)
    (hrun : (wholeServer svc publicBaseUrl env req Init).Run (OfOthers svc env req v) s tr s') :
    Untouched v s.db s'.db := by
  refine (Lib.Pool.guarantee (J := fun db => ∃ row ∈ db.users, row.id = v) wholeServer_sends (Untouched.refl v)
    Untouched.trans (fun t i x q hothers hq hthere => ?_) (wholeServer_path h) hv hrun).2
  obtain ⟨row, hrow, hid⟩ := hthere
  refine ⟨?_, ?_⟩
  · obtain ⟨row', hrow', hkept⟩ := (exec_grows svc x t.db q).users.mem hrow
    exact ⟨row', hrow', hkept.1.trans hid⟩
  · obtain ⟨a, db', hok, hexec⟩ | ⟨e, hexec, -⟩ := exec_cases svc x t.db q
    · rw [hexec]
      exact execOk_untouched hq.1 hothers ⟨row, hrow, hid⟩ hok
    · rw [hexec]
      exact .refl v _

/-- Bo applies, and Ana keeps what she has. -/
theorem others_leave_ana : ∃ s s' : WholeServer Unit, s.db.communityMembers.length = 1 ∧
    s'.db.communityMembers.length = 2 ∧ Untouched 1 s.db s'.db := by
  obtain ⟨s', hrun, hlength⟩ := wholeServer_of_exec plainServices "" (fun _ => ⟨5, "", 0⟩) boApplies loft
    (fun s => s.db.communityMembers.length) [.start (), .answer () { uuid := 12 }, .answer () {}] (a := 2)
    (by decide +kernel)
  have hbo : (boApplies ()).user plainServices ⟨5, "", 0⟩ ≠ some 1 := by decide +kernel
  refine ⟨_, s', rfl, hlength, others_leave (wholeServer_start ..) (by decide) (hrun.mono fun _ e _ => ?_)⟩
  cases e with
  | start i => trivial
  | answer i x => exact hbo

end Locus.Server
