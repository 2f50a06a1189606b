import Locus.Server.Constraints

/-!
# Who owns a community

The row of role `owner` is written behind the INSERT of the community, with the id that this INSERT returned, and a
community keeps its owner. So an owner's row is always that of the community's `owner_id`, a community has at most one,
and everybody else in it is a `member` (`owner_rows`): no order of requests makes a user the owner of what
another user founded.
-/

namespace Locus.Server

open Lib (Prog Pool System PoolEvent)

/-- A row of the members says what its user is to the community. -/
def RoleTrue (db : Db) (m : MemberRow) : Prop :=
  (m.role = "owner" ∧ ∃ c ∈ db.communities, c.id = m.communityId ∧ c.ownerId = m.userId) ∨ m.role = "member"

/-- The community that an INSERT answered is there, and its user owns it. -/
def FoundTrue (db : Db) (call : StmtCall) : Prop :=
  ∀ name description location ownerId c, call = ⟨.insertCommunity name description location ownerId, .ok c⟩ →
    ∃ row ∈ db.communities, row.id = c.id ∧ row.ownerId = ownerId

theorem owned_later {db db' : Db} (h : db.Grows db') {id ownerId : Uuid}
    (hrow : ∃ row ∈ db.communities, row.id = id ∧ row.ownerId = ownerId) :
    ∃ row ∈ db'.communities, row.id = id ∧ row.ownerId = ownerId := by
  obtain ⟨row, hmem, hid, howner⟩ := hrow
  obtain ⟨row', hmem', hkept⟩ := h.communities.mem hmem
  exact ⟨row', hmem', by rw [hkept.1]; exact hid, by rw [hkept.1]; exact howner⟩

theorem RoleTrue.later {db db' : Db} (h : db.Grows db') {m : MemberRow} (hm : RoleTrue db m) : RoleTrue db' m := by
  obtain ⟨hrole, hcommunity⟩ | hrole := hm
  · exact .inl ⟨hrole, owned_later h hcommunity⟩
  · exact .inr hrole

section
variable {svc : Services} {env : NodeEnv} {log : List StmtCall} {c u : Uuid} {role : String}

theorem postCommunities_owner {authorization : Option String} {body : Json} {p : Handler}
    (h : (postCommunities svc env authorization body).Path log p) (hp : p.Awaits (.insertMember c u role)) :
    ∃ name description location community,
      ⟨.insertCommunity name description location u, .ok community⟩ ∈ log ∧ community.id = c := by
  revert h
  refine authMiddleware_cases svc env (P := fun q => q.Path log p → _) (fun text h => ?_) fun user _ h => ?_
  · obtain ⟨rfl, rfl⟩ := Prog.path_done.mp h
    exact (not_awaits_done hp).elim
  split at h
  · obtain ⟨rfl, rfl⟩ := Prog.path_done.mp h
    exact (not_awaits_done hp).elim
  obtain ⟨rfl, hq⟩ | ⟨community, log₁, rfl, h₁⟩ | ⟨err, rfl, rfl⟩ := catch500_path h
  · cases awaits_unique hp hq
  swap
  · exact (not_awaits_done hp).elim
  obtain ⟨rfl, hq⟩ | ⟨_, log₂, rfl, h₂⟩ | ⟨err, rfl, rfl⟩ := catch500_path h₁
  · cases awaits_unique hp hq
    exact ⟨_, _, _, community, List.mem_singleton_self _, rfl⟩
  · obtain ⟨rfl, rfl⟩ := catch500_pure_path h₂
    exact (not_awaits_done hp).elim
  · exact (not_awaits_done hp).elim

theorem request_owner {publicBaseUrl : String} {r : Request} {p : Prog Stmt Answer Thrown Cache (Option Response)}
    (h : (r.handler svc publicBaseUrl env).Path log p) (hp : p.Awaits (.insertMember c u role)) :
    role = "owner" ∧ ∃ name description location community,
      ⟨.insertCommunity name description location u, .ok community⟩ ∈ log ∧ community.id = c := by
  obtain ⟨k, rfl⟩ := hp
  have hsent := (h.always (request_sends svc env publicBaseUrl r)).1
  cases r with
  | api r =>
    obtain ⟨-, authorization, body, rfl, hrole⟩ := hsent
    obtain ⟨p', hpath, hmap⟩ := Prog.map_path h
    exact ⟨hrole, postCommunities_owner hpath (Prog.map_awaits ⟨k, hmap.symm⟩)⟩
  | putUsersProfile authorization form =>
    obtain ⟨-, ⟨id, hq⟩ | ⟨updates, params, hq⟩⟩ := hsent
    · cases hq
    · cases hq

theorem request_joins {publicBaseUrl : String} {r : Request} {p : Prog Stmt Answer Thrown Cache (Option Response)}
    {id : IdParam} (h : (r.handler svc publicBaseUrl env).Path log p)
    (hp : p.Awaits (.insertMemberOnConflict id u role)) : role = "member" := by
  obtain ⟨k, rfl⟩ := hp
  have hsent := (h.always (request_sends svc env publicBaseUrl r)).1
  cases r with
  | api r =>
    obtain ⟨-, authorization, -, hrole⟩ := hsent
    exact hrole
  | putUsersProfile authorization form =>
    obtain ⟨-, ⟨id, hq⟩ | ⟨updates, params, hq⟩⟩ := hsent
    · cases hq
    · cases hq

/-- A row of the members was there, or was written by the statement. -/
theorem exec_communityMembers {x : Tick} {db : Db} {q : Stmt} {m : MemberRow}
    (h : m ∈ (exec svc x db q).2.communityMembers) :
    m ∈ db.communityMembers ∨ q = .insertMember m.communityId m.userId m.role ∨
      q = .insertMemberOnConflict (.uuid m.communityId) m.userId m.role := by
  obtain ⟨a, db', hok, hexec⟩ | ⟨e, hexec, -⟩ := exec_cases svc x db q
  swap
  · rw [hexec] at h
    exact .inl h
  rw [hexec] at h
  cases q with
  | insertMember communityId userId role =>
    rw [execOk, insertMember] at hok
    split_ifs at hok
    obtain ⟨m', rfl, rfl, rfl, -, rfl⟩ := addMember_ok hok
    rcases List.mem_append.mp h with h | h
    · exact .inl h
    · cases List.mem_singleton.mp h
      exact .inr (.inl rfl)
  | insertMemberOnConflict id userId role =>
    obtain ⟨-, rfl⟩ | ⟨m', -, rfl, rfl, rfl, -, rfl⟩ := insertMemberOnConflict_ok hok
    · exact .inl h
    · rcases List.mem_append.mp h with h | h
      · exact .inl h
      · cases List.mem_singleton.mp h
        exact .inr (.inr rfl)
  | insertUser | updatePasswordHash | updateUser | insertRefreshToken | deleteRefreshToken | insertCommunity
  | incrementMemberCount | insertProperty | insertVote | upsertVoteCast | readNotification
  | readAllNotifications =>
    obtain ⟨_, rfl⟩ := execOk_frame hok
    exact .inl h
  | _ => exact .inl (execOk_read rfl hok ▸ h)

theorem exec_foundTrue {x : Tick} {db : Db} (q : Stmt) : FoundTrue (exec svc x db q).2 ⟨q, (exec svc x db q).1⟩ := by
  intro name description location ownerId c hcall
  obtain ⟨rfl, hanswer⟩ := Prog.Call.mk.inj hcall
  obtain ⟨a, db', hok, hexec⟩ | ⟨e, hexec, -⟩ :=
    exec_cases svc x db (.insertCommunity name description location ownerId)
  · rw [hexec] at hanswer ⊢
    cases eq_of_heq hanswer
    obtain ⟨-, howner, -, -, -, rfl⟩ := insertCommunity_ok hok
    exact ⟨c, List.mem_append_right _ (List.mem_singleton_self c), rfl, howner⟩
  · rw [hexec] at hanswer
    cases eq_of_heq hanswer

end

/-! ### Runs -/

section
variable {ι : Type} [DecidableEq ι] {svc : Services} {publicBaseUrl : String} {env : ι → NodeEnv} {req : ι → Request}
  {Init : Db → Prop} {C : WholeServer ι → PoolEvent ι Tick → Prop} {s : WholeServer ι}

theorem roles_true (hroles : ∀ db, Init db → ∀ m ∈ db.communityMembers, RoleTrue db m)
    (h : (wholeServer svc publicBaseUrl env req Init).Reachable C s) : ∀ m ∈ s.db.communityMembers, RoleTrue s.db m := by
  refine (Pool.answered (J := fun db => ∀ m ∈ db.communityMembers, RoleTrue db m) (T := FoundTrue)
    (fun db _ h₀ => hroles db h₀.1) (fun x db q call _ hcall => ?_) (fun x db q _ => exec_foundTrue q)
    (fun i x db q k log hpath hlog hdb m hm => ?_) h).1
  · intro name description location ownerId c hinsert
    exact owned_later (exec_grows svc x db q) (hcall name description location ownerId c hinsert)
  have hgrows := exec_grows svc x db q
  obtain hold | hq | hq := exec_communityMembers hm
  · exact (hdb m hold).later hgrows
  · have hawaits : (Prog.query q k).Awaits (.insertMember m.communityId m.userId m.role) := by
      rw [← hq]
      exact ⟨k, rfl⟩
    obtain ⟨hrole, name, description, location, community, hcall, hid⟩ := request_owner hpath hawaits
    obtain ⟨row, hrow, hrowid, howner⟩ := hlog _ hcall _ _ _ _ _ rfl
    exact .inl ⟨hrole, owned_later hgrows ⟨row, hrow, hrowid.trans hid, howner⟩⟩
  · have hawaits : (Prog.query q k).Awaits (.insertMemberOnConflict (.uuid m.communityId) m.userId m.role) := by
      rw [← hq]
      exact ⟨k, rfl⟩
    exact .inr (request_joins hpath hawaits)

/-- **A community has one owner**: whatever requests run, the only row of role `owner` of a community is that of its
`owner_id`, and every other row of it is a `member`. -/
theorem owner_rows (hinit : ∀ db, Init db → Constrained db)
    (hroles : ∀ db, Init db → ∀ m ∈ db.communityMembers, RoleTrue db m)
    (h : (wholeServer svc publicBaseUrl env req Init).Reachable C s) :
    ∀ m ∈ s.db.communityMembers,
      (m.role = "owner" ∨ m.role = "member") ∧
      (m.role = "owner" → (∀ c ∈ s.db.communities, c.id = m.communityId → c.ownerId = m.userId) ∧
        ∀ m' ∈ s.db.communityMembers, m'.communityId = m.communityId → m'.role = "owner" → m' = m) := by
  have hkeys := constraints_hold hinit h
  have hrole := roles_true hroles h
  -- an owner's row is that of the one community with its id
  have howner : ∀ m ∈ s.db.communityMembers, m.role = "owner" → ∀ c ∈ s.db.communities, c.id = m.communityId →
      c.ownerId = m.userId := by
    intro m hm howner c hc hid
    obtain ⟨-, c', hc', hid', howner'⟩ | hmember := hrole m hm
    · rw [hkeys.communities_pkey.eq_of_key hc hc' (hid.trans hid'.symm)]
      exact howner'
    · rw [howner] at hmember
      exact absurd hmember (by decide)
  intro m hm
  refine ⟨(hrole m hm).imp And.left fun h => h, fun hm' => ⟨howner m hm hm', fun m' hmem' hcommunity hm'' => ?_⟩⟩
  refine hkeys.community_members_community_id_user_id_key.eq_of_key hmem' hm (Prod.ext hcommunity ?_)
  obtain ⟨c, hc, hid⟩ := hkeys.community_members_community_id_fkey m hm
  exact (howner m' hmem' hm'' c hc (hid.trans hcommunity.symm)).symm.trans (howner m hm hm' c hc hid)

def anaFounds : Bool → Request
  | false => .api (.postAuthRegister (.obj [("email", .str "ana@x.org"), ("password", .str "correct horse")]))
  | true => .api (.postCommunities (some "Bearer 1.0.ana@x.org") (.obj [("name", .str "Loft")]))

theorem owner_rows_found : ∃ s : WholeServer Bool, s.db.communityMembers.map (·.role) = ["owner"] ∧
    ∀ m ∈ s.db.communityMembers, (m.role = "owner" ∨ m.role = "member") ∧
      (m.role = "owner" → (∀ c ∈ s.db.communities, c.id = m.communityId → c.ownerId = m.userId) ∧
        ∀ m' ∈ s.db.communityMembers, m'.communityId = m.communityId → m'.role = "owner" → m' = m) := by
  obtain ⟨s, hrun, hroles⟩ := wholeServer_of_exec plainServices "" (fun _ => ⟨5, "first", 0⟩) anaFounds {}
    (fun s => s.db.communityMembers.map (·.role))
    [.start false, .answer false { uuid := 1 }, .answer false { uuid := 40 }, .start true, .answer true { uuid := 10 },
      .answer true { uuid := 11 }] (a := ["owner"]) (by decide +kernel)
  refine ⟨s, hroles, owner_rows (by rintro _ rfl; exact constrained_empty) ?_ ((wholeServer_start ..).trans hrun)⟩
  rintro _ rfl m hm
  cases hm

end

end Locus.Server
