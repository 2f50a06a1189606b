import Locus.Server.Accounts
import Locus.Server.Constraints

/-!
# The members tab

`CommunityDetailScreen` looks for the user among the members of the community. Once a `POST /communities` or a
`POST /communities/:id/apply` has answered him that he is in, every members request that starts later shows him exactly
once, whatever other requests run in between (`joined_is_shown`).
-/

namespace Locus.App

open Lib Server

/-! ### What the screen looks for -/

namespace CommunityDetail

/-- `memberships.find((m) => m.user_id === user?.id)` -/
def myMembership (memberships : List MemberProfile) (user : Uuid) : Option MemberProfile :=
  memberships.find? (·.member.userId = user)

/-- `!!myMembership` -/
def isMember (memberships : List MemberProfile) (user : Uuid) : Bool := (myMembership memberships user).isSome

end CommunityDetail

section
variable {svc : Services} {db db' : Db} {c u : Uuid}

theorem filter_joinMembers (db : Db) (c u : Uuid) :
    (joinMembers db c).filter (·.member.userId = u) =
      (db.communityMembers.filter fun m => m.communityId = c ∧ m.userId = u).flatMap fun m =>
        (db.users.filter (·.id = m.userId)).map fun user => ⟨m, user.email, user.name⟩ := by
  unfold joinMembers
  induction db.communityMembers with
  | nil => rfl
  | cons m rows ih =>
    by_cases hc : m.communityId = c
    · by_cases hu : m.userId = u
      · have hall : ((db.users.filter (·.id = m.userId)).map fun user =>
            (⟨m, user.email, user.name⟩ : MemberProfile)).filter (·.member.userId = u) =
              (db.users.filter (·.id = m.userId)).map fun user => ⟨m, user.email, user.name⟩ := by
          refine List.filter_eq_self.mpr fun profile hprofile => ?_
          obtain ⟨user, -, rfl⟩ := List.mem_map.mp hprofile
          exact decide_eq_true hu
        rw [List.filter_cons_of_pos (by simpa using hc), List.flatMap_cons, List.filter_append, hall,
          List.filter_cons_of_pos (by simpa using ⟨hc, hu⟩), List.flatMap_cons, ih]
      · have hnone : ((db.users.filter (·.id = m.userId)).map fun user =>
            (⟨m, user.email, user.name⟩ : MemberProfile)).filter (·.member.userId = u) = [] := by
          refine List.filter_eq_nil_iff.mpr fun profile hprofile => ?_
          obtain ⟨user, -, rfl⟩ := List.mem_map.mp hprofile
          simpa using hu
        rw [List.filter_cons_of_pos (by simpa using hc), List.flatMap_cons, List.filter_append, hnone,
          List.filter_cons_of_neg (by simpa using fun _ => hu), List.nil_append, ih]
    · rw [List.filter_cons_of_neg (by simpa using hc), List.filter_cons_of_neg (by simpa using fun h => absurd h hc),
        ih]

theorem joinMembers_once (hdb : Constrained db) (h : Server.isMember db c u = true) :
    ∃ m, (joinMembers db c).filter (·.member.userId = u) = [m] ∧ m.member.communityId = c := by
  obtain ⟨m, hm, hpair⟩ := List.any_eq_true.mp h
  obtain ⟨rfl, rfl⟩ := of_decide_eq_true hpair
  obtain ⟨user, huser, hid⟩ := hdb.community_members_user_id_fkey m hm
  have hmember : (db.communityMembers.filter fun m' => m'.communityId = m.communityId ∧ m'.userId = m.userId) = [m] := by
    have hkey := filter_of_nodup_map hdb.community_members_community_id_user_id_key hm
    rw [← hkey]
    refine List.filter_congr fun m' _ => decide_eq_decide.mpr ?_
    rw [Prod.mk.injEq]
  have husers : db.users.filter (·.id = m.userId) = [user] := by
    rw [← show user.id = m.userId from hid]
    exact filter_of_nodup_map hdb.users_pkey huser
  refine ⟨⟨m, user.email, user.name⟩, ?_, rfl⟩
  rw [filter_joinMembers, hmember, List.flatMap_singleton, husers, List.map_singleton]

/-- `GET /communities/:id/members` shows a member once. -/
theorem selectMembers_once {tick : Tick} {rows : List MemberProfile} (hdb : Constrained db)
    (hmember : Server.isMember db c u = true)
    (h : execOk svc tick db (.selectMembers (.uuid c)) = .ok (rows, db')) :
    ∃ m, rows.filter (·.member.userId = u) = [m] ∧ m.member.communityId = c := by
  obtain ⟨m, hm, hc⟩ := joinMembers_once hdb hmember
  have hrows : selectMembers tick db (.uuid c) = .ok rows := ok_of_map h
  cases hrows
  refine ⟨m, ?_, hc⟩
  have hperm := (anyOrder_perm tick (·.member.id) (joinMembers db c)).filter (·.member.userId = u)
  rw [hm] at hperm
  exact List.perm_singleton.mp hperm

theorem isMember_of_once {rows : List MemberProfile} {m : MemberProfile}
    (h : rows.filter (·.member.userId = u) = [m]) : CommunityDetail.isMember rows u = true := by
  have hmem : m ∈ rows.filter (·.member.userId = u) := h ▸ List.mem_singleton_self m
  rw [CommunityDetail.isMember, CommunityDetail.myMembership, List.find?_isSome]
  exact ⟨m, (List.mem_filter.mp hmem).1, (List.mem_filter.mp hmem).2⟩

end

/-! ### Who has joined -/

section
variable {svc : Services} {env : NodeEnv} {db db' : Db} {c u : Uuid} {log : List StmtCall}

/-- The answer tells the user `u` that he is in the community `c`. -/
def Joined (svc : Services) (env : NodeEnv) (r : Request) (response : Response) (c u : Uuid) : Prop :=
  r.user svc env = some u ∧
    ((∃ authorization, r = .api (.postCommunitiesApply authorization (.uuid c)) ∧ response.status = 200) ∨
      ∃ authorization body community, r = .api (.postCommunities authorization body) ∧
        response = ⟨201, .community community⟩ ∧ community.id = c)

def MemberTrue (db : Db) (call : StmtCall) : Prop :=
  (∀ c u role ids, call = ⟨.insertMemberOnConflict (.uuid c) u role, .ok ids⟩ → Server.isMember db c u = true) ∧
    ∀ c u role id, call = ⟨.insertMember c u role, .ok id⟩ → Server.isMember db c u = true

theorem isMember_later (h : db.Grows db') (hm : Server.isMember db c u = true) : Server.isMember db' c u = true := by
  obtain ⟨m, hm, hpair⟩ := List.any_eq_true.mp hm
  exact List.any_eq_true.mpr ⟨m, h.communityMembers.subset hm, hpair⟩

theorem isMember_append {m : MemberRow} :
    Server.isMember { db with communityMembers := db.communityMembers ++ [m] } m.communityId m.userId = true :=
  List.any_eq_true.mpr ⟨m, List.mem_append_right _ (List.mem_singleton_self m), decide_eq_true ⟨rfl, rfl⟩⟩

theorem exec_memberTrue {x : Tick} (q : Stmt) : MemberTrue (exec svc x db q).2 ⟨q, (exec svc x db q).1⟩ := by
  refine ⟨fun c u role ids hcall => ?_, fun c u role id hcall => ?_⟩
  · obtain ⟨rfl, hanswer⟩ := Prog.Call.mk.inj hcall
    obtain ⟨a, db', hok, hexec⟩ | ⟨e, hexec, -⟩ := exec_cases svc x db (.insertMemberOnConflict (.uuid c) u role)
    · rw [hexec]
      obtain ⟨hthere, -, rfl⟩ | ⟨-, -, m, rfl, rfl, -, rfl⟩ := insertMemberOnConflict_uuid hok
      · exact hthere
      · exact isMember_append
    · rw [hexec] at hanswer
      cases eq_of_heq hanswer
  · obtain ⟨rfl, hanswer⟩ := Prog.Call.mk.inj hcall
    obtain ⟨a, db', hok, hexec⟩ | ⟨e, hexec, -⟩ := exec_cases svc x db (.insertMember c u role)
    · rw [hexec]
      rw [execOk, insertMember] at hok
      split_ifs at hok
      obtain ⟨m, rfl, rfl, -, -, rfl⟩ := addMember_ok hok
      exact isMember_append
    · rw [hexec] at hanswer
      cases eq_of_heq hanswer

theorem postCommunitiesApply_joins {authorization : Option String} {user : AuthUser} {response : Response}
    (huser : authenticate svc env authorization = some user)
    (h : (postCommunitiesApply svc env authorization (.uuid c)).Path log (.done response)) (hstatus : response.status = 200) :
    ∃ ids, ⟨.insertMemberOnConflict (.uuid c) user.id "member", .ok ids⟩ ∈ log := by
  rw [postCommunitiesApply, authMiddleware_some svc env _ huser] at h
  obtain ⟨-, hawaits⟩ | ⟨ids, log', rfl, -⟩ | ⟨err, -, hdone⟩ := catch500_path h
  · exact (not_awaits_done hawaits).elim
  · exact ⟨ids, List.mem_cons_self⟩
  · cases hdone
    cases hstatus

theorem postCommunities_joins {authorization : Option String} {body : Json} {user : AuthUser}
    {community : CommunityRow} (huser : authenticate svc env authorization = some user)
    (h : (postCommunities svc env authorization body).Path log (.done ⟨201, .community community⟩)) :
    ∃ id, ⟨.insertMember community.id user.id "owner", .ok id⟩ ∈ log := by
  rw [postCommunities, authMiddleware_some svc env _ huser] at h
  split at h
  · obtain ⟨-, hdone⟩ := Prog.path_done.mp h
    cases hdone
  obtain ⟨-, hawaits⟩ | ⟨c, log₁, rfl, h₁⟩ | ⟨err, -, hdone⟩ := catch500_path h
  · exact (not_awaits_done hawaits).elim
  · obtain ⟨-, hawaits⟩ | ⟨id, log₂, rfl, h₂⟩ | ⟨err, -, hdone⟩ := catch500_path h₁
    · exact (not_awaits_done hawaits).elim
    · obtain ⟨-, hdone⟩ := catch500_pure_path h₂
      cases hdone
      exact ⟨id, List.mem_cons_of_mem _ List.mem_cons_self⟩
    · cases hdone
  · cases hdone

/-- What tells a user that he is in stands behind the INSERT of his row. -/
theorem Joined.isMember {publicBaseUrl : String} {r : Request} {response : Response}
    (h : Joined svc env r response c u) (hpath : (r.handler svc publicBaseUrl env).Path log (.done (some response)))
    (htrue : ∀ call ∈ log, MemberTrue db call) : Server.isMember db c u = true := by
  obtain ⟨huser, ⟨authorization, rfl, hstatus⟩ | ⟨authorization, body, community, rfl, rfl, rfl⟩⟩ := h
  · obtain ⟨user, hauth, rfl⟩ := Option.map_eq_some_iff.mp huser
    obtain ⟨ids, hcall⟩ := postCommunitiesApply_joins hauth (api_path svc env hpath) hstatus
    exact (htrue _ hcall).1 _ _ _ _ rfl
  · obtain ⟨user, hauth, rfl⟩ := Option.map_eq_some_iff.mp huser
    obtain ⟨id, hcall⟩ := postCommunities_joins hauth (api_path svc env hpath)
    exact (htrue _ hcall).2 _ _ _ _ rfl

theorem getCommunitiesMembers_rows {id : IdParam} {members : List MemberProfile}
    (h : (getCommunitiesMembers id).Path log (.done ⟨200, .members members⟩)) :
    ⟨.selectMembers id, .ok members⟩ ∈ log := by
  obtain ⟨-, hawaits⟩ | ⟨rows, log', rfl, hrest⟩ | ⟨err, -, hdone⟩ := catch500_path h
  · exact (not_awaits_done hawaits).elim
  · obtain ⟨-, hdone⟩ := catch500_pure_path hrest
    cases hdone
    exact List.mem_cons_self
  · cases hdone

end

/-! ### Runs -/

section
variable {ι : Type} [DecidableEq ι] {svc : Services} {publicBaseUrl : String} {env : ι → NodeEnv} {req : ι → Request}
  {Init : Db → Prop} {C : WholeServer ι → PoolEvent ι Tick → Prop} {s s' : WholeServer ι}
  {tr : List (PoolEvent ι Tick)}

/-- A list of the members of `c` shows `u` once. -/
def ShownOnce (c u : Uuid) (call : StmtCall) : Prop :=
  ∀ rows, call = ⟨.selectMembers (.uuid c), .ok rows⟩ →
    ∃ m, rows.filter (·.member.userId = u) = [m] ∧ m.member.communityId = c

theorem exec_shownOnce {x : Tick} {db : Db} {c u : Uuid} (hdb : Constrained db)
    (hmember : Server.isMember db c u = true) (q : Stmt) : ShownOnce c u ⟨q, (exec svc x db q).1⟩ := by
  intro rows hcall
  obtain ⟨rfl, hanswer⟩ := Prog.Call.mk.inj hcall
  obtain ⟨db', hok⟩ := exec_ok (eq_of_heq hanswer)
  exact selectMembers_once hdb hmember hok

/-- **Who has joined is shown, once**: from the answer on, every members request that starts later lists the user
exactly once, whatever other requests run meanwhile. -/
theorem joined_is_shown (hinit : ∀ db, Init db → Constrained db)
    (h : (wholeServer svc publicBaseUrl env req Init).Reachable C s) {i j : ι} {c u : Uuid} {joined : Response}
    (hi : (s.thread i).result = some (some joined)) (hjoined : Joined svc (env i) (req i) joined c u)
    (hreq : req j = .api (.getCommunitiesMembers (.uuid c))) (hidle : s.thread j = .idle)
    (hrun : (wholeServer svc publicBaseUrl env req Init).Run C s tr s') {members : List MemberProfile}
    (hj : (s'.thread j).result = some (some ⟨200, .members members⟩)) :
    (∃ m, members.filter (·.member.userId = u) = [m] ∧ m.member.communityId = c) ∧
      CommunityDetail.isMember members u = true := by
  have hmember : Server.isMember s.db c u = true := by
    obtain ⟨-, htrue⟩ := Pool.answered (J := fun _ => True) (T := MemberTrue) (fun _ _ _ => trivial)
      (fun x db q call _ hcall => ⟨fun c u role ids heq => isMember_later (exec_grows svc x db q) (hcall.1 c u role ids heq),
        fun c u role id heq => isMember_later (exec_grows svc x db q) (hcall.2 c u role id heq)⟩)
      (fun x db q _ => exec_memberTrue q) (fun _ _ _ _ _ _ _ _ _ => trivial) h
    exact hjoined.isMember (result_path (wholeServer_path h) hi) (htrue i)
  -- what the request of `j` was shown
  have hnone : ∀ i, i = j → ∀ call ∈ (s.thread i).log, ShownOnce c u call := by
    rintro i rfl call hcall
    rw [hidle] at hcall
    cases hcall
  obtain ⟨hpath, -, hshown⟩ := Pool.answered_run (J := fun db => Constrained db ∧ Server.isMember db c u = true)
    (T := fun _ => ShownOnce c u) (· = j) (fun _ _ _ _ _ hcall => hcall)
    (fun x db q hdb => exec_shownOnce hdb.1 hdb.2 q)
    (fun i x db q k log hpath _ hdb => ⟨exec_constrained x hdb.1 (hpath.always (wholeServer_sends i)).1.roleFits,
      isMember_later (exec_grows svc x db q) hdb.2⟩)
    (wholeServer_path h) ⟨constraints_hold hinit h, hmember⟩ hnone hrun
  have hend := result_path hpath hj
  rw [hreq] at hend
  obtain ⟨m, hm, hc⟩ := hshown j rfl _ (getCommunitiesMembers_rows (api_path svc (env j) hend)) _ rfl
  exact ⟨⟨m, hm, hc⟩, isMember_of_once hm⟩

/-- Bo applies, then the members are asked for. -/
def boLooks : Bool → Request
  | false => .api (.postCommunitiesApply (some "Bearer 2.0.bo@x.org") (.uuid 10))
  | true => .api (.getCommunitiesMembers (.uuid 10))

def membersOf : Option (Option Response) → Option (List MemberProfile) :=
  dataOf 200 fun | .members members => some members | _ => none

theorem membersOf_some {r : Option (Option Response)} {members : List MemberProfile} (h : membersOf r = some members) :
    r = some (some ⟨200, .members members⟩) :=
  dataOf_some (by rintro ⟨⟩ a ⟨⟩; rfl) h

theorem joined_is_shown_bo : ∃ members : List MemberProfile,
    (∃ m, members.filter (·.member.userId = 2) = [m] ∧ m.member.communityId = 10) ∧
      CommunityDetail.isMember members 2 = true := by
  let M := wholeServer plainServices "" (fun _ => ⟨5, "", 0⟩) boLooks (· = loft)
  obtain ⟨s, hrun, hjoined⟩ := wholeServer_of_exec plainServices "" (fun _ => ⟨5, "", 0⟩) boLooks loft
    (fun s => ((s.thread false).result.map (·.map (·.status)), isIdle (s.thread true),
      (M.exec (fun _ _ => true) s [.start true, .answer true {}]).map fun s' =>
        (membersOf (s'.thread true).result).isSome))
    [.start false, .answer false { uuid := 12 }, .answer false {}] (a := (some (some 200), true, some true))
    (by decide +kernel)
  obtain ⟨hstatus, hrest⟩ := Prod.mk.inj hjoined
  obtain ⟨hidle, hmembers⟩ := Prod.mk.inj hrest
  obtain ⟨r, hr, hr200⟩ := Option.map_eq_some_iff.mp hstatus
  obtain ⟨joined, rfl, hjoined200⟩ := Option.map_eq_some_iff.mp hr200
  obtain ⟨s', hexec, hshown⟩ := Option.map_eq_some_iff.mp hmembers
  obtain ⟨members, hmembers⟩ := Option.isSome_iff_exists.mp hshown
  exact ⟨members, joined_is_shown (by rintro _ rfl; exact constrained_loft)
    ((wholeServer_start ..).trans hrun) hr ⟨by decide +kernel, .inl ⟨_, rfl, hjoined200⟩⟩ rfl
    (idle_of_isIdle hidle) ((System.Run.of_exec hexec).mono fun _ _ _ => trivial) (membersOf_some hmembers)⟩

end

end Locus.App
