import Locus.Server.Membership

/-!
# Joining is confluent

Any number of `POST /communities/:id/apply` requests, their two statements interleaved in any way and none
of them failing. Whatever the order, the rows of a community are its old rows and one of role `member` for
each applicant who had none (`newcomers`), and `member_count` has grown by their number
(`joins_confluent`). Two applications of one user meet at the uniqueness of the pair: one INSERT adds the
row and owes the count, the other adds nothing and owes nothing.
-/

namespace Locus.Server

open Lib

/-- A request to join, with what it takes from Node. -/
structure Application where
  env : NodeEnv
  authorization : Option String
  id : IdParam

def Application.handler (svc : Services) (r : Application) : Handler :=
  postCommunitiesApply svc r.env r.authorization r.id

def Application.userId (svc : Services) (r : Application) : Option Uuid :=
  (authenticate svc r.env r.authorization).map (·.id)

/-! ### The two statements of an application -/

theorem application_starts (svc : Services) (r : Application) :
    Goes (r.handler svc) ((r.userId svc).map (.insertMemberOnConflict r.id · "member")) := by
  cases huser : authenticate svc r.env r.authorization with
  | none =>
    obtain ⟨text, hdone⟩ : ∃ text, r.handler svc = .done (failure 401 text) :=
      authMiddleware_none svc r.env _ huser
    rw [Application.userId, huser]
    exact ⟨_, hdone⟩
  | some user =>
    rw [Application.userId, huser, Application.handler, postCommunitiesApply,
      authMiddleware_some svc r.env _ huser]
    exact ⟨_, rfl⟩

/-- One of the two statements, and where its answer leads. -/
def ApplicationPoint (svc : Services) (r : Application) (q : Stmt)
    (k : Except Thrown (Answer q) → Handler) : Prop :=
  ((∃ u, r.userId svc = some u ∧ q = .insertMemberOnConflict r.id u "member") ∨
    q = .incrementMemberCount r.id) ∧ ∀ a, Goes (k a) (membershipNext q a)

theorem application_always (svc : Services) (r : Application) :
    (r.handler svc).Always (ApplicationPoint svc r) := by
  cases huser : authenticate svc r.env r.authorization with
  | none =>
    have hgoes := application_starts svc r
    rw [Application.userId, huser] at hgoes
    obtain ⟨res, hdone⟩ := hgoes
    rw [hdone]
    trivial
  | some user =>
    rw [Application.handler, postCommunitiesApply, authMiddleware_some svc r.env _ huser]
    refine ⟨⟨.inl ⟨user.id, by rw [Application.userId, huser]; rfl, rfl⟩, fun a => ?_⟩, fun a => ?_⟩
    · cases a with
      | ok ids => cases ids <;> exact ⟨_, rfl⟩
      | error e => exact ⟨_, rfl⟩
    · cases a with
      | error e => trivial
      | ok ids =>
        cases ids with
        | nil => trivial
        | cons id rest =>
          refine ⟨⟨.inr rfl, fun a => ?_⟩, fun a => ?_⟩
          · cases a <;> exact ⟨_, rfl⟩
          · cases a <;> trivial

/-! ### Who joins -/

def memberSet (db : Db) (c : Uuid) : Finset (Uuid × String) :=
  ((memberRows db c).map fun m => (m.userId, m.role)).toFinset

section
variable {ι : Type} [Fintype ι]

/-- The users who apply to a community. -/
def applicants (svc : Services) (req : ι → Application) (c : Uuid) : Finset Uuid :=
  Finset.univ.biUnion fun i => if (req i).id = .uuid c then ((req i).userId svc).toFinset else ∅

/-- Those of them without a row in it. -/
def newcomers (svc : Services) (req : ι → Application) (db : Db) (c : Uuid) : Finset Uuid :=
  (applicants svc req c).filter fun u => isMember db c u = false

theorem mem_applicants {svc : Services} {req : ι → Application} {c u : Uuid} :
    u ∈ applicants svc req c ↔ ∃ i, (req i).id = .uuid c ∧ (req i).userId svc = some u := by
  simp only [applicants, Finset.mem_biUnion, Finset.mem_univ, true_and]
  refine exists_congr fun i => ?_
  split
  · rename_i hid
    simp [hid]
  · rename_i hid
    simp [hid]

end

theorem isMember_iff {db : Db} {c u : Uuid} :
    isMember db c u = true ↔ ∃ m ∈ db.communityMembers, m.communityId = c ∧ m.userId = u := by
  simp [isMember]

section
variable {ι : Type} [DecidableEq ι] {svc : Services} {req : ι → Application}

/-- The applications `req`, their statements interleaved in any way. -/
def applySystem (svc : Services) (req : ι → Application) : System (RequestPool ι) (PoolEvent ι Tick) :=
  Pool.system (fun i => (req i).handler svc) (exec svc) fun _ _ => True

/-- **A step of the applications**, no statement failing: one starts, one inserts its row or finds it, one
counts its row. -/
theorem application_step {s s' : RequestPool ι} {e : PoolEvent ι Tick}
    (hpath : Pool.OnPath (fun i => (req i).handler svc) s) (hC : succeeds svc s e)
    (h : (applySystem svc req).step s e = some s') :
    ∃ i q, (∀ j, j ≠ i → s'.thread j = s.thread j) ∧ s'.thread i ≠ .idle ∧
      (fun j => (s'.thread j).pending) = Function.update (fun j => (s.thread j).pending) i q ∧
      ((s.thread i = .idle ∧ s'.db = s.db ∧
          q = ((req i).userId svc).map (.insertMemberOnConflict (req i).id · "member")) ∨
        (∃ u x ids, (s.thread i).pending = some (.insertMemberOnConflict (req i).id u "member") ∧
          (req i).userId svc = some u ∧
          insertMemberOnConflict x s.db (req i).id u "member" = .ok (ids, s'.db) ∧
          q = if ids.length > 0 then some (.incrementMemberCount (req i).id) else none) ∨
        ∃ c, (req i).id = .uuid c ∧ (s.thread i).pending = some (.incrementMemberCount (.uuid c)) ∧
          s'.db = countRow s.db c ∧ q = none) := by
  obtain ⟨i, rfl, hi, rfl⟩ | ⟨i, x, q, k, log, rfl, hi, rfl⟩ := Pool.step_cases h
  · refine ⟨i, _, fun j hj => Pool.goto_other s hj .., by rw [Pool.goto_self]; simp, ?_, .inl ⟨hi, rfl, rfl⟩⟩
    rw [Pool.goto_pendings, (application_starts svc (req i)).pending]
  · obtain ⟨⟨hq, hk⟩, -⟩ := (hpath i _ _ hi).1.always (application_always svc (req i))
    have hpend : (s.thread i).pending = some q := by rw [hi]; rfl
    simp only [succeeds, hpend] at hC
    refine ⟨i, membershipNext q (exec svc x s.db q).1, fun j hj => Pool.goto_other s hj ..,
      by rw [Pool.goto_self]; simp, ?_, .inr ?_⟩
    · rw [Pool.goto_pendings, (hk _).pending]
    obtain ⟨a, db', hok, hexec⟩ | ⟨err, hexec, -⟩ := exec_cases svc x s.db q
    swap
    · rw [hexec] at hC
      cases hC
    rw [hexec]
    obtain ⟨u, hu, rfl⟩ | rfl := hq
    · exact .inl ⟨u, x, a, hpend, hu, hok, rfl⟩
    · obtain ⟨c, hc, rfl⟩ := incrementMemberCount_ok hok
      rw [hc] at hpend
      exact .inr ⟨c, hc, hpend, rfl, rfl⟩

/-! ### The books of the applications -/

variable [Fintype ι]

/-- What holds between the statements, from the database `db₀` on. The rows since then are of distinct pairs
that had none, each of an applicant; an applicant behind his INSERT has a row; and each community's count
lags behind its rows by the rows yet to be counted, and the difference it started with. -/
structure Joining (svc : Services) (req : ι → Application) (db₀ : Db) (s : RequestPool ι) : Prop where
  rows : ∃ added : List MemberRow, s.db.communityMembers = db₀.communityMembers ++ added ∧
    (added.map fun m => (m.communityId, m.userId)).Nodup ∧
    ∀ m ∈ added, m.role = "member" ∧ isMember db₀ m.communityId m.userId = false ∧
      m.userId ∈ applicants svc req m.communityId
  entered : ∀ i c u, (req i).id = .uuid c → (req i).userId svc = some u → s.thread i = .idle ∨
    (s.thread i).pending = some (.insertMemberOnConflict (.uuid c) u "member") ∨ isMember s.db c u = true
  counts : List.Forall₂ (fun row₀ row : CommunityRow => row.id = row₀.id ∧
    row.memberCount + uncounted (fun i => (s.thread i).pending) row₀.id =
      (memberRows s.db row₀.id).length + (row₀.memberCount - (memberRows db₀ row₀.id).length))
    db₀.communities s.db.communities

omit [DecidableEq ι] in
theorem joining_init {s : RequestPool ι} (h : ∀ i, s.thread i = .idle) : Joining svc req s.db s := by
  refine ⟨⟨[], by simp, List.nodup_nil, List.forall_mem_nil _⟩, fun i c u _ _ => .inl (h i), ?_⟩
  have hzero : ∀ c, uncounted (fun i => (s.thread i).pending) c = 0 := fun c => by
    simp [uncounted, h, isCount]
  refine List.forall₂_same.mpr fun row _ => ⟨rfl, ?_⟩
  rw [hzero]
  omega

theorem Joining.move {db₀ : Db} {s s' : RequestPool ι} {i : ι} {q : Option Stmt} (hs : Joining svc req db₀ s)
    (hdb : s'.db = s.db) (hother : ∀ j, j ≠ i → s'.thread j = s.thread j)
    (hpend : (fun j => (s'.thread j).pending) = Function.update (fun j => (s.thread j).pending) i q)
    (hcount : ∀ c, isCount c (s.thread i).pending = 0 ∧ isCount c q = 0)
    (hentered : ∀ c u, (req i).id = .uuid c → (req i).userId svc = some u →
      q = some (.insertMemberOnConflict (.uuid c) u "member") ∨ isMember s.db c u = true) :
    Joining svc req db₀ s' := by
  refine ⟨hdb ▸ hs.rows, fun j c u hc hu => ?_, ?_⟩
  · by_cases hj : j = i
    · subst hj
      have hself : (s'.thread j).pending = q := by
        rw [congrFun hpend j, Function.update_self]
      rw [hself, hdb]
      exact .inr (hentered c u hc hu)
    · rw [hother j hj, hdb]
      exact hs.entered j c u hc hu
  · rw [hdb, hpend]
    refine hs.counts.imp fun row₀ row hrow => ⟨hrow.1, ?_⟩
    have hsum := uncounted_update (fun j => (s.thread j).pending) i q row₀.id
    rw [(hcount row₀.id).1, (hcount row₀.id).2] at hsum
    rw [← hrow.2]
    omega

theorem Joining.join {db₀ : Db} {s s' : RequestPool ι} {i : ι} {c u : Uuid} {m : MemberRow}
    (hs : Joining svc req db₀ s) (hid : (req i).id = .uuid c) (hu : (req i).userId svc = some u)
    (hnew : isMember s.db c u = false) (hm : m.communityId = c ∧ m.userId = u ∧ m.role = "member")
    (hdb : s'.db = withMember s.db m) (hother : ∀ j, j ≠ i → s'.thread j = s.thread j)
    (hi : (s.thread i).pending = some (.insertMemberOnConflict (.uuid c) u "member"))
    (hpend : (fun j => (s'.thread j).pending) = Function.update (fun j => (s.thread j).pending) i
      (some (.incrementMemberCount (.uuid c)))) : Joining svc req db₀ s' := by
  obtain ⟨rfl, rfl, hrole⟩ := hm
  obtain ⟨added, hadded, hnodup, hall⟩ := hs.rows
  have hnot : ∀ m' ∈ s.db.communityMembers, ¬ (m'.communityId = m.communityId ∧ m'.userId = m.userId) := by
    intro m' hm' hpair
    rw [isMember_iff.mpr ⟨m', hm', hpair⟩] at hnew
    cases hnew
  have hmono : ∀ c' u', isMember s.db c' u' = true → isMember s'.db c' u' = true := by
    intro c' u' hmember
    obtain ⟨m', hm', hpair⟩ := isMember_iff.mp hmember
    rw [hdb]
    exact isMember_iff.mpr ⟨m', List.mem_append_left _ hm', hpair⟩
  refine ⟨⟨added ++ [m], ?_, ?_, fun m' hm' => ?_⟩, fun j c' u' hc' hu' => ?_, ?_⟩
  · rw [hdb, withMember, hadded, List.append_assoc]
  · rw [List.map_append, List.nodup_append]
    refine ⟨hnodup, List.nodup_singleton _, ?_⟩
    simp only [List.mem_map, List.map_cons, List.map_nil, List.mem_singleton]
    rintro _ ⟨m', hm', rfl⟩ _ rfl
    exact fun hpair => hnot m' (hadded ▸ List.mem_append_right _ hm') (Prod.mk.inj hpair)
  · rcases List.mem_append.mp hm' with hm' | hm'
    · exact hall m' hm'
    · rw [List.mem_singleton.mp hm']
      refine ⟨hrole, ?_, mem_applicants.mpr ⟨i, hid, hu⟩⟩
      by_contra hmember
      obtain ⟨m₀, hm₀, hpair⟩ := isMember_iff.mp (by simpa using hmember)
      exact hnot m₀ (hadded ▸ List.mem_append_left _ hm₀) hpair
  · by_cases hj : j = i
    · subst hj
      rw [hid] at hc'
      rw [hu] at hu'
      cases hc'
      cases hu'
      rw [hdb]
      exact .inr (.inr (isMember_iff.mpr ⟨m, List.mem_append_right _ (List.mem_singleton_self m), rfl, rfl⟩))
    · rw [hother j hj]
      exact (hs.entered j c' u' hc' hu').imp id (Or.imp id (hmono c' u'))
  · rw [hpend, hdb]
    refine hs.counts.imp fun row₀ row hrow => ⟨hrow.1, ?_⟩
    have hsum := uncounted_update (fun j => (s.thread j).pending) i
      (some (.incrementMemberCount (.uuid m.communityId))) row₀.id
    have hcounts := hrow.2
    simp only [hi, isCount, add_zero] at hsum
    rw [hsum, memberRows_withMember]
    split_ifs <;> simp only [List.length_append, List.length_singleton, List.append_nil] <;>
      push_cast <;> omega

theorem Joining.count {db₀ : Db} {s s' : RequestPool ι} {i : ι} {c : Uuid} (hs : Joining svc req db₀ s)
    (hdb : s'.db = countRow s.db c) (hother : ∀ j, j ≠ i → s'.thread j = s.thread j)
    (hidle : s.thread i ≠ .idle) (hi : (s.thread i).pending = some (.incrementMemberCount (.uuid c)))
    (hpend : (fun j => (s'.thread j).pending) = Function.update (fun j => (s.thread j).pending) i none) :
    Joining svc req db₀ s' := by
  refine ⟨hdb ▸ hs.rows, fun j c' u' hc' hu' => ?_, ?_⟩
  · have hmember : isMember s'.db c' u' = isMember s.db c' u' := by
      rw [hdb]
      rfl
    rw [hmember]
    by_cases hj : j = i
    · subst hj
      obtain hj | hj | hj := hs.entered j c' u' hc' hu'
      · exact absurd hj hidle
      · rw [hi] at hj
        cases hj
      · exact .inr (.inr hj)
    · rw [hother j hj]
      exact hs.entered j c' u' hc' hu'
  · rw [hpend, hdb]
    simp only [countRow_memberRows]
    refine List.forall₂_map_right_iff.mpr (hs.counts.imp fun row₀ row hrow => ?_)
    obtain ⟨hid, hcounts⟩ := hrow
    have hsum := uncounted_update (fun j => (s.thread j).pending) i none row₀.id
    simp only [hi, isCount, add_zero] at hsum
    rw [← hsum] at hcounts
    rw [hid]
    by_cases hc : c = row₀.id
    · simp only [hc, if_true] at hcounts ⊢
      push_cast at hcounts
      exact ⟨trivial, by omega⟩
    · simp only [hc, Ne.symm hc, if_false, add_zero] at hcounts ⊢
      exact ⟨hid, hcounts⟩

theorem joining_step {db₀ : Db} {s s' : RequestPool ι} {e : PoolEvent ι Tick}
    (hpath : Pool.OnPath (fun i => (req i).handler svc) s) (hs : Joining svc req db₀ s)
    (hC : succeeds svc s e) (h : (applySystem svc req).step s e = some s') : Joining svc req db₀ s' := by
  obtain ⟨i, q, hother, -, hpend, ⟨hi, hdb, rfl⟩ | ⟨u, x, ids, hi, hu, hok, rfl⟩ |
    ⟨c, hc, hi, hdb, rfl⟩⟩ := application_step hpath hC h
  · refine hs.move hdb hother hpend (fun c => ⟨by rw [hi]; rfl, ?_⟩) fun c u hc hu => .inl ?_
    · cases (req i).userId svc <;> rfl
    · rw [hu, hc]
      rfl
  · cases hid : (req i).id with
    | malformed text =>
      rw [hid] at hok
      cases hok
    | uuid c =>
      rw [hid] at hok hi hpend
      obtain ⟨hmember, rfl, hdb⟩ | ⟨hnew, hids, m, hmc, hmu, hrole, hdb⟩ := insertMemberOnConflict_uuid hok
      · refine hs.move hdb hother hpend (fun c' => ⟨by rw [hi]; rfl, rfl⟩) fun c' u' hc' hu' => .inr ?_
        rw [hid] at hc'
        rw [hu] at hu'
        cases hc'
        cases hu'
        exact hmember
      · rw [if_pos hids] at hpend
        exact hs.join hid hu hnew ⟨hmc, hmu, hrole⟩ hdb hother hi hpend
  · refine hs.count hdb hother (fun hidle => ?_) hi hpend
    rw [hidle] at hi
    cases hi

omit [DecidableEq ι] in
theorem Joining.joined {db₀ : Db} {s : RequestPool ι} (hs : Joining svc req db₀ s)
    (hrest : ∀ i, ((s.thread i).result).isSome) (c : Uuid) :
    memberSet s.db c = memberSet db₀ c ∪ (newcomers svc req db₀ c).image (·, "member") ∧
      (memberRows s.db c).length = (memberRows db₀ c).length + (newcomers svc req db₀ c).card := by
  obtain ⟨added, hadded, hnodup, hall⟩ := hs.rows
  have hrows : memberRows s.db c = memberRows db₀ c ++ added.filter (·.communityId = c) := by
    rw [memberRows, hadded, List.filter_append]
    rfl
  have husers : ((added.filter (·.communityId = c)).map (·.userId)).Nodup := by
    refine List.Nodup.of_map (c, ·) ?_
    rw [List.map_map, List.map_congr_left (g := fun m : MemberRow => (m.communityId, m.userId))]
    · exact hnodup.sublist (List.filter_sublist.map _)
    · intro m hm
      rw [← of_decide_eq_true (List.mem_filter.mp hm).2]
      rfl
  have hnewcomers : newcomers svc req db₀ c = ((added.filter (·.communityId = c)).map (·.userId)).toFinset := by
    ext u
    simp only [newcomers, Finset.mem_filter, List.mem_toFinset, List.mem_map, List.mem_filter,
      decide_eq_true_eq]
    constructor
    · rintro ⟨hu, hold⟩
      obtain ⟨i, hid, huser⟩ := mem_applicants.mp hu
      have hmember : isMember s.db c u = true := by
        obtain ⟨r, hr⟩ := Option.isSome_iff_exists.mp (hrest i)
        obtain ⟨log, hi⟩ := Thread.result_eq_some.mp hr
        rcases hs.entered i c u hid huser with h | h | h
        · rw [hi] at h
          cases h
        · rw [hi] at h
          cases h
        · exact h
      obtain ⟨m, hm, hmc, hmu⟩ := isMember_iff.mp hmember
      rw [hadded] at hm
      rcases List.mem_append.mp hm with hm | hm
      · rw [isMember_iff.mpr ⟨m, hm, hmc, hmu⟩] at hold
        cases hold
      · exact ⟨m, ⟨hm, hmc⟩, hmu⟩
    · rintro ⟨m, ⟨hm, rfl⟩, rfl⟩
      exact ⟨(hall m hm).2.2, (hall m hm).2.1⟩
  refine ⟨?_, ?_⟩
  · have hpairs : (added.filter (·.communityId = c)).map (fun m => (m.userId, m.role)) =
        ((added.filter (·.communityId = c)).map (·.userId)).map (·, "member") := by
      rw [List.map_map]
      refine List.map_congr_left fun m hm => ?_
      rw [(hall m (List.mem_filter.mp hm).1).1]
      rfl
    rw [memberSet, hrows, List.map_append, List.toFinset_append, hpairs, hnewcomers]
    congr 1
    ext p
    simp only [List.mem_toFinset, List.mem_map, Finset.mem_image]
  · rw [hrows, List.length_append, hnewcomers, List.toFinset_card_of_nodup husers, List.length_map]

/-- **Joining is confluent**: in every state of every run without a failing statement, a community's count
and its rows to be counted make up its rows and the difference it started with. When all applications are
answered, whatever their order, the old rows are there as they were, the users and roles are the old ones and
the newcomers as members, and each community has counted its newcomers. -/
theorem joins_confluent {s₀ s : RequestPool ι} {tr : List (PoolEvent ι Tick)}
    (h₀ : (applySystem svc req).Init s₀)
    (hrun : (applySystem svc req).Run (fun s e => succeeds svc s e) s₀ tr s) :
    List.Forall₂ (fun row₀ row : CommunityRow => row.id = row₀.id ∧
      row.memberCount + uncounted (fun i => (s.thread i).pending) row₀.id =
        (memberRows s.db row₀.id).length + (row₀.memberCount - (memberRows s₀.db row₀.id).length))
      s₀.db.communities s.db.communities ∧
    ((∀ i, ((s.thread i).result).isSome) →
      s₀.db.communityMembers <+: s.db.communityMembers ∧
      (∀ c, memberSet s.db c =
        memberSet s₀.db c ∪ (newcomers svc req s₀.db c).image (·, "member")) ∧
      List.Forall₂ (fun row₀ row : CommunityRow => row.id = row₀.id ∧
        row.memberCount = row₀.memberCount + (newcomers svc req s₀.db row₀.id).card)
        s₀.db.communities s.db.communities) := by
  have hinv : Pool.OnPath (fun i => (req i).handler svc) s ∧ Joining svc req s₀.db s := by
    refine hrun.invariant
      (fun s => Pool.OnPath (fun i => (req i).handler svc) s ∧ Joining svc req s₀.db s)
      ⟨Pool.onPath_of_idle h₀.2, joining_init h₀.2⟩ ?_
    rintro s e s' ⟨hpath, hs⟩ hC hstep
    exact ⟨Pool.onPath_step hpath hstep, joining_step hpath hs hC hstep⟩
  obtain ⟨-, hs⟩ := hinv
  refine ⟨hs.counts, fun hrest => ⟨?_, fun c => (hs.joined hrest c).1, ?_⟩⟩
  · obtain ⟨added, hadded, -⟩ := hs.rows
    exact ⟨added, hadded.symm⟩
  · have hzero : ∀ c, uncounted (fun i => (s.thread i).pending) c = 0 := by
      intro c
      refine Finset.sum_eq_zero fun i _ => ?_
      obtain ⟨r, hr⟩ := Option.isSome_iff_exists.mp (hrest i)
      obtain ⟨log, hi⟩ := Thread.result_eq_some.mp hr
      simp [hi, isCount]
    refine hs.counts.imp fun row₀ row hrow => ⟨hrow.1, ?_⟩
    have hcounts := hrow.2
    rw [hzero, (hs.joined hrest row₀.id).2] at hcounts
    push_cast at hcounts
    omega

end

/-- Bo applies twice at once, and Ana to her own community. -/
def threeApplications : Fin 3 → Application
  | 0 => ⟨⟨5, "", 0⟩, some "Bearer 2.0.bo@x.org", .uuid 10⟩
  | 1 => ⟨⟨5, "", 0⟩, some "Bearer 2.0.bo@x.org", .uuid 10⟩
  | 2 => ⟨⟨5, "", 0⟩, some "Bearer 1.0.ana@x.org", .uuid 10⟩

def anasLoft : Db :=
  { twoUsers with
    communities := [{ id := 10, name := "Loft", description := none, location := none, ownerId := 1,
                      memberCount := 1, createdAt := 0 }]
    communityMembers := [{ id := 11, communityId := 10, userId := 1, role := "owner", joinedAt := 0 }] }

theorem joins_confluent_two_of_bo :
    ∃ s : RequestPool (Fin 3), memberSet s.db 10 = memberSet anasLoft 10 ∪
        (newcomers plainServices threeApplications anasLoft 10).image (·, "member") ∧
      newcomers plainServices threeApplications anasLoft 10 = {2} ∧
      s.db.communities.map (·.memberCount) = [2] := by
  let M := applySystem plainServices threeApplications
  let s₀ : RequestPool (Fin 3) := ⟨anasLoft, [], fun _ => .idle⟩
  have h₀ : M.Init s₀ := ⟨trivial, fun _ => rfl⟩
  obtain ⟨s, hs⟩ : ∃ s, M.exec (succeeds plainServices) s₀
      [.start 0, .start 1, .answer 1 { uuid := 12 }, .start 2, .answer 0 { uuid := 13 }, .answer 2 {},
        .answer 1 {}] = some s := Option.isSome_iff_exists.mp (by decide +kernel)
  have hfacts : (M.exec (succeeds plainServices) s₀
      [.start 0, .start 1, .answer 1 { uuid := 12 }, .start 2, .answer 0 { uuid := 13 }, .answer 2 {},
        .answer 1 {}]).map (fun s => (decide (∀ i, ((s.thread i).result).isSome),
          s.db.communities.map (·.memberCount))) = some (true, [2]) := by decide +kernel
  rw [hs, Option.map_some, Option.some.injEq, Prod.mk.injEq, decide_eq_true_eq] at hfacts
  have hjoined := (joins_confluent h₀ (.of_exec hs)).2 hfacts.1
  exact ⟨s, hjoined.2.1 10, by decide +kernel, hfacts.2⟩

end Locus.Server
