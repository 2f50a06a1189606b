import Locus.Server.Handlers

/-!
# Membership bookkeeping under concurrent requests

Any number of `POST /communities` and `POST /communities/:id/apply` requests, their SQL statements
interleaved in any way. Both routes are two statements: a creation inserts the community, which counts
its creator already, and then the creator's row as owner; an application inserts a row and then counts
it. Between the two a community owes an owner row, or has rows not yet counted (`Kept`).

The creator may apply to his own community as soon as its row can be seen. If he does so before the
second INSERT of the creation, that INSERT is refused, and the community stays without an owner and
with a wrong count (`creator_applies`). Otherwise the books are balanced whenever no request is in
flight (`bookkept_at_rest`).
-/

namespace Locus.Server

open Lib

/-- A request of the two routes, with what it takes from Node. -/
inductive MembershipRequest
  | create (env : NodeEnv) (authorization : Option String) (body : Json)
  | apply (env : NodeEnv) (authorization : Option String) (id : IdParam)

def MembershipRequest.handler (svc : Services) : MembershipRequest → Handler
  | create env authorization body => postCommunities svc env authorization body
  | apply env authorization id => postCommunitiesApply svc env authorization id

/-! ### The books -/

/-- The rows of `community_members` of a community. -/
def memberRows (db : Db) (c : Uuid) : List MemberRow :=
  db.communityMembers.filter (·.communityId = c)

def ownerRows (db : Db) (c : Uuid) : List MemberRow :=
  (memberRows db c).filter (·.role = "owner")

/-- Every community has one owner row, that of `owner_id`, and `member_count` rows in all. -/
def Bookkept (db : Db) : Prop :=
  ∀ c ∈ db.communities, (ownerRows db c.id).map (·.userId) = [c.ownerId] ∧
    c.memberCount = (memberRows db c.id).length

instance (db : Db) : Decidable (Bookkept db) := by unfold Bookkept; infer_instance

/-- The foreign key of `community_members.community_id`. -/
def MembersLinked (db : Db) : Prop :=
  ∀ m ∈ db.communityMembers, ∃ c ∈ db.communities, c.id = m.communityId

/-! ### The points of the two handlers -/

def membershipNext : (q : Stmt) → Except Thrown (Answer q) → Option Stmt
  | .insertCommunity _ _ _ u, .ok c => some (.insertMember c.id u "owner")
  | .insertMemberOnConflict id _ _, .ok ids =>
    if ids.length > 0 then some (.incrementMemberCount id) else none
  | _, _ => none

/-- The program awaits `q`, or is done where there is no `q`. -/
def Goes (p : Handler) : Option Stmt → Prop
  | some q => p.Awaits q
  | none => ∃ r, p = .done r

theorem Goes.pending {ι : Type} [DecidableEq ι] {p : Handler} {q : Option Stmt} (h : Goes p q)
    {s : RequestPool ι} {i : ι} {d : Db} {log : List (Prog.Call Stmt Answer Thrown)} :
    ((s.goto i d p log).thread i).pending = q := by
  cases q with
  | some q => exact Pool.goto_pending_of_awaits _ _ _ _ h
  | none => exact Pool.goto_pending_of_done _ _ _ _ h

def ofMembership : Stmt → Prop
  | .insertCommunity .. => True
  | .insertMember _ _ role => role = "owner"
  | .insertMemberOnConflict _ _ role => role = "member"
  | .incrementMemberCount _ => True
  | _ => False

/-- The query is of the two routes and its continuation goes where `membershipNext` says. -/
def MembershipPoint (q : Stmt) (k : Except Thrown (Answer q) → Handler) : Prop :=
  ofMembership q ∧ ∀ a, Goes (k a) (membershipNext q a)

theorem membershipRequest_always (svc : Services) (r : MembershipRequest) :
    (r.handler svc).Always MembershipPoint := by
  cases r with
  | create env authorization body =>
    refine authMiddleware_induction svc env authorization (fun r => trivial) fun user => ?_
    cases nonEmptyString (body.field? "name") with
    | none => trivial
    | some name =>
      refine ⟨⟨trivial, fun a => ?_⟩, fun a => ?_⟩
      · cases a with
        | ok c => exact ⟨_, rfl⟩
        | error e => exact ⟨_, rfl⟩
      · cases a with
        | ok c =>
          refine ⟨⟨rfl, fun a => ?_⟩, fun a => ?_⟩
          · cases a <;> exact ⟨_, rfl⟩
          · cases a <;> trivial
        | error e => trivial
  | apply env authorization id =>
    refine authMiddleware_induction svc env authorization (fun r => trivial) fun user => ?_
    refine ⟨⟨rfl, fun a => ?_⟩, fun a => ?_⟩
    · cases a with
      | ok ids => cases ids <;> exact ⟨_, rfl⟩
      | error e => exact ⟨_, rfl⟩
    · cases a with
      | ok ids =>
        cases ids with
        | nil => trivial
        | cons id' rest =>
          refine ⟨⟨trivial, fun a => ?_⟩, fun a => ?_⟩
          · cases a <;> exact ⟨_, rfl⟩
          · cases a <;> trivial
      | error e => trivial

/-- The first statement of a request is neither an owner row nor a count. -/
def startsWith : Option Stmt → Prop
  | some (.insertCommunity ..) => True
  | some (.insertMemberOnConflict ..) => True
  | none => True
  | _ => False

theorem membershipRequest_starts (svc : Services) (r : MembershipRequest) :
    ∃ q, startsWith q ∧ Goes (r.handler svc) q := by
  cases r with
  | create env authorization body =>
    refine authMiddleware_induction (P := fun p => ∃ q, startsWith q ∧ Goes p q) svc env authorization
      (fun r => ⟨none, trivial, r, rfl⟩) fun user => ?_
    cases nonEmptyString (body.field? "name") with
    | none => exact ⟨none, trivial, _, rfl⟩
    | some name => exact ⟨some (.insertCommunity ..), trivial, _, rfl⟩
  | apply env authorization id =>
    exact authMiddleware_induction (P := fun p => ∃ q, startsWith q ∧ Goes p q) svc env authorization
      (fun r => ⟨none, trivial, r, rfl⟩) fun user =>
        ⟨some (.insertMemberOnConflict ..), trivial, _, rfl⟩

/-! ### What the statements do -/

theorem insertMember_succeeds {tick : Tick} {db : Db} {c u : Uuid} (role : String)
    (hpair : isMember db c u = false) (hid : db.communityMembers.any (·.id = tick.uuid) = false)
    (hc : ∃ row ∈ db.communities, row.id = c) (hu : db.users.any (·.id = u)) :
    ∃ id db', insertMember tick db c u role = .ok (id, db') := by
  have hc' : db.communities.any (·.id = c) := by simpa using hc
  unfold insertMember addMember
  rw [if_neg (by simp [hpair]), if_neg (by simp [hid]), if_neg (by simp [hc']), if_neg (by simp [hu])]
  exact ⟨_, _, rfl⟩

/-! ### The books between two statements -/

section
variable {ι : Type} [Fintype ι]

/-- The statement is the owner row of `c`. -/
def isOwnerRow (c : Uuid) : Option Stmt → ℕ
  | some (.insertMember c' _ _) => if c' = c then 1 else 0
  | _ => 0

/-- The statement counts a row of `c`. -/
def isCount (c : Uuid) : Option Stmt → ℕ
  | some (.incrementMemberCount (.uuid c')) => if c' = c then 1 else 0
  | _ => 0

/-- The owner rows of `c` still to come, when the requests await `pend`. -/
def owed (pend : ι → Option Stmt) (c : Uuid) : ℕ := ∑ i, isOwnerRow c (pend i)

/-- The rows of `c` still to be counted. -/
def uncounted (pend : ι → Option Stmt) (c : Uuid) : ℕ := ∑ i, isCount c (pend i)

/-- What the statement refers to is there, and the owner row is that of `owner_id`. -/
def Known (db : Db) : Option Stmt → Prop
  | some (.insertMember c u _) => (∃ row ∈ db.communities, row.id = c) ∧
    (∀ row ∈ db.communities, row.id = c → row.ownerId = u) ∧ db.users.any (·.id = u)
  | some (.incrementMemberCount (.uuid c)) => ∃ row ∈ db.communities, row.id = c
  | _ => True

/-- The books while the requests await `pend`. -/
structure Kept (db : Db) (pend : ι → Option Stmt) : Prop where
  linked : MembersLinked db
  known : ∀ i, Known db (pend i)
  owners : ∀ c ∈ db.communities,
    (ownerRows db c.id).map (·.userId) ++ List.replicate (owed pend c.id) c.ownerId = [c.ownerId]
  counts : ∀ c ∈ db.communities,
    c.memberCount + uncounted pend c.id = (memberRows db c.id).length + owed pend c.id

theorem Kept.bookkept {db : Db} {pend : ι → Option Stmt} (h : Kept db pend) (hrest : ∀ i, pend i = none) :
    Bookkept db := by
  have howed : ∀ c, owed pend c = 0 := fun c => by simp [owed, hrest, isOwnerRow]
  have huncounted : ∀ c, uncounted pend c = 0 := fun c => by simp [uncounted, hrest, isCount]
  intro c hc
  have howners := h.owners c hc
  have hcounts := h.counts c hc
  rw [howed] at howners hcounts
  rw [huncounted] at hcounts
  exact ⟨by simpa using howners, by simpa using hcounts⟩

theorem Kept.of_bookkept {db : Db} {pend : ι → Option Stmt} (hbook : Bookkept db)
    (hlinked : MembersLinked db) (hrest : ∀ i, pend i = none) : Kept db pend := by
  have howed : ∀ c, owed pend c = 0 := fun c => by simp [owed, hrest, isOwnerRow]
  have huncounted : ∀ c, uncounted pend c = 0 := fun c => by simp [uncounted, hrest, isCount]
  refine ⟨hlinked, fun i => by rw [hrest i]; trivial, fun c hc => ?_, fun c hc => ?_⟩
  · rw [howed, (hbook c hc).1]
    rfl
  · rw [howed, huncounted, (hbook c hc).2]

theorem isOwnerRow_ne_zero {c : Uuid} {q : Option Stmt} (h : isOwnerRow c q ≠ 0) :
    ∃ u r, q = some (.insertMember c u r) := by
  unfold isOwnerRow at h
  split at h
  · obtain rfl := (ite_ne_right_iff.mp h).1
    exact ⟨_, _, rfl⟩
  · exact absurd rfl h

theorem isCount_ne_zero {c : Uuid} {q : Option Stmt} (h : isCount c q ≠ 0) :
    q = some (.incrementMemberCount (.uuid c)) := by
  unfold isCount at h
  split at h
  · obtain rfl := (ite_ne_right_iff.mp h).1
    rfl
  · exact absurd rfl h

/-- What is known stays known while communities stay, and each is an old one or has an id of its own. -/
theorem Known.mono {db db' : Db} {q : Option Stmt} (h : Known db q)
    (hold : ∀ row ∈ db.communities, ∃ row' ∈ db'.communities, row'.id = row.id)
    (hnew : ∀ row' ∈ db'.communities, (∀ row ∈ db.communities, row.id ≠ row'.id) ∨
      ∃ row ∈ db.communities, row.id = row'.id ∧ row.ownerId = row'.ownerId)
    (husers : db'.users = db.users) : Known db' q := by
  have hthere : ∀ c, (∃ row ∈ db.communities, row.id = c) → ∃ row ∈ db'.communities, row.id = c := by
    rintro c ⟨row, hrow, rfl⟩
    exact hold row hrow
  unfold Known at h ⊢
  split at h
  · rename_i c u _
    obtain ⟨⟨row, hrow, hid⟩, hall, huser⟩ := h
    refine ⟨hthere c ⟨row, hrow, hid⟩, fun row' hrow' hid' => ?_, husers ▸ huser⟩
    obtain hfresh | ⟨row₀, hrow₀, hid₀, howner⟩ := hnew row' hrow'
    · exact absurd (hid.trans hid'.symm) (hfresh row hrow)
    · rw [← howner]
      exact hall row₀ hrow₀ (hid₀.trans hid')
  · exact hthere _ h
  · trivial

variable [DecidableEq ι] {db db' : Db} {pend : ι → Option Stmt} {i : ι}

theorem owed_update (pend : ι → Option Stmt) (i : ι) (q : Option Stmt) (c : Uuid) :
    owed (Function.update pend i q) c + isOwnerRow c (pend i) = owed pend c + isOwnerRow c q :=
  sum_update (isOwnerRow c) pend i q

theorem uncounted_update (pend : ι → Option Stmt) (i : ι) (q : Option Stmt) (c : Uuid) :
    uncounted (Function.update pend i q) c + isCount c (pend i) = uncounted pend c + isCount c q :=
  sum_update (isCount c) pend i q

omit [Fintype ι] in
theorem known_update (h : ∀ j, Known db (pend j)) (hdb : ∀ q, Known db q → Known db' q) {q : Option Stmt}
    (hq : Known db' q) : ∀ j, Known db' (Function.update pend i q j) :=
  (Function.forall_update_iff pend fun _ => Known db').mpr ⟨hq, fun j _ => hdb _ (h j)⟩

theorem Kept.move (h : Kept db pend) {q : Option Stmt} (hi : startsWith (pend i)) (hq : startsWith q) :
    Kept db (Function.update pend i q) := by
  have hzero : ∀ q' : Option Stmt, startsWith q' →
      Known db q' ∧ ∀ c, isOwnerRow c q' = 0 ∧ isCount c q' = 0 := by
    intro q' hq'
    match q', hq' with
    | some (.insertCommunity ..), _ => exact ⟨trivial, fun _ => ⟨rfl, rfl⟩⟩
    | some (.insertMemberOnConflict ..), _ => exact ⟨trivial, fun _ => ⟨rfl, rfl⟩⟩
    | none, _ => exact ⟨trivial, fun _ => ⟨rfl, rfl⟩⟩
  have howed : ∀ c, owed (Function.update pend i q) c = owed pend c := fun c => by
    simpa [((hzero _ hi).2 c).1, ((hzero _ hq).2 c).1] using owed_update pend i q c
  have huncounted : ∀ c, uncounted (Function.update pend i q) c = uncounted pend c := fun c => by
    simpa [((hzero _ hi).2 c).2, ((hzero _ hq).2 c).2] using uncounted_update pend i q c
  refine ⟨h.linked, known_update h.known (fun _ => id) (hzero q hq).1, fun c hc => ?_, fun c hc => ?_⟩
  · rw [howed]
    exact h.owners c hc
  · rw [howed, huncounted]
    exact h.counts c hc

theorem Kept.create (h : Kept db pend) {name : String} {description : Option String}
    {location : Option Json} {u : Uuid} {c : CommunityRow} {tick : Tick}
    (hi : pend i = some (.insertCommunity name description location u))
    (hok : insertCommunity tick db name description location u = .ok (c, db')) :
    Kept db' (Function.update pend i (some (.insertMember c.id u "owner"))) := by
  obtain ⟨hnew, howner, hcount, -, huser, rfl⟩ := insertCommunity_ok hok
  have howed : ∀ c', owed (Function.update pend i (some (.insertMember c.id u "owner"))) c' =
      owed pend c' + if c.id = c' then 1 else 0 := fun c' => by
    simpa [hi, isOwnerRow] using owed_update pend i (some (.insertMember c.id u "owner")) c'
  have huncounted : ∀ c', uncounted (Function.update pend i (some (.insertMember c.id u "owner"))) c' =
      uncounted pend c' := fun c' => by
    simpa [hi, isCount] using uncounted_update pend i (some (.insertMember c.id u "owner")) c'
  -- nothing refers to the new community yet
  have hrows : memberRows db c.id = [] := by
    refine List.filter_eq_nil_iff.mpr fun m hm => ?_
    obtain ⟨row, hrow, hid⟩ := h.linked m hm
    simpa [← hid] using hnew row hrow
  have hnobody : owed pend c.id = 0 ∧ uncounted pend c.id = 0 := by
    constructor
    · refine Finset.sum_eq_zero fun j _ => ?_
      by_contra hne
      obtain ⟨u', r, hp⟩ := isOwnerRow_ne_zero hne
      have hj := h.known j
      rw [hp] at hj
      obtain ⟨⟨row, hrow, hid⟩, -⟩ := hj
      exact hnew row hrow hid
    · refine Finset.sum_eq_zero fun j _ => ?_
      by_contra hne
      have hj := h.known j
      rw [isCount_ne_zero hne] at hj
      obtain ⟨row, hrow, hid⟩ := hj
      exact hnew row hrow hid
  refine ⟨fun m hm => ?_, known_update h.known ?_ ?_, fun c' hc' => ?_, fun c' hc' => ?_⟩
  · obtain ⟨row, hrow, hid⟩ := h.linked m hm
    exact ⟨row, List.mem_append_left _ hrow, hid⟩
  · intro q hq
    refine hq.mono (fun row hrow => ⟨row, List.mem_append_left _ hrow, rfl⟩) (fun row hrow => ?_) rfl
    rcases List.mem_append.mp hrow with hrow | hrow
    · exact .inr ⟨row, hrow, rfl, rfl⟩
    · rw [List.mem_singleton.mp hrow]
      exact .inl hnew
  · refine ⟨⟨c, by simp, rfl⟩, fun row hrow hid => ?_, huser⟩
    rcases List.mem_append.mp hrow with hrow | hrow
    · exact absurd hid (hnew row hrow)
    · rw [List.mem_singleton.mp hrow, howner]
  · rcases List.mem_append.mp hc' with hold | hnew'
    · rw [howed, if_neg fun hid => hnew c' hold hid.symm]
      exact h.owners c' hold
    · obtain rfl := List.mem_singleton.mp hnew'
      rw [howed, hnobody.1, if_pos rfl]
      simp only [ownerRows, memberRows] at hrows ⊢
      simp [hrows]
  · rcases List.mem_append.mp hc' with hold | hnew'
    · rw [howed, huncounted, if_neg fun hid => hnew c' hold hid.symm]
      exact h.counts c' hold
    · obtain rfl := List.mem_singleton.mp hnew'
      simp only [memberRows] at hrows
      rw [howed, huncounted, hnobody.1, hnobody.2, if_pos rfl, memberRows, hrows, hcount]
      rfl

/-- A new row of `community_members`. -/
def withMember (db : Db) (m : MemberRow) : Db :=
  { db with communityMembers := db.communityMembers ++ [m] }

theorem memberRows_withMember (db : Db) (m : MemberRow) (c : Uuid) :
    memberRows (withMember db m) c = memberRows db c ++ if m.communityId = c then [m] else [] := by
  simp only [memberRows, withMember, List.filter_append, List.filter_cons, List.filter_nil,
    decide_eq_true_eq]

theorem Kept.owner (h : Kept db pend) {c u : Uuid} {m : MemberRow}
    (hi : pend i = some (.insertMember c u "owner")) (hm : m.communityId = c ∧ m.userId = u ∧
      m.role = "owner") : Kept (withMember db m) (Function.update pend i none) := by
  obtain ⟨rfl, rfl, hrole⟩ := hm
  have hknown := h.known i
  rw [hi] at hknown
  have howed : ∀ c', owed (Function.update pend i none) c' + (if m.communityId = c' then 1 else 0) =
      owed pend c' := fun c' => by simpa [hi, isOwnerRow] using owed_update pend i none c'
  have huncounted : ∀ c', uncounted (Function.update pend i none) c' = uncounted pend c' := fun c' => by
    simpa [hi, isCount] using uncounted_update pend i none c'
  refine ⟨fun m' hm' => ?_, known_update h.known (fun _ => id) trivial, fun c hc => ?_, fun c hc => ?_⟩
  · rcases List.mem_append.mp hm' with hm' | hm'
    · exact h.linked m' hm'
    · obtain rfl := List.mem_singleton.mp hm'
      exact hknown.1
  · have howners := h.owners c hc
    rw [ownerRows, memberRows_withMember]
    rw [← howed] at howners
    split_ifs at howners ⊢ with hid
    · rw [hknown.2.1 c hc hid.symm]
      rw [hknown.2.1 c hc hid.symm, List.replicate_succ] at howners
      simpa [hrole, ownerRows] using howners
    · simpa [ownerRows] using howners
  · have hcounts := h.counts c hc
    rw [memberRows_withMember, huncounted]
    rw [← howed] at hcounts
    split_ifs at hcounts ⊢ with hid
    · simp only [List.length_append, List.length_singleton]
      push_cast at hcounts ⊢
      omega
    · simpa using hcounts

theorem Kept.join (h : Kept db pend) {c u : Uuid} {m : MemberRow}
    (hi : pend i = some (.insertMemberOnConflict (.uuid c) u "member"))
    (hm : m.communityId = c ∧ m.role = "member") (hc : ∃ row ∈ db.communities, row.id = c) :
    Kept (withMember db m) (Function.update pend i (some (.incrementMemberCount (.uuid c)))) := by
  obtain ⟨rfl, hrole⟩ := hm
  have howed : ∀ c', owed (Function.update pend i (some (.incrementMemberCount (.uuid m.communityId)))) c' =
      owed pend c' := fun c' => by
    simpa [hi, isOwnerRow] using
      owed_update pend i (some (.incrementMemberCount (.uuid m.communityId))) c'
  have huncounted : ∀ c',
      uncounted (Function.update pend i (some (.incrementMemberCount (.uuid m.communityId)))) c' =
        uncounted pend c' + if m.communityId = c' then 1 else 0 := fun c' => by
    simpa [hi, isCount] using
      uncounted_update pend i (some (.incrementMemberCount (.uuid m.communityId))) c'
  refine ⟨fun m' hm' => ?_, known_update h.known (fun _ => id) hc, fun c hc' => ?_, fun c hc' => ?_⟩
  · rcases List.mem_append.mp hm' with hm' | hm'
    · exact h.linked m' hm'
    · obtain rfl := List.mem_singleton.mp hm'
      exact hc
  · have howners := h.owners c hc'
    rw [ownerRows, memberRows_withMember, howed]
    split_ifs
    · simpa [hrole, ownerRows] using howners
    · simpa [ownerRows] using howners
  · have hcounts := h.counts c hc'
    rw [memberRows_withMember, howed, huncounted]
    split_ifs
    · simp only [List.length_append, List.length_singleton]
      push_cast
      omega
    · simpa using hcounts

theorem countRow_memberRows (db : Db) (c c' : Uuid) :
    memberRows (countRow db c) c' = memberRows db c' := rfl

theorem Kept.count (h : Kept db pend) {c : Uuid}
    (hi : pend i = some (.incrementMemberCount (.uuid c))) :
    Kept (countRow db c) (Function.update pend i none) := by
  have hforth : ∀ row ∈ db.communities, ∃ row' ∈ (countRow db c).communities, row'.id = row.id := by
    intro row hrow
    refine ⟨_, List.mem_map_of_mem hrow, ?_⟩
    split_ifs <;> rfl
  have howed : ∀ c', owed (Function.update pend i none) c' = owed pend c' := fun c' => by
    simpa [hi, isOwnerRow] using owed_update pend i none c'
  have huncounted : ∀ c', uncounted (Function.update pend i none) c' + (if c = c' then 1 else 0) =
      uncounted pend c' := fun c' => by simpa [hi, isCount] using uncounted_update pend i none c'
  have hback : ∀ row' ∈ (countRow db c).communities, ∃ row ∈ db.communities, row.id = row'.id ∧
      row.ownerId = row'.ownerId ∧
      row'.memberCount = row.memberCount + if c = row'.id then 1 else 0 := by
    intro row' hrow'
    obtain ⟨row, hrow, rfl⟩ := List.mem_map.mp hrow'
    by_cases hid : row.id = c
    · exact ⟨row, hrow, by simp [hid], by simp [hid], by simp [hid]⟩
    · exact ⟨row, hrow, by simp [hid], by simp [hid], by simp [hid, Ne.symm hid]⟩
  have hmono : ∀ q, Known db q → Known (countRow db c) q := by
    refine fun q hq => hq.mono hforth (fun row' hrow' => ?_) rfl
    obtain ⟨row, hrow, hid, howner, -⟩ := hback row' hrow'
    exact .inr ⟨row, hrow, hid, howner⟩
  refine ⟨fun m hm => ?_, known_update h.known hmono trivial, ?_, ?_⟩
  · obtain ⟨row, hrow, hid⟩ := h.linked m hm
    obtain ⟨row', hrow', hid'⟩ := hforth row hrow
    exact ⟨row', hrow', hid'.trans hid⟩
  · intro row' hrow'
    obtain ⟨row, hrow, hid, howner, -⟩ := hback row' hrow'
    rw [howed, ← hid, ← howner]
    exact h.owners row hrow
  · intro row' hrow'
    obtain ⟨row, hrow, hid, -, hcount⟩ := hback row' hrow'
    have hcounts := h.counts row hrow
    rw [hid, ← huncounted] at hcounts
    rw [howed, hcount]
    simp only [countRow_memberRows]
    push_cast at hcounts
    omega

end

/-! ### Runs -/

section
variable {ι : Type} [DecidableEq ι] {svc : Services} {req : ι → MembershipRequest}

/-- The requests `req`, their statements interleaved in any way, on balanced books. -/
def membershipSystem (svc : Services) (req : ι → MembershipRequest) :
    System (RequestPool ι) (PoolEvent ι Tick) :=
  Pool.system (fun i => (req i).handler svc) (exec svc) fun db _ => Bookkept db ∧ MembersLinked db

/-- If the statement that the event answers fails, a constraint of the schema has refused it. -/
def failsBySchemaOnly (svc : Services) (s : RequestPool ι) : PoolEvent ι Tick → Bool
  | .start _ => true
  | .answer i x => match (s.thread i).pending with
    | some q => match (exec svc x s.db q).1 with
      | .ok _ => true
      | .error (.pg e) => e.ofSchema
      | .error (.js _) => false
    | none => true

/-- If the event answers the second INSERT of a creation, the creator has no row in the community yet;
and the id generated for the row is new. -/
def creatorNotYetMember (s : RequestPool ι) : PoolEvent ι Tick → Bool
  | .start _ => true
  | .answer i x => match (s.thread i).pending with
    | some (.insertMember c u _) =>
      !isMember s.db c u && !s.db.communityMembers.any (·.id = x.uuid)
    | _ => true

theorem membership_step {s s' : RequestPool ι} {e : PoolEvent ι Tick}
    (hpath : Pool.OnPath (fun i => (req i).handler svc) s)
    (h : (membershipSystem svc req).step s e = some s') :
    (∃ i q, e = .start i ∧ (s.thread i).pending = none ∧ startsWith q ∧ s'.db = s.db ∧
      (fun j => (s'.thread j).pending) = Function.update (fun j => (s.thread j).pending) i q) ∨
    (∃ i x q, e = .answer i x ∧ (s.thread i).pending = some q ∧ ofMembership q ∧
      s'.db = (exec svc x s.db q).2 ∧
      (fun j => (s'.thread j).pending) = Function.update (fun j => (s.thread j).pending) i
        (membershipNext q (exec svc x s.db q).1)) := by
  obtain ⟨i, rfl, hi, rfl⟩ | ⟨i, x, q, k, log, rfl, hi, rfl⟩ := Pool.step_cases h
  · obtain ⟨q, hq, hp⟩ := membershipRequest_starts svc (req i)
    refine .inl ⟨i, q, rfl, by rw [hi]; rfl, hq, rfl, ?_⟩
    rw [Pool.goto_pendings, hp.pending]
  · obtain ⟨⟨hq, hk⟩, -⟩ := (hpath i _ _ hi).1.always (membershipRequest_always svc (req i))
    refine .inr ⟨i, x, q, rfl, by rw [hi]; rfl, hq, rfl, ?_⟩
    rw [Pool.goto_pendings, (hk _).pending]

/-- **A step keeps the books**, as long as the owner row is not refused. -/
theorem kept_step [Fintype ι] {s s' : RequestPool ι} {e : PoolEvent ι Tick}
    (hpath : Pool.OnPath (fun i => (req i).handler svc) s)
    (hkept : Kept s.db fun i => (s.thread i).pending)
    (hschema : failsBySchemaOnly svc s e) (hcreator : creatorNotYetMember s e)
    (h : (membershipSystem svc req).step s e = some s') :
    Kept s'.db fun i => (s'.thread i).pending := by
  obtain ⟨i, q, rfl, hi, hq, hdb, hpend⟩ | ⟨i, x, q, rfl, hi, hq, hdb, hpend⟩ := membership_step hpath h
  · rw [hdb, hpend]
    exact hkept.move (by rw [hi]; trivial) hq
  · rw [hdb, hpend]
    have hknown := hkept.known i
    simp only [failsBySchemaOnly, creatorNotYetMember, hi] at hschema hcreator hknown
    have hexec := exec_cases svc x s.db q
    cases q with
    | insertCommunity name description location u =>
      obtain ⟨c, d, hok, hexec⟩ | ⟨err, hexec, -⟩ := hexec
      · rw [hexec]
        exact hkept.create hi hok
      · rw [hexec]
        exact hkept.move (by rw [hi]; trivial) trivial
    | insertMember c u role =>
      obtain rfl : role = "owner" := hq
      simp only [Bool.and_eq_true, Bool.not_eq_true'] at hcreator
      obtain ⟨id, d, hok⟩ :=
        insertMember_succeeds "owner" hcreator.1 hcreator.2 hknown.1 hknown.2.2
      obtain ⟨id', d', hok', hexec⟩ | ⟨err, hexec, herr⟩ := hexec
      · rw [hexec]
        rw [execOk, insertMember, if_neg (by simp [hcreator.1])] at hok'
        obtain ⟨m, hc, hu, hrole, -, rfl⟩ := addMember_ok hok'
        exact hkept.owner hi ⟨hc, hu, hrole⟩
      · -- it is in, and a fault is not a constraint
        rw [hexec] at hschema
        obtain herr | ⟨message, -, rfl⟩ := herr
        · rw [execOk, hok] at herr
          cases herr
        · cases hschema
    | insertMemberOnConflict id u role =>
      obtain rfl : role = "member" := hq
      obtain ⟨ids, d, hok, hexec⟩ | ⟨err, hexec, -⟩ := hexec
      swap
      · rw [hexec]
        exact hkept.move (by rw [hi]; trivial) trivial
      rw [hexec]
      obtain ⟨rfl, rfl⟩ | ⟨m, hids, rfl, -, hrole, hthere, rfl⟩ := insertMemberOnConflict_ok hok
      · exact hkept.move (by rw [hi]; trivial) trivial
      · rw [membershipNext, if_pos hids]
        exact hkept.join hi ⟨rfl, hrole⟩ hthere
    | incrementMemberCount id =>
      obtain ⟨a, d, hok, hexec⟩ | ⟨err, hexec, herr⟩ := hexec
      · rw [hexec]
        obtain ⟨c, rfl, rfl⟩ := incrementMemberCount_ok hok
        exact hkept.count hi
      · -- neither an overflow nor a fault is a constraint
        rw [hexec] at hschema
        obtain herr | ⟨message, -, rfl⟩ := herr
        · rw [execOk] at herr
          cases id with
          | malformed text =>
            cases herr
            cases hschema
          | uuid c =>
            rw [incrementMemberCount] at herr
            split_ifs at herr
            cases herr
            cases hschema
        · cases hschema
    | _ => exact hq.elim

/-- **The books are balanced at rest**: with nothing in flight, every community has its owner row and the
right count, if no creator got a row in his community before the second INSERT of its creation. -/
theorem bookkept_at_rest [Fintype ι] {s : RequestPool ι}
    (h : (membershipSystem svc req).Reachable
      (fun s e => failsBySchemaOnly svc s e && creatorNotYetMember s e) s)
    (hrest : ∀ i, (s.thread i).pending = none) : Bookkept s.db := by
  refine Kept.bookkept ?_ hrest
  refine (h.invariant (fun s => Pool.OnPath (fun i => (req i).handler svc) s ∧
    Kept s.db fun i => (s.thread i).pending) ?_ ?_).2
  · rintro s₀ ⟨⟨hbook, hlinked⟩, hidle⟩
    exact ⟨Pool.onPath_of_idle hidle, .of_bookkept hbook hlinked fun i => by rw [hidle i]; rfl⟩
  · rintro s e s' ⟨hpath, hkept⟩ hC hstep
    rw [Bool.and_eq_true] at hC
    exact ⟨Pool.onPath_step hpath hstep, kept_step hpath hkept hC.1 hC.2 hstep⟩

end

/-! ### The creator applies -/

def twoUsers : Db where
  users := [{ id := 1, email := "ana@x.org", name := none, passwordHash := none, createdAt := 0,
              updatedAt := 0 },
            { id := 2, email := "bo@x.org", name := none, passwordHash := none, createdAt := 0,
              updatedAt := 0 }]

/-- User 1 creates a community, and the user with the access token `applicant` applies to it. -/
def createAndApply (applicant : String) : Bool → MembershipRequest
  | false => .create ⟨5, "", 0⟩ (some "Bearer 1.0.ana@x.org") (.obj [("name", .str "Loft")])
  | true => .apply ⟨5, "", 0⟩ (some ("Bearer " ++ applicant)) (.uuid 10)

def betweenTheInserts : List (PoolEvent Bool Tick) :=
  [.start false, .answer false { uuid := 10 }, .start true, .answer true { uuid := 11 },
    .answer false { uuid := 12 }, .answer true { uuid := 13 }]

theorem membershipSystem_init (svc : Services) (req : Bool → MembershipRequest) :
    (membershipSystem svc req).Init ⟨twoUsers, [], fun _ => .idle⟩ := by
  refine ⟨⟨?_, ?_⟩, fun _ => rfl⟩
  · exact List.forall_mem_nil _
  · exact List.forall_mem_nil _

def bothDone (s : RequestPool Bool) : Bool :=
  (s.thread false).pending.isNone && (s.thread true).pending.isNone

theorem pending_of_bothDone {s : RequestPool Bool} (h : bothDone s) (i : Bool) :
    (s.thread i).pending = none := by
  simp only [bothDone, Bool.and_eq_true, Option.isNone_iff_eq_none] at h
  cases i with
  | false => exact h.1
  | true => exact h.2

/-- User 2 applies between the two INSERTs of user 1. -/
theorem bookkept_at_rest_two_users :
    ∃ s, (membershipSystem plainServices (createAndApply "2.0.bo@x.org")).Reachable System.Any s ∧
      s.db.communityMembers.map (·.userId) = [2, 1] ∧ Bookkept s.db := by
  obtain ⟨s, hs, hdone⟩ := System.reachable_of_exec
    (membershipSystem plainServices (createAndApply "2.0.bo@x.org"))
    (fun s e => failsBySchemaOnly plainServices s e && creatorNotYetMember s e)
    (fun s => (bothDone s, s.db.communityMembers.map (·.userId))) betweenTheInserts
    (a := (true, [2, 1])) (membershipSystem_init _ _) (by decide +kernel)
  exact ⟨s, hs.mono fun _ _ _ => trivial, congrArg Prod.snd hdone,
    bookkept_at_rest hs (pending_of_bothDone (congrArg Prod.fst hdone))⟩

/-- **The creator applies before his owner row is in**: the second INSERT is refused by the uniqueness of
the pair, and the community keeps no owner and a count of two with one row. -/
theorem creator_applies :
    ¬ ∀ (ι : Type) [Fintype ι] [DecidableEq ι] (svc : Services) (req : ι → MembershipRequest)
        (s : RequestPool ι),
        (membershipSystem svc req).Reachable (fun s e => failsBySchemaOnly svc s e) s →
      (∀ i, (s.thread i).pending = none) → Bookkept s.db := by
  intro hclaim
  obtain ⟨s, hs, hdone⟩ := System.reachable_of_exec
    (membershipSystem plainServices (createAndApply "1.0.ana@x.org")) (failsBySchemaOnly plainServices)
    (fun s => (bothDone s, decide (Bookkept s.db))) betweenTheInserts
    (a := (true, false)) (membershipSystem_init _ _) (by decide +kernel)
  have hbook := hclaim Bool plainServices _ s hs (pending_of_bothDone (congrArg Prod.fst hdone))
  exact of_decide_eq_false (congrArg Prod.snd hdone) hbook

end Locus.Server
