import Locus.Backend.OverlappingCalls

/-!
# Who settles a membership while calls overlap

Between the lookup by which `ApproveMember` and `RejectMember` verify an admin and their write, other calls come. Still,
a community has one founder, and only he settles its memberships: his own when the community is created, the others
behind a lookup that found him (`founder_settles`). That he was found before is all there is: he may have left in
between, and the membership is settled in a community without a founder (`founder_settles_bea`). Once the calls that
found him are over, such a community admits nobody ever again (`leaderless_stays`), and him neither: a founder who has left
comes back as an applicant (`founder_gone`).
-/

namespace Locus.Backend

open Lib

variable {ID σ X : Type} {M : Models} {Meta : Type}

/-- What the calls of repositories that a method made were answered. -/
abbrev RepoLog (ID : Type) (M : Models) (Meta : Type) :=
  List (Prog.Call (RepositoryCall ID M) (RepositoryCall.Answer Meta) String)

/-! ### What the methods write -/

section
variable {R : Type} {parse : String → ID × Bool} {log : RepoLog ID M Meta} {q q' : RepositoryCall ID M}

/-- Why a method makes a call of a repository behind the answers that it got: the founder joins what he has founded, a
user applies, a membership is settled behind the lookup of an admin, or deleted, or none is touched. -/
inductive MethodCall.Writes (parse : String → ID × Bool) :
    MethodCall ID M → RepoLog ID M Meta → RepositoryCall ID M → Prop
  | founds {ownerID id : ID} {input : CreateCommunityInput} {log : RepoLog ID M Meta}
      (hfounded : ⟨.createCommunity (CommunityService.newCommunity ownerID input), .ok id⟩ ∈ log) :
      Writes parse (.create ownerID input) log (.createMembership (CommunityService.founderMembership ownerID id))
  | applies {r : MethodCall ID M} {log : RepoLog ID M Meta} {m : Membership ID} (hrole : m.role = .member)
      (hstatus : m.status = .pending) : Writes parse r log (.createMembership m)
  | approves {communityID : String} {adminID targetUserID : ID} {a : Membership ID} {log : RepoLog ID M Meta}
      (hadmin : a.role = .admin ∨ a.role = .founder)
      (hfound : ⟨.findByUserAndCommunity adminID (parse communityID).1, .ok (some a)⟩ ∈ log) :
      Writes parse (.approveMember communityID adminID targetUserID) log
        (.updateStatus targetUserID (parse communityID).1 .active)
  | rejects {communityID : String} {adminID targetUserID : ID} {a : Membership ID} {log : RepoLog ID M Meta}
      (hadmin : a.role = .admin ∨ a.role = .founder)
      (hfound : ⟨.findByUserAndCommunity adminID (parse communityID).1, .ok (some a)⟩ ∈ log) :
      Writes parse (.rejectMember communityID adminID targetUserID) log
        (.updateStatus targetUserID (parse communityID).1 .rejected)
  | leaves {r : MethodCall ID M} {log : RepoLog ID M Meta} (userID communityID : ID) :
      Writes parse r log (.deleteMembership userID communityID)
  | others {r : MethodCall ID M} {log : RepoLog ID M Meta} {q : RepositoryCall ID M} (h : q.LeavesMemberships) :
      Writes parse r log q

theorem comes_call (h : (Method.call q : Method ID M Meta _).Comes log q') : q' = q := by
  obtain ⟨-, rfl⟩ | ⟨a, log', -, hrest⟩ := Prog.comes_query.mp h
  · rfl
  · cases a <;> exact (Prog.comes_done hrest).elim

theorem comes_fail {err : String} (h : (Method.fail err : Method ID M Meta R).Comes log q) : False := Prog.comes_done h

theorem comes_verifyAdmin {adminID uid : ID} {next : Method ID M Meta R}
    (h : (Method.verifyAdmin adminID uid next).Comes log q) : q = .findByUserAndCommunity adminID uid ∨
      ∃ a log', (a.role = .admin ∨ a.role = .founder) ∧
        log = ⟨.findByUserAndCommunity adminID uid, .ok (some a)⟩ :: log' ∧ next.Comes log' q := by
  obtain ⟨-, rfl⟩ | ⟨answer, log', rfl, hrest⟩ := Prog.comes_query.mp h
  · exact .inl rfl
  · split at hrest
    · exact (comes_fail hrest).elim
    · exact (Prog.comes_done hrest).elim
    · rename_i a
      split at hrest
      · exact (comes_fail hrest).elim
      · rename_i hrole
        exact .inr ⟨a, log', by simpa [not_and_or, or_iff_not_imp_left] using hrole, rfl, hrest⟩

/-- **A method writes memberships for these reasons only.** -/
theorem method_writes [DecidableEq ID] {r : MethodCall ID M} (h : (r.method parse : Method ID M Meta _).Comes log q) :
    r.Writes parse log q := by
  cases r with
  | create ownerID input =>
    obtain ⟨-, rfl⟩ | ⟨answer, log₁, rfl, h₁⟩ := Prog.comes_query.mp (Prog.comes_map h)
    · exact .others trivial
    split at h₁
    · exact (comes_fail h₁).elim
    obtain ⟨-, rfl⟩ | ⟨answer, log₂, rfl, h₂⟩ := Prog.comes_query.mp h₁
    · exact .founds List.mem_cons_self
    · exact (Prog.comes_done h₂).elim
  | apply communityID userID propertyID message =>
    have h := Prog.comes_map h
    unfold Method.apply at h
    split at h
    · exact (comes_fail h).elim
    split at h
    · exact (comes_fail h).elim
    obtain ⟨-, rfl⟩ | ⟨answer, log₁, rfl, h₁⟩ := Prog.comes_query.mp h
    · exact .others trivial
    split at h₁
    · exact (comes_fail h₁).elim
    obtain ⟨-, rfl⟩ | ⟨answer, log₂, rfl, h₂⟩ := Prog.comes_query.mp h₁
    · exact .applies rfl rfl
    · split at h₂
      · exact (comes_fail h₂).elim
      · exact (Prog.comes_done h₂).elim
  | approveMember communityID adminID targetUserID =>
    obtain rfl | ⟨a, log', hadmin, rfl, hrest⟩ := comes_verifyAdmin (Prog.comes_map h)
    · exact .others trivial
    · obtain rfl := comes_call hrest
      exact .approves hadmin List.mem_cons_self
  | rejectMember communityID adminID targetUserID =>
    obtain rfl | ⟨a, log', hadmin, rfl, hrest⟩ := comes_verifyAdmin (Prog.comes_map h)
    · exact .others trivial
    · obtain rfl := comes_call hrest
      exact .rejects hadmin List.mem_cons_self
  | leave communityID userID =>
    obtain ⟨-, rfl⟩ | ⟨answer, log₁, rfl, h₁⟩ := Prog.comes_query.mp (Prog.comes_map h)
    · exact .others trivial
    split at h₁
    · exact (comes_fail h₁).elim
    · exact (Prog.comes_done h₁).elim
    split at h₁
    · exact (comes_fail h₁).elim
    · obtain rfl := comes_call h₁
      exact .leaves _ _
  | distributeIncome communityID adminID =>
    obtain rfl | ⟨a, log', -, -, hrest⟩ := comes_verifyAdmin (Prog.comes_map h)
    · exact .others trivial
    · obtain rfl := comes_call hrest
      exact .others trivial
  | list | nearby | fundSummary | fundTransactions =>
    obtain rfl := comes_call (Prog.comes_map h)
    exact .others trivial
  | getByID id =>
    have h := Prog.comes_map h
    unfold Method.getByID at h
    split at h
    · exact (comes_fail h).elim
    · obtain rfl := comes_call h
      exact .others trivial
  | getMembers id =>
    have h := Prog.comes_map h
    unfold Method.getMembers at h
    split at h
    · exact (comes_fail h).elim
    · obtain rfl := comes_call h
      exact .others trivial
  | update id userID input =>
    have h := Prog.comes_map h
    unfold Method.update at h
    split at h
    · exact (comes_fail h).elim
    obtain ⟨-, rfl⟩ | ⟨answer, log₁, rfl, h₁⟩ := Prog.comes_query.mp h
    · exact .others trivial
    split at h₁
    · exact (comes_fail h₁).elim
    · exact (Prog.comes_done h₁).elim
    split at h₁
    · exact (comes_fail h₁).elim
    · obtain rfl := comes_call h₁
      exact .others trivial
  | joinWaitingList communityID userID =>
    obtain ⟨-, rfl⟩ | ⟨answer, log₁, rfl, h₁⟩ := Prog.comes_query.mp (Prog.comes_map h)
    · exact .others trivial
    split at h₁
    · exact (comes_fail h₁).elim
    obtain ⟨-, rfl⟩ | ⟨answer, log₂, rfl, h₂⟩ := Prog.comes_query.mp h₁
    · exact .others trivial
    · split at h₂
      · exact (comes_fail h₂).elim
      · exact (Prog.comes_done h₂).elim
  | requestTransfer fromID toID userID message =>
    obtain ⟨-, rfl⟩ | ⟨answer, log₁, rfl, h₁⟩ := Prog.comes_query.mp (Prog.comes_map h)
    · exact .others trivial
    split at h₁
    · exact (comes_fail h₁).elim
    obtain ⟨-, rfl⟩ | ⟨answer, log₂, rfl, h₂⟩ := Prog.comes_query.mp h₁
    · exact .others trivial
    · split at h₂
      · exact (comes_fail h₂).elim
      · exact (Prog.comes_done h₂).elim

end

/-! ### One call of a repository -/

section
variable [DecidableEq ID] {parse : String → ID × Bool} {repo : Repositories ID σ X M Meta} {store : σ → Store ID}

/-- What is behind a membership that a method finds or leaves when it made a call: it was there before, or this is why
it is as it is. -/
inductive Behind (parse : String → ID × Bool) (v : Store ID) (r : MethodCall ID M) (log : RepoLog ID M Meta)
    (q : RepositoryCall ID M) (u c : ID) : Membership ID → Prop
  | kept {m : Membership ID} (hm : v.membership u c = some m) : Behind parse v r log q u c m
  | founded {input : CreateCommunityInput} (hr : r = .create u input)
      (hfounded : ⟨.createCommunity (CommunityService.newCommunity u input), .ok c⟩ ∈ log)
      (hq : q = .createMembership (CommunityService.founderMembership u c)) :
      Behind parse v r log q u c (CommunityService.founderMembership u c)
  | applied {m : Membership ID} (hrole : m.role = .member) (hstatus : m.status = .pending) :
      Behind parse v r log q u c m
  | settled {communityID : String} {w : ID} {a m m₀ : Membership ID} (hid : (parse communityID).1 = c)
      (hr : r = .approveMember communityID w u ∧ m.status = .active ∨
        r = .rejectMember communityID w u ∧ m.status = .rejected)
      (hadmin : a.role = .admin ∨ a.role = .founder)
      (hfound : ⟨.findByUserAndCommunity w c, .ok (some a)⟩ ∈ log) (hm₀ : v.membership u c = some m₀)
      (hrole : m.role = m₀.role) : Behind parse v r log q u c m

/-- **What a call can do to a membership.** -/
theorem exec_behind (hrepo : repo.Keep store) {r : MethodCall ID M} {log : RepoLog ID M Meta} {q : RepositoryCall ID M}
    (hq : r.Writes parse log q) {x : X} {s : σ} {u c : ID} {m : Membership ID}
    (hm : (store (repo x s q).2).membership u c = some m) : Behind parse (store s) r log q u c m := by
  cases hq with
  | founds hfounded =>
    rename_i ownerID id input
    obtain hsame | ⟨-, hadded⟩ := hrepo.createMembership x s (CommunityService.founderMembership ownerID id)
    · exact .kept (hsame ▸ hm)
    · rw [hadded] at hm
      rcases Store.addMembership_cases _ _ _ hm with ⟨rfl, rfl, rfl⟩ | ⟨-, hm⟩
      · exact .founded rfl hfounded rfl
      · exact .kept hm
  | applies hrole hstatus =>
    rename_i m₀
    obtain hsame | ⟨-, hadded⟩ := hrepo.createMembership x s m₀
    · exact .kept (hsame ▸ hm)
    · rw [hadded] at hm
      rcases Store.addMembership_cases _ _ _ hm with ⟨-, -, rfl⟩ | ⟨-, hm⟩
      · exact .applied hrole hstatus
      · exact .kept hm
  | approves hadmin hfound =>
    rename_i communityID adminID targetUserID a
    obtain hsame | hset := hrepo.updateStatus x s targetUserID (parse communityID).1 .active
    · exact .kept (hsame ▸ hm)
    · rw [hset] at hm
      obtain ⟨m₀, hm₀, hrole, ⟨rfl, rfl, hstatus⟩ | ⟨-, rfl⟩⟩ := Store.setStatus_cases _ _ _ _ _ _ hm
      · exact .settled rfl (.inl ⟨rfl, hstatus⟩) hadmin hfound hm₀ hrole
      · exact .kept hm₀
  | rejects hadmin hfound =>
    rename_i communityID adminID targetUserID a
    obtain hsame | hset := hrepo.updateStatus x s targetUserID (parse communityID).1 .rejected
    · exact .kept (hsame ▸ hm)
    · rw [hset] at hm
      obtain ⟨m₀, hm₀, hrole, ⟨rfl, rfl, hstatus⟩ | ⟨-, rfl⟩⟩ := Store.setStatus_cases _ _ _ _ _ _ hm
      · exact .settled rfl (.inr ⟨rfl, hstatus⟩) hadmin hfound hm₀ hrole
      · exact .kept hm₀
  | leaves userID communityID =>
    obtain hsame | hremoved := hrepo.delete x s userID communityID
    · exact .kept (hsame ▸ hm)
    · rw [hremoved] at hm
      exact .kept (Store.removeMembership_cases _ _ _ _ _ hm).2
  | others hleaves => exact .kept (hrepo.others x s q hleaves ▸ hm)

end

/-! ### Why a membership is as it is -/

section
variable {ι : Type} {parse : String → ID × Bool} {req : ι → MethodCall ID M} {logs logs' : ι → RepoLog ID M Meta}

/-- A call in the name of `w` has founded the community `c`. -/
def FoundedBy (req : ι → MethodCall ID M) (logs : ι → RepoLog ID M Meta) (w c : ID) : Prop :=
  ∃ j input, req j = .create w input ∧ ⟨.createCommunity (CommunityService.newCommunity w input), .ok c⟩ ∈ logs j

theorem FoundedBy.mono {w c : ID} (hgrow : ∀ i, logs i <+: logs' i) (h : FoundedBy req logs w c) :
    FoundedBy req logs' w c := by
  obtain ⟨j, input, hreq, hcall⟩ := h
  exact ⟨j, input, hreq, (hgrow j).subset hcall⟩

/-- There are no roles but that of the founder and that of a member. -/
def FounderRole (req : ι → MethodCall ID M) (logs : ι → RepoLog ID M Meta) (u c : ID) (m : Membership ID) : Prop :=
  m.role = .member ∨ m.role = .founder ∧ FoundedBy req logs u c

theorem FounderRole.mono {u c : ID} {m : Membership ID} (hgrow : ∀ i, logs i <+: logs' i)
    (h : FounderRole req logs u c m) : FounderRole req logs' u c m :=
  h.imp_right fun ⟨hrole, hfounded⟩ => ⟨hrole, hfounded.mono hgrow⟩

/-- The membership of `u` in `c` got its status when the call that founded the community added its founder `w`, or in a
call of his behind which his own membership was found. -/
inductive SettledIn (parse : String → ID × Bool) (req : ι → MethodCall ID M) (logs : ι → RepoLog ID M Meta)
    (w u c : ID) : MemberStatus → Prop
  | founded {i : ι} {input : CreateCommunityInput} {answer : Except String Unit} (hu : u = w)
      (hreq : req i = .create w input)
      (hadded : ⟨.createMembership (CommunityService.founderMembership w c), answer⟩ ∈ logs i) :
      SettledIn parse req logs w u c .active
  | approved {i : ι} {communityID : String} {a : Membership ID} (hreq : req i = .approveMember communityID w u)
      (hid : (parse communityID).1 = c) (hrole : a.role = .founder)
      (hfound : ⟨.findByUserAndCommunity w c, .ok (some a)⟩ ∈ logs i) : SettledIn parse req logs w u c .active
  | rejected {i : ι} {communityID : String} {a : Membership ID} (hreq : req i = .rejectMember communityID w u)
      (hid : (parse communityID).1 = c) (hrole : a.role = .founder)
      (hfound : ⟨.findByUserAndCommunity w c, .ok (some a)⟩ ∈ logs i) : SettledIn parse req logs w u c .rejected

theorem SettledIn.mono {w u c : ID} {status : MemberStatus} (hgrow : ∀ i, logs i <+: logs' i)
    (h : SettledIn parse req logs w u c status) : SettledIn parse req logs' w u c status := by
  cases h with
  | founded hu hreq hadded => exact .founded hu hreq ((hgrow _).subset hadded)
  | approved hreq hid hrole hfound => exact .approved hreq hid hrole ((hgrow _).subset hfound)
  | rejected hreq hid hrole hfound => exact .rejected hreq hid hrole ((hgrow _).subset hfound)

/-- A membership has a reason for its role and its status. -/
structure Justified (parse : String → ID × Bool) (req : ι → MethodCall ID M) (logs : ι → RepoLog ID M Meta) (u c : ID)
    (m : Membership ID) : Prop where
  role : FounderRole req logs u c m
  status : m.status = .pending ∨ ∃ w, FoundedBy req logs w c ∧ SettledIn parse req logs w u c m.status

theorem Justified.mono {u c : ID} {m : Membership ID} (hgrow : ∀ i, logs i <+: logs' i)
    (h : Justified parse req logs u c m) : Justified parse req logs' u c m where
  role := h.role.mono hgrow
  status := h.status.imp_right fun ⟨w, hfounded, hsettled⟩ => ⟨w, hfounded.mono hgrow, hsettled.mono hgrow⟩

def FindsRoles (req : ι → MethodCall ID M) (logs : ι → RepoLog ID M Meta)
    (call : Prog.Call (RepositoryCall ID M) (RepositoryCall.Answer Meta) String) : Prop :=
  ∀ u c m, call = ⟨.findByUserAndCommunity u c, .ok (some m)⟩ → FounderRole req logs u c m

theorem founder_of_found {w c : ID} {a : Membership ID} {i : ι} (hadmin : a.role = .admin ∨ a.role = .founder)
    (hfound : ⟨.findByUserAndCommunity w c, .ok (some a)⟩ ∈ logs i)
    (hfinds : ∀ call ∈ logs i, FindsRoles req logs call) :
    a.role = .founder ∧ FoundedBy req logs w c := by
  rcases hfinds _ hfound w c a rfl with hmember | hfounder
  · rw [hmember] at hadmin
    rcases hadmin with h | h <;> cases h
  · exact hfounder

variable [DecidableEq ID] {repo : Repositories ID σ X M Meta} {store : σ → Store ID}

theorem exec_findsRoles (hrepo : repo.Keep store) {s : σ}
    (hs : ∀ u c m, (store s).membership u c = some m → Justified parse req logs u c m) (x : X)
    (q : RepositoryCall ID M) : FindsRoles req logs ⟨q, (repo x s q).1⟩ := by
  intro u c m heq
  obtain ⟨rfl, hanswer⟩ := Prog.Call.mk.inj heq
  exact (hs u c m (hrepo.findMembership x s u c m (eq_of_heq hanswer))).role

theorem exec_justified (hrepo : repo.Keep store) {i : ι} {x : X} {s : σ} {q : RepositoryCall ID M}
    (hq : (req i).Writes parse (logs i) q) (hfinds : ∀ call ∈ logs i, FindsRoles req logs call)
    (hs : ∀ u c m, (store s).membership u c = some m → Justified parse req logs u c m)
    (hgrow : ∀ j, logs j <+: logs' j) (hasked : ⟨q, (repo x s q).1⟩ ∈ logs' i) :
    ∀ u c m, (store (repo x s q).2).membership u c = some m → Justified parse req logs' u c m := by
  intro u c m hm
  cases exec_behind hrepo hq hm with
  | kept hm => exact (hs u c m hm).mono hgrow
  | founded hr hfounded hadds =>
    subst hadds
    have hby : FoundedBy req logs' u c := FoundedBy.mono hgrow ⟨i, _, hr, hfounded⟩
    exact ⟨.inr ⟨rfl, hby⟩, .inr ⟨u, hby, .founded rfl hr hasked⟩⟩
  | applied hrole hstatus => exact ⟨.inl hrole, .inl hstatus⟩
  | settled hid hr hadmin hfound hm₀ hrole =>
    rename_i w a m₀
    refine Justified.mono hgrow ?_
    obtain ⟨hfounder, hfounded⟩ := founder_of_found hadmin hfound hfinds
    refine ⟨?_, .inr ⟨w, hfounded, ?_⟩⟩
    · unfold FounderRole
      rw [hrole]
      exact (hs u c m₀ hm₀).role
    · rcases hr with ⟨hr, hstatus⟩ | ⟨hr, hstatus⟩
      · rw [hstatus]
        exact .approved hr hid hfounder hfound
      · rw [hstatus]
        exact .rejected hr hid hfounder hfound

end

/-! ### Runs -/

section
variable {ι : Type} [DecidableEq ι] [DecidableEq ID] {parse : String → ID × Bool} {repo : Repositories ID σ X M Meta}
  {store : σ → Store ID} {req : ι → MethodCall ID M} {Init : σ → Prop}
  {C : Overlapping ι ID σ M Meta → PoolEvent ι X → Prop} {s : Overlapping ι ID σ M Meta}

def givenID (call : Prog.Call (RepositoryCall ID M) (RepositoryCall.Answer Meta) String) : Option ID :=
  match call with
  | ⟨.createCommunity _, .ok id⟩ => some id
  | _ => none

omit [DecidableEq ID] in
theorem givenID_eq_some {call : Prog.Call (RepositoryCall ID M) (RepositoryCall.Answer Meta) String} {id : ID}
    (h : givenID call = some id) : ∃ c, call = ⟨.createCommunity c, .ok id⟩ := by
  unfold givenID at h
  split at h
  · cases h
    exact ⟨_, rfl⟩
  · cases h

theorem founded_once (hrepo : repo.Keep store) (h : (overlapping parse repo req Init).Reachable C s) {w w' c : ID}
    (hw : FoundedBy req s.logs w c) (hw' : FoundedBy req s.logs w' c) : w = w' := by
  obtain ⟨j, input, hreq, hcall⟩ := hw
  obtain ⟨j', input', hreq', hcall'⟩ := hw'
  obtain ⟨rfl, -⟩ := Pool.fresh_answers givenID (fun s id => (store s).community id ≠ none)
    (fun x s q id hid => by
      obtain ⟨community, hq⟩ := givenID_eq_some hid
      obtain ⟨rfl, hanswer⟩ := Prog.Call.mk.inj hq
      obtain ⟨hnone, hsome⟩ := hrepo.createCommunity x s community id (eq_of_heq hanswer)
      exact ⟨fun hused => hused hnone, hsome⟩)
    (fun x s q id => hrepo.community x s q id) h hcall hcall' rfl rfl
  rw [hreq] at hreq'
  cases hreq'
  rfl

theorem justified_of_reachable (hrepo : repo.Keep store) (hempty : ∀ s, Init s → store s = {})
    (h : (overlapping parse repo req Init).Reachable C s) :
    (∀ u c m, (store s.db).membership u c = some m → Justified parse req s.logs u c m) ∧
      ∀ i, ∀ call ∈ s.logs i, FindsRoles req s.logs call :=
  Pool.provenance
    (J := fun logs s => ∀ u c m, (store s).membership u c = some m → Justified parse req logs u c m)
    (T := fun logs => FindsRoles req logs)
    (fun s _ h₀ u c m hm => by
      rw [hempty s h₀] at hm
      cases hm)
    (fun hgrow hs u c m hm => (hs u c m hm).mono hgrow)
    (fun hgrow hcall u c m heq => (hcall u c m heq).mono hgrow)
    (fun logs x s q hs => exec_findsRoles hrepo hs x q)
    (fun logs logs' i x s q k hpath hfinds hs hgrow hasked =>
      exec_justified hrepo (method_writes ⟨k, hpath⟩) hfinds hs hgrow hasked) h

/-- **Only the founder settles**, however the calls of the service overlap: nobody is an admin, who is a founder has
founded the community, nobody else has, and a membership that is not pending was settled by him, in a call of his. -/
theorem founder_settles (hrepo : repo.Keep store) (hempty : ∀ s, Init s → store s = {})
    (h : (overlapping parse repo req Init).Reachable C s) {u c : ID} {m : Membership ID}
    (hm : (store s.db).membership u c = some m) :
    m.role ≠ .admin ∧ (m.role = .founder → FoundedBy req s.logs u c) ∧
      (∀ w w', FoundedBy req s.logs w c → FoundedBy req s.logs w' c → w = w') ∧
      (m.status ≠ .pending → ∃ w, FoundedBy req s.logs w c ∧ SettledIn parse req s.logs w u c m.status) := by
  obtain ⟨hrole, hstatus⟩ := (justified_of_reachable hrepo hempty h).1 u c m hm
  refine ⟨?_, ?_, fun w w' => founded_once hrepo h, hstatus.resolve_left⟩
  · rcases hrole with hrole | ⟨hrole, -⟩ <;> rw [hrole] <;> decide
  · intro hfounder
    rcases hrole with hrole | ⟨-, hfounded⟩
    · rw [hrole] at hfounder
      cases hfounder
    · exact hfounded

/-- Ana founds a community and Bea applies. Ana approves her, and leaves. -/
def anaApprovesAndLeaves : Fin 4 → MethodCall ℕ noModels
  | 0 => .create 1 { name := "Casa Ana", type := "cohousing", isPublic := true, capacity := 8 }
  | 1 => .apply "|" 2 "|" ""
  | 2 => .approveMember "|" 1 2
  | 3 => .leave "|" 1

abbrev anasCalls : System (Overlapping (Fin 4) ℕ (Store ℕ) noModels Unit) (PoolEvent (Fin 4) ℕ) :=
  overlapping listing.parse listing.repositories anaApprovesAndLeaves (· = {})

theorem founded_ana {logs : Fin 4 → RepoLog ℕ noModels Unit} {w c : ℕ} (h : FoundedBy anaApprovesAndLeaves logs w c) :
    w = 1 := by
  obtain ⟨j, input, hreq, -⟩ := h
  rcases j with ⟨_ | _ | _ | _ | j, hj⟩
  · cases hreq
    rfl
  · cases hreq
  · cases hreq
  · cases hreq
  · omega

/-- Ana's call to leave overtakes her approval of Bea. -/
theorem founder_settles_bea : ∃ s : Overlapping (Fin 4) ℕ (Store ℕ) noModels Unit, s.db.Has .active 2 1 ∧
    s.db.membership 1 1 = none ∧ FoundedBy anaApprovesAndLeaves s.logs 1 1 ∧
    SettledIn listing.parse anaApprovesAndLeaves s.logs 1 2 1 .active := by
  obtain ⟨s, hreach, hfacts⟩ := anasCalls.reachable_of_exec (fun _ _ => true)
    (fun s => ((s.db.membership 2 1).map (·.status), (s.db.membership 1 1).isNone)) (s := ⟨{}, (), fun _ => .idle⟩)
    [.start 0, .answer 0 1, .answer 0 0, .start 1, .answer 1 0, .answer 1 0, .start 2, .answer 2 0, .start 3,
      .answer 3 0, .answer 3 0, .answer 2 0] (a := (some .active, true)) ⟨rfl, fun _ => rfl⟩ (by decide +kernel)
  obtain ⟨hactive, hgone⟩ := Prod.mk.inj hfacts
  obtain ⟨m, hm, hstatus⟩ := Option.map_eq_some_iff.mp hactive
  obtain ⟨-, -, -, hsettled⟩ := founder_settles (ListingService.keep listing_lawful listing_spares)
    (by rintro _ rfl; rfl) hreach hm
  obtain ⟨w, hfounded, hin⟩ := hsettled (by rw [hstatus]; decide)
  obtain rfl := founded_ana hfounded
  exact ⟨s, ⟨m, hm, hstatus⟩, Option.isNone_iff_eq_none.mp hgone, hfounded, hstatus ▸ hin⟩

end

/-! ### Communities without their founder -/

section
variable {ι : Type} [DecidableEq ι] [DecidableEq ID] {parse : String → ID × Bool} {repo : Repositories ID σ X M Meta}
  {store : σ → Store ID} {req : ι → MethodCall ID M} {Init : σ → Prop}
  {C : Overlapping ι ID σ M Meta → PoolEvent ι X → Prop} {s s' : Overlapping ι ID σ M Meta} {c : ID}

/-- The community is stored, and whoever is in it is a mere member. -/
structure Store.Leaderless (v : Store ID) (c : ID) : Prop where
  stored : v.community c ≠ none
  members : ∀ u m, v.membership u c = some m → m.role = .member

/-- A call that founded no such community, and found nobody but mere members of it. -/
structure FindsMembers (c : ID) (call : Prog.Call (RepositoryCall ID M) (RepositoryCall.Answer Meta) String) : Prop where
  found : ∀ u m, call = ⟨.findByUserAndCommunity u c, .ok (some m)⟩ → m.role = .member
  founded : ∀ community, call ≠ ⟨.createCommunity community, .ok c⟩

theorem exec_findsMembers (hrepo : repo.Keep store) {s : σ} (hs : (store s).Leaderless c) (x : X)
    (q : RepositoryCall ID M) : FindsMembers c ⟨q, (repo x s q).1⟩ where
  found u m heq := by
    obtain ⟨rfl, hanswer⟩ := Prog.Call.mk.inj heq
    exact hs.members u m (hrepo.findMembership x s u c m (eq_of_heq hanswer))
  founded community heq := by
    obtain ⟨rfl, hanswer⟩ := Prog.Call.mk.inj heq
    exact hs.stored (hrepo.createCommunity x s community c (eq_of_heq hanswer)).1

theorem exec_leaderless (hrepo : repo.Keep store) {r : MethodCall ID M} {log : RepoLog ID M Meta}
    {q : RepositoryCall ID M} (hq : r.Writes parse log q) (hlog : ∀ call ∈ log, FindsMembers c call) {x : X} {s : σ}
    (hs : (store s).Leaderless c) : (store (repo x s q).2).Leaderless c ∧
      ∀ u m, (store (repo x s q).2).membership u c = some m → m.status ≠ .pending →
        (store s).membership u c = some m := by
  have hcases : ∀ u m, (store (repo x s q).2).membership u c = some m →
      (store s).membership u c = some m ∨ m.role = .member ∧ m.status = .pending := by
    intro u m hm
    cases exec_behind hrepo hq hm with
    | kept hm => exact .inl hm
    | founded hr hfounded => exact ((hlog _ hfounded).founded _ rfl).elim
    | applied hrole hstatus => exact .inr ⟨hrole, hstatus⟩
    | settled hid hr hadmin hfound hm₀ hrole =>
      rw [(hlog _ hfound).found _ _ rfl] at hadmin
      rcases hadmin with h | h <;> cases h
  exact ⟨⟨hrepo.community x s q c hs.stored, fun u m hm => (hcases u m hm).elim (hs.members u m) And.left⟩,
    fun u m hm hsettled => (hcases u m hm).resolve_right fun h => hsettled h.2⟩

/-- The calls that only an admin of the community may make. -/
def MethodCall.AdminOf (parse : String → ID × Bool) (c : ID) : MethodCall ID M → Prop
  | .approveMember communityID _ _ | .rejectMember communityID _ _ | .distributeIncome communityID _ =>
    (parse communityID).1 = c
  | _ => False

omit [DecidableEq ID] in
theorem verifyAdmin_fails {R : Type} {adminID : ID} {next : Method ID M Meta R} {log : RepoLog ID M Meta}
    {r : Except Failure R} (hlog : ∀ call ∈ log, FindsMembers c call)
    (h : (Method.verifyAdmin adminID c next).Path log (.done r)) : ∃ f, r = .error f := by
  obtain ⟨-, hquery⟩ | ⟨answer, log', rfl, hrest⟩ := Prog.path_query.mp h
  · cases hquery
  split at hrest
  · cases (Prog.path_done.mp hrest).2
    exact ⟨_, rfl⟩
  · cases (Prog.path_done.mp hrest).2
    exact ⟨_, rfl⟩
  · rename_i a
    rw [if_pos (by simp [(hlog _ List.mem_cons_self).found adminID a rfl])] at hrest
    cases (Prog.path_done.mp hrest).2
    exact ⟨_, rfl⟩

omit [DecidableEq ID] in
theorem returning_fails {R : Type} {p : Method ID M Meta R} {g : R → Returned ID M Meta} {log : RepoLog ID M Meta}
    {r : Except Failure (Returned ID M Meta)} (h : (p.returning g).Path log (.done r))
    (hp : ∀ r, p.Path log (.done r) → ∃ f, r = .error f) : ∃ f, r = .error f := by
  obtain ⟨p', hpath, hdone⟩ := Prog.map_path h
  obtain ⟨r', rfl, rfl⟩ := Prog.map_eq_done hdone.symm
  obtain ⟨f, rfl⟩ := hp r' hpath
  exact ⟨f, rfl⟩

theorem admin_fails {r : MethodCall ID M} (hr : r.AdminOf parse c) {log : RepoLog ID M Meta}
    (hlog : ∀ call ∈ log, FindsMembers c call) {result : Except Failure (Returned ID M Meta)}
    (h : (r.method parse).Path log (.done result)) : ∃ f, result = .error f := by
  cases r with
  | approveMember | rejectMember | distributeIncome =>
    obtain rfl := hr
    exact returning_fails h fun _ => verifyAdmin_fails hlog
  | _ => exact hr.elim

theorem leaderless_run (hrepo : repo.Keep store) (h : (overlapping parse repo req Init).Reachable C s)
    (hs : (store s.db).Leaderless c)
    (hfree : ∀ i, (s.thread i).result = none → ∀ call ∈ s.logs i, FindsMembers c call) {tr : List (PoolEvent ι X)}
    (hrun : (overlapping parse repo req Init).Run C s tr s') :
    (store s'.db).Leaderless c ∧
      (∀ u m, (store s'.db).membership u c = some m → m.status ≠ .pending → (store s.db).membership u c = some m) ∧
      ∀ i result, (s.thread i).result = none → (req i).AdminOf parse c → (s'.thread i).result = some result →
        ∃ f, result = .error f := by
  obtain ⟨hpath, ⟨hleaderless, hsettled⟩, hfinds⟩ := Pool.unfinished_run
    (J := fun d => (store d).Leaderless c ∧
      ∀ u m, (store d).membership u c = some m → m.status ≠ .pending → (store s.db).membership u c = some m)
    (T := FindsMembers c) (fun x d q hd => exec_findsMembers hrepo hd.1 x q)
    (fun i x d q k log hpath hlog hd => by
      obtain ⟨hleaderless, hsettled⟩ := exec_leaderless hrepo (method_writes ⟨k, hpath⟩) hlog (x := x) hd.1
      exact ⟨hleaderless, fun u m hm hstatus => hd.2 u m (hsettled u m hm hstatus) hstatus⟩)
    (Pool.path h) ⟨hs, fun u m hm _ => hm⟩ hfree hrun
  refine ⟨hleaderless, hsettled, fun i result hnone hadmin hresult => ?_⟩
  obtain ⟨log, hthread⟩ := Thread.result_eq_some.mp hresult
  have hend := (hpath i _ _ hthread).1
  refine admin_fails hadmin (fun call hcall => hfinds i hnone call ?_) hend
  rw [Pool.logs, hthread]
  exact hcall

/-- **A community without its founder admits nobody ever again**, even while calls overlap, once those that have found
him are over. -/
theorem leaderless_stays (hrepo : repo.Keep store) (h : (overlapping parse repo req Init).Reachable C s)
    (hs : (store s.db).Leaderless c)
    (hfree : ∀ i, (s.thread i).result = none → ∀ call ∈ s.logs i, FindsMembers c call) {tr : List (PoolEvent ι X)}
    (hrun : (overlapping parse repo req Init).Run C s tr s') :
    (store s'.db).Leaderless c ∧
      (∀ u m, (store s'.db).membership u c = some m → m.status ≠ .pending → (store s.db).membership u c = some m) ∧
      ∀ i result, (s.thread i).result = none → (req i).AdminOf parse c → (s'.thread i).result = some result →
        ∃ f, result = .error f := leaderless_run hrepo h hs hfree hrun

/-- Ana has left before she approves Bea. -/
theorem leaderless_stays_ana : ∃ s s' : Overlapping (Fin 4) ℕ (Store ℕ) noModels Unit, s.db.Leaderless 1 ∧
    s.db.Has .pending 2 1 ∧ s'.db.Leaderless 1 ∧ ∃ f, (s'.thread 2).result = some (.error f) := by
  obtain ⟨s, hreach, hfacts⟩ := anasCalls.reachable_of_exec (fun _ _ => true)
    (fun s => (((s.db.community 1).isSome, (s.db.membership 1 1).isNone, (s.db.membership 2 1).map (·.status)),
      decide (∀ i : Fin 4, (s.thread i).result.isSome = true ∨ (s.logs i).length = 0), (s.thread 2).result.isNone,
      (anasCalls.exec (fun _ _ => true) s [.start 2, .answer 2 0]).map fun s' => (s'.thread 2).result.isSome))
    (s := ⟨{}, (), fun _ => .idle⟩)
    [.start 0, .answer 0 1, .answer 0 0, .start 1, .answer 1 0, .answer 1 0, .start 3, .answer 3 0, .answer 3 0]
    (a := ((true, true, some .pending), true, true, some true)) ⟨rfl, fun _ => rfl⟩ (by decide +kernel)
  simp only [Prod.mk.injEq, decide_eq_true_eq] at hfacts
  obtain ⟨⟨hstored, hgone, hpending⟩, hover, hidle, hexec⟩ := hfacts
  obtain ⟨s', hexec, hresult⟩ := Option.map_eq_some_iff.mp hexec
  obtain ⟨result, hresult⟩ := Option.isSome_iff_exists.mp hresult
  have hkeep : listing.repositories.Keep id := ListingService.keep listing_lawful listing_spares
  have hleaderless : s.db.Leaderless 1 := by
    refine ⟨Option.isSome_iff_ne_none.mp hstored, fun u m hm => ?_⟩
    rcases ((justified_of_reachable hkeep (by rintro _ rfl; rfl) hreach).1 u 1 m hm).role with
      hmember | ⟨-, hfounded⟩
    · exact hmember
    · rw [founded_ana hfounded, Option.isNone_iff_eq_none.mp hgone] at hm
      cases hm
  have hfree : ∀ i, (s.thread i).result = none → ∀ call ∈ s.logs i, FindsMembers 1 call := by
    intro i hnone call hcall
    rcases hover i with hdone | hempty
    · rw [hnone] at hdone
      cases hdone
    · rw [List.eq_nil_of_length_eq_zero hempty] at hcall
      cases hcall
  obtain ⟨hleaderless', -, hfails⟩ := leaderless_stays hkeep hreach hleaderless hfree (.of_exec hexec)
  obtain ⟨f, rfl⟩ := hfails 2 result (Option.isNone_iff_eq_none.mp hidle) rfl hresult
  exact ⟨s, s', hleaderless, Store.has_of_map hpending, hleaderless', f, hresult⟩

/-! ### Communities that their founder has left -/

theorem founded_stored (hrepo : repo.Keep store) (h : (overlapping parse repo req Init).Reachable C s) {w : ID}
    (hfounded : FoundedBy req s.logs w c) : (store s.db).community c ≠ none := by
  obtain ⟨j, input, -, hcall⟩ := hfounded
  obtain ⟨-, hgiven⟩ := Pool.answered (J := fun _ => True)
    (T := fun d call => ∀ id, givenID call = some id → (store d).community id ≠ none) (fun _ _ _ => trivial)
    (fun x d q call _ hcall id hid => hrepo.community x d q id (hcall id hid))
    (fun x d q _ id hid => by
      obtain ⟨community, hq⟩ := givenID_eq_some hid
      obtain ⟨rfl, hanswer⟩ := Prog.Call.mk.inj hq
      exact (hrepo.createCommunity x d community id (eq_of_heq hanswer)).2)
    (fun _ _ _ _ _ _ _ _ _ => trivial) h
  exact hgiven j _ hcall c rfl

/-- An answer behind which a call may act for the founder `w`: it found his membership, or made the community. -/
inductive FindsFounder (w c : ID) : Prog.Call (RepositoryCall ID M) (RepositoryCall.Answer Meta) String → Prop
  | found (m : Membership ID) : FindsFounder w c ⟨.findByUserAndCommunity w c, .ok (some m)⟩
  | founded (community : Community ID) : FindsFounder w c ⟨.createCommunity community, .ok c⟩

theorem leaderless_of_gone (hrepo : repo.Keep store) (hempty : ∀ s, Init s → store s = {})
    (h : (overlapping parse repo req Init).Reachable C s) {w : ID} (hfounded : FoundedBy req s.logs w c)
    (hgone : (store s.db).membership w c = none) : (store s.db).Leaderless c := by
  refine ⟨founded_stored hrepo h hfounded, fun u m hm => ?_⟩
  rcases ((justified_of_reachable hrepo hempty h).1 u c m hm).role with hmember | ⟨-, hby⟩
  · exact hmember
  · rw [founded_once hrepo h hby hfounded, hgone] at hm
    cases hm

/-- **A founder who has left comes back as an applicant only**: once he has no membership in his community and the calls
that act for him are over, whoever is in the community is a mere member, nobody is admitted any more, he neither, and
whatever only an admin may do fails. -/
theorem founder_gone (hrepo : repo.Keep store) (hempty : ∀ s, Init s → store s = {})
    (h : (overlapping parse repo req Init).Reachable C s) {w : ID} (hfounded : FoundedBy req s.logs w c)
    (hgone : (store s.db).membership w c = none)
    (hover : ∀ i, (s.thread i).result = none → ∀ call ∈ s.logs i, ¬ FindsFounder w c call) {tr : List (PoolEvent ι X)}
    (hrun : (overlapping parse repo req Init).Run C s tr s') :
    (∀ u m, (store s'.db).membership u c = some m →
      m.role = .member ∧ (m.status ≠ .pending → (store s.db).membership u c = some m)) ∧
    (∀ m, (store s'.db).membership w c = some m → m.status = .pending) ∧
    ∀ i result, (s.thread i).result = none → (req i).AdminOf parse c → (s'.thread i).result = some result →
      ∃ f, result = .error f := by
  have hfree : ∀ i, (s.thread i).result = none → ∀ call ∈ s.logs i, FindsMembers c call := by
    intro i hnone call hcall
    refine ⟨fun u m heq => ?_, fun community heq => ?_⟩
    · rcases (justified_of_reachable hrepo hempty h).2 i call hcall u c m heq with hmember | ⟨-, hby⟩
      · exact hmember
      · rw [founded_once hrepo h hby hfounded] at heq
        exact absurd (heq ▸ .found m) (hover i hnone call hcall)
    · exact absurd (heq ▸ .founded community) (hover i hnone call hcall)
  obtain ⟨hleaderless, hsettled, hfails⟩ :=
    leaderless_run hrepo h (leaderless_of_gone hrepo hempty h hfounded hgone) hfree hrun
  refine ⟨fun u m hm => ⟨hleaderless.members u m hm, hsettled u m hm⟩, fun m hm => ?_, hfails⟩
  by_contra hstatus
  rw [hsettled w m hm hstatus] at hgone
  cases hgone

/-- Ana approves Bea and leaves. Then she applies, and approves herself. -/
def anaComesBack : Fin 6 → MethodCall ℕ noModels
  | 0 => .create 1 { name := "Casa Ana", type := "cohousing", isPublic := true, capacity := 8 }
  | 1 => .apply "|" 2 "|" ""
  | 2 => .approveMember "|" 1 2
  | 3 => .leave "|" 1
  | 4 => .apply "|" 1 "|" ""
  | 5 => .approveMember "|" 1 1

abbrev anasReturn : System (Overlapping (Fin 6) ℕ (Store ℕ) noModels Unit) (PoolEvent (Fin 6) ℕ) :=
  overlapping listing.parse listing.repositories anaComesBack (· = {})

theorem founded_return {logs : Fin 6 → RepoLog ℕ noModels Unit} {w c : ℕ} (h : FoundedBy anaComesBack logs w c) :
    w = 1 := by
  obtain ⟨j, input, hreq, -⟩ := h
  rcases j with ⟨_ | _ | _ | _ | _ | _ | j, hj⟩
  · cases hreq
    rfl
  · cases hreq
  · cases hreq
  · cases hreq
  · cases hreq
  · cases hreq
  · omega

/-- She is pending, and her approval fails. -/
theorem founder_gone_ana : ∃ (s' : Overlapping (Fin 6) ℕ (Store ℕ) noModels Unit) (m : Membership ℕ),
    s'.db.membership 1 1 = some m ∧ m.status = .pending ∧ ∃ f, (s'.thread 5).result = some (.error f) := by
  obtain ⟨s, hreach, hfacts⟩ := anasReturn.reachable_of_exec (fun _ _ => true)
    (fun s => (((s.db.membership 1 1).isNone, (s.db.membership 2 1).map (·.status)),
      decide (∀ i : Fin 6, (s.thread i).result.isSome = true ∨ (s.logs i).length = 0), (s.thread 5).result.isNone,
      (anasReturn.exec (fun _ _ => true) s [.start 4, .answer 4 0, .answer 4 0, .start 5, .answer 5 0]).map fun s' =>
        ((s'.db.membership 1 1).isSome, (s'.thread 5).result.isSome)))
    (s := ⟨{}, (), fun _ => .idle⟩)
    [.start 0, .answer 0 1, .answer 0 0, .start 1, .answer 1 0, .answer 1 0, .start 2, .answer 2 0, .answer 2 0,
      .start 3, .answer 3 0, .answer 3 0]
    (a := ((true, some .active), true, true, some (true, true))) ⟨rfl, fun _ => rfl⟩ (by decide +kernel)
  simp only [Prod.mk.injEq, decide_eq_true_eq] at hfacts
  obtain ⟨⟨hgone, hactive⟩, hdone, hidle, hexec⟩ := hfacts
  obtain ⟨s', hexec, hthere⟩ := Option.map_eq_some_iff.mp hexec
  obtain ⟨happlied, hfailed⟩ := Prod.mk.inj hthere
  obtain ⟨m, hm⟩ := Option.isSome_iff_exists.mp happlied
  obtain ⟨result, hresult⟩ := Option.isSome_iff_exists.mp hfailed
  obtain ⟨bea, hbea, hstatus⟩ := Option.map_eq_some_iff.mp hactive
  have hkeep : listing.repositories.Keep id := ListingService.keep listing_lawful listing_spares
  obtain ⟨w, hfounded, -⟩ := ((justified_of_reachable hkeep (by rintro _ rfl; rfl) hreach).1 2 1 bea hbea).status.resolve_left
    (by rw [hstatus]; decide)
  obtain rfl := founded_return hfounded
  have hover : ∀ i, (s.thread i).result = none → ∀ call ∈ s.logs i, ¬ FindsFounder 1 1 call := by
    intro i hnone call hcall
    rcases hdone i with hdone | hempty
    · rw [hnone] at hdone
      cases hdone
    · rw [List.eq_nil_of_length_eq_zero hempty] at hcall
      cases hcall
  obtain ⟨-, hpending, hfails⟩ := founder_gone hkeep (by rintro _ rfl; rfl) hreach hfounded
    (Option.isNone_iff_eq_none.mp hgone) hover (.of_exec hexec)
  obtain ⟨f, rfl⟩ := hfails 5 result (Option.isNone_iff_eq_none.mp hidle) rfl hresult
  exact ⟨s', m, hm, hpending m hm, f, hresult⟩

end

end Locus.Backend
