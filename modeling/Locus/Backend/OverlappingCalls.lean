import Locus.Backend.MalformedIds
import Locus.Lib.Guarantee

/-!
# Calls of the community service that overlap

`communityService` runs in the goroutines of its requests, so between two calls of a repository that one method makes,
others make theirs. Here its methods are programs over the repositories, all of them, and a repository may fail, and may
answer nil where it finds nothing. A method that runs alone does what `FullService` does in one step (`alone`).
-/

namespace Locus.Backend

open Lib

/-! ### The repositories -/

/-- `repositories.ListCommunityFilter`; `ListCommunitiesParams` has the same fields. -/
structure ListCommunityFilter (ID : Type) where
  userID : ID
  mine : Bool
  search : String
  type : String
  sort : String
  page : ℤ
  pageSize : ℤ

variable {ID σ X : Type} {M : Models} {Meta : Type}

/-- A community as it is stored, with its id. -/
abbrev Found (ID : Type) := ID × Community ID

/-- A call of a repository by the service. -/
inductive RepositoryCall (ID : Type) (M : Models)
  | createCommunity (c : Community ID)
  | findCommunity (id : ID)
  | list (filter : ListCommunityFilter ID)
  /-- The coordinates and the radius are the bits of their `float64`. -/
  | findNearby (lat lng radiusKm : UInt64)
  | updateCommunity (id : ID) (input : M.UpdateCommunityInput)
  | findWaitingListEntry (userID communityID : ID)
  | addToWaitingList (entry : WaitingListEntry ID)
  | createTransferRequest (tr : TransferRequest ID)
  | createMembership (m : Membership ID)
  | findByUserAndCommunity (userID communityID : ID)
  | findByCommunity (communityID : ID)
  | updateStatus (userID communityID : ID) (status : MemberStatus)
  | deleteMembership (userID communityID : ID)
  | getFundSummary (communityID : ID)
  | getTransactions (communityID : ID) (page limit : ℤ)
  | distributeToMembers (communityID : ID)

/-- What it returns beside an error; a pointer may be nil. -/
abbrev RepositoryCall.Answer (Meta : Type) : RepositoryCall ID M → Type
  | .createCommunity _ => ID
  | .findCommunity _ | .updateCommunity _ _ => Option (Found ID)
  | .list _ => List (Found ID) × Meta
  | .findNearby _ _ _ => List (Found ID)
  | .findWaitingListEntry _ _ => Option (WaitingListEntry ID)
  | .findByUserAndCommunity _ _ => Option (Membership ID)
  | .findByCommunity _ => List (Membership ID)
  | .getFundSummary _ => M.FundSummary
  | .getTransactions _ _ _ => M.TransactionPage
  | .addToWaitingList _ | .createTransferRequest _ | .createMembership _ | .updateStatus _ _ _ | .deleteMembership _ _
  | .distributeToMembers _ => Unit

/-! ### The methods -/

/-- Why a method returns nothing. -/
inductive Failure
  | error (text : String)
  /-- A field of a nil pointer is read. -/
  | panic
deriving DecidableEq

/-- A method, which returns an `R`. -/
abbrev Method (ID : Type) (M : Models) (Meta R : Type) :=
  Prog (RepositoryCall ID M) (RepositoryCall.Answer Meta) String Unit (Except Failure R)

namespace Method

/-- `return s.repo.Call(ctx, ...)` -/
def call (q : RepositoryCall ID M) : Method ID M Meta (q.Answer Meta) :=
  .query q fun
    | .error err => .done (.error (.error err))
    | .ok a => .done (.ok a)

def fail {R : Type} (err : String) : Method ID M Meta R := .done (.error (.error err))

/-- `NaN`, by its bits -/
def isNaN (x : UInt64) : Bool := 0x7FF0000000000000 < x &&& 0x7FFFFFFFFFFFFFFF

/-- `x <= 0` -/
def leZero (x : UInt64) : Bool := !isNaN x && (0x8000000000000000 ≤ x || x = 0)

/-- `x > 500` -/
def gt500 (x : UInt64) : Bool := !isNaN x && x < 0x8000000000000000 && 0x407F400000000000 < x

/-- 50, by its bits -/
def fifty : UInt64 := 0x4049000000000000

/-- The filter that `List` hands on. -/
def listFilter (params : ListCommunityFilter ID) : ListCommunityFilter ID :=
  { params with
    page := if params.page < 1 then 1 else params.page
    pageSize := if params.pageSize < 1 ∨ params.pageSize > 100 then 20 else params.pageSize }

def list (params : ListCommunityFilter ID) : Method ID M Meta (List (Found ID) × Meta) := call (.list (listFilter params))

def nearby (lat lng radiusKm : UInt64) : Method ID M Meta (List (Found ID)) :=
  call (.findNearby lat lng (if leZero radiusKm || gt500 radiusKm then fifty else radiusKm))

variable (parse : String → ID × Bool)

def getByID (id : String) : Method ID M Meta (Option (Found ID)) :=
  if !(parse id).2 then fail "invalid community id" else call (.findCommunity (parse id).1)

def create (ownerID : ID) (input : CreateCommunityInput) : Method ID M Meta (Found ID) :=
  .query (.createCommunity (CommunityService.newCommunity ownerID input)) fun
    | .error err => fail ("create community: " ++ err)
    | .ok id =>
      -- the error of adding the founder is ignored
      .query (.createMembership (CommunityService.founderMembership ownerID id)) fun _ =>
        .done (.ok (id, CommunityService.newCommunity ownerID input))

def update [DecidableEq ID] (id : String) (userID : ID) (input : M.UpdateCommunityInput) :
    Method ID M Meta (Option (Found ID)) :=
  if !(parse id).2 then fail "invalid community id"
  else .query (.findCommunity (parse id).1) fun
    | .error err => fail err
    | .ok none => .done (.error .panic)
    | .ok (some community) =>
      if community.2.ownerID ≠ userID then fail "not authorized" else call (.updateCommunity community.1 input)

def getMembers (id : String) : Method ID M Meta (List (Membership ID)) :=
  if !(parse id).2 then fail "invalid id" else call (.findByCommunity (parse id).1)

def apply (communityID : String) (userID : ID) (propertyID _message : String) : Method ID M Meta (Membership ID) :=
  if !(parse communityID).2 then fail "invalid community id"
  else if !(parse propertyID).2 then fail "invalid property id"
  else .query (.findByUserAndCommunity userID (parse communityID).1) fun
    | .ok (some _) => fail "already applied or member"
    | _ =>
      let membership : Membership ID :=
        { userID, communityID := (parse communityID).1, contributedPropertyID := some (parse propertyID).1,
          role := .member, status := .pending }
      .query (.createMembership membership) fun
        | .error err => fail ("create membership: " ++ err)
        | .ok () => .done (.ok membership)

/-- The check of an admin of the community, and what follows it. -/
def verifyAdmin {R : Type} (adminID uid : ID) (next : Method ID M Meta R) : Method ID M Meta R :=
  .query (.findByUserAndCommunity adminID uid) fun
    | .error _ => fail "not authorized"
    | .ok none => .done (.error .panic)
    | .ok (some adminMembership) =>
      if adminMembership.role ≠ .admin ∧ adminMembership.role ≠ .founder then fail "not authorized" else next

/-- `ApproveMember` and `RejectMember` for the status that they set. -/
def setStatus (status : MemberStatus) (communityID : String) (adminID targetUserID : ID) : Method ID M Meta Unit :=
  verifyAdmin adminID (parse communityID).1 (call (.updateStatus targetUserID (parse communityID).1 status))

def approveMember : String → ID → ID → Method ID M Meta Unit := setStatus parse .active

def rejectMember : String → ID → ID → Method ID M Meta Unit := setStatus parse .rejected

def leave [DecidableEq ID] (communityID : String) (userID : ID) : Method ID M Meta Unit :=
  .query (.findCommunity (parse communityID).1) fun
    | .error err => fail err
    | .ok none => .done (.error .panic)
    | .ok (some community) =>
      if community.2.ownerID = userID ∧ community.2.memberCount > 1 then
        fail "founder must transfer ownership before leaving"
      else call (.deleteMembership userID (parse communityID).1)

def distributeIncome (communityID : String) (adminID : ID) : Method ID M Meta Unit :=
  verifyAdmin adminID (parse communityID).1 (call (.distributeToMembers (parse communityID).1))

def fundSummary (communityID : String) : Method ID M Meta M.FundSummary := call (.getFundSummary (parse communityID).1)

def fundTransactions (communityID : String) (page limit : ℤ) : Method ID M Meta M.TransactionPage :=
  call (.getTransactions (parse communityID).1 page limit)

def joinWaitingList (communityID : String) (userID : ID) : Method ID M Meta (WaitingListEntry ID) :=
  .query (.findWaitingListEntry userID (parse communityID).1) fun
    | .ok (some _) => fail "already on waiting list"
    | _ =>
      let entry : WaitingListEntry ID := { communityID := (parse communityID).1, userID }
      .query (.addToWaitingList entry) fun
        | .error err => fail err
        | .ok () => .done (.ok entry)

def requestTransfer (fromID toID : String) (userID : ID) (message : String) : Method ID M Meta (TransferRequest ID) :=
  .query (.findByUserAndCommunity userID (parse fromID).1) fun
    | .error _ => fail "not a member of source community"
    | .ok _ =>
      let tr : TransferRequest ID :=
        { userID, fromCommunityID := (parse fromID).1, toCommunityID := (parse toID).1, message, status := "pending" }
      .query (.createTransferRequest tr) fun
        | .error err => fail ("create transfer request: " ++ err)
        | .ok () => .done (.ok tr)

end Method

/-- A call of a method of the service. -/
inductive MethodCall (ID : Type) (M : Models)
  | list (params : ListCommunityFilter ID)
  | nearby (lat lng radiusKm : UInt64)
  | getByID (id : String)
  | create (ownerID : ID) (input : CreateCommunityInput)
  | update (id : String) (userID : ID) (input : M.UpdateCommunityInput)
  | getMembers (id : String)
  | apply (communityID : String) (userID : ID) (propertyID message : String)
  | approveMember (communityID : String) (adminID targetUserID : ID)
  | rejectMember (communityID : String) (adminID targetUserID : ID)
  | leave (communityID : String) (userID : ID)
  | distributeIncome (communityID : String) (adminID : ID)
  | fundSummary (communityID : String)
  | fundTransactions (communityID : String) (page limit : ℤ)
  | joinWaitingList (communityID : String) (userID : ID)
  | requestTransfer (fromID toID : String) (userID : ID) (message : String)

/-- What a method returns beside an error. -/
inductive Returned (ID : Type) (M : Models) (Meta : Type)
  | page (communities : List (Found ID) × Meta)
  | communities (communities : List (Found ID))
  | community (community : Option (Found ID))
  | created (community : Found ID)
  | members (members : List (Membership ID))
  | membership (m : Membership ID)
  | nothing
  | summary (summary : M.FundSummary)
  | transactions (page : M.TransactionPage)
  | entry (entry : WaitingListEntry ID)
  | transfer (tr : TransferRequest ID)

/-- The method with what it returns among what all return. -/
def Method.returning {R : Type} (g : R → Returned ID M Meta) (p : Method ID M Meta R) :
    Method ID M Meta (Returned ID M Meta) := p.map (·.map g)

/-- The method that is called. -/
def MethodCall.method [DecidableEq ID] (parse : String → ID × Bool) :
    MethodCall ID M → Method ID M Meta (Returned ID M Meta)
  | .list params => (Method.list params).returning .page
  | .nearby lat lng radiusKm => (Method.nearby lat lng radiusKm).returning .communities
  | .getByID id => (Method.getByID parse id).returning .community
  | .create ownerID input => (Method.create ownerID input).returning .created
  | .update id userID input => (Method.update parse id userID input).returning .community
  | .getMembers id => (Method.getMembers parse id).returning .members
  | .apply communityID userID propertyID message =>
    (Method.apply parse communityID userID propertyID message).returning .membership
  | .approveMember communityID adminID targetUserID =>
    (Method.approveMember parse communityID adminID targetUserID).returning fun _ => .nothing
  | .rejectMember communityID adminID targetUserID =>
    (Method.rejectMember parse communityID adminID targetUserID).returning fun _ => .nothing
  | .leave communityID userID => (Method.leave parse communityID userID).returning fun _ => .nothing
  | .distributeIncome communityID adminID =>
    (Method.distributeIncome parse communityID adminID).returning fun _ => .nothing
  | .fundSummary communityID => (Method.fundSummary parse communityID).returning .summary
  | .fundTransactions communityID page limit => (Method.fundTransactions parse communityID page limit).returning .transactions
  | .joinWaitingList communityID userID => (Method.joinWaitingList parse communityID userID).returning .entry
  | .requestTransfer fromID toID userID message =>
    (Method.requestTransfer parse fromID toID userID message).returning .transfer

/-! ### The repositories together -/

/-- All repositories, on the state `σ`; `X` is what the environment chooses for a call. -/
abbrev Repositories (ID σ X : Type) (M : Models) (Meta : Type) :=
  Prog.Outside X σ (RepositoryCall ID M) (RepositoryCall.Answer Meta) String

/-- It creates no membership and changes none. -/
def RepositoryCall.LeavesMemberships : RepositoryCall ID M → Prop
  | .createMembership _ | .updateStatus _ _ _ | .deleteMembership _ _ => False
  | _ => True

/-- The repositories keep `store`: the id of a community is new and stays its, a membership is created where there is
none, a call changes the memberships as its name says or not at all, and a membership that is found is stored. -/
structure Repositories.Keep [DecidableEq ID] (repo : Repositories ID σ X M Meta) (store : σ → Store ID) : Prop where
  createCommunity : ∀ x s c id, (repo x s (.createCommunity c)).1 = .ok id →
    (store s).community id = none ∧ (store (repo x s (.createCommunity c)).2).community id ≠ none
  community : ∀ x s q id, (store s).community id ≠ none → (store (repo x s q).2).community id ≠ none
  createMembership : ∀ x s m,
    (store (repo x s (.createMembership m)).2).membership = (store s).membership ∨
      (store s).membership m.userID m.communityID = none ∧
        (store (repo x s (.createMembership m)).2).membership = ((store s).addMembership m).membership
  findMembership : ∀ x s u c m, (repo x s (.findByUserAndCommunity u c)).1 = .ok (some m) →
    (store s).membership u c = some m
  updateStatus : ∀ x s u c status,
    (store (repo x s (.updateStatus u c status)).2).membership = (store s).membership ∨
      (store (repo x s (.updateStatus u c status)).2).membership = ((store s).setStatus u c status).membership
  delete : ∀ x s u c,
    (store (repo x s (.deleteMembership u c)).2).membership = (store s).membership ∨
      (store (repo x s (.deleteMembership u c)).2).membership = ((store s).removeMembership u c).membership
  others : ∀ x s q, q.LeavesMemberships → (store (repo x s q).2).membership = (store s).membership

/-- Calls of methods that overlap, on repositories. -/
abbrev Overlapping (ι ID σ : Type) (M : Models) (Meta : Type) :=
  Pool ι σ (RepositoryCall ID M) (RepositoryCall.Answer Meta) String Unit (Except Failure (Returned ID M Meta))

def overlapping {ι : Type} [DecidableEq ι] [DecidableEq ID] (parse : String → ID × Bool)
    (repo : Repositories ID σ X M Meta) (req : ι → MethodCall ID M) (Init : σ → Prop) :
    System (Overlapping ι ID σ M Meta) (PoolEvent ι X) :=
  Pool.system (fun i => (req i).method parse) repo fun s _ => Init s

/-! ### One call alone -/

/-- `FullService` with the methods of the repositories that list communities. -/
structure ListingService (ID σ X : Type) (M : Models) (Meta : Type) extends FullService ID σ X M where
  list : X → σ → ListCommunityFilter ID → Except String (List (Found ID) × Meta)
  findNearby : X → σ → UInt64 → UInt64 → UInt64 → Except String (List (Found ID))

/-- Its repositories, which find something or return an error. -/
def ListingService.repositories (svc : ListingService ID σ X M Meta) : Repositories ID σ X M Meta := fun x s q =>
  match q with
  | .createCommunity c => svc.communityRepo.create x s c
  | .findCommunity id => ((svc.communityRepo.findByID x s id).map fun c => some (id, c), s)
  | .list filter => (svc.list x s filter, s)
  | .findNearby lat lng radiusKm => (svc.findNearby x s lat lng radiusKm, s)
  | .updateCommunity id input => ((svc.update x s id input).1.map fun c => some (id, c), (svc.update x s id input).2)
  | .findWaitingListEntry userID communityID => (.ok (svc.findWaitingListEntry x s userID communityID), s)
  | .addToWaitingList entry => svc.addToWaitingList x s entry
  | .createTransferRequest tr => svc.communityRepo.createTransferRequest x s tr
  | .createMembership m => svc.memberRepo.create x s m
  | .findByUserAndCommunity userID communityID =>
    ((svc.memberRepo.findByUserAndCommunity x s userID communityID).map some, s)
  | .findByCommunity communityID => (svc.findByCommunity x s communityID, s)
  | .updateStatus userID communityID status => svc.memberRepo.updateStatus x s userID communityID status
  | .deleteMembership userID communityID => svc.memberRepo.delete x s userID communityID
  | .getFundSummary communityID => (svc.getFundSummary x s communityID, s)
  | .getTransactions communityID page limit => (svc.getTransactions x s communityID page limit, s)
  | .distributeToMembers communityID => svc.financeRepo.distributeToMembers x s communityID

/-- The call of an operation. -/
def Operation.call : Operation ID X M → MethodCall ID M
  | .getByID id _ => .getByID id
  | .update id userID input _ _ => .update id userID input
  | .getMembers id _ => .getMembers id
  | .apply communityID userID propertyID message _ _ => .apply communityID userID propertyID message
  | .approveMember communityID adminID targetUserID _ _ => .approveMember communityID adminID targetUserID
  | .rejectMember communityID adminID targetUserID _ _ => .rejectMember communityID adminID targetUserID
  | .leave communityID userID _ _ => .leave communityID userID
  | .distributeIncome communityID adminID _ _ => .distributeIncome communityID adminID
  | .fundSummary communityID _ => .fundSummary communityID
  | .fundTransactions communityID page limit _ => .fundTransactions communityID page limit
  | .joinWaitingList communityID userID _ _ => .joinWaitingList communityID userID
  | .requestTransfer fromID toID userID message _ _ => .requestTransfer fromID toID userID message

/-- What the environment chooses for the calls of a repository in an operation. -/
def Operation.chosen : Operation ID X M → ℕ → X
  | .getByID _ x | .getMembers _ x | .fundSummary _ x | .fundTransactions _ _ _ x => fun _ => x
  | .update _ _ _ x y | .apply _ _ _ _ x y | .approveMember _ _ _ x y | .rejectMember _ _ _ x y | .leave _ _ x y
  | .distributeIncome _ _ x y | .joinWaitingList _ _ x y | .requestTransfer _ _ _ _ x y => fun n => if n = 0 then x else y

/-- Whether a method failed, and why. -/
def failureOf {R : Type} : Except Failure R → Option Failure
  | .error failure => some failure
  | .ok _ => none

theorem failureOf_map {R S : Type} (g : R → S) (r : Except Failure R) : failureOf (r.map g) = failureOf r := by
  cases r <;> rfl

section
variable {R : Type} {repo : Repositories ID σ X M Meta} {x : ℕ → X} {s : σ}

/-- A method that ran alone: why it failed, and the state behind it. -/
def Alone (repo : Repositories ID σ X M Meta) (x : ℕ → X) (s : σ) (p : Method ID M Meta R) (out : Option String × σ) :
    Prop := failureOf (p.run repo x s ()).1 = out.1.map .error ∧ (p.run repo x s ()).2.1 = out.2

theorem alone_returning {p : Method ID M Meta R} {out : Option String × σ} (g : R → Returned ID M Meta)
    (h : Alone repo x s p out) : Alone repo x s (p.returning g) out := by
  unfold Alone Method.returning
  rw [Prog.map_run]
  exact ⟨(failureOf_map g _).trans h.1, h.2⟩

theorem alone_fail (err : String) : Alone repo x s (Method.fail err : Method ID M Meta R) (some err, s) := ⟨rfl, rfl⟩

theorem alone_call {q : RepositoryCall ID M} {out : Option String × σ} (h : outcome (repo (x 0) s q) = out) :
    Alone repo x s (Method.call q) out := by
  rw [← h]
  unfold Alone Method.call outcome
  rw [Prog.run]
  cases (repo (x 0) s q).1 <;> exact ⟨rfl, rfl⟩

theorem alone_query {q : RepositoryCall ID M} {k : Except String (q.Answer Meta) → Method ID M Meta R}
    {out : Option String × σ}
    (h : Alone repo (fun n => x (n + 1)) (repo (x 0) s q).2 (k (repo (x 0) s q).1) out) :
    Alone repo x s (.query q k) out := h

end

section
variable (svc : ListingService ID σ X M Meta)

theorem outcome_map {α β : Type} (g : α → β) (r : Except String α) (s : σ) :
    outcome (r.map g, s) = (errorOf r, s) := by
  cases r <;> rfl

theorem alone_verifyAdmin {R : Type} {adminID uid : ID} {x : ℕ → X} {s : σ} {p : Method ID M Meta R}
    {out : Option String × σ} (hp : Alone svc.repositories (fun n => x (n + 1)) s p out) :
    Alone svc.repositories x s (Method.verifyAdmin adminID uid p)
      (if !svc.verifyAdmin adminID uid (x 0) s then (some "not authorized", s) else out) := by
  refine alone_query ?_
  unfold CommunityService.verifyAdmin
  simp only [ListingService.repositories]
  cases svc.memberRepo.findByUserAndCommunity (x 0) s adminID uid with
  | error err => exact alone_fail _
  | ok m =>
    simp only [Except.map]
    by_cases hrole : m.role ≠ .admin ∧ m.role ≠ .founder
    · rw [if_pos hrole, if_pos (by simp [hrole])]
      exact alone_fail _
    · rw [if_neg hrole, if_neg (by simpa [not_and_or, or_iff_not_imp_left] using hrole)]
      exact hp

theorem outcome_ite {α : Type} (b : Bool) (p q : Except String α × σ) :
    outcome (if b then p else q) = if b then outcome p else outcome q := by
  cases b <;> rfl

theorem create_alone (ownerID : ID) (input : CreateCommunityInput) (x : ℕ → X) (s : σ) :
    Alone svc.repositories x s (Method.create ownerID input) (outcome (svc.create ownerID input (x 0) (x 1) s)) := by
  refine alone_query ?_
  simp only [ListingService.repositories, CommunityService.create]
  rcases svc.communityRepo.create (x 0) s _ with ⟨_ | _, s'⟩
  · exact alone_fail _
  · exact ⟨rfl, rfl⟩

/-- **A call that runs alone is one step of the service**: it fails as that does and leaves the state that it leaves. -/
theorem alone [DecidableEq ID] (op : Operation ID X M) (s : σ) :
    Alone svc.repositories op.chosen s (op.call.method svc.parse) (svc.perform op s) := by
  cases op with
  | getByID id x =>
    refine alone_returning _ ?_
    simp only [FullService.perform, FullService.getByID, Method.getByID]
    split
    · exact alone_fail _
    · exact alone_call (outcome_map ..)
  | update id userID input x y =>
    refine alone_returning _ ?_
    simp only [FullService.perform, FullService.updateCommunity, FullService.getByID, Method.update]
    split
    · exact alone_fail _
    · refine alone_query ?_
      simp only [ListingService.repositories, Operation.chosen, if_true, CommunityService.uid]
      cases svc.communityRepo.findByID x s (svc.parse id).1 with
      | error err => exact alone_fail _
      | ok c =>
        simp only [Except.map]
        split
        · exact alone_fail _
        · exact alone_call (outcome_map ..)
  | getMembers id x =>
    refine alone_returning _ ?_
    simp only [FullService.perform, FullService.getMembers, Method.getMembers]
    split
    · exact alone_fail _
    · exact alone_call rfl
  | apply communityID userID propertyID message x y =>
    refine alone_returning _ ?_
    simp only [FullService.perform, CommunityService.apply, Method.apply]
    split
    · exact alone_fail _
    split
    · exact alone_fail _
    refine alone_query ?_
    simp only [ListingService.repositories, Operation.chosen, if_true, CommunityService.uid]
    cases svc.memberRepo.findByUserAndCommunity x s userID (svc.parse communityID).1 with
    | ok m => exact alone_fail _
    | error err =>
      refine alone_query ?_
      simp only [ListingService.repositories, Nat.add_eq_zero_iff, one_ne_zero, and_false, if_false]
      rcases svc.memberRepo.create y s _ with ⟨_ | _, s'⟩
      · exact alone_fail _
      · exact ⟨rfl, rfl⟩
  | approveMember communityID adminID targetUserID x y =>
    refine alone_returning _ ?_
    simp only [FullService.perform, CommunityService.approveMember, CommunityService.setStatus, outcome_ite]
    exact alone_verifyAdmin svc (alone_call rfl)
  | rejectMember communityID adminID targetUserID x y =>
    refine alone_returning _ ?_
    simp only [FullService.perform, CommunityService.rejectMember, CommunityService.setStatus, outcome_ite]
    exact alone_verifyAdmin svc (alone_call rfl)
  | leave communityID userID x y =>
    refine alone_returning _ (alone_query ?_)
    simp only [FullService.perform, CommunityService.leave, ListingService.repositories, Operation.chosen, if_true,
      CommunityService.uid]
    cases svc.communityRepo.findByID x s (svc.parse communityID).1 with
    | error err => exact alone_fail _
    | ok c =>
      simp only [Except.map]
      split
      · exact alone_fail _
      · exact alone_call rfl
  | distributeIncome communityID adminID x y =>
    refine alone_returning _ ?_
    simp only [FullService.perform, CommunityService.distributeIncome, outcome_ite]
    exact alone_verifyAdmin svc (alone_call rfl)
  | fundSummary communityID x => exact alone_returning _ (alone_call rfl)
  | fundTransactions communityID page limit x => exact alone_returning _ (alone_call rfl)
  | joinWaitingList communityID userID x y =>
    refine alone_returning _ (alone_query ?_)
    simp only [FullService.perform, FullService.joinWaitingList, ListingService.repositories, Operation.chosen, if_true,
      CommunityService.uid]
    cases svc.findWaitingListEntry x s userID (svc.parse communityID).1 with
    | some entry => exact alone_fail _
    | none =>
      refine alone_query ?_
      simp only [ListingService.repositories, Nat.add_eq_zero_iff, one_ne_zero, and_false, if_false]
      rcases svc.addToWaitingList y s _ with ⟨_ | _, s'⟩
      · exact alone_fail _
      · exact ⟨rfl, rfl⟩
  | requestTransfer fromID toID userID message x y =>
    refine alone_returning _ (alone_query ?_)
    simp only [FullService.perform, CommunityService.requestTransfer, ListingService.repositories, Operation.chosen,
      if_true, CommunityService.uid]
    cases svc.memberRepo.findByUserAndCommunity x s userID (svc.parse fromID).1 with
    | error err => exact alone_fail _
    | ok m =>
      refine alone_query ?_
      simp only [ListingService.repositories, Nat.add_eq_zero_iff, one_ne_zero, and_false, if_false]
      rcases svc.communityRepo.createTransferRequest y s _ with ⟨_ | _, s'⟩
      · exact alone_fail _
      · exact ⟨rfl, rfl⟩

end

/-! ### The repositories of a service -/

section
variable [DecidableEq ID] {store : σ → Store ID}

/-- What the service does not look at in the repositories leaves the memberships and the communities. -/
structure ListingService.Spares (svc : ListingService ID σ X M Meta) (store : σ → Store ID) : Prop where
  update : ∀ x s id input, (store (svc.update x s id input).2).membership = (store s).membership ∧
    ∀ c, (store s).community c ≠ none → (store (svc.update x s id input).2).community c ≠ none
  addToWaitingList : ∀ x s entry, store (svc.addToWaitingList x s entry).2 = store s
  createTransferRequest : ∀ x s tr, store (svc.communityRepo.createTransferRequest x s tr).2 = store s
  distributeToMembers : ∀ x s c, store (svc.financeRepo.distributeToMembers x s c).2 = store s

/-- The repositories of a lawful service keep its store. -/
theorem ListingService.keep {svc : ListingService ID σ X M Meta} {works : X} (h : svc.Lawful store works)
    (hspares : svc.Spares store) : svc.repositories.Keep store := by
  have hcreate : ∀ x s c, (store (svc.communityRepo.create x s c).2).membership = (store s).membership ∧
      (∀ id, (store s).community id ≠ none → (store (svc.communityRepo.create x s c).2).community id ≠ none) ∧
      ∀ id, (svc.communityRepo.create x s c).1 = .ok id → (store s).community id = none ∧
        (store (svc.communityRepo.create x s c).2).community id ≠ none := by
    intro x s c
    have hkeeps : ∀ id id', (store s).community id' ≠ none → ((store s).addCommunity id c).community id' ≠ none := by
      intro id id' hsome
      unfold Store.addCommunity
      dsimp only
      split
      · simp
      · exact hsome
    have hlaw := h.createCommunity x s c
    rcases hr : svc.communityRepo.create x s c with ⟨err | id, s'⟩ <;> rw [hr] at hlaw <;> dsimp only at hlaw ⊢
    · obtain hsame | ⟨id, -, hadded⟩ := hlaw
      · rw [hsame]
        exact ⟨rfl, fun _ hsome => hsome, fun _ h => nomatch h⟩
      · rw [hadded]
        exact ⟨rfl, hkeeps id, fun _ h => nomatch h⟩
    · obtain ⟨hnone, hadded⟩ := hlaw
      rw [hadded]
      refine ⟨rfl, hkeeps id, ?_⟩
      rintro _ ⟨⟩
      exact ⟨hnone, by simp [Store.addCommunity]⟩
  exact {
    createCommunity := fun x s c id hid => (hcreate x s c).2.2 id hid
    community := fun x s q id hsome => by
      cases q with
      | createCommunity c => exact (hcreate x s c).2.1 id hsome
      | updateCommunity id' input => exact (hspares.update x s id' input).2 id hsome
      | addToWaitingList entry =>
        change (store (svc.addToWaitingList x s entry).2).community id ≠ none
        rwa [hspares.addToWaitingList]
      | createTransferRequest tr =>
        change (store (svc.communityRepo.createTransferRequest x s tr).2).community id ≠ none
        rwa [hspares.createTransferRequest]
      | distributeToMembers c =>
        change (store (svc.financeRepo.distributeToMembers x s c).2).community id ≠ none
        rwa [hspares.distributeToMembers]
      | createMembership m =>
        change (store (svc.memberRepo.create x s m).2).community id ≠ none
        obtain hsame | ⟨-, hadded⟩ := h.createMembership x s m
        · rwa [hsame]
        · rwa [hadded]
      | updateStatus u c status =>
        change (store (svc.memberRepo.updateStatus x s u c status).2).community id ≠ none
        obtain hsame | hset := h.updateStatus x s u c status
        · rwa [hsame]
        · rwa [hset]
      | deleteMembership u c =>
        change (store (svc.memberRepo.delete x s u c).2).community id ≠ none
        obtain hsame | hremoved := h.delete x s u c
        · rwa [hsame]
        · rwa [hremoved]
      | _ => exact hsome
    createMembership := fun x s m =>
      (h.createMembership x s m).imp (congrArg _) fun ⟨hnew, hadded⟩ => ⟨hnew, congrArg _ hadded⟩
    findMembership := fun x s u c m hfound => by
      change (svc.memberRepo.findByUserAndCommunity x s u c).map some = .ok (some m) at hfound
      cases hfind : svc.memberRepo.findByUserAndCommunity x s u c with
      | error err =>
        rw [hfind] at hfound
        cases hfound
      | ok m' =>
        rw [hfind] at hfound
        cases hfound
        exact h.findMembership x s u c m hfind
    updateStatus := fun x s u c status => (h.updateStatus x s u c status).imp (congrArg _) (congrArg _)
    delete := fun x s u c => (h.delete x s u c).imp (congrArg _) (congrArg _)
    others := fun x s q hleaves => by
      cases q with
      | createCommunity c => exact (hcreate x s c).1
      | updateCommunity id input => exact (hspares.update x s id input).1
      | addToWaitingList entry => exact congrArg _ (hspares.addToWaitingList x s entry)
      | createTransferRequest tr => exact congrArg _ (hspares.createTransferRequest x s tr)
      | distributeToMembers c => exact congrArg _ (hspares.distributeToMembers x s c)
      | createMembership | updateStatus | deleteMembership => exact hleaves.elim
      | _ => rfl }

end

/-- The repositories in memory. -/
def listing : ListingService ℕ (Store ℕ) ℕ noModels Unit where
  toFullService := strokes
  list _ _ _ := .ok ([], ())
  findNearby _ _ _ _ _ := .ok []

theorem listing_lawful : listing.Lawful id 0 :=
  ⟨inMemory_lawful.createCommunity, inMemory_lawful.findByID, inMemory_lawful.createMembership,
    inMemory_lawful.findMembership, inMemory_lawful.updateStatus, inMemory_lawful.delete, inMemory_lawful.findByID_works,
    inMemory_lawful.findMembership_works, inMemory_lawful.updateStatus_works, inMemory_lawful.delete_works,
    inMemory_lawful.distribute_works, inMemory_lawful.transfer_works⟩

theorem listing_spares : listing.Spares id where
  update x s id' input := by
    simp only [listing, strokes]
    split <;> exact ⟨rfl, fun _ h => h⟩
  addToWaitingList _ _ _ := rfl
  createTransferRequest _ _ _ := rfl
  distributeToMembers _ _ _ := rfl

end Locus.Backend
