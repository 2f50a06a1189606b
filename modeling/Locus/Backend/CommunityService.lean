import Locus.Lib.System
import Mathlib.Data.Int.Notation

/-!
# The community service of the Go backend

`communityService` of `internal/services/community_service.go`: communities are founded, users apply, are
approved or rejected, and leave. Its repositories are interfaces only, so they are parameters here, and so
is `uuid.Parse`. A repository has some state, of which the service sees the stored communities and
memberships (`Store`), and a call of it may fail as the environment chooses; `Lawful` says that a call
changes the store as its name says, or not at all.

What a call of the service can do to the store is `Effect`; the proofs about runs are case analyses over it
and look at the code no more.
-/

namespace Locus.Backend

open Lib

/-! ### Data -/

/-- `MemberRoleFounder`, `MemberRoleAdmin`, `MemberRoleMember` -/
inductive MemberRole
  | founder
  | admin
  | member
deriving DecidableEq

/-- `Status` of a membership. -/
inductive MemberStatus
  | pending
  | active
  | rejected
deriving DecidableEq

/-- `models.CreateCommunityInput`; a coordinate is the bits of its `float64`. -/
structure CreateCommunityInput where
  name : String
  type : String
  isPublic : Bool
  capacity : ℤ
  description : String := ""
  city : String := ""
  state : String := ""
  latitude : Option UInt64 := none
  longitude : Option UInt64 := none

variable {ID : Type}

/-- `models.Community`, but for its id. -/
structure Community (ID : Type) where
  name : String
  type : String
  ownerID : ID
  isPublic : Bool
  capacity : ℤ
  memberCount : ℤ
  description : Option String := none
  city : Option String := none
  state : Option String := none
  latitude : Option UInt64 := none
  longitude : Option UInt64 := none
deriving DecidableEq

/-- `models.Membership` -/
structure Membership (ID : Type) where
  userID : ID
  communityID : ID
  contributedPropertyID : Option ID := none
  role : MemberRole
  status : MemberStatus
deriving DecidableEq

/-- `models.TransferRequest` -/
structure TransferRequest (ID : Type) where
  userID : ID
  fromCommunityID : ID
  toCommunityID : ID
  message : String
  status : String

/-! ### The repositories -/

/-- `repositories.CommunityRepository` on the state `σ`; `X` is what the environment chooses for a call. -/
structure CommunityRepository (ID σ X : Type) where
  /-- It assigns the id. -/
  create : X → σ → Community ID → Except String ID × σ
  findByID : X → σ → ID → Except String (Community ID)
  createTransferRequest : X → σ → TransferRequest ID → Except String Unit × σ

/-- `repositories.MembershipRepository` -/
structure MembershipRepository (ID σ X : Type) where
  create : X → σ → Membership ID → Except String Unit × σ
  findByUserAndCommunity : X → σ → ID → ID → Except String (Membership ID)
  updateStatus : X → σ → ID → ID → MemberStatus → Except String Unit × σ
  delete : X → σ → ID → ID → Except String Unit × σ

/-- `repositories.FinanceRepository` -/
structure FinanceRepository (ID σ X : Type) where
  distributeToMembers : X → σ → ID → Except String Unit × σ

/-- `communityService`, and `uuid.Parse`: the id, and whether the text was one. -/
structure CommunityService (ID σ X : Type) where
  communityRepo : CommunityRepository ID σ X
  memberRepo : MembershipRepository ID σ X
  financeRepo : FinanceRepository ID σ X
  parse : String → ID × Bool

/-! ### The service -/

namespace CommunityService

variable {σ X : Type} (svc : CommunityService ID σ X)

/-- `uid, _ := uuid.Parse(communityID)` -/
def uid (communityID : String) : ID := (svc.parse communityID).1

/-- The community that `Create` stores; the founder is its first member. -/
def newCommunity (ownerID : ID) (input : CreateCommunityInput) : Community ID where
  name := input.name
  type := input.type
  ownerID := ownerID
  isPublic := input.isPublic
  capacity := if input.capacity < 2 then 2 else input.capacity
  memberCount := 1
  description := if input.description ≠ "" then some input.description else none
  city := if input.city ≠ "" then some input.city else none
  state := if input.state ≠ "" then some input.state else none
  latitude := input.latitude
  longitude := input.longitude

/-- The membership of the founder. -/
def founderMembership (ownerID communityID : ID) : Membership ID where
  userID := ownerID
  communityID := communityID
  role := .founder
  status := .active

def create (ownerID : ID) (input : CreateCommunityInput) (x y : X) (s : σ) :
    Except String (ID × Community ID) × σ :=
  match svc.communityRepo.create x s (newCommunity ownerID input) with
  | (.error err, s) => (.error ("create community: " ++ err), s)
  | (.ok id, s) =>
    -- the error of adding the founder is ignored
    (.ok (id, newCommunity ownerID input), (svc.memberRepo.create y s (founderMembership ownerID id)).2)

def apply (communityID : String) (userID : ID) (propertyID _message : String) (x y : X) (s : σ) :
    Except String (Membership ID) × σ :=
  if !(svc.parse communityID).2 then (.error "invalid community id", s)
  else if !(svc.parse propertyID).2 then (.error "invalid property id", s)
  else match svc.memberRepo.findByUserAndCommunity x s userID (svc.uid communityID) with
  | .ok _ => (.error "already applied or member", s)
  | .error _ =>
    let membership : Membership ID :=
      { userID, communityID := svc.uid communityID, contributedPropertyID := some (svc.parse propertyID).1,
        role := .member, status := .pending }
    match svc.memberRepo.create y s membership with
    | (.error err, s) => (.error ("create membership: " ++ err), s)
    | (.ok (), s) => (.ok membership, s)

/-- `err == nil && (adminMembership.Role == MemberRoleAdmin || adminMembership.Role == MemberRoleFounder)` -/
def verifyAdmin (adminID uid : ID) (x : X) (s : σ) : Bool :=
  match svc.memberRepo.findByUserAndCommunity x s adminID uid with
  | .error _ => false
  | .ok adminMembership => adminMembership.role = .admin || adminMembership.role = .founder

/-- `ApproveMember` and `RejectMember` for the status that they set. -/
def setStatus (status : MemberStatus) (communityID : String) (adminID targetUserID : ID) (x y : X) (s : σ) :
    Except String Unit × σ :=
  if !svc.verifyAdmin adminID (svc.uid communityID) x s then (.error "not authorized", s)
  else svc.memberRepo.updateStatus y s targetUserID (svc.uid communityID) status

def approveMember : String → ID → ID → X → X → σ → Except String Unit × σ := svc.setStatus .active

def rejectMember : String → ID → ID → X → X → σ → Except String Unit × σ := svc.setStatus .rejected

def leave [DecidableEq ID] (communityID : String) (userID : ID) (x y : X) (s : σ) : Except String Unit × σ :=
  match svc.communityRepo.findByID x s (svc.uid communityID) with
  | .error err => (.error err, s)
  | .ok community =>
    if community.ownerID = userID ∧ community.memberCount > 1 then
      (.error "founder must transfer ownership before leaving", s)
    else svc.memberRepo.delete y s userID (svc.uid communityID)

def distributeIncome (communityID : String) (adminID : ID) (x y : X) (s : σ) : Except String Unit × σ :=
  if !svc.verifyAdmin adminID (svc.uid communityID) x s then (.error "not authorized", s)
  else svc.financeRepo.distributeToMembers y s (svc.uid communityID)

def requestTransfer (fromID toID : String) (userID : ID) (message : String) (x y : X) (s : σ) :
    Except String (TransferRequest ID) × σ :=
  match svc.memberRepo.findByUserAndCommunity x s userID (svc.uid fromID) with
  | .error _ => (.error "not a member of source community", s)
  | .ok _ =>
    let tr : TransferRequest ID :=
      { userID, fromCommunityID := svc.uid fromID, toCommunityID := svc.uid toID, message,
        status := "pending" }
    match svc.communityRepo.createTransferRequest y s tr with
    | (.error err, s) => (.error ("create transfer request: " ++ err), s)
    | (.ok (), s) => (.ok tr, s)

end CommunityService

/-- A call of the service that founds a community or changes a membership, with what the environment chooses
for its two calls of a repository. -/
inductive ServiceCall (ID X : Type)
  | create (ownerID : ID) (input : CreateCommunityInput) (x y : X)
  | apply (communityID : String) (userID : ID) (propertyID message : String) (x y : X)
  | approveMember (communityID : String) (adminID targetUserID : ID) (x y : X)
  | rejectMember (communityID : String) (adminID targetUserID : ID) (x y : X)
  | leave (communityID : String) (userID : ID) (x y : X)

def ServiceCall.Works {X : Type} (works : X) : ServiceCall ID X → Prop
  | .create _ _ x y | .apply _ _ _ _ x y | .approveMember _ _ _ x y | .rejectMember _ _ _ x y | .leave _ _ x y =>
    x = works ∧ y = works

/-! ### The store -/

/-- What the service sees of the repositories: the communities by id, the memberships by user and
community. -/
@[ext] structure Store (ID : Type) where
  community : ID → Option (Community ID) := fun _ => none
  membership : ID → ID → Option (Membership ID) := fun _ _ => none

namespace Store

/-- The user has a membership of the status. -/
def Has (v : Store ID) (status : MemberStatus) (userID communityID : ID) : Prop :=
  ∃ m, v.membership userID communityID = some m ∧ m.status = status

/-- The user has a membership as admin or founder. -/
def Verified (v : Store ID) (userID communityID : ID) : Prop :=
  ∃ m, v.membership userID communityID = some m ∧ (m.role = .admin ∨ m.role = .founder)

theorem has_of_map {v : Store ID} {status : MemberStatus} {u c : ID}
    (h : (v.membership u c).map (·.status) = some status) : v.Has status u c :=
  Option.map_eq_some_iff.mp h

variable [DecidableEq ID]

def addCommunity (v : Store ID) (id : ID) (community : Community ID) : Store ID :=
  { v with community := fun c => if c = id then some community else v.community c }

def addMembership (v : Store ID) (m : Membership ID) : Store ID :=
  { v with membership := fun u c => if u = m.userID ∧ c = m.communityID then some m else v.membership u c }

def setStatus (v : Store ID) (userID communityID : ID) (status : MemberStatus) : Store ID :=
  { v with membership := fun u c =>
      if u = userID ∧ c = communityID then (v.membership u c).map ({ · with status }) else v.membership u c }

def removeMembership (v : Store ID) (userID communityID : ID) : Store ID :=
  { v with membership := fun u c => if u = userID ∧ c = communityID then none else v.membership u c }

section
variable (v : Store ID) (id userID communityID u c : ID) (status status' : MemberStatus)

@[simp] theorem addCommunity_membership (community : Community ID) :
    (v.addCommunity id community).membership = v.membership := rfl

@[simp] theorem addMembership_community (m : Membership ID) : (v.addMembership m).community = v.community := rfl

@[simp] theorem setStatus_community : (v.setStatus userID communityID status).community = v.community := rfl

@[simp] theorem removeMembership_community :
    (v.removeMembership userID communityID).community = v.community := rfl

theorem addCommunity_cases {community found : Community ID}
    (h : (v.addCommunity id community).community c = some found) :
    (c = id ∧ found = community) ∨ (c ≠ id ∧ v.community c = some found) := by
  unfold addCommunity at h
  dsimp only at h
  split at h
  · rename_i hc
    exact .inl ⟨hc, (Option.some.inj h).symm⟩
  · rename_i hc
    exact .inr ⟨hc, h⟩

theorem addMembership_cases {m found : Membership ID} (h : (v.addMembership m).membership u c = some found) :
    (u = m.userID ∧ c = m.communityID ∧ found = m) ∨
      (¬ (u = m.userID ∧ c = m.communityID) ∧ v.membership u c = some found) := by
  unfold addMembership at h
  dsimp only at h
  split at h
  · rename_i hkey
    exact .inl ⟨hkey.1, hkey.2, (Option.some.inj h).symm⟩
  · rename_i hkey
    exact .inr ⟨hkey, h⟩

/-- A membership behind a change of a status: it was there, with the same role. -/
theorem setStatus_cases {found : Membership ID}
    (h : (v.setStatus userID communityID status).membership u c = some found) :
    ∃ m, v.membership u c = some m ∧ found.role = m.role ∧
      ((u = userID ∧ c = communityID ∧ found.status = status) ∨
        (¬ (u = userID ∧ c = communityID) ∧ found = m)) := by
  unfold setStatus at h
  dsimp only at h
  split at h
  · rename_i hkey
    obtain ⟨m, hm, rfl⟩ := Option.map_eq_some_iff.mp h
    exact ⟨m, hm, rfl, .inl ⟨hkey.1, hkey.2, rfl⟩⟩
  · rename_i hkey
    exact ⟨found, h, rfl, .inr ⟨hkey, rfl⟩⟩

theorem removeMembership_cases {found : Membership ID}
    (h : (v.removeMembership userID communityID).membership u c = some found) :
    ¬ (u = userID ∧ c = communityID) ∧ v.membership u c = some found := by
  unfold removeMembership at h
  dsimp only at h
  split at h
  · cases h
  · rename_i hkey
    exact ⟨hkey, h⟩

theorem has_addMembership {m : Membership ID} :
    (v.addMembership m).Has status u c ↔
      if u = m.userID ∧ c = m.communityID then m.status = status else v.Has status u c := by
  unfold Has addMembership
  dsimp only
  split
  · simp
  · rfl

theorem has_setStatus : (v.setStatus userID communityID status').Has status u c ↔
    if u = userID ∧ c = communityID then status' = status ∧ (v.membership u c).isSome
    else v.Has status u c := by
  unfold Has setStatus
  dsimp only
  split
  · cases v.membership u c <;> simp
  · rfl

theorem has_removeMembership : (v.removeMembership userID communityID).Has status u c ↔
    ¬ (u = userID ∧ c = communityID) ∧ v.Has status u c := by
  unfold Has removeMembership
  dsimp only
  split
  · rename_i hkey
    simp [hkey]
  · rename_i hkey
    simp [hkey]

end

end Store

/-! ### What the repositories do -/

/-- The repositories keep `store`: a call changes it as its name says or not at all, a lookup that succeeds
returns what is stored, and when the environment chooses `works` no call fails. -/
structure CommunityService.Lawful [DecidableEq ID] {σ X : Type} (svc : CommunityService ID σ X)
    (store : σ → Store ID) (works : X) : Prop where
  createCommunity : ∀ x s c, match svc.communityRepo.create x s c with
    | (.ok id, s') => (store s).community id = none ∧ store s' = (store s).addCommunity id c
    | (.error _, s') => store s' = store s ∨
      ∃ id, (store s).community id = none ∧ store s' = (store s).addCommunity id c
  findByID : ∀ x s id c, svc.communityRepo.findByID x s id = .ok c → (store s).community id = some c
  createMembership : ∀ x s m, store (svc.memberRepo.create x s m).2 = store s ∨
    (store s).membership m.userID m.communityID = none ∧
      store (svc.memberRepo.create x s m).2 = (store s).addMembership m
  findMembership : ∀ x s u c m, svc.memberRepo.findByUserAndCommunity x s u c = .ok m →
    (store s).membership u c = some m
  updateStatus : ∀ x s u c status, store (svc.memberRepo.updateStatus x s u c status).2 = store s ∨
    store (svc.memberRepo.updateStatus x s u c status).2 = (store s).setStatus u c status
  delete : ∀ x s u c, store (svc.memberRepo.delete x s u c).2 = store s ∨
    store (svc.memberRepo.delete x s u c).2 = (store s).removeMembership u c
  findByID_works : ∀ s id c, (store s).community id = some c → svc.communityRepo.findByID works s id = .ok c
  findMembership_works : ∀ s u c m, (store s).membership u c = some m →
    svc.memberRepo.findByUserAndCommunity works s u c = .ok m
  updateStatus_works : ∀ s u c status, (svc.memberRepo.updateStatus works s u c status).1 = .ok () ∧
    store (svc.memberRepo.updateStatus works s u c status).2 = (store s).setStatus u c status
  delete_works : ∀ s u c, (svc.memberRepo.delete works s u c).1 = .ok () ∧
    store (svc.memberRepo.delete works s u c).2 = (store s).removeMembership u c
  distribute_works : ∀ s c, (svc.financeRepo.distributeToMembers works s c).1 = .ok ()
  transfer_works : ∀ s tr, (svc.communityRepo.createTransferRequest works s tr).1 = .ok ()

/-! ### Runs -/

section

open CommunityService (newCommunity founderMembership)

variable [DecidableEq ID] {σ X : Type}

def CommunityService.perform (svc : CommunityService ID σ X) (s : σ) : ServiceCall ID X → σ
  | .create ownerID input x y => (svc.create ownerID input x y s).2
  | .apply communityID userID propertyID message x y =>
    (svc.apply communityID userID propertyID message x y s).2
  | .approveMember communityID adminID targetUserID x y =>
    (svc.approveMember communityID adminID targetUserID x y s).2
  | .rejectMember communityID adminID targetUserID x y =>
    (svc.rejectMember communityID adminID targetUserID x y s).2
  | .leave communityID userID x y => (svc.leave communityID userID x y s).2

/-- Calls of the service by any users, one after the other, on repositories that are empty at first. -/
def communityService (svc : CommunityService ID σ X) (store : σ → Store ID) : System σ (ServiceCall ID X) where
  Init s := store s = {}
  step s call := some (svc.perform s call)

/-- What a call can do to the store. -/
inductive Effect (svc : CommunityService ID σ X) (v : Store ID) : ServiceCall ID X → Store ID → Prop
  | none (call : ServiceCall ID X) : Effect svc v call v
  /-- The community is stored, and its founder is not. -/
  | founds (ownerID : ID) (input : CreateCommunityInput) (x y : X) (id : ID) (hid : v.community id = .none) :
      Effect svc v (.create ownerID input x y) (v.addCommunity id (newCommunity ownerID input))
  | foundsWithFounder (ownerID : ID) (input : CreateCommunityInput) (x y : X) (id : ID)
      (hid : v.community id = .none) (hnew : v.membership ownerID id = .none) :
      Effect svc v (.create ownerID input x y)
        ((v.addCommunity id (newCommunity ownerID input)).addMembership (founderMembership ownerID id))
  | applies (communityID : String) (userID : ID) (propertyID message : String) (x y : X) (m : Membership ID)
      (hm : m.userID = userID ∧ m.communityID = svc.uid communityID ∧ m.role = .member ∧ m.status = .pending)
      (hnew : v.membership userID (svc.uid communityID) = .none) :
      Effect svc v (.apply communityID userID propertyID message x y) (v.addMembership m)
  | approves (communityID : String) (adminID targetUserID : ID) (x y : X)
      (hadmin : v.Verified adminID (svc.uid communityID)) :
      Effect svc v (.approveMember communityID adminID targetUserID x y)
        (v.setStatus targetUserID (svc.uid communityID) .active)
  | rejects (communityID : String) (adminID targetUserID : ID) (x y : X)
      (hadmin : v.Verified adminID (svc.uid communityID)) :
      Effect svc v (.rejectMember communityID adminID targetUserID x y)
        (v.setStatus targetUserID (svc.uid communityID) .rejected)
  | leaves (communityID : String) (userID : ID) (x y : X) (community : Community ID)
      (hcommunity : v.community (svc.uid communityID) = some community)
      (hguard : ¬ (community.ownerID = userID ∧ community.memberCount > 1)) :
      Effect svc v (.leave communityID userID x y) (v.removeMembership userID (svc.uid communityID))

variable {svc : CommunityService ID σ X} {store : σ → Store ID} {works : X}

theorem verified_of_verifyAdmin (h : svc.Lawful store works) {adminID uid : ID} {x : X} {s : σ}
    (hadmin : svc.verifyAdmin adminID uid x s) : (store s).Verified adminID uid := by
  unfold CommunityService.verifyAdmin at hadmin
  split at hadmin
  · cases hadmin
  · rename_i m hfind
    exact ⟨m, h.findMembership x s adminID uid m hfind, by simpa using hadmin⟩

theorem verifyAdmin_works (h : svc.Lawful store works) {adminID uid : ID} {s : σ}
    (hadmin : (store s).Verified adminID uid) : svc.verifyAdmin adminID uid works s := by
  obtain ⟨m, hm, hrole⟩ := hadmin
  rw [CommunityService.verifyAdmin, h.findMembership_works s adminID uid m hm]
  simpa using hrole

/-- A call of `ApproveMember` or `RejectMember`: nothing, or the status of the target behind the check. -/
theorem setStatus_store (h : svc.Lawful store works) (status : MemberStatus) (communityID : String)
    (adminID targetUserID : ID) (x y : X) (s : σ) :
    store (svc.setStatus status communityID adminID targetUserID x y s).2 = store s ∨
      (store s).Verified adminID (svc.uid communityID) ∧
        store (svc.setStatus status communityID adminID targetUserID x y s).2 =
          (store s).setStatus targetUserID (svc.uid communityID) status := by
  unfold CommunityService.setStatus
  split
  · exact .inl rfl
  · rename_i hadmin
    have hverified := verified_of_verifyAdmin h (by simpa using hadmin)
    rcases h.updateStatus y s targetUserID (svc.uid communityID) status with hsame | hset
    · exact .inl hsame
    · exact .inr ⟨hverified, hset⟩

/-- A status is set, when no call fails. -/
theorem setStatus_works (h : svc.Lawful store works) (status : MemberStatus) {communityID : String}
    {adminID : ID} (targetUserID : ID) {s : σ} (hadmin : (store s).Verified adminID (svc.uid communityID)) :
    (svc.setStatus status communityID adminID targetUserID works works s).1 = .ok () ∧
      store (svc.setStatus status communityID adminID targetUserID works works s).2 =
        (store s).setStatus targetUserID (svc.uid communityID) status := by
  rw [CommunityService.setStatus, verifyAdmin_works h hadmin]
  exact h.updateStatus_works s targetUserID (svc.uid communityID) status

theorem create_effect (h : svc.Lawful store works) (ownerID : ID) (input : CreateCommunityInput) (x y : X)
    (s : σ) : Effect svc (store s) (.create ownerID input x y) (store (svc.create ownerID input x y s).2) := by
  have hcreate := h.createCommunity x s (newCommunity ownerID input)
  unfold CommunityService.create
  split at hcreate
  · rename_i id s₁ hresult
    obtain ⟨hid, hstore⟩ := hcreate
    rw [hresult]
    dsimp only
    rcases h.createMembership y s₁ (founderMembership ownerID id) with hsame | ⟨hnew, hadd⟩
    · rw [hsame, hstore]
      exact .founds ownerID input x y id hid
    · rw [hadd, hstore]
      rw [hstore] at hnew
      exact .foundsWithFounder ownerID input x y id hid hnew
  · rename_i err s₁ hresult
    rw [hresult]
    dsimp only
    rcases hcreate with hsame | ⟨id, hid, hstore⟩
    · rw [hsame]
      exact .none _
    · rw [hstore]
      exact .founds ownerID input x y id hid

theorem apply_effect (h : svc.Lawful store works) (communityID : String) (userID : ID)
    (propertyID message : String) (x y : X) (s : σ) :
    Effect svc (store s) (.apply communityID userID propertyID message x y)
      (store (svc.apply communityID userID propertyID message x y s).2) := by
  unfold CommunityService.apply
  split
  · exact .none _
  split
  · exact .none _
  split
  · exact .none _
  · dsimp only
    have hcreate := h.createMembership y s
      { userID, communityID := svc.uid communityID, contributedPropertyID := some (svc.parse propertyID).1,
        role := .member, status := .pending }
    split
    all_goals
      rename_i hresult
      rw [hresult] at hcreate
      rcases hcreate with hsame | ⟨hnew, hadd⟩
      · rw [hsame]
        exact .none _
      · rw [hadd]
        exact .applies communityID userID propertyID message x y _ ⟨rfl, rfl, rfl, rfl⟩ hnew

theorem leave_effect (h : svc.Lawful store works) (communityID : String) (userID : ID) (x y : X) (s : σ) :
    Effect svc (store s) (.leave communityID userID x y) (store (svc.leave communityID userID x y s).2) := by
  unfold CommunityService.leave
  split
  · exact .none _
  · rename_i community hfind
    split
    · exact .none _
    · rename_i hguard
      rcases h.delete y s userID (svc.uid communityID) with hsame | hremove
      · rw [hsame]
        exact .none _
      · rw [hremove]
        exact .leaves communityID userID x y community (h.findByID x s _ community hfind) hguard

/-- **A call of the service** has one of these effects. -/
theorem effect_of_step (h : svc.Lawful store works) {s s' : σ} {call : ServiceCall ID X}
    (hstep : (communityService svc store).step s call = some s') : Effect svc (store s) call (store s') := by
  obtain rfl := Option.some.inj hstep
  cases call with
  | create ownerID input x y => exact create_effect h ownerID input x y s
  | apply communityID userID propertyID message x y =>
    exact apply_effect h communityID userID propertyID message x y s
  | leave communityID userID x y => exact leave_effect h communityID userID x y s
  | approveMember communityID adminID targetUserID x y =>
    have hset := setStatus_store h .active communityID adminID targetUserID x y s
    rcases hset with hsame | ⟨hadmin, hset⟩
    · exact hsame ▸ Effect.none _
    · exact hset ▸ Effect.approves communityID adminID targetUserID x y hadmin
  | rejectMember communityID adminID targetUserID x y =>
    have hset := setStatus_store h .rejected communityID adminID targetUserID x y s
    rcases hset with hsame | ⟨hadmin, hset⟩
    · exact hsame ▸ Effect.none _
    · exact hset ▸ Effect.rejects communityID adminID targetUserID x y hadmin

end

/-! ### On repositories in memory -/

/-- Repositories in memory that never fail, but for keys that are taken. The environment draws the ids, and
an id is written in strokes. -/
def inMemory : CommunityService ℕ (Store ℕ) ℕ where
  communityRepo :=
    { create := fun x s c =>
        if (s.community x).isSome then (.error "duplicate key value", s) else (.ok x, s.addCommunity x c)
      findByID := fun _ s id => match s.community id with
        | some c => .ok c
        | none => .error "record not found"
      createTransferRequest := fun _ s _ => (.ok (), s) }
  memberRepo :=
    { create := fun _ s m =>
        if (s.membership m.userID m.communityID).isSome then (.error "duplicate key value", s)
        else (.ok (), s.addMembership m)
      findByUserAndCommunity := fun _ s u c => match s.membership u c with
        | some m => .ok m
        | none => .error "record not found"
      updateStatus := fun _ s u c status => (.ok (), s.setStatus u c status)
      delete := fun _ s u c => (.ok (), s.removeMembership u c) }
  financeRepo := { distributeToMembers := fun _ s _ => (.ok (), s) }
  parse := fun text => (text.toList.length, text ≠ "")

theorem inMemory_lawful : inMemory.Lawful id 0 where
  createCommunity x s c := by
    by_cases hx : (s.community x).isSome
    · simp [inMemory, hx]
    · have hnone : s.community x = none := Option.not_isSome_iff_eq_none.mp hx
      simp [inMemory, hnone]
  findByID x s i c h := by
    simp only [inMemory] at h
    split at h
    · rename_i found hfound
      exact (Except.ok.inj h) ▸ hfound
    · cases h
  createMembership x s m := by
    by_cases hm : (s.membership m.userID m.communityID).isSome
    · simp [inMemory, hm]
    · have hnone := Option.not_isSome_iff_eq_none.mp hm
      simp [inMemory, hnone]
  findMembership x s u c m h := by
    simp only [inMemory] at h
    split at h
    · rename_i found hfound
      exact (Except.ok.inj h) ▸ hfound
    · cases h
  updateStatus _ _ _ _ _ := .inr rfl
  delete _ _ _ _ := .inr rfl
  findByID_works s i c h := by simp [inMemory, show s.community i = some c from h]
  findMembership_works s u c m h := by simp [inMemory, show s.membership u c = some m from h]
  updateStatus_works _ _ _ _ := ⟨rfl, rfl⟩
  delete_works _ _ _ := ⟨rfl, rfl⟩
  distribute_works _ _ := rfl
  transfer_works _ _ := rfl

/-- Ana, who is 1, founds a community. -/
def anaFounds : ServiceCall ℕ ℕ :=
  .create 1 { name := "Casa Ana", type := "cohousing", isPublic := true, capacity := 8 } 1 0

/-- Bea, who is 2, applies, and Ana approves her. -/
def beaJoins : List (ServiceCall ℕ ℕ) := [anaFounds, .apply "|" 2 "|" "" 0 0, .approveMember "|" 1 2 0 0]

end Locus.Backend
