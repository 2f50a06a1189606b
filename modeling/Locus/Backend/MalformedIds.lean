import Locus.Backend.CommunityService

/-!
# Community ids that are no UUIDs

Four methods of `communityService` refuse an id that `uuid.Parse` does not read. The others drop the error with
`uid, _ := uuid.Parse(communityID)` and go on with the id that comes with it. Whether such a call fails without a
write is then up to a later check (`malformed_id_iff`): `ApproveMember`, `RejectMember`, `DistributeIncome` and
`Leave` are stopped by a lookup that finds nothing under the substituted id, `RequestTransfer` if it is the source,
`FundSummary` and `FundTransactions` only by an error of the repository, and `JoinWaitingList` only by an entry
that is there already. The first user to join the list of `abc` is put on the list of the nil UUID
(`abc_has_a_waiting_list`).
-/

namespace Locus.Backend

/-! ### The other methods of the repositories -/

/-- The types of `internal/models` and `pkg/response` that the service passes on as they are. -/
structure Models where
  UpdateCommunityInput : Type
  FundSummary : Type
  /-- `[]*models.CommunityFundTransaction` and `*response.Meta`. -/
  TransactionPage : Type

/-- `models.WaitingListEntry` -/
structure WaitingListEntry (ID : Type) where
  communityID : ID
  userID : ID
deriving DecidableEq

/-- `communityService` with the methods of its repositories that found no community and change no membership. -/
structure FullService (ID σ X : Type) (M : Models) extends CommunityService ID σ X where
  update : X → σ → ID → M.UpdateCommunityInput → Except String (Community ID) × σ
  /-- The entry, or nil; its error is always dropped. -/
  findWaitingListEntry : X → σ → ID → ID → Option (WaitingListEntry ID)
  addToWaitingList : X → σ → WaitingListEntry ID → Except String Unit × σ
  findByCommunity : X → σ → ID → Except String (List (Membership ID))
  getFundSummary : X → σ → ID → Except String M.FundSummary
  getTransactions : X → σ → ID → ℤ → ℤ → Except String M.TransactionPage

variable {ID σ X : Type} {M : Models}

namespace FullService

variable (svc : FullService ID σ X M)

def getByID (id : String) (x : X) (s : σ) : Except String (Community ID) :=
  if !(svc.parse id).2 then .error "invalid community id"
  else svc.communityRepo.findByID x s (svc.uid id)

/-- `Update`; the community that is found has the id. -/
def updateCommunity [DecidableEq ID] (id : String) (userID : ID) (input : M.UpdateCommunityInput) (x y : X) (s : σ) :
    Except String (Community ID) × σ :=
  match svc.getByID id x s with
  | .error err => (.error err, s)
  | .ok community =>
    if community.ownerID ≠ userID then (.error "not authorized", s)
    else svc.update y s (svc.uid id) input

def getMembers (id : String) (x : X) (s : σ) : Except String (List (Membership ID)) :=
  if !(svc.parse id).2 then .error "invalid id"
  else svc.findByCommunity x s (svc.uid id)

def fundSummary (communityID : String) (x : X) (s : σ) : Except String M.FundSummary :=
  svc.getFundSummary x s (svc.uid communityID)

def fundTransactions (communityID : String) (page limit : ℤ) (x : X) (s : σ) : Except String M.TransactionPage :=
  svc.getTransactions x s (svc.uid communityID) page limit

def joinWaitingList (communityID : String) (userID : ID) (x y : X) (s : σ) :
    Except String (WaitingListEntry ID) × σ :=
  match svc.findWaitingListEntry x s userID (svc.uid communityID) with
  | some _ => (.error "already on waiting list", s)
  | none =>
    let entry : WaitingListEntry ID := { communityID := svc.uid communityID, userID }
    match svc.addToWaitingList y s entry with
    | (.error err, s) => (.error err, s)
    | (.ok (), s) => (.ok entry, s)

end FullService

/-! ### Operations that take a community id -/

/-- A call with a community id, and what the environment chooses for its calls of a repository. -/
inductive Operation (ID X : Type) (M : Models)
  | getByID (id : String) (x : X)
  | update (id : String) (userID : ID) (input : M.UpdateCommunityInput) (x y : X)
  | getMembers (id : String) (x : X)
  | apply (communityID : String) (userID : ID) (propertyID message : String) (x y : X)
  | approveMember (communityID : String) (adminID targetUserID : ID) (x y : X)
  | rejectMember (communityID : String) (adminID targetUserID : ID) (x y : X)
  | leave (communityID : String) (userID : ID) (x y : X)
  | distributeIncome (communityID : String) (adminID : ID) (x y : X)
  | fundSummary (communityID : String) (x : X)
  | fundTransactions (communityID : String) (page limit : ℤ) (x : X)
  | joinWaitingList (communityID : String) (userID : ID) (x y : X)
  | requestTransfer (fromID toID : String) (userID : ID) (message : String) (x y : X)

def Operation.communityIDs : Operation ID X M → List String
  | getByID id _ | update id _ _ _ _ | getMembers id _ | apply id .. | approveMember id .. | rejectMember id ..
  | leave id .. | distributeIncome id .. | fundSummary id _ | fundTransactions id .. | joinWaitingList id .. => [id]
  | requestTransfer fromID toID .. => [fromID, toID]

/-- Of a result, only whether it is an error and which. -/
def errorOf {α : Type} : Except String α → Option String
  | .error err => some err
  | .ok _ => none

def outcome {α : Type} (r : Except String α × σ) : Option String × σ := (errorOf r.1, r.2)

/-- The call: its error, and the state behind it. -/
def FullService.perform [DecidableEq ID] (svc : FullService ID σ X M) (op : Operation ID X M) (s : σ) :
    Option String × σ :=
  match op with
  | .getByID id x => (errorOf (svc.getByID id x s), s)
  | .update id userID input x y => outcome (svc.updateCommunity id userID input x y s)
  | .getMembers id x => (errorOf (svc.getMembers id x s), s)
  | .apply communityID userID propertyID message x y =>
    outcome (svc.apply communityID userID propertyID message x y s)
  | .approveMember communityID adminID targetUserID x y =>
    outcome (svc.approveMember communityID adminID targetUserID x y s)
  | .rejectMember communityID adminID targetUserID x y =>
    outcome (svc.rejectMember communityID adminID targetUserID x y s)
  | .leave communityID userID x y => outcome (svc.leave communityID userID x y s)
  | .distributeIncome communityID adminID x y => outcome (svc.distributeIncome communityID adminID x y s)
  | .fundSummary communityID x => (errorOf (svc.fundSummary communityID x s), s)
  | .fundTransactions communityID page limit x => (errorOf (svc.fundTransactions communityID page limit x s), s)
  | .joinWaitingList communityID userID x y => outcome (svc.joinWaitingList communityID userID x y s)
  | .requestTransfer fromID toID userID message x y =>
    outcome (svc.requestTransfer fromID toID userID message x y s)

/-! ### The writes of an operation -/

/-- A call of a repository that writes. -/
inductive RepositoryWrite (ID : Type) (M : Models)
  | createCommunity (c : Community ID)
  | updateCommunity (id : ID) (input : M.UpdateCommunityInput)
  | addToWaitingList (entry : WaitingListEntry ID)
  | createTransferRequest (tr : TransferRequest ID)
  | createMembership (m : Membership ID)
  | updateStatus (userID communityID : ID) (status : MemberStatus)
  | deleteMembership (userID communityID : ID)
  | distributeToMembers (communityID : ID)

/-- The write is recorded, whether it succeeds or not. -/
def record {α : Type} (w : RepositoryWrite ID M) (log : List (RepositoryWrite ID M)) (r : α × σ) :
    α × σ × List (RepositoryWrite ID M) := (r.1, r.2, log ++ [w])

/-- The service on the same repositories, with a record of the writes. -/
def FullService.recording (svc : FullService ID σ X M) :
    FullService ID (σ × List (RepositoryWrite ID M)) X M where
  communityRepo :=
    { create := fun x s c => record (.createCommunity c) s.2 (svc.communityRepo.create x s.1 c)
      findByID := fun x s => svc.communityRepo.findByID x s.1
      createTransferRequest := fun x s tr =>
        record (.createTransferRequest tr) s.2 (svc.communityRepo.createTransferRequest x s.1 tr) }
  memberRepo :=
    { create := fun x s m => record (.createMembership m) s.2 (svc.memberRepo.create x s.1 m)
      findByUserAndCommunity := fun x s => svc.memberRepo.findByUserAndCommunity x s.1
      updateStatus := fun x s u c status =>
        record (.updateStatus u c status) s.2 (svc.memberRepo.updateStatus x s.1 u c status)
      delete := fun x s u c => record (.deleteMembership u c) s.2 (svc.memberRepo.delete x s.1 u c) }
  financeRepo :=
    { distributeToMembers := fun x s c =>
        record (.distributeToMembers c) s.2 (svc.financeRepo.distributeToMembers x s.1 c) }
  parse := svc.parse
  update x s id input := record (.updateCommunity id input) s.2 (svc.update x s.1 id input)
  findWaitingListEntry x s := svc.findWaitingListEntry x s.1
  addToWaitingList x s entry := record (.addToWaitingList entry) s.2 (svc.addToWaitingList x s.1 entry)
  findByCommunity x s := svc.findByCommunity x s.1
  getFundSummary x s := svc.getFundSummary x s.1
  getTransactions x s := svc.getTransactions x s.1

/-! ### Malformed ids -/

/-- A community id of the call is not a UUID. -/
def FullService.Malformed (svc : FullService ID σ X M) (op : Operation ID X M) : Prop :=
  ∃ id ∈ op.communityIDs, (svc.parse id).2 = false

/-- The call returns an error, and the repositories are as before and were asked for no write. -/
def FullService.ChangesNothing [DecidableEq ID] (svc : FullService ID σ X M) (op : Operation ID X M) (s : σ) : Prop :=
  ∃ err, svc.recording.perform op (s, []) = (some err, s, [])

/-- What stops a call with a malformed id: the check of the id, or a check of what is stored under the id in its
place. -/
def FullService.Stopped (svc : FullService ID σ X M) (s : σ) : Operation ID X M → Prop
  | .getByID .. | .update .. | .getMembers .. | .apply .. => True
  | .approveMember communityID adminID _ x _ | .rejectMember communityID adminID _ x _
  | .distributeIncome communityID adminID x _ => svc.verifyAdmin adminID (svc.uid communityID) x s = false
  | .leave communityID userID x _ =>
    ∀ community, svc.communityRepo.findByID x s (svc.uid communityID) = .ok community →
      community.ownerID = userID ∧ community.memberCount > 1
  | .fundSummary communityID x => ∃ err, svc.getFundSummary x s (svc.uid communityID) = .error err
  | .fundTransactions communityID page limit x =>
    ∃ err, svc.getTransactions x s (svc.uid communityID) page limit = .error err
  | .joinWaitingList communityID userID x _ => svc.findWaitingListEntry x s userID (svc.uid communityID) ≠ none
  | .requestTransfer fromID _ userID _ x _ =>
    ∃ err, svc.memberRepo.findByUserAndCommunity x s userID (svc.uid fromID) = .error err

/-- A recorded call was refused: an error, the state as before, nothing recorded. -/
def Refused {α : Type} (s : σ) (r : Except String α × σ × List (RepositoryWrite ID M)) : Prop :=
  ∃ err, outcome r = (some err, s, [])

section
variable {α : Type} {s : σ}

theorem refused_error (err : String) :
    Refused s ((.error err, s, []) : Except String α × σ × List (RepositoryWrite ID M)) :=
  ⟨err, rfl⟩

theorem refused_read {r : Except String α} :
    Refused s ((r, s, []) : Except String α × σ × List (RepositoryWrite ID M)) ↔ ∃ err, r = .error err := by
  constructor
  · rintro ⟨err, h⟩
    cases r with
    | error err' => exact ⟨err', rfl⟩
    | ok a => cases h
  · rintro ⟨err, rfl⟩
    exact refused_error err

theorem not_refused {r : Except String α × σ × List (RepositoryWrite ID M)} (h : r.2.2 ≠ []) : ¬ Refused s r := by
  rintro ⟨err, hr⟩
  exact h (congrArg (·.2.2) hr)

theorem not_refused_record (w : RepositoryWrite ID M) (r : Except String α × σ) : ¬ Refused s (record w [] r) :=
  not_refused (List.cons_ne_nil w [])

/-- Nor is what is returned behind a write. -/
theorem not_refused_after {w : RepositoryWrite ID M} {r : Except String Unit × σ} {u : Except String Unit}
    {s' : σ × List (RepositoryWrite ID M)} (h : record w [] r = (u, s')) (result : Except String α) :
    ¬ Refused s (result, s') := by
  have hs' : (record w [] r).2 = s' := congrArg Prod.snd h
  rw [← hs']
  exact not_refused (List.cons_ne_nil w [])

end

section
variable (svc : FullService ID σ X M) (s : σ)

theorem refused_verifyAdmin (adminID uid : ID) (x : X) {r : Except String Unit × σ × List (RepositoryWrite ID M)}
    (hr : r.2.2 ≠ []) :
    Refused s (if !svc.verifyAdmin adminID uid x s then (.error "not authorized", s, []) else r) ↔
      svc.verifyAdmin adminID uid x s = false := by
  cases svc.verifyAdmin adminID uid x s with
  | false => exact iff_of_true (refused_error _) rfl
  | true => exact iff_of_false (not_refused hr) Bool.noConfusion

theorem refused_setStatus (status : MemberStatus) (communityID : String) (adminID targetUserID : ID) (x y : X) :
    Refused s (svc.recording.setStatus status communityID adminID targetUserID x y (s, [])) ↔
      svc.verifyAdmin adminID (svc.uid communityID) x s = false :=
  refused_verifyAdmin svc s adminID (svc.uid communityID) x
    (r := svc.recording.memberRepo.updateStatus y (s, []) targetUserID (svc.uid communityID) status)
    (List.cons_ne_nil _ _)

theorem refused_distributeIncome (communityID : String) (adminID : ID) (x y : X) :
    Refused s (svc.recording.distributeIncome communityID adminID x y (s, [])) ↔
      svc.verifyAdmin adminID (svc.uid communityID) x s = false :=
  refused_verifyAdmin svc s adminID (svc.uid communityID) x
    (r := svc.recording.financeRepo.distributeToMembers y (s, []) (svc.uid communityID)) (List.cons_ne_nil _ _)

theorem refused_leave [DecidableEq ID] (communityID : String) (userID : ID) (x y : X) :
    Refused s (svc.recording.leave communityID userID x y (s, [])) ↔
      ∀ community, svc.communityRepo.findByID x s (svc.uid communityID) = .ok community →
        community.ownerID = userID ∧ community.memberCount > 1 := by
  have hfind : svc.recording.communityRepo.findByID x (s, []) (svc.recording.uid communityID) =
      svc.communityRepo.findByID x s (svc.uid communityID) := rfl
  rw [CommunityService.leave, hfind]
  cases svc.communityRepo.findByID x s (svc.uid communityID) with
  | error err => exact iff_of_true (refused_error err) fun _ h => (nomatch h)
  | ok community =>
    simp only [Except.ok.injEq, forall_eq']
    split
    · rename_i hguard
      exact iff_of_true (refused_error _) hguard
    · rename_i hguard
      exact iff_of_false (not_refused_record _ _) hguard

theorem refused_joinWaitingList (communityID : String) (userID : ID) (x y : X) :
    Refused s (svc.recording.joinWaitingList communityID userID x y (s, [])) ↔
      svc.findWaitingListEntry x s userID (svc.uid communityID) ≠ none := by
  have hfind : svc.recording.findWaitingListEntry x (s, []) userID (svc.recording.uid communityID) =
      svc.findWaitingListEntry x s userID (svc.uid communityID) := rfl
  rw [FullService.joinWaitingList, hfind]
  cases svc.findWaitingListEntry x s userID (svc.uid communityID) with
  | some entry => exact iff_of_true (refused_error _) (Option.some_ne_none entry)
  | none =>
    refine iff_of_false ?_ fun h => h rfl
    dsimp only
    split
    · rename_i hwrite
      exact not_refused_after hwrite _
    · rename_i hwrite
      exact not_refused_after hwrite _

theorem refused_requestTransfer (fromID toID : String) (userID : ID) (message : String) (x y : X) :
    Refused s (svc.recording.requestTransfer fromID toID userID message x y (s, [])) ↔
      ∃ err, svc.memberRepo.findByUserAndCommunity x s userID (svc.uid fromID) = .error err := by
  have hfind : svc.recording.memberRepo.findByUserAndCommunity x (s, []) userID (svc.recording.uid fromID) =
      svc.memberRepo.findByUserAndCommunity x s userID (svc.uid fromID) := rfl
  rw [CommunityService.requestTransfer, hfind]
  cases svc.memberRepo.findByUserAndCommunity x s userID (svc.uid fromID) with
  | error err => exact iff_of_true (refused_error _) ⟨err, rfl⟩
  | ok m =>
    refine iff_of_false ?_ (by rintro ⟨err, ⟨⟩⟩)
    dsimp only
    split
    · rename_i hwrite
      exact not_refused_after hwrite _
    · rename_i hwrite
      exact not_refused_after hwrite _

end

section
variable (svc : FullService ID σ X M) {communityID : String} (h : (svc.parse communityID).2 = false) (x y : X) (s : σ)

include h

theorem getByID_malformed : svc.getByID communityID x s = .error "invalid community id" := by
  rw [FullService.getByID, h]
  rfl

theorem updateCommunity_malformed [DecidableEq ID] (userID : ID) (input : M.UpdateCommunityInput) :
    svc.updateCommunity communityID userID input x y s = (.error "invalid community id", s) := by
  rw [FullService.updateCommunity, getByID_malformed svc h]

theorem getMembers_malformed : svc.getMembers communityID x s = .error "invalid id" := by
  rw [FullService.getMembers, h]
  rfl

theorem apply_malformed (userID : ID) (propertyID message : String) :
    svc.apply communityID userID propertyID message x y s = (.error "invalid community id", s) := by
  rw [CommunityService.apply, h]
  rfl

end

section
variable {svc : FullService ID σ X M} {s : σ}

theorem FullService.Malformed.parse {op : Operation ID X M} (h : svc.Malformed op) {id : String}
    (hid : op.communityIDs = [id]) : (svc.parse id).2 = false := by
  obtain ⟨id', hmem, hparse⟩ := h
  rw [hid] at hmem
  exact List.mem_singleton.mp hmem ▸ hparse

/-- **A malformed id changes nothing** if and only if one of the checks stops the call. -/
theorem malformed_id_iff [DecidableEq ID] {op : Operation ID X M} (h : svc.Malformed op) :
    svc.ChangesNothing op s ↔ svc.Stopped s op := by
  cases op with
  | getByID id x =>
    have hget := getByID_malformed svc.recording (h.parse rfl) x (s, [])
    exact iff_of_true (refused_read.mpr ⟨_, hget⟩) trivial
  | update id userID input x y =>
    have hupdate := updateCommunity_malformed svc.recording (h.parse rfl) x y (s, []) userID input
    exact iff_of_true (show Refused s _ from hupdate ▸ refused_error _) trivial
  | getMembers id x =>
    have hget := getMembers_malformed svc.recording (h.parse rfl) x (s, [])
    exact iff_of_true (refused_read.mpr ⟨_, hget⟩) trivial
  | apply communityID userID propertyID message x y =>
    have happly := apply_malformed svc.recording (h.parse rfl) x y (s, []) userID propertyID message
    exact iff_of_true (show Refused s _ from happly ▸ refused_error _) trivial
  | approveMember communityID adminID targetUserID x y => exact refused_setStatus svc s ..
  | rejectMember communityID adminID targetUserID x y => exact refused_setStatus svc s ..
  | distributeIncome communityID adminID x y => exact refused_distributeIncome svc s ..
  | leave communityID userID x y => exact refused_leave svc s ..
  | fundSummary communityID x => exact refused_read
  | fundTransactions communityID page limit x => exact refused_read
  | joinWaitingList communityID userID x y => exact refused_joinWaitingList svc s ..
  | requestTransfer fromID toID userID message x y => exact refused_requestTransfer svc s ..

end

/-! ### The waiting list of `abc` -/

def noModels : Models := ⟨Unit, Unit, Unit⟩

/-- The repositories in memory, with an id in strokes, 0 for a text that is none, and a waiting list that is empty. -/
def strokes : FullService ℕ (Store ℕ) ℕ noModels where
  toCommunityService := { inMemory with
    parse := fun text => if text ≠ "" ∧ text.toList.all (· = '|') then (text.toList.length, true) else (0, false) }
  update _ s id _ := match s.community id with
    | some c => (.ok c, s)
    | none => (.error "record not found", s)
  findWaitingListEntry _ _ _ _ := none
  addToWaitingList _ s _ := (.ok (), s)
  findByCommunity _ _ _ := .ok []
  getFundSummary _ _ _ := .error "record not found"
  getTransactions _ _ _ _ _ := .ok ()

/-- There is no community under the substituted id to leave. -/
theorem malformed_id_iff_leave : strokes.ChangesNothing (.leave "abc" 2 0 0) {} := by
  refine (malformed_id_iff ⟨"abc", List.mem_singleton.mpr rfl, rfl⟩).mpr ?_
  rintro community ⟨⟩

/-- **`abc` has a waiting list**: user 2 joins it, and the entry is for the nil UUID. -/
theorem abc_has_a_waiting_list :
    strokes.recording.perform (.joinWaitingList "abc" 2 0 0) ({}, []) =
      (none, {}, [.addToWaitingList { communityID := 0, userID := 2 }]) ∧
    ¬ ∀ (op : Operation ℕ ℕ noModels) (s : Store ℕ), strokes.Malformed op → strokes.ChangesNothing op s := by
  refine ⟨rfl, fun hclaim => ?_⟩
  obtain ⟨err, h⟩ := hclaim (.joinWaitingList "abc" 2 0 0) {} ⟨"abc", List.mem_singleton.mpr rfl, rfl⟩
  have hnone : none = some err := congrArg Prod.fst h
  cases hnone

end Locus.Backend
