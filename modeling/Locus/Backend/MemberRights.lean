import Locus.Backend.CommunityService

/-!
# Who may act for a community

`ApproveMember`, `RejectMember` and `DistributeIncome` look at the role of the caller and not at the status of
his membership, and `RequestTransfer` looks only whether there is one. So an applicant who is pending or
rejected can ask for a transfer, and a founder who has rejected himself goes on to manage the community
(`member_rights_iff`). He is the only one: while no admin or founder rejects one, all of them are active.
-/

namespace Locus.Backend

open Lib

variable {ID σ X : Type}

/-- A call for which the caller has to be an active member. -/
inductive MemberCall (ID : Type)
  | approveMember (communityID : String) (adminID targetUserID : ID)
  | rejectMember (communityID : String) (adminID targetUserID : ID)
  | distributeIncome (communityID : String) (adminID : ID)
  | requestTransfer (fromID toID : String) (userID : ID) (message : String)

namespace MemberCall

def caller : MemberCall ID → ID
  | approveMember _ adminID _ | rejectMember _ adminID _ | distributeIncome _ adminID => adminID
  | requestTransfer _ _ userID _ => userID

/-- The community that the caller acts for. -/
def community : MemberCall ID → String
  | approveMember communityID .. | rejectMember communityID .. | distributeIncome communityID _ => communityID
  | requestTransfer fromID .. => fromID

/-- The call is for admins and founders. -/
def manages : MemberCall ID → Bool
  | requestTransfer .. => false
  | _ => true

end MemberCall

def CommunityService.succeeds (svc : CommunityService ID σ X) (call : MemberCall ID) (x y : X) (s : σ) : Bool :=
  match call with
  | .approveMember communityID adminID targetUserID =>
    (svc.approveMember communityID adminID targetUserID x y s).1.isOk
  | .rejectMember communityID adminID targetUserID =>
    (svc.rejectMember communityID adminID targetUserID x y s).1.isOk
  | .distributeIncome communityID adminID => (svc.distributeIncome communityID adminID x y s).1.isOk
  | .requestTransfer fromID toID userID message => (svc.requestTransfer fromID toID userID message x y s).1.isOk

/-- The caller is an active member, and an admin or founder where the call is for these. -/
def Entitled (svc : CommunityService ID σ X) (v : Store ID) (call : MemberCall ID) : Prop :=
  ∃ m, v.membership call.caller (svc.uid call.community) = some m ∧ m.status = .active ∧
    (call.manages → m.role = .admin ∨ m.role = .founder)

/-- The caller has no membership with which he gets through the check without being active. -/
def Fit (svc : CommunityService ID σ X) (v : Store ID) (call : MemberCall ID) : Prop :=
  ∀ m, v.membership call.caller (svc.uid call.community) = some m →
    (call.manages → m.role = .admin ∨ m.role = .founder) → m.status ≠ .pending ∧ m.status ≠ .rejected

/-- No admin or founder rejects one. -/
def SparesFounders (svc : CommunityService ID σ X) (v : Store ID) : ServiceCall ID X → Prop
  | .rejectMember communityID adminID targetUserID _ _ =>
    ¬ (v.Verified adminID (svc.uid communityID) ∧ v.Verified targetUserID (svc.uid communityID))
  | _ => True

section
variable [DecidableEq ID] {svc : CommunityService ID σ X} {store : σ → Store ID} {works : X} {s : σ}
  {v v' : Store ID} {call : MemberCall ID}

theorem verified_of_isOk (h : svc.Lawful store works) {adminID uid : ID} {x : X}
    {rest : Except String Unit × σ}
    (hok : (if !svc.verifyAdmin adminID uid x s then (.error "not authorized", s) else rest).1.isOk) :
    (store s).Verified adminID uid := by
  refine verified_of_verifyAdmin h (x := x) ?_
  cases hadmin : svc.verifyAdmin adminID uid x s with
  | true => rfl
  | false =>
    rw [hadmin] at hok
    cases hok

theorem membership_of_succeeds (h : svc.Lawful store works) {x y : X} (hok : svc.succeeds call x y s) :
    ∃ m, (store s).membership call.caller (svc.uid call.community) = some m ∧
      (call.manages → m.role = .admin ∨ m.role = .founder) := by
  cases call with
  | approveMember communityID adminID targetUserID | rejectMember communityID adminID targetUserID
  | distributeIncome communityID adminID =>
    obtain ⟨m, hm, hrole⟩ := verified_of_isOk h hok
    exact ⟨m, hm, fun _ => hrole⟩
  | requestTransfer fromID toID userID message =>
    unfold CommunityService.succeeds CommunityService.requestTransfer at hok
    dsimp only at hok
    split at hok
    · cases hok
    · rename_i m hfind
      exact ⟨m, h.findMembership x s userID (svc.uid fromID) m hfind, fun hmanages => by cases hmanages⟩

theorem succeeds_works (h : svc.Lawful store works) {m : Membership ID}
    (hm : (store s).membership call.caller (svc.uid call.community) = some m)
    (hrole : call.manages → m.role = .admin ∨ m.role = .founder) : svc.succeeds call works works s := by
  cases call with
  | approveMember communityID adminID targetUserID =>
    have hadmin : (store s).Verified adminID (svc.uid communityID) := ⟨m, hm, hrole rfl⟩
    have hset : (svc.approveMember communityID adminID targetUserID works works s).1 = .ok () :=
      (setStatus_works h .active targetUserID hadmin).1
    rw [CommunityService.succeeds, hset]
    rfl
  | rejectMember communityID adminID targetUserID =>
    have hadmin : (store s).Verified adminID (svc.uid communityID) := ⟨m, hm, hrole rfl⟩
    have hset : (svc.rejectMember communityID adminID targetUserID works works s).1 = .ok () :=
      (setStatus_works h .rejected targetUserID hadmin).1
    rw [CommunityService.succeeds, hset]
    rfl
  | distributeIncome communityID adminID =>
    have hadmin : (store s).Verified adminID (svc.uid communityID) := ⟨m, hm, hrole rfl⟩
    have hdistribute : (svc.distributeIncome communityID adminID works works s).1 = .ok () := by
      rw [CommunityService.distributeIncome, verifyAdmin_works h hadmin]
      exact h.distribute_works s (svc.uid communityID)
    rw [CommunityService.succeeds, hdistribute]
    rfl
  | requestTransfer fromID toID userID message =>
    have htransfer := h.transfer_works s
      { userID, fromCommunityID := svc.uid fromID, toCommunityID := svc.uid toID, message, status := "pending" }
    have hfind : svc.memberRepo.findByUserAndCommunity works s userID (svc.uid fromID) = .ok m :=
      h.findMembership_works s userID (svc.uid fromID) m hm
    change (svc.requestTransfer fromID toID userID message works works s).1.isOk = true
    rw [CommunityService.requestTransfer, hfind]
    dsimp only
    split
    · rename_i hresult
      rw [hresult] at htransfer
      cases htransfer
    · rfl

theorem entitled_iff_fit (h : svc.Lawful store works) :
    (∀ x y, svc.succeeds call x y s → Entitled svc (store s) call) ↔ Fit svc (store s) call := by
  constructor
  · intro hentitled m hm hrole
    obtain ⟨m', hm', hactive, -⟩ := hentitled works works (succeeds_works h hm hrole)
    obtain rfl := Option.some.inj (hm'.symm.trans hm)
    simp [hactive]
  · intro hfit x y hok
    obtain ⟨m, hm, hrole⟩ := membership_of_succeeds h hok
    obtain ⟨hpending, hrejected⟩ := hfit m hm hrole
    refine ⟨m, hm, ?_, hrole⟩
    cases hstatus : m.status with
    | active => rfl
    | pending => exact absurd hstatus hpending
    | rejected => exact absurd hstatus hrejected

/-- Who is an admin or founder is active. -/
def Store.LeadersActive (v : Store ID) : Prop :=
  ∀ u c m, v.membership u c = some m → m.role = .admin ∨ m.role = .founder → m.status = .active

theorem leadersActive_step {call : ServiceCall ID X} (h : v.LeadersActive) (hC : SparesFounders svc v call)
    (he : Effect svc v call v') : v'.LeadersActive := by
  cases he with
  | none => exact h
  | founds ownerID input x y id hid => exact h
  | foundsWithFounder ownerID input x y id hid hnew =>
    intro u c m hm hrole
    rcases Store.addMembership_cases _ _ _ hm with ⟨-, -, rfl⟩ | ⟨-, hm⟩
    · rfl
    · exact h u c m hm hrole
  | applies communityID userID propertyID message x y m₀ hm₀ hnew =>
    intro u c m hm hrole
    rcases Store.addMembership_cases _ _ _ hm with ⟨-, -, rfl⟩ | ⟨-, hm⟩
    · simp [hm₀.2.2.1] at hrole
    · exact h u c m hm hrole
  | approves communityID adminID targetUserID x y hadmin =>
    intro u c m hm hrole
    obtain ⟨m₀, hm₀, -, ⟨-, -, hactive⟩ | ⟨-, rfl⟩⟩ := Store.setStatus_cases _ _ _ _ _ _ hm
    · exact hactive
    · exact h u c m hm₀ hrole
  | rejects communityID adminID targetUserID x y hadmin =>
    intro u c m hm hrole
    obtain ⟨m₀, hm₀, hsame, ⟨rfl, rfl, -⟩ | ⟨-, rfl⟩⟩ := Store.setStatus_cases _ _ _ _ _ _ hm
    · exact absurd ⟨hadmin, m₀, hm₀, hsame ▸ hrole⟩ hC
    · exact h u c m hm₀ hrole
  | leaves communityID userID x y community hcommunity hguard =>
    intro u c m hm hrole
    exact h u c m (Store.removeMembership_cases _ _ _ _ _ hm).2 hrole

theorem leadersActive_of_reachable (h : svc.Lawful store works)
    (hs : (communityService svc store).Reachable (fun s call => SparesFounders svc (store s) call) s) :
    (store s).LeadersActive := by
  refine hs.invariant (fun s => (store s).LeadersActive) (fun s hinit => ?_) fun s call s' hi hC hstep =>
    leadersActive_step hi hC (effect_of_step h hstep)
  have hempty : store s = {} := hinit
  rw [hempty]
  intro u c m hm
  cases hm

/-- Whoever gets through with a call for admins and founders is an active one. -/
def LeadersEntitled (svc : CommunityService ID σ X) (store : σ → Store ID) (s : σ) : Prop :=
  ∀ call : MemberCall ID, call.manages → ∀ x y, svc.succeeds call x y s → Entitled svc (store s) call

theorem leadersEntitled_of_active (h : svc.Lawful store works) (hactive : (store s).LeadersActive) :
    LeadersEntitled svc store s := by
  intro call hmanages
  refine (entitled_iff_fit h).mpr fun m hm hrole => ?_
  have hstatus := hactive _ _ m hm (hrole hmanages)
  simp [hstatus]

theorem sparesFounders_of_entitled (h : svc.Lawful store works) {s' : σ} {call : ServiceCall ID X}
    (hworks : call.Works works) (hstep : (communityService svc store).step s call = some s')
    (hentitled : LeadersEntitled svc store s') : SparesFounders svc (store s) call := by
  obtain rfl := Option.some.inj hstep
  cases call with
  | create | apply | approveMember | leave => trivial
  | rejectMember communityID adminID targetUserID x y =>
    obtain ⟨rfl, rfl⟩ := hworks
    rintro ⟨hadmin, m, hm, hrole⟩
    have hset : store (svc.rejectMember communityID adminID targetUserID y y s).2 = _ :=
      (setStatus_works h .rejected targetUserID hadmin).2
    have hfit : Fit svc (store (svc.rejectMember communityID adminID targetUserID y y s).2)
        (.rejectMember communityID targetUserID adminID) :=
      (entitled_iff_fit h).mp (hentitled (.rejectMember communityID targetUserID adminID) rfl)
    rw [hset] at hfit
    have hrejected : ((store s).setStatus targetUserID (svc.uid communityID) .rejected).membership targetUserID
        (svc.uid communityID) = some { m with status := .rejected } := by
      simp [Store.setStatus, hm]
    exact (hfit _ hrejected fun _ => hrole).2 rfl

/-- **Who exercises the rights of a member**: a call that succeeds is made by an active member, and an admin or
founder where it is for these, just if its caller is not pending or rejected with a membership that passes the
check. In a run in which no admin or founder rejects one that is so for the calls that are for these, and the
first such rejection, on repositories that work, ends it. -/
theorem member_rights_iff (h : svc.Lawful store works) :
    (∀ s call, (∀ x y, svc.succeeds call x y s → Entitled svc (store s) call) ↔ Fit svc (store s) call) ∧
    ∀ s, (communityService svc store).Reachable (fun s call => SparesFounders svc (store s) call) s →
      LeadersEntitled svc store s ∧ ∀ call s', call.Works works →
        (communityService svc store).step s call = some s' →
        (LeadersEntitled svc store s' ↔ SparesFounders svc (store s) call) := by
  refine ⟨fun s call => entitled_iff_fit h, fun s hs => ?_⟩
  have hactive := leadersActive_of_reachable h hs
  refine ⟨leadersEntitled_of_active h hactive, fun call s' hworks hstep => ⟨?_, fun hC => ?_⟩⟩
  · exact sparesFounders_of_entitled h hworks hstep
  · exact leadersEntitled_of_active h (leadersActive_step hactive hC (effect_of_step h hstep))

end

/-! ### On repositories in memory -/

/-- Bea, who is pending, asks for a transfer out of the community; and Ana rejects herself. -/
theorem member_rights_iff_bea : ∃ s : Store ℕ,
    (communityService inMemory id).Reachable (fun s call => SparesFounders inMemory s call) s ∧
      (¬ ∀ x y, inMemory.succeeds (.requestTransfer "|" "||" 2 "") x y s →
        Entitled inMemory s (.requestTransfer "|" "||" 2 "")) ∧
      LeadersEntitled inMemory id s ∧
      ¬ LeadersEntitled inMemory id (inMemory.perform s (.rejectMember "|" 1 1 0 0)) := by
  have hreach : (communityService inMemory id).Reachable (fun s call => SparesFounders inMemory s call)
      (inMemory.perform (inMemory.perform {} anaFounds) (.apply "|" 2 "|" "" 0 0)) :=
    ⟨{}, [anaFounds, .apply "|" 2 "|" "" 0 0], rfl, (System.Run.nil.snoc trivial rfl).snoc trivial rfl⟩
  obtain ⟨hfit, hrun⟩ := member_rights_iff inMemory_lawful
  obtain ⟨hentitled, hnext⟩ := hrun _ hreach
  refine ⟨_, hreach, fun hclaim => ?_, hentitled, fun hclaim => ?_⟩
  · exact ((hfit _ _).mp hclaim _ rfl fun hmanages => by cases hmanages).1 rfl
  · refine (hnext (.rejectMember "|" 1 1 0 0) _ ⟨rfl, rfl⟩ rfl).mp hclaim ⟨?_, ?_⟩
    all_goals exact ⟨_, rfl, .inr rfl⟩

/-- **A founder who has rejected himself approves Bea.** -/
theorem rejected_ana_approves :
    ¬ ∀ s : Store ℕ, (communityService inMemory id).Reachable System.Any s → ∀ (call : MemberCall ℕ) (x y : ℕ),
      inMemory.succeeds call x y s → Entitled inMemory s call := by
  intro hclaim
  obtain ⟨s, hs, hstatus⟩ := System.reachable_of_exec (communityService inMemory id) (fun _ _ => true)
    (fun s : Store ℕ => ((s.membership 1 1).map (·.status), inMemory.succeeds (.approveMember "|" 1 2) 0 0 s))
    [anaFounds, .apply "|" 2 "|" "" 0 0, .rejectMember "|" 1 1 0 0] (s := {}) (a := (some .rejected, true)) rfl
    (by decide +kernel)
  obtain ⟨hrejected, hok⟩ : _ ∧ _ := by simpa only [Prod.mk.injEq] using hstatus
  obtain ⟨m, hm, hactive, -⟩ := hclaim s (hs.mono fun _ _ _ => trivial) (.approveMember "|" 1 2) 0 0 hok
  have hm' : s.membership 1 1 = some m := hm
  simp [hm', hactive] at hrejected

end Locus.Backend
